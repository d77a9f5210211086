import ContentServer.Consumers.Pricing
import ContentServer.Consumers.Shards

/-!
# Paying for an enhancement

`HandleEnhance` reads the level of the item in one transaction and pays its
price in another.  The messages of a session are handled by one consumer, but a
user who logs in again has a session on another shard, while the handler of the
old session may still be between its two transactions.

Every consumer is followed by a note of the item that it read last.  The note
agrees with the database as long as no enhancement of the item succeeds.
-/

namespace ContentServer
namespace Consumers

open Foundation Protocol Registry Storage

variable {double : Type} {pg : Postgres double}

/-- An enhancement of the item has succeeded since the consumer read an item. -/
def raisedSinceRead (shard itemId : Nat) : List (Event pg) -> Bool
  | [] => false
  | .read reader _ :: older =>
      if reader = shard then false else raisedSinceRead shard itemId older
  | .paid _ _ paidFor success _ _ :: older =>
      if paidFor = itemId ∧ success = true then true
      else raisedSinceRead shard itemId older

/-- The user paid the price of the level that the item had. -/
def Event.PaidRight : Event pg -> Prop
  | .read _ _ => True
  | .paid _ userId itemId _ before after =>
      exists user, user ∈ before.users.lookup userId ∧
      exists user', user' ∈ after.users.lookup userId ∧
      exists item, item ∈ before.items.lookup itemId ∧
        user'.gold.val = user.gold.val - 100 * (item.enhanceLevel.val + 1)

instance : (e : Event pg) -> Decidable e.PaidRight
  | .read _ _ => isTrue trivial
  | .paid _ userId _ _ before _ =>
      inferInstanceAs (Decidable (exists user, user ∈ before.users.lookup userId ∧ _))

def Shards.PaidRight (s : Shards pg) : Prop :=
  forall e, e ∈ s.world.history -> e.PaidRight
deriving Decidable

/-- The arguments of an `EnhanceItem` that a consumer is about to call. -/
structure Charge (double : Type) where
  userId : Nat
  itemId : Nat
  cost : Nat
  success : Bool
  mult : double

def Shards.charge (s : Shards pg) (shard : Nat) : Option (Charge double) :=
  match s.running shard with
  | .call (.enhanceItem userId itemId cost success mult) _ =>
      some ⟨userId, itemId, cost, success, mult⟩
  | _ => none

/-- If the step commits an `EnhanceItem`, then no enhancement of the item has
succeeded since the `GetItem` of its handler, and the price fits an `int`. -/
def Shards.Undisturbed (s : Shards pg) : Label double -> Prop
  | .act shard env =>
      forall c, c ∈ s.charge shard ->
        ((Database.enhanceItem c.userId c.itemId c.cost c.success c.mult).run
          env.faults s.world.db).committed = true ->
        raisedSinceRead shard c.itemId s.world.history = false ∧
        forall item, item ∈ s.world.db.items.lookup c.itemId ->
          Priced item.enhanceLevel.val
  | .connect _ => True
  | .disconnect _ => True
  | .receive _ _ => True
  | .sendDone _ _ _ => True
  | .pop _ => True

instance (s : Shards pg) : (label : Label double) ->
    Decidable (s.Undisturbed label)
  | .act shard _ => inferInstanceAs (Decidable (forall c, c ∈ s.charge shard -> _))
  | .connect _ => isTrue trivial
  | .disconnect _ => isTrue trivial
  | .receive _ _ => isTrue trivial
  | .sendDone _ _ _ => isTrue trivial
  | .pop _ => isTrue trivial

/-!
# What a consumer knows
-/

/-- The item of the note has at least the level of the note, and exactly this
level if no enhancement has succeeded. -/
def Knows (db : Db pg) (history : List (Event pg)) (shard : Nat)
    (note : Option (Nat × Int)) : Prop :=
  forall itemId level, note = some (itemId, level) ->
    exists item, db.items.lookup itemId = some item ∧
      level ≤ item.enhanceLevel.val ∧
      (raisedSinceRead shard itemId history = false <->
        item.enhanceLevel.val = level)

/-- Items stay as they are; there may be new ones. -/
def ItemsKept (db db' : Db pg) : Prop :=
  forall itemId item, db.items.lookup itemId = some item ->
    db'.items.lookup itemId = some item

theorem Knows.kept {db db' : Db pg} {history : List (Event pg)} {shard : Nat}
    {note : Option (Nat × Int)} (h : Knows db history shard note)
    (hkept : ItemsKept db db') : Knows db' history shard note := by
  intro itemId level hnote
  rcases h itemId level hnote with ⟨item, hitem, hlevel⟩
  exact ⟨item, hkept itemId item hitem, hlevel⟩

/-- Another consumer reads an item. -/
theorem Knows.read {db : Db pg} {history : List (Event pg)} {shard : Nat}
    {note : Option (Nat × Int)} (h : Knows db history shard note)
    {reader : Nat} (hreader : reader ≠ shard) (itemId : Nat) :
    Knows db (.read reader itemId :: history) shard note := by
  intro noted level hnote
  rcases h noted level hnote with ⟨item, hitem, hle, hraised⟩
  refine ⟨item, hitem, hle, ?_⟩
  unfold raisedSinceRead
  rw [if_neg hreader]
  exact hraised

/-- The consumer itself reads an item. -/
theorem Knows.own {db : Db pg} {history : List (Event pg)} {shard : Nat}
    {userId itemId : Nat} {reply : Option (Option Item)} {note : Option (Nat × Int)}
    (hfound : forall found, reply = some (some found) ->
      exists item, db.items.lookup itemId = some item ∧ item.ownerId = userId ∧
        found.enhanceLevel = item.enhanceLevel.val) :
    Knows db (.read shard itemId :: history) shard
      (pricing.record note (.getItem userId itemId : Op double) reply) := by
  intro noted level hnote
  rcases reply with _ | _ | found
  · cases hnote
  · cases hnote
  · cases hnote
    rcases hfound found rfl with ⟨item, hitem, _, hlevel⟩
    refine ⟨item, hitem, le_of_eq hlevel, ?_⟩
    unfold raisedSinceRead
    rw [if_pos rfl, hlevel]
    simp

/-- Anyone pays for an enhancement. -/
theorem Knows.paid {db : Db pg} {history : List (Event pg)} {shard : Nat}
    {note : Option (Nat × Int)} (h : Knows db history shard note)
    {payer userId itemId cost : Nat} {success : Bool} {mult : double}
    {out : Transaction.Result (Db pg) EnhanceResult}
    (hout : Database.Enhanced db userId itemId cost success mult out) :
    Knows out.store (.paid payer userId itemId success db out.store :: history)
      shard note := by
  rcases hout with ⟨_, _, user', item, item', _, _, _, _, hitem, _, _, hlevel, _,
    hstore, _⟩
  intro noted level hnote
  rcases h noted level hnote with ⟨other, hother, hle, hraised⟩
  rw [hstore]
  unfold raisedSinceRead
  rcases Table.lookup_insert_cases db.items itemId noted item' with
    ⟨hsame, hlookup⟩ | ⟨hne, hlookup⟩
  · subst hsame
    cases hitem.symm.trans hother
    refine ⟨item', hlookup, ?_, ?_⟩
    · cases success <;> simp at hlevel <;> omega
    · cases success with
      | false =>
          simp only [Bool.false_eq_true, and_false, if_false, add_zero] at hlevel ⊢
          rw [hlevel]
          exact hraised
      | true =>
          simp only [and_self, if_true, Bool.true_eq_false, false_iff] at hlevel ⊢
          omega
  · refine ⟨other, hlookup.trans hother, hle, ?_⟩
    rw [if_neg (fun hboth => hne hboth.left.symm)]
    exact hraised

/-!
# One operation
-/

/-- Neither `GetItem` nor `EnhanceItem`. -/
def Op.quiet : Op double -> Bool
  | .getItem _ _ => false
  | .enhanceItem _ _ _ _ _ => false
  | _ => true

/-- The other operations keep items, history and note. -/
theorem perform_quiet (shard : Nat) (env : Environment double) (w : World pg)
    {o : Op double} (h : o.quiet = true) :
    ItemsKept w.db (perform shard env w o).2.1.db ∧
      (perform shard env w o).2.1.history = w.history ∧
      forall n, pricing.record n o (perform shard env w o).1 = n := by
  cases o with
  | getItem userId itemId => cases h
  | enhanceItem userId itemId cost success mult => cases h
  | loginOrRegister name =>
      refine ⟨?_, rfl, fun _ => rfl⟩
      intro itemId item hitem
      rw [← Database.loginOrRegister_items w.db name env.newId env.faults] at hitem
      exact hitem
  | getGold userId =>
      refine ⟨?_, rfl, fun _ => rfl⟩
      intro itemId item hitem
      rw [← Database.getGold_store w.db userId env.faults] at hitem
      exact hitem
  | getItems userId =>
      refine ⟨?_, rfl, fun _ => rfl⟩
      intro itemId item hitem
      rw [← Database.getItems_store w.db userId env.faults] at hitem
      exact hitem
  | addGold userId amount =>
      refine ⟨?_, rfl, fun _ => rfl⟩
      intro itemId item hitem
      show ((Database.addGold userId amount).run env.faults
        w.db).store.items.lookup itemId = _
      rcases Database.addGold_cases w.db userId amount env.faults with
        hthrow | hadded
      · rw [hthrow]
        exact hitem
      · rcases hadded.change with ⟨_, _, _, _, _, hstore⟩
        rw [hstore]
        exact hitem
  | dropItem userId =>
      refine ⟨?_, rfl, fun _ => rfl⟩
      intro itemId item hitem
      show ((Database.dropItem userId env.newId).run env.faults
        w.db).store.items.lookup itemId = _
      rcases Database.dropItem_cases w.db userId env.newId env.faults with
        hthrow | hdropped
      · rw [hthrow]
        exact hitem
      · rw [hdropped.change]
        rcases Table.lookup_insert_cases w.db.items env.newId itemId
          ⟨userId, pg.defaultLevel, pg.defaultPower⟩ with
          ⟨hsame, _⟩ | ⟨_, hlookup⟩
        · rw [hsame, hdropped.fresh] at hitem
          cases hitem
        · exact hlookup.trans hitem
  | _ => exact ⟨fun _ _ hitem => hitem, rfl, fun _ => rfl⟩

/-- `EnhanceItem` is rolled back, or it pays and is recorded. -/
theorem perform_enhanceItem (shard : Nat) (env : Environment double)
    (w : World pg) {userId itemId cost : Nat} {success : Bool} {mult : double}
    {out : Transaction.Result (Db pg) EnhanceResult} {w' : World pg}
    (hout : (Database.enhanceItem userId itemId cost success mult).run env.faults
      w.db = out)
    (hw' : (perform shard env w
      (.enhanceItem userId itemId cost success mult)).2.1 = w') :
    (out.committed = false ∧ w'.db = w.db ∧ w'.history = w.history) ∨
    (Database.Enhanced w.db userId itemId cost success mult out ∧
      w'.db = out.store ∧
      w'.history =
        .paid shard userId itemId success w.db out.store :: w.history) := by
  have hcases := Database.enhanceItem_commits w.db userId itemId cost success mult
    env.faults
  have hhistory : w'.history = if out.committed
      then .paid shard userId itemId success w.db out.store :: w.history
      else w.history := by
    rw [← hw', ← hout]
    rfl
  have hdb : w'.db = out.store := by
    rw [← hw', ← hout]
    rfl
  rw [hout] at hcases
  rcases hcases with ⟨hcommitted, hstore⟩ | hdone
  · rw [hcommitted] at hhistory
    exact Or.inl ⟨hcommitted, hdb.trans hstore, hhistory⟩
  · rw [hdone.committed] at hhistory
    exact Or.inr ⟨hdone, hdb, hhistory⟩

/-- An operation keeps what the other consumers know, and the consumer that runs
it knows what it noted. -/
theorem knows_perform {shard : Nat} (env : Environment double) (w : World pg)
    (o : Op double) {notes : Nat -> Option (Nat × Int)}
    (hknows : forall k, Knows w.db w.history k (notes k)) (k : Nat) :
    Knows (perform shard env w o).2.1.db (perform shard env w o).2.1.history k
      (Function.update notes shard
        (pricing.record (notes shard) o (perform shard env w o).1) k) := by
  cases hquiet : o.quiet with
  | true =>
      rcases perform_quiet shard env w hquiet with ⟨hkept, hhistory, hnote⟩
      rw [hhistory, hnote, Function.update_eq_self]
      exact (hknows k).kept hkept
  | false =>
      cases o with
      | getItem userId itemId =>
          rcases Database.getItem_cases w.db userId itemId env.faults with
            ⟨hstore, hfound⟩
          show Knows ((Database.getItem userId itemId).run env.faults w.db).store
            (.read shard itemId :: w.history) k _
          rw [hstore]
          by_cases hk : k = shard
          · subst hk
            rw [Function.update_self]
            exact Knows.own hfound
          · rw [Function.update_of_ne hk]
            exact (hknows k).read (Ne.symm hk) itemId
      | enhanceItem userId itemId cost success mult =>
          change Knows _ _ k (Function.update notes shard (notes shard) k)
          rw [Function.update_eq_self]
          rcases perform_enhanceItem shard env w rfl rfl with
            ⟨_, hdb, hhistory⟩ | ⟨hdone, hdb, hhistory⟩
          · rw [hdb, hhistory]
            exact hknows k
          · rw [hdb, hhistory]
            exact (hknows k).paid hdone
      | _ => cases hquiet

/-!
# Whole runs
-/

/-- The notes describe what the consumers have read. -/
structure Tracked (notes : Nat -> Option (Nat × Int)) (s : Shards pg) : Prop where
  follows : forall k, pricing.Follows (notes k) (s.running k) (fun _ _ => True)
  knows : forall k, Knows s.world.db s.world.history k (notes k)

theorem tracked_start (shards : Nat) (db : Db pg) :
    Tracked (fun _ => none) (Shards.start shards db) where
  follows := fun _ => trivial
  knows := fun _ _ _ hnote => by cases hnote

/-- The program of one consumer is replaced. -/
theorem follows_update {running : Nat -> Handler double Unit}
    {notes : Nat -> Option (Nat × Int)} {x : Handler double Unit}
    {note : Option (Nat × Int)}
    (h : forall k, pricing.Follows (notes k) (running k) (fun _ _ => True))
    (hx : pricing.Follows note x (fun _ _ => True)) (shard k : Nat) :
    pricing.Follows (Function.update notes shard note k)
      (Function.update running shard x k) (fun _ _ => True) := by
  by_cases hk : k = shard
  · subst hk
    rw [Function.update_self, Function.update_self]
    exact hx
  · rw [Function.update_of_ne hk, Function.update_of_ne hk]
    exact h k

theorem tracked_step [One double] :
    Preserved Shards.step (fun s : Shards pg => exists notes, Tracked notes s) := by
  intro s label t hs hstep
  rcases hs with ⟨notes, h⟩
  rcases Shards.step_cases hstep with ⟨hrunning, hdb, hhistory⟩ |
    ⟨shard, msg, rest, _, _, _, ht⟩ | ⟨shard, env, o, next, _, hrunning, ht⟩
  · refine ⟨notes, ?_, ?_⟩
    · rw [hrunning]
      exact h.follows
    · rw [hdb, hhistory]
      exact h.knows
  · subst ht
    refine ⟨notes, ?_, h.knows⟩
    intro k
    have hupdate := follows_update h.follows
      ((pricing_handle msg).follows (notes shard)) shard k
    rw [Function.update_eq_self] at hupdate
    exact hupdate
  · subst ht
    have hfollows := h.follows shard
    rw [hrunning] at hfollows
    exact ⟨_, follows_update h.follows (hfollows.right _) shard,
      knows_perform env s.world o h.knows⟩

/-- The price of the noted level is right while the note is up to date. -/
theorem paidRight_enhanced {db : Db pg} {history : List (Event pg)}
    {shard userId itemId cost : Nat} {success : Bool} {mult : double}
    {level : Int} {out : Transaction.Result (Db pg) EnhanceResult}
    (hdone : Database.Enhanced db userId itemId cost success mult out)
    (hknows : Knows db history shard (some (itemId, level)))
    (hcost : cost = toUint64 (enhanceCost level))
    (hraised : raisedSinceRead shard itemId history = false)
    (hpriced : forall item, db.items.lookup itemId = some item ->
      Priced item.enhanceLevel.val) :
    (Event.paid shard userId itemId success db out.store).PaidRight := by
  rcases hdone.change with ⟨user, user', item, _, huser, _, _, hgold, hitem, _, _,
    _, _, hstore, _⟩
  rcases hknows itemId level rfl with ⟨read, hread, _, hcurrent⟩
  cases hitem.symm.trans hread
  have hlevel : item.enhanceLevel.val = level := hcurrent.mp hraised
  refine ⟨user, huser, user', ?_, item, hitem, ?_⟩
  · rw [hstore]
    exact AList.lookup_insert db.users
  · rw [hgold, hcost, ← hlevel, enhanceCost_of_priced (hpriced item hitem)]

/-- A step that meets the condition pays right, if it pays. -/
theorem paidRight_step [One double] {s t : Shards pg} {label : Label double}
    (hs : exists notes, Tracked notes s) (hright : s.PaidRight)
    (hstep : s.step label = some t) (hcond : s.Undisturbed label) :
    t.PaidRight := by
  rcases hs with ⟨notes, h⟩
  unfold Shards.PaidRight
  rcases Shards.step_cases hstep with ⟨_, _, hhistory⟩ |
    ⟨shard, msg, rest, _, _, _, ht⟩ | ⟨shard, env, o, next, hlabel, hrunning, ht⟩
  · rw [hhistory]
    exact hright
  · subst ht
    exact hright
  subst ht hlabel
  cases hquiet : o.quiet with
  | true =>
      rw [(perform_quiet shard env s.world hquiet).right.left]
      exact hright
  | false =>
      cases o with
      | getItem userId itemId =>
          intro e he
          rcases List.mem_cons.mp he with hread | hold
          · rw [hread]
            trivial
          · exact hright e hold
      | enhanceItem userId itemId cost success mult =>
          rcases perform_enhanceItem shard env s.world rfl rfl with
            ⟨_, _, hhistory⟩ | ⟨hdone, _, hhistory⟩
          · rw [hhistory]
            exact hright
          · rw [hhistory]
            intro e he
            rcases List.mem_cons.mp he with hpaid | hold
            · rw [hpaid]
              have hfollows := h.follows shard
              rw [hrunning] at hfollows
              rcases hfollows.left with ⟨level, hnote, hcost⟩
              have hknows := h.knows shard
              rw [hnote] at hknows
              have hcharge : s.charge shard =
                  some ⟨userId, itemId, cost, success, mult⟩ := by
                unfold Shards.charge
                rw [hrunning]
              rcases hcond _ hcharge hdone.committed with ⟨hraised, hpriced⟩
              exact paidRight_enhanced hdone hknows hcost hraised hpriced
            · exact hright e hold
      | _ => cases hquiet

theorem Shards.pays_right [One double] {shards : Nat} {db : Db pg}
    {labels : List (Label double)}
    (hundisturbed : EveryStep Shards.step Shards.Undisturbed
      (Shards.start shards db) labels) :
    forall s, Visits Shards.step (Shards.start shards db) labels s ->
      s.PaidRight := by
  refine hundisturbed.visits tracked_step ?_ ⟨_, tracked_start shards db⟩ ?_
  · intro s label t hs hright hstep hcond
    exact paidRight_step hs hright hstep hcond
  · intro e he
    cases he

theorem Service.pays_right [One double] {shards : Nat} {db : Db pg}
    {friendships : Friendships} {ranking : Ranking} {labels : List (Service.Label double)}
    (hundisturbed : EveryStep Service.step
      (fun s label => s.shards.Undisturbed (s.shardLabel label))
      (Service.start (Stores.boot shards db friendships ranking)) labels) :
    forall t, Visits Service.step
      (Service.start (Stores.boot shards db friendships ranking)) labels t ->
      t.shards.PaidRight := by
  refine hundisturbed.visits (Service.projects_shards.preserved tracked_step) ?_
    ⟨_, tracked_start shards db⟩ ?_
  · intro s label t hs hright hstep hcond
    exact paidRight_step hs hright (Service.projects_shards s label t hstep) hcond
  · intro e he
    cases he

/--
Every run whose payments are undisturbed only makes right payments, whatever the
friendships and the ranking answer; so does every such run of the service, where
their tables have contents.
-/
theorem enhancement_paid_right [One double] (shards : Nat) (db : Db pg) :
    (forall labels : List (Label double),
      EveryStep Shards.step Shards.Undisturbed (Shards.start shards db) labels ->
      forall s, Visits Shards.step (Shards.start shards db) labels s ->
        s.PaidRight) ∧
    forall (friendships : Friendships) (ranking : Ranking)
      (labels : List (Service.Label double)),
      EveryStep Service.step (fun s label => s.shards.Undisturbed (s.shardLabel label))
        (Service.start (Stores.boot shards db friendships ranking)) labels ->
      forall t, Visits Service.step
        (Service.start (Stores.boot shards db friendships ranking)) labels t ->
        t.shards.PaidRight :=
  ⟨fun _ hundisturbed => Shards.pays_right hundisturbed,
    fun _ _ _ hundisturbed => Service.pays_right hundisturbed⟩

/-!
# A second login

One user owns an item of level 0.  The first handler reads the item, the user
logs in again on another shard and enhances the item, and the first handler then
pays the price of level 0 for an item of level 1.
-/

/-- Answers of the friendship tables and of the ranking. -/
def noAnswer : (o : Op Nat) -> Answer o
  | .isNamed _ | .setName _ _ | .sendTo _ _ => false
  | .getUserId _ | .findByName _ | .uniformReal _ _ => (0 : Nat)
  | .uniformInt _ _ => (0 : Int)
  | .setUserId _ _ | .broadcast _ | .sendToFriends _ _ | .sendRosterTo _
  | .loadFriendCache _ _ | .cacheAddFriend _ _ | .cacheRemoveFriend _ _
  | .post _ _ | .rankSetName _ _ | .rankUpdate _ _ => ()
  | .getFriendIds _ => some []
  | .rankTop _ _ => []
  | .loginOrRegister _ | .getGold _ | .addGold _ _ | .dropItem _ | .getItems _
  | .getItem _ _ | .enhanceItem _ _ _ _ _ | .addFriend _ _ | .acceptFriend _ _
  | .rejectFriend _ _ | .blockFriend _ _ | .getFriendList _ | .rankOf _ => none

/-- Everything succeeds, and every draw is the lowest. -/
def calm : Environment Nat where
  faults := fun _ => false
  newId := 0
  posts := fun _ => .started
  draw := 0
  real := 120
  answers := noAnswer

def acts (shard n : Nat) : List (Label Nat) :=
  List.replicate n (.act shard calm)

/-- A client sends a line, and the consumer of its shard takes it. -/
def say (sessionId : Nat) (line : String) : List (Label Nat) :=
  [.receive sessionId (makePacket 0 (text line)), .pop (sessionId % 8)]

def oneItem : Db percentServer where
  users := AList.insert 1 ⟨text "ann", ⟨500, rfl⟩⟩ ∅
  items := AList.insert 7 ⟨1, ⟨0, rfl⟩, ⟨10, rfl⟩⟩ ∅

def oneLogin : List (Label Nat) :=
  List.flatten [[.connect 10], say 1 "/n ann", acts 1 9, say 1 "/i enh 7",
    acts 1 8]

def secondLogin : List (Label Nat) :=
  List.flatten [[.connect 10], say 1 "/n ann", acts 1 9, say 1 "/i enh 7",
    acts 1 3, [.disconnect 1, .connect 11], say 2 "/n ann", acts 2 9,
    say 2 "/i enh 7", acts 2 6, acts 1 3]

/-- The same steps in the service. -/
def inService : Label Nat -> Service.Label Nat
  | .connect socket => .connect socket
  | .disconnect id => .disconnect id
  | .receive id pkt => .receive id pkt
  | .sendDone id bytes result => .sendDone id bytes result
  | .pop shard => .pop shard
  | .act shard env => .act shard env

def itemService : Service percentServer :=
  Service.start (Stores.boot 8 oneItem ∅ ⟨∅, ∅⟩)

theorem enhancement_paid_right_oneLogin :
    (exists s, runFrom Shards.step (Shards.start 8 oneItem) oneLogin = some s ∧
      s.world.history.length = 2 ∧ s.PaidRight) ∧
    exists t, runFrom Service.step itemService (oneLogin.map inService) = some t ∧
      t.shards.world.history.length = 2 ∧ t.shards.PaidRight := by
  constructor
  · have hlength : (runFrom Shards.step (Shards.start 8 oneItem) oneLogin).map
        (fun s => s.world.history.length) = some 2 := by
      decide +kernel
    rcases Option.map_eq_some_iff.mp hlength with ⟨s, hrun, htwo⟩
    exact ⟨s, hrun, htwo, (enhancement_paid_right 8 oneItem).left oneLogin
      (by decide +kernel) s (visits_last hrun)⟩
  · have hlength : (runFrom Service.step itemService (oneLogin.map inService)).map
        (fun t => t.shards.world.history.length) = some 2 := by
      decide +kernel
    rcases Option.map_eq_some_iff.mp hlength with ⟨t, hrun, htwo⟩
    exact ⟨t, hrun, htwo, (enhancement_paid_right 8 oneItem).right ∅ ⟨∅, ∅⟩
      (oneLogin.map inService) (by decide +kernel) t (visits_last hrun)⟩

theorem enhancement_underpaid :
    exists s, runFrom Shards.step (Shards.start 8 oneItem) secondLogin = some s ∧
      ¬ s.PaidRight := by
  have hwrong : (runFrom Shards.step (Shards.start 8 oneItem) secondLogin).map
      (fun s => decide s.PaidRight) = some false := by
    decide +kernel
  rcases Option.map_eq_some_iff.mp hwrong with ⟨s, hrun, hnot⟩
  exact ⟨s, hrun, of_decide_eq_false hnot⟩

end Consumers
end ContentServer
