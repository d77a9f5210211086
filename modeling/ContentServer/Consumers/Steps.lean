import ContentServer.Consumers.Standing

/-!
# One operation of one handler

An operation changes the standing of the session whose message is handled and of
no other.  With the steps of the connections this makes the standing of all
sessions an invariant of the service.
-/

namespace ContentServer
namespace Consumers

open Foundation Protocol Sessions Registry Storage

variable {double : Type} {pg : Postgres double}

theorem handler_put (m : SessionManager) {slot : Slot} {t : Session}
    (h : t.handler = (m.session slot).handler) (other : Slot) :
    ((m.put slot t).session other).handler = (m.session other).handler := by
  by_cases hother : other = slot
  · subst hother
    rw [SessionManager.session_put_self, h]
  · rw [SessionManager.session_put_of_ne m t hother]

/-- The sessions stay in their places. -/
theorem Stores.Registers.places {s after : Stores pg} {o : Op double}
    {answer : Answer o} (h : Stores.Registers s o answer after) :
    after.manager.byId = s.manager.byId ∧
      after.manager.shardCount = s.manager.shardCount ∧
      forall slot, (after.manager.session slot).handler =
        (s.manager.session slot).handler := by
  cases h with
  | same same refused gone =>
      exact ⟨same.manager.byId, same.manager.shardCount,
        fun slot => (same.manager.sessions slot).handler⟩
  | @named id name after slot free live manager named bound =>
      rw [manager]
      exact ⟨rfl, rfl, handler_put s.manager
        (show ((s.manager.session slot).setName name).handler = _ from rfl)⟩
  | @bound id u after slot live manager named bound =>
      rw [manager]
      exact ⟨rfl, rfl, handler_put s.manager
        (show ((s.manager.session slot).setUserId u).handler = _ from rfl)⟩

namespace Service

variable {s : Service pg} {shard : Nat} {msg : ShardMsg} {log : Log double}
variable {x : Handler double Unit}

theorem goOn_stores : (s.goOn shard msg log x).stores = s.stores := by
  cases x <;> rfl

theorem goOn_waiting : (s.goOn shard msg log x).waiting = s.waiting := by
  cases x <;> rfl

/-- No operation changes the number of shards. -/
theorem shardCount_acted (o : Op double) (e : Environment double) {log' : Log double} :
    (goOn { s with stores := (s.stores.perform shard msg e o).2 } shard msg log'
      x).stores.manager.shardCount = s.stores.manager.shardCount := by
  rw [goOn_stores]
  exact (s.stores.perform_registers shard msg e o).places.right.left

/-- The other consumers stay as they are. -/
theorem goOn_consumers_of_ne {k : Nat} (hk : k ≠ shard) :
    (s.goOn shard msg log x).consumers k = s.consumers k := by
  cases x <;> exact Function.update_of_ne hk ..

theorem goOn_consumers_self {w : Working double}
    (h : (s.goOn shard msg log x).consumers shard = some w) : w = ⟨msg, log, x⟩ := by
  cases x with
  | done a =>
      replace h : Function.update s.consumers shard none shard = some w := h
      rw [Function.update_self] at h
      cases h
  | call o next =>
      replace h : Function.update s.consumers shard (some ⟨msg, log, .call o next⟩)
        shard = some w := h
      rw [Function.update_self] at h
      exact (Option.some.inj h).symm

theorem goOn_consumers {k : Nat} {w : Working double}
    (h : (s.goOn shard msg log x).consumers k = some w) :
    (k = shard ∧ w = ⟨msg, log, x⟩) ∨ (k ≠ shard ∧ s.consumers k = some w) := by
  by_cases hk : k = shard
  · subst hk
    exact Or.inl ⟨rfl, goOn_consumers_self h⟩
  · rw [goOn_consumers_of_ne hk] at h
    exact Or.inr ⟨hk, h⟩

/-- A handler that owes something is not at its end. -/
theorem goOn_works [One double] (h : Conducts msg log x) (howed : log.owed ≠ []) :
    (s.goOn shard msg log x).consumers shard = some ⟨msg, log, x⟩ := by
  cases x with
  | done a => exact absurd h howed
  | call o next => exact Function.update_self ..

end Service

namespace Standing

variable [One double] {s : Service pg} {shard : Nat} {msg : ShardMsg}
variable {log : Log double} {o : Op double} {next : Answer o -> Handler double Unit}
variable {answer : Answer o} {after : Stores pg}

/-- The next call of a handler is allowed. -/
theorem allowed (h : Standing s)
    (hworks : s.consumers shard = some ⟨msg, log, .call o next⟩) :
    (conduct msg).allowed log o :=
  (h.conducts shard _ hworks).left

/-- A session is named once, after the login of its user. -/
theorem setName_allowed (h : Standing s) {id : Nat} {name : List UInt8}
    {next : Bool -> Handler double Unit}
    (hworks : s.consumers shard = some ⟨msg, log, .call (.setName id name) next⟩) :
    id = msg.sessionId ∧ name ≠ [] ∧ s.stores.manager.nameOf id = none ∧
      exists u, log = [⟨.loginOrRegister name, some u⟩, ⟨.isNamed id, false⟩] := by
  have hproper : log.Proper msg := h.proper shard _ hworks
  rcases hproper.allows_of_next (h.allowed hworks) (fun _ hf => hf) with ⟨hid, u, hlog⟩
  refine ⟨hid, ?_, ?_, u, hlog⟩
  · rw [hlog] at hproper
    have hallows := Log.Proper.allows_of_next hproper.left hproper.right (fun _ hf => hf)
    have hlength := validName_length hallows.right.left
    intro hnil
    rw [hnil] at hlength
    exact absurd hlength.left (by decide)
  · rw [hid]
    refine h.unnamed shard _ hworks ⟨?_, ?_⟩
    · show log.Has (.isNamed msg.sessionId) false
      rw [hlog, hid]
      exact List.mem_cons_of_mem _ List.mem_cons_self
    · intro other hother
      replace hother : log.Has (.setName msg.sessionId other) true := hother
      rw [hlog] at hother
      rcases Log.has_cons.mp hother with heq | hother
      · cases heq
      rcases Log.has_cons.mp hother with heq | hother
      · cases heq
      · cases hother

/-- The user id of a session is that of the user whose name it was given. -/
theorem setUserId_allowed (h : Standing s) {id u : Nat}
    {next : Unit -> Handler double Unit}
    (hworks : s.consumers shard = some ⟨msg, log, .call (.setUserId id u) next⟩) :
    id = msg.sessionId ∧ exists name, (id, name) ∈ s.stores.named ∧
      userNames s.stores.db.users u = some name := by
  have hproper : log.Proper msg := h.proper shard _ hworks
  have hconfirms := h.confirms shard _ hworks
  rcases (h.allowed hworks).left with howed | hallows
  · rcases hproper.explains _ (List.mem_of_mem_head? howed) with
      ⟨hid, name, hname, hlogin⟩
    exact ⟨hid, name, hconfirms.named id name hname, hconfirms.login name u hlogin⟩
  · exact absurd hallows (fun hf => hf)

/-- The names of the sessions after an operation. -/
theorem nameOf_registers (h : Standing s)
    (hworks : s.consumers shard = some ⟨msg, log, .call o next⟩)
    (hreg : Stores.Registers s.stores o answer after) (id : Nat) :
    after.manager.nameOf id = s.stores.manager.nameOf id ∨
      (id = msg.sessionId ∧ exists name u,
        log = [⟨.loginOrRegister name, some u⟩, ⟨.isNamed id, false⟩] ∧
        (⟨o, answer⟩ : Sigma (@Answer double)) = ⟨.setName id name, true⟩) := by
  cases hreg with
  | same same refused gone =>
      rw [same.manager.nameOf]
      exact Or.inl rfl
  | @named id' name after slot free live manager named bound =>
      rcases h.setName_allowed hworks with ⟨hid, hname, _, u, hlog⟩
      have hafter : after.manager.nameOf =
          Function.update s.stores.manager.nameOf id' (some name) := by
        rw [manager]
        exact carried_put h.registry.slots live hname
      by_cases hsame : id = id'
      · subst hsame
        exact Or.inr ⟨hid, name, u, hlog, rfl⟩
      · rw [hafter, Function.update_of_ne hsame]
        exact Or.inl rfl
  | @bound id' u after slot live manager named bound =>
      have hafter : after.manager.nameOf = s.stores.manager.nameOf := by
        rw [manager]
        exact carried_put_same
          (show ((s.stores.manager.session slot).setUserId u).name = _ from rfl)
      rw [hafter]
      exact Or.inl rfl

/-- A session that is there receives its user id. -/
theorem userOf_set (h : Standing s) {id u : Nat} {slot : Slot}
    {next : Unit -> Handler double Unit}
    (hworks : s.consumers shard = some ⟨msg, log, .call (.setUserId id u) next⟩)
    (live : s.stores.manager.byId.lookup id = some slot)
    (manager : after.manager = { s.stores.manager.put slot
      ((s.stores.manager.session slot).setUserId u)
      with byUserId := s.stores.manager.byUserId.insert u id }) :
    after.manager.userOf = Function.update s.stores.manager.userOf id (some u) := by
  rcases h.setUserId_allowed hworks with ⟨_, name, _, huser⟩
  have hpositive : u ≠ 0 := by
    intro hzero
    rw [hzero, h.users.zero] at huser
    cases huser
  rw [manager]
  exact carried_put h.registry.slots live hpositive

/-- The user ids of the sessions after an operation. -/
theorem userOf_registers (h : Standing s)
    (hworks : s.consumers shard = some ⟨msg, log, .call o next⟩)
    (hreg : Stores.Registers s.stores o answer after) (id : Nat) :
    after.manager.userOf id = s.stores.manager.userOf id ∨
      (id = msg.sessionId ∧ exists u, after.manager.userOf id = some u) := by
  cases hreg with
  | same same refused gone =>
      rw [same.manager.userOf]
      exact Or.inl rfl
  | @named id' name after slot free live manager named bound =>
      have hafter : after.manager.userOf = s.stores.manager.userOf := by
        rw [manager]
        exact carried_put_same
          (show ((s.stores.manager.session slot).setName name).userId = _ from rfl)
      rw [hafter]
      exact Or.inl rfl
  | @bound id' u after slot live manager named bound =>
      have hafter := h.userOf_set hworks live manager
      by_cases hsame : id = id'
      · subst hsame
        have hid := (h.setUserId_allowed hworks).left
        exact Or.inr ⟨hid, u, by rw [hafter, Function.update_self]⟩
      · rw [hafter, Function.update_of_ne hsame]
        exact Or.inl rfl

/-- The registry stays consistent with the users of the database. -/
theorem registry_registers (h : Standing s)
    (hworks : s.consumers shard = some ⟨msg, log, .call o next⟩)
    (hreg : Stores.Registers s.stores o answer after)
    (hcreated : after.created = s.stores.created) :
    Consistent (nameNumbering s.stores.db.users) after.directory := by
  cases hreg with
  | same same refused gone =>
      have hdirectory : after.directory =
          { s.stores.directory with manager := after.manager } := by
        unfold Stores.directory
        rw [hcreated, same.named, same.bound]
        rfl
      rw [hdirectory]
      exact h.registry.congr same.manager
  | @named id name after slot free live manager named bound =>
      rcases h.setName_allowed hworks with ⟨_, hname, hunnamed, _, _⟩
      have hdirectory : after.directory = { s.stores.directory with
          manager := after.manager, named := (id, name) :: s.stores.named } := by
        unfold Stores.directory
        rw [hcreated, named, bound]
        rfl
      rw [hdirectory, manager]
      exact h.registry.setName hname hunnamed free live
  | @bound id u after slot live manager named bound =>
      rcases h.setUserId_allowed hworks with ⟨_, name, hnamed, huser⟩
      have hnumber := nameNumbering_of_user h.users huser
      have hdirectory : after.directory = { s.stores.directory with
          manager := after.manager, bound := (id, u) :: s.stores.bound } := by
        unfold Stores.directory
        rw [hcreated, named, bound]
        rfl
      have hset := h.registry.setUserId (nameNumbering_positive h.users)
        (nameNumbering_injective h.users) hnamed live
      rw [hnumber] at hset
      rw [hdirectory, manager]
      exact hset

/-- Names belong to users of the database. -/
theorem registered_registers (h : Standing s)
    (hworks : s.consumers shard = some ⟨msg, log, .call o next⟩)
    (hreg : Stores.Registers s.stores o answer after) :
    forall id name, (id, name) ∈ after.named ->
      exists u, userNames s.stores.db.users u = some name := by
  intro id name hmem
  cases hreg with
  | same same refused gone =>
      rw [same.named] at hmem
      exact h.registered id name hmem
  | @named id' name' after slot free live manager named bound =>
      rw [named] at hmem
      rcases List.mem_cons.mp hmem with heq | hmem
      · cases heq
        rcases h.setName_allowed hworks with ⟨_, _, _, u, hlog⟩
        refine ⟨u, (h.confirms shard _ hworks).login name u ?_⟩
        show log.Has (.loginOrRegister name) (some u)
        rw [hlog]
        exact List.mem_cons_self
      · exact h.registered id name hmem
  | bound slot live manager named bound =>
      rw [named] at hmem
      exact h.registered id name hmem

/-- A session that answers to `IsNamed` was given a name. -/
theorem named_of_isNamed (h : Standing s) {id : Nat}
    (hnamed : s.stores.manager.isNamed id = true) :
    exists name, s.stores.manager.nameOf id = some name ∧
      (id, name) ∈ s.stores.named := by
  unfold SessionManager.isNamed at hnamed
  cases hlookup : s.stores.manager.byId.lookup id with
  | none =>
      rw [hlookup] at hnamed
      cases hnamed
  | some slot =>
      rw [hlookup] at hnamed
      have hne : (s.stores.manager.session slot).name ≠ [] := by
        simpa [Session.isNamed] using hnamed
      have hname : s.stores.manager.nameOf id =
          some (s.stores.manager.session slot).name := by
        unfold SessionManager.nameOf
        rw [carried_of_lookup hlookup, if_neg hne]
      exact ⟨_, hname, h.registry.nameLogged id _ hname⟩

/-- The user id that a session answers is zero or the one it was given. -/
theorem bound_of_getUserId (h : Standing s) (id : Nat) :
    s.stores.manager.getUserId id = 0 ∨
      (id, s.stores.manager.getUserId id) ∈ s.stores.bound := by
  by_cases hzero : s.stores.manager.getUserId id = 0
  · exact Or.inl hzero
  · right
    unfold SessionManager.getUserId at hzero ⊢
    cases hlookup : s.stores.manager.byId.lookup id with
    | none =>
        rw [hlookup] at hzero
        exact absurd rfl hzero
    | some slot =>
        rw [hlookup] at hzero
        refine h.registry.userLogged id _ ?_
        show s.stores.manager.userOf id = _
        unfold SessionManager.userOf
        rw [carried_of_lookup hlookup, if_neg hzero]

/-- What the log says after one more operation. -/
theorem confirms_perform (h : Standing s)
    (hworks : s.consumers shard = some ⟨msg, log, .call o next⟩)
    (e : Environment double) :
    (s.stores.perform shard msg e o).2.Confirms msg
      (⟨o, (s.stores.perform shard msg e o).1⟩ :: log) := by
  have hold := (h.confirms shard _ hworks).mono (s.stores.perform_grows shard msg e o)
  replace hold : (s.stores.perform shard msg e o).2.Confirms msg log := hold
  have hgrows := s.stores.perform_grows shard msg e o
  constructor
  · intro name u hhas
    rcases Log.has_cons.mp hhas with heq | hhas
    · generalize hanswer : (s.stores.perform shard msg e o).1 = answer at heq
      cases heq
      exact s.stores.perform_login shard msg e hanswer
    · exact hold.login name u hhas
  · intro id name hhas
    rcases Log.has_cons.mp hhas with heq | hhas
    · have hreg := s.stores.perform_registers shard msg e o
      generalize s.stores.perform shard msg e o = out at heq hreg
      rcases out with ⟨answer, after⟩
      cases heq
      cases hreg with
      | same same refused gone => cases refused id name rfl
      | named slot free live manager named bound =>
          show (id, name) ∈ after.named
          rw [named]
          exact List.mem_cons_self
    · exact hold.named id name hhas
  · intro hsaw
    rcases Log.has_cons.mp hsaw with heq | hhas
    · generalize hanswer : (s.stores.perform shard msg e o).1 = answer at heq
      cases heq
      replace hanswer : s.stores.manager.isNamed msg.sessionId = true := hanswer
      rcases h.named_of_isNamed hanswer with ⟨name, _, hname⟩
      exact ⟨name, hgrows.named _ hname⟩
    · exact hold.sawName hhas
  · intro u hacts
    rcases Log.has_cons.mp hacts with heq | hhas
    · generalize hanswer : (s.stores.perform shard msg e o).1 = answer at heq
      cases heq
      replace hanswer : s.stores.manager.getUserId msg.sessionId = u := hanswer
      rw [← hanswer]
      exact (h.bound_of_getUserId msg.sessionId).imp_right (hgrows.bound _)
    · exact hold.acts u hhas

/-- A session whose handler has seen no name is not named by an operation. -/
theorem unnamed_perform (h : Standing s)
    (hworks : s.consumers shard = some ⟨msg, log, .call o next⟩)
    (e : Environment double)
    (hsaw : Log.SawNoName (⟨o, (s.stores.perform shard msg e o).1⟩ :: log) msg) :
    (s.stores.perform shard msg e o).2.manager.nameOf msg.sessionId = none := by
  have hreg := s.stores.perform_registers shard msg e o
  rcases h.nameOf_registers hworks hreg msg.sessionId with
    hsame | ⟨_, name, u, _, heq⟩
  · rw [hsame]
    rcases Log.has_cons.mp hsaw.left with heq | hhas
    · generalize hanswer : (s.stores.perform shard msg e o).1 = answer at heq
      cases heq
      replace hanswer : s.stores.manager.isNamed msg.sessionId = false := hanswer
      exact Consistent.nameOf_eq_none_of_not_named (d := s.stores.directory) hanswer
    · exact h.unnamed shard _ hworks
        ⟨hhas, fun name hname => hsaw.right name (hname.cons _)⟩
  · refine absurd ?_ (hsaw.right name)
    rw [heq]
    exact List.mem_cons_self

/-- A session that has a name and no user id yet owes the call that sets it. -/
theorem entering_perform (h : Standing s)
    (hworks : s.consumers shard = some ⟨msg, log, .call o next⟩)
    (hreg : Stores.Registers s.stores o answer after)
    {id : Nat} {name : List UInt8}
    (hname : after.manager.nameOf id = some name)
    (huser : after.manager.userOf id = none) :
    (id = msg.sessionId ∧ exists u,
      (Log.owed (⟨o, answer⟩ :: log)).head? = some (.setUserId id u)) ∨
    exists k w u, k ≠ shard ∧ s.consumers k = some w ∧ w.msg.sessionId = id ∧
      w.log.owed.head? = some (.setUserId id u) := by
  have hold : s.stores.manager.userOf id = none := by
    rcases h.userOf_registers hworks hreg id with hsame | ⟨_, u, hu⟩
    · rw [← hsame, huser]
    · rw [hu] at huser
      cases huser
  rcases h.nameOf_registers hworks hreg id with hsame | ⟨hid, found, u, hlog, heq⟩
  · rw [hsame] at hname
    rcases h.entering id name hname hold with ⟨k, w, u, hw, hsession, howed⟩
    by_cases hk : k = shard
    · subst hk
      rw [hworks] at hw
      cases hw
      replace howed : log.owed.head? = some (.setUserId id u) := howed
      have hturn : log.InTurn o := (h.allowed hworks).right
      unfold Log.InTurn at hturn
      cases hpromised : log.owed with
      | nil =>
          rw [hpromised] at howed
          cases howed
      | cons first rest =>
          rw [hpromised] at howed hturn
          cases howed
          -- The call is made only for a session that is gone.
          rcases hturn with heq | ⟨target, data, heq⟩
          · subst heq
            cases hreg with
            | same same refused gone =>
                have hnone : s.stores.manager.nameOf id = none :=
                  carried_of_lookup_none (gone id u rfl)
                rw [hnone] at hname
                cases hname
            | bound slot live manager named bound =>
                rw [h.userOf_set hworks live manager, Function.update_self] at huser
                cases huser
          · subst heq
            left
            refine ⟨hsession.symm, u, ?_⟩
            show (promises log log.owed (.sendTo target data) answer).head? = _
            rw [hpromised]
            rfl
    · exact Or.inr ⟨k, w, u, hk, hw, hsession, howed⟩
  · left
    refine ⟨hid, u, ?_⟩
    rw [heq]
    subst hlog
    rfl

/-!
# Every step
-/

/-- A handler runs one operation. -/
theorem acted (h : Standing s)
    (hworks : s.consumers shard = some ⟨msg, log, .call o next⟩)
    (e : Environment double) :
    Standing ({ s with stores := (s.stores.perform shard msg e o).2 }.goOn shard msg
      (⟨o, (s.stores.perform shard msg e o).1⟩ :: log)
      (next (s.stores.perform shard msg e o).1)) := by
  have hreg := s.stores.perform_registers shard msg e o
  have hgrows := s.stores.perform_grows shard msg e o
  have hplaces := hreg.places
  have hconducts : Conducts msg (⟨o, (s.stores.perform shard msg e o).1⟩ :: log)
      (next (s.stores.perform shard msg e o).1) :=
    (h.conducts shard _ hworks).right _
  have hproper : Log.Proper msg (⟨o, (s.stores.perform shard msg e o).1⟩ :: log) :=
    ⟨h.proper shard _ hworks, h.allowed hworks⟩
  have hroute : shard = msg.sessionId % s.stores.manager.shardCount :=
    h.routed shard _ hworks
  have hregistered := h.registered_registers hworks hreg
  constructor
  · intro k w hw
    rcases Service.goOn_consumers hw with ⟨_, rfl⟩ | ⟨_, hother⟩
    · exact hconducts
    · exact h.conducts k w hother
  · intro k w hw
    rcases Service.goOn_consumers hw with ⟨_, rfl⟩ | ⟨_, hother⟩
    · exact hproper
    · exact h.proper k w hother
  · rw [Service.goOn_stores]
    intro id slot hslot
    rw [hplaces.left] at hslot
    rw [hplaces.right.left, hplaces.right.right slot]
    exact h.handlers id slot hslot
  · rw [Service.goOn_stores]
    intro k other hmem
    rw [Service.goOn_waiting] at hmem
    rw [hplaces.right.left]
    rcases s.stores.perform_queues shard msg e o k other hmem with hold | hposted
    · exact h.queued k other hold
    · exact hposted
  · intro k w hw
    rw [Service.goOn_stores, hplaces.right.left]
    rcases Service.goOn_consumers hw with ⟨hk, rfl⟩ | ⟨_, hother⟩
    · rw [hk]
      exact hroute
    · exact h.routed k w hother
  · rw [Service.goOn_stores]
    exact hgrows.names.numbered h.users
  · rw [Service.goOn_stores]
    have hregistry := h.registry_registers hworks hreg (s.stores.perform_created ..)
    exact Consistent.renumber hregistry h.users hgrows.names hregistered
  · rw [Service.goOn_stores]
    intro id name hmem
    rcases hregistered id name hmem with ⟨u, hu⟩
    exact ⟨u, hgrows.names.mono hu⟩
  · intro k w hw
    rw [Service.goOn_stores]
    rcases Service.goOn_consumers hw with ⟨_, rfl⟩ | ⟨_, hother⟩
    · exact h.confirms_perform hworks e
    · exact (h.confirms k w hother).mono hgrows
  · intro k w hw hsaw
    rw [Service.goOn_stores]
    rcases Service.goOn_consumers hw with ⟨_, rfl⟩ | ⟨hk, hother⟩
    · exact h.unnamed_perform hworks e hsaw
    · rcases h.nameOf_registers hworks hreg w.msg.sessionId with hsame | ⟨hid, _⟩
      · rw [hsame]
        exact h.unnamed k w hother hsaw
      · refine absurd ?_ hk
        rw [h.routed k w hother, hid, ← hroute]
  · intro id name hname huser
    rw [Service.goOn_stores] at hname huser
    rcases h.entering_perform hworks hreg hname huser with
      ⟨hid, u, howed⟩ | ⟨k, w, u, hk, hw, hsession, howed⟩
    · refine ⟨shard, _, u, Service.goOn_works hconducts ?_, hid.symm, howed⟩
      intro hnil
      rw [hnil] at howed
      cases howed
    · refine ⟨k, w, u, ?_, hsession, howed⟩
      rw [Service.goOn_consumers_of_ne hk]
      exact hw

/-- A consumer takes the first message of its queue. -/
theorem taken (h : Standing s) {rest : List ShardMsg}
    (hwaits : s.consumers shard = none)
    (hqueue : s.waiting shard = msg :: rest) :
    Standing ((s.withWaiting shard rest).goOn shard msg [] (handle msg)) := by
  have hshards : forall other, other ∈ msg :: rest ->
      shard = other.sessionId % s.stores.manager.shardCount := by
    intro other hother
    rw [← hqueue] at hother
    exact h.queued shard other hother
  have hrest : Standing (s.withWaiting shard rest) :=
    h.withWaiting fun other hother => hshards other (List.mem_cons_of_mem msg hother)
  have hothers : forall k w, (s.withWaiting shard rest).consumers k = some w ->
      k ≠ shard := by
    intro k w hw hk
    subst hk
    rw [show (s.withWaiting k rest).consumers k = s.consumers k from rfl, hwaits] at hw
    cases hw
  constructor
  · intro k w hw
    rcases Service.goOn_consumers hw with ⟨_, rfl⟩ | ⟨_, hother⟩
    · exact conducts_handle msg
    · exact hrest.conducts k w hother
  · intro k w hw
    rcases Service.goOn_consumers hw with ⟨_, rfl⟩ | ⟨_, hother⟩
    · trivial
    · exact hrest.proper k w hother
  · rw [Service.goOn_stores]
    exact hrest.handlers
  · rw [Service.goOn_stores, Service.goOn_waiting]
    exact hrest.queued
  · intro k w hw
    rw [Service.goOn_stores]
    rcases Service.goOn_consumers hw with ⟨hk, rfl⟩ | ⟨_, hother⟩
    · rw [hk]
      exact hshards msg List.mem_cons_self
    · exact hrest.routed k w hother
  · rw [Service.goOn_stores]
    exact hrest.users
  · rw [Service.goOn_stores]
    exact hrest.registry
  · rw [Service.goOn_stores]
    exact hrest.registered
  · intro k w hw
    rw [Service.goOn_stores]
    rcases Service.goOn_consumers hw with ⟨_, rfl⟩ | ⟨_, hother⟩
    · constructor
      · intro name u hhas
        cases hhas
      · intro id name hhas
        cases hhas
      · intro hsaw
        cases hsaw
      · intro u hacts
        cases hacts
    · exact hrest.confirms k w hother
  · intro k w hw hsaw
    rw [Service.goOn_stores]
    rcases Service.goOn_consumers hw with ⟨_, rfl⟩ | ⟨_, hother⟩
    · cases hsaw.left
    · exact hrest.unnamed k w hother hsaw
  · intro id name hname huser
    rw [Service.goOn_stores] at hname huser
    rcases hrest.entering id name hname huser with ⟨k, w, u, hw, hsession, howed⟩
    refine ⟨k, w, u, ?_, hsession, howed⟩
    rw [Service.goOn_consumers_of_ne (hothers k w hw)]
    exact hw

end Standing

theorem standing_step [One double] :
    Preserved (Service.step : Service pg -> _) Standing := by
  intro s label t h hstep
  cases Service.step_effect hstep with
  | refused socket => exact h
  | connected socket slot manager created shards => exact h.connected created shards
  | disconnected id slot live => exact h.disconnected live
  | received id pkt slot shard msg live handler client sender =>
      refine h.withWaiting fun other hother => ?_
      rcases List.mem_append.mp hother with hold | hnew
      · exact h.queued shard other hold
      · rw [List.mem_singleton.mp hnew, sender, handler]
        exact h.handlers id slot live
  | completed id bytes result slot live =>
      refine h.completed (SameIdentities.put (SameIdentity.of_owner ?_))
      exact (onSend_sendCall (s.stores.manager.session slot) bytes result).owner
  | taken shard msg rest waits queue => exact h.taken waits queue
  | acted shard env msg log o next works => exact h.acted works env

/-- It holds in every state of every run that starts with numbered users. -/
theorem standing_run [One double] {shards : Nat} {db : Db pg}
    {friendships : Friendships} {ranking : Ranking}
    {labels : List (Service.Label double)} {t : Service pg} (hdb : Numbered db.users)
    (h : Visits Service.step
      (Service.start (Stores.boot shards db friendships ranking)) labels t) :
    Standing t :=
  standing_step.visits (Standing.start shards db friendships ranking hdb) h

end Consumers
end ContentServer
