import ContentServer.Consumers.FriendCoherence

/-!
# Who is in a friend cache

However the handlers interleave, whoever is in the friend cache of a user has been a
friend of the user in some state of the run.  The caches may lag behind the rows, but
they make no friends of their own.
-/

namespace ContentServer
namespace Consumers

open Foundation Protocol Sessions Registry Storage

variable {double : Type} [One double] {pg : Postgres double}

omit [One double] in
/-- The changes of caches that are still to come were answered to the handler. -/
theorem Log.accepted_of_owed {log : Log double} {u v : Nat}
    (h : .cacheAddFriend u v ∈ log.owed) :
    exists a b name, log.Has (.acceptFriend a name) (some (b + 1)) ∧
      (u = a ∧ v = b + 1 ∨ u = b + 1 ∧ v = a) := by
  induction log with
  | nil => cases h
  | cons call before ih =>
      rcases call with ⟨o, answer⟩
      change Log double at before
      have hold : .cacheAddFriend u v ∈ before.owed ->
          exists a b name, Log.Has (⟨o, answer⟩ :: before) (.acceptFriend a name)
            (some (b + 1)) ∧ (u = a ∧ v = b + 1 ∨ u = b + 1 ∧ v = a) := by
        intro hbefore
        rcases ih hbefore with ⟨a, b, name, hhas, hpair⟩
        exact ⟨a, b, name, hhas.cons _, hpair⟩
      replace h : .cacheAddFriend u v ∈ promises before before.owed o answer := h
      have hnow : Log.Has (⟨o, answer⟩ :: before) o answer := List.mem_cons_self
      cases o with
      | acceptFriend a name =>
          rcases answer with _ | _ | b
          · cases h
          · cases h
          · rcases List.mem_cons.mp h with heq | hrest
            · cases heq
              exact ⟨_, b, name, hnow, Or.inl ⟨rfl, rfl⟩⟩
            · cases List.mem_singleton.mp hrest
              exact ⟨_, b, name, hnow, Or.inr ⟨rfl, rfl⟩⟩
      | setName id name =>
          cases answer with
          | false => cases h
          | true => cases hlogin : before.login <;> simp [promises, hlogin] at h
      | getFriendIds w =>
          cases answer with
          | none => cases h
          | some ids => cases hnick : before.nick <;> simp [promises, hnick] at h
      | dropItem w =>
          cases answer with
          | none => cases h
          | some r => cases List.mem_singleton.mp h
      | enhanceItem w itemId cost success mult =>
          rcases answer with _ | ⟨status, level, power, gold, total⟩
          · cases h
          · cases status <;> simp [promises] at h
      | blockFriend a name => rcases answer with _ | _ | b <;> simp [promises] at h
      | sendTo id data => exact hold h
      | _ => exact hold (List.mem_of_mem_tail h)

/-- Some state of the run has had an accepted friendship between the users. -/
def BeenFriends (start : Service pg) (past : List (Service.Label double)) (u v : Nat) :
    Prop :=
  exists w, Visits Service.step start past w ∧ Befriended w.stores.friendDb.row u v

variable {start s t : Service pg} {past : List (Service.Label double)}
  {label : Service.Label double}

theorem BeenFriends.symm {u v : Nat} (h : BeenFriends start past u v) :
    BeenFriends start past v u := by
  rcases h with ⟨w, hvisit, hfriends⟩
  exact ⟨w, hvisit, hfriends.symm⟩

theorem BeenFriends.mono {u v : Nat} (h : BeenFriends start past u v)
    (label : Service.Label double) : BeenFriends start (past ++ [label]) u v := by
  rcases h with ⟨w, hvisit, hfriends⟩
  exact ⟨w, hvisit.append [label], hfriends⟩

/-- What the caches and the logs say of friends has been so. -/
structure Acquainted (start : Service pg) (past : List (Service.Label double))
    (s : Service pg) : Prop where
  blank : Blank s.stores.manager
  read : forall msg log u ids v, s.Logged msg log ->
    log.Has (.getFriendIds u) (some ids) -> v ∈ ids -> BeenFriends start past u v
  accepted : forall msg log u name v, s.Logged msg log ->
    log.Has (.acceptFriend u name) (some (v + 1)) -> BeenFriends start past u (v + 1)
  cached : forall u friends v, s.stores.manager.cacheOf u = some friends ->
    v ∈ friends -> BeenFriends start past u v

omit [One double] in
/-- The answer to `GetFriendIds` are the friends in the tables. -/
theorem Stores.perform_getFriendIds (s : Stores pg) (shard : Nat) (msg : ShardMsg)
    (env : Environment double) {u : Nat} {ids : List Nat}
    (h : (s.perform shard msg env (.getFriendIds u)).1 = some ids) :
    ids = s.friendDb.acceptedBy u := by
  replace h : ((Database.getFriendIds u).run env.faults s.friendDb).reply = some ids := h
  rcases Database.getFriendIds_cases s.friendDb u env.faults with ⟨_, hnone, _⟩ | hall
  · rw [hnone] at h
    cases h
  · rw [hall] at h
    exact (Option.some.inj h).symm

namespace Acquainted

theorem begin (shards : Nat) (db : Db pg) (friendships : Friendships)
    (ranking : Ranking) (start : Service pg) :
    Acquainted start [] (Service.start (Stores.boot shards db friendships ranking)) where
  blank := Blank.start shards
  read := fun msg log u ids v hlogged => by
    rcases hlogged with ⟨k, rest, hworks⟩ | hfinished
    · cases hworks
    · cases hfinished
  accepted := fun msg log u name v hlogged => by
    rcases hlogged with ⟨k, rest, hworks⟩ | hfinished
    · cases hworks
    · cases hfinished
  cached := fun u friends v hcache => by cases hcache

theorem read_step (h : Acquainted start past s)
    (hrun : runFrom Service.step start past = some s) (heffect : Service.Effect s label t) :
    forall msg log u ids v, t.Logged msg log ->
      log.Has (.getFriendIds u) (some ids) -> v ∈ ids ->
        BeenFriends start (past ++ [label]) u v := by
  intro msg log u ids v hlogged hread hv
  rcases Service.logged_step heffect hlogged with
    hbefore | rfl | ⟨shard, env, o, next, before, _, works, rfl⟩
  · exact (h.read msg log u ids v hbefore hread hv).mono label
  · cases hread
  · rcases Log.has_cons.mp hread with heq | hearlier
    · generalize hanswer : (s.stores.perform shard msg env o).1 = answer at heq
      cases heq
      rw [s.stores.perform_getFriendIds shard msg env hanswer] at hv
      exact ⟨s, (visits_last hrun).append [label], mem_acceptedBy_iff.mp hv⟩
    · exact (h.read msg before u ids v (Or.inl ⟨shard, _, works⟩) hearlier hv).mono label

/-- An accepted request is a friendship in the next state. -/
theorem accepted_step (h : Acquainted start past s) (hs : Standing s)
    (hrun : runFrom Service.step start past = some s) (hstep : s.step label = some t) :
    forall msg log u name v, t.Logged msg log ->
      log.Has (.acceptFriend u name) (some (v + 1)) ->
        BeenFriends start (past ++ [label]) u (v + 1) := by
  intro msg log u name v hlogged haccept
  rcases Service.logged_step (Service.step_effect hstep) hlogged with
    hbefore | rfl | ⟨shard, env, o, next, before, rfl, works, rfl⟩
  · exact (h.accepted msg log u name v hbefore haccept).mono label
  · cases haccept
  · rcases Log.has_cons.mp haccept with heq | hearlier
    · refine ⟨t, visits_last (runFrom_snoc_of_run hrun hstep), ?_⟩
      have hrows := s.stores.perform_rows shard msg env hs.users o
      cases Service.step_effect hstep with
      | acted _ _ other log' o' next' works' =>
          rw [works] at works'
          cases works'
          rw [Service.goOn_stores]
          generalize s.stores.perform shard msg env o = out at heq hrows
          rcases out with ⟨answer, after⟩
          replace hrows : RowsAfter s.stores.friendDb.row o answer after.friendDb.row := hrows
          replace heq : (⟨.acceptFriend u name, some (v + 1)⟩ : Sigma (@Answer double)) =
            ⟨o, answer⟩ := heq
          cases heq
          generalize after.friendDb.row = row' at hrows
          show Befriended row' u (v + 1)
          cases hrows with
          | kept noAccept noBlock => exact absurd rfl (noAccept u name v)
          | accepted request => exact Or.inr (Function.update_self ..)
    · exact (h.accepted msg before u name v (Or.inl ⟨shard, _, works⟩) hearlier).mono _

/-- What is added to a cache was read from the tables, or accepted. -/
theorem added (h : Acquainted start past s) (hs : Standing s) {shard : Nat}
    {msg : ShardMsg} {log : Log double} {o : Op double}
    {next : Answer o -> Handler double Unit}
    (works : s.consumers shard = some ⟨msg, log, .call o next⟩) {u v : Nat}
    {ids : List Nat} (hadds : o.adds = some (u, ids)) (hv : v ∈ ids) :
    BeenFriends start past u v := by
  have hlogged : s.Logged msg log := Or.inl ⟨shard, _, works⟩
  have hproper : log.Proper msg := hs.proper shard _ works
  have howed : o ∈ log.owed := by
    rcases (hs.allowed works).left with hhead | hallows
    · exact List.mem_of_head? hhead
    · cases o with
      | loadFriendCache a bs => exact absurd hallows (fun hf => hf)
      | cacheAddFriend a b => exact absurd hallows (fun hf => hf)
      | _ => cases hadds
  cases o with
  | loadFriendCache a bs =>
      cases hadds
      exact h.read msg log u ids v hlogged (hproper.explains _ howed) hv
  | cacheAddFriend a b =>
      cases hadds
      rw [List.mem_singleton.mp hv]
      rcases Log.accepted_of_owed howed with ⟨c, d, name, hhas, hpair⟩
      have hfriends := h.accepted msg log c name d hlogged hhas
      rcases hpair with ⟨rfl, rfl⟩ | ⟨rfl, rfl⟩
      · exact hfriends
      · exact hfriends.symm
  | _ => cases hadds

theorem cached_step (h : Acquainted start past s) (hs : Standing s)
    (heffect : Service.Effect s label t) :
    forall u friends v, t.stores.manager.cacheOf u = some friends -> v ∈ friends ->
      BeenFriends start (past ++ [label]) u v := by
  intro u friends v hcache hv
  by_cases hact : forall shard env, label ≠ .act shard env
  · have hold := hs.cacheOf_effect heffect hact hcache
    exact (h.cached u friends v hold hv).mono label
  · cases heffect with
    | acted shard env msg log o next works =>
        rw [Service.goOn_stores] at hcache
        rcases hs.cached_before h.blank works env hcache hv with
          ⟨_, old, hold, hbefore⟩ | ⟨ids, _, hadds, hnew, _⟩
        · exact (h.cached u old v hold hbefore).mono _
        · exact (h.added hs works hadds hnew).mono _
    | _ => exact absurd (fun _ _ heq => by cases heq) hact

theorem step (h : Acquainted start past s) (hs : Standing s)
    (hrun : runFrom Service.step start past = some s) (hstep : s.step label = some t) :
    Acquainted start (past ++ [label]) t := by
  have heffect := Service.step_effect hstep
  exact ⟨hs.blank_step h.blank heffect, h.read_step hrun heffect,
    h.accepted_step hs hrun hstep, h.cached_step hs heffect⟩

end Acquainted

end Consumers
end ContentServer
