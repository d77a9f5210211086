import ContentServer.Consumers.Steps

/-!
# All logs

The logs of the handlers that are at work and of those that came to their end.
Logs only grow, what they say stays true, and they account for every user id
that a session was bound to.
-/

namespace ContentServer
namespace Consumers

open Foundation Protocol Sessions Registry Storage

variable {double : Type} {pg : Postgres double}

namespace Service

/-- A handler of this message has come this far, or ended like this. -/
def Logged (s : Service pg) (msg : ShardMsg) (log : Log double) : Prop :=
  (exists k rest, s.consumers k = some ⟨msg, log, rest⟩) ∨ (msg, log) ∈ s.finished

variable {s : Service pg} {shard : Nat} {msg m : ShardMsg} {log l : Log double}
variable {x : Handler double Unit}

theorem goOn_finished (s : Service pg) (shard : Nat) (msg : ShardMsg) (log : Log double)
    (x : Handler double Unit) :
    (s.goOn shard msg log x).finished = s.finished ∨
      (x = .done () ∧ (s.goOn shard msg log x).finished = (msg, log) :: s.finished) := by
  cases x with
  | done a => exact Or.inr ⟨rfl, rfl⟩
  | call o next => exact Or.inl rfl

theorem finished_goOn (h : (m, l) ∈ (s.goOn shard msg log x).finished) :
    (m, l) ∈ s.finished ∨ (x = .done () ∧ m = msg ∧ l = log) := by
  rcases goOn_finished s shard msg log x with
    hsame | ⟨hdone, hmore⟩
  · rw [hsame] at h
    exact Or.inl h
  · rw [hmore] at h
    rcases List.mem_cons.mp h with heq | hold
    · rcases Prod.mk.inj heq with ⟨hmsg, hlog⟩
      exact Or.inr ⟨hdone, hmsg, hlog⟩
    · exact Or.inl hold

/-- Every log is an old one or the one that goes on. -/
theorem logged_goOn (h : (s.goOn shard msg log x).Logged m l) :
    (m = msg ∧ l = log) ∨ s.Logged m l := by
  rcases h with ⟨k, rest, hworks⟩ | hfinished
  · rcases goOn_consumers hworks with ⟨_, heq⟩ | ⟨_, hold⟩
    · cases heq
      exact Or.inl ⟨rfl, rfl⟩
    · exact Or.inr (Or.inl ⟨k, rest, hold⟩)
  · rcases finished_goOn hfinished with hold | ⟨_, hmsg, hlog⟩
    · exact Or.inr (Or.inr hold)
    · exact Or.inl ⟨hmsg, hlog⟩

/-- The log that goes on is there afterwards. -/
theorem logged_self : (s.goOn shard msg log x).Logged msg log := by
  cases x with
  | done a => exact Or.inr List.mem_cons_self
  | call o next => exact Or.inl ⟨shard, .call o next, Function.update_self ..⟩

/-- All other logs are as well. -/
theorem Logged.goOn (h : s.Logged m l)
    (hother : forall rest, s.consumers shard ≠ some ⟨m, l, rest⟩) :
    (s.goOn shard msg log x).Logged m l := by
  rcases h with ⟨k, rest, hworks⟩ | hfinished
  · have hk : k ≠ shard := by
      intro hsame
      rw [hsame] at hworks
      exact hother rest hworks
    left
    exact ⟨k, rest, by rw [goOn_consumers_of_ne hk]; exact hworks⟩
  · right
    rcases goOn_finished s shard msg log x with
      hsame | ⟨_, hmore⟩
    · rw [hsame]
      exact hfinished
    · rw [hmore]
      exact List.mem_cons_of_mem _ hfinished

/-- The logs after a step: a consumer may have started or gone on. -/
theorem logged_step [One double] {t : Service pg} {label : Label double}
    (h : Effect s label t) {m : ShardMsg} {l : Log double} (hlogged : t.Logged m l) :
    s.Logged m l ∨ l = [] ∨
      exists shard env o next before,
        label = .act shard env ∧ s.consumers shard = some ⟨m, before, .call o next⟩ ∧
        l = ⟨o, (s.stores.perform shard m env o).1⟩ :: before := by
  cases h with
  | taken shard msg rest waits queue =>
      rcases logged_goOn hlogged with ⟨_, hlog⟩ | hold
      · exact Or.inr (Or.inl hlog)
      · exact Or.inl hold
  | acted shard env msg log o next works =>
      rcases logged_goOn hlogged with ⟨hmsg, hlog⟩ | hold
      · subst hmsg
        exact Or.inr (Or.inr ⟨shard, env, o, next, log, rfl, works, hlog⟩)
      · exact Or.inl hold
  | _ => exact Or.inl hlogged

/-- A log stays, up to the calls that are added to it. -/
theorem Logged.step [One double] {t : Service pg} {label : Label double}
    (hlogged : s.Logged m l) (h : Effect s label t) :
    exists later, t.Logged m later ∧ forall call, call ∈ l -> call ∈ later := by
  have hall : forall call, call ∈ l -> call ∈ l := fun _ hc => hc
  cases h with
  | taken shard msg rest waits queue =>
      refine ⟨l, Logged.goOn (s := s.withWaiting shard rest) hlogged ?_, hall⟩
      intro r hworks
      rw [show (s.withWaiting shard rest).consumers shard = s.consumers shard from rfl,
        waits] at hworks
      cases hworks
  | acted shard env msg log o next works =>
      by_cases hsame : exists r, s.consumers shard = some ⟨m, l, r⟩
      · rcases hsame with ⟨r, hworks⟩
        rw [works] at hworks
        cases hworks
        exact ⟨_, logged_self, fun call hc => List.mem_cons_of_mem _ hc⟩
      · refine ⟨l, Logged.goOn (s := { s with stores := _ }) hlogged ?_, hall⟩
        intro r hworks
        exact hsame ⟨r, hworks⟩
  | _ => exact ⟨l, hlogged, hall⟩

end Service

/-!
# What the logs attest
-/

variable [One double]

/-- A login of the session as this user came to setting its user id. -/
def Service.Entered (s : Service pg) (id u : Nat) : Prop :=
  exists msg log name, s.Logged msg log ∧ msg.sessionId = id ∧ IsNick msg name ∧
    log.Has (.loginOrRegister name) (some u) ∧ log.Has (.setName id name) true ∧
    log.Has (.setUserId id u) ()

structure Attested (s : Service pg) : Prop extends Standing s where
  ended : forall msg log, (msg, log) ∈ s.finished ->
    log.Proper msg ∧ log.owed = [] ∧ s.stores.Confirms msg log
  once : forall id u v, (id, u) ∈ s.stores.bound -> (id, v) ∈ s.stores.bound -> v = u
  entered : forall id u, (id, u) ∈ s.stores.bound -> s.Entered id u

omit [One double] in
theorem Stores.Grows.of_histories {s t : Stores pg} (hdb : t.db = s.db)
    (hnamed : t.named = s.named) (hbound : t.bound = s.bound) : s.Grows t where
  names := .same (by rw [hdb])
  named := fun e he => by rw [hnamed]; exact he
  bound := fun e he => by rw [hbound]; exact he

theorem Service.Effect.grows {s t : Service pg} {label : Service.Label double}
    (h : Service.Effect s label t) : s.stores.Grows t.stores := by
  cases h with
  | taken shard msg rest waits queue =>
      rw [Service.goOn_stores]
      exact .of_histories rfl rfl rfl
  | acted shard env msg log o next works =>
      rw [Service.goOn_stores]
      exact s.stores.perform_grows shard msg env o
  | _ => exact .of_histories rfl rfl rfl

theorem Service.Entered.step {s t : Service pg} {label : Service.Label double}
    {id u : Nat} (hentered : s.Entered id u) (h : Service.Effect s label t) :
    t.Entered id u := by
  rcases hentered with ⟨msg, log, name, hlogged, hid, hnick, hlogin, hname, hset⟩
  rcases hlogged.step h with ⟨later, hlater, hall⟩
  exact ⟨msg, later, name, hlater, hid, hnick, hall _ hlogin, hall _ hname,
    hall _ hset⟩

/-- The user ids after a step: one more may be there. -/
theorem Service.Effect.bound_cases {s t : Service pg} {label : Service.Label double}
    (h : Service.Effect s label t) :
    t.stores.bound = s.stores.bound ∨
      exists shard env msg log id u next slot, label = .act shard env ∧
        s.consumers shard = some ⟨msg, log, .call (.setUserId id u) next⟩ ∧
        s.stores.manager.byId.lookup id = some slot ∧
        t.stores.bound = (id, u) :: s.stores.bound := by
  cases h with
  | taken shard msg rest waits queue =>
      rw [Service.goOn_stores]
      exact Or.inl rfl
  | acted shard env msg log o next works =>
      rw [Service.goOn_stores]
      have hreg := s.stores.perform_registers shard msg env o
      generalize s.stores.perform shard msg env o = out at hreg
      rcases out with ⟨answer, after⟩
      cases hreg with
      | same same refused gone => exact Or.inl same.bound
      | named slot free live manager named bound => exact Or.inl bound
      | bound slot live manager named bound =>
          exact Or.inr ⟨shard, env, msg, log, _, _, next, slot, rfl, works, live, bound⟩
  | _ => exact Or.inl rfl

/-- Outside of the shards there are no consumers. -/
theorem Standing.waits {s : Service pg} (h : Standing s)
    (hshards : 0 < s.stores.manager.shardCount)
    (hall : forall k, k < s.stores.manager.shardCount -> (s.consumers k).isNone = true)
    (k : Nat) : s.consumers k = none := by
  cases hw : s.consumers k with
  | none => rfl
  | some w =>
      have hk : k < s.stores.manager.shardCount := by
        rw [h.routed k w hw]
        exact Nat.mod_lt _ hshards
      have hnone := hall k hk
      rw [hw] at hnone
      cases hnone

/-- The user id of a session never changes. -/
theorem Standing.bound_once {s : Service pg} (h : Standing s) {shard : Nat}
    {msg : ShardMsg} {log : Log double} {id u v : Nat} {slot : Slot}
    {next : Unit -> Handler double Unit}
    (hworks : s.consumers shard = some ⟨msg, log, .call (.setUserId id u) next⟩)
    (live : s.stores.manager.byId.lookup id = some slot)
    (hbound : (id, v) ∈ s.stores.bound) : v = u := by
  rcases h.setUserId_allowed hworks with ⟨_, name, hnamed, huser⟩
  have hname := (h.registry.named id name hnamed).right ⟨slot, live⟩
  have hv := (h.registry.bound id v hbound).right ⟨slot, live⟩
  rcases h.registry.assigned id v hv with ⟨found, hfound, hnumber⟩
  have hsame : found = name := by
    rw [hname] at hfound
    exact (Option.some.inj hfound).symm
  rw [← hnumber, hsame, nameNumbering_of_user h.users huser]

namespace Attested

theorem start (shards : Nat) (db : Db pg) (friendships : Friendships)
    (ranking : Ranking) (hdb : Numbered db.users) :
    Attested (Service.start (Stores.boot shards db friendships ranking)) where
  toStanding := Standing.start shards db friendships ranking hdb
  ended := fun msg log hmem => by cases hmem
  once := fun id u v hu => by cases hu
  entered := fun id u hu => by cases hu

/-- A handler that comes to its end keeps what its log says. -/
theorem ended_step {s t : Service pg} {label : Service.Label double} (h : Attested s)
    (heffect : Service.Effect s label t) :
    forall msg log, (msg, log) ∈ t.finished ->
      log.Proper msg ∧ log.owed = [] ∧ t.stores.Confirms msg log := by
  intro m l hmem
  have hgrows := heffect.grows
  have hold : (m, l) ∈ s.finished ->
      l.Proper m ∧ l.owed = [] ∧ t.stores.Confirms m l := by
    intro hfinished
    rcases h.ended m l hfinished with ⟨hproper, howed, hconfirms⟩
    exact ⟨hproper, howed, hconfirms.mono hgrows⟩
  cases heffect with
  | taken shard msg rest waits queue =>
      rcases Service.finished_goOn hmem with hfinished | ⟨hdone, hmsg, hlog⟩
      · exact hold hfinished
      · subst hmsg hlog
        have hconducts : Conducts m [] (handle m : Handler double Unit) := conducts_handle m
        rw [hdone] at hconducts
        refine ⟨trivial, hconducts, ?_⟩
        constructor
        · intro name u hhas
          cases hhas
        · intro id name hhas
          cases hhas
        · intro hsaw
          cases hsaw
        · intro u hacts
          cases hacts
  | acted shard env msg log o next works =>
      rcases Service.finished_goOn hmem with hfinished | ⟨hdone, hmsg, hlog⟩
      · exact hold hfinished
      · subst hmsg hlog
        have hconducts := (h.conducts shard _ works).right
          (s.stores.perform shard m env o).1
        replace hconducts : Conducts m
          (⟨o, (s.stores.perform shard m env o).1⟩ :: log)
          (next (s.stores.perform shard m env o).1) := hconducts
        rw [hdone] at hconducts
        rw [Service.goOn_stores]
        exact ⟨⟨h.proper shard _ works, h.allowed works⟩, hconducts,
          h.confirms_perform works env⟩
  | _ => exact hold hmem

theorem once_step {s t : Service pg} {label : Service.Label double} (h : Attested s)
    (heffect : Service.Effect s label t) :
    forall id u v, (id, u) ∈ t.stores.bound -> (id, v) ∈ t.stores.bound -> v = u := by
  intro id u v hu hv
  rcases heffect.bound_cases with
    hsame | ⟨shard, env, msg, log, id', u', next, slot, _, works, live, hmore⟩
  · rw [hsame] at hu hv
    exact h.once id u v hu hv
  · rw [hmore] at hu hv
    rcases List.mem_cons.mp hu with hnew | hold
    · cases hnew
      rcases List.mem_cons.mp hv with hnew | hother
      · cases hnew
        rfl
      · exact h.bound_once works live hother
    · rcases List.mem_cons.mp hv with hnew | hother
      · cases hnew
        exact (h.bound_once works live hold).symm
      · exact h.once id u v hold hother

theorem entered_step {s t : Service pg} {label : Service.Label double}
    (h : Attested s) (heffect : Service.Effect s label t) :
    forall id u, (id, u) ∈ t.stores.bound -> t.Entered id u := by
  intro id u hu
  rcases heffect.bound_cases with
    hsame | ⟨shard, env, msg, log, id', u', next, slot, hlabel, works, live, hmore⟩
  · rw [hsame] at hu
    exact (h.entered id u hu).step heffect
  · rw [hmore] at hu
    rcases List.mem_cons.mp hu with heq | hu
    · cases heq
      have hproper : log.Proper msg := h.proper shard _ works
      have hpromised := (h.allowed works).left
      rcases hpromised with howed | hallows
      · rcases hproper.explains _ (List.mem_of_mem_head? howed) with
          ⟨hid, name, hname, hlogin⟩
        rcases hproper.allows_of_has hlogin (fun _ hf => hf) with
          ⟨_, _, _, _, hnick, _⟩
        subst hlabel
        cases heffect with
        | acted shard env msg' log' o next' works' =>
            rw [works] at works'
            cases works'
            exact ⟨msg, _, name, Service.logged_self, hid.symm, hnick,
              hlogin.cons _, hname.cons _, List.mem_cons_self⟩
      · exact absurd hallows (fun hf => hf)
    · exact (h.entered id u hu).step heffect

end Attested

theorem attested_step : Preserved (Service.step : Service pg -> _) Attested := by
  intro s label t h hstep
  have heffect := Service.step_effect hstep
  have ht := standing_step s label t h.toStanding hstep
  exact ⟨ht, h.ended_step heffect, h.once_step heffect, h.entered_step heffect⟩

namespace Attested

variable {s : Service pg} {msg : ShardMsg} {log : Log double}

theorem proper_logged (h : Attested s) (hlogged : s.Logged msg log) :
    log.Proper msg := by
  rcases hlogged with ⟨k, rest, hworks⟩ | hfinished
  · exact h.proper k _ hworks
  · exact (h.ended msg log hfinished).left

theorem confirms_logged (h : Attested s) (hlogged : s.Logged msg log) :
    s.stores.Confirms msg log := by
  rcases hlogged with ⟨k, rest, hworks⟩ | hfinished
  · exact h.confirms k _ hworks
  · exact (h.ended msg log hfinished).right.right

end Attested

end Consumers
end ContentServer
