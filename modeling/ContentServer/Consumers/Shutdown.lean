import ContentServer.Consumers.MessageOrder
import ContentServer.Consumers.Workload

/-!
# Shutting the shards down

`ShardServer::Stop` stops the queues one after the other and waits for the
thread of each consumer before it goes on to the next.  Meanwhile connections
come and go, and the consumers that still run post to each other.

`Stop` returns, since the work that is there comes to its end, and by then all
that had been received when it was called has been handled.
-/

namespace ContentServer
namespace Consumers

open Foundation Protocol Sessions Registry Storage

variable {double : Type} {pg : Postgres double}

/-- Where `ShardServer::Stop` is. -/
inductive Progress where
  /-- It was not called yet. -/
  | serving
  /-- It is about to stop the queue of this consumer. -/
  | stopping (k : Nat)
  /-- It waits for the thread of this consumer. -/
  | joining (k : Nat)
  | returned
deriving DecidableEq

structure ShardServer (pg : Postgres double) where
  dispatch : Dispatch pg
  progress : Progress

namespace ShardServer

inductive Label (double : Type) where
  | dispatch (label : Dispatch.Label double)
  /-- `Stop` is called. -/
  | stop
  /-- `MPMCQueue::Stop` in `Consumer::Stop`. -/
  | stopQueue
  /-- `thread_.join()` returns. -/
  | join

/-- All consumers have been started. -/
def start (service : Service pg) : ShardServer pg where
  dispatch := .start service
  progress := .serving

/-- The size of `consumers_`. -/
def size (s : ShardServer pg) : Nat :=
  s.dispatch.service.stores.manager.shardCount

/-- The loop over the consumers comes to this one. -/
def comeTo (s : ShardServer pg) (k : Nat) : ShardServer pg :=
  { s with progress := if k < s.size then .stopping k else .returned }

def step [One double] (s : ShardServer pg) : Label double -> Option (ShardServer pg)
  | .dispatch (.stop _) => none
  | .dispatch label => (s.dispatch.step label).map fun d => { s with dispatch := d }
  | .stop =>
      match s.progress with
      | .serving => some (s.comeTo 0)
      | _ => none
  | .stopQueue =>
      match s.progress with
      | .stopping k => (s.dispatch.step (.stop k)).map fun d => ⟨d, .joining k⟩
      | _ => none
  | .join =>
      match s.progress with
      | .joining k => if s.dispatch.ended k then some (s.comeTo (k + 1)) else none
      | _ => none

/-- The steps of the consumers and of `Stop` once it is called. -/
def Label.inner : Label double -> Bool
  | .dispatch (.serve (.act _ _)) | .dispatch (.loop _) | .dispatch (.throw _)
  | .stopQueue | .join => true
  | _ => false

/-- No consumer can go on, and neither can `Stop`.  That a handler may end with an
exception is no way to go on. -/
def Stuck [One double] (s : ShardServer pg) : Prop :=
  forall label : Label double, label.inner = true ->
    (forall k, label ≠ .dispatch (.throw k)) -> s.step label = none

/-- One of these steps leads from one state to the other. -/
def Inner [One double] (t s : ShardServer pg) : Prop :=
  exists label : Label double, label.inner = true ∧ s.step label = some t

/-- The steps by their effect. -/
inductive Effect [One double] (s : ShardServer pg) :
    Label double -> ShardServer pg -> Prop where
  | dispatched (label : Dispatch.Label double) (d : Dispatch pg)
      (other : forall k, label ≠ .stop k) (step : s.dispatch.step label = some d) :
      Effect s (.dispatch label) { s with dispatch := d }
  | called (serving : s.progress = .serving) : Effect s .stop (s.comeTo 0)
  | stopped (k : Nat) (stopping : s.progress = .stopping k) :
      Effect s .stopQueue ⟨s.dispatch.stopQueue k, .joining k⟩
  | joined (k : Nat) (joining : s.progress = .joining k)
      (ended : s.dispatch.ended k = true) : Effect s .join (s.comeTo (k + 1))

theorem step_effect [One double] {s t : ShardServer pg} {label : Label double}
    (h : s.step label = some t) : Effect s label t := by
  have hdispatch : forall l : Dispatch.Label double, (forall k, l ≠ .stop k) ->
      (s.dispatch.step l).map (fun d => { s with dispatch := d }) = some t ->
      Effect s (.dispatch l) t := by
    intro l hother hl
    rcases Option.map_eq_some_iff.mp hl with ⟨d, hstep, rfl⟩
    exact .dispatched l d hother hstep
  cases label with
  | dispatch l =>
      cases l with
      | stop k => cases h
      | _ => exact hdispatch _ (fun _ hstop => by cases hstop) h
  | stop =>
      simp only [step] at h
      split at h
      next hserving =>
        cases h
        exact .called hserving
      next => cases h
  | stopQueue =>
      simp only [step] at h
      split at h
      next k hstopping =>
        cases h
        exact .stopped k hstopping
      next => cases h
  | join =>
      simp only [step] at h
      split at h
      next k hjoining =>
        split at h
        next hended =>
          cases h
          exact .joined k hjoining hended
        next => cases h
      next => cases h

end ShardServer

/-!
# What holds while the shards are shut down
-/

/-- How many queues have been stopped. -/
def Progress.stopped (n : Nat) : Progress -> Nat
  | serving => 0
  | stopping k => k
  | joining k => k + 1
  | returned => n

/-- How many threads have been joined. -/
def Progress.joined (n : Nat) : Progress -> Nat
  | serving => 0
  | stopping k => k
  | joining k => k
  | returned => n

/-- How many steps `Stop` itself has left at most. -/
def Progress.remaining (n : Nat) : Progress -> Nat
  | serving => 0
  | stopping k => 2 * (n - k)
  | joining k => 2 * (n - k) - 1
  | returned => 0

namespace Dispatch

variable [One double] {n k : Nat} {s t : Dispatch pg}

/-- A loop that has ended does nothing more. -/
theorem running_of_loop (h : s.step (.loop k) = some t) : s.ended k = false := by
  simp only [step] at h
  split at h
  · cases h
  · rename_i hrunning
    exact Bool.eq_false_iff.mpr hrunning

/-- Messages only wait for the shards that there are. -/
theorem Ordered.lt_of_queue (h : Ordered n s) (hn : 0 < n) {msg : ShardMsg}
    {rest : List ShardMsg} (queue : s.service.waiting k = msg :: rest) :
    k < n := by
  have hmem : msg ∈ s.service.waiting k := by
    rw [queue]
    exact List.mem_cons_self
  rw [h.queued_routed hmem]
  exact Nat.mod_lt _ hn

end Dispatch

structure ShardServer.Orderly [One double] (n : Nat) (s : ShardServer pg) : Prop where
  ordered : Dispatch.Ordered n s.dispatch
  mannered : s.dispatch.service.Adheres utterance
  calls : forall k w, s.dispatch.service.consumers k = some w ->
    k < n ∧ exists o next, w.rest = .call o next
  halted : forall k, s.dispatch.ended k = true ->
    s.dispatch.stopping k = true ∧ s.dispatch.service.consumers k = none
  stopped : forall k, s.dispatch.stopping k = true <-> k < s.progress.stopped n
  joined : forall k, k < s.progress.joined n -> s.dispatch.ended k = true
  range : forall k, s.progress = .stopping k ∨ s.progress = .joining k -> k < n

namespace ShardServer

/-- The handlers that are at work after a consumer went on. -/
theorem calls_goOn {n k : Nat} (hk : k < n) {s : Service pg} {msg : ShardMsg}
    {log : Log double} {x : Handler double Unit}
    (h : forall i w, s.consumers i = some w -> i < n ∧ exists o next, w.rest = .call o next)
    {i : Nat} {w : Working double} (hw : (s.goOn k msg log x).consumers i = some w) :
    i < n ∧ exists o next, w.rest = .call o next := by
  rcases Service.goOn_consumers hw with ⟨rfl, rfl⟩ | ⟨_, hold⟩
  · refine ⟨hk, ?_⟩
    cases x with
    | done a =>
        replace hw : Function.update s.consumers i none i = some _ := hw
        rw [Function.update_self] at hw
        cases hw
    | call o next => exact ⟨o, next, rfl⟩
  · exact h i w hold

variable [One double] {n : Nat} {s t : ShardServer pg}

theorem Orderly.start (n : Nat) (db : Db pg) (friendships : Friendships)
    (ranking : Ranking) :
    Orderly n (ShardServer.start (Service.start (Stores.boot n db friendships ranking))) where
  ordered := Dispatch.Ordered.start n db friendships ranking
  mannered := fun k w hw => by cases hw
  calls := fun k w hw => by cases hw
  halted := fun k hk => by cases hk
  stopped := fun k => ⟨fun hk => (by cases hk), fun hk => absurd hk (Nat.not_lt_zero k)⟩
  joined := fun k hk => absurd hk (Nat.not_lt_zero k)
  range := fun k hk => by rcases hk with hk | hk <;> cases hk

theorem Orderly.size (h : Orderly n s) : s.size = n :=
  h.ordered.shards

/-- The loops go on. -/
theorem Orderly.dispatched (h : Orderly n s) (hn : 0 < n) {label : Dispatch.Label double}
    {d : Dispatch pg} (other : forall k, label ≠ .stop k)
    (hstep : s.dispatch.step label = some d) : Orderly n { s with dispatch := d } := by
  have heffect := Dispatch.step_effect hstep
  have hordered := h.ordered.step heffect
  have hstopped : forall k, d.stopping k = true <-> k < s.progress.stopped n := by
    rw [heffect.stopping other]
    exact h.stopped
  have hhalted : forall k, s.dispatch.ended k = true -> d.stopping k = true := by
    rw [heffect.stopping other]
    exact fun k hk => (h.halted k hk).left
  cases heffect with
  | served label service notPop step =>
      have hcalls : forall k w, service.consumers k = some w ->
          k < n ∧ exists o next, w.rest = .call o next := by
        intro k w hw
        cases Service.step_effect step with
        | taken shard msg rest waits queue => exact absurd rfl (notPop shard)
        | acted shard env msg log o next works =>
            exact calls_goOn (h.calls shard _ works).left (s := { s.dispatch.service with
              stores := (s.dispatch.service.stores.perform shard msg env o).2 }) h.calls hw
        | _ => exact h.calls k w hw
      have hidle : forall k, s.dispatch.service.consumers k = none ->
          service.consumers k = none := by
        intro k hk
        cases Service.step_effect step with
        | taken shard msg rest waits queue => exact absurd rfl (notPop shard)
        | acted shard env msg log o next works =>
            have hne : k ≠ shard := by
              intro hsame
              rw [hsame, works] at hk
              cases hk
            rw [Service.goOn_consumers_of_ne hne]
            exact hk
        | _ => exact hk
      exact ⟨hordered, adheres_preserved mannered_handle _ _ _ h.mannered step, hcalls,
        fun k hk => ⟨hhalted k hk, hidle k (h.halted k hk).right⟩, hstopped,
        h.joined, h.range⟩
  | popped k msg rest waits queue =>
      have hk : k < n := h.ordered.lt_of_queue hn queue
      have hrunning := Dispatch.running_of_loop hstep
      refine ⟨hordered, ?_, ?_, ?_, hstopped, h.joined, h.range⟩
      · exact Service.Adheres.goOn (s := s.dispatch.service.withWaiting k rest) h.mannered
          (mannered_handle msg)
      · intro i w hw
        exact calls_goOn hk (s := s.dispatch.service.withWaiting k rest) h.calls hw
      · intro i hi
        have hne : i ≠ k := by
          intro hsame
          replace hi : s.dispatch.ended i = true := hi
          rw [hsame, hrunning] at hi
          cases hi
        refine ⟨hhalted i hi, ?_⟩
        show ((s.dispatch.service.withWaiting k rest).goOn k msg [] (handle msg)).consumers i =
          none
        rw [Service.goOn_consumers_of_ne hne]
        exact (h.halted i hi).right
  | ended k waits stopped empty =>
      refine ⟨hordered, h.mannered, h.calls, ?_, h.stopped, ?_, h.range⟩
      · intro i hi
        replace hi : Function.update s.dispatch.ended k true i = true := hi
        by_cases hik : i = k
        · rw [hik]
          exact ⟨stopped, waits⟩
        · rw [Function.update_of_ne hik] at hi
          exact h.halted i hi
      · intro i hi
        show Function.update s.dispatch.ended k true i = true
        by_cases hik : i = k
        · rw [hik, Function.update_self]
        · rw [Function.update_of_ne hik]
          exact h.joined i hi
  | threw k w works =>
      have hless : forall i v,
          Function.update s.dispatch.service.consumers k none i = some v ->
          s.dispatch.service.consumers i = some v := by
        intro i v hv
        by_cases hik : i = k
        · rw [hik, Function.update_self] at hv
          cases hv
        · rw [Function.update_of_ne hik] at hv
          exact hv
      refine ⟨hordered, fun i v hv => h.mannered i v (hless i v hv),
        fun i v hv => h.calls i v (hless i v hv), ?_, h.stopped, h.joined, h.range⟩
      intro i hi
      refine ⟨(h.halted i hi).left, ?_⟩
      show Function.update s.dispatch.service.consumers k none i = none
      by_cases hik : i = k
      · rw [hik, Function.update_self]
      · rw [Function.update_of_ne hik]
        exact (h.halted i hi).right
  | stopped k => exact absurd rfl (other k)

/-- Where the loop over the consumers comes to. -/
theorem progress_comeTo (h : Orderly n s) {k : Nat} (hk : k ≤ n) :
    (s.comeTo k).progress.stopped n = k ∧ (s.comeTo k).progress.joined n = k ∧
      (s.comeTo k).progress.remaining n = 2 * (n - k) ∧
      forall i, (s.comeTo k).progress = .stopping i ∨ (s.comeTo k).progress = .joining i ->
        i < n := by
  unfold comeTo
  rw [h.size]
  by_cases hlt : k < n
  · rw [if_pos hlt]
    refine ⟨rfl, rfl, rfl, ?_⟩
    intro i hi
    rcases hi with hi | hi
    · cases hi
      exact hlt
    · cases hi
  · have hsame : k = n := by omega
    rw [if_neg hlt, hsame]
    refine ⟨rfl, rfl, ?_, ?_⟩
    · show 0 = _
      omega
    · intro i hi
      rcases hi with hi | hi <;> cases hi

theorem Orderly.step (h : Orderly n s) (hn : 0 < n) {label : Label double}
    (effect : Effect s label t) : Orderly n t := by
  cases effect with
  | dispatched label d other hstep => exact h.dispatched hn other hstep
  | called serving =>
      rcases progress_comeTo h (Nat.zero_le n) with ⟨hstopped, hjoined, _, hrange⟩
      refine ⟨h.ordered, h.mannered, h.calls, h.halted, ?_, ?_, hrange⟩
      · intro i
        rw [hstopped]
        have hold := h.stopped i
        rw [serving] at hold
        exact hold
      · intro i hi
        rw [hjoined] at hi
        exact absurd hi (Nat.not_lt_zero i)
  | stopped k stopping =>
      refine ⟨h.ordered.step (.stopped k), h.mannered, h.calls, ?_, ?_, ?_, ?_⟩
      · intro i hi
        refine ⟨?_, (h.halted i hi).right⟩
        show (s.dispatch.stopQueue k).stopping i = true
        rw [Dispatch.stopping_stopQueue]
        by_cases hik : i = k
        · rw [hik, Function.update_self]
        · rw [Function.update_of_ne hik]
          exact (h.halted i hi).left
      · intro i
        have hold := h.stopped i
        rw [stopping] at hold
        show (s.dispatch.stopQueue k).stopping i = true <-> i < k + 1
        rw [Dispatch.stopping_stopQueue]
        by_cases hik : i = k
        · rw [hik, Function.update_self]
          exact ⟨fun _ => Nat.lt_succ_self k, fun _ => rfl⟩
        · rw [Function.update_of_ne hik, hold]
          show i < k <-> i < k + 1
          omega
      · intro i hi
        apply h.joined
        rw [stopping]
        exact hi
      · intro i hi
        rcases hi with hi | hi
        · cases hi
        · cases hi
          exact h.range k (Or.inl stopping)
  | joined k joining ended =>
      have hk := h.range k (Or.inr joining)
      rcases progress_comeTo h (Nat.succ_le_of_lt hk) with ⟨hstopped, hjoined, _, hrange⟩
      refine ⟨h.ordered, h.mannered, h.calls, h.halted, ?_, ?_, hrange⟩
      · intro i
        rw [hstopped]
        have hold := h.stopped i
        rw [joining] at hold
        exact hold
      · intro i hi
        rw [hjoined] at hi
        by_cases hik : i = k
        · rw [hik]
          exact ended
        · apply h.joined
          rw [joining]
          show i < k
          omega

theorem orderly_run (hn : 0 < n) {db : Db pg} {friendships : Friendships}
    {ranking : Ranking} {labels : List (Label double)}
    (hrun : runFrom ShardServer.step
      (.start (Service.start (Stores.boot n db friendships ranking))) labels = some s) :
    Orderly n s :=
  Preserved.run (fun _ _ _ h hstep => h.step hn (step_effect hstep))
    (Orderly.start n db friendships ranking) hrun

/-!
# The steps come to an end
-/

/-- The loops that have not ended. -/
def loops (n : Nat) (d : Dispatch pg) : Nat :=
  ((Finset.range n).filter fun k => d.ended k = false).card

omit [One double] in
/-- One loop fewer is left when a loop ends. -/
theorem loops_ended {d : Dispatch pg} {k : Nat} (hk : k < n)
    (running : d.ended k = false) :
    loops n { d with ended := Function.update d.ended k true } < loops n d := by
  apply Finset.card_lt_card
  refine ⟨?_, fun hsub => ?_⟩
  · intro i hi
    rcases Finset.mem_filter.mp hi with ⟨hrange, hended⟩
    replace hended : Function.update d.ended k true i = false := hended
    refine Finset.mem_filter.mpr ⟨hrange, ?_⟩
    by_cases hik : i = k
    · rw [hik]
      exact running
    · rw [Function.update_of_ne hik] at hended
      exact hended
  · have hmem := hsub (Finset.mem_filter.mpr ⟨Finset.mem_range.mpr hk, running⟩)
    have hended := (Finset.mem_filter.mp hmem).right
    replace hended : Function.update d.ended k true k = false := hended
    rw [Function.update_self] at hended
    cases hended

/-- The work that is left, and then the loops and the steps of `Stop`. -/
def measure (n : Nat) (s : ShardServer pg) :
    Multiset (Task (@Answer double) ShardMsg) × Nat :=
  (workload n s.dispatch.service, loops n s.dispatch + s.progress.remaining n)

/-- Less work is left, or as much work and fewer loops or steps of `Stop`. -/
abbrev Lower : Multiset (Task (@Answer double) ShardMsg) × Nat ->
    Multiset (Task (@Answer double) ShardMsg) × Nat -> Prop :=
  Prod.Lex (@workshop double _).Works (· < ·)

theorem lower_of_inner (h : Orderly n s) (hn : 0 < n) (hinner : Inner t s) :
    Lower (measure n t) (measure n s) := by
  rcases hinner with ⟨label, hlabel, hstep⟩
  cases step_effect hstep with
  | dispatched label d other step =>
      cases Dispatch.step_effect step with
      | served label service notPop served =>
          cases Service.step_effect served with
          | taken shard msg rest waits queue => exact absurd rfl (notPop shard)
          | acted shard env msg log o next works =>
              exact .left _ _ (works_acted (h.calls shard _ works).left h.size env works)
          | _ => cases hlabel
      | popped k msg rest waits queue =>
          exact .left _ _ (works_taken (h.ordered.lt_of_queue hn queue) waits queue)
      | ended k waits stopped empty =>
          have hk : k < n := by
            have hbefore := (h.stopped k).mp stopped
            have hrange := h.range
            cases hprogress : s.progress with
            | serving =>
                rw [hprogress] at hbefore
                exact absurd hbefore (Nat.not_lt_zero k)
            | stopping i =>
                rw [hprogress] at hbefore
                exact Nat.lt_trans hbefore (hrange i (Or.inl hprogress))
            | joining i =>
                rw [hprogress] at hbefore
                exact Nat.lt_of_le_of_lt (Nat.lt_succ_iff.mp hbefore)
                  (hrange i (Or.inr hprogress))
            | returned =>
                rw [hprogress] at hbefore
                exact hbefore
          exact .right _ (Nat.add_lt_add_right
            (loops_ended hk (Dispatch.running_of_loop step)) _)
      | threw k w works => exact .left _ _ (works_threw (h.calls k w works).left works)
      | stopped k => exact absurd rfl (other k)
  | called serving => cases hlabel
  | stopped k stopping =>
      have hwork : workload n (s.dispatch.stopQueue k).service =
          workload n s.dispatch.service := by
        unfold workload queueTasks
        rw [Dispatch.waiting_stopQueue]
        rfl
      unfold measure
      rw [hwork]
      refine .right _ (Nat.add_lt_add_left ?_ _)
      have hk := h.range k (Or.inl stopping)
      rw [stopping]
      show 2 * (n - k) - 1 < 2 * (n - k)
      omega
  | joined k joining ended =>
      refine .right _ (Nat.add_lt_add_left ?_ _)
      have hk := h.range k (Or.inr joining)
      rw [(progress_comeTo h (Nat.succ_le_of_lt hk)).right.right.left, joining]
      show 2 * (n - (k + 1)) < 2 * (n - k) - 1
      omega

theorem acc_inner (h : Orderly n s) (hn : 0 < n) : Acc Inner s := by
  refine @acc_of_measure _ _ Inner (Orderly n) Lower (measure n) ?_ s h ?_
  · intro u v hu hinner
    refine ⟨?_, lower_of_inner hu hn hinner⟩
    rcases hinner with ⟨label, _, hstep⟩
    exact hu.step hn (step_effect hstep)
  · exact Prod.lexAccessible (acc_workload h.mannered) (fun m => Nat.lt_wfRel.wf.apply m) _

/-!
# Where no step is left
-/

theorem exists_environment : Nonempty (Environment double) := by
  refine ⟨⟨fun _ => false, 0, fun _ => .started, 0, 1, fun o => ?_⟩⟩
  cases o with
  | uniformReal low high => exact (1 : double)
  | _ => exact default

/-- All handlers have come to their end. -/
theorem Stuck.waits (hstuck : Stuck s) (h : Orderly n s) (k : Nat) :
    s.dispatch.service.consumers k = none := by
  cases hw : s.dispatch.service.consumers k with
  | none => rfl
  | some w =>
      rcases (h.calls k w hw).right with ⟨o, next, hrest⟩
      rcases (exists_environment : Nonempty (Environment double)) with ⟨env⟩
      have hnone := hstuck (.dispatch (.serve (.act k env))) rfl (fun _ hthrow => by
        cases hthrow)
      rcases w with ⟨msg, log, rest⟩
      subst hrest
      simp only [step, Dispatch.step, Service.step, hw, Option.map_some] at hnone
      cases hnone

/-- A loop has ended, or it waits at an empty queue. -/
theorem Stuck.loop (hstuck : Stuck s) (h : Orderly n s) (k : Nat) :
    s.dispatch.ended k = true ∨
      (s.dispatch.service.waiting k = [] ∧ s.dispatch.stopping k = false) := by
  have hwaits := hstuck.waits h k
  have hnone := hstuck (.dispatch (.loop k)) rfl (fun _ hthrow => by cases hthrow)
  cases hended : s.dispatch.ended k with
  | true => exact Or.inl rfl
  | false =>
      right
      cases hpop : (s.dispatch.service.stores.world.queues k).pop with
      | none => exact MPMCQueue.pop_waits.mp hpop
      | some out =>
          rcases out with ⟨_ | msg, after⟩
          · simp only [step, Dispatch.step, hended, hwaits, hpop] at hnone
            cases hnone
          · rcases MPMCQueue.pop_eq_some.mp hpop with ⟨rest, hqueue, _⟩
            simp only [step, Dispatch.step, hended, hwaits, hpop,
              Service.step_pop hwaits hqueue] at hnone
            cases hnone

/-- `Stop` has returned, if it was called. -/
theorem Stuck.progress (hstuck : Stuck s) (h : Orderly n s) :
    s.progress = .serving ∨ s.progress = .returned := by
  cases hprogress : s.progress with
  | serving => exact Or.inl rfl
  | returned => exact Or.inr rfl
  | stopping k =>
      have hnone := hstuck .stopQueue rfl (fun _ hthrow => by cases hthrow)
      simp only [step, hprogress, Dispatch.step, Option.map_some] at hnone
      cases hnone
  | joining k =>
      have hstopping : s.dispatch.stopping k = true := by
        rw [h.stopped k, hprogress]
        exact Nat.lt_succ_self k
      rcases hstuck.loop h k with hended | ⟨_, hopen⟩
      · have hnone := hstuck .join rfl (fun _ hthrow => by cases hthrow)
        simp only [step, hprogress, hended, if_true] at hnone
        cases hnone
      · rw [hstopping] at hopen
        cases hopen

end ShardServer

/--
The shards come to rest.  From every state of every run, the consumers and `Stop`
can only take finitely many steps if nothing comes in from outside, whatever the
order of the steps and whichever handlers fail.  When they can take no more, all
consumers wait; the queues are empty if `Stop` was not called, and else `Stop`
has returned and all loops have ended.
-/
theorem shards_come_to_rest [One double] {n : Nat} (hn : 0 < n) {db : Db pg}
    {friendships : Friendships} {ranking : Ranking}
    {labels : List (ShardServer.Label double)} {s : ShardServer pg}
    (hrun : runFrom ShardServer.step
      (.start (Service.start (Stores.boot n db friendships ranking))) labels = some s) :
    Acc ShardServer.Inner s ∧
    (s.Stuck -> (forall k, s.dispatch.service.consumers k = none) ∧
      ((s.progress = .serving ∧
          forall k, s.dispatch.service.waiting k = []) ∨
        (s.progress = .returned ∧ forall k, k < n -> s.dispatch.ended k = true))) := by
  have h := ShardServer.orderly_run hn hrun
  refine ⟨ShardServer.acc_inner h hn, fun hstuck => ⟨hstuck.waits h, ?_⟩⟩
  rcases hstuck.progress h with hserving | hreturned
  · refine Or.inl ⟨hserving, fun k => ?_⟩
    rcases hstuck.loop h k with hended | ⟨hempty, _⟩
    · have hstopped := (h.stopped k).mp (h.halted k hended).left
      rw [hserving] at hstopped
      exact absurd hstopped (Nat.not_lt_zero k)
    · exact hempty
  · refine Or.inr ⟨hreturned, fun k hk => ?_⟩
    apply h.joined
    rw [hreturned]
    exact hk

/-!
# What has been handled when `Stop` returns
-/

namespace Dispatch

variable [One double] {s t : Dispatch pg} {label : Dispatch.Label double}

theorem arrived_step (effect : Effect s label t) (k : Nat) :
    s.arrived k <+: t.arrived k := by
  cases effect with
  | served label service other step => exact List.prefix_append _ _
  | _ => exact List.prefix_refl _

theorem handledBy_step (effect : Effect s label t) (k : Nat) :
    s.handledBy k <+: t.handledBy k := by
  cases effect with
  | popped j msg rest waits queue =>
      show pushesTo k s.handled <+: pushesTo k (s.handled ++ [(j, msg)])
      rw [pushesTo_append]
      exact List.prefix_append _ _
  | _ => exact List.prefix_refl _

end Dispatch

namespace ShardServer

variable [One double] {n : Nat} {s t u : ShardServer pg}

/-- What had arrived in an earlier state stays arrived, and loops that have ended
have handled it. -/
structure Drains (u s : ShardServer pg) : Prop where
  arrived : forall k, u.dispatch.arrived k <+: s.dispatch.arrived k
  handled : forall k, s.dispatch.ended k = true ->
    u.dispatch.arrived k <+: s.dispatch.handledBy k

omit [One double] in
theorem Drains.congr (h : Drains u s) {d : Dispatch pg} (harrived : d.arrived = s.dispatch.arrived)
    (hhandled : d.handled = s.dispatch.handled) (hended : d.ended = s.dispatch.ended)
    (progress : Progress) : Drains u ⟨d, progress⟩ where
  arrived := fun k => by
    rw [show (ShardServer.mk d progress).dispatch.arrived k = s.dispatch.arrived k from
      congrFun harrived k]
    exact h.arrived k
  handled := fun k hk => by
    replace hk : d.ended k = true := hk
    rw [hended] at hk
    show _ <+: pushesTo k d.handled
    rw [hhandled]
    exact h.handled k hk

theorem Drains.step (h : Drains u s) (hs : Orderly n s) {label : Label double}
    (effect : Effect s label t) : Drains u t := by
  cases effect with
  | called serving => exact h.congr rfl rfl rfl _
  | stopped k stopping =>
      exact h.congr (d := s.dispatch.stopQueue k) rfl rfl rfl _
  | joined k joining ended => exact h.congr rfl rfl rfl _
  | dispatched label d other hstep =>
      have heffect := Dispatch.step_effect hstep
      refine ⟨fun k => (h.arrived k).trans (Dispatch.arrived_step heffect k), ?_⟩
      intro k hk
      cases hbefore : s.dispatch.ended k with
      | true => exact (h.handled k hbefore).trans (Dispatch.handledBy_step heffect k)
      | false =>
          -- the loop ends in this step, and so all that arrived was handled
          have hend := (hs.ordered.loop_end heffect hbefore hk).right.right
          refine ((h.arrived k).trans ?_).trans (Dispatch.handledBy_step heffect k)
          rw [hend]

end ShardServer

/--
`Stop` loses nothing that had been received when it was called.  When it has
returned, every loop has ended and has handled all messages that had arrived in
its queue by then; so all lines that had been received from a session have been
handled in their order.
-/
theorem stop_drains [One double] {n : Nat} (hn : 0 < n) {db : Db pg}
    {friendships : Friendships} {ranking : Ranking}
    {before after : List (ShardServer.Label double)} {s t : ShardServer pg}
    (hbefore : runFrom ShardServer.step
      (.start (Service.start (Stores.boot n db friendships ranking))) before = some s)
    (hserving : s.progress = .serving)
    (hafter : runFrom ShardServer.step s after = some t)
    (hreturned : t.progress = .returned) :
    (forall k, k < n -> t.dispatch.ended k = true ∧
      t.dispatch.service.consumers k = none ∧
      s.dispatch.arrived k <+: t.dispatch.handledBy k) ∧
    forall id, s.dispatch.received.filter (fun msg => msg.sessionId = id) <+:
      (t.dispatch.handled.map Prod.snd).filter (clientOf id) := by
  have hs := ShardServer.orderly_run hn hbefore
  have hdrains : ShardServer.Orderly n t ∧ ShardServer.Drains s t := by
    refine Preserved.run (I := fun u => ShardServer.Orderly n u ∧ ShardServer.Drains s u)
      ?_ ⟨hs, ?_⟩ hafter
    · intro u label v hu hstep
      have heffect := ShardServer.step_effect hstep
      exact ⟨hu.left.step hn heffect, hu.right.step hu.left heffect⟩
    · refine ⟨fun k => List.prefix_refl _, fun k hk => ?_⟩
      have hstopped := (hs.stopped k).mp (hs.halted k hk).left
      rw [hserving] at hstopped
      exact absurd hstopped (Nat.not_lt_zero k)
  rcases hdrains with ⟨ht, hdrains⟩
  have hended : forall k, k < n -> t.dispatch.ended k = true := by
    intro k hk
    apply ht.joined
    rw [hreturned]
    exact hk
  constructor
  · intro k hk
    exact ⟨hended k hk, (ht.halted k (hended k hk)).right, hdrains.handled k (hended k hk)⟩
  · intro id
    have hk : id % n < n := Nat.mod_lt id hn
    rw [← hs.ordered.clients id, ← filter_pushesTo ht.ordered.handled_routed]
    exact (hdrains.handled (id % n) (hended _ hk)).filter _

/-!
# A line is received before `Stop` is called
-/

namespace ShardServer

def oneShard : ShardServer percentServer :=
  .start (.start (.boot 1 ⟨∅, ∅⟩ ∅ ⟨∅, ∅⟩))

/-- The line waits when `Stop` is called. -/
def receives : List (Label Nat) :=
  [.dispatch (.serve (.connect 10)),
    .dispatch (.serve (.receive 1 (makePacket 0 (text "hi"))))]

/-- The consumer handles it before its loop ends. -/
def stops : List (Label Nat) :=
  [.stop, .stopQueue, .dispatch (.loop 0), .dispatch (.serve (.act 0 calm)),
    .dispatch (.serve (.act 0 calm)), .dispatch (.loop 0), .join]

end ShardServer

theorem shards_come_to_rest_receives :
    exists s, runFrom ShardServer.step ShardServer.oneShard ShardServer.receives = some s ∧
      Acc ShardServer.Inner s := by
  have hrun : (runFrom ShardServer.step ShardServer.oneShard
      ShardServer.receives).isSome = true := by decide +kernel
  rcases Option.isSome_iff_exists.mp hrun with ⟨s, hs⟩
  exact ⟨s, hs, (shards_come_to_rest (by decide) hs).left⟩

theorem stop_drains_receives :
    exists s t, runFrom ShardServer.step ShardServer.oneShard ShardServer.receives = some s ∧
      runFrom ShardServer.step s ShardServer.stops = some t ∧
      s.dispatch.received.filter (fun msg => msg.sessionId = 1) <+:
        (t.dispatch.handled.map Prod.snd).filter (clientOf 1) := by
  have hall : (runFrom ShardServer.step ShardServer.oneShard ShardServer.receives).bind
      (fun s => (runFrom ShardServer.step s ShardServer.stops).map fun t =>
        (s.progress, t.progress)) = some (.serving, .returned) := by decide +kernel
  rcases Option.bind_eq_some_iff.mp hall with ⟨s, hs, hrest⟩
  rcases Option.map_eq_some_iff.mp hrest with ⟨t, ht, hprogress⟩
  rcases Prod.mk.inj hprogress with ⟨hserving, hreturned⟩
  exact ⟨s, t, hs, ht, (stop_drains (by decide) hs hserving ht hreturned).right 1⟩

end Consumers
end ContentServer
