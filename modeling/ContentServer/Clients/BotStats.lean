import ContentServer.Clients.BotAnswers
import ContentServer.Foundation.Parties

/-!
# The statistics of the bots

All bots raise the same counters, each counter by itself, so that what is printed
may be read in the middle of any step.  The counters differ by exactly what the
bots are in the middle of.
-/

namespace ContentServer
namespace Clients

open Foundation Protocol

/-- The call of `Add` in a sight. -/
def Sight.added : Sight -> Option (Counter × Int)
  | .counted counter delta => some (counter, delta)
  | _ => none

/-- The bots of `main` and their `stats`.  A step adds at most one to a counter, so
that the `atomic.Int64` of the source would wrap around only after 2^63 steps. -/
structure Swarm where
  bots : Nat -> Bot
  stats : Counter -> Int

namespace Swarm

/-- The bots with these names, before the first has dialed. -/
def start (names : List (List UInt8)) : Swarm where
  bots := fun i => Bot.new (names.getD i []) names
  stats := fun _ => 0

/-- Any bot may take the next step. -/
def machine (n : Nat) : Machine Swarm (Nat × BotEvent) Sight :=
  fun s a =>
    (parties bot n s.bots a).map fun r =>
      (⟨r.1, r.2.foldl (raised Sight.added) s.stats⟩, r.2)

/-- The number of bots of a kind. -/
def count (n : Nat) (s : Swarm) (kind : Bot -> Bool) : Int :=
  (Finset.range n).sum fun i => if kind (s.bots i) then 1 else 0

theorem trace_machine {n : Nat} {inputs : List (Nat × BotEvent)} {s t : Swarm}
    {out : List Sight} (htrace : (machine n).trace s inputs = some (t, out)) :
    (parties bot n).trace s.bots inputs = some (t.bots, out) ∧
      t.stats = out.foldl (raised Sight.added) s.stats := by
  induction inputs generalizing s out with
  | nil =>
      cases htrace
      exact ⟨rfl, rfl⟩
  | cons a rest ih =>
      rcases Machine.trace_cons_some htrace with ⟨u, first, more, hstep, hrest, rfl⟩
      rcases Option.map_eq_some_iff.mp hstep with ⟨⟨bots, seen⟩, hbots, hpair⟩
      cases hpair
      rcases ih hrest with ⟨hmore, hstats⟩
      rw [List.foldl_append]
      exact ⟨Machine.trace_cons_of_step hbots hmore, hstats⟩

end Swarm

/-!
# What the bots are in the middle of
-/

/-- In `send`. -/
def Bot.sends (b : Bot) : Bool :=
  match b.stage with
  | .sending _ => true
  | _ => false

/-- In `friendAction`, before anything is sent. -/
def Bot.decides (b : Bot) : Bool :=
  match b.stage with
  | .acting | .choosing _ | .taking _ | .taken _ _ => true
  | _ => false

/-- With a packet whose kind is not counted yet. -/
def Bot.reads (b : Bot) : Bool :=
  match b.receiver with
  | .received _ _ => true
  | _ => false

/-- Connected, as far as `run` knows. -/
def Bot.lives (b : Bot) : Bool :=
  match b.stage with
  | .dialing | .gone => false
  | _ => true

/-- Before its login. -/
def Bot.early (b : Bot) : Bool :=
  match b.stage with
  | .dialing | .connected => true
  | _ => false

/-- What a sight adds to a counter. -/
def adds (counter : Counter) : Sight -> Int :=
  raises Sight.added counter

/-- One for a friend action that comes to nothing. -/
def skips : Sight -> Int
  | .skipped => 1
  | _ => 0

/-- The kinds of friend commands. -/
def friendCounters : List Counter :=
  [.friendAdd, .friendList, .friendChat, .friendAccept, .friendReject]

/-- The accounts that are balanced by what the bots are in the middle of. -/
inductive Account where
  | sending
  | commands
  | receiving
  | alive
  | logins

/-- The counters of an account, and the actions that come to nothing. -/
def Account.measures : Account -> List ((Sight -> Int) × Int)
  | .sending =>
      [(adds .sent, 1), (adds .sendErr, 1), (adds .sentLogin, -1), (adds .sentChat, -1)] ++
        friendCounters.map fun counter => (adds counter, -1)
  | .commands =>
      [(adds .sentCmd, -1), (skips, 1)] ++
        friendCounters.map fun counter => (adds counter, 1)
  | .receiving =>
      [(adds .recv, -1), (adds .recvChat, 1), (adds .recvNick, 1), (adds .recvSystem, 1)]
  | .alive => [(adds .alive, -1)]
  | .logins => [(adds .sentLogin, 1), (adds .dialErr, 1)]

/-- What a bot owes to an account. -/
def Account.due : Account -> Bot -> Int
  | .sending, b => if b.sends then 1 else 0
  | .commands, b => if b.decides then 1 else 0
  | .receiving, b => if b.reads then 1 else 0
  | .alive, b => if b.lives then 1 else 0
  | .logins, b => if b.early then 1 else 0

theorem balanced (a : Account) : Balanced bot (weighted a.measures) a.due := by
  intro b event c out hstep
  rcases b with ⟨name, pool, pending, friends, listSeen, stage, receiver⟩
  cases Bot.step_effect hstep with
  | dialed dialing off =>
      cases dialing
      cases off
      cases a <;> rfl
  | refused dialing =>
      cases dialing
      cases a <;> first | rfl | exact zero_add _
  | speaks saying speaks drawn =>
      cases speaks <;> cases a <;> first | rfl | exact zero_add _
  | wrote saying sending =>
      cases sending
      cases a <;> first | rfl | exact zero_add _
  | failed saying sending =>
      cases sending
      cases a <;> first | rfl | exact zero_add _
  | commanded resting =>
      cases resting
      cases a <;> first | rfl | exact zero_add _
  | looked acting =>
      cases acting
      cases a <;> first | rfl | exact zero_add _
  | chose offered accepts choosing =>
      cases choosing
      cases a <;> first | rfl | exact zero_add _
  | alone offered choosing =>
      cases choosing
      cases a <;> first | rfl | exact zero_add _
  | emptied accepts taking none =>
      cases taking
      cases a <;> first | rfl | exact zero_add _
  | nameless accepts i taking drawn =>
      cases taking
      cases a <;> first | rfl | exact zero_add _
  | took accepts i name taking drawn =>
      cases taking
      cases a <;> first | rfl | exact zero_add _
  | left ends =>
      rcases ends with resting | leaving
      · cases resting
        cases a <;> first | rfl | exact zero_add _
      · cases leaving
        cases a <;> first | rfl | exact zero_add _
  | read id payload waiting fits =>
      cases waiting
      cases a <;> first | rfl | exact zero_add _
  | heard id payload counter received hears =>
      cases received
      cases hears <;> cases a <;> first | rfl | exact zero_add _
  | list payload received heading =>
      cases received
      cases a <;> first | rfl | exact zero_add _
  | applied payload applying =>
      cases applying
      cases a <;> first | rfl | exact zero_add _
  | hungUp waiting =>
      cases waiting
      cases a <;> first | rfl | exact zero_add _

theorem sum_skips (out : List Sight) : (out.map skips).sum = out.count .skipped := by
  induction out with
  | nil => rfl
  | cons sight rest ih =>
      rw [List.map_cons, List.sum_cons, ih, List.count_cons]
      cases sight with
      | skipped =>
          rw [if_pos (beq_self_eq_true _), Nat.cast_add, add_comm]
          rfl
      | _ => exact zero_add _

/-- The friend commands in the statistics. -/
def friendTotal (stats : Counter -> Int) : Int :=
  (friendCounters.map stats).sum

/--
The statistics add up.  Whatever the order of the steps of all bots, each send is
counted as sent or failed, each command under its kind or skipped, and each packet
under its kind, but for those that a bot is in the middle of; the bots that are
alive are counted, and each bot logs in once unless its dialing fails.
-/
theorem statistics_add_up {names : List (List UInt8)}
    {inputs : List (Nat × BotEvent)} {t : Swarm} {out : List Sight}
    (htrace : (Swarm.machine names.length).trace (Swarm.start names) inputs =
      some (t, out)) :
    t.stats .sent + t.stats .sendErr + t.count names.length Bot.sends =
      t.stats .sentLogin + t.stats .sentChat + friendTotal t.stats ∧
    t.stats .sentCmd =
      friendTotal t.stats + out.count .skipped + t.count names.length Bot.decides ∧
    t.stats .recv = t.stats .recvChat + t.stats .recvNick + t.stats .recvSystem +
      t.count names.length Bot.reads ∧
    t.stats .alive = t.count names.length Bot.lives ∧
    t.stats .sentLogin + t.stats .dialErr + t.count names.length Bot.early =
      names.length := by
  rcases Swarm.trace_machine htrace with ⟨hbots, hstats⟩
  have hcounter : forall counter, (out.map (adds counter)).sum = t.stats counter := by
    intro counter
    rw [hstats, foldl_raised]
    exact (zero_add _).symm
  have haccount : forall a : Account,
      (a.measures.map fun m => m.2 * (out.map m.1).sum).sum +
        (Finset.range names.length).sum (fun i => a.due (t.bots i)) =
          (Finset.range names.length).sum
            fun i => a.due ((Swarm.start names).bots i) := by
    intro a
    rw [← sum_weighted]
    exact (balanced a).trace hbots
  have hnone : forall a : Account, a.due (Bot.new [] []) = 0 ->
      ((Finset.range names.length).sum
        fun i => a.due ((Swarm.start names).bots i)) = 0 := by
    intro a hzero
    refine Finset.sum_eq_zero fun i _ => ?_
    rw [← hzero]
    cases a <;> rfl
  have hearly : ((Finset.range names.length).sum
      fun i => Account.logins.due ((Swarm.start names).bots i)) = names.length := by
    show (Finset.range names.length).sum (fun _ => (1 : Int)) = names.length
    rw [Finset.sum_const, Finset.card_range, nsmul_one]
  have hsending := haccount .sending
  have hcommands := haccount .commands
  have hreceiving := haccount .receiving
  have halive := haccount .alive
  have hlogins := haccount .logins
  rw [hnone _ rfl] at hsending hcommands hreceiving halive
  rw [hearly] at hlogins
  simp only [Account.measures, friendCounters, List.map_append, List.map_cons,
    List.map_nil, List.sum_append, List.sum_cons, List.sum_nil, hcounter, sum_skips]
    at hsending hcommands hreceiving halive hlogins
  have hfriends : friendTotal t.stats = t.stats .friendAdd + (t.stats .friendList +
      (t.stats .friendChat + (t.stats .friendAccept + (t.stats .friendReject + 0)))) := rfl
  rw [hfriends]
  unfold Swarm.count
  refine ⟨?_, ?_, ?_, ?_, ?_⟩
  · unfold Account.due at hsending
    linarith
  · unfold Account.due at hcommands
    linarith
  · unfold Account.due at hreceiving
    linarith
  · unfold Account.due at halive
    linarith
  · unfold Account.due at hlogins
    linarith

/-- Two bots: one is in the middle of its login, and the dialing of the other fails. -/
def Swarm.dials : List (Nat × BotEvent) :=
  [(1, .dial false), (0, .dial true), (0, .login)]

theorem statistics_add_up_dials :
    exists t out, (Swarm.machine [text "user001", text "user002"].length).trace
        (Swarm.start [text "user001", text "user002"]) Swarm.dials = some (t, out) ∧
      t.stats .sent + t.stats .sendErr + t.count 2 Bot.sends =
        t.stats .sentLogin + t.stats .sentChat + friendTotal t.stats := by
  have hrun : ((Swarm.machine [text "user001", text "user002"].length).trace
      (Swarm.start [text "user001", text "user002"]) Swarm.dials).isSome = true := by
    decide +kernel
  rcases Option.isSome_iff_exists.mp hrun with ⟨⟨t, out⟩, htrace⟩
  exact ⟨t, out, htrace, (statistics_add_up htrace).left⟩

end Clients
end ContentServer
