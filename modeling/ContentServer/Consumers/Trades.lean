import ContentServer.Consumers.Origins

/-!
# Trade requests

A trade request reaches the shard of the session that it is addressed to, which
is session zero when nobody has the name.  Whoever handles it asks once whether
that session has a name, and nothing comes of it.
-/

namespace ContentServer
namespace Consumers

open Foundation Protocol Sessions Registry Storage

variable {double : Type} [One double] {pg : Postgres double} {s t : Service pg}

/-- The message was posted by the handler of a `/t` in the name of its session. -/
def IsTradeRequest (s : Service pg) (msg : ShardMsg) : Prop :=
  exists fromSid, 0 < fromSid ∧ fromSid < s.stores.manager.nextId ∧
    msg = { tradeRequest fromSid with sessionId := msg.sessionId }

omit [One double] in
theorem Origin.isTradeRequest {past : List (Service.Label double)} {msg : ShardMsg}
    (h : Origin past s.stores.manager.nextId msg) (hinternal : msg.type ≠ .client) :
    IsTradeRequest s msg := by
  cases h with
  | client id pkt received positive issued low high => exact absurd rfl hinternal
  | trade fromSid target positive issued => exact ⟨fromSid, positive, issued, rfl⟩

omit [One double] in
/-- The handler of a trade request calls nothing but `IsNamed`. -/
theorem Service.Adheres.internal_call (h : s.Adheres utterance) {shard : Nat}
    {msg : ShardMsg} {log : Log double} {o : Op double}
    {next : Answer o -> Handler double Unit}
    (hworks : s.consumers shard = some ⟨msg, log, .call o next⟩)
    (hinternal : msg.type ≠ .client) : exists id, o = .isNamed id := by
  have hallowed : (utterance msg).allowed () o := (h shard _ hworks).left
  cases o with
  | isNamed id => exact ⟨id, rfl⟩
  | sendTo id data => exact absurd hallowed.left hinternal
  | sendToFriends u data => exact absurd hallowed.left hinternal
  | broadcast data => exact absurd hallowed.left hinternal
  | post id m => exact absurd hallowed.left hinternal
  | _ => exact absurd hallowed hinternal

/-- A handler asks for the name of its session first of all, so not twice. -/
theorem Conducts.not_isNamed {msg : ShardMsg} {log : Log double} {id : Nat}
    {next : Bool -> Handler double Unit} (hlog : log ≠ []) (howed : log.owed = []) :
    ¬ Conducts msg log (.call (.isNamed id) next) := by
  intro h
  rcases h.left.left with hhead | hallows
  · rw [howed] at hhead
    cases hhead
  · exact hlog hallows.right

/-- The one call of the handler of a trade request changes nothing and ends it. -/
theorem internal_step (hs : Standing s) (hmannered : s.Adheres utterance) {shard : Nat}
    {w : Working double} (hworks : s.consumers shard = some w)
    (hinternal : w.msg.type ≠ .client) {env : Environment double}
    (hstep : s.step (.act shard env) = some t) :
    t.stores = s.stores ∧ t.consumers shard = none := by
  have hafter := adheres_preserved mannered_handle s _ t hmannered hstep
  have hstanding := standing_step s _ t hs hstep
  cases Service.step_effect hstep with
  | acted _ _ msg log o next works =>
      rw [hworks] at works
      cases works
      rcases hmannered.internal_call hworks hinternal with ⟨id, rfl⟩
      refine ⟨by rw [Service.goOn_stores]; rfl, ?_⟩
      generalize hrest : next (s.stores.perform shard msg env (.isNamed id)).1 = rest
        at hafter hstanding ⊢
      cases rest with
      | done a => exact Function.update_self ..
      | call o' next' =>
          exfalso
          have hself : (Service.goOn
              { s with stores := (s.stores.perform shard msg env (.isNamed id)).2 }
              shard msg (⟨.isNamed id, (s.stores.perform shard msg env (.isNamed id)).1⟩
                :: log) (.call o' next')).consumers shard =
              some ⟨msg, _, .call o' next'⟩ := Function.update_self ..
          rcases hafter.internal_call hself hinternal with ⟨id', rfl⟩
          have hfirst : log.owed = [] := by
            rcases (hs.conducts shard _ hworks).left.left with hhead | hallows
            · have hproper : log.Proper msg := hs.proper shard _ hworks
              exact absurd (hproper.explains _ (List.mem_of_mem_head? hhead))
                (fun hf => hf)
            · have hnil : log = [] := hallows.right
              rw [hnil]
              rfl
          refine Conducts.not_isNamed (List.cons_ne_nil _ _) ?_
            (hstanding.conducts shard _ hself)
          show (log.owed).tail = []
          rw [hfirst]
          rfl

/--
Trade requests are inert.  In every state of every run, what is not a client
message is a trade request in the name of a session that was given out; it lies
in the queue of, or is handled by, the shard of the session it is addressed to;
and the handler's one step leaves all stores as they are.
-/
theorem trade_requests_are_inert {shards : Nat} {db : Db pg}
    {friendships : Friendships} {ranking : Ranking}
    {labels : List (Service.Label double)} (husers : Numbered db.users)
    (hrun : runFrom Service.step
      (Service.start (Stores.boot shards db friendships ranking)) labels = some t) :
    (forall k msg, msg ∈ t.waiting k -> msg.type ≠ .client ->
      IsTradeRequest t msg ∧ k = msg.sessionId % t.stores.manager.shardCount) ∧
    (forall k w, t.consumers k = some w -> w.msg.type ≠ .client ->
      IsTradeRequest t w.msg ∧ k = w.msg.sessionId % t.stores.manager.shardCount ∧
        forall env u, t.step (.act k env) = some u ->
          u.stores = t.stores ∧ u.consumers k = none) := by
  have h := spoken_run husers hrun
  have hs := h.attested.toStanding
  constructor
  · intro k msg hmsg hinternal
    exact ⟨(h.sourced.queued k msg hmsg).isTradeRequest hinternal, hs.queued k msg hmsg⟩
  · intro k w hw hinternal
    refine ⟨(h.sourced.handled k w hw).isTradeRequest hinternal, hs.routed k w hw, ?_⟩
    intro env u hstep
    exact internal_step hs h.mannered hw hinternal hstep

/-- Ann asks bob for a trade, and the consumer of his shard takes the request. -/
def Service.asksForTrade : List (Service.Label Nat) :=
  List.flatten [Service.twoLogins, Service.say 1 "/t bob", Service.acts 1 3, [.pop 2]]

theorem trade_requests_are_inert_bob :
    exists t w, runFrom Service.step Service.fresh Service.asksForTrade = some t ∧
      t.consumers 2 = some w ∧ IsTradeRequest t w.msg ∧
      forall env u, t.step (.act 2 env) = some u ->
        u.stores = t.stores ∧ u.consumers 2 = none := by
  have htaken : (runFrom Service.step Service.fresh Service.asksForTrade).bind
      (fun t => (t.consumers 2).map (fun w => w.msg.type)) = some .tradeRequest := by
    decide +kernel
  rcases Option.bind_eq_some_iff.mp htaken with ⟨t, hrun, hw⟩
  rcases Option.map_eq_some_iff.mp hw with ⟨w, hworks, htype⟩
  have hinert := (trade_requests_are_inert numbered_empty hrun).right 2 w hworks
    (by rw [htype]; decide)
  exact ⟨t, w, hrun, hworks, hinert.left, hinert.right.right⟩

end Consumers
end ContentServer
