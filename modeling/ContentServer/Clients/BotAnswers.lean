import ContentServer.Clients.Bots

/-!
# The answers of the bot

A bot accepts and rejects requests that its last friend list named, and each of
them once, although a new list may come in at any time: after it has looked for
requests, after it has decided to answer, or after it has taken one.
-/

namespace ContentServer
namespace Clients

open Foundation Protocol

/-- Both loops of a bot and what can be seen of them. -/
def bot : Machine Bot BotEvent Sight :=
  Bot.step

/-- The requests that were taken. -/
def taken (out : List Sight) : List (List UInt8) :=
  out.filterMap fun
    | .took name => some name
    | _ => none

/-- The requests that were answered. -/
def answered (out : List Sight) : List (List UInt8) :=
  out.filterMap fun
    | .wrote (.accept name) => some name
    | .wrote (.reject name) => some name
    | _ => none

/-- Each request that is taken is one that the last list left open. -/
def Answers : List (List UInt8) -> List Sight -> Prop
  | _, [] => True
  | _, .listed pending :: rest => Answers pending rest
  | pending, .took name :: rest => name ∈ pending ∧ Answers (pending.erase name) rest
  | pending, .counted _ _ :: rest => Answers pending rest
  | pending, .wrote _ :: rest => Answers pending rest
  | pending, .skipped :: rest => Answers pending rest

theorem taken_append (a b : List Sight) : taken (a ++ b) = taken a ++ taken b :=
  List.filterMap_append

theorem answered_append (a b : List Sight) :
    answered (a ++ b) = answered a ++ answered b :=
  List.filterMap_append

/-!
# What is taken
-/

theorem Answers.perm {a b : List (List UInt8)} (h : a.Perm b) {out : List Sight} :
    Answers a out -> Answers b out := by
  induction out generalizing a b with
  | nil => exact fun _ => trivial
  | cons sight rest ih =>
      intro hanswers
      cases sight with
      | listed pending => exact hanswers
      | took name =>
          exact ⟨h.mem_iff.mp hanswers.left, ih (h.erase name) hanswers.right⟩
      | counted counter delta => exact ih h hanswers
      | wrote saying => exact ih h hanswers
      | skipped => exact ih h hanswers

/-- The request at the place that was drawn is taken off the list. -/
theorem erase_perm_eraseIdx {pending : List (List UInt8)} {i : Nat} {name : List UInt8}
    (h : pending[i]? = some name) : (pending.erase name).Perm (pending.eraseIdx i) := by
  rcases List.getElem?_eq_some_iff.mp h with ⟨hi, hname⟩
  have hperm := List.getElem_cons_eraseIdx_perm hi
  rw [hname] at hperm
  have hcons := List.perm_cons_erase (List.mem_of_getElem? h)
  exact List.Perm.cons_inv (hcons.symm.trans hperm.symm)

/-- What follows a step may be answered from the list that the step leaves. -/
theorem answers_cons_step {b c : Bot} {out : List Sight} (heffect : b.Effect c out)
    (hnames : forall name, name ∈ b.pending -> name ≠ []) {more : List Sight}
    (hmore : Answers c.pending more) : Answers b.pending (out ++ more) := by
  cases heffect with
  | nameless accepts i taking drawn =>
      exact absurd rfl (hnames [] (List.mem_of_getElem? drawn))
  | took accepts i name taking drawn =>
      exact ⟨List.mem_of_getElem? drawn, hmore.perm (erase_perm_eraseIdx drawn).symm⟩
  | _ => exact hmore

/-- No list names nobody. -/
theorem ne_nil_of_pending {payload name : List UInt8}
    (h : name ∈ (parseFriendList payload).1) : name ≠ [] := by
  unfold parseFriendList at h
  simp only [foldl_readFriendLine] at h
  have hreadable := readable_of_mem_filed h
  intro hnil
  subst hnil
  exact absurd hreadable.right (by decide)

theorem names_step {b c : Bot} {out : List Sight} (heffect : b.Effect c out)
    (hnames : forall name, name ∈ b.pending -> name ≠ []) :
    forall name, name ∈ c.pending -> name ≠ [] := by
  cases heffect with
  | nameless accepts i taking drawn =>
      exact fun name hmem => hnames name (List.mem_of_mem_eraseIdx hmem)
  | took accepts i drawn taking hdrawn =>
      exact fun name hmem => hnames name (List.mem_of_mem_eraseIdx hmem)
  | applied payload applying => exact fun name hmem => ne_nil_of_pending hmem
  | _ => exact hnames

theorem answers_trace {events : List BotEvent} {b t : Bot} {out : List Sight}
    (hnames : forall name, name ∈ b.pending -> name ≠ [])
    (htrace : bot.trace b events = some (t, out)) : Answers b.pending out := by
  induction events generalizing b out with
  | nil =>
      cases htrace
      exact trivial
  | cons event rest ih =>
      rcases Machine.trace_cons_some htrace with ⟨c, first, more, hstep, hrest, rfl⟩
      have heffect := Bot.step_effect hstep
      exact answers_cons_step heffect hnames (ih (names_step heffect hnames) hrest)

/-!
# What is answered
-/

/-- The request that has been taken and is not yet answered. -/
def Stage.request : Stage -> List (List UInt8)
  | .taken _ name => [name]
  | .sending (.accept name) => [name]
  | .sending (.reject name) => [name]
  | _ => []

/-- A bot that sends nothing any more. -/
def Stage.Ends (stage : Stage) : Prop :=
  stage = .leaving ∨ stage = .gone

/-- All that was taken is answered, or about to be, or the connection is lost. -/
def Settles (b : Bot) (out : List Sight) : Prop :=
  taken out = answered out ++ b.stage.request ∨
    (b.stage.Ends ∧ exists name, taken out = answered out ++ [name])

theorem not_ends {stage : Stage} (hleaving : stage ≠ .leaving) (hgone : stage ≠ .gone) :
    ¬ stage.Ends :=
  not_or.mpr ⟨hleaving, hgone⟩

/-- A request that is being answered stays the same until it is written. -/
theorem request_of_speaks {stage : Stage} {saying : Saying} (h : Bot.Speaks stage saying) :
    ¬ stage.Ends ∧ (Stage.sending saying).request = stage.request := by
  cases h with
  | accept name => exact ⟨not_ends nofun nofun, rfl⟩
  | reject name => exact ⟨not_ends nofun nofun, rfl⟩
  | _ => exact ⟨not_ends nofun nofun, rfl⟩

theorem answered_wrote (saying : Saying) :
    answered [.wrote saying, .counted .sent 1] = (Stage.sending saying).request := by
  cases saying with
  | accept name => rfl
  | reject name => rfl
  | _ => rfl

section Settles

variable {b c : Bot} {past out : List Sight}

/-- A step that neither takes a request nor answers one. -/
theorem Settles.quiet (h : Settles b past) (htaken : taken out = [])
    (hanswered : answered out = []) (hrequest : c.stage.request = b.stage.request)
    (hends : b.stage.Ends -> c.stage.Ends) : Settles c (past ++ out) := by
  unfold Settles
  rw [taken_append, answered_append, htaken, hanswered, List.append_nil, List.append_nil,
    hrequest]
  exact h.imp_right fun ⟨hend, hlost⟩ => ⟨hends hend, hlost⟩

/-- A step of the acting loop that neither takes a request nor answers one. -/
theorem Settles.moves (h : Settles b past) {stage : Stage} (hstage : b.stage = stage)
    (hleaving : stage ≠ .leaving) (hgone : stage ≠ .gone) (htaken : taken out = [])
    (hanswered : answered out = []) (hrequest : c.stage.request = stage.request) :
    Settles c (past ++ out) := by
  subst hstage
  exact h.quiet htaken hanswered hrequest
    fun hends => absurd hends (not_ends hleaving hgone)

theorem Settles.of_request (h : Settles b past) (hends : ¬ b.stage.Ends) :
    taken past = answered past ++ b.stage.request :=
  h.resolve_right fun hlost => hends hlost.left

theorem Settles.step (h : Settles b past) (heffect : b.Effect c out) :
    Settles c (past ++ out) := by
  cases heffect with
  | dialed dialing off =>
      exact h.moves dialing nofun nofun rfl rfl rfl
  | refused dialing =>
      exact h.quiet rfl rfl (by rw [dialing]; rfl) (fun _ => Or.inr rfl)
  | speaks saying speaks drawn =>
      rcases request_of_speaks speaks with ⟨hends, hrequest⟩
      exact h.quiet rfl rfl hrequest (fun hend => absurd hend hends)
  | wrote saying sending =>
      have hall := h.of_request (by rw [sending]; exact not_ends nofun nofun)
      refine Or.inl ?_
      rw [taken_append, answered_append, answered_wrote, hall, sending]
      rfl
  | failed saying sending =>
      have hall := h.of_request (by rw [sending]; exact not_ends nofun nofun)
      unfold Settles
      rw [taken_append, answered_append, hall, sending]
      cases saying with
      | accept name => exact Or.inr ⟨Or.inl rfl, name, by simp [taken, answered, Stage.request]⟩
      | reject name => exact Or.inr ⟨Or.inl rfl, name, by simp [taken, answered, Stage.request]⟩
      | _ => exact Or.inl (by simp [taken, answered, Stage.request])
  | commanded resting =>
      exact h.moves resting nofun nofun rfl rfl rfl
  | looked acting =>
      exact h.moves acting nofun nofun rfl rfl rfl
  | chose offered accepts choosing =>
      exact h.moves choosing nofun nofun rfl rfl rfl
  | alone offered choosing =>
      exact h.moves choosing nofun nofun rfl rfl rfl
  | emptied accepts taking none =>
      exact h.moves taking nofun nofun rfl rfl rfl
  | nameless accepts i taking drawn =>
      exact h.moves taking nofun nofun rfl rfl rfl
  | took accepts i name taking drawn =>
      have hall := h.of_request (by rw [taking]; exact not_ends nofun nofun)
      refine Or.inl ?_
      rw [taken_append, answered_append, hall, taking]
      simp [taken, answered, Stage.request]
  | left ends =>
      refine h.quiet rfl rfl ?_ (fun _ => Or.inr rfl)
      rcases ends with hstage | hstage <;> rw [hstage] <;> rfl
  | read id payload waiting fits => exact h.quiet rfl rfl rfl (fun hend => hend)
  | heard id payload counter received hears => exact h.quiet rfl rfl rfl (fun hend => hend)
  | list payload received heading => exact h.quiet rfl rfl rfl (fun hend => hend)
  | applied payload applying => exact h.quiet rfl rfl rfl (fun hend => hend)
  | hungUp waiting => exact h.quiet rfl rfl rfl (fun hend => hend)

theorem settles_trace {events : List BotEvent} {b t : Bot} {past out : List Sight}
    (h : Settles b past) (htrace : bot.trace b events = some (t, out)) :
    Settles t (past ++ out) := by
  induction events generalizing b past out with
  | nil =>
      cases htrace
      rw [List.append_nil]
      exact h
  | cons event rest ih =>
      rcases Machine.trace_cons_some htrace with ⟨c, first, more, hstep, hrest, rfl⟩
      rw [← List.append_assoc]
      exact ih (h.step (Bot.step_effect hstep)) hrest

end Settles

/--
A bot answers what it was asked.  In every run, each request that it takes is one
that the last friend list named and that it has not taken since; and what it
answers are these requests in their order, of which at most the last is missing.
-/
theorem answers_are_requested {name : List UInt8} {pool : List (List UInt8)}
    {events : List BotEvent} {t : Bot} {out : List Sight}
    (htrace : bot.trace (Bot.new name pool) events = some (t, out)) :
    Answers [] out ∧ answered out <+: taken out ∧
      (taken out).length ≤ (answered out).length + 1 := by
  refine ⟨answers_trace (fun name hmem => by cases hmem) htrace, ?_⟩
  have hsettles : Settles t ([] ++ out) := settles_trace (Or.inl rfl) htrace
  rw [List.nil_append] at hsettles
  have hshort : forall stage : Stage, stage.request.length ≤ 1 := by
    intro stage
    cases stage with
    | taken accepts name => exact Nat.le_refl 1
    | sending saying =>
        cases saying with
        | accept name => exact Nat.le_refl 1
        | reject name => exact Nat.le_refl 1
        | _ => exact Nat.zero_le 1
    | _ => exact Nat.zero_le 1
  rcases hsettles with htaken | ⟨_, name, htaken⟩
  · rw [htaken, List.length_append]
    exact ⟨List.prefix_append _ _, Nat.add_le_add_left (hshort _) _⟩
  · rw [htaken, List.length_append]
    exact ⟨List.prefix_append _ _, Nat.le_refl _⟩

namespace Bot

/-- The friend list that bob is sent: ann asks for his friendship. -/
def annAsks : List UInt8 :=
  text "Blocked\n----------------\nRequest\nann\n----------------\nFriends\n"

/-- Bob logs in, reads the list, looks for requests and accepts that of ann. -/
def acceptsAnn : List BotEvent :=
  [.dial true, .login, .write true, .read 0 annAsks, .control, .apply, .command, .look,
    .pick 8 [], .take 0, .answer, .write true]

end Bot

theorem answers_are_requested_ann :
    exists t out, bot.trace (Bot.new (text "bob") []) Bot.acceptsAnn = some (t, out) ∧
      answered out = [text "ann"] ∧ Answers [] out := by
  have hanswered : (bot.trace (Bot.new (text "bob") []) Bot.acceptsAnn).map
      (fun run => answered run.2) = some [text "ann"] := by
    decide +kernel
  rcases Option.map_eq_some_iff.mp hanswered with ⟨⟨t, out⟩, htrace, hann⟩
  exact ⟨t, out, htrace, hann, (answers_are_requested htrace).left⟩

end Clients
end ContentServer
