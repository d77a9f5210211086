import ContentServer.Consumers.Conduct

/-!
# What a log says

A log is proper when each of its calls was allowed at its time.  In a proper log
every promise is explained by the calls that made it.
-/

namespace ContentServer
namespace Consumers

open Foundation Protocol Sessions Registry Storage

variable {double : Type} [One double] {msg : ShardMsg} {log : Log double}

/-- Each call was allowed by the calls before it. -/
def Log.Proper (msg : ShardMsg) : Log double -> Prop
  | [] => True
  | call :: before => Log.Proper msg before ∧ (conduct msg).allowed before call.1

omit [One double] in
theorem Log.has_cons {o : Op double} {answer : Answer o}
    {call : Sigma (@Answer double)} :
    Log.Has (call :: log) o answer <->
      (⟨o, answer⟩ : Sigma (@Answer double)) = call ∨ log.Has o answer :=
  List.mem_cons

omit [One double] in
theorem Log.Has.cons {o : Op double} {answer : Answer o} (h : log.Has o answer)
    (call : Sigma (@Answer double)) : Log.Has (call :: log) o answer :=
  List.mem_cons_of_mem call h

/-- Why a call was promised. -/
def Log.Explains (log : Log double) (msg : ShardMsg) : Op double -> Prop
  | .setUserId id u => id = msg.sessionId ∧ exists name,
      log.Has (.setName id name) true ∧ log.Has (.loginOrRegister name) (some u)
  | .rankSetName u name => exists id,
      log.Has (.setName id name) true ∧ log.Has (.loginOrRegister name) (some u)
  | .getFriendIds u => exists id name,
      log.Has (.setName id name) true ∧ log.Has (.loginOrRegister name) (some u)
  | .loadFriendCache u ids => log.Has (.getFriendIds u) (some ids)
  | .sendRosterTo id => exists name, log.Has (.setName id name) true
  | .broadcast data => exists id name,
      log.Has (.setName id name) true ∧ data = (nickPacket id name).wire
  | .rankUpdate u total =>
      (exists r, log.Has (.dropItem u) (some r) ∧ r.totalPower = total) ∨
      exists itemId cost success mult r,
        log.Has (.enhanceItem u itemId cost success mult) (some r) ∧
        r.totalPower = total
  | .cacheAddFriend u v =>
      (exists name, log.Has (.acceptFriend u name) (some v)) ∨
      exists name, log.Has (.acceptFriend v name) (some u)
  | .cacheRemoveFriend u v =>
      (exists name, log.Has (.blockFriend u name) (some v)) ∨
      exists name, log.Has (.blockFriend v name) (some u)
  | _ => False

omit [One double] in
theorem Log.Explains.cons {o : Op double} (h : log.Explains msg o)
    (call : Sigma (@Answer double)) : Log.Explains (call :: log) msg o := by
  cases o with
  | setUserId id u =>
      rcases h with ⟨hid, name, hname, hlogin⟩
      exact ⟨hid, name, hname.cons call, hlogin.cons call⟩
  | rankSetName u name =>
      rcases h with ⟨id, hname, hlogin⟩
      exact ⟨id, hname.cons call, hlogin.cons call⟩
  | getFriendIds u =>
      rcases h with ⟨id, name, hname, hlogin⟩
      exact ⟨id, name, hname.cons call, hlogin.cons call⟩
  | loadFriendCache u ids => exact Log.Has.cons h call
  | sendRosterTo id =>
      rcases h with ⟨name, hname⟩
      exact ⟨name, hname.cons call⟩
  | broadcast data =>
      rcases h with ⟨id, name, hname, hdata⟩
      exact ⟨id, name, hname.cons call, hdata⟩
  | rankUpdate u total =>
      rcases h with ⟨r, hdrop, htotal⟩ | ⟨itemId, cost, success, mult, r, hdone, htotal⟩
      · exact Or.inl ⟨r, hdrop.cons call, htotal⟩
      · exact Or.inr ⟨itemId, cost, success, mult, r, hdone.cons call, htotal⟩
  | cacheAddFriend u v =>
      rcases h with ⟨name, hname⟩ | ⟨name, hname⟩
      · exact Or.inl ⟨name, hname.cons call⟩
      · exact Or.inr ⟨name, hname.cons call⟩
  | cacheRemoveFriend u v =>
      rcases h with ⟨name, hname⟩ | ⟨name, hname⟩
      · exact Or.inl ⟨name, hname.cons call⟩
      · exact Or.inr ⟨name, hname.cons call⟩
  | _ => exact h

omit [One double] in
/-- The name that `nick` finds was set. -/
theorem Log.has_nick {id : Nat} {name : List UInt8} (h : log.nick = some (id, name)) :
    log.Has (.setName id name) true := by
  rcases List.exists_of_findSome?_eq_some h with ⟨⟨o, answer⟩, hmem, hcall⟩
  cases o with
  | setName id' name' =>
      cases answer with
      | false => cases hcall
      | true =>
          cases hcall
          exact hmem
  | _ => cases hcall

/-- In a proper log every promise is explained. -/
theorem Log.Proper.explains (h : log.Proper msg) :
    forall o, o ∈ log.owed -> log.Explains msg o := by
  induction log with
  | nil =>
      intro o ho
      cases ho
  | cons call before ih =>
      rcases call with ⟨o, answer⟩
      rcases h with ⟨hbefore, hallowed⟩
      change Log double at before
      have hold : forall p, p ∈ before.owed ->
          Log.Explains (⟨o, answer⟩ :: before) msg p :=
        fun p hp => (ih hbefore p hp).cons _
      have htail : forall p, p ∈ before.owed.tail ->
          Log.Explains (⟨o, answer⟩ :: before) msg p :=
        fun p hp => hold p (List.mem_of_mem_tail hp)
      have hnow : Log.Has (⟨o, answer⟩ :: before) o answer := List.mem_cons_self
      intro p hp
      replace hp : p ∈ promises before before.owed o answer := hp
      cases o with
      | setName id name =>
          have hallows : before.Allows msg (.setName id name) := by
            rcases hallowed.left with howed | hallows
            · exact absurd (ih hbefore _ (List.mem_of_mem_head? howed)) (fun hf => hf)
            · exact hallows
          rcases hallows with ⟨hid, u, hlog⟩
          have hlogin : before.Has (.loginOrRegister name) (some u) := by
            rw [hlog]
            exact List.mem_cons_self
          have hu : before.login = some u := by
            rw [hlog]
            rfl
          cases answer with
          | false => cases hp
          | true =>
              simp only [promises, hu] at hp
              rcases List.mem_cons.mp hp with heq | hp
              · subst heq
                exact ⟨hid, name, hnow, hlogin.cons _⟩
              rcases List.mem_cons.mp hp with heq | hp
              · subst heq
                exact ⟨id, hnow, hlogin.cons _⟩
              · rw [List.mem_singleton.mp hp]
                exact ⟨id, name, hnow, hlogin.cons _⟩
      | getFriendIds u =>
          cases answer with
          | none => cases hp
          | some ids =>
              cases hnick : before.nick with
              | none =>
                  simp only [promises, hnick] at hp
                  cases hp
              | some found =>
                  rcases found with ⟨id, name⟩
                  have hname := (Log.has_nick hnick).cons ⟨.getFriendIds u, some ids⟩
                  simp only [promises, hnick] at hp
                  rcases List.mem_cons.mp hp with heq | hp
                  · subst heq
                    exact hnow
                  rcases List.mem_cons.mp hp with heq | hp
                  · subst heq
                    exact ⟨name, hname⟩
                  · rw [List.mem_singleton.mp hp]
                    exact ⟨id, name, hname, rfl⟩
      | dropItem u =>
          cases answer with
          | none => cases hp
          | some r =>
              rw [List.mem_singleton.mp hp]
              exact Or.inl ⟨r, hnow, rfl⟩
      | enhanceItem u itemId cost success mult =>
          rcases answer with _ | ⟨status, level, power, gold, total⟩
          · cases hp
          · cases status with
            | success =>
                rw [List.mem_singleton.mp hp]
                exact Or.inr ⟨itemId, cost, success, mult, _, hnow, rfl⟩
            | failed => cases hp
            | notOwned => cases hp
            | noGold => cases hp
      | acceptFriend u name =>
          rcases answer with _ | _ | v
          · cases hp
          · cases hp
          · rcases List.mem_cons.mp hp with heq | hp
            · subst heq
              exact Or.inl ⟨name, hnow⟩
            · rw [List.mem_singleton.mp hp]
              exact Or.inr ⟨name, hnow⟩
      | blockFriend u name =>
          rcases answer with _ | _ | v
          · cases hp
          · cases hp
          · rcases List.mem_cons.mp hp with heq | hp
            · subst heq
              exact Or.inl ⟨name, hnow⟩
            · rw [List.mem_singleton.mp hp]
              exact Or.inr ⟨name, hnow⟩
      | sendTo id data => exact hold p hp
      | _ => exact htail p hp

/-- A call of a kind that is never promised was allowed on its own. -/
theorem Log.Proper.allows_of_next (h : log.Proper msg) {o : Op double}
    (hallowed : (conduct msg).allowed log o)
    (hnever : forall log : Log double, ¬ log.Explains msg o) : log.Allows msg o := by
  rcases hallowed.left with howed | hallows
  · exact absurd (h.explains o (List.mem_of_mem_head? howed)) (hnever log)
  · exact hallows

/-- Every call in the log was allowed at its time. -/
theorem Log.Proper.allowed_of_has (h : log.Proper msg) {o : Op double}
    {answer : Answer o} (hhas : log.Has o answer) :
    exists after before : Log double, log = after ++ ⟨o, answer⟩ :: before ∧
      before.Proper msg ∧ (conduct msg).allowed before o := by
  induction log with
  | nil => cases hhas
  | cons call rest ih =>
      rcases Log.has_cons.mp hhas with heq | hrest
      · subst heq
        exact ⟨[], rest, rfl, h.left, h.right⟩
      · rcases ih h.left hrest with ⟨after, before, hlog, hproper, hallowed⟩
        exact ⟨call :: after, before, by rw [hlog]; rfl, hproper, hallowed⟩

/-- A call of a kind that is never promised was allowed on its own at its time. -/
theorem Log.Proper.allows_of_has (h : log.Proper msg) {o : Op double}
    {answer : Answer o} (hhas : log.Has o answer)
    (hnever : forall log : Log double, ¬ log.Explains msg o) :
    exists after before : Log double, log = after ++ ⟨o, answer⟩ :: before ∧
      before.Proper msg ∧ before.Allows msg o := by
  rcases h.allowed_of_has hhas with ⟨after, before, hlog, hproper, hallowed⟩
  exact ⟨after, before, hlog, hproper, hproper.allows_of_next hallowed hnever⟩

/-!
# Promises are kept
-/

/-- What a call can promise. -/
inductive Promised : List (Op double) -> Prop where
  | nothing : Promised []
  | login (id u : Nat) (name : List UInt8) :
      Promised [.setUserId id u, .rankSetName u name, .getFriendIds u]
  | friends (u : Nat) (ids : List Nat) (id : Nat) (data : List UInt8) :
      Promised [.loadFriendCache u ids, .sendRosterTo id, .broadcast data]
  | score (u total : Nat) : Promised [.rankUpdate u total]
  | accepted (u v : Nat) : Promised [.cacheAddFriend u v, .cacheAddFriend v u]
  | blocked (u v : Nat) : Promised [.cacheRemoveFriend u v, .cacheRemoveFriend v u]

omit [One double] in
/-- A handler keeps what one call promised, in order. -/
theorem Log.owed_suffix (log : Log double) :
    exists full, Promised full ∧ log.owed <:+ full := by
  induction log with
  | nil => exact ⟨[], .nothing, List.suffix_rfl⟩
  | cons call before ih =>
      rcases call with ⟨o, answer⟩
      change Log double at before
      have hnothing : exists full, Promised full ∧ ([] : List (Op double)) <:+ full :=
        ⟨[], .nothing, List.suffix_rfl⟩
      have htail : exists full, Promised full ∧ before.owed.tail <:+ full := by
        rcases ih with ⟨full, hfull, hsuffix⟩
        exact ⟨full, hfull, (List.tail_suffix _).trans hsuffix⟩
      show exists full, Promised full ∧ promises before before.owed o answer <:+ full
      cases o with
      | setName id name =>
          cases answer with
          | false => exact hnothing
          | true =>
              cases hlogin : before.login with
              | none =>
                  simp only [promises, hlogin]
                  exact hnothing
              | some u =>
                  simp only [promises, hlogin]
                  exact ⟨_, .login id u name, List.suffix_rfl⟩
      | getFriendIds u =>
          cases answer with
          | none => exact hnothing
          | some ids =>
              cases hnick : before.nick with
              | none =>
                  simp only [promises, hnick]
                  exact hnothing
              | some found =>
                  simp only [promises, hnick]
                  exact ⟨_, .friends u ids found.1 _, List.suffix_rfl⟩
      | dropItem u =>
          cases answer with
          | none => exact hnothing
          | some r => exact ⟨_, .score u r.totalPower, List.suffix_rfl⟩
      | enhanceItem u itemId cost success mult =>
          rcases answer with _ | ⟨status, level, power, gold, total⟩
          · exact hnothing
          · cases status with
            | success => exact ⟨_, .score u total, List.suffix_rfl⟩
            | failed => exact hnothing
            | notOwned => exact hnothing
            | noGold => exact hnothing
      | acceptFriend u name =>
          rcases answer with _ | _ | v
          · exact hnothing
          · exact hnothing
          · exact ⟨_, .accepted u (v + 1), List.suffix_rfl⟩
      | blockFriend u name =>
          rcases answer with _ | _ | v
          · exact hnothing
          · exact hnothing
          · exact ⟨_, .blocked u (v + 1), List.suffix_rfl⟩
      | sendTo id data => exact ih
      | _ => exact htail

omit [One double] in
theorem suffix_cases {α : Type} {l : List α} {a b c : α} (h : l <:+ [a, b, c]) :
    l = [a, b, c] ∨ l = [b, c] ∨ l = [c] ∨ l = [] := by
  simpa [List.suffix_cons_iff] using h

omit [One double] in
/-- The friends of a user are read at the end of a login. -/
theorem Log.owed_of_getFriendIds (log : Log double) {u : Nat}
    (h : .getFriendIds u ∈ log.owed) :
    exists id name, log.owed = [.setUserId id u, .rankSetName u name, .getFriendIds u] ∨
      log.owed = [.rankSetName u name, .getFriendIds u] ∨ log.owed = [.getFriendIds u] := by
  rcases log.owed_suffix with ⟨full, hfull, hsuffix⟩
  have hmem := hsuffix.subset h
  cases hfull with
  | login id v name =>
      have hv : u = v := by simpa using hmem
      subst hv
      rcases suffix_cases hsuffix with heq | heq | heq | heq
      · exact ⟨id, name, Or.inl heq⟩
      · exact ⟨id, name, Or.inr (Or.inl heq)⟩
      · exact ⟨id, name, Or.inr (Or.inr heq)⟩
      · rw [heq] at h
        cases h
  | nothing => cases hmem
  | friends v ids id data => simp at hmem
  | score v total => simp at hmem
  | accepted v w => simp at hmem
  | blocked v w => simp at hmem

omit [One double] in
/-- Messages to other shards are never promised. -/
theorem Log.post_not_owed (log : Log double) {id : Nat} {m : ShardMsg} :
    .post id m ∉ log.owed := by
  intro h
  rcases log.owed_suffix with ⟨full, hfull, hsuffix⟩
  have hmem := hsuffix.subset h
  cases hfull <;> simp at hmem

omit [One double] in
/-- A session that is to get a user id is part of a login. -/
theorem Log.owed_of_setUserId (log : Log double) {id u : Nat}
    (h : .setUserId id u ∈ log.owed) :
    exists name, log.owed = [.setUserId id u, .rankSetName u name, .getFriendIds u] := by
  rcases log.owed_suffix with ⟨full, hfull, hsuffix⟩
  have hmem := hsuffix.subset h
  cases hfull with
  | login other v name =>
      have hsame : id = other ∧ u = v := by simpa using hmem
      rcases hsame with ⟨hid, hu⟩
      subst hid hu
      rcases suffix_cases hsuffix with heq | heq | heq | heq
      · exact ⟨name, heq⟩
      · rw [heq] at h
        simp at h
      · rw [heq] at h
        simp at h
      · rw [heq] at h
        cases h
  | nothing => cases hmem
  | friends v ids other data => simp at hmem
  | score v total => simp at hmem
  | accepted v w => simp at hmem
  | blocked v w => simp at hmem

/-- A call is the next promise, a message, or one that nothing is owed before. -/
theorem Log.Proper.turn_cases (h : log.Proper msg) {o : Op double}
    (hallowed : (conduct msg).allowed log o) :
    (exists rest, log.owed = o :: rest ∧ log.Explains msg o) ∨
    (exists id data, o = .sendTo id data) ∨ (log.owed = [] ∧ log.Allows msg o) := by
  have hpromised : forall rest, log.owed = o :: rest ->
      exists rest, log.owed = o :: rest ∧ log.Explains msg o := by
    intro rest howed
    refine ⟨rest, howed, h.explains o ?_⟩
    rw [howed]
    exact List.mem_cons_self
  rcases hallowed with ⟨hhead | hallows, hturn⟩
  · rcases List.head?_eq_some_iff.mp hhead with ⟨rest, howed⟩
    exact Or.inl (hpromised rest howed)
  · unfold Log.InTurn at hturn
    cases howed : log.owed with
    | nil => exact Or.inr (Or.inr ⟨rfl, hallows⟩)
    | cons next rest =>
        rw [howed] at hturn
        rcases hturn with heq | hsend
        · subst heq
          rw [← howed]
          exact Or.inl (hpromised rest howed)
        · exact Or.inr (Or.inl hsend)

/-- A promised call is made, or it stays promised. -/
theorem Log.Proper.keeps {call : Sigma (@Answer double)}
    (h : Log.Proper msg (call :: log)) {o : Op double} (ho : o ∈ log.owed) :
    o = call.1 ∨ o ∈ Log.owed (call :: log) := by
  rcases call with ⟨called, answer⟩
  rcases h with ⟨hbefore, _, hturn⟩
  unfold Log.InTurn at hturn
  cases howed : log.owed with
  | nil =>
      rw [howed] at ho
      cases ho
  | cons next rest =>
      rw [howed] at ho hturn
      have hexplains := hbefore.explains next (by rw [howed]; exact List.mem_cons_self)
      rcases hturn with heq | ⟨id, data, heq⟩
      · subst heq
        rcases List.mem_cons.mp ho with hsame | hrest
        · exact Or.inl hsame
        · right
          show o ∈ promises log log.owed called answer
          rw [howed]
          cases called with
          | getFriendIds u =>
              -- A promise that leads to new promises is the last of its own.
              have hmem : .getFriendIds u ∈ log.owed := by
                rw [howed]
                exact List.mem_cons_self
              rcases log.owed_of_getFriendIds hmem with ⟨id, name, heq | heq | heq⟩
              · cases howed.symm.trans heq
              · cases howed.symm.trans heq
              · cases howed.symm.trans heq
                cases hrest
          | setName id name => exact absurd hexplains (fun hf => hf)
          | dropItem u => exact absurd hexplains (fun hf => hf)
          | enhanceItem u itemId cost success mult =>
              exact absurd hexplains (fun hf => hf)
          | acceptFriend u name => exact absurd hexplains (fun hf => hf)
          | blockFriend u name => exact absurd hexplains (fun hf => hf)
          | sendTo id data => exact absurd hexplains (fun hf => hf)
          | _ => exact hrest
      · subst heq
        right
        show o ∈ promises log log.owed (.sendTo id data) answer
        rw [howed]
        exact ho

/-- Later on a promised call has been made, or it is still promised. -/
theorem Log.Proper.kept {after before : Log double}
    (h : Log.Proper msg (after ++ before)) {o : Op double} (ho : o ∈ before.owed) :
    o ∈ Log.owed (after ++ before) ∨
      exists answer, Log.Has (after ++ before) o answer := by
  induction after with
  | nil => exact Or.inl ho
  | cons call after ih =>
      change Log double at after
      rcases ih h.left with howed | ⟨answer, hhas⟩
      · have hproper : Log.Proper msg (call :: (after ++ before)) := h
        rcases hproper.keeps howed with hcall | hstays
        · rcases call with ⟨called, answer⟩
          replace hcall : o = called := hcall
          subst hcall
          exact Or.inr ⟨answer, List.mem_cons_self⟩
        · exact Or.inl hstays
      · exact Or.inr ⟨answer, hhas.cons call⟩

/-- A handler names its session at most once. -/
theorem Log.Proper.setName_unique (h : log.Proper msg) {id id' : Nat}
    {name name' : List UInt8} (hname : log.Has (.setName id name) true)
    (hname' : log.Has (.setName id' name') true) : id = id' ∧ name = name' := by
  rcases h.allows_of_has hname (fun _ hf => hf) with
    ⟨after, before, hlog, _, _, u, hbefore⟩
  rcases h.allows_of_has hname' (fun _ hf => hf) with
    ⟨after', before', hlog', _, _, u', hbefore'⟩
  rw [hlog] at hlog'
  have hlength : (⟨.setName id name, true⟩ :: before : Log double).length =
      (⟨.setName id' name', true⟩ :: before' : Log double).length := by
    rw [hbefore, hbefore']
    rfl
  have hsame := (List.append_inj' hlog' hlength).right
  injection hsame with hcall _
  cases hcall
  exact ⟨rfl, rfl⟩

/-- A handler asks for the name of its session at most once, and first. -/
theorem Log.Proper.isNamed_unique (h : log.Proper msg) {id id' : Nat}
    {named named' : Bool} (hnamed : log.Has (.isNamed id) named)
    (hnamed' : log.Has (.isNamed id') named') : named = named' := by
  rcases h.allows_of_has hnamed (fun _ hf => hf) with ⟨after, before, hlog, _, _, hfirst⟩
  rcases h.allows_of_has hnamed' (fun _ hf => hf) with
    ⟨after', before', hlog', _, _, hfirst'⟩
  rw [hlog] at hlog'
  have hlength : (⟨.isNamed id, named⟩ :: before : Log double).length =
      (⟨.isNamed id', named'⟩ :: before' : Log double).length := by
    rw [hfirst, hfirst']
    rfl
  have hsame := (List.append_inj' hlog' hlength).right
  injection hsame with hcall _
  cases hcall
  rfl

/-- A handler that names its session does not act for a user. -/
theorem Log.Proper.not_actsFor (h : log.Proper msg) {id u : Nat} {name : List UInt8}
    (hname : log.Has (.setName id name) true) : ¬ log.ActsFor msg u := by
  intro hacts
  rcases h.allows_of_has hname (fun _ hf => hf) with ⟨after, before, hlog, _, _, v, hbefore⟩
  rcases h.allows_of_has hacts (fun _ hf => hf) with ⟨after', before', hlog', _, _, hsaw⟩
  have hno : log.Has (.isNamed id) false := by
    rw [hlog, hbefore]
    exact List.mem_append_right _ (by simp)
  have hyes : log.Has (.isNamed msg.sessionId) true := by
    rw [hlog']
    exact List.mem_append_right _ (Log.Has.cons hsaw _)
  cases h.isNamed_unique hno hyes

theorem Log.Proper.suffix {after before : Log double}
    (h : Log.Proper msg (after ++ before)) : before.Proper msg := by
  induction after with
  | nil => exact h
  | cons call after ih => exact ih h.left

omit [One double] in
theorem Log.nick_isSome {id : Nat} {name : List UInt8}
    (h : log.Has (.setName id name) true) : exists found, log.nick = some found := by
  cases hnick : log.nick with
  | some found => exact ⟨found, rfl⟩
  | none => exact absurd (List.findSome?_eq_none_iff.mp hnick _ h) (by simp [nameGiven])

/-- A login that gave the name and read the friends of its user sent the roster to
the session and announced the name. -/
theorem Log.Proper.announces (h : log.Proper msg) (hend : log.owed = []) {id u : Nat}
    {name : List UInt8} {ids : List Nat} (hname : log.Has (.setName id name) true)
    (hfriends : log.Has (.getFriendIds u) (some ids)) :
    log.Has (.sendRosterTo id) () ∧
      log.Has (.broadcast (nickPacket id name).wire) () := by
  rcases List.append_of_mem hfriends with ⟨after, before, hlog⟩
  change Log double at after before
  subst hlog
  have hproper : Log.Proper msg (⟨.getFriendIds u, some ids⟩ :: before) := h.suffix
  have hearlier : forall (o : Op double) (answer : Answer o), before.Has o answer ->
      Log.Has (after ++ ⟨.getFriendIds u, some ids⟩ :: before) o answer :=
    fun o answer hhas => List.mem_append_right _ (hhas.cons _)
  have hnick : before.nick = some (id, name) := by
    rcases hproper.right.left with howed | hallows
    · rcases hproper.left.explains _ (List.mem_of_mem_head? howed) with
        ⟨id', name', hname', _⟩
      rcases Log.nick_isSome hname' with ⟨⟨i, n⟩, hfound⟩
      rcases h.setName_unique hname (hearlier _ _ (Log.has_nick hfound)) with ⟨hi, hn⟩
      rw [hfound, hi, hn]
    · exact absurd hallows (fun hf => hf)
  have hpromised : Log.owed (⟨.getFriendIds u, some ids⟩ :: before) =
      [.loadFriendCache u ids, .sendRosterTo id, .broadcast (nickPacket id name).wire] := by
    show promises before before.owed (.getFriendIds u) (some ids) = _
    simp only [promises, hnick]
  have hmade : forall o, o ∈ Log.owed (⟨.getFriendIds u, some ids⟩ :: before) ->
      exists answer, Log.Has (after ++ ⟨.getFriendIds u, some ids⟩ :: before) o answer := by
    intro o ho
    rcases Log.Proper.kept h ho with howed | hhas
    · rw [hend] at howed
      cases howed
    · exact hhas
  rw [hpromised] at hmade
  rcases hmade (.sendRosterTo id) (by simp) with ⟨_, hroster⟩
  rcases hmade (.broadcast (nickPacket id name).wire) (by simp) with ⟨_, hbroadcast⟩
  exact ⟨hroster, hbroadcast⟩

end Consumers
end ContentServer
