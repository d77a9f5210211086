import ContentServer.Clients.BotAnswers
import ContentServer.Consumers.Utterances

/-!
# What the server makes of a bot

The bot puts its messages together from words, names and the commands of the
server; the server takes them apart again.  No message is too long for a packet,
no chat is read as a command, and no friend chat as another friend command.  Of a
name the server reads the first word, which is all of it in a name without blanks.
-/

namespace ContentServer
namespace Clients

open Consumers Foundation Protocol

/-!
# Words
-/

/-- A text without blanks. -/
def Blankless (word : List UInt8) : Prop :=
  forall c, c ∈ word -> isSpace c = false

instance (word : List UInt8) : Decidable (Blankless word) :=
  inferInstanceAs (Decidable (forall c, c ∈ word -> isSpace c = false))

/-- A word that the input streams of the server read as one. -/
def Wordy (word : List UInt8) : Prop :=
  word ≠ [] ∧ Blankless word

instance (word : List UInt8) : Decidable (Wordy word) :=
  inferInstanceAs (Decidable (_ ∧ _))

/-- A word is read up to the blank behind it. -/
theorem readWord_wordy {word : List UInt8} (h : Wordy word) (rest : List UInt8)
    (hrest : rest = [] ∨ exists others, rest = 32 :: others) :
    readWord (word ++ rest) = (word, rest) := by
  have hskip : skipSpace (word ++ rest) = word ++ rest := by
    cases word with
    | nil => exact absurd rfl h.left
    | cons c others =>
        have hc := h.right c List.mem_cons_self
        show List.dropWhile isSpace (c :: (others ++ rest)) = _
        rw [List.dropWhile_cons_of_neg (by rw [hc]; exact Bool.false_ne_true)]
        rfl
  have hall : forall c, c ∈ word -> (!isSpace c) = true := by
    intro c hc
    rw [h.right c hc]
    rfl
  unfold readWord
  rw [hskip, List.span_eq_takeWhile_dropWhile, List.takeWhile_append_of_pos hall,
    List.dropWhile_append_of_pos hall]
  rcases hrest with rfl | ⟨others, rfl⟩
  · simp
  · have hblank : (!isSpace 32) = false := by decide
    rw [List.takeWhile_cons_of_neg (by rw [hblank]; exact Bool.false_ne_true),
      List.dropWhile_cons_of_neg (by rw [hblank]; exact Bool.false_ne_true),
      List.append_nil]

/-- A text without blanks is read whole. -/
theorem readWord_blankless {word : List UInt8} (h : Blankless word) :
    (readWord word).1 = word := by
  by_cases hnil : word = []
  · rw [hnil]
    rfl
  · have hread := readWord_wordy ⟨hnil, h⟩ [] (Or.inl rfl)
    rw [List.append_nil] at hread
    rw [hread]

/-- What was read as a word has no blanks. -/
theorem blankless_readWord (b : List UInt8) : Blankless (readWord b).1 := by
  intro c hc
  unfold readWord at hc
  rw [List.span_eq_takeWhile_dropWhile] at hc
  have hfirst := List.mem_takeWhile_imp hc
  simpa using hfirst

/-- A line without line feeds is read whole. -/
theorem readLine_of_not_mem {b : List UInt8} (h : 10 ∉ b) : readLine b = b := by
  unfold readLine
  refine List.takeWhile_eq_self_iff.mpr fun c hc => ?_
  exact decide_eq_true fun hten => h (hten ▸ hc)

/-!
# Chats
-/

/-- The words of a chat. -/
def Chatty (words : List String) : Prop :=
  words ≠ [] ∧ words.length ≤ maxChatWords ∧ forall word, word ∈ words -> word ∈ chatWords

theorem chatty_of_drawn {draws : List Nat} {words : List String}
    (h : drawnWords draws = some words) : Chatty words := by
  unfold drawnWords at h
  split at h
  · rename_i hbounds
    cases h
    rcases hbounds with ⟨hlow, hhigh, hrange⟩
    refine ⟨?_, by rw [List.length_map]; exact hhigh, ?_⟩
    · intro hnil
      rw [List.map_eq_nil_iff.mp hnil] at hlow
      exact absurd hlow (by decide)
    · intro word hword
      rcases List.mem_map.mp hword with ⟨k, hk, rfl⟩
      rw [List.getD_eq_getElem _ _ (hrange k hk)]
      exact List.getElem_mem _
  · cases h

/-- The words after `/f` that are commands. -/
def friendCommands : List String :=
  ["add", "accept", "reject", "block", "list"]

/-- A short word of small letters that is no friend command. -/
def Plainword (codes : List Nat) : Bool :=
  codes ≠ [] && codes.length ≤ 9 && codes.all (fun n => 97 ≤ n && n ≤ 122) &&
    friendCommands.all fun command => codes ≠ (text command).map UInt8.toNat

theorem plainword_chatWords : forall word, word ∈ chatWords ->
    Plainword ((text word).map UInt8.toNat) = true := by
  have hall : (chatWords.all fun word => Plainword ((text word).map UInt8.toNat)) = true := by
    decide +kernel
  exact List.all_eq_true.mp hall

/-- Only the first characters of the code are spaces. -/
theorem isSpace_of_lt {c : UInt8} (h : 32 < c.toNat) : isSpace c = false := by
  have hne : c ≠ 32 := by
    intro hc
    subst hc
    exact absurd h (by decide)
  unfold isSpace
  rw [beq_eq_false_iff_ne.mpr hne]
  have hhigh : ¬ c.toNat ≤ 13 := by omega
  simp [hhigh]

/-- What the server needs to know about a word. -/
structure Heard (word : List UInt8) : Prop where
  wordy : Wordy word
  short : word.length ≤ 9
  noCommand : word.head? ≠ some 47
  noFriendCommand : forall command, command ∈ friendCommands -> word ≠ text command

theorem heard_chatWords {word : String} (h : word ∈ chatWords) : Heard (text word) := by
  have hplain := plainword_chatWords word h
  simp only [Plainword, Bool.and_eq_true, decide_eq_true_eq, ne_eq, List.map_eq_nil_iff,
    List.length_map, List.all_eq_true, List.mem_map, forall_exists_index, and_imp,
    forall_apply_eq_imp_iff₂] at hplain
  rcases hplain with ⟨⟨⟨hne, hshort⟩, hletters⟩, hcommands⟩
  have hspace : forall c, c ∈ text word -> isSpace c = false := by
    intro c hc
    have hletter := (hletters c hc).left
    exact isSpace_of_lt (by omega)
  refine ⟨⟨hne, hspace⟩, hshort, ?_, ?_⟩
  · intro hhead
    have hslash := hletters 47 (List.mem_of_mem_head? (Option.mem_def.mpr hhead))
    exact absurd hslash.left (by decide)
  · intro command hcommand hsame
    exact hcommands command hcommand (by rw [hsame])

theorem joined_cons (word : String) (rest : List String) :
    joined (word :: rest) = text word ++ if rest = [] then [] else 32 :: joined rest := by
  unfold joined
  cases rest with
  | nil => simp
  | cons other more =>
      rw [List.map_cons, List.map_cons, List.intercalate_cons_cons, if_neg nofun,
        List.append_assoc]
      rfl

theorem length_joined_le {words : List String}
    (h : forall word, word ∈ words -> word ∈ chatWords) :
    (joined words).length ≤ 10 * words.length := by
  induction words with
  | nil => exact Nat.le_refl 0
  | cons word rest ih =>
      have hword := (heard_chatWords (h word List.mem_cons_self)).short
      have hrest := ih fun other hother => h other (List.mem_cons_of_mem word hother)
      rw [joined_cons, List.length_append, List.length_cons]
      split
      · rw [List.length_nil]
        omega
      · rw [List.length_cons]
        omega

theorem not_mem_joined {words : List String}
    (h : forall word, word ∈ words -> word ∈ chatWords) : 10 ∉ joined words := by
  induction words with
  | nil => exact List.not_mem_nil
  | cons word rest ih =>
      have hword := (heard_chatWords (h word List.mem_cons_self)).wordy
      have hrest := ih fun other hother => h other (List.mem_cons_of_mem word hother)
      rw [joined_cons]
      intro hmem
      rcases List.mem_append.mp hmem with hfirst | hlater
      · exact absurd (hword.right 10 hfirst) (by decide)
      · split at hlater
        · cases hlater
        · rcases List.mem_cons.mp hlater with hblank | hmore
          · exact absurd hblank (by decide)
          · exact hrest hmore

/-- The first word of a chat is read off it. -/
theorem readWord_joined {words : List String} (h : Chatty words) :
    exists word rest, word ∈ chatWords ∧ readWord (joined words) = (text word, rest) ∧
      text word ++ rest = joined words := by
  cases words with
  | nil => exact absurd rfl h.left
  | cons word others =>
      have hword := h.right.right word List.mem_cons_self
      refine ⟨word, if others = [] then [] else 32 :: joined others, hword, ?_,
        (joined_cons word others).symm⟩
      rw [joined_cons, readWord_wordy (heard_chatWords hword).wordy]
      split
      · exact Or.inl rfl
      · exact Or.inr ⟨_, rfl⟩

/-!
# What is meant
-/

variable {double : Type}

/-- What `Handle` does for the owner of a name. -/
def named (sessionId : Nat) (x : Handler double Unit) : Handler double Unit := do
  unless ← call (.isNamed sessionId) do
    return ← sendError sessionId (text "name plz.")
  x

/-- What `Handle` does with a line that is no command. -/
def chats (msg : ShardMsg) : Handler double Unit := do
  call (.broadcast msg.pkt.wire)
  rewardChat msg.sessionId

/-- What a saying of the bot of this name is to do.  Of a request, which comes from
a list that was sent to the bot, only the first word counts. -/
def Saying.meant (name : List UInt8) (msg : ShardMsg) : Saying -> Handler double Unit
  | .login => handleNick msg.sessionId name
  | .chat _ => named msg.sessionId (chats msg)
  | .add target => named msg.sessionId (handleFriendAdd msg.sessionId target)
  | .list => named msg.sessionId (handleFriendList msg.sessionId [])
  | .friendChat words =>
      named msg.sessionId (handleFriendBroadcast msg.sessionId (joined words))
  | .accept request =>
      named msg.sessionId (handleFriendAccept msg.sessionId (readWord request).1)
  | .reject request =>
      named msg.sessionId (handleFriendReject msg.sessionId (readWord request).1)

/-- The name that a saying hands to its handler. -/
def Saying.handed (name : List UInt8) : Saying -> Option (List UInt8)
  | .login => some name
  | .add target => some target
  | .accept request | .reject request => some (readWord request).1
  | .list | .chat _ | .friendChat _ => none

/-- What the bot may say. -/
def Saying.Legal : Saying -> Prop
  | .chat words => Chatty words
  | .friendChat words => Chatty words
  | .add target => Blankless target
  | _ => True

/-- A name that the server reads as one word and does not find too long. -/
def ShortName (name : List UInt8) : Prop :=
  name.length < 10 ∧ Blankless name

instance (name : List UInt8) : Decidable (ShortName name) :=
  inferInstanceAs (Decidable (_ ∧ _))

section Meaning

variable [One double] {msg : ShardMsg} {name : List UInt8}

/-- A friend command goes to the handler of friend commands. -/
theorem handle_friend (hclient : msg.type = .client) (rest : List UInt8)
    (hbody : msg.pkt.body = text "/f " ++ rest) :
    (handle msg : Handler double Unit) =
      named msg.sessionId (handleFriend msg.sessionId rest) := by
  have hwordy : Wordy (text "/f") := by decide +kernel
  have hread : readWord (text "/f " ++ rest) = (text "/f", 32 :: rest) :=
    readWord_wordy hwordy (32 :: rest) (Or.inr ⟨rest, rfl⟩)
  have hhead : (text "/f " ++ rest).head? = some 47 := rfl
  have hnick : text "/f" ≠ text "/n" := by decide
  have hwhisper : text "/f" ≠ text "/w" := by decide
  unfold handle
  rw [hbody]
  simp only [hclient, hhead, hread, hnick, hwhisper, ne_eq, not_true_eq_false, if_false,
    if_true]
  rfl

theorem handle_nick (hclient : msg.type = .client)
    (hbody : msg.pkt.body = text "/n " ++ name) :
    (handle msg : Handler double Unit) = handleNick msg.sessionId name := by
  have hwordy : Wordy (text "/n") := by decide +kernel
  have hread : readWord (text "/n " ++ name) = (text "/n", 32 :: name) :=
    readWord_wordy hwordy (32 :: name) (Or.inr ⟨name, rfl⟩)
  have hhead : (text "/n " ++ name).head? = some 47 := rfl
  unfold handle
  rw [hbody]
  simp only [hclient, hhead, hread, ne_eq, not_true_eq_false, if_false, if_true]
  rfl

theorem handle_chat (hclient : msg.type = .client)
    (hhead : msg.pkt.body.head? ≠ some 47) :
    (handle msg : Handler double Unit) = named msg.sessionId (chats msg) := by
  unfold handle
  simp only [hclient, hhead, ne_eq, not_true_eq_false, not_false_eq_true, if_false, if_true]
  rfl

omit [One double] in
/-- A friend command with its first word. -/
theorem handleFriend_wordy (sessionId : Nat) {command : List UInt8}
    (hwordy : Wordy command) :
    forall rest, (handleFriend sessionId (command ++ 32 :: rest) : Handler double Unit) =
      if command = text "add" then handleFriendAdd sessionId rest
      else if command = text "accept" then handleFriendAccept sessionId rest
      else if command = text "reject" then handleFriendReject sessionId rest
      else if command = text "block" then handleFriendBlock sessionId rest
      else if command = text "list" then handleFriendList sessionId rest
      else handleFriendBroadcast sessionId (command ++ readLine (32 :: rest)) := by
  intro rest
  unfold handleFriend
  rw [readWord_wordy hwordy (32 :: rest) (Or.inr ⟨rest, rfl⟩)]
  rfl

omit [One double] in
theorem handleFriend_joined (sessionId : Nat) {words : List String} (h : Chatty words) :
    (handleFriend sessionId (joined words) : Handler double Unit) =
      handleFriendBroadcast sessionId (joined words) := by
  rcases readWord_joined h with ⟨word, rest, hword, hread, hall⟩
  have hno := (heard_chatWords hword).noFriendCommand
  have hline : readLine rest = rest := by
    refine readLine_of_not_mem fun hten => not_mem_joined h.right.right ?_
    rw [← hall]
    exact List.mem_append_right _ hten
  unfold handleFriend
  rw [hread]
  simp only [hno "add" (by decide), hno "accept" (by decide), hno "reject" (by decide),
    hno "block" (by decide), hno "list" (by decide), if_false, hline, hall]

omit [One double] in
/-- The handlers of answers take the first word of what they are given. -/
theorem handleFriendAccept_word (sessionId : Nat) (iss : List UInt8) :
    (handleFriendAccept sessionId (readWord iss).1 : Handler double Unit) =
      handleFriendAccept sessionId iss := by
  unfold handleFriendAccept
  rw [readWord_blankless (blankless_readWord iss)]

omit [One double] in
theorem handleFriendReject_word (sessionId : Nat) (iss : List UInt8) :
    (handleFriendReject sessionId (readWord iss).1 : Handler double Unit) =
      handleFriendReject sessionId iss := by
  unfold handleFriendReject
  rw [readWord_blankless (blankless_readWord iss)]

/-- The server handles a saying as it is meant. -/
theorem handle_meant (hclient : msg.type = .client) {saying : Saying}
    (hlegal : saying.Legal) (hbody : msg.pkt.body = saying.payload name) :
    (handle msg : Handler double Unit) = saying.meant name msg := by
  cases saying with
  | login => exact handle_nick hclient hbody
  | chat words =>
      refine handle_chat hclient ?_
      rcases readWord_joined hlegal with ⟨word, rest, hword, _, hall⟩
      have hheard := heard_chatWords hword
      rw [hbody]
      show (joined words).head? ≠ some 47
      rw [← hall, List.head?_append_of_ne_nil _ hheard.wordy.left]
      exact hheard.noCommand
  | add target =>
      have hwordy : Wordy (text "add") := by decide +kernel
      have hfriend : (handleFriend msg.sessionId (text "add " ++ target) :
          Handler double Unit) = handleFriendAdd msg.sessionId target :=
        (handleFriend_wordy msg.sessionId hwordy target).trans
          (if_pos rfl)
      rw [handle_friend hclient (text "add " ++ target) hbody]
      exact congrArg (named msg.sessionId) hfriend
  | list =>
      rw [handle_friend hclient (text "list") hbody]
      rfl
  | friendChat words =>
      rw [handle_friend hclient (joined words) hbody,
        handleFriend_joined msg.sessionId hlegal]
      rfl
  | accept other =>
      have hwordy : Wordy (text "accept") := by decide +kernel
      have hfriend : (handleFriend msg.sessionId (text "accept " ++ other) :
          Handler double Unit) = handleFriendAccept msg.sessionId other :=
        (handleFriend_wordy msg.sessionId hwordy other).trans
          ((if_neg (by decide)).trans (if_pos rfl))
      rw [handle_friend hclient (text "accept " ++ other) hbody]
      exact congrArg (named msg.sessionId)
        (hfriend.trans (handleFriendAccept_word msg.sessionId other).symm)
  | reject other =>
      have hwordy : Wordy (text "reject") := by decide +kernel
      have hfriend : (handleFriend msg.sessionId (text "reject " ++ other) :
          Handler double Unit) = handleFriendReject msg.sessionId other :=
        (handleFriend_wordy msg.sessionId hwordy other).trans
          ((if_neg (by decide)).trans ((if_neg (by decide)).trans (if_pos rfl)))
      rw [handle_friend hclient (text "reject " ++ other) hbody]
      exact congrArg (named msg.sessionId)
        (hfriend.trans (handleFriendReject_word msg.sessionId other).symm)

/-- The handlers read the whole of the names that they are handed. -/
theorem readWord_handed (hname : Blankless name) {saying : Saying}
    (hlegal : saying.Legal) {word : List UInt8} (hword : saying.handed name = some word) :
    (readWord word).1 = word := by
  cases saying with
  | login =>
      cases hword
      exact readWord_blankless hname
  | add target =>
      cases hword
      exact readWord_blankless hlegal
  | accept request =>
      cases hword
      exact readWord_blankless (blankless_readWord request)
  | reject request =>
      cases hword
      exact readWord_blankless (blankless_readWord request)
  | list => cases hword
  | chat words => cases hword
  | friendChat words => cases hword

end Meaning

/-!
# The length of a request
-/

theorem length_intercalate (sep : UInt8) (line : List UInt8) (rest : List (List UInt8)) :
    (List.intercalate [sep] (line :: rest)).length + 1 =
      ((line :: rest).map fun l => l.length + 1).sum := by
  induction rest generalizing line with
  | nil => simp
  | cons other more ih =>
      rw [List.intercalate_cons_cons, List.length_append, List.length_append,
        List.map_cons, List.sum_cons, ← ih other]
      simp only [List.length_cons, List.length_nil]
      omega

/-- The lines of a text and their separators are as long as the text and one more. -/
theorem sum_splitOn (payload : List UInt8) :
    ((payload.splitOn 10).map fun l => l.length + 1).sum = payload.length + 1 := by
  have hjoined : [10].intercalate (payload.splitOn 10) = payload :=
    List.intercalate_splitOn 10
  cases hsplit : payload.splitOn 10 with
  | nil => exact absurd hsplit (List.splitOn_ne_nil 10 payload)
  | cons line rest =>
      rw [hsplit] at hjoined
      rw [← length_intercalate 10, hjoined]

theorem length_trimSpace_le (line : List UInt8) : (trimSpace line).length ≤ line.length :=
  (trimBack_initial _).length_le.trans (trimFront_suffix line).length_le

/-- A request stands in a line of its own, below its heading. -/
theorem length_of_mem_filed {lines : List (List UInt8)} :
    forall {s : Section} {name : List UInt8}, name ∈ filed .pending s lines ->
      name.length + 1 + (if s = .pending then 0 else 8) ≤
        (lines.map fun l => l.length + 1).sum := by
  induction lines with
  | nil =>
      intro s name h
      cases h
  | cons line rest ih =>
      intro s name h
      have htrim := length_trimSpace_le line
      rw [List.map_cons, List.sum_cons]
      unfold filed at h
      split at h
      · split at h
        · rename_i hpending
          rcases List.mem_cons.mp h with rfl | h
          · rw [if_pos hpending]
            omega
          · have hrest := ih h
            rw [if_pos hpending] at hrest ⊢
            omega
        · have hrest := ih h
          omega
      · have hrest := ih h
        by_cases hafter : sectionAfter s (trimSpace line) = .pending
        · rw [if_pos hafter] at hrest
          split
          · omega
          · rename_i hs
            have hheading : trimSpace line = text "Request" := by
              unfold sectionAfter at hafter
              split at hafter
              · cases hafter
              · split at hafter
                · assumption
                · split at hafter
                  · cases hafter
                  · exact absurd hafter hs
            rw [hheading] at htrim
            have hseven : (text "Request").length = 7 := rfl
            omega
        · rw [if_neg hafter] at hrest
          split <;> omega

/-- The first line of a list is no heading of requests. -/
theorem section_of_first (y : List UInt8) (rest : List (List UInt8)) {name : List UInt8}
    (h : name ∈ filed .pending .none ((text "Blocked" ++ y) :: rest)) :
    exists s, s ≠ .pending ∧ name ∈ filed .pending s rest := by
  have hfront : trimFront spaces (text "Blocked" ++ y) = text "Blocked" ++ y := by
    refine trimFront_eq_self fun mark hmark hne hinitial => ?_
    have hheads : forall mark, mark ∈ spaces -> mark.head? ≠ some 66 := by decide +kernel
    cases mark with
    | nil => exact hne rfl
    | cons first others =>
        have hfirst : first = 66 := (List.cons_prefix_cons.mp hinitial).left
        exact hheads _ hmark (by rw [hfirst]; rfl)
  unfold filed at h
  split at h
  · rw [if_neg (by decide)] at h
    exact ⟨.none, by decide, h⟩
  · refine ⟨_, ?_, h⟩
    intro hpending
    have hinitial : trimSpace (text "Blocked" ++ y) <+: text "Blocked" ++ y := by
      unfold trimSpace trim
      rw [hfront]
      exact trimBack_initial _
    unfold sectionAfter at hpending
    split at hpending
    · cases hpending
    · split at hpending
      · rename_i hrequest
        rw [hrequest] at hinitial
        exact absurd (List.cons_prefix_cons.mp hinitial).left (by decide)
      · split at hpending <;> cases hpending

theorem length_of_listed {payload name : List UInt8}
    (hheading : (text "Blocked").isPrefixOf payload = true)
    (hfits : payload.length ≤ maxPayloadSize) (h : name ∈ (parseFriendList payload).1) :
    name.length ≤ 240 := by
  rcases List.isPrefixOf_iff_prefix.mp hheading with ⟨x, rfl⟩
  have hseven : (text "Blocked").length = 7 := rfl
  have hmax : maxPayloadSize = 256 := rfl
  rw [List.length_append, hseven, hmax] at hfits
  have hlines : forall lines : List (List UInt8), name ∈ filed .pending .none lines ->
      lines.Sublist ((text "Blocked" ++ x).splitOn 10) -> name.length ≤ 240 := by
    intro lines hname hsub
    by_cases hten : 10 ∈ x
    · rcases List.eq_append_cons_of_mem hten with ⟨y, z, rfl, hy⟩
      have hfirst : 10 ∉ text "Blocked" ++ y := by
        intro hmem
        rcases List.mem_append.mp hmem with hword | hrest
        · exact absurd hword (by decide)
        · exact hy hrest
      rw [← List.append_assoc, List.splitOn_append_cons_self,
        List.splitOn_eq_singleton hfirst, List.singleton_append] at hsub
      have hbound : forall rest : List (List UInt8), rest.Sublist (z.splitOn 10) ->
          forall s : Section, s ≠ .pending -> name ∈ filed .pending s rest ->
            name.length ≤ 240 := by
        intro rest hrest s hs hmem
        have hlength := length_of_mem_filed hmem
        have hsum := (hrest.map fun l => l.length + 1).sum_le_sum (fun _ _ => Nat.zero_le _)
        rw [sum_splitOn] at hsum
        rw [if_neg hs] at hlength
        rw [List.length_append, List.length_cons] at hfits
        omega
      rcases List.sublist_cons_iff.mp hsub with hrest | ⟨rest, rfl, hrest⟩
      · exact hbound lines hrest .none nofun hname
      · rcases section_of_first y rest hname with ⟨s, hs, hmem⟩
        exact hbound rest hrest s hs hmem
    · -- there is no line below the heading
      have hfirst : 10 ∉ text "Blocked" ++ x := by
        intro hmem
        rcases List.mem_append.mp hmem with hword | hrest
        · exact absurd hword (by decide)
        · exact hten hrest
      rw [List.splitOn_eq_singleton hfirst] at hsub
      rcases List.sublist_cons_iff.mp hsub with hrest | ⟨rest, rfl, hrest⟩
      · rw [List.sublist_nil.mp hrest] at hname
        cases hname
      · rw [List.sublist_nil.mp hrest] at hname
        rcases section_of_first x [] hname with ⟨s, _, hmem⟩
        cases hmem
  unfold parseFriendList at h
  simp only [foldl_readFriendLine, List.nil_append] at h
  refine hlines _ h ?_
  split
  · exact List.dropLast_sublist _
  · exact List.Sublist.refl _

/-!
# What the bot can say
-/

/-- What is about to be said fits and keeps to the words. -/
def Stage.Fits (name : List UInt8) : Stage -> Prop
  | .taken _ request => request.length ≤ 240
  | .sending saying => saying.Legal ∧ (saying.payload name).length ≤ MESSAGE_SIZE
  | _ => True

/-- What has been received fits, and what is read as a list begins like one. -/
def Receiver.Fits : Receiver -> Prop
  | .received _ payload => payload.length ≤ maxPayloadSize
  | .applying payload =>
      payload.length ≤ maxPayloadSize ∧ (text "Blocked").isPrefixOf payload = true
  | _ => True

/-- Whatever the bot says next can be put into a packet. -/
structure Bot.Fits (b : Bot) : Prop where
  name : b.name.length < 10
  pool : forall other, other ∈ b.pool -> ShortName other
  pending : forall request, request ∈ b.pending -> request.length ≤ 240
  stage : b.stage.Fits b.name
  receiver : b.receiver.Fits

theorem length_payload_le {words : List String} (h : Chatty words) :
    (joined words).length ≤ 120 := by
  have hlength := length_joined_le h.right.right
  have htwelve : maxChatWords = 12 := rfl
  have hwords := h.right.left
  omega

/-- An answer is about a request that was taken off the list. -/
theorem request_le_of_speaks {name request : List UInt8} {stage : Stage} {saying : Saying}
    (hfits : stage.Fits name) (hspeaks : Bot.Speaks stage saying)
    (hsaying : saying = .accept request ∨ saying = .reject request) :
    request.length ≤ 240 := by
  rcases hsaying with rfl | rfl
  · cases hspeaks
    exact hfits
  · cases hspeaks
    exact hfits

/-- A saying that is begun fits. -/
theorem fits_of_speaks {b : Bot} (h : b.Fits) {saying : Saying}
    (hspeaks : Bot.Speaks b.stage saying) (hdrawn : b.Draws saying) :
    (Stage.sending saying).Fits b.name := by
  have hstage := h.stage
  cases saying with
  | login =>
      refine ⟨trivial, ?_⟩
      show (text "/n " ++ b.name).length ≤ 256
      have hthree : (text "/n ").length = 3 := rfl
      have hname := h.name
      rw [List.length_append]
      omega
  | chat words =>
      rcases hdrawn with ⟨draws, hdraws⟩
      exact ⟨chatty_of_drawn hdraws,
        (length_payload_le (chatty_of_drawn hdraws)).trans (by decide)⟩
  | add target =>
      have hshort := h.pool target hdrawn.right.left
      refine ⟨hshort.right, ?_⟩
      show (text "/f add " ++ target).length ≤ 256
      have hseven : (text "/f add ").length = 7 := rfl
      have htarget := hshort.left
      rw [List.length_append]
      omega
  | list => exact ⟨trivial, (by decide : (text "/f list").length ≤ 256)⟩
  | friendChat words =>
      rcases hdrawn with ⟨draws, hdraws⟩
      refine ⟨chatty_of_drawn hdraws, ?_⟩
      show (text "/f " ++ joined words).length ≤ 256
      have hthree : (text "/f ").length = 3 := rfl
      have hjoined := length_payload_le (chatty_of_drawn hdraws)
      rw [List.length_append]
      omega
  | accept request =>
      have hrequest := request_le_of_speaks hstage hspeaks (Or.inl rfl)
      refine ⟨trivial, ?_⟩
      show (text "/f accept " ++ request).length ≤ 256
      have hten : (text "/f accept ").length = 10 := rfl
      rw [List.length_append]
      omega
  | reject request =>
      have hrequest := request_le_of_speaks hstage hspeaks (Or.inr rfl)
      refine ⟨trivial, ?_⟩
      show (text "/f reject " ++ request).length ≤ 256
      have hten : (text "/f reject ").length = 10 := rfl
      rw [List.length_append]
      omega

theorem Bot.Fits.step {b c : Bot} {out : List Sight} (h : b.Fits)
    (heffect : b.Effect c out) : c.Fits := by
  rcases h with ⟨hname, hpool, hpending, hstage, hreceiver⟩
  cases heffect with
  | speaks saying speaks drawn =>
      exact ⟨hname, hpool, hpending,
        fits_of_speaks ⟨hname, hpool, hpending, hstage, hreceiver⟩ speaks drawn, hreceiver⟩
  | nameless accepts i taking drawn =>
      exact ⟨hname, hpool, fun request hmem => hpending request (List.mem_of_mem_eraseIdx hmem),
        trivial, hreceiver⟩
  | took accepts i request taking drawn =>
      exact ⟨hname, hpool, fun other hmem => hpending other (List.mem_of_mem_eraseIdx hmem),
        hpending request (List.mem_of_getElem? drawn), hreceiver⟩
  | read id payload waiting fits => exact ⟨hname, hpool, hpending, hstage, fits⟩
  | heard id payload counter received hears =>
      exact ⟨hname, hpool, hpending, hstage, trivial⟩
  | list payload received heading =>
      rw [received] at hreceiver
      exact ⟨hname, hpool, hpending, hstage, hreceiver, heading⟩
  | applied payload applying =>
      rw [applying] at hreceiver
      exact ⟨hname, hpool,
        fun request hmem => length_of_listed hreceiver.right hreceiver.left hmem, hstage,
        trivial⟩
  | hungUp waiting => exact ⟨hname, hpool, hpending, hstage, trivial⟩
  | dialed dialing off => exact ⟨hname, hpool, hpending, trivial, trivial⟩
  | _ => exact ⟨hname, hpool, hpending, trivial, hreceiver⟩

theorem fits_of_wrote {b c : Bot} {out : List Sight} {saying : Saying} (h : b.Fits)
    (heffect : b.Effect c out) (hwrote : .wrote saying ∈ out) :
    (Stage.sending saying).Fits b.name := by
  cases heffect with
  | wrote other sending =>
      have hstage := h.stage
      rw [sending] at hstage
      rcases List.mem_cons.mp hwrote with hsame | hlater
      · cases hsame
        exact hstage
      · rcases List.mem_cons.mp hlater with hsame | hnil
        · cases hsame
        · cases hnil
  | _ => simp at hwrote

theorem fits_trace {events : List BotEvent} {b t : Bot} {out : List Sight} {saying : Saying}
    (h : b.Fits) (htrace : bot.trace b events = some (t, out))
    (hwrote : .wrote saying ∈ out) : (Stage.sending saying).Fits b.name := by
  induction events generalizing b out with
  | nil =>
      cases htrace
      cases hwrote
  | cons event rest ih =>
      rcases Machine.trace_cons_some htrace with ⟨c, first, more, hstep, hrest, rfl⟩
      have heffect := Bot.step_effect hstep
      have hname : c.name = b.name := by
        cases heffect <;> rfl
      rcases List.mem_append.mp hwrote with hfirst | hmore
      · exact fits_of_wrote h heffect hfirst
      · rw [← hname]
        exact ih (h.step heffect) hrest hmore

/--
The server does what the bot means.  If the names of the bots are as short as the
server wants them and have no blanks, everything that a bot writes in any run fits
into one packet, and the handling of the message with this text is the command, or
the chat, that the bot meant.  A handler that is handed a name reads all of it; of
a request that is the first word of the line in the list.
-/
theorem bot_is_understood [One double] {name : List UInt8} {pool : List (List UInt8)}
    {events : List BotEvent} {t : Bot} {out : List Sight} (hname : ShortName name)
    (hpool : forall other, other ∈ pool -> ShortName other)
    (htrace : bot.trace (Bot.new name pool) events = some (t, out)) {saying : Saying}
    (hwrote : .wrote saying ∈ out) :
    (⟨0, saying.payload name⟩ : Frame).Legal ∧
      writePacket (saying.payload name) = (⟨0, saying.payload name⟩ : Frame).encode ∧
      (forall msg : ShardMsg, msg.type = .client ->
        msg.pkt.body = saying.payload name ->
          (handle msg : Handler double Unit) = saying.meant name msg) ∧
      forall word, saying.handed name = some word -> (readWord word).1 = word := by
  have hstart : (Bot.new name pool).Fits :=
    ⟨hname.left, hpool, fun _ hmem => (by cases hmem), trivial, trivial⟩
  rcases fits_trace hstart htrace hwrote with ⟨hlegal, hfits⟩
  refine ⟨hfits, ?_, fun msg hclient hbody => handle_meant hclient hlegal hbody,
    fun word hword => readWord_handed hname.right hlegal hword⟩
  have hwhole : truncateUTF8 (saying.payload name) maxPayloadSize = saying.payload name :=
    truncateUTF8_of_le hfits
  unfold writePacket
  rw [hwhole]
  rfl

theorem bot_is_understood_ann :
    exists t out, bot.trace (Bot.new (text "bob") []) Bot.acceptsAnn = some (t, out) ∧
      forall msg : ShardMsg, msg.type = .client ->
        msg.pkt.body = text "/f accept ann" ->
          (handle msg : Handler Nat Unit) =
            named msg.sessionId (handleFriendAccept msg.sessionId (text "ann")) := by
  have hwrote : (bot.trace (Bot.new (text "bob") []) Bot.acceptsAnn).map
      (fun run => decide (Sight.wrote (.accept (text "ann")) ∈ run.2)) = some true := by
    decide +kernel
  rcases Option.map_eq_some_iff.mp hwrote with ⟨⟨t, out⟩, htrace, hmem⟩
  have hmeant := (@bot_is_understood Nat _ _ _ _ _ _ (by decide +kernel)
    (fun _ hnil => (by cases hnil)) htrace _ (of_decide_eq_true hmem)).right.right.left
  have hann : (readWord (text "ann")).1 = text "ann" := by decide +kernel
  refine ⟨t, out, htrace, fun msg hclient hbody => ?_⟩
  refine (hmeant msg hclient hbody).trans ?_
  show named msg.sessionId (handleFriendAccept msg.sessionId
    (readWord (text "ann")).1) = _
  rw [hann]

end Clients
end ContentServer
