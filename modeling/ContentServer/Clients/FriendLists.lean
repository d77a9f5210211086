import ContentServer.Clients.BotProtocol
import ContentServer.Consumers.Replies
import ContentServer.Foundation.Lines
import ContentServer.Foundation.TextInput

/-!
# The friend list of the bot

`parseFriendList` reads the text that `HandleFriendList` makes, or the beginning
of it that fits into a packet.  Nothing in that text tells a name from a heading
or a separator line, so that some names are not read back.
-/

namespace ContentServer
namespace Clients

open Consumers Foundation Protocol Storage

/-- The encodings of the characters that `strings.TrimSpace` removes. -/
def spaces : List (List UInt8) :=
  [[9], [10], [11], [12], [13], [32], [0xC2, 0x85], [0xC2, 0xA0], [0xE1, 0x9A, 0x80]] ++
    (List.range 11).map (fun i => [0xE2, 0x80, UInt8.ofNat (0x80 + i)]) ++
    [[0xE2, 0x80, 0xA8], [0xE2, 0x80, 0xA9], [0xE2, 0x80, 0xAF], [0xE2, 0x81, 0x9F],
      [0xE3, 0x80, 0x80]]

def trimSpace (line : List UInt8) : List UInt8 :=
  trim spaces line

/-- The values of `section`; it is empty at first. -/
inductive Section where
  | none
  | blocked
  | pending
  | friends
deriving DecidableEq

/-- The variables of `parseFriendList`: `section`, `pending` and `friends`. -/
structure Reading where
  sect : Section
  pending : List (List UInt8)
  friends : List (List UInt8)
deriving DecidableEq

/-- The body of the loop. -/
def readFriendLine (r : Reading) (line : List UInt8) : Reading :=
  let line := trimSpace line
  if line = [] then r
  else if (text "---").isPrefixOf line then r
  else if line = text "Blocked" then { r with sect := .blocked }
  else if line = text "Request" then { r with sect := .pending }
  else if line = text "Friends" then { r with sect := .friends }
  else
    match r.sect with
    | .pending => { r with pending := r.pending ++ [line] }
    | .friends => { r with friends := r.friends ++ [line] }
    | .none | .blocked => r

def parseFriendList (payload : List UInt8) : List (List UInt8) × List (List UInt8) :=
  let lines := payload.splitOn 10
  let lines :=
    if payload.length ≥ maxPayloadSize ∧ lines.length > 0 then lines.dropLast else lines
  let r := lines.foldl readFriendLine ⟨.none, [], []⟩
  (r.pending, r.friends)

/-!
# Names and headings
-/

/-- A trimmed line that is read as a name. -/
def isName (line : List UInt8) : Bool :=
  line ≠ [] && !(text "---").isPrefixOf line && line ≠ text "Blocked" &&
    line ≠ text "Request" && line ≠ text "Friends"

/-- The section after a trimmed line. -/
def sectionAfter (s : Section) (line : List UInt8) : Section :=
  if line = text "Blocked" then .blocked
  else if line = text "Request" then .pending
  else if line = text "Friends" then .friends
  else s

/-- A line that is read as the name that it is. -/
def Readable (line : List UInt8) : Prop :=
  trimSpace line = line ∧ isName line = true

instance (line : List UInt8) : Decidable (Readable line) :=
  inferInstanceAs (Decidable (_ ∧ _))

/-- The lines that are read as names of a section, when the lines before them
end in another section. -/
def filed (target : Section) : Section -> List (List UInt8) -> List (List UInt8)
  | _, [] => []
  | s, line :: rest =>
      if isName (trimSpace line) = true then
        if s = target then trimSpace line :: filed target s rest
        else filed target s rest
      else filed target (sectionAfter s (trimSpace line)) rest

/-- The section after some lines. -/
def sectionOf (s : Section) (lines : List (List UInt8)) : Section :=
  lines.foldl (fun s line =>
    if isName (trimSpace line) = true then s else sectionAfter s (trimSpace line)) s

theorem readFriendLine_of_name {line : List UInt8} (r : Reading)
    (h : isName (trimSpace line) = true) :
    readFriendLine r line =
      ⟨r.sect, if r.sect = .pending then r.pending ++ [trimSpace line] else r.pending,
        if r.sect = .friends then r.friends ++ [trimSpace line] else r.friends⟩ := by
  simp only [isName, Bool.and_eq_true, Bool.not_eq_true', decide_eq_true_eq] at h
  rcases h with ⟨⟨⟨⟨hnil, hdashes⟩, hblocked⟩, hrequest⟩, hfriends⟩
  unfold readFriendLine
  simp only [hnil, hdashes, hblocked, hrequest, hfriends, if_false, Bool.false_eq_true]
  rcases r with ⟨sect, pending, friends⟩
  cases sect <;> simp

theorem readFriendLine_of_not_name {line : List UInt8} (r : Reading)
    (h : isName (trimSpace line) = false) :
    readFriendLine r line =
      { r with sect := sectionAfter r.sect (trimSpace line) } := by
  unfold readFriendLine sectionAfter
  generalize trimSpace line = found at h ⊢
  by_cases hblocked : found = text "Blocked"
  · rw [hblocked]
    rfl
  by_cases hrequest : found = text "Request"
  · rw [hrequest]
    rfl
  by_cases hfriends : found = text "Friends"
  · rw [hfriends]
    rfl
  -- the line is empty or a separator
  by_cases hnil : found = []
  · rw [hnil]
    rfl
  have hdashes : (text "---").isPrefixOf found = true := by
    simpa [isName, hblocked, hrequest, hfriends, hnil] using h
  simp only [hnil, hdashes, hblocked, hrequest, hfriends, if_false, if_true]

/-- The loop files the names under the sections they are read in. -/
theorem foldl_readFriendLine (lines : List (List UInt8)) :
    forall r : Reading, lines.foldl readFriendLine r =
      ⟨sectionOf r.sect lines, r.pending ++ filed .pending r.sect lines,
        r.friends ++ filed .friends r.sect lines⟩ := by
  induction lines with
  | nil =>
      intro r
      simp [sectionOf, filed]
  | cons line rest ih =>
      intro r
      rw [List.foldl_cons, ih]
      cases hname : isName (trimSpace line) with
      | true =>
          rw [readFriendLine_of_name r hname]
          simp only [filed, sectionOf, List.foldl_cons, hname, if_true]
          cases r.sect <;> simp
      | false =>
          rw [readFriendLine_of_not_name r hname]
          simp [sectionOf, filed, hname]

/-- What is read as a name is a name that is read as itself. -/
theorem readable_of_mem_filed {target : Section} {lines : List (List UInt8)} :
    forall {s : Section} {name : List UInt8}, name ∈ filed target s lines ->
      Readable name := by
  induction lines with
  | nil =>
      intro s name h
      cases h
  | cons line rest ih =>
      intro s name h
      unfold filed at h
      split at h
      · rename_i hname
        split at h
        · rcases List.mem_cons.mp h with rfl | h
          · have hagain : trimSpace (trimSpace line) = trimSpace line := trim_trim line
            exact ⟨hagain, hname⟩
          · exact ih h
        · exact ih h
      · exact ih h

theorem filed_append {target : Section} (a b : List (List UInt8)) :
    forall s, filed target s (a ++ b) =
      filed target s a ++ filed target (sectionOf s a) b := by
  induction a with
  | nil =>
      intro s
      rfl
  | cons line rest ih =>
      intro s
      simp only [List.cons_append, filed, sectionOf, List.foldl_cons, ih]
      split
      · split <;> rfl
      · rfl

/-- Readable names stay where they are. -/
theorem filed_readable {lines : List (List UInt8)} (s : Section)
    (h : forall line, line ∈ lines -> Readable line) :
    filed s s lines = lines ∧ sectionOf s lines = s ∧
      forall target, target ≠ s -> filed target s lines = [] := by
  induction lines with
  | nil => exact ⟨rfl, rfl, fun _ _ => rfl⟩
  | cons line rest ih =>
      rcases ih (fun other hother => h other (List.mem_cons_of_mem line hother)) with
        ⟨hself, hsection, hothers⟩
      rcases h line List.mem_cons_self with ⟨htrim, hname⟩
      have hread : isName (trimSpace line) = true := by
        rw [htrim]
        exact hname
      refine ⟨?_, ?_, ?_⟩
      · simp only [filed, htrim, hname, if_true, hself]
      · simp only [sectionOf, List.foldl_cons, hread, if_true]
        exact hsection
      · intro target hne
        simp only [filed, hread, if_true, if_neg hne.symm, hothers target hne]

/-!
# The lines of the text
-/

/-- The lines that `HandleFriendList` writes. -/
def friendLines (list : FriendList) : List (List UInt8) :=
  (text "Blocked" :: list.blocked) ++
    ((text "----------------" :: text "Request" :: list.pending) ++
      (text "----------------" :: text "Friends" :: list.friends))

theorem friendListText_eq (list : FriendList) :
    friendListText list = joinLines 10 (friendLines list) := by
  have hwords : text "Blocked\n" = text "Blocked" ++ [10] ∧
      text "Request\n" = text "Request" ++ [10] ∧
      text "Friends\n" = text "Friends" ++ [10] ∧
      text "----------------\n" = text "----------------" ++ [10] := by decide
  have hnames : forall names, nameLines names = joinLines 10 names := fun _ => rfl
  unfold friendListText friendLines
  simp only [hwords, hnames, joinLines_append, joinLines_cons, List.append_assoc,
    List.cons_append, List.nil_append]

/-- The names of legal lists stay on their lines. -/
theorem not_mem_friendLines {list : FriendList}
    (h : forall name, name ∈ list.blocked ++ list.pending ++ list.friends ->
      (10 : UInt8) ∉ name) :
    forall line, line ∈ friendLines list -> (10 : UInt8) ∉ line := by
  have hwords : (10 : UInt8) ∉ text "Blocked" ∧ (10 : UInt8) ∉ text "Request" ∧
      (10 : UInt8) ∉ text "Friends" ∧ (10 : UInt8) ∉ text "----------------" := by decide
  rcases hwords with ⟨hblocked, hrequest, hfriends, hdashes⟩
  intro line hline
  simp only [friendLines, List.mem_append, List.mem_cons] at hline
  simp only [List.mem_append] at h
  rcases hline with (rfl | hline) | (rfl | rfl | hline) | rfl | rfl | hline
  · exact hblocked
  · exact h line (Or.inl (Or.inl hline))
  · exact hdashes
  · exact hrequest
  · exact h line (Or.inl (Or.inr hline))
  · exact hdashes
  · exact hfriends
  · exact h line (Or.inr hline)

/-- The names on the first `k` lines. -/
def FriendList.first (list : FriendList) (k : Nat) : FriendList where
  blocked := list.blocked.take (k - 1)
  pending := list.pending.take (k - (list.blocked.length + 3))
  friends := list.friends.take (k - (list.blocked.length + list.pending.length + 5))

/-- The names whose lines end within the bytes of a packet. -/
def shown (list : FriendList) : FriendList :=
  FriendList.first list (linesWithin MESSAGE_SIZE (friendLines list)).length

/-- The names of all three lists that are read as names of one. -/
def filedOf (target : Section) (list : FriendList) : List (List UInt8) :=
  filed target .blocked list.blocked ++
    (filed target .pending list.pending ++ filed target .friends list.friends)

/-- How the parser reads the lines that are not names. -/
theorem filed_heading (target s : Section) (rest : List (List UInt8)) :
    filed target s (text "Blocked" :: rest) = filed target .blocked rest ∧
      filed target s (text "Request" :: rest) = filed target .pending rest ∧
      filed target s (text "Friends" :: rest) = filed target .friends rest ∧
      filed target s (text "----------------" :: rest) = filed target s rest := by
  have htrim : trimSpace (text "Blocked") = text "Blocked" ∧
      trimSpace (text "Request") = text "Request" ∧
      trimSpace (text "Friends") = text "Friends" ∧
      trimSpace (text "----------------") = text "----------------" := by decide +kernel
  have hnot : isName (text "Blocked") = false ∧ isName (text "Request") = false ∧
      isName (text "Friends") = false ∧ isName (text "----------------") = false := by
    decide +kernel
  rcases htrim with ⟨hblocked, hrequest, hfriends, hdashes⟩
  simp only [filed, hblocked, hrequest, hfriends, hdashes, hnot, Bool.false_eq_true,
    if_false]
  exact ⟨rfl, rfl, rfl, rfl⟩

theorem filed_take_friendLines (target : Section) (list : FriendList) (k : Nat) :
    filed target .none ((friendLines list).take k) =
      filedOf target (FriendList.first list k) := by
  have hblocked : forall s n, filed target s ((text "Blocked" :: list.blocked).take n) =
      filed target .blocked (list.blocked.take (n - 1)) := by
    intro s n
    cases n with
    | zero => rfl
    | succ n => exact (filed_heading target s _).left
  have hpending : forall s n, filed target s
      ((text "----------------" :: text "Request" :: list.pending).take n) =
        filed target .pending (list.pending.take (n - 2)) := by
    intro s n
    match n with
    | 0 => rfl
    | 1 => exact (filed_heading target s _).right.right.right
    | n + 2 =>
        exact ((filed_heading target s _).right.right.right).trans
          (filed_heading target s _).right.left
  have hfriends : forall s n, filed target s
      ((text "----------------" :: text "Friends" :: list.friends).take n) =
        filed target .friends (list.friends.take (n - 2)) := by
    intro s n
    match n with
    | 0 => rfl
    | 1 => exact (filed_heading target s _).right.right.right
    | n + 2 =>
        exact ((filed_heading target s _).right.right.right).trans
          (filed_heading target s _).right.right.left
  unfold friendLines filedOf FriendList.first
  simp only [List.take_append, filed_append, hblocked, hpending, hfriends,
    List.length_cons]
  have hpendingCount : k - (list.blocked.length + 1) - 2 = k - (list.blocked.length + 3) := by
    omega
  have hfriendsCount : k - (list.blocked.length + 1) - (list.pending.length + 1 + 1) - 2 =
      k - (list.blocked.length + list.pending.length + 5) := by
    omega
  rw [hpendingCount, hfriendsCount]

theorem first_length_friendLines (list : FriendList) :
    FriendList.first list (friendLines list).length = list := by
  unfold FriendList.first friendLines
  simp only [List.length_append, List.length_cons]
  rw [List.take_of_length_le (by omega), List.take_of_length_le (by omega),
    List.take_of_length_le (by omega)]

/-- If the text fits into a packet, all names are shown. -/
theorem shown_eq_self {list : FriendList}
    (h : (friendListText list).length ≤ MESSAGE_SIZE) : shown list = list := by
  rw [friendListText_eq] at h
  unfold shown
  rw [linesWithin_of_fits 10 h]
  exact first_length_friendLines list

theorem filed_friendLines (target : Section) (list : FriendList) :
    filed target .none (friendLines list ++ [[]]) = filedOf target list := by
  have hempty : forall s, filed target s [[]] = [] := by
    intro s
    have htrim : isName (trimSpace []) = false := by decide +kernel
    simp only [filed, htrim, Bool.false_eq_true, if_false]
  have htake := filed_take_friendLines target list (friendLines list).length
  rw [List.take_length, first_length_friendLines] at htake
  rw [filed_append, hempty, List.append_nil, htake]

/-- What the parser makes of the text, or of as much as fits into a packet. -/
theorem parseFriendList_take {list : FriendList}
    (h : forall name, name ∈ list.blocked ++ list.pending ++ list.friends ->
      (10 : UInt8) ∉ name) :
    parseFriendList ((friendListText list).take MESSAGE_SIZE) =
      (filedOf .pending (shown list), filedOf .friends (shown list)) := by
  have hlines := not_mem_friendLines h
  unfold parseFriendList
  by_cases hfits : (friendListText list).length < MESSAGE_SIZE
  · have hshort : ¬ ((friendListText list).length ≥ maxPayloadSize ∧
        ((friendListText list).splitOn 10).length > 0) :=
      fun hlong => absurd hfits (Nat.not_lt.mpr hlong.left)
    rw [List.take_of_length_le (Nat.le_of_lt hfits), shown_eq_self (Nat.le_of_lt hfits)]
    simp only [if_neg hshort]
    rw [friendListText_eq, splitOn_joinLines hlines, foldl_readFriendLine]
    simp only [List.nil_append, filed_friendLines]
  · have hlength : ((friendListText list).take MESSAGE_SIZE).length = MESSAGE_SIZE := by
      rw [List.length_take]
      exact Nat.min_eq_left (Nat.not_lt.mp hfits)
    have hcut : ((friendListText list).take MESSAGE_SIZE).length ≥ maxPayloadSize ∧
        (((friendListText list).take MESSAGE_SIZE).splitOn 10).length > 0 :=
      ⟨Nat.le_of_eq hlength.symm, List.length_pos_of_ne_nil (List.splitOn_ne_nil _ _)⟩
    simp only [if_pos hcut]
    rw [friendListText_eq, dropLast_splitOn_take _ hlines, foldl_readFriendLine,
      List.prefix_iff_eq_take.mp (linesWithin_initial (friendLines list) MESSAGE_SIZE)]
    simp only [List.nil_append, filed_take_friendLines]
    rfl

/-!
# Names under headings
-/

/-- The section whose heading a line reads as. -/
def headingOf (line : List UInt8) : Option Section :=
  if trimSpace line = text "Blocked" then some .blocked
  else if trimSpace line = text "Request" then some .pending
  else if trimSpace line = text "Friends" then some .friends
  else none

/-- The section of the nearest heading above, or `s` where there is none. -/
def nearest (s : Section) (above : List (List UInt8)) : Section :=
  (above.filterMap headingOf).getLast?.getD s

/-- The lines that pass for names with the nearest heading that of a section, as
they are read.  The first of the lines stands in section `s`. -/
def readUnder (target s : Section) (lines : List (List UInt8)) : List (List UInt8) :=
  (lines.zipIdx.filter fun line =>
    isName (trimSpace line.1) && nearest s (lines.take line.2) = target).map
      fun line => trimSpace line.1

theorem headingOf_of_name {line : List UInt8} (h : isName (trimSpace line) = true) :
    headingOf line = none := by
  simp only [isName, Bool.and_eq_true, Bool.not_eq_true', decide_eq_true_eq] at h
  unfold headingOf
  rw [if_neg h.left.left.right, if_neg h.left.right, if_neg h.right]

theorem sectionAfter_eq (s : Section) (line : List UInt8) :
    sectionAfter s (trimSpace line) = (headingOf line).getD s := by
  unfold sectionAfter headingOf
  split_ifs <;> rfl

theorem nearest_concat (s : Section) (above : List (List UInt8)) (line : List UInt8) :
    nearest s (above ++ [line]) = (headingOf line).getD (nearest s above) := by
  unfold nearest
  rw [List.filterMap_append]
  cases hread : headingOf line with
  | none =>
      rw [List.filterMap_cons_none hread, List.filterMap_nil, List.append_nil]
      rfl
  | some found =>
      rw [List.filterMap_cons_some hread, List.filterMap_nil, List.getLast?_concat]
      rfl

/-- The section in which the loop stands is that of the nearest heading. -/
theorem sectionOf_eq_nearest (s : Section) (lines : List (List UInt8)) :
    sectionOf s lines = nearest s lines := by
  induction lines using List.reverseRecOn with
  | nil => rfl
  | append_singleton above line ih =>
      rw [nearest_concat, ← ih]
      unfold sectionOf
      rw [List.foldl_append, List.foldl_cons, List.foldl_nil]
      split
      · rename_i hname
        rw [headingOf_of_name hname]
        rfl
      · exact sectionAfter_eq _ line

/-- What the loop files are the names under a heading. -/
theorem filed_eq_readUnder (target s : Section) (lines : List (List UInt8)) :
    filed target s lines = readUnder target s lines := by
  induction lines using List.reverseRecOn with
  | nil => rfl
  | append_singleton above line ih =>
      have hbefore : above.zipIdx.filter (fun other =>
          isName (trimSpace other.1) &&
            nearest s ((above ++ [line]).take other.2) = target) =
          above.zipIdx.filter (fun other =>
            isName (trimSpace other.1) && nearest s (above.take other.2) = target) := by
        apply List.filter_congr
        intro other hother
        have hindex := List.snd_lt_of_mem_zipIdx hother
        rw [List.take_append_of_le_length (by omega)]
      rw [filed_append, ih, sectionOf_eq_nearest]
      unfold readUnder
      rw [List.zipIdx_append, List.filter_append, List.map_append, hbefore]
      congr 1
      simp only [Nat.zero_add, List.zipIdx_cons, List.zipIdx_nil, List.filter_cons,
        List.filter_nil, List.take_left]
      cases hname : isName (trimSpace line) <;>
        by_cases hsame : nearest s above = target <;> simp [filed, hname, hsame]

/-!
# Lists that are read back
-/

/-- The names before the first one that is not readable. -/
def readableRun (names : List (List UInt8)) : List (List UInt8) :=
  names.takeWhile (fun name => decide (Readable name))

def readableRest (names : List (List UInt8)) : List (List UInt8) :=
  names.dropWhile (fun name => decide (Readable name))

theorem run_append_rest (names : List (List UInt8)) :
    readableRun names ++ readableRest names = names :=
  List.takeWhile_append_dropWhile

theorem readable_of_mem_run {names : List (List UInt8)} :
    forall name, name ∈ readableRun names -> Readable name := by
  intro name hname
  have hdecide := List.mem_takeWhile_imp (p := fun n => decide (Readable n)) hname
  exact of_decide_eq_true hdecide

theorem filed_run (target : Section) (names : List (List UInt8)) :
    filed target target names =
      readableRun names ++ filed target target (readableRest names) := by
  rcases filed_readable target (@readable_of_mem_run names) with
    ⟨hself, hsection, _⟩
  have hfiled := @filed_append target (readableRun names) (readableRest names) target
  rw [run_append_rest, hself, hsection] at hfiled
  exact hfiled

/-- The first name of the rest cannot be read. -/
theorem readableRest_cases (names : List (List UInt8)) :
    readableRest names = [] ∨
      exists name more, readableRest names = name :: more ∧ ¬ Readable name := by
  cases hrest : readableRest names with
  | nil => exact Or.inl rfl
  | cons name more =>
      refine Or.inr ⟨name, more, rfl, ?_⟩
      intro hread
      have hhead := List.head?_dropWhile_not (fun n => decide (Readable n)) names
      have hdrop : names.dropWhile (fun n => decide (Readable n)) = name :: more := hrest
      rw [hdrop] at hhead
      simp [hread] at hhead

/-- All shown names are readable, or the run ends at one that is not. -/
theorem run_cases {own all : List (List UInt8)} (hown : own <+: all) :
    readableRun own = own ∨
      exists name more, all = readableRun own ++ name :: more ∧ ¬ Readable name := by
  rcases hown with ⟨hidden, hall⟩
  rcases readableRest_cases own with hnil | ⟨name, more, hrest, hbad⟩
  · left
    have hsplit := run_append_rest own
    rw [hnil, List.append_nil] at hsplit
    exact hsplit
  · right
    refine ⟨name, more ++ hidden, ?_, hbad⟩
    calc all = own ++ hidden := hall.symm
      _ = readableRun own ++ readableRest own ++ hidden := by rw [run_append_rest]
      _ = readableRun own ++ name :: (more ++ hidden) := by
        rw [hrest, List.append_assoc, List.cons_append]

/-- Readable names are no beginning of a list beyond its first unreadable name. -/
theorem not_prefix_of_unreadable {all run more found : List (List UInt8)}
    {name : List UInt8} (hread : forall other, other ∈ found -> Readable other)
    (hall : all = run ++ name :: more) (hbad : ¬ Readable name)
    (hlength : run.length < found.length) : ¬ found <+: all := by
  intro hinitial
  apply hbad
  apply hread name
  have hget := hinitial.getElem hlength
  have hat : found[run.length] = name := by
    rw [hget]
    simp [hall]
  rw [← hat]
  exact List.getElem_mem hlength

/-- A result ends with the list or with its readable run, or it is none of the
beginnings of the list. -/
theorem prefix_iff_stuck {all before run others : List (List UInt8)}
    (hread : forall name, name ∈ before ++ (run ++ others) -> Readable name)
    (hstuck : others ≠ [] -> all = run ∨
      exists name more, all = run ++ name :: more ∧ ¬ Readable name) :
    before ++ (run ++ others) <+: all <-> before ++ run <+: all ∧ others = [] := by
  constructor
  · intro hinitial
    have hshort : before ++ run <+: all := by
      rw [← List.append_assoc] at hinitial
      exact (List.prefix_append _ _).trans hinitial
    refine ⟨hshort, ?_⟩
    by_contra hne
    have hpos := List.length_pos_of_ne_nil hne
    have hindex : run.length < (before ++ (run ++ others)).length := by
      simp only [List.length_append]
      omega
    rcases hstuck hne with hall | ⟨name, more, hall, hbad⟩
    · have hlength := hinitial.length_le
      rw [hall] at hlength
      omega
    · exact not_prefix_of_unreadable hread hall hbad hindex hinitial
  · intro h
    rw [h.right, List.append_nil]
    exact h.left

/-- Names filed behind the readable run of a shown list come too late. -/
theorem stuck_of_rest {target : Section} {all names later : List (List UInt8)}
    (hshown : names <+: all) (hlater : later ≠ [] -> names = all)
    (hne : filed target target (readableRest names) ++ later ≠ []) :
    all = readableRun names ∨
      exists name more, all = readableRun names ++ name :: more ∧ ¬ Readable name := by
  rcases run_cases hshown with hrun | hbad
  · left
    have hnil : readableRest names = [] := by
      apply List.append_right_eq_self.mp
      rw [run_append_rest, hrun]
    rw [hnil] at hne
    rw [hrun]
    exact (hlater hne).symm
  · exact Or.inr hbad

/-- Names of earlier lists that are read ahead of a list's own do no harm: there
are none, or the list begins with these names and then with all its shown ones. -/
def Repeated (strays own all : List (List UInt8)) : Prop :=
  strays = [] ∨ (forall name, name ∈ own -> Readable name) ∧ strays ++ own <+: all

/-- Behind names from elsewhere all of a list's shown names have to be read. -/
theorem repeated_iff {strays own all : List (List UInt8)} (hown : own <+: all)
    (hread : forall name, name ∈ strays -> Readable name) :
    strays ++ readableRun own <+: all <-> Repeated strays own all := by
  constructor
  · intro hinitial
    by_cases hnone : strays = []
    · exact Or.inl hnone
    right
    rcases run_cases hown with hrun | ⟨name, more, hall, hbad⟩
    · rw [hrun] at hinitial
      refine ⟨?_, hinitial⟩
      rw [← hrun]
      exact readable_of_mem_run
    · -- the list has an unreadable name where the result has a readable one
      have hpos := List.length_pos_of_ne_nil hnone
      refine absurd hinitial (not_prefix_of_unreadable ?_ hall hbad ?_)
      · intro other hother
        rcases List.mem_append.mp hother with hother | hother
        · exact hread other hother
        · exact readable_of_mem_run other hother
      · rw [List.length_append]
        omega
  · intro hrepeated
    rcases hrepeated with hnone | ⟨hall, hinitial⟩
    · rw [hnone, List.nil_append]
      exact (List.takeWhile_prefix _).trans hown
    · have hself : readableRun own = own :=
        List.takeWhile_eq_self_iff.mpr fun name hname =>
          decide_eq_true (hall name hname)
      rw [hself]
      exact hinitial

/-- The shown names are the first ones of each list, and names of a later list
are shown only if all names of the earlier ones are. -/
theorem shown_initial (list : FriendList) :
    (shown list).pending <+: list.pending ∧ (shown list).friends <+: list.friends ∧
      ((shown list).friends ≠ [] -> (shown list).pending = list.pending) := by
  refine ⟨List.take_prefix _ _, List.take_prefix _ _, ?_⟩
  intro hne
  have hcount : (shown list).friends.length ≠ 0 :=
    fun hzero => hne (List.length_eq_zero_iff.mp hzero)
  unfold shown FriendList.first at hcount ⊢
  rw [List.length_take] at hcount
  exact List.take_of_length_le (by omega)

/-- The names that `HandleNick` accepts, as they are read from its stream. -/
def LegalName (name : List UInt8) : Prop :=
  validName name = true ∧ forall c, c ∈ name -> isSpace c = false

/-- What is read are beginnings of the lists, and nothing else. -/
structure Beginnings (found : List (List UInt8) × List (List UInt8))
    (list : FriendList) : Prop where
  pending : found.1 <+: list.pending
  friends : found.2 <+: list.friends
  onlyPending : forall name, name ∈ found.1 -> name ∈ list.pending
  onlyFriends : forall name, name ∈ found.2 -> name ∈ list.friends

/-- Lists whose names are read back when the whole text arrives. -/
structure Faithful (list : FriendList) : Prop where
  readable : forall name, name ∈ list.pending ++ list.friends -> Readable name
  pending : readUnder .pending .blocked list.blocked = []
  friends : readUnder .friends .blocked list.blocked = []

/-- Lists of whose shown names only right ones are read back. -/
structure FaithfulSoFar (list : FriendList) : Prop where
  /-- From its first unreadable name on, nothing of the list is read. -/
  pendingOwn : readUnder .pending .pending (readableRest (shown list).pending) = []
  pendingLater : readUnder .pending .friends (shown list).friends = []
  pendingEarlier : Repeated (readUnder .pending .blocked (shown list).blocked)
    (shown list).pending list.pending
  friendsOwn : readUnder .friends .friends (readableRest (shown list).friends) = []
  friendsEarlier : Repeated (readUnder .friends .blocked (shown list).blocked ++
    readUnder .friends .pending (shown list).pending)
      (shown list).friends list.friends

theorem readable_of_mem_filedOf {target : Section} {list : FriendList}
    {name : List UInt8} (h : name ∈ filedOf target list) : Readable name := by
  unfold filedOf at h
  simp only [List.mem_append] at h
  rcases h with h | h | h
  · exact readable_of_mem_filed h
  · exact readable_of_mem_filed h
  · exact readable_of_mem_filed h

/-- Readable names of the last two lists are filed under their own. -/
theorem filedOf_readable {list : FriendList}
    (h : forall name, name ∈ list.pending ++ list.friends -> Readable name) :
    filedOf .pending list = filed .pending .blocked list.blocked ++ list.pending ∧
      filedOf .friends list = filed .friends .blocked list.blocked ++ list.friends := by
  rcases filed_readable .pending
      (fun name hname => h name (List.mem_append_left _ hname)) with
    ⟨hpending, _, hpendingOthers⟩
  rcases filed_readable .friends
      (fun name hname => h name (List.mem_append_right _ hname)) with
    ⟨hfriends, _, hfriendsOthers⟩
  unfold filedOf
  rw [hpending, hfriends, hpendingOthers .friends (by decide),
    hfriendsOthers .pending (by decide), List.append_nil, List.nil_append]
  exact ⟨rfl, rfl⟩

theorem filedOf_eq_iff (list : FriendList) :
    (filedOf .pending list, filedOf .friends list) = (list.pending, list.friends) <->
      Faithful list := by
  rw [Prod.mk.injEq]
  constructor
  · intro h
    have hread : forall name, name ∈ list.pending ++ list.friends -> Readable name := by
      intro name hname
      rcases List.mem_append.mp hname with hname | hname
      · rw [← h.left] at hname
        exact readable_of_mem_filedOf hname
      · rw [← h.right] at hname
        exact readable_of_mem_filedOf hname
    rcases filedOf_readable hread with ⟨hpending, hfriends⟩
    rw [hpending, hfriends, filed_eq_readUnder, filed_eq_readUnder] at h
    exact ⟨hread, List.append_left_eq_self.mp h.left, List.append_left_eq_self.mp h.right⟩
  · intro h
    rcases filedOf_readable h.readable with ⟨hpending, hfriends⟩
    rw [hpending, hfriends, filed_eq_readUnder, filed_eq_readUnder, h.pending,
      h.friends]
    exact ⟨rfl, rfl⟩

theorem filedOf_beginnings_iff (list : FriendList) :
    Beginnings (filedOf .pending (shown list), filedOf .friends (shown list)) list <->
      FaithfulSoFar list := by
  rcases shown_initial list with ⟨hpending, hfriends, hlast⟩
  have hpendingOf : filedOf .pending (shown list) =
      filed .pending .blocked (shown list).blocked ++
        (readableRun (shown list).pending ++
          (filed .pending .pending (readableRest (shown list).pending) ++
            filed .pending .friends (shown list).friends)) := by
    unfold filedOf
    rw [filed_run .pending, List.append_assoc]
  have hfriendsOf : filedOf .friends (shown list) =
      (filed .friends .blocked (shown list).blocked ++
        filed .friends .pending (shown list).pending) ++
          (readableRun (shown list).friends ++
            filed .friends .friends (readableRest (shown list).friends)) := by
    unfold filedOf
    rw [filed_run .friends, List.append_assoc]
  have hpendingRead : forall name, name ∈ filedOf .pending (shown list) ->
      Readable name := fun _ => readable_of_mem_filedOf
  have hfriendsRead : forall name, name ∈ filedOf .friends (shown list) ->
      Readable name := fun _ => readable_of_mem_filedOf
  rw [hpendingOf] at hpendingRead
  rw [hfriendsOf] at hfriendsRead
  have hfirst := prefix_iff_stuck hpendingRead
    (stuck_of_rest hpending (fun hne => hlast (by
      intro hnil
      rw [hnil] at hne
      exact hne rfl)))
  have hsecond := prefix_iff_stuck hfriendsRead
    (fun hne => @stuck_of_rest .friends list.friends _ [] hfriends
      (fun hnone => absurd rfl hnone) (by rw [List.append_nil]; exact hne))
  rw [← hpendingOf, repeated_iff hpending
    (fun name hname => hpendingRead name (List.mem_append_left _ hname))] at hfirst
  rw [← hfriendsOf, repeated_iff hfriends
    (fun name hname => hfriendsRead name (List.mem_append_left _ hname))] at hsecond
  simp only [filed_eq_readUnder] at hfirst hsecond
  constructor
  · intro h
    rcases hfirst.mp h.pending with ⟨hbefore, hafter⟩
    rcases hsecond.mp h.friends with ⟨hbefore', hafter'⟩
    rcases List.append_eq_nil_iff.mp hafter with ⟨hown, hlater⟩
    exact ⟨hown, hlater, hbefore, hafter', hbefore'⟩
  · intro h
    have hbegins := hfirst.mpr ⟨h.pendingEarlier,
      List.append_eq_nil_iff.mpr ⟨h.pendingOwn, h.pendingLater⟩⟩
    have hbegins' := hsecond.mpr ⟨h.friendsEarlier, h.friendsOwn⟩
    exact ⟨hbegins, hbegins', fun _ hname => hbegins.subset hname,
      fun _ hname => hbegins'.subset hname⟩

/--
The parser gives back the lists exactly if their names can be told from the
other lines; of a text that is cut, it gives back beginnings of the lists
exactly if that is so for the names that arrive.
-/
theorem friend_list_read_iff {list : FriendList}
    (hlegal : forall name, name ∈ list.blocked ++ list.pending ++ list.friends ->
      LegalName name) :
    (forall (double : Type) (answers : (o : Op double) -> Answer o)
        (sessionId gold : Nat) (items : List Item),
      Shown answers sessionId gold items list ->
        payloads answers sessionId (handleFriendList sessionId []) =
          [(friendListText list).take MESSAGE_SIZE]) ∧
    ((friendListText list).length < 256 ->
      (parseFriendList ((friendListText list).take MESSAGE_SIZE) =
          (list.pending, list.friends) <-> Faithful list)) ∧
    (256 ≤ (friendListText list).length ->
      (Beginnings (parseFriendList ((friendListText list).take MESSAGE_SIZE)) list <->
        FaithfulSoFar list)) := by
  have hlines : forall name, name ∈ list.blocked ++ list.pending ++ list.friends ->
      (10 : UInt8) ∉ name := by
    intro name hname hmem
    have hspace := (hlegal name hname).right 10 hmem
    cases hspace
  rw [parseFriendList_take hlines]
  refine ⟨?_, ?_, ?_⟩
  · intro double answers sessionId gold items hshown
    rw [hshown.payloads_handleFriendList rfl, payloads_sendError]
  · intro hshort
    rw [shown_eq_self (Nat.le_of_lt hshort)]
    exact filedOf_eq_iff list
  · intro _
    exact filedOf_beginnings_iff list

/-- Many pending names; the text has more than 256 bytes. -/
def crowd : FriendList where
  blocked := [text "gildong"]
  pending := (List.range 26).map fun i =>
    text "player" ++ [UInt8.ofNat (48 + i / 10), UInt8.ofNat (48 + i % 10)]
  friends := [text "yuna"]

/-- Ordinary names are read back, from a cut text as many as it shows. -/
theorem friend_list_read_mina :
    parseFriendList ((friendListText
        ⟨[text "gildong"], [text "mina"], [text "yuna"]⟩).take MESSAGE_SIZE) =
      ([text "mina"], [text "yuna"]) ∧
    Beginnings (parseFriendList ((friendListText crowd).take MESSAGE_SIZE)) crowd := by
  have hlegal : forall name, name ∈
      [text "gildong"] ++ [text "mina"] ++ [text "yuna"] -> LegalName name := by
    unfold LegalName
    decide +kernel
  have hfaithful : Faithful ⟨[text "gildong"], [text "mina"], [text "yuna"]⟩ := by
    constructor
    · decide +kernel
    · decide +kernel
    · decide +kernel
  have hcrowd : forall name, name ∈
      crowd.blocked ++ crowd.pending ++ crowd.friends -> LegalName name := by
    unfold LegalName
    decide +kernel
  have hsofar : FaithfulSoFar crowd := by
    constructor
    · decide +kernel
    · decide +kernel
    · exact Or.inl (by decide +kernel)
    · decide +kernel
    · exact Or.inl (by decide +kernel)
  exact ⟨((friend_list_read_iff hlegal).right.left (by decide +kernel)).mpr hfaithful,
    ((friend_list_read_iff hcrowd).right.right (by decide +kernel)).mpr hsofar⟩

/-- A user called `Request` is taken for a heading. -/
theorem friend_list_not_read_request :
    LegalName (text "Request") ∧
      (friendListText ⟨[], [text "Request"], []⟩).length < 256 ∧
      parseFriendList ((friendListText ⟨[], [text "Request"], []⟩).take MESSAGE_SIZE) ≠
        ([text "Request"], []) := by
  unfold LegalName
  decide +kernel

end Clients
end ContentServer
