import ContentServer.Consumers.Replies
import ContentServer.Consumers.Stores
import ContentServer.Foundation.Paging
import ContentServer.Storage.Board

/-!
# Ranking pages

`ShowRanker` and `ShowMyRank` make one line for each entry of a window of the
ranking and send the lines in pages.  Whatever the ranking, every line is sent
whole under its own rank.
-/

namespace ContentServer
namespace Consumers

open Foundation Protocol Storage

variable {double : Type} {pg : Postgres double}

/-- The commands read this ranking. -/
structure ReadsBoard (answers : (o : Op double) -> Answer o) (b : Board) : Prop where
  top : forall start stop, answers (.rankTop start stop) = b.top start stop
  rankOf : forall userId,
    answers (.rankOf userId) = (b.rankOf userId).map fun i => (i : Int)

/-- What stores answer while Redis can be reached. -/
theorem Stores.readsBoard (shard : Nat) (msg : ShardMsg) {e : Environment double}
    (he : e.faults 1 = false) (s : Stores pg) :
    ReadsBoard (fun o => (s.perform shard msg e o).1) s.ranking.board where
  top := by
    intro start stop
    show s.ranking.top start stop (e.faults 1) = s.ranking.board.top start stop
    rw [he]
    exact s.ranking.top_eq_board start stop
  rankOf := by
    intro userId
    show s.ranking.rankOf userId (e.faults 1) = _
    rw [he]
    exact s.ranking.rankOf_eq_board userId

/-- The header of `ShowRanker` and a line for each of the first 20 entries. -/
def rankerLines (b : Board) : List (List UInt8) :=
  text "-- top 20 --\n" ::
    (b.entries.take 20).zipIdx.map fun e => decimal (e.2 + 1) ++ rankText e.1

/-- The line of an entry in the window around the entry of rank `myRank`; both
ranks count from zero. -/
def myRankLine (myRank : Nat) (e : RankEntry × Nat) : List UInt8 :=
  (if e.2 = myRank then text "> " else text "  ") ++ decimal (e.2 + 1) ++
    rankText e.1

/-- The entries whose rank is within 5 of `myRank`, with their ranks. -/
def aroundRank (b : Board) (myRank : Nat) : List (RankEntry × Nat) :=
  b.entries.zipIdx.filter fun e => decide (e.2 ≤ myRank + 5 ∧ myRank ≤ e.2 + 5)

/-- The header of `ShowMyRank` and a line for each entry around the user's. -/
def myRankLines (b : Board) (myRank : Nat) : List (List UInt8) :=
  (text "-- my rank: " ++ decimal (myRank + 1) ++ text " --\n") ::
    (aroundRank b myRank).map (myRankLine myRank)

/-!
# The window
-/

/-- The positions of an interval are those of a slice. -/
theorem filter_zipIdx {α : Type} (xs : List α) (first last : Nat)
    (hle : first ≤ last + 1) :
    xs.zipIdx.filter (fun e => decide (first ≤ e.2 ∧ e.2 ≤ last)) =
      ((xs.drop first).take (last + 1 - first)).zipIdx first := by
  have hsplit : xs = xs.take first ++ ((xs.drop first).take (last + 1 - first) ++
      xs.drop (last + 1)) := by
    have hrest : xs.drop (last + 1) = (xs.drop first).drop (last + 1 - first) := by
      rw [List.drop_drop, Nat.add_sub_of_le hle]
    rw [hrest, List.take_append_drop, List.take_append_drop]
  rcases Nat.lt_or_ge xs.length first with hshort | hlong
  · have hnone : xs.drop first = [] := List.drop_of_length_le (Nat.le_of_lt hshort)
    rw [hnone, List.take_nil, List.zipIdx_nil, List.filter_eq_nil_iff]
    intro e he
    have hlt := List.snd_lt_of_mem_zipIdx he
    rw [decide_eq_true_iff]
    omega
  have hfirst : (xs.take first).length = first := List.length_take_of_le hlong
  have hslice : ((xs.drop first).take (last + 1 - first)).length =
      min (last + 1 - first) (xs.length - first) := by
    rw [List.length_take, List.length_drop]
  conv_lhs => rw [hsplit]
  rw [List.zipIdx_append, List.zipIdx_append, List.filter_append, List.filter_append]
  have hlow : (xs.take first).zipIdx.filter
      (fun e => decide (first ≤ e.2 ∧ e.2 ≤ last)) = [] := by
    rw [List.filter_eq_nil_iff]
    intro e he
    have hlt := List.snd_lt_of_mem_zipIdx he
    rw [decide_eq_true_iff]
    omega
  have hmiddle : (((xs.drop first).take (last + 1 - first)).zipIdx
      (0 + (xs.take first).length)).filter
        (fun e => decide (first ≤ e.2 ∧ e.2 ≤ last)) =
      ((xs.drop first).take (last + 1 - first)).zipIdx
        (0 + (xs.take first).length) := by
    rw [List.filter_eq_self]
    intro e he
    have hge := List.le_snd_of_mem_zipIdx he
    have hlt := List.snd_lt_of_mem_zipIdx he
    rw [decide_eq_true_iff]
    omega
  have hhigh : ((xs.drop (last + 1)).zipIdx (0 + (xs.take first).length +
      ((xs.drop first).take (last + 1 - first)).length)).filter
        (fun e => decide (first ≤ e.2 ∧ e.2 ≤ last)) = [] := by
    rw [List.filter_eq_nil_iff]
    intro e he
    have hge := List.le_snd_of_mem_zipIdx he
    have hlt := List.snd_lt_of_mem_zipIdx he
    rw [List.length_drop] at hlt
    rw [decide_eq_true_iff]
    omega
  rw [hlow, hmiddle, hhigh, List.nil_append, List.append_nil, hfirst, Nat.zero_add]

theorem aroundRank_eq (b : Board) (myRank : Nat) :
    aroundRank b myRank =
      ((b.entries.drop (myRank - 5)).take (myRank + 5 + 1 - (myRank - 5))).zipIdx
        (myRank - 5) := by
  rw [← filter_zipIdx b.entries _ _ (by omega)]
  unfold aroundRank
  apply List.filter_congr
  intro e _
  apply decide_eq_decide.mpr
  omega

/-!
# The lines that the commands make
-/

section Lines

variable {answers : (o : Op double) -> Answer o} {b : Board}

theorem mapIdx_eq_map_zipIdx {α β : Type} (xs : List α) (f : Nat -> α -> β)
    (first : Nat) :
    xs.mapIdx (fun i x => f (first + i) x) =
      (xs.zipIdx first).map fun e => f e.2 e.1 := by
  apply List.ext_getElem
  · rw [List.length_mapIdx, List.length_map, List.length_zipIdx]
  · intro i hi hi'
    rw [List.getElem_mapIdx, List.getElem_map, List.getElem_zipIdx]

theorem top_first (h : b.Legal) (hne : b.order ≠ []) :
    b.top 0 19 = b.entries.take 20 := by
  have hrange := b.zrevrange_of_lt 0 19 (by omega)
    (List.length_pos_iff.mpr hne)
  rw [h.top]
  show (b.zrevrange ((0 : Nat) : Int) ((19 : Nat) : Int)).map b.entryOf = _
  rw [hrange, List.drop_zero, List.map_take]
  rfl

theorem top_around (h : b.Legal) {myRank : Nat} (hlt : myRank < b.order.length) :
    b.top (max 0 ((myRank : Int) - 5)) ((myRank : Int) + 5) =
      (b.entries.drop (myRank - 5)).take (myRank + 5 + 1 - (myRank - 5)) := by
  have hfirst : max 0 ((myRank : Int) - 5) = ((myRank - 5 : Nat) : Int) := by
    omega
  have hlast : (myRank : Int) + 5 = ((myRank + 5 : Nat) : Int) := by
    omega
  rw [h.top, hfirst, hlast, b.zrevrange_of_lt _ _ (by omega) (by omega), List.map_take,
    List.map_drop]
  rfl

theorem decimalInt_natCast (n : Nat) : decimalInt (n : Int) = decimal n := by
  unfold decimalInt
  rw [if_neg (by omega), Int.natAbs_natCast]

/-- Rows of the window under their absolute ranks. -/
theorem mapIdx_myRankLine (around : List RankEntry) (myRank : Nat) :
    around.mapIdx (fun i e =>
      (if max 0 ((myRank : Int) - 5) + i = myRank then text "> " else text "  ") ++
        decimalInt (max 0 ((myRank : Int) - 5) + i + 1) ++ rankText e) =
      (around.zipIdx (myRank - 5)).map (myRankLine myRank) := by
  rw [← mapIdx_eq_map_zipIdx around (fun i e => myRankLine myRank (e, i))]
  apply List.mapIdx_eq_mapIdx_iff.mpr
  intro i hi
  have hrank : max 0 ((myRank : Int) - 5) + i = ((myRank - 5 + i : Nat) : Int) := by
    omega
  have hnumber : ((myRank - 5 + i : Nat) : Int) + 1 =
      ((myRank - 5 + i + 1 : Nat) : Int) := by
    omega
  unfold myRankLine
  simp only [hrank, hnumber, decimalInt_natCast, Int.natCast_inj]

/-- A page carries the first 256 bytes of its lines. -/
theorem payloads_sendPages (sessionId : Nat) (lines : List (List UInt8)) :
    forall body, payloads answers sessionId (sendPages sessionId lines body) =
      (paginate MESSAGE_SIZE lines body).map (List.take MESSAGE_SIZE) := by
  induction lines with
  | nil =>
      intro body
      cases body with
      | nil => rfl
      | cons c rest =>
          unfold sendPages paginate
          rw [if_neg (List.cons_ne_nil c rest), payloads_sendError]
          rfl
  | cons line rest ih =>
      intro body
      unfold sendPages paginate
      split
      · rw [payloads_bind, payloads_sendError, ih line]
        rfl
      · exact ih (body ++ line)

end Lines

/-!
# Lengths
-/

section Lengths

variable {b : Board}

/-- Names and powers of the entries keep their bounds. -/
theorem entry_bounds (h : b.Legal) {e : RankEntry} (he : e ∈ b.entries) :
    e.name.length ≤ 9 ∧ e.totalPower < 2 ^ 53 := by
  rcases List.mem_map.mp he with ⟨p, hp, rfl⟩
  refine ⟨?_, h.scores p hp⟩
  show ((b.names.lookup p.1).getD []).length ≤ 9
  cases hname : b.names.lookup p.1 with
  | none => exact Nat.zero_le 9
  | some name => exact h.names p.1 name hname

theorem length_rankText_le {e : RankEntry} (hname : e.name.length ≤ 9)
    (hpower : e.totalPower < 2 ^ 53) :
    0 < (rankText e).length ∧ (rankText e).length ≤ 36 := by
  have hwords : (text ". ").length = 2 ∧ (text "unknown").length = 7 ∧
      (text "  power=").length = 8 ∧ (text "\n").length = 1 := by decide
  have hdigits := length_decimal_le 15 e.totalPower (by omega)
  have hshown : (if e.name = [] then text "unknown" else e.name).length ≤ 9 := by
    split
    · rw [hwords.right.left]
      decide
    · exact hname
  unfold rankText
  simp only [List.length_append, hwords]
  omega

theorem rankerLines_fit (h : b.Legal) :
    forall line, line ∈ (rankerLines b).tail ->
      line ≠ [] ∧ line.length ≤ MESSAGE_SIZE := by
  intro line hline
  rcases List.mem_map.mp hline with ⟨e, he, rfl⟩
  have hbounds := entry_bounds h (List.mem_of_mem_take (List.fst_mem_of_mem_zipIdx he))
  have htext := length_rankText_le hbounds.left hbounds.right
  have hlt := List.snd_lt_of_mem_zipIdx he
  have hfew := List.length_take_le 20 b.entries
  have hdigits := length_decimal_le 1 (e.2 + 1) (by omega)
  have hlength : (decimal (e.2 + 1) ++ rankText e.1).length =
      (decimal (e.2 + 1)).length + (rankText e.1).length := List.length_append
  refine ⟨List.ne_nil_of_length_pos (by omega), ?_⟩
  simp only [MESSAGE_SIZE]
  omega

/-- Ranks of legal rankings have at most 20 digits. -/
theorem length_decimal_rank (h : b.Legal) (rank : Nat) (hlt : rank < b.order.length) :
    (decimal (rank + 1)).length ≤ 20 := by
  have hsize := h.length_le
  exact length_decimal_le 19 (rank + 1) (by omega)

theorem myRankLines_fit (h : b.Legal) (myRank : Nat) :
    forall line, line ∈ (myRankLines b myRank).tail ->
      line ≠ [] ∧ line.length ≤ MESSAGE_SIZE := by
  intro line hline
  rcases List.mem_map.mp hline with ⟨e, he, rfl⟩
  have hinside := (List.mem_filter.mp he).left
  have hbounds := entry_bounds h (List.fst_mem_of_mem_zipIdx hinside)
  have htext := length_rankText_le hbounds.left hbounds.right
  have hlt := List.snd_lt_of_mem_zipIdx hinside
  have hsize : b.entries.length = b.order.length := List.length_map _
  have hdigits := length_decimal_rank h e.2 (by omega)
  have hmark : (if e.2 = myRank then text "> " else text "  ").length = 2 := by
    split <;> decide
  have hlength : (myRankLine myRank e).length =
      2 + (decimal (e.2 + 1)).length + (rankText e.1).length := by
    unfold myRankLine
    rw [List.length_append, List.length_append, hmark]
  refine ⟨List.ne_nil_of_length_pos (by omega), ?_⟩
  simp only [MESSAGE_SIZE]
  omega

end Lengths

/-!
# The user's own line
-/

section Own

variable {b : Board}

theorem rankOf_eq_some {userId myRank : Nat} (h : b.rankOf userId = some myRank) :
    exists own, b.entries[myRank]? = some own ∧ own.userId = userId := by
  rcases List.findIdx?_eq_some_iff_getElem.mp h with ⟨hlt, hmember, _⟩
  have hkey : (b.order[myRank]).1 = decimal userId := beq_iff_eq.mp hmember
  refine ⟨b.entryOf b.order[myRank], ?_, ?_⟩
  · unfold Board.entries
    rw [List.getElem?_map, List.getElem?_eq_getElem hlt]
    rfl
  · show digitsValue (b.order[myRank]).1 = userId
    rw [hkey, digitsValue_decimal]

/-- One position of a list is found once among its entries with positions. -/
theorem filter_zipIdx_eq {α : Type} {xs : List α} {i : Nat} {x : α}
    (h : xs[i]? = some x) :
    xs.zipIdx.filter (fun e => decide (e.2 = i)) = [(x, i)] := by
  have hlt : i < xs.length := (List.getElem?_eq_some_iff.mp h).choose
  have hslice := filter_zipIdx xs i i (by omega)
  have hsingle : (xs.drop i).take (i + 1 - i) = [x] := by
    rw [Nat.add_sub_cancel_left, List.take_one, List.head?_drop, h]
    rfl
  rw [hsingle, List.zipIdx_singleton] at hslice
  rw [← hslice]
  apply List.filter_congr
  intro e _
  apply decide_eq_decide.mpr
  omega

/-- Exactly one line is marked, the one of the entry at the user's rank. -/
theorem marked_myRankLines {myRank : Nat} {own : RankEntry}
    (h : b.entries[myRank]? = some own) :
    (myRankLines b myRank).filter (fun line => (text "> ").isPrefixOf line) =
      [myRankLine myRank (own, myRank)] := by
  have hmark : forall e : RankEntry × Nat,
      (text "> ").isPrefixOf (myRankLine myRank e) = decide (e.2 = myRank) := by
    intro e
    unfold myRankLine
    by_cases he : e.2 = myRank
    · rw [if_pos he, decide_eq_true he]
      rfl
    · rw [if_neg he, decide_eq_false he]
      rfl
  have hheader : (text "> ").isPrefixOf
      (text "-- my rank: " ++ decimal (myRank + 1) ++ text " --\n") = false := rfl
  have hown : (aroundRank b myRank).filter (fun e => decide (e.2 = myRank)) =
      [(own, myRank)] := by
    unfold aroundRank
    rw [List.filter_filter, ← filter_zipIdx_eq h]
    apply List.filter_congr
    intro e _
    rw [← Bool.decide_and]
    apply decide_eq_decide.mpr
    omega
  unfold myRankLines
  rw [List.filter_cons, hheader, List.filter_map]
  have hfun : ((fun line => (text "> ").isPrefixOf line) ∘ myRankLine myRank) =
      fun e => decide (e.2 = myRank) := funext hmark
  rw [hfun, hown]
  rfl

end Own

/-!
# The pages
-/

section Pages

variable {answers : (o : Op double) -> Answer o} {b : Board} {sessionId : Nat}

/-- Lines that fit are sent in pages behind a header that fits. -/
theorem paged_sendPages {header : List UInt8} {lines : List (List UInt8)}
    (hne : header ≠ []) (hle : header.length ≤ MESSAGE_SIZE)
    (hlines : forall line, line ∈ lines ->
      line ≠ [] ∧ line.length ≤ MESSAGE_SIZE) :
    Paged MESSAGE_SIZE (header :: lines)
      (payloads answers sessionId (sendPages sessionId lines header)) := by
  have hsingle : [header].flatten = header := List.flatten_singleton
  have hpaged := paged_paginate [header] (by rw [hsingle]; exact hne)
    (by rw [hsingle]; exact hle) hlines
  rw [hsingle] at hpaged
  have hwhole : (paginate MESSAGE_SIZE lines header).map (List.take MESSAGE_SIZE) =
      paginate MESSAGE_SIZE lines header := by
    conv_rhs => rw [← List.map_id (paginate MESSAGE_SIZE lines header)]
    apply List.map_congr_left
    intro page hpage
    exact List.take_of_length_le (hpaged.length_le page hpage)
  rw [payloads_sendPages, hwhole]
  exact hpaged

theorem paged_showRanker (hlegal : b.Legal) (hne : b.order ≠ [])
    (hreads : ReadsBoard answers b) :
    Paged MESSAGE_SIZE (rankerLines b)
      (payloads answers sessionId (showRanker sessionId)) := by
  have htop := (hreads.top 0 19).trans (top_first hlegal hne)
  have hsome : (b.entries.take 20).isEmpty = false := by
    rw [List.isEmpty_eq_false_iff, Ne, List.take_eq_nil_iff]
    intro hnone
    rcases hnone with hzero | hnil
    · cases hzero
    · exact hne (List.map_eq_nil_iff.mp hnil)
  have hlines : (b.entries.take 20).mapIdx (fun i r => decimal (i + 1) ++ rankText r) =
      (rankerLines b).tail := by
    have hzip := mapIdx_eq_map_zipIdx (b.entries.take 20)
      (fun i r => decimal (i + 1) ++ rankText r) 0
    simp only [Nat.zero_add] at hzip
    exact hzip
  unfold showRanker
  rw [payloads_call, htop]
  simp only [hsome, Bool.false_eq_true, if_false]
  rw [hlines]
  exact paged_sendPages (by decide) (by decide) (rankerLines_fit hlegal)

theorem paged_showMyRank (hlegal : b.Legal) (hreads : ReadsBoard answers b)
    {myRank : Nat} (hrank : b.rankOf (answers (.getUserId sessionId)) = some myRank) :
    Paged MESSAGE_SIZE (myRankLines b myRank)
      (payloads answers sessionId (showMyRank sessionId)) := by
  have hlt : myRank < b.order.length :=
    (List.findIdx?_eq_some_iff_getElem.mp hrank).choose
  have hown : answers (.rankOf (answers (.getUserId sessionId))) =
      some (myRank : Int) := by
    rw [hreads.rankOf, hrank]
    rfl
  have htop := (hreads.top (max 0 ((myRank : Int) - 5)) (myRank + 5)).trans
    (top_around hlegal hlt)
  have hheader : (text "-- my rank: " ++ decimalInt ((myRank : Int) + 1) ++
      text " --\n") = text "-- my rank: " ++ decimal (myRank + 1) ++ text " --\n" := by
    rw [← decimalInt_natCast (myRank + 1)]
    rfl
  have hwords : (text "-- my rank: ").length = 12 ∧ (text " --\n").length = 4 := by
    decide
  have hdigits := length_decimal_rank hlegal myRank hlt
  have hlength : (text "-- my rank: " ++ decimal (myRank + 1) ++
      text " --\n").length = 12 + (decimal (myRank + 1)).length + 4 := by
    rw [List.length_append, List.length_append, hwords.left, hwords.right]
  unfold showMyRank
  rw [payloads_call, payloads_call, hown]
  simp only
  rw [payloads_call, htop, mapIdx_myRankLine, ← aroundRank_eq, hheader]
  refine paged_sendPages (List.ne_nil_of_length_pos (by omega)) ?_
    (myRankLines_fit hlegal myRank)
  simp only [MESSAGE_SIZE]
  omega

/--
The ranking commands send every line whole: all packets have between 1 and 256
bytes, and together they spell the header and the lines of the window, of which
exactly the user's own is marked.  Stores whose ranking is in this order answer
so.
-/
theorem ranking_pages (hlegal : b.Legal) (hne : b.order ≠ [])
    (hreads : ReadsBoard answers b) :
    (Paged 256 (rankerLines b) (payloads answers sessionId (showRanker sessionId)) ∧
    (payloads answers sessionId (showRanker sessionId)).flatten =
      (rankerLines b).flatten ∧
    forall myRank, b.rankOf (answers (.getUserId sessionId)) = some myRank ->
      Paged 256 (myRankLines b myRank)
        (payloads answers sessionId (showMyRank sessionId)) ∧
      (payloads answers sessionId (showMyRank sessionId)).flatten =
        (myRankLines b myRank).flatten ∧
      exists own, b.entries[myRank]? = some own ∧
        own.userId = answers (.getUserId sessionId) ∧
        (myRankLines b myRank).filter (fun line => (text "> ").isPrefixOf line) =
          [myRankLine myRank (own, myRank)]) ∧
    forall (pg : Postgres double) (shard : Nat) (msg : ShardMsg)
      (e : Environment double) (s : Stores pg),
      s.ranking.board = b -> e.faults 1 = false ->
      ReadsBoard (fun o => (s.perform shard msg e o).1) b := by
  have hranker : Paged 256 (rankerLines b)
      (payloads answers sessionId (showRanker sessionId)) :=
    paged_showRanker hlegal hne hreads
  refine ⟨⟨hranker, hranker.flatten, ?_⟩, ?_⟩
  · intro myRank hrank
    have hmine : Paged 256 (myRankLines b myRank)
        (payloads answers sessionId (showMyRank sessionId)) :=
      paged_showMyRank hlegal hreads hrank
    rcases rankOf_eq_some hrank with ⟨own, hown, hid⟩
    exact ⟨hmine, hmine.flatten, own, hown, hid, marked_myRankLines hown⟩
  · intro pg shard msg e s hboard he
    rw [← hboard]
    exact s.readsBoard shard msg he

end Pages

/-- Users 7 and 3, of whom only the first has a name. -/
def smallRanking : Ranking where
  power := (AList.insert (decimal 3) 10 ∅).insert (decimal 7) 30
  names := AList.insert (decimal 7) (text "mina") ∅

def smallBoard : Board where
  order := [(decimal 7, 30), (decimal 3, 10)]
  names := smallRanking.names

theorem entries_smallRanking :
    smallRanking.power.entries = [⟨decimal 7, 30⟩, ⟨decimal 3, 10⟩] := by
  decide +kernel

theorem board_smallRanking : smallRanking.board = smallBoard := by
  have horder : smallRanking.byRank = smallBoard.order := by
    unfold Ranking.byRank
    rw [entries_smallRanking]
    exact List.mergeSort_of_pairwise (by decide +kernel)
  unfold Ranking.board
  rw [horder]
  rfl

theorem legal_smallBoard : smallBoard.Legal := by
  rw [← board_smallRanking]
  apply Board.legal_board
  · intro member score hscore
    have hentry := AList.mem_lookup_iff.mp hscore
    rw [entries_smallRanking] at hentry
    rcases List.mem_cons.mp hentry with hmina | hother
    · cases hmina
      exact ⟨⟨7, by decide, rfl⟩, by decide⟩
    · cases List.mem_singleton.mp hother
      exact ⟨⟨3, by decide, rfl⟩, by decide⟩
  · intro member name hname
    have hmina : (⟨member, name⟩ : Sigma fun _ : List UInt8 => List UInt8) =
        ⟨decimal 7, text "mina"⟩ :=
      List.mem_singleton.mp (AList.mem_lookup_iff.mp hname)
    cases hmina
    decide

/-- The stores answer user 3 from this ranking. -/
def boardAnswers (b : Board) : (o : Op Nat) -> Answer o
  | .getUserId _ => 3
  | .rankTop start stop => b.top start stop
  | .rankOf userId => (b.rankOf userId).map fun i => (i : Int)
  | o => userAnswers 0 [] ⟨[], [], []⟩ o

/-- Stores with this ranking and no users, and nothing that fails. -/
def rankedStores : Stores percentServer :=
  Stores.boot 8 ⟨∅, ∅⟩ ∅ smallRanking

def reached : Environment Nat where
  faults := fun _ => false
  newId := 0
  posts := fun _ => .started
  draw := 0
  real := 0
  answers := boardAnswers smallBoard

theorem ranking_pages_small :
    (payloads (boardAnswers smallBoard) 5 (showRanker 5)).flatten =
        (rankerLines smallBoard).flatten ∧
      (payloads (boardAnswers smallBoard) 5 (showMyRank 5)).flatten =
        text "-- my rank: 2 --\n  1. mina  power=30\n> 2. unknown  power=10\n" ∧
      (rankedStores.perform 0 { pkt := makePacket 0 (text "/r") } reached (.rankOf 3)).1 = some 1 := by
  have hreads : ReadsBoard (boardAnswers smallBoard) smallBoard :=
    ⟨fun _ _ => rfl, fun _ => rfl⟩
  have hpages : (_ ∧
      (payloads (boardAnswers smallBoard) 5 (showRanker 5)).flatten = _ ∧ _) ∧ _ :=
    ranking_pages legal_smallBoard (List.cons_ne_nil _ _) hreads
  have hrank : smallBoard.rankOf (boardAnswers smallBoard (.getUserId 5)) = some 1 := by
    decide +kernel
  have hstores := hpages.right percentServer 0 { pkt := makePacket 0 (text "/r") } reached
    rankedStores board_smallRanking rfl
  refine ⟨hpages.left.right.left,
    (hpages.left.right.right 1 hrank).right.left.trans ?_, (hstores.rankOf 3).trans ?_⟩
  · decide +kernel
  · decide +kernel

end Consumers
end ContentServer
