import ContentServer.Storage.Ranking

/-!
# The ranking in order

The ranking as `Top` and `RankOf` see it while nothing changes: the members in
one fixed order with their scores, and the hash of names.  `Top` asks for the
names of a whole range at once and puts them together with the scores by
position.
-/

namespace ContentServer
namespace Storage

open Foundation

structure Board where
  /-- Members and scores, the first one ranked highest. -/
  order : List (List UInt8 × Nat)
  names : Table (List UInt8) (List UInt8)

namespace Board

def zrevrange (b : Board) (start stop : Int) : List (List UInt8 × Nat) :=
  let size : Int := b.order.length
  let first := max 0 (if start < 0 then start + size else start)
  let last := min (size - 1) (if stop < 0 then stop + size else stop)
  if first > last then []
  else (b.order.drop first.toNat).take (last - first + 1).toNat

/-- One answer for each field, in the order of the fields. -/
def hmget (b : Board) (fields : List (List UInt8)) : List (Option (List UInt8)) :=
  fields.map fun field => b.names.lookup field

/-- The loop of `Top` from position `i` on.  A member that is no number throws;
the entries before it are returned. -/
def pushEntries (names : List (Option (List UInt8))) :
    Nat -> List (List UInt8 × Nat) -> List RankEntry
  | _, [] => []
  | i, (member, score) :: rest =>
      match parseUint member 64 with
      | none => []
      | some userId =>
          { userId := userId
            totalPower := score
            name := names[i]?.join.getD [] } :: pushEntries names (i + 1) rest

def top (b : Board) (start stop : Int) : List RankEntry :=
  let buf := b.zrevrange start stop
  if buf.isEmpty then []
  else pushEntries (b.hmget (buf.map Prod.fst)) 0 buf

/-- `RankOf`: the position of a user's member. -/
def rankOf (b : Board) (userId : Nat) : Option Nat :=
  b.order.findIdx? fun e => e.1 == decimal userId

/-- The entry of a member. -/
def entryOf (b : Board) (e : List UInt8 × Nat) : RankEntry where
  userId := digitsValue e.1
  totalPower := e.2
  name := (b.names.lookup e.1).getD []

/-- All entries in order. -/
def entries (b : Board) : List RankEntry :=
  b.order.map b.entryOf

end Board

/-- The order in which the server keeps a ranking. -/
def Ranking.board (r : Ranking) : Board :=
  ⟨r.byRank, r.names⟩

/-!
# Entries by position
-/

/-- The answer for a field stands at the position of the field. -/
theorem Board.getElem_hmget (b : Board) (before rest : List (List UInt8 × Nat))
    (member : List UInt8) (score : Nat) :
    (b.hmget ((before ++ (member, score) :: rest).map Prod.fst))[before.length]?.join =
      b.names.lookup member := by
  unfold hmget
  rw [List.map_append, List.map_append, List.getElem?_append_right (by simp)]
  simp

theorem Board.pushEntries_eq (r : Ranking) (rest : List (List UInt8 × Nat)) :
    forall before : List (List UInt8 × Nat),
      pushEntries (r.board.hmget ((before ++ rest).map Prod.fst)) before.length rest =
        r.readEntries rest := by
  induction rest with
  | nil =>
      intro before
      rfl
  | cons p rest ih =>
      intro before
      rcases p with ⟨member, score⟩
      have hname := r.board.getElem_hmget before rest member score
      have hlater := ih (before ++ [(member, score)])
      rw [List.append_assoc, List.length_append, List.length_singleton,
        List.singleton_append] at hlater
      simp only [pushEntries, Ranking.readEntries, hname, hlater]
      cases parseUint member 64 <;> rfl

/-- The entries put together by position are those read one by one. -/
theorem Ranking.top_eq_board (r : Ranking) (start stop : Int) :
    r.top start stop false = r.board.top start stop := by
  have hread := Board.pushEntries_eq r (r.zrevrange start stop) []
  show r.readEntries (r.zrevrange start stop) =
    if (r.zrevrange start stop).isEmpty then []
    else Board.pushEntries (r.board.hmget ((r.zrevrange start stop).map Prod.fst)) 0
      (r.zrevrange start stop)
  split
  · rename_i hempty
    rw [List.isEmpty_iff.mp hempty]
    rfl
  · exact hread.symm

theorem Ranking.rankOf_eq_board (r : Ranking) (userId : Nat) :
    r.rankOf userId false = (r.board.rankOf userId).map fun i => (i : Int) := rfl

namespace Board

/-- What the server and the bounds on the data ensure. -/
structure Legal (b : Board) : Prop where
  members : forall e, e ∈ b.order -> exists userId, userId < 2 ^ 64 ∧
    e.1 = decimal userId
  nodup : (b.order.map Prod.fst).Nodup
  scores : forall e, e ∈ b.order -> e.2 < 2 ^ 53
  names : forall member name, b.names.lookup member = some name -> name.length ≤ 9

variable {b : Board}

/-- Members are keys of a ranking, so none occurs twice in its order. -/
theorem legal_board {r : Ranking}
    (hpower : forall member score, r.power.lookup member = some score ->
      (exists userId, userId < 2 ^ 64 ∧ member = decimal userId) ∧ score < 2 ^ 53)
    (hnames : forall member name, r.names.lookup member = some name ->
      name.length ≤ 9) : r.board.Legal where
  members := fun e he => (hpower e.1 e.2 (Ranking.lookup_of_mem_byRank he)).left
  scores := fun e he => (hpower e.1 e.2 (Ranking.lookup_of_mem_byRank he)).right
  names := hnames
  nodup := by
    have hkeys : (r.power.entries.map fun e => (e.1, e.2)).map Prod.fst =
        r.power.entries.keys := List.map_map
    have hperm : (r.byRank.map Prod.fst).Perm r.power.entries.keys := by
      rw [← hkeys]
      exact (List.mergeSort_perm _ _).map Prod.fst
    exact hperm.nodup_iff.mpr r.power.nodupKeys

theorem Legal.parse (h : b.Legal) {e : List UInt8 × Nat} (he : e ∈ b.order) :
    parseUint e.1 64 = some (b.entryOf e).userId := by
  rcases h.members e he with ⟨userId, hlt, hmember⟩
  show parseUint e.1 64 = some (digitsValue e.1)
  rw [hmember, parseUint_decimal hlt, digitsValue_decimal]

theorem Legal.pushEntries (h : b.Legal) {rest : List (List UInt8 × Nat)} :
    forall before : List (List UInt8 × Nat), (forall e, e ∈ rest -> e ∈ b.order) ->
      pushEntries (b.hmget ((before ++ rest).map Prod.fst)) before.length rest =
        rest.map b.entryOf := by
  induction rest with
  | nil =>
      intro before _
      rfl
  | cons p rest ih =>
      intro before hmem
      rcases p with ⟨member, score⟩
      have hp := hmem (member, score) List.mem_cons_self
      have hname := b.getElem_hmget before rest member score
      have hlater := ih (before ++ [(member, score)])
        fun e he => hmem e (List.mem_cons_of_mem _ he)
      rw [List.append_assoc, List.length_append, List.length_singleton,
        List.singleton_append] at hlater
      have hparse := h.parse hp
      simp only at hparse
      simp only [Board.pushEntries, hparse, hname, hlater, List.map_cons]
      rfl

/-- `Top` returns the entries of a range of positions. -/
theorem Legal.top (h : b.Legal) (start stop : Int) :
    b.top start stop = (b.zrevrange start stop).map b.entryOf := by
  have hmem : forall e, e ∈ b.zrevrange start stop -> e ∈ b.order := by
    intro e he
    unfold zrevrange at he
    simp only at he
    split_ifs at he
    all_goals first
      | cases he
      | exact List.mem_of_mem_drop (List.mem_of_mem_take he)
  have hpush := h.pushEntries [] hmem
  rw [List.nil_append, List.length_nil] at hpush
  unfold Board.top
  simp only
  split
  · rename_i hempty
    rw [List.isEmpty_iff.mp hempty]
    rfl
  · exact hpush

/-- A range that begins inside the ranking, clipped at its end. -/
theorem zrevrange_of_lt (b : Board) (first last : Nat) (hle : first ≤ last)
    (hlt : first < b.order.length) :
    b.zrevrange first last = (b.order.drop first).take (last + 1 - first) := by
  unfold zrevrange
  simp only
  rw [if_neg (by omega), if_neg (by omega), if_neg (by omega)]
  have hfirst : (max 0 (first : Int)).toNat = first := by omega
  rw [hfirst]
  rcases Nat.lt_or_ge last b.order.length with hin | hout
  · congr 1
    omega
  · rw [List.take_of_length_le, List.take_of_length_le]
    · rw [List.length_drop]
      omega
    · rw [List.length_drop]
      omega

/-- There are no more members than 64-bit numbers. -/
theorem Legal.length_le (h : b.Legal) : b.order.length ≤ 2 ^ 64 := by
  have hinj : forall x, x ∈ b.order.map Prod.fst -> forall y, y ∈ b.order.map Prod.fst ->
      digitsValue x = digitsValue y -> x = y := by
    intro x hx y hy hsame
    rcases List.mem_map.mp hx with ⟨e, he, rfl⟩
    rcases List.mem_map.mp hy with ⟨f, hf, rfl⟩
    rcases h.members e he with ⟨u, _, hu⟩
    rcases h.members f hf with ⟨v, _, hv⟩
    rw [hu, hv, digitsValue_decimal, digitsValue_decimal] at hsame
    rw [hu, hv, hsame]
  have hnodup : ((b.order.map Prod.fst).map digitsValue).Nodup :=
    h.nodup.map_on hinj
  have hbounded : forall n, n ∈ (b.order.map Prod.fst).map digitsValue ->
      n < 2 ^ 64 := by
    intro n hn
    rcases List.mem_map.mp hn with ⟨x, hx, rfl⟩
    rcases List.mem_map.mp hx with ⟨e, he, rfl⟩
    rcases h.members e he with ⟨u, hlt, hu⟩
    rw [hu, digitsValue_decimal]
    exact hlt
  have hsubset : ((b.order.map Prod.fst).map digitsValue).toFinset ⊆
      Finset.range (2 ^ 64) := by
    intro n hn
    exact Finset.mem_range.mpr (hbounded n (List.mem_toFinset.mp hn))
  have hcard := Finset.card_le_card hsubset
  rw [List.toFinset_card_of_nodup hnodup, Finset.card_range, List.length_map,
    List.length_map] at hcard
  exact hcard

end Board

end Storage
end ContentServer
