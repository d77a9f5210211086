import ContentServer.Foundation.Memory

/-!
# The byte ring buffer

`RingBuffer` keeps a 4096-byte array and two indices.  One slot always stays
empty, so equal indices mean an empty buffer.  Writing bytes and publishing
them (`moveTail`) are separate calls, as are reading (`peek`) and dropping
(`moveHead`).

The first part follows `RingBuffer.cpp`; the second part relates every call to
the byte queue that the buffer stands for.
-/

namespace ContentServer
namespace Buffers

open Foundation

abbrev BUFFER_SIZE : Nat := 4096

instance : NeZero BUFFER_SIZE := ⟨by decide⟩

/-- The array and its indices; both indices stay inside the array. -/
structure RingBuffer where
  buffer : Memory BUFFER_SIZE UInt8
  head : Nat
  tail : Nat
  head_lt : head < BUFFER_SIZE
  tail_lt : tail < BUFFER_SIZE

/-- Copy `src` over the bytes of `dest` that start at `offset`. -/
def memcpy (dest : List UInt8) (offset : Nat) (src : List UInt8) : List UInt8 :=
  dest.take offset ++ src ++ dest.drop (offset + src.length)

namespace RingBuffer

-- The source computes `tail_ - head_ + BUFFER_SIZE` in `int`; the summands are
-- reordered because this is a natural number.
def getUsedSize (r : RingBuffer) : Nat :=
  (r.tail + BUFFER_SIZE - r.head) % BUFFER_SIZE

def getEmptySize (r : RingBuffer) : Nat :=
  BUFFER_SIZE - r.getUsedSize - 1

def getLinearUsedSize (r : RingBuffer) : Nat :=
  if r.tail = r.head then 0
  else if r.head < r.tail then r.tail - r.head
  else BUFFER_SIZE - r.head

def getLinearEmptySize (r : RingBuffer) : Nat :=
  if r.tail ≥ r.head then BUFFER_SIZE - r.tail - 1
  else r.head - r.tail - 1

/-- Index of the byte that `GetHead` points at. -/
def getHead (r : RingBuffer) : Nat := r.head

/-- Index of the byte that `GetTail` points at. -/
def getTail (r : RingBuffer) : Nat := r.tail

def moveHead (r : RingBuffer) (bytes : Nat) : RingBuffer :=
  { r with
    head := (r.head + bytes) % BUFFER_SIZE
    head_lt := Nat.mod_lt _ (by decide) }

def moveTail (r : RingBuffer) (bytes : Nat) : RingBuffer :=
  { r with
    tail := (r.tail + bytes) % BUFFER_SIZE
    tail_lt := Nat.mod_lt _ (by decide) }

/-- The contents of `dest` after `Peek(dest, len)`. -/
def peek (r : RingBuffer) (dest : List UInt8) (len : Nat) : List UInt8 :=
  if r.getUsedSize < len then dest
  else if r.tail ≥ r.head then memcpy dest 0 (r.buffer.window r.head len)
  else
    let rightSize := BUFFER_SIZE - r.head
    if len ≤ rightSize then memcpy dest 0 (r.buffer.window r.head len)
    else
      memcpy (memcpy dest 0 (r.buffer.window r.head rightSize)) rightSize
        (r.buffer.window 0 (len - rightSize))

/-- `Write(data, len)` with `len` the length of `data`; `tail` does not move. -/
def write (r : RingBuffer) (data : List UInt8) : RingBuffer × Bool :=
  if data.length > r.getEmptySize then (r, false)
  else
    let rightSize := BUFFER_SIZE - r.tail
    if data.length ≤ rightSize then
      ({ r with buffer := r.buffer.copy r.tail data }, true)
    else
      ({ r with
          buffer :=
            (r.buffer.copy r.tail (data.take rightSize)).copy 0
              (data.drop rightSize) }, true)

def clear (r : RingBuffer) : RingBuffer :=
  { r with head := 0, tail := 0, head_lt := by decide, tail_lt := by decide }

/-- A buffer of zero bytes. -/
def zeroed : RingBuffer where
  buffer := fun _ => 0
  head := 0
  tail := 0
  head_lt := by decide
  tail_lt := by decide

/-- The system places received bytes at `offset`, without moving an index. -/
def fill (r : RingBuffer) (offset : Nat) (data : List UInt8) : RingBuffer :=
  { r with buffer := r.buffer.copy offset data }

/-!
# Sizes

The indices determine every size; no operation on the array changes one.
-/

theorem getUsedSize_lt (r : RingBuffer) : r.getUsedSize < BUFFER_SIZE :=
  Nat.mod_lt _ (by decide)

theorem getUsedSize_add_getEmptySize (r : RingBuffer) :
    r.getUsedSize + r.getEmptySize + 1 = BUFFER_SIZE := by
  have h := r.getUsedSize_lt
  unfold getEmptySize
  omega

theorem getUsedSize_eq (r : RingBuffer) :
    r.getUsedSize =
      if r.head ≤ r.tail then r.tail - r.head
      else r.tail + BUFFER_SIZE - r.head := by
  have hh := r.head_lt
  have ht := r.tail_lt
  simp only [getUsedSize, BUFFER_SIZE] at *
  split <;> omega

@[simp] theorem getUsedSize_clear (r : RingBuffer) :
    r.clear.getUsedSize = 0 := by
  simp [getUsedSize, clear]

@[simp] theorem getUsedSize_fill (r : RingBuffer) (offset : Nat)
    (data : List UInt8) : (r.fill offset data).getUsedSize = r.getUsedSize := rfl

theorem getUsedSize_moveHead (r : RingBuffer) {k : Nat}
    (h : k ≤ r.getUsedSize) :
    (r.moveHead k).getUsedSize = r.getUsedSize - k := by
  have hh := r.head_lt
  have ht := r.tail_lt
  simp only [getUsedSize, moveHead, BUFFER_SIZE] at *
  omega

theorem getUsedSize_moveTail (r : RingBuffer) {k : Nat}
    (h : r.getUsedSize + k < BUFFER_SIZE) :
    (r.moveTail k).getUsedSize = r.getUsedSize + k := by
  have hh := r.head_lt
  have ht := r.tail_lt
  simp only [getUsedSize, moveTail, BUFFER_SIZE] at *
  omega

theorem getLinearUsedSize_le (r : RingBuffer) :
    r.getLinearUsedSize ≤ r.getUsedSize := by
  have hh := r.head_lt
  rw [getUsedSize_eq]
  unfold getLinearUsedSize
  split_ifs <;> omega

theorem getLinearUsedSize_pos_iff (r : RingBuffer) :
    0 < r.getLinearUsedSize <-> 0 < r.getUsedSize := by
  have hh := r.head_lt
  have ht := r.tail_lt
  rw [getUsedSize_eq]
  unfold getLinearUsedSize
  split_ifs <;> omega

theorem head_add_getLinearUsedSize_le (r : RingBuffer) :
    r.getHead + r.getLinearUsedSize ≤ BUFFER_SIZE := by
  have hh := r.head_lt
  have ht := r.tail_lt
  unfold getHead getLinearUsedSize
  split_ifs <;> omega

theorem getLinearEmptySize_le (r : RingBuffer) :
    r.getLinearEmptySize ≤ r.getEmptySize := by
  have hh := r.head_lt
  have ht := r.tail_lt
  unfold getEmptySize
  rw [getUsedSize_eq]
  unfold getLinearEmptySize
  split_ifs <;> omega

theorem tail_add_getLinearEmptySize_lt (r : RingBuffer) :
    r.getTail + r.getLinearEmptySize < BUFFER_SIZE := by
  have hh := r.head_lt
  have ht := r.tail_lt
  unfold getTail getLinearEmptySize
  split_ifs <;> omega

/-!
# The byte queue

`contents` is the queue that the buffer stands for: the used bytes from the
head on, continuing at the start of the array.
-/

def contents (r : RingBuffer) : List UInt8 :=
  r.buffer.window r.head r.getUsedSize

@[simp] theorem length_contents (r : RingBuffer) :
    r.contents.length = r.getUsedSize := by
  simp [contents]

@[simp] theorem contents_clear (r : RingBuffer) : r.clear.contents = [] := by
  simp [contents]

theorem contents_eq_nil_iff (r : RingBuffer) :
    r.contents = [] <-> r.getUsedSize = 0 := by
  rw [← length_contents, List.length_eq_zero_iff]

theorem take_contents (r : RingBuffer) {k : Nat} (h : k ≤ r.getUsedSize) :
    r.contents.take k = r.buffer.window r.head k :=
  Memory.take_window _ _ h

theorem contents_moveHead (r : RingBuffer) {k : Nat}
    (h : k ≤ r.getUsedSize) :
    (r.moveHead k).contents = r.contents.drop k := by
  unfold contents
  rw [Memory.drop_window _ _ h, getUsedSize_moveHead r h]
  exact Memory.window_congr _ _ (by simp [moveHead])

theorem contents_moveTail (r : RingBuffer) {k : Nat}
    (h : r.getUsedSize + k < BUFFER_SIZE) :
    (r.moveTail k).contents = r.contents ++ r.buffer.window r.tail k := by
  have hh := r.head_lt
  have ht := r.tail_lt
  unfold contents
  rw [getUsedSize_moveTail r h]
  show r.buffer.window r.head (r.getUsedSize + k) = _
  rw [Memory.window_add]
  congr 1
  apply Memory.window_congr
  simp only [getUsedSize, BUFFER_SIZE] at *
  omega

/-- The bytes handed to a linear read are a prefix of the queue. -/
theorem linear_window_eq (r : RingBuffer) :
    r.buffer.window r.getHead r.getLinearUsedSize =
      r.contents.take r.getLinearUsedSize :=
  (r.take_contents r.getLinearUsedSize_le).symm

theorem memcpy_zero (dest src : List UInt8) :
    memcpy dest 0 src = src ++ dest.drop src.length := by
  simp [memcpy]

/-- A peek within the used size copies the first `len` queued bytes. -/
theorem peek_eq (r : RingBuffer) (dest : List UInt8) {len : Nat}
    (hused : len ≤ r.getUsedSize) :
    r.peek dest len = r.contents.take len ++ dest.drop len := by
  have hh := r.head_lt
  simp only [peek]
  rw [if_neg (by omega), r.take_contents hused]
  split_ifs with hlinear hright
  · rw [memcpy_zero, Memory.length_window]
  · rw [memcpy_zero, Memory.length_window]
  · -- the wrapped case glues the two linear pieces together
    have hsplit : len = (BUFFER_SIZE - r.head) + (len - (BUFFER_SIZE - r.head)) := by
      omega
    have hwrap : (r.head + (BUFFER_SIZE - r.head)) % BUFFER_SIZE = 0 % BUFFER_SIZE := by
      rw [Nat.add_sub_of_le (by omega)]
      simp
    rw [memcpy_zero, Memory.length_window]
    conv_rhs => rw [hsplit, Memory.window_add]
    rw [Memory.window_congr r.buffer _ hwrap]
    unfold memcpy
    rw [List.take_left' (Memory.length_window _ _ _), Memory.length_window,
      List.drop_append, Memory.length_window, List.drop_of_length_le (by simp),
      List.drop_drop]
    simp [Nat.add_sub_of_le (Nat.le_of_not_le hright)]

/-!
# Placing bytes

Both the system (`fill`) and `write` copy into free cells only, so queued bytes
keep their values until the indices move; afterwards exactly the placed bytes
have joined the queue.
-/

/-- No queued byte lies in the `len` cells from `start` on. -/
def FreeCells (r : RingBuffer) (start len : Nat) : Prop :=
  forall i, i < r.getUsedSize ->
    (r.head + i) % BUFFER_SIZE < start ∨
      start + len ≤ (r.head + i) % BUFFER_SIZE

theorem freeCells_tail (r : RingBuffer) {len : Nat}
    (hempty : len ≤ r.getEmptySize) : r.FreeCells r.tail len := by
  have hh := r.head_lt
  have ht := r.tail_lt
  intro i hi
  unfold getEmptySize at hempty
  rw [getUsedSize_eq] at hi hempty
  simp only [BUFFER_SIZE] at *
  split_ifs at hi hempty <;> omega

theorem freeCells_wrapped (r : RingBuffer) {len : Nat}
    (hempty : len ≤ r.getEmptySize) (hwrap : BUFFER_SIZE - r.tail ≤ len) :
    r.FreeCells 0 (len - (BUFFER_SIZE - r.tail)) := by
  have hh := r.head_lt
  have ht := r.tail_lt
  intro i hi
  unfold getEmptySize at hempty
  rw [getUsedSize_eq] at hi hempty
  simp only [BUFFER_SIZE] at *
  split_ifs at hi hempty <;> omega

theorem cell_copy_of_free (r : RingBuffer) {start : Nat} {data : List UInt8}
    (hfree : r.FreeCells start data.length) {i : Nat}
    (hi : i < r.getUsedSize) :
    (r.buffer.copy start data).cell (r.head + i) = r.buffer.cell (r.head + i) :=
  Memory.cell_copy_outside _ (hfree i hi)

theorem contents_fill (r : RingBuffer) {start : Nat} {data : List UInt8}
    (hfree : r.FreeCells start data.length) :
    (r.fill start data).contents = r.contents :=
  Memory.window_ext fun _ hi => r.cell_copy_of_free hfree hi

/-- Filling the posted cells and then publishing them appends the bytes. -/
theorem contents_fill_moveTail (r : RingBuffer) {data : List UInt8}
    (h : data.length ≤ r.getLinearEmptySize) :
    ((r.fill r.getTail data).moveTail data.length).contents =
      r.contents ++ data := by
  have hempty := r.getLinearEmptySize_le
  have hused := r.getUsedSize_add_getEmptySize
  have hlinear := r.tail_add_getLinearEmptySize_lt
  have hfree : r.FreeCells r.tail data.length :=
    r.freeCells_tail (by omega)
  rw [contents_moveTail _ (by rw [getUsedSize_fill]; omega)]
  congr 1
  · exact r.contents_fill hfree
  · exact Memory.window_copy_self _ (by unfold getTail at *; omega)

theorem write_of_not_fits (r : RingBuffer) {data : List UInt8}
    (h : r.getEmptySize < data.length) : r.write data = (r, false) := by
  unfold write
  rw [if_pos h]

theorem write_snd_of_fits (r : RingBuffer) {data : List UInt8}
    (h : data.length ≤ r.getEmptySize) : (r.write data).2 = true := by
  simp only [write]
  rw [if_neg (by omega)]
  split_ifs <;> rfl

@[simp] theorem write_head (r : RingBuffer) (data : List UInt8) :
    (r.write data).1.head = r.head := by
  simp only [write]
  split_ifs <;> rfl

@[simp] theorem write_tail (r : RingBuffer) (data : List UInt8) :
    (r.write data).1.tail = r.tail := by
  simp only [write]
  split_ifs <;> rfl

@[simp] theorem getUsedSize_write (r : RingBuffer) (data : List UInt8) :
    (r.write data).1.getUsedSize = r.getUsedSize := by
  simp [getUsedSize]

/-- `write` overwrites no queued byte. -/
theorem cell_write (r : RingBuffer) (data : List UInt8) {i : Nat}
    (hi : i < r.getUsedSize) :
    (r.write data).1.buffer.cell (r.head + i) = r.buffer.cell (r.head + i) := by
  simp only [write]
  split_ifs with hfits hlinear
  · rfl
  · exact r.cell_copy_of_free (r.freeCells_tail (by omega)) hi
  · have hright : (data.take (BUFFER_SIZE - r.tail)).length =
        BUFFER_SIZE - r.tail := by
      rw [List.length_take]
      omega
    have hwrapped : r.FreeCells 0 (data.length - (BUFFER_SIZE - r.tail)) :=
      r.freeCells_wrapped (by omega) (by omega)
    have htail : r.FreeCells r.tail (BUFFER_SIZE - r.tail) :=
      r.freeCells_tail (by omega)
    rw [Memory.cell_copy_outside _ (by rw [List.length_drop]; exact hwrapped i hi)]
    exact r.cell_copy_of_free (by rw [hright]; exact htail) hi

theorem contents_write (r : RingBuffer) (data : List UInt8) :
    (r.write data).1.contents = r.contents := by
  unfold contents
  rw [getUsedSize_write, write_head]
  exact Memory.window_ext fun _ hi => r.cell_write data hi

/-- A write that fits leaves exactly `data` in the cells from the tail on. -/
theorem window_write (r : RingBuffer) {data : List UInt8}
    (h : data.length ≤ r.getEmptySize) :
    (r.write data).1.buffer.window r.tail data.length = data := by
  have ht := r.tail_lt
  simp only [write]
  rw [if_neg (by omega)]
  split_ifs with hlinear
  · exact Memory.window_copy_self _ (by omega)
  · have hfits : data.length ≤ BUFFER_SIZE := by
      unfold getEmptySize at h
      omega
    have hwrap : BUFFER_SIZE - r.tail ≤ data.length := by omega
    exact Memory.window_copy_wrapped _ ht hwrap hfits

/-- A write that fits and is then published appends exactly `data`. -/
theorem contents_write_moveTail (r : RingBuffer) {data : List UInt8}
    (h : data.length ≤ r.getEmptySize) :
    ((r.write data).1.moveTail data.length).contents = r.contents ++ data := by
  have hused := r.getUsedSize_add_getEmptySize
  rw [contents_moveTail _ (by rw [getUsedSize_write]; omega),
    contents_write, write_tail, window_write r h]

theorem getUsedSize_write_moveTail (r : RingBuffer) {data : List UInt8}
    (h : data.length ≤ r.getEmptySize) :
    ((r.write data).1.moveTail data.length).getUsedSize =
      r.getUsedSize + data.length := by
  rw [← length_contents, contents_write_moveTail r h, List.length_append,
    length_contents]

end RingBuffer
end Buffers
end ContentServer
