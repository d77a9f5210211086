import ContentServer.Buffers.RingBuffer
import ContentServer.Foundation.BoundedQueue
import ContentServer.Foundation.Simulation

/-!
# The ring buffer as a bounded queue

`RingBuffer` behaves as a queue of at most 4095 bytes under any sequence of the
calls that sessions make.  Next to the behaviour stand the index ranges that
the calls copy: they lie inside the array, and what is written over is free.
-/

namespace ContentServer
namespace Buffers

open Foundation

/-- One slot of the array stays empty. -/
abbrev QUEUE_SIZE : Nat := BUFFER_SIZE - 1

abbrev ByteQueue : Type := BoundedQueue UInt8 QUEUE_SIZE

/-- A linear copy into the array: the first index and the bytes. -/
structure Copy where
  start : Nat
  bytes : List UInt8

namespace RingBuffer

/-- The calls on a ring buffer.  A write that succeeds is published at once, and
so are bytes that were placed behind the tail. -/
def call : Machine RingBuffer (QueueCall UInt8) (QueueAnswer UInt8)
  | r, .write data =>
      match r.write data with
      | (written, true) => some (written.moveTail data.length, [.written true])
      | (same, false) => some (same, [.written false])
  | r, .place data =>
      if data.length ≤ r.getLinearEmptySize then
        some ((r.fill r.getTail data).moveTail data.length, [])
      else none
  | r, .peek dest len => some (r, [.peeked (r.peek dest len)])
  | r, .drop count =>
      if count ≤ r.getUsedSize then some (r.moveHead count, [])
      else none
  | r, .clear => some (r.clear, [])

/-- The copies into the array that a `write` makes when `data` fits. -/
def writeCopies (r : RingBuffer) (data : List UInt8) : List Copy :=
  let rightSize := BUFFER_SIZE - r.tail
  if data.length ≤ rightSize then [⟨r.tail, data⟩]
  else [⟨r.tail, data.take rightSize⟩, ⟨0, data.drop rightSize⟩]

/-- The ranges of the array, by first index and length, that a `peek` of at
most the used size copies out. -/
def peekRanges (r : RingBuffer) (len : Nat) : List (Nat × Nat) :=
  let rightSize := BUFFER_SIZE - r.head
  if r.tail ≥ r.head ∨ len ≤ rightSize then [(r.head, len)]
  else [(r.head, rightSize), (0, len - rightSize)]

/-- Make several copies, one after the other. -/
def copyAll (buffer : Memory BUFFER_SIZE UInt8) (copies : List Copy) :
    Memory BUFFER_SIZE UInt8 :=
  copies.foldl (fun m c => m.copy c.start c.bytes) buffer

theorem write_of_fits (r : RingBuffer) {data : List UInt8}
    (h : data.length ≤ r.getEmptySize) :
    r.write data =
      ({ r with buffer := copyAll r.buffer (r.writeCopies data) }, true) := by
  unfold write writeCopies
  rw [if_neg (Nat.not_lt.mpr h)]
  simp only
  split <;> rfl

theorem peek_of_fits (r : RingBuffer) (dest : List UInt8) {len : Nat}
    (h : len ≤ r.getUsedSize) :
    r.peek dest len =
      (r.peekRanges len).flatMap (fun range => r.buffer.window range.1 range.2) ++
        dest.drop len := by
  have hh := r.head_lt
  rw [r.peek_eq dest h, r.take_contents h]
  unfold peekRanges
  simp only
  split_ifs with hone
  · rw [List.flatMap_singleton]
  · have hwrap : (r.head + (BUFFER_SIZE - r.head)) % BUFFER_SIZE =
        0 % BUFFER_SIZE := by
      rw [Nat.add_sub_of_le (by omega)]
      simp
    have hsplit : r.buffer.window r.head len =
        r.buffer.window r.head (BUFFER_SIZE - r.head) ++
          r.buffer.window 0 (len - (BUFFER_SIZE - r.head)) := by
      rw [← Memory.window_congr r.buffer _ hwrap, ← Memory.window_add]
      congr 1
      omega
    rw [hsplit]
    simp

theorem peek_of_not_fits (r : RingBuffer) (dest : List UInt8) {len : Nat}
    (h : r.getUsedSize < len) : r.peek dest len = dest := by
  unfold peek
  rw [if_pos h]

/-!
# The refinement
-/

/-- The bytes of the ring are the items of the queue. -/
def Stores (r : RingBuffer) (q : ByteQueue) : Prop :=
  r.contents = q.items

theorem Stores.length {r : RingBuffer} {q : ByteQueue} (h : r.Stores q) :
    r.getUsedSize = q.items.length := by
  rw [← length_contents, h]

/-- Bytes fit into the ring exactly if they fit into the queue. -/
theorem Stores.fits_iff {r : RingBuffer} {q : ByteQueue} (h : r.Stores q)
    (len : Nat) : len ≤ r.getEmptySize <-> q.items.length + len ≤ QUEUE_SIZE := by
  have htotal := r.getUsedSize_add_getEmptySize
  rw [h.length] at htotal
  simp only [QUEUE_SIZE, BUFFER_SIZE] at *
  omega

theorem Stores.peek {r : RingBuffer} {q : ByteQueue} (h : r.Stores q)
    (dest : List UInt8) (len : Nat) : r.peek dest len = q.peek dest len := by
  unfold BoundedQueue.peek
  by_cases hused : len ≤ r.getUsedSize
  · rw [r.peek_eq dest hused, h, if_pos (by rw [← h.length]; exact hused)]
  · rw [r.peek_of_not_fits dest (Nat.not_le.mp hused),
      if_neg (by rw [← h.length]; exact hused)]

/-- A queue answers every call of a ring buffer that stores it. -/
theorem simulates_call :
    BoundedQueue.call.Simulates call Stores := by
  intro r q c s answers hstores hcall
  cases c with
  | write data =>
      by_cases hfits : data.length ≤ r.getEmptySize
      · have hqueue := (hstores.fits_iff data.length).mp hfits
        have hwritten := contents_write_moveTail r hfits
        simp only [call] at hcall
        rw [write_of_fits r hfits] at hcall hwritten
        cases hcall
        refine ⟨q.append data hqueue, ?_, ?_⟩
        · simp only [BoundedQueue.call]
          rw [dif_pos hqueue]
        · show RingBuffer.contents _ = q.items ++ data
          rw [← hstores]
          exact hwritten
      · have hqueue := fun h => hfits ((hstores.fits_iff data.length).mpr h)
        simp only [call] at hcall
        rw [write_of_not_fits r (Nat.not_le.mp hfits)] at hcall
        cases hcall
        refine ⟨q, ?_, hstores⟩
        simp only [BoundedQueue.call]
        rw [dif_neg hqueue]
  | place data =>
      simp only [call] at hcall
      split at hcall
      · rename_i hlinear
        have hqueue := (hstores.fits_iff data.length).mp
          (hlinear.trans r.getLinearEmptySize_le)
        cases hcall
        refine ⟨q.append data hqueue, ?_, ?_⟩
        · simp only [BoundedQueue.call]
          rw [dif_pos hqueue]
        · show RingBuffer.contents _ = q.items ++ data
          rw [← hstores]
          exact contents_fill_moveTail r hlinear
      · cases hcall
  | peek dest len =>
      cases hcall
      refine ⟨q, ?_, hstores⟩
      simp only [BoundedQueue.call]
      rw [hstores.peek]
  | drop count =>
      simp only [call] at hcall
      split at hcall
      · rename_i hused
        cases hcall
        refine ⟨q.dropFront count, ?_, ?_⟩
        · simp only [BoundedQueue.call]
          rw [if_pos (by rw [← hstores.length]; exact hused)]
        · show RingBuffer.contents _ = q.items.drop count
          rw [← hstores]
          exact contents_moveHead r hused
      · cases hcall
  | clear =>
      cases hcall
      exact ⟨BoundedQueue.empty, rfl, contents_clear r⟩

/-!
# Index ranges
-/

theorem peekRanges_inside (r : RingBuffer) {len : Nat} (h : len ≤ r.getUsedSize)
    {range : Nat × Nat} (hrange : range ∈ r.peekRanges len) :
    range.1 + range.2 ≤ BUFFER_SIZE := by
  have hh := r.head_lt
  have ht := r.tail_lt
  rw [getUsedSize_eq] at h
  unfold peekRanges at hrange
  simp only at hrange
  split at hrange
  · rw [List.mem_singleton.mp hrange]
    split at h <;> omega
  · rcases List.mem_cons.mp hrange with rfl | hsecond
    · show r.head + (BUFFER_SIZE - r.head) ≤ BUFFER_SIZE
      omega
    · rw [List.mem_singleton.mp hsecond]
      split at h <;> omega

theorem writeCopies_inside (r : RingBuffer) {data : List UInt8}
    (h : data.length ≤ r.getEmptySize) {c : Copy}
    (hc : c ∈ r.writeCopies data) :
    c.start + c.bytes.length ≤ BUFFER_SIZE ∧
      r.FreeCells c.start c.bytes.length := by
  have ht := r.tail_lt
  have htotal := r.getUsedSize_add_getEmptySize
  unfold writeCopies at hc
  simp only at hc
  split at hc
  · rw [List.mem_singleton.mp hc]
    show r.tail + data.length ≤ BUFFER_SIZE ∧ r.FreeCells r.tail data.length
    exact ⟨by omega, r.freeCells_tail h⟩
  · rcases List.mem_cons.mp hc with rfl | hsecond
    · have hlen : (data.take (BUFFER_SIZE - r.tail)).length =
          BUFFER_SIZE - r.tail := by
        rw [List.length_take]
        omega
      rw [hlen]
      show r.tail + (BUFFER_SIZE - r.tail) ≤ BUFFER_SIZE ∧
        r.FreeCells r.tail (BUFFER_SIZE - r.tail)
      exact ⟨by omega, r.freeCells_tail (by omega)⟩
    · rw [List.mem_singleton.mp hsecond, List.length_drop]
      show 0 + (data.length - (BUFFER_SIZE - r.tail)) ≤ BUFFER_SIZE ∧
        r.FreeCells 0 (data.length - (BUFFER_SIZE - r.tail))
      exact ⟨by omega, r.freeCells_wrapped h (by omega)⟩

/-- What a ring buffer shows of the queue that it stores. -/
structure Shows (r : RingBuffer) (q : ByteQueue) : Prop where
  head_lt : r.head < BUFFER_SIZE
  tail_lt : r.tail < BUFFER_SIZE
  stores : r.Stores q
  used : r.getUsedSize = q.items.length
  total : r.getUsedSize + r.getEmptySize = QUEUE_SIZE
  /-- A write of any length succeeds exactly if the bytes fit. -/
  write_iff : forall data, (r.write data).2 = true <->
    data.length ≤ r.getEmptySize
  write_kept : forall data, r.getEmptySize < data.length ->
    (r.write data).1 = r
  write_copies : forall data, data.length ≤ r.getEmptySize ->
    (r.write data).1.buffer = copyAll r.buffer (r.writeCopies data) ∧
      forall c, c ∈ r.writeCopies data ->
        c.start + c.bytes.length ≤ BUFFER_SIZE ∧
          r.FreeCells c.start c.bytes.length
  place_range : forall k, k ≤ r.getLinearEmptySize ->
    r.getTail + k ≤ BUFFER_SIZE ∧ r.FreeCells r.getTail k
  peek_ranges : forall dest len, len ≤ r.getUsedSize ->
    r.peek dest len = (r.peekRanges len).flatMap
        (fun range => r.buffer.window range.1 range.2) ++ dest.drop len ∧
      forall range, range ∈ r.peekRanges len -> range.1 + range.2 ≤ BUFFER_SIZE
  peek_kept : forall dest len, r.getUsedSize < len -> r.peek dest len = dest
  /-- The bytes handed to a send. -/
  linear : r.buffer.window r.getHead r.getLinearUsedSize <+: q.items
  linear_pos : q.items ≠ [] -> 0 < r.getLinearUsedSize
  linear_range : r.getHead + r.getLinearUsedSize ≤ BUFFER_SIZE

theorem Stores.shows {r : RingBuffer} {q : ByteQueue} (h : r.Stores q) :
    r.Shows q where
  head_lt := r.head_lt
  tail_lt := r.tail_lt
  stores := h
  used := h.length
  total := by
    have htotal := r.getUsedSize_add_getEmptySize
    simp only [QUEUE_SIZE, BUFFER_SIZE] at *
    omega
  write_iff := by
    intro data
    by_cases hfits : data.length ≤ r.getEmptySize
    · rw [r.write_snd_of_fits hfits]
      exact ⟨fun _ => hfits, fun _ => rfl⟩
    · rw [r.write_of_not_fits (Nat.not_le.mp hfits)]
      exact ⟨fun hfalse => (Bool.false_ne_true hfalse).elim,
        fun hle => (hfits hle).elim⟩
  write_kept := by
    intro data hlong
    rw [r.write_of_not_fits hlong]
  write_copies := by
    intro data hfits
    rw [r.write_of_fits hfits]
    exact ⟨rfl, fun c hc => r.writeCopies_inside hfits hc⟩
  place_range := by
    intro k hk
    have hlinear := r.tail_add_getLinearEmptySize_lt
    exact ⟨by omega, r.freeCells_tail (hk.trans r.getLinearEmptySize_le)⟩
  peek_ranges := by
    intro dest len hused
    exact ⟨r.peek_of_fits dest hused,
      fun range hrange => r.peekRanges_inside hused hrange⟩
  peek_kept := by
    intro dest len hlong
    exact r.peek_of_not_fits dest hlong
  linear := by
    rw [linear_window_eq, h]
    exact List.take_prefix _ _
  linear_pos := by
    intro hne
    rw [getLinearUsedSize_pos_iff, h.length]
    exact List.length_pos_iff.mpr hne
  linear_range := r.head_add_getLinearUsedSize_le

/--
The ring buffer refines a queue of at most 4095 bytes: from `Clear` on, every
sequence of calls that it accepts the queue accepts with the same answers, and
the ring then stores what the queue holds.
-/
theorem refines_bounded_queue {r s : RingBuffer} {calls : List (QueueCall UInt8)}
    {answers : List (QueueAnswer UInt8)}
    (hrun : call.trace r.clear calls = some (s, answers)) :
    exists q : ByteQueue,
      BoundedQueue.call.trace BoundedQueue.empty calls = some (q, answers) ∧
        s.Shows q := by
  have hempty : r.clear.Stores BoundedQueue.empty := contents_clear r
  rcases simulates_call.trace hempty hrun with ⟨q, htrace, hstores⟩
  exact ⟨q, htrace, hstores.shows⟩

/-- A write that wraps around; its first two bytes are read and dropped. -/
def wrappingCalls : List (QueueCall UInt8) :=
  [.place (List.replicate 4094 7), .drop 4094, .write [1, 2, 3, 4], .peek [] 2,
    .drop 2]

theorem refines_bounded_queue_wrapped :
    exists r q, call.trace zeroed.clear wrappingCalls =
        some (r, [.written true, .peeked [1, 2]]) ∧
      BoundedQueue.call.trace BoundedQueue.empty wrappingCalls =
        some (q, [.written true, .peeked [1, 2]]) ∧ r.Shows q := by
  have hanswers : (call.trace zeroed.clear wrappingCalls).map Prod.snd =
      some [.written true, .peeked [1, 2]] := by
    decide +kernel
  rcases Option.map_eq_some_iff.mp hanswers with ⟨⟨r, answers⟩, hrun, hsnd⟩
  have hsame : answers = [.written true, .peeked [1, 2]] := hsnd
  subst hsame
  rcases refines_bounded_queue hrun with ⟨q, htrace, hshows⟩
  exact ⟨r, q, hrun, htrace, hshows⟩

end RingBuffer
end Buffers
end ContentServer
