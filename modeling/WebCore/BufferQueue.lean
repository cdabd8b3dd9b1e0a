import WebCore.Buffer
import Mathlib

/-!
# A buffer is a byte queue

`Buffer.Valid` is the representation invariant
`kCheapPrepend ≤ readerIndex ≤ writerIndex ≤ buffer.size() ≤ max_size()`. On a valid buffer the
modular differences of the source are the plain ones, every operation keeps the invariant, and its
effect on the readable bytes is the effect of the queue operation of the same name.

**Theorem (`buffer_refines_queue`).** Any sequence of operations whose sizes fit in `size_t`, on a
new buffer of any initial size, answers as the queue does and ends in a valid buffer that holds
the queue. It stops with an exception only when it needs more than `max_size()` bytes.
-/

namespace WebCore

open Splice

/-! ## The abstract queue -/

namespace ByteQueue

variable {α : Type*}

/-- What can be asked of a queue of elements of `α`. -/
inductive Op (α : Type*)
  | append (data : List α)
  | retrieve (len : Nat)
  | retrieveAll
  | retrieveAllAsString
  | ensureWritableBytes (len : Nat)

/-- The queue after an operation, and the string it returns. -/
def Op.spec : Op α → List α → List α × List α
  | .append data, q => (q ++ data, [])
  | .retrieve len, q => (q.drop (min len q.length), [])
  | .retrieveAll, _ => ([], [])
  | .retrieveAllAsString, q => ([], q)
  | .ensureWritableBytes _, q => (q, [])

/-- The queue after a sequence of operations, and the strings they return. -/
def run : List (Op α) → List α → List α × List (List α)
  | [], q => (q, [])
  | op :: ops, q =>
    let (q, out) := op.spec q
    let (q, outs) := run ops q
    (q, out :: outs)

/-- The bytes of storage that an operation can ask for. -/
def Op.size : Op α → Nat
  | .append data => data.length
  | .ensureWritableBytes len => len
  | _ => 0

end ByteQueue

namespace Buffer

/-! ## The representation invariant -/

/-- `kCheapPrepend ≤ readerIndex ≤ writerIndex ≤ buffer.size() ≤ max_size()`. -/
structure Valid (b : Buffer) : Prop where
  prepend_le : kCheapPrepend ≤ b.readerIndex
  reader_le : b.readerIndex ≤ b.writerIndex
  writer_le : b.writerIndex ≤ b.buffer.length
  size_le : b.buffer.length ≤ maxSize

namespace Valid

variable {b : Buffer}

theorem size_lt (h : b.Valid) : b.buffer.length < 2 ^ 63 := by
  have := h.size_le
  unfold maxSize at this
  omega

theorem readableBytes_eq (h : b.Valid) : b.readableBytes = b.writerIndex - b.readerIndex :=
  toSize_sub h.reader_le (by have := h.writer_le; have := h.size_lt; omega)

theorem writableBytes_eq (h : b.Valid) : b.writableBytes = b.buffer.length - b.writerIndex :=
  toSize_sub h.writer_le (by have := h.size_lt; omega)

theorem prependableBytes_eq (h : b.Valid) :
    b.prependableBytes = b.readerIndex - kCheapPrepend :=
  toSize_sub h.prepend_le
    (by have := h.reader_le; have := h.writer_le; have := h.size_lt; omega)

theorem length_readable (h : b.Valid) : b.readable.length = b.readableBytes := by
  have := h.reader_le
  have := h.writer_le
  rw [h.readableBytes_eq, readable, peek, List.length_take, List.length_drop]
  omega

end Valid

/-- A new buffer is valid and empty; the constructor throws only for too large a size. -/
theorem new_spec (initialSize : Nat) (h : kCheapPrepend + initialSize < 2 ^ 64) :
    (∃ b, new initialSize = .ok b ∧ b.Valid ∧ b.readable = [] ∧
      b.buffer.length = kCheapPrepend + initialSize) ∨
    (new initialSize = .error .vectorTooLong ∧ maxSize < kCheapPrepend + initialSize) := by
  have hs : toSize (kCheapPrepend + initialSize) = kCheapPrepend + initialSize := toSize_add h
  by_cases hmax : kCheapPrepend + initialSize ≤ maxSize
  · left
    refine ⟨⟨List.replicate (kCheapPrepend + initialSize) 0, kCheapPrepend, kCheapPrepend⟩,
      ?_, ⟨le_rfl, le_rfl, ?_, ?_⟩, ?_, ?_⟩
    · simp [new, resize, hs, hmax, bind, Except.bind, pure, Except.pure]
    · simp
    · simpa using hmax
    · simp [readable, peek]
    · simp
  · right
    exact ⟨by simp [new, resize, hs, hmax, bind, Except.bind], by omega⟩

/-! ## Making room -/

/-- `b'` holds what `b` holds and has room for `len` more bytes. -/
structure Room (len : Nat) (b b' : Buffer) : Prop where
  valid : b'.Valid
  readable_eq : b'.readable = b.readable
  room : b'.writerIndex + len ≤ b'.buffer.length
  size_le : b'.buffer.length ≤ max b.buffer.length (b.writerIndex + len)

theorem readable_append {b : Buffer} (h : b.Valid) (ys : List UInt8) :
    ({ b with buffer := b.buffer ++ ys } : Buffer).readable = b.readable := by
  have := h.reader_le
  have := h.writer_le
  simp only [readable, peek]
  rw [List.drop_append_of_le_length (by omega),
    List.take_append_of_le_length (by rw [List.length_drop]; omega)]

/-- The vector is longer: the growing branch of `makeSpace`. -/
def grown (len : Nat) (b : Buffer) : Buffer :=
  { b with buffer := b.buffer ++ List.replicate (b.writerIndex + len - b.buffer.length) 0 }

/-- The unread bytes are at the front of the storage: the sliding branch of `makeSpace`. -/
def slid (b : Buffer) : Buffer where
  buffer := copyWithin (b.writerIndex - b.readerIndex) b.readerIndex kCheapPrepend b.buffer
  readerIndex := kCheapPrepend
  writerIndex := kCheapPrepend + (b.writerIndex - b.readerIndex)

theorem room_of_resize {b : Buffer} {len : Nat} (h : b.Valid)
    (hgrow : b.buffer.length ≤ b.writerIndex + len) (hmax : b.writerIndex + len ≤ maxSize) :
    Room len b (b.grown len) := by
  refine ⟨⟨h.prepend_le, h.reader_le, ?_, ?_⟩, readable_append h _, ?_, ?_⟩ <;>
    simp only [grown, List.length_append, List.length_replicate] <;> have := h.writer_le <;> omega

/-- The loop that slides the bytes stores the old ones, one behind the other. -/
theorem buffer_slid {b : Buffer} (h : b.Valid) :
    b.slid.buffer = splice b.buffer kCheapPrepend b.readable :=
  copyWithin_eq h.prepend_le (by have := h.reader_le; have := h.writer_le; omega)

theorem room_of_slide {b : Buffer} {len : Nat} (h : b.Valid)
    (hfit : kCheapPrepend + (b.writerIndex - b.readerIndex) + len ≤ b.buffer.length) :
    Room len b b.slid := by
  have hcopy := buffer_slid h
  have hsize : b.slid.buffer.length = b.buffer.length := by rw [hcopy, length_splice]
  have hlen : b.readable.length = b.writerIndex - b.readerIndex := by
    rw [h.length_readable, h.readableBytes_eq]
  refine ⟨⟨le_rfl, Nat.le_add_right _ _, ?_, ?_⟩, ?_, ?_, ?_⟩
  · rw [hsize]; exact (Nat.le_add_right _ _).trans hfit
  · rw [hsize]; exact h.size_le
  · show (b.slid.buffer.drop kCheapPrepend).take (kCheapPrepend + (b.writerIndex - b.readerIndex) -
      kCheapPrepend) = b.readable
    rw [hcopy, splice_eq (by omega), List.append_assoc,
      List.drop_append_of_le_length (by simp; omega), List.drop_of_length_le (by simp),
      List.nil_append, Nat.add_sub_cancel_left, List.take_append_of_le_length (by omega),
      List.take_of_length_le (by omega)]
  · rw [hsize]; exact hfit
  · rw [hsize]; exact le_max_left _ _

/-- What `ensureWritableBytes` does when no sum wraps: nothing, a slide, a growth or a throw. -/
theorem ensureWritableBytes_cases {b : Buffer} (len : Nat) (h : b.Valid)
    (hlen : b.writerIndex + len < 2 ^ 64) :
    (b.writerIndex + len ≤ b.buffer.length ∧ b.ensureWritableBytes len = .ok b) ∨
    (b.buffer.length < b.writerIndex + len ∧
      kCheapPrepend + (b.writerIndex - b.readerIndex) + len ≤ b.buffer.length ∧
      b.ensureWritableBytes len = .ok b.slid) ∨
    (b.buffer.length < kCheapPrepend + (b.writerIndex - b.readerIndex) + len ∧
      b.buffer.length < b.writerIndex + len ∧ b.writerIndex + len ≤ maxSize ∧
      b.ensureWritableBytes len = .ok (b.grown len)) ∨
    (b.buffer.length < kCheapPrepend + (b.writerIndex - b.readerIndex) + len ∧
      maxSize < b.writerIndex + len ∧ b.ensureWritableBytes len = .error .vectorTooLong) := by
  have hp := h.prepend_le
  have hr := h.reader_le
  have hw := h.writer_le
  have hs := h.size_lt
  have hsum : toSize (b.writableBytes + b.prependableBytes) =
      b.buffer.length - b.writerIndex + (b.readerIndex - kCheapPrepend) := by
    rw [h.writableBytes_eq, h.prependableBytes_eq]
    exact toSize_add (by omega)
  unfold ensureWritableBytes makeSpace
  rw [hsum, h.writableBytes_eq, toSize_add hlen]
  by_cases hroom : b.buffer.length - b.writerIndex < len
  · rw [if_pos hroom]
    right
    by_cases hgrow : b.buffer.length - b.writerIndex + (b.readerIndex - kCheapPrepend) < len
    · rw [if_pos hgrow]
      by_cases hmax : b.writerIndex + len ≤ maxSize
      · refine .inr (.inl ⟨by omega, by omega, hmax, ?_⟩)
        simp only [resize, if_pos hmax, bind, Except.bind, pure, Except.pure, grown,
          List.take_of_length_le (show b.buffer.length ≤ b.writerIndex + len by omega)]
      · exact .inr (.inr ⟨by omega, by omega, by simp only [resize, if_neg hmax]; rfl⟩)
    · rw [if_neg hgrow]
      refine .inl ⟨by omega, by omega, ?_⟩
      have hwriter := toSize_add (show kCheapPrepend + (b.writerIndex - b.readerIndex) < 2 ^ 64 by
        omega)
      simp only [h.readableBytes_eq, hwriter, slid]
  · rw [if_neg hroom]
    exact .inl ⟨by omega, rfl⟩

/-- `ensureWritableBytes` makes room and keeps the readable bytes, or throws before it has
changed anything. -/
theorem ensureWritableBytes_spec {b : Buffer} (len : Nat) (h : b.Valid)
    (hlen : b.writerIndex + len < 2 ^ 64) :
    (∃ b', b.ensureWritableBytes len = .ok b' ∧ Room len b b') ∨
    (b.ensureWritableBytes len = .error .vectorTooLong ∧ maxSize < b.writerIndex + len) := by
  rcases ensureWritableBytes_cases len h hlen with
    ⟨hroom, hok⟩ | ⟨-, hfit, hok⟩ | ⟨-, hgrow, hmax, hok⟩ | ⟨-, hmax, herr⟩
  · exact .inl ⟨b, hok, h, rfl, hroom, le_max_left _ _⟩
  · exact .inl ⟨b.slid, hok, room_of_slide h hfit⟩
  · exact .inl ⟨b.grown len, hok, room_of_resize h hgrow.le hmax⟩
  · exact .inr ⟨herr, hmax⟩

/-! ## The operations -/

/-- Bytes stored at the tail, where there is room for them, become readable. -/
theorem store_spec {b : Buffer} (data : List UInt8) (h : b.Valid)
    (hroom : b.writerIndex + data.length ≤ b.buffer.length) :
    let b' : Buffer :=
      ⟨splice b.buffer b.writerIndex data, b.readerIndex, b.writerIndex + data.length⟩
    b'.Valid ∧ b'.readable = b.readable ++ data := by
  intro b'
  have hr := h.reader_le
  have hw := h.writer_le
  refine ⟨⟨h.prepend_le, ?_, ?_, ?_⟩, ?_⟩
  · show b.readerIndex ≤ b.writerIndex + data.length; omega
  · simpa [b'] using hroom
  · simpa [b'] using h.size_le
  · have htail : (b.buffer.take b.writerIndex).length = b.writerIndex := by simp; omega
    simp only [readable, peek, b']
    rw [splice_eq hroom, List.append_assoc, List.drop_append_of_le_length (by omega),
      ← List.append_assoc, List.take_append_of_le_length (by simp; omega),
      List.take_of_length_le (by simp; omega), List.drop_take]

/-- `append` adds its bytes at the tail. -/
theorem append_spec {b : Buffer} (data : List UInt8) (h : b.Valid)
    (hlen : b.writerIndex + data.length < 2 ^ 64) :
    (∃ b', b.append data = .ok b' ∧ b'.Valid ∧ b'.readable = b.readable ++ data ∧
      b'.buffer.length ≤ max b.buffer.length (b.writerIndex + data.length)) ∨
    (b.append data = .error .vectorTooLong ∧ maxSize < b.writerIndex + data.length) := by
  rcases ensureWritableBytes_spec data.length h hlen with
    ⟨c, hc, hv, hread, hroom, hsize⟩ | ⟨hc, hmax⟩
  · left
    have hw : toSize (c.writerIndex + data.length) = c.writerIndex + data.length :=
      toSize_add (by have := hv.size_lt; omega)
    obtain ⟨hv', hread'⟩ := store_spec data hv hroom
    refine ⟨⟨splice c.buffer c.writerIndex data, c.readerIndex, c.writerIndex + data.length⟩,
      ?_, hv', by rw [hread', hread], by simpa using hsize⟩
    simp only [append, hc, bind, Except.bind, pure, Except.pure, hw]
  · right
    exact ⟨by simp [append, hc, bind, Except.bind], hmax⟩

/-- **A vector that grows is at most twice as long as what is readable then.** Sliding has been
refused, so what is consumed takes less room than what is to be appended. -/
theorem append_growth {b b' : Buffer} {data : List UInt8} (h : b.Valid)
    (hlen : b.writerIndex + data.length < 2 ^ 64) (hok : b.append data = .ok b') :
    b'.buffer.length ≤ max b.buffer.length (kCheapPrepend + 2 * b'.readableBytes) := by
  have hreadable : b'.readableBytes = b.readableBytes + data.length := by
    rcases append_spec data h hlen with ⟨c, hc, hv, hread, -⟩ | ⟨hc, -⟩
    · obtain rfl := Except.ok.inj (hc.symm.trans hok)
      rw [← hv.length_readable, hread, List.length_append, h.length_readable]
    · rw [hc] at hok
      cases hok
  have hr := h.reader_le
  have hw := h.writer_le
  rw [hreadable, h.readableBytes_eq]
  unfold append at hok
  rcases ensureWritableBytes_cases data.length h hlen with
    ⟨-, hc⟩ | ⟨-, -, hc⟩ | ⟨hgrow, -, -, hc⟩ | ⟨-, -, hc⟩
  · rw [hc] at hok
    obtain rfl := Except.ok.inj hok
    rw [length_splice]
    exact le_max_left _ _
  · rw [hc] at hok
    obtain rfl := Except.ok.inj hok
    rw [length_splice, slid, length_copyWithin]
    exact le_max_left _ _
  · rw [hc] at hok
    obtain rfl := Except.ok.inj hok
    rw [length_splice, grown, List.length_append, List.length_replicate]
    omega
  · rw [hc] at hok
    cases hok

theorem valid_retrieveAll {b : Buffer} (h : b.Valid) : b.retrieveAll.Valid :=
  ⟨le_rfl, le_rfl, h.prepend_le.trans (h.reader_le.trans h.writer_le), h.size_le⟩

@[simp] theorem readable_retrieveAll (b : Buffer) : b.retrieveAll.readable = [] := by
  simp [retrieveAll, readable, peek]

/-- `retrieve` drops bytes at the head, all of them when asked for more. -/
theorem retrieve_spec {b : Buffer} (len : Nat) (h : b.Valid) :
    (b.retrieve len).Valid ∧ (b.retrieve len).readable = b.readable.drop len ∧
      (b.retrieve len).buffer = b.buffer := by
  have hr := h.reader_le
  have hw := h.writer_le
  have hs := h.size_lt
  unfold retrieve
  by_cases hlen : len < b.readableBytes
  · rw [if_pos hlen]
    rw [h.readableBytes_eq] at hlen
    rw [toSize_add (by omega)]
    refine ⟨⟨?_, ?_, h.writer_le, h.size_le⟩, ?_, rfl⟩
    · exact h.prepend_le.trans (Nat.le_add_right _ _)
    · show b.readerIndex + len ≤ b.writerIndex; omega
    · simp only [readable, peek]
      rw [List.drop_take, List.drop_drop, Nat.sub_sub]
  · rw [if_neg hlen]
    refine ⟨valid_retrieveAll h, ?_, rfl⟩
    rw [readable_retrieveAll, List.drop_of_length_le (by rw [h.length_readable]; omega)]

theorem peek_readableBytes {b : Buffer} (h : b.Valid) : b.peek b.readableBytes = b.readable := by
  rw [h.readableBytes_eq, readable]

/-! ## Runs -/

open ByteQueue

/-- The operation of the source, and the string it returns. -/
def apply : Op UInt8 → Buffer → Except LengthError (Buffer × List UInt8)
  | .append data, b => do return (← b.append data, [])
  | .retrieve len, b => .ok (b.retrieve len, [])
  | .retrieveAll, b => .ok (b.retrieveAll, [])
  | .retrieveAllAsString, b => .ok (b.retrieveAllAsString.2, b.retrieveAllAsString.1)
  | .ensureWritableBytes len, b => do return (← b.ensureWritableBytes len, [])

/-- A sequence of operations, and the strings they return. -/
def runOps : List (Op UInt8) → Buffer → Except LengthError (Buffer × List (List UInt8))
  | [], b => .ok (b, [])
  | op :: ops, b => do
    let (b, out) ← b.apply op
    let (b, outs) ← runOps ops b
    return (b, out :: outs)

/-- `b` is valid, holds the queue `q` and uses at most `n` bytes of storage. -/
structure Holds (q : List UInt8) (n : Nat) (b : Buffer) : Prop where
  valid : b.Valid
  readable_eq : b.readable = q
  size_le : b.buffer.length ≤ n

/-- **One operation does what the queue does**, with storage for what it asks for. -/
theorem apply_spec {b : Buffer} {q : List UInt8} {n : Nat} (op : Op UInt8) (h : Holds q n b)
    (hn : n + op.size < 2 ^ 64) :
    (∃ b', b.apply op = .ok (b', (op.spec q).2) ∧ Holds (op.spec q).1 (n + op.size) b' ∧
      ∀ len, op = .ensureWritableBytes len → len ≤ b'.writableBytes) ∨
    (b.apply op = .error .vectorTooLong ∧ maxSize < n + op.size) := by
  obtain ⟨hv, rfl, hsize⟩ := h
  have hw := hv.writer_le
  cases op with
  | append data =>
    simp only [Op.size] at hn ⊢
    rcases append_spec data hv (by omega) with ⟨b', hb', hv', hq', hs'⟩ | ⟨hb', hmax⟩
    · refine .inl ⟨b', ?_, ⟨hv', hq', by omega⟩, by simp⟩
      simp only [apply, hb', Op.spec]; rfl
    · exact .inr ⟨by simp only [apply, hb']; rfl, by omega⟩
  | retrieve len =>
    obtain ⟨hv', hq', hs'⟩ := retrieve_spec len hv
    refine .inl ⟨b.retrieve len, rfl, ⟨hv', ?_, by rw [hs']; exact hsize⟩, by simp⟩
    rw [hq', Op.spec]
    rcases Nat.le_total len b.readable.length with hle | hle
    · rw [Nat.min_eq_left hle]
    · rw [Nat.min_eq_right hle, List.drop_of_length_le hle, List.drop_length]
  | retrieveAll =>
    exact .inl ⟨b.retrieveAll, rfl, ⟨valid_retrieveAll hv, readable_retrieveAll b, hsize⟩, by simp⟩
  | retrieveAllAsString =>
    refine .inl ⟨b.retrieveAll, ?_, ⟨valid_retrieveAll hv, readable_retrieveAll b, hsize⟩, by simp⟩
    simp only [apply, retrieveAllAsString, peek_readableBytes hv, Op.spec]
  | ensureWritableBytes len =>
    simp only [Op.size] at hn ⊢
    rcases ensureWritableBytes_spec len hv (by omega) with ⟨b', hb', hroom⟩ | ⟨hb', hmax⟩
    · refine .inl ⟨b', ?_, ⟨hroom.valid, hroom.readable_eq, ?_⟩, ?_⟩
      · simp only [apply, hb', Op.spec]; rfl
      · have := hroom.size_le; omega
      · rintro _ ⟨rfl⟩
        have := hroom.room
        rw [hroom.valid.writableBytes_eq]; omega
    · exact .inr ⟨by simp only [apply, hb']; rfl, by omega⟩

/-- The bytes of storage that a sequence of operations can ask for. -/
def totalSize (ops : List (Op UInt8)) : Nat := (ops.map Op.size).sum

theorem runOps_spec (ops : List (Op UInt8)) {b : Buffer} {q : List UInt8} {n : Nat}
    (h : Holds q n b) (hn : n + totalSize ops < 2 ^ 64) :
    (∃ b', b.runOps ops = .ok (b', (ByteQueue.run ops q).2) ∧
      Holds (ByteQueue.run ops q).1 (n + totalSize ops) b' ∧
      ∀ len, ops.getLast? = some (.ensureWritableBytes len) → len ≤ b'.writableBytes) ∨
    (b.runOps ops = .error .vectorTooLong ∧ maxSize < n + totalSize ops) := by
  induction ops generalizing b q n with
  | nil => exact .inl ⟨b, rfl, by simpa [totalSize, ByteQueue.run] using h, by simp⟩
  | cons op ops ih =>
    have htotal : totalSize (op :: ops) = op.size + totalSize ops := by simp [totalSize]
    rw [htotal, ← Nat.add_assoc] at hn ⊢
    rcases apply_spec op h (by omega) with ⟨b₁, hb₁, h₁, hroom⟩ | ⟨hb₁, hmax⟩
    · rcases ih h₁ hn with ⟨b₂, hb₂, h₂, hlast⟩ | ⟨hb₂, hmax⟩
      · refine .inl ⟨b₂, ?_, by simpa [ByteQueue.run] using h₂, fun len hl => ?_⟩
        · simp only [runOps, hb₁, bind, Except.bind, hb₂, ByteQueue.run]; rfl
        · cases ops with
          | nil =>
            obtain rfl : b₁ = b₂ := by
              simp only [runOps, Except.ok.injEq, Prod.mk.injEq] at hb₂; exact hb₂.1
            exact hroom len (by simpa using hl)
          | cons op' ops' => exact hlast len (by simpa using hl)
      · exact .inr ⟨by simp only [runOps, hb₁, bind, Except.bind, hb₂], hmax⟩
    · exact .inr ⟨by simp only [runOps, hb₁, bind, Except.bind], by omega⟩

/-- **A buffer is a byte queue.** For sizes whose sum fits in `size_t`, a run on a new buffer keeps
`kCheapPrepend ≤ readerIndex ≤ writerIndex ≤ buffer.size()`, its readable bytes and its answers are
those of the queue, an `ensureWritableBytes` that comes last has made its room, and the run
completes whenever the vector can be that large. -/
theorem buffer_refines_queue (initialSize : Nat) (ops : List (Op UInt8))
    (hfit : kCheapPrepend + initialSize + totalSize ops < 2 ^ 64) :
    (∀ b₀ b outs, new initialSize = .ok b₀ → b₀.runOps ops = .ok (b, outs) →
      (kCheapPrepend ≤ b.readerIndex ∧ b.readerIndex ≤ b.writerIndex ∧
        b.writerIndex ≤ b.buffer.length) ∧
      b.readable = (ByteQueue.run ops []).1 ∧ outs = (ByteQueue.run ops []).2 ∧
      ∀ len, ops.getLast? = some (.ensureWritableBytes len) → len ≤ b.writableBytes) ∧
    (kCheapPrepend + initialSize + totalSize ops ≤ maxSize →
      ∃ b₀ b outs, new initialSize = .ok b₀ ∧ b₀.runOps ops = .ok (b, outs)) := by
  rcases new_spec initialSize (by omega) with ⟨b₀, hb₀, hv, hr, hs⟩ | ⟨hb₀, hmax⟩
  · rcases runOps_spec ops ⟨hv, hr, hs.le⟩ hfit with ⟨b, hb, h, hlast⟩ | ⟨hb, hmax⟩
    · refine ⟨fun c₀ c outs hc₀ hc => ?_, fun _ => ⟨b₀, b, _, hb₀, hb⟩⟩
      obtain rfl : b₀ = c₀ := Except.ok.inj (hb₀.symm.trans hc₀)
      obtain ⟨rfl, rfl⟩ := Prod.mk.inj (Except.ok.inj (hb.symm.trans hc))
      exact ⟨⟨h.valid.prepend_le, h.valid.reader_le, h.valid.writer_le⟩, h.readable_eq, rfl, hlast⟩
    · refine ⟨fun c₀ c outs hc₀ hc => ?_, fun hle => by omega⟩
      obtain rfl : b₀ = c₀ := Except.ok.inj (hb₀.symm.trans hc₀)
      rw [hb] at hc; cases hc
  · refine ⟨fun c₀ c outs hc₀ hc => ?_, fun hle => by omega⟩
    rw [hb₀] at hc₀; cases hc₀

theorem buffer_refines_queue_small :
    ∃ b₀ b outs, new 2 = .ok b₀ ∧
      b₀.runOps [.append [1, 2], .retrieve 1, .append [3, 4, 5], .retrieve 9] = .ok (b, outs) ∧
      b.readable = [] := by
  have h := buffer_refines_queue 2 [.append [1, 2], .retrieve 1, .append [3, 4, 5], .retrieve 9]
    (by decide)
  obtain ⟨b₀, b, outs, hb₀, hb⟩ := h.2 (by decide)
  exact ⟨b₀, b, outs, hb₀, hb, (h.1 b₀ b outs hb₀ hb).2.1⟩

end Buffer

end WebCore
