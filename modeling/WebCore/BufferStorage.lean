import WebCore.BufferReads
import WebCore.Lib.Transition

/-!
# The storage of a buffer

What the size arithmetic of `makeSpace` makes of the vector: when it slides the unread bytes, when
it grows, how far, and what becomes of it when a sum wraps.

**Theorem (`compaction_in_place`).** The slide copies to a place strictly in front of its source,
and moves the readable bytes however the two ranges overlap.

**Theorem (`makesRoom_iff`).** `ensureWritableBytes(len)` does its work iff `writerIndex + len` does
not wrap. When it does, the vector shrinks below `writerIndex`.

**Theorem (`storage_bounded`).** Over any run of transfers the vector is at most
`kCheapPrepend + max(initialSize, 2 * M)` bytes long, where `M` is the largest backlog so far. A
consumed prefix never costs more than the bytes that wait behind it.
-/

namespace WebCore

open Splice Transition

namespace Buffer

/-! ## The slide -/

/-- **In-place compaction is safe.** Whenever `ensureWritableBytes` slides, the bytes move to a
lower address, the ascending copy leaves the old readable bytes at `kCheapPrepend`, and there is
room for `len` bytes behind them in a vector of the same size. -/
theorem compaction_in_place (b : Buffer) (len : Nat) (h : b.Valid)
    (hshort : b.writableBytes < len)
    (hslide : ¬ toSize (b.writableBytes + b.prependableBytes) < len) :
    kCheapPrepend < b.readerIndex ∧
    ∃ b', b.ensureWritableBytes len = .ok b' ∧
      b'.buffer =
        copyWithin (b.writerIndex - b.readerIndex) b.readerIndex kCheapPrepend b.buffer ∧
      (b'.buffer.drop kCheapPrepend).take b.readableBytes = b.readable ∧
      b'.readerIndex = kCheapPrepend ∧ b'.writerIndex = kCheapPrepend + b.readableBytes ∧
      len ≤ b'.writableBytes ∧ b'.buffer.length = b.buffer.length := by
  have hp := h.prepend_le
  have hr := h.reader_le
  have hw := h.writer_le
  have hs := h.size_lt
  have hsum : toSize (b.writableBytes + b.prependableBytes) =
      b.buffer.length - b.writerIndex + (b.readerIndex - kCheapPrepend) := by
    rw [h.writableBytes_eq, h.prependableBytes_eq]
    exact toSize_add (by omega)
  rw [hsum] at hslide
  rw [h.writableBytes_eq] at hshort
  have hfit : kCheapPrepend + (b.writerIndex - b.readerIndex) + len ≤ b.buffer.length := by omega
  refine ⟨by omega, b.slid, ?_, rfl, ?_, rfl, ?_, ?_, length_copyWithin _ _ _ _⟩
  · rcases ensureWritableBytes_cases len h (by omega) with
      ⟨hroom, -⟩ | ⟨-, -, hok⟩ | ⟨hgrow, -⟩ | ⟨hgrow, -⟩
    · omega
    · exact hok
    · omega
    · omega
  · have hroom := room_of_slide h hfit
    rw [← hroom.readable_eq, readable, peek, slid, h.readableBytes_eq, Nat.add_sub_cancel_left]
  · rw [h.readableBytes_eq, slid]
  · have hroom := room_of_slide h hfit
    have := hroom.room
    rw [hroom.valid.writableBytes_eq]
    omega

/-- Two readable bytes, two bytes read: the ranges overlap when they slide. -/
def drifted : Buffer := ⟨[0, 0, 0, 0, 0, 0, 0, 0, 1, 2, 3, 4, 5], 9, 12⟩

theorem compaction_drifted :
    ∃ b', drifted.ensureWritableBytes 2 = .ok b' ∧ (b'.buffer.drop 8).take 3 = [2, 3, 4] ∧
      b'.buffer.length = 13 := by
  obtain ⟨-, b', hok, -, hread, -, -, -, hsize⟩ := compaction_in_place drifted 2
    ⟨by decide, by decide, by decide, by decide⟩ (by decide) (by decide)
  exact ⟨b', hok, hread, hsize⟩

/-! ## Calls -/

/-- The calls that change a buffer. -/
inductive Call
  | append (data : List UInt8)
  | ensureWritableBytes (len : Nat)
  | retrieve (len : Nat)
  | retrieveAll
  | retrieveAllAsString
  | retrieveAsString (len : Nat)
  | readFd (r : ReadResult)
deriving DecidableEq, Repr

/-- The bytes of storage that a call asks for. -/
def Call.size : Call → Nat
  | .append data => data.length
  | .ensureWritableBytes len => len
  | _ => 0

/-- One call that returns. A length is a `size_t`, and `readv` returns what it can return. -/
def step (b : Buffer) : Call → Option Buffer
  | .append data => if data.length < 2 ^ 64 then (b.append data).toOption else none
  | .ensureWritableBytes len =>
    if len < 2 ^ 64 then (b.ensureWritableBytes len).toOption else none
  | .retrieve len => if len < 2 ^ 64 then some (b.retrieve len) else none
  | .retrieveAll => some b.retrieveAll
  | .retrieveAllAsString => some b.retrieveAllAsString.2
  | .retrieveAsString len => (b.retrieveAsString len).map Prod.snd
  | .readFd r => if r.Fits b then (b.readFd r).toOption.map Prod.fst else none

/-- `writerIndex + len` is a `size_t`. -/
def NoWrap (b : Buffer) (call : Call) : Prop := b.writerIndex + call.size < 2 ^ 64

instance (b : Buffer) (call : Call) : Decidable (b.NoWrap call) :=
  inferInstanceAs (Decidable (_ < _))

/-- What a call that returns has done. -/
def Takes (b b' : Buffer) : Call → Prop
  | .append data => data.length < 2 ^ 64 ∧ b.append data = .ok b'
  | .ensureWritableBytes len => len < 2 ^ 64 ∧ b.ensureWritableBytes len = .ok b'
  | .retrieve len | .retrieveAsString len => b' = b.retrieve len
  | .retrieveAll | .retrieveAllAsString => b' = b.retrieveAll
  | .readFd (.failed _) => b' = b
  | .readFd (.received bytes) => bytes.length ≤ b.readCapacity ∧
      ∃ n e, b.readFd (.received bytes) = .ok (b', n, e)

/-- **Inversion of a call.** -/
theorem step_inv {b b' : Buffer} {call : Call} (h : b.step call = some b') : b.Takes b' call := by
  cases call with
  | append data =>
    simp only [step, Option.ite_none_right_eq_some, toOption_eq_some] at h
    exact h
  | ensureWritableBytes len =>
    simp only [step, Option.ite_none_right_eq_some, toOption_eq_some] at h
    exact h
  | retrieve len =>
    simp only [step, Option.ite_none_right_eq_some, Option.some.injEq] at h
    exact h.2.symm
  | retrieveAll | retrieveAllAsString => exact (Option.some.inj h).symm
  | retrieveAsString len =>
    simp only [step, retrieveAsString, Option.map_eq_some_iff, Option.ite_none_right_eq_some,
      Option.some.injEq] at h
    obtain ⟨_, ⟨-, rfl⟩, rfl⟩ := h
    rfl
  | readFd r =>
    simp only [step, Option.ite_none_right_eq_some, Option.map_eq_some_iff,
      toOption_eq_some] at h
    obtain ⟨hr, ⟨c, n, e⟩, hread, rfl⟩ := h
    cases r with
    | failed errno => exact (Prod.mk.inj (Except.ok.inj hread)).1.symm
    | received bytes => exact ⟨hr, n, e, hread⟩

/-- A read that has returned has left a valid buffer with the bytes behind the readable ones, in a
vector that has grown as by an append. -/
theorem readFd_received {b b' : Buffer} {bytes : List UInt8} {n : Int} {e : Option Int}
    (h : b.Valid) (hfit : bytes.length ≤ b.readCapacity)
    (hok : b.readFd (.received bytes) = .ok (b', n, e)) :
    b'.Valid ∧ b'.readable = b.readable ++ bytes ∧
      b'.buffer.length ≤ max b.buffer.length (kCheapPrepend + 2 * b'.readableBytes) := by
  rcases Nat.lt_or_ge b.writableBytes bytes.length with hlt | hle
  · obtain ⟨b₁, hv, hread, -, hwriter, hsize, heq⟩ := readFd_extra h hlt
    have hsum : b₁.writerIndex + (bytes.drop b.writableBytes).length < 2 ^ 64 := by
      rw [hwriter, List.length_drop]
      exact extra_lt h hfit
    rw [heq] at hok
    rcases append_spec (bytes.drop b.writableBytes) hv hsum with ⟨c, hc, hv', hread', -⟩ | ⟨hc, -⟩
    · have hgrow := append_growth hv hsum hc
      rw [hc] at hok
      obtain ⟨rfl, -⟩ := Prod.mk.inj (Except.ok.inj hok)
      refine ⟨hv', ?_, by rwa [hsize] at hgrow⟩
      rw [hread', hread, List.append_assoc, List.take_append_drop]
    · rw [hc] at hok
      cases hok
  · obtain ⟨c, hc, hv', hread, hsize⟩ := readFd_tail h hle
    obtain ⟨rfl, -⟩ := Prod.mk.inj (Except.ok.inj (hc.symm.trans hok))
    exact ⟨hv', hread, hsize.le.trans (le_max_left _ _)⟩

/-- **A call whose size does not wrap keeps the buffer valid.** -/
theorem Valid.step {b b' : Buffer} {call : Call} (h : b.Valid) (hok : b.NoWrap call)
    (hstep : b.step call = some b') : b'.Valid := by
  have hinv := step_inv hstep
  cases call with
  | append data =>
    rcases append_spec data h hok with ⟨c, hc, hv, -⟩ | ⟨hc, -⟩
    · obtain rfl := Except.ok.inj (hc.symm.trans hinv.2)
      exact hv
    · cases hc.symm.trans hinv.2
  | ensureWritableBytes len =>
    rcases ensureWritableBytes_spec len h hok with ⟨c, hc, hroom⟩ | ⟨hc, -⟩
    · obtain rfl := Except.ok.inj (hc.symm.trans hinv.2)
      exact hroom.valid
    · cases hc.symm.trans hinv.2
  | retrieve len | retrieveAsString len =>
    obtain rfl := hinv
    exact (retrieve_spec len h).1
  | retrieveAll | retrieveAllAsString =>
    obtain rfl := hinv
    exact valid_retrieveAll h
  | readFd r =>
    cases r with
    | failed errno =>
      obtain rfl := hinv
      exact h
    | received bytes =>
      obtain ⟨hfit, n, e, hread⟩ := hinv
      exact (readFd_received h hfit hread).1

/-! ## When a sum wraps -/

/-- What `ensureWritableBytes(len)` is for: a buffer in order that holds what it held and has room
for `len` bytes. When it throws, nothing has been assigned. -/
def MakesRoom (len : Nat) (b : Buffer) : Prop :=
  ∀ b', b.ensureWritableBytes len = .ok b' →
    (kCheapPrepend ≤ b'.readerIndex ∧ b'.readerIndex ≤ b'.writerIndex ∧
      b'.writerIndex ≤ b'.buffer.length) ∧
    b'.readable = b.readable ∧ len ≤ b'.writableBytes

/-- A sum that wraps makes `resize` cut the vector below `writerIndex`. -/
theorem grow_wraps {b : Buffer} {len : Nat} (hw : b.writerIndex ≤ maxSize) (hlen : len < 2 ^ 64)
    (hwrap : 2 ^ 64 ≤ b.writerIndex + len) (hshort : b.writableBytes < len)
    (hgrow : toSize (b.writableBytes + b.prependableBytes) < len) :
    ∃ b', b.ensureWritableBytes len = .ok b' ∧
      b'.buffer.length = b.writerIndex + len - 2 ^ 64 ∧
      b'.readerIndex = b.readerIndex ∧ b'.writerIndex = b.writerIndex := by
  have hsum : toSize (b.writerIndex + len) = b.writerIndex + len - 2 ^ 64 := by
    unfold maxSize at hw
    unfold toSize
    omega
  have hmax : b.writerIndex + len - 2 ^ 64 ≤ maxSize := by omega
  refine ⟨⟨b.buffer.take (b.writerIndex + len - 2 ^ 64) ++
    List.replicate (b.writerIndex + len - 2 ^ 64 - b.buffer.length) 0,
    b.readerIndex, b.writerIndex⟩, ?_, ?_, rfl, rfl⟩
  · simp only [ensureWritableBytes, makeSpace, if_pos hshort, if_pos hgrow, hsum, resize,
      if_pos hmax, bind, Except.bind, pure, Except.pure]
  · simp only [List.length_append, List.length_take, List.length_replicate]
    omega

theorem ensureWritableBytes_wraps {b : Buffer} {len : Nat} (h : b.Valid) (hlen : len < 2 ^ 64)
    (hwrap : 2 ^ 64 ≤ b.writerIndex + len) :
    ∃ b', b.ensureWritableBytes len = .ok b' ∧
      b'.buffer.length = b.writerIndex + len - 2 ^ 64 ∧
      b'.readerIndex = b.readerIndex ∧ b'.writerIndex = b.writerIndex := by
  have hr := h.reader_le
  have hw := h.writer_le
  have hs := h.size_lt
  refine grow_wraps (hw.trans h.size_le) hlen hwrap ?_ ?_
  · rw [h.writableBytes_eq]; omega
  · rw [h.writableBytes_eq, h.prependableBytes_eq, toSize_add (by omega)]
    omega

theorem Valid.makesRoom {b : Buffer} (h : b.Valid) {len : Nat} (hlen : len < 2 ^ 64) :
    b.MakesRoom len ↔ b.writerIndex + len < 2 ^ 64 := by
  constructor
  · intro hroom
    by_contra hwrap
    obtain ⟨b', hok, hcut, -, hwriter⟩ := ensureWritableBytes_wraps h hlen (by omega)
    have := (hroom b' hok).1.2.2
    have := h.writer_le
    have := h.size_lt
    omega
  · intro hfit b' hok
    rcases ensureWritableBytes_spec len h hfit with ⟨c, hc, hroom⟩ | ⟨hc, -⟩
    · obtain rfl := Except.ok.inj (hc.symm.trans hok)
      have := hroom.room
      exact ⟨⟨hroom.valid.prepend_le, hroom.valid.reader_le, hroom.valid.writer_le⟩,
        hroom.readable_eq, by rw [hroom.valid.writableBytes_eq]; omega⟩
    · rw [hc] at hok
      cases hok

theorem new_inv {initialSize : Nat} {b : Buffer} (h : new initialSize = .ok b) :
    b.buffer.length = toSize (kCheapPrepend + initialSize) ∧ b.readerIndex = kCheapPrepend ∧
      b.writerIndex = kCheapPrepend := by
  simp only [new, resize, bind, Except.bind] at h
  split at h
  · cases h
  · rename_i hmax
    split at hmax
    · obtain rfl := Except.ok.inj hmax
      obtain rfl := Except.ok.inj h
      exact ⟨by simp, rfl, rfl⟩
    · cases hmax

/-- A constructor whose sum wraps makes a vector that ends in front of the indices, and
`ensureWritableBytes` never mends it. -/
theorem not_makesRoom_of_new {initialSize len : Nat} {b : Buffer} (hsize : initialSize < 2 ^ 64)
    (hwrap : 2 ^ 64 ≤ kCheapPrepend + initialSize) (hnew : new initialSize = .ok b)
    (hlen : len < 2 ^ 64) : ¬ b.MakesRoom len := by
  obtain ⟨hlength, hreader, hwriter⟩ := new_inv hnew
  have hshort : b.buffer.length < 8 := by
    rw [hlength]
    unfold kCheapPrepend at *
    unfold toSize
    omega
  have hwritable : b.writableBytes = 2 ^ 64 + b.buffer.length - 8 := by
    rw [writableBytes, hwriter]
    unfold toSize kCheapPrepend
    omega
  have hprependable : b.prependableBytes = 0 := by
    rw [prependableBytes, hreader]
    decide
  intro hroom
  rcases Nat.lt_or_ge b.writableBytes len with hlt | hge
  · obtain ⟨b', hok, hcut, -, hwriter'⟩ := grow_wraps (b := b) (by rw [hwriter]; decide) hlen
      (by rw [hwriter]; unfold kCheapPrepend; omega) hlt (by
        rw [hprependable, toSize_add (by omega)]
        exact hlt)
    have := (hroom b' hok).1.2.2
    rw [hcut, hwriter', hwriter] at this
    unfold kCheapPrepend at this
    omega
  · have := (hroom b (if_neg (by omega))).1.2.2
    rw [hwriter] at this
    unfold kCheapPrepend at this
    omega

/-- **`ensureWritableBytes` makes room iff its sum does not wrap.** For a new buffer that is so for
the sum of the constructor and its own. After a constructor that has not wrapped and a run of calls
that have not, the buffer is in order, and `ensureWritableBytes(len)` does its work (or throws with
the buffer as it was) iff `writerIndex + len` is a `size_t`. -/
theorem makesRoom_iff (initialSize : Nat) (b₀ : Buffer) (hsize : initialSize < 2 ^ 64)
    (hnew : new initialSize = .ok b₀) :
    (∀ len, len < 2 ^ 64 → (b₀.MakesRoom len ↔
      kCheapPrepend + initialSize < 2 ^ 64 ∧ kCheapPrepend + len < 2 ^ 64)) ∧
    (kCheapPrepend + initialSize < 2 ^ 64 → ∀ calls b, run step b₀ calls = some b →
      Meets step NoWrap b₀ calls → ∀ len, len < 2 ^ 64 →
        (b.MakesRoom len ↔ b.writerIndex + len < 2 ^ 64)) := by
  have hvalid : kCheapPrepend + initialSize < 2 ^ 64 → b₀.Valid ∧
      b₀.writerIndex = kCheapPrepend := by
    intro hfit
    rcases new_spec initialSize hfit with ⟨b, hb, hv, -⟩ | ⟨hb, -⟩
    · obtain rfl : b = b₀ := Except.ok.inj (hb.symm.trans hnew)
      exact ⟨hv, (new_inv hnew).2.2⟩
    · rw [hb] at hnew
      cases hnew
  refine ⟨fun len hlen => ?_, fun hfit calls b hrun hok len hlen => ?_⟩
  · by_cases hfit : kCheapPrepend + initialSize < 2 ^ 64
    · obtain ⟨hv, hw⟩ := hvalid hfit
      rw [hv.makesRoom hlen, hw]
      exact (and_iff_right hfit).symm
    · exact iff_of_false (not_makesRoom_of_new hsize (by omega) hnew hlen) fun h => hfit h.1
  · have hv : b.Valid := hok.invariant Valid (fun _ _ _ hv hok hstep => hv.step hok hstep)
      (hvalid hfit).1 hrun
    exact hv.makesRoom hlen

/-- A new buffer of the initial size 4. -/
def newFour : Buffer := ⟨List.replicate 12 0, 8, 8⟩

/-- Three bytes in, one out. -/
def threeInOneOut : List Call := [.append [1, 2, 3], .retrieve 1]

theorem makesRoom_small :
    (run step newFour threeInOneOut).isSome ∧
    ∀ b, run step newFour threeInOneOut = some b →
      (b.MakesRoom 100 ↔ b.writerIndex + 100 < 2 ^ 64) := by
  have h := (makesRoom_iff 4 newFour (by decide) (by decide)).2 (by decide) threeInOneOut
  exact ⟨by decide +kernel, fun b hb => h b hb (by decide +kernel) 100 (by decide)⟩

/-- **The vector shrinks under its indices.** A new buffer, asked for `2 ^ 64 - 8` bytes, has none
left, and then takes itself to have room for as many; so does a buffer of the initial size
`2 ^ 64 - 8`. -/
theorem room_lost :
    new 4 = .ok newFour ∧
    newFour.ensureWritableBytes (2 ^ 64 - 8) = .ok ⟨[], 8, 8⟩ ∧
    ¬ newFour.MakesRoom (2 ^ 64 - 8) ∧
    new (2 ^ 64 - 8) = .ok ⟨[], 8, 8⟩ ∧
    writableBytes ⟨[], 8, 8⟩ = 2 ^ 64 - 8 ∧ ¬ MakesRoom 0 ⟨[], 8, 8⟩ :=
  ⟨by decide, by decide +kernel,
    fun h => absurd (h ⟨[], 8, 8⟩ (by decide +kernel)).1.2.2 (by decide),
    by decide +kernel, by decide +kernel,
    fun h => absurd (h ⟨[], 8, 8⟩ (by decide +kernel)).1.2.2 (by decide)⟩

/-! ## How far the vector grows -/

/-- The largest backlog in the states of a run. -/
def peakBacklog (b : Buffer) : List Call → Nat
  | [] => b.readableBytes
  | call :: calls =>
    max b.readableBytes ((b.step call).elim 0 fun b' => b'.peakBacklog calls)

/-- An append whose sum wraps leaves no longer vector, and in it a valid buffer or one whose
`readableBytes` has wrapped as well. -/
theorem append_wraps {b b' : Buffer} {data : List UInt8} (h : b.Valid)
    (hlen : data.length < 2 ^ 64) (hwrap : 2 ^ 64 ≤ b.writerIndex + data.length)
    (hok : b.append data = .ok b') :
    b'.buffer.length ≤ b.buffer.length ∧ (b'.Valid ∨ maxSize ≤ b'.readableBytes) := by
  have hp := h.prepend_le
  have hr := h.reader_le
  have hw := h.writer_le
  have hs := h.size_lt
  obtain ⟨c, hc, hsize, hreader, hwriter⟩ := ensureWritableBytes_wraps h hlen hwrap
  have hsum : toSize (b.writerIndex + data.length) = b.writerIndex + data.length - 2 ^ 64 := by
    unfold toSize; omega
  unfold append at hok
  rw [hc] at hok
  obtain rfl := Except.ok.inj hok
  rw [length_splice, hsize]
  refine ⟨by omega, ?_⟩
  simp only [hwriter, hsum]
  rcases Nat.lt_or_ge (b.writerIndex + data.length - 2 ^ 64) b.readerIndex with hlt | hle
  · right
    simp only [readableBytes, hreader]
    unfold toSize maxSize
    omega
  · left
    refine ⟨?_, ?_, ?_, ?_⟩
    · simpa only [hreader] using hp
    · simpa only [hreader] using hle
    · simp only [length_splice, hsize]; exact le_rfl
    · simp only [length_splice, hsize]; unfold maxSize; omega

theorem ensureWritableBytes_size {b b' : Buffer} {len : Nat} (hmax : b.buffer.length ≤ maxSize)
    (hok : b.ensureWritableBytes len = .ok b') : b'.buffer.length ≤ maxSize := by
  unfold ensureWritableBytes makeSpace at hok
  split at hok
  · split at hok
    · unfold resize at hok
      split at hok
      · obtain rfl := Except.ok.inj hok
        simp only [List.length_append, List.length_take, List.length_replicate]
        omega
      · cases hok
    · obtain rfl := Except.ok.inj hok
      rwa [length_copyWithin]
  · obtain rfl := Except.ok.inj hok
    exact hmax

theorem append_size {b b' : Buffer} {data : List UInt8} (hmax : b.buffer.length ≤ maxSize)
    (hok : b.append data = .ok b') : b'.buffer.length ≤ maxSize := by
  unfold append at hok
  cases hc : b.ensureWritableBytes data.length with
  | error e =>
    rw [hc] at hok
    cases hok
  | ok c =>
    rw [hc] at hok
    obtain rfl := Except.ok.inj hok
    rw [length_splice]
    exact ensureWritableBytes_size hmax hc

/-- No call makes the vector longer than it can be, whatever the indices are. -/
theorem step_size {b b' : Buffer} {call : Call} (hmax : b.buffer.length ≤ maxSize)
    (hstep : b.step call = some b') : b'.buffer.length ≤ maxSize := by
  have hinv := step_inv hstep
  cases call with
  | append data => exact append_size hmax hinv.2
  | ensureWritableBytes len => exact ensureWritableBytes_size hmax hinv.2
  | retrieve len | retrieveAsString len =>
    obtain rfl := hinv
    unfold retrieve
    split <;> exact hmax
  | retrieveAll | retrieveAllAsString =>
    obtain rfl := hinv
    exact hmax
  | readFd r =>
    cases r with
    | failed errno =>
      obtain rfl := hinv
      exact hmax
    | received bytes =>
      obtain ⟨-, n, e, hread⟩ := hinv
      simp only [readFd] at hread
      split at hread
      · obtain ⟨rfl, -⟩ := Prod.mk.inj (Except.ok.inj hread)
        rwa [length_splice]
      · rw [length_splice] at hread
        cases hc : append (bytes.drop b.writableBytes) ⟨splice b.buffer b.writerIndex
            (bytes.take b.writableBytes), b.readerIndex, b.buffer.length⟩ with
        | error e =>
          rw [hc] at hread
          cases hread
        | ok c =>
          rw [hc] at hread
          obtain ⟨rfl, -⟩ := Prod.mk.inj (Except.ok.inj hread)
          exact append_size (by rwa [length_splice]) hc

/-- The storage is within the bound for the peak `M`. The buffer is valid, but for sizes at which
the bound says nothing. -/
structure Within (s M : Nat) (b : Buffer) : Prop where
  size_le : b.buffer.length ≤ kCheapPrepend + max s (2 * M)
  size_le_max : b.buffer.length ≤ maxSize
  valid : b.Valid ∨ maxSize ≤ kCheapPrepend + max s (2 * M)

/-- **A transfer stays within the bound.** -/
theorem Within.step {s M : Nat} {b b' : Buffer} {call : Call} (h : Within s M b)
    (hcall : ∀ len, call ≠ .ensureWritableBytes len) (hpeak : b'.readableBytes ≤ M)
    (hstep : b.step call = some b') : Within s M b' := by
  have hmax := step_size h.size_le_max hstep
  rcases h.valid with hv | hhuge
  · have hsize := h.size_le
    have hinv := step_inv hstep
    cases call with
    | ensureWritableBytes len => exact absurd rfl (hcall len)
    | append data =>
      obtain ⟨hlen, hok⟩ := hinv
      rcases Nat.lt_or_ge (b.writerIndex + data.length) (2 ^ 64) with hfit | hwrap
      · have hgrow := append_growth hv hfit hok
        have hok' : b.NoWrap (.append data) := hfit
        exact ⟨by omega, hmax, .inl (hv.step hok' hstep)⟩
      · obtain ⟨hle, hrest⟩ := append_wraps hv hlen hwrap hok
        exact ⟨by omega, hmax, hrest.imp_right fun hhuge => by omega⟩
    | retrieve len | retrieveAsString len =>
      obtain rfl := hinv
      obtain ⟨hv', -, hbuf⟩ := retrieve_spec len hv
      exact ⟨by rw [hbuf]; exact hsize, hmax, .inl hv'⟩
    | retrieveAll | retrieveAllAsString =>
      obtain rfl := hinv
      exact ⟨hsize, hmax, .inl (valid_retrieveAll hv)⟩
    | readFd r =>
      cases r with
      | failed errno =>
        obtain rfl := hinv
        exact h
      | received bytes =>
        obtain ⟨hfit, n, e, hread⟩ := hinv
        obtain ⟨hv', -, hgrow⟩ := readFd_received hv hfit hread
        exact ⟨by omega, hmax, .inl hv'⟩
  · exact ⟨hmax.trans hhuge, hmax, .inr hhuge⟩

theorem readableBytes_le_peakBacklog (b : Buffer) (calls : List Call) :
    b.readableBytes ≤ b.peakBacklog calls := by
  cases calls with
  | nil => exact le_rfl
  | cons call calls => exact le_max_left _ _

theorem Within.run {s M : Nat} {b b' : Buffer} {calls : List Call} (h : Within s M b)
    (hcalls : ∀ call ∈ calls, ∀ len, call ≠ .ensureWritableBytes len)
    (hpeak : b.peakBacklog calls ≤ M) (hrun : run Buffer.step b calls = some b') :
    Within s M b' := by
  induction calls generalizing b with
  | nil =>
    obtain rfl : b = b' := Option.some.inj hrun
    exact h
  | cons call calls ih =>
    obtain ⟨c, hc, hrun⟩ := run_cons.1 hrun
    simp only [peakBacklog, hc, Option.elim_some] at hpeak
    have hpeak' : c.peakBacklog calls ≤ M := (le_max_right _ _).trans hpeak
    have hcall := hcalls call List.mem_cons_self
    exact ih (h.step hcall ((readableBytes_le_peakBacklog c calls).trans hpeak') hc)
      (fun call hmem => hcalls call (List.mem_cons_of_mem _ hmem)) hpeak' hrun

/-- **Storage is bounded by the peak backlog.** For every initial size and every run of appends,
retrievals and reads of any sizes, the vector is at most `kCheapPrepend + max(initialSize, 2 * M)`
bytes long, where `M` is the largest number of readable bytes in the states of the run. -/
theorem storage_bounded (initialSize : Nat) (b₀ b : Buffer) (calls : List Call)
    (hsize : initialSize < 2 ^ 64) (hnew : new initialSize = .ok b₀)
    (hcalls : ∀ call ∈ calls, ∀ len, call ≠ .ensureWritableBytes len)
    (hrun : run step b₀ calls = some b) :
    b.buffer.length ≤ kCheapPrepend + max initialSize (2 * b₀.peakBacklog calls) := by
  have h₀ : Within initialSize (b₀.peakBacklog calls) b₀ := by
    rcases Nat.lt_or_ge (kCheapPrepend + initialSize) (2 ^ 64) with hfit | hwrap
    · rcases new_spec initialSize hfit with ⟨c, hc, hv, -, hlen⟩ | ⟨hc, -⟩
      · obtain rfl := Except.ok.inj (hc.symm.trans hnew)
        exact ⟨by omega, hv.size_le, .inl hv⟩
      · rw [hc] at hnew
        cases hnew
    · -- The constructor's sum has wrapped: no vector is as long as the bound.
      have hlen := (new_inv hnew).1
      unfold kCheapPrepend at hwrap
      unfold toSize at hlen
      have hmax : b₀.buffer.length ≤ maxSize := by
        simp only [kCheapPrepend] at hlen
        unfold maxSize
        omega
      have hhuge : maxSize ≤ kCheapPrepend + max initialSize (2 * b₀.peakBacklog calls) := by
        unfold kCheapPrepend maxSize
        omega
      exact ⟨hmax.trans hhuge, hmax, .inr hhuge⟩
  exact (h₀.run hcalls le_rfl hrun).size_le

/-- The prefix drifts, and each append finds room only behind it. -/
def drifting : List Call :=
  [.append [1, 2, 3], .retrieve 2, .append [4, 5, 6], .retrieve 1, .readFd (.received [7, 8, 9]),
    .retrieveAsString 2, .append [10, 11]]

theorem storage_drifting : (run step newFour drifting).isSome ∧ newFour.peakBacklog drifting = 6 ∧
    ∀ b, run step newFour drifting = some b → b.buffer.length ≤ 8 + max 4 (2 * 6) := by
  have hpeak : newFour.peakBacklog drifting = 6 := by decide +kernel
  refine ⟨by decide +kernel, hpeak, fun b hrun => ?_⟩
  rw [← hpeak]
  exact storage_bounded 4 newFour b drifting (by decide) (by decide) (by simp [drifting]) hrun

end Buffer

end WebCore
