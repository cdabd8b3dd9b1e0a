import WebCore.BufferQueue

/-!
# Bytes in and bytes out

`readFd` offers `readv` two places: the writable tail of the vector and, when that is small, a
buffer on the stack. What has landed on the stack is appended afterwards, by an `append` that may
slide or reallocate the bytes just read.

**Theorem (`readFd_appends`).** On a valid buffer and for any result that `readv` can return, the
readable bytes grow by the bytes received, and a failure changes nothing.

`retrieveAsString(len)` takes its string from `len` bytes at `peek()`, however many are readable;
only the `retrieve` behind it looks at that.

**Theorem (`retrieveAsString_iff`).** It returns the bytes that it consumes iff so many are
readable.
-/

namespace WebCore

open Splice

namespace Buffer

/-! ## A scatter read -/

/-- `readv` delivers no more than the vectors that `readFd` passes can hold. -/
def ReadResult.Fits (b : Buffer) : ReadResult → Prop
  | .received bytes => bytes.length ≤ b.readCapacity
  | .failed _ => True

instance (b : Buffer) : ∀ r : ReadResult, Decidable (r.Fits b)
  | .received bytes => inferInstanceAs (Decidable (bytes.length ≤ b.readCapacity))
  | .failed _ => inferInstanceAs (Decidable True)

/-- What the writable tail cannot take fits on the stack. -/
theorem extra_le {b : Buffer} {n : Nat} (hn : n ≤ b.readCapacity) :
    n - b.writableBytes ≤ extrabufSize := by
  unfold readCapacity at hn
  split at hn <;> omega

/-- No sum wraps when it is appended behind a full vector. -/
theorem extra_lt {b : Buffer} {n : Nat} (h : b.Valid) (hn : n ≤ b.readCapacity) :
    b.buffer.length + (n - b.writableBytes) < 2 ^ 64 := by
  have hextra := extra_le hn
  have hsize := h.size_lt
  unfold extrabufSize at hextra
  omega

/-- A read that the writable tail holds. -/
theorem readFd_tail {b : Buffer} {bytes : List UInt8} (h : b.Valid)
    (hle : bytes.length ≤ b.writableBytes) :
    ∃ b', b.readFd (.received bytes) = .ok (b', bytes.length, none) ∧ b'.Valid ∧
      b'.readable = b.readable ++ bytes ∧ b'.buffer.length = b.buffer.length := by
  have hw := h.writer_le
  have hroom : b.writerIndex + bytes.length ≤ b.buffer.length := by
    rw [h.writableBytes_eq] at hle; omega
  have hsum : toSize (b.writerIndex + bytes.length) = b.writerIndex + bytes.length :=
    toSize_add (by have := h.size_lt; omega)
  obtain ⟨hv, hread⟩ := store_spec bytes h hroom
  refine ⟨_, ?_, hv, hread, length_splice _ _ _⟩
  simp only [readFd, List.take_of_length_le hle, if_pos hle, hsum]

/-- After a read that has filled the writable tail, the rest is appended. -/
theorem readFd_extra {b : Buffer} {bytes : List UInt8} (h : b.Valid)
    (hlt : b.writableBytes < bytes.length) :
    ∃ b₁ : Buffer, b₁.Valid ∧ b₁.readable = b.readable ++ bytes.take b.writableBytes ∧
      b₁.readerIndex = b.readerIndex ∧ b₁.writerIndex = b.buffer.length ∧
      b₁.buffer.length = b.buffer.length ∧
      b.readFd (.received bytes) = (b₁.append (bytes.drop b.writableBytes)).map
        fun b' => (b', (bytes.length : Int), none) := by
  have hw := h.writer_le
  have hlen : (bytes.take b.writableBytes).length = b.writableBytes := by
    rw [List.length_take]; omega
  have hfull : b.writerIndex + (bytes.take b.writableBytes).length = b.buffer.length := by
    rw [hlen, h.writableBytes_eq]; omega
  obtain ⟨hv, hread⟩ := store_spec (bytes.take b.writableBytes) h hfull.le
  rw [hfull] at hv hread
  refine ⟨_, hv, hread, rfl, rfl, length_splice _ _ _, ?_⟩
  simp only [readFd, if_neg (show ¬ bytes.length ≤ b.writableBytes by omega), length_splice]
  cases append (bytes.drop b.writableBytes) ⟨splice b.buffer b.writerIndex
    (bytes.take b.writableBytes), b.readerIndex, b.buffer.length⟩ <;> rfl

/-- **A scatter read appends what was received.** For every result that `readv` can return: a
failure leaves the buffer as it is and sets `*saveErrno`; bytes received are readable behind what
was readable, and only `0 < n - writable <= sizeof(extrabuf)` of them come out of `extrabuf`. The
append of these throws only when the vector would have to be longer than it can be. -/
theorem readFd_appends (b : Buffer) (r : ReadResult) (h : b.Valid) (hr : r.Fits b) :
    match r with
    | .failed errno => b.readFd r = .ok (b, -1, some errno)
    | .received bytes =>
      (b.writableBytes < bytes.length → 0 < toSize (bytes.length - b.writableBytes) ∧
        toSize (bytes.length - b.writableBytes) ≤ extrabufSize) ∧
      ((∃ b', b.readFd r = .ok (b', bytes.length, none) ∧ b'.Valid ∧
          b'.readable = b.readable ++ bytes) ∨
        (b.readFd r = .error .vectorTooLong ∧ b.writableBytes < bytes.length ∧
          maxSize < b.buffer.length + (bytes.length - b.writableBytes))) := by
  cases r with
  | failed errno => rfl
  | received bytes =>
    have hextra : bytes.length - b.writableBytes ≤ extrabufSize := extra_le hr
    refine ⟨fun hlt => ?_, ?_⟩
    · have hsub : toSize (bytes.length - b.writableBytes) = bytes.length - b.writableBytes := by
        have hlt' := extra_lt h hr
        have hle := h.writableBytes_eq
        exact toSize_sub hlt.le (by omega)
      omega
    · rcases Nat.lt_or_ge b.writableBytes bytes.length with hlt | hle
      · obtain ⟨b₁, hv, hread, -, hwriter, -, heq⟩ := readFd_extra h hlt
        have hfit : b₁.writerIndex + (bytes.drop b.writableBytes).length < 2 ^ 64 := by
          rw [hwriter, List.length_drop]
          exact extra_lt h hr
        rcases append_spec (bytes.drop b.writableBytes) hv hfit with
          ⟨b', hb', hv', hread', -⟩ | ⟨hb', hmax⟩
        · refine .inl ⟨b', by rw [heq, hb']; rfl, hv', ?_⟩
          rw [hread', hread, List.append_assoc, List.take_append_drop]
        · rw [hwriter, List.length_drop] at hmax
          exact .inr ⟨by rw [heq, hb']; rfl, hlt, hmax⟩
      · obtain ⟨b', hb', hv', hread, -⟩ := readFd_tail h hle
        exact .inl ⟨b', hb', hv', hread⟩

/-- A buffer with one byte read, one readable and two writable. -/
def small : Buffer := ⟨[0, 0, 0, 0, 0, 0, 0, 0, 5, 6, 7, 8], 9, 10⟩

theorem valid_small : small.Valid := ⟨by decide, by decide, by decide, by decide⟩

/-- Five bytes arrive, three of them in `extrabuf`. -/
theorem readFd_appends_small :
    ∃ b', small.readFd (.received [1, 2, 3, 4, 5]) = .ok (b', 5, none) ∧ b'.Valid ∧
      b'.readable = [6] ++ [1, 2, 3, 4, 5] := by
  have h := readFd_appends small (.received [1, 2, 3, 4, 5]) valid_small (by decide)
  rcases h.2 with h | ⟨-, -, hmax⟩
  · exact h
  · exact absurd hmax (by decide)

/-! ## A string of a given length -/

/-- What `retrieveAsString(len)` is for: with the readable bytes that are left, its string makes up
the readable bytes of before. It lies in `[readerIndex, writerIndex)`, and is the string of
`retrieveAllAsString` when all of them are asked for. -/
def ReturnsConsumed (len : Nat) (b : Buffer) : Prop :=
  ∃ result b', b.retrieveAsString len = some (result, b') ∧
    result ++ b'.readable = b.readable ∧
    result.length = min len b.readableBytes ∧
    result = b.peek result.length ∧ b.readerIndex + result.length ≤ b.writerIndex ∧
    (b.readableBytes ≤ len → (result, b') = b.retrieveAllAsString)

/-- **`retrieveAsString` returns what it consumes iff so many bytes are readable.** -/
theorem retrieveAsString_iff (b : Buffer) (len : Nat) (h : b.Valid) :
    b.ReturnsConsumed len ↔ len ≤ b.readableBytes := by
  have hr := h.reader_le
  have hw := h.writer_le
  have hrb := h.readableBytes_eq
  constructor
  · rintro ⟨result, b', hret, -, hlen, -, hin, -⟩
    simp only [retrieveAsString, Option.ite_none_right_eq_some, Option.some.injEq,
      Prod.mk.injEq] at hret
    obtain ⟨hfit, rfl, -⟩ := hret
    simp only [peek, List.length_take, List.length_drop] at hlen hin
    omega
  · intro hle
    obtain ⟨-, hleft, -⟩ := retrieve_spec len h
    have hpeek : b.peek len = b.readable.take len := by
      rw [readable, peek, peek, List.take_take, min_eq_left (by omega)]
    have hlen : (b.peek len).length = len := by
      rw [hpeek, List.length_take, h.length_readable]; omega
    refine ⟨b.peek len, b.retrieve len, if_pos (by omega), ?_, ?_, by rw [hlen], ?_, fun hall => ?_⟩
    · rw [hleft, hpeek, List.take_append_drop]
    · rw [hlen]; omega
    · rw [hlen]; omega
    · obtain rfl : len = b.readableBytes := le_antisymm hle hall
      rw [retrieve, if_neg (lt_irrefl _), retrieveAllAsString]

theorem retrieveAsString_one : small.ReturnsConsumed 1 :=
  (retrieveAsString_iff small 1 valid_small).2 (by decide)

/-- **An over-long string has bytes in it that are not readable.** The buffer holds `6`. Asked for
two bytes, it returns the stale `7` as well; asked for four, it reads beyond the vector. -/
theorem retrieveAsString_stale :
    small.readable = [6] ∧
    small.retrieveAsString 2 = some ([6, 7], small.retrieveAll) ∧
    small.retrieveAsString 4 = none ∧ ¬ small.ReturnsConsumed 2 ∧ ¬ small.ReturnsConsumed 4 := by
  refine ⟨by decide, by decide, by decide, ?_, ?_⟩
  · rintro ⟨result, b', hret, -, hlen, -⟩
    obtain ⟨rfl, -⟩ : [6, 7] = result ∧ small.retrieveAll = b' := by
      simpa [show small.retrieveAsString 2 = some ([6, 7], small.retrieveAll) by decide] using hret
    exact absurd hlen (by decide)
  · rintro ⟨result, b', hret, -⟩
    simp [show small.retrieveAsString 4 = none by decide] at hret

end Buffer

end WebCore
