import WebCore.Lib.Splice
import Mathlib

/-!
# `Buffer`

The growing byte buffer of `ZBuffer/buffer.cpp`: one vector with a consumed prefix, the readable
bytes `[readerIndex, writerIndex)` and a writable tail. `size_t` is a natural number, and every
sum or difference of the source goes through `toSize`, which reduces it modulo `2^64`.

`std::vector<char>::resize` throws for a size above `maxSize`; a function that can reach it
returns `Except LengthError`. Nothing is assigned before the throw in `ensureWritableBytes` and
`append`, so there an error means that the buffer is unchanged.
-/

namespace WebCore

open Splice

/-! ## `size_t` -/

/-- The conversion of an integer to `size_t`. -/
def toSize (i : Int) : Nat := (i % 2 ^ 64).toNat

theorem toSize_sub {m n : Nat} (h : n ≤ m) (hm : m < 2 ^ 64) : toSize (m - n) = m - n := by
  unfold toSize; omega

theorem toSize_add {m n : Nat} (h : m + n < 2 ^ 64) : toSize (m + n) = m + n := by
  unfold toSize; omega

/-- `vector<char>::max_size()`. -/
def maxSize : Nat := 2 ^ 63 - 1

/-- What `vector` throws when asked for more than `maxSize` elements. -/
inductive LengthError
  | vectorTooLong
deriving DecidableEq, Repr

theorem toOption_eq_some {ε α : Type*} {x : Except ε α} {a : α} :
    x.toOption = some a ↔ x = .ok a := by
  cases x <;> simp [Except.toOption]

/-- `vector::resize`: keep the old elements and value-initialise the new ones. -/
def resize (n : Nat) (xs : List UInt8) : Except LengthError (List UInt8) :=
  if n ≤ maxSize then .ok (xs.take n ++ List.replicate (n - xs.length) 0)
  else .error .vectorTooLong

/-! ## The class -/

structure Buffer where
  buffer : List UInt8
  readerIndex : Nat
  writerIndex : Nat
deriving DecidableEq, Repr

namespace Buffer

def kCheapPrepend : Nat := 8

def kInitialSize : Nat := 1024

/-- The constructor. The vector throws when it is asked for too many elements. -/
def new (initialSize : Nat) : Except LengthError Buffer := do
  let buffer ← resize (toSize (kCheapPrepend + initialSize)) []
  return ⟨buffer, kCheapPrepend, kCheapPrepend⟩

def readableBytes (b : Buffer) : Nat := toSize (b.writerIndex - b.readerIndex)

def writableBytes (b : Buffer) : Nat := toSize (b.buffer.length - b.writerIndex)

def prependableBytes (b : Buffer) : Nat := toSize (b.readerIndex - kCheapPrepend)

/-- The bytes `[peek(), peek() + len)`, as far as they lie inside the vector. -/
def peek (b : Buffer) (len : Nat) : List UInt8 := (b.buffer.drop b.readerIndex).take len

/-- The readable bytes. -/
def readable (b : Buffer) : List UInt8 := b.peek (b.writerIndex - b.readerIndex)

def retrieveAll (b : Buffer) : Buffer :=
  { b with readerIndex := kCheapPrepend, writerIndex := kCheapPrepend }

def retrieve (len : Nat) (b : Buffer) : Buffer :=
  if len < b.readableBytes then { b with readerIndex := toSize (b.readerIndex + len) }
  else b.retrieveAll

def retrieveAllAsString (b : Buffer) : List UInt8 × Buffer :=
  (b.peek b.readableBytes, b.retrieveAll)

/-- `retrieveAsString`: it reads `len` bytes from `peek()` on, and only then looks at how many there
are. `none` stands for a read that leaves the vector. -/
def retrieveAsString (len : Nat) (b : Buffer) : Option (List UInt8 × Buffer) :=
  if b.readerIndex + len ≤ b.buffer.length then some (b.peek len, b.retrieve len) else none

/-- Grow the vector, or slide the unread bytes over the consumed prefix. -/
def makeSpace (len : Nat) (b : Buffer) : Except LengthError Buffer :=
  if toSize (b.writableBytes + b.prependableBytes) < len then do
    let buffer ← resize (toSize (b.writerIndex + len)) b.buffer
    return { b with buffer }
  else
    let readable := b.readableBytes
    .ok { buffer := copyWithin (b.writerIndex - b.readerIndex) b.readerIndex kCheapPrepend b.buffer
          readerIndex := kCheapPrepend
          writerIndex := toSize (kCheapPrepend + readable) }

def ensureWritableBytes (len : Nat) (b : Buffer) : Except LengthError Buffer :=
  if b.writableBytes < len then b.makeSpace len else .ok b

/-- `append(data, len)`, where `data` is what the pointer reads for `len` bytes. -/
def append (data : List UInt8) (b : Buffer) : Except LengthError Buffer := do
  let b ← b.ensureWritableBytes data.length
  return { b with buffer := splice b.buffer b.writerIndex data
                  writerIndex := toSize (b.writerIndex + data.length) }

/-- What `readv` does: it delivers some bytes, or it fails with an `errno`. -/
inductive ReadResult
  | received (bytes : List UInt8)
  | failed (errno : Int)
deriving DecidableEq, Repr

/-- The stack buffer of `readFd`, in bytes. -/
def extrabufSize : Nat := 65536

/-- The bytes that the `iovcnt` vectors of `readFd` can hold. -/
def readCapacity (b : Buffer) : Nat :=
  if b.writableBytes < extrabufSize then b.writableBytes + extrabufSize else b.writableBytes

/-- `readFd`: the buffer after it, its result, and `*saveErrno` where it is set. `readv` fills the
writable tail first and `extrabuf` with the rest. -/
def readFd (r : ReadResult) (b : Buffer) : Except LengthError (Buffer × Int × Option Int) :=
  match r with
  | .failed errno => .ok (b, -1, some errno)
  | .received bytes =>
    let writable := b.writableBytes
    let n := bytes.length
    let b := { b with buffer := splice b.buffer b.writerIndex (bytes.take writable) }
    if n ≤ writable then .ok ({ b with writerIndex := toSize (b.writerIndex + n) }, n, none)
    else do
      let b ← append (bytes.drop writable) { b with writerIndex := b.buffer.length }
      return (b, n, none)

end Buffer

end WebCore
