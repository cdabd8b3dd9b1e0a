import WebCore.BufferQueue
import WebCore.TcpConnection

/-!
# The output stream

A payload reaches the kernel by the direct `write` of `sendInLoop`, or through `_outputBuffer` and
`handleWrite`. `stream c` is what the kernel has accepted followed by what is buffered: a send
appends its payload to it (`sendInLoop_spec`), and a write event moves bytes from its second part
to its first (`handleWrite_spec`).

On the path with output pending, `sendInLoop` passes `data + nwrote` to `append` although nothing
has assigned `nwrote`, so the bytes that it buffers are those behind a stray pointer
(`stream_corrupted`).

**Theorem (`output_stream_integrity`).** As long as that path is taken only with an empty payload
or with a `nwrote` that happens to be zero, the stream is the concatenation of the payloads.
-/

namespace WebCore

namespace TcpConnection

variable {C T : Type*}

/-- The bytes that the kernel has accepted. -/
def written (log : List ConnEvent) : List UInt8 :=
  log.flatMap fun
    | .write bytes => bytes
    | _ => []

@[simp] theorem written_append (log log' : List ConnEvent) :
    written (log ++ log') = written log ++ written log' := by
  simp [written]

@[simp] theorem written_write (bytes : List UInt8) : written [.write bytes] = bytes := by
  simp [written]

@[simp] theorem written_shutdownInLoop (c : TcpConnection C T) :
    written c.shutdownInLoop.log = written c.log := by
  unfold shutdownInLoop
  dsimp only
  split <;> simp [written]

/-- The bytes that the kernel has accepted, then the bytes that are buffered. -/
def stream (c : TcpConnection C T) : List UInt8 := written c.log ++ c.outputBuffer.readable

/-- From `c` to `c'` the stream grows by `bytes`, and the storage by no more. -/
structure Appends (bytes : List UInt8) (c c' : TcpConnection C T) : Prop where
  valid : c'.outputBuffer.Valid
  stream_eq : c'.stream = c.stream ++ bytes
  size_le : c'.outputBuffer.buffer.length ≤ c.outputBuffer.buffer.length + bytes.length

variable [DecidableEq C]

/-! ## One send -/

theorem bufferRest_spec {c : TcpConnection C T} (mem : Memory) (rest : Int) {n : Nat}
    (hv : c.outputBuffer.Valid) (hn : n ≤ maxSize) :
    (∃ c', c.bufferRest mem rest n = .ok c' ∧ Appends (readBytes mem rest n) c c') ∨
    (c.bufferRest mem rest n = .error .vectorTooLong ∧
      maxSize < c.outputBuffer.buffer.length + n) := by
  have hw := hv.writer_le
  have hs := hv.size_lt
  unfold bufferRest
  by_cases hpos : n > 0
  · rw [if_pos hpos]
    have hlen : c.outputBuffer.writerIndex + (readBytes mem rest n).length < 2 ^ 64 := by
      rw [length_readBytes]; unfold maxSize at hn; omega
    rcases Buffer.append_spec (readBytes mem rest n) hv hlen with
      ⟨b, hb, hv', hread, hsize⟩ | ⟨hb, hmax⟩
    · left
      refine ⟨_, by simp only [notifyHighWater, hb]; rfl, ?_⟩
      rw [length_readBytes] at hsize
      refine ⟨hv', ?_, ?_⟩
      · simp [stream, note, setOutput, requestWrite, written, hread]
      · show b.buffer.length ≤ _
        rw [length_readBytes]; omega
    · right
      rw [length_readBytes] at hmax
      exact ⟨by simp only [notifyHighWater, hb], by omega⟩
  · left
    obtain rfl : n = 0 := by omega
    exact ⟨c, by simp, hv, by simp [readBytes], by simp⟩

/-- What the direct `write` of a payload returns: it accepts some bytes, and none only when there
are none. -/
abbrev WriteResult.Accepts (len : Nat) (r : WriteResult) : Prop :=
  1 ≤ r.ret ∧ r.ret ≤ len ∨ r.ret = 0 ∧ len = 0

theorem take_readBytes (mem : Memory) (data : Int) {n len : Nat} (h : n ≤ len) :
    (readBytes mem data len).take n = readBytes mem data n := by
  obtain ⟨k, rfl⟩ := Nat.exists_eq_add_of_le h
  rw [← readBytes_append, List.take_append_of_le_length (by simp),
    List.take_of_length_le (by simp)]

/-- **A send appends its payload**, unless it reads the unassigned local. -/
theorem sendInLoop_spec {c : TcpConnection C T} (mem : Memory) (data : Int) {len : Nat}
    {nwrote : Int} {r : WriteResult} (hv : c.outputBuffer.Valid) (hlen : len ≤ maxSize)
    (hr : c.writesDirectly → WriteResult.Accepts len r)
    (hok : len = 0 ∨ c.writesDirectly ∨ nwrote = 0) :
    (∃ c', c.sendInLoop mem data len nwrote r = .ok c' ∧
      Appends (readBytes mem data len) c c') ∨
    (c.sendInLoop mem data len nwrote r = .error .vectorTooLong ∧
      maxSize < c.outputBuffer.buffer.length + len) := by
  unfold sendInLoop
  by_cases hd : c.writesDirectly
  · have hempty : c.outputBuffer.readable = [] :=
      List.eq_nil_of_length_eq_zero (by rw [hv.length_readable, hd.2])
    rw [if_pos hd]
    rcases hr hd with ⟨hpos, hle⟩ | ⟨h0, rfl⟩
    · obtain ⟨n, hn⟩ := Int.eq_ofNat_of_zero_le (show 0 ≤ r.ret by omega)
      have hnlen : n ≤ len := by omega
      have hrem : toSize (len - n) = len - n :=
        toSize_sub hnlen (by unfold maxSize at hlen; omega)
      simp only [hn, Int.toNat_natCast, take_readBytes mem data hnlen, hrem,
        if_pos (show (n : Int) ≠ 0 by omega)]
      -- What is left goes to the buffer, behind the `n` bytes that the kernel has taken.
      have key : ∀ c₁ : TcpConnection C T, c₁.outputBuffer = c.outputBuffer →
          c₁.log = c.log ++ [.write (readBytes mem data n)] →
          (∃ c', c₁.bufferRest mem (data + n) (len - n) = .ok c' ∧
            Appends (readBytes mem data len) c c') ∨
          (c₁.bufferRest mem (data + n) (len - n) = .error .vectorTooLong ∧
            maxSize < c.outputBuffer.buffer.length + len) := by
        intro c₁ hb hlog
        have hv₁ : c₁.outputBuffer.Valid := by rw [hb]; exact hv
        rcases bufferRest_spec mem (data + n) hv₁ (show len - n ≤ maxSize by omega) with
          ⟨c', hc', ha⟩ | ⟨he, hmax⟩
        · refine .inl ⟨c', hc', ha.valid, ?_, ?_⟩
          · rw [ha.stream_eq]
            simp only [stream, hb, hlog, hempty, written_append, written_write, List.append_nil,
              List.append_assoc]
            rw [readBytes_append, Nat.add_sub_cancel' hnlen]
          · have := ha.size_le
            rw [hb] at this
            simp only [length_readBytes] at this ⊢
            omega
        · exact .inr ⟨he, by rw [hb] at hmax; omega⟩
      split
      · exact key _ rfl rfl
      · exact key _ rfl rfl
    · left
      rw [h0]
      refine ⟨c.note (.write []), ?_, hv, by simp [stream, note, readBytes], by simp [note]⟩
      simp [bufferRest, readBytes]
  · rw [if_neg hd]
    rcases hok with rfl | h | rfl
    · exact .inl ⟨c, by simp [bufferRest], hv, by simp [readBytes], by simp⟩
    · exact absurd h hd
    · rw [Int.add_zero]
      exact bufferRest_spec mem data hv hlen

/-! ## One write event -/

theorem writeFinished_output (c : TcpConnection C T) :
    c.writeFinished.outputBuffer = c.outputBuffer ∧
      written c.writeFinished.log = written c.log := by
  unfold writeFinished
  dsimp only
  split
  · exact ⟨rfl, written_shutdownInLoop _⟩
  · exact ⟨rfl, rfl⟩

/-- **A write event moves bytes to the kernel**, and loses none. -/
theorem handleWrite_spec {c : TcpConnection C T} {r : WriteResult} (hv : c.outputBuffer.Valid) :
    Appends [] c (c.handleWrite r) := by
  obtain ⟨hv', hread, hbuf⟩ := Buffer.retrieve_spec r.ret.toNat hv
  unfold handleWrite
  split
  · rw [Buffer.peek_readableBytes hv]
    have hmoved : ∀ c' : TcpConnection C T,
        c'.outputBuffer = c.outputBuffer.retrieve r.ret.toNat →
        written c'.log = written c.log ++ c.outputBuffer.readable.take r.ret.toNat →
        Appends [] c c' := fun c' hb hlog =>
      ⟨by rw [hb]; exact hv', by simp [stream, hb, hlog, hread], by simp [hb, hbuf]⟩
    dsimp only
    split
    · split
      · obtain ⟨hb, hlog⟩ := writeFinished_output ((c.note (.write (c.outputBuffer.readable.take
          r.ret.toNat))).setOutput (c.outputBuffer.retrieve r.ret.toNat))
        exact hmoved _ hb (hlog.trans (by simp [setOutput, note]))
      · exact hmoved _ rfl (by simp [setOutput, note])
    · have : r.ret.toNat = 0 := by omega
      exact ⟨hv, by simp [handleError, stream, note, this], by simp [handleError, note]⟩
  · exact ⟨hv, by simp, by simp⟩

/-! ## Runs -/

/-- What the loop thread does to the output of a connection. -/
inductive OutputOp
  | sendInLoop (mem : Memory) (data : Int) (len : Nat) (nwrote : Int) (r : WriteResult)
  | handleWrite (r : WriteResult)

/-- The bytes that the operation is called to send. -/
def OutputOp.payload : OutputOp → List UInt8
  | .sendInLoop mem data len _ _ => readBytes mem data len
  | .handleWrite _ => []

def outputStep (c : TcpConnection C T) : OutputOp → Option (TcpConnection C T)
  | .sendInLoop mem data len nwrote r => (c.sendInLoop mem data len nwrote r).toOption
  | .handleWrite r => some (c.handleWrite r)

def outputRun (c : TcpConnection C T) (ops : List OutputOp) : Option (TcpConnection C T) :=
  Transition.run outputStep c ops

/-- A payload is not longer than a string can be, a direct `write` accepts some of it, and a write
event accepts any part of the backlog or fails. -/
def KernelAnswers (c : TcpConnection C T) : OutputOp → Prop
  | .sendInLoop _ _ len _ r => len ≤ maxSize ∧ (c.writesDirectly → WriteResult.Accepts len r)
  | .handleWrite r => r.Bounded c.outputBuffer.readableBytes

/-- With output pending, the payload is empty or the unassigned `nwrote` is zero. -/
def NoStrayPointer (c : TcpConnection C T) : OutputOp → Prop
  | .sendInLoop _ _ len nwrote _ => len = 0 ∨ c.writesDirectly ∨ nwrote = 0
  | .handleWrite _ => True

instance (c : TcpConnection C T) : ∀ op, Decidable (c.KernelAnswers op)
  | .sendInLoop _ _ len _ r => inferInstanceAs
      (Decidable (len ≤ maxSize ∧ (c.writesDirectly → WriteResult.Accepts len r)))
  | .handleWrite r => inferInstanceAs (Decidable (r.Bounded c.outputBuffer.readableBytes))

instance (c : TcpConnection C T) : ∀ op, Decidable (c.NoStrayPointer op)
  | .sendInLoop _ _ len nwrote _ => inferInstanceAs
      (Decidable (len = 0 ∨ c.writesDirectly ∨ nwrote = 0))
  | .handleWrite _ => inferInstanceAs (Decidable True)

theorem outputStep_spec {c : TcpConnection C T} {op : OutputOp} (hv : c.outputBuffer.Valid)
    (hk : c.KernelAnswers op) (hok : c.NoStrayPointer op) :
    (∃ c', outputStep c op = some c' ∧ Appends op.payload c c') ∨
    (outputStep c op = none ∧ maxSize < c.outputBuffer.buffer.length + op.payload.length) := by
  cases op with
  | sendInLoop mem data len nwrote r =>
    rcases sendInLoop_spec mem data hv hk.1 hk.2 hok with
      ⟨c', hc', ha⟩ | ⟨he, hmax⟩
    · exact .inl ⟨c', by simp only [outputStep, hc']; rfl, ha⟩
    · exact .inr ⟨by simp only [outputStep, he]; rfl, by simpa [OutputOp.payload] using hmax⟩
  | handleWrite r => exact .inl ⟨_, rfl, handleWrite_spec hv⟩

theorem outputRun_spec {c : TcpConnection C T} {ops : List OutputOp} (hv : c.outputBuffer.Valid)
    (hk : Transition.Meets outputStep KernelAnswers c ops)
    (hok : Transition.Meets outputStep NoStrayPointer c ops) :
    (∃ c', c.outputRun ops = some c' ∧ Appends (ops.flatMap OutputOp.payload) c c') ∨
    (c.outputRun ops = none ∧
      maxSize < c.outputBuffer.buffer.length + (ops.flatMap OutputOp.payload).length) := by
  induction ops generalizing c with
  | nil => exact .inl ⟨c, rfl, hv, by simp, by simp⟩
  | cons op ops ih =>
    simp only [List.flatMap_cons, List.length_append]
    rcases outputStep_spec hv hk.1 hok.1 with ⟨c₁, hc₁, h₁⟩ | ⟨hc₁, hmax⟩
    · rcases ih h₁.valid (hk.2 c₁ hc₁) (hok.2 c₁ hc₁) with ⟨c₂, hc₂, h₂⟩ | ⟨hc₂, hmax⟩
      · refine .inl ⟨c₂, Transition.run_cons.2 ⟨c₁, hc₁, hc₂⟩, h₂.valid, ?_, ?_⟩
        · rw [h₂.stream_eq, h₁.stream_eq, List.append_assoc]
        · have := h₁.size_le; have := h₂.size_le
          rw [List.length_append]; omega
      · refine .inr ⟨?_, by have := h₁.size_le; omega⟩
        simp only [outputRun, Transition.run, hc₁, Option.bind_some]
        exact hc₂
    · exact .inr ⟨by simp only [outputRun, Transition.run, hc₁, Option.bind_none], by omega⟩

theorem valid_initial : Buffer.initial.Valid :=
  ⟨le_rfl, le_rfl, by simp [Buffer.initial], by
    rw [Buffer.initial, List.length_replicate]; decide⟩

/-- A connection after `connectEstablished`. -/
def established (sys : LoopSystem LoopFunctor C T) (channel : C) (server : ServerEntry)
    (writeComplete highWater : Bool) : TcpConnection C T :=
  (new sys channel server writeComplete highWater).connectEstablished

/-- **The output stream keeps its payloads.** Take an established connection and any sends and
write events, with any answers of the kernel. If no payload that meets pending output reads the
unassigned `nwrote` as anything but zero, then what the kernel has accepted followed by what is
buffered is the concatenation of the payloads, in the order of the sends. The run completes
whenever the vector can hold them. -/
theorem output_stream_integrity (sys : LoopSystem LoopFunctor C T) (channel : C)
    (server : ServerEntry) (writeComplete highWater : Bool) (ops : List OutputOp)
    (hk : Transition.Meets outputStep KernelAnswers
      (established sys channel server writeComplete highWater) ops)
    (hok : Transition.Meets outputStep NoStrayPointer
      (established sys channel server writeComplete highWater) ops) :
    (∀ c, (established sys channel server writeComplete highWater).outputRun ops = some c →
      written c.log ++ c.outputBuffer.readable = ops.flatMap OutputOp.payload) ∧
    (Buffer.kCheapPrepend + Buffer.kInitialSize + (ops.flatMap OutputOp.payload).length ≤ maxSize →
      ((established sys channel server writeComplete highWater).outputRun ops).isSome) := by
  have hsize : Buffer.initial.buffer.length = Buffer.kCheapPrepend + Buffer.kInitialSize :=
    List.length_replicate
  have hempty : (established sys channel server writeComplete highWater).stream = [] := by
    simp [stream, established, connectEstablished, note, channelOp, setState, new, written,
      Buffer.initial, Buffer.readable, Buffer.peek]
  rcases outputRun_spec valid_initial hk hok with ⟨c', hc', h⟩ | ⟨hnone, hmax⟩
  · refine ⟨fun c hc => ?_, fun _ => by rw [hc']; rfl⟩
    obtain rfl : c' = c := Option.some.inj (hc'.symm.trans hc)
    have := h.stream_eq
    rwa [hempty, List.nil_append] at this
  · refine ⟨fun c hc => ?_, fun hfit => ?_⟩
    · rw [hnone] at hc; cases hc
    · have hmax : maxSize < Buffer.initial.buffer.length +
        (ops.flatMap OutputOp.payload).length := hmax
      rw [hsize] at hmax; omega

/-! ## Two runs of one connection -/

/-- The connection is the channel `true`; the memory holds its addresses. -/
def sample : TcpConnection Bool Unit :=
  established (.new (fun c => if c then 4 else 3) false) true ⟨false, true, true, 0⟩ false false

def sampleMemory : Memory := fun i => UInt8.ofNat i.toNat

/-- A short write, a send behind what it has left on a run in which `nwrote` is zero, a write event
that takes both, and a direct send. -/
def drained : List OutputOp :=
  [.sendInLoop sampleMemory 0 3 9 ⟨1, 0⟩, .sendInLoop sampleMemory 3 2 0 ⟨0, 0⟩,
    .handleWrite ⟨4, 0⟩, .sendInLoop sampleMemory 5 2 9 ⟨2, 0⟩]

theorem stream_drained :
    (sample.outputRun drained).isSome ∧ ∀ c, sample.outputRun drained = some c →
      written c.log ++ c.outputBuffer.readable = drained.flatMap OutputOp.payload := by
  have h := output_stream_integrity (.new (fun c => if c then 4 else 3) false : LoopSystem _ _ Unit)
    true ⟨false, true, true, 0⟩ false false drained
    (by decide +kernel) (by decide +kernel)
  exact ⟨h.2 (by decide), h.1⟩

/-- A short write, and a send behind what it has left. -/
def strayed : List OutputOp :=
  [.sendInLoop sampleMemory 0 2 9 ⟨1, 0⟩, .sendInLoop sampleMemory 2 1 1 ⟨1, 0⟩]

/-- **A send behind pending output buffers bytes that are not its own.** Here the unassigned
`nwrote` happens to be one. -/
theorem stream_corrupted :
    (sample.outputRun strayed).map (fun c => written c.log ++ c.outputBuffer.readable) =
      some [0, 1, 3] ∧ strayed.flatMap OutputOp.payload = [0, 1, 2] := by
  decide +kernel

end TcpConnection

end WebCore
