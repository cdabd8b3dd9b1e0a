import WebCore.ConnStep
import WebCore.OutputStream

/-!
# The backlog and the write interest

What the kernel does not take at once waits in `_outputBuffer`, and the loop has to be told when
the socket takes more: `sendInLoop` appends and enables writing, `handleWrite` retrieves and
disables it. `Backlogged c` says that the two go together.

**Theorem (`backlog_iff_interest`).** Between `connectEstablished` and the end of a connection,
bytes are buffered iff the channel wants to write iff its epoll mask has `EPOLLOUT`, whatever the
kernel answers.

**Theorem (`failed_write_mishandled`).** A direct `write` that fails is mishandled: `sendInLoop`
takes -1 for a number of bytes, does not look at `errno`, and buffers the payload together with the
byte in front of it.
-/

namespace WebCore

open Transition

namespace TcpConnection

variable {C T : Type*}

/-- Bytes are buffered iff there is write interest, on a channel that is registered. -/
structure Backlogged (c : TcpConnection C T) : Prop where
  registered : ConnSystem.Registered .alive c
  valid : c.outputBuffer.Valid
  waits : 0 < c.outputBuffer.readableBytes ↔ c.isWriting = true

theorem isWriting_eq {c c' : TcpConnection C T} (hp : c'.poller = c.poller)
    (hc : c'.channel = c.channel) : c'.isWriting = c.isWriting := by
  unfold isWriting
  rw [hc]
  exact congrArg (fun p => (p.channel c.channel).isWriting) hp

/-- A change that is to neither the poller nor the buffer. -/
theorem Backlogged.of_eq {c c' : TcpConnection C T} (h : Backlogged c) (hp : c'.poller = c.poller)
    (hc : c'.channel = c.channel) (hb : c'.outputBuffer = c.outputBuffer) : Backlogged c' :=
  ⟨h.registered.of_poller hp hc, hb ▸ h.valid, by rw [hb, isWriting_eq hp hc]; exact h.waits⟩

/-- What the kernel holds for a channel that is alive. -/
theorem isWriting_iff {c : TcpConnection C T} (h : ConnSystem.Registered .alive c) :
    c.isWriting = true ↔ ∃ ev, c.poller.interest (c.poller.channel c.channel).fd = some ev ∧
      ev.events.has EPOLLOUT = true := by
  rw [(h.sound.agrees c.channel).interest_eq, if_pos h.entry.1]
  constructor
  · exact fun hw => ⟨_, rfl, hw⟩
  · rintro ⟨ev, hev, hw⟩
    obtain rfl := Option.some.inj hev
    exact hw

theorem readableBytes_pos_iff {b : Buffer} (h : b.Valid) :
    0 < b.readableBytes ↔ b.readable ≠ [] := by
  rw [← h.length_readable, List.length_pos_iff]

variable [DecidableEq C]

/-! ## One call -/

theorem Sends.registered {c c' : TcpConnection C T} (h : Sends c c')
    (hr : ConnSystem.Registered .alive c) : ConnSystem.Registered .alive c' := by
  rcases h.rest with ⟨-, hp⟩ | ⟨-, hp⟩
  · exact hr.of_poller hp h.channel
  · split at hp
    · exact hr.of_poller hp h.channel
    · exact hr.of_apply .enableWriting hp h.channel

/-- What is buffered when `n` bytes are left over. -/
theorem bufferRest_readable {c c' : TcpConnection C T} {mem : Memory} {rest : Int} {n : Nat}
    (hv : c.outputBuffer.Valid) (hn : n ≤ maxSize + 1) (hpos : 0 < n)
    (hok : c.bufferRest mem rest n = .ok c') :
    c'.outputBuffer.Valid ∧ c'.isWriting = true ∧
      c'.outputBuffer.readable = c.outputBuffer.readable ++ readBytes mem rest n := by
  rcases bufferRest_inv hok with ⟨hzero, -⟩ | ⟨b, hb, rfl⟩
  · omega
  · have hw := hv.writer_le
    have hsize := hv.size_le
    have hlen : c.outputBuffer.writerIndex + (readBytes mem rest n).length < 2 ^ 64 := by
      rw [length_readBytes]
      unfold maxSize at hn hsize
      omega
    rcases Buffer.append_spec (readBytes mem rest n) hv hlen with ⟨b', hb', hv', hread, -⟩ | ⟨he, -⟩
    · obtain rfl : b' = b := Except.ok.inj (hb'.symm.trans hb)
      exact ⟨hv', isWriting_requestWrite _, hread⟩
    · rw [he] at hb
      cases hb

theorem Backlogged.bufferRest {c c' : TcpConnection C T} (h : Backlogged c) {mem : Memory}
    {rest : Int} {n : Nat} (hn : n ≤ maxSize + 1) (hok : c.bufferRest mem rest n = .ok c') :
    Backlogged c' := by
  by_cases hpos : 0 < n
  · obtain ⟨hv, hw, hread⟩ := bufferRest_readable h.valid hn hpos hok
    refine ⟨(sends_bufferRest hok).registered h.registered, hv, iff_of_true ?_ hw⟩
    rw [readableBytes_pos_iff hv, hread, ← List.length_pos_iff, List.length_append,
      length_readBytes]
    omega
  · obtain rfl : n = 0 := by omega
    rw [bufferRest_zero] at hok
    obtain rfl := Except.ok.inj hok
    exact h

/-- **A send keeps the backlog**, whatever its direct `write` returns. -/
theorem Backlogged.sendInLoop {c c' : TcpConnection C T} (h : Backlogged c) {mem : Memory}
    {data : Int} {len : Nat} {nwrote : Int} {r : WriteResult} (hlen : len ≤ maxSize)
    (hr : r.Bounded len) (hok : c.sendInLoop mem data len nwrote r = .ok c') : Backlogged c' := by
  obtain ⟨hlow, hhigh⟩ := hr
  have hnote : Backlogged (c.note (.write ((readBytes mem data len).take r.ret.toNat))) :=
    h.of_eq rfl rfl rfl
  unfold TcpConnection.sendInLoop at hok
  split at hok
  · dsimp only at hok
    split at hok
    · -- A failed `write` leaves one byte more than the payload has.
      have hrem : toSize (len - r.ret) ≤ maxSize + 1 := by
        unfold toSize maxSize at *
        omega
      split at hok
      · exact (hnote.of_eq (poller_notifyWriteComplete _) rfl rfl).bufferRest hrem hok
      · exact hnote.bufferRest hrem hok
    · split at hok
      · obtain rfl := Except.ok.inj hok
        exact hnote
      · exact hnote.bufferRest (by omega) hok
  · exact h.bufferRest (by omega) hok

theorem isWriting_disableWriting {c c' : TcpConnection C T} (hr : ConnSystem.Registered .alive c)
    (hp : c'.poller = c.poller.apply false .disableWriting c.channel)
    (hc : c'.channel = c.channel) :
    c'.isWriting = false := by
  have hw : c'.isWriting =
      ((c.poller.apply false .disableWriting c.channel).channel c.channel).isWriting := by
    unfold isWriting
    rw [hc]
    exact congrArg (fun p => (p.channel c.channel).isWriting) hp
  rw [hw, EpollPoller.channel_apply (by simp)]
  obtain ⟨-, hev | hev⟩ := hr.entry
  all_goals
    simp only [Channel.isWriting, hev, EpollPoller.maskAfter]
    decide

/-- The last byte has been written: nothing waits, and writing is disabled. -/
theorem backlogged_writeFinished {c : TcpConnection C T} (hr : ConnSystem.Registered .alive c)
    (hv : c.outputBuffer.Valid) (hempty : c.outputBuffer.readableBytes = 0) :
    Backlogged c.writeFinished := by
  have hb := (writeFinished_output c).1
  have hp := poller_writeFinished c
  have hc := (quiet_writeFinished c).channel
  refine ⟨hr.of_apply .disableWriting hp hc, hb ▸ hv, ?_⟩
  rw [hb, hempty, isWriting_disableWriting hr hp hc]
  simp

/-- **A write event keeps the backlog**, whatever its `write` returns. -/
theorem Backlogged.handleWrite {c : TcpConnection C T} (h : Backlogged c) (r : WriteResult) :
    Backlogged (c.handleWrite r) := by
  obtain ⟨hv, -, -⟩ := Buffer.retrieve_spec r.ret.toNat h.valid
  unfold TcpConnection.handleWrite
  split
  · rename_i hw
    dsimp only
    split
    · split
      · rename_i hempty
        exact backlogged_writeFinished (h.registered.of_poller rfl rfl) hv hempty
      · rename_i hmore
        exact ⟨h.registered.of_poller rfl rfl, hv, iff_of_true (Nat.pos_of_ne_zero hmore) hw⟩
    · exact h.of_eq rfl rfl rfl
  · exact h

/-! ## Runs -/

/-- What happens to the output of a connection between its establishment and its end. -/
inductive OutputCall (C : Type*)
  | sendInLoop (mem : Memory) (data : Int) (len : Nat) (nwrote : Int) (r : WriteResult)
  | handleWrite (r : WriteResult)
  | shutdown
  | shutdownInLoop
  /-- another thread in `shutdown` stores `kDisconnected` -/
  | shutdownSet
  /-- an operation on another channel of the loop -/
  | other (op : ChannelOp) (channel : C)

/-- One call, with a payload that a string can hold and an answer that the kernel can give. -/
def callStep (c : TcpConnection C T) : OutputCall C → Option (TcpConnection C T)
  | .sendInLoop mem data len nwrote r =>
    if len ≤ maxSize ∧ r.Bounded len then (c.sendInLoop mem data len nwrote r).toOption else none
  | .handleWrite r =>
    if r.Bounded c.outputBuffer.readableBytes then some (c.handleWrite r) else none
  | .shutdown => some c.shutdown
  | .shutdownInLoop => some c.shutdownInLoop
  | .shutdownSet => some (c.setState .kDisconnected)
  | .other op channel =>
    if channel ≠ c.channel then some { c with sys := c.sys.applyOp op channel } else none

theorem Backlogged.step {c c' : TcpConnection C T} {call : OutputCall C} (h : Backlogged c)
    (hstep : callStep c call = some c') : Backlogged c' := by
  cases call with
  | sendInLoop mem data len nwrote r =>
    simp only [callStep, Option.ite_none_right_eq_some, toOption_eq_some] at hstep
    obtain ⟨⟨hlen, hr⟩, hok⟩ := hstep
    exact h.sendInLoop hlen hr hok
  | handleWrite r =>
    simp only [callStep, Option.ite_none_right_eq_some, Option.some.injEq] at hstep
    obtain ⟨-, rfl⟩ := hstep
    exact h.handleWrite r
  | shutdown =>
    obtain rfl := Option.some.inj hstep
    unfold TcpConnection.shutdown
    split
    · exact h.of_eq rfl rfl rfl
    · exact h
  | shutdownInLoop | shutdownSet =>
    obtain rfl := Option.some.inj hstep
    exact h.of_eq rfl rfl rfl
  | other op channel =>
    simp only [callStep, Option.ite_none_right_eq_some, Option.some.injEq] at hstep
    obtain ⟨hne, rfl⟩ := hstep
    have hrec := (EpollPoller.apply_frame false op channel c.poller).channel c.channel hne.symm
    refine ⟨⟨h.registered.sound.apply op channel, ?_⟩, h.valid, ?_⟩
    · show Stage.alive.Entry ((c.poller.apply false op channel).channel c.channel)
      rw [hrec]
      exact h.registered.entry
    · show _ ↔ ((c.poller.apply false op channel).channel c.channel).isWriting = true
      rw [hrec]
      exact h.waits

theorem backlogged_established {sys : LoopSystem LoopFunctor C T} {channel : C}
    (hs : sys.loop.poller.Sound) (hnew : Stage.fresh.Entry (sys.loop.poller.channel channel))
    (server : ServerEntry) (writeComplete highWater : Bool) :
    Backlogged (established sys channel server writeComplete highWater) := by
  have hr : ConnSystem.Registered .alive
      (established sys channel server writeComplete highWater) :=
    ConnSystem.Registered.of_apply (c := new sys channel server writeComplete highWater) ⟨hs, hnew⟩
      .enableReading rfl rfl
  have hw : (established sys channel server writeComplete highWater).isWriting = false := by
    show Channel.isWriting
      ((sys.loop.poller.apply false .enableReading channel).channel channel) = _
    rw [EpollPoller.channel_apply (by simp), Channel.isWriting, EpollPoller.maskAfter, hnew.2]
    show EventMask.has (kNoneEvent ||| kReadEvent) kWriteEvent = false
    decide
  refine ⟨hr, valid_initial, iff_of_false ?_ (by simp [hw])⟩
  show ¬ 0 < Buffer.initial.readableBytes
  decide

/-- **Bytes are buffered iff there is write interest.** From `connectEstablished` on, over any
sends, shutdowns and write events with any answers of the kernel, bytes are buffered iff the
channel wants to write iff its mask in the kernel's interest set has `EPOLLOUT`. -/
theorem backlog_iff_interest (sys : LoopSystem LoopFunctor C T) (channel : C)
    (server : ServerEntry) (writeComplete highWater : Bool) (hs : sys.loop.poller.Sound)
    (hnew : Stage.fresh.Entry (sys.loop.poller.channel channel)) (calls : List (OutputCall C))
    (c : TcpConnection C T)
    (h : run callStep (established sys channel server writeComplete highWater) calls = some c) :
    (0 < c.outputBuffer.readableBytes ↔ c.isWriting = true) ∧
    (c.isWriting = true ↔ ∃ ev, c.poller.interest (c.poller.channel c.channel).fd = some ev ∧
      ev.events.has EPOLLOUT = true) := by
  have hb : Backlogged c := run_invariant Backlogged (fun _ _ _ hb => hb.step)
    (backlogged_established hs hnew server writeComplete highWater) h
  exact ⟨hb.waits, isWriting_iff hb.registered⟩

/-- A short write, a failed write event, and the half-close that waits for the rest. -/
def stalled : List (OutputCall Bool) :=
  [.sendInLoop sampleMemory 0 3 9 ⟨1, 0⟩, .handleWrite ⟨-1, EWOULDBLOCK⟩,
    .other .enableReading false, .shutdown, .handleWrite ⟨1, 0⟩]

/-- The loop of `sample`. -/
def sampleLoop : LoopSystem LoopFunctor Bool Unit := .new (fun c => if c then 4 else 3) false

theorem sound_sampleLoop : sampleLoop.loop.poller.Sound := by
  have hfd : Function.Injective fun c : Bool => if c then (4 : Int) else 3 := by decide
  exact (EpollPoller.sound_new hfd).apply .enableReading false

theorem backlog_stalled :
    (run callStep (established sampleLoop true ⟨false, true, true, 0⟩ false false)
      stalled).isSome ∧
    ∀ c, run callStep (established sampleLoop true ⟨false, true, true, 0⟩ false false)
        stalled = some c →
      (0 < c.outputBuffer.readableBytes ↔ c.isWriting = true) ∧
      (c.isWriting = true ↔ ∃ ev, c.poller.interest (c.poller.channel c.channel).fd = some ev ∧
        ev.events.has EPOLLOUT = true) :=
  ⟨by decide +kernel, backlog_iff_interest sampleLoop true ⟨false, true, true, 0⟩ false false
    sound_sampleLoop ⟨rfl, rfl⟩ stalled⟩

/-! ## A direct write that fails -/

/-- The sizes that the high-water callback is to be told. -/
def highWaterMarks (c : TcpConnection C T) : List Nat :=
  c.sys.loop.pendingFunctors.filterMap fun
    | .highWaterMark size => some size
    | _ => none

/-- What is right after a direct `write` that has failed with `errno`: the payload is given up when
the peer is gone, and is buffered otherwise; and what is buffered comes out of the payload. -/
def FailureHandled (mem : Memory) (data : Int) (len : Nat) (errno : Int)
    (c c' : TcpConnection C T) : Prop :=
  (errno = EPIPE ∨ errno = ECONNRESET → c'.outputBuffer = c.outputBuffer ∧
    (c'.poller.channel c'.channel).events = (c.poller.channel c.channel).events ∧
    c'.highWaterMarks = c.highWaterMarks) ∧
  (errno ≠ EPIPE → errno ≠ ECONNRESET →
    c'.outputBuffer.readable = readBytes mem data len ∧ c'.isWriting = true) ∧
  ∃ (first : Int) (n : Nat), data ≤ first ∧ first + n ≤ data + len ∧
    c'.outputBuffer.readable = readBytes mem first n

/-- After a direct `write` that has failed, the buffer holds the payload behind the byte in front
of it, and there is write interest. -/
theorem sendInLoop_failed {c c' : TcpConnection C T} {mem : Memory} {data : Int} {len : Nat}
    {nwrote errno : Int} (hv : c.outputBuffer.Valid) (hlen : len ≤ maxSize)
    (hd : c.writesDirectly) (h : c.sendInLoop mem data len nwrote ⟨-1, errno⟩ = .ok c') :
    c'.outputBuffer.readable = readBytes mem (data - 1) (len + 1) ∧ c'.isWriting = true := by
  have hrem : toSize (len - -1) = len + 1 := by
    unfold toSize maxSize at *
    omega
  have hempty : c.outputBuffer.readable = [] := by
    rw [← List.length_eq_zero_iff, hv.length_readable, hd.2]
  unfold TcpConnection.sendInLoop at h
  simp only [if_pos hd, hrem, ne_eq, not_false_eq_true, if_true, Nat.add_eq_zero_iff, one_ne_zero,
    and_false, if_false, Int.reduceNeg, neg_eq_zero] at h
  obtain ⟨-, hw, hread⟩ := bufferRest_readable (by exact hv) (by omega) (by omega) h
  refine ⟨hread.trans ?_, hw⟩
  show c.outputBuffer.readable ++ _ = _
  rw [hempty, List.nil_append]
  rfl

/-- **A failed direct write is never handled right**, whatever the payload and whatever `errno`. -/
theorem failed_write_mishandled (c : TcpConnection C T) (mem : Memory) (data : Int) (len : Nat)
    (nwrote errno : Int) (hv : c.outputBuffer.Valid) (hlen : len ≤ maxSize)
    (hd : c.writesDirectly) :
    ¬ ∃ c', c.sendInLoop mem data len nwrote ⟨-1, errno⟩ = .ok c' ∧
      FailureHandled mem data len errno c c' := by
  rintro ⟨c', h, -, -, first, n, hlow, hhigh, hread⟩
  have hlength := congrArg List.length ((sendInLoop_failed hv hlen hd h).1.symm.trans hread)
  simp only [length_readBytes] at hlength
  omega

theorem failed_write_small : ¬ ∃ c', sample.sendInLoop sampleMemory 1 2 0 ⟨-1, EPIPE⟩ = .ok c' ∧
    FailureHandled sampleMemory 1 2 EPIPE sample c' :=
  failed_write_mishandled sample sampleMemory 1 2 0 EPIPE valid_initial (by decide)
    ⟨by decide +kernel, by decide⟩

/-- The payload is `1 2`. It is kept for a peer that is gone, and behind a byte that is not its
own. -/
theorem failed_write_kept :
    readBytes sampleMemory 1 2 = [1, 2] ∧
    ((sample.sendInLoop sampleMemory 1 2 0 ⟨-1, EPIPE⟩).toOption.map fun c =>
      (c.outputBuffer.readable, c.isWriting)) = some ([0, 1, 2], true) ∧
    ((sample.sendInLoop sampleMemory 1 2 0 ⟨-1, EWOULDBLOCK⟩).toOption.map fun c =>
      (c.outputBuffer.readable, c.isWriting)) = some ([0, 1, 2], true) ∧
    sample.isWriting = false := by
  decide +kernel

end TcpConnection

end WebCore
