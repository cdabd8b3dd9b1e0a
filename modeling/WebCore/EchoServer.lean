import WebCore.BufferStorage
import WebCore.Callbacks
import WebCore.Drain

/-!
# The echo server

The program of `main.cpp` on one of its connections. `onMessage` takes everything out of the input
buffer and sends it back, and `onConnection` calls `shutdown()` when the connection is down. A step
is one call of `handleEventWithGuard` with everything that it calls, the functor
`connectDestroyed`, or an operation on another channel of the loop.

A connection is `Up`, with an empty input buffer between two steps, or `Down`, with no interest in
any event.

**Theorem (`echo_exact`).** What has been written, followed by what is buffered, has as many bytes
as have been received, and is what has been received as long as no payload that meets pending
output reads the unassigned `nwrote`.

**Theorem (`echo_never_shuts_down`).** The `shutdown()` in `onConnection` never does anything:
whoever calls `onConnection` for a connection that is down has stored `kDisconnected` before.

**Theorem (`echo_delivered`).** Whatever has been received is sent back in the end, or the
connection is closed.
-/

namespace WebCore

open Transition TcpConnection

/-! ## The program -/

/-- What one dispatch finds in memory and is answered by the kernel. -/
structure EchoAnswers where
  read : Buffer.ReadResult
  mem : Memory
  /-- `res.c_str()` -/
  data : Int
  nwrote : Int
  /-- the `write` of `sendInLoop` -/
  direct : WriteResult
  /-- the `write` of `writeFd` -/
  write : WriteResult

/-- The bytes that a `readv` delivers. -/
def Buffer.ReadResult.bytes : Buffer.ReadResult → List UInt8
  | .received bytes => bytes
  | .failed _ => []

/-- A connection of the server. -/
structure EchoConnection (C T : Type*) where
  conn : TcpConnection C T
  calls : Nat
  /-- all bytes that `readv` has delivered -/
  received : List UInt8

inductive EchoAction (C : Type*)
  | event (revents : EventMask) (e : EchoAnswers)
  | connectDestroyed
  | other (op : ChannelOp) (channel : C)

namespace EchoServer

variable {C T : Type*}

def onConnection (c : TcpConnection C T) : TcpConnection C T :=
  if c.state = .kConnected then c else c.shutdown

variable [DecidableEq C]

def onMessage (e : EchoAnswers) (s : EchoConnection C T) : Option (EchoConnection C T) :=
  let res := s.conn.inputBuffer.retrieveAllAsString.1
  let inputBuffer := s.conn.inputBuffer.retrieveAllAsString.2
  if readBytes e.mem e.data res.length = res ∧ e.direct.Bounded res.length then
    ({ s.conn with inputBuffer }.send e.mem e.data ⟨s.calls, res⟩ e.nwrote e.direct).toOption.map
      fun conn => { s with conn, calls := s.calls + 1 }
  else none

/-! The member functions of `TcpConnection` that call `_connectionCallback`, with `onConnection` for
it, and `handleRead` with `onMessage` for `_messageCallback`. -/

def connectEstablished (c : TcpConnection C T) : TcpConnection C T :=
  onConnection (((c.setState .kConnected).channelOp .enableReading).note (.connectionCallback true))

def connectDestroyed (c : TcpConnection C T) : TcpConnection C T :=
  let c := c.note .connectDestroyed
  let c := if c.state = .kConnected then
    onConnection
      (((c.setState .kDisconnected).channelOp .disableAll).note (.connectionCallback false))
  else c
  c.channelOp .remove

def handleClose (c : TcpConnection C T) : TcpConnection C T :=
  let c := c.note .handleClose
  let c := (c.setState .kDisconnected).channelOp .disableAll
  (onConnection (c.note (.connectionCallback false))).closeCallback

def handleRead (e : EchoAnswers) (s : EchoConnection C T) : Option (EchoConnection C T) :=
  match s.conn.inputBuffer.readFd e.read with
  | .error _ => none
  | .ok (inputBuffer, n, _) =>
    let s := { s with conn := { s.conn with inputBuffer }, received := s.received ++ e.read.bytes }
    if n > 0 then onMessage e { s with conn := s.conn.note .messageCallback }
    else some { s with conn := if n = 0 then handleClose s.conn else s.conn.handleError }

/-- A handler of the connection's channel. -/
def runHandler (e : EchoAnswers) (s : EchoConnection C T) : Handler → Option (EchoConnection C T)
  | .error => some { s with conn := s.conn.handleError }
  | .read => if e.read.Fits s.conn.inputBuffer then handleRead e s else none
  | .write =>
    if e.write.Bounded s.conn.outputBuffer.readableBytes then
      some { s with conn := s.conn.handleWrite e.write }
    else none
  | .close => some { s with conn := handleClose s.conn }

/-- `handleEventWithGuard` for the mask `revents`. -/
def handleEvent (revents : EventMask) (e : EchoAnswers) (s : EchoConnection C T) :
    Option (EchoConnection C T) :=
  (handlers revents).foldlM (runHandler e) s

def step (s : EchoConnection C T) : EchoAction C → Option (EchoConnection C T)
  | .event revents e =>
    if s.conn.sys.loop.mayReport (s.conn.channel, revents) then handleEvent revents e s else none
  | .connectDestroyed => some { s with conn := connectDestroyed s.conn }
  | .other op channel =>
    if channel ≠ s.conn.channel then
      some { s with conn := s.conn.setSys (s.conn.sys.applyOp op channel) }
    else none

/-- A new connection; the server sets neither a write-complete nor a high-water callback. -/
def new (sys : LoopSystem LoopFunctor C T) (channel : C) (server : ServerEntry) :
    EchoConnection C T :=
  ⟨connectEstablished (.new sys channel server false false), 0, []⟩

/-! ## The callback for connections -/

omit [DecidableEq C] in
/-- **`onConnection` does nothing** when its caller has stored `kConnected` or `kDisconnected`. -/
theorem onConnection_eq {c : TcpConnection C T}
    (h : c.state = .kConnected ∨ c.state = .kDisconnected) : onConnection c = c := by
  unfold onConnection
  rcases h with h | h
  · rw [if_pos h]
  · rw [if_neg (by simp [h]), TcpConnection.shutdown, if_neg (by simp [h])]

theorem connectEstablished_eq (c : TcpConnection C T) :
    connectEstablished c = c.connectEstablished :=
  onConnection_eq (.inl rfl)

theorem handleClose_eq (c : TcpConnection C T) : handleClose c = c.handleClose :=
  congrArg TcpConnection.closeCallback (onConnection_eq (.inr rfl))

theorem connectDestroyed_eq (c : TcpConnection C T) : connectDestroyed c = c.connectDestroyed := by
  unfold connectDestroyed TcpConnection.connectDestroyed
  dsimp only
  split
  · rw [onConnection_eq (.inr rfl)]
  · rfl

/-! ## The invariant -/

section Invariant

omit [DecidableEq C]

/-- The connection is connected, and asks for write events while something is buffered. -/
structure Up (c : TcpConnection C T) : Prop where
  state : c.state = .kConnected
  backlogged : Backlogged c

/-- The connection is down, and asks for no event. -/
structure Down (c : TcpConnection C T) : Prop where
  state : c.state = .kDisconnected
  sound : c.poller.Sound
  events : (c.poller.channel c.channel).events = kNoneEvent
  valid : c.outputBuffer.Valid

structure Echoing (s : EchoConnection C T) : Prop where
  phase : Up s.conn ∨ Down s.conn
  input : s.conn.inputBuffer.Valid
  empty : s.conn.inputBuffer.readable = []
  unshut : .shutdownWrite ∉ s.conn.log

/-- What is received in a step, and what joins the stream: as many bytes, and the same ones where
the step is `exact`. -/
def Echoes (exactly : Prop) (s s' : EchoConnection C T) : Prop :=
  ∃ bytes sent, s'.received = s.received ++ bytes ∧ s'.conn.stream = s.conn.stream ++ sent ∧
    sent.length = bytes.length ∧ (exactly → sent = bytes)

theorem Echoes.of_eq {exactly : Prop} {s s' : EchoConnection C T} (hr : s'.received = s.received)
    (hs : s'.conn.stream = s.conn.stream) : Echoes exactly s s' :=
  ⟨[], [], by simp [hr], by simp [hs], rfl, fun _ => rfl⟩

theorem Echoes.trans {exactly : Prop} {s₁ s₂ s₃ : EchoConnection C T} (h : Echoes exactly s₁ s₂)
    (h' : Echoes exactly s₂ s₃) : Echoes exactly s₁ s₃ := by
  obtain ⟨bytes, sent, hr, hs, hlen, heq⟩ := h
  obtain ⟨bytes', sent', hr', hs', hlen', heq'⟩ := h'
  refine ⟨bytes ++ bytes', sent ++ sent', ?_, ?_, ?_, fun he => by rw [heq he, heq' he]⟩
  · rw [hr', hr, List.append_assoc]
  · rw [hs', hs, List.append_assoc]
  · rw [List.length_append, List.length_append, hlen, hlen']

/-- What a handler, or a step, does on a connection that echoes. -/
structure Handled (accepts exactly : Prop) (s s' : EchoConnection C T) : Prop where
  echoing : Echoing s'
  flows : Flows s.conn s'.conn
  echoes : accepts → Echoes exactly s s'

variable {accepts exactly : Prop} {s : EchoConnection C T}

theorem Echoing.valid (h : Echoing s) : s.conn.outputBuffer.Valid :=
  h.phase.elim (fun hup => hup.backlogged.valid) fun hdown => hdown.valid

theorem Echoing.sound (h : Echoing s) : s.conn.poller.Sound :=
  h.phase.elim (fun hup => hup.backlogged.registered.sound) fun hdown => hdown.sound

theorem Handled.refl (h : Echoing s) : Handled accepts exactly s s :=
  ⟨h, .of_eq h.valid rfl rfl, fun _ => .of_eq rfl rfl⟩

theorem Handled.trans {s₁ s₂ s₃ : EchoConnection C T} (h : Handled accepts exactly s₁ s₂)
    (h' : Handled accepts exactly s₂ s₃) : Handled accepts exactly s₁ s₃ :=
  ⟨h'.echoing, h.flows.trans h'.flows, fun ha => (h.echoes ha).trans (h'.echoes ha)⟩

/-- A step that takes the connection down and leaves its output. -/
theorem Handled.of_down {conn : TcpConnection C T} (h : Echoing s) (hdown : Down conn)
    (hin : conn.inputBuffer = s.conn.inputBuffer) (hout : conn.outputBuffer = s.conn.outputBuffer)
    (es : List ConnEvent) (hlog : conn.log = s.conn.log ++ es) (hes : .shutdownWrite ∉ es)
    (hnone : written es = []) : Handled accepts exactly s { s with conn } := by
  have hw : written conn.log = written s.conn.log := by
    rw [hlog, written_append, hnone, List.append_nil]
  refine ⟨⟨.inr hdown, hin ▸ h.input, hin ▸ h.empty, ?_⟩, .of_eq h.valid hout hw,
    fun _ => .of_eq rfl ?_⟩
  · rw [hlog, List.mem_append]
    exact fun hmem => hmem.elim h.unshut hes
  · show conn.stream = s.conn.stream
    rw [stream, stream, hw, hout]

theorem handled_input {b : Buffer} (h : Echoing s) (hb : b.Valid) (hempty : b.readable = []) :
    Handled accepts exactly s { s with conn := { s.conn with inputBuffer := b } } := by
  refine ⟨⟨?_, hb, hempty, h.unshut⟩, .of_eq h.valid rfl rfl, fun _ => .of_eq rfl rfl⟩
  rcases h.phase with hup | hdown
  · exact .inl ⟨hup.state, hup.backlogged.of_eq rfl rfl rfl⟩
  · exact .inr ⟨hdown.state, hdown.sound, hdown.events, hdown.valid⟩

theorem isWriting_of_down {c : TcpConnection C T} (h : Down c) : c.isWriting = false := by
  show Channel.isWriting (c.poller.channel c.channel) = false
  rw [Channel.isWriting, h.events]
  decide

end Invariant

/-! ## A send -/

theorem inputBuffer_bufferRest {c c' : TcpConnection C T} {mem : Memory} {rest : Int} {n : Nat}
    (h : c.bufferRest mem rest n = .ok c') : c'.inputBuffer = c.inputBuffer := by
  rcases bufferRest_inv h with ⟨-, rfl⟩ | ⟨b, -, rfl⟩ <;> rfl

theorem inputBuffer_sendInLoop {c c' : TcpConnection C T} {mem : Memory} {data : Int} {len : Nat}
    {nwrote : Int} {r : WriteResult} (h : c.sendInLoop mem data len nwrote r = .ok c') :
    c'.inputBuffer = c.inputBuffer := by
  unfold TcpConnection.sendInLoop at h
  split at h
  · dsimp only at h
    split at h
    · split at h
      · exact (inputBuffer_bufferRest h).trans rfl
      · exact (inputBuffer_bufferRest h).trans rfl
    · split at h
      · obtain rfl := Except.ok.inj h
        rfl
      · exact (inputBuffer_bufferRest h).trans rfl
  · exact inputBuffer_bufferRest h

theorem inputBuffer_handleWrite (c : TcpConnection C T) (r : WriteResult) :
    (c.handleWrite r).inputBuffer = c.inputBuffer := by
  unfold TcpConnection.handleWrite
  split
  · dsimp only
    split
    · split
      · unfold writeFinished
        dsimp only
        split <;> rfl
      · rfl
    · rfl
  · rfl

/-- A send whose direct `write` accepts something adds as many bytes as the payload has, and the
payload itself unless it reads the unassigned local. -/
theorem stream_sendInLoop {c c' : TcpConnection C T} {mem : Memory} {data : Int} {len : Nat}
    {nwrote : Int} {r : WriteResult} (hv : c.outputBuffer.Valid) (hlen : len ≤ maxSize)
    (hr : c.writesDirectly → WriteResult.Accepts len r)
    (h : c.sendInLoop mem data len nwrote r = .ok c') :
    ∃ sent, c'.stream = c.stream ++ sent ∧ sent.length = len ∧
      (c.writesDirectly ∨ nwrote = 0 → sent = readBytes mem data len) := by
  by_cases hok : c.writesDirectly ∨ nwrote = 0
  · rcases sendInLoop_spec mem data hv hlen hr (.inr hok) with ⟨c₁, hc₁, ha⟩ | ⟨herr, -⟩
    · obtain rfl := Except.ok.inj (hc₁.symm.trans h)
      exact ⟨_, ha.stream_eq, length_readBytes _ _ _, fun _ => rfl⟩
    · rw [herr] at h
      cases h
  · have hd : ¬ c.writesDirectly := fun hd => hok (.inl hd)
    rw [TcpConnection.sendInLoop, if_neg hd] at h
    rcases bufferRest_spec mem (data + nwrote) hv hlen with ⟨c₁, hc₁, ha⟩ | ⟨herr, -⟩
    · obtain rfl := Except.ok.inj (hc₁.symm.trans h)
      exact ⟨_, ha.stream_eq, length_readBytes _ _ _, fun hx => absurd hx hok⟩
    · rw [herr] at h
      cases h

/-! ## The handlers -/

variable {accepts exactly : Prop} {s s' : EchoConnection C T} {e : EchoAnswers}

theorem handled_close (h : Echoing s) :
    Handled accepts exactly s { s with conn := handleClose s.conn } := by
  have hdown : Down s.conn.handleClose := by
    have hp := poller_handleClose s.conn
    have hc : s.conn.handleClose.channel = s.conn.channel := by rw [TcpConnection.handleClose_eq]
    refine ⟨by rw [TcpConnection.handleClose_eq], hp ▸ h.sound.apply .disableAll _, ?_, ?_⟩
    · rw [hp, hc, EpollPoller.channel_apply (by simp)]
      rfl
    · rw [TcpConnection.handleClose_eq]
      exact h.valid
  rw [handleClose_eq]
  refine Handled.of_down h hdown (by rw [TcpConnection.handleClose_eq])
    (by rw [TcpConnection.handleClose_eq])
    ([.handleClose, .connectionCallback false, .closeCallback] ++
      if s.conn.server.alive = true ∧ s.conn.server.sameLoop = true then [.destroyRequest] else [])
    (by rw [TcpConnection.handleClose_eq, List.append_assoc]) ?_ ?_
  · split <;> simp
  · split <;> simp [written]

theorem handled_destroy (h : Echoing s) :
    Handled accepts exactly s { s with conn := connectDestroyed s.conn } := by
  have hp : s.conn.connectDestroyed.poller = (if s.conn.state = .kConnected
      then s.conn.poller.apply false .disableAll s.conn.channel else s.conn.poller).apply false
        .remove s.conn.channel := by
    rw [TcpConnection.connectDestroyed_eq]
    by_cases hup : s.conn.state = .kConnected
    · simp only [if_pos hup]
      rfl
    · simp only [if_neg hup]
      rfl
  have hc : s.conn.connectDestroyed.channel = s.conn.channel := by
    rw [TcpConnection.connectDestroyed_eq]
  have hdown : Down s.conn.connectDestroyed := by
    constructor
    · rw [TcpConnection.connectDestroyed_eq]
      rcases h.phase with hup | hdown
      · exact if_pos hup.state
      · exact (if_neg (by simp [hdown.state])).trans hdown.state
    · rw [hp]
      split
      · exact (h.sound.apply .disableAll _).apply .remove _
      · exact h.sound.apply .remove _
    · rw [hp, hc]
      rcases h.phase with hup | hdown
      · rw [if_pos hup.state, EpollPoller.channel_apply_remove
          ((h.sound.apply .disableAll _).agrees _), EpollPoller.channel_apply (by simp)]
        rfl
      · rw [if_neg (by simp [hdown.state]), EpollPoller.channel_apply_remove (h.sound.agrees _)]
        exact hdown.events
    · rw [TcpConnection.connectDestroyed_eq]
      exact h.valid
  rw [connectDestroyed_eq]
  refine Handled.of_down h hdown (by rw [TcpConnection.connectDestroyed_eq])
    (by rw [TcpConnection.connectDestroyed_eq]) (.connectDestroyed ::
      if s.conn.state = .kConnected then [.connectionCallback false] else [])
    (by rw [TcpConnection.connectDestroyed_eq]) ?_ ?_
  · split <;> simp
  · split <;> simp [written]

theorem handled_write (h : Echoing s) (hstep : runHandler e s .write = some s') :
    Handled accepts exactly s s' := by
  simp only [runHandler, Option.ite_none_right_eq_some, Option.some.injEq] at hstep
  obtain ⟨-, rfl⟩ := hstep
  rcases h.phase with hup | hdown
  · have hst := state_handleWrite e.write s.conn
    obtain ⟨es, hes, hlog⟩ := (halfCloses_handleWrite hup.backlogged e.write).log
    refine ⟨⟨.inl ⟨hst.trans hup.state, hup.backlogged.handleWrite e.write⟩, ?_, ?_, ?_⟩,
      flows_handleWrite hup.backlogged e.write, fun _ => .of_eq rfl ?_⟩
    · exact (inputBuffer_handleWrite s.conn e.write).symm ▸ h.input
    · exact (inputBuffer_handleWrite s.conn e.write).symm ▸ h.empty
    · have hnot : ¬ (s.conn.handleWrite e.write).Drained := fun hd => by
        cases (hst.trans hup.state).symm.trans hd.1
      show .shutdownWrite ∉ (s.conn.handleWrite e.write).log
      rw [hlog, if_neg fun hd => hnot hd.1, List.append_nil, List.mem_append]
      exact fun hmem => hmem.elim h.unshut hes
    · exact (handleWrite_spec hup.backlogged.valid).stream_eq.trans (List.append_nil _)
  · -- A connection that is down has no write interest.
    have hw := isWriting_of_down hdown
    rw [show s.conn.handleWrite e.write = s.conn from if_neg (by simp [hw])]
    exact .refl h

/-- The message that has been taken out of the input buffer goes to `sendInLoop`; `c` is `s.conn`
with some more lines in its log. -/
theorem handled_sendInLoop {c conn : TcpConnection C T} {bytes : List UInt8}
    (es : List ConnEvent) {calls : Nat} (h : Echoing s) (hup : Up s.conn)
    (hsend : c.sendInLoop e.mem e.data bytes.length e.nwrote e.direct = .ok conn)
    (hp : c.poller = s.conn.poller) (hc : c.channel = s.conn.channel)
    (hout : c.outputBuffer = s.conn.outputBuffer) (hst : c.state = s.conn.state)
    (hin : c.inputBuffer.Valid ∧ c.inputBuffer.readable = [])
    (hlog : c.log = s.conn.log ++ es) (hes : .shutdownWrite ∉ es ∧ written es = [])
    (hlen : bytes.length ≤ maxSize) (hmem : readBytes e.mem e.data bytes.length = bytes)
    (hbound : e.direct.Bounded bytes.length) :
    Handled (s.conn.writesDirectly → WriteResult.Accepts bytes.length e.direct)
      (s.conn.writesDirectly ∨ e.nwrote = 0) s ⟨conn, calls, s.received ++ bytes⟩ := by
  have hback : Backlogged c := hup.backlogged.of_eq hp hc hout
  have hdirect : c.writesDirectly ↔ s.conn.writesDirectly := by
    rw [writesDirectly, writesDirectly, isWriting_eq hp hc, hout]
  have hw : written c.log = written s.conn.log := by
    rw [hlog, written_append, hes.2, List.append_nil]
  have hstream : c.stream = s.conn.stream := by rw [stream, stream, hw, hout]
  have hconn := inputBuffer_sendInLoop hsend
  obtain ⟨es', hes', houtput⟩ := grows_sendInLoop hsend
  refine ⟨⟨.inl ⟨?_, hback.sendInLoop hlen hbound hsend⟩, ?_, ?_, ?_⟩, ?_, fun hacc => ?_⟩
  · exact (sends_sendInLoop hsend).state.trans (hst.trans hup.state)
  · exact hconn ▸ hin.1
  · exact hconn ▸ hin.2
  · show .shutdownWrite ∉ conn.log
    rw [hes', hlog, List.mem_append, List.mem_append]
    rintro ((hmem | hmem) | hmem)
    · exact h.unshut hmem
    · exact hes.1 hmem
    · cases houtput _ hmem
  · exact (Flows.of_eq h.valid hout hw).trans (flows_sendInLoop hback.valid hlen hbound hsend)
  · obtain ⟨sent, hgrow, hsent, heq⟩ := stream_sendInLoop hback.valid hlen
      (fun hd => hacc (hdirect.1 hd)) hsend
    refine ⟨bytes, sent, rfl, hgrow.trans (by rw [hstream]), hsent, fun hx => ?_⟩
    rw [hdirect] at heq
    exact (heq hx).trans hmem

/-- A message comes in and goes out. -/
theorem handled_message {bytes : List UInt8} {b : Buffer} (h : Echoing s) (hup : Up s.conn)
    (hb : b.Valid) (hread : b.readable = bytes)
    (hstep : onMessage e ⟨{ s.conn with inputBuffer := b }.note .messageCallback, s.calls,
      s.received ++ bytes⟩ = some s') :
    Handled (s.conn.writesDirectly → WriteResult.Accepts bytes.length e.direct)
      (s.conn.writesDirectly ∨ e.nwrote = 0) s s' := by
  have hres : b.retrieveAllAsString.1 = bytes := by
    rw [Buffer.retrieveAllAsString, Buffer.peek_readableBytes hb, hread]
  have hlen : bytes.length ≤ maxSize := by
    have hw := hb.writer_le
    have hs := hb.size_le
    rw [← hread, hb.length_readable, hb.readableBytes_eq]
    omega
  unfold onMessage at hstep
  simp only [note, hres, Option.ite_none_right_eq_some, Option.map_eq_some_iff,
    toOption_eq_some] at hstep
  obtain ⟨⟨hmem, hbound⟩, conn, hsend, rfl⟩ := hstep
  rw [TcpConnection.send, if_pos hup.state] at hsend
  refine handled_sendInLoop [.messageCallback, .send ⟨s.calls, bytes⟩,
    .sendInLoop ⟨s.calls, bytes⟩] h hup hsend rfl rfl rfl rfl ?_ ?_ ⟨by simp, by simp [written]⟩
    hlen hmem hbound
  · exact ⟨Buffer.valid_retrieveAll hb, Buffer.readable_retrieveAll b⟩
  · simp [note]

/-- The conditions under which the bytes that the read handler finds go out as they are. -/
theorem handled_read (h : Echoing s) (hup : Up s.conn) (hstep : runHandler e s .read = some s') :
    Handled (e.read.bytes ≠ [] → s.conn.writesDirectly →
        WriteResult.Accepts e.read.bytes.length e.direct)
      (e.read.bytes ≠ [] → s.conn.writesDirectly ∨ e.nwrote = 0) s s' := by
  obtain ⟨read, mem, data, nwrote, direct, write⟩ := e
  simp only [runHandler, Option.ite_none_right_eq_some] at hstep
  obtain ⟨hfit, hstep⟩ := hstep
  unfold handleRead at hstep
  dsimp only at hstep
  split at hstep
  · cases hstep
  · rename_i b n err hread
    cases read with
    | failed errno =>
      simp only [Buffer.readFd, Except.ok.injEq, Prod.mk.injEq] at hread
      obtain ⟨rfl, rfl, -⟩ := hread
      rw [if_neg (by decide), if_neg (by decide)] at hstep
      obtain rfl := Option.some.inj hstep
      simp only [Buffer.ReadResult.bytes, List.append_nil]
      exact .refl h
    | received bytes =>
      have hn : n = bytes.length := ConnSystem.readFd_count hread
      obtain ⟨hb, hreadable, -⟩ := Buffer.readFd_received h.input hfit hread
      rw [h.empty, List.nil_append] at hreadable
      by_cases hnil : bytes = []
      · have hzero : n = 0 := by rw [hn, hnil]; rfl
        rw [if_neg (by omega), if_pos hzero] at hstep
        obtain rfl := Option.some.inj hstep
        subst hnil
        simp only [Buffer.ReadResult.bytes, List.append_nil]
        refine (handled_input h hb hreadable).trans (handled_close ?_)
        have hkept : Handled True True s _ := handled_input h hb hreadable
        exact hkept.echoing
      · have hpos := List.length_pos_iff.2 hnil
        rw [if_pos (by omega)] at hstep
        have hmessage := handled_message h hup hb hreadable hstep
        refine ⟨hmessage.echoing, hmessage.flows, fun hacc => ?_⟩
        obtain ⟨got, sent, hgot, hsent, hlen, heq⟩ := hmessage.echoes (hacc hnil)
        exact ⟨got, sent, hgot, hsent, hlen, fun hx => heq (hx hnil)⟩

/-! ## One step -/

/-- The message that a dispatch for `revents` finds. -/
def message (revents : EventMask) (e : EchoAnswers) : List UInt8 :=
  if revents.has (EPOLLIN ||| EPOLLPRI) then e.read.bytes else []

/-- The direct `write` of a message accepts some of it. -/
def KernelAccepts (s : EchoConnection C T) : EchoAction C → Prop
  | .event revents e => message revents e ≠ [] → s.conn.writesDirectly →
      WriteResult.Accepts (message revents e).length e.direct
  | _ => True

/-- With output pending, there is no message or the unassigned `nwrote` is zero. -/
def NoStrayPointer (s : EchoConnection C T) : EchoAction C → Prop
  | .event revents e => message revents e ≠ [] → s.conn.writesDirectly ∨ e.nwrote = 0
  | _ => True

instance (s : EchoConnection C T) : ∀ a, Decidable (KernelAccepts s a)
  | .event revents e => inferInstanceAs (Decidable (message revents e ≠ [] →
      s.conn.writesDirectly → WriteResult.Accepts (message revents e).length e.direct))
  | .connectDestroyed | .other _ _ => inferInstanceAs (Decidable True)

instance (s : EchoConnection C T) : ∀ a, Decidable (NoStrayPointer s a)
  | .event revents e => inferInstanceAs (Decidable (message revents e ≠ [] →
      s.conn.writesDirectly ∨ e.nwrote = 0))
  | .connectDestroyed | .other _ _ => inferInstanceAs (Decidable True)

theorem foldlM_handler (p : Prop) [Decidable p] (h : Handler) (s : EchoConnection C T) :
    (if p then [h] else []).foldlM (runHandler e) s =
      if p then runHandler e s h else some s := by
  split
  · simp
  · rfl

/-- `handleEventWithGuard` calls its handlers in turn. -/
theorem handleEvent_inv {revents : EventMask} (h : handleEvent revents e s = some s') :
    ∃ s₁ s₂,
      (if revents.has (EPOLLIN ||| EPOLLPRI) = true then runHandler e s .read else some s) =
        some s₁ ∧
      (if revents.has EPOLLOUT = true then runHandler e s₁ .write else some s₁) = some s₂ ∧
      (s' = s₂ ∨ s' = { s₂ with conn := handleClose s₂.conn }) := by
  simp only [handleEvent, handlers, List.foldlM_append, foldlM_handler, bind,
    Option.bind_eq_some_iff] at h
  obtain ⟨s₂, ⟨s₁, ⟨s₀, herror, hread⟩, hwrite⟩, hclose⟩ := h
  have hs₀ : s₀ = s := by
    split at herror
    · exact (Option.some.inj herror).symm
    · exact (Option.some.inj herror).symm
  subst hs₀
  refine ⟨s₁, s₂, hread, hwrite, ?_⟩
  split at hclose
  · exact .inr (Option.some.inj hclose).symm
  · exact .inl (Option.some.inj hclose).symm

/-- A connection that is down is told of errors and hang-ups only. -/
theorem not_readable_of_down {c : TcpConnection C T} {revents : EventMask} (h : Down c)
    (hrep : c.sys.loop.mayReport (c.channel, revents) = true) :
    revents.has (EPOLLIN ||| EPOLLPRI) = false := by
  refine ConnSystem.has_of_mayReport h.sound hrep ?_
  rw [show (c.sys.loop.poller.channel c.channel).events = kNoneEvent from h.events]
  decide

/-- The read handler, where it is called. -/
theorem handled_readable {revents : EventMask} (h : Echoing s)
    (hrep : s.conn.sys.loop.mayReport (s.conn.channel, revents) = true)
    (hread : (if revents.has (EPOLLIN ||| EPOLLPRI) = true then runHandler e s .read else some s) =
      some s') :
    Handled (KernelAccepts s (.event revents e)) (NoStrayPointer s (.event revents e)) s s' := by
  by_cases hin : revents.has (EPOLLIN ||| EPOLLPRI) = true
  · rw [if_pos hin] at hread
    rcases h.phase with hup | hdown
    · have hmessage := handled_read h hup hread
      simpa only [KernelAccepts, NoStrayPointer, message, if_pos hin] using hmessage
    · rw [not_readable_of_down hdown hrep] at hin
      cases hin
  · rw [if_neg hin] at hread
    obtain rfl := Option.some.inj hread
    exact .refl h

theorem handled_event {revents : EventMask} (h : Echoing s)
    (hrep : s.conn.sys.loop.mayReport (s.conn.channel, revents) = true)
    (hstep : handleEvent revents e s = some s') :
    Handled (KernelAccepts s (.event revents e)) (NoStrayPointer s (.event revents e)) s s' := by
  obtain ⟨s₁, s₂, hread, hwrite, hclose⟩ := handleEvent_inv hstep
  have h₁ := handled_readable h hrep hread
  have h₂ : Handled (KernelAccepts s (.event revents e)) (NoStrayPointer s (.event revents e))
      s s₂ := by
    split at hwrite
    · exact h₁.trans (handled_write h₁.echoing hwrite)
    · obtain rfl := Option.some.inj hwrite
      exact h₁
  rcases hclose with rfl | rfl
  · exact h₂
  · exact h₂.trans (handled_close h₂.echoing)

/-- **Every step keeps the echo.** -/
theorem handled_step {a : EchoAction C} (h : Echoing s) (hstep : step s a = some s') :
    Handled (KernelAccepts s a) (NoStrayPointer s a) s s' := by
  cases a with
  | event revents e =>
    simp only [step, Option.ite_none_right_eq_some] at hstep
    exact handled_event h hstep.1 hstep.2
  | connectDestroyed =>
    obtain rfl := Option.some.inj hstep
    exact handled_destroy h
  | other op channel =>
    simp only [step, Option.ite_none_right_eq_some, Option.some.injEq] at hstep
    obtain ⟨hne, rfl⟩ := hstep
    refine ⟨⟨?_, h.input, h.empty, h.unshut⟩, .of_eq h.valid rfl rfl, fun _ => .of_eq rfl rfl⟩
    rcases h.phase with hup | hdown
    · exact .inl ⟨hup.state, hup.backlogged.step
        (show callStep s.conn (.other op channel) = some _ from if_pos hne)⟩
    · have hrec := (EpollPoller.apply_frame false op channel s.conn.poller).channel s.conn.channel
        hne.symm
      refine .inr ⟨hdown.state, hdown.sound.apply op channel, ?_, hdown.valid⟩
      exact (congrArg Channel.events hrec).trans hdown.events

theorem echoing_new {sys : LoopSystem LoopFunctor C T} {channel : C}
    (hs : sys.loop.poller.Sound) (hnew : Stage.fresh.Entry (sys.loop.poller.channel channel))
    (server : ServerEntry) : Echoing (new sys channel server) := by
  have heq : (new sys channel server).conn = established sys channel server false false :=
    connectEstablished_eq _
  constructor
  · rw [heq]
    exact .inl ⟨rfl, backlogged_established hs hnew server false false⟩
  · rw [heq]
    exact valid_initial
  · rw [heq]
    rfl
  · rw [heq]
    simp [established, TcpConnection.connectEstablished, note, TcpConnection.new, channelOp,
      setState]

/-! ## Runs -/

theorem echoing_run {sys : LoopSystem LoopFunctor C T} {channel : C}
    (hs : sys.loop.poller.Sound) (hnew : Stage.fresh.Entry (sys.loop.poller.channel channel))
    {server : ServerEntry} {as : List (EchoAction C)}
    (h : run step (new sys channel server) as = some s) : Echoing s :=
  run_invariant Echoing (fun _ _ _ he hstep => (handled_step he hstep).echoing)
    (echoing_new hs hnew server) h

/-- What is in the stream, as far as the direct writes have accepted something. -/
theorem stream_run {sys : LoopSystem LoopFunctor C T} {channel : C}
    (hs : sys.loop.poller.Sound) (hnew : Stage.fresh.Entry (sys.loop.poller.channel channel))
    {server : ServerEntry} {as : List (EchoAction C)}
    (hk : Meets step KernelAccepts (new sys channel server) as)
    (h : run step (new sys channel server) as = some s) :
    s.conn.stream.length = s.received.length ∧
    (Meets step NoStrayPointer (new sys channel server) as → s.conn.stream = s.received) := by
  have hstart : (new sys channel server).conn.stream = [] := by
    rw [show (new sys channel server).conn = established sys channel server false false from
      connectEstablished_eq _]
    simp [stream, established, TcpConnection.connectEstablished, note, channelOp, setState,
      TcpConnection.new, written, Buffer.initial, Buffer.readable, Buffer.peek]
  refine ⟨?_, fun hstray => ?_⟩
  · refine (hk.invariant (fun s => Echoing s ∧ s.conn.stream.length = s.received.length) ?_
      ⟨echoing_new hs hnew server, by rw [hstart]; rfl⟩ h).2
    rintro s a s' ⟨he, hlen⟩ hacc hstep
    have hstep := handled_step he hstep
    obtain ⟨bytes, sent, hr, hsent, hcount, -⟩ := hstep.echoes hacc
    exact ⟨hstep.echoing, by rw [hsent, hr, List.length_append, List.length_append, hlen, hcount]⟩
  · refine ((hk.and hstray).invariant (fun s => Echoing s ∧ s.conn.stream = s.received) ?_
      ⟨echoing_new hs hnew server, hstart⟩ h).2
    rintro s a s' ⟨he, heq⟩ ⟨hacc, hexact⟩ hstep
    have hstep := handled_step he hstep
    obtain ⟨bytes, sent, hr, hsent, -, hsame⟩ := hstep.echoes hacc
    exact ⟨hstep.echoing, by rw [hsent, hr, heq, hsame hexact]⟩

/-- **The echo is exact.** In every run of a connection of the echo server, with events, answers of
the kernel and a teardown of any kind, in which the direct `write` of a message accepts some of it:
as many bytes have been written or buffered as have been received; and they are the bytes received,
in their order, if no message that meets pending output reads the unassigned `nwrote` as anything
but zero. -/
theorem echo_exact (sys : LoopSystem LoopFunctor C T) (channel : C) (server : ServerEntry)
    (hs : sys.loop.poller.Sound) (hnew : Stage.fresh.Entry (sys.loop.poller.channel channel))
    (as : List (EchoAction C)) (s : EchoConnection C T)
    (hk : Meets step KernelAccepts (new sys channel server) as)
    (h : run step (new sys channel server) as = some s) :
    (written s.conn.log).length + s.conn.outputBuffer.readableBytes = s.received.length ∧
    (Meets step NoStrayPointer (new sys channel server) as →
      written s.conn.log ++ s.conn.outputBuffer.readable = s.received) := by
  obtain ⟨hlen, heq⟩ := stream_run hs hnew hk h
  rw [stream, List.length_append, (echoing_run hs hnew h).valid.length_readable] at hlen
  exact ⟨hlen, heq⟩

/-- The answers for a message that lies in memory from the address `data` on. -/
def talks (bytes : List UInt8) (data : Int) (direct write : Int) : EchoAnswers :=
  ⟨.received bytes, sampleMemory, data, 0, ⟨direct, 0⟩, ⟨write, 0⟩⟩

/-- A message of which two bytes go out at once, and one behind it with a write event that takes
the first of two bytes. -/
def backlogTalk : List (EchoAction Bool) :=
  [.event EPOLLIN (talks [1, 2, 3] 1 2 0), .event (EPOLLIN ||| EPOLLOUT) (talks [4] 4 0 1)]

/-- The rest is written, and the peer closes. -/
def closingTalk : List (EchoAction Bool) :=
  backlogTalk ++ [.event EPOLLOUT (talks [] 0 0 1), .event EPOLLIN (talks [] 0 0 0)]

theorem echo_closingTalk :
    (run step (new sampleLoop true ⟨false, true, true, 0⟩) closingTalk).isSome ∧
    ∀ s, run step (new sampleLoop true ⟨false, true, true, 0⟩) closingTalk = some s →
      (written s.conn.log).length + s.conn.outputBuffer.readableBytes = s.received.length ∧
      written s.conn.log ++ s.conn.outputBuffer.readable = s.received := by
  refine ⟨by decide +kernel, fun s h => ?_⟩
  obtain ⟨hlen, heq⟩ := echo_exact sampleLoop true ⟨false, true, true, 0⟩ sound_sampleLoop
    ⟨rfl, rfl⟩ closingTalk s (by decide +kernel) h
  exact ⟨hlen, heq (by decide +kernel)⟩

/-- **The echo server never half-closes a connection.** Whatever happens to a connection, the
socket's `shutdownWrite` is never called: `onConnection` calls `shutdown()` only for a connection
whose state is `kDisconnected` already, which does nothing, and no output is left to be finished
behind a stored `kDisconnected`. -/
theorem echo_never_shuts_down (sys : LoopSystem LoopFunctor C T) (channel : C)
    (server : ServerEntry) (hs : sys.loop.poller.Sound)
    (hnew : Stage.fresh.Entry (sys.loop.poller.channel channel)) (as : List (EchoAction C))
    (s : EchoConnection C T) (h : run step (new sys channel server) as = some s) :
    .shutdownWrite ∉ s.conn.log ∧ (s.conn.state = .kDisconnected → s.conn.isWriting = false) := by
  have he := echoing_run hs hnew h
  refine ⟨he.unshut, fun hst => ?_⟩
  rcases he.phase with hup | hdown
  · cases hup.state.symm.trans hst
  · exact isWriting_of_down hdown

theorem echo_closed : ∃ s : EchoConnection Bool Unit,
    run step (new sampleLoop true ⟨false, true, true, 0⟩) closingTalk = some s ∧
    s.conn.state = .kDisconnected ∧ .shutdownWrite ∉ s.conn.log ∧ s.conn.isWriting = false := by
  obtain ⟨s, hs, hdown⟩ := Option.map_eq_some_iff.1
    (show (run step (new sampleLoop true ⟨false, true, true, 0⟩) closingTalk).map
      (fun s : EchoConnection Bool Unit => s.conn.state) = some .kDisconnected by decide +kernel)
  have h := echo_never_shuts_down sampleLoop true ⟨false, true, true, 0⟩ sound_sampleLoop ⟨rfl, rfl⟩
    closingTalk s hs
  exact ⟨s, hs, hdown, h.1, h.2 hdown⟩

/-! ## Delivery -/

/-- A write event that accepts a byte serves a connection that it does not take down. -/
theorem serves_event {revents : EventMask} (h : Echoing s)
    (hrep : s.conn.sys.loop.mayReport (s.conn.channel, revents) = true)
    (hstep : handleEvent revents e s = some s') (hup : s'.conn.state = .kConnected)
    (hout : revents.has EPOLLOUT = true) (hpos : 1 ≤ e.write.ret) : Serves s.conn s'.conn := by
  obtain ⟨s₁, s₂, hread, hwrite, hclose⟩ := handleEvent_inv hstep
  rw [if_pos hout] at hwrite
  have hopen : s' = s₂ := by
    refine hclose.resolve_right fun hclosed => ?_
    rw [hclosed, handleClose_eq, TcpConnection.handleClose_eq] at hup
    cases hup
  subst hopen
  have h₁ := handled_readable h hrep hread
  simp only [runHandler, Option.ite_none_right_eq_some, Option.some.injEq] at hwrite
  obtain ⟨-, rfl⟩ := hwrite
  rcases h₁.echoing.phase with hup₁ | hdown
  · rcases serves_handleWrite hup₁.backlogged hpos with hidle | hgrow
    · -- The message has gone out behind all that was waiting.
      by_cases hw : s.conn.isWriting = true
      · have hlen := h₁.flows.stream.length_le
        rw [stream_eq_written h₁.echoing.valid ((hup₁.backlogged.isWriting_false_iff).1 hidle),
          stream, List.length_append, h.valid.length_readable] at hlen
        have hwaits : 0 < s.conn.outputBuffer.readableBytes := by
          rcases h.phase with hup₀ | hdown
          · exact hup₀.backlogged.waits.2 hw
          · rw [isWriting_of_down hdown] at hw
            cases hw
        have hkept := (flows_handleWrite hup₁.backlogged e.write).written.length_le
        exact .inr (lt_of_lt_of_le (by omega) hkept)
      · exact .inl (by simpa using hw)
    · exact .inr (h₁.flows.written.length_le.trans_lt hgrow)
  · cases ((state_handleWrite e.write s₁.conn).trans hdown.state).symm.trans hup

/-- **The echo comes back.** Take any run of a connection of the echo server as in `echo_exact`,
and any infinite run from there in which every wait for write events ends with a byte written. Then
everything that has been received so far is written, or the connection is closed. -/
theorem echo_delivered (sys : LoopSystem LoopFunctor C T) (channel : C) (server : ServerEntry)
    (hs : sys.loop.poller.Sound) (hnew : Stage.fresh.Entry (sys.loop.poller.channel channel))
    (as : List (EchoAction C)) (p : Path (step : EchoConnection C T → _))
    (hk : Meets step KernelAccepts (new sys channel server) as)
    (hstray : Meets step NoStrayPointer (new sys channel server) as)
    (h : run step (new sys channel server) as = some (p.state 0))
    (hfair : ∀ n, ∃ m, n ≤ m ∧ ((p.state m).conn.isWriting = false ∨ ∃ revents e,
      p.action m = .event revents e ∧ revents.has EPOLLOUT = true ∧ 1 ≤ e.write.ret)) :
    ∃ m, (p.state m).conn.state = .kDisconnected ∨
      (p.state 0).received <+: written (p.state m).conn.log := by
  have hecho := p.always Echoing (fun _ _ _ he hstep => (handled_step he hstep).echoing)
    (echoing_run hs hnew h)
  by_cases hclosed : ∃ m, (p.state m).conn.state = .kDisconnected
  · obtain ⟨m, hm⟩ := hclosed
    exact ⟨m, .inl hm⟩
  · have hup : ∀ n, Up (p.state n).conn := fun n =>
      (hecho n).phase.resolve_right fun hdown => hclosed ⟨n, hdown.state⟩
    obtain ⟨m, hm⟩ := eventually_written (fun s : EchoConnection C T => s.conn) p
      (fun n => (hup n).backlogged) (fun n => (handled_step (hecho n) (p.next n)).flows) fun n => by
        obtain ⟨m, hnm, hidle | ⟨revents, e, hact, hout, hpos⟩⟩ := hfair n
        · exact ⟨m, hnm, .inl hidle⟩
        · have hnext := p.next m
          rw [hact] at hnext
          simp only [step, Option.ite_none_right_eq_some] at hnext
          exact ⟨m, hnm, serves_event (hecho m) hnext.1 hnext.2 (hup (m + 1)).state hout hpos⟩
    exact ⟨m, .inr ((stream_run hs hnew hk h).2 hstray ▸ hm)⟩

/-! ### A path that is fair -/

theorem wakeupChannel_writeFinished (c : TcpConnection C T) :
    c.writeFinished.sys.loop.wakeupChannel = c.sys.loop.wakeupChannel := by
  have hnotify : (c.channelOp .disableWriting).notifyWriteComplete.sys.loop.wakeupChannel =
      c.sys.loop.wakeupChannel := by
    unfold notifyWriteComplete
    dsimp only
    split
    · simp [LoopSystem.queueInLLoop, EventLoop.queueInLLoop, EventLoop.wakeupIfNeeded_eq,
        EventLoop.push, channelOp, LoopSystem.applyOp, EventLoop.channelOp]
    · rfl
  unfold writeFinished
  dsimp only
  split
  · exact hnotify
  · exact hnotify

theorem wakeupChannel_handleWrite (c : TcpConnection C T) (r : WriteResult) :
    (c.handleWrite r).sys.loop.wakeupChannel = c.sys.loop.wakeupChannel := by
  unfold TcpConnection.handleWrite
  split
  · dsimp only
    split
    · split
      · exact wakeupChannel_writeFinished _
      · rfl
    · rfl
  · rfl

/-- The kernel can report a write event when there is write interest. -/
theorem mayReport_write {c : TcpConnection C T} (h : Backlogged c) (hw : c.isWriting = true)
    (hne : c.channel ≠ c.sys.loop.wakeupChannel) :
    c.sys.loop.mayReport (c.channel, EPOLLOUT) = true := by
  obtain ⟨hindex, hev⟩ := h.registered.entry
  have hinterest := (h.registered.sound.agrees c.channel).interest_eq
  rw [if_pos hindex] at hinterest
  have hboth : (c.poller.channel c.channel).events = kReadEvent ||| kWriteEvent := by
    refine hev.resolve_left fun hread => ?_
    have hwrite : Channel.isWriting (c.poller.channel c.channel) = true := hw
    rw [Channel.isWriting, hread] at hwrite
    cases hwrite
  rw [hboth] at hinterest
  simp only [EventLoop.mayReport, show c.sys.loop.poller = c.poller from rfl, hinterest,
    Option.any_some, beq_self_eq_true, Bool.true_and, Bool.and_eq_true, Bool.or_eq_true,
    bne_iff_ne]
  exact ⟨by decide, .inl hne⟩

/-- A write event for one byte when one is buffered, and otherwise an event of another channel. -/
def drip (s : EchoConnection Bool T) : EchoAction Bool :=
  if s.conn.isWriting then .event EPOLLOUT (talks [] 0 0 1) else .other .enableReading false

/-- The connection of the examples, up. -/
def Dripping (s : EchoConnection Bool T) : Prop :=
  Up s.conn ∧ s.conn.channel = true ∧ s.conn.sys.loop.wakeupChannel = false

theorem drip_step (s : EchoConnection Bool T) (h : Dripping s) :
    ∃ s', step s (drip s) = some s' ∧ Dripping s' := by
  obtain ⟨hup, hc, hwake⟩ := h
  by_cases hw : s.conn.isWriting = true
  · have hne : s.conn.channel ≠ s.conn.sys.loop.wakeupChannel := by simp [hc, hwake]
    have hbytes := hup.backlogged.waits.2 hw
    refine ⟨{ s with conn := s.conn.handleWrite ⟨1, 0⟩ }, ?_, ⟨?_, ?_⟩, ?_, ?_⟩
    · rw [drip, if_pos hw, step, if_pos (mayReport_write hup.backlogged hw hne), handleEvent,
        show handlers EPOLLOUT = [.write] by decide, List.foldlM_cons]
      have hbound : (talks [] 0 0 1).write.Bounded s.conn.outputBuffer.readableBytes :=
        ⟨by decide, by simp only [talks]; omega⟩
      simp only [runHandler, if_pos hbound, List.foldlM_nil]
      rfl
    · exact (state_handleWrite _ _).trans hup.state
    · exact hup.backlogged.handleWrite _
    · exact (quiet_handleWrite _ _).channel.trans hc
    · exact (wakeupChannel_handleWrite _ _).trans hwake
  · have hne : false ≠ s.conn.channel := by simp [hc]
    refine ⟨{ s with conn := s.conn.setSys (s.conn.sys.applyOp .enableReading false) }, ?_,
      ⟨hup.state, ?_⟩, hc, hwake⟩
    · rw [drip, if_neg hw, step, if_pos hne]
    · exact hup.backlogged.step
        (show callStep s.conn (.other .enableReading false) = some _ from if_pos hne)

/-- The path that drips the rest of a backlog to the kernel. -/
def echoDripping (s : EchoConnection Bool T) (h : Dripping s) :
    Path (step : EchoConnection Bool T → _) :=
  .follow drip Dripping drip_step s h

theorem echo_backlogTalk : ∃ (s : EchoConnection Bool Unit) (p : Path step),
    run step (new sampleLoop true ⟨false, true, true, 0⟩) backlogTalk = some s ∧ p.state 0 = s ∧
    (s.received, s.conn.outputBuffer.readable) = ([1, 2, 3, 4], [4]) ∧
    ∃ m, (p.state m).conn.state = .kDisconnected ∨ s.received <+: written (p.state m).conn.log := by
  obtain ⟨s, hs, hnow⟩ := Option.map_eq_some_iff.1
    (show (run step (new sampleLoop true ⟨false, true, true, 0⟩) backlogTalk).map
      (fun s : EchoConnection Bool Unit => (s.conn.state, s.conn.channel,
        s.conn.sys.loop.wakeupChannel, s.received, s.conn.outputBuffer.readable)) =
      some (.kConnected, true, false, [1, 2, 3, 4], [4]) by decide +kernel)
  simp only [Prod.mk.injEq] at hnow
  obtain ⟨hst, hc, hwake, hreceived, hleft⟩ := hnow
  have hup : Up s.conn := (echoing_run sound_sampleLoop ⟨rfl, rfl⟩ hs).phase.resolve_right
    fun hdown => by cases hst.symm.trans hdown.state
  refine ⟨s, echoDripping s ⟨hup, hc, hwake⟩, hs, rfl, by rw [hreceived, hleft], ?_⟩
  refine echo_delivered sampleLoop true ⟨false, true, true, 0⟩ sound_sampleLoop ⟨rfl, rfl⟩
    backlogTalk (echoDripping s ⟨hup, hc, hwake⟩) (by decide +kernel) (by decide +kernel) hs
    fun n => ⟨n, le_rfl, ?_⟩
  by_cases hw : ((echoDripping s ⟨hup, hc, hwake⟩).state n).conn.isWriting = true
  · exact .inr ⟨EPOLLOUT, talks [] 0 0 1, if_pos hw, by decide, by decide⟩
  · exact .inl (by simpa using hw)

end EchoServer

end WebCore
