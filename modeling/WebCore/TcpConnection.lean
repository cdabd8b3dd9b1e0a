import WebCore.Buffer
import WebCore.EventLoop

/-!
# `TcpConnection`

The member functions of `ZTcpConnection/TcpConnection.cpp`, on a record that holds the connection,
the loop system its `_loop` belongs to, and what its server knows about it. `C` is the type of
`Channel*` and `T` the type of the threads other than the loop's.

What the kernel decides is an argument: the result of a `write` or `readv`. So is what the program
leaves open: the memory behind the pointer of a queued `sendInLoop`, and the value of the local
`nwrote` on the path that does not assign it. `log` records what the functions do to the outside:
the bytes that the kernel accepts, the callbacks of the user and of the server.
-/

namespace WebCore

/-! ## The data -/

inductive ConnState
  | kDisconnected
  | kConnecting
  | kConnected
  | kDisconnecting
deriving DecidableEq, Repr

/-- A call of `send` that saw `kConnected`, and the bytes that its string held. -/
structure SendCall where
  id : Nat
  payload : List UInt8
deriving DecidableEq, Repr

/-- The functors in the queue of an io loop. -/
inductive LoopFunctor
  /-- bound to a pointer and a length; `call` is not part of the functor, it says who queued it -/
  | sendInLoop (data : Int) (len : Nat) (call : SendCall)
  | shutdownInLoop
  | connectEstablished
  | connectDestroyed
  | writeComplete
  | highWaterMark (size : Nat)
  /-- a functor that is not the connection's -/
  | other
deriving DecidableEq, Repr

inductive ConnEvent
  /-- a `write` to the socket, with the bytes that the kernel accepted -/
  | write (bytes : List UInt8)
  /-- `_outputBuffer.append` -/
  | append (bytes : List UInt8)
  | shutdownWrite
  | connectionCallback (connected : Bool)
  | messageCallback
  | closeCallback
  | handleClose
  | connectDestroyed
  /-- the server hands `connectDestroyed` to the io loop -/
  | destroyRequest
  /-- `send` has seen `kConnected` -/
  | send (call : SendCall)
  /-- `sendInLoop` begins for this call -/
  | sendInLoop (call : SendCall)
deriving DecidableEq, Repr

/-- What a `write` returns, and `errno` after it. -/
structure WriteResult where
  ret : Int
  errno : Int
deriving DecidableEq, Repr

/-- The kernel writes at most what it is given. -/
def WriteResult.Bounded (len : Nat) (r : WriteResult) : Prop := -1 ≤ r.ret ∧ r.ret ≤ len

instance (len : Nat) (r : WriteResult) : Decidable (r.Bounded len) := by
  unfold WriteResult.Bounded; infer_instance

def EWOULDBLOCK : Int := 11
def EPIPE : Int := 32
def ECONNRESET : Int := 104

/-- The memory behind the pointers. -/
abbrev Memory := Int → UInt8

/-- The bytes `[data, data + len)`. -/
def readBytes (mem : Memory) (data : Int) (len : Nat) : List UInt8 :=
  (List.range len).map fun i : Nat => mem (data + i)

@[simp] theorem length_readBytes (mem : Memory) (data : Int) (len : Nat) :
    (readBytes mem data len).length = len := by
  simp [readBytes]

theorem readBytes_append (mem : Memory) (data : Int) (m n : Nat) :
    readBytes mem data m ++ readBytes mem (data + m) n = readBytes mem data (m + n) := by
  simp [readBytes, List.range_add, Int.add_assoc]

/-- What the server and its base loop know about the connection. -/
structure ServerEntry where
  /-- the io loop is the base loop -/
  sameLoop : Bool
  alive : Bool
  /-- the connection is in `connections` -/
  inMap : Bool
  /-- the functors `removeConnectionInPool` in the queue of the base loop -/
  removals : Nat
deriving DecidableEq, Repr

namespace LoopSystem

variable {F C T : Type*}

/-- `queueInLLoop`, called by the loop thread. -/
def queueInLLoop (f : F) (s : LoopSystem F C T) : LoopSystem F C T :=
  { s with loop := s.loop.queueInLLoop true f, queued := s.queued ++ [(f, s.batches)] }

variable [DecidableEq C]

/-- An operation on a channel, called by the loop thread. -/
def applyOp (op : ChannelOp) (c : C) (s : LoopSystem F C T) : LoopSystem F C T :=
  { s with loop := s.loop.channelOp op c }

end LoopSystem

structure TcpConnection (C T : Type*) where
  sys : LoopSystem LoopFunctor C T
  channel : C
  state : ConnState
  inputBuffer : Buffer
  outputBuffer : Buffer
  highWaterMask : Nat
  /-- `_writeCompleteCallback` is set -/
  writeCompleteCallback : Bool
  /-- `_highWaterMarkCallback` is set -/
  highWaterMarkCallback : Bool
  server : ServerEntry
  log : List ConnEvent

namespace Buffer

/-- A buffer of the default size. -/
def initial : Buffer :=
  ⟨List.replicate (kCheapPrepend + kInitialSize) 0, kCheapPrepend, kCheapPrepend⟩

theorem new_kInitialSize : new kInitialSize = .ok initial := by
  rfl

end Buffer

namespace TcpConnection

variable {C T : Type*}

/-- The constructor. -/
def new (sys : LoopSystem LoopFunctor C T) (channel : C) (server : ServerEntry)
    (writeCompleteCallback highWaterMarkCallback : Bool) : TcpConnection C T where
  sys := sys
  channel := channel
  state := .kConnecting
  inputBuffer := .initial
  outputBuffer := .initial
  highWaterMask := 64 * 1024 * 1024
  writeCompleteCallback := writeCompleteCallback
  highWaterMarkCallback := highWaterMarkCallback
  server := server
  log := []

def isWriting (c : TcpConnection C T) : Bool := (c.sys.loop.poller.channel c.channel).isWriting

/-- Nothing is pending, so `sendInLoop` writes to the socket itself. -/
abbrev writesDirectly (c : TcpConnection C T) : Prop :=
  c.isWriting = false ∧ c.outputBuffer.readableBytes = 0

def note (e : ConnEvent) (c : TcpConnection C T) : TcpConnection C T :=
  { c with log := c.log ++ [e] }

def queueInLLoop (f : LoopFunctor) (c : TcpConnection C T) : TcpConnection C T :=
  { c with sys := c.sys.queueInLLoop f }

def setOutput (outputBuffer : Buffer) (c : TcpConnection C T) : TcpConnection C T :=
  { c with outputBuffer }

def setState (state : ConnState) (c : TcpConnection C T) : TcpConnection C T := { c with state }

/-- Queue the user's write-complete callback, where there is one. -/
def notifyWriteComplete (c : TcpConnection C T) : TcpConnection C T :=
  { c with sys := if c.writeCompleteCallback then c.sys.queueInLLoop .writeComplete else c.sys }

/-- Queue the user's high-water callback when `remaining` more bytes cross the mark. -/
def notifyHighWater (remaining : Nat) (c : TcpConnection C T) : TcpConnection C T :=
  let oldLen := c.outputBuffer.readableBytes
  { c with sys :=
      if toSize (oldLen + remaining) ≥ c.highWaterMask ∧ oldLen < c.highWaterMask ∧
        c.highWaterMarkCallback = true
      then c.sys.queueInLLoop (.highWaterMark (toSize (oldLen + remaining))) else c.sys }

variable [DecidableEq C]

def channelOp (op : ChannelOp) (c : TcpConnection C T) : TcpConnection C T :=
  { c with sys := c.sys.applyOp op c.channel }

/-! ## Output -/

/-- `if (!_channel->isWriting()) _channel->enableWriting();` -/
def requestWrite (c : TcpConnection C T) : TcpConnection C T :=
  { c with sys := if c.isWriting then c.sys else c.sys.applyOp .enableWriting c.channel }

/-- The end of `sendInLoop`: buffer the `remaining` bytes at `rest` and ask for write events. -/
def bufferRest (mem : Memory) (rest : Int) (remaining : Nat) (c : TcpConnection C T) :
    Except LengthError (TcpConnection C T) :=
  if remaining > 0 then
    let c := c.notifyHighWater remaining
    match c.outputBuffer.append (readBytes mem rest remaining) with
    | .error e => .error e
    | .ok outputBuffer =>
      .ok ((c.setOutput outputBuffer).note (.append (readBytes mem rest remaining))).requestWrite
  else .ok c

/-- `sendInLoop(data, len)`. `nwrote` is the value of the local of this name before the first
`if`, which no statement has assigned yet; `r` is the result of the direct `write`. -/
def sendInLoop (mem : Memory) (data : Int) (len : Nat) (nwrote : Int) (r : WriteResult)
    (c : TcpConnection C T) : Except LengthError (TcpConnection C T) :=
  -- For `kDisconnected` the source logs "give up writing" here, and goes on.
  if c.writesDirectly then
    let c := c.note (.write ((readBytes mem data len).take r.ret.toNat))
    if r.ret ≠ 0 then
      -- This branch is also taken for a `write` that has failed with -1.
      let remaining := toSize (len - r.ret)
      let c := if remaining = 0 then c.notifyWriteComplete else c
      c.bufferRest mem (data + r.ret) remaining
    else if r.errno ≠ EWOULDBLOCK ∧ (r.errno = EPIPE ∨ r.errno = ECONNRESET) then .ok c
    else c.bufferRest mem data len
  else c.bufferRest mem (data + nwrote) len

def shutdownInLoop (c : TcpConnection C T) : TcpConnection C T :=
  { c with log := if c.isWriting then c.log else c.log ++ [.shutdownWrite] }

/-- It reads the socket's pending error and logs it. -/
def handleError (c : TcpConnection C T) : TcpConnection C T := c

/-- The part of `handleWrite` after the last byte has been written. -/
def writeFinished (c : TcpConnection C T) : TcpConnection C T :=
  let c := (c.channelOp .disableWriting).notifyWriteComplete
  if c.state = .kDisconnected then c.shutdownInLoop else c

def handleWrite (r : WriteResult) (c : TcpConnection C T) : TcpConnection C T :=
  if c.isWriting then
    let c := c.note (.write ((c.outputBuffer.peek c.outputBuffer.readableBytes).take r.ret.toNat))
    if r.ret > 0 then
      let c := c.setOutput (c.outputBuffer.retrieve r.ret.toNat)
      if c.outputBuffer.readableBytes = 0 then c.writeFinished else c
    else c.handleError
  else c

/-! ## The calls of the user, on the loop thread -/

def send (mem : Memory) (data : Int) (call : SendCall) (nwrote : Int) (r : WriteResult)
    (c : TcpConnection C T) : Except LengthError (TcpConnection C T) :=
  if c.state = .kConnected then
    ((c.note (.send call)).note (.sendInLoop call)).sendInLoop mem data call.payload.length nwrote r
  else .ok c

def shutdown (c : TcpConnection C T) : TcpConnection C T :=
  if c.state = .kConnected then (c.setState .kDisconnected).shutdownInLoop else c

/-! ## Establishment and teardown -/

def connectEstablished (c : TcpConnection C T) : TcpConnection C T :=
  ((c.setState .kConnected).channelOp .enableReading).note (.connectionCallback true)

def connectDestroyed (c : TcpConnection C T) : TcpConnection C T :=
  let c := c.note .connectDestroyed
  let c := if c.state = .kConnected then
    ((c.setState .kDisconnected).channelOp .disableAll).note (.connectionCallback false)
  else c
  c.channelOp .remove

/-- `TcpServer::removeConnectionInPool`, where the io loop is the base loop. On another thread the
push is a step of that thread. -/
def removeConnectionInPool (c : TcpConnection C T) : TcpConnection C T :=
  ({ c with server := { c.server with inMap := false } }.note .destroyRequest).queueInLLoop
    .connectDestroyed

/-- `_closeCallback`, which is `TcpServer::removeConnection`. A server that is destroyed has no
code left to run. -/
def closeCallback (c : TcpConnection C T) : TcpConnection C T :=
  let c := c.note .closeCallback
  if c.server.alive then
    if c.server.sameLoop then c.removeConnectionInPool
    else { c with server := { c.server with removals := c.server.removals + 1 } }
  else c

def handleClose (c : TcpConnection C T) : TcpConnection C T :=
  let c := c.note .handleClose
  let c := (c.setState .kDisconnected).channelOp .disableAll
  (c.note (.connectionCallback false)).closeCallback

/-! ## Input -/

def handleRead (r : Buffer.ReadResult) (c : TcpConnection C T) :
    Except LengthError (TcpConnection C T) :=
  match c.inputBuffer.readFd r with
  | .error e => .error e
  | .ok (inputBuffer, n, _) =>
    let c := { c with inputBuffer }
    .ok (if n > 0 then c.note .messageCallback
      else if n = 0 then c.handleClose
      else c.handleError)

end TcpConnection

end WebCore
