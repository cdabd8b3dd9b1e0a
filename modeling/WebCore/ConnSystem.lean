import WebCore.PollerAgree
import WebCore.TcpConnection

/-!
# A connection and the threads around it

One connection of a `TcpServer`, its io loop, and the other threads: those that hold the connection
and call `send` or `shutdown`, and the base loop's thread, which accepts and removes it. When the
server has no io threads (`sameLoop`), the io loop's own thread does the latter.

The loop thread's steps are those of `LoopSystem`, but for two kinds that run code of the
connection: a call of `handleEventWithGuard` is one step for each handler, and a functor of the
connection is one step. A `send` on another thread is the test of `_state`, the push and the wakeup;
a `shutdown` is the test, the store, the push and the wakeup.
-/

namespace WebCore

/-! ## The model -/

/-- The callbacks of `handleEventWithGuard`. -/
inductive Handler
  | error
  | read
  | write
  | close
deriving DecidableEq, Repr

/-- The callbacks that `handleEventWithGuard` makes for a mask, in its order. -/
def handlers (revents : EventMask) : List Handler :=
  (if revents.has EPOLLERR then [.error] else []) ++
  (if revents.has (EPOLLIN ||| EPOLLPRI) then [.read] else []) ++
  (if revents.has EPOLLOUT then [.write] else []) ++
  (if revents.has EPOLLHUP && !revents.has EPOLLIN then [.close] else [])

/-- Where a thread other than the loop's stands in `send` or `shutdown`. -/
inductive UserPc
  | idle
  /-- in `send`, having seen `kConnected`; `sendInLoop` is to be queued -/
  | sending (data : Int) (len : Nat) (call : SendCall)
  /-- in `shutdown`, having seen `kConnected` -/
  | sawConnected
  /-- in `shutdown`, having stored `kDisconnected`; the functor is to be queued -/
  | stored
deriving DecidableEq, Repr

/-- What a step finds in memory and is answered by the kernel. -/
structure Answers where
  mem : Memory
  nwrote : Int
  write : WriteResult
  read : Buffer.ReadResult

structure ConnSystem (C T : Type*) where
  conn : TcpConnection C T
  user : T → UserPc
  /-- the rest of `handleEventWithGuard` -/
  handling : List Handler
  /-- the number of calls of `send` that have seen `kConnected` -/
  calls : Nat
  /-- `newConnection` has been called -/
  created : Bool

inductive ConnAction (C T : Type*)
  /-- a step that runs no code of the connection -/
  | loop (a : LoopAction LoopFunctor C T)
  | handle (e : Answers)
  | runFunctor (e : Answers)
  | newConnection (t : T)
  | newConnectionOwn
  | sendTest (t : T) (data : Int) (payload : List UInt8)
  | sendPush (t : T)
  | shutdownTest (t : T)
  | shutdownSet (t : T)
  | shutdownPush (t : T)
  | sendOwn (data : Int) (payload : List UInt8) (e : Answers)
  | shutdownOwn
  | removeConnectionInPool (t : T)
  | destroyServer (t : T)
  | destroyServerOwn

namespace TcpConnection

variable {C T : Type*} [DecidableEq C]

/-- A handler of the connection's channel. -/
def runHandler (e : Answers) (c : TcpConnection C T) : Handler → Option (TcpConnection C T)
  | .error => some c.handleError
  | .read => (c.handleRead e.read).toOption
  | .write =>
    if e.write.Bounded c.outputBuffer.readableBytes then some (c.handleWrite e.write) else none
  | .close => some c.handleClose

/-- A functor of the io loop. -/
def callFunctor (e : Answers) (c : TcpConnection C T) : LoopFunctor → Option (TcpConnection C T)
  | .sendInLoop data len call =>
    if e.write.Bounded len then
      ((c.note (.sendInLoop call)).sendInLoop e.mem data len e.nwrote e.write).toOption
    else none
  | .shutdownInLoop => some c.shutdownInLoop
  | .connectEstablished => some c.connectEstablished
  | .connectDestroyed => some c.connectDestroyed
  | .writeComplete | .highWaterMark _ | .other => some c

/-- The functors that the io loop is still to run. -/
def queue (c : TcpConnection C T) : List LoopFunctor :=
  c.sys.loop.functors ++ c.sys.loop.pendingFunctors

def setServer (server : ServerEntry) (c : TcpConnection C T) : TcpConnection C T :=
  { c with server }

def setSys (sys : LoopSystem LoopFunctor C T) (c : TcpConnection C T) : TcpConnection C T :=
  { c with sys }

end TcpConnection

namespace ConnSystem

variable {C T : Type*}

/-- The connection's record in the poller. -/
def entry (s : ConnSystem C T) : Channel := s.conn.sys.loop.poller.channel s.conn.channel

/-- The thread `t` is in user code. -/
def isFree (s : ConnSystem C T) (t : T) : Bool := s.user t = .idle ∧ s.conn.sys.caller t = .idle

/-- The loop thread is in user code. -/
def ownFree (s : ConnSystem C T) : Bool :=
  s.conn.sys.loop.inUserCode ∧ s.conn.sys.own = .idle

def new (sys : LoopSystem LoopFunctor C T) (channel : C) (sameLoop writeComplete highWater : Bool) :
    ConnSystem C T where
  conn := .new sys channel ⟨sameLoop, true, false, 0⟩ writeComplete highWater
  user _ := .idle
  handling := []
  calls := 0
  created := false

variable [DecidableEq C]

/-- The steps that `LoopAction` can describe as they are: they run no functor of the connection,
queue none, and do not touch its channel. -/
def passes (s : ConnSystem C T) : LoopAction LoopFunctor C T → Bool
  | .dispatch | .startFunctors => s.handling = []
  | .runFunctor => false
  | .push t f => f = .other ∧ s.user t = .idle
  | .pushOwn f => f = .other
  | .quit t => s.user t = .idle
  | .channelOp _ c => c ≠ s.conn.channel
  | _ => true

/-- When `handleEvent` is called on the connection's channel, its handlers are to come. -/
def nextHandling (s : ConnSystem C T) : LoopAction LoopFunctor C T → List Handler
  | .dispatch =>
    if s.conn.sys.loop.activeChannels.head? = some s.conn.channel then handlers s.entry.revents
    else []
  | _ => s.handling

variable [DecidableEq T]

/-- The thread `t` queues `f`. -/
def pushBy (t : T) (f : LoopFunctor) (s : ConnSystem C T) : Option (ConnSystem C T) :=
  (s.conn.sys.step (.push t f)).map fun sys => { s with conn := s.conn.setSys sys }

/-- The outcome of `pushBy`. -/
def pushed (t : T) (f : LoopFunctor) (s : ConnSystem C T) : ConnSystem C T :=
  { s with conn := s.conn.setSys { s.conn.sys with
      loop := s.conn.sys.loop.push f
      caller := Function.update s.conn.sys.caller t .pushed
      queued := s.conn.sys.queued ++ [(f, s.conn.sys.batches)] } }

theorem pushBy_eq_some {t : T} {f : LoopFunctor} {s s' : ConnSystem C T} :
    s.pushBy t f = some s' ↔ s.conn.sys.caller t = .idle ∧ s' = s.pushed t f := by
  simp only [pushBy, LoopSystem.step, pushed]
  split <;> simp_all [eq_comm]

def setUser (t : T) (pc : UserPc) (s : ConnSystem C T) : ConnSystem C T :=
  { s with user := Function.update s.user t pc }

/-- The connection when the next functor has been taken out of the batch. -/
def took (f : LoopFunctor) (rest : List LoopFunctor) (s : ConnSystem C T) : TcpConnection C T :=
  s.conn.setSys { s.conn.sys with
    loop := s.conn.sys.loop.takeFunctor rest
    executed := s.conn.sys.executed ++ [(f, s.conn.sys.batches)] }

/-- The connection when `newConnection` has put it into the map. -/
def listed (s : ConnSystem C T) : TcpConnection C T :=
  s.conn.setServer { s.conn.server with inMap := true }

/-- The connection when `removeConnectionInPool` has erased it. -/
def erased (s : ConnSystem C T) : TcpConnection C T :=
  (s.conn.setServer { s.conn.server with
    inMap := false
    removals := s.conn.server.removals - 1 }).note .destroyRequest

/-- The connection when its server is being destroyed. -/
def orphaned (s : ConnSystem C T) : TcpConnection C T :=
  s.conn.setServer { s.conn.server with alive := false }

/-- One step of one of the threads, when it can take it. -/
def step (s : ConnSystem C T) : ConnAction C T → Option (ConnSystem C T)
  | .loop a =>
    if s.passes a then
      (s.conn.sys.step a).map fun sys =>
        { s with conn := s.conn.setSys sys, handling := s.nextHandling a }
    else none
  | .handle e =>
    match s.handling with
    | h :: rest =>
      if s.conn.sys.isAt .dispatch then
        (s.conn.runHandler e h).map fun conn => { s with conn, handling := rest }
      else none
    | [] => none
  | .runFunctor e =>
    match s.conn.sys.loop.functors with
    | f :: _ =>
      (s.conn.sys.step .runFunctor).bind fun sys =>
        ((s.conn.setSys sys).callFunctor e f).map fun conn => { s with conn }
    | [] => none
  | .newConnection t =>
    if s.created = false ∧ s.conn.server.sameLoop = false ∧ s.conn.server.alive ∧ s.isFree t then
      { s with created := true, conn := s.listed }.pushBy t .connectEstablished
    else none
  | .newConnectionOwn =>
    if s.created = false ∧ s.conn.server.sameLoop ∧ s.conn.server.alive ∧ s.ownFree then
      some { s with created := true, conn := s.listed.connectEstablished }
    else none
  | .sendTest t data payload =>
    if s.conn.state = .kConnected ∧ payload.length ≤ maxSize ∧ s.isFree t then
      some ({ s with conn := s.conn.note (.send ⟨s.calls, payload⟩)
                     calls := s.calls + 1 }.setUser t
        (.sending data payload.length ⟨s.calls, payload⟩))
    else none
  | .sendPush t =>
    match s.user t with
    | .sending data len call => (s.setUser t .idle).pushBy t (.sendInLoop data len call)
    | _ => none
  | .shutdownTest t =>
    if s.conn.state = .kConnected ∧ s.isFree t then some (s.setUser t .sawConnected) else none
  | .shutdownSet t =>
    if s.user t = .sawConnected then
      some ({ s with conn := s.conn.setState .kDisconnected }.setUser t .stored)
    else none
  | .shutdownPush t =>
    if s.user t = .stored then (s.setUser t .idle).pushBy t .shutdownInLoop else none
  | .sendOwn data payload e =>
    if s.ownFree ∧ payload.length ≤ maxSize ∧ readBytes e.mem data payload.length = payload ∧
        e.write.Bounded payload.length then
      (s.conn.send e.mem data ⟨s.calls, payload⟩ e.nwrote e.write).toOption.map fun conn =>
        { s with conn, calls := s.calls + 1 }
    else none
  | .shutdownOwn => if s.ownFree then some { s with conn := s.conn.shutdown } else none
  | .removeConnectionInPool t =>
    if s.conn.server.sameLoop = false ∧ s.conn.server.alive ∧ 0 < s.conn.server.removals ∧
        s.isFree t then
      { s with conn := s.erased }.pushBy t .connectDestroyed
    else none
  | .destroyServer t =>
    if s.conn.server.sameLoop = false ∧ s.conn.server.alive ∧ s.isFree t then
      if s.conn.server.inMap then
        { s with conn := s.orphaned.note .destroyRequest }.pushBy t .connectDestroyed
      else some { s with conn := s.orphaned }
    else none
  | .destroyServerOwn =>
    if s.conn.server.sameLoop ∧ s.conn.server.alive ∧ s.ownFree then
      if s.conn.server.inMap then
        some { s with conn := (s.orphaned.note .destroyRequest).connectDestroyed }
      else some { s with conn := s.orphaned }
    else none

def run (s : ConnSystem C T) (as : List (ConnAction C T)) : Option (ConnSystem C T) :=
  Transition.run step s as

/-! ## Inversion -/

/-- What a step requires and what it does, action by action. -/
def Takes (s s' : ConnSystem C T) : ConnAction C T → Prop
  | .loop a => s.passes a = true ∧ ∃ sys, s.conn.sys.step a = some sys ∧
      s' = { s with conn := s.conn.setSys sys, handling := s.nextHandling a }
  | .handle e => s.conn.sys.loop.pc = .dispatch ∧ s.conn.sys.own = .idle ∧
      ∃ h rest conn, s.handling = h :: rest ∧ s.conn.runHandler e h = some conn ∧
        s' = { s with conn, handling := rest }
  | .runFunctor e => s.conn.sys.loop.pc = .run ∧ s.conn.sys.own = .idle ∧
      ∃ f rest conn, s.conn.sys.loop.functors = f :: rest ∧
        (s.took f rest).callFunctor e f = some conn ∧ s' = { s with conn }
  | .newConnection t => s.created = false ∧ s.conn.server.sameLoop = false ∧
      s.conn.server.alive = true ∧
      s' = { s with created := true, conn := s.listed }.pushed t .connectEstablished
  | .newConnectionOwn => s.created = false ∧ s.conn.server.alive = true ∧ s.ownFree = true ∧
      s' = { s with created := true, conn := s.listed.connectEstablished }
  | .sendTest t data payload => s.conn.state = .kConnected ∧ payload.length ≤ maxSize ∧
      s.user t = .idle ∧
      s' = { s with conn := s.conn.note (.send ⟨s.calls, payload⟩), calls := s.calls + 1 }.setUser t
        (.sending data payload.length ⟨s.calls, payload⟩)
  | .sendPush t => ∃ data len call, s.user t = .sending data len call ∧
      s' = (s.setUser t .idle).pushed t (.sendInLoop data len call)
  | .shutdownTest t => s.conn.state = .kConnected ∧ s.user t = .idle ∧
      s' = s.setUser t .sawConnected
  | .shutdownSet t => s.user t = .sawConnected ∧
      s' = { s with conn := s.conn.setState .kDisconnected }.setUser t .stored
  | .shutdownPush t => s.user t = .stored ∧ s' = (s.setUser t .idle).pushed t .shutdownInLoop
  | .sendOwn data payload e => s.ownFree = true ∧ payload.length ≤ maxSize ∧
      readBytes e.mem data payload.length = payload ∧ e.write.Bounded payload.length ∧
      ∃ conn, s.conn.send e.mem data ⟨s.calls, payload⟩ e.nwrote e.write = .ok conn ∧
        s' = { s with conn, calls := s.calls + 1 }
  | .shutdownOwn => s.ownFree = true ∧ s' = { s with conn := s.conn.shutdown }
  | .removeConnectionInPool t => s.conn.server.sameLoop = false ∧ s.conn.server.alive = true ∧
      0 < s.conn.server.removals ∧ s' = { s with conn := s.erased }.pushed t .connectDestroyed
  | .destroyServer t => s.conn.server.alive = true ∧
      (s.conn.server.inMap = true ∧
        s' = { s with conn := s.orphaned.note .destroyRequest }.pushed t .connectDestroyed ∨
      s.conn.server.inMap = false ∧ s' = { s with conn := s.orphaned })
  | .destroyServerOwn => s.conn.server.sameLoop = true ∧ s.conn.server.alive = true ∧
      s.ownFree = true ∧ (s.conn.server.inMap = true ∧
        s' = { s with conn := (s.orphaned.note .destroyRequest).connectDestroyed } ∨
      s.conn.server.inMap = false ∧ s' = { s with conn := s.orphaned })

/-- **Inversion of a step.** -/
theorem step_inv {s s' : ConnSystem C T} {a : ConnAction C T} (h : s.step a = some s') :
    s.Takes s' a := by
  cases a with
  | loop a =>
    simp only [step, Option.ite_none_right_eq_some, Option.map_eq_some_iff] at h
    obtain ⟨hp, sys, hsys, rfl⟩ := h
    exact ⟨hp, sys, hsys, rfl⟩
  | handle e =>
    simp only [step] at h
    split at h
    · rename_i k rest hk
      simp only [Option.ite_none_right_eq_some, Option.map_eq_some_iff, LoopSystem.isAt,
        decide_eq_true_eq] at h
      obtain ⟨⟨hpc, hown⟩, conn, hconn, rfl⟩ := h
      exact ⟨hpc, hown, k, rest, conn, hk, hconn, rfl⟩
    · cases h
  | runFunctor e =>
    simp only [step] at h
    split at h
    · rename_i f rest hf
      simp only [Option.bind_eq_some_iff, Option.map_eq_some_iff] at h
      obtain ⟨sys, hsys, conn, hconn, rfl⟩ := h
      obtain ⟨hpc, hown, f', rest', hf', rfl⟩ := LoopSystem.step_inv hsys
      obtain ⟨rfl, rfl⟩ := List.cons.inj (hf'.symm.trans hf)
      exact ⟨hpc, hown, f', rest', conn, hf, hconn, rfl⟩
    · cases h
  | newConnection t =>
    simp only [step, Option.ite_none_right_eq_some, pushBy_eq_some] at h
    obtain ⟨⟨hc, hl, ha, -⟩, -, rfl⟩ := h
    exact ⟨hc, hl, ha, rfl⟩
  | newConnectionOwn =>
    simp only [step, Option.ite_none_right_eq_some, Option.some.injEq] at h
    obtain ⟨⟨hc, -, ha, ho⟩, rfl⟩ := h
    exact ⟨hc, ha, ho, rfl⟩
  | sendTest t data payload =>
    simp only [step, Option.ite_none_right_eq_some, Option.some.injEq, isFree,
      decide_eq_true_eq] at h
    obtain ⟨⟨hst, hlen, hu, -⟩, rfl⟩ := h
    exact ⟨hst, hlen, hu, rfl⟩
  | sendPush t =>
    simp only [step] at h
    split at h
    · rename_i data len call hu
      obtain ⟨-, rfl⟩ := pushBy_eq_some.1 h
      exact ⟨data, len, call, hu, rfl⟩
    · cases h
  | shutdownTest t =>
    simp only [step, Option.ite_none_right_eq_some, Option.some.injEq, isFree,
      decide_eq_true_eq] at h
    obtain ⟨⟨hst, hu, -⟩, rfl⟩ := h
    exact ⟨hst, hu, rfl⟩
  | shutdownSet t =>
    simp only [step, Option.ite_none_right_eq_some, Option.some.injEq] at h
    obtain ⟨hu, rfl⟩ := h
    exact ⟨hu, rfl⟩
  | shutdownPush t =>
    simp only [step, Option.ite_none_right_eq_some, pushBy_eq_some] at h
    obtain ⟨hu, -, rfl⟩ := h
    exact ⟨hu, rfl⟩
  | sendOwn data payload e =>
    simp only [step, Option.ite_none_right_eq_some, Option.map_eq_some_iff,
      toOption_eq_some] at h
    obtain ⟨⟨ho, hlen, hmem, hr⟩, conn, hconn, rfl⟩ := h
    exact ⟨ho, hlen, hmem, hr, conn, hconn, rfl⟩
  | shutdownOwn =>
    simp only [step, Option.ite_none_right_eq_some, Option.some.injEq] at h
    obtain ⟨ho, rfl⟩ := h
    exact ⟨ho, rfl⟩
  | removeConnectionInPool t =>
    simp only [step, Option.ite_none_right_eq_some, pushBy_eq_some] at h
    obtain ⟨⟨hl, ha, hr, -⟩, -, rfl⟩ := h
    exact ⟨hl, ha, hr, rfl⟩
  | destroyServer t =>
    simp only [step, Option.ite_none_right_eq_some] at h
    obtain ⟨⟨-, ha, -⟩, h⟩ := h
    split at h
    · rename_i hm
      obtain ⟨-, rfl⟩ := pushBy_eq_some.1 h
      exact ⟨ha, .inl ⟨hm, rfl⟩⟩
    · rename_i hm
      obtain rfl := Option.some.inj h
      exact ⟨ha, .inr ⟨by simpa using hm, rfl⟩⟩
  | destroyServerOwn =>
    simp only [step, Option.ite_none_right_eq_some] at h
    obtain ⟨⟨hl, ha, ho⟩, h⟩ := h
    split at h
    · rename_i hm
      obtain rfl := Option.some.inj h
      exact ⟨hl, ha, ho, .inl ⟨hm, rfl⟩⟩
    · rename_i hm
      obtain rfl := Option.some.inj h
      exact ⟨hl, ha, ho, .inr ⟨by simpa using hm, rfl⟩⟩

/-! ## One connection, for runs that are evaluated -/

def sampleFd (c : Bool) : Int := if c then 4 else 3

/-- The connection is the channel `true`; besides its loop there is one thread. -/
def sampleSystem (sameLoop : Bool) : ConnSystem Bool Unit :=
  new (.new sampleFd false) true sameLoop false false

def answers (ret : Int) (read : Buffer.ReadResult) : Answers := ⟨fun _ => 0, 0, ⟨ret, 0⟩, read⟩

end ConnSystem

end WebCore
