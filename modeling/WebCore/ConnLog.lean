import WebCore.ConnPlain
import WebCore.ConnStep

/-!
# What a step logs

The log is what the outside sees of a connection. **`step_chunk`** is its inversion: whatever a step
is, what it adds to the log is one of a few chunks, in which a close is always followed by its
report, and `connectDestroyed` by its own where it makes one.
-/

namespace WebCore

namespace ConnSystem

variable {C T : Type*}

/-- The events that one step can add to the log. -/
inductive Chunk : List ConnEvent → Prop
  | traffic {es : List ConnEvent} (h : ∀ e ∈ es, e.isTraffic = true) : Chunk es
  | message : Chunk [.messageCallback]
  | established : Chunk [.connectionCallback true]
  | closed (asked : Bool) : Chunk ([.handleClose, .connectionCallback false, .closeCallback] ++
      if asked then [.destroyRequest] else [])
  | requested : Chunk [.destroyRequest]
  | destroyed (asked told : Bool) : Chunk ((if asked then [.destroyRequest] else []) ++
      .connectDestroyed :: if told then [.connectionCallback false] else [])

/-- A step of `c` that adds one chunk to the log. -/
def AddsChunk (c c' : TcpConnection C T) : Prop := ∃ es, c'.log = c.log ++ es ∧ Chunk es

theorem AddsChunk.of_log {c c' : TcpConnection C T} (h : c'.log = c.log) : AddsChunk c c' :=
  ⟨[], by rw [h, List.append_nil], .traffic nofun⟩

variable [DecidableEq C]

theorem addsChunk_plain {c c' : TcpConnection C T} (h : TcpConnection.Plain c c') :
    AddsChunk c c' := by
  obtain ⟨es, hes, htraffic⟩ := h.grows
  exact ⟨es, hes, .traffic htraffic⟩

theorem addsChunk_handleClose (c : TcpConnection C T) : AddsChunk c c.handleClose := by
  refine ⟨_, ?_, .closed (c.server.alive && c.server.sameLoop)⟩
  simp only [TcpConnection.handleClose_eq, Bool.and_eq_true, List.append_assoc]

theorem addsChunk_connectDestroyed (c : TcpConnection C T) : AddsChunk c c.connectDestroyed := by
  refine ⟨_, ?_, .destroyed false (c.state = .kConnected)⟩
  simp [TcpConnection.connectDestroyed_eq]

variable [DecidableEq T]

/-- **Every step adds one chunk to the log.** -/
theorem step_chunk {s s' : ConnSystem C T} {a : ConnAction C T} (h : s.step a = some s') :
    AddsChunk s.conn s'.conn := by
  have hinv := step_inv h
  cases a with
  | loop a =>
    obtain ⟨-, sys, -, rfl⟩ := hinv
    exact .of_log rfl
  | handle e =>
    obtain ⟨-, -, k, rest, conn, -, hrun, rfl⟩ := hinv
    cases k with
    | error =>
      obtain rfl := Option.some.inj hrun
      exact .of_log rfl
    | read =>
      obtain ⟨b, rfl | ⟨-, rfl⟩ | rfl⟩ := handleRead_inv (toOption_eq_some.1 hrun)
      · exact ⟨_, rfl, .message⟩
      · exact addsChunk_handleClose { s.conn with inputBuffer := b }
      · exact .of_log rfl
    | write =>
      simp only [TcpConnection.runHandler, Option.ite_none_right_eq_some, Option.some.injEq] at hrun
      obtain ⟨-, rfl⟩ := hrun
      exact addsChunk_plain (TcpConnection.plain_handleWrite e.write s.conn)
    | close =>
      obtain rfl := Option.some.inj hrun
      exact addsChunk_handleClose s.conn
  | runFunctor e =>
    obtain ⟨-, -, f, rest, conn, -, hrun, rfl⟩ := hinv
    cases f with
    | sendInLoop data len call =>
      simp only [TcpConnection.callFunctor, Option.ite_none_right_eq_some, toOption_eq_some] at hrun
      have hadds : AddsChunk (s.took (.sendInLoop data len call) rest) conn :=
        addsChunk_plain ((TcpConnection.plain_note rfl _).trans rfl
          (TcpConnection.plain_sendInLoop hrun.2))
      exact hadds
    | shutdownInLoop =>
      obtain rfl := Option.some.inj hrun
      have hadds := addsChunk_plain
        (TcpConnection.plain_shutdownInLoop (s.took .shutdownInLoop rest))
      exact hadds
    | connectEstablished =>
      obtain rfl := Option.some.inj hrun
      exact ⟨_, rfl, .established⟩
    | connectDestroyed =>
      obtain rfl := Option.some.inj hrun
      have hadds := addsChunk_connectDestroyed (s.took .connectDestroyed rest)
      exact hadds
    | writeComplete | highWaterMark | other =>
      obtain rfl := Option.some.inj hrun
      exact .of_log rfl
  | newConnection t =>
    obtain ⟨-, -, -, rfl⟩ := hinv
    exact .of_log rfl
  | newConnectionOwn =>
    obtain ⟨-, -, -, rfl⟩ := hinv
    exact ⟨_, rfl, .established⟩
  | sendTest t data payload =>
    obtain ⟨-, -, -, rfl⟩ := hinv
    exact addsChunk_plain (TcpConnection.plain_note rfl s.conn)
  | sendPush t =>
    obtain ⟨data, len, call, -, rfl⟩ := hinv
    exact .of_log rfl
  | shutdownTest t =>
    obtain ⟨-, -, rfl⟩ := hinv
    exact .of_log rfl
  | shutdownSet t | shutdownPush t =>
    obtain ⟨-, rfl⟩ := hinv
    exact .of_log rfl
  | sendOwn data payload e =>
    obtain ⟨-, -, -, -, conn, hsend, rfl⟩ := hinv
    exact addsChunk_plain (TcpConnection.plain_send hsend)
  | shutdownOwn =>
    obtain ⟨-, rfl⟩ := hinv
    exact addsChunk_plain (TcpConnection.plain_shutdown s.conn)
  | removeConnectionInPool t =>
    obtain ⟨-, -, -, rfl⟩ := hinv
    exact ⟨_, rfl, .requested⟩
  | destroyServer t =>
    obtain ⟨-, ⟨-, rfl⟩ | ⟨-, rfl⟩⟩ := hinv
    · exact ⟨_, rfl, .requested⟩
    · exact .of_log rfl
  | destroyServerOwn =>
    obtain ⟨-, -, -, ⟨-, rfl⟩ | ⟨-, rfl⟩⟩ := hinv
    · refine ⟨_, ?_, .destroyed true (s.conn.state = .kConnected)⟩
      simp [TcpConnection.connectDestroyed_eq, orphaned, TcpConnection.note,
        TcpConnection.setServer]
    · exact .of_log rfl

end ConnSystem

end WebCore
