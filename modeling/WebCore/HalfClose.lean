import WebCore.Backlog
import WebCore.ConnQueue
import WebCore.Lib.Trace

/-!
# The half-close

`shutdown()` stores `kDisconnected` on the calling thread and half-closes the socket in a functor,
behind the sends that the thread has queued. `handleWrite` reads the state too: when it has written
the last byte of a connection that is down, it half-closes the socket at once, and does not look at
the queue (`half_close_overtakes`).

**Theorem (`half_close_last`).** As long as that does not happen while a send is under way, no
`shutdown()` queues its functor while another thread stands in `send`, and none runs on the loop
thread in front of a send that is under way, the half-close comes after every send that saw
`kConnected`, and after the last byte of every one.

The invariant is in two parts.

* `Sequenced`: a send that has not begun is outstanding, and until the connection is closed the
  stream consists of the payloads of the sends that have begun.
* `Fenced`: behind a `shutdownInLoop` there is no send, in the queue or on the way to it.
-/

namespace WebCore

open Trace

/-! ## The order of the half-close -/

/-- The payloads of the sends that have begun on the loop thread. -/
def handed (log : List ConnEvent) : List UInt8 :=
  log.flatMap fun
    | .sendInLoop call => call.payload
    | _ => []

/-- The connection has been closed neither by its peer nor by its server. -/
def Unclosed (log : List ConnEvent) : Prop := .handleClose ∉ log ∧ .connectDestroyed ∉ log

/-- Unless the connection has been closed, every send has begun before the half-close, and the
kernel has accepted the payloads of all of them. No send sees `kConnected` after it. -/
def HalfCloseOrder (pre : List ConnEvent) : ConnEvent → Prop
  | .shutdownWrite => Unclosed pre →
      (∀ call, .send call ∈ pre → .sendInLoop call ∈ pre) ∧
        TcpConnection.written pre = handed pre
  | .send _ => .shutdownWrite ∉ pre
  | _ => True

def UserPc.isSending : UserPc → Bool
  | .sending _ _ _ => true
  | _ => false

def LoopFunctor.isSend : LoopFunctor → Bool
  | .sendInLoop _ _ _ => true
  | _ => false

namespace TcpConnection

variable {C T : Type*}

/-- What `sendInLoop` reads is the payload: the memory behind the pointer is as it was, and with
output pending the unassigned `nwrote` does not lead away from it. -/
def Reads (c : TcpConnection C T) (e : Answers) (data : Int) (len : Nat) (payload : List UInt8) :
    Prop :=
  readBytes e.mem (if c.writesDirectly then data else data + e.nwrote) len = payload

instance (c : TcpConnection C T) (e : Answers) (data : Int) (len : Nat) (payload : List UInt8) :
    Decidable (c.Reads e data len payload) := by
  unfold Reads; infer_instance

/-- A direct `write` of `len` bytes does not fail. -/
def Succeeds (c : TcpConnection C T) (e : Answers) (len : Nat) : Prop :=
  c.writesDirectly → WriteResult.Accepts len e.write

instance (c : TcpConnection C T) (e : Answers) (len : Nat) : Decidable (c.Succeeds e len) := by
  unfold Succeeds; infer_instance

end TcpConnection

namespace ConnSystem

variable {C T : Type*}

/-- No send is under way, on a thread or in the queue. -/
def NoSend (s : ConnSystem C T) : Prop :=
  (∀ t, (s.user t).isSending = false) ∧ ∀ f ∈ s.uses, f.isSend = false

instance [Fintype T] (s : ConnSystem C T) : Decidable s.NoSend := by
  unfold NoSend; infer_instance

section Steps

variable [DecidableEq C]

/-- The functor's `write`, if it makes one, does not fail. -/
def FunctorSucceeds (s : ConnSystem C T) (e : Answers) : LoopFunctor → Prop
  | .sendInLoop _ len _ => s.conn.Succeeds e len
  | _ => True

instance (s : ConnSystem C T) (e : Answers) : ∀ f, Decidable (s.FunctorSucceeds e f)
  | .sendInLoop _ len _ => inferInstanceAs (Decidable (s.conn.Succeeds e len))
  | .shutdownInLoop | .connectEstablished | .connectDestroyed | .writeComplete
  | .highWaterMark _ | .other => inferInstanceAs (Decidable True)

/-- The functor sends the bytes that its call of `send` was given. -/
def FunctorReads (s : ConnSystem C T) (e : Answers) : LoopFunctor → Prop
  | .sendInLoop data len call => s.conn.Reads e data len call.payload
  | _ => True

instance (s : ConnSystem C T) (e : Answers) : ∀ f, Decidable (s.FunctorReads e f)
  | .sendInLoop data len call => inferInstanceAs (Decidable (s.conn.Reads e data len call.payload))
  | .shutdownInLoop | .connectEstablished | .connectDestroyed | .writeComplete
  | .highWaterMark _ | .other => inferInstanceAs (Decidable True)

/-- No `write` of a send fails. -/
def WritesSucceed (s : ConnSystem C T) : ConnAction C T → Prop
  | .runFunctor e => ∀ f ∈ s.conn.sys.loop.functors.head?, s.FunctorSucceeds e f
  | .sendOwn _ payload e => s.conn.state = .kConnected → s.conn.Succeeds e payload.length
  | _ => True

instance (s : ConnSystem C T) : ∀ a, Decidable (s.WritesSucceed a)
  | .runFunctor e => inferInstanceAs
      (Decidable (∀ f ∈ s.conn.sys.loop.functors.head?, s.FunctorSucceeds e f))
  | .sendOwn _ payload e => inferInstanceAs
      (Decidable (s.conn.state = .kConnected → s.conn.Succeeds e payload.length))
  | .loop _ | .handle _ | .newConnection _ | .newConnectionOwn | .sendTest _ _ _ | .sendPush _
  | .shutdownTest _ | .shutdownSet _ | .shutdownPush _ | .shutdownOwn
  | .removeConnectionInPool _ | .destroyServer _ | .destroyServerOwn =>
    inferInstanceAs (Decidable True)

/-- The step does not half-close the socket, or queue a half-close, in front of a send; and it does
not send other bytes than it was called with. -/
def Orderly (s : ConnSystem C T) : ConnAction C T → Prop
  | .handle e =>
    s.handling.head? = some .write ∧ s.conn.isWriting = true ∧ s.conn.state = .kDisconnected ∧
      e.write.ret = s.conn.outputBuffer.readableBytes → s.NoSend
  | .runFunctor e => ∀ f ∈ s.conn.sys.loop.functors.head?, s.FunctorReads e f
  | .sendOwn data payload e =>
    s.conn.state = .kConnected → s.conn.Reads e data payload.length payload
  | .shutdownPush _ => ∀ t, (s.user t).isSending = false
  | .shutdownOwn => s.conn.state = .kConnected ∧ s.conn.isWriting = false → s.NoSend
  | _ => True

instance [Fintype T] (s : ConnSystem C T) : ∀ a, Decidable (s.Orderly a)
  | .handle e => inferInstanceAs (Decidable
      (s.handling.head? = some .write ∧ s.conn.isWriting = true ∧ s.conn.state = .kDisconnected ∧
        e.write.ret = s.conn.outputBuffer.readableBytes → s.NoSend))
  | .runFunctor e => inferInstanceAs
      (Decidable (∀ f ∈ s.conn.sys.loop.functors.head?, s.FunctorReads e f))
  | .sendOwn data payload e => inferInstanceAs
      (Decidable (s.conn.state = .kConnected → s.conn.Reads e data payload.length payload))
  | .shutdownPush _ => inferInstanceAs (Decidable (∀ t, (s.user t).isSending = false))
  | .shutdownOwn => inferInstanceAs
      (Decidable (s.conn.state = .kConnected ∧ s.conn.isWriting = false → s.NoSend))
  | .loop _ | .newConnection _ | .newConnectionOwn | .sendTest _ _ _ | .sendPush _
  | .shutdownTest _ | .shutdownSet _ | .removeConnectionInPool _ | .destroyServer _
  | .destroyServerOwn => inferInstanceAs (Decidable True)

end Steps

end ConnSystem

/-! ## The stream up to the half-close -/

@[simp] theorem handed_append (log log' : List ConnEvent) :
    handed (log ++ log') = handed log ++ handed log' := by
  simp [handed]

/-- Only the beginning of a send counts. -/
theorem handed_eq_nil {es : List ConnEvent} (h : ∀ call, .sendInLoop call ∉ es) :
    handed es = [] := by
  refine List.flatMap_eq_nil_iff.2 fun e he => ?_
  cases e with
  | sendInLoop call => exact absurd he (h call)
  | _ => rfl

theorem written_eq_nil {es : List ConnEvent} (h : ∀ bytes, .write bytes ∉ es) :
    TcpConnection.written es = [] := by
  refine List.flatMap_eq_nil_iff.2 fun e he => ?_
  cases e with
  | write bytes => exact absurd he (h bytes)
  | _ => rfl

theorem Unclosed.of_append {log es : List ConnEvent} (h : Unclosed (log ++ es)) : Unclosed log :=
  ⟨fun hmem => h.1 (List.mem_append_left es hmem), fun hmem => h.2 (List.mem_append_left es hmem)⟩

namespace TcpConnection

variable {C T : Type*}

/-- The stream consists of the payloads of the sends that have begun. -/
structure Flowing (c : TcpConnection C T) : Prop where
  backlogged : Backlogged c
  stream_eq : c.stream = handed c.log

/-- With nothing being written, everything has been accepted. -/
theorem Flowing.written_eq {c : TcpConnection C T} (h : Flowing c) (hw : c.isWriting = false) :
    written c.log = handed c.log := by
  have hempty : c.outputBuffer.readable = [] := by
    by_contra hne
    have := h.backlogged.waits.1 ((readableBytes_pos_iff h.backlogged.valid).2 hne)
    exact absurd (hw.symm.trans this) (by simp)
  have := h.stream_eq
  rwa [stream, hempty, List.append_nil] at this

/-- A change that is not to the stream. -/
theorem Flowing.of_log {c c' : TcpConnection C T} {es : List ConnEvent} (h : Flowing c)
    (hb : Backlogged c') (hout : c'.outputBuffer = c.outputBuffer) (hlog : c'.log = c.log ++ es)
    (hw : written es = []) (hh : handed es = []) : Flowing c' := by
  refine ⟨hb, ?_⟩
  rw [stream, hlog, hout, written_append, handed_append, hw, hh, List.append_nil, List.append_nil]
  exact h.stream_eq

/-- A half-close by `shutdownInLoop`. -/
theorem shutdownInLoop_log (c : TcpConnection C T) : ∃ es, c.shutdownInLoop.log = c.log ++ es ∧
    (es = [] ∨ es = [.shutdownWrite] ∧ c.isWriting = false) := by
  by_cases hw : c.isWriting = true
  · exact ⟨[], by rw [shutdownInLoop, if_pos hw, List.append_nil], .inl rfl⟩
  · exact ⟨[.shutdownWrite], by rw [shutdownInLoop, if_neg hw], .inr ⟨rfl, by simpa using hw⟩⟩

/-- It leaves the stream as it is. -/
theorem Flowing.shutdownInLoop {c : TcpConnection C T} (h : Flowing c) :
    Flowing c.shutdownInLoop := by
  obtain ⟨es, hlog, hes⟩ := shutdownInLoop_log c
  rcases hes with rfl | ⟨rfl, -⟩
  · exact h.of_log (h.backlogged.of_eq rfl rfl rfl) rfl hlog rfl rfl
  · exact h.of_log (h.backlogged.of_eq rfl rfl rfl) rfl hlog rfl rfl

variable [DecidableEq C]

/-- A send appends what it reads. -/
theorem appends_sendInLoop {c c' : TcpConnection C T} {e : Answers} {data : Int} {len : Nat}
    {payload : List UInt8} (hv : c.outputBuffer.Valid) (hlen : len ≤ maxSize)
    (hr : c.Succeeds e len) (hread : c.Reads e data len payload)
    (h : c.sendInLoop e.mem data len e.nwrote e.write = .ok c') :
    c'.stream = c.stream ++ payload := by
  unfold Reads at hread
  by_cases hd : c.writesDirectly
  · rw [if_pos hd] at hread
    rw [← hread]
    rcases sendInLoop_spec e.mem data hv hlen hr (.inr (.inl hd)) with ⟨c₁, hc₁, ha⟩ | ⟨he, -⟩
    · obtain rfl : c₁ = c' := Except.ok.inj (hc₁.symm.trans h)
      exact ha.stream_eq
    · rw [he] at h
      cases h
  · rw [if_neg hd] at hread
    rw [sendInLoop, if_neg hd] at h
    rw [← hread]
    rcases bufferRest_spec e.mem (data + e.nwrote) hv hlen with ⟨c₁, hc₁, ha⟩ | ⟨he, -⟩
    · obtain rfl : c₁ = c' := Except.ok.inj (hc₁.symm.trans h)
      exact ha.stream_eq
    · rw [he] at h
      cases h

/-- **A send that reads its payload** adds it to the stream. -/
theorem Flowing.sendInLoop {c c' : TcpConnection C T} {e : Answers} {data : Int} {len : Nat}
    {call : SendCall} (h : Flowing c) (hlen : len ≤ maxSize) (hb : e.write.Bounded len)
    (hr : c.Succeeds e len) (hread : c.Reads e data len call.payload)
    (hok : (c.note (.sendInLoop call)).sendInLoop e.mem data len e.nwrote e.write = .ok c') :
    Flowing c' := by
  have hnote : Backlogged (c.note (.sendInLoop call)) := h.backlogged.of_eq rfl rfl rfl
  have hstream : c'.stream = (c.note (.sendInLoop call)).stream ++ call.payload :=
    appends_sendInLoop hnote.valid hlen hr hread hok
  obtain ⟨es, hes, hout⟩ := grows_sendInLoop hok
  have hnone : handed es = [] := handed_eq_nil fun call he => by cases hout _ he
  have hsame : (c.note (.sendInLoop call)).stream = c.stream := by
    rw [stream, stream, note, written_append]
    simp [written]
  refine ⟨hnote.sendInLoop hlen hb hok, ?_⟩
  rw [hstream, hsame, h.stream_eq, hes, note, handed_append, handed_append, hnone, List.append_nil]
  simp [handed]

/-- What a write event logs. It half-closes when it has written the last byte of a connection that
is down. -/
theorem handleWrite_log (r : WriteResult) (c : TcpConnection C T) :
    ∃ es, (c.handleWrite r).log = c.log ++ es ∧ (es = [] ∨ ∃ bytes, es = [.write bytes] ∨
      es = [.write bytes, .shutdownWrite] ∧ c.isWriting = true ∧ c.state = .kDisconnected ∧
        (c.outputBuffer.retrieve r.ret.toNat).readableBytes = 0 ∧
        (c.handleWrite r).outputBuffer = c.outputBuffer.retrieve r.ret.toNat) := by
  have hfinished : ∀ c₁ : TcpConnection C T, c₁.writeFinished.log = c₁.log ∨
      c₁.writeFinished.log = c₁.log ++ [ConnEvent.shutdownWrite] ∧ c₁.state = .kDisconnected := by
    intro c₁
    unfold writeFinished shutdownInLoop
    dsimp only
    split
    · rename_i hst
      dsimp only
      split
      · exact .inl rfl
      · exact .inr ⟨rfl, hst⟩
    · exact .inl rfl
  unfold handleWrite
  split
  · rename_i hw
    dsimp only
    split
    · split
      · rename_i hempty
        rcases hfinished (setOutput (c.outputBuffer.retrieve r.ret.toNat) (c.note (.write
          ((c.outputBuffer.peek c.outputBuffer.readableBytes).take r.ret.toNat)))) with
          hlog | ⟨hlog, hst⟩
        · exact ⟨_, hlog, .inr ⟨_, .inl rfl⟩⟩
        · exact ⟨_, hlog.trans (List.append_assoc _ _ _), .inr ⟨_, .inr ⟨rfl, hw, hst, hempty,
            (writeFinished_output _).1⟩⟩⟩
      · exact ⟨_, rfl, .inr ⟨_, .inl rfl⟩⟩
    · exact ⟨_, rfl, .inr ⟨_, .inl rfl⟩⟩
  · exact ⟨[], (List.append_nil _).symm, .inl rfl⟩

/-- **A write event keeps the stream.** -/
theorem Flowing.handleWrite {c : TcpConnection C T} (h : Flowing c) (r : WriteResult) :
    Flowing (c.handleWrite r) := by
  obtain ⟨es, hlog, hes⟩ := handleWrite_log r c
  have hnone : handed es = [] := by
    rcases hes with rfl | ⟨bytes, rfl | ⟨rfl, -⟩⟩ <;> rfl
  refine ⟨h.backlogged.handleWrite r, ?_⟩
  rw [(handleWrite_spec h.backlogged.valid).stream_eq, hlog, handed_append, hnone, h.stream_eq]

/-- The write event that half-closes the socket has written everything. -/
theorem Flowing.written_handleWrite {c : TcpConnection C T} {r : WriteResult} {bytes : List UInt8}
    (h : Flowing c)
    (hlog : (c.handleWrite r).log = c.log ++ [ConnEvent.write bytes, .shutdownWrite])
    (hout : (c.handleWrite r).outputBuffer = c.outputBuffer.retrieve r.ret.toNat)
    (hempty : (c.outputBuffer.retrieve r.ret.toNat).readableBytes = 0) :
    written (c.log ++ [ConnEvent.write bytes]) = handed (c.log ++ [ConnEvent.write bytes]) := by
  have hnext := h.handleWrite r
  have hnil : (c.handleWrite r).outputBuffer.readable = [] := by
    rw [← List.length_eq_zero_iff, hnext.backlogged.valid.length_readable, hout, hempty]
  have heq := hnext.stream_eq
  rw [stream, hnil, List.append_nil, hlog] at heq
  have hsplit : c.log ++ [ConnEvent.write bytes, .shutdownWrite] =
      (c.log ++ [ConnEvent.write bytes]) ++ [ConnEvent.shutdownWrite] := by simp
  rw [hsplit, written_append, handed_append (_ ++ _)] at heq
  simpa [written, handed] using heq

/-- The `write` that empties the buffer has taken all of it. -/
theorem ret_eq_of_retrieve {b : Buffer} {r : WriteResult} (hv : b.Valid)
    (hr : r.Bounded b.readableBytes) (hempty : (b.retrieve r.ret.toNat).readableBytes = 0)
    (hpos : 0 < b.readableBytes) : r.ret = b.readableBytes := by
  obtain ⟨hv', hread, -⟩ := Buffer.retrieve_spec r.ret.toNat hv
  have hlen := congrArg List.length hread
  rw [hv'.length_readable, hempty, List.length_drop, hv.length_readable] at hlen
  obtain ⟨hlow, hhigh⟩ := hr
  omega

end TcpConnection

namespace ConnSystem

variable {C T : Type*}

/-! ## The invariants -/

/-- What holds of the output of a connection: the half-close has been in order, and what is to be
in front of it is accounted for. -/
structure Sequenced (s : ConnSystem C T) : Prop where
  order : Guarded HalfCloseOrder s.conn.log
  down : .shutdownWrite ∈ s.conn.log → s.conn.state = .kDisconnected
  tracked : ∀ call, .send call ∈ s.conn.log →
    .sendInLoop call ∈ s.conn.log ∨ ∃ data len, s.Outstanding data len call
  short : ∀ data len call, s.Outstanding data len call → len ≤ maxSize
  flowing : Unclosed s.conn.log → TcpConnection.Flowing s.conn

/-- What a step adds to the log, and what it does to the stream. -/
structure Continues (s s' : ConnSystem C T) (es : List ConnEvent) : Prop where
  log : s'.conn.log = s.conn.log ++ es
  order : Guarded HalfCloseOrder s.conn.log → Guarded HalfCloseOrder (s.conn.log ++ es)
  sends : ∀ call, .send call ∈ es →
    .sendInLoop call ∈ es ∨ ∃ data len, s'.Outstanding data len call
  state : s'.conn.state = s.conn.state ∨ s'.conn.state = .kDisconnected
  down : .shutdownWrite ∈ es → s'.conn.state = .kDisconnected
  flowing : Unclosed s'.conn.log → TcpConnection.Flowing s.conn → TcpConnection.Flowing s'.conn

/-- Without a half-close there is little to order. -/
theorem order_of_not_mem {log es : List ConnEvent} (hes : .shutdownWrite ∉ es)
    (hlog : ∀ call, .send call ∈ es → .shutdownWrite ∉ log) (h : Guarded HalfCloseOrder log) :
    Guarded HalfCloseOrder (log ++ es) := by
  refine h.append fun pre x post he => ?_
  have hx : x ∈ es := by rw [he]; simp
  cases x with
  | shutdownWrite => exact absurd hx hes
  | send call =>
    intro hmem
    rcases List.mem_append.1 hmem with hmem | hmem
    · exact hlog call hx hmem
    · exact hes (by rw [he]; exact List.mem_append_left _ hmem)
  | _ => trivial

/-- A step that is not of the output. -/
theorem Continues.of_mute {s s' : ConnSystem C T} {es : List ConnEvent}
    (hlog : s'.conn.log = s.conn.log ++ es) (hes : ∀ e ∈ es, e.isTraffic = false)
    (hstate : s'.conn.state = s.conn.state ∨ s'.conn.state = .kDisconnected)
    (hout : s'.conn.outputBuffer = s.conn.outputBuffer)
    (hback : Unclosed s'.conn.log → s.conn.Backlogged → s'.conn.Backlogged) :
    Continues s s' es where
  log := hlog
  order := order_of_not_mem (fun hmem => by cases hes _ hmem) fun call hmem => by cases hes _ hmem
  sends call hmem := by cases hes _ hmem
  state := hstate
  down hmem := by cases hes _ hmem
  flowing hopen hf := hf.of_log (hback hopen hf.backlogged) hout hlog
    (written_eq_nil fun bytes he => by cases hes _ he)
    (handed_eq_nil fun call he => by cases hes _ he)

/-- A step that logs nothing. -/
theorem continues_of_same {s s' : ConnSystem C T} (hlog : s'.conn.log = s.conn.log)
    (hstate : s'.conn.state = s.conn.state ∨ s'.conn.state = .kDisconnected)
    (hout : s'.conn.outputBuffer = s.conn.outputBuffer)
    (hback : s.conn.Backlogged → s'.conn.Backlogged) : ∃ es, Continues s s' es :=
  ⟨[], .of_mute (by rw [hlog, List.append_nil]) (by simp) hstate hout fun _ => hback⟩

/-- Behind a half-close that is queued there is no send. -/
structure Fenced (s : ConnSystem C T) : Prop where
  behind : s.uses.Pairwise fun f g => f = .shutdownInLoop → g.isSend = false
  quiet : .shutdownInLoop ∈ s.uses →
    s.conn.state = .kDisconnected ∧ ∀ t, (s.user t).isSending = false
  stored : ∀ t, s.user t = .stored → s.conn.state = .kDisconnected

theorem not_outstanding {s : ConnSystem C T} (h : s.NoSend) (data : Int) (len : Nat)
    (call : SendCall) : ¬ s.Outstanding data len call := by
  rintro (⟨t, hu⟩ | hmem)
  · have := h.1 t
    rw [hu] at this
    cases this
  · cases h.2 _ hmem

/-- When no send is under way, every send has begun. -/
theorem Sequenced.begun {s : ConnSystem C T} (hs : Sequenced s) (h : s.NoSend) (call : SendCall)
    (hmem : .send call ∈ s.conn.log) : .sendInLoop call ∈ s.conn.log := by
  rcases hs.tracked call hmem with hbegun | ⟨data, len, ho⟩
  · exact hbegun
  · exact absurd ho (not_outstanding h data len call)

/-- No send is under way when the loop comes to a half-close. -/
theorem Fenced.noSend {s : ConnSystem C T} {rest : List LoopFunctor} (hf : Fenced s)
    (h : s.conn.sys.loop.functors = .shutdownInLoop :: rest) : s.NoSend := by
  have huses : s.uses = .shutdownInLoop ::
      (rest ++ s.conn.sys.loop.pendingFunctors).filter LoopFunctor.isUse := by
    rw [uses, TcpConnection.queue, h]
    rfl
  have hbehind := hf.behind
  rw [huses, List.pairwise_cons] at hbehind
  refine ⟨(hf.quiet (by rw [huses]; simp)).2, fun f hmem => ?_⟩
  rw [huses] at hmem
  rcases List.mem_cons.1 hmem with rfl | hmem
  · rfl
  · exact hbehind.1 f hmem rfl

theorem sequenced_newborn {s : ConnSystem C T} (h : Newborn s) : Sequenced s := by
  have hnone : ∀ e : ConnEvent, e ≠ .destroyRequest → e ≠ .connectionCallback true →
      e ∉ s.conn.log := by
    intro e hne hne' hmem
    rcases h.log e hmem with he | he
    · exact hne he
    · exact hne' he
  have hout : ∀ data len call, ¬ s.Outstanding data len call := by
    rintro data len call (⟨t, hu⟩ | hmem)
    · rw [h.unused.1 t] at hu
      cases hu
    · obtain ⟨hmem, huse⟩ := List.mem_filter.1 hmem
      rw [h.unused.2 _ hmem] at huse
      cases huse
  refine ⟨guarded_of_forall fun e he pre => ?_, fun hmem => ?_, fun call hmem => ?_,
    fun data len call ho => absurd ho (hout data len call),
    fun _ => ⟨⟨h.life.registered, ?_, ?_⟩, ?_⟩⟩
  · rcases h.log e he with rfl | rfl <;> trivial
  · exact absurd hmem (hnone _ (by simp) (by simp))
  · exact absurd hmem (hnone _ (by simp) (by simp))
  · rw [h.output]
    exact TcpConnection.valid_initial
  · rw [h.output, h.quiet]
    decide
  · have hw : TcpConnection.written s.conn.log = [] :=
      written_eq_nil fun bytes => hnone _ (by simp) (by simp)
    have hh : handed s.conn.log = [] := handed_eq_nil fun call => hnone _ (by simp) (by simp)
    rw [TcpConnection.stream, hw, hh, h.output]
    rfl

theorem fenced_newborn {s : ConnSystem C T} (h : Newborn s) : Fenced s := by
  have huses : s.uses = [] :=
    List.filter_eq_nil_iff.2 fun f hf => by rw [h.unused.2 f hf]; simp
  refine ⟨by rw [huses]; exact .nil, fun hmem => ?_, fun t hu => ?_⟩
  · rw [huses] at hmem
    cases hmem
  · rw [h.unused.1 t] at hu
    cases hu

/-! ## The steps of the loop thread -/

/-- A half-close, when no send is under way and nothing is being written. -/
theorem Sequenced.order_shutdownWrite {s : ConnSystem C T} (hs : Sequenced s) (hn : s.NoSend)
    (hw : s.conn.isWriting = false) (h : Guarded HalfCloseOrder s.conn.log) :
    Guarded HalfCloseOrder (s.conn.log ++ [ConnEvent.shutdownWrite]) :=
  h.concat fun hopen => ⟨hs.begun hn, (hs.flowing hopen).written_eq hw⟩

/-- A functor is taken out of the batch. -/
theorem flowing_took {s : ConnSystem C T} {f : LoopFunctor} {rest : List LoopFunctor}
    (hf : TcpConnection.Flowing s.conn) : TcpConnection.Flowing (s.took f rest) :=
  hf.of_log (hf.backlogged.of_eq rfl rfl rfl) rfl (List.append_nil _).symm rfl rfl

/-- What a send logs. -/
theorem isOutput_ne {es : List ConnEvent} (h : ∀ e ∈ es, e.isOutput = true) :
    .shutdownWrite ∉ es ∧ ∀ call, .send call ∉ es :=
  ⟨fun hmem => (by cases h _ hmem), fun call hmem => by cases h _ hmem⟩

/-- A half-close that was queued. -/
theorem Sequenced.continues_shutdownInLoop {s : ConnSystem C T} {rest : List LoopFunctor}
    (hs : Sequenced s)
    (hfence : Fenced s) (hf : s.conn.sys.loop.functors = .shutdownInLoop :: rest) :
    ∃ es, Continues s { s with conn := (s.took .shutdownInLoop rest).shutdownInLoop } es := by
  have huse : .shutdownInLoop ∈ s.uses := List.mem_filter.2 ⟨mem_queue hf, rfl⟩
  obtain ⟨es, hlog, hes⟩ := TcpConnection.shutdownInLoop_log (s.took .shutdownInLoop rest)
  refine ⟨es, hlog, ?_, ?_, .inl rfl, fun _ => (hfence.quiet huse).1,
    fun _ hflow => (flowing_took hflow).shutdownInLoop⟩
  · rcases hes with rfl | ⟨rfl, hw⟩
    · exact order_of_not_mem (by simp) (by simp)
    · exact hs.order_shutdownWrite (hfence.noSend hf) hw
  · rcases hes with rfl | ⟨rfl, -⟩ <;> simp

/-- A half-close on the loop thread. -/
theorem Sequenced.continues_shutdown {s : ConnSystem C T} (hs : Sequenced s)
    (hok : s.conn.state = .kConnected ∧ s.conn.isWriting = false → s.NoSend) :
    ∃ es, Continues s { s with conn := s.conn.shutdown } es := by
  by_cases hst : s.conn.state = .kConnected
  · have hdown : s.conn.shutdown = (s.conn.setState .kDisconnected).shutdownInLoop := by
      rw [TcpConnection.shutdown, if_pos hst]
    obtain ⟨es, hlog, hes⟩ := TcpConnection.shutdownInLoop_log (s.conn.setState .kDisconnected)
    rw [hdown]
    refine ⟨es, hlog, ?_, ?_, .inr rfl, fun _ => rfl, fun _ hflow => ?_⟩
    · rcases hes with rfl | ⟨rfl, hw⟩
      · exact order_of_not_mem (by simp) (by simp)
      · exact hs.order_shutdownWrite (hok ⟨hst, hw⟩) hw
    · rcases hes with rfl | ⟨rfl, -⟩ <;> simp
    · have hset : TcpConnection.Flowing (s.conn.setState .kDisconnected) :=
        hflow.of_log (hflow.backlogged.of_eq rfl rfl rfl) rfl (List.append_nil _).symm rfl rfl
      exact hset.shutdownInLoop
  · have hsame : s.conn.shutdown = s.conn := by rw [TcpConnection.shutdown, if_neg hst]
    rw [hsame]
    exact continues_of_same rfl (.inl rfl) rfl id

/-- A thread queues a functor, beside changes to the server and the threads. -/
theorem continues_pushed [DecidableEq T] {s : ConnSystem C T} {t : T} {f : LoopFunctor}
    {es : List ConnEvent} (s₁ : ConnSystem C T) (hlog : s₁.conn.log = s.conn.log ++ es)
    (hes : ∀ e ∈ es, e.isTraffic = false) (hst : s₁.conn.state = s.conn.state)
    (hout : s₁.conn.outputBuffer = s.conn.outputBuffer) (hsys : s₁.conn.sys = s.conn.sys)
    (hc : s₁.conn.channel = s.conn.channel) :
    ∃ es, Continues s (s₁.pushed t f) es :=
  ⟨es, .of_mute hlog hes (.inl hst) hout fun _ hb => hb.of_eq
    (show s₁.conn.sys.loop.poller = _ by rw [hsys]; rfl) hc hout⟩

section Loop

variable [DecidableEq C] {s : ConnSystem C T}

/-- **A write event** half-closes only when no send is under way. -/
theorem Sequenced.continues_handleWrite {e : Answers} {rest : List Handler} (hs : Sequenced s)
    (hok : s.Orderly (.handle e)) (hl : s.handling = .write :: rest)
    (hr : e.write.Bounded s.conn.outputBuffer.readableBytes) :
    ∃ es, Continues s { s with conn := s.conn.handleWrite e.write, handling := rest } es := by
  have hstate := TcpConnection.state_handleWrite e.write s.conn
  obtain ⟨es, hlog, hes⟩ := TcpConnection.handleWrite_log e.write s.conn
  refine ⟨es, hlog, ?_, ?_, .inl hstate, ?_, fun _ hf => hf.handleWrite e.write⟩
  · rcases hes with rfl | ⟨bytes, rfl | ⟨rfl, hw, hst, hempty, hout⟩⟩
    · exact order_of_not_mem (by simp) (by simp)
    · exact order_of_not_mem (by simp) (by simp)
    · intro hg
      have hsplit : s.conn.log ++ [ConnEvent.write bytes, .shutdownWrite] =
          (s.conn.log ++ [ConnEvent.write bytes]) ++ [ConnEvent.shutdownWrite] := by simp
      have hwrite : Guarded HalfCloseOrder (s.conn.log ++ [ConnEvent.write bytes]) :=
        hg.concat trivial
      rw [hsplit]
      refine hwrite.concat fun hopen => ?_
      have hf := hs.flowing hopen.of_append
      have hret := TcpConnection.ret_eq_of_retrieve hf.backlogged.valid hr hempty
        (hf.backlogged.waits.2 hw)
      have hn : s.NoSend := hok ⟨by rw [hl]; rfl, hw, hst, hret⟩
      refine ⟨fun call hmem => ?_, hf.written_handleWrite hlog hout hempty⟩
      rcases List.mem_append.1 hmem with hmem | hmem
      · exact List.mem_append_left _ (hs.begun hn call hmem)
      · cases List.mem_singleton.1 hmem
  · rcases hes with rfl | ⟨bytes, rfl | ⟨rfl, -⟩⟩ <;> simp
  · intro hmem
    rcases hes with rfl | ⟨bytes, rfl | ⟨rfl, -, hst, -⟩⟩
    · simp at hmem
    · simp at hmem
    · exact hstate.trans hst

/-- The close handler, or a read that finds the end of the stream. -/
theorem continues_handleClose (rest : List Handler) (b : Buffer) :
    ∃ es, Continues s { s with
      conn := { s.conn with inputBuffer := b }.handleClose, handling := rest } es := by
  refine ⟨[ConnEvent.handleClose, .connectionCallback false, .closeCallback] ++
    if s.conn.server.alive = true ∧ s.conn.server.sameLoop = true then [.destroyRequest] else [],
    .of_mute ?_ ?_ (.inr ?_) ?_ fun hopen => absurd ?_ hopen.1⟩
  · simp only [TcpConnection.handleClose_eq, List.append_assoc]
  · split <;> simp [ConnEvent.isTraffic]
  · simp only [TcpConnection.handleClose_eq]
  · simp only [TcpConnection.handleClose_eq]
  · simp [TcpConnection.handleClose_eq]

theorem continues_connectDestroyed (c : TcpConnection C T) (hst : c.state = s.conn.state)
    (hout : c.outputBuffer = s.conn.outputBuffer) {es : List ConnEvent}
    (hlog : c.log = s.conn.log ++ es) (hes : ∀ e ∈ es, e.isTraffic = false) :
    ∃ es, Continues s { s with conn := c.connectDestroyed } es := by
  refine ⟨es ++ ConnEvent.connectDestroyed ::
    if c.state = .kConnected then [.connectionCallback false] else [],
    .of_mute ?_ (fun e he => ?_) ?_ ?_ fun hopen => absurd ?_ hopen.2⟩
  · simp only [TcpConnection.connectDestroyed_eq, hlog, List.append_assoc]
  · rcases List.mem_append.1 he with he | he
    · exact hes e he
    · split at he
      · rcases List.mem_cons.1 he with rfl | he
        · rfl
        · obtain rfl := List.mem_singleton.1 he
          rfl
      · obtain rfl := List.mem_singleton.1 he
        rfl
  · simp only [TcpConnection.connectDestroyed_eq]
    split
    · exact .inr rfl
    · exact .inl hst
  · simpa only [TcpConnection.connectDestroyed_eq] using hout
  · simp [TcpConnection.connectDestroyed_eq]

theorem Sequenced.continues_handle {e : Answers} {h : Handler} {rest : List Handler}
    {conn : TcpConnection C T} (hs : Sequenced s) (hok : s.Orderly (.handle e))
    (hl : s.handling = h :: rest) (hrun : s.conn.runHandler e h = some conn) :
    ∃ es, Continues s { s with conn, handling := rest } es := by
  cases h with
  | error =>
    obtain rfl := Option.some.inj hrun
    exact continues_of_same rfl (.inl rfl) rfl id
  | read =>
    obtain ⟨b, hread⟩ := handleRead_inv (toOption_eq_some.1 hrun)
    rcases hread with rfl | ⟨-, rfl⟩ | rfl
    · exact ⟨[.messageCallback], .of_mute rfl (by simp [ConnEvent.isTraffic]) (.inl rfl) rfl
        fun _ hb => hb.of_eq rfl rfl rfl⟩
    · exact continues_handleClose rest b
    · exact continues_of_same rfl (.inl rfl) rfl fun hb => hb.of_eq rfl rfl rfl
  | write =>
    simp only [TcpConnection.runHandler, Option.ite_none_right_eq_some, Option.some.injEq] at hrun
    obtain ⟨hr, rfl⟩ := hrun
    exact hs.continues_handleWrite hok hl hr
  | close =>
    obtain rfl := Option.some.inj hrun
    exact continues_handleClose rest s.conn.inputBuffer

/-- A send that was queued. -/
theorem Sequenced.continues_sendInLoop {e : Answers} {data : Int} {len : Nat} {call : SendCall}
    {rest : List LoopFunctor} {conn : TcpConnection C T} (hs : Sequenced s)
    (hk : s.WritesSucceed (.runFunctor e)) (hok : s.Orderly (.runFunctor e))
    (hf : s.conn.sys.loop.functors = .sendInLoop data len call :: rest)
    (hr : e.write.Bounded len)
    (hsend : ((s.took (.sendInLoop data len call) rest).note (.sendInLoop call)).sendInLoop e.mem
      data len e.nwrote e.write = .ok conn) : ∃ es, Continues s { s with conn } es := by
  have hhead : .sendInLoop data len call ∈ s.conn.sys.loop.functors.head? := by rw [hf]; rfl
  have hsucc : (s.took (.sendInLoop data len call) rest).Succeeds e len := hk _ hhead
  have hread : (s.took (.sendInLoop data len call) rest).Reads e data len call.payload :=
    hok _ hhead
  have huse : .sendInLoop data len call ∈ s.uses := List.mem_filter.2 ⟨mem_queue hf, rfl⟩
  have hlen := hs.short data len call (.inr huse)
  obtain ⟨es, hes, hout⟩ := TcpConnection.grows_sendInLoop hsend
  obtain ⟨hdown, hnone⟩ := isOutput_ne hout
  have hnone' : ∀ c, .send c ∉ ConnEvent.sendInLoop call :: es := by simpa using hnone
  refine ⟨.sendInLoop call :: es, hes.trans (List.append_assoc _ _ _), ?_,
    fun c h => absurd h (hnone' c), .inl (TcpConnection.sends_sendInLoop hsend).state, ?_, ?_⟩
  · exact order_of_not_mem (by simpa using hdown) fun c h => absurd h (hnone' c)
  · simp [hdown]
  · exact fun _ hflow => (flowing_took hflow).sendInLoop hlen hr hsucc hread hsend

/-- **A functor** of the connection. -/
theorem Sequenced.continues_runFunctor {e : Answers} {f : LoopFunctor} {rest : List LoopFunctor}
    {conn : TcpConnection C T} (hs : Sequenced s) (hfence : Fenced s) (hb : Born s)
    (hk : s.WritesSucceed (.runFunctor e)) (hok : s.Orderly (.runFunctor e))
    (hf : s.conn.sys.loop.functors = f :: rest)
    (hrun : (s.took f rest).callFunctor e f = some conn) :
    ∃ es, Continues s { s with conn } es := by
  cases f with
  | sendInLoop data len call =>
    simp only [TcpConnection.callFunctor, Option.ite_none_right_eq_some, toOption_eq_some] at hrun
    exact hs.continues_sendInLoop hk hok hf hrun.1 hrun.2
  | shutdownInLoop =>
    obtain rfl := Option.some.inj hrun
    exact hs.continues_shutdownInLoop hfence hf
  | connectEstablished => exact absurd (mem_queue hf) hb.begun
  | connectDestroyed =>
    obtain rfl := Option.some.inj hrun
    exact continues_connectDestroyed _ rfl rfl (List.append_nil _).symm (by simp)
  | writeComplete | highWaterMark | other =>
    obtain rfl := Option.some.inj hrun
    exact continues_of_same rfl (.inl rfl) rfl fun hb => hb.of_eq rfl rfl rfl

/-- A send on the loop thread. -/
theorem Sequenced.continues_send {e : Answers} {data : Int} {payload : List UInt8}
    {conn : TcpConnection C T} {calls : Nat} (hs : Sequenced s)
    (hk : s.WritesSucceed (.sendOwn data payload e)) (hok : s.Orderly (.sendOwn data payload e))
    (hlen : payload.length ≤ maxSize) (hr : e.write.Bounded payload.length)
    (hsend : s.conn.send e.mem data ⟨s.calls, payload⟩ e.nwrote e.write = .ok conn) :
    ∃ es, Continues s { s with conn, calls } es := by
  by_cases hst : s.conn.state = .kConnected
  · rw [TcpConnection.send, if_pos hst] at hsend
    have hsucc : (s.conn.note (.send ⟨s.calls, payload⟩)).Succeeds e payload.length := hk hst
    have hread : (s.conn.note (.send ⟨s.calls, payload⟩)).Reads e data payload.length payload :=
      hok hst
    obtain ⟨es, hes, hout⟩ := TcpConnection.grows_sendInLoop hsend
    obtain ⟨hdown, hnone⟩ := isOutput_ne hout
    have hlog : conn.log = s.conn.log ++
        ConnEvent.send ⟨s.calls, payload⟩ :: .sendInLoop ⟨s.calls, payload⟩ :: es := by
      rw [hes]
      simp [TcpConnection.note]
    have hup : .shutdownWrite ∉ s.conn.log := fun hmem =>
      absurd ((hs.down hmem).symm.trans hst) (by simp)
    refine ⟨_, hlog, order_of_not_mem (by simpa using hdown) fun _ _ => hup, fun c h => ?_,
      .inl (TcpConnection.sends_sendInLoop hsend).state, fun h => ?_, fun _ hflow => ?_⟩
    · refine .inl ?_
      have hc : c = ⟨s.calls, payload⟩ := by simpa [hnone c] using h
      simp [hc]
    · simp [hdown] at h
    · have hsent : TcpConnection.Flowing (s.conn.note (.send ⟨s.calls, payload⟩)) :=
        hflow.of_log (hflow.backlogged.of_eq rfl rfl rfl) rfl rfl rfl rfl
      exact hsent.sendInLoop hlen hr hsucc hread hsend
  · rw [TcpConnection.send, if_neg hst] at hsend
    obtain rfl := Except.ok.inj hsend
    exact continues_of_same rfl (.inl rfl) rfl id

end Loop

/-! ## Every step -/

section Steps

variable [DecidableEq C] [DecidableEq T] {s s' : ConnSystem C T}

/-- A step that continues the output keeps its order. -/
theorem Sequenced.of_continues {a : ConnAction C T} {es : List ConnEvent} (hs : Sequenced s)
    (hb : Born s) (h : s.step a = some s') (hc : Continues s s' es) : Sequenced s' := by
  refine ⟨?_, fun hmem => ?_, fun call hmem => ?_, fun data len call ho => ?_, fun hopen => ?_⟩
  · rw [hc.log]
    exact hc.order hs.order
  · rw [hc.log] at hmem
    rcases List.mem_append.1 hmem with hmem | hmem
    · rcases hc.state with hst | hst
      · exact hst.trans (hs.down hmem)
      · exact hst
    · exact hc.down hmem
  · rw [hc.log] at hmem ⊢
    rcases List.mem_append.1 hmem with hmem | hmem
    · rcases hs.tracked call hmem with hbegun | ⟨data, len, ho⟩
      · exact .inl (List.mem_append_left es hbegun)
      · rcases outstanding_step hb.scheduled.batch h ho with ho | hbegun
        · exact .inr ⟨data, len, ho⟩
        · rw [hc.log] at hbegun
          exact .inl hbegun
    · exact (hc.sends call hmem).imp (List.mem_append_right _) id
  · rcases outstanding_inv hb.scheduled.batch h ho with ho | ⟨t, payload, rfl, rfl, -⟩
    · exact hs.short data len call ho
    · obtain ⟨-, hlen, -⟩ := step_inv h
      exact hlen
  · refine hc.flowing hopen (hs.flowing ?_)
    rw [hc.log] at hopen
    exact hopen.of_append

theorem backlogged_loop {a : LoopAction LoopFunctor C T} {sys : LoopSystem LoopFunctor C T}
    (hp : s.passes a = true) (h : s.conn.sys.step a = some sys) (hb : s.conn.Backlogged) :
    (s.conn.setSys sys).Backlogged := by
  obtain ⟨-, revents, hr, -⟩ := LoopSystem.step_channel hb.registered.sound (passes_channelOp hp) h
  have hw : (s.conn.setSys sys).isWriting = s.conn.isWriting := by
    show (sys.loop.poller.channel s.conn.channel).isWriting = _
    rw [hr]
    rfl
  exact ⟨hb.registered.loop hp h, hb.valid, by rw [hw]; exact hb.waits⟩

/-- **Every step continues the output in order.** -/
theorem Sequenced.continues {a : ConnAction C T} (hs : Sequenced s) (hfence : Fenced s)
    (hb : Born s) (hk : s.WritesSucceed a) (hok : s.Orderly a) (h : s.step a = some s') :
    ∃ es, Continues s s' es := by
  have hinv := step_inv h
  cases a with
  | loop a =>
    obtain ⟨hp, sys, hsys, rfl⟩ := hinv
    exact continues_of_same rfl (.inl rfl) rfl fun hb => backlogged_loop hp hsys hb
  | handle e =>
    obtain ⟨-, -, k, rest, conn, hl, hrun, rfl⟩ := hinv
    exact hs.continues_handle hok hl hrun
  | runFunctor e =>
    obtain ⟨-, -, f, rest, conn, hf, hrun, rfl⟩ := hinv
    exact hs.continues_runFunctor hfence hb hk hok hf hrun
  | newConnection | newConnectionOwn => exact absurd (hb.created.symm.trans hinv.1) (by simp)
  | sendTest t data payload =>
    obtain ⟨hst, -, -, rfl⟩ := hinv
    have hup : .shutdownWrite ∉ s.conn.log := fun hmem =>
      absurd ((hs.down hmem).symm.trans hst) (by simp)
    refine ⟨[.send ⟨s.calls, payload⟩], rfl, order_of_not_mem (by simp) fun _ _ => hup,
      fun c hc => ?_, .inl rfl, by simp, fun _ hflow => ?_⟩
    · obtain rfl : c = ⟨s.calls, payload⟩ := by simpa using hc
      exact .inr ⟨data, payload.length, .inl ⟨t, user_setUser_self t _ _⟩⟩
    · exact hflow.of_log (hflow.backlogged.of_eq rfl rfl rfl) rfl rfl rfl rfl
  | sendPush t =>
    obtain ⟨data, len, call, -, rfl⟩ := hinv
    exact continues_pushed (s.setUser t .idle) (List.append_nil _).symm (by simp) rfl rfl rfl rfl
  | shutdownTest t =>
    obtain ⟨-, -, rfl⟩ := hinv
    exact continues_of_same rfl (.inl rfl) rfl id
  | shutdownSet t =>
    obtain ⟨-, rfl⟩ := hinv
    exact continues_of_same rfl (.inr rfl) rfl fun hb => hb.of_eq rfl rfl rfl
  | shutdownPush t =>
    obtain ⟨-, rfl⟩ := hinv
    exact continues_pushed (s.setUser t .idle) (List.append_nil _).symm (by simp) rfl rfl rfl rfl
  | sendOwn data payload e =>
    obtain ⟨-, hlen, -, hr, conn, hsend, rfl⟩ := hinv
    exact hs.continues_send hk hok hlen hr hsend
  | shutdownOwn =>
    obtain ⟨-, rfl⟩ := hinv
    exact hs.continues_shutdown hok
  | removeConnectionInPool t =>
    obtain ⟨-, -, -, rfl⟩ := hinv
    exact continues_pushed { s with conn := s.erased } rfl (by simp [ConnEvent.isTraffic]) rfl rfl
      rfl rfl
  | destroyServer t =>
    obtain ⟨-, ⟨-, rfl⟩ | ⟨-, rfl⟩⟩ := hinv
    · exact continues_pushed { s with conn := s.orphaned.note .destroyRequest } rfl
        (by simp [ConnEvent.isTraffic]) rfl rfl rfl rfl
    · exact continues_of_same rfl (.inl rfl) rfl fun hb => hb.of_eq rfl rfl rfl
  | destroyServerOwn =>
    obtain ⟨-, -, -, ⟨-, rfl⟩ | ⟨-, rfl⟩⟩ := hinv
    · have hlog : (s.orphaned.note .destroyRequest).log =
          s.conn.log ++ [ConnEvent.destroyRequest] := rfl
      exact continues_connectDestroyed (s.orphaned.note .destroyRequest) rfl rfl hlog
        (by simp [ConnEvent.isTraffic])
    · exact continues_of_same rfl (.inl rfl) rfl fun hb => hb.of_eq rfl rfl rfl

/-- A thread that comes to stand in `send` has seen `kConnected`. -/
theorem notSending_step {a : ConnAction C T} (h : s.step a = some s')
    (hst : s.conn.state = .kDisconnected) (hno : ∀ t, (s.user t).isSending = false) (t : T) :
    (s'.user t).isSending = false := by
  cases hu : s'.user t with
  | sending data len call =>
    rcases sending_inv h hu with hu | ⟨payload, rfl, -, -⟩
    · have := hno t
      rw [hu] at this
      cases this
    · obtain ⟨hcon, -⟩ := step_inv h
      exact absurd (hst.symm.trans hcon) (by simp)
  | idle | sawConnected | stored => rfl

/-- **Every orderly step keeps the sends in front of the half-close.** -/
theorem Fenced.step {a : ConnAction C T} (hf : Fenced s) (hb : Born s) (hok : s.Orderly a)
    (h : s.step a = some s')
    (hstate : s'.conn.state = s.conn.state ∨ s'.conn.state = .kDisconnected) : Fenced s' := by
  have huses := step_uses hb.scheduled.batch h
  have hstays : s.conn.state = .kDisconnected → s'.conn.state = .kDisconnected := by
    intro hst
    rcases hstate with hst' | hst'
    · exact hst'.trans hst
    · exact hst'
  refine ⟨?_, fun hmem => ?_, fun t hu => ?_⟩
  · have hall : (s.uses ++ s.pushedUse a).Pairwise fun f g =>
        f = .shutdownInLoop → g.isSend = false := by
      refine List.pairwise_append.2 ⟨hf.behind, ?_, fun f hmem g hg he => ?_⟩
      · cases a with
        | sendPush t =>
          rw [pushedUse]
          split
          · exact List.pairwise_singleton _ _
          · exact .nil
        | shutdownPush t => exact List.pairwise_singleton _ _
        | _ => exact .nil
      · -- A thread that queues its send stands in `send`, and none does.
        cases g with
        | sendInLoop data len call =>
          obtain ⟨t, -, hu⟩ := mem_pushedUse hg
          have := (hf.quiet (he ▸ hmem)).2 t
          rw [hu] at this
          cases this
        | _ => rfl
    rw [← huses] at hall
    exact (List.pairwise_append.1 hall).2.1
  · rcases mem_uses_of_step hb.scheduled.batch h hmem with hmem | hmem
    · obtain ⟨hst, hno⟩ := hf.quiet hmem
      exact ⟨hstays hst, notSending_step h hst hno⟩
    · cases a with
      | shutdownPush t =>
        have hst := hf.stored t (step_inv h).1
        exact ⟨hstays hst, notSending_step h hst hok⟩
      | sendPush t =>
        rw [pushedUse] at hmem
        split at hmem
        · cases List.mem_singleton.1 hmem
        · cases hmem
      | _ => cases hmem
  · rw [step_user h] at hu
    cases a with
    | shutdownSet t' =>
      obtain ⟨-, rfl⟩ := step_inv h
      rfl
    | sendTest t' data payload | sendPush t' | shutdownTest t' | shutdownPush t' =>
      rw [nextUser, Function.update_apply] at hu
      split at hu
      · cases hu
      · exact hstays (hf.stored t hu)
    | _ => exact hstays (hf.stored t hu)

/-- **The half-close comes last.** In every run in which no `write` of a send fails and every step
is orderly, whenever the socket is half-closed, and the connection has not been closed before, every
send that saw `kConnected` has begun on the loop thread, and the kernel has accepted the payloads of
all of them, in their order. No send sees `kConnected` afterwards. -/
theorem half_close_last (fd : C → Int) (hfd : Function.Injective fd) (wakeupChannel channel : C)
    (hne : channel ≠ wakeupChannel) (sameLoop writeComplete highWater : Bool)
    (as : List (ConnAction C T)) (s : ConnSystem C T)
    (hk : Transition.Meets step WritesSucceed
      (new (.new fd wakeupChannel) channel sameLoop writeComplete highWater) as)
    (hok : Transition.Meets step Orderly
      (new (.new fd wakeupChannel) channel sameLoop writeComplete highWater) as)
    (h : (new (.new fd wakeupChannel) channel sameLoop writeComplete highWater).run as = some s) :
    ∀ pre e, pre ++ [e] <+: s.conn.log → HalfCloseOrder pre e := by
  have hstep : ∀ (s : ConnSystem C T) a s', Born s → Sequenced s ∧ Fenced s →
      s.WritesSucceed a ∧ s.Orderly a → s.step a = some s' → Sequenced s' ∧ Fenced s' := by
    rintro s a s' hb ⟨hs, hf⟩ ⟨hk, hok⟩ h
    obtain ⟨es, hc⟩ := hs.continues hf hb hk hok h
    exact ⟨hs.of_continues hb h hc, hf.step hb hok h hc.state⟩
  rcases run_born (fun s => Sequenced s ∧ Fenced s)
    (fun s hn => ⟨sequenced_newborn hn, fenced_newborn hn⟩) hstep
    (unborn_new hfd hne sameLoop writeComplete highWater) (hk.and hok) h with hs | ⟨-, hseq, -⟩
  · have hall : ∀ e ∈ s.conn.log, ∀ pre, HalfCloseOrder pre e := by
      intro e he pre
      rw [hs.log e he]
      trivial
    exact guarded_of_forall hall
  · exact hseq.order

end Steps

/-! ## A send, and a shutdown behind it -/

/-- The loop thread sends two bytes, of which the kernel takes one. Then another thread sends a byte
and calls `shutdown`, up to the store. -/
def sendThenShutdown : List (ConnAction Bool Unit) :=
  [.newConnectionOwn, .sendOwn 0 [0, 0] (answers 1 (.failed 0)), .loop .enter,
    .sendTest () 0 [0], .sendPush (), .loop (.wakeup ()), .shutdownTest (), .shutdownSet ()]

/-- The functors come first, then the write event. -/
def functorsFirst : List (ConnAction Bool Unit) :=
  sendThenShutdown ++ [.shutdownPush (), .loop (.wakeup ()), .loop .test,
    .loop (.pollReturn [(false, EPOLLIN)]), .loop .dispatch, .loop .startFunctors,
    .loop .swapFunctors, .runFunctor (answers 1 (.failed 0)), .runFunctor (answers 0 (.failed 0)),
    .loop .endFunctors, .loop .test, .loop (.pollReturn [(true, EPOLLOUT)]), .loop .dispatch,
    .handle (answers 2 (.failed 0))]

theorem orderly_functorsFirst :
    Transition.Meets step WritesSucceed (sampleSystem true) functorsFirst ∧
      Transition.Meets step Orderly (sampleSystem true) functorsFirst := by
  decide +kernel

theorem last_functorsFirst :
    ((sampleSystem true).run functorsFirst).map (fun s => s.conn.log.count .shutdownWrite) =
      some 1 ∧
    ∀ s, (sampleSystem true).run functorsFirst = some s →
      ∀ pre e, pre ++ [e] <+: s.conn.log → HalfCloseOrder pre e :=
  ⟨by decide +kernel, fun s h => half_close_last sampleFd (by decide) false true (by decide)
    true false false functorsFirst s orderly_functorsFirst.1 orderly_functorsFirst.2 h⟩

/-- The write event comes first. -/
def writeEventFirst : List (ConnAction Bool Unit) :=
  sendThenShutdown ++ [.loop .test, .loop (.pollReturn [(true, EPOLLOUT)]), .loop .dispatch,
    .handle (answers 1 (.failed 0))]

/-- **The half-close overtakes a send.** The thread's `send` has returned, and its functor is in the
queue when the socket is half-closed. -/
theorem half_close_overtakes :
    Transition.Meets step WritesSucceed (sampleSystem true) writeEventFirst ∧
    ((sampleSystem true).run writeEventFirst).map (fun s => (s.conn.log, s.uses)) =
      some ([.connectionCallback true, .send ⟨0, [0, 0]⟩, .sendInLoop ⟨0, [0, 0]⟩, .write [0],
        .append [0], .send ⟨1, [0]⟩, .write [0], .shutdownWrite], [.sendInLoop 0 1 ⟨1, [0]⟩]) := by
  decide +kernel

end ConnSystem

end WebCore
