import WebCore.ConnSystem
import WebCore.Wakeup

/-!
# What a step leaves alone

The member functions of a connection reach its loop in two ways only: they queue functors, and they
operate on the connection's own channel. `LoopFrame fs` says that the queue has grown by `fs` and
that, but for the poller, the loop thread's part of the loop is as it was.
-/

namespace WebCore

/-! ## The loop -/

namespace LoopSystem

variable {F C T : Type*}

/-- The queue grows by `fs`; of what the loop thread works on, only the poller may differ. -/
structure Frame (fs : List F) (s s' : LoopSystem F C T) : Prop where
  pc : s'.loop.pc = s.loop.pc
  activeChannels : s'.loop.activeChannels = s.loop.activeChannels
  functors : s'.loop.functors = s.loop.functors
  pendingFunctors : s'.loop.pendingFunctors = s.loop.pendingFunctors ++ fs
  own : s'.own = s.own

theorem Frame.refl (s : LoopSystem F C T) : Frame [] s s := ⟨rfl, rfl, rfl, by simp, rfl⟩

theorem Frame.trans {fs gs : List F} {s₁ s₂ s₃ : LoopSystem F C T} (h : Frame fs s₁ s₂)
    (h' : Frame gs s₂ s₃) : Frame (fs ++ gs) s₁ s₃ where
  pc := h'.pc.trans h.pc
  activeChannels := h'.activeChannels.trans h.activeChannels
  functors := h'.functors.trans h.functors
  pendingFunctors := by rw [h'.pendingFunctors, h.pendingFunctors, List.append_assoc]
  own := h'.own.trans h.own

theorem frame_queueInLLoop (f : F) (s : LoopSystem F C T) : Frame [f] s (s.queueInLLoop f) := by
  constructor <;>
    simp [queueInLLoop, EventLoop.queueInLLoop, EventLoop.wakeupIfNeeded_eq, EventLoop.push]

@[simp] theorem poller_queueInLLoop (f : F) (s : LoopSystem F C T) :
    (s.queueInLLoop f).loop.poller = s.loop.poller := by
  simp [queueInLLoop, EventLoop.queueInLLoop, EventLoop.wakeupIfNeeded_eq, EventLoop.push]

theorem frame_applyOp [DecidableEq C] (op : ChannelOp) (c : C) (s : LoopSystem F C T) :
    Frame [] s (s.applyOp op c) :=
  ⟨rfl, rfl, rfl, by simp [applyOp, EventLoop.channelOp], rfl⟩

/-- The functor that an action queues. -/
def pushes : LoopAction F C T → List F
  | .push _ f | .pushOwn f => [f]
  | _ => []

variable [DecidableEq C] [DecidableEq T]

/-- Batch and pending functors together change at the ends only. -/
theorem step_queue {s s' : LoopSystem F C T} {a : LoopAction F C T}
    (hb : s.loop.pc ≠ .run → s.loop.functors = []) (ha : a ≠ .runFunctor)
    (h : s.step a = some s') :
    s'.loop.functors ++ s'.loop.pendingFunctors =
      s.loop.functors ++ s.loop.pendingFunctors ++ pushes a := by
  have h := step_inv h
  cases a with
  | runFunctor => exact absurd rfl ha
  | push =>
    obtain ⟨-, rfl⟩ := h
    exact (List.append_assoc _ _ _).symm
  | pushOwn =>
    obtain ⟨-, -, rfl⟩ := h
    exact (List.append_assoc _ _ _).symm
  | swapFunctors =>
    obtain ⟨hpc, -, rfl⟩ := h
    simp [pushes, EventLoop.swapFunctors, hb (by simp [hpc])]
  | dispatch =>
    obtain ⟨-, -, _, _, -, rfl⟩ := h
    exact (List.append_nil _).symm
  | pollReturn =>
    obtain ⟨-, -, -, -, rfl⟩ := h
    exact (List.append_nil _).symm
  | startFunctors | endFunctors | channelOp =>
    obtain ⟨-, -, -, rfl⟩ := h
    exact (List.append_nil _).symm
  | enter | test | quitOwn =>
    obtain ⟨-, -, rfl⟩ := h
    exact (List.append_nil _).symm
  | quit | wakeup | wakeupOwn =>
    obtain ⟨-, rfl⟩ := h
    exact (List.append_nil _).symm

/-- A channel that is not operated on keeps its registration, and between two calls of `poll` its
record. -/
theorem step_channel {s s' : LoopSystem F C T} {a : LoopAction F C T} {c : C}
    (hs : s.loop.poller.Sound) (hc : ∀ op, a ≠ .channelOp op c) (h : s.step a = some s') :
    s'.loop.poller.Sound ∧ ∃ revents, s'.loop.poller.channel c =
      { s.loop.poller.channel c with revents } ∧
      ((∀ active, a ≠ .pollReturn active) → revents = (s.loop.poller.channel c).revents) := by
  have h := step_inv h
  cases a with
  | channelOp op c' =>
    obtain ⟨-, -, -, rfl⟩ := h
    have hne : c ≠ c' := fun he => hc op (by rw [he])
    exact ⟨hs.apply op c', _, (EpollPoller.apply_frame false op c' _).channel c hne, fun _ => rfl⟩
  | pollReturn active =>
    obtain ⟨-, -, -, -, rfl⟩ := h
    have hsame := EpollPoller.fillActiveChannels_sameRegistration active s.loop.poller
    obtain ⟨revents, hr⟩ := hsame.channel c
    exact ⟨hs.sameRegistration hsame, revents, hr, fun hne => absurd rfl (hne active)⟩
  | dispatch | runFunctor =>
    obtain ⟨-, -, _, _, -, rfl⟩ := h
    exact ⟨hs, _, rfl, fun _ => rfl⟩
  | startFunctors | endFunctors =>
    obtain ⟨-, -, -, rfl⟩ := h
    exact ⟨hs, _, rfl, fun _ => rfl⟩
  | enter | test | swapFunctors | pushOwn | quitOwn =>
    obtain ⟨-, -, rfl⟩ := h
    exact ⟨hs, _, rfl, fun _ => rfl⟩
  | push | quit | wakeup | wakeupOwn =>
    obtain ⟨-, rfl⟩ := h
    exact ⟨hs, _, rfl, fun _ => rfl⟩

/-- A channel becomes active when the kernel reports it. -/
theorem step_active {s s' : LoopSystem F C T} {a : LoopAction F C T} {c : C}
    (h : s.step a = some s') (hmem : c ∈ s'.loop.activeChannels) :
    (∀ active, a ≠ .pollReturn active) ∧ c ∈ s.loop.activeChannels ∨
    ∃ active revents, a = .pollReturn active ∧ (c, revents) ∈ active ∧
      s.loop.mayReport (c, revents) = true := by
  have h := step_inv h
  cases a with
  | pollReturn active =>
    obtain ⟨-, -, hall, -, rfl⟩ := h
    obtain ⟨⟨c', revents⟩, hin, rfl⟩ := List.mem_map.1 hmem
    exact .inr ⟨active, revents, rfl, hin, List.all_eq_true.1 hall _ hin⟩
  | dispatch =>
    obtain ⟨-, -, c', rest, hact, rfl⟩ := h
    rw [hact]
    exact .inl ⟨by simp, List.mem_cons_of_mem c' hmem⟩
  | test =>
    obtain ⟨-, -, rfl⟩ := h
    dsimp only at hmem
    split at hmem
    · exact .inl ⟨by simp, hmem⟩
    · simp at hmem
  | runFunctor =>
    obtain ⟨-, -, _, _, -, rfl⟩ := h
    exact .inl ⟨by simp, hmem⟩
  | startFunctors | endFunctors | channelOp =>
    obtain ⟨-, -, -, rfl⟩ := h
    exact .inl ⟨by simp, hmem⟩
  | enter | swapFunctors | pushOwn | quitOwn =>
    obtain ⟨-, -, rfl⟩ := h
    exact .inl ⟨by simp, hmem⟩
  | push | quit | wakeup | wakeupOwn =>
    obtain ⟨-, rfl⟩ := h
    exact .inl ⟨by simp, hmem⟩

omit [DecidableEq T] in
/-- Only a registered channel can be reported. -/
theorem kAdded_of_mayReport {s : LoopSystem F C T} {c : C} {revents : EventMask}
    (hs : s.loop.poller.Sound) (h : s.loop.mayReport (c, revents) = true) :
    (s.loop.poller.channel c).index = .kAdded := by
  by_contra hi
  have hnone : s.loop.poller.interest (s.loop.poller.channel c).fd = none := by
    rw [(hs.agrees c).interest_eq, if_neg hi]
  simp [EventLoop.mayReport, hnone] at h

end LoopSystem

/-! ## The member functions -/

/-- The functor is a callback of the user. -/
def LoopFunctor.isNotice : LoopFunctor → Bool
  | .writeComplete | .highWaterMark _ => true
  | _ => false

/-- The event is a `write` to the socket or an `append` to `_outputBuffer`. -/
def ConnEvent.isOutput : ConnEvent → Bool
  | .write _ | .append _ => true
  | _ => false

/-- The event belongs to the end of the connection. -/
def ConnEvent.isTeardown : ConnEvent → Bool
  | .connectionCallback connected => !connected
  | .closeCallback | .handleClose | .connectDestroyed | .destroyRequest => true
  | _ => false

namespace TcpConnection

variable {C T : Type*}

def poller (c : TcpConnection C T) : EpollPoller C := c.sys.loop.poller

/-- The connection queues only callbacks of the user, and does nothing that belongs to its end. -/
structure Quiet (c c' : TcpConnection C T) : Prop where
  channel : c'.channel = c.channel
  server : c'.server = c.server
  frame : ∃ fs, (∀ f ∈ fs, f.isNotice = true) ∧ c.sys.Frame fs c'.sys
  log : ∃ es, c'.log = c.log ++ es ∧ ∀ e ∈ es, e.isTeardown = false

/-- A change that is to neither the loop, the log nor the server. -/
theorem Quiet.of_eq {c c' : TcpConnection C T} (hc : c'.channel = c.channel)
    (hs : c'.server = c.server) (hsys : c'.sys = c.sys) (hlog : c'.log = c.log) : Quiet c c' :=
  ⟨hc, hs, ⟨[], nofun, hsys ▸ .refl _⟩, [], by simp [hlog], nofun⟩

theorem Quiet.refl (c : TcpConnection C T) : Quiet c c := .of_eq rfl rfl rfl rfl

theorem Quiet.trans {c₁ c₂ c₃ : TcpConnection C T} (h : Quiet c₁ c₂) (h' : Quiet c₂ c₃) :
    Quiet c₁ c₃ := by
  obtain ⟨fs, hfs, hf⟩ := h.frame
  obtain ⟨gs, hgs, hg⟩ := h'.frame
  obtain ⟨es, hes, htear⟩ := h.log
  obtain ⟨es', hes', htear'⟩ := h'.log
  refine ⟨h'.channel.trans h.channel, h'.server.trans h.server, ⟨fs ++ gs, fun f hmem =>
    (List.mem_append.1 hmem).elim (hfs f) (hgs f), hf.trans hg⟩, es ++ es', ?_, fun e hmem =>
    (List.mem_append.1 hmem).elim (htear e) (htear' e)⟩
  rw [hes', hes, List.append_assoc]

theorem Quiet.count_eq {c c' : TcpConnection C T} (h : Quiet c c') {e : ConnEvent}
    (he : e.isTeardown = true) : c'.log.count e = c.log.count e := by
  obtain ⟨es, hes, htear⟩ := h.log
  have hnone : es.count e = 0 := by
    refine List.count_eq_zero.2 fun hmem => ?_
    rw [htear e hmem] at he
    cases he
  rw [hes, List.count_append, hnone, Nat.add_zero]

theorem quiet_note {e : ConnEvent} (he : e.isTeardown = false) (c : TcpConnection C T) :
    Quiet c (c.note e) :=
  ⟨rfl, rfl, ⟨[], nofun, .refl _⟩, [e], rfl, by simpa using he⟩

theorem quiet_setOutput (b : Buffer) (c : TcpConnection C T) : Quiet c (c.setOutput b) :=
  .of_eq rfl rfl rfl rfl

theorem quiet_setState (state : ConnState) (c : TcpConnection C T) : Quiet c (c.setState state) :=
  .of_eq rfl rfl rfl rfl

theorem quiet_shutdownInLoop (c : TcpConnection C T) : Quiet c c.shutdownInLoop := by
  refine ⟨rfl, rfl, ⟨[], nofun, .refl _⟩, ?_⟩
  unfold shutdownInLoop
  dsimp only
  split
  · exact ⟨[], by simp, nofun⟩
  · exact ⟨[.shutdownWrite], rfl, by simp [ConnEvent.isTeardown]⟩

theorem quiet_shutdown (c : TcpConnection C T) : Quiet c c.shutdown := by
  unfold shutdown
  split
  · exact (quiet_setState .kDisconnected c).trans (quiet_shutdownInLoop _)
  · exact .refl c

theorem quiet_notifyWriteComplete (c : TcpConnection C T) : Quiet c c.notifyWriteComplete := by
  refine ⟨rfl, rfl, ?_, [], by simp [notifyWriteComplete], nofun⟩
  unfold notifyWriteComplete
  dsimp only
  split
  · exact ⟨[.writeComplete], by simp [LoopFunctor.isNotice], LoopSystem.frame_queueInLLoop _ _⟩
  · exact ⟨[], nofun, .refl _⟩

theorem quiet_notifyHighWater (n : Nat) (c : TcpConnection C T) :
    Quiet c (c.notifyHighWater n) := by
  refine ⟨rfl, rfl, ?_, [], by simp [notifyHighWater], nofun⟩
  unfold notifyHighWater
  dsimp only
  split
  · exact ⟨[.highWaterMark _], by simp [LoopFunctor.isNotice], LoopSystem.frame_queueInLLoop _ _⟩
  · exact ⟨[], nofun, .refl _⟩

@[simp] theorem poller_notifyWriteComplete (c : TcpConnection C T) :
    c.notifyWriteComplete.poller = c.poller := by
  unfold notifyWriteComplete poller
  dsimp only
  split <;> simp

@[simp] theorem poller_notifyHighWater (n : Nat) (c : TcpConnection C T) :
    (c.notifyHighWater n).poller = c.poller := by
  unfold notifyHighWater poller
  dsimp only
  split <;> simp

variable [DecidableEq C]

theorem quiet_channelOp (op : ChannelOp) (c : TcpConnection C T) : Quiet c (c.channelOp op) :=
  ⟨rfl, rfl, ⟨[], nofun, LoopSystem.frame_applyOp op c.channel c.sys⟩, [],
    by simp [channelOp], nofun⟩

theorem quiet_requestWrite (c : TcpConnection C T) : Quiet c c.requestWrite := by
  refine ⟨rfl, rfl, ⟨[], nofun, ?_⟩, [], by simp [requestWrite], nofun⟩
  unfold requestWrite
  dsimp only
  split
  · exact .refl _
  · exact LoopSystem.frame_applyOp .enableWriting c.channel c.sys

theorem poller_requestWrite (c : TcpConnection C T) : c.requestWrite.poller =
    if c.isWriting then c.poller else c.poller.apply false .enableWriting c.channel := by
  unfold requestWrite poller
  dsimp only
  split <;> rfl

/-- Write interest, once asked for, is there. -/
theorem isWriting_requestWrite (c : TcpConnection C T) : c.requestWrite.isWriting = true := by
  by_cases hw : c.isWriting = true
  · have : c.requestWrite.poller = c.poller := by rw [poller_requestWrite, if_pos hw]
    unfold isWriting at hw ⊢
    exact (congrArg (fun p => (p.channel c.channel).isWriting) this).trans hw
  · have : c.requestWrite.poller = c.poller.apply false .enableWriting c.channel := by
      rw [poller_requestWrite, if_neg hw]
    refine (congrArg (fun p => (p.channel c.channel).isWriting) this).trans ?_
    rw [EpollPoller.channel_apply (by simp)]
    exact EventMask.has_or_self _ (by decide)

/-! ### `sendInLoop` -/

theorem bufferRest_inv {c c' : TcpConnection C T} {mem : Memory} {rest : Int} {n : Nat}
    (h : c.bufferRest mem rest n = .ok c') :
    n = 0 ∧ c' = c ∨ ∃ b, c.outputBuffer.append (readBytes mem rest n) = .ok b ∧ c' =
      (((c.notifyHighWater n).setOutput b).note (.append (readBytes mem rest n))).requestWrite := by
  unfold bufferRest at h
  split at h
  · simp only at h
    split at h
    · cases h
    · rename_i b hb
      exact .inr ⟨b, hb, (Except.ok.inj h).symm⟩
  · exact .inl ⟨by omega, (Except.ok.inj h).symm⟩

/-- What a send does, beside the stream: either it leaves nothing to be buffered, or it appends the
rest and there is write interest afterwards. -/
structure Sends (c c' : TcpConnection C T) : Prop extends Quiet c c' where
  state : c'.state = c.state
  rest : c'.outputBuffer = c.outputBuffer ∧ c'.poller = c.poller ∨
    c'.isWriting = true ∧ c'.poller =
      if c.isWriting then c.poller else c.poller.apply false .enableWriting c.channel

theorem sends_bufferRest {c c' : TcpConnection C T} {mem : Memory} {rest : Int} {n : Nat}
    (h : c.bufferRest mem rest n = .ok c') : Sends c c' := by
  rcases bufferRest_inv h with ⟨-, rfl⟩ | ⟨b, -, rfl⟩
  · exact ⟨.refl _, rfl, .inl ⟨rfl, rfl⟩⟩
  · have hq := (((quiet_notifyHighWater n c).trans (quiet_setOutput b _)).trans
      (quiet_note (e := .append (readBytes mem rest n)) rfl _)).trans (quiet_requestWrite _)
    refine ⟨hq, rfl, .inr ⟨isWriting_requestWrite _, ?_⟩⟩
    have hw : (((c.notifyHighWater n).setOutput b).note
        (.append (readBytes mem rest n))).isWriting = c.isWriting :=
      congrArg (fun p => (p.channel c.channel).isWriting) (poller_notifyHighWater n c)
    rw [poller_requestWrite, hw]
    have hp : (((c.notifyHighWater n).setOutput b).note
        (.append (readBytes mem rest n))).poller = c.poller := poller_notifyHighWater n c
    rw [hp]
    rfl

/-- **What a send does** beside the stream. -/
theorem sends_sendInLoop {c c' : TcpConnection C T} {mem : Memory} {data : Int} {len : Nat}
    {nwrote : Int} {r : WriteResult} (h : c.sendInLoop mem data len nwrote r = .ok c') :
    Sends c c' := by
  have hwrote : ∀ c₁ : TcpConnection C T, Quiet c c₁ → c₁.state = c.state →
      c₁.outputBuffer = c.outputBuffer → c₁.poller = c.poller → Sends c₁ c' → Sends c c' := by
    intro c₁ hq hst hbuf hp hs
    have hw : c₁.isWriting = c.isWriting := by
      unfold isWriting
      rw [hq.channel]
      exact congrArg (fun p => (p.channel c.channel).isWriting) hp
    refine ⟨hq.trans hs.toQuiet, hs.state.trans hst, ?_⟩
    rw [← hbuf, ← hp, ← hq.channel, ← hw]
    exact hs.rest
  unfold sendInLoop at h
  split at h
  · have hnote := quiet_note (e := .write ((readBytes mem data len).take r.ret.toNat)) rfl c
    simp only at h
    split at h
    · split at h
      · exact hwrote _ (hnote.trans (quiet_notifyWriteComplete _)) rfl rfl
          (poller_notifyWriteComplete _) (sends_bufferRest h)
      · exact hwrote _ hnote rfl rfl rfl (sends_bufferRest h)
    · split at h
      · obtain rfl := Except.ok.inj h
        exact hwrote _ hnote rfl rfl rfl ⟨.refl _, rfl, .inl ⟨rfl, rfl⟩⟩
      · exact hwrote _ hnote rfl rfl rfl (sends_bufferRest h)
  · exact sends_bufferRest h

/-! ### The other functions -/

theorem quiet_writeFinished (c : TcpConnection C T) : Quiet c c.writeFinished := by
  have hq := (quiet_channelOp .disableWriting c).trans (quiet_notifyWriteComplete _)
  unfold writeFinished
  dsimp only
  split
  · exact hq.trans (quiet_shutdownInLoop _)
  · exact hq

theorem poller_writeFinished (c : TcpConnection C T) :
    c.writeFinished.poller = c.poller.apply false .disableWriting c.channel := by
  have hp : ((c.channelOp .disableWriting).notifyWriteComplete).poller =
      c.poller.apply false .disableWriting c.channel := poller_notifyWriteComplete _
  unfold writeFinished
  dsimp only
  split
  · exact hp
  · exact hp

theorem quiet_handleWrite (r : WriteResult) (c : TcpConnection C T) :
    Quiet c (c.handleWrite r) := by
  unfold handleWrite
  split
  · have hnote := quiet_note (e := .write ((c.outputBuffer.peek
      c.outputBuffer.readableBytes).take r.ret.toNat)) rfl c
    dsimp only
    split
    · have hset := hnote.trans (quiet_setOutput (c.outputBuffer.retrieve r.ret.toNat) _)
      split
      · exact hset.trans (quiet_writeFinished _)
      · exact hset
    · exact hnote
  · exact .refl c

/-- A write event operates on the channel only when it has written the last byte. -/
theorem poller_handleWrite (r : WriteResult) (c : TcpConnection C T) :
    (c.handleWrite r).poller = c.poller ∨ c.isWriting = true ∧
      (c.handleWrite r).outputBuffer = c.outputBuffer.retrieve r.ret.toNat ∧
      (c.handleWrite r).outputBuffer.readableBytes = 0 ∧
      (c.handleWrite r).poller = c.poller.apply false .disableWriting c.channel := by
  unfold handleWrite
  split
  · rename_i hw
    dsimp only
    split
    · split
      · rename_i hempty
        have hb : ∀ c₁ : TcpConnection C T, c₁.writeFinished.outputBuffer = c₁.outputBuffer := by
          intro c₁
          unfold writeFinished
          dsimp only
          split <;> rfl
        refine .inr ⟨hw, hb _, ?_, poller_writeFinished _⟩
        rw [hb]
        exact hempty
      · exact .inl rfl
    · exact .inl rfl
  · exact .inl rfl

theorem state_writeFinished (c : TcpConnection C T) : c.writeFinished.state = c.state := by
  unfold writeFinished
  dsimp only
  split <;> rfl

theorem state_handleWrite (r : WriteResult) (c : TcpConnection C T) :
    (c.handleWrite r).state = c.state := by
  unfold handleWrite
  split
  · dsimp only
    split
    · split
      · exact state_writeFinished _
      · rfl
    · rfl
  · rfl

/-! ### Establishment and teardown -/

theorem quiet_connectEstablished (c : TcpConnection C T) : Quiet c c.connectEstablished :=
  ((quiet_setState .kConnected c).trans (quiet_channelOp .enableReading _)).trans
    (quiet_note (e := .connectionCallback true) rfl _)

theorem connectDestroyed_eq (c : TcpConnection C T) : c.connectDestroyed = { c with
    state := if c.state = .kConnected then .kDisconnected else c.state
    sys := (if c.state = .kConnected then c.sys.applyOp .disableAll c.channel
      else c.sys).applyOp .remove c.channel
    log := c.log ++ .connectDestroyed ::
      if c.state = .kConnected then [.connectionCallback false] else [] } := by
  unfold connectDestroyed
  dsimp only [note]
  split
  · simp [channelOp, setState]
  · simp [channelOp]

theorem handleClose_eq (c : TcpConnection C T) : c.handleClose = { c with
    state := .kDisconnected
    sys := if c.server.alive = true ∧ c.server.sameLoop = true
      then (c.sys.applyOp .disableAll c.channel).queueInLLoop .connectDestroyed
      else c.sys.applyOp .disableAll c.channel
    server := if c.server.alive = true then
        if c.server.sameLoop = true then { c.server with inMap := false }
        else { c.server with removals := c.server.removals + 1 }
      else c.server
    log := c.log ++ [.handleClose, .connectionCallback false, .closeCallback] ++
      if c.server.alive = true ∧ c.server.sameLoop = true then [.destroyRequest] else [] } := by
  unfold handleClose closeCallback
  by_cases ha : c.server.alive = true <;> by_cases hl : c.server.sameLoop = true <;>
    simp [ha, hl, note, channelOp, setState, removeConnectionInPool, queueInLLoop]

/-- The functor that the close handler queues. -/
def closeRequest (c : TcpConnection C T) : List LoopFunctor :=
  if c.server.alive = true ∧ c.server.sameLoop = true then [.connectDestroyed] else []

theorem frame_handleClose (c : TcpConnection C T) :
    c.sys.Frame c.closeRequest c.handleClose.sys := by
  have hop := LoopSystem.frame_applyOp .disableAll c.channel c.sys
  rw [handleClose_eq, closeRequest]
  dsimp only
  split
  · exact hop.trans (LoopSystem.frame_queueInLLoop _ _)
  · exact hop

theorem poller_handleClose (c : TcpConnection C T) :
    c.handleClose.poller = c.poller.apply false .disableAll c.channel := by
  rw [handleClose_eq, poller]
  dsimp only
  split
  · exact LoopSystem.poller_queueInLLoop _ _
  · rfl

theorem frame_connectDestroyed (c : TcpConnection C T) :
    c.sys.Frame [] c.connectDestroyed.sys := by
  rw [connectDestroyed_eq]
  dsimp only
  split
  · exact (LoopSystem.frame_applyOp .disableAll c.channel c.sys).trans
      (LoopSystem.frame_applyOp .remove c.channel _)
  · exact LoopSystem.frame_applyOp .remove c.channel c.sys

/-! ### A send that leaves nothing -/

/-- `sendInLoop` has no bytes left over for `_outputBuffer`. -/
def leavesNothing (len : Nat) (r : WriteResult) (c : TcpConnection C T) : Prop :=
  if c.writesDirectly then r.ret = len ∨ r.ret = 0 ∧ (r.errno = EPIPE ∨ r.errno = ECONNRESET)
  else len = 0

instance (len : Nat) (r : WriteResult) (c : TcpConnection C T) :
    Decidable (c.leavesNothing len r) := by
  unfold leavesNothing; infer_instance

theorem bufferRest_zero (mem : Memory) (rest : Int) (c : TcpConnection C T) :
    c.bufferRest mem rest 0 = .ok c := rfl

/-- Then it appends nothing, and does not touch the channel. -/
theorem sendInLoop_leavesNothing {c c' : TcpConnection C T} {mem : Memory} {data : Int} {len : Nat}
    {nwrote : Int} {r : WriteResult} (hn : c.leavesNothing len r)
    (h : c.sendInLoop mem data len nwrote r = .ok c') :
    c'.poller = c.poller ∧ c'.outputBuffer = c.outputBuffer := by
  unfold leavesNothing at hn
  unfold sendInLoop at h
  split at hn
  · rename_i hd
    rw [if_pos hd] at h
    rcases hn with hret | ⟨hret, herr⟩
    · have hrem : toSize (len - r.ret) = 0 := by rw [hret]; simp [toSize]
      simp only [hrem, if_true] at h
      split at h
      · rw [bufferRest_zero] at h
        obtain rfl := Except.ok.inj h
        exact ⟨poller_notifyWriteComplete _, rfl⟩
      · rename_i hret0
        have hlen : len = 0 := by omega
        split at h
        · obtain rfl := Except.ok.inj h
          exact ⟨rfl, rfl⟩
        · rw [hlen, bufferRest_zero] at h
          obtain rfl := Except.ok.inj h
          exact ⟨rfl, rfl⟩
    · have hgone : r.errno ≠ EWOULDBLOCK ∧ (r.errno = EPIPE ∨ r.errno = ECONNRESET) := by
        refine ⟨?_, herr⟩
        rcases herr with herr | herr <;> rw [herr] <;> decide
      simp only [hret, ne_eq, not_true_eq_false, if_false, if_pos hgone] at h
      obtain rfl := Except.ok.inj h
      exact ⟨rfl, rfl⟩
  · rename_i hd
    rw [if_neg hd, hn, bufferRest_zero] at h
    obtain rfl := Except.ok.inj h
    exact ⟨rfl, rfl⟩

end TcpConnection

end WebCore
