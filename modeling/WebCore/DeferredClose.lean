import WebCore.Backlog
import WebCore.ConnPlain

/-!
# The deferred half-close

On the loop thread `shutdown()` half-closes the socket at once when nothing is to be written. With
output pending it only stores `kDisconnected`, and the `handleWrite` that empties the buffer does
the rest. No send gets past `kDisconnected`, so an empty buffer stays empty.

`Drained c` says that a connection is down and its buffer empty. One step half-closes the socket
iff it leads there (`halfClose_step`).

**Theorem (`deferred_half_close`).** The half-close never comes while bytes are buffered. After a
`shutdown()` that has seen `kConnected` it has come exactly once when the buffer is empty, and not
at all when it is not.
-/

namespace WebCore

open Transition

namespace TcpConnection

variable {C T : Type*}

/-- What the loop thread does to a connection that only it uses. -/
inductive LocalCall (C : Type*)
  | send (mem : Memory) (data : Int) (call : SendCall) (nwrote : Int) (r : WriteResult)
  | shutdown
  | handleWrite (r : WriteResult)
  /-- an operation on another channel of the loop -/
  | other (op : ChannelOp) (channel : C)

/-- The connection is down, and nothing is left to write. -/
def Drained (c : TcpConnection C T) : Prop :=
  c.state = .kDisconnected ∧ c.outputBuffer.readableBytes = 0

instance (c : TcpConnection C T) : Decidable c.Drained := by
  unfold Drained; infer_instance

/-- A connection that is drained stays so, and a step half-closes it iff it drains it; the
half-close is the last thing that the step does. -/
structure HalfCloses (c c' : TcpConnection C T) : Prop where
  down : c.state = .kDisconnected → c'.state = .kDisconnected
  drained : c.Drained → c'.Drained
  log : ∃ es, .shutdownWrite ∉ es ∧
    c'.log = c.log ++ es ++ if c'.Drained ∧ ¬ c.Drained then [.shutdownWrite] else []

theorem HalfCloses.refl (c : TcpConnection C T) : HalfCloses c c :=
  ⟨id, id, [], by simp, by simp⟩

/-- A step that half-closes nothing. -/
theorem HalfCloses.of_log {c c' : TcpConnection C T} (es : List ConnEvent)
    (hdown : c.state = .kDisconnected → c'.state = .kDisconnected) (hes : .shutdownWrite ∉ es)
    (hlog : c'.log = c.log ++ es) (h : c.Drained ↔ c'.Drained) : HalfCloses c c' :=
  ⟨hdown, h.1, es, hes, by rw [hlog, if_neg fun hx => hx.2 (h.2 hx.1), List.append_nil]⟩

/-- A step that half-closes. -/
theorem HalfCloses.of_drains {c c' : TcpConnection C T} (es : List ConnEvent)
    (hes : .shutdownWrite ∉ es) (hlog : c'.log = c.log ++ es ++ [.shutdownWrite])
    (h : ¬ c.Drained) (h' : c'.Drained) : HalfCloses c c' :=
  ⟨fun _ => h'.1, fun hd => absurd hd h, es, hes, by rw [hlog, if_pos ⟨h', h⟩]⟩

/-- Write interest goes with the backlog. -/
theorem Backlogged.isWriting_false_iff {c : TcpConnection C T} (h : Backlogged c) :
    c.isWriting = false ↔ c.outputBuffer.readableBytes = 0 := by
  rw [← Bool.not_eq_true, ← h.waits, Nat.pos_iff_ne_zero, not_not]

/-- `shutdown` half-closes at once when nothing is buffered. -/
theorem halfCloses_shutdown {c : TcpConnection C T} (h : Backlogged c) :
    HalfCloses c c.shutdown := by
  unfold shutdown
  split
  · rename_i hup
    have hnot : ¬ c.Drained := fun hd => by cases hup.symm.trans hd.1
    by_cases hempty : c.outputBuffer.readableBytes = 0
    · have hw := h.isWriting_false_iff.2 hempty
      refine .of_drains [] (by simp) ?_ hnot ⟨rfl, hempty⟩
      rw [List.append_nil, shutdownInLoop]
      exact if_neg (by rw [show (c.setState .kDisconnected).isWriting = false from hw]; simp)
    · have hw : c.isWriting = true := by
        rw [← Bool.not_eq_false, h.isWriting_false_iff]
        exact hempty
      refine .of_log [] (fun _ => rfl) (by simp) ?_
        (iff_of_false hnot fun hd => hempty hd.2)
      rw [List.append_nil, shutdownInLoop]
      exact if_pos hw
  · exact .refl c

variable [DecidableEq C]

def localStep (c : TcpConnection C T) : LocalCall C → Option (TcpConnection C T)
  | .send mem data call nwrote r =>
    if call.payload.length ≤ maxSize ∧ r.Bounded call.payload.length then
      (c.send mem data call nwrote r).toOption
    else none
  | .shutdown => some c.shutdown
  | .handleWrite r =>
    if r.Bounded c.outputBuffer.readableBytes then some (c.handleWrite r) else none
  | .other op channel =>
    if channel ≠ c.channel then some { c with sys := c.sys.applyOp op channel } else none

/-! ## One step -/

/-- A send is refused, or leaves the connection up. -/
theorem halfCloses_send {c c' : TcpConnection C T} {mem : Memory} {data : Int} {call : SendCall}
    {nwrote : Int} {r : WriteResult} (h : c.send mem data call nwrote r = .ok c') :
    HalfCloses c c' := by
  unfold send at h
  split at h
  · rename_i hup
    have hst : c'.state = c.state := (sends_sendInLoop h).state
    obtain ⟨es, hes, hout⟩ := grows_sendInLoop h
    have hlog : c'.log = c.log ++ ([ConnEvent.send call, .sendInLoop call] ++ es) := by
      rw [hes]
      simp [note]
    refine .of_log _ (fun hd => hst.trans hd) ?_ hlog (by simp [Drained, hst, hup])
    simp only [List.mem_append, List.mem_cons, reduceCtorEq, List.not_mem_nil, or_self, false_or]
    intro hmem
    cases hout _ hmem
  · obtain rfl := Except.ok.inj h
    exact .refl c

/-- What is logged when the last byte has been written. -/
theorem log_writeFinished {c : TcpConnection C T} (hr : ConnSystem.Registered .alive c) :
    c.writeFinished.log =
      c.log ++ if c.state = .kDisconnected then [ConnEvent.shutdownWrite] else [] := by
  have hw : (c.channelOp .disableWriting).notifyWriteComplete.isWriting = false :=
    isWriting_disableWriting hr (poller_notifyWriteComplete _) rfl
  have hst : (c.channelOp .disableWriting).notifyWriteComplete.state = c.state := rfl
  unfold writeFinished
  dsimp only
  rw [hst]
  split
  · rw [shutdownInLoop, hw]
    rfl
  · exact (List.append_nil _).symm

/-- The last byte has been written. -/
theorem halfCloses_writeFinished {c c₁ : TcpConnection C T} {bytes : List UInt8}
    (hnot : ¬ c.Drained) (hr : ConnSystem.Registered .alive c₁)
    (hlog : c₁.log = c.log ++ [.write bytes]) (hst : c₁.state = c.state)
    (hempty : c₁.outputBuffer.readableBytes = 0) : HalfCloses c c₁.writeFinished := by
  have hfinished := log_writeFinished hr
  have hstate := (state_writeFinished c₁).trans hst
  by_cases hdown : c.state = .kDisconnected
  · rw [if_pos (hst.trans hdown), hlog] at hfinished
    refine .of_drains [.write bytes] (by simp) hfinished hnot ⟨hstate.trans hdown, ?_⟩
    rw [(writeFinished_output c₁).1]
    exact hempty
  · rw [if_neg fun hd => hdown (hst.symm.trans hd), List.append_nil, hlog] at hfinished
    exact .of_log [.write bytes] (fun hd => absurd hd hdown) (by simp) hfinished
      (iff_of_false hnot fun hd => hdown (hstate.symm.trans hd.1))

/-- `handleWrite` half-closes when it has written the last byte of a connection that is down. -/
theorem halfCloses_handleWrite {c : TcpConnection C T} (h : Backlogged c) (r : WriteResult) :
    HalfCloses c (c.handleWrite r) := by
  by_cases hw : c.isWriting = true
  · have hmore : c.outputBuffer.readableBytes ≠ 0 := (h.waits.2 hw).ne'
    have hnot : ¬ c.Drained := fun hd => hmore hd.2
    unfold handleWrite
    rw [if_pos hw]
    dsimp only
    split
    · split
      · rename_i hempty
        exact halfCloses_writeFinished hnot (h.registered.of_poller rfl rfl) rfl rfl hempty
      · rename_i hleft
        exact .of_log [.write _] id (by simp) rfl (iff_of_false hnot fun hd => hleft hd.2)
    · exact .of_log [.write _] id (by simp) rfl (iff_of_false hnot fun hd => hmore hd.2)
  · have hsame : c.handleWrite r = c := if_neg hw
    rw [hsame]
    exact .refl c

/-- **A step half-closes iff it drains a connection that is down.** -/
theorem halfClose_step {c c' : TcpConnection C T} {call : LocalCall C} (h : Backlogged c)
    (hstep : localStep c call = some c') : Backlogged c' ∧ HalfCloses c c' := by
  cases call with
  | send mem data call nwrote r =>
    simp only [localStep, Option.ite_none_right_eq_some, toOption_eq_some] at hstep
    obtain ⟨⟨hlen, hr⟩, hok⟩ := hstep
    refine ⟨?_, halfCloses_send hok⟩
    unfold send at hok
    split at hok
    · have hnote : Backlogged ((c.note (.send call)).note (.sendInLoop call)) :=
        h.of_eq rfl rfl rfl
      exact hnote.sendInLoop hlen hr hok
    · obtain rfl := Except.ok.inj hok
      exact h
  | shutdown =>
    have hshutdown : callStep c .shutdown = some c' := hstep
    obtain rfl := Option.some.inj hstep
    exact ⟨h.step hshutdown, halfCloses_shutdown h⟩
  | handleWrite r =>
    simp only [localStep, Option.ite_none_right_eq_some, Option.some.injEq] at hstep
    obtain ⟨-, rfl⟩ := hstep
    exact ⟨h.handleWrite r, halfCloses_handleWrite h r⟩
  | other op channel =>
    have hother : callStep c (.other op channel) = some c' := hstep
    simp only [localStep, Option.ite_none_right_eq_some, Option.some.injEq] at hstep
    obtain ⟨-, rfl⟩ := hstep
    exact ⟨h.step hother, .of_log [] id (by simp) (List.append_nil _).symm Iff.rfl⟩

/-! ## Runs -/

/-- The half-close has come iff the connection is drained, and then once. -/
structure Deferred (c : TcpConnection C T) : Prop where
  backlogged : Backlogged c
  count_eq : c.log.count .shutdownWrite = if c.Drained then 1 else 0

theorem Deferred.step {c c' : TcpConnection C T} {call : LocalCall C} (h : Deferred c)
    (hstep : localStep c call = some c') : Deferred c' := by
  obtain ⟨hb, hdown, hdrained, es, hes, hlog⟩ := halfClose_step h.backlogged hstep
  refine ⟨hb, ?_⟩
  rw [hlog, List.count_append, List.count_append, h.count_eq, List.count_eq_zero.2 hes]
  by_cases hd : c.Drained
  · simp [hd, hdrained hd]
  · by_cases hd' : c'.Drained <;> simp [hd, hd']

theorem deferred_established {sys : LoopSystem LoopFunctor C T} {channel : C}
    (hs : sys.loop.poller.Sound) (hnew : Stage.fresh.Entry (sys.loop.poller.channel channel))
    (server : ServerEntry) (writeComplete highWater : Bool) :
    Deferred (established sys channel server writeComplete highWater) := by
  refine ⟨backlogged_established hs hnew server writeComplete highWater, ?_⟩
  rw [if_neg fun hd : Drained _ => by cases hd.1]
  rfl

/-- **The half-close is deferred.** In every run on the loop thread, whatever is sent and whatever
the kernel answers: a step that half-closes the socket does so at its end, with an empty buffer.
Once a `shutdown` has seen `kConnected`, the half-close has come exactly once if the buffer is
empty, and not at all if it is not. -/
theorem deferred_half_close (sys : LoopSystem LoopFunctor C T) (channel : C)
    (server : ServerEntry) (writeComplete highWater : Bool) (hs : sys.loop.poller.Sound)
    (hnew : Stage.fresh.Entry (sys.loop.poller.channel channel)) (calls : List (LocalCall C))
    (c : TcpConnection C T)
    (h : run localStep (established sys channel server writeComplete highWater) calls = some c) :
    (∀ call c', localStep c call = some c' →
      c'.log.count .shutdownWrite ≠ c.log.count .shutdownWrite →
      (∃ es, .shutdownWrite ∉ es ∧ c'.log = c.log ++ es ++ [.shutdownWrite]) ∧
        c'.outputBuffer.readableBytes = 0) ∧
    ∀ before after c₁, calls = before ++ .shutdown :: after →
      run localStep (established sys channel server writeComplete highWater) before = some c₁ →
      c₁.state = .kConnected →
      c.log.count .shutdownWrite = if c.outputBuffer.readableBytes = 0 then 1 else 0 := by
  have hd₀ := deferred_established hs hnew server writeComplete highWater
  have hd : Deferred c := run_invariant Deferred (fun _ _ _ hd => hd.step) hd₀ h
  refine ⟨fun call c' hstep hcount => ?_, fun before after c₁ hcalls hbefore hup => ?_⟩
  · obtain ⟨-, -, -, es, hes, hlog⟩ := halfClose_step hd.backlogged hstep
    by_cases hdrains : c'.Drained ∧ ¬ c.Drained
    · rw [if_pos hdrains] at hlog
      exact ⟨⟨es, hes, hlog⟩, hdrains.1.2⟩
    · rw [if_neg hdrains, List.append_nil] at hlog
      rw [hlog, List.count_append, List.count_eq_zero.2 hes] at hcount
      exact absurd rfl hcount
  · rw [hcalls] at h
    obtain ⟨c₂, hc₂, hrest⟩ := run_append.1 h
    obtain rfl : c₁ = c₂ := Option.some.inj (hbefore.symm.trans hc₂)
    obtain ⟨c₃, hc₃, hafter⟩ := run_cons.1 hrest
    have hd₁ : Deferred c₁ := run_invariant Deferred (fun _ _ _ hd => hd.step) hd₀ hbefore
    have hdown : c₃.state = .kDisconnected := by
      rw [← Option.some.inj hc₃, shutdown, if_pos hup]
      rfl
    -- From here on the state stays `kDisconnected`.
    have hinv := run_invariant (fun c : TcpConnection C T => Deferred c ∧ c.state = .kDisconnected)
      (fun _ _ _ hinv hstep => ⟨hinv.1.step hstep,
        (halfClose_step hinv.1.backlogged hstep).2.down hinv.2⟩)
      ⟨hd₁.step hc₃, hdown⟩ hafter
    rw [hd.count_eq]
    simp [Drained, hinv.2]

/-- Two bytes are left of three when the connection is shut down, twice; they go one by one, and
what is sent in between is refused. -/
def drainedLate : List (LocalCall Bool) :=
  [.send sampleMemory 0 ⟨0, [0, 1, 2]⟩ 0 ⟨1, 0⟩, .shutdown, .handleWrite ⟨1, 0⟩, .shutdown,
    .send sampleMemory 3 ⟨1, [3]⟩ 0 ⟨1, 0⟩, .handleWrite ⟨1, 0⟩]

theorem deferred_drainedLate :
    (run localStep (established sampleLoop true ⟨false, true, true, 0⟩ false false)
      drainedLate).isSome ∧
    ∀ c, run localStep (established sampleLoop true ⟨false, true, true, 0⟩ false false)
        drainedLate = some c →
      c.log.count .shutdownWrite = if c.outputBuffer.readableBytes = 0 then 1 else 0 := by
  refine ⟨by decide +kernel, fun c h => ?_⟩
  obtain ⟨c₁, hc₁, hup⟩ := Option.map_eq_some_iff.1
    (show (run localStep (established sampleLoop true ⟨false, true, true, 0⟩ false false)
      (drainedLate.take 1)).map TcpConnection.state = some .kConnected by decide +kernel)
  exact (deferred_half_close sampleLoop true ⟨false, true, true, 0⟩ false false sound_sampleLoop
    ⟨rfl, rfl⟩ drainedLate c h).2 (drainedLate.take 1) (drainedLate.drop 2) c₁ rfl hc₁ hup

end TcpConnection

end WebCore
