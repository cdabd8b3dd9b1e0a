import WebCore.DeferredClose

/-!
# What is buffered leaves

A connection asks for write events exactly while bytes are buffered (`Backlogged`), and a write
event whose `write` accepts something takes bytes from the front of the buffer. So as long as the
socket takes a byte now and then, everything that is buffered is written in the end, whatever is
sent meanwhile.

**Theorem (`buffered_eventually_written`).** In an infinite run of an established connection in
which every wait for write events ends with a byte written, all that is buffered is written.

**Theorem (`half_close_eventually`).** In such a run of a connection that only its loop thread uses,
a `shutdown()` is followed by the half-close, once.
-/

namespace WebCore

open Transition

namespace TcpConnection

variable {C T : Type*}

/-! ## What a step does to the stream -/

/-- Bytes join the stream at its end, and what the kernel has accepted stays accepted. -/
structure Flows (c c' : TcpConnection C T) : Prop where
  valid : c'.outputBuffer.Valid
  stream : c.stream <+: c'.stream
  written : written c.log <+: TcpConnection.written c'.log

theorem Flows.of_eq {c c' : TcpConnection C T} (hv : c.outputBuffer.Valid)
    (hb : c'.outputBuffer = c.outputBuffer)
    (hw : TcpConnection.written c'.log = TcpConnection.written c.log) : Flows c c' :=
  ⟨hb ▸ hv, by rw [TcpConnection.stream, TcpConnection.stream, hb, hw], by rw [hw]⟩

theorem Flows.trans {c₁ c₂ c₃ : TcpConnection C T} (h : Flows c₁ c₂) (h' : Flows c₂ c₃) :
    Flows c₁ c₃ :=
  ⟨h'.valid, h.stream.trans h'.stream, h.written.trans h'.written⟩

theorem flows_notifyWriteComplete {c : TcpConnection C T} (hv : c.outputBuffer.Valid) :
    Flows c c.notifyWriteComplete :=
  .of_eq hv rfl rfl

/-- When nothing is buffered, the whole stream has been written. -/
theorem stream_eq_written {c : TcpConnection C T} (hv : c.outputBuffer.Valid)
    (hempty : c.outputBuffer.readableBytes = 0) : c.stream = TcpConnection.written c.log := by
  have hnil : c.outputBuffer.readable = [] :=
    List.eq_nil_of_length_eq_zero (hv.length_readable.trans hempty)
  rw [TcpConnection.stream, hnil, List.append_nil]

variable [DecidableEq C]

theorem written_bufferRest {c c' : TcpConnection C T} {mem : Memory} {rest : Int} {n : Nat}
    (hok : c.bufferRest mem rest n = .ok c') : written c'.log = written c.log := by
  rcases bufferRest_inv hok with ⟨-, rfl⟩ | ⟨b, -, rfl⟩
  · rfl
  · simp [requestWrite, note, setOutput, notifyHighWater, written]

theorem flows_bufferRest {c c' : TcpConnection C T} {mem : Memory} {rest : Int} {n : Nat}
    (hv : c.outputBuffer.Valid) (hn : n ≤ maxSize + 1) (hok : c.bufferRest mem rest n = .ok c') :
    Flows c c' := by
  have hw := written_bufferRest hok
  rcases Nat.eq_zero_or_pos n with rfl | hpos
  · obtain rfl := Except.ok.inj ((bufferRest_zero mem rest c).symm.trans hok)
    exact .of_eq hv rfl rfl
  · obtain ⟨hv', -, hread⟩ := bufferRest_readable hv hn hpos hok
    refine ⟨hv', ?_, by rw [hw]⟩
    rw [stream, stream, hw, hread, ← List.append_assoc]
    exact List.prefix_append _ _

/-- A send adds bytes to the stream, whatever its direct `write` returns. -/
theorem flows_sendInLoop {c c' : TcpConnection C T} {mem : Memory} {data : Int} {len : Nat}
    {nwrote : Int} {r : WriteResult} (hv : c.outputBuffer.Valid) (hlen : len ≤ maxSize)
    (hr : r.Bounded len) (hok : c.sendInLoop mem data len nwrote r = .ok c') : Flows c c' := by
  obtain ⟨hlow, hhigh⟩ := hr
  unfold sendInLoop at hok
  by_cases hd : c.writesDirectly
  · rw [if_pos hd] at hok
    dsimp only at hok
    -- The direct write goes behind a stream that has been written whole.
    have hdirect : Flows c (c.note (.write ((readBytes mem data len).take r.ret.toNat))) := by
      refine ⟨hv, ?_, ?_⟩
      · rw [stream_eq_written hv hd.2, stream_eq_written (c := c.note _) hv hd.2, note,
          written_append]
        exact List.prefix_append _ _
      · rw [note, written_append]
        exact List.prefix_append _ _
    split at hok
    · have hrem : toSize (len - r.ret) ≤ maxSize + 1 := by
        unfold toSize maxSize at *
        omega
      split at hok
      · exact (hdirect.trans (flows_notifyWriteComplete hdirect.valid)).trans
          (flows_bufferRest hv hrem hok)
      · exact hdirect.trans (flows_bufferRest hv hrem hok)
    · split at hok
      · obtain rfl := Except.ok.inj hok
        exact hdirect
      · exact hdirect.trans (flows_bufferRest hv (by omega) hok)
  · rw [if_neg hd] at hok
    exact flows_bufferRest hv (by omega) hok

/-- The bytes that a write event moves to the kernel. -/
theorem written_handleWrite {c : TcpConnection C T} {r : WriteResult} (h : Backlogged c)
    (hw : c.isWriting = true) : written (c.handleWrite r).log =
      written c.log ++ c.outputBuffer.readable.take r.ret.toNat := by
  unfold handleWrite
  rw [if_pos hw, Buffer.peek_readableBytes h.valid]
  dsimp only
  split
  · split
    · rw [(writeFinished_output _).2]
      simp [setOutput, note]
    · simp [setOutput, note]
  · simp [handleError, note]

theorem flows_handleWrite {c : TcpConnection C T} (h : Backlogged c) (r : WriteResult) :
    Flows c (c.handleWrite r) := by
  obtain ⟨hv, hstream, -⟩ := handleWrite_spec (r := r) h.valid
  refine ⟨hv, by rw [hstream, List.append_nil], ?_⟩
  by_cases hw : c.isWriting = true
  · rw [written_handleWrite h hw]
    exact List.prefix_append _ _
  · rw [show c.handleWrite r = c from if_neg hw]

theorem flows_callStep {c c' : TcpConnection C T} {call : OutputCall C} (h : Backlogged c)
    (hstep : callStep c call = some c') : Flows c c' := by
  cases call with
  | sendInLoop mem data len nwrote r =>
    simp only [callStep, Option.ite_none_right_eq_some, toOption_eq_some] at hstep
    exact flows_sendInLoop h.valid hstep.1.1 hstep.1.2 hstep.2
  | handleWrite r =>
    simp only [callStep, Option.ite_none_right_eq_some, Option.some.injEq] at hstep
    obtain ⟨-, rfl⟩ := hstep
    exact flows_handleWrite h r
  | shutdown =>
    obtain rfl := Option.some.inj hstep
    unfold shutdown
    split
    · exact .of_eq h.valid rfl (written_shutdownInLoop _)
    · exact .of_eq h.valid rfl rfl
  | shutdownInLoop =>
    obtain rfl := Option.some.inj hstep
    exact .of_eq h.valid rfl (written_shutdownInLoop c)
  | shutdownSet =>
    obtain rfl := Option.some.inj hstep
    exact .of_eq h.valid rfl rfl
  | other op channel =>
    simp only [callStep, Option.ite_none_right_eq_some, Option.some.injEq] at hstep
    obtain ⟨-, rfl⟩ := hstep
    exact .of_eq h.valid rfl rfl

theorem flows_localStep {c c' : TcpConnection C T} {call : LocalCall C} (h : Backlogged c)
    (hstep : localStep c call = some c') : Flows c c' := by
  cases call with
  | send mem data call nwrote r =>
    simp only [localStep, Option.ite_none_right_eq_some, toOption_eq_some] at hstep
    obtain ⟨⟨hlen, hr⟩, hok⟩ := hstep
    unfold send at hok
    split at hok
    · have hnote : Flows c ((c.note (.send call)).note (.sendInLoop call)) :=
        .of_eq h.valid rfl (by simp [note, written])
      exact hnote.trans (flows_sendInLoop h.valid hlen hr hok)
    · obtain rfl := Except.ok.inj hok
      exact .of_eq h.valid rfl rfl
  | shutdown => exact flows_callStep h (show callStep c .shutdown = some c' from hstep)
  | handleWrite r => exact flows_callStep h (show callStep c (.handleWrite r) = some c' from hstep)
  | other op channel =>
    exact flows_callStep h (show callStep c (.other op channel) = some c' from hstep)

/-! ## Fair runs -/

/-- In this step of a path the kernel accepts something, or nothing is waiting. -/
def Serves (c c' : TcpConnection C T) : Prop :=
  c.isWriting = false ∨ (written c.log).length < (written c'.log).length

/-- A write event whose `write` accepts a byte serves the connection. -/
theorem serves_handleWrite {c : TcpConnection C T} {r : WriteResult} (h : Backlogged c)
    (hpos : 1 ≤ r.ret) : Serves c (c.handleWrite r) := by
  by_cases hw : c.isWriting = true
  · have hbytes := h.waits.2 hw
    have hgrow := congrArg List.length (written_handleWrite (r := r) h hw)
    rw [List.length_append, List.length_take, h.valid.length_readable] at hgrow
    exact .inr (by omega)
  · exact .inl (by simpa using hw)

omit [DecidableEq C] in
/-- **Everything in the stream is written**, when the connection is served again and again. -/
theorem eventually_written {σ α : Type*} {step : σ → α → Option σ} (conn : σ → TcpConnection C T)
    (p : Path step) (hback : ∀ n, Backlogged (conn (p.state n)))
    (hflow : ∀ n, Flows (conn (p.state n)) (conn (p.state (n + 1))))
    (hfair : ∀ n, ∃ m, n ≤ m ∧ Serves (conn (p.state m)) (conn (p.state (m + 1)))) :
    ∃ m, (conn (p.state 0)).stream <+: written (conn (p.state m)).log := by
  have hstream : ∀ n, (conn (p.state 0)).stream <+: (conn (p.state n)).stream := fun n => by
    induction n with
    | zero => exact List.prefix_refl _
    | succ n ih => exact ih.trans (hflow n).stream
  -- The rank is the number of bytes that are still to be written.
  obtain ⟨m, hm⟩ := p.eventually
    (fun s => (conn (p.state 0)).stream.length ≤ (written (conn s).log).length)
    (fun s => (conn (p.state 0)).stream.length - (written (conn s).log).length)
    (fun n => Nat.sub_le_sub_left (hflow n).written.length_le _) fun n => by
      obtain ⟨m, hnm, hidle | hgrow⟩ := hfair n
      · refine ⟨m, hnm, .inl ?_⟩
        rw [← stream_eq_written (hback m).valid ((hback m).isWriting_false_iff.1 hidle)]
        exact (hstream m).length_le
      · refine ⟨m, hnm, ?_⟩
        by_cases hdone :
            (conn (p.state 0)).stream.length ≤ (written (conn (p.state m)).log).length
        · exact .inl hdone
        · exact .inr (by omega)
  exact ⟨m, List.prefix_of_prefix_length_le (hstream m) (List.prefix_append _ _) hm⟩

/-- **What is buffered is written.** Take any run of an established connection up to its end, with
sends, half-closes and answers of the kernel of any kind, and any infinite run from there in which
the connection never waits for good: again and again it has no write interest, or a write event
writes a byte. Then the kernel accepts all bytes that have been accepted or buffered so far. -/
theorem buffered_eventually_written (sys : LoopSystem LoopFunctor C T) (channel : C)
    (server : ServerEntry) (writeComplete highWater : Bool) (hs : sys.loop.poller.Sound)
    (hnew : Stage.fresh.Entry (sys.loop.poller.channel channel)) (calls : List (OutputCall C))
    (p : Path (callStep : TcpConnection C T → _))
    (h : run callStep (established sys channel server writeComplete highWater) calls =
      some (p.state 0))
    (hfair : ∀ n, ∃ m, n ≤ m ∧ ((p.state m).isWriting = false ∨
      ∃ r : WriteResult, p.action m = .handleWrite r ∧ 1 ≤ r.ret)) :
    ∃ m, written (p.state 0).log ++ (p.state 0).outputBuffer.readable <+:
      written (p.state m).log := by
  have h₀ : Backlogged (p.state 0) := run_invariant Backlogged (fun _ _ _ hb => hb.step)
    (backlogged_established hs hnew server writeComplete highWater) h
  have hback := p.always Backlogged (fun _ _ _ hb => hb.step) h₀
  refine eventually_written id p hback (fun n => flows_callStep (hback n) (p.next n)) fun n => ?_
  obtain ⟨m, hnm, hidle | ⟨r, hact, hpos⟩⟩ := hfair n
  · exact ⟨m, hnm, .inl hidle⟩
  · have hnext := p.next m
    rw [hact] at hnext
    simp only [callStep, Option.ite_none_right_eq_some, Option.some.injEq] at hnext
    refine ⟨m, hnm, ?_⟩
    show Serves (p.state m) (p.state (m + 1))
    rw [← hnext.2]
    exact serves_handleWrite (hback m) hpos

/-- A write event for one byte, where one is buffered. -/
def oneByte (c : TcpConnection C T) : WriteResult :=
  ⟨if 0 < c.outputBuffer.readableBytes then 1 else 0, 0⟩

omit [DecidableEq C] in
theorem bounded_oneByte (c : TcpConnection C T) :
    c.oneByte.Bounded c.outputBuffer.readableBytes := by
  unfold oneByte WriteResult.Bounded
  split
  · constructor <;> dsimp only <;> omega
  · constructor <;> dsimp only <;> omega

/-- The connection is left to the kernel, which takes byte after byte. -/
def dripping (c : TcpConnection C T) : Path (callStep : TcpConnection C T → _) :=
  .follow (fun c => .handleWrite c.oneByte) (fun _ => True)
    (fun c _ => ⟨c.handleWrite c.oneByte, if_pos c.bounded_oneByte, trivial⟩) c trivial

omit [DecidableEq C] in
theorem one_le_oneByte {c : TcpConnection C T} (h : Backlogged c) (hw : c.isWriting = true) :
    1 ≤ c.oneByte.ret := by
  rw [oneByte, if_pos (h.waits.2 hw)]

/-- Three bytes are buffered behind one that has been written, and the connection is shut down. -/
def shutWithBacklog : List (OutputCall Bool) :=
  [.sendInLoop sampleMemory 0 4 0 ⟨1, 0⟩, .shutdown]

theorem written_shutWithBacklog :
    ∃ c : TcpConnection Bool Unit, run callStep sample shutWithBacklog = some c ∧
      c.outputBuffer.readable = [1, 2, 3] ∧
      ∃ m, written c.log ++ c.outputBuffer.readable <+: written ((dripping c).state m).log := by
  obtain ⟨c, hc, hbuf⟩ := Option.map_eq_some_iff.1
    (show (run callStep sample shutWithBacklog).map (fun c => c.outputBuffer.readable) =
      some [1, 2, 3] by decide +kernel)
  have hback := (dripping c).always Backlogged (fun _ _ _ hb => hb.step)
    (run_invariant Backlogged (fun _ _ _ hb => hb.step)
      (backlogged_established sound_sampleLoop ⟨rfl, rfl⟩ _ _ _) hc)
  refine ⟨c, hc, hbuf, buffered_eventually_written sampleLoop true ⟨false, true, true, 0⟩ false
    false sound_sampleLoop ⟨rfl, rfl⟩ shutWithBacklog (dripping c) hc fun n => ⟨n, le_rfl, ?_⟩⟩
  by_cases hw : ((dripping c).state n).isWriting = true
  · exact .inr ⟨_, rfl, one_le_oneByte (hback n) hw⟩
  · exact .inl (by simpa using hw)

/-! ## The half-close -/

omit [DecidableEq C] in
theorem stream_length_of_written {c : TcpConnection C T} (hv : c.outputBuffer.Valid)
    (h : c.stream.length ≤ (written c.log).length) : c.outputBuffer.readableBytes = 0 := by
  rw [stream, List.length_append, hv.length_readable] at h
  omega

/-- A connection that is down takes nothing more into its stream. -/
theorem stream_of_down {c c' : TcpConnection C T} {call : LocalCall C} (h : Backlogged c)
    (hdown : c.state = .kDisconnected) (hstep : localStep c call = some c') :
    c'.stream = c.stream := by
  cases call with
  | send mem data call nwrote r =>
    simp only [localStep, Option.ite_none_right_eq_some, toOption_eq_some] at hstep
    have hok := hstep.2
    rw [send, if_neg (by simp [hdown])] at hok
    obtain rfl := Except.ok.inj hok
    rfl
  | shutdown =>
    obtain rfl := Option.some.inj hstep
    rw [shutdown, if_neg (by simp [hdown])]
  | handleWrite r =>
    simp only [localStep, Option.ite_none_right_eq_some, Option.some.injEq] at hstep
    obtain ⟨-, rfl⟩ := hstep
    rw [(handleWrite_spec h.valid).stream_eq, List.append_nil]
  | other op channel =>
    simp only [localStep, Option.ite_none_right_eq_some, Option.some.injEq] at hstep
    obtain ⟨-, rfl⟩ := hstep
    rfl

/-- **The half-close comes.** Take any run of an established connection on its loop thread that has
stored `kDisconnected`, and any infinite run from there in which every wait for write events ends
with a byte written. Then the socket is half-closed, once, with everything written. -/
theorem half_close_eventually (sys : LoopSystem LoopFunctor C T) (channel : C)
    (server : ServerEntry) (writeComplete highWater : Bool) (hs : sys.loop.poller.Sound)
    (hnew : Stage.fresh.Entry (sys.loop.poller.channel channel)) (calls : List (LocalCall C))
    (p : Path (localStep : TcpConnection C T → _))
    (h : run localStep (established sys channel server writeComplete highWater) calls =
      some (p.state 0))
    (hdown : (p.state 0).state = .kDisconnected)
    (hfair : ∀ n, ∃ m, n ≤ m ∧ ((p.state m).isWriting = false ∨
      ∃ r : WriteResult, p.action m = .handleWrite r ∧ 1 ≤ r.ret)) :
    ∃ m, ∀ k, m ≤ k → (p.state k).log.count .shutdownWrite = 1 ∧
      written (p.state k).log = (p.state 0).stream := by
  have h₀ : Deferred (p.state 0) := run_invariant Deferred (fun _ _ _ hd => hd.step)
    (deferred_established hs hnew server writeComplete highWater) h
  have hinv := p.always (fun c => Deferred c ∧ c.state = .kDisconnected ∧
      c.stream = (p.state 0).stream) (fun _ _ _ ⟨hd, hst, hstream⟩ hstep => ⟨hd.step hstep,
        (halfClose_step hd.backlogged hstep).2.down hst,
        (stream_of_down hd.backlogged hst hstep).trans hstream⟩) ⟨h₀, hdown, rfl⟩
  have hback : ∀ n, Backlogged (p.state n) := fun n => (hinv n).1.backlogged
  have hflow : ∀ n, Flows (p.state n) (p.state (n + 1)) := fun n =>
    flows_localStep (hback n) (p.next n)
  obtain ⟨m, hm⟩ := eventually_written id p hback hflow fun n => by
    obtain ⟨m, hnm, hidle | ⟨r, hact, hpos⟩⟩ := hfair n
    · exact ⟨m, hnm, .inl hidle⟩
    · have hnext := p.next m
      rw [hact] at hnext
      simp only [localStep, Option.ite_none_right_eq_some, Option.some.injEq] at hnext
      refine ⟨m, hnm, ?_⟩
      show Serves (p.state m) (p.state (m + 1))
      rw [← hnext.2]
      exact serves_handleWrite (hback m) hpos
  -- The buffer is empty from then on.
  have hwritten : ∀ k, m ≤ k → (p.state 0).stream.length ≤ (written (p.state k).log).length := by
    intro k hk
    induction k, hk using Nat.le_induction with
    | base => exact hm.length_le
    | succ k _ ih => exact ih.trans (hflow k).written.length_le
  refine ⟨m, fun k hk => ?_⟩
  obtain ⟨hd, hst, hstream⟩ := hinv k
  have hempty : (p.state k).outputBuffer.readableBytes = 0 :=
    stream_length_of_written (hback k).valid (by rw [hstream]; exact hwritten k hk)
  refine ⟨?_, ?_⟩
  · rw [hd.count_eq]
    exact if_pos ⟨hst, hempty⟩
  · rw [← stream_eq_written (hback k).valid hempty, hstream]

/-- The same on the loop thread. -/
def localDripping (c : TcpConnection C T) : Path (localStep : TcpConnection C T → _) :=
  .follow (fun c => .handleWrite c.oneByte) (fun _ => True)
    (fun c _ => ⟨c.handleWrite c.oneByte, if_pos c.bounded_oneByte, trivial⟩) c trivial

/-- Two bytes are left of three when the connection is shut down. -/
def shutEarly : List (LocalCall Bool) :=
  [.send sampleMemory 0 ⟨0, [0, 1, 2]⟩ 0 ⟨1, 0⟩, .shutdown]

theorem half_close_shutEarly :
    ∃ c : TcpConnection Bool Unit, run localStep sample shutEarly = some c ∧
      c.log.count .shutdownWrite = 0 ∧
      ∃ m, ∀ k, m ≤ k → ((localDripping c).state k).log.count .shutdownWrite = 1 ∧
        written ((localDripping c).state k).log = c.stream := by
  obtain ⟨c, hc, hnow⟩ := Option.map_eq_some_iff.1
    (show (run localStep sample shutEarly).map (fun c => (c.state, c.log.count .shutdownWrite)) =
      some (.kDisconnected, 0) by decide +kernel)
  simp only [Prod.mk.injEq] at hnow
  have hback := (localDripping c).always Deferred (fun _ _ _ hd => hd.step)
    (run_invariant Deferred (fun _ _ _ hd => hd.step)
      (deferred_established sound_sampleLoop ⟨rfl, rfl⟩ _ _ _) hc)
  refine ⟨c, hc, hnow.2, half_close_eventually sampleLoop true ⟨false, true, true, 0⟩ false false
    sound_sampleLoop ⟨rfl, rfl⟩ shutEarly (localDripping c) hc hnow.1 fun n => ⟨n, le_rfl, ?_⟩⟩
  by_cases hw : ((localDripping c).state n).isWriting = true
  · exact .inr ⟨_, rfl, one_le_oneByte (hback n).backlogged hw⟩
  · exact .inl (by simpa using hw)

end TcpConnection

end WebCore
