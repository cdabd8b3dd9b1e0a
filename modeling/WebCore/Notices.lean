import WebCore.Backlog

/-!
# Notices to the user

`sendInLoop` and `handleWrite` queue two callbacks of the user: the write-complete callback when the
last byte has left, and the high-water callback when the backlog crosses its mark. Both are decided
by sizes that are computed before the buffer has changed.

`Notifies call c c'` says what a step queues in terms of the buffers before and after it, whatever
the kernel has answered (`notifies_step`).

**Theorem (`high_water_exact`).** The high-water callback is queued in exactly the steps that take
the backlog from below the mark to the mark or above it, with the size of the backlog after the
step.

**Theorem (`write_complete_exact`).** The write-complete callback is queued in exactly the steps in
which `write` accepts a byte and after which nothing is left to send, once in each.
-/

namespace WebCore

open Transition

namespace TcpConnection

variable {C T : Type*}

/-! ## What a step queues -/

/-- The functors that wait in the queue of the connection's loop. -/
def pending (c : TcpConnection C T) : List LoopFunctor := c.sys.loop.pendingFunctors

/-- What the user has set. -/
def settings (c : TcpConnection C T) : Nat × Bool × Bool :=
  (c.highWaterMask, c.writeCompleteCallback, c.highWaterMarkCallback)

/-- The bytes that `write` has accepted from `c` to `c'`. -/
def accepted (c c' : TcpConnection C T) : Nat :=
  (written c'.log).length - (written c.log).length

/-- The bytes that a call is to send. -/
def OutputCall.payload : OutputCall C → Nat
  | .sendInLoop _ _ len _ _ => len
  | _ => 0

/-- `write` has accepted a byte, and nothing is left unsent: the buffer is empty, and there is no
rest of the payload. -/
def Completes (call : OutputCall C) (c c' : TcpConnection C T) : Prop :=
  0 < accepted c c' ∧ c'.outputBuffer.readableBytes = 0 ∧ call.payload ≤ accepted c c'

/-- The backlog goes from below the mark to the mark or above it. -/
def Crosses (c c' : TcpConnection C T) : Prop :=
  c.outputBuffer.readableBytes < c.highWaterMask ∧
    c.highWaterMask ≤ c'.outputBuffer.readableBytes

instance (call : OutputCall C) (c c' : TcpConnection C T) : Decidable (Completes call c c') := by
  unfold Completes; infer_instance

instance (c c' : TcpConnection C T) : Decidable (Crosses c c') := by
  unfold Crosses; infer_instance

/-- The notice of a crossing. -/
def crossing (c c' : TcpConnection C T) : List LoopFunctor :=
  if c.highWaterMarkCallback = true ∧ Crosses c c' then
    [.highWaterMark c'.outputBuffer.readableBytes]
  else []

/-- The notice that nothing is left. -/
def completion (call : OutputCall C) (c c' : TcpConnection C T) : List LoopFunctor :=
  if c.writeCompleteCallback = true ∧ Completes call c c' then [.writeComplete] else []

/-- The step queues the notices that its buffers call for, and nothing else. -/
structure Notifies (call : OutputCall C) (c c' : TcpConnection C T) : Prop where
  valid : c'.outputBuffer.Valid
  settings_eq : c'.settings = c.settings
  pending_eq : c'.pending = c.pending ++ completion call c c' ++ crossing c c'

theorem pending_notifyWriteComplete (c : TcpConnection C T) :
    c.notifyWriteComplete.pending =
      c.pending ++ if c.writeCompleteCallback = true then [.writeComplete] else [] := by
  unfold pending notifyWriteComplete
  dsimp only
  split
  · exact (LoopSystem.frame_queueInLLoop _ _).pendingFunctors
  · exact (List.append_nil _).symm

theorem pending_notifyHighWater (n : Nat) (c : TcpConnection C T) :
    (c.notifyHighWater n).pending = c.pending ++
      if toSize (c.outputBuffer.readableBytes + n) ≥ c.highWaterMask ∧
        c.outputBuffer.readableBytes < c.highWaterMask ∧ c.highWaterMarkCallback = true
      then [.highWaterMark (toSize (c.outputBuffer.readableBytes + n))] else [] := by
  unfold pending notifyHighWater
  dsimp only
  split
  · exact (LoopSystem.frame_queueInLLoop _ _).pendingFunctors
  · exact (List.append_nil _).symm

/-- A backlog that does not grow crosses no mark. -/
theorem crossing_eq_nil {c c' : TcpConnection C T}
    (h : c'.outputBuffer.readableBytes ≤ c.outputBuffer.readableBytes) : crossing c c' = [] :=
  if_neg fun hx => by
    have := hx.2.1
    have := hx.2.2
    omega

theorem completion_eq_nil {call : OutputCall C} {c c' : TcpConnection C T}
    (h : ¬ Completes call c c') : completion call c c' = [] :=
  if_neg fun hx => h hx.2

/-- A step that queues nothing, on a backlog that does not grow and is not finished. -/
theorem Notifies.of_le {call : OutputCall C} {c c' : TcpConnection C T}
    (hv : c'.outputBuffer.Valid) (hs : c'.settings = c.settings) (hp : c'.pending = c.pending)
    (hle : c'.outputBuffer.readableBytes ≤ c.outputBuffer.readableBytes)
    (hnot : ¬ Completes call c c') : Notifies call c c' := by
  refine ⟨hv, hs, ?_⟩
  rw [crossing_eq_nil hle, completion_eq_nil hnot, List.append_nil, List.append_nil, hp]

/-- A step that changes neither the queue, nor what is buffered, nor what is written. -/
theorem Notifies.of_eq {call : OutputCall C} {c c' : TcpConnection C T}
    (hv : c'.outputBuffer.Valid) (hs : c'.settings = c.settings) (hp : c'.pending = c.pending)
    (hb : c'.outputBuffer = c.outputBuffer) (hw : written c'.log = written c.log) :
    Notifies call c c' :=
  .of_le hv hs hp (by rw [hb]) fun hx => by simp [accepted, hw, Completes] at hx

/-- A send whose direct `write` has accepted `n` bytes of the payload. -/
theorem accepted_of_write {c c' : TcpConnection C T} {mem : Memory} {data : Int} {n len : Nat}
    (hn : n ≤ len)
    (hw : written c'.log = written (c.note (.write ((readBytes mem data len).take n))).log) :
    accepted c c' = n := by
  simp [accepted, hw, note, take_readBytes mem data hn]

variable [DecidableEq C]

theorem pending_requestWrite (c : TcpConnection C T) : c.requestWrite.pending = c.pending := by
  unfold pending requestWrite
  dsimp only
  split <;> rfl

/-- **The end of a send** grows the backlog by what is left, and tells of a crossing. -/
theorem bufferRest_notifies {c c' : TcpConnection C T} {mem : Memory} {rest : Int} {n : Nat}
    (hv : c.outputBuffer.Valid) (hn : n ≤ maxSize + 1) (hok : c.bufferRest mem rest n = .ok c') :
    c'.outputBuffer.Valid ∧ c'.settings = c.settings ∧ written c'.log = written c.log ∧
      c'.outputBuffer.readableBytes = c.outputBuffer.readableBytes + n ∧
      c'.pending = c.pending ++ crossing c c' := by
  rcases Nat.eq_zero_or_pos n with rfl | hpos
  · obtain rfl := Except.ok.inj ((bufferRest_zero mem rest c).symm.trans hok)
    exact ⟨hv, rfl, rfl, rfl, by rw [crossing_eq_nil le_rfl, List.append_nil]⟩
  · obtain ⟨hv', -, hread⟩ := bufferRest_readable hv hn hpos hok
    have hsize : c'.outputBuffer.readableBytes = c.outputBuffer.readableBytes + n := by
      rw [← hv'.length_readable, hread, List.length_append, hv.length_readable, length_readBytes]
    have hsum : toSize (c.outputBuffer.readableBytes + n) = c.outputBuffer.readableBytes + n := by
      have := hv.size_lt
      have := hv.writer_le
      have := hv.readableBytes_eq
      unfold maxSize at hn
      exact toSize_add (by omega)
    rcases bufferRest_inv hok with ⟨hzero, -⟩ | ⟨b, hb, rfl⟩
    · omega
    · refine ⟨hv', rfl, ?_, hsize, ?_⟩
      · simp [requestWrite, note, setOutput, notifyHighWater, written]
      rw [pending_requestWrite]
      refine (pending_notifyHighWater n c).trans ?_
      rw [hsum, crossing, hsize]
      congr 1
      refine if_congr ?_ rfl rfl
      unfold Crosses
      rw [hsize]
      tauto

/-- **A send queues the notices that its buffers call for**, whatever its direct `write` returns. -/
theorem sendInLoop_notifies {c c' : TcpConnection C T} {mem : Memory} {data : Int} {len : Nat}
    {nwrote : Int} {r : WriteResult} (hv : c.outputBuffer.Valid) (hlen : len ≤ maxSize)
    (hr : r.Bounded len) (hok : c.sendInLoop mem data len nwrote r = .ok c') :
    Notifies (.sendInLoop mem data len nwrote r) c c' := by
  obtain ⟨hlow, hhigh⟩ := hr
  -- A send that leaves bytes over, or has accepted none, completes nothing.
  have hrest : ∀ (c₁ : TcpConnection C T) (rest : Int) (n : Nat),
      c₁.bufferRest mem rest n = .ok c' → c₁.outputBuffer = c.outputBuffer →
      c₁.settings = c.settings → c₁.pending = c.pending → n ≤ maxSize + 1 →
      (0 < n ∨ accepted c c₁ = 0) → Notifies (.sendInLoop mem data len nwrote r) c c' := by
    intro c₁ rest n hok hb hs hp hn hleft
    obtain ⟨hv', hs', hw, hsize, hp'⟩ := bufferRest_notifies (by rw [hb]; exact hv) hn hok
    refine ⟨hv', hs'.trans hs, ?_⟩
    rw [completion_eq_nil, List.append_nil, hp', hp]
    · simp only [settings, Prod.mk.injEq] at hs
      congr 1
      refine if_congr ?_ rfl rfl
      rw [Crosses, Crosses, hb, hs.1, hs.2.2]
    · rintro ⟨hacc, hempty, -⟩
      rcases hleft with hpos | hnone
      · omega
      · rw [accepted, hw] at hacc
        rw [accepted] at hnone
        omega
  unfold sendInLoop at hok
  by_cases hd : c.writesDirectly
  · rw [if_pos hd] at hok
    dsimp only at hok
    split at hok
    · rename_i hret
      split at hok
      · -- `write` has accepted the whole payload.
        rename_i hzero
        have hall : r.ret = len := by unfold toSize maxSize at *; omega
        rw [hzero, bufferRest_zero] at hok
        obtain rfl := Except.ok.inj hok
        have hacc : accepted c (notifyWriteComplete
            (c.note (.write ((readBytes mem data len).take r.ret.toNat)))) = len :=
          accepted_of_write le_rfl (by rw [hall]; rfl)
        refine ⟨hv, rfl, ?_⟩
        rw [crossing_eq_nil (by exact le_rfl), List.append_nil, pending_notifyWriteComplete]
        congr 1
        refine if_congr ?_ rfl rfl
        have hcomplete : Completes (.sendInLoop mem data len nwrote r) c (notifyWriteComplete
            (c.note (.write ((readBytes mem data len).take r.ret.toNat)))) :=
          ⟨by rw [hacc]; omega, hd.2, hacc.ge⟩
        exact (and_iff_left hcomplete).symm
      · rename_i hmore
        refine hrest _ _ _ hok rfl rfl rfl ?_ (.inl (Nat.pos_of_ne_zero hmore))
        unfold toSize maxSize at *
        omega
    · rename_i hret
      have hret : r.ret = 0 := not_not.1 hret
      have hacc : accepted c (c.note (.write ((readBytes mem data len).take r.ret.toNat))) = 0 := by
        simp [accepted, hret, note]
      split at hok
      · obtain rfl := Except.ok.inj hok
        exact .of_eq hv rfl rfl rfl (by simp [hret, note])
      · exact hrest _ _ _ hok rfl rfl rfl (by omega) (.inr hacc)
  · rw [if_neg hd] at hok
    exact hrest c _ _ hok rfl rfl rfl (by omega) (.inr (by simp [accepted]))

theorem writeFinished_notifies (c : TcpConnection C T) :
    c.writeFinished.settings = c.settings ∧ c.writeFinished.pending =
      c.pending ++ if c.writeCompleteCallback = true then [.writeComplete] else [] := by
  have hp : (c.channelOp .disableWriting).notifyWriteComplete.pending =
      c.pending ++ if c.writeCompleteCallback = true then [.writeComplete] else [] :=
    pending_notifyWriteComplete _
  unfold writeFinished
  dsimp only
  split
  · exact ⟨rfl, hp⟩
  · exact ⟨rfl, hp⟩

/-- The last byte has been written. -/
theorem drained_notifies {c c₁ : TcpConnection C T} {r : WriteResult}
    (hv : c₁.outputBuffer.Valid) (hs : c₁.settings = c.settings) (hp : c₁.pending = c.pending)
    (hacc : 0 < accepted c c₁) (hempty : c₁.outputBuffer.readableBytes = 0) :
    Notifies (.handleWrite r) c c₁.writeFinished := by
  obtain ⟨hb, hw⟩ := writeFinished_output c₁
  obtain ⟨hs', hp'⟩ := writeFinished_notifies c₁
  refine ⟨hb ▸ hv, hs'.trans hs, ?_⟩
  rw [crossing_eq_nil (by rw [hb, hempty]; exact Nat.zero_le _), List.append_nil, hp', hp]
  simp only [settings, Prod.mk.injEq] at hs
  congr 1
  refine if_congr ?_ rfl rfl
  rw [hs.2.1]
  refine (and_iff_left ⟨?_, by rw [hb]; exact hempty, Nat.zero_le _⟩).symm
  rwa [accepted, hw]

/-- **A write event queues the notices that its buffers call for.** -/
theorem handleWrite_notifies {c : TcpConnection C T} {r : WriteResult}
    (hv : c.outputBuffer.Valid) (hr : r.Bounded c.outputBuffer.readableBytes) :
    Notifies (.handleWrite r) c (c.handleWrite r) := by
  obtain ⟨hlow, hhigh⟩ := hr
  obtain ⟨hv', hread, -⟩ := Buffer.retrieve_spec r.ret.toNat hv
  have hsize : (c.outputBuffer.retrieve r.ret.toNat).readableBytes ≤
      c.outputBuffer.readableBytes := by
    rw [← hv'.length_readable, hread, List.length_drop, hv.length_readable]
    omega
  have hacc : ((c.outputBuffer.peek c.outputBuffer.readableBytes).take r.ret.toNat).length =
      r.ret.toNat := by
    rw [List.length_take, Buffer.peek_readableBytes hv, hv.length_readable]
    omega
  unfold handleWrite
  split
  · dsimp only
    split
    · rename_i hpos
      split
      · rename_i hempty
        refine drained_notifies hv' rfl rfl ?_ hempty
        rw [accepted]
        simp only [setOutput, note, written_append, written_write, List.length_append, hacc]
        omega
      · rename_i hmore
        exact .of_le hv' rfl rfl hsize fun hx => hmore hx.2.1
    · rename_i hpos
      have hret : r.ret.toNat = 0 := by omega
      exact .of_eq hv rfl rfl rfl (by simp [handleError, note, hret])
  · exact .of_eq hv rfl rfl rfl rfl

/-- **A step queues the notices that its buffers call for**, and nothing else. -/
theorem notifies_step {c c' : TcpConnection C T} {call : OutputCall C}
    (hv : c.outputBuffer.Valid) (hstep : callStep c call = some c') : Notifies call c c' := by
  cases call with
  | sendInLoop mem data len nwrote r =>
    simp only [callStep, Option.ite_none_right_eq_some, toOption_eq_some] at hstep
    exact sendInLoop_notifies hv hstep.1.1 hstep.1.2 hstep.2
  | handleWrite r =>
    simp only [callStep, Option.ite_none_right_eq_some, Option.some.injEq] at hstep
    obtain ⟨hr, rfl⟩ := hstep
    exact handleWrite_notifies hv hr
  | shutdown =>
    obtain rfl := Option.some.inj hstep
    unfold shutdown
    split
    · exact .of_eq hv rfl rfl rfl (written_shutdownInLoop _)
    · exact .of_eq hv rfl rfl rfl rfl
  | shutdownInLoop =>
    obtain rfl := Option.some.inj hstep
    exact .of_eq hv rfl rfl rfl (written_shutdownInLoop c)
  | shutdownSet =>
    obtain rfl := Option.some.inj hstep
    exact .of_eq hv rfl rfl rfl rfl
  | other op channel =>
    simp only [callStep, Option.ite_none_right_eq_some, Option.some.injEq] at hstep
    obtain ⟨-, rfl⟩ := hstep
    exact .of_eq hv rfl rfl rfl rfl

/-! ## Runs -/

/-- A connection after `connectEstablished`, with `mark` for its high-water mark. -/
def establishedAt (mark : Nat) (sys : LoopSystem LoopFunctor C T) (channel : C)
    (server : ServerEntry) (writeComplete highWater : Bool) : TcpConnection C T :=
  { established sys channel server writeComplete highWater with highWaterMask := mark }

/-- The write-complete callbacks that wait in the queue. -/
def writeCompletes (c : TcpConnection C T) : Nat := c.pending.count .writeComplete

variable {sys : LoopSystem LoopFunctor C T} {channel : C} {server : ServerEntry} {mark : Nat}
  {writeComplete highWater : Bool}

theorem settings_run {calls : List (OutputCall C)} {c : TcpConnection C T}
    (h : run callStep (establishedAt mark sys channel server writeComplete highWater) calls =
      some c) :
    c.outputBuffer.Valid ∧ c.settings = (mark, writeComplete, highWater) := by
  refine run_invariant (fun c : TcpConnection C T =>
    c.outputBuffer.Valid ∧ c.settings = (mark, writeComplete, highWater)) ?_
    ⟨valid_initial, rfl⟩ h
  rintro c call c' ⟨hv, hs⟩ hstep
  have hn := notifies_step hv hstep
  exact ⟨hn.valid, hn.settings_eq.trans hs⟩

/-- What a step of a run adds to the high-water notices. -/
theorem highWaterMarks_step {calls : List (OutputCall C)} {c c' : TcpConnection C T}
    {call : OutputCall C}
    (h : run callStep (establishedAt mark sys channel server writeComplete true) calls = some c)
    (hstep : callStep c call = some c') :
    c'.highWaterMarks = c.highWaterMarks ++
      if c.outputBuffer.readableBytes < mark ∧ mark ≤ c'.outputBuffer.readableBytes then
        [c'.outputBuffer.readableBytes]
      else [] := by
  obtain ⟨hv, hs⟩ := settings_run h
  simp only [settings, Prod.mk.injEq] at hs
  obtain ⟨rfl, -, hhigh⟩ := hs
  have hp : c'.sys.loop.pendingFunctors = _ := (notifies_step hv hstep).pending_eq
  rw [highWaterMarks, hp, List.filterMap_append, List.filterMap_append, List.append_assoc]
  congr 1
  unfold completion crossing Crosses
  rw [hhigh]
  simp only [true_and]
  split <;> split <;> rfl

/-- **High-water notices mark crossings exactly.** For every mark, in every run and whatever the
kernel answers: a step queues a notice iff the backlog goes from below the mark to the mark or
above it, and the notice carries the backlog after the step. So between two notices the backlog is
below the mark. -/
theorem high_water_exact (sys : LoopSystem LoopFunctor C T) (channel : C) (server : ServerEntry)
    (writeComplete : Bool) (mark : Nat) (calls : List (OutputCall C)) (c c₁ : TcpConnection C T)
    (call : OutputCall C)
    (h : run callStep (establishedAt mark sys channel server writeComplete true) calls = some c)
    (hstep : callStep c call = some c₁) :
    (c₁.highWaterMarks = c.highWaterMarks ++
      if c.outputBuffer.readableBytes < mark ∧ mark ≤ c₁.outputBuffer.readableBytes then
        [c₁.outputBuffer.readableBytes]
      else []) ∧
    ∀ mid c₂ next c₃, run callStep c₁ mid = some c₂ → callStep c₂ next = some c₃ →
      c₁.highWaterMarks ≠ c.highWaterMarks → c₃.highWaterMarks ≠ c₂.highWaterMarks →
      ∃ before t, before <+: mid ∧ run callStep c₁ before = some t ∧
        t.outputBuffer.readableBytes < mark := by
  refine ⟨highWaterMarks_step h hstep, fun mid c₂ next c₃ hmid hnext _ hnotice => ?_⟩
  have h₂ : run callStep (establishedAt mark sys channel server writeComplete true)
      (calls ++ call :: mid) = some c₂ :=
    run_append.2 ⟨c, h, run_cons.2 ⟨c₁, hstep, hmid⟩⟩
  refine ⟨mid, c₂, List.prefix_rfl, hmid, ?_⟩
  by_contra hhigh
  rw [highWaterMarks_step h₂ hnext, if_neg fun hx => hhigh hx.1, List.append_nil] at hnotice
  exact hnotice rfl

/-- **Write-complete notices are exact.** In every run and whatever the kernel answers, a step
queues one notice iff `write` accepts a byte in it and nothing is left unsent after it, and no
notice otherwise. -/
theorem write_complete_exact (sys : LoopSystem LoopFunctor C T) (channel : C)
    (server : ServerEntry) (highWater : Bool) (mark : Nat) (calls : List (OutputCall C))
    (c c' : TcpConnection C T) (call : OutputCall C)
    (h : run callStep (establishedAt mark sys channel server true highWater) calls = some c)
    (hstep : callStep c call = some c') :
    c'.writeCompletes = c.writeCompletes +
      if 0 < accepted c c' ∧ c'.outputBuffer.readableBytes = 0 ∧ call.payload ≤ accepted c c'
      then 1 else 0 := by
  obtain ⟨hv, hs⟩ := settings_run h
  simp only [settings, Prod.mk.injEq] at hs
  have hcrossing : (crossing c c').count .writeComplete = 0 := by
    unfold crossing
    split <;> rfl
  rw [writeCompletes, (notifies_step hv hstep).pending_eq, List.count_append, List.count_append,
    hcrossing, Nat.add_zero, writeCompletes]
  congr 1
  rw [completion, hs.2.1]
  simp only [true_and, Completes]
  split <;> rfl

/-! ## A backlog that rises twice -/

/-- The connection of `sample`, with three bytes for its mark. -/
def marked : TcpConnection Bool Unit :=
  establishedAt 3 sampleLoop true ⟨false, true, true, 0⟩ true true

/-- Three bytes are left of four, two more are written, and three come behind the last. -/
def risen : List (OutputCall Bool) :=
  [.sendInLoop sampleMemory 0 4 0 ⟨1, 0⟩, .handleWrite ⟨2, 0⟩]

/-- The bytes that raise it again. -/
def again : OutputCall Bool := .sendInLoop sampleMemory 4 3 0 ⟨0, 0⟩

theorem high_water_risen :
    ((run callStep marked risen).bind (callStep · again)).isSome ∧
    ∀ c c', run callStep marked risen = some c → callStep c again = some c' →
      c'.highWaterMarks = c.highWaterMarks ++
        if c.outputBuffer.readableBytes < 3 ∧ 3 ≤ c'.outputBuffer.readableBytes then
          [c'.outputBuffer.readableBytes]
        else [] :=
  ⟨by decide +kernel, fun c c' h hstep =>
    (high_water_exact sampleLoop true ⟨false, true, true, 0⟩ true 3 risen c c' again h hstep).1⟩

/-- The last byte of the backlog. -/
def last : OutputCall Bool := .handleWrite ⟨1, 0⟩

theorem write_complete_risen :
    ((run callStep marked risen).bind (callStep · last)).isSome ∧
    ∀ c c', run callStep marked risen = some c → callStep c last = some c' →
      c'.writeCompletes = c.writeCompletes +
        if 0 < accepted c c' ∧ c'.outputBuffer.readableBytes = 0 ∧
          last.payload ≤ accepted c c' then 1 else 0 :=
  ⟨by decide +kernel, fun c c' h hstep =>
    write_complete_exact sampleLoop true ⟨false, true, true, 0⟩ true 3 risen c c' last h hstep⟩

end TcpConnection

end WebCore
