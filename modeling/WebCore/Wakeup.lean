import WebCore.FunctorQueue
import WebCore.PollerAgree

/-!
# No lost wakeup

A functor that is pending while the loop thread waits in `poll` was pushed after the last swap. If
another thread pushed it, its wakeup write is still to come, or has come after the last
`handleRead`. If a functor of the batch pushed it, `callingPendingFunctors` was set and the write
was made at once. `Awake` is this invariant, over every position of the loop thread from which it
can reach `poll` without a swap.

**Theorem (`no_lost_wakeup`).** While the loop thread is inside `poll` with a functor pending, the
eventfd is readable and registered for reading, or another thread is about to write to it.
-/

namespace WebCore

namespace LoopSystem

variable {F C T : Type*}

/-! ## The wakeup channel stays registered -/

/-- The wakeup channel is registered for reading, whatever the other channels do. -/
structure Registered (s : LoopSystem F C T) : Prop where
  sound : s.loop.poller.Sound
  events : (s.loop.poller.channel s.loop.wakeupChannel).events = kReadEvent
  index : (s.loop.poller.channel s.loop.wakeupChannel).index = .kAdded

theorem Registered.interest_eq {s : LoopSystem F C T} (h : Registered s) :
    s.loop.poller.interest (s.loop.poller.channel s.loop.wakeupChannel).fd =
      some ⟨kReadEvent, s.loop.wakeupChannel⟩ := by
  rw [(h.sound.agrees _).interest_eq, if_pos h.index, h.events]

variable [DecidableEq C]

theorem registered_new {fd : C → Int} (hfd : Function.Injective fd) (wakeupChannel : C) :
    Registered (new fd wakeupChannel : LoopSystem F C T) where
  sound := (EpollPoller.sound_new hfd).apply .enableReading wakeupChannel
  events := by
    simp [new, EventLoop.new, EpollPoller.enableReading, EpollPoller.updateChannel,
      EpollPoller.setEvents, EpollPoller.setIndex, EpollPoller.setEntry, EpollPoller.new,
      Channel.new]
  index := by
    simp [new, EventLoop.new, EpollPoller.enableReading, EpollPoller.updateChannel,
      EpollPoller.setEvents, EpollPoller.setIndex, EpollPoller.setEntry, EpollPoller.new,
      Channel.new]

variable [DecidableEq T]

/-- `channelOp` changes the registration of one channel, and not of the wakeup channel; `poll`
stores masks; the other steps do not touch the poller. -/
theorem step_poller {s s' : LoopSystem F C T} {a : LoopAction F C T} (h : s.step a = some s') :
    s'.loop.wakeupChannel = s.loop.wakeupChannel ∧
    (s.loop.poller.SameRegistration s'.loop.poller ∨ ∃ op c, c ≠ s.loop.wakeupChannel ∧
      s'.loop.poller = s.loop.poller.apply false op c) := by
  have h := step_inv h
  cases a with
  | channelOp op c =>
    obtain ⟨-, -, hc, rfl⟩ := h
    exact ⟨rfl, .inr ⟨op, c, hc, rfl⟩⟩
  | dispatch | runFunctor =>
    obtain ⟨-, -, _, _, -, rfl⟩ := h
    exact ⟨rfl, .inl (.refl _)⟩
  | pollReturn active =>
    obtain ⟨-, -, -, -, rfl⟩ := h
    exact ⟨rfl, .inl (EpollPoller.fillActiveChannels_sameRegistration active _)⟩
  | startFunctors | endFunctors =>
    obtain ⟨-, -, -, rfl⟩ := h
    exact ⟨rfl, .inl (.refl _)⟩
  | enter | test | swapFunctors | pushOwn | quitOwn =>
    obtain ⟨-, -, rfl⟩ := h
    exact ⟨rfl, .inl (.refl _)⟩
  | push | quit | wakeup | wakeupOwn =>
    obtain ⟨-, rfl⟩ := h
    exact ⟨rfl, .inl (.refl _)⟩

theorem Registered.step {s s' : LoopSystem F C T} {a : LoopAction F C T} (hs : Registered s)
    (h : s.step a = some s') : Registered s' := by
  obtain ⟨hw, hp | ⟨op, c, hc, hp⟩⟩ := step_poller h
  · obtain ⟨r, hr⟩ := hp.channel s.loop.wakeupChannel
    exact ⟨hs.sound.sameRegistration hp, by rw [hw, hr]; exact hs.events,
      by rw [hw, hr]; exact hs.index⟩
  · have hf := (EpollPoller.apply_frame false op c s.loop.poller).channel s.loop.wakeupChannel
      hc.symm
    exact ⟨by rw [hp]; exact hs.sound.apply op c, by rw [hp, hw, hf]; exact hs.events,
      by rw [hp, hw, hf]; exact hs.index⟩

/-! ## The loop thread's own flags -/

/-- `callingPendingFunctors` is set exactly during `doPendingFunctors`, and the loop thread is
inside `queueInLLoop` only from user code. -/
structure Flags (s : LoopSystem F C T) : Prop where
  calling : s.loop.callingPendingFunctors = true ↔ s.loop.pc = .swap ∨ s.loop.pc = .run
  own : s.own = .idle ∨ s.own = .pushed ∧ s.loop.inUserCode = true

omit [DecidableEq T] in
theorem flags_new (fd : C → Int) (wakeupChannel : C) :
    Flags (new fd wakeupChannel : LoopSystem F C T) :=
  ⟨by simp [new, EventLoop.new], .inl rfl⟩

theorem Flags.step {s s' : LoopSystem F C T} {a : LoopAction F C T} (hs : Flags s)
    (h : s.step a = some s') : Flags s' := by
  obtain ⟨hcall, hown⟩ := hs
  have h := step_inv h
  cases a with
  | enter =>
    obtain ⟨hpc, ho, rfl⟩ := h
    exact ⟨by simpa [hpc, EventLoop.enter] using hcall, .inl ho⟩
  | test =>
    obtain ⟨hpc, ho, rfl⟩ := h
    refine ⟨?_, .inl ho⟩
    cases hq : s.loop.quit <;> simpa [hpc, hq] using hcall
  | pollReturn =>
    obtain ⟨hpc, ho, -, -, rfl⟩ := h
    exact ⟨by simpa [hpc, EventLoop.pollReturn] using hcall, .inl ho⟩
  | dispatch =>
    obtain ⟨-, ho, _, _, -, rfl⟩ := h
    exact ⟨hcall, .inl ho⟩
  | startFunctors =>
    obtain ⟨-, ho, -, rfl⟩ := h
    exact ⟨by simp [EventLoop.startFunctors], .inl ho⟩
  | swapFunctors =>
    obtain ⟨hpc, ho, rfl⟩ := h
    exact ⟨by simp [EventLoop.swapFunctors, hcall, hpc], .inl ho⟩
  | runFunctor =>
    obtain ⟨-, ho, _, _, -, rfl⟩ := h
    exact ⟨hcall, .inl ho⟩
  | endFunctors =>
    obtain ⟨-, ho, -, rfl⟩ := h
    exact ⟨by simp [EventLoop.endFunctors], .inl ho⟩
  | push | quit | wakeup =>
    obtain ⟨-, rfl⟩ := h
    exact ⟨hcall, hown⟩
  | pushOwn =>
    obtain ⟨hu, -, rfl⟩ := h
    exact ⟨hcall, .inr ⟨rfl, hu⟩⟩
  | wakeupOwn =>
    obtain ⟨-, rfl⟩ := h
    exact ⟨hcall, .inl rfl⟩
  | quitOwn =>
    obtain ⟨-, -, rfl⟩ := h
    exact ⟨hcall, hown⟩
  | channelOp =>
    obtain ⟨-, -, -, rfl⟩ := h
    exact ⟨hcall, hown⟩

/-! ## The invariant -/

/-- A functor that is pending where the loop thread can reach `poll` without a swap has a wakeup:
it is in the eventfd, or another thread or the loop thread itself is about to write it. -/
def Awake (s : LoopSystem F C T) : Prop :=
  s.loop.pc = .test ∨ s.loop.pc = .poll ∨ s.loop.pc = .run → s.loop.pendingFunctors ≠ [] →
    s.loop.eventfd ≠ 0 ∨ (∃ t, s.caller t = .pushed) ∨ s.loop.pc = .run ∧ s.own = .pushed

omit [DecidableEq C] [DecidableEq T] in
/-- Where `Awake` claims something, user code is a functor of the batch. -/
theorem pc_run_of_inUserCode {s : LoopSystem F C T} (hu : s.loop.inUserCode = true)
    (hpc : s.loop.pc = .test ∨ s.loop.pc = .poll ∨ s.loop.pc = .run) : s.loop.pc = .run := by
  rcases hpc with h | h | h
  · simp [EventLoop.inUserCode, h] at hu
  · simp [EventLoop.inUserCode, h] at hu
  · exact h

omit [DecidableEq C] in
theorem pushed_update {caller : T → CallerPc} {t : T} {pc : CallerPc} (ht : caller t ≠ .pushed)
    (h : ∃ t', caller t' = .pushed) : ∃ t', Function.update caller t pc t' = .pushed := by
  obtain ⟨t', ht'⟩ := h
  have hne : t' ≠ t := fun he => ht (he ▸ ht')
  exact ⟨t', by rw [Function.update_of_ne hne]; exact ht'⟩

/-- **No step loses the wakeup**, once `loop()` has been entered. -/
theorem Awake.step {s s' : LoopSystem F C T} {a : LoopAction F C T} (hf : Flags s)
    (hidle : s.loop.pc ≠ .idle) (hs : Awake s) (h : s.step a = some s') : Awake s' := by
  intro hpc hq
  have h := step_inv h
  cases a with
  | enter => exact absurd h.1 hidle
  | test =>
    obtain ⟨ht, ho, rfl⟩ := h
    rcases hs (.inl ht) hq with h | h | ⟨h, -⟩
    · exact .inl h
    · exact .inr (.inl h)
    · rw [ht] at h; cases h
  | pollReturn =>
    obtain ⟨-, -, -, -, rfl⟩ := h
    simp [EventLoop.pollReturn] at hpc
  | startFunctors =>
    obtain ⟨-, -, -, rfl⟩ := h
    simp [EventLoop.startFunctors] at hpc
  | swapFunctors =>
    obtain ⟨-, -, rfl⟩ := h
    exact absurd rfl hq
  | dispatch =>
    obtain ⟨ht, -, _, _, -, rfl⟩ := h
    simp [ht] at hpc
  | runFunctor =>
    obtain ⟨-, -, _, _, -, rfl⟩ := h
    exact hs hpc hq
  | endFunctors =>
    obtain ⟨ht, ho, -, rfl⟩ := h
    rcases hs (.inr (.inr ht)) hq with h | h | ⟨-, h⟩
    · exact .inl h
    · exact .inr (.inl h)
    · rw [ho] at h; cases h
  | push t f =>
    obtain ⟨-, rfl⟩ := h
    exact .inr (.inl ⟨t, by simp⟩)
  | quit t =>
    obtain ⟨ht, rfl⟩ := h
    rcases hs hpc hq with h | h | h
    · exact .inl h
    · exact .inr (.inl (pushed_update (by simp [ht]) h))
    · exact .inr (.inr h)
  | wakeup t =>
    obtain ⟨-, rfl⟩ := h
    exact .inl (Nat.succ_ne_zero _)
  | pushOwn f =>
    obtain ⟨hu, -, rfl⟩ := h
    exact .inr (.inr ⟨pc_run_of_inUserCode hu hpc, rfl⟩)
  | wakeupOwn =>
    obtain ⟨hown, rfl⟩ := h
    have hu : s.loop.inUserCode = true := by
      rcases hf.own with h | ⟨-, h⟩
      · rw [hown] at h; cases h
      · exact h
    -- In a functor `callingPendingFunctors` is set, so the write is made.
    exact .inl (by simp [hf.calling.2 (.inr (pc_run_of_inUserCode hu hpc))])
  | quitOwn =>
    obtain ⟨-, -, rfl⟩ := h
    exact hs hpc hq
  | channelOp =>
    obtain ⟨-, -, -, rfl⟩ := h
    exact hs hpc hq

/-! ## Runs -/

/-- What holds of a running loop. -/
structure Running (s : LoopSystem F C T) : Prop where
  registered : Registered s
  flags : Flags s
  entered : s.loop.pc ≠ .idle
  awake : Awake s

theorem Running.step {s s' : LoopSystem F C T} {a : LoopAction F C T} (hs : Running s)
    (h : s.step a = some s') : Running s' :=
  ⟨hs.registered.step h, hs.flags.step h, step_pc_ne_idle hs.entered h,
    hs.awake.step hs.flags hs.entered h⟩

/-- `loop()` entered with an empty functor queue. -/
theorem running_enter {s s' : LoopSystem F C T} (hr : Registered s) (hf : Flags s)
    (hempty : s.loop.pendingFunctors = []) (h : s.step .enter = some s') : Running s' := by
  refine ⟨hr.step h, hf.step h, ?_, ?_⟩ <;> obtain ⟨-, -, rfl⟩ := step_inv h
  · simp [EventLoop.enter]
  · exact fun _ hq => absurd hempty hq

/-- **No lost wakeup.** Take a loop that entered `loop()` with an empty functor queue, after
whatever went on before (`before`), and any steps of its threads since (`after`). Whenever its
thread is inside `poll` and a functor is pending, the eventfd is not zero and registered for
reading, or another thread has pushed its functor and not yet written to the eventfd. -/
theorem no_lost_wakeup (fd : C → Int) (hfd : Function.Injective fd) (wakeupChannel : C)
    (before after : List (LoopAction F C T)) (s₀ s : LoopSystem F C T)
    (h₀ : (new fd wakeupChannel).run before = some s₀) (hempty : s₀.loop.pendingFunctors = [])
    (h : s₀.run (.enter :: after) = some s) (hpoll : s.loop.pc = .poll)
    (hq : s.loop.pendingFunctors ≠ []) :
    (s.loop.eventfd ≠ 0 ∧
      s.loop.poller.interest (s.loop.poller.channel s.loop.wakeupChannel).fd =
        some ⟨kReadEvent, s.loop.wakeupChannel⟩) ∨
    ∃ t, s.caller t = .pushed := by
  have hinit : Registered s₀ ∧ Flags s₀ :=
    Transition.run_invariant (fun s => Registered s ∧ Flags s)
      (fun _ _ _ hs h => ⟨hs.1.step h, hs.2.step h⟩)
      ⟨registered_new hfd wakeupChannel, flags_new fd wakeupChannel⟩ h₀
  obtain ⟨s₁, h₁, h⟩ := Transition.run_cons.1 h
  have hs : Running s :=
    Transition.run_invariant Running (fun _ _ _ => Running.step)
      (running_enter hinit.1 hinit.2 hempty h₁) h
  rcases hs.awake (.inr (.inl hpoll)) hq with hfd | ht | ⟨hrun, -⟩
  · exact .inl ⟨hfd, hs.registered.interest_eq⟩
  · exact .inr ht
  · rw [hpoll] at hrun; cases hrun

/-- A functor queues another one, and the loop thread is back in `poll`. -/
theorem wakeup_pushInBatch :
    ∃ s : LoopSystem Bool Unit Unit, (new (fun _ => 3) ()).run (pushInBatch ++ [.test]) = some s ∧
      ((s.loop.eventfd ≠ 0 ∧
        s.loop.poller.interest (s.loop.poller.channel s.loop.wakeupChannel).fd =
          some ⟨kReadEvent, s.loop.wakeupChannel⟩) ∨
      ∃ t, s.caller t = .pushed) := by
  obtain ⟨s, h, hq⟩ := Option.map_eq_some_iff.1
    (show ((new (fun _ => 3) ()).run (pushInBatch ++ [.test])).map
      (fun s => (s.loop.pc, s.loop.pendingFunctors)) = some (.poll, [false]) by decide)
  obtain ⟨hpc, hpend⟩ := Prod.mk.inj hq
  exact ⟨s, h, no_lost_wakeup (fun _ => 3) (fun _ _ _ => rfl) () [] _ _ s rfl rfl h hpc
    (by simp [hpend])⟩

end LoopSystem

end WebCore
