import WebCore.FunctorQueue
import WebCore.LoopThread

/-!
# Progress of the functor queue

What is pending is taken by the next swap, whatever else the threads queue meanwhile, and the batch
is run to its end before the loop polls again. So a functor waits for one batch at most.

**Theorem (`executed_in_next_batch`).** The batch that runs a functor is the one that is swapped out
next after its push.

**Theorem (`queued_eventually_executed`).** In an infinite run in which the loop thread keeps going,
every functor that is queued is executed, unless the loop is left.

The rank of the `i`-th functor queued falls with every step of the loop thread: first the phases up
to the swap, each with the calls that are to be made in it, then the functors of its batch that are
in front of it.
-/

namespace WebCore

open Transition

namespace LoopSystem

variable {F C T : Type*}

/-! ## The next batch -/

theorem prompt_new [DecidableEq C] (fd : C → Int) (wakeupChannel : C) :
    (new fd wakeupChannel : LoopSystem F C T).queue.Prompt :=
  ⟨by simp [queue, new], by simp [queue, new], by simp [queue, new]⟩

section

variable [DecidableEq C] [DecidableEq T]

/-- **A functor is executed in the next batch after its push.** Whatever the threads do, the `i`-th
functor executed is the `i`-th queued, and one swap came between. -/
theorem executed_in_next_batch (fd : C → Int) (wakeupChannel : C) (as : List (LoopAction F C T))
    (s : LoopSystem F C T) (h : (new fd wakeupChannel).run as = some s) (i : Nat) (f : F)
    (batch : Nat) (hi : s.executed[i]? = some (f, batch)) :
    ∃ before, s.queued[i]? = some (f, before) ∧ batch = before + 1 := by
  have hinv : Ordered s ∧ s.queue.Prompt := run_invariant
    (fun s : LoopSystem F C T => Ordered s ∧ s.queue.Prompt)
    (fun _ _ _ hs hstep => ⟨hs.1.step hstep,
      (step_move hs.1.batch_nil hstep).prompt hs.1.exact hs.2⟩)
    ⟨ordered_new fd wakeupChannel, prompt_new fd wakeupChannel⟩ h
  obtain ⟨ho, hp⟩ := hinv
  have hlt : i < s.executed.length := (List.getElem?_eq_some_iff.1 hi).1
  have hf : (s.queued.map Prod.fst)[i]? = some f := by
    rw [← ho.order, List.append_assoc, List.getElem?_append_left (by simpa using hlt),
      List.getElem?_map, hi]
    rfl
  obtain ⟨⟨g, before⟩, hg, rfl⟩ : ∃ x, s.queued[i]? = some x ∧ x.1 = f := by simpa using hf
  exact ⟨before, hg, hp.done i _ _ hi hg⟩

end

/-- Two threads queue functors while the loop runs its first batch. -/
def queuedInBatch : List (LoopAction Bool Unit Bool) :=
  [.enter, .test, .push true true, .wakeup true, .pollReturn [((), EPOLLIN)], .dispatch,
    .startFunctors, .swapFunctors, .push false false, .wakeup false, .push true true]

/-- The rest of that batch, and the next one. -/
def nextBatch : List (LoopAction Bool Unit Bool) :=
  [.runFunctor, .endFunctors, .wakeup true, .test, .pollReturn [], .startFunctors, .swapFunctors,
    .runFunctor, .runFunctor]

theorem executed_nextBatch :
    ∃ s : LoopSystem Bool Unit Bool,
      (new (fun _ => 3) ()).run (queuedInBatch ++ nextBatch) = some s ∧
      s.executed[2]? = some (true, 2) ∧
      ∃ before, s.queued[2]? = some (true, before) ∧ 2 = before + 1 := by
  obtain ⟨s, hs, hdone⟩ := Option.map_eq_some_iff.1
    (show ((new (fun _ => 3) () : LoopSystem Bool Unit Bool).run (queuedInBatch ++ nextBatch)).map
      (fun s => s.executed[2]?) = some (some (true, 2)) by decide)
  exact ⟨s, hs, hdone, executed_in_next_batch (fun _ => 3) () _ s hs 2 true 2 hdone⟩

/-! ## The rank -/

/-- The phases of an iteration, counted down to the swap. -/
def swapDistance : LoopPc → Nat
  | .idle => 8
  | .run => 7
  | .test => 6
  | .poll => 5
  | .dispatch => 4
  | .swap => 3
  | .left => 2

/-- What is to be done before the `i`-th functor has been executed. -/
def waiting (i : Nat) (s : LoopSystem F C T) : ℕ ×ₗ ℕ :=
  if i < s.executed.length then toLex (0, 0)
  else if i < s.executed.length + s.loop.functors.length then toLex (1, i - s.executed.length)
  else toLex (swapDistance s.loop.pc, s.loop.activeChannels.length + s.loop.functors.length)

theorem waiting_executed {i : Nat} {s : LoopSystem F C T} (h : i < s.executed.length) :
    waiting i s = toLex (0, 0) :=
  if_pos h

theorem waiting_batch {i : Nat} {s : LoopSystem F C T} (h : s.executed.length ≤ i)
    (hb : i < s.executed.length + s.loop.functors.length) :
    waiting i s = toLex (1, i - s.executed.length) := by
  rw [waiting, if_neg (by omega), if_pos hb]

theorem waiting_pending {i : Nat} {s : LoopSystem F C T}
    (h : s.executed.length + s.loop.functors.length ≤ i) :
    waiting i s = toLex (swapDistance s.loop.pc,
      s.loop.activeChannels.length + s.loop.functors.length) := by
  rw [waiting, if_neg (by omega), if_neg (by omega)]

/-- Steps that leave the loop thread where it is. -/
theorem waiting_congr {s s' : LoopSystem F C T} (i : Nat) (he : s'.executed = s.executed)
    (hf : s'.loop.functors = s.loop.functors) (hpc : s'.loop.pc = s.loop.pc)
    (ha : s'.loop.activeChannels = s.loop.activeChannels) : waiting i s' = waiting i s := by
  simp only [waiting, he, hf, hpc, ha]

theorem toLex_lt_of_fst {a b c d : ℕ} (h : a < c) : (toLex (a, b) : ℕ ×ₗ ℕ) < toLex (c, d) :=
  Prod.Lex.toLex_lt_toLex.2 (.inl h)

theorem toLex_lt_of_snd {a b d : ℕ} (h : b < d) : (toLex (a, b) : ℕ ×ₗ ℕ) < toLex (a, d) :=
  Prod.Lex.toLex_lt_toLex.2 (.inr ⟨rfl, h⟩)

/-- The loop thread comes closer to the swap, or calls the next active channel. -/
theorem waiting_lt_of_closer {i : Nat} {s s' : LoopSystem F C T}
    (hpend : s.executed.length + s.loop.functors.length ≤ i) (he : s'.executed = s.executed)
    (hf : s'.loop.functors = s.loop.functors)
    (h : swapDistance s'.loop.pc < swapDistance s.loop.pc ∨ s'.loop.pc = s.loop.pc ∧
      s'.loop.activeChannels.length < s.loop.activeChannels.length) :
    waiting i s' < waiting i s := by
  rw [waiting_pending hpend, waiting_pending (by rw [he, hf]; exact hpend), hf]
  rcases h with h | ⟨hpc, h⟩
  · exact toLex_lt_of_fst h
  · rw [hpc]
    exact toLex_lt_of_snd (by omega)

variable [DecidableEq C] [DecidableEq T]

/-- A functor that waits for the swap. -/
theorem waiting_lt_of_pending {i : Nat} {s s' : LoopSystem F C T} {a : LoopAction F C T}
    (hs : Ordered s) (hi : i < s.queued.length)
    (hpend : s.executed.length + s.loop.functors.length ≤ i) (hin : a.inLoop = true)
    (h : s.step a = some s') : waiting i s' < waiting i s := by
  have hinv := step_inv h
  cases a with
  | enter =>
    obtain ⟨hpc, -, rfl⟩ := hinv
    refine waiting_lt_of_closer hpend rfl rfl (.inl ?_)
    rw [hpc]
    exact (by decide : swapDistance .test < swapDistance .idle)
  | test =>
    obtain ⟨hpc, -, rfl⟩ := hinv
    refine waiting_lt_of_closer hpend rfl rfl (.inl ?_)
    rw [hpc]
    dsimp only
    split <;> decide
  | pollReturn active =>
    obtain ⟨hpc, -, -, -, rfl⟩ := hinv
    refine waiting_lt_of_closer hpend rfl rfl (.inl ?_)
    rw [hpc]
    exact (by decide : swapDistance .dispatch < swapDistance .poll)
  | dispatch =>
    obtain ⟨-, -, c, rest, hact, rfl⟩ := hinv
    exact waiting_lt_of_closer hpend rfl rfl (.inr ⟨rfl, by simp [hact]⟩)
  | startFunctors =>
    obtain ⟨hpc, -, -, rfl⟩ := hinv
    refine waiting_lt_of_closer hpend rfl rfl (.inl ?_)
    rw [hpc]
    exact (by decide : swapDistance .swap < swapDistance .dispatch)
  | endFunctors =>
    obtain ⟨hpc, -, -, rfl⟩ := hinv
    refine waiting_lt_of_closer hpend rfl rfl (.inl ?_)
    rw [hpc]
    exact (by decide : swapDistance .test < swapDistance .run)
  | swapFunctors =>
    -- The swap takes it into the batch.
    obtain ⟨hpc, -, rfl⟩ := hinv
    have hnil := hs.batch_nil (by simp [hpc])
    have hlen := hs.exact.length_eq
    have hold : waiting i s = toLex (swapDistance .swap, s.loop.activeChannels.length) := by
      rw [waiting_pending hpend, hpc, hnil, List.length_nil, Nat.add_zero]
    simp only [queue, hnil, List.length_nil, Nat.add_zero] at hlen hpend
    rw [hold, waiting_batch
      (s := { s with loop := s.loop.swapFunctors, batches := s.batches + 1 }) hpend
      (show i < s.executed.length + s.loop.pendingFunctors.length by omega)]
    exact toLex_lt_of_fst (by decide)
  | runFunctor =>
    obtain ⟨-, -, f, rest, hf, rfl⟩ := hinv
    rw [waiting_pending hpend]
    rw [hf, List.length_cons] at hpend ⊢
    have hpend' : (s.executed ++ [(f, s.batches)]).length + rest.length ≤ i := by
      rw [List.length_append, List.length_singleton]
      omega
    rw [waiting_pending (s := { s with
      loop := s.loop.takeFunctor rest, executed := s.executed ++ [(f, s.batches)] }) hpend']
    exact toLex_lt_of_snd (Nat.lt_succ_self _)
  | push | quit | wakeup | pushOwn | wakeupOwn | quitOwn | channelOp => cases hin

/-- A functor of the batch that is being run. -/
theorem waiting_lt_of_batch {i : Nat} {s s' : LoopSystem F C T} {a : LoopAction F C T}
    (hs : Ordered s) (hnot : s.executed.length ≤ i)
    (hb : i < s.executed.length + s.loop.functors.length) (hin : a.inLoop = true)
    (h : s.step a = some s') : waiting i s' < waiting i s := by
  have hrun : s.loop.pc = .run := by
    by_contra hpc
    rw [hs.batch_nil hpc, List.length_nil] at hb
    omega
  have hinv := step_inv h
  cases a with
  | runFunctor =>
    obtain ⟨-, -, f, rest, hf, rfl⟩ := hinv
    have hlen : (s.executed ++ [(f, s.batches)]).length = s.executed.length + 1 := by simp
    rw [waiting_batch hnot hb]
    rw [hf, List.length_cons] at hb
    by_cases hnext : i = s.executed.length
    · rw [waiting_executed (s := { s with
        loop := s.loop.takeFunctor rest, executed := s.executed ++ [(f, s.batches)] })
        (by rw [hlen]; omega)]
      exact toLex_lt_of_fst Nat.zero_lt_one
    · rw [waiting_batch (s := { s with
        loop := s.loop.takeFunctor rest, executed := s.executed ++ [(f, s.batches)] })
        (by rw [hlen]; omega)
        (show i < (s.executed ++ [(f, s.batches)]).length + rest.length by omega), hlen]
      exact toLex_lt_of_snd (by omega)
  | endFunctors =>
    obtain ⟨-, -, hf, -⟩ := hinv
    rw [hf, List.length_nil] at hb
    omega
  | enter | test | pollReturn | dispatch | startFunctors | swapFunctors =>
    exact absurd (hrun.symm.trans hinv.1) (by simp)
  | push | quit | wakeup | pushOwn | wakeupOwn | quitOwn | channelOp => cases hin

/-- **The rank falls with every step of the loop thread** until the functor has been executed, and
no step raises it. -/
theorem waiting_step {i : Nat} {s s' : LoopSystem F C T} {a : LoopAction F C T} (hs : Ordered s)
    (hi : i < s.queued.length) (h : s.step a = some s') :
    waiting i s' ≤ waiting i s ∧
      (a.inLoop = true → s.executed.length ≤ i → waiting i s' < waiting i s) := by
  have hfall : a.inLoop = true → s.executed.length ≤ i → waiting i s' < waiting i s := by
    intro hin hnot
    rcases Nat.lt_or_ge i (s.executed.length + s.loop.functors.length) with hb | hp
    · exact waiting_lt_of_batch hs hnot hb hin h
    · exact waiting_lt_of_pending hs hi hp hin h
  refine ⟨?_, hfall⟩
  by_cases hin : a.inLoop = true
  · rcases Nat.lt_or_ge i s.executed.length with hdone | hnot
    · have hgrow : i < s'.executed.length := by
        have hinv := step_inv h
        cases a with
        | runFunctor =>
          obtain ⟨-, -, f, rest, -, rfl⟩ := hinv
          simp only [List.length_append]
          omega
        | dispatch =>
          obtain ⟨-, -, c, rest, -, rfl⟩ := hinv
          exact hdone
        | pollReturn =>
          obtain ⟨-, -, -, -, rfl⟩ := hinv
          exact hdone
        | startFunctors | endFunctors =>
          obtain ⟨-, -, -, rfl⟩ := hinv
          exact hdone
        | enter | test | swapFunctors =>
          obtain ⟨-, -, rfl⟩ := hinv
          exact hdone
        | push | quit | wakeup | pushOwn | wakeupOwn | quitOwn | channelOp => cases hin
      rw [waiting_executed hdone, waiting_executed hgrow]
    · exact (hfall hin hnot).le
  · refine le_of_eq ?_
    have hinv := step_inv h
    cases a with
    | enter | test | pollReturn | dispatch | startFunctors | swapFunctors | runFunctor
    | endFunctors => exact absurd rfl hin
    | channelOp =>
      obtain ⟨-, -, -, rfl⟩ := hinv
      exact waiting_congr i rfl rfl rfl rfl
    | pushOwn | quitOwn =>
      obtain ⟨-, -, rfl⟩ := hinv
      exact waiting_congr i rfl rfl rfl rfl
    | push | quit | wakeup | wakeupOwn =>
      obtain ⟨-, rfl⟩ := hinv
      exact waiting_congr i rfl rfl rfl rfl

/-! ## Fair runs -/

/-- The queue's history along a path. -/
theorem ordered_path (p : Path (step : LoopSystem F C T → _)) (h₀ : Ordered (p.state 0)) (n : ℕ) :
    Ordered (p.state n) ∧ (p.state 0).queued <+: (p.state n).queued := by
  induction n with
  | zero => exact ⟨h₀, List.prefix_refl _⟩
  | succ n ih =>
    exact ⟨ih.1.step (p.next n),
      ih.2.trans (step_move ih.1.batch_nil (p.next n)).history_isPrefix⟩

/-- **Every functor that is queued is executed.** Take any reachable state and any infinite run from
it, with any calls of other threads, in which the loop thread keeps going until it leaves the loop.
Then the `i`-th functor queued becomes the `i`-th executed, unless the loop is left. -/
theorem queued_eventually_executed (fd : C → Int) (wakeupChannel : C)
    (as : List (LoopAction F C T)) (p : Path (step : LoopSystem F C T → _))
    (h : (new fd wakeupChannel).run as = some (p.state 0))
    (hfair : ∀ n, ∃ m, n ≤ m ∧ ((p.action m).inLoop = true ∨ (p.state m).loop.pc = .left))
    (i : Nat) (x : F × Nat) (hi : (p.state 0).queued[i]? = some x) :
    ∃ m, (p.state m).loop.pc = .left ∨ ((p.state m).executed.map Prod.fst)[i]? = some x.1 := by
  have hinv := ordered_path p ((ordered_new fd wakeupChannel).run h)
  have hlt : ∀ n, i < (p.state n).queued.length := fun n =>
    (List.getElem?_eq_some_iff.1 hi).1.trans_le (hinv n).2.length_le
  obtain ⟨m, hm⟩ := p.eventually
    (fun s => s.loop.pc = .left ∨ i < s.executed.length) (waiting i)
    (fun n => (waiting_step (hinv n).1 (hlt n) (p.next n)).1) fun n => by
      obtain ⟨m, hnm, hin | hleft⟩ := hfair n
      · refine ⟨m, hnm, ?_⟩
        rcases Nat.lt_or_ge i (p.state m).executed.length with hdone | hnot
        · exact .inl (.inr hdone)
        · exact .inr ((waiting_step (hinv m).1 (hlt m) (p.next m)).2 hin hnot)
      · exact ⟨m, hnm, .inl (.inl hleft)⟩
  refine ⟨m, hm.imp_right fun hdone => ?_⟩
  obtain ⟨ho, hpre⟩ := hinv m
  have hq : ((p.state m).queued.map Prod.fst)[i]? = some x.1 := by
    obtain ⟨later, hlater⟩ := hpre
    rw [List.getElem?_map, ← hlater, List.getElem?_append_left
      (List.getElem?_eq_some_iff.1 hi).1, hi]
    rfl
  rw [← ho.order, List.append_assoc, List.getElem?_append_left (by simpa using hdone)] at hq
  exact hq

/-! ## A loop that is left to itself -/

/-- The next step of the loop thread when no event comes. -/
def nextStep (s : LoopSystem F C T) : LoopAction F C T :=
  match s.loop.pc with
  | .idle => .enter
  | .test | .left => .test
  | .poll => .pollReturn []
  | .dispatch => if s.loop.activeChannels = [] then .startFunctors else .dispatch
  | .swap => .swapFunctors
  | .run => if s.loop.functors = [] then .endFunctors else .runFunctor

/-- The loop thread is in `loop()`, and nobody stops it. -/
structure Looping (s : LoopSystem F C T) : Prop where
  own : s.own = .idle
  quit : s.loop.quit = false
  inside : s.loop.pc ≠ .left

theorem Looping.next {s : LoopSystem F C T} (h : Looping s) :
    ∃ s', s.step (nextStep s) = some s' ∧ Looping s' := by
  obtain ⟨hown, hquit, hleft⟩ := h
  unfold nextStep
  cases hpc : s.loop.pc with
  | left => exact absurd hpc hleft
  | idle =>
    exact ⟨{ s with loop := s.loop.enter }, by simp [step, isAt, hpc, hown], hown, rfl,
      fun hl => by cases hl⟩
  | test =>
    refine ⟨{ s with loop := s.loop.test }, by simp [step, isAt, hpc, hown], hown, ?_, ?_⟩
    · simpa [EventLoop.test_eq] using hquit
    · simp [EventLoop.test_eq, hquit]
  | poll =>
    exact ⟨{ s with loop := s.loop.pollReturn [] }, by simp [step, isAt, hpc, hown], hown, hquit,
      fun hl => by cases hl⟩
  | swap =>
    exact ⟨{ s with loop := s.loop.swapFunctors, batches := s.batches + 1 },
      by simp [step, isAt, hpc, hown], hown, hquit, fun hl => by cases hl⟩
  | dispatch =>
    cases hact : s.loop.activeChannels with
    | nil =>
      exact ⟨{ s with loop := s.loop.startFunctors }, by simp [step, isAt, hpc, hown, hact], hown,
        hquit, fun hl => by cases hl⟩
    | cons c rest =>
      refine ⟨{ s with loop := s.loop.dispatch c rest }, by simp [step, isAt, hpc, hown, hact],
        hown, ?_, ?_⟩
      · simpa [EventLoop.dispatch_eq] using hquit
      · simpa [EventLoop.dispatch_eq] using hleft
  | run =>
    cases hf : s.loop.functors with
    | nil =>
      exact ⟨{ s with loop := s.loop.endFunctors }, by simp [step, isAt, hpc, hown, hf], hown,
        hquit, fun hl => by cases hl⟩
    | cons f rest =>
      exact ⟨{ s with loop := s.loop.takeFunctor rest
                      executed := s.executed ++ [(f, s.batches)] },
        by simp [step, isAt, hpc, hown, hf], hown, hquit, hleft⟩

/-- The run of a loop that is left to itself. -/
def alone (s : LoopSystem F C T) (h : Looping s) : Path (step : LoopSystem F C T → _) :=
  .follow nextStep Looping (fun _ => Looping.next) s h

omit [DecidableEq C] [DecidableEq T] in
theorem inLoop_nextStep (s : LoopSystem F C T) : (nextStep s).inLoop = true := by
  unfold nextStep
  cases s.loop.pc with
  | dispatch | run =>
    dsimp only
    split <;> rfl
  | _ => rfl

theorem executed_queuedInBatch :
    ∃ s : LoopSystem Bool Unit Bool, (new (fun _ => 3) ()).run queuedInBatch = some s ∧
      ∃ (h : Looping s) (m : ℕ), ((alone s h).state m).loop.pc = .left ∨
        (((alone s h).state m).executed.map Prod.fst)[2]? = some true := by
  obtain ⟨s, hs, hnow⟩ := Option.map_eq_some_iff.1
    (show ((new (fun _ => 3) () : LoopSystem Bool Unit Bool).run queuedInBatch).map
      (fun s => (s.own, s.loop.quit, s.loop.pc, s.queued[2]?)) =
        some (.idle, false, .run, some (true, 1)) by decide)
  simp only [Prod.mk.injEq] at hnow
  obtain ⟨hown, hquit, hpc, hqueued⟩ := hnow
  have hloop : Looping s := ⟨hown, hquit, by simp [hpc]⟩
  obtain ⟨m, hm⟩ := queued_eventually_executed (fun _ => 3) () queuedInBatch (alone s hloop) hs
    (fun n => ⟨n, le_rfl, .inl (inLoop_nextStep _)⟩) 2 (true, 1) hqueued
  exact ⟨s, hs, hloop, m, hm⟩

end LoopSystem

end WebCore
