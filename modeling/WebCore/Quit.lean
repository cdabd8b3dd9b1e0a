import WebCore.FunctorQueue

/-!
# What a loop still runs after `quit()`

`quit_` is tested between two iterations, and the queue is swapped out once in each. A functor
that is pending when `quit()` stores `quit_` is therefore run exactly when the loop thread has the
swap of its iteration still before it.

`Covered fs s` says that the functors `fs`, a prefix of what was queued, are not behind the loop
thread: once it has passed the swap, they are in its batch or have run. With `SwapAhead` this holds
at the store (`covered_of_swapAhead`), and every later step keeps it (`Covered.step`). Without
`SwapAhead` the loop thread takes nothing more from the queue (`Stopping.step`). So the functors
queued before `quit()` are run exactly in the first case (`executed_before_left_iff`).
-/

namespace WebCore

namespace LoopSystem

variable {F C T : Type*}

/-- The loop thread has the swap of its iteration before it. -/
def SwapAhead (s : LoopSystem F C T) : Prop :=
  s.loop.pc = .poll ∨ s.loop.pc = .dispatch ∨ s.loop.pc = .swap

instance (s : LoopSystem F C T) : Decidable s.SwapAhead := by unfold SwapAhead; infer_instance

/-- The loop thread has passed the swap of its last iteration. -/
def PastSwap (s : LoopSystem F C T) : Prop :=
  s.loop.pc = .run ∨ s.loop.pc = .test ∨ s.loop.pc = .left

/-- The functors `fs`, the first ones queued, are run or in the batch once the swap is passed. -/
structure Covered (fs : List F) (s : LoopSystem F C T) : Prop where
  queued : fs <+: s.queued.map Prod.fst
  taken : s.PastSwap → fs <+: s.executed.map Prod.fst ++ s.loop.functors

theorem pastSwap_or {s : LoopSystem F C T} (h : s.loop.pc ≠ .idle) : s.PastSwap ∨ s.SwapAhead := by
  unfold PastSwap SwapAhead
  cases hpc : s.loop.pc <;> simp_all

/-- At a store of `quit_`, everything queued so far is covered when the swap is still ahead or
nothing is pending. -/
theorem covered_of_swapAhead {s : LoopSystem F C T} (ho : Ordered s)
    (h : s.SwapAhead ∨ s.loop.pendingFunctors = []) : Covered (s.queued.map Prod.fst) s := by
  refine ⟨List.prefix_refl _, fun hpast => ?_⟩
  rcases h with h | h
  · rcases hpast with hp | hp | hp <;> rcases h with h | h | h <;> rw [hp] at h <;> cases h
  · rw [← ho.order, h, List.append_nil]

/-- When `loop()` has returned, what is covered has been run. -/
theorem Covered.executed {fs : List F} {s : LoopSystem F C T} (ho : Ordered s)
    (hc : Covered fs s) (hleft : s.loop.pc = .left) : fs <+: s.executed.map Prod.fst := by
  have := hc.taken (.inr (.inr hleft))
  rwa [ho.batch_nil (by simp [hleft]), List.append_nil] at this

/-- Once the swap is passed with `quit_` set, the loop thread takes nothing more from the queue:
`n` functors are run or in the batch, and so it stays. -/
structure Stopping (n : Nat) (s : LoopSystem F C T) : Prop where
  quit : s.loop.quit = true
  past : s.PastSwap
  taken : s.executed.length + s.loop.functors.length = n

variable [DecidableEq C] [DecidableEq T]

/-- What was run or is in the batch stays so, and a swap takes all that is pending. -/
theorem step_taken {s s' : LoopSystem F C T} {a : LoopAction F C T} (ho : Ordered s)
    (hidle : s.loop.pc ≠ .idle) (h : s.step a = some s') (hpast : s'.PastSwap) :
    (s.PastSwap ∧ s'.executed.map Prod.fst ++ s'.loop.functors =
      s.executed.map Prod.fst ++ s.loop.functors) ∨
    s'.executed.map Prod.fst ++ s'.loop.functors = s.queued.map Prod.fst := by
  have h := step_inv h
  cases a with
  | enter => exact absurd h.1 hidle
  | swapFunctors =>
    obtain ⟨hpc, -, rfl⟩ := h
    right
    have := ho.order
    rwa [ho.batch_nil (by simp [hpc]), List.append_nil] at this
  | test =>
    obtain ⟨hpc, -, rfl⟩ := h
    exact .inl ⟨.inr (.inl hpc), rfl⟩
  | runFunctor =>
    obtain ⟨hpc, -, f, rest, hf, rfl⟩ := h
    exact .inl ⟨.inl hpc, by simp [EventLoop.takeFunctor, hf]⟩
  | endFunctors =>
    obtain ⟨hpc, -, -, rfl⟩ := h
    exact .inl ⟨.inl hpc, rfl⟩
  | pollReturn =>
    obtain ⟨-, -, -, -, rfl⟩ := h
    simp [PastSwap, EventLoop.pollReturn] at hpast
  | startFunctors =>
    obtain ⟨-, -, -, rfl⟩ := h
    simp [PastSwap, EventLoop.startFunctors] at hpast
  | dispatch =>
    obtain ⟨hpc, -, _, _, -, rfl⟩ := h
    simp [PastSwap, hpc] at hpast
  | channelOp =>
    obtain ⟨-, -, -, rfl⟩ := h
    exact .inl ⟨hpast, rfl⟩
  | pushOwn | quitOwn =>
    obtain ⟨-, -, rfl⟩ := h
    exact .inl ⟨hpast, rfl⟩
  | push | quit | wakeup | wakeupOwn =>
    obtain ⟨-, rfl⟩ := h
    exact .inl ⟨hpast, rfl⟩

theorem Covered.step {fs : List F} {s s' : LoopSystem F C T} {a : LoopAction F C T}
    (ho : Ordered s) (hidle : s.loop.pc ≠ .idle) (hc : Covered fs s) (h : s.step a = some s') :
    Covered fs s' := by
  refine ⟨hc.queued.trans ((step_move ho.batch_nil h).history_isPrefix.map Prod.fst),
    fun hpast => ?_⟩
  rcases step_taken ho hidle h hpast with ⟨hp, he⟩ | he
  · rw [he]; exact hc.taken hp
  · rw [he]; exact hc.queued

theorem Stopping.step {n : Nat} {s s' : LoopSystem F C T} {a : LoopAction F C T}
    (hs : Stopping n s) (h : s.step a = some s') : Stopping n s' := by
  obtain ⟨hq, hp, hn⟩ := hs
  have h := step_inv h
  cases a with
  | enter | pollReturn | dispatch | startFunctors | swapFunctors =>
    simp [PastSwap, h.1] at hp
  | test =>
    obtain ⟨-, -, rfl⟩ := h
    exact ⟨hq, by simp [PastSwap, hq], hn⟩
  | runFunctor =>
    obtain ⟨-, -, f, rest, hf, rfl⟩ := h
    refine ⟨hq, hp, ?_⟩
    rw [hf, List.length_cons] at hn
    simp only [EventLoop.takeFunctor, List.length_append, List.length_singleton]
    omega
  | endFunctors =>
    obtain ⟨-, -, -, rfl⟩ := h
    exact ⟨hq, .inr (.inl rfl), hn⟩
  | channelOp =>
    obtain ⟨-, -, -, rfl⟩ := h
    exact ⟨hq, hp, hn⟩
  | pushOwn =>
    obtain ⟨-, -, rfl⟩ := h
    exact ⟨hq, hp, hn⟩
  | quitOwn =>
    obtain ⟨-, -, rfl⟩ := h
    exact ⟨rfl, hp, hn⟩
  | push | wakeup | wakeupOwn =>
    obtain ⟨-, rfl⟩ := h
    exact ⟨hq, hp, hn⟩
  | quit =>
    obtain ⟨-, rfl⟩ := h
    exact ⟨rfl, hp, hn⟩

/-- **What is queued before `quit()` runs exactly when the swap is still ahead**, or nothing is
pending. -/
theorem executed_before_left_iff {s₀ s : LoopSystem F C T} {t : T} {as : List (LoopAction F C T)}
    (ho : Ordered s₀) (hidle : s₀.loop.pc ≠ .idle) (h : s₀.run (.quit t :: as) = some s)
    (hleft : s.loop.pc = .left) :
    s₀.queued.map Prod.fst <+: s.executed.map Prod.fst ↔
      s₀.SwapAhead ∨ s₀.loop.pendingFunctors = [] := by
  constructor
  · intro hpre
    rcases pastSwap_or hidle with hpast | hahead
    · right
      obtain ⟨s₁, h₁, hrun⟩ := Transition.run_cons.1 h
      have hs₁ : Stopping (s₀.executed.length + s₀.loop.functors.length) s₁ := by
        obtain ⟨-, rfl⟩ := step_inv h₁
        exact ⟨rfl, hpast, rfl⟩
      have hs := Transition.run_invariant (Stopping _) (fun _ _ _ => Stopping.step) hs₁ hrun
      have htaken := hs.taken
      rw [(ho.run h).batch_nil (by simp [hleft]), List.length_nil, Nat.add_zero] at htaken
      have hlen := hpre.length_le
      rw [← ho.order] at hlen
      simp only [List.length_append, List.length_map] at hlen
      exact List.eq_nil_of_length_eq_zero (by omega)
    · exact .inl hahead
  · intro hq
    have hinv : Ordered s ∧ s.loop.pc ≠ .idle ∧ Covered (s₀.queued.map Prod.fst) s :=
      Transition.run_invariant
        (fun s => Ordered s ∧ s.loop.pc ≠ .idle ∧ Covered (s₀.queued.map Prod.fst) s)
        (fun _ _ _ hs h => ⟨hs.1.step h, step_pc_ne_idle hs.2.1 h, hs.2.2.step hs.1 hs.2.1 h⟩)
        ⟨ho, hidle, covered_of_swapAhead ho hq⟩ h
    exact hinv.2.2.executed hinv.1 hleft

end LoopSystem

end WebCore
