import Mathlib

/-!
# Runs of labelled transition systems

A system is a partial step function `step : σ → α → Option σ`: the action names everything the
environment decides, and `none` means that the action is not enabled. `run` takes the actions of
a list one after the other, so a run is data and can be evaluated.

`Meets ok s as` says that every action of the run `as` from `s` is taken in a state where `ok`
allows it. The two induction rules are `run_invariant`, for what every step preserves, and
`Meets.invariant`, for what the allowed steps preserve; `run_refines` takes the runs of one system
to runs of another.

A `Path` is an infinite run. `Path.eventually` is the liveness rule: a rank that no step raises and
that falls again and again until a goal is reached leads to the goal. `Path.follow` is the path of a
scheduler.
-/

namespace Transition

variable {σ α : Type*}

/-- Take the actions of a list one after the other. -/
def run (step : σ → α → Option σ) : σ → List α → Option σ
  | s, [] => some s
  | s, a :: as => (step s a).bind fun s' => run step s' as

/-- Every action of the run is taken in a state where `ok` allows it. -/
def Meets (step : σ → α → Option σ) (ok : σ → α → Prop) : σ → List α → Prop
  | _, [] => True
  | s, a :: as => ok s a ∧ ∀ s' ∈ step s a, Meets step ok s' as

variable {step : σ → α → Option σ} {ok : σ → α → Prop}

@[simp] theorem run_nil (s : σ) : run step s [] = some s := rfl

theorem run_cons {s s' : σ} {a : α} {as : List α} :
    run step s (a :: as) = some s' ↔ ∃ t, step s a = some t ∧ run step t as = some s' := by
  simp [run, Option.bind_eq_some_iff]

theorem run_append {s s' : σ} {as bs : List α} :
    run step s (as ++ bs) = some s' ↔ ∃ t, run step s as = some t ∧ run step t bs = some s' := by
  induction as generalizing s with
  | nil => simp
  | cons a as ih =>
    simp only [List.cons_append, run_cons, ih]
    constructor
    · rintro ⟨t, ht, u, hu, h⟩
      exact ⟨u, ⟨t, ht, hu⟩, h⟩
    · rintro ⟨u, ⟨t, ht, hu⟩, h⟩
      exact ⟨t, ht, u, hu, h⟩

theorem Meets.mono {ok' : σ → α → Prop} (hle : ∀ s a, ok s a → ok' s a) {s : σ} {as : List α}
    (h : Meets step ok s as) : Meets step ok' s as := by
  induction as generalizing s with
  | nil => trivial
  | cons a as ih => exact ⟨hle s a h.1, fun s' hs' => ih (h.2 s' hs')⟩

theorem Meets.and {ok' : σ → α → Prop} {s : σ} {as : List α} (h : Meets step ok s as)
    (h' : Meets step ok' s as) : Meets step (fun s a => ok s a ∧ ok' s a) s as := by
  induction as generalizing s with
  | nil => trivial
  | cons a as ih => exact ⟨⟨h.1, h'.1⟩, fun s' hs' => ih (h.2 s' hs') (h'.2 s' hs')⟩

theorem meets_of_forall (hall : ∀ s a, ok s a) (s : σ) (as : List α) : Meets step ok s as := by
  induction as generalizing s with
  | nil => trivial
  | cons a as ih => exact ⟨hall s a, fun s' _ => ih s'⟩

theorem meets_append {s s' : σ} {as bs : List α} (h : Meets step ok s (as ++ bs))
    (hrun : run step s as = some s') : Meets step ok s as ∧ Meets step ok s' bs := by
  induction as generalizing s with
  | nil =>
    obtain rfl : s = s' := Option.some.inj hrun
    exact ⟨trivial, h⟩
  | cons a as ih =>
    obtain ⟨t, ht, hrun⟩ := run_cons.1 hrun
    obtain ⟨ha, hrest⟩ := h
    refine ⟨⟨ha, fun u hu => ?_⟩, (ih (hrest t ht) hrun).2⟩
    obtain rfl : t = u := Option.some.inj (ht.symm.trans hu)
    exact (ih (hrest t ht) hrun).1

/-- **What the allowed steps preserve holds at the end of every allowed run.** -/
theorem Meets.invariant (Inv : σ → Prop)
    (hstep : ∀ s a s', Inv s → ok s a → step s a = some s' → Inv s') {s s' : σ} {as : List α}
    (hm : Meets step ok s as) (h₀ : Inv s) (hrun : run step s as = some s') : Inv s' := by
  induction as generalizing s with
  | nil =>
    obtain rfl : s = s' := Option.some.inj hrun
    exact h₀
  | cons a as ih =>
    obtain ⟨t, ht, hrun⟩ := run_cons.1 hrun
    exact ih (hm.2 t ht) (hstep s a t h₀ hm.1 ht) hrun

/-- **What every step preserves holds at the end of every run.** -/
theorem run_invariant (Inv : σ → Prop) (hstep : ∀ s a s', Inv s → step s a = some s' → Inv s')
    {s s' : σ} {as : List α} (h₀ : Inv s) (hrun : run step s as = some s') : Inv s' := by
  induction as generalizing s with
  | nil =>
    obtain rfl : s = s' := Option.some.inj hrun
    exact h₀
  | cons a as ih =>
    obtain ⟨t, ht, hrun⟩ := run_cons.1 hrun
    exact ih (hstep s a t h₀ ht) hrun

/-- **A system refines another** when each of its steps, where an invariant of it holds, is a run of
the other one. -/
theorem run_refines {τ β : Type*} {step' : τ → β → Option τ} (f : σ → τ) (Inv : σ → Prop)
    (hinv : ∀ s a s', Inv s → step s a = some s' → Inv s')
    (hsim : ∀ s a s', Inv s → step s a = some s' → ∃ bs, run step' (f s) bs = some (f s'))
    {s s' : σ} {as : List α} (h₀ : Inv s) (hrun : run step s as = some s') :
    ∃ bs, run step' (f s) bs = some (f s') := by
  induction as generalizing s with
  | nil =>
    obtain rfl : s = s' := Option.some.inj hrun
    exact ⟨[], rfl⟩
  | cons a as ih =>
    obtain ⟨t, ht, hrun⟩ := run_cons.1 hrun
    obtain ⟨bs, hbs⟩ := hsim s a t h₀ ht
    obtain ⟨cs, hcs⟩ := ih (hinv s a t h₀ ht) hrun
    exact ⟨bs ++ cs, run_append.2 ⟨f t, hbs, hcs⟩⟩

instance Meets.decidable [∀ s a, Decidable (ok s a)] :
    ∀ (s : σ) (as : List α), Decidable (Meets step ok s as)
  | _, [] => inferInstanceAs (Decidable True)
  | s, a :: as =>
    match h : step s a with
    | none => decidable_of_iff (ok s a) (by simp [Meets, h])
    | some t =>
      have := Meets.decidable t as
      decidable_of_iff (ok s a ∧ Meets step ok t as) (by simp [Meets, h])

/-! ## Infinite runs -/

structure Path (step : σ → α → Option σ) where
  state : ℕ → σ
  action : ℕ → α
  next : ∀ n, step (state n) (action n) = some (state (n + 1))

namespace Path

/-- The path from its `n`-th state on. -/
def drop (p : Path step) (n : ℕ) : Path step where
  state k := p.state (n + k)
  action k := p.action (n + k)
  next k := p.next (n + k)

/-- **What every step preserves holds along the path.** -/
theorem always (Inv : σ → Prop) (p : Path step)
    (hstep : ∀ s a s', Inv s → step s a = some s' → Inv s') (h₀ : Inv (p.state 0)) (n : ℕ) :
    Inv (p.state n) := by
  induction n with
  | zero => exact h₀
  | succ n ih => exact hstep _ _ _ ih (p.next n)

theorem invariant {Inv : σ → Prop} (p : Path step) (hok : ∀ n, ok (p.state n) (p.action n))
    (hstep : ∀ s a s', Inv s → ok s a → step s a = some s' → Inv s') (h₀ : Inv (p.state 0))
    (n : ℕ) : Inv (p.state n) := by
  induction n with
  | zero => exact h₀
  | succ n ih => exact hstep _ _ _ ih (hok n) (p.next n)

/-- **A rank that never rises and keeps falling until the goal reaches the goal.** -/
theorem eventually {β : Type*} [PartialOrder β] [WellFoundedLT β] (goal : σ → Prop) (rank : σ → β)
    (p : Path step) (hle : ∀ n, rank (p.state (n + 1)) ≤ rank (p.state n))
    (hlt : ∀ n, ∃ m, n ≤ m ∧
      (goal (p.state m) ∨ rank (p.state (m + 1)) < rank (p.state m))) :
    ∃ n, goal (p.state n) := by
  have hanti : Antitone fun n => rank (p.state n) := antitone_nat_of_succ_le hle
  obtain ⟨n, hn⟩ := WellFoundedLT.antitone_chain_condition hanti
  obtain ⟨m, hm, hgoal | hfall⟩ := hlt n
  · exact ⟨m, hgoal⟩
  · rw [← hn m hm, ← hn (m + 1) (by omega)] at hfall
    exact absurd hfall (lt_irrefl _)

/-- The same from the `n`-th state on. -/
theorem eventually_from {β : Type*} [PartialOrder β] [WellFoundedLT β] (goal : σ → Prop)
    (rank : σ → β) (p : Path step) (n : ℕ)
    (hle : ∀ k, n ≤ k → rank (p.state (k + 1)) ≤ rank (p.state k))
    (hlt : ∀ k, n ≤ k → ∃ m, k ≤ m ∧
      (goal (p.state m) ∨ rank (p.state (m + 1)) < rank (p.state m))) :
    ∃ m, n ≤ m ∧ goal (p.state m) := by
  obtain ⟨m, hm⟩ := (p.drop n).eventually goal rank (fun k => hle (n + k) (Nat.le_add_right n k))
    fun k => by
      obtain ⟨m, hkm, hm⟩ := hlt (n + k) (Nat.le_add_right n k)
      obtain ⟨j, rfl⟩ := Nat.exists_eq_add_of_le (show n ≤ m by omega)
      exact ⟨j, by omega, hm⟩
  exact ⟨n + m, Nat.le_add_right n m, hm⟩

section Follow

variable (choose : σ → α) (Inv : σ → Prop)
  (hnext : ∀ s, Inv s → ∃ s', step s (choose s) = some s' ∧ Inv s')

/-- One step of the scheduler `choose`. -/
def followStep (s : { s // Inv s }) : { s // Inv s } :=
  ⟨(step s.1 (choose s.1)).get (by obtain ⟨s', h, -⟩ := hnext s.1 s.2; simp [h]), by
    obtain ⟨s', h, hs'⟩ := hnext s.1 s.2
    simpa [h] using hs'⟩

/-- **The path of a scheduler.** Where `Inv` holds, the action `choose` can be taken and `Inv`
holds again. -/
def follow (s₀ : σ) (h₀ : Inv s₀) : Path step where
  state n := ((followStep choose Inv hnext)^[n] ⟨s₀, h₀⟩).1
  action n := choose ((followStep choose Inv hnext)^[n] ⟨s₀, h₀⟩).1
  next n := by rw [Function.iterate_succ_apply']; exact (Option.some_get _).symm

theorem follow_inv (s₀ : σ) (h₀ : Inv s₀) (n : ℕ) :
    Inv ((follow choose Inv hnext s₀ h₀).state n) :=
  ((followStep choose Inv hnext)^[n] ⟨s₀, h₀⟩).2

end Follow

end Path

end Transition
