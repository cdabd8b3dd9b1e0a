import WebCore.Lib.Transition

/-!
# What a path leads to

`p.LeadsTo P Q` says that whenever `P` holds on the path `p`, then `Q` holds at that time or later.
Fairness is strong fairness: whoever can take one of its actions again and again takes one of them
again and again. Scheduling of that kind is what an actor needs that waits for a lock which the
others take and release meanwhile.

**Rule (`LeadsTo.of_rank`).** Suppose that `P` stays until `Q` comes, and that a rank, which no step
raises meanwhile, falls again and again. Then `P` leads to `Q`.

**Rule (`LeadsTo.of_often`).** It is enough that the rank falls with each action of an actor that
acts again and again.

**Rule (`LeadsTo.of_fair`).** Suppose that `P` stays until `Q` comes, that the actor comes closer to
`Q` with each of its actions while nobody takes it away from there, and that `P` leads to a state in
which the actor can act. Then `P` leads to `Q`.

`Path.rest` is a path that comes to rest; whoever cannot act there is treated fairly.
-/

namespace Transition

variable {σ α : Type*} {step : σ → α → Option σ}

/-- One of the actions `acts` can be taken. -/
def Enabled (step : σ → α → Option σ) (acts : α → Prop) (s : σ) : Prop :=
  ∃ a, acts a ∧ (step s a).isSome

theorem not_enabled {a : α} {s : σ} (h : step s a = none) :
    ¬ Enabled step (fun b => b = a) s := by
  rintro ⟨b, rfl, hb⟩
  simp [h] at hb

namespace Path

variable {p : Path step} {P Q R : σ → Prop}

def LeadsTo (p : Path step) (P Q : σ → Prop) : Prop :=
  ∀ n, P (p.state n) → ∃ m, n ≤ m ∧ Q (p.state m)

/-- Strong fairness for the actor that takes the actions `acts`. -/
def Fair (p : Path step) (acts : α → Prop) : Prop :=
  ∀ n, (∀ k, n ≤ k → ∃ m, k ≤ m ∧ Enabled step acts (p.state m)) →
    ∃ m, n ≤ m ∧ acts (p.action m)

namespace LeadsTo

theorem of_imp (h : ∀ n, P (p.state n) → Q (p.state n)) : p.LeadsTo P Q :=
  fun n hP => ⟨n, le_rfl, h n hP⟩

theorem trans (h : p.LeadsTo P Q) (h' : p.LeadsTo Q R) : p.LeadsTo P R := by
  intro n hP
  obtain ⟨m, hnm, hQ⟩ := h n hP
  obtain ⟨k, hmk, hR⟩ := h' m hQ
  exact ⟨k, hnm.trans hmk, hR⟩

/-- What stays until `Q` comes stays for ever, if `Q` does not come. -/
theorem persists (hstay : ∀ n, P (p.state n) → Q (p.state (n + 1)) ∨ P (p.state (n + 1))) {n : ℕ}
    (hP : P (p.state n)) (hno : ∀ k, n ≤ k → ¬ Q (p.state k)) {k : ℕ} (hk : n ≤ k) :
    P (p.state k) := by
  induction k, hk using Nat.le_induction with
  | base => exact hP
  | succ k hk ih => exact (hstay k ih).resolve_left (hno _ (hk.trans (Nat.le_succ k)))

variable {β : Type*} [PartialOrder β] [WellFoundedLT β]

/-- **The rule for a rank.** -/
theorem of_rank (rank : σ → β)
    (hstay : ∀ n, P (p.state n) →
      Q (p.state (n + 1)) ∨ P (p.state (n + 1)) ∧ rank (p.state (n + 1)) ≤ rank (p.state n))
    (hfall : ∀ n, P (p.state n) →
      ∃ m, n ≤ m ∧ (Q (p.state m) ∨ rank (p.state (m + 1)) < rank (p.state m))) :
    p.LeadsTo P Q := by
  intro n hP
  by_contra hno
  have hnot : ∀ k, n ≤ k → ¬ Q (p.state k) := fun k hk hQ => hno ⟨k, hk, hQ⟩
  have hkeep : ∀ k, n ≤ k → P (p.state k) := fun k hk =>
    persists (fun k hk => (hstay k hk).imp_right And.left) hP hnot hk
  exact hno (p.eventually_from Q rank n
    (fun k hk => ((hstay k (hkeep k hk)).resolve_left (hnot _ (by omega))).2)
    fun k hk => hfall k (hkeep k hk))

/-- **The rule for an actor** that acts again and again. -/
theorem of_often (acts : α → Prop) (rank : σ → β)
    (hstay : ∀ n, P (p.state n) →
      Q (p.state (n + 1)) ∨ P (p.state (n + 1)) ∧ rank (p.state (n + 1)) ≤ rank (p.state n))
    (hact : ∀ n, P (p.state n) → acts (p.action n) →
      Q (p.state (n + 1)) ∨ rank (p.state (n + 1)) < rank (p.state n))
    (hoften : ∀ n, P (p.state n) → ∃ m, n ≤ m ∧ (Q (p.state m) ∨ acts (p.action m))) :
    p.LeadsTo P Q := by
  refine of_rank rank hstay fun n hP => ?_
  obtain ⟨m, hm, hQ | hacts⟩ := hoften n hP
  · exact ⟨m, hm, .inl hQ⟩
  · by_contra hno
    have hnot : ∀ k, n ≤ k → ¬ Q (p.state k) := fun k hk hQ => hno ⟨k, hk, .inl hQ⟩
    have hP : P (p.state m) :=
      persists (fun k hk => (hstay k hk).imp_right And.left) hP hnot hm
    exact hno ⟨m, hm, .inr ((hact m hP hacts).resolve_left (hnot _ (by omega)))⟩

/-- **The rule for a fair actor.** -/
theorem of_fair {acts : α → Prop} (rank : σ → β) (hfair : p.Fair acts)
    (hstay : ∀ n, P (p.state n) →
      Q (p.state (n + 1)) ∨ P (p.state (n + 1)) ∧ rank (p.state (n + 1)) ≤ rank (p.state n))
    (hact : ∀ n, P (p.state n) → acts (p.action n) →
      Q (p.state (n + 1)) ∨ rank (p.state (n + 1)) < rank (p.state n))
    (hen : p.LeadsTo P fun s => Q s ∨ Enabled step acts s) : p.LeadsTo P Q := by
  refine of_often acts rank hstay hact fun n hP => ?_
  by_contra hno
  have hnot : ∀ k, n ≤ k → ¬ Q (p.state k) := fun k hk hQ => hno ⟨k, hk, .inl hQ⟩
  obtain ⟨m, hm, hacts⟩ := hfair n fun j hj => by
    obtain ⟨m, hjm, hQ | hen⟩ := hen j
      (persists (fun k hk => (hstay k hk).imp_right And.left) hP hnot hj)
    · exact absurd hQ (hnot m (hj.trans hjm))
    · exact ⟨m, hjm, hen⟩
  exact hno ⟨m, hm, .inr hacts⟩

end LeadsTo

/-! ## Paths that come to rest -/

section Rest

variable {s₀ s : σ} {as : List α} {a : α} (h : run step s₀ as = some s) (hrest : step s a = some s)

include h in
theorem run_take {n : ℕ} (hn : n < as.length) :
    ∃ t t', run step s₀ (as.take n) = some t ∧ step t as[n] = some t' ∧
      run step s₀ (as.take (n + 1)) = some t' := by
  rw [← List.take_append_drop n as, run_append] at h
  obtain ⟨t, ht, hrun⟩ := h
  rw [List.drop_eq_getElem_cons hn, run_cons] at hrun
  obtain ⟨t', ht', -⟩ := hrun
  refine ⟨t, t', ht, ht', ?_⟩
  rw [← List.take_append_getElem hn, run_append]
  exact ⟨t, ht, run_cons.2 ⟨t', ht', rfl⟩⟩

/-- The actions `as`, and then the action `a` for ever, which changes nothing. -/
def rest : Path step where
  state n := (run step s₀ (as.take n)).getD s
  action n := as.getD n a
  next n := by
    by_cases hn : n < as.length
    · obtain ⟨t, t', ht, hstep, ht'⟩ := run_take h hn
      rw [ht, ht', List.getD_eq_getElem _ _ hn]
      exact hstep
    · rw [List.take_of_length_le (not_lt.1 hn), List.take_of_length_le (by omega), h,
        List.getD_eq_default _ _ (not_lt.1 hn)]
      exact hrest

theorem rest_fair {acts : α → Prop} (hdead : ¬ Enabled step acts s) : (rest h hrest).Fair acts := by
  intro n hen
  obtain ⟨m, hm, hen⟩ := hen (max n as.length) (le_max_left _ _)
  have hat : (rest h hrest).state m = s := by
    show (run step s₀ (as.take m)).getD s = s
    rw [List.take_of_length_le ((le_max_right _ _).trans hm), h]
    rfl
  exact absurd (hat ▸ hen) hdead

end Rest

end Path

end Transition
