import Mathlib

/-!
# Going round

`advance n` takes an index below `n` to the next one, and the last one to zero. From any index, the
turns of each index are spread evenly: `count_turns`, and `count_entries` for the entries of a list.
-/

namespace RoundRobin

/-- The index after `next`, of `n`. -/
def advance (n next : ℕ) : ℕ := if n ≤ next + 1 then 0 else next + 1

theorem advance_ok (n next : ℕ) : advance n next = 0 ∨ advance n next < n := by
  unfold advance
  split <;> omega

theorem advance_eq {n next : ℕ} (h : next < n) : advance n next = (next + 1) % n := by
  unfold advance
  by_cases hlast : n ≤ next + 1
  · rw [if_pos hlast, show next + 1 = n by omega, Nat.mod_self]
  · rw [if_neg hlast, Nat.mod_eq_of_lt (not_le.1 hlast)]

/-- **The turns are spread evenly.** Of any `m` turns in a row, each index has `m / n`, or one
more. -/
theorem count_turns {n : ℕ} (start m : ℕ) {i : ℕ} (hi : i < n) :
    Nat.count (fun k => (start + k) % n = i) m = m / n ∨
      Nat.count (fun k => (start + k) % n = i) m = m / n + 1 := by
  have hn : 0 < n := Nat.zero_lt_of_lt hi
  -- the first turn of `i` comes after `first` others
  let first := (i + (n - start % n)) % n
  have hiff : ∀ k, (start + k) % n = i ↔ k ≡ first [MOD n] := by
    intro k
    have hs : start % n < n := Nat.mod_lt _ hn
    have hfirst : (start + first) % n = i := by
      rw [Nat.add_mod, Nat.mod_mod, ← Nat.add_mod, ← Nat.mod_add_mod,
        show start % n + (i + (n - start % n)) = i + n by omega, Nat.add_mod_right,
        Nat.mod_eq_of_lt hi]
    constructor
    · intro h
      exact Nat.ModEq.add_left_cancel' start (h.trans hfirst.symm)
    · intro h
      have hsame : (start + k) % n = (start + first) % n := Nat.ModEq.add_left start h
      exact hsame.trans hfirst
  simp only [hiff, Nat.count_modEq_card _ hn]
  split
  · exact .inr rfl
  · exact .inl rfl

theorem count_range_map {α : Type*} [DecidableEq α] (f : ℕ → α) (x : α) (m : ℕ) :
    ((List.range m).map f).count x = Nat.count (fun k => f k = x) m := by
  induction m with
  | zero => rfl
  | succ m ih =>
    rw [List.range_succ, List.map_append, List.count_append, ih, Nat.count_succ]
    simp [List.count_singleton]

/-- The same for the entries of a list. -/
theorem count_entries {α : Type*} [DecidableEq α] {xs : List α} (hnodup : xs.Nodup) {x : α}
    (hx : x ∈ xs) (default : α) (start m : ℕ) :
    ((List.range m).map fun k => xs.getD ((start + k) % xs.length) default).count x =
        m / xs.length ∨
      ((List.range m).map fun k => xs.getD ((start + k) % xs.length) default).count x =
        m / xs.length + 1 := by
  obtain ⟨i, hi, rfl⟩ := List.getElem_of_mem hx
  have hturn : ∀ k, xs.getD ((start + k) % xs.length) default = xs[i] ↔
      (start + k) % xs.length = i := by
    intro k
    have hk : (start + k) % xs.length < xs.length := Nat.mod_lt _ (Nat.zero_lt_of_lt hi)
    rw [List.getD_eq_getElem _ _ hk]
    exact hnodup.getElem_inj_iff
  rw [count_range_map]
  simp only [hturn]
  exact count_turns start m hi

end RoundRobin
