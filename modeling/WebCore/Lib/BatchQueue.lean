import Mathlib

/-!
# A queue that is run in batches

Producers append to `pending`. The consumer takes the whole of `pending` as its next batch, runs
the batch element by element, and only then takes the next one. `history` records every element in
the order of its arrival together with the number of batches taken before it, and `done` every
element that was run together with the number of its batch.

**Theorem (`Move.exact`).** Each move keeps `done ++ batch ++ pending = history`, and an element is
run in a later batch than the one that was running when it arrived.

**Theorem (`Move.prompt`).** That batch is the next one.
-/

namespace BatchQueue

variable {α : Type*}

structure Queue (α : Type*) where
  done : List (α × Nat)
  batch : List α
  pending : List α
  history : List (α × Nat)
  batches : Nat

namespace Queue

def push (a : α) (q : Queue α) : Queue α :=
  { q with pending := q.pending ++ [a], history := q.history ++ [(a, q.batches)] }

/-- The consumer takes all that is pending. -/
def swap (q : Queue α) : Queue α :=
  { q with batch := q.pending, pending := [], batches := q.batches + 1 }

/-- What can happen to the queue. -/
inductive Move : Queue α → Queue α → Prop
  | stay (q : Queue α) : Move q q
  | push (q : Queue α) (a : α) : Move q (q.push a)
  | swap (q : Queue α) (h : q.batch = []) : Move q q.swap
  | take (q : Queue α) (a : α) (as : List α) (h : q.batch = a :: as) :
      Move q { q with done := q.done ++ [(a, q.batches)], batch := as }

/-- Nothing is lost, repeated or overtaken, and nothing runs in the batch it arrived during. -/
structure Exact (q : Queue α) : Prop where
  order : q.done.map Prod.fst ++ q.batch ++ q.pending = q.history.map Prod.fst
  arrived : ∀ x ∈ q.history, x.2 ≤ q.batches
  taken : ∀ i, i < q.done.length + q.batch.length → ∀ x : α × Nat, q.history[i]? = some x →
    x.2 < q.batches
  later : ∀ (i : Nat) (x y : α × Nat), q.done[i]? = some x → q.history[i]? = some y → y.2 < x.2

theorem Exact.length_eq {q : Queue α} (h : Exact q) :
    q.done.length + q.batch.length + q.pending.length = q.history.length := by
  simpa [Nat.add_assoc] using congrArg List.length h.order

/-- **The consumer's discipline is kept by every move.** -/
theorem Move.exact {q q' : Queue α} (hm : Move q q') (h : Exact q) : Exact q' := by
  have hlen := h.length_eq
  cases hm with
  | stay => exact h
  | push a =>
    refine ⟨?_, ?_, fun i hi x hx => ?_, fun i x y hx hy => ?_⟩
    · simp only [Queue.push, List.map_append, ← h.order]; simp
    · intro x hx
      rcases List.mem_append.1 hx with hx | hx
      · exact h.arrived x hx
      · rw [List.mem_singleton.1 hx]; exact Nat.le_refl _
    · simp only [Queue.push] at hi hx ⊢
      rw [List.getElem?_append_left (by omega)] at hx
      exact h.taken i hi x hx
    · simp only [Queue.push] at hx hy ⊢
      have hi : i < q.done.length := (List.getElem?_eq_some_iff.1 hx).1
      rw [List.getElem?_append_left (by omega)] at hy
      exact h.later i x y hx hy
  | swap hb =>
    refine ⟨?_, ?_, fun i _ x hx => ?_, h.later⟩
    · simpa [Queue.swap, hb] using h.order
    · exact fun x hx => Nat.le_succ_of_le (h.arrived x hx)
    · exact Nat.lt_succ_of_le (h.arrived x (List.mem_of_getElem? hx))
  | take a as hb =>
    simp only [hb, List.length_cons] at hlen
    refine ⟨?_, h.arrived, fun i hi x hx => ?_, fun i x y hx hy => ?_⟩
    · simpa [hb] using h.order
    · simp only [List.length_append, List.length_singleton] at hi
      exact h.taken i (by rw [hb, List.length_cons]; omega) x hx
    · simp only at hx hy
      rcases Nat.lt_or_ge i q.done.length with hi | hi
      · rw [List.getElem?_append_left hi] at hx
        exact h.later i x y hx hy
      · -- The element that was run just now: it arrived before this batch was taken.
        obtain ⟨hi', hx⟩ := List.getElem?_eq_some_iff.1 hx
        simp only [List.length_append, List.length_singleton] at hi'
        obtain rfl : i = q.done.length := by omega
        rw [List.getElem_append_right (Nat.le_refl _)] at hx
        simp only [Nat.sub_self, List.getElem_cons_zero] at hx
        rw [← hx]
        exact h.taken _ (by rw [hb, List.length_cons]; omega) y hy

/-- An element waits for the end of the batch that is running when it arrives, and is in the next
batch. -/
structure Prompt (q : Queue α) : Prop where
  done : ∀ (i : Nat) (x y : α × Nat), q.done[i]? = some x → q.history[i]? = some y → x.2 = y.2 + 1
  batch : ∀ i, q.done.length ≤ i → i < q.done.length + q.batch.length → ∀ y : α × Nat,
    q.history[i]? = some y → q.batches = y.2 + 1
  pending : ∀ i, q.done.length + q.batch.length ≤ i → ∀ y : α × Nat, q.history[i]? = some y →
    y.2 = q.batches

/-- **Every move keeps the consumer prompt.** -/
theorem Move.prompt {q q' : Queue α} (hm : Move q q') (he : Exact q) (h : Prompt q) :
    Prompt q' := by
  have hlen := he.length_eq
  cases hm with
  | stay => exact h
  | push a =>
    -- The new element stands behind all others.
    have hold : ∀ (i : Nat) (y : α × Nat), (q.history ++ [(a, q.batches)])[i]? = some y →
        q.history[i]? = some y ∨ i = q.history.length ∧ y = (a, q.batches) := by
      intro i y hy
      rcases Nat.lt_trichotomy i q.history.length with hi | rfl | hi
      · rw [List.getElem?_append_left hi] at hy
        exact .inl hy
      · exact .inr ⟨rfl, by simpa using hy.symm⟩
      · rw [List.getElem?_eq_none (by simp; omega)] at hy
        cases hy
    refine ⟨fun i x y hx hy => ?_, fun i hlow hhigh y hy => ?_, fun i hlow y hy => ?_⟩
    · have hi : i < q.done.length := (List.getElem?_eq_some_iff.1 hx).1
      rcases hold i y hy with hy | ⟨hi', -⟩
      · exact h.done i x y hx hy
      · omega
    · rcases hold i y hy with hy | ⟨hi, -⟩
      · exact h.batch i hlow hhigh y hy
      · simp only [Queue.push] at hhigh
        omega
    · rcases hold i y hy with hy | ⟨-, rfl⟩
      · exact h.pending i hlow y hy
      · rfl
  | swap hb =>
    refine ⟨h.done, fun i hlow hhigh y hy => ?_, fun i hlow y hy => ?_⟩
    · have hlow : q.done.length + q.batch.length ≤ i := by rw [hb]; exact hlow
      rw [h.pending i hlow y hy]
      rfl
    · have hi := (List.getElem?_eq_some_iff.1 hy).1
      simp only [Queue.swap] at hlow hi
      rw [hb, List.length_nil] at hlen
      omega
  | take a as hb =>
    rw [hb, List.length_cons] at hlen
    refine ⟨fun i x y hx hy => ?_, fun i hlow hhigh => ?_, fun i hlow => ?_⟩
    · simp only at hx hy
      rcases Nat.lt_or_ge i q.done.length with hi | hi
      · rw [List.getElem?_append_left hi] at hx
        exact h.done i x y hx hy
      · obtain ⟨hi', hx⟩ := List.getElem?_eq_some_iff.1 hx
        simp only [List.length_append, List.length_singleton] at hi'
        obtain rfl : i = q.done.length := by omega
        rw [List.getElem_append_right (Nat.le_refl _)] at hx
        simp only [Nat.sub_self, List.getElem_cons_zero] at hx
        rw [← hx]
        exact h.batch _ le_rfl (by rw [hb, List.length_cons]; omega) y hy
    · simp only [List.length_append, List.length_singleton] at hlow hhigh
      exact h.batch i (by omega) (by rw [hb, List.length_cons]; omega)
    · simp only [List.length_append, List.length_singleton] at hlow
      exact h.pending i (by rw [hb, List.length_cons]; omega)

/-- The history only grows. -/
theorem Move.history_isPrefix {q q' : Queue α} (hm : Move q q') : q.history <+: q'.history := by
  cases hm with
  | push a => exact List.prefix_append _ _
  | _ => exact List.prefix_refl _

end Queue

end BatchQueue
