import Mathlib

/-!
# Histories

A history is the list of the events so far, and a rule of order says of an event what must have
come before it. `Guarded P l` says that the history `l` follows the rule `P`: every event of `l` is
allowed by the events in front of it. A history is extended at its end, and `Guarded.append` says
what the extension has to meet.
-/

namespace Trace

variable {α : Type*} {P : List α → α → Prop}

/-- Every event is allowed by those before it. -/
def Guarded (P : List α → α → Prop) (l : List α) : Prop := ∀ pre x, pre ++ [x] <+: l → P pre x

theorem guarded_nil : Guarded P [] := fun pre x h => by simp at h

/-- **One more event**, which those before it allow. -/
theorem Guarded.concat {l : List α} {x : α} (h : Guarded P l) (hx : P l x) :
    Guarded P (l ++ [x]) := by
  intro pre y hpre
  rcases List.prefix_concat_iff.1 hpre with heq | hpre
  · obtain ⟨rfl, hy⟩ := List.append_inj' heq rfl
    obtain rfl : y = x := by simpa using hy
    exact hx
  · exact h pre y hpre

/-- More events, each of which those before it allow. -/
theorem Guarded.append {l es : List α} (h : Guarded P l)
    (hes : ∀ pre x post, es = pre ++ x :: post → P (l ++ pre) x) : Guarded P (l ++ es) := by
  induction es using List.reverseRecOn with
  | nil => simpa using h
  | append_singleton es x ih =>
    rw [← List.append_assoc]
    refine Guarded.concat (ih fun pre y post he => hes pre y (post ++ [x]) ?_) (hes es x [] rfl)
    rw [he, List.append_assoc]; rfl

/-- More events, of which the rule says nothing. -/
theorem Guarded.append_of_forall {l es : List α} (h : Guarded P l)
    (hes : ∀ x ∈ es, ∀ pre, P pre x) : Guarded P (l ++ es) :=
  h.append fun pre x post he => hes x (by rw [he]; simp) (l ++ pre)

theorem guarded_of_forall {l : List α} (h : ∀ x ∈ l, ∀ pre, P pre x) : Guarded P l := by
  simpa using guarded_nil.append_of_forall h

end Trace
