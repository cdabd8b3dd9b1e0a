import Mathlib

/-!
# Element-by-element writes into a list

`splice xs i ys` writes the elements of `ys` over `xs` from position `i` on, one store after the
other. `copyWithin n src dst xs` is the ascending copy loop with source and destination in the
same list: every store is seen by the loads that follow it.

**Theorem (`copyWithin_eq`).** When the destination does not lie behind the source, the loop moves
the old elements of the source range, however the two ranges overlap.
-/

namespace Splice

variable {α : Type*}

/-- Store `ys` over `xs`, one element after the other, from position `i`. -/
def splice : List α → Nat → List α → List α
  | xs, _, [] => xs
  | xs, i, y :: ys => splice (xs.set i y) (i + 1) ys

/-- The ascending copy of `n` elements from `src` to `dst` inside one list. -/
def copyWithin : Nat → Nat → Nat → List α → List α
  | 0, _, _, xs => xs
  | n + 1, src, dst, xs =>
    match xs[src]? with
    | some x => copyWithin n (src + 1) (dst + 1) (xs.set dst x)
    | none => xs

@[simp] theorem length_splice (xs : List α) (i : Nat) (ys : List α) :
    (splice xs i ys).length = xs.length := by
  induction ys generalizing xs i with
  | nil => rfl
  | cons y ys ih => simp [splice, ih]

theorem splice_eq {xs ys : List α} {i : Nat} (h : i + ys.length ≤ xs.length) :
    splice xs i ys = xs.take i ++ ys ++ xs.drop (i + ys.length) := by
  induction ys generalizing xs i with
  | nil => simp [splice]
  | cons y ys ih =>
    simp only [List.length_cons] at h
    rw [splice, ih (by simp only [List.length_set]; omega),
      List.set_eq_take_append_cons_drop, if_pos (by omega)]
    have htake : (xs.take i ++ y :: xs.drop (i + 1)).take (i + 1) = xs.take i ++ [y] := by
      rw [List.take_append, List.take_of_length_le (by rw [List.length_take]; omega)]
      simp [Nat.min_eq_left (show i ≤ xs.length by omega)]
    have hdrop : (xs.take i ++ y :: xs.drop (i + 1)).drop (i + 1 + ys.length) =
        xs.drop (i + (ys.length + 1)) := by
      rw [List.drop_append, List.drop_of_length_le (by simp; omega)]
      simp only [List.length_take, Nat.min_eq_left (show i ≤ xs.length by omega)]
      rw [show i + 1 + ys.length - i = ys.length + 1 by omega, List.drop_succ_cons,
        List.drop_drop, List.nil_append]
      congr 1; omega
    rw [htake, hdrop]
    simp

@[simp] theorem length_copyWithin (n src dst : Nat) (xs : List α) :
    (copyWithin n src dst xs).length = xs.length := by
  induction n generalizing src dst xs with
  | zero => rfl
  | succ n ih =>
    unfold copyWithin
    split
    · rw [ih, List.length_set]
    · rfl

/-- **The ascending loop is a block move** when the destination is not behind the source. -/
theorem copyWithin_eq {n src dst : Nat} {xs : List α} (hle : dst ≤ src)
    (hn : src + n ≤ xs.length) :
    copyWithin n src dst xs = splice xs dst ((xs.drop src).take n) := by
  induction n generalizing src dst xs with
  | zero => simp [copyWithin, splice]
  | succ n ih =>
    have hsrc : src < xs.length := by omega
    rw [copyWithin, List.getElem?_eq_getElem hsrc]
    simp only
    rw [ih (by omega) (by simp only [List.length_set]; omega),
      List.drop_eq_getElem_cons hsrc, List.take_succ_cons, splice]
    -- The store at `dst` is not read again: the remaining source starts at `src + 1 > dst`.
    rw [List.drop_set_of_lt (show dst < src + 1 by omega)]

end Splice
