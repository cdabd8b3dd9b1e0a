import Mathlib

/-!
# A window that doubles when it is full

A window of a given size looks at the front of a list. When it has been filled, it is twice as large
at the next look. So it is never larger than twice the longest list, beyond its first size
(`foldl_grow_le`), and it falls short of the whole list only as often as it can double
(`exists_whole`).
-/

namespace Window

variable {α : Type*}

/-- The size of the window after a look at `xs`. -/
def grow (size : ℕ) (xs : List α) : ℕ := if (xs.take size).length = size then 2 * size else size

theorem le_grow (size : ℕ) (xs : List α) : size ≤ grow size xs := by
  unfold grow
  split <;> omega

theorem grow_le (size : ℕ) (xs : List α) : grow size xs ≤ max size (2 * xs.length) := by
  unfold grow
  split
  · rename_i hfull
    rw [List.length_take] at hfull
    omega
  · exact le_max_left _ _

/-- A look at more than the window can hold fills it. -/
theorem whole_or_grown (size : ℕ) (xs : List α) : xs.take size = xs ∨ grow size xs = 2 * size := by
  rcases Nat.lt_or_ge size xs.length with hlt | hle
  · right
    rw [grow, if_pos (by rw [List.length_take]; omega)]
  · exact .inl (List.take_of_length_le hle)

theorem le_foldl_grow (size : ℕ) (looks : List (List α)) : size ≤ looks.foldl grow size := by
  induction looks generalizing size with
  | nil => exact le_rfl
  | cons xs looks ih => exact (le_grow size xs).trans (ih _)

/-- **A window is at most twice the longest list.** -/
theorem foldl_grow_le (size : ℕ) {peak : ℕ} {looks : List (List α)}
    (h : ∀ xs ∈ looks, xs.length ≤ peak) : looks.foldl grow size ≤ max size (2 * peak) := by
  induction looks generalizing size with
  | nil => exact le_max_left _ _
  | cons xs looks ih =>
    have hlook := h xs (by simp)
    have hgrow := grow_le size xs
    have hrest := ih (grow size xs) fun ys hys => h ys (by simp [hys])
    simp only [List.foldl_cons]
    omega

/-- **One of the looks sees the whole list**, if there are more looks than the window has to double
to be as long as the longest list. -/
theorem exists_whole (size k : ℕ) {looks : List (List α)} (hk : k < looks.length)
    (h : ∀ xs ∈ looks, xs.length ≤ size * 2 ^ k) :
    ∃ before xs after, looks = before ++ xs :: after ∧
      xs.take (before.foldl grow size) = xs := by
  induction looks generalizing size k with
  | nil => simp at hk
  | cons xs looks ih =>
    rcases whole_or_grown size xs with hwhole | hgrown
    · exact ⟨[], xs, looks, rfl, hwhole⟩
    · cases k with
      | zero =>
        refine ⟨[], xs, looks, rfl, List.take_of_length_le ?_⟩
        simpa using h xs (by simp)
      | succ k =>
        obtain ⟨before, ys, after, rfl, hys⟩ := ih (2 * size) k
          (by simpa using hk) fun ys hmem => by
            have hlen := h ys (by simp [hmem])
            rw [pow_succ] at hlen
            linarith
        refine ⟨xs :: before, ys, after, rfl, ?_⟩
        rw [List.foldl_cons, hgrown]
        exact hys

end Window
