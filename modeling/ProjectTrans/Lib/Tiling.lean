import Mathlib.Tactic

/-!
# Cutting a range into tiles

A range of `total` positions is cut into tiles of `size` positions, of which only the last
may be shorter. `lt_count_iff` says which tiles there are; `sum_length` that they are as long
as the range.
-/

namespace Tiling

/-- The number of tiles. -/
def count (total size : ℕ) : ℕ := (total + size - 1) / size

/-- The length of tile `i`. -/
def length (total size i : ℕ) : ℕ := min size (total - i * size)

variable {total size : ℕ}

theorem lt_count_iff (hs : 0 < size) {i : ℕ} : i < count total size ↔ i * size < total := by
  rw [count, ← Nat.succ_le_iff, Nat.le_div_iff_mul_le hs, Nat.succ_mul]
  omega

theorem length_pos (hs : 0 < size) {i : ℕ} (hi : i < count total size) : 0 < length total size i := by
  have := (lt_count_iff hs).1 hi
  rw [length]
  omega

theorem length_le (i : ℕ) : length total size i ≤ size := min_le_left _ _

/-- All tiles but the last have the full length. -/
theorem length_full (hs : 0 < size) {i : ℕ} (hi : i + 1 < count total size) : length total size i = size := by
  have := (lt_count_iff hs).1 hi
  rw [Nat.succ_mul] at this
  rw [length]
  omega

/-- The first `k` tiles reach as far as `k` full ones, or to the end. -/
theorem sum_range (k : ℕ) : ((List.range k).map (length total size)).sum = min (k * size) total := by
  induction k with
  | zero => simp
  | succ k ih =>
    rw [List.range_succ, List.map_append, List.sum_append, ih, List.map_singleton, List.sum_singleton, length,
      Nat.succ_mul]
    omega

/-- **The tiles are as long as the range.** -/
theorem sum_length (hs : 0 < size) : ((List.range (count total size)).map (length total size)).sum = total := by
  rw [sum_range, min_eq_right]
  exact not_lt.1 fun hlt => lt_irrefl _ ((lt_count_iff hs).2 hlt)

end Tiling
