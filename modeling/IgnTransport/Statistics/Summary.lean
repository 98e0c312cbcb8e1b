import IgnTransport.Statistics.Welford
import IgnTransport.Statistics.Extrema

/-!
# What the summary of a stream does and does not depend on

Over exact arithmetic, a fresh `Statistics` that absorbed fewer than `2⁶⁴` samples depends only
on the multiset of the samples, not on their order (`absorb_perm`): Welford's invariant fixes
the count, the average and the sum of squared distances from the sum and the sum of squares,
and the extremes are fixed by `absorb_min_spec` and `absorb_max_spec`. The reported values are
consistent with each other: `Min() ≤ Avg() ≤ Max()` for every nonempty stream
(`absorb_min_le_avg_le_max`), and `StdDev()` is zero exactly when all samples are equal
(`absorb_stdDev_eq_zero_iff`).
-/

namespace IgnTransport.Statistics

variable {α : Type} [LinearOrderedField α]

attribute [ext] Statistics

/-- Absorbing more samples can only lower `min`. -/
theorem absorb_min_le_of_subset (s : Statistics α) {xs ys : List α} (h : ys ⊆ xs) :
    (s.absorb xs).min ≤ (s.absorb ys).min := by
  obtain ⟨hle, hall, -⟩ := absorb_min_spec s xs
  rcases (absorb_min_spec s ys).2.2 with hys | hys
  · exact hys ▸ hle
  · exact hall _ (h hys)

/-- Absorbing more samples can only raise `max`. -/
theorem absorb_max_le_of_subset (s : Statistics α) {xs ys : List α} (h : xs ⊆ ys) :
    (s.absorb xs).max ≤ (s.absorb ys).max := by
  obtain ⟨hle, hall, -⟩ := absorb_max_spec s ys
  rcases (absorb_max_spec s xs).2.2 with hxs | hxs
  · exact hxs ▸ hle
  · exact hall _ (h hxs)

/-- The samples, in any order, fed to a fresh `Statistics`, fewer than `2⁶⁴` of them, leave the
same state: count, average, sum of squared distances, minimum and maximum. So the statistics
of a topic do not depend on the order in which the intervals arrive (in exact arithmetic;
`double` rounding does depend on it). -/
theorem absorb_perm {xs ys : List α} (h : xs.Perm ys) (hlt : xs.length < 2 ^ 64) :
    (init : Statistics α).absorb xs = init.absorb ys := by
  have hx := welford_absorb_init xs hlt
  have hy := welford_absorb_init ys (h.length_eq ▸ hlt)
  have havg : (init.absorb xs : Statistics α).average = (init.absorb ys).average := by
    rcases eq_or_ne xs [] with rfl | hne
    · rw [List.perm_nil.mp h.symm]
    · rw [hx.average_eq hne, hy.average_eq (fun hn => hne (List.perm_nil.mp (hn ▸ h))),
        h.sum_eq, h.length_eq]
  refine Statistics.ext (UInt64.ext ?_) havg ?_ ?_ ?_
  · rw [hx.count_toNat, hy.count_toNat, h.length_eq]
  · rw [hx.sumSquareMeanDist_eq, hy.sumSquareMeanDist_eq, havg, (h.map _).sum_eq, h.length_eq]
  · exact le_antisymm (absorb_min_le_of_subset _ h.symm.subset)
      (absorb_min_le_of_subset _ h.subset)
  · exact le_antisymm (absorb_max_le_of_subset _ h.subset)
      (absorb_max_le_of_subset _ h.symm.subset)

/-- The intervals `3, 1, 2` and `1, 2, 3` give the same `Statistics`. -/
theorem absorb_perm_three_one_two :
    ([3, 1, 2] : List ℚ).Perm [1, 2, 3] ∧ ([3, 1, 2] : List ℚ).length < 2 ^ 64 ∧
      (init : Statistics ℚ).absorb [3, 1, 2] = init.absorb [1, 2, 3] := by
  have h : ([3, 1, 2] : List ℚ).Perm [1, 2, 3] :=
    (List.Perm.swap 1 3 [2]).trans ((List.Perm.swap 2 3 []).cons 1)
  exact ⟨h, by norm_num, absorb_perm h (by norm_num)⟩

/-- The mean of a nonempty stream, fewer than `2⁶⁴` samples, lies between its extremes:
`Min() ≤ Avg() ≤ Max()`. -/
theorem absorb_min_le_avg_le_max (xs : List α) (hne : xs ≠ []) (hlt : xs.length < 2 ^ 64) :
    (init.absorb xs).min ≤ (init.absorb xs).avg ∧ (init.absorb xs).avg ≤ (init.absorb xs).max := by
  have hw := welford_absorb_init xs hlt
  have hn : (0 : α) < xs.length := Nat.cast_pos.mpr (List.length_pos.mpr hne)
  have hmin := List.card_nsmul_le_sum xs _ (absorb_min_spec init xs).2.1
  have hmax := List.sum_le_card_nsmul xs _ (absorb_max_spec init xs).2.1
  rw [nsmul_eq_mul, ← hw.length_mul_average] at hmin hmax
  exact ⟨le_of_mul_le_mul_left hmin hn, le_of_mul_le_mul_left hmax hn⟩

/-- The intervals `1, 5`: `1 ≤ 3 ≤ 5`. -/
theorem absorb_min_le_avg_le_max_one_five :
    ([1, 5] : List ℚ) ≠ [] ∧ ([1, 5] : List ℚ).length < 2 ^ 64 ∧
      ((init : Statistics ℚ).absorb [1, 5]).min ≤ ((init : Statistics ℚ).absorb [1, 5]).avg ∧
      ((init : Statistics ℚ).absorb [1, 5]).avg ≤ ((init : Statistics ℚ).absorb [1, 5]).max :=
  ⟨by simp, by norm_num, absorb_min_le_avg_le_max _ (by simp) (by norm_num)⟩

/-- A sum of squared distances from `a` is zero exactly when every sample is `a`. -/
theorem sum_map_sub_sq_eq_zero_iff (xs : List α) (a : α) :
    (xs.map fun x => (x - a) ^ 2).sum = 0 ↔ ∀ x ∈ xs, x = a := by
  induction xs with
  | nil => simp
  | cons x xs ih =>
      rw [List.map_cons, List.sum_cons, add_eq_zero_iff_of_nonneg (sq_nonneg _)
        (List.sum_nonneg (by simp [sq_nonneg])), ih, pow_eq_zero_iff two_ne_zero, sub_eq_zero,
        List.forall_mem_cons]

/-- For a nonempty stream of fewer than `2⁶⁴` samples, `StdDev()` is zero exactly when all the
samples are equal, for any square root that squares back on non-negative numbers. -/
theorem absorb_stdDev_eq_zero_iff (sqrt : α → α) (hsqrt : ∀ v, 0 ≤ v → sqrt v ^ 2 = v)
    (xs : List α) (hne : xs ≠ []) (hlt : xs.length < 2 ^ 64) :
    (init.absorb xs).stdDev sqrt = 0 ↔ ∀ x ∈ xs, ∀ y ∈ xs, x = y := by
  have hw := welford_absorb_init xs hlt
  have hn : (xs.length : α) ≠ 0 := Nat.cast_ne_zero.mpr (List.length_pos.mpr hne).ne'
  have hsum := hw.sumSquareMeanDist_eq_sum
  have hnonneg : 0 ≤ (init.absorb xs).sumSquareMeanDist / xs.length := by
    rw [hsum]
    exact div_nonneg (List.sum_nonneg (by simp [sq_nonneg])) (Nat.cast_nonneg _)
  have hsqrt_zero : sqrt ((init.absorb xs).sumSquareMeanDist / xs.length) = 0 ↔
      (init.absorb xs).sumSquareMeanDist / xs.length = 0 := by
    rw [← pow_eq_zero_iff two_ne_zero, hsqrt _ hnonneg]
  rw [stdDev, hw.count_toNat, hsqrt_zero, div_eq_zero_iff, or_iff_left hn, hsum,
    sum_map_sub_sq_eq_zero_iff]
  constructor
  · intro h x hx y hy
    rw [h x hx, h y hy]
  · intro h x hx
    obtain ⟨a, ha⟩ := List.exists_mem_of_ne_nil xs hne
    have havg : (init.absorb xs).average = a := mul_left_cancel₀ hn (by
      rw [hw.length_mul_average, List.sum_eq_card_nsmul xs a fun b hb => h b hb a ha,
        nsmul_eq_mul])
    rw [havg]
    exact h x hx a ha

end IgnTransport.Statistics
