import IgnTransport.Statistics.Basic

/-!
# Welford's update keeps the closed-form mean and variance

`Welford s xs` says that `s` holds what the closed forms give for the samples `xs`: the
count, the sum as `count * average`, and the sum of squares less `count * average²` as
`sumSquareMeanDist`. `Welford.update` is the step and `Welford.absorb` the run. The main
theorem, `absorb_mean_variance`, reads the invariant back as the mean and the population
variance of the samples, for every sample list shorter than `2⁶⁴`, where `count` would wrap.
-/

namespace IgnTransport.Statistics

variable {α : Type} [LinearOrderedField α]

/-- The invariant of `update`, in polynomial form so that the step needs no division. -/
structure Welford (s : Statistics α) (xs : List α) : Prop where
  count_toNat : s.count.toNat = xs.length
  length_mul_average : (xs.length : α) * s.average = xs.sum
  sumSquareMeanDist_eq : s.sumSquareMeanDist = (xs.map (· ^ 2)).sum - xs.length * s.average ^ 2

theorem welford_init : Welford (init : Statistics α) [] := ⟨rfl, by simp, by simp⟩

/-- One `update` keeps the invariant, the new average being `(n * average + x) / (n + 1)`. -/
theorem Welford.update {s : Statistics α} {xs : List α} (h : Welford s xs) (x : α)
    (hlt : xs.length + 1 < 2 ^ 64) : Welford (s.update x) (xs ++ [x]) := by
  have hcount := toNat_add_one_of_lt h.count_toNat hlt
  have hn : (xs.length + 1 : α) ≠ 0 := Nat.cast_add_one_ne_zero _
  have havg : (xs.length + 1 : α) * (s.update x).average = xs.length * s.average + x := by
    rw [update_average, hcount, Nat.cast_add_one, mul_add, mul_div_cancel₀ _ hn]
    ring
  refine ⟨by simpa using hcount, ?_, ?_⟩
  · simp only [List.length_append, List.length_singleton, Nat.cast_add, Nat.cast_one,
      List.sum_append, List.sum_singleton, havg, h.length_mul_average]
  · rw [update_sumSquareMeanDist, h.sumSquareMeanDist_eq]
    simp only [List.map_append, List.sum_append, List.length_append, List.length_singleton,
      List.map_singleton, List.sum_singleton, Nat.cast_add, Nat.cast_one]
    linear_combination (s.average + (s.update x).average) * havg

/-- Absorbing a list keeps the invariant while the count stays below `2⁶⁴`. -/
theorem Welford.absorb {s : Statistics α} {ys : List α} (h : Welford s ys) (xs : List α)
    (hlt : (ys ++ xs).length < 2 ^ 64) : Welford (s.absorb xs) (ys ++ xs) := by
  induction xs generalizing s ys with
  | nil => simpa using h
  | cons x xs ih =>
      have hstep := h.update x (by simp only [List.length_append, List.length_cons] at hlt; omega)
      simpa using ih hstep (by simpa using hlt)

theorem welford_absorb_init (xs : List α) (hlt : xs.length < 2 ^ 64) :
    Welford (init.absorb xs) xs := by
  simpa using welford_init.absorb xs (by simpa using hlt)

/-- The sum of squared distances from `a`, expanded. -/
theorem sum_map_sub_sq (xs : List α) (a : α) :
    (xs.map fun x => (x - a) ^ 2).sum =
      (xs.map (· ^ 2)).sum - 2 * a * xs.sum + xs.length * a ^ 2 := by
  induction xs with
  | nil => simp
  | cons x xs ih =>
      simp only [List.map_cons, List.sum_cons, ih, List.length_cons, Nat.cast_add, Nat.cast_one]
      ring

/-- Under the invariant, with at least one sample, `average` is the mean. -/
theorem Welford.average_eq {s : Statistics α} {xs : List α} (h : Welford s xs) (hne : xs ≠ []) :
    s.average = xs.sum / xs.length := by
  have hn : (xs.length : α) ≠ 0 := Nat.cast_ne_zero.mpr (List.length_pos.mpr hne).ne'
  rw [eq_div_iff hn, mul_comm, h.length_mul_average]

/-- Under the invariant, `sumSquareMeanDist` is the sum of squared distances from `average`. -/
theorem Welford.sumSquareMeanDist_eq_sum {s : Statistics α} {xs : List α} (h : Welford s xs) :
    s.sumSquareMeanDist = (xs.map fun x => (x - s.average) ^ 2).sum := by
  rw [sum_map_sub_sq, h.sumSquareMeanDist_eq, ← h.length_mul_average]
  ring

/-- Welford's algorithm over exact arithmetic: after the samples `xs`, `1 ≤ n < 2⁶⁴` of them,
the count is `n`, `Avg()` is the mean, `sumSquareMeanDist` is the sum of squared distances
from it, and the square of `StdDev()` is the population variance, for any square root that
squares back on non-negative numbers. -/
theorem absorb_mean_variance (sqrt : α → α) (hsqrt : ∀ v, 0 ≤ v → sqrt v ^ 2 = v)
    (xs : List α) (hne : xs ≠ []) (hlt : xs.length < 2 ^ 64) :
    (init.absorb xs).count.toNat = xs.length ∧
    (init.absorb xs).avg = xs.sum / xs.length ∧
    (init.absorb xs).sumSquareMeanDist = (xs.map fun x => (x - (init.absorb xs).avg) ^ 2).sum ∧
    (init.absorb xs).stdDev sqrt ^ 2 =
      (xs.map fun x => (x - xs.sum / xs.length) ^ 2).sum / xs.length := by
  have h := welford_absorb_init xs hlt
  have hmean := h.average_eq hne
  have hsum := h.sumSquareMeanDist_eq_sum
  have hnonneg : 0 ≤ (init.absorb xs).sumSquareMeanDist / xs.length := by
    rw [hsum]
    exact div_nonneg (List.sum_nonneg (by simp [sq_nonneg])) (Nat.cast_nonneg _)
  refine ⟨h.count_toNat, hmean, hsum, ?_⟩
  rw [stdDev, h.count_toNat, hsqrt _ hnonneg, hsum, hmean]

/-- The samples `1, 3` over the reals, with `Real.sqrt` as `std::sqrt`. -/
theorem absorb_mean_variance_one_three :
    (∀ v : ℝ, 0 ≤ v → √v ^ 2 = v) ∧ ([1, 3] : List ℝ) ≠ [] ∧ [(1 : ℝ), 3].length < 2 ^ 64 ∧
    ((init : Statistics ℝ).absorb [1, 3]).count.toNat = 2 ∧
    ((init : Statistics ℝ).absorb [1, 3]).avg = 2 ∧
    ((init : Statistics ℝ).absorb [1, 3]).stdDev Real.sqrt ^ 2 = 1 := by
  have hsqrt : ∀ v : ℝ, 0 ≤ v → √v ^ 2 = v := fun _ hv => Real.sq_sqrt hv
  obtain ⟨hcount, havg, -, hstd⟩ :=
    absorb_mean_variance Real.sqrt hsqrt [1, 3] (by simp) (by norm_num)
  refine ⟨hsqrt, by simp, by norm_num, hcount, ?_, ?_⟩
  · rw [havg]; norm_num
  · rw [hstd]; norm_num

end IgnTransport.Statistics
