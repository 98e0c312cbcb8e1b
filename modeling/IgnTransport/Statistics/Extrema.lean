import IgnTransport.Statistics.Basic

/-!
# The extremes kept by `Statistics`

`update` folds `std::min` and `std::max` over the samples, starting from the member
initializers. `absorb_min_spec` and `absorb_max_spec` say what that gives from any state:
a bound on every sample that is either the old value or one of the samples. From a
default-constructed `Statistics`, `Min()` is the least sample when no sample exceeds
`DBL_MAX`, but `Max()` is the largest sample only when some sample reaches `2⁻¹⁰²²`
(`absorb_init_max`): the initializer `numeric_limits<double>::min()` is the smallest positive
double, so a stream of zero or negative samples reports `2⁻¹⁰²²` (`absorb_zero_max`).
-/

namespace IgnTransport.Statistics

variable {α : Type} [LinearOrderedField α]

/-- After absorbing `xs`, `min` is below the old `min` and every sample, and is one of them. -/
theorem absorb_min_spec (s : Statistics α) (xs : List α) :
    (s.absorb xs).min ≤ s.min ∧ (∀ x ∈ xs, (s.absorb xs).min ≤ x) ∧
      ((s.absorb xs).min = s.min ∨ (s.absorb xs).min ∈ xs) := by
  induction xs generalizing s with
  | nil => simp
  | cons x xs ih =>
      obtain ⟨hle, hall, hmem⟩ := ih (s.update x)
      simp only [absorb_cons, update_min, le_min_iff, List.mem_cons, forall_eq_or_imp] at *
      refine ⟨hle.1, ⟨hle.2, hall⟩, ?_⟩
      rcases hmem with h | h
      · rcases min_choice s.min x with h' | h' <;> simp [h, h']
      · exact .inr (.inr h)

/-- After absorbing `xs`, `max` is above the old `max` and every sample, and is one of them. -/
theorem absorb_max_spec (s : Statistics α) (xs : List α) :
    s.max ≤ (s.absorb xs).max ∧ (∀ x ∈ xs, x ≤ (s.absorb xs).max) ∧
      ((s.absorb xs).max = s.max ∨ (s.absorb xs).max ∈ xs) := by
  induction xs generalizing s with
  | nil => simp
  | cons x xs ih =>
      obtain ⟨hle, hall, hmem⟩ := ih (s.update x)
      simp only [absorb_cons, update_max, max_le_iff, List.mem_cons, forall_eq_or_imp] at *
      refine ⟨hle.1, ⟨hle.2, hall⟩, ?_⟩
      rcases hmem with h | h
      · rcases max_choice s.max x with h' | h' <;> simp [h, h']
      · exact .inr (.inr h)

/-- `Min()` of a nonempty stream with no sample above `DBL_MAX` is its least sample. -/
theorem absorb_init_min (xs : List α) (hne : xs ≠ []) (hle : ∀ x ∈ xs, x ≤ doubleMax) :
    (init.absorb xs).min ∈ xs ∧ ∀ x ∈ xs, (init.absorb xs).min ≤ x := by
  obtain ⟨-, hall, hmem⟩ := absorb_min_spec (init : Statistics α) xs
  refine ⟨?_, hall⟩
  rcases hmem with h | h
  · obtain ⟨x, hx⟩ := List.exists_mem_of_ne_nil xs hne
    have hx' : (init.absorb xs).min = x := le_antisymm (hall x hx) (by rw [h]; exact hle x hx)
    exact hx' ▸ hx
  · exact h

/-- The samples `3, 1, 2`: `Min()` is `1`. -/
theorem absorb_init_min_three_one_two :
    ([3, 1, 2] : List ℚ) ≠ [] ∧ (∀ x ∈ ([3, 1, 2] : List ℚ), x ≤ doubleMax) ∧
      ((init : Statistics ℚ).absorb [3, 1, 2]).min ∈ ([3, 1, 2] : List ℚ) ∧
      ∀ x ∈ ([3, 1, 2] : List ℚ), ((init : Statistics ℚ).absorb [3, 1, 2]).min ≤ x := by
  have hle : ∀ x ∈ ([3, 1, 2] : List ℚ), x ≤ doubleMax := by norm_num [doubleMax]
  exact ⟨by simp, hle, absorb_init_min [3, 1, 2] (by simp) hle⟩

/-- `Max()` is the largest sample once some sample reaches `2⁻¹⁰²²`. -/
theorem absorb_init_max (xs : List α) (hge : ∃ x ∈ xs, (doubleMin : α) ≤ x) :
    (init.absorb xs).max ∈ xs ∧ ∀ x ∈ xs, x ≤ (init.absorb xs).max := by
  obtain ⟨-, hall, hmem⟩ := absorb_max_spec (init : Statistics α) xs
  refine ⟨?_, hall⟩
  rcases hmem with h | h
  · obtain ⟨x, hx, hxge⟩ := hge
    have hx' : (init.absorb xs).max = x := le_antisymm (by rw [h]; exact hxge) (hall x hx)
    exact hx' ▸ hx
  · exact h

/-- The samples `0, 2`: `Max()` is `2`. -/
theorem absorb_init_max_zero_two :
    (∃ x ∈ ([0, 2] : List ℚ), (doubleMin : ℚ) ≤ x) ∧
      ((init : Statistics ℚ).absorb [0, 2]).max ∈ ([0, 2] : List ℚ) ∧
      ∀ x ∈ ([0, 2] : List ℚ), x ≤ ((init : Statistics ℚ).absorb [0, 2]).max := by
  have hge : ∃ x ∈ ([0, 2] : List ℚ), (doubleMin : ℚ) ≤ x := ⟨2, by simp, by norm_num [doubleMin]⟩
  exact ⟨hge, absorb_init_max [0, 2] hge⟩

/-- While no sample exceeds `2⁻¹⁰²²`, `Max()` reports `2⁻¹⁰²²` itself. -/
theorem absorb_init_max_of_le (xs : List α) (hle : ∀ x ∈ xs, x ≤ (doubleMin : α)) :
    (init.absorb xs).max = doubleMin := by
  obtain ⟨hinit, -, hmem⟩ := absorb_max_spec (init : Statistics α) xs
  rcases hmem with h | h
  · exact h
  · exact le_antisymm (hle _ h) hinit

/-- The samples `0, -1`: `Max()` reports `2⁻¹⁰²²`. -/
theorem absorb_init_max_of_le_zero_neg_one :
    (∀ x ∈ ([0, -1] : List ℚ), x ≤ doubleMin) ∧
      ((init : Statistics ℚ).absorb [0, -1]).max = doubleMin := by
  have hle : ∀ x ∈ ([0, -1] : List ℚ), x ≤ doubleMin := by norm_num [doubleMin]
  exact ⟨hle, absorb_init_max_of_le [0, -1] hle⟩

/-- One zero sample: `Max()` is `2⁻¹⁰²²`, not the sample. -/
theorem absorb_zero_max : ((init : Statistics ℚ).absorb [0]).max = doubleMin ∧ doubleMin ≠ 0 :=
  ⟨by simp [doubleMin_pos.le], doubleMin_pos.ne'⟩

end IgnTransport.Statistics
