import IgnTransport.TopicStatistics.Yaml
import IgnTransport.Statistics.Summary

/-!
# The rates and spreads `YamlString` reports

`avg_hz` is `1 / (Avg() * 1e-3)`, the inverse of the mean interval read in milliseconds. Along
calls stamped before the last whose stamps (clock readings) do not decrease, the recorded
intervals telescope from the first stamp to the last (`sum_intervals_add`), so `Avg()` is that
span over the `n - 1` intervals and, when the span is positive, `avg_hz` is `1000 · (n - 1)`
over the span: the messages after the first per second (`run_avg_avgHz`). With a zero span the
code divides by zero, which the field model does not follow, so no statement is made there.
Each interval is part of the span, so, when the span is positive, `Min()` is not negative and
`Max()` does not exceed it (`run_extrema_within_span`); with a zero span `Max()` is the
initializer `2⁻¹⁰²²` instead. Along the same runs `std_deviation` is zero exactly when the
stamps (clock readings) are evenly spaced (`run_stdDev_eq_zero_iff`).
-/

namespace IgnTransport.TopicStatistics

variable {α : Type} [LinearOrderedField α]

/-- Along calls stamped before the last where `value` does not decrease, the intervals of
`value` telescope from the first call's reading to the last's. -/
theorem sum_intervals_add (value : Receipt → UInt64) : ∀ {calls : List Receipt}
    {first last : Receipt}, calls.head? = some first → calls.getLast? = some last →
      (∀ c ∈ calls.dropLast, c.meta.stamp ≠ 0) → calls.Chain' (fun a b => value a ≤ value b) →
      ((gatedPairs calls).map fun p => (value p.2 - value p.1).toNat).sum + (value first).toNat =
        (value last).toNat
  | [], _, _, hfirst, _, _, _ => by simp at hfirst
  | [c], _, _, hfirst, hlast, _, _ => by
      obtain rfl : c = _ := by simpa using hfirst
      obtain rfl : c = _ := by simpa using hlast
      simp
  | c :: d :: ds, first, last, hfirst, hlast, hstamp, hmono => by
      obtain rfl : c = first := by simpa using hfirst
      rw [List.chain'_cons] at hmono
      have hle : (value c).toNat ≤ (value d).toNat := hmono.1
      have ih := sum_intervals_add value (show (d :: ds).head? = some d from rfl)
        (by simpa [List.getLast?_cons_cons] using hlast)
        (fun e he => hstamp e (by simp [List.dropLast_cons₂, he])) hmono.2
      simp only [gatedPairs_cons_cons, hstamp c (by simp), if_false, List.singleton_append,
        List.map_cons, List.sum_cons, UInt64.toNat_sub_of_le _ _ hmono.1] at ih ⊢
      omega

/-- The average of the intervals of a non-decreasing `value` along `n` calls, `2 ≤ n ≤ 2⁶⁴`,
stamped before the last, is the span of `value` over the `n - 1` intervals. -/
theorem average_intervals_eq (value : Receipt → UInt64) {calls : List Receipt}
    {first last : Receipt} (hfirst : calls.head? = some first)
    (hlast : calls.getLast? = some last) (hlen : 2 ≤ calls.length)
    (hle : calls.length ≤ 2 ^ 64) (hstamp : ∀ c ∈ calls.dropLast, c.meta.stamp ≠ 0)
    (hmono : calls.Chain' fun a b => value a ≤ value b) :
    (Statistics.init.absorb
        ((gatedPairs calls).map fun p => ((value p.2 - value p.1).toNat : α))).average =
      ((value last).toNat - (value first).toNat : α) / (calls.length - 1 : ℕ) := by
  set ns := (gatedPairs calls).map fun p => (value p.2 - value p.1).toNat
  have hxs : ((gatedPairs calls).map fun p => ((value p.2 - value p.1).toNat : α)) =
      ns.map (Nat.cast : ℕ → α) := by simp [ns]
  have hns : ns.length = calls.length - 1 := by simp [ns, length_gatedPairs_of_stamped hstamp]
  have htel : ns.sum + (value first).toNat = (value last).toNat :=
    sum_intervals_add value hfirst hlast hstamp hmono
  rw [hxs, (Statistics.welford_absorb_init _ (by simp only [List.length_map]; omega)).average_eq
    (by simpa using List.ne_nil_of_length_pos (by omega : 0 < ns.length)),
    ← Nat.cast_list_sum, List.length_map, hns, ← htel, Nat.cast_add, add_sub_cancel_right]

/-- `avg_hz` of a `Statistics` whose average is `span / n`. -/
theorem avgHz_of_avg_eq {s : Statistics α} {span n : α} (h : s.avg = span / n) :
    avgHz s = 1000 * n / span := by
  rw [avgHz, h, one_div, mul_inv, inv_div, one_div, inv_inv]
  ring

/-- Along `n` calls, `2 ≤ n ≤ 2⁶⁴`, stamped before the last, whose stamps and clock readings
do not decrease, each `Avg()` is the span of the stamps (clock readings) over the `n - 1`
intervals and, when that span is positive, each `avg_hz` is `1000 · (n - 1)` over it. -/
theorem run_avg_avgHz (calls : List Receipt) (first last : Receipt)
    (hfirst : calls.head? = some first) (hlast : calls.getLast? = some last)
    (hlen : 2 ≤ calls.length) (hle : calls.length ≤ 2 ^ 64)
    (hstamp : ∀ c ∈ calls.dropLast, c.meta.stamp ≠ 0)
    (hpub : calls.Chain' fun a b => a.meta.stamp ≤ b.meta.stamp)
    (hrecv : calls.Chain' fun a b => a.now ≤ b.now) :
    (init.run calls : TopicStatistics α).publication.avg =
        ((last.meta.stamp.toNat : α) - first.meta.stamp.toNat) / (calls.length - 1 : ℕ) ∧
      (first.meta.stamp < last.meta.stamp → avgHz (init.run calls : TopicStatistics α).publication =
        1000 * (calls.length - 1 : ℕ) / ((last.meta.stamp.toNat : α) - first.meta.stamp.toNat)) ∧
      (init.run calls : TopicStatistics α).receive.avg =
        ((last.now.toNat : α) - first.now.toNat) / (calls.length - 1 : ℕ) ∧
      (first.now < last.now → avgHz (init.run calls : TopicStatistics α).receive =
        1000 * (calls.length - 1 : ℕ) / ((last.now.toNat : α) - first.now.toNat)) := by
  obtain ⟨hp, hr⟩ := run_init_samples (α := α) calls
  have hpavg : (init.run calls : TopicStatistics α).publication.avg =
      ((last.meta.stamp.toNat : α) - first.meta.stamp.toNat) / (calls.length - 1 : ℕ) := by
    rw [hp]; exact average_intervals_eq (·.meta.stamp) hfirst hlast hlen hle hstamp hpub
  have hravg : (init.run calls : TopicStatistics α).receive.avg =
      ((last.now.toNat : α) - first.now.toNat) / (calls.length - 1 : ℕ) := by
    rw [hr]; exact average_intervals_eq (·.now) hfirst hlast hlen hle hstamp hrecv
  exact ⟨hpavg, fun _ => avgHz_of_avg_eq hpavg, hravg, fun _ => avgHz_of_avg_eq hravg⟩

/-- Three calls stamped `10, 12, 16` and received at `0, 4, 10`: `Avg()` is `3` and `5`, and
`avg_hz` is `1000 · 2 / 6` and `1000 · 2 / 10`. -/
theorem run_avg_avgHz_three_calls :
    ((init : TopicStatistics ℚ).run
        [⟨0, "a", ⟨10, 1⟩⟩, ⟨4, "a", ⟨12, 2⟩⟩, ⟨10, "b", ⟨16, 1⟩⟩]).publication.avg = 3 ∧
      avgHz ((init : TopicStatistics ℚ).run
        [⟨0, "a", ⟨10, 1⟩⟩, ⟨4, "a", ⟨12, 2⟩⟩, ⟨10, "b", ⟨16, 1⟩⟩]).publication = 1000 / 3 ∧
      ((init : TopicStatistics ℚ).run
        [⟨0, "a", ⟨10, 1⟩⟩, ⟨4, "a", ⟨12, 2⟩⟩, ⟨10, "b", ⟨16, 1⟩⟩]).receive.avg = 5 ∧
      avgHz ((init : TopicStatistics ℚ).run
        [⟨0, "a", ⟨10, 1⟩⟩, ⟨4, "a", ⟨12, 2⟩⟩, ⟨10, "b", ⟨16, 1⟩⟩]).receive = 200 := by
  obtain ⟨h1, h2, h3, h4⟩ := run_avg_avgHz (α := ℚ)
    [⟨0, "a", ⟨10, 1⟩⟩, ⟨4, "a", ⟨12, 2⟩⟩, ⟨10, "b", ⟨16, 1⟩⟩] ⟨0, "a", ⟨10, 1⟩⟩
    ⟨10, "b", ⟨16, 1⟩⟩ rfl rfl (by decide) (by decide) (by decide)
    (List.chain'_cons.mpr ⟨by decide, List.chain'_pair.mpr (by decide)⟩)
    (List.chain'_cons.mpr ⟨by decide, List.chain'_pair.mpr (by decide)⟩)
  rw [h1, h2 (by decide), h3, h4 (by decide)]
  norm_num [UInt64.size]

/-- Every interval of a non-decreasing `value` lies between `0` and the span, so, once the
span is at least one tick, the extremes of a fresh `Statistics` that absorbed them do too:
`min` is not negative and `max`, which starts at `2⁻¹⁰²²`, does not exceed the span. -/
theorem extrema_intervals_within_span (value : Receipt → UInt64) {calls : List Receipt}
    {first last : Receipt} (hfirst : calls.head? = some first)
    (hlast : calls.getLast? = some last) (hstamp : ∀ c ∈ calls.dropLast, c.meta.stamp ≠ 0)
    (hmono : calls.Chain' fun a b => value a ≤ value b) (hspan : value first < value last) :
    0 ≤ (Statistics.init.absorb
        ((gatedPairs calls).map fun p => ((value p.2 - value p.1).toNat : α))).min ∧
      (Statistics.init.absorb
        ((gatedPairs calls).map fun p => ((value p.2 - value p.1).toNat : α))).max ≤
        ((value last).toNat - (value first).toNat : α) := by
  have htel := sum_intervals_add value hfirst hlast hstamp hmono
  have hspan' : (value first).toNat < (value last).toNat := hspan
  have hcast : ((value last).toNat - (value first).toNat : α) =
      (((value last).toNat - (value first).toNat : ℕ) : α) := (Nat.cast_sub hspan'.le).symm
  have hsample : ∀ x ∈ (gatedPairs calls).map fun p => ((value p.2 - value p.1).toNat : α),
      0 ≤ x ∧ x ≤ ((value last).toNat - (value first).toNat : α) := by
    intro x hx
    obtain ⟨p, hp, rfl⟩ := List.mem_map.mp hx
    have hle : (value p.2 - value p.1).toNat ≤
        ((gatedPairs calls).map fun p => (value p.2 - value p.1).toNat).sum :=
      List.le_sum_of_mem (List.mem_map_of_mem _ hp)
    refine ⟨Nat.cast_nonneg _, ?_⟩
    rw [hcast, Nat.cast_le]
    omega
  obtain ⟨-, -, hmin⟩ := Statistics.absorb_min_spec (Statistics.init : Statistics α)
    ((gatedPairs calls).map fun p => ((value p.2 - value p.1).toNat : α))
  obtain ⟨-, -, hmax⟩ := Statistics.absorb_max_spec (Statistics.init : Statistics α)
    ((gatedPairs calls).map fun p => ((value p.2 - value p.1).toNat : α))
  constructor
  · rcases hmin with h | h
    · rw [h, Statistics.init_min]
      exact_mod_cast (show (0 : ℚ) ≤ doubleMax by norm_num [doubleMax])
    · exact (hsample _ h).1
  · rcases hmax with h | h
    · rw [h, Statistics.init_max, hcast]
      calc (doubleMin : α) ≤ 1 := by exact_mod_cast (show doubleMin ≤ 1 by norm_num [doubleMin])
        _ ≤ _ := Nat.one_le_cast.mpr (by omega)
    · exact (hsample _ h).2

/-- Along calls stamped before the last whose stamps and clock readings do not decrease and
end above where they began, `Min()` is not negative and `Max()` does not exceed the span of
the stamps (clock readings), for both `Statistics`. -/
theorem run_extrema_within_span (calls : List Receipt) (first last : Receipt)
    (hfirst : calls.head? = some first) (hlast : calls.getLast? = some last)
    (hstamp : ∀ c ∈ calls.dropLast, c.meta.stamp ≠ 0)
    (hpub : calls.Chain' fun a b => a.meta.stamp ≤ b.meta.stamp)
    (hrecv : calls.Chain' fun a b => a.now ≤ b.now)
    (hpubspan : first.meta.stamp < last.meta.stamp) (hrecvspan : first.now < last.now) :
    0 ≤ (init.run calls : TopicStatistics α).publication.min ∧
      (init.run calls : TopicStatistics α).publication.max ≤
        (last.meta.stamp.toNat : α) - first.meta.stamp.toNat ∧
      0 ≤ (init.run calls : TopicStatistics α).receive.min ∧
      (init.run calls : TopicStatistics α).receive.max ≤
        (last.now.toNat : α) - first.now.toNat := by
  obtain ⟨hp, hr⟩ := run_init_samples (α := α) calls
  obtain ⟨hpmin, hpmax⟩ :=
    extrema_intervals_within_span (α := α) (·.meta.stamp) hfirst hlast hstamp hpub hpubspan
  obtain ⟨hrmin, hrmax⟩ :=
    extrema_intervals_within_span (α := α) (·.now) hfirst hlast hstamp hrecv hrecvspan
  rw [hp, hr]
  exact ⟨hpmin, hpmax, hrmin, hrmax⟩

/-- The same three calls: the largest stamp interval is `4 ≤ 6` and the largest clock interval
`6 ≤ 10`. -/
theorem run_extrema_within_span_three_calls :
    ((init : TopicStatistics ℚ).run
        [⟨0, "a", ⟨10, 1⟩⟩, ⟨4, "a", ⟨12, 2⟩⟩, ⟨10, "b", ⟨16, 1⟩⟩]).publication.max ≤ 6 ∧
      ((init : TopicStatistics ℚ).run
        [⟨0, "a", ⟨10, 1⟩⟩, ⟨4, "a", ⟨12, 2⟩⟩, ⟨10, "b", ⟨16, 1⟩⟩]).receive.max ≤ 10 := by
  obtain ⟨-, h1, -, h2⟩ := run_extrema_within_span (α := ℚ)
    [⟨0, "a", ⟨10, 1⟩⟩, ⟨4, "a", ⟨12, 2⟩⟩, ⟨10, "b", ⟨16, 1⟩⟩] ⟨0, "a", ⟨10, 1⟩⟩
    ⟨10, "b", ⟨16, 1⟩⟩ rfl rfl (by decide)
    (List.chain'_cons.mpr ⟨by decide, List.chain'_pair.mpr (by decide)⟩)
    (List.chain'_cons.mpr ⟨by decide, List.chain'_pair.mpr (by decide)⟩) (by decide) (by decide)
  refine ⟨h1.trans_eq ?_, h2.trans_eq ?_⟩ <;> norm_num [UInt64.size]

/-- Along `n` calls, `2 ≤ n ≤ 2⁶⁴`, stamped before the last, where `value` does not decrease,
the `StdDev()` of the intervals of `value` is zero exactly when `value` advances by the same
amount at every call. -/
theorem stdDev_intervals_eq_zero_iff (sqrt : α → α) (hsqrt : ∀ v, 0 ≤ v → sqrt v ^ 2 = v)
    (value : Receipt → UInt64) {calls : List Receipt} (hlen : 2 ≤ calls.length)
    (hle : calls.length ≤ 2 ^ 64) (hstamp : ∀ c ∈ calls.dropLast, c.meta.stamp ≠ 0)
    (hmono : calls.Chain' fun a b => value a ≤ value b) :
    (Statistics.init.absorb ((gatedPairs calls).map
        fun p => ((value p.2 - value p.1).toNat : α))).stdDev sqrt = 0 ↔
      ∃ d : ℕ, calls.Chain' fun a b => (value b).toNat = (value a).toNat + d := by
  have hpairs := length_gatedPairs_of_stamped hstamp
  have hne : gatedPairs calls ≠ [] := List.ne_nil_of_length_pos (by omega)
  have hsub : ∀ p ∈ gatedPairs calls, (value p.1).toNat ≤ (value p.2).toNat ∧
      (value p.2 - value p.1).toNat = (value p.2).toNat - (value p.1).toNat := fun p hp =>
    have hordered : value p.1 ≤ value p.2 := rel_of_mem_gatedPairs hmono p hp
    ⟨hordered, UInt64.toNat_sub_of_le _ _ hordered⟩
  rw [Statistics.absorb_stdDev_eq_zero_iff sqrt hsqrt _ (by simpa using hne)
    (by rw [List.length_map]; omega)]
  simp only [List.forall_mem_map, Nat.cast_inj]
  constructor
  · intro h
    obtain ⟨p₀, hp₀⟩ := List.exists_mem_of_ne_nil _ hne
    refine ⟨(value p₀.2 - value p₀.1).toNat, (forall_gatedPairs_iff hstamp).mp fun p hp => ?_⟩
    rw [← h p hp p₀ hp₀, (hsub p hp).2, Nat.add_sub_cancel' (hsub p hp).1]
  · rintro ⟨d, hd⟩ p hp q hq
    have hall := (forall_gatedPairs_iff
      (R := fun a b => (value b).toNat = (value a).toNat + d) hstamp).mpr hd
    rw [(hsub p hp).2, (hsub q hq).2, hall p hp, hall q hq, Nat.add_sub_cancel_left,
      Nat.add_sub_cancel_left]

/-- Along `n` calls, `2 ≤ n ≤ 2⁶⁴`, stamped before the last, whose stamps and clock readings do
not decrease, the publication `std_deviation` is zero exactly when the stamps are evenly spaced,
and the receive `std_deviation` exactly when the clock readings are, for any square root that
squares back on non-negative numbers. -/
theorem run_stdDev_eq_zero_iff (sqrt : α → α) (hsqrt : ∀ v, 0 ≤ v → sqrt v ^ 2 = v)
    (calls : List Receipt) (hlen : 2 ≤ calls.length) (hle : calls.length ≤ 2 ^ 64)
    (hstamp : ∀ c ∈ calls.dropLast, c.meta.stamp ≠ 0)
    (hpub : calls.Chain' fun a b => a.meta.stamp ≤ b.meta.stamp)
    (hrecv : calls.Chain' fun a b => a.now ≤ b.now) :
    ((init.run calls : TopicStatistics α).publication.stdDev sqrt = 0 ↔
        ∃ d : ℕ, calls.Chain' fun a b => b.meta.stamp.toNat = a.meta.stamp.toNat + d) ∧
      ((init.run calls : TopicStatistics α).receive.stdDev sqrt = 0 ↔
        ∃ d : ℕ, calls.Chain' fun a b => b.now.toNat = a.now.toNat + d) := by
  obtain ⟨hp, hr⟩ := run_init_samples (α := α) calls
  rw [hp, hr]
  exact ⟨stdDev_intervals_eq_zero_iff sqrt hsqrt (·.meta.stamp) hlen hle hstamp hpub,
    stdDev_intervals_eq_zero_iff sqrt hsqrt (·.now) hlen hle hstamp hrecv⟩

/-- Stamps `10, 12, 14` received at `0, 4, 5`, over the reals: the publication `std_deviation`
is zero and the receive one is not. -/
theorem run_stdDev_eq_zero_iff_even_stamps :
    (∀ v : ℝ, 0 ≤ v → √v ^ 2 = v) ∧
      ((init : TopicStatistics ℝ).run
        [⟨0, "a", ⟨10, 1⟩⟩, ⟨4, "a", ⟨12, 2⟩⟩, ⟨5, "a", ⟨14, 3⟩⟩]).publication.stdDev
          Real.sqrt = 0 ∧
      ((init : TopicStatistics ℝ).run
        [⟨0, "a", ⟨10, 1⟩⟩, ⟨4, "a", ⟨12, 2⟩⟩, ⟨5, "a", ⟨14, 3⟩⟩]).receive.stdDev
          Real.sqrt ≠ 0 := by
  have hsqrt : ∀ v : ℝ, 0 ≤ v → √v ^ 2 = v := fun _ hv => Real.sq_sqrt hv
  obtain ⟨hp, hr⟩ := run_stdDev_eq_zero_iff Real.sqrt hsqrt
    [⟨0, "a", ⟨10, 1⟩⟩, ⟨4, "a", ⟨12, 2⟩⟩, ⟨5, "a", ⟨14, 3⟩⟩] (by decide) (by decide)
    (by decide) (List.chain'_cons.mpr ⟨by decide, List.chain'_pair.mpr (by decide)⟩)
    (List.chain'_cons.mpr ⟨by decide, List.chain'_pair.mpr (by decide)⟩)
  refine ⟨hsqrt, hp.mpr ⟨2, List.chain'_cons.mpr ⟨by decide, List.chain'_pair.mpr (by decide)⟩⟩,
    fun h => ?_⟩
  obtain ⟨d, hd⟩ := hr.mp h
  simp only [List.chain'_cons, List.chain'_singleton, and_true] at hd
  have h₁ : 4 = 0 + d := hd.1
  have h₂ : 5 = 4 + d := hd.2
  omega

end IgnTransport.TopicStatistics
