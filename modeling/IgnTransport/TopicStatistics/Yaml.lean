import IgnTransport.TopicStatistics.Samples
import IgnTransport.Statistics.Welford

/-!
# The divisions of `YamlString`

`YamlString` divides by `Avg() * 1e-3` for `avg_hz` and, inside `StdDev()`, by `count`, for
both `Statistics`, with no guard. After a run these are the count and the average of the
sample lists of `Samples.lean`, so by the Welford invariant a divisor is zero exactly when a
`Statistics` absorbed no sample or only zero intervals. `yamlDivisors_ne_zero_iff` states it
for runs whose stamps are nonzero before the last call: every divisor is nonzero exactly when
the stamps are not all equal and the clock readings are not all equal. A zero stamp, as in a
default `PublicationMetadata`, leaves `count` at `0` (`yamlDivisors_default_metadata_zero`).
-/

namespace IgnTransport.TopicStatistics

variable {α : Type} [LinearOrderedField α]

/-- A `uint64_t` difference is zero exactly when the two readings are equal. -/
theorem toNat_sub_eq_zero_iff {a b : UInt64} : (b - a).toNat = 0 ↔ a = b := by
  have ha := a.toNat_lt
  have hb := b.toNat_lt
  rw [UInt64.toNat_sub, UInt64.ext_iff]
  simp only [UInt64.size]
  omega

/-- With every call but the last stamped, `gatedPairs` holds every consecutive pair. -/
theorem forall_gatedPairs_iff {R : Receipt → Receipt → Prop} : ∀ {calls : List Receipt},
    (∀ c ∈ calls.dropLast, c.meta.stamp ≠ 0) →
      ((∀ p ∈ gatedPairs calls, R p.1 p.2) ↔ calls.Chain' R)
  | [], _ | [_], _ => by simp
  | c :: d :: ds, h => by
      have hc : c.meta.stamp ≠ 0 := h c (by simp)
      have ih : (∀ p ∈ gatedPairs (d :: ds), R p.1 p.2) ↔ (d :: ds).Chain' R :=
        forall_gatedPairs_iff fun e he => h e (by simp [List.dropLast_cons₂, he])
      simp only [gatedPairs_cons_cons, hc, if_false, List.singleton_append, List.forall_mem_cons,
        ih, List.chain'_cons]

/-- With at least one and fewer than `2⁶⁴` gated pairs, the average of the intervals of
`value` is zero exactly when every gated pair has two equal readings. -/
theorem average_intervals_eq_zero_iff (value : Receipt → UInt64) (calls : List Receipt)
    (hne : gatedPairs calls ≠ []) (hlt : (gatedPairs calls).length < 2 ^ 64) :
    (Statistics.init.absorb
        ((gatedPairs calls).map fun p => ((value p.2 - value p.1).toNat : α))).average = 0 ↔
      ∀ p ∈ gatedPairs calls, value p.1 = value p.2 := by
  set ns := (gatedPairs calls).map fun p => (value p.2 - value p.1).toNat
  have hxs : ((gatedPairs calls).map fun p => ((value p.2 - value p.1).toNat : α)) =
      ns.map (Nat.cast : ℕ → α) := by simp [ns]
  have hlen : ns.length ≠ 0 := by simpa [ns] using hne
  rw [hxs, (Statistics.welford_absorb_init _ (by simpa [ns] using hlt)).average_eq
    (by simpa [ns] using hne), ← Nat.cast_list_sum, List.length_map,
    div_eq_zero_iff, Nat.cast_eq_zero, Nat.cast_eq_zero, or_iff_left hlen, List.sum_eq_zero_iff]
  simp only [ns, List.forall_mem_map, toNat_sub_eq_zero_iff]

/-- The two divisors of one `Statistics` that absorbed the intervals of `value` along `n` calls,
`2 ≤ n ≤ 2⁶⁴`, stamped before the last: both are nonzero exactly when `value` changes. -/
theorem statisticsDivisors_intervals_ne_zero_iff (value : Receipt → UInt64)
    (calls : List Receipt) (hlen : 2 ≤ calls.length) (hle : calls.length ≤ 2 ^ 64)
    (hstamp : ∀ c ∈ calls.dropLast, c.meta.stamp ≠ 0) :
    (∀ d ∈ statisticsDivisors (Statistics.init.absorb
        ((gatedPairs calls).map fun p => ((value p.2 - value p.1).toNat : α))), d ≠ 0) ↔
      ¬ calls.Chain' fun a b => value a = value b := by
  have hpairs := length_gatedPairs_of_stamped hstamp
  have hne : gatedPairs calls ≠ [] := List.ne_nil_of_length_pos (by omega)
  have hlt : (gatedPairs calls).length < 2 ^ 64 := by omega
  have hcount : ((Statistics.init.absorb ((gatedPairs calls).map
      fun p => ((value p.2 - value p.1).toNat : α))).count.toNat : α) ≠ 0 := by
    rw [(Statistics.welford_absorb_init _ (by simpa using hlt)).count_toNat]
    simpa using hne
  have havg := average_intervals_eq_zero_iff (α := α) value calls hne hlt
  rw [forall_gatedPairs_iff (R := fun a b => value a = value b) hstamp] at havg
  simp [statisticsDivisors, hcount, havg]

/-- After `n` calls, `2 ≤ n ≤ 2⁶⁴`, every one but the last carrying a nonzero stamp, every
divisor of `YamlString` is nonzero exactly when the stamps are not all equal and the clock
readings are not all equal. -/
theorem yamlDivisors_ne_zero_iff (calls : List Receipt) (hlen : 2 ≤ calls.length)
    (hle : calls.length ≤ 2 ^ 64) (hstamp : ∀ c ∈ calls.dropLast, c.meta.stamp ≠ 0) :
    (∀ d ∈ (init.run calls : TopicStatistics α).yamlDivisors, d ≠ 0) ↔
      ¬ calls.Chain' (fun a b => a.meta.stamp = b.meta.stamp) ∧
        ¬ calls.Chain' (fun a b => a.now = b.now) := by
  obtain ⟨hpub, hrecv⟩ := run_init_samples (α := α) calls
  rw [yamlDivisors, List.forall_mem_append, hpub, hrecv]
  exact and_congr (statisticsDivisors_intervals_ne_zero_iff (·.meta.stamp) calls hlen hle hstamp)
    (statisticsDivisors_intervals_ne_zero_iff (·.now) calls hlen hle hstamp)

/-- Two calls stamped `5` and `7`, received at `0` and `3`. -/
theorem yamlDivisors_ne_zero_five_seven :
    2 ≤ [(⟨0, "a", ⟨5, 1⟩⟩ : Receipt), ⟨3, "a", ⟨7, 2⟩⟩].length ∧
      [(⟨0, "a", ⟨5, 1⟩⟩ : Receipt), ⟨3, "a", ⟨7, 2⟩⟩].length ≤ 2 ^ 64 ∧
      (∀ c ∈ [(⟨0, "a", ⟨5, 1⟩⟩ : Receipt), ⟨3, "a", ⟨7, 2⟩⟩].dropLast, c.meta.stamp ≠ 0) ∧
      ∀ d ∈ ((init : TopicStatistics ℚ).run [⟨0, "a", ⟨5, 1⟩⟩, ⟨3, "a", ⟨7, 2⟩⟩]).yamlDivisors,
        d ≠ 0 := by
  have hstamp : ∀ c ∈ [(⟨0, "a", ⟨5, 1⟩⟩ : Receipt), ⟨3, "a", ⟨7, 2⟩⟩].dropLast,
      c.meta.stamp ≠ 0 := by decide
  refine ⟨by decide, by decide, hstamp, ?_⟩
  rw [yamlDivisors_ne_zero_iff _ (by decide) (by decide) hstamp, List.chain'_pair,
    List.chain'_pair]
  decide

/-- Two calls with the default `PublicationMetadata`, clock readings `0` and `1`: a divisor of
`YamlString` is zero. -/
theorem yamlDivisors_default_metadata_zero :
    [(⟨0, "a", {}⟩ : Receipt), ⟨1, "a", {}⟩].Chain' (fun a b => a.now ≤ b.now) ∧
      (0 : ℚ) ∈ ((init : TopicStatistics ℚ).run [⟨0, "a", {}⟩, ⟨1, "a", {}⟩]).yamlDivisors := by
  have hcount :
      ((init : TopicStatistics ℚ).run [⟨0, "a", {}⟩, ⟨1, "a", {}⟩]).publication.count = 0 := by
    decide
  refine ⟨List.chain'_pair.mpr (by decide),
    List.mem_append_left _ (List.mem_cons_of_mem _ (List.mem_singleton.mpr ?_))⟩
  rw [hcount]
  rfl

end IgnTransport.TopicStatistics
