import IgnTransport.TopicStatistics.Basic

/-!
# The intervals a run records

`gatedPairs calls` lists the consecutive calls whose first call carried a nonzero stamp: at
the second call of such a pair `Update` records one interval in each `Statistics`, and at no
other call. `publicationSamples` and `receiveSamples` are those intervals, as `Update`
computes them in `uint64_t`. `run_init_samples` is the simulation: a run from a fresh
`TopicStatistics` leaves in `publication` and `receive` what absorbing the two lists gives.
So each `count` is the number of nonzero stamps before the last call, modulo `2⁶⁴`
(`run_count_toNat`), and the intervals handed to `Update` are the true differences of the
stamps and clock readings when these do not decrease (`run_absorbs_exact_intervals`); a
decreasing stamp wraps modulo `2⁶⁴` (`run_decreasing_stamp_wraps`).
-/

namespace IgnTransport.TopicStatistics

variable {α : Type} [LinearOrderedField α]

/-- The consecutive pairs of calls whose first call carried a nonzero stamp. -/
def gatedPairs : List Receipt → List (Receipt × Receipt)
  | c :: d :: ds => (if c.meta.stamp = 0 then [] else [(c, d)]) ++ gatedPairs (d :: ds)
  | _ => []

/-- The samples a run from a fresh `TopicStatistics` hands to `publication`. -/
def publicationSamples (calls : List Receipt) : List α :=
  (gatedPairs calls).map fun p => ((p.2.meta.stamp - p.1.meta.stamp).toNat : α)

/-- The samples a run from a fresh `TopicStatistics` hands to `receive`. -/
def receiveSamples (calls : List Receipt) : List α :=
  (gatedPairs calls).map fun p => ((p.2.now - p.1.now).toNat : α)

@[simp] theorem gatedPairs_cons_cons (c d : Receipt) (ds : List Receipt) :
    gatedPairs (c :: d :: ds) =
      (if c.meta.stamp = 0 then [] else [(c, d)]) ++ gatedPairs (d :: ds) := rfl

@[simp] theorem gatedPairs_nil : gatedPairs [] = [] := rfl

@[simp] theorem gatedPairs_singleton (c : Receipt) : gatedPairs [c] = [] := rfl

/-- The state just after the call `c`: both previous stamps are `c`'s. -/
def Follows (t : TopicStatistics α) (c : Receipt) : Prop :=
  t.prevPublicationStamp = c.meta.stamp ∧ t.prevReceiveStamp = c.now

theorem follows_update (t : TopicStatistics α) (c : Receipt) :
    (t.update c.now c.sender c.meta).Follows c := ⟨by simp, by simp⟩

/-- From the state after `c`, a run absorbs the samples of the pairs from `c` on. -/
theorem Follows.run_samples {t : TopicStatistics α} {c : Receipt} (h : t.Follows c)
    (calls : List Receipt) :
    (t.run calls).publication = t.publication.absorb (publicationSamples (c :: calls)) ∧
      (t.run calls).receive = t.receive.absorb (receiveSamples (c :: calls)) := by
  induction calls generalizing t c with
  | nil => simp [publicationSamples, receiveSamples]
  | cons d ds ih =>
      obtain ⟨hpub, hrecv⟩ := ih (follows_update t d)
      rw [run_cons, hpub, hrecv, update_publication, update_receive, h.1, h.2]
      by_cases hc : c.meta.stamp = 0 <;> simp [hc, publicationSamples, receiveSamples]

/-- A run from a fresh `TopicStatistics` absorbs exactly `publicationSamples` and
`receiveSamples`. -/
theorem run_init_samples (calls : List Receipt) :
    (init.run calls : TopicStatistics α).publication =
        Statistics.init.absorb (publicationSamples calls) ∧
      (init.run calls : TopicStatistics α).receive =
        Statistics.init.absorb (receiveSamples calls) := by
  cases calls with
  | nil => simp [publicationSamples, receiveSamples, gatedPairs]
  | cons c cs =>
      simpa [update_publication, update_receive] using (follows_update init c).run_samples cs

/-- `publication` and `receive` are updated under the same gate, so from any state where their
counts agree they agree after every run. -/
theorem run_counts_eq (t : TopicStatistics α) (calls : List Receipt)
    (h : t.publication.count = t.receive.count) :
    (t.run calls).publication.count = (t.run calls).receive.count := by
  induction calls generalizing t with
  | nil => exact h
  | cons c cs ih =>
      apply ih
      rw [update_publication, update_receive]
      split_ifs <;> simp [h]

/-- From a fresh `TopicStatistics`, over a run whose first stamp is `0`. -/
theorem run_counts_eq_init :
    (init : TopicStatistics ℚ).publication.count = (init : TopicStatistics ℚ).receive.count ∧
      ((init : TopicStatistics ℚ).run
          [⟨0, "a", ⟨0, 1⟩⟩, ⟨4, "b", ⟨9, 1⟩⟩, ⟨5, "a", ⟨3, 2⟩⟩]).publication.count =
        ((init : TopicStatistics ℚ).run
          [⟨0, "a", ⟨0, 1⟩⟩, ⟨4, "b", ⟨9, 1⟩⟩, ⟨5, "a", ⟨3, 2⟩⟩]).receive.count :=
  ⟨rfl, run_counts_eq _ _ rfl⟩

/-- One pair for each nonzero stamp before the last call. -/
theorem length_gatedPairs : ∀ calls : List Receipt,
    (gatedPairs calls).length = (calls.dropLast.filter fun c => c.meta.stamp ≠ 0).length
  | [] | [_] => rfl
  | c :: d :: ds => by
      by_cases hc : c.meta.stamp = 0 <;> simp [hc, length_gatedPairs (d :: ds)]

/-- With every call but the last stamped, there is one pair fewer than there are calls. -/
theorem length_gatedPairs_of_stamped {calls : List Receipt}
    (hstamp : ∀ c ∈ calls.dropLast, c.meta.stamp ≠ 0) :
    (gatedPairs calls).length = calls.length - 1 := by
  rw [length_gatedPairs, List.filter_eq_self.mpr fun c hc => by simpa using hstamp c hc,
    List.length_dropLast]

/-- Each `Statistics` of a run from a fresh `TopicStatistics` counts one sample for every
nonzero stamp among the calls before the last, modulo `2⁶⁴`: a call after a stamp-`0` call
records nothing. -/
theorem run_count_toNat (calls : List Receipt) :
    (init.run calls : TopicStatistics α).publication.count.toNat =
        (calls.dropLast.filter fun c => c.meta.stamp ≠ 0).length % 2 ^ 64 ∧
      (init.run calls : TopicStatistics α).receive.count.toNat =
        (calls.dropLast.filter fun c => c.meta.stamp ≠ 0).length % 2 ^ 64 := by
  obtain ⟨hp, hr⟩ := run_init_samples (α := α) calls
  rw [hp, hr, Statistics.absorb_count_toNat, Statistics.absorb_count_toNat]
  simp [publicationSamples, receiveSamples, length_gatedPairs]

/-- Two calls with the default `PublicationMetadata`: stamp `0` leaves both counts at `0`. -/
theorem run_default_metadata_count :
    ((init : TopicStatistics ℚ).run [⟨1, "a", {}⟩, ⟨2, "a", {}⟩]).publication.count = 0 ∧
      ((init : TopicStatistics ℚ).run [⟨1, "a", {}⟩, ⟨2, "a", {}⟩]).receive.count = 0 := by
  decide

/-- Every pair of `gatedPairs` is two consecutive calls, so it keeps any relation that holds
along the calls. -/
theorem rel_of_mem_gatedPairs {R : Receipt → Receipt → Prop} :
    ∀ {calls : List Receipt}, calls.Chain' R → ∀ p ∈ gatedPairs calls, R p.1 p.2
  | [], _, _, hp | [_], _, _, hp => by simp at hp
  | c :: d :: ds, h, p, hp => by
      rw [List.chain'_cons] at h
      simp only [gatedPairs_cons_cons, List.mem_append] at hp
      rcases hp with hp | hp
      · split_ifs at hp
        · simp at hp
        · obtain rfl := List.mem_singleton.mp hp
          exact h.1
      · exact rel_of_mem_gatedPairs h.2 p hp

/-- The `uint64_t` difference of two ordered readings is their true difference. -/
theorem toNat_sub_cast {a b : UInt64} (h : a ≤ b) : ((b - a).toNat : α) = b.toNat - a.toNat := by
  rw [UInt64.toNat_sub_of_le _ _ h]
  exact Nat.cast_sub h

/-- Along calls whose stamps and clock readings do not decrease, a run from a fresh
`TopicStatistics` hands `publication.Update` the exact difference of the two stamps, and
`receive.Update` that of the two clock readings, of every gated pair, in order: no interval
wraps modulo `2⁶⁴`. -/
theorem run_absorbs_exact_intervals (calls : List Receipt)
    (hstamp : calls.Chain' fun a b => a.meta.stamp ≤ b.meta.stamp)
    (hnow : calls.Chain' fun a b => a.now ≤ b.now) :
    (init.run calls : TopicStatistics α).publication = Statistics.init.absorb
        ((gatedPairs calls).map fun p => (p.2.meta.stamp.toNat : α) - p.1.meta.stamp.toNat) ∧
      (init.run calls : TopicStatistics α).receive = Statistics.init.absorb
        ((gatedPairs calls).map fun p => (p.2.now.toNat : α) - p.1.now.toNat) := by
  obtain ⟨hp, hr⟩ := run_init_samples (α := α) calls
  rw [hp, hr, publicationSamples, receiveSamples]
  exact ⟨congrArg _ (List.map_congr_left fun p hp =>
      toNat_sub_cast (rel_of_mem_gatedPairs hstamp p hp)),
    congrArg _ (List.map_congr_left fun p hp => toNat_sub_cast (rel_of_mem_gatedPairs hnow p hp))⟩

/-- Stamps `10, 12` received at `0, 3`: the run absorbs the interval `2` into `publication` and
`3` into `receive`. -/
theorem run_absorbs_exact_intervals_ten_twelve :
    [(⟨0, "a", ⟨10, 1⟩⟩ : Receipt), ⟨3, "a", ⟨12, 2⟩⟩].Chain'
        (fun a b => a.meta.stamp ≤ b.meta.stamp) ∧
      [(⟨0, "a", ⟨10, 1⟩⟩ : Receipt), ⟨3, "a", ⟨12, 2⟩⟩].Chain' (fun a b => a.now ≤ b.now) ∧
      ((init : TopicStatistics ℚ).run [⟨0, "a", ⟨10, 1⟩⟩, ⟨3, "a", ⟨12, 2⟩⟩]).publication =
        Statistics.init.absorb [2] ∧
      ((init : TopicStatistics ℚ).run [⟨0, "a", ⟨10, 1⟩⟩, ⟨3, "a", ⟨12, 2⟩⟩]).receive =
        Statistics.init.absorb [3] := by
  have hstamp : [(⟨0, "a", ⟨10, 1⟩⟩ : Receipt), ⟨3, "a", ⟨12, 2⟩⟩].Chain'
      (fun a b => a.meta.stamp ≤ b.meta.stamp) := List.chain'_pair.mpr (by decide)
  have hnow : [(⟨0, "a", ⟨10, 1⟩⟩ : Receipt), ⟨3, "a", ⟨12, 2⟩⟩].Chain'
      (fun a b => a.now ≤ b.now) := List.chain'_pair.mpr (by decide)
  have hpairs : gatedPairs [(⟨0, "a", ⟨10, 1⟩⟩ : Receipt), ⟨3, "a", ⟨12, 2⟩⟩] =
      [(⟨0, "a", ⟨10, 1⟩⟩, ⟨3, "a", ⟨12, 2⟩⟩)] := by decide
  obtain ⟨hpub, hrecv⟩ := run_absorbs_exact_intervals (α := ℚ) _ hstamp hnow
  rw [hpairs] at hpub hrecv
  refine ⟨hstamp, hnow, hpub.trans ?_, hrecv.trans ?_⟩ <;> norm_num [UInt64.size]

/-- Publisher `b` stamps `5` after publisher `a` stamped `10`: the interval handed to
`publication` is `5 - 10` wrapped to `2⁶⁴ - 5`, and `Max()` reports it. -/
theorem run_decreasing_stamp_wraps :
    (publicationSamples [⟨0, "a", ⟨10, 1⟩⟩, ⟨1, "b", ⟨5, 1⟩⟩] : List ℚ) = [2 ^ 64 - 5] ∧
      ((init : TopicStatistics ℚ).run [⟨0, "a", ⟨10, 1⟩⟩, ⟨1, "b", ⟨5, 1⟩⟩]).publication.max =
        2 ^ 64 - 5 := by
  have hsamples : (publicationSamples [⟨0, "a", ⟨10, 1⟩⟩, ⟨1, "b", ⟨5, 1⟩⟩] : List ℚ) =
      [2 ^ 64 - 5] := by
    simp [publicationSamples, UInt64.size]
    norm_num
  refine ⟨hsamples, ?_⟩
  rw [(run_init_samples _).1, hsamples]
  norm_num [doubleMin]

end IgnTransport.TopicStatistics
