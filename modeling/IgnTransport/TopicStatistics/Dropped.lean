import IgnTransport.TopicStatistics.Samples

/-!
# Dropped-message detection

`Update` compares the incoming `seq` with one more than `seq[sender]` and counts a drop on a
mismatch, but only when the previous call, from any sender, carried a nonzero stamp.
`discontinuities` counts the mismatches along one sender's calls and `lastSeq` is what
`seq[sender]` holds. `run_droppedMsgCount_toNat` is the run invariant: with nonzero stamps,
and every sender but the first starting at `seq = 1`, the counter is the sum of each
sender's own discontinuities modulo `2⁶⁴`. Its corollaries are the count for one sender
(`run_one_sender_droppedMsgCount`), the split of an interleaving into its senders
(`run_droppedMsgCount_split`) and the bound by the number of skipped sequence numbers
(`run_one_sender_droppedMsgCount_le`). Without the fresh-start condition a late sender's first
call is compared with the default `0` (`run_late_sender_counted`), and a gap of any size counts
once (`run_gap_counted_once`).
-/

namespace IgnTransport.TopicStatistics

variable {α : Type} [LinearOrderedField α]

/-- Consecutive calls whose second `seq` is not one more, in `uint64_t`, than the first. -/
def discontinuities : List Receipt → Nat
  | c :: d :: ds => (if c.meta.seq + 1 = d.meta.seq then 0 else 1) + discontinuities (d :: ds)
  | _ => 0

@[simp] theorem discontinuities_cons_cons (c d : Receipt) (ds : List Receipt) :
    discontinuities (c :: d :: ds) =
      (if c.meta.seq + 1 = d.meta.seq then 0 else 1) + discontinuities (d :: ds) := rfl

@[simp] theorem discontinuities_nil : discontinuities [] = 0 := rfl

@[simp] theorem discontinuities_singleton (c : Receipt) : discontinuities [c] = 0 := rfl

/-- The calls of one sender. -/
def ofSender (calls : List Receipt) (sender : String) : List Receipt :=
  calls.filter fun c => c.sender = sender

/-- What `seq[sender]` reads after `calls`: the sender's last `seq`, or the default `0`. -/
def lastSeq (calls : List Receipt) (sender : String) : UInt64 :=
  (((ofSender calls sender).getLast?).map (·.meta.seq)).getD 0

@[simp] theorem ofSender_nil (s : String) : ofSender [] s = [] := rfl

@[simp] theorem ofSender_append_singleton (calls : List Receipt) (c : Receipt) (s : String) :
    ofSender (calls ++ [c]) s = ofSender calls s ++ if c.sender = s then [c] else [] := by
  by_cases h : c.sender = s <;> simp [ofSender, h]

theorem lastSeq_append_singleton (calls : List Receipt) (c : Receipt) (s : String) :
    lastSeq (calls ++ [c]) s = if c.sender = s then c.meta.seq else lastSeq calls s := by
  by_cases h : c.sender = s <;> simp [lastSeq, h]

theorem discontinuities_append_singleton : ∀ (calls : List Receipt) (c : Receipt),
    discontinuities (calls ++ [c]) = discontinuities calls +
      ((calls.getLast?.map fun a => if a.meta.seq + 1 = c.meta.seq then 0 else 1).getD 0)
  | [], _ => rfl
  | [a], c => by simp
  | a :: b :: bs, c => by
      have ih := discontinuities_append_singleton (b :: bs) c
      simp only [List.cons_append, discontinuities_cons_cons] at ih ⊢
      rw [ih, List.getLast?_cons_cons, Nat.add_assoc]

@[simp] theorem run_init_seq (calls : List Receipt) (s : String) :
    (init.run calls : TopicStatistics α).seq s = lastSeq calls s := by
  induction calls using List.reverseRecOn with
  | nil => rfl
  | append_singleton calls c ih =>
      rw [run_append, lastSeq_append_singleton]
      by_cases h : c.sender = s
      · simp [h]
      · simp [h, Function.update_noteq (Ne.symm h), ih]

theorem run_init_prevPublicationStamp (calls : List Receipt) :
    (init.run calls : TopicStatistics α).prevPublicationStamp =
      (calls.getLast?.map (·.meta.stamp)).getD 0 := by
  induction calls using List.reverseRecOn with
  | nil => rfl
  | append_singleton calls c _ => simp

/-- The discontinuities of each sender's own calls, summed over the senders. -/
def senderDiscontinuities (calls : List Receipt) : Nat :=
  ∑ s ∈ (calls.map (·.sender)).toFinset, discontinuities (ofSender calls s)

/-- A call adds to `senderDiscontinuities` only a discontinuity with its own sender's last
call. -/
theorem senderDiscontinuities_append_singleton (calls : List Receipt) (c : Receipt) :
    senderDiscontinuities (calls ++ [c]) = senderDiscontinuities calls +
      (((ofSender calls c.sender).getLast?.map
        fun a => if a.meta.seq + 1 = c.meta.seq then 0 else 1).getD 0) := by
  set δ := ((ofSender calls c.sender).getLast?.map
    fun a => if a.meta.seq + 1 = c.meta.seq then 0 else 1).getD 0
  have hstep : ∀ s, discontinuities (ofSender (calls ++ [c]) s) =
      discontinuities (ofSender calls s) + if c.sender = s then δ else 0 := by
    intro s
    by_cases h : c.sender = s
    · subst h; simp [discontinuities_append_singleton, δ]
    · simp [h]
  have hfresh : c.sender ∉ (calls.map (·.sender)).toFinset →
      discontinuities (ofSender calls c.sender) = 0 := by
    intro h
    rw [show ofSender calls c.sender = [] by simpa [ofSender, List.filter_eq_nil_iff] using h]
    rfl
  simp only [senderDiscontinuities, List.map_append, List.map_singleton, List.toFinset_append,
    List.toFinset_cons, List.toFinset_nil, insert_emptyc_eq, hstep, Finset.sum_add_distrib,
    Finset.sum_ite_eq, Finset.mem_union, Finset.mem_singleton, or_true, if_true]
  by_cases hmem : c.sender ∈ (calls.map (·.sender)).toFinset
  · rw [Finset.union_eq_left.mpr (Finset.singleton_subset_iff.mpr hmem)]
  · rw [Finset.union_comm, ← Finset.insert_eq, Finset.sum_insert hmem, hfresh hmem, zero_add]

/-- A sender's first call carries `seq = 1`, the value the default entry `0` of `seq`
predicts, unless it is the first call of the run: stated for the last call of every prefix. -/
def FreshSendersStartAtOne (calls : List Receipt) : Prop :=
  ∀ p ∈ calls.inits, ∀ c ∈ p.getLast?, p.dropLast ≠ [] →
    c.sender ∉ p.dropLast.map (·.sender) → c.meta.seq = 1

instance : DecidablePred FreshSendersStartAtOne := fun calls =>
  inferInstanceAs (Decidable (∀ p ∈ calls.inits, _))

theorem FreshSendersStartAtOne.seq_eq_one {calls : List Receipt}
    (h : FreshSendersStartAtOne calls) {pre : List Receipt} {c : Receipt}
    (hp : pre ++ [c] <+: calls) (hpre : pre ≠ []) (hnew : c.sender ∉ pre.map (·.sender)) :
    c.meta.seq = 1 :=
  h _ (List.mem_inits _ _ |>.mpr hp) c (by simp) (by simpa using hpre) (by simpa using hnew)

theorem FreshSendersStartAtOne.of_append {calls : List Receipt} {c : Receipt}
    (h : FreshSendersStartAtOne (calls ++ [c])) : FreshSendersStartAtOne calls := fun p hp =>
  h p (List.mem_inits _ _ |>.mpr (((List.mem_inits _ _).mp hp).trans (List.prefix_append _ _)))

/-- The `uint64_t` counter after one more increment, read modulo `2⁶⁴`. -/
theorem toNat_add_one_mod {d : UInt64} {n : Nat} (h : d.toNat = n % 2 ^ 64) :
    (d + 1).toNat = (n + 1) % 2 ^ 64 := by
  rw [UInt64.toNat_add, h]
  exact Nat.mod_add_mod n _ 1

/-- With every stamp nonzero and fresh senders starting at `1`, `droppedMsgCount` is the sum
of every sender's own discontinuities, modulo `2⁶⁴`. -/
theorem run_droppedMsgCount_toNat (calls : List Receipt)
    (hstamp : ∀ c ∈ calls, c.meta.stamp ≠ 0) (hfresh : FreshSendersStartAtOne calls) :
    (init.run calls : TopicStatistics α).droppedMsgCount.toNat =
      senderDiscontinuities calls % 2 ^ 64 := by
  induction calls using List.reverseRecOn with
  | nil => rfl
  | append_singleton calls c ih =>
      have ih := ih (fun d hd => hstamp d (List.mem_append_left _ hd)) hfresh.of_append
      rw [run_append, run_cons, run_nil, update_droppedMsgCount, run_init_seq,
        run_init_prevPublicationStamp, senderDiscontinuities_append_singleton]
      cases hlast : (ofSender calls c.sender).getLast? with
      | none =>
          have hnew : c.sender ∉ calls.map (·.sender) := by
            have h := List.getLast?_eq_none_iff.mp hlast
            simp only [ofSender, List.filter_eq_nil_iff, decide_eq_true_eq] at h
            simpa using h
          have hseq : lastSeq calls c.sender = 0 := by simp [lastSeq, hlast]
          have hquiet : ¬ ((calls.getLast?.map (·.meta.stamp)).getD 0 ≠ 0 ∧
              lastSeq calls c.sender + 1 ≠ c.meta.seq) := by
            rintro ⟨hprev, hne⟩
            refine hne ?_
            rw [hseq, zero_add, hfresh.seq_eq_one List.prefix_rfl
              (by rintro rfl; exact hprev rfl) hnew]
          simp [hquiet, ih]
      | some a =>
          have hseq : lastSeq calls c.sender = a.meta.seq := by simp [lastSeq, hlast]
          have ha : a ∈ calls := (List.mem_filter.mp (List.mem_of_getLast?_eq_some hlast)).1
          obtain ⟨l, hl⟩ := Option.isSome_iff_exists.mp
            (List.getLast?_isSome.mpr (List.ne_nil_of_mem ha))
          have hprev : (calls.getLast?.map (·.meta.stamp)).getD 0 ≠ 0 := by
            simpa [hl] using hstamp l (List.mem_append_left _ (List.mem_of_getLast?_eq_some hl))
          by_cases heq : a.meta.seq + 1 = c.meta.seq
          · simp [hseq, heq, ih]
          · simp [hseq, heq, hprev, toNat_add_one_mod ih]

/-- A run of one sender's calls with nonzero stamps counts that sender's discontinuities,
modulo `2⁶⁴`: its first call is the run's first and is not checked. -/
theorem run_one_sender_droppedMsgCount (calls : List Receipt) (sender : String)
    (hsender : ∀ c ∈ calls, c.sender = sender) (hstamp : ∀ c ∈ calls, c.meta.stamp ≠ 0) :
    (init.run calls : TopicStatistics α).droppedMsgCount.toNat =
      discontinuities calls % 2 ^ 64 := by
  have hfresh : FreshSendersStartAtOne calls := by
    intro p hp c hc hpre hnew
    obtain ⟨d, hd⟩ := List.exists_mem_of_ne_nil _ hpre
    have hsub : p ⊆ calls := ((List.mem_inits _ _).mp hp).subset
    have hdc : d.sender = c.sender := by
      rw [hsender d (hsub (List.dropLast_subset _ hd)),
        hsender c (hsub (List.mem_of_getLast?_eq_some hc))]
    exact absurd (hdc ▸ List.mem_map_of_mem (·.sender) hd) hnew
  have hall : ofSender calls sender = calls :=
    List.filter_eq_self.mpr fun c hc => by simp [hsender c hc]
  rw [run_droppedMsgCount_toNat calls hstamp hfresh, senderDiscontinuities,
    Finset.sum_eq_single sender]
  · rw [hall]
  · intro s hs hne
    obtain ⟨c, hc, rfl⟩ := List.mem_map.mp (List.mem_toFinset.mp hs)
    exact absurd (hsender c hc) hne
  · intro hs
    cases calls with
    | nil => rfl
    | cons c cs => exact absurd (by simp [hsender c (by simp)]) hs

/-- Under the same conditions, the count over an interleaving is the sum, modulo `2⁶⁴`, of
the counts of each sender's calls run alone. -/
theorem run_droppedMsgCount_split (calls : List Receipt)
    (hstamp : ∀ c ∈ calls, c.meta.stamp ≠ 0) (hfresh : FreshSendersStartAtOne calls) :
    (init.run calls : TopicStatistics α).droppedMsgCount.toNat =
      (∑ s ∈ (calls.map (·.sender)).toFinset,
        (init.run (ofSender calls s) : TopicStatistics α).droppedMsgCount.toNat) % 2 ^ 64 := by
  have hone : ∀ s, (init.run (ofSender calls s) : TopicStatistics α).droppedMsgCount.toNat =
      discontinuities (ofSender calls s) % 2 ^ 64 := fun s =>
    run_one_sender_droppedMsgCount _ s (fun c hc => by simpa using (List.mem_filter.mp hc).2)
      fun c hc => hstamp c (List.mem_filter.mp hc).1
  rw [run_droppedMsgCount_toNat calls hstamp hfresh, senderDiscontinuities,
    Finset.sum_nat_mod]
  simp only [hone, Nat.mod_mod]

/-- Senders `a` and `b` interleaved, `b` starting at `1` and `a` skipping from `1` to `3`. -/
theorem run_droppedMsgCount_split_interleaved :
    (∀ c ∈ [(⟨0, "a", ⟨1, 1⟩⟩ : Receipt), ⟨1, "b", ⟨2, 1⟩⟩, ⟨2, "a", ⟨3, 3⟩⟩],
        c.meta.stamp ≠ 0) ∧
      FreshSendersStartAtOne [⟨0, "a", ⟨1, 1⟩⟩, ⟨1, "b", ⟨2, 1⟩⟩, ⟨2, "a", ⟨3, 3⟩⟩] ∧
      ((init : TopicStatistics ℚ).run
          [⟨0, "a", ⟨1, 1⟩⟩, ⟨1, "b", ⟨2, 1⟩⟩, ⟨2, "a", ⟨3, 3⟩⟩]).droppedMsgCount.toNat =
        (∑ s ∈ ([(⟨0, "a", ⟨1, 1⟩⟩ : Receipt), ⟨1, "b", ⟨2, 1⟩⟩, ⟨2, "a", ⟨3, 3⟩⟩].map
            (·.sender)).toFinset,
          ((init : TopicStatistics ℚ).run (ofSender
            [⟨0, "a", ⟨1, 1⟩⟩, ⟨1, "b", ⟨2, 1⟩⟩, ⟨2, "a", ⟨3, 3⟩⟩] s)).droppedMsgCount.toNat) %
          2 ^ 64 := by
  have hstamp : ∀ c ∈ [(⟨0, "a", ⟨1, 1⟩⟩ : Receipt), ⟨1, "b", ⟨2, 1⟩⟩, ⟨2, "a", ⟨3, 3⟩⟩],
      c.meta.stamp ≠ 0 := by decide
  have hfresh : FreshSendersStartAtOne
      [⟨0, "a", ⟨1, 1⟩⟩, ⟨1, "b", ⟨2, 1⟩⟩, ⟨2, "a", ⟨3, 3⟩⟩] := by decide
  exact ⟨hstamp, hfresh, run_droppedMsgCount_split _ hstamp hfresh⟩

/-- Sender `b` first publishes with `seq = 5` after sender `a`: the interleaving counts one
drop, while each sender run alone counts none. -/
theorem run_late_sender_counted :
    ((init : TopicStatistics ℚ).run [⟨0, "a", ⟨1, 1⟩⟩, ⟨1, "b", ⟨2, 5⟩⟩]).droppedMsgCount = 1 ∧
      ((init : TopicStatistics ℚ).run
        (ofSender [⟨0, "a", ⟨1, 1⟩⟩, ⟨1, "b", ⟨2, 5⟩⟩] "a")).droppedMsgCount = 0 ∧
      ((init : TopicStatistics ℚ).run
        (ofSender [⟨0, "a", ⟨1, 1⟩⟩, ⟨1, "b", ⟨2, 5⟩⟩] "b")).droppedMsgCount = 0 := by
  decide

/-- Along strictly increasing sequence numbers every discontinuity skips at least one number,
so the discontinuities, the calls after the first and the first `seq` stay within the last
`seq`. -/
theorem discontinuities_add_le : ∀ (c : Receipt) (cs : List Receipt),
    (c :: cs).Chain' (fun a b => a.meta.seq < b.meta.seq) →
      discontinuities (c :: cs) + cs.length + c.meta.seq.toNat ≤
        ((c :: cs).getLast (List.cons_ne_nil _ _)).meta.seq.toNat
  | c, [], _ => by simp
  | c, d :: ds, h => by
      rw [List.chain'_cons] at h
      have ih := discontinuities_add_le d ds h.2
      have hlt : c.meta.seq.toNat < d.meta.seq.toNat := h.1
      have hstep : (if c.meta.seq + 1 = d.meta.seq then 0 else 1) + c.meta.seq.toNat + 1 ≤
          d.meta.seq.toNat := by
        have hsucc : (c.meta.seq + 1).toNat = c.meta.seq.toNat + 1 :=
          toNat_add_one_of_lt rfl (by have := d.meta.seq.toNat_lt; omega)
        split_ifs with heq
        · omega
        · have hne : c.meta.seq.toNat + 1 ≠ d.meta.seq.toNat := fun h' =>
            heq (UInt64.ext (by rw [hsucc, h']))
          omega
      simp only [discontinuities_cons_cons, List.length_cons, List.getLast_cons_cons] at ih ⊢
      omega

/-- One sender, nonzero stamps, strictly increasing `seq`: the count never exceeds the number
of skipped sequence numbers `(sₙ - s₁) - (n - 1)`. -/
theorem run_one_sender_droppedMsgCount_le (c : Receipt) (cs : List Receipt) (sender : String)
    (hsender : ∀ d ∈ c :: cs, d.sender = sender) (hstamp : ∀ d ∈ c :: cs, d.meta.stamp ≠ 0)
    (hseq : (c :: cs).Chain' (fun a b => a.meta.seq < b.meta.seq)) :
    (init.run (c :: cs) : TopicStatistics α).droppedMsgCount.toNat ≤
      ((c :: cs).getLast (List.cons_ne_nil _ _)).meta.seq.toNat - c.meta.seq.toNat -
        cs.length := by
  rw [run_one_sender_droppedMsgCount _ sender hsender hstamp]
  have := discontinuities_add_le c cs hseq
  have := Nat.mod_le (discontinuities (c :: cs)) (2 ^ 64)
  omega

/-- Three calls of sender `a` with stamps `1, 2, 3` and sequence numbers `1, 4, 5`. -/
theorem run_one_sender_droppedMsgCount_le_one_four_five :
    (∀ d ∈ [(⟨0, "a", ⟨1, 1⟩⟩ : Receipt), ⟨1, "a", ⟨2, 4⟩⟩, ⟨2, "a", ⟨3, 5⟩⟩], d.sender = "a") ∧
      (∀ d ∈ [(⟨0, "a", ⟨1, 1⟩⟩ : Receipt), ⟨1, "a", ⟨2, 4⟩⟩, ⟨2, "a", ⟨3, 5⟩⟩],
        d.meta.stamp ≠ 0) ∧
      [(⟨0, "a", ⟨1, 1⟩⟩ : Receipt), ⟨1, "a", ⟨2, 4⟩⟩, ⟨2, "a", ⟨3, 5⟩⟩].Chain'
        (fun a b => a.meta.seq < b.meta.seq) ∧
      ((init : TopicStatistics ℚ).run
          [⟨0, "a", ⟨1, 1⟩⟩, ⟨1, "a", ⟨2, 4⟩⟩, ⟨2, "a", ⟨3, 5⟩⟩]).droppedMsgCount.toNat ≤
        (5 : UInt64).toNat - (1 : UInt64).toNat - 2 := by
  have hsender : ∀ d ∈ [(⟨0, "a", ⟨1, 1⟩⟩ : Receipt), ⟨1, "a", ⟨2, 4⟩⟩, ⟨2, "a", ⟨3, 5⟩⟩],
      d.sender = "a" := by decide
  have hstamp : ∀ d ∈ [(⟨0, "a", ⟨1, 1⟩⟩ : Receipt), ⟨1, "a", ⟨2, 4⟩⟩, ⟨2, "a", ⟨3, 5⟩⟩],
      d.meta.stamp ≠ 0 := by decide
  have hseq : [(⟨0, "a", ⟨1, 1⟩⟩ : Receipt), ⟨1, "a", ⟨2, 4⟩⟩, ⟨2, "a", ⟨3, 5⟩⟩].Chain'
      (fun a b => a.meta.seq < b.meta.seq) :=
    List.chain'_cons.mpr ⟨by decide, List.chain'_pair.mpr (by decide)⟩
  exact ⟨hsender, hstamp, hseq,
    run_one_sender_droppedMsgCount_le (α := ℚ) _ _ "a" hsender hstamp hseq⟩

/-- One sender jumps from `seq = 1` to `seq = 4`, skipping two messages: one drop is counted. -/
theorem run_gap_counted_once :
    ((init : TopicStatistics ℚ).run [⟨0, "a", ⟨1, 1⟩⟩, ⟨1, "a", ⟨2, 4⟩⟩]).droppedMsgCount = 1 := by
  decide

end IgnTransport.TopicStatistics
