import IgnTransport.TopicStatistics.Dropped

/-!
# What the drop counter detects

`Update` counts a drop when the incoming `seq` is not one more than `seq[sender]`. It raises no
false alarm: when every sender numbers its calls `1, 2, 3, …` from the default `0` of
`seq[sender]`, any interleaving of them, with any stamps, counts nothing
(`run_numbered_droppedMsgCount`). It misses no gap: under the conditions of
`run_droppedMsgCount_toNat` and with fewer than `2⁶⁴` calls, the counter is zero exactly when
each sender's numbers go up by one from call to call (`run_droppedMsgCount_eq_zero_iff`). And
it counts at most one drop per recorded interval: from any state where it is at most
`publication.count` it stays so while `count` does not wrap (`run_droppedMsgCount_le_count`).
What it counts are discontinuities, not lost messages: a publication delivered twice adds one
drop wherever it occurs (`run_duplicate_droppedMsgCount`).
-/

namespace IgnTransport.TopicStatistics

variable {α : Type} [LinearOrderedField α]

/-- Calls whose `seq` goes up by exactly one, in `uint64_t`, from each call to the next. -/
def Consecutive (calls : List Receipt) : Prop :=
  calls.Chain' fun a b => a.meta.seq + 1 = b.meta.seq

instance : DecidablePred Consecutive := fun calls =>
  inferInstanceAs (Decidable (calls.Chain' _))

/-- Every sender's sequence numbers go up by one from call to call, starting from the default
`0` of `seq[sender]`: each sender numbers its calls `1, 2, 3, …`. -/
def NumberedFromOne (calls : List Receipt) : Prop :=
  ∀ s ∈ calls.map (·.sender), ((ofSender calls s).map (·.meta.seq)).Chain (fun a b => a + 1 = b) 0

instance : DecidablePred NumberedFromOne := fun calls =>
  inferInstanceAs (Decidable (∀ s ∈ calls.map Receipt.sender,
    ((ofSender calls s).map fun c : Receipt => c.meta.seq).Chain (fun a b : UInt64 => a + 1 = b) 0))

/-- A sender's own calls have no discontinuity exactly when they are consecutive. -/
theorem discontinuities_eq_zero_iff :
    ∀ {calls : List Receipt}, discontinuities calls = 0 ↔ Consecutive calls
  | [] | [_] => by simp [Consecutive]
  | c :: d :: ds => by
      have ih : discontinuities (d :: ds) = 0 ↔ Consecutive (d :: ds) :=
        discontinuities_eq_zero_iff
      rw [Consecutive] at ih ⊢
      rw [discontinuities_cons_cons, List.chain'_cons, ← ih]
      split_ifs with h <;> simp [h]

/-- What `seq[sender]` holds is the last of the sender's numbers counted from `0`. -/
theorem getLast?_zero_cons_seq (calls : List Receipt) (s : String) :
    ((0 : UInt64) :: (ofSender calls s).map (·.meta.seq)).getLast? = some (lastSeq calls s) := by
  rw [List.getLast?_cons, List.getLast?_map, lastSeq]

/-- A sender's call continues its numbering from what `seq[sender]` holds. -/
theorem NumberedFromOne.lastSeq_add_one {calls : List Receipt} {c : Receipt}
    (h : NumberedFromOne (calls ++ [c])) : lastSeq calls c.sender + 1 = c.meta.seq := by
  have hchain : ((0 : UInt64) :: (ofSender calls c.sender).map (·.meta.seq) ++ [c.meta.seq]).Chain'
      (fun a b => a + 1 = b) := by
    simpa using h c.sender (by simp)
  exact (List.chain'_append.mp hchain).2.2 _ (getLast?_zero_cons_seq calls c.sender) _ rfl

/-- Numbering from one holds of every prefix. -/
theorem NumberedFromOne.of_append {calls : List Receipt} {c : Receipt}
    (h : NumberedFromOne (calls ++ [c])) : NumberedFromOne calls := by
  intro s hs
  have hchain : ((0 : UInt64) :: (ofSender calls s).map (·.meta.seq) ++
      if c.sender = s then [c.meta.seq] else []).Chain' (fun a b => a + 1 = b) := by
    have := h s (by simp only [List.map_append, List.mem_append]; exact .inl hs)
    by_cases hc : c.sender = s <;> simpa [hc] using this
  exact hchain.left_of_append

/-- No false alarm: when every sender numbers its calls `1, 2, 3, …`, any interleaving of them,
with any stamps, leaves `droppedMsgCount` at `0`. -/
theorem run_numbered_droppedMsgCount (calls : List Receipt) (h : NumberedFromOne calls) :
    (init.run calls : TopicStatistics α).droppedMsgCount = 0 := by
  induction calls using List.reverseRecOn with
  | nil => rfl
  | append_singleton calls c ih =>
      rw [run_append, run_cons, run_nil, update_droppedMsgCount, run_init_seq,
        h.lastSeq_add_one, ih h.of_append]
      simp

/-- Two senders interleaved, numbering `1, 2` each, the first with a zero stamp. -/
theorem run_numbered_droppedMsgCount_two_senders :
    NumberedFromOne [⟨0, "a", ⟨0, 1⟩⟩, ⟨1, "b", ⟨5, 1⟩⟩, ⟨2, "b", ⟨6, 2⟩⟩, ⟨3, "a", ⟨7, 2⟩⟩] ∧
      ((init : TopicStatistics ℚ).run [⟨0, "a", ⟨0, 1⟩⟩, ⟨1, "b", ⟨5, 1⟩⟩, ⟨2, "b", ⟨6, 2⟩⟩,
        ⟨3, "a", ⟨7, 2⟩⟩]).droppedMsgCount = 0 := by
  have h : NumberedFromOne
      [⟨0, "a", ⟨0, 1⟩⟩, ⟨1, "b", ⟨5, 1⟩⟩, ⟨2, "b", ⟨6, 2⟩⟩, ⟨3, "a", ⟨7, 2⟩⟩] := by
    simp [NumberedFromOne, ofSender]
  exact ⟨h, run_numbered_droppedMsgCount _ h⟩

/-- Each call adds at most one to the discontinuities of its own sender. -/
theorem senderDiscontinuities_le_length (calls : List Receipt) :
    senderDiscontinuities calls ≤ calls.length := by
  induction calls using List.reverseRecOn with
  | nil => rfl
  | append_singleton calls c ih =>
      have hstep : ((ofSender calls c.sender).getLast?.map
          fun a => if a.meta.seq + 1 = c.meta.seq then 0 else 1).getD 0 ≤ 1 := by
        cases (ofSender calls c.sender).getLast? with
        | none => simp
        | some a => simp only [Option.map_some', Option.getD_some]; split_ifs <;> simp
      rw [senderDiscontinuities_append_singleton, List.length_append, List.length_singleton]
      omega

/-- No missed gap: with every stamp nonzero, every sender but the first starting at `seq = 1`,
and fewer than `2⁶⁴` calls, `droppedMsgCount` is `0` exactly when each sender's sequence
numbers go up by one from call to call. -/
theorem run_droppedMsgCount_eq_zero_iff (calls : List Receipt)
    (hstamp : ∀ c ∈ calls, c.meta.stamp ≠ 0) (hfresh : FreshSendersStartAtOne calls)
    (hlt : calls.length < 2 ^ 64) :
    (init.run calls : TopicStatistics α).droppedMsgCount = 0 ↔
      ∀ s ∈ calls.map (·.sender), Consecutive (ofSender calls s) := by
  have hcount := run_droppedMsgCount_toNat (α := α) calls hstamp hfresh
  rw [Nat.mod_eq_of_lt ((senderDiscontinuities_le_length calls).trans_lt hlt)] at hcount
  rw [UInt64.ext_iff, hcount, UInt64.toNat_zero, senderDiscontinuities,
    Finset.sum_eq_zero_iff]
  simp only [List.mem_toFinset, discontinuities_eq_zero_iff]

/-- Sender `a` numbers `1, 2` and sender `b` skips from `1` to `3`: the counter is not zero. -/
theorem run_droppedMsgCount_eq_zero_iff_skip :
    (∀ c ∈ [(⟨0, "a", ⟨1, 1⟩⟩ : Receipt), ⟨1, "b", ⟨2, 1⟩⟩, ⟨2, "a", ⟨3, 2⟩⟩,
        ⟨3, "b", ⟨4, 3⟩⟩], c.meta.stamp ≠ 0) ∧
      FreshSendersStartAtOne [⟨0, "a", ⟨1, 1⟩⟩, ⟨1, "b", ⟨2, 1⟩⟩, ⟨2, "a", ⟨3, 2⟩⟩,
        ⟨3, "b", ⟨4, 3⟩⟩] ∧
      ((init : TopicStatistics ℚ).run [⟨0, "a", ⟨1, 1⟩⟩, ⟨1, "b", ⟨2, 1⟩⟩, ⟨2, "a", ⟨3, 2⟩⟩,
          ⟨3, "b", ⟨4, 3⟩⟩]).droppedMsgCount ≠ 0 := by
  have hstamp : ∀ c ∈ [(⟨0, "a", ⟨1, 1⟩⟩ : Receipt), ⟨1, "b", ⟨2, 1⟩⟩, ⟨2, "a", ⟨3, 2⟩⟩,
      ⟨3, "b", ⟨4, 3⟩⟩], c.meta.stamp ≠ 0 := by decide
  have hfresh : FreshSendersStartAtOne [⟨0, "a", ⟨1, 1⟩⟩, ⟨1, "b", ⟨2, 1⟩⟩, ⟨2, "a", ⟨3, 2⟩⟩,
      ⟨3, "b", ⟨4, 3⟩⟩] := by decide
  refine ⟨hstamp, hfresh, ?_⟩
  rw [Ne, run_droppedMsgCount_eq_zero_iff _ hstamp hfresh (by decide)]
  simp [ofSender, Consecutive]

/-- One `Update` counts a drop only when it records an interval: the counter stays at most
`publication.count`, and the count grows by at most one. -/
theorem update_droppedMsgCount_le_count (t : TopicStatistics α) (now : UInt64)
    (sender : String) (meta : PublicationMetadata)
    (h : t.droppedMsgCount.toNat ≤ t.publication.count.toNat)
    (hlt : t.publication.count.toNat + 1 < 2 ^ 64) :
    (t.update now sender meta).droppedMsgCount.toNat ≤
        (t.update now sender meta).publication.count.toNat ∧
      (t.update now sender meta).publication.count.toNat ≤ t.publication.count.toNat + 1 := by
  rw [update_droppedMsgCount, update_publication]
  by_cases hp : t.prevPublicationStamp = 0
  · simp [hp, h]
  · have hcount := toNat_add_one_of_lt (c := t.publication.count) rfl hlt
    have hdrop := toNat_add_one_of_lt (c := t.droppedMsgCount) rfl (by omega)
    split_ifs <;> simp only [Statistics.update_count, hcount, hdrop] <;> omega

/-- From any state where `droppedMsgCount` is at most `publication.count`, it stays so over
every run during which `count` does not wrap. -/
theorem run_droppedMsgCount_le_count (t : TopicStatistics α) (calls : List Receipt)
    (h : t.droppedMsgCount.toNat ≤ t.publication.count.toNat)
    (hlt : t.publication.count.toNat + calls.length < 2 ^ 64) :
    (t.run calls).droppedMsgCount.toNat ≤ (t.run calls).publication.count.toNat := by
  induction calls generalizing t with
  | nil => exact h
  | cons c cs ih =>
      rw [List.length_cons] at hlt
      obtain ⟨hstep, hcount⟩ := update_droppedMsgCount_le_count t c.now c.sender c.meta h
        (by omega)
      rw [run_cons]
      exact ih _ hstep (by omega)

/-- From a fresh `TopicStatistics`, over a run where every message after the first is counted
as dropped. -/
theorem run_droppedMsgCount_le_count_init :
    (init : TopicStatistics ℚ).droppedMsgCount.toNat ≤
        (init : TopicStatistics ℚ).publication.count.toNat ∧
      (init : TopicStatistics ℚ).publication.count.toNat +
          [(⟨0, "a", ⟨1, 1⟩⟩ : Receipt), ⟨1, "a", ⟨2, 3⟩⟩, ⟨2, "a", ⟨3, 5⟩⟩].length < 2 ^ 64 ∧
      ((init : TopicStatistics ℚ).run
          [⟨0, "a", ⟨1, 1⟩⟩, ⟨1, "a", ⟨2, 3⟩⟩, ⟨2, "a", ⟨3, 5⟩⟩]).droppedMsgCount.toNat ≤
        ((init : TopicStatistics ℚ).run
          [⟨0, "a", ⟨1, 1⟩⟩, ⟨1, "a", ⟨2, 3⟩⟩, ⟨2, "a", ⟨3, 5⟩⟩]).publication.count.toNat :=
  ⟨le_rfl, by decide, run_droppedMsgCount_le_count _ _ le_rfl (by decide)⟩

/-! ## Duplicated deliveries -/

/-- The drop count of a run depends on the starting state only through `seq` and
`prevPublicationStamp`, and carries any difference in the starting count unchanged. -/
theorem run_droppedMsgCount_offset {t t' : TopicStatistics α} (calls : List Receipt)
    (hseq : t'.seq = t.seq) (hprev : t'.prevPublicationStamp = t.prevPublicationStamp)
    (k : UInt64) (hk : t'.droppedMsgCount = t.droppedMsgCount + k) :
    (t'.run calls).droppedMsgCount = (t.run calls).droppedMsgCount + k := by
  induction calls generalizing t t' with
  | nil => exact hk
  | cons c cs ih =>
      rw [run_cons, run_cons]
      refine ih (by simp [hseq]) (by simp) ?_
      rw [update_droppedMsgCount, update_droppedMsgCount, hseq, hprev, hk]
      split_ifs
      · exact add_right_comm _ _ _
      · rfl

/-- A publication delivered twice in a row, with a nonzero stamp, is counted as one dropped
message, wherever it occurs in a run: the copy is compared with its own `seq`. -/
theorem run_duplicate_droppedMsgCount (pre post : List Receipt) (c : Receipt)
    (hc : c.meta.stamp ≠ 0) :
    (init.run (pre ++ c :: c :: post) : TopicStatistics α).droppedMsgCount =
      (init.run (pre ++ c :: post) : TopicStatistics α).droppedMsgCount + 1 := by
  have hne : c.meta.seq + 1 ≠ c.meta.seq := fun h =>
    absurd (add_right_eq_self.mp h) (by decide)
  simp only [run_append, run_cons]
  refine run_droppedMsgCount_offset post (by simp) (by simp) 1 ?_
  rw [update_droppedMsgCount]
  simp [hc, hne]

/-- Sender `a`'s second message arrives twice: one drop, where the run without the copy has
none. -/
theorem run_duplicate_droppedMsgCount_twice :
    (⟨1, "a", ⟨2, 2⟩⟩ : Receipt).meta.stamp ≠ 0 ∧
      ((init : TopicStatistics ℚ).run ([⟨0, "a", ⟨1, 1⟩⟩] ++
          ⟨1, "a", ⟨2, 2⟩⟩ :: ⟨1, "a", ⟨2, 2⟩⟩ :: [⟨2, "a", ⟨3, 3⟩⟩])).droppedMsgCount =
        ((init : TopicStatistics ℚ).run ([⟨0, "a", ⟨1, 1⟩⟩] ++
          ⟨1, "a", ⟨2, 2⟩⟩ :: [⟨2, "a", ⟨3, 3⟩⟩])).droppedMsgCount + 1 :=
  ⟨by decide, run_duplicate_droppedMsgCount _ _ _ (by decide)⟩

end IgnTransport.TopicStatistics
