import Mathlib

/-!
# Rolling statistics of a sample stream

`Statistics` in `TopicStatistics.hh` keeps a sample count, a running average, a running sum
of squared distances from the mean (Welford's online algorithm), and the smallest and largest
sample. The class is modelled over an ordered field `α`, so `double` arithmetic is read as
exact arithmetic, while `count` stays a `uint64_t` whose conversion to `double` is the cast
of `UInt64.toNat`. The member initializers `std::numeric_limits<double>::max()` and
`std::numeric_limits<double>::min()` are the exact rationals `doubleMax` and `doubleMin`.
`Min()` and `Max()` return the members `min` and `max`, so the projections stand for them.
-/

namespace IgnTransport

/-- `std::numeric_limits<double>::max()`, the largest finite double `(2⁵³ - 1) · 2⁹⁷¹`. -/
def doubleMax : ℚ := (2 ^ 53 - 1) * 2 ^ 971

/-- `std::numeric_limits<double>::min()`, the smallest positive normal double `2⁻¹⁰²²`.
It is positive: the most negative double is `lowest()`. -/
def doubleMin : ℚ := 1 / 2 ^ 1022

theorem doubleMin_pos : 0 < doubleMin := by norm_num [doubleMin]

/-- A `uint64_t` counter below `2⁶⁴ - 1` does not wrap when incremented. -/
theorem toNat_add_one_of_lt {c : UInt64} {n : Nat} (hc : c.toNat = n) (hlt : n + 1 < 2 ^ 64) :
    (c + 1).toNat = n + 1 := by
  rw [UInt64.toNat_add, hc]
  exact Nat.mod_eq_of_lt hlt

/-- The members of `Statistics`. -/
structure Statistics (α : Type) where
  /-- Count of the samples. -/
  count : UInt64
  /-- Average value. -/
  average : α
  /-- Sum of the squared mean distance between samples. -/
  sumSquareMeanDist : α
  /-- Minimum sample. -/
  min : α
  /-- Maximum sample. -/
  max : α
  deriving Repr

namespace Statistics

variable {α : Type} [LinearOrderedField α]

/-- A default-constructed `Statistics`, from the member initializers. -/
def init : Statistics α where
  count := 0
  average := 0
  sumSquareMeanDist := 0
  min := (doubleMax : α)
  max := (doubleMin : α)

/-- `Statistics::Update`: count the sample, move the average towards it by `1 / count` of the
distance, keep the extremes, and add Welford's term `(x - old average) * (x - new average)`. -/
def update (s : Statistics α) (stat : α) : Statistics α :=
  let count := s.count + 1
  let currentAvg := s.average
  let average := currentAvg + (stat - currentAvg) / (count.toNat : α)
  { count, average
    min := Min.min s.min stat
    max := Max.max s.max stat
    sumSquareMeanDist := s.sumSquareMeanDist + (stat - currentAvg) * (stat - average) }

/-- `Statistics::Avg`. -/
def avg (s : Statistics α) : α := s.average

/-- `Statistics::StdDev`, with `std::sqrt` supplied as `sqrt`. -/
def stdDev (sqrt : α → α) (s : Statistics α) : α :=
  sqrt (s.sumSquareMeanDist / (s.count.toNat : α))

/-- Feed the samples to `update`, first to last. -/
def absorb (s : Statistics α) (xs : List α) : Statistics α := xs.foldl update s

/-! ## What one update does to each member -/

@[simp] theorem update_count (s : Statistics α) (x : α) : (s.update x).count = s.count + 1 := rfl

@[simp] theorem update_average (s : Statistics α) (x : α) :
    (s.update x).average = s.average + (x - s.average) / ((s.count + 1).toNat : α) := rfl

@[simp] theorem update_sumSquareMeanDist (s : Statistics α) (x : α) :
    (s.update x).sumSquareMeanDist =
      s.sumSquareMeanDist + (x - s.average) * (x - (s.update x).average) := rfl

@[simp] theorem update_min (s : Statistics α) (x : α) : (s.update x).min = Min.min s.min x := rfl

@[simp] theorem update_max (s : Statistics α) (x : α) : (s.update x).max = Max.max s.max x := rfl

omit [LinearOrderedField α] in
@[simp] theorem avg_eq (s : Statistics α) : s.avg = s.average := rfl

@[simp] theorem absorb_nil (s : Statistics α) : s.absorb [] = s := rfl

@[simp] theorem absorb_cons (s : Statistics α) (x : α) (xs : List α) :
    s.absorb (x :: xs) = (s.update x).absorb xs := rfl

@[simp] theorem absorb_append (s : Statistics α) (xs ys : List α) :
    s.absorb (xs ++ ys) = (s.absorb xs).absorb ys := List.foldl_append _ _ _ _

/-- `count` is a `uint64_t`: absorbing `xs` adds their number modulo `2⁶⁴`. -/
theorem absorb_count_toNat (s : Statistics α) (xs : List α) :
    (s.absorb xs).count.toNat = (s.count.toNat + xs.length) % 2 ^ 64 := by
  induction xs generalizing s with
  | nil => exact (Nat.mod_eq_of_lt s.count.toNat_lt).symm
  | cons x xs ih =>
      have hinc : (s.count + 1).toNat = (s.count.toNat + 1) % 2 ^ 64 := UInt64.toNat_add _ _
      rw [absorb_cons, ih, update_count, hinc, Nat.mod_add_mod, List.length_cons,
        Nat.add_right_comm, Nat.add_assoc]

@[simp] theorem init_count : (init : Statistics α).count = 0 := rfl

@[simp] theorem init_average : (init : Statistics α).average = 0 := rfl

@[simp] theorem init_sumSquareMeanDist : (init : Statistics α).sumSquareMeanDist = 0 := rfl

@[simp] theorem init_min : (init : Statistics α).min = doubleMax := rfl

@[simp] theorem init_max : (init : Statistics α).max = doubleMin := rfl

end Statistics

end IgnTransport
