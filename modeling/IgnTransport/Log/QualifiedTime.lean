import Mathlib

/-!
# Qualified times and time ranges of the log query API

`QualifiedTime.hh` declares these classes, but the file that implements them is not among the
sources, so every definition here is modelled from the spec. A `QualifiedTime` is either
indeterminate or a nanosecond time stamp with a `Qualifier`. A `QualifiedTimeRange` is valid
when an endpoint is indeterminate or its finish is not before its start, and its setters keep
the new endpoint and return the validity of the range they leave. `select` is what the comments on
`Qualifier` ask of a query engine, and `select_eq_some_iff` says what it picks: a sample on the
accepted side with no accepted sample nearer to the boundary.
-/

namespace IgnTransport.Log

/-- `QualifiedTime::Qualifier`: how a message is selected around a time stamp. -/
inductive Qualifier where
  /-- Either an exact time match, or the closest time before the time stamp. -/
  | OrClosestBefore
  /-- The closest time before the time stamp. -/
  | ClosestBefore
  /-- Either an exact time match, or the closest time after the time stamp. -/
  | OrClosestAfter
  /-- The closest time after the time stamp. -/
  | ClosestAfter
  deriving DecidableEq, Repr

namespace Qualifier

/-- The side of a boundary `b` on which a qualifier accepts a sample `s`. -/
def accepts : Qualifier → Int → Int → Bool
  | OrClosestBefore, b, s => s ≤ b
  | ClosestBefore, b, s => s < b
  | OrClosestAfter, b, s => b ≤ s
  | ClosestAfter, b, s => b < s

/-- Whether the qualifier looks before its time stamp. -/
def before : Qualifier → Bool
  | OrClosestBefore | ClosestBefore => true
  | OrClosestAfter | ClosestAfter => false

end Qualifier

/-- Modelled from the spec: `QualifiedTime`, whose implementation is not in the sources. The
time is `std::chrono::nanoseconds`, a signed count, and `none` is the indeterminate time, so a
time without its qualifier cannot be built. -/
structure QualifiedTime where
  pinned : Option (Int × Qualifier)
  deriving DecidableEq, Repr

namespace QualifiedTime

/-- Modelled from the spec: the default constructor, an indeterminate time. -/
def indeterminate : QualifiedTime := ⟨none⟩

/-- Modelled from the spec: the constructor from a time stamp and a qualifier; the header's
default qualifier is `OrClosestBefore`. -/
def ofTime (time : Int) (qualifier : Qualifier) : QualifiedTime := ⟨some (time, qualifier)⟩

/-- Modelled from the spec: `IsIndeterminate`. -/
def isIndeterminate (t : QualifiedTime) : Bool := t.pinned.isNone

/-- Modelled from the spec: `GetTime`, `none` for an indeterminate time. -/
def getTime (t : QualifiedTime) : Option Int := t.pinned.map (·.1)

/-- Modelled from the spec: `GetQualifier`, `none` for an indeterminate time. -/
def getQualifier (t : QualifiedTime) : Option Qualifier := t.pinned.map (·.2)

/-- Modelled from the spec: `SetTime`. -/
def setTime (_ : QualifiedTime) (time : Int) (qualifier : Qualifier) : QualifiedTime :=
  ofTime time qualifier

/-- Modelled from the spec: `Clear`. -/
def clear (_ : QualifiedTime) : QualifiedTime := indeterminate

/-- A time has a time stamp and a qualifier together, or neither. -/
theorem getTime_isSome (t : QualifiedTime) :
    t.getTime.isSome = !t.isIndeterminate ∧ t.getQualifier.isSome = !t.isIndeterminate := by
  rcases t with ⟨_ | _⟩ <;> exact ⟨rfl, rfl⟩

end QualifiedTime

/-- Modelled from the spec: `QualifiedTimeRange`, its two endpoints. -/
structure QualifiedTimeRange where
  start : QualifiedTime
  finish : QualifiedTime
  deriving DecidableEq, Repr

namespace QualifiedTimeRange

/-- Modelled from the spec: `Valid`. A range is valid when an endpoint is indeterminate or the
finish is not before the start; the qualifiers play no part. -/
def valid (r : QualifiedTimeRange) : Bool :=
  match r.start.getTime, r.finish.getTime with
  | some s, some f => s ≤ f
  | _, _ => true

/-- Modelled from the spec: `From`, a range that begins at `start` and never ends. -/
def «from» (start : QualifiedTime) : QualifiedTimeRange := ⟨start, .indeterminate⟩

/-- Modelled from the spec: `Until`, a range that ends at `finish` and has no beginning. -/
def «until» (finish : QualifiedTime) : QualifiedTimeRange := ⟨.indeterminate, finish⟩

/-- Modelled from the spec: `AllTime`, a range with no beginning or end. -/
def allTime : QualifiedTimeRange := ⟨.indeterminate, .indeterminate⟩

/-- Modelled from the spec: `SetStart`, which keeps the new start whatever it returns. -/
def setStart (r : QualifiedTimeRange) (start : QualifiedTime) : Bool × QualifiedTimeRange :=
  let r := { r with start }
  (r.valid, r)

/-- Modelled from the spec: `SetFinish`, which keeps the new finish whatever it returns. -/
def setFinish (r : QualifiedTimeRange) (finish : QualifiedTime) : Bool × QualifiedTimeRange :=
  let r := { r with finish }
  (r.valid, r)

/-- Modelled from the spec: `SetRange`, which keeps both endpoints whatever it returns. -/
def setRange (_ : QualifiedTimeRange) (start finish : QualifiedTime) :
    Bool × QualifiedTimeRange :=
  let r : QualifiedTimeRange := ⟨start, finish⟩
  (r.valid, r)

end QualifiedTimeRange

/-- Modelled from the spec: the sample that a boundary `b` qualified by `q` selects among the
sample times, as the comments on `Qualifier` describe it; a query engine outside the sources
applies it. -/
def select (b : Int) (q : Qualifier) (samples : List Int) : Option Int :=
  if q.before then (samples.filter (q.accepts b)).max? else (samples.filter (q.accepts b)).min?

/-- Below the boundary, the accepted sample nearer to it is the later one. -/
theorem max?_filter_eq_some_iff {p : Int → Bool} {b : Int} (hp : ∀ x, p x → x ≤ b)
    (samples : List Int) (s : Int) :
    (samples.filter p).max? = some s ↔
      s ∈ samples ∧ p s ∧ ∀ s' ∈ samples, p s' → |s - b| ≤ |s' - b| := by
  haveI : Std.Antisymm (α := Int) (· ≤ ·) := ⟨Int.le_antisymm⟩
  rw [List.max?_eq_some_iff le_refl max_choice fun _ _ _ => max_le_iff]
  simp only [List.mem_filter, and_imp, and_assoc]
  refine and_congr_right fun _ => and_congr_right fun hs => forall₂_congr fun s' _ =>
    imp_congr_right fun hs' => ?_
  rw [abs_of_nonpos (sub_nonpos.mpr (hp s hs)), abs_of_nonpos (sub_nonpos.mpr (hp s' hs'))]
  omega

/-- Above the boundary, the accepted sample nearer to it is the earlier one. -/
theorem min?_filter_eq_some_iff {p : Int → Bool} {b : Int} (hp : ∀ x, p x → b ≤ x)
    (samples : List Int) (s : Int) :
    (samples.filter p).min? = some s ↔
      s ∈ samples ∧ p s ∧ ∀ s' ∈ samples, p s' → |s - b| ≤ |s' - b| := by
  haveI : Std.Antisymm (α := Int) (· ≤ ·) := ⟨Int.le_antisymm⟩
  rw [List.min?_eq_some_iff le_refl min_choice fun _ _ _ => le_min_iff]
  simp only [List.mem_filter, and_imp, and_assoc]
  refine and_congr_right fun _ => and_congr_right fun hs => forall₂_congr fun s' _ =>
    imp_congr_right fun hs' => ?_
  rw [abs_of_nonneg (sub_nonneg.mpr (hp s hs)), abs_of_nonneg (sub_nonneg.mpr (hp s' hs'))]
  omega

/-- A boundary selects a sample on its accepted side with no accepted sample nearer to it. -/
theorem select_eq_some_iff (b : Int) (q : Qualifier) (samples : List Int) (s : Int) :
    select b q samples = some s ↔
      s ∈ samples ∧ q.accepts b s ∧
        ∀ s' ∈ samples, q.accepts b s' → |s - b| ≤ |s' - b| := by
  cases q
  · exact max?_filter_eq_some_iff (fun x hx => by simpa [Qualifier.accepts] using hx) samples s
  · exact max?_filter_eq_some_iff
      (fun x hx => le_of_lt (by simpa [Qualifier.accepts] using hx)) samples s
  · exact min?_filter_eq_some_iff (fun x hx => by simpa [Qualifier.accepts] using hx) samples s
  · exact min?_filter_eq_some_iff
      (fun x hx => le_of_lt (by simpa [Qualifier.accepts] using hx)) samples s

example : select 20 .ClosestBefore [10, 20, 30] = some 10 ∧
    select 20 .OrClosestBefore [10, 20, 30] = some 20 := by decide

end IgnTransport.Log
