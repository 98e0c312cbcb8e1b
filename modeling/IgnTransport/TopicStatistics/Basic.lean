import IgnTransport.Statistics.Basic

/-!
# Statistics of one topic

`TopicStatistics` in `TopicStatistics.hh` feeds two `Statistics`, one with the intervals
between publisher stamps and one with the intervals between receive times, and counts
sequence-number discontinuities per sender. `update` is `TopicStatistics::Update` with the
steady-clock reading passed in as `now`, so a run of the subscriber is the fold `run` over
its calls. The `std::map<std::string, uint64_t>` of sequence numbers is a function with
default `0`: `operator[]` inserts `0` for an unseen sender, and the class reads the map only
through it. `yamlString` gives the lines of `YamlString` as key and value, and
`yamlDivisors` the divisors of the divisions it performs.
-/

namespace IgnTransport

/-- `PublicationMetadata`. -/
structure PublicationMetadata where
  stamp : UInt64 := 0
  seq : UInt64 := 0
  deriving DecidableEq, Repr

/-- The members of `TopicStatistics`. -/
structure TopicStatistics (α : Type) where
  /-- Map of address to sequence numbers. -/
  seq : String → UInt64
  /-- Statistics for the publisher. -/
  publication : Statistics α
  /-- Statistics for the subscriber. -/
  receive : Statistics α
  /-- Total number of dropped messages. -/
  droppedMsgCount : UInt64
  /-- Previous publication time stamp. -/
  prevPublicationStamp : UInt64
  /-- Previous received time stamp. -/
  prevReceiveStamp : UInt64

/-- One call of `TopicStatistics::Update`: the clock reading it takes, the sender's address and
the publication's metadata. -/
structure Receipt where
  now : UInt64
  sender : String
  meta : PublicationMetadata
  deriving DecidableEq, Repr

namespace TopicStatistics

variable {α : Type} [LinearOrderedField α]

/-- A default-constructed `TopicStatistics`. -/
def init : TopicStatistics α where
  seq _ := 0
  publication := .init
  receive := .init
  droppedMsgCount := 0
  prevPublicationStamp := 0
  prevReceiveStamp := 0

/-- `TopicStatistics::Update`. A previous stamp of `0` stands for "no previous call": such a
call records no interval and checks no sequence number. -/
def update (t : TopicStatistics α) (now : UInt64) (sender : String)
    (meta : PublicationMetadata) : TopicStatistics α :=
  let t :=
    if t.prevPublicationStamp ≠ 0 then
      { t with
        publication := t.publication.update ((meta.stamp - t.prevPublicationStamp).toNat : α)
        receive := t.receive.update ((now - t.prevReceiveStamp).toNat : α)
        droppedMsgCount :=
          if t.seq sender + 1 ≠ meta.seq then t.droppedMsgCount + 1 else t.droppedMsgCount }
    else t
  { t with
    prevPublicationStamp := meta.stamp
    prevReceiveStamp := now
    seq := Function.update t.seq sender meta.seq }

/-- The calls of a subscriber, applied first to last. -/
def run (t : TopicStatistics α) (calls : List Receipt) : TopicStatistics α :=
  calls.foldl (fun t c => t.update c.now c.sender c.meta) t

/-! ## What one update does to each member -/

section UpdateSpec

variable (t : TopicStatistics α) (now : UInt64) (sender : String) (meta : PublicationMetadata)

@[simp] theorem update_seq :
    (t.update now sender meta).seq = Function.update t.seq sender meta.seq := by
  unfold update; split <;> rfl

@[simp] theorem update_prevPublicationStamp :
    (t.update now sender meta).prevPublicationStamp = meta.stamp := by
  unfold update; split <;> rfl

@[simp] theorem update_prevReceiveStamp : (t.update now sender meta).prevReceiveStamp = now := by
  unfold update; split <;> rfl

theorem update_publication :
    (t.update now sender meta).publication =
      if t.prevPublicationStamp = 0 then t.publication
      else t.publication.update ((meta.stamp - t.prevPublicationStamp).toNat : α) := by
  unfold update; by_cases h : t.prevPublicationStamp = 0 <;> simp [h]

theorem update_receive :
    (t.update now sender meta).receive =
      if t.prevPublicationStamp = 0 then t.receive
      else t.receive.update ((now - t.prevReceiveStamp).toNat : α) := by
  unfold update; by_cases h : t.prevPublicationStamp = 0 <;> simp [h]

theorem update_droppedMsgCount :
    (t.update now sender meta).droppedMsgCount =
      if t.prevPublicationStamp ≠ 0 ∧ t.seq sender + 1 ≠ meta.seq then t.droppedMsgCount + 1
      else t.droppedMsgCount := by
  unfold update; by_cases h : t.prevPublicationStamp = 0 <;> simp [h]

end UpdateSpec

@[simp] theorem run_nil (t : TopicStatistics α) : t.run [] = t := rfl

@[simp] theorem run_cons (t : TopicStatistics α) (c : Receipt) (calls : List Receipt) :
    t.run (c :: calls) = (t.update c.now c.sender c.meta).run calls := rfl

@[simp] theorem run_append (t : TopicStatistics α) (calls calls' : List Receipt) :
    t.run (calls ++ calls') = (t.run calls).run calls' := List.foldl_append _ _ _ _

@[simp] theorem init_prevPublicationStamp : (init : TopicStatistics α).prevPublicationStamp = 0 :=
  rfl

@[simp] theorem init_seq (sender : String) : (init : TopicStatistics α).seq sender = 0 := rfl

@[simp] theorem init_droppedMsgCount : (init : TopicStatistics α).droppedMsgCount = 0 := rfl

@[simp] theorem init_publication : (init : TopicStatistics α).publication = .init := rfl

@[simp] theorem init_receive : (init : TopicStatistics α).receive = .init := rfl

/-! ## `YamlString` -/

/-- A value written after a key of `YamlString`: the dropped-message counter, a `double`, or
nothing, after the header of a block. -/
inductive YamlValue (α : Type) where
  | count (n : UInt64)
  | number (x : α)
  | block

/-- The `avg_hz` entry, `1.0 / (Avg() * 1e-3)`, with `1e-3` read as `1 / 1000`. -/
def avgHz (s : Statistics α) : α := 1 / (s.avg * (1 / 1000))

/-- The four lines `YamlString` writes for one `Statistics`. -/
def statisticsLines (sqrt : α → α) (s : Statistics α) : List (String × YamlValue α) :=
  [("  avg_hz", .number (avgHz s)), ("  std_deviation", .number (s.stdDev sqrt)),
    ("  min", .number s.min), ("  max", .number s.max)]

/-- `TopicStatistics::YamlString`, as its lines of key and value, with `std::sqrt` as `sqrt`. -/
def yamlString (sqrt : α → α) (t : TopicStatistics α) : List (String × YamlValue α) :=
  ("dropped_message_count", .count t.droppedMsgCount) ::
    ("publication_statistics", .block) :: statisticsLines sqrt t.publication ++
    ("receive_statistics", .block) :: statisticsLines sqrt t.receive

/-- The divisors of the two divisions `YamlString` performs for one `Statistics`: `Avg() * 1e-3`
in `avgHz`, and the converted `count` in `Statistics.stdDev`. -/
def statisticsDivisors (s : Statistics α) : List α := [s.avg * (1 / 1000), (s.count.toNat : α)]

/-- Every divisor of `YamlString`, publication first. -/
def yamlDivisors (t : TopicStatistics α) : List α :=
  statisticsDivisors t.publication ++ statisticsDivisors t.receive

end TopicStatistics

end IgnTransport
