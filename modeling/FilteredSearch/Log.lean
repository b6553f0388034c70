import FilteredSearch.Json.Basic
import FilteredSearch.MetricKind
import FilteredSearch.SearchError

/-!
# The log

Building and composing write log entries.  `Logged α` is a value together with the entries
written while it was computed, in order, and `Composed α` is such a value or the search error
that ended the computation; the entries written before the error stay.
-/

namespace FilteredSearch

/-- How much an entry matters. -/
inductive LogLevel where
  | trace
  | debug
  | warn
deriving DecidableEq

/-- The name of a level. -/
def LogLevel.name : LogLevel → String
  | .trace => "TRACE"
  | .debug => "DEBUG"
  | .warn => "WARN"

/-- The levels in ascending order of weight. -/
def LogLevel.weight : LogLevel → Nat
  | .trace => 0
  | .debug => 1
  | .warn => 2

/-- An entry of the log. -/
inductive LogEntry where
  /-- The node was put below its parent. -/
  | attached (node parent : Nat)
  /-- A tree of so many nodes is about to be composed. -/
  | composingTree (nodes : Nat)
  /-- A request was composed. -/
  | composedRequest (hasFilter hasQuery : Bool) (aggregations sort : Nat)
  /-- A composed request is about to be handed over. -/
  | executing
  /-- A metric takes the place of the bucket of an aggregation. -/
  | replacedBucket (path : List String) (metric : MetricKind)
  /-- A bucket takes the place of the metric of an aggregation. -/
  | replacedMetric (path : List String) (metric : MetricKind)
deriving DecidableEq

namespace LogEntry

/-- The level of an entry. -/
def level : LogEntry → LogLevel
  | .attached _ _ => .trace
  | .composingTree _ | .composedRequest _ _ _ _ | .executing => .debug
  | .replacedBucket _ _ | .replacedMetric _ _ => .warn

/-- The wording of an entry. -/
def message : LogEntry → String
  | .attached _ _ => "Attached filter node"
  | .composingTree _ => "Composing filter tree"
  | .composedRequest _ _ _ _ => "Composed search request"
  | .executing => "Executing search request"
  | .replacedBucket _ _ => "Replacing bucket definition with metric"
  | .replacedMetric _ _ => "Replacing metric with bucket definition"

/-- A natural number as a field of an entry. -/
def count (n : Nat) : Json := .ofUInt64 (UInt64.ofNat n)

/-- The fields of an entry. -/
def fields : LogEntry → List (String × Json)
  | .attached node parent => [("node", count node), ("parent", count parent)]
  | .composingTree nodes => [("nodes", count nodes)]
  | .composedRequest hasFilter hasQuery aggregations sort =>
    [("has_filter", .bool hasFilter), ("has_query", .bool hasQuery),
      ("aggregations", count aggregations), ("sort", count sort)]
  | .executing => []
  | .replacedBucket path metric | .replacedMetric path metric =>
    [("aggregation", .string (Text.joinDots path)), ("metric", .string metric.key)]

/-- The entry matters at least as much as a level asks for. -/
def reaches (entry : LogEntry) (level : LogLevel) : Bool := level.weight ≤ entry.level.weight

/-- The entry as a document: its fields, its level and its wording. -/
def toJson (entry : LogEntry) : Json :=
  .ofMembers (entry.fields
    ++ [("level", .string entry.level.name), ("message", .string entry.message)])

end LogEntry

/-- A value with the entries written while it was computed. -/
structure Logged (α : Type) where
  value : α
  entries : List LogEntry

namespace Logged

variable {α β : Type}

instance : Monad Logged where
  pure value := ⟨value, []⟩
  bind x f := ⟨(f x.value).value, x.entries ++ (f x.value).entries⟩

/-- Writes an entry. -/
def write (entry : LogEntry) : Logged Unit := ⟨(), [entry]⟩

@[simp]
theorem value_pure (value : α) :
  (pure value : Logged α).value = value
  := rfl

@[simp]
theorem value_bind (x : Logged α) (f : α → Logged β) :
  (x >>= f).value = (f x.value).value
  := rfl

@[simp]
theorem entries_pure (value : α) :
  (pure value : Logged α).entries = []
  := rfl

@[simp]
theorem entries_bind (x : Logged α) (f : α → Logged β) :
  (x >>= f).entries = x.entries ++ (f x.value).entries
  := rfl

end Logged

/-- A value or the error that ended its computation, with the entries written. -/
abbrev Composed := ExceptT SearchError Logged

namespace Composed

variable {α β : Type}

/-- What a computation came to. -/
def result (x : Composed α) : Except SearchError α := (ExceptT.run x).value

/-- What a computation wrote. -/
def entries (x : Composed α) : List LogEntry := (ExceptT.run x).entries

/-- A computation that writes nothing. -/
def ofExcept (x : Except SearchError α) : Composed α := ExceptT.mk (pure x)

/-- Writes an entry. -/
def write (entry : LogEntry) : Composed Unit := ExceptT.lift (Logged.write entry)

@[simp]
theorem result_pure (value : α) :
  result (pure value) = .ok value
  := rfl

@[simp]
theorem result_ofExcept (x : Except SearchError α) :
  result (ofExcept x) = x
  := rfl

@[simp]
theorem result_write (entry : LogEntry) :
  result (write entry) = .ok ()
  := rfl

/-- A computation that goes on from another comes to what the second comes to, unless the first
came to an error. -/
@[simp]
theorem result_bind (x : Composed α) (f : α → Composed β) :
  result (x >>= f) = result x >>= fun value => result (f value)
  := by
  show (ExceptT.bindCont _ (ExceptT.run x).value : Logged _).value = _
  unfold result
  cases (ExceptT.run x).value <;> rfl

end Composed

end FilteredSearch
