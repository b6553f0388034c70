import FilteredSearch.Json.Basic

/-!
# Bounds of a range

A range of values has up to four bounds, each set by its last call.  Only the bounds that were
set appear in the document, whatever their values: null and false count as set.
-/

namespace FilteredSearch

/-- The ways in which a value bounds a range. -/
inductive Limit where
  | atMost
  | below
  | atLeast
  | above
deriving DecidableEq

namespace Limit

/-- The name of a limit in a document. -/
def key : Limit → String
  | .atMost => "lte"
  | .below => "lt"
  | .atLeast => "gte"
  | .above => "gt"

/-- All limits. -/
def all : List Limit := [.atMost, .below, .atLeast, .above]

theorem mem_all (limit : Limit) :
  limit ∈ all
  := by
  cases limit <;> decide

end Limit

/-- The values that bound a range. -/
structure Bounds where
  atMost : Option Json
  below : Option Json
  atLeast : Option Json
  above : Option Json

namespace Bounds

/-- The range without bounds. -/
def unbounded : Bounds := ⟨none, none, none, none⟩

/-- The value that bounds a range in a way, if there is one. -/
def value (bounds : Bounds) : Limit → Option Json
  | .atMost => bounds.atMost
  | .below => bounds.below
  | .atLeast => bounds.atLeast
  | .above => bounds.above

/-- Bounds a range by a value. -/
def set (limit : Limit) (value : Json) (bounds : Bounds) : Bounds :=
  match limit with
  | .atMost => { bounds with atMost := some value }
  | .below => { bounds with below := some value }
  | .atLeast => { bounds with atLeast := some value }
  | .above => { bounds with above := some value }

/-- The bounds that a row of calls sets. -/
def ofCalls (calls : List (Limit × Json)) : Bounds :=
  calls.foldl (fun bounds (limit, value) => bounds.set limit value) unbounded

/-- No bound is set. -/
def isUnbounded (bounds : Bounds) : Bool :=
  bounds.atMost.isNone && bounds.below.isNone && bounds.atLeast.isNone && bounds.above.isNone

/-- The document with the bounds that are set. -/
def toJson (bounds : Bounds) : Json :=
  let entries := [(Limit.atMost, bounds.atMost), (.below, bounds.below),
    (.atLeast, bounds.atLeast), (.above, bounds.above)]
  .ofMembers (entries.filterMap fun (limit, bound) => bound.map (limit.key, ·))

@[simp]
theorem value_unbounded (limit : Limit) :
  unbounded.value limit = none
  := by
  cases limit <;> rfl

@[simp]
theorem value_set_self (limit : Limit) (value : Json) (bounds : Bounds) :
  (bounds.set limit value).value limit = some value
  := by
  cases limit <;> rfl

theorem value_set_of_ne {limit other : Limit} (value : Json) (bounds : Bounds)
    (h : other ≠ limit) :
  (bounds.set limit value).value other = bounds.value other
  := by
  cases limit <;> cases other <;> first | rfl | contradiction

/-- The document lists the limits with their values. -/
theorem toJson_eq (bounds : Bounds) :
  bounds.toJson
    = .ofMembers (Limit.all.filterMap fun limit => (bounds.value limit).map (limit.key, ·))
  := rfl

end Bounds

end FilteredSearch
