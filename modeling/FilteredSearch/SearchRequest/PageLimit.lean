import FilteredSearch.SearchError

/-!
# The page limit

A request may ask for a page of documents up to a longest one, unless pages are unlimited.
-/

namespace FilteredSearch

/-- The longest page that may be asked for; none when pages are unlimited. -/
structure PageLimit where
  max : Option Int64
deriving DecidableEq

namespace PageLimit

/-- The length of the longest page unless another is given. -/
def standardMax : Int64 := 10000

/-- The limit unless another is given. -/
def standard : PageLimit := ⟨some standardMax⟩

/-- Pages of any length. -/
def unlimited : PageLimit := ⟨none⟩

/-- Pages up to a length. -/
def upTo (max : Int64) : PageLimit := ⟨some max⟩

/-- Refuses a page that is too long. -/
def check (limit : PageLimit) (size : Int64) : Except SearchError Unit :=
  match limit.max with
  | some max => if max < size then .error (.pageTooLong size max) else .ok ()
  | none => .ok ()

theorem check_eq_ok_iff {limit : PageLimit} {size : Int64} :
  limit.check size = .ok () ↔ ∀ max, limit.max = some max → size ≤ max
  := by
  unfold check
  cases limit.max with
  | none => simp
  | some max => by_cases h : max < size <;> simp_all [Int64.not_lt, Int64.not_le]

end PageLimit

end FilteredSearch
