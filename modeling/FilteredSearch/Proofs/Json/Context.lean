import FilteredSearch.Json.Basic

/-!
# Documents with a hole

A context is a document with one hole.  Filling the hole with a document gives a document, in
which the filling stands in that one place.
-/

namespace FilteredSearch.Json

/-- A document with a hole. -/
inductive Context where
  | hole
  /-- The hole is in an item of an array. -/
  | item (before : List Json) (inner : Context) (after : List Json)
  /-- The hole is in the value of a member of an object. -/
  | member (before : List (String × Json)) (name : String) (inner : Context)
    (after : List (String × Json))

namespace Context

/-- The document with another one in the place of the hole. -/
def fill : Context → Json → Json
  | .hole, document => document
  | .item before inner after, document => .array (before ++ inner.fill document :: after)
  | .member before name inner after, document =>
    .object (before ++ (name, inner.fill document) :: after)

/-- The first context with the second one in the place of its hole. -/
def comp : Context → Context → Context
  | .hole, other => other
  | .item before inner after, other => .item before (inner.comp other) after
  | .member before name inner after, other => .member before name (inner.comp other) after

@[simp]
theorem fill_comp (outer inner : Context) (document : Json) :
  (outer.comp inner).fill document = outer.fill (inner.fill document)
  := by
  induction outer with
  | hole => rfl
  | item before within after ih | member before name within after ih => simp [comp, fill, ih]

end Context

end FilteredSearch.Json
