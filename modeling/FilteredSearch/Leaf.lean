import FilteredSearch.Bounds
import FilteredSearch.FieldPath

/-!
# Leaf filters

A leaf filter tests a field, or the document as a whole, against given values.  Its fragment is
the filter document it composes to; a leaf on a field has one only if its accessor leads to a
field.
-/

namespace FilteredSearch

/-- A filter without filters below it. -/
inductive Leaf where
  /-- The field has the value. -/
  | term (field : Accessor) (value : Json)
  /-- The field equals the value; another name for `term`. -/
  | equals (field : Accessor) (value : Json)
  /-- The field has one of the values. -/
  | terms (field : Accessor) (values : List Json)
  /-- The field lies within the bounds. -/
  | range (field : Accessor) (bounds : Bounds)
  /-- The field lies within one bound. -/
  | bound (limit : Limit) (field : Accessor) (value : Json)
  /-- The field matches the regular expression. -/
  | regExp (field : Accessor) (pattern : String)
  /-- The field starts with the text. -/
  | startsWith (field : Accessor) (text : String)
  /-- The field is there. -/
  | fieldExists (field : Accessor)
  /-- The field is not there. -/
  | fieldMissing (field : Accessor)
  /-- The document has one of the ids. -/
  | ids (values : List Json)
  /-- Every document passes. -/
  | matchAll
  /-- At most so many documents pass. -/
  | first (amount : UInt64)
  /-- A filter given as a document. -/
  | raw (document : Json)

namespace Leaf

/-- The name by which scripts call the leaf. -/
def name : Leaf → String
  | .term _ _ => "term"
  | .equals _ _ => "eq"
  | .terms _ _ => "terms"
  | .range _ _ => "range"
  | .bound limit _ _ => limit.key
  | .regExp _ _ => "reg_exp"
  | .startsWith _ _ => "prefix"
  | .fieldExists _ => "exists"
  | .fieldMissing _ => "missing"
  | .ids _ => "ids"
  | .matchAll => "match_all"
  | .first _ => "limit"
  | .raw _ => "raw"

/-- A test of a field: the test is named outside, the field inside. -/
def onField (test : String) (field : Accessor) (value : Json) : Except PathFault Json := do
  let path ← FieldPath.resolve field
  return .singleton test (.singleton path.dotted value)

/-- A test that names the field it looks for. -/
def ofField (test : String) (field : Accessor) : Except PathFault Json := do
  let path ← FieldPath.resolve field
  return .singleton test (.singleton "field" (.string path.dotted))

/-- The document a leaf composes to. -/
def fragment : Leaf → Except PathFault Json
  | .term field value | .equals field value => onField "term" field value
  | .terms field values => onField "terms" field (.array values)
  | .range field bounds => onField "range" field bounds.toJson
  | .bound limit field value => onField "range" field (Bounds.unbounded.set limit value).toJson
  | .regExp field pattern => onField "regexp" field (.string pattern)
  | .startsWith field text => onField "prefix" field (.string text)
  | .fieldExists field => ofField "exists" field
  | .fieldMissing field => ofField "missing" field
  | .ids values => .ok (.singleton "values" (.array values))
  | .matchAll => .ok (.singleton "match_all" (.string ""))
  | .first amount => .ok (.singleton "value" (.ofUInt64 amount))
  | .raw document => .ok document

end Leaf

end FilteredSearch
