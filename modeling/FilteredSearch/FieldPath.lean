import FilteredSearch.Text.Blank
import FilteredSearch.Text.Dotted

/-!
# Field paths

An accessor walks from a document to one of its fields by selecting members, one at a time or
several at once by a dotted text.  The selected names form a field path when there is one and
each of them names a member: it is not empty and contains neither a point nor a blank.  The
dotted form of a field path selects the same path again.
-/

namespace FilteredSearch

/-- A selection of a member of the current value, or of nested members by a dotted text. -/
inductive Selection where
  | member (name : String)
  | dotted (path : String)

/-- The selections that lead from a document to a field. -/
abbrev Accessor := List Selection

/-- The names that a selection selects. -/
def Selection.names : Selection → List String
  | .member name => [name]
  | .dotted path => Text.splitDots path

/-- The names that an accessor selects, outermost first. -/
def Accessor.names (accessor : Accessor) : List String := accessor.flatMap Selection.names

/-- What keeps the selected names from being a field path. -/
inductive PathFault where
  | nothingSelected
  | emptyName (position : Nat)
  | dotInName (name : String)
  | blankInName (name : String)
deriving DecidableEq

/-- The wording of a path fault. -/
def PathFault.message : PathFault → String
  | .nothingSelected => "accessor does not select any member"
  | .emptyName position => "empty member name at position " ++ toString position
  | .dotInName name => "member name '" ++ name ++ "' contains '.'"
  | .blankInName name => "member name '" ++ name ++ "' contains whitespace"

/-- The text contains a blank. -/
def Text.hasBlank (text : String) : Bool := text.toList.any isBlank

/-- The text names a member: it is not empty and has neither point nor blank. -/
def IsMemberName (name : String) : Prop :=
  name ≠ "" ∧ Text.hasDot name = false ∧ Text.hasBlank name = false

/-- What keeps the name at a position from naming a member. -/
def nameFault? (position : Nat) (name : String) : Option PathFault :=
  if name = "" then some (.emptyName position)
  else if Text.hasDot name then some (.dotInName name)
  else if Text.hasBlank name then some (.blankInName name)
  else none

/-- What is wrong with the first wrong one of the names from a position on. -/
def firstFault? : Nat → List String → Option PathFault
  | _, [] => none
  | position, name :: names =>
    match nameFault? position name with
    | some fault => some fault
    | none => firstFault? (position + 1) names

theorem nameFault?_eq_none_iff {position : Nat} {name : String} :
  nameFault? position name = none ↔ IsMemberName name
  := by
  rw [nameFault?, IsMemberName]
  by_cases h₁ : name = ""
  · simp [h₁]
  · cases h₂ : Text.hasDot name <;> cases h₃ : Text.hasBlank name <;> simp [h₁]

theorem firstFault?_eq_none_iff {position : Nat} {names : List String} :
  firstFault? position names = none ↔ ∀ name ∈ names, IsMemberName name
  := by
  induction names generalizing position with
  | nil => simp [firstFault?]
  | cons name names ih =>
    rw [firstFault?]
    cases h : nameFault? position name with
    | some fault =>
      have : ¬IsMemberName name := fun hname => by simp [nameFault?_eq_none_iff.2 hname] at h
      simp [this]
    | none => simp [ih, nameFault?_eq_none_iff.1 h]

/-- A path of member names, outermost first. -/
structure FieldPath where
  segments : List String
  ne_nil : segments ≠ []
  isMemberName : ∀ name ∈ segments, IsMemberName name

namespace FieldPath

@[ext]
theorem ext {p q : FieldPath} (h : p.segments = q.segments) :
  p = q
  := by
  cases p
  cases q
  simpa using h

/-- The path of the given names, or the first fault among them. -/
def ofNames (names : List String) : Except PathFault FieldPath :=
  if hne : names = [] then .error .nothingSelected
  else
    match hfault : firstFault? 0 names with
    | some fault => .error fault
    | none => .ok ⟨names, hne, firstFault?_eq_none_iff.1 hfault⟩

/-- The field that an accessor leads to. -/
def resolve (accessor : Accessor) : Except PathFault FieldPath := ofNames accessor.names

/-- The field that an accessor leads to from the field at a path. -/
def extend (path : FieldPath) (accessor : Accessor) : Except PathFault FieldPath :=
  ofNames (path.segments ++ accessor.names)

/-- The names of the path with points between them. -/
def dotted (path : FieldPath) : String := Text.joinDots path.segments

theorem ofNames_segments (path : FieldPath) :
  ofNames path.segments = .ok path
  := by
  rw [ofNames, dif_neg path.ne_nil]
  split
  · next fault h => simp [firstFault?_eq_none_iff.2 path.isMemberName] at h
  · rfl

theorem ofNames_eq_ok_iff {names : List String} {path : FieldPath} :
  ofNames names = .ok path ↔ path.segments = names
  := by
  constructor
  · intro h
    rw [ofNames] at h
    split at h
    · simp at h
    · split at h
      · simp at h
      · obtain rfl := Except.ok.inj h
        rfl
  · rintro rfl
    exact ofNames_segments path

end FieldPath

end FilteredSearch
