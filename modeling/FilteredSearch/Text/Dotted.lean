/-!
# Dotted names

Names joined with points, and a dotted text taken apart at every point.  A text is the join of
its parts, and the parts of a join are the names joined, as long as there is a name and no name
contains a point.
-/

namespace FilteredSearch.Text

/-- The parts of a text between its points.  The empty text has one part, itself empty. -/
def splitDots (text : String) : List String :=
  (text.toList.splitOn '.').map String.ofList

/-- The names with a point between each and the next. -/
def joinDots (names : List String) : String := ".".intercalate names

/-- The text contains a point. -/
def hasDot (text : String) : Bool := text.toList.contains '.'

end FilteredSearch.Text
