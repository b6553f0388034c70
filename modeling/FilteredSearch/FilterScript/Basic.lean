import FilteredSearch.FilterTree.Basic

/-!
# Filter scripts

A handle is a way to one node of a filter tree, and a filter script is the row of calls made on
a handle.  Most calls give a further handle, on which the calls `next` are made; a call that
configures a new scope makes the calls `body` on the new scope first; and after both, the calls
`rest` are made on the handle that the script was begun with.
-/

namespace FilteredSearch

/-- A way to a node of a filter tree. -/
inductive Handle where
  /-- A handle on a leaf. -/
  | leaf (id : Nat)
  /-- A handle on a node that takes filters. -/
  | scope (id : Nat)
  /-- A handle on a bool filter, or on one of its clauses, that knows all three of them. -/
  | bool (id : Nat) (clauses : Clauses)

namespace Handle

/-- The node of a handle. -/
def id : Handle → Nat
  | .leaf id | .scope id | .bool id _ => id

/-- The node of a handle on which filters can be put. -/
def scope? : Handle → Option Nat
  | .leaf _ => none
  | .scope id | .bool id _ => some id

end Handle

/-- The scopes that are given filters only through the handle on them. -/
inductive Scope where
  | wrap
  | negation
  | custom (composer : Composer)

namespace Scope

/-- The name by which scripts call the scope. -/
def name : Scope → String
  | .wrap => "wrap"
  | .negation => "not"
  | .custom _ => "composited"

/-- The kind of the node of a scope. -/
def kind : Scope → NodeKind
  | .wrap => .scope
  | .negation => .negation
  | .custom composer => .custom composer

end Scope

/-- A row of calls on a handle. -/
inductive FilterScript where
  | done
  /-- Puts a leaf below the node. -/
  | leaf (leaf : Leaf) (next rest : FilterScript)
  /-- Puts a scope below the node. -/
  | scope (scope : Scope) (next rest : FilterScript)
  /-- Puts a scope for nested documents below the node, and goes on with the same node. -/
  | nested (field : Accessor) (body next rest : FilterScript)
  /-- Puts an and-filter or or-filter below the node. -/
  | chain (connective : Connective) (body next rest : FilterScript)
  /-- Puts a bool filter below the node. -/
  | bool (next rest : FilterScript)
  /-- Configures a clause of the bool filter. -/
  | clause (clause : Clause) (body next rest : FilterScript)
  /-- Goes back to the root of the nearest family around the node. -/
  | back (next rest : FilterScript)
  /-- Takes the node for a part of a bool filter. -/
  | asBool (next rest : FilterScript)
  /-- Asks for the number of the node. -/
  | number (rest : FilterScript)
  /-- Composes the node. -/
  | compose (rest : FilterScript)
  /-- Composes the node and writes the text. -/
  | toText (rest : FilterScript)
  /-- Makes a call that no handle has. -/
  | unknown (name : String) (rest : FilterScript)
deriving Inhabited

end FilteredSearch
