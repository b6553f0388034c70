import FilteredSearch.Aggregation.Basic
import Mathlib.Data.List.Induction
import Mathlib.Tactic.Common

/-!
# Aggregations below aggregations

An aggregation with the further aggregations below it is a tree in which names lead from the top
to every node.  In a well-formed tree every node is a metric or a bucket but not both, lists its
further aggregations with ascending names, and has as its path the path of the top followed by
the names that lead to it.  A tree stays well formed when another node is put in the place of a
node with the same path.
-/

namespace FilteredSearch

namespace Aggregation

/-- The names lead from the top to the node. -/
inductive NodeAt (top : Aggregation) : List String → Aggregation → Prop
  | top : NodeAt top [] top
  | child {names : List String} {name : String} {node child : Aggregation}
    (hnode : NodeAt top names node) (hchild : (name, child) ∈ node.children) :
    NodeAt top (names ++ [name]) child

/-- The node to which names lead. -/
def at? (top : Aggregation) : List String → Option Aggregation
  | [] => some top
  | name :: names => (Keyed.find? name top.children).bind fun child => child.at? names

/-- The tree with a node in the place to which names lead. -/
def putAt (top : Aggregation) : List String → Aggregation → Aggregation
  | [], node => node
  | name :: names, node => top.putChild name ((top.child name).putAt names node)

/-- The aggregation is not a metric and a bucket at once. -/
def HasOneMode (node : Aggregation) : Prop :=
  node.metric = none ∨ node.filter = none ∧ node.children = []

/-- The tree is as configuring it from nothing leaves it. -/
inductive WellFormed : Aggregation → Prop
  | node {top : Aggregation} (mode : top.HasOneMode) (ascending : Keyed.Ascending top.children)
    (path : ∀ name child, (name, child) ∈ top.children → child.path = top.path ++ [name])
    (children : ∀ name child, (name, child) ∈ top.children → WellFormed child) :
    WellFormed top

variable {top node child : Aggregation} {name other : String} {names others : List String}

/-! ### Modes -/

theorem isBucket_eq_false_iff :
  node.isBucket = false ↔ node.filter = none ∧ node.children = []
  := by
  simp [isBucket]

/-- An aggregation with further ones has no metric. -/
theorem HasOneMode.metric_eq_none (h : node.HasOneMode)
    (hchild : Keyed.find? name node.children = some child) :
  node.metric = none
  := by
  rcases h with hmetric | ⟨-, hchildren⟩
  · apply hmetric
  · simp [hchildren, Keyed.find?] at hchild

theorem isBucket_of_find? (hchild : Keyed.find? name node.children = some child) :
  node.isBucket = true
  := by
  cases hchildren : node.children with
  | nil => simp [hchildren, Keyed.find?] at hchild
  | cons entry rest => simp [isBucket, hchildren]

/-! ### Children -/

theorem child_of_find? (h : Keyed.find? name top.children = some child) :
  top.child name = child
  := by
  rw [Aggregation.child, h, Option.getD_some]

@[simp]
theorem child_putChild :
  (top.putChild name child).child name = child
  := child_of_find? (Keyed.find?_insert_self _ _ _)

@[simp]
theorem putChild_putChild :
  (top.putChild name node).putChild name child = top.putChild name child
  := by
  simp only [putChild, Keyed.insert_insert]

theorem find?_putChild_self :
  Keyed.find? name (top.putChild name child).children = some child
  := Keyed.find?_insert_self _ _ _

theorem find?_putChild_of_ne (h : other ≠ name) :
  Keyed.find? other (top.putChild name child).children = Keyed.find? other top.children
  := Keyed.find?_insert_of_ne _ _ h

/-- A further aggregation that is kept already is kept when it is put under its name again. -/
theorem find?_putChild_child (h : Keyed.find? other top.children = some child) :
  Keyed.find? other (top.putChild name (top.child name)).children = some child
  := by
  by_cases heq : other = name
  · subst heq
    rw [find?_putChild_self, child_of_find? h]
  · rw [find?_putChild_of_ne heq, h]

/-! ### Following names -/

@[simp]
theorem at?_nil :
  top.at? [] = some top
  := by
  rw [at?]

theorem at?_cons :
  top.at? (name :: names) = (Keyed.find? name top.children).bind fun child => child.at? names
  := by
  rw [at?]

theorem at?_append :
  top.at? (names ++ others) = (top.at? names).bind fun node => node.at? others
  := by
  induction names generalizing top with
  | nil => simp
  | cons name names ih =>
    rw [List.cons_append, at?_cons, at?_cons, Option.bind_assoc]
    simp only [ih]

@[simp]
theorem putAt_nil :
  top.putAt [] node = node
  := by
  rw [putAt]

theorem putAt_cons :
  top.putAt (name :: names) node = top.putChild name ((top.child name).putAt names node)
  := by
  rw [putAt]

/-- A node put somewhere is found there. -/
@[simp]
theorem at?_putAt :
  (top.putAt names node).at? names = some node
  := by
  induction names generalizing top with
  | nil => simp
  | cons name names ih =>
    rw [putAt_cons, at?_cons, find?_putChild_self, Option.bind_some, ih]

/-- Of two nodes put in one place, one after the other, the last stays. -/
@[simp]
theorem putAt_putAt :
  (top.putAt names child).putAt names node = top.putAt names node
  := by
  induction names generalizing top with
  | nil => simp
  | cons name names ih => simp only [putAt_cons, child_putChild, putChild_putChild, ih]

/-- What is put below a node is put into the node. -/
theorem putAt_append :
  (top.putAt names node).putAt (names ++ others) child
    = top.putAt names (node.putAt others child)
  := by
  induction names generalizing top with
  | nil => simp
  | cons name names ih =>
    simp only [List.cons_append, putAt_cons, child_putChild, putChild_putChild, ih]

theorem putAt_append_singleton :
  (top.putAt names node).putAt (names ++ [name]) child = top.putAt names (node.putChild name child)
  := by
  rw [putAt_append, putAt_cons, putAt_nil]

/-- Names that lead neither to a node nor above it nor below it lead to the same node as before
when another one is put in its place. -/
theorem at?_putAt_of_apart (habove : ¬names <+: others) (hbelow : ¬others <+: names) :
  (top.putAt names node).at? others = top.at? others
  := by
  induction names generalizing top others with
  | nil => exact absurd List.nil_prefix habove
  | cons name names ih =>
    cases others with
    | nil => exact absurd List.nil_prefix hbelow
    | cons other others =>
      rw [putAt_cons, at?_cons, at?_cons]
      by_cases heq : other = name
      · subst heq
        rw [List.cons_prefix_cons] at habove hbelow
        have hrest : ((top.child other).putAt names node).at? others
            = (top.child other).at? others :=
          ih (fun h => habove ⟨rfl, h⟩) (fun h => hbelow ⟨rfl, h⟩)
        rw [find?_putChild_self, Option.bind_some, hrest, Aggregation.child]
        cases hfind : Keyed.find? other top.children with
        | some child => rfl
        | none =>
          -- Nothing stands below an aggregation that is not there.
          cases others with
          | nil => exact absurd ⟨rfl, List.nil_prefix⟩ hbelow
          | cons _ _ => simp [unconfigured, at?_cons, Keyed.find?]
      · rw [find?_putChild_of_ne heq]

/-! ### Well-formed trees -/

namespace WellFormed

theorem hasOneMode (h : top.WellFormed) :
  top.HasOneMode
  := by
  cases h with
  | node mode => apply mode

theorem ascending (h : top.WellFormed) :
  Keyed.Ascending top.children
  := by
  cases h with
  | node _ ascending => apply ascending

theorem of_mem (h : top.WellFormed) (hchild : (name, child) ∈ top.children) :
  child.WellFormed ∧ child.path = top.path ++ [name]
  := by
  cases h with
  | node _ _ path children => exact ⟨children _ _ hchild, path _ _ hchild⟩

theorem unconfigured (path : List String) :
  (unconfigured path).WellFormed
  := .node (Or.inl rfl) List.Pairwise.nil (by simp [Aggregation.unconfigured])
    (by simp [Aggregation.unconfigured])

theorem of_child (h : top.WellFormed) (name : String) :
  (top.child name).WellFormed ∧ (top.child name).path = top.path ++ [name]
  := by
  cases hfind : Keyed.find? name top.children with
  | some child =>
    rw [child_of_find? hfind]
    apply h.of_mem (Keyed.mem_of_find?_eq_some hfind)
  | none =>
    rw [Aggregation.child, hfind, Option.getD_none]
    exact ⟨unconfigured _, rfl⟩

/-- An aggregation without a metric takes further ones. -/
theorem putChild (h : top.WellFormed) (hmetric : top.metric = none) {child : Aggregation}
    (hchild : child.WellFormed) (hpath : child.path = top.path ++ [name]) :
  (top.putChild name child).WellFormed
  := by
  have hentry : ∀ other node, (other, node) ∈ (top.putChild name child).children →
      node.WellFormed ∧ node.path = top.path ++ [other] := by
    intro other node hmem
    rcases Keyed.mem_names_insert hmem with heq | hmem
    · obtain ⟨rfl, rfl⟩ := Prod.mk.inj heq
      exact ⟨hchild, hpath⟩
    · apply h.of_mem hmem
  constructor
  case mode => apply Or.inl hmetric
  case ascending => apply Keyed.ascending_insert _ _ h.ascending
  case path => exact fun other node hmem => (hentry other node hmem).2
  case children => exact fun other node hmem => (hentry other node hmem).1

theorem withFilter (h : top.WellFormed) (hmetric : top.metric = none)
    (filter : Option FilterTree) :
  { top with filter }.WellFormed
  := .node (Or.inl hmetric) h.ascending (fun _ _ hmem => (h.of_mem hmem).2)
    (fun _ _ hmem => (h.of_mem hmem).1)

/-- What stands below a well-formed tree is well formed and knows its path. -/
theorem of_at? (h : top.WellFormed) (hnode : top.at? names = some node) :
  node.WellFormed ∧ node.path = top.path ++ names
  := by
  induction names generalizing top with
  | nil =>
    obtain rfl : top = node := by simpa using hnode
    simpa using h
  | cons name names ih =>
    rw [at?_cons, Option.bind_eq_some_iff] at hnode
    obtain ⟨child, hfind, hnode⟩ := hnode
    obtain ⟨hchild, hpath⟩ := h.of_mem (Keyed.mem_of_find?_eq_some hfind)
    have hwf := ih hchild hnode
    rw [hpath, List.append_assoc, List.singleton_append] at hwf
    apply hwf

/-- Nothing stands below a metric. -/
theorem eq_nil_of_metric (h : top.WellFormed) {setting : MetricSetting}
    (hmetric : top.metric = some setting) (hnode : top.at? names = some node) :
  names = []
  := by
  cases names with
  | nil => rfl
  | cons name names =>
    rw [at?_cons, Option.bind_eq_some_iff] at hnode
    obtain ⟨child, hchild, -⟩ := hnode
    simp [h.hasOneMode.metric_eq_none hchild] at hmetric

/-- A tree stays well formed, and keeps its path, when a node gives way to another one with its
path. -/
theorem putAt (h : top.WellFormed) (hnode : top.at? names = some node) {new : Aggregation}
    (hnew : new.WellFormed) (hpath : new.path = node.path) :
  (top.putAt names new).WellFormed ∧ (top.putAt names new).path = top.path
  := by
  induction names generalizing top with
  | nil =>
    obtain rfl : top = node := by simpa using hnode
    simpa using ⟨hnew, hpath⟩
  | cons name names ih =>
    rw [at?_cons, Option.bind_eq_some_iff] at hnode
    obtain ⟨child, hfind, hnode⟩ := hnode
    obtain ⟨hchild, hchildpath⟩ := h.of_mem (Keyed.mem_of_find?_eq_some hfind)
    obtain ⟨hput, hputpath⟩ := ih hchild hnode
    rw [putAt_cons, child_of_find? hfind]
    exact ⟨h.putChild (h.hasOneMode.metric_eq_none hfind) hput (hputpath.trans hchildpath), rfl⟩

end WellFormed

/-- In a well-formed tree the nodes are those that are found by following names. -/
theorem nodeAt_iff (h : top.WellFormed) :
  top.NodeAt names node ↔ top.at? names = some node
  := by
  constructor
  · intro hnode
    induction hnode with
    | top => apply at?_nil
    | child _ hchild ih =>
      have hfind := Keyed.find?_eq_some_of_mem (h.of_at? ih).1.ascending hchild
      rw [at?_append, ih, Option.bind_some, at?_cons, hfind, Option.bind_some, at?_nil]
  · induction names using List.reverseRecOn generalizing node with
    | nil =>
      intro hnode
      obtain rfl : top = node := by simpa using hnode
      apply NodeAt.top
    | append_singleton names name ih =>
      intro hnode
      rw [at?_append, Option.bind_eq_some_iff] at hnode
      obtain ⟨above, habove, hnode⟩ := hnode
      rw [at?_cons, Option.bind_eq_some_iff] at hnode
      obtain ⟨child, hfind, hnode⟩ := hnode
      obtain rfl : child = node := by simpa using hnode
      apply NodeAt.child (ih habove) (Keyed.mem_of_find?_eq_some hfind)

end Aggregation

end FilteredSearch
