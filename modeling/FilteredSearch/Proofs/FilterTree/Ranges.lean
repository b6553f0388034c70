import FilteredSearch.Proofs.FilterTerm.Evaluated
import FilteredSearch.Proofs.FilterTree.Reachable
import FilteredSearch.Proofs.Json.Record
import Mathlib.Data.List.Induction

/-!
# Ranges keep the bounds that were set

A row of calls leaves each bound as the last call for it set it, whatever calls for other bounds
stand in between and whatever the value is, and leaves the bounds unset for which there was no call.
The document of a range has one member for each bound that is set.
-/

namespace FilteredSearch

theorem Limit.key_injective :
  Function.Injective Limit.key
  := by
  intro limit other h
  cases limit <;> cases other <;> simp [Limit.key] at h ⊢

namespace Bounds

variable {bounds other : Bounds} {calls others : List (Limit × Json)} {limit : Limit} {value : Json}
  {name : String}

/-! ### The last call for a bound -/

/-- The last of the calls for the limit sets it to the value. -/
def SetsLast (calls : List (Limit × Json)) (limit : Limit) (value : Json) : Prop :=
  ∃ before after, calls = before ++ (limit, value) :: after ∧ ∀ call ∈ after, call.1 ≠ limit

/-- Bounds are known by their values. -/
theorem eq_of_value_eq (h : ∀ limit, bounds.value limit = other.value limit) :
  bounds = other
  := by
  cases bounds
  cases other
  rw [Bounds.mk.injEq]
  exact ⟨h .atMost, h .below, h .atLeast, h .above⟩

theorem ofCalls_concat (calls : List (Limit × Json)) (limit : Limit) (value : Json) :
  ofCalls (calls ++ [(limit, value)]) = (ofCalls calls).set limit value
  := List.foldl_concat ..

theorem value_ofCalls (calls : List (Limit × Json)) (limit : Limit) :
  (ofCalls calls).value limit
    = ((calls.filter fun call => call.1 = limit).getLast?).map Prod.snd
  := by
  -- Bounds are set by one call after the other, so the induction takes off the last one.
  induction calls using List.reverseRecOn with
  | nil => exact value_unbounded limit
  | append_singleton calls call ih =>
    obtain ⟨called, value⟩ := call
    rw [ofCalls_concat, List.filter_append, List.getLast?_append]
    by_cases h : limit = called
    · simp [h]
    · rw [value_set_of_ne value _ h, ih]
      simp [Ne.symm h]

theorem value_ofCalls_eq_some_iff :
  (ofCalls calls).value limit = some value ↔ SetsLast calls limit value
  := by
  rw [value_ofCalls, List.getLast?_filter, Option.map_eq_some_iff]
  constructor
  · rintro ⟨⟨called, _⟩, hfind, rfl⟩
    obtain ⟨hcalled, after, before, hcalls, hafter⟩ := List.find?_eq_some_iff_append.mp hfind
    obtain rfl := of_decide_eq_true hcalled
    use before.reverse, after.reverse
    rw [← calls.reverse_reverse, hcalls]
    simpa using hafter
  · rintro ⟨before, after, rfl, hafter⟩
    use (limit, value)
    refine ⟨List.find?_eq_some_iff_append.mpr ⟨by simp, after.reverse, before.reverse, ?_⟩, rfl⟩
    simpa using hafter

theorem value_ofCalls_eq_none_iff :
  (ofCalls calls).value limit = none ↔ limit ∉ calls.map Prod.fst
  := by
  rw [value_ofCalls, Option.map_eq_none_iff, List.getLast?_eq_none_iff, List.filter_eq_nil_iff]
  simp only [List.mem_map, decide_eq_true_eq, not_exists, not_and]

/-- Only the order of the calls for the same limit counts. -/
theorem ofCalls_eq_of_filter_eq
    (h : ∀ limit, others.filter (fun call => call.1 = limit)
      = calls.filter fun call => call.1 = limit) :
  ofCalls others = ofCalls calls
  := by
  apply eq_of_value_eq
  intro limit
  rw [value_ofCalls, value_ofCalls, h]

/-! ### Range without bounds -/

theorem isUnbounded_iff :
  bounds.isUnbounded = true ↔ ∀ limit, bounds.value limit = none
  := by
  simp only [isUnbounded, Bool.and_eq_true, Option.isNone_iff_eq_none]
  constructor
  · rintro ⟨⟨⟨hatMost, hbelow⟩, hatLeast⟩, habove⟩ limit
    cases limit
    · exact hatMost
    · exact hbelow
    · exact hatLeast
    · exact habove
  · intro h
    exact ⟨⟨⟨h .atMost, h .below⟩, h .atLeast⟩, h .above⟩

theorem isUnbounded_ofCalls_iff :
  (ofCalls calls).isUnbounded = true ↔ calls = []
  := by
  rw [isUnbounded_iff]
  simp only [value_ofCalls_eq_none_iff, ← List.map_eq_nil_iff (f := Prod.fst),
    List.eq_nil_iff_forall_not_mem]

/-! ### The document of a range -/

/-- The members of the document of a range. -/
def members (bounds : Bounds) : List (String × Json) :=
  (Limit.all.reverse.map fun limit => (limit.key, bounds.value limit)).filterMap Json.presentMember

theorem pairwise_keys :
  ((Limit.all.reverse.map fun limit => (limit.key, bounds.value limit)).map Prod.fst).Pairwise
    (· < ·)
  := by
  simp only [List.map_map, Function.comp_def]
  decide

theorem ascending_members (bounds : Bounds) :
  Keyed.Ascending bounds.members
  := Json.ascending_presentMembers pairwise_keys

theorem toJson_eq_object (bounds : Bounds) :
  bounds.toJson = .object bounds.members
  := by
  have hperm := (List.reverse_perm Limit.all).symm.map fun limit => (limit.key, bounds.value limit)
  rw [toJson_eq, members, ← Json.record, ← Json.ofMembers_eq_record hperm pairwise_keys,
    List.filterMap_map]
  rfl

theorem mem_members_iff :
  (name, value) ∈ bounds.members
    ↔ ∃ limit : Limit, limit.key = name ∧ bounds.value limit = some value
  := by
  rw [members, Json.mem_presentMembers, List.mem_map]
  simp [Limit.mem_all]

theorem mem_members_ofCalls_iff :
  (limit.key, value) ∈ (ofCalls calls).members ↔ SetsLast calls limit value
  := by
  rw [mem_members_iff, ← value_ofCalls_eq_some_iff]
  constructor
  · rintro ⟨other, hkey, hvalue⟩
    rwa [Limit.key_injective hkey] at hvalue
  · intro hvalue
    use limit

theorem mem_names_ofCalls_iff :
  name ∈ (ofCalls calls).members.map Prod.fst
    ↔ ∃ limit : Limit, limit.key = name ∧ limit ∈ calls.map Prod.fst
  := by
  rw [List.mem_map, Prod.exists]
  simp only [exists_and_right, exists_eq_right, mem_members_iff]
  rw [exists_comm]
  apply exists_congr
  intro limit
  rw [exists_and_left, ← Option.ne_none_iff_exists', Ne, value_ofCalls_eq_none_iff, not_not]

theorem members_eq_nil_iff :
  bounds.members = [] ↔ bounds.isUnbounded = true
  := by
  simp only [isUnbounded_iff, List.eq_nil_iff_forall_not_mem, Prod.forall, mem_members_iff,
    Option.eq_none_iff_forall_ne_some]
  constructor
  · intro h limit value hvalue
    exact h limit.key value ⟨limit, rfl, hvalue⟩
  · rintro h _ value ⟨limit, rfl, hvalue⟩
    exact h limit value hvalue

end Bounds

/-! ### Leaves in trees -/

namespace Leaf

/-- Wherever the leaf is put into a tree, its node composes to the result, then and after anything
else is put into the tree. -/
def ComposesTo (test : Leaf) (result : Except SearchError Json) : Prop :=
  ∀ (tree later : FilterTree) (parent : Nat), tree.WellFormed → tree.Takes parent →
    FilterTree.Grows (tree.addNode parent test.kind).value later →
      later.composeAt tree.size = result

theorem composesTo_fragment (test : Leaf) :
  test.ComposesTo (test.fragment.mapError .ofPathFault)
  := by
  intro tree later parent hwf hparent hgrows
  have hwf' := hwf.addNode hparent test.isLoose_kind
  have hk : (tree.addNode parent test.kind).value.kind? tree.size = some test.kind :=
    FilterTree.kind?_append.trans (if_pos rfl)
  apply FilterTree.composeAt_leaf (hgrows.wellFormed hwf')
  apply hgrows.kind?_of_ne_chain hwf' hk test.isLoose_kind.ne_chain

theorem composesTo_range_of_ok {field : Accessor} {path : FieldPath}
    (h : FieldPath.resolve field = .ok path) (bounds : Bounds) :
  (range field bounds).ComposesTo
    (.ok (.singleton "range" (.singleton path.dotted (.object bounds.members))))
  := by
  have hfragment := composesTo_fragment (range field bounds)
  rw [fragment, onField, h, bounds.toJson_eq_object] at hfragment
  exact hfragment

theorem composesTo_range_of_error {field : Accessor} {fault : PathFault}
    (h : FieldPath.resolve field = .error fault) (bounds : Bounds) :
  (range field bounds).ComposesTo (.error (.ofPathFault fault))
  := by
  have hfragment := composesTo_fragment (range field bounds)
  rw [fragment, onField, h] at hfragment
  exact hfragment

/-- A range with the bounds that a row of calls sets composes, when its accessor leads to a field, to
an object of that field whose members are the bounds for which there was a call, each with the value
of its last call, however the calls for different bounds were mixed.  The object has no members
exactly when the range is unbounded, and that is so exactly when there was no call.  A range whose
accessor leads to no field fails with the fault of the accessor, whatever its bounds.  A leaf for one
bound composes as the range with only that bound. -/
theorem composesTo_range_ofCalls (calls : List (Limit × Json)) (field : Accessor) :
  let bounds := Bounds.ofCalls calls
  (∃ members : List (String × Json),
      (∀ path, FieldPath.resolve field = .ok path →
        (range field bounds).ComposesTo
          (.ok (.singleton "range" (.singleton path.dotted (.object members)))))
      ∧ Keyed.Ascending members
      ∧ (∀ name, name ∈ members.map Prod.fst
        ↔ ∃ limit : Limit, limit.key = name ∧ limit ∈ calls.map Prod.fst)
      ∧ (∀ limit value, (limit.key, value) ∈ members ↔ Bounds.SetsLast calls limit value)
      ∧ (members = [] ↔ bounds.isUnbounded = true))
    ∧ (bounds.isUnbounded = true ↔ calls = [])
    ∧ (∀ others : List (Limit × Json),
      (∀ limit, others.filter (fun call => call.1 = limit)
        = calls.filter fun call => call.1 = limit) → Bounds.ofCalls others = bounds)
    ∧ (∀ fault, FieldPath.resolve field = .error fault →
      (range field bounds).ComposesTo (.error (.ofPathFault fault)))
    ∧ ∀ limit value result, (bound limit field value).ComposesTo result
      ↔ (range field (Bounds.ofCalls [(limit, value)])).ComposesTo result
  := by
  intro bounds
  refine ⟨⟨bounds.members, ?_, bounds.ascending_members, ?_, ?_, Bounds.members_eq_nil_iff⟩,
    Bounds.isUnbounded_ofCalls_iff, ?_, ?_, ?_⟩
  · exact fun path hpath => composesTo_range_of_ok hpath bounds
  · exact fun name => Bounds.mem_names_ofCalls_iff
  · exact fun limit value => Bounds.mem_members_ofCalls_iff
  · exact fun others => Bounds.ofCalls_eq_of_filter_eq
  · exact fun fault hfault => composesTo_range_of_error hfault bounds
  · -- A leaf for one bound is the same node as the range with that bound.
    exact fun limit value result => Iff.rfl

theorem composesTo_range_ofCalls_repeated :
  let calls : List (Limit × Json) :=
    [(.atLeast, .null), (.below, .bool false), (.atLeast, .ofInt64 0), (.atMost, .string "")]
  let mixed : List (Limit × Json) :=
    [(.atMost, .string ""), (.atLeast, .null), (.atLeast, .ofInt64 0), (.below, .bool false)]
  let test := range [.member "age"] (.ofCalls calls)
  (∃ members, (FilterTree.empty.addNode FilterTree.root test.kind).value.composeAt 1
        = .ok (.singleton "range" (.singleton "age" (.object members)))
      ∧ ("gte", .ofInt64 0) ∈ members ∧ ("lt", .bool false) ∈ members
      ∧ ("lte", .string "") ∈ members ∧ "gt" ∉ members.map Prod.fst)
    ∧ Bounds.ofCalls mixed = Bounds.ofCalls calls
    ∧ (range [] (.ofCalls calls)).ComposesTo
      (.error (.noFieldPath "accessor does not select any member"))
  := by
  intro calls mixed test
  obtain ⟨⟨members, hcomposes, -, hnames, hmembers, -⟩, -, hmixed, -⟩ :=
    composesTo_range_ofCalls calls [.member "age"]
  obtain ⟨-, -, -, hfails, -⟩ := composesTo_range_ofCalls calls []
  have hage : ∀ name ∈ ["age"], IsMemberName name := by
    simp only [IsMemberName]
    decide
  refine ⟨⟨members, ?_, ?_, ?_, ?_, ?_⟩, ?_, hfails .nothingSelected rfl⟩
  · apply hcomposes ⟨["age"], List.cons_ne_nil _ _, hage⟩ (FieldPath.ofNames_eq_ok_iff.mpr rfl)
      FilterTree.empty _ FilterTree.root FilterTree.wellFormed_empty
    · exact ⟨_, FilterTree.wellFormed_empty.kind_root, by simp⟩
    · apply FilterTree.Grows.refl
  · exact (hmembers .atLeast _).mpr ⟨[(.atLeast, .null), (.below, .bool false)],
      [(.atMost, .string "")], rfl, by simp⟩
  · exact (hmembers .below _).mpr ⟨[(.atLeast, .null)],
      [(.atLeast, .ofInt64 0), (.atMost, .string "")], rfl, by simp⟩
  · exact (hmembers .atMost _).mpr ⟨[(.atLeast, .null), (.below, .bool false),
      (.atLeast, .ofInt64 0)], [], rfl, by simp⟩
  · rw [hnames]
    rintro ⟨limit, hkey, hcalled⟩
    obtain rfl : limit = .above := Limit.key_injective hkey
    simp [calls] at hcalled
  · apply hmixed
    intro limit
    cases limit <;> rfl

end Leaf

end FilteredSearch
