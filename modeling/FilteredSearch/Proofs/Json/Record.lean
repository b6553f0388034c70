import FilteredSearch.Json.Basic
import Mathlib.Data.List.Nodup

/-!
# Objects of present members

An object whose members may be absent, one by one, is given by its members in ascending order.  The
order in which the present ones are put into it counts for nothing.
-/

namespace FilteredSearch

namespace Keyed

variable {α : Type} {entries sorted : List (String × α)} {name : String} {value : α}

/-- When every name is given one value, the value is found under it. -/
theorem find?_ofList_iff (hnames : (entries.map Prod.fst).Nodup) :
  find? name (ofList entries) = some value ↔ (name, value) ∈ entries
  := by
  induction entries with
  | nil => simp [ofList, find?]
  | cons entry rest ih =>
    obtain ⟨key, first⟩ := entry
    obtain ⟨hkey, hrest⟩ := List.nodup_cons.mp hnames
    rw [find?_ofList_cons]
    by_cases heq : name = key
    · subst heq
      have habsent : ∀ entry ∈ rest, name ≠ entry.1 := by
        rintro entry hentry rfl
        apply hkey (List.mem_map.mpr ⟨entry, hentry, rfl⟩)
      have hnone : (name, value) ∉ rest := fun hmem => habsent _ hmem rfl
      simp [find?_ofList_eq_none habsent, hnone, eq_comm]
    · rw [if_neg heq, Option.or_none, ih hrest]
      simp [heq]

/-- Entries put in order are the entries in order. -/
theorem ofList_eq_of_perm (hperm : entries.Perm sorted) (hsorted : Ascending sorted) :
  ofList entries = sorted
  := by
  have hnodup : (sorted.map Prod.fst).Nodup := by
    apply List.pairwise_map.mpr
    apply hsorted.imp
    intro entry other hlt heq
    apply String.lt_irrefl _ (heq ▸ hlt)
  apply eq_of_find?_eq (ascending_ofList entries) hsorted
  intro name
  ext value
  rw [find?_ofList_iff ((hperm.map Prod.fst).nodup_iff.mpr hnodup), hperm.mem_iff]
  exact ⟨find?_eq_some_of_mem hsorted, mem_of_find?_eq_some⟩

end Keyed

namespace Json

/-- The member, if it is present. -/
def presentMember (entry : String × Option Json) : Option (String × Json) :=
  entry.2.map fun value => (entry.1, value)

/-- The object of the members that are present. -/
def record (entries : List (String × Option Json)) : Json :=
  .object (entries.filterMap presentMember)

/-- The object, unless it has no members. -/
def objectIfAny (members : List (String × Json)) : Option Json :=
  if members.isEmpty then none else some (.object members)

theorem mem_presentMembers {entries : List (String × Option Json)} {name : String}
    {value : Json} :
  (name, value) ∈ entries.filterMap presentMember ↔ (name, some value) ∈ entries
  := by
  simp [List.mem_filterMap, presentMember]

theorem ascending_presentMembers {entries : List (String × Option Json)}
    (hnames : (entries.map Prod.fst).Pairwise (· < ·)) :
  Keyed.Ascending (entries.filterMap presentMember)
  := by
  apply List.pairwise_filterMap.mpr
  apply (List.pairwise_map.mp hnames).imp
  intro entry other hlt member hmember member' hmember'
  obtain ⟨_, -, rfl⟩ := Option.map_eq_some_iff.mp hmember
  obtain ⟨_, -, rfl⟩ := Option.map_eq_some_iff.mp hmember'
  apply hlt

/-- The object of present members is the record of all members in ascending order. -/
theorem ofMembers_eq_record {members entries : List (String × Option Json)}
    (hperm : members.Perm entries) (hnames : (entries.map Prod.fst).Pairwise (· < ·)) :
  ofMembers (members.filterMap presentMember) = record entries
  := by
  rw [ofMembers, record]
  congr 1
  apply Keyed.ofList_eq_of_perm (hperm.filterMap presentMember) (ascending_presentMembers hnames)

/-- A record has the members that are present. -/
theorem member?_record_eq_some_iff {entries : List (String × Option Json)} {name : String}
    {value : Json} (hnames : (entries.map Prod.fst).Pairwise (· < ·)) :
  (record entries).member? name = some value ↔ (name, some value) ∈ entries
  := by
  rw [← mem_presentMembers]
  exact ⟨Keyed.mem_of_find?_eq_some,
    Keyed.find?_eq_some_of_mem (ascending_presentMembers hnames)⟩

end Json

end FilteredSearch
