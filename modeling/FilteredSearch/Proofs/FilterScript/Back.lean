import FilteredSearch.Proofs.FilterTree.Enclosing

/-!
# Going back

A call that goes back from a handle gives a handle on the root of the nearest family around the node,
and leaves the tree as it is.  Each further call comes to a smaller node, so a long enough row of
them ends where no family is around.
-/

namespace FilteredSearch

open FilterTree

namespace FilterScript

/-- Goes back as often as said, each time from the handle that was given before. -/
def backs : Nat → FilterScript
  | 0 => .done
  | times + 1 => .back (backs times) .done

variable {tree : FilterTree} {handle : Handle} {build : FilterBuild} {familyRoot : Nat}

/-- The call gives a handle on the root of the nearest family, or reports that none is around. -/
theorem run_back (next : FilterScript) (handle : Handle) (build : FilterBuild) :
  (FilterScript.back next .done).run handle build
    = match build.tree.familyRootAround handle.id with
      | .ok familyRoot =>
        next.run (.scope familyRoot) (build.report (.node "back" familyRoot))
      | .error error => build.fail "back" error
  := by
  cases handle <;> rfl

theorem run_back_of_error {error : SearchError} (next : FilterScript)
    (h : build.tree.familyRootAround handle.id = .error error) :
  (FilterScript.back next .done).run handle build = build.fail "back" error
  := by
  rw [run_back, h]

/-- Going back puts nothing into the tree. -/
theorem tree_run_backs (times : Nat) (handle : Handle) (build : FilterBuild) :
  ((backs times).run handle build).tree = build.tree
  := by
  induction times generalizing handle build with
  | zero => rfl
  | succ times ih =>
    rw [backs, run_back]
    split
    · rw [ih, FilterBuild.tree_report]
    · rw [FilterBuild.tree_fail]

/-- Going back often enough from a node visits smaller and smaller nodes, and then fails. -/
theorem events_run_backs (hwf : tree.WellFormed) {id : Nat} (hid : id < tree.size) :
  ∃ visited : List Nat, (id :: visited).Pairwise (· > ·)
    ∧ ∀ handle build times, handle.id = id → build.tree = tree → build.stopped = none →
      visited.length < times →
      ((backs times).run handle build).transcript.events.toList
        = build.transcript.events.toList ++ visited.map (Event.node "back")
          ++ [.outcome "back" (.error .noEnclosingFamily)]
  := by
  -- The root of the nearest family has a smaller number.
  induction id using Nat.strongRecOn with
  | ind id ih =>
    rcases hroot : tree.familyRootAround id with error | familyRoot
    · obtain rfl := eq_noEnclosingFamily_of_familyRootAround hwf hid hroot
      refine ⟨[], List.pairwise_singleton _ _, ?_⟩
      rintro handle build (_ | times) rfl rfl hgoing hlt
      · simp at hlt
      · simp [backs, run_back, hroot, FilterBuild.fail, hgoing, Transcript.report]
    · obtain ⟨family, hnearest⟩ := (familyRootAround_eq_ok_iff hwf hid).mp hroot
      have hsmaller := (hnearest.root hwf).1.lt hwf.toLinked
      obtain ⟨visited, hdescends, hvisits⟩ := ih familyRoot hsmaller (Nat.lt_trans hsmaller hid)
      refine ⟨familyRoot :: visited, ?_, ?_⟩
      · rw [List.pairwise_cons]
        refine ⟨?_, hdescends⟩
        intro later hlater
        rcases List.mem_cons.mp hlater with rfl | hlater
        · exact hsmaller
        · apply Nat.lt_trans ((List.pairwise_cons.mp hdescends).1 later hlater) hsmaller
      · rintro handle build (_ | times) rfl rfl hgoing hlt
        · simp at hlt
        · simp only [backs, run_back, hroot]
          rw [hvisits (.scope familyRoot) _ times rfl (FilterBuild.tree_report _ _)
            (by simp [FilterBuild.report, hgoing]) (by simpa using hlt)]
          simp [FilterBuild.report, hgoing, Transcript.report]

end FilterScript

/-- In a tree that scripts build, the way back from a node is there exactly when an ancestor of the
node belongs to a family.  It leads to the root of the nearest such family, which is an ancestor
too, is never refused as a mere part of a family unless a caller's own composition brings the
refusal, and can be taken for a part of a bool filter exactly when the family is one.  Otherwise no
family encloses the node.  The tree stays as it is, and going back over and over visits smaller and
smaller nodes until none encloses them. -/
theorem back_to_nearest_family {tree : FilterTree} (h : tree.Reachable) {handle : Handle}
    (hid : handle.id < tree.size) (transcript : Transcript) (strict : Bool) :
  ((∃ familyRoot, tree.familyRootAround handle.id = .ok familyRoot)
      ↔ ∃ member family familyRoot,
        tree.IsAbove member handle.id ∧ tree.InFamily member family familyRoot)
    ∧ (∀ familyRoot, tree.familyRootAround handle.id = .ok familyRoot →
      ∃ family, tree.IsNearest handle.id family familyRoot
        ∧ tree.IsAbove familyRoot handle.id
        ∧ tree.IsFamilyRoot familyRoot family
        ∧ (∀ other, ¬tree.IsPartOf familyRoot other)
        ∧ (∀ other, tree.composeAt familyRoot = .error (.notFamilyRoot other) →
          tree.Brings (.notFamilyRoot other))
        ∧ ((tree.clausesOf? familyRoot).isSome = true ↔ family = .bool))
    ∧ (∀ error, tree.familyRootAround handle.id = .error error → error = .noEnclosingFamily)
    ∧ (∀ next, (FilterScript.back next .done).run handle (.start tree transcript strict)
      = match tree.familyRootAround handle.id with
        | .ok familyRoot => next.run (.scope familyRoot)
          ((FilterBuild.start tree transcript strict).report (.node "back" familyRoot))
        | .error error => (FilterBuild.start tree transcript strict).fail "back" error)
    ∧ (∀ times, ((FilterScript.backs times).run handle (.start tree transcript strict)).tree = tree)
    ∧ ∃ visited : List Nat, (handle.id :: visited).Pairwise (· > ·)
      ∧ ∀ times, visited.length < times →
        ((FilterScript.backs times).run handle
            (.start tree transcript strict)).transcript.events.toList
          = transcript.events.toList ++ visited.map (Event.node "back")
            ++ [.outcome "back" (.error .noEnclosingFamily)]
  := by
  have hwf := h.wellFormed
  refine ⟨exists_familyRootAround_iff hwf hid, ?_, ?_, ?_, ?_, ?_⟩
  · intro familyRoot hroot
    obtain ⟨family, hnearest⟩ := (familyRootAround_eq_ok_iff hwf hid).mp hroot
    obtain ⟨habove, hfamilyRoot⟩ := hnearest.root hwf
    have hnot := hfamilyRoot.not_isPart
    have hlt := Nat.lt_trans (habove.lt hwf.toLinked) hid
    refine ⟨family, hnearest, habove, hfamilyRoot, ?_, ?_, hfamilyRoot.isSome_clausesOf?_iff⟩
    · rwa [isPart_iff_exists_isPartOf, not_exists] at hnot
    · intro other hrefused
      apply (isOfFilters_or_brings hwf hlt hnot hrefused).resolve_left
      intro hfilters
      apply hfilters.ne_notFamilyRoot other rfl
  · intro error herror
    apply eq_noEnclosingFamily_of_familyRootAround hwf hid herror
  · intro next
    apply FilterScript.run_back
  · intro times
    apply FilterScript.tree_run_backs
  · obtain ⟨visited, hdescends, hvisits⟩ := FilterScript.events_run_backs hwf hid
    refine ⟨visited, hdescends, ?_⟩
    intro times hlt
    apply hvisits handle _ times rfl rfl rfl hlt

theorem back_to_nearest_family_treeOfOrs :
  treeOfOrs.Reachable ∧ (Handle.leaf 8).id < treeOfOrs.size
    ∧ treeOfOrs.familyRootAround 8 = .ok 5 ∧ ∃ family, treeOfOrs.IsNearest 8 family 5
  := by
  have hlt : (Handle.leaf 8).id < treeOfOrs.size := by decide
  have hroot : treeOfOrs.familyRootAround 8 = .ok 5 := by
    have hkind : treeOfOrs.kind? 7 = some (.chain ⟨.or, 5, []⟩) := rfl
    change treeOfOrs.familyRootFrom 7 = .ok 5
    rw [familyRootFrom_eq hkind]
    rfl
  obtain ⟨-, hback, -⟩ := back_to_nearest_family reachable_treeOfOrs hlt .empty false
  obtain ⟨family, hnearest, -⟩ := hback 5 hroot
  exact ⟨reachable_treeOfOrs, hlt, hroot, family, hnearest⟩

end FilteredSearch
