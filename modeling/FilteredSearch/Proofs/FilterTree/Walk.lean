import FilteredSearch.Proofs.FilterTree.Placed

/-!
# The walk over a tree

Composing a tree is a walk over its nodes.  Here the walk is taken once more, by the same code,
and notes every node which it composes.  It comes to the same result, and when it comes to a
document, it has composed every node that is not a part of its family once, and no other node.
-/

namespace FilteredSearch

/-- What a computation came to, with the nodes that were composed for it, in order. -/
@[ext]
structure Walk (α : Type) where
  result : Except SearchError α
  nodes : List Nat

namespace Walk

variable {α β : Type}

/-- Goes on from a result; the nodes before an error stay. -/
protected def bind (x : Walk α) (f : α → Walk β) : Walk β :=
  match x.result with
  | .ok value => ⟨(f value).result, x.nodes ++ (f value).nodes⟩
  | .error error => ⟨.error error, x.nodes⟩

/-- Goes on from an error; the nodes before it stay. -/
protected def tryCatch (x : Walk α) (handler : SearchError → Walk α) : Walk α :=
  match x.result with
  | .ok _ => x
  | .error error => ⟨(handler error).result, x.nodes ++ (handler error).nodes⟩

instance : Monad Walk where
  pure value := ⟨.ok value, []⟩
  bind := Walk.bind

instance : MonadExcept SearchError Walk where
  throw error := ⟨.error error, []⟩
  tryCatch := Walk.tryCatch

/-- Notes a node. -/
def visit (id : Nat) : Walk Unit := ⟨.ok (), [id]⟩

variable {x : Walk α} {f : α → Walk β} {value : α} {error : SearchError}

theorem bind_of_ok (h : x.result = .ok value) :
  x >>= f = ⟨(f value).result, x.nodes ++ (f value).nodes⟩
  := by
  show Walk.bind x f = _
  simp [Walk.bind, h]

theorem bind_of_error (h : x.result = .error error) :
  x >>= f = ⟨.error error, x.nodes⟩
  := by
  show Walk.bind x f = _
  simp [Walk.bind, h]

instance : LawfulMonad Walk := LawfulMonad.mk' _
  (by
    rintro α ⟨result, nodes⟩
    cases result with
    | error error => rfl
    | ok value => exact Walk.ext rfl (List.append_nil nodes))
  (fun value f => rfl)
  (by
    rintro α β γ ⟨result, nodes⟩ f g
    cases result with
    | error error => rfl
    | ok value =>
      show Walk.bind (Walk.bind ⟨.ok value, nodes⟩ f) g = Walk.bind ⟨.ok value, nodes⟩ _
      simp only [Walk.bind]
      cases h : (f value).result with
      | error error => simp [bind_of_error h]
      | ok value' => simp [bind_of_ok h])

/-! ### Results of walks -/

@[simp]
theorem result_pure (value : α) :
  (pure value : Walk α).result = .ok value
  := rfl

@[simp]
theorem result_visit (id : Nat) :
  (visit id).result = .ok ()
  := rfl

@[simp]
theorem result_bind (x : Walk α) (f : α → Walk β) :
  (x >>= f).result = x.result >>= fun value => (f value).result
  := by
  cases h : x.result with
  | error error => rw [bind_of_error h]; rfl
  | ok value => rw [bind_of_ok h]; rfl

@[simp]
theorem result_map (f : α → β) (x : Walk α) :
  (f <$> x).result = f <$> x.result
  := by
  rw [map_eq_pure_bind, map_eq_pure_bind, result_bind]
  rfl

@[simp]
theorem result_ofExcept (result : Except SearchError α) :
  (MonadExcept.ofExcept result : Walk α).result = result
  := by
  cases result <;> rfl

theorem result_mapM {items : List α} {f : α → Walk β} :
  (items.mapM f).result = items.mapM fun item => (f item).result
  := by
  induction items with
  | nil => rfl
  | cons item items ih => simp [List.mapM_cons, ih]

theorem result_outcome (x : Walk Json) :
  (outcome x).result = outcome x.result
  := by
  obtain ⟨result, nodes⟩ := x
  cases result <;> rfl

theorem result_composeSole? (compose : Nat → Walk Json) (ids : List Nat) :
  (composeSole? compose ids).result = composeSole? (fun id => (compose id).result) ids
  := by
  match ids with
  | [] | _ :: _ :: _ => rfl
  | [only] => simp [composeSole?]

/-! ### Nodes of walks -/

@[simp]
theorem nodes_map (f : α → β) (x : Walk α) :
  (f <$> x).nodes = x.nodes
  := by
  rw [map_eq_pure_bind]
  cases h : x.result with
  | error error => rw [bind_of_error h]
  | ok value => rw [bind_of_ok h]; exact List.append_nil x.nodes

theorem nodes_mapM {items : List α} {f : α → Walk β} {results : List β}
    (h : (items.mapM f).result = .ok results) :
  (items.mapM f).nodes = items.flatMap fun item => (f item).nodes
  := by
  induction items generalizing results with
  | nil => rfl
  | cons item items ih =>
    simp only [List.mapM_cons, result_bind, result_pure] at h
    cases hitem : (f item).result with
    | error error => simp [hitem, bind, Except.bind] at h
    | ok result =>
      cases hitems : (items.mapM f).result with
      | error error => simp [hitem, hitems, bind, Except.bind] at h
      | ok rest => simp [bind_of_ok hitem, ih hitems]

theorem nodes_composeSole? {compose : Nat → Walk Json} {ids : List Nat} {document? : Option Json}
    (h : (composeSole? compose ids).result = .ok document?) :
  (composeSole? compose ids).nodes = ids.flatMap fun id => (compose id).nodes
  := by
  match ids with
  | [] => rfl
  | [only] => simp [composeSole?]
  | _ :: _ :: _ => simp [composeSole?] at h

/-- A node of a walk in two parts is a node of one of them. -/
theorem of_mem_nodes_bind {id : Nat} (h : id ∈ (x >>= f).nodes) :
  id ∈ x.nodes ∨ ∃ value, id ∈ (f value).nodes
  := by
  cases hx : x.result with
  | error error =>
    rw [bind_of_error hx] at h
    exact Or.inl h
  | ok value =>
    rw [bind_of_ok hx] at h
    exact (List.mem_append.mp h).imp_right fun hf => ⟨value, hf⟩

theorem exists_of_mem_nodes_mapM {items : List α} {f : α → Walk β} {id : Nat}
    (h : id ∈ (items.mapM f).nodes) :
  ∃ item ∈ items, id ∈ (f item).nodes
  := by
  induction items with
  | nil => cases h
  | cons item items ih =>
    rw [List.mapM_cons] at h
    rcases of_mem_nodes_bind h with hitem | ⟨_, hrest⟩
    · exact ⟨item, List.mem_cons_self, hitem⟩
    · rcases of_mem_nodes_bind hrest with hitems | ⟨_, hpure⟩
      · obtain ⟨other, hother, hid⟩ := ih hitems
        exact ⟨other, List.mem_cons_of_mem _ hother, hid⟩
      · cases hpure

theorem exists_of_mem_nodes_composeSole? {compose : Nat → Walk Json} {ids : List Nat} {id : Nat}
    (h : id ∈ (composeSole? compose ids).nodes) :
  ∃ only ∈ ids, id ∈ (compose only).nodes
  := by
  match ids with
  | [] | _ :: _ :: _ => cases h
  | [only] => exact ⟨only, List.mem_singleton_self only, by simpa [composeSole?] using h⟩

end Walk

namespace FilterTree

variable {tree : FilterTree} {id : Nat} {node : Node} {kind : NodeKind}

/-- The same walk without the nodes comes to the same result. -/
theorem result_composeUsing (compose : Nat → Walk Json) :
  (tree.composeUsing compose id node).result
    = tree.composeUsing (fun later => (compose later).result) id node
  := by
  unfold composeUsing
  cases node.kind with
  | scope | negation | nested _ => simp [composeOnly, Walk.result_composeSole?]
  | fragment _ | faulty _ | clause _ _ => rfl
  | custom composer => simp [Walk.result_mapM, Walk.result_outcome]
  | bool clauses =>
    simp only [composeClauses]
    split
    · rfl
    · simp [Walk.result_mapM, Walk.result_composeSole?]
  | chain membership =>
    dsimp only
    split
    · simp [composeConditions, Walk.result_mapM, Walk.result_composeSole?]
    · rfl

/-- What a node composes to, with the nodes that are composed for it. -/
def walk (tree : FilterTree) (id : Nat) : Walk Json :=
  match _h : tree.nodes[id]? with
  | none => throw (.unknownNode id)
  | some node => do
    Walk.visit id
    tree.composeUsing (fun later => if id < later then tree.walk later
      else throw (.unknownNode later)) id node
termination_by tree.size - id
decreasing_by
  have := (Array.getElem?_eq_some_iff.1 _h).1
  simp only [size]
  omega

theorem walk_of_node (h : tree.nodes[id]? = some node) :
  tree.walk id = (do
    Walk.visit id
    tree.composeUsing (fun later => if id < later then tree.walk later
      else throw (.unknownNode later)) id node)
  := by
  rw [walk]
  split
  · next hnone => simp [h] at hnone
  · next node' hsome =>
    obtain rfl : node = node' := Option.some.inj (h.symm.trans hsome)
    rfl

/-- The walk comes to what the node composes to. -/
theorem result_walk (tree : FilterTree) (id : Nat) :
  (tree.walk id).result = tree.composeAt id
  := by
  induction hm : tree.size - id using Nat.strongRecOn generalizing id with
  | ind m ih =>
    cases hnode : tree.nodes[id]? with
    | none =>
      rw [composeAt_of_size_le (Array.getElem?_eq_none_iff.mp hnode), walk]
      split
      · rfl
      · next hsome => simp [hnode] at hsome
    | some node =>
      have hid : id < tree.size := (Array.getElem?_eq_some_iff.mp hnode).1
      rw [walk_of_node hnode, Walk.bind_of_ok (Walk.result_visit id), composeAt_of_node hnode,
        result_composeUsing]
      congr 1
      funext later
      rw [composeAfter]
      split
      · next hlater => exact ih (tree.size - later) (by omega) later rfl
      · rfl

/-! ### Walks that come to a document -/

variable {x : Nat}

theorem walk_eq (hwf : tree.WellFormed) (hk : tree.kind? id = some kind)
    (hkind : ¬kind.IsCustom) (hobstacle : tree.obstacle? id kind = none) :
  tree.walk id = (do
    Walk.visit id
    kind.assemble <$> (tree.slots id kind).mapM (composeSole? tree.walk))
  := by
  obtain ⟨node, hnode, rfl⟩ := kind?_eq_some_iff.mp hk
  have hlater : ∀ later, id < later → (if id < later then tree.walk later
      else throw (.unknownNode later)) = tree.walk later := fun _ h => if_pos h
  rw [walk_of_node hnode, composeUsing_congr hwf hnode hkind hlater,
    composeUsing_eq hwf hnode hkind, hobstacle]
  simp

/-- The walk to the document of a node composes the node itself and what its slots hold. -/
theorem nodes_walk (hwf : tree.WellFormed) (hk : tree.kind? id = some kind)
    (hkind : ¬kind.IsCustom) (hdocument : ∃ document, tree.composeAt id = .ok document) :
  (tree.walk id).nodes
    = id :: (tree.slots id kind).flatten.flatMap fun child => (tree.walk child).nodes
  := by
  obtain ⟨hobstacle, hslots⟩ := (exists_composeAt_iff hwf hk hkind).mp hdocument
  have hslot : ∀ slot ∈ tree.slots id kind, ∃ document?,
      (composeSole? tree.walk slot).result = .ok document? := by
    intro slot hslot
    simp only [Walk.result_composeSole?, result_walk]
    apply exists_composeSole?_iff.mpr (hslots slot hslot)
  obtain ⟨documents, hdocuments⟩ := Results.exists_mapM_eq_ok_iff.mpr hslot
  rw [← Walk.result_mapM] at hdocuments
  have hnodes : ∀ slot ∈ tree.slots id kind, (composeSole? tree.walk slot).nodes
      = slot.flatMap fun child => (tree.walk child).nodes := by
    intro slot hmem
    obtain ⟨document?, hresult⟩ := hslot slot hmem
    apply Walk.nodes_composeSole? hresult
  rw [walk_eq hwf hk hkind hobstacle, Walk.bind_of_ok (Walk.result_visit id), Walk.nodes_map,
    Walk.nodes_mapM hdocuments, List.flatMap_congr hnodes, ← List.flatMap_id, List.flatMap_assoc]
  rfl

/-- Nothing is composed for a node but later nodes that are not parts, and the node itself. -/
theorem of_mem_nodes_walk (hwf : tree.WellFormed) (hnative : tree.Native) (hplaced : tree.Placed)
    (hid : id < tree.size) (hpart : ¬tree.IsPart id) (hx : x ∈ (tree.walk id).nodes) :
  id ≤ x ∧ x < tree.size ∧ ¬tree.IsPart x
  := by
  induction id, hid, hpart using hwf.slotInduction with
  | node hid hpart hk ih =>
    rw [nodes_walk hwf hk (hnative.not_isCustom hk)
      (hplaced.exists_composeAt hwf hnative hid hpart), List.mem_cons, List.mem_flatMap] at hx
    rcases hx with rfl | ⟨child, hchild, hx⟩
    · exact ⟨Nat.le_refl _, hid, hpart⟩
    · obtain ⟨slot, hslot, hmem⟩ := List.mem_flatten.mp hchild
      have hlt := (calls_of_mem_slot hwf hk hslot hmem).lt hwf
      obtain ⟨hle, hx⟩ := ih slot hslot child hmem hx
      exact ⟨by omega, hx⟩

/-- What is counted in one place for every item is counted in all places for the whole list. -/
theorem count_flatMap_of_count {f : Nat → List Nat} {items : List Nat} {head x : Nat}
    (h : ∀ item ∈ items, (f item).count x = (f item).count head + if x = item then 1 else 0) :
  (items.flatMap f).count x = (items.flatMap f).count head + items.count x
  := by
  induction items with
  | nil => rfl
  | cons item items ih =>
    have hitem := h item List.mem_cons_self
    have hitems := ih fun other hother => h other (List.mem_cons_of_mem _ hother)
    simp only [List.flatMap_cons, List.count_append, List.count_cons, hitem, hitems, beq_iff_eq,
      eq_comm (a := item)]
    omega

/-- A node is composed as often as its caller is, and once more on the walk that starts with
it. -/
theorem count_nodes_walk (hwf : tree.WellFormed) (hnative : tree.Native) (hplaced : tree.Placed)
    {head : Nat} (hcalls : tree.Calls head x) (hx : ¬tree.IsPart x) (hid : id < tree.size)
    (hpart : ¬tree.IsPart id) :
  (tree.walk id).nodes.count x = (tree.walk id).nodes.count head + if x = id then 1 else 0
  := by
  induction id, hid, hpart using hwf.slotInduction with
  | @node id kind hid hpart hk ih =>
    have hitems : ∀ child ∈ (tree.slots id kind).flatten, (tree.walk child).nodes.count x
        = (tree.walk child).nodes.count head + if x = child then 1 else 0 := by
      intro child hchild
      obtain ⟨slot, hslot, hmem⟩ := List.mem_flatten.mp hchild
      apply ih slot hslot child hmem
    have hslots : (tree.slots id kind).flatten.count x = if head = id then 1 else 0 := by
      split
      · next heq =>
        subst heq
        apply count_slots hwf hnative hcalls hx hk (hplaced.obstacle?_eq_none hk hpart)
      · next hne =>
        apply List.count_eq_zero_of_not_mem
        intro hmem
        obtain ⟨slot, hslot, hmem⟩ := List.mem_flatten.mp hmem
        apply hne (hcalls.unique (calls_of_mem_slot hwf hk hslot hmem))
    rw [nodes_walk hwf hk (hnative.not_isCustom hk)
      (hplaced.exists_composeAt hwf hnative hid hpart), List.count_cons, List.count_cons,
      count_flatMap_of_count hitems, hslots]
    simp only [beq_iff_eq, eq_comm (a := id)]

/-- The walk that starts with a node does not come back to it. -/
theorem count_self_nodes_walk (hwf : tree.WellFormed) (hnative : tree.Native)
    (hplaced : tree.Placed) (hid : id < tree.size) (hpart : ¬tree.IsPart id) :
  (tree.walk id).nodes.count id = 1
  := by
  obtain ⟨kind, hk⟩ := exists_kind?_of_lt hid
  rw [nodes_walk hwf hk (hnative.not_isCustom hk)
    (hplaced.exists_composeAt hwf hnative hid hpart), List.count_cons_self,
    List.count_eq_zero_of_not_mem]
  intro hmem
  obtain ⟨child, hchild, hmem⟩ := List.mem_flatMap.mp hmem
  obtain ⟨slot, hslot, hchild⟩ := List.mem_flatten.mp hchild
  have hcalls := calls_of_mem_slot hwf hk hslot hchild
  have hlt := hcalls.lt hwf
  have hle := (of_mem_nodes_walk hwf hnative hplaced hcalls.lt_size
    (not_isPart_of_mem_slot hwf hk hslot hchild) hmem).1
  omega

/-- The walk that starts with a node composes no node twice. -/
theorem nodup_nodes_walk (hwf : tree.WellFormed) (hnative : tree.Native) (hplaced : tree.Placed)
    (hid : id < tree.size) (hpart : ¬tree.IsPart id) :
  (tree.walk id).nodes.Nodup
  := by
  apply List.nodup_iff_count_le_one.mpr
  intro x
  -- A caller is composed at most once, so what it calls is composed at most once.
  induction x using Nat.strongRecOn with
  | ind x ih =>
    by_cases hmem : x ∈ (tree.walk id).nodes
    · obtain ⟨hle, hx, hxpart⟩ := of_mem_nodes_walk hwf hnative hplaced hid hpart hmem
      by_cases hne : x = id
      · subst hne
        apply Nat.le_of_eq (count_self_nodes_walk hwf hnative hplaced hid hpart)
      · obtain ⟨head, hcalls⟩ := exists_calls hwf (by omega) hx
        rw [count_nodes_walk hwf hnative hplaced hcalls hxpart hid hpart, if_neg hne]
        apply ih head (hcalls.lt hwf)
    · rw [List.count_eq_zero_of_not_mem hmem]
      apply Nat.zero_le 1

/-- The walk from the top scope composes every node that is not a part. -/
theorem mem_nodes_walk_root (hwf : tree.WellFormed) (hnative : tree.Native)
    (hplaced : tree.Placed) (hid : id < tree.size) (hpart : ¬tree.IsPart id) :
  id ∈ (tree.walk root).nodes
  := by
  have hsize : root < tree.size := hwf.size_pos
  have hroot : ¬tree.IsPart root := Heads.not_isPart hwf ⟨_, hwf.kind_root, rfl⟩
  induction id, hid, hpart using hwf.callerInduction with
  | root =>
    rw [← List.count_pos_iff, count_self_nodes_walk hwf hnative hplaced hsize hroot]
    apply Nat.one_pos
  | called hid hpart hcalls ih =>
    rw [← List.count_pos_iff] at ih ⊢
    rw [count_nodes_walk hwf hnative hplaced hcalls hpart hsize hroot]
    apply Nat.lt_of_lt_of_le ih (Nat.le_add_right _ _)

end FilterTree

end FilteredSearch
