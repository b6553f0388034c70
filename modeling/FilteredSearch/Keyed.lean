/-!
# Values kept by name

A list of pairs of a name and a value, with the names strictly ascending, holds at most one
value for each name and lists them in one order only.  The names ascend by code points, which
is also the order of their UTF-8 encodings.  Every operation below keeps the names ascending.
-/

namespace FilteredSearch.Keyed

variable {α : Type}

/-- The names of the list are strictly ascending. -/
def Ascending (entries : List (String × α)) : Prop :=
  entries.Pairwise fun a b => a.1 < b.1

/-- The value kept under a name. -/
def find? (name : String) : List (String × α) → Option α
  | [] => none
  | (key, value) :: rest => if name = key then some value else find? name rest

/-- Keeps a value under a name, in place of the value kept there before. -/
def insert (name : String) (value : α) : List (String × α) → List (String × α)
  | [] => [(name, value)]
  | (key, old) :: rest =>
    if name < key then (name, value) :: (key, old) :: rest
    else if name = key then (name, value) :: rest
    else (key, old) :: insert name value rest

/-- Keeps a value under a name unless one is kept there already. -/
def insertNew (name : String) (value : α) (entries : List (String × α)) : List (String × α) :=
  if (find? name entries).isSome then entries else insert name value entries

/-- The last value given for each name, the names ascending. -/
def ofList : List (String × α) → List (String × α)
  | [] => []
  | (name, value) :: rest => insertNew name value (ofList rest)

@[simp]
theorem find?_insert_self (name : String) (value : α) (entries : List (String × α)) :
  find? name (insert name value entries) = some value
  := by
  induction entries with
  | nil => simp [insert, find?]
  | cons entry rest ih =>
    obtain ⟨key, old⟩ := entry
    by_cases h₁ : name < key
    · simp [insert, find?, h₁]
    · by_cases h₂ : name = key
      · simp [insert, find?, h₂]
      · simp [insert, find?, h₁, h₂, ih]

theorem find?_insert_of_ne {name other : String} (value : α) (entries : List (String × α))
    (h : other ≠ name) :
  find? other (insert name value entries) = find? other entries
  := by
  induction entries with
  | nil => simp [insert, find?, h]
  | cons entry rest ih =>
    obtain ⟨key, old⟩ := entry
    by_cases h₁ : name < key
    · simp [insert, find?, h₁, h]
    · by_cases h₂ : name = key
      · subst h₂
        rw [insert, if_neg h₁, if_pos rfl]
        simp [find?, h]
      · simp [insert, find?, h₁, h₂, ih]

/-- The value kept before counts. -/
theorem find?_insertNew (name other : String) (value : α) (entries : List (String × α)) :
  find? other (insertNew name value entries)
    = (find? other entries).or (if other = name then some value else none)
  := by
  rw [insertNew]
  by_cases h : other = name
  · subst h
    cases hfound : find? other entries with
    | none => simp
    | some old => simp [hfound]
  · rw [if_neg h, Option.or_none]
    split
    · rfl
    · exact find?_insert_of_ne value entries h

/-- The last value given for a name counts. -/
theorem find?_ofList_cons (name other : String) (value : α) (entries : List (String × α)) :
  find? other (ofList ((name, value) :: entries))
    = (find? other (ofList entries)).or (if other = name then some value else none)
  := find?_insertNew name other value (ofList entries)

/-- The values given later count before those given earlier. -/
theorem find?_ofList_append (name : String) (entries more : List (String × α)) :
  find? name (ofList (entries ++ more))
    = (find? name (ofList more)).or (find? name (ofList entries))
  := by
  induction entries with
  | nil => simp [ofList, find?]
  | cons entry entries ih =>
    rw [List.cons_append, find?_ofList_cons, find?_ofList_cons, ih, Option.or_assoc]

/-- Nothing is found under a name for which nothing was given. -/
theorem find?_ofList_eq_none {name : String} {entries : List (String × α)}
    (h : ∀ entry ∈ entries, name ≠ entry.1) :
  find? name (ofList entries) = none
  := by
  induction entries with
  | nil => rfl
  | cons entry entries ih =>
    rw [find?_ofList_cons, if_neg (h entry List.mem_cons_self), Option.or_none,
      ih fun other hmem => h other (List.mem_cons_of_mem _ hmem)]

theorem mem_names_insert {name : String} {value : α} {entries : List (String × α)}
    {entry : String × α} (h : entry ∈ insert name value entries) :
  entry = (name, value) ∨ entry ∈ entries
  := by
  induction entries with
  | nil => simpa [insert] using h
  | cons head rest ih =>
    obtain ⟨key, old⟩ := head
    rw [insert] at h
    split at h
    · simpa using h
    · split at h
      · rcases List.mem_cons.1 h with h | h
        · exact Or.inl h
        · exact Or.inr (List.mem_cons_of_mem _ h)
      · rcases List.mem_cons.1 h with h | h
        · exact Or.inr (h ▸ List.mem_cons_self)
        · exact (ih h).imp_right (List.mem_cons_of_mem _)

/-- What is kept was given. -/
theorem mem_of_mem_ofList {entry : String × α} {entries : List (String × α)}
    (h : entry ∈ ofList entries) :
  entry ∈ entries
  := by
  induction entries with
  | nil => exact h
  | cons head rest ih =>
    rw [ofList, insertNew] at h
    split at h
    · exact List.mem_cons_of_mem _ (ih h)
    · rcases mem_names_insert h with rfl | h
      · exact List.mem_cons_self
      · exact List.mem_cons_of_mem _ (ih h)

/-- Of two values kept under a name, one after the other, the last stays. -/
theorem insert_insert (name : String) (value old : α) (entries : List (String × α)) :
  insert name value (insert name old entries) = insert name value entries
  := by
  induction entries with
  | nil => simp [insert]
  | cons entry rest ih =>
    obtain ⟨key, other⟩ := entry
    by_cases hlt : name < key
    · simp [insert, hlt]
    · by_cases heq : name = key
      · simp [insert, heq]
      · simp [insert, hlt, heq, ih]

theorem mem_of_find?_eq_some {name : String} {value : α} {entries : List (String × α)}
    (h : find? name entries = some value) :
  (name, value) ∈ entries
  := by
  induction entries with
  | nil => simp [find?] at h
  | cons entry rest ih =>
    obtain ⟨key, other⟩ := entry
    rw [find?] at h
    split at h
    · next heq =>
      obtain rfl := Option.some.inj h
      simp [heq]
    · exact List.mem_cons_of_mem _ (ih h)

/-- Of two names neither of which is below the other, each is the other. -/
theorem name_lt_of_not_lt {a b : String} (h : ¬a < b) (hne : a ≠ b) :
  b < a
  := by
  apply Decidable.byContradiction
  intro h'
  exact hne (String.le_antisymm h' h)

theorem ascending_insert (name : String) (value : α) {entries : List (String × α)}
    (h : Ascending entries) :
  Ascending (insert name value entries)
  := by
  induction entries with
  | nil => simp [insert, Ascending]
  | cons entry rest ih =>
    obtain ⟨key, old⟩ := entry
    have ⟨hhead, hrest⟩ := List.pairwise_cons.1 h
    rw [insert]
    split
    · next hlt =>
      refine List.pairwise_cons.2 ⟨fun entry hmem => ?_, h⟩
      rcases List.mem_cons.1 hmem with rfl | hmem
      · exact hlt
      · exact String.lt_trans hlt (hhead entry hmem)
    · next hlt =>
      split
      · next heq =>
        subst heq
        exact List.pairwise_cons.2 ⟨hhead, hrest⟩
      · next hne =>
        refine List.pairwise_cons.2 ⟨fun entry hmem => ?_, ih hrest⟩
        rcases mem_names_insert hmem with rfl | hmem
        · exact name_lt_of_not_lt hlt hne
        · exact hhead entry hmem

theorem ascending_insertNew (name : String) (value : α) {entries : List (String × α)}
    (h : Ascending entries) :
  Ascending (insertNew name value entries)
  := by
  rw [insertNew]
  split
  · exact h
  · exact ascending_insert name value h

theorem ascending_ofList (entries : List (String × α)) :
  Ascending (ofList entries)
  := by
  induction entries with
  | nil => exact List.Pairwise.nil
  | cons entry rest ih => exact ascending_insertNew _ _ ih

/-- A name below all the names of a list has no value there. -/
theorem find?_eq_none_of_lt {name : String} {entries : List (String × α)}
    (h : ∀ entry ∈ entries, name < entry.1) :
  find? name entries = none
  := by
  induction entries with
  | nil => rfl
  | cons entry rest ih =>
    obtain ⟨key, value⟩ := entry
    have hlt : name < key := h (key, value) List.mem_cons_self
    have hne : name ≠ key := fun heq => String.lt_irrefl key (heq ▸ hlt)
    rw [find?, if_neg hne]
    exact ih fun entry hmem => h entry (List.mem_cons_of_mem _ hmem)

/-- In a list with ascending names a name keeps the value that stands with it. -/
theorem find?_eq_some_of_mem {name : String} {value : α} {entries : List (String × α)}
    (h : Ascending entries) (hmem : (name, value) ∈ entries) :
  find? name entries = some value
  := by
  induction entries with
  | nil => simp at hmem
  | cons entry rest ih =>
    obtain ⟨key, other⟩ := entry
    obtain ⟨hhead, hrest⟩ := List.pairwise_cons.1 h
    rcases List.mem_cons.1 hmem with heq | hmem
    · obtain ⟨rfl, rfl⟩ := Prod.mk.inj heq
      rw [find?, if_pos rfl]
    · have hlt : key < name := hhead (name, value) hmem
      have hne : name ≠ key := fun heq => String.lt_irrefl key (heq ▸ hlt)
      rw [find?, if_neg hne, ih hrest hmem]

theorem ofList_eq_self {entries : List (String × α)} (h : Ascending entries) :
  ofList entries = entries
  := by
  induction entries with
  | nil => rfl
  | cons entry rest ih =>
    obtain ⟨name, value⟩ := entry
    obtain ⟨hhead, hrest⟩ := List.pairwise_cons.1 h
    rw [ofList, ih hrest, insertNew, find?_eq_none_of_lt hhead]
    cases rest with
    | nil => rfl
    | cons next others => exact if_pos (hhead next List.mem_cons_self)

/-- Ascending lists that keep the same values are equal. -/
theorem eq_of_find?_eq {a b : List (String × α)} (ha : Ascending a) (hb : Ascending b)
    (h : ∀ name, find? name a = find? name b) :
  a = b
  := by
  induction a generalizing b with
  | nil =>
    cases b with
    | nil => rfl
    | cons entry rest => simpa [find?] using h entry.1
  | cons entry rest ih =>
    obtain ⟨key, value⟩ := entry
    obtain ⟨hhead, hrest⟩ := List.pairwise_cons.1 ha
    cases b with
    | nil => simpa [find?] using h key
    | cons entry' rest' =>
      obtain ⟨key', value'⟩ := entry'
      obtain ⟨hhead', hrest'⟩ := List.pairwise_cons.1 hb
      have hkey : key = key' := by
        apply Decidable.byContradiction
        intro hne
        by_cases hlt : key < key'
        · have := h key
          rw [find?, if_pos rfl, find?, if_neg hne, find?_eq_none_of_lt fun entry hmem =>
            String.lt_trans hlt (hhead' entry hmem)] at this
          cases this
        · have hlt' := name_lt_of_not_lt hlt hne
          have := h key'
          rw [find?, if_neg (Ne.symm hne), find?_eq_none_of_lt fun entry hmem =>
            String.lt_trans hlt' (hhead entry hmem), find?, if_pos rfl] at this
          cases this
      subst hkey
      have hvalue : value = value' := by simpa [find?] using h key
      subst hvalue
      congr 1
      apply ih hrest hrest'
      intro name
      by_cases hname : name = key
      · subst hname
        rw [find?_eq_none_of_lt hhead, find?_eq_none_of_lt hhead']
      · simpa [find?, hname] using h name

end FilteredSearch.Keyed
