import Mathlib.Data.List.Forall2

/-!
# Results in order

A list of computations that may fail, taken in order, gives the list of their results if none of
them fails, and otherwise fails as the first one that fails.
-/

namespace FilteredSearch.Results

variable {α β ε : Type} {f : α → Except ε β} {items : List α}

@[simp]
theorem ofExcept_eq (x : Except ε α) :
  (MonadExcept.ofExcept x : Except ε α) = x
  := by
  cases x <;> rfl

@[simp]
theorem map_eq_ok_iff {x : Except ε α} {g : α → β} {result : β} :
  x.map g = .ok result ↔ ∃ value, x = .ok value ∧ result = g value
  := by
  cases x <;> simp [Except.map, eq_comm]

@[simp]
theorem map_eq_error_iff {x : Except ε α} {g : α → β} {error : ε} :
  x.map g = .error error ↔ x = .error error
  := by
  cases x <;> simp [Except.map]

theorem toOption_eq_some_iff {x : Except ε α} {value : α} :
  x.toOption = some value ↔ x = .ok value
  := by
  cases x <;> simp [Except.toOption]

theorem bind_eq_ok_iff {x : Except ε α} {g : α → Except ε β} {result : β} :
  (x >>= g) = .ok result ↔ ∃ value, x = .ok value ∧ g value = .ok result
  := by
  cases x <;> simp [bind, Except.bind]

/-- All computations give results exactly when each of them gives its own. -/
theorem mapM_eq_ok_iff {results : List β} :
  items.mapM f = .ok results ↔ List.Forall₂ (fun item result => f item = .ok result) items results
  := by
  induction items generalizing results with
  | nil => cases results <;> simp [pure, Except.pure]
  | cons item items ih =>
    rw [List.mapM_cons]
    cases hitem : f item with
    | error error => cases results <;> simp [bind, Except.bind, hitem]
    | ok result =>
      cases hitems : items.mapM f with
      | error error => cases results <;> simp [bind, Except.bind, hitem, hitems, ← ih]
      | ok rest =>
        cases results <;> simp [bind, Except.bind, pure, Except.pure, hitem, hitems, ← ih]

/-- Every result is that of one of the computations. -/
theorem exists_of_mem_mapM {results : List β} {result : β} (h : items.mapM f = .ok results)
    (hresult : result ∈ results) :
  ∃ item ∈ items, f item = .ok result
  := by
  rw [mapM_eq_ok_iff] at h
  induction h with
  | nil => cases hresult
  | @cons item first items results hitem _ ih =>
    rcases List.mem_cons.mp hresult with rfl | hresult
    · exact ⟨item, List.mem_cons_self, hitem⟩
    · obtain ⟨other, hother, hcomposed⟩ := ih hresult
      exact ⟨other, List.mem_cons_of_mem _ hother, hcomposed⟩

/-- The computations fail exactly when one of them fails after all before it gave results, and
they fail as that one does. -/
theorem mapM_eq_error_iff {error : ε} :
  items.mapM f = .error error
    ↔ ∃ before item after, items = before ++ item :: after
      ∧ (∀ earlier ∈ before, ∃ result, f earlier = .ok result) ∧ f item = .error error
  := by
  induction items with
  | nil => simp [pure, Except.pure]
  | cons item items ih =>
    rw [List.mapM_cons]
    cases hitem : f item with
    | error error' =>
      constructor
      · intro h
        simp only [bind, Except.bind, Except.error.injEq] at h
        exact ⟨[], item, items, rfl, by simp, h ▸ hitem⟩
      · rintro ⟨before, found, after, hsplit, hbefore, hfound⟩
        cases before with
        | nil =>
          obtain ⟨rfl, rfl⟩ : item = found ∧ items = after := by simpa using hsplit
          rw [hitem] at hfound
          simp [bind, Except.bind, Except.error.inj hfound]
        | cons first before =>
          obtain ⟨rfl, rfl⟩ : item = first ∧ items = before ++ found :: after := by
            simpa using hsplit
          simpa [hitem] using hbefore item
    | ok result =>
      have hbind : ((Except.ok result : Except ε β) >>= fun first => do
          let rest ← items.mapM f
          pure (first :: rest)) = .error error ↔ items.mapM f = .error error := by
        cases items.mapM f <;> simp [bind, Except.bind, pure, Except.pure]
      rw [hbind, ih]
      constructor
      · rintro ⟨before, found, after, rfl, hbefore, hfound⟩
        refine ⟨item :: before, found, after, rfl, ?_, hfound⟩
        intro earlier hearlier
        rcases List.mem_cons.mp hearlier with rfl | hearlier
        · exact ⟨result, hitem⟩
        · apply hbefore earlier hearlier
      · rintro ⟨before, found, after, hsplit, hbefore, hfound⟩
        cases before with
        | nil =>
          obtain ⟨rfl, rfl⟩ : item = found ∧ items = after := by simpa using hsplit
          simp [hitem] at hfound
        | cons first before =>
          obtain ⟨rfl, rfl⟩ : item = first ∧ items = before ++ found :: after := by
            simpa using hsplit
          exact ⟨before, found, after, rfl,
            fun earlier hearlier => hbefore earlier (List.mem_cons_of_mem _ hearlier), hfound⟩

/-- Computations that agree on the items give the same results. -/
theorem mapM_congr {m : Type → Type} [Monad m] [LawfulMonad m] {f g : α → m β}
    (h : ∀ item ∈ items, f item = g item) :
  items.mapM f = items.mapM g
  := by
  induction items with
  | nil => rfl
  | cons item items ih =>
    rw [List.mapM_cons, List.mapM_cons, h item List.mem_cons_self,
      ih fun other hother => h other (List.mem_cons_of_mem _ hother)]

/-- All computations give results exactly when none of them fails. -/
theorem exists_mapM_eq_ok_iff :
  (∃ results, items.mapM f = .ok results) ↔ ∀ item ∈ items, ∃ result, f item = .ok result
  := by
  induction items with
  | nil => simp [pure, Except.pure]
  | cons item items ih =>
    simp only [List.mapM_cons, List.forall_mem_cons, ← ih]
    cases hitem : f item with
    | error error => simp [bind, Except.bind]
    | ok result =>
      cases hitems : items.mapM f with
      | error error => simp [bind, Except.bind]
      | ok results => simp [bind, Except.bind, pure, Except.pure]

/-! ### The first of the errors -/

/-- The error of a computation, if it fails. -/
def error? : Except ε α → Option ε
  | .ok _ => none
  | .error error => some error

/-- The errors of a computation: its error, if it fails. -/
def errors (x : Except ε α) : List ε := (error? x).toList

variable {x : Except ε α} {first rest : List ε}

theorem error?_eq_some_iff {error : ε} :
  error? x = some error ↔ x = .error error
  := by
  cases x <;> simp [error?]

theorem error?_eq_none_iff :
  error? x = none ↔ ∃ value, x = .ok value
  := by
  cases x <;> simp [error?]

theorem errors_eq_nil_iff :
  errors x = [] ↔ ∃ value, x = .ok value
  := by
  rw [errors, Option.toList_eq_nil_iff, error?_eq_none_iff]

theorem mem_errors_iff {error : ε} :
  error ∈ errors x ↔ x = .error error
  := by
  rw [errors, Option.mem_toList, error?_eq_some_iff]

theorem error?_map {g : α → β} :
  error? (x.map g) = error? x
  := by
  cases x <;> rfl

theorem error?_eq_head?_errors :
  error? x = (errors x).head?
  := by
  cases x <;> rfl

/-- Of the errors of two computations, one after the other, the first counts. -/
theorem error?_bind {g : α → Except ε β} (hx : error? x = first.head?)
    (hg : ∀ value, x = .ok value → error? (g value) = rest.head?) :
  error? (x >>= g) = (first ++ rest).head?
  := by
  cases x with
  | error error =>
    rw [List.head?_append, ← hx]
    rfl
  | ok value =>
    rw [List.head?_append, ← hx, ← hg value rfl]
    rfl

/-- Of the errors of computations in order, the first counts. -/
theorem error?_mapM :
  error? (items.mapM f) = (items.flatMap fun item => errors (f item)).head?
  := by
  induction items with
  | nil => rfl
  | cons item items ih =>
    rw [List.mapM_cons, List.flatMap_cons]
    apply error?_bind error?_eq_head?_errors
    intro value _
    rw [← ih]
    cases items.mapM f <;> rfl

end FilteredSearch.Results
