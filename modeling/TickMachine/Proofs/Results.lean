/-! # Results that may be errors

What has been found on the way to a result: a computation of several steps, or over the elements of
a list, succeeds when each of its steps does. -/

namespace TickMachine

section

variable {α β ε : Type}

/-! ## Steps -/

theorem map_ok {f : α → β} {attempt : Except ε α} {result : β} (h : attempt.map f = .ok result) :
    ∃ found, attempt = .ok found ∧ f found = result := by
  cases attempt with
  | error error => cases h
  | ok found =>
    cases h
    exact ⟨found, rfl, rfl⟩

theorem bind_ok {attempt : Except ε α} {f : α → Except ε β} {result : β}
    (h : attempt >>= f = .ok result) : ∃ found, attempt = .ok found ∧ f found = .ok result := by
  cases attempt with
  | error error => cases h
  | ok found => exact ⟨found, rfl, h⟩

theorem bind_error {attempt : Except ε α} {f : α → Except ε β} {error : ε}
    (h : attempt >>= f = .error error) :
    attempt = .error error ∨ ∃ found, attempt = .ok found ∧ f found = .error error := by
  cases attempt with
  | error found =>
    cases h
    exact .inl rfl
  | ok found => exact .inr ⟨found, rfl, h⟩

/-! ## Lists -/

theorem mapM_cons_ok {f : α → Except ε β} {first : α} {others : List α} {found : List β}
    (h : (first :: others).mapM f = .ok found) :
    ∃ result results, f first = .ok result ∧ others.mapM f = .ok results ∧
      found = result :: results := by
  rw [List.mapM_cons] at h
  obtain ⟨result, read, h⟩ := bind_ok h
  obtain ⟨results, readOthers, h⟩ := bind_ok h
  cases h
  exact ⟨result, results, read, readOthers, rfl⟩

theorem mapM_append_ok {f : α → Except ε β} {left right : List α} {found : List β}
    (h : (left ++ right).mapM f = .ok found) :
    ∃ front back, left.mapM f = .ok front ∧ right.mapM f = .ok back ∧ found = front ++ back := by
  rw [List.mapM_append] at h
  obtain ⟨front, readFront, h⟩ := bind_ok h
  obtain ⟨back, readBack, h⟩ := bind_ok h
  cases h
  exact ⟨front, back, readFront, readBack, rfl⟩

theorem length_of_mapM {f : α → Except ε β} {list : List α} {found : List β}
    (h : list.mapM f = .ok found) : found.length = list.length := by
  induction list generalizing found with
  | nil =>
    cases h
    rfl
  | cons first others ih =>
    obtain ⟨result, results, -, readOthers, rfl⟩ := mapM_cons_ok h
    rw [List.length_cons, List.length_cons, ih readOthers]

/-- A sequence has results when each of its elements has one. -/
theorem mapM_total {f : α → Except ε β} {list : List α}
    (h : ∀ element ∈ list, ∃ result, f element = .ok result) :
    ∃ results, list.mapM f = .ok results := by
  induction list with
  | nil => exact ⟨[], rfl⟩
  | cons first others ih =>
    obtain ⟨result, read⟩ := h first List.mem_cons_self
    obtain ⟨results, readOthers⟩ := ih fun other member => h other (List.mem_cons_of_mem _ member)
    refine ⟨result :: results, ?_⟩
    rw [List.mapM_cons, read, readOthers]
    rfl

/-- A sequence keeps its results where each of its elements does. -/
theorem mapM_ok_of_imp {f g : α → Except ε β} {list : List α} {found : List β}
    (kept : ∀ element ∈ list, ∀ {result}, f element = .ok result → g element = .ok result)
    (h : list.mapM f = .ok found) : list.mapM g = .ok found := by
  induction list generalizing found with
  | nil => exact h
  | cons first others ih =>
    obtain ⟨result, results, read, readOthers, rfl⟩ := mapM_cons_ok h
    have again := ih (fun other member => kept other (List.mem_cons_of_mem _ member)) readOthers
    rw [List.mapM_cons, kept first List.mem_cons_self read, again]
    rfl

theorem mapM_eq_map {f : α → Except ε β} {g : α → β} {list : List α}
    (h : ∀ element ∈ list, f element = .ok (g element)) : list.mapM f = .ok (list.map g) := by
  induction list with
  | nil => rfl
  | cons first others ih =>
    rw [List.mapM_cons, h first List.mem_cons_self,
      ih fun other member => h other (List.mem_cons_of_mem _ member)]
    rfl

theorem source_of_mem_mapM {f : α → Except ε β} {list : List α} {found : List β}
    (h : list.mapM f = .ok found) {result : β} (member : result ∈ found) :
    ∃ element ∈ list, f element = .ok result := by
  induction list generalizing found with
  | nil =>
    cases h
    exact absurd member List.not_mem_nil
  | cons first others ih =>
    obtain ⟨head, results, read, readOthers, rfl⟩ := mapM_cons_ok h
    rcases List.mem_cons.1 member with rfl | member
    · exact ⟨first, List.mem_cons_self, read⟩
    · obtain ⟨element, inside, found⟩ := ih readOthers member
      exact ⟨element, List.mem_cons_of_mem _ inside, found⟩

/-! ## The first error -/

/-- The error of a computation that fails. -/
def errorOf? : Except ε α → Option ε
  | .ok _ => none
  | .error error => some error

theorem errorOf?_eq_some_iff {attempt : Except ε α} {error : ε} :
    errorOf? attempt = some error ↔ attempt = .error error := by
  cases attempt <;> simp [errorOf?]

theorem errorOf?_eq_none_iff {attempt : Except ε α} :
    errorOf? attempt = none ↔ ∃ result, attempt = .ok result := by
  cases attempt <;> simp [errorOf?]

theorem errorOf?_map (f : α → β) (attempt : Except ε α) :
    errorOf? (attempt.map f) = errorOf? attempt := by
  cases attempt <;> rfl

/-- A list fails at the first element that fails. -/
theorem errorOf?_mapM (f : α → Except ε β) (list : List α) :
    errorOf? (list.mapM f) = list.findSome? fun element => errorOf? (f element) := by
  induction list with
  | nil => rfl
  | cons first others ih =>
    rw [List.mapM_cons, List.findSome?_cons, ← ih]
    cases f first with
    | error error => rfl
    | ok result => cases others.mapM f <;> rfl

theorem findSome?_flatMap (g : α → List β) (f : β → Option ε) (list : List α) :
    (list.flatMap g).findSome? f = list.findSome? fun element => (g element).findSome? f := by
  induction list with
  | nil => rfl
  | cons first others ih =>
    rw [List.flatMap_cons, List.findSome?_append, List.findSome?_cons, ih]
    cases (g first).findSome? f <;> rfl

/-! ## Results that may be missing -/

theorem eq_ok_of_toOption {attempt : Except ε α} {result : α} (h : attempt.toOption = some result) :
    attempt = .ok result := by
  cases attempt with
  | error error => cases h
  | ok found =>
    cases h
    rfl

theorem eq_error_of_toOption {attempt : Except ε α} (h : attempt.toOption = none) :
    ∃ error, attempt = .error error := by
  cases attempt with
  | error error => exact ⟨error, rfl⟩
  | ok found => cases h

theorem toOption_map (f : α → β) (attempt : Except ε α) :
    (attempt.map f).toOption = attempt.toOption.map f := by
  cases attempt <;> rfl

theorem toOption_bind (attempt : Except ε α) (f : α → Except ε β) :
    (attempt >>= f).toOption = attempt.toOption.bind fun found => (f found).toOption := by
  cases attempt <;> rfl

theorem mapM_cons_some {f : α → Option β} {first : α} {others : List α} {result : β}
    {results : List β} (read : f first = some result) (readOthers : others.mapM f = some results) :
    (first :: others).mapM f = some (result :: results) := by
  rw [List.mapM_cons, read, readOthers]
  rfl

/-- A list is read in its order where each of its elements is. -/
theorem mapM_map_some {γ : Type} {write : γ → α} {f : α → Option β} {g : γ → β}
    (each : ∀ element, f (write element) = some (g element)) (list : List γ) :
    (list.map write).mapM f = some (list.map g) := by
  induction list with
  | nil => rfl
  | cons element list ih => exact mapM_cons_some (each element) ih

/-- A list comes back where each of its elements does. -/
theorem mapM_map_back {γ : Type} {write : γ → α} {f : α → Option γ}
    (back : ∀ element, f (write element) = some element) (list : List γ) :
    (list.map write).mapM f = some list := by
  have read : (list.map write).mapM f = some (list.map id) := mapM_map_some back list
  rwa [List.map_id] at read

theorem mapM_cons_eq_some {f : α → Option β} {first : α} {others : List α} {found : List β}
    (h : (first :: others).mapM f = some found) :
    ∃ result results, f first = some result ∧ others.mapM f = some results ∧
      found = result :: results := by
  rw [List.mapM_cons] at h
  obtain ⟨result, read, h⟩ := Option.bind_eq_some_iff.1 h
  obtain ⟨results, readOthers, h⟩ := Option.bind_eq_some_iff.1 h
  cases h
  exact ⟨result, results, read, readOthers, rfl⟩

/-- Two sequences of steps are one sequence of both steps at each element. -/
theorem mapM_bind_mapM {γ : Type} (f : α → Option β) (g : β → Option γ) (list : List α) :
    ((list.mapM f).bind fun found => found.mapM g) = list.mapM fun element => (f element).bind g := by
  induction list with
  | nil => rfl
  | cons first others ih =>
    rw [List.mapM_cons, List.mapM_cons, ← ih]
    cases f first with
    | none => rfl
    | some result =>
      cases others.mapM f with
      | none => cases h : g result <;> simp [h]
      | some results => simp [List.mapM_cons]

theorem mapM_eq_none {f : α → Option β} {list : List α} {element : α} (member : element ∈ list)
    (fails : f element = none) : list.mapM f = none := by
  induction list with
  | nil => exact absurd member List.not_mem_nil
  | cons first others ih =>
    rw [List.mapM_cons]
    rcases List.mem_cons.1 member with rfl | member
    · rw [fails]
      rfl
    · rw [ih member]
      cases f first <;> rfl

end

end TickMachine
