/-!
# Computations that may fail

A computation made of two parts gives what its second part gives, and fails where one of them
does. A list is read element by element; where each reading can be undone, so can that of the
list.
-/

namespace FlameFold

variable {ε α β : Type} {result : β}

/-- A computation gives something exactly if its first part does, and its second part from there. -/
theorem bind_ok_iff {first : Except ε α} {next : α → Except ε β} :
    (first >>= next) = .ok result ↔ ∃ middle, first = .ok middle ∧ next middle = .ok result := by
  cases first <;> simp [bind, Except.bind]

/-- A computation that comes to an end well has a first part that does, and a second. -/
theorem ok_of_bind {first : Except ε α} {next : α → Except ε β}
    (h : (first >>= next) = .ok result) :
    ∃ middle, first = .ok middle ∧ next middle = .ok result :=
  bind_ok_iff.mp h

/-- A computation that fails does so in its first part or in its second. -/
theorem error_of_bind {first : Except ε α} {next : α → Except ε β} {fault : ε}
    (h : (first >>= next) = .error fault) :
    first = .error fault ∨ ∃ middle, first = .ok middle ∧ next middle = .error fault := by
  cases first with
  | error found =>
    cases h
    exact .inl rfl
  | ok middle => exact .inr ⟨middle, rfl, h⟩

/-- What is made of the result of a computation is made of one. -/
theorem ok_of_map {first : Except ε α} {make : α → β} (h : first.map make = .ok result) :
    ∃ middle, first = .ok middle ∧ make middle = result := by
  cases first with
  | error fault => cases h
  | ok middle => exact ⟨middle, rfl, Except.ok.inj h⟩

variable {read : α → Except ε β} {origin : β → α}

/-- A list is read as another one exactly if each element is what its reading comes from. -/
theorem mapM_ok_iff (h : ∀ x y, read x = .ok y ↔ x = origin y) {list : List α}
    {values : List β} : list.mapM read = .ok values ↔ list = values.map origin := by
  induction list generalizing values with
  | nil =>
    cases values with
    | nil => simp [pure, Except.pure]
    | cons value rest => simp [pure, Except.pure]
  | cons x rest ih =>
    simp only [List.mapM_cons, bind_ok_iff, h]
    cases values with
    | nil => simp [pure, Except.pure]
    | cons value more => simp [pure, Except.pure, ih]

/-- So is what may be missing. -/
theorem optionMapM_ok_iff (h : ∀ x y, read x = .ok y ↔ x = origin y) {given : Option α}
    {value : Option β} : given.mapM read = .ok value ↔ given = value.map origin := by
  cases given with
  | none => cases value <;> simp [pure, Except.pure]
  | some x =>
    have hread : (some x).mapM read = read x >>= fun y => .ok (some y) := by
      simp only [Option.mapM_some]
      cases read x <;> rfl
    simp only [hread, bind_ok_iff, h]
    cases value <;> simp

end FlameFold
