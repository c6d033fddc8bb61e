import Mathlib.Data.List.Forall2
import FieldWiring.Logged

/-!
# Traversals up to the first failure

Fields and requests are both served by `Logged.traverse`, which stops at the first
failure.  This module says once what such a traversal yields, so that nothing later
opens its recursion: every value if no step fails, the fault of the first failing step
otherwise, and in both cases the events of exactly the steps that were taken.
-/

namespace FieldWiring

/-! ## Lists side by side -/

section Forall₂

variable {α β γ : Type} {related : α → β → Prop} {lefts : List α} {rights : List β}

/-- Of two related lists, every member of the second stands for one of the first. -/
theorem exists_related_of_mem (hrelated : List.Forall₂ related lefts rights) {right : β}
    (hmem : right ∈ rights) : ∃ left ∈ lefts, related left right := by
  induction hrelated with
  | nil => cases hmem
  | cons hhead _ ih =>
      rcases List.mem_cons.mp hmem with rfl | hlater
      · exact ⟨_, List.mem_cons_self, hhead⟩
      · obtain ⟨left, hleft, hrest⟩ := ih hlater
        exact ⟨left, List.mem_cons_of_mem _ hleft, hrest⟩

/-- What holds of all elements on one side holds of all on the other. -/
theorem forall_mem_iff_of_forall₂ {leftHolds : α → Prop} {rightHolds : β → Prop}
    (hrelated : List.Forall₂ related lefts rights)
    (hiff : ∀ left right, related left right → (leftHolds left ↔ rightHolds right)) :
    (∀ left ∈ lefts, leftHolds left) ↔ ∀ right ∈ rights, rightHolds right := by
  induction hrelated with
  | nil => simp
  | cons hhead _ ih => rw [List.forall_mem_cons, List.forall_mem_cons, hiff _ _ hhead, ih]

/-- Values that fit one side fit the other. -/
theorem forall₂_iff_of_forall₂ {leftFits : α → γ → Prop} {rightFits : β → γ → Prop}
    (hrelated : List.Forall₂ related lefts rights)
    (hiff : ∀ left right, related left right → ∀ value, leftFits left value ↔ rightFits right value)
    (values : List γ) :
    List.Forall₂ leftFits lefts values ↔ List.Forall₂ rightFits rights values := by
  induction hrelated generalizing values with
  | nil => cases values <;> simp
  | cons hhead _ ih =>
      cases values with
      | nil => simp
      | cons value values => rw [List.forall₂_cons, List.forall₂_cons, hiff _ _ hhead, ih]

/-- What is joined from related elements stands for the first of them if every join does. -/
theorem forall₂_zipWith {joined : α → γ → Prop} {join : α → β → γ}
    (hrelated : List.Forall₂ related lefts rights)
    (hjoin : ∀ left right, related left right → joined left (join left right)) :
    List.Forall₂ joined lefts (List.zipWith join lefts rights) := by
  induction hrelated with
  | nil => exact .nil
  | cons hhead _ ih => exact .cons (hjoin _ _ hhead) ih

end Forall₂

/-! ## Where a list stops -/

variable {α β : Type}

/-- The elements up to and including the first one that `stops`; all of them when none
does. -/
def throughFirst (stops : α → Bool) (elements : List α) : List α :=
  elements.takeWhile (fun element => !stops element) ++ (elements.find? stops).toList

@[simp]
theorem throughFirst_nil (stops : α → Bool) : throughFirst stops [] = [] := rfl

theorem throughFirst_cons_of_stops {stops : α → Bool} {head : α} (hstops : stops head = true)
    (tail : List α) : throughFirst stops (head :: tail) = [head] := by
  simp [throughFirst, hstops]

theorem throughFirst_cons_of_not_stops {stops : α → Bool} {head : α}
    (hstops : stops head = false) (tail : List α) :
    throughFirst stops (head :: tail) = head :: throughFirst stops tail := by
  simp [throughFirst, hstops]

/-- Nothing is left out when nothing stops. -/
theorem throughFirst_eq_self {stops : α → Bool} {elements : List α}
    (hfree : ∀ element ∈ elements, stops element = false) :
    throughFirst stops elements = elements := by
  induction elements with
  | nil => rfl
  | cons head tail ih =>
      obtain ⟨hhead, htail⟩ := List.forall_mem_cons.mp hfree
      rw [throughFirst_cons_of_not_stops hhead, ih htail]

/-- Only what follows the first stop is left out. -/
theorem throughFirst_append_cons {stops : α → Bool} {front : List α} {stop : α}
    (hfront : ∀ element ∈ front, stops element = false) (hstop : stops stop = true)
    (back : List α) : throughFirst stops (front ++ stop :: back) = front ++ [stop] := by
  induction front with
  | nil => exact throughFirst_cons_of_stops hstop back
  | cons head tail ih =>
      obtain ⟨hhead, htail⟩ := List.forall_mem_cons.mp hfront
      rw [List.cons_append, throughFirst_cons_of_not_stops hhead, ih htail, List.cons_append]

theorem mem_of_mem_throughFirst {stops : α → Bool} {elements : List α} {element : α}
    (hmem : element ∈ throughFirst stops elements) : element ∈ elements := by
  cases List.mem_append.mp hmem with
  | inl hbefore => exact (List.takeWhile_sublist _).subset hbefore
  | inr hfirst => exact List.mem_of_find?_eq_some (Option.mem_toList.mp hfirst)

/-- What is left stops nowhere but at its end. -/
theorem find?_of_mem_throughFirst {stops : α → Bool} {elements : List α} {element : α}
    (hmem : element ∈ throughFirst stops elements) (hstops : stops element = true) :
    elements.find? stops = some element := by
  cases List.mem_append.mp hmem with
  | inl hbefore =>
      have hpasses := List.all_eq_true.mp List.all_takeWhile element hbefore
      rw [hstops] at hpasses
      cases hpasses
  | inr hfirst => exact Option.mem_toList.mp hfirst

/-! ## Computations -/

namespace Logged

variable {ε ε' : Type}

/-- A computation is its events beside its result. -/
theorem eq_of_result_eq {computation : Logged ε α} {result : Except ε α}
    (hresult : computation.result = result) : computation = ⟨computation.events, result⟩ := by
  rw [← hresult]

/-- What follows a computation succeeds exactly on a value of that computation. -/
theorem bind_eq_ok_iff {first : Logged ε α} {next : α → Logged ε β} {value : β} :
    (first >>= next).result = .ok value ↔
      ∃ middle, first.result = .ok middle ∧ (next middle).result = .ok value := by
  obtain ⟨events, result⟩ := first
  cases result with
  | error fault => simp
  | ok middle => simp

/-- A computation fails in its first part or, if that succeeds, in its second. -/
theorem bind_eq_error_iff {first : Logged ε α} {next : α → Logged ε β} {fault : ε} :
    (first >>= next).result = .error fault ↔
      first.result = .error fault ∨
        ∃ middle, first.result = .ok middle ∧ (next middle).result = .error fault := by
  obtain ⟨events, result⟩ := first
  cases result with
  | error found => simp
  | ok middle => simp

theorem bind_events_of_ok {first : Logged ε α} {next : α → Logged ε β} {middle : α}
    (hfirst : first.result = .ok middle) :
    (first >>= next).events = first.events ++ (next middle).events := by
  rw [eq_of_result_eq hfirst, bind_ok]

theorem bind_events_of_error {first : Logged ε α} {next : α → Logged ε β} {fault : ε}
    (hfirst : first.result = .error fault) : (first >>= next).events = first.events := by
  rw [eq_of_result_eq hfirst, bind_error]

theorem mapError_eq_ok_iff {restate : ε → ε'} {computation : Logged ε α} {value : α} :
    (computation.mapError restate).result = .ok value ↔ computation.result = .ok value := by
  cases hresult : computation.result with
  | ok found => simp [mapError, hresult, Except.mapError]
  | error fault => simp [mapError, hresult, Except.mapError]

/-- A restated failure was a failure before. -/
theorem mapError_eq_error_iff {restate : ε → ε'} {computation : Logged ε α} {restated : ε'} :
    (computation.mapError restate).result = .error restated ↔
      ∃ fault, computation.result = .error fault ∧ restate fault = restated := by
  cases hresult : computation.result with
  | ok found => simp [mapError, hresult, Except.mapError]
  | error fault => simp [mapError, hresult, Except.mapError]

variable {step : α → Logged ε β}

/-- Whether the step on this element ends in a failure. -/
def failsOn (step : α → Logged ε β) (element : α) : Bool :=
  match (step element).result with
  | .ok _ => false
  | .error _ => true

theorem failsOn_eq_true_iff {element : α} :
    failsOn step element = true ↔ ∃ fault, (step element).result = .error fault := by
  cases hresult : (step element).result with
  | ok value => simp [failsOn, hresult]
  | error fault => simp [failsOn, hresult]

theorem failsOn_eq_false_iff {element : α} :
    failsOn step element = false ↔ ∃ value, (step element).result = .ok value := by
  cases hresult : (step element).result with
  | ok value => simp [failsOn, hresult]
  | error fault => simp [failsOn, hresult]

/-- A traversal succeeds with one value for each element, in order, and only if every
step does. -/
theorem traverse_eq_ok_iff {elements : List α} {values : List β} :
    (traverse step elements).result = .ok values ↔
      List.Forall₂ (fun element value => (step element).result = .ok value)
        elements values := by
  induction elements generalizing values with
  | nil => cases values <;> simp [traverse_nil]
  | cons head tail ih =>
      cases hhead : (step head).result with
      | error fault =>
          rw [traverse_cons_error (eq_of_result_eq hhead)]
          cases values <;> simp [hhead]
      | ok value =>
          rw [traverse_cons_ok (eq_of_result_eq hhead)]
          cases htail : (traverse step tail).result with
          | error fault => cases values <;> simp [Except.map, hhead, ← ih, htail]
          | ok others => cases values <;> simp [Except.map, hhead, ← ih, htail]

/-- A traversal fails with the fault of the first step that fails. -/
theorem traverse_eq_error_iff {elements : List α} {fault : ε} :
    (traverse step elements).result = .error fault ↔
      ∃ element, elements.find? (failsOn step) = some element ∧
        (step element).result = .error fault := by
  induction elements with
  | nil => simp [traverse_nil]
  | cons head tail ih =>
      cases hhead : (step head).result with
      | error first =>
          have hfails := failsOn_eq_true_iff.mpr ⟨first, hhead⟩
          rw [traverse_cons_error (eq_of_result_eq hhead), List.find?_cons_of_pos hfails]
          simp [hhead]
      | ok value =>
          have hpasses := failsOn_eq_false_iff.mpr ⟨value, hhead⟩
          rw [traverse_cons_ok (eq_of_result_eq hhead),
            List.find?_cons_of_neg (Bool.eq_false_iff.mp hpasses), ← ih]
          cases (traverse step tail).result <;> simp [Except.map]

/-- The first element on which the step fails stands behind elements on which it succeeds. -/
theorem find?_failsOn_eq_some_iff {elements : List α} {element : α} :
    elements.find? (failsOn step) = some element ↔
      ∃ front back, elements = front ++ element :: back ∧
        (∀ earlier ∈ front, ∃ value, (step earlier).result = .ok value) ∧
        ∃ fault, (step element).result = .error fault := by
  rw [List.find?_eq_some_iff_append, failsOn_eq_true_iff]
  simp only [Bool.not_eq_true', failsOn_eq_false_iff]
  constructor
  · intro h
    obtain ⟨hfault, front, back, hsplit, hfront⟩ := h
    exact ⟨front, back, hsplit, hfront, hfault⟩
  · intro h
    obtain ⟨front, back, hsplit, hfront, hfault⟩ := h
    exact ⟨hfault, front, back, hsplit, hfront⟩

theorem traverse_succeeds_iff {elements : List α} :
    (∃ values, (traverse step elements).result = .ok values) ↔
      ∀ element ∈ elements, ∃ value, (step element).result = .ok value := by
  constructor
  · intro h
    obtain ⟨values, hvalues⟩ := h
    have hpairs := traverse_eq_ok_iff.mp hvalues
    clear hvalues
    induction hpairs with
    | nil => simp
    | cons hhead _ ih =>
        rw [List.forall_mem_cons]
        exact ⟨⟨_, hhead⟩, ih⟩
  · intro hall
    cases hresult : (traverse step elements).result with
    | ok values => exact ⟨values, rfl⟩
    | error fault =>
        obtain ⟨element, hfirst, hfault⟩ := traverse_eq_error_iff.mp hresult
        obtain ⟨value, hvalue⟩ := hall element (List.mem_of_find?_eq_some hfirst)
        rw [hvalue] at hfault
        cases hfault

/-- The events of a traversal are those of the steps up to and including the first one
that fails. -/
theorem traverse_events (elements : List α) :
    (traverse step elements).events =
      (throughFirst (failsOn step) elements).flatMap fun element => (step element).events := by
  induction elements with
  | nil => rfl
  | cons head tail ih =>
      cases hhead : (step head).result with
      | error fault =>
          have hfails := failsOn_eq_true_iff.mpr ⟨fault, hhead⟩
          rw [traverse_cons_error (eq_of_result_eq hhead), throughFirst_cons_of_stops hfails,
            List.flatMap_singleton]
      | ok value =>
          have hpasses := failsOn_eq_false_iff.mpr ⟨value, hhead⟩
          rw [traverse_cons_ok (eq_of_result_eq hhead), throughFirst_cons_of_not_stops hpasses,
            List.flatMap_cons, ih]

/-- A traversal depends on no step behind the first that fails. -/
theorem traverse_eq_of_throughFirst {other : α → Logged ε β} {elements : List α}
    (hsame : ∀ element ∈ throughFirst (failsOn step) elements, step element = other element) :
    traverse step elements = traverse other elements := by
  induction elements with
  | nil => rfl
  | cons head tail ih =>
      cases hhead : (step head).result with
      | error fault =>
          have hfails := failsOn_eq_true_iff.mpr ⟨fault, hhead⟩
          rw [throughFirst_cons_of_stops hfails, List.forall_mem_singleton] at hsame
          rw [traverse, traverse, ← hsame, eq_of_result_eq hhead, bind_error, bind_error]
      | ok value =>
          have hpasses := failsOn_eq_false_iff.mpr ⟨value, hhead⟩
          rw [throughFirst_cons_of_not_stops hpasses, List.forall_mem_cons] at hsame
          rw [traverse, traverse, ← hsame.1, ih hsame.2]

/-! ## Traversals without events -/

/-- The step as a computation that reports nothing. -/
def silent (step : α → Except ε β) (element : α) : Logged ε β := ofExcept (step element)

theorem result_traverse_silent (step : α → Except ε β) (elements : List α) :
    (traverse (silent step) elements).result = elements.mapM step := by
  induction elements with
  | nil => rfl
  | cons head tail ih =>
      rw [List.mapM_cons]
      cases hhead : step head with
      | error fault =>
          have hsilent : silent step head = ⟨[], .error fault⟩ := by
            rw [silent, hhead, ofExcept]
          rw [traverse_cons_error hsilent]
          rfl
      | ok value =>
          have hsilent : silent step head = ⟨[], .ok value⟩ := by
            rw [silent, hhead, ofExcept]
          rw [traverse_cons_ok hsilent, ih]
          cases tail.mapM step <;> rfl

/-- A traversal without events yields the values of its steps. -/
theorem mapM_eq_ok_iff {step : α → Except ε β} {elements : List α} {values : List β} :
    elements.mapM step = .ok values ↔
      List.Forall₂ (fun element value => step element = .ok value) elements values := by
  rw [← result_traverse_silent, traverse_eq_ok_iff]
  rfl

theorem mapM_succeeds_iff {step : α → Except ε β} {elements : List α} :
    (∃ values, elements.mapM step = .ok values) ↔
      ∀ element ∈ elements, ∃ value, step element = .ok value := by
  rw [← result_traverse_silent, traverse_succeeds_iff]
  rfl

theorem mapM_eq_error_iff {step : α → Except ε β} {elements : List α} {fault : ε} :
    elements.mapM step = .error fault ↔
      ∃ front element back, elements = front ++ element :: back ∧
        (∀ earlier ∈ front, ∃ value, step earlier = .ok value) ∧ step element = .error fault := by
  rw [← result_traverse_silent, traverse_eq_error_iff]
  constructor
  · intro h
    obtain ⟨element, hfirst, hfault⟩ := h
    obtain ⟨front, back, hsplit, hfront, -⟩ := find?_failsOn_eq_some_iff.mp hfirst
    exact ⟨front, element, back, hsplit, hfront, hfault⟩
  · intro h
    obtain ⟨front, element, back, hsplit, hfront, hfault⟩ := h
    refine ⟨element, ?_, hfault⟩
    exact find?_failsOn_eq_some_iff.mpr ⟨front, back, hsplit, hfront, fault, hfault⟩

end Logged

end FieldWiring
