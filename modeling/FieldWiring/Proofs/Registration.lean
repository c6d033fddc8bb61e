import Mathlib.Data.List.Nodup
import FieldWiring.Registry

/-!
# Registries and the log of attempts

A registry forgets the order in which components came, but not which one came first
under each name.  After any run of attempts, refused ones included, it answers like the
list of all attempts read from the front, and its listing is the sorted view of the
names in that list.
-/

namespace FieldWiring.Registry

variable {registry : Registry} {log : List Component}

/-- The component that was tried first under each name. -/
def firstOf (log : List Component) : Directory := fun name =>
  log.find? fun component => component.name == name

/-- Tries to add components in order, going on after refusals. -/
def attemptAll (registry : Registry) (attempts : List Component) : Registry :=
  attempts.foldl (fun reached component => (reached.attempt component).1) registry

theorem attemptAll_append_singleton (attempts : List Component) (component : Component) :
    registry.attemptAll (attempts ++ [component]) =
      ((registry.attemptAll attempts).attempt component).1 := by
  rw [attemptAll, List.foldl_append, List.foldl_cons, List.foldl_nil, attemptAll]

/-! ## One step -/

theorem firstOf_isSome_iff {name : String} :
    (firstOf log name).isSome ↔ ∃ earlier ∈ log, earlier.name = name := by
  simp [firstOf]

/-- A later component counts only under a name that none before it had. -/
theorem firstOf_append_singleton (component : Component) (name : String) :
    firstOf (log ++ [component]) name =
      (firstOf log name).or (if component.name = name then some component else none) := by
  rw [firstOf, List.find?_append]
  congr 1
  by_cases hname : component.name = name
  · simp [hname]
  · simp [hname]

/-- An attempt for a name that is taken is refused and changes nothing. -/
theorem attempt_of_taken {component : Component}
    (htaken : (registry.find? component.name).isSome) :
    registry.attempt component = (registry, some ⟨component.name⟩) := by
  rw [attempt, register_eq_error_iff.mpr ⟨htaken, rfl⟩]

theorem exists_register_eq_ok {component : Component}
    (hnew : registry.find? component.name = none) :
    ∃ extended, registry.register component = .ok extended := by
  cases hregister : registry.register component with
  | ok extended => exact ⟨extended, rfl⟩
  | error fault =>
      have htaken := (register_eq_error_iff.mp hregister).1
      rw [hnew] at htaken
      cases htaken

theorem attempt_of_register {component : Component} {extended : Registry}
    (hregister : registry.register component = .ok extended) :
    registry.attempt component = (extended, none) := by
  rw [attempt, hregister]

/-- One attempt, successful or not, extends the log by that attempt. -/
theorem find?_attempt (hlog : ∀ name, registry.find? name = firstOf log name)
    (component : Component) (name : String) :
    (registry.attempt component).1.find? name = firstOf (log ++ [component]) name := by
  rw [firstOf_append_singleton, ← hlog name]
  by_cases htaken : (registry.find? component.name).isSome
  · rw [attempt_of_taken htaken]
    by_cases hname : component.name = name
    · rw [hname] at htaken
      rw [Option.or_of_isSome htaken]
    · rw [if_neg hname, Option.or_none]
  · rw [Option.not_isSome_iff_eq_none] at htaken
    obtain ⟨extended, hregister⟩ := exists_register_eq_ok htaken
    rw [attempt_of_register hregister, find?_of_register_eq_ok hregister]
    by_cases hname : component.name = name
    · rw [← hname, htaken, if_pos rfl, Option.none_or]
    · rw [if_neg (Ne.symm hname), if_neg hname, Option.or_none]

/-! ## Whole runs -/

/-- After a run each name leads to the first component that was tried under it. -/
theorem find?_attemptAll (hlog : ∀ name, registry.find? name = firstOf log name)
    (attempts : List Component) (name : String) :
    (registry.attemptAll attempts).find? name = firstOf (log ++ attempts) name := by
  induction attempts generalizing registry log with
  | nil => rw [List.append_nil, ← hlog name, attemptAll, List.foldl_nil]
  | cons head tail ih =>
      have hrest := ih (find?_attempt hlog head)
      rw [List.append_assoc] at hrest
      exact hrest

/-- A run of attempts adds names, and what was there stays. -/
theorem find?_attemptAll_eq_or (registry : Registry) (attempts : List Component) (name : String) :
    (registry.attemptAll attempts).find? name =
      (registry.find? name).or (firstOf attempts name) := by
  have hlog : ∀ other, registry.find? other = firstOf registry.components other := by
    intro other
    rfl
  rw [find?_attemptAll hlog, firstOf, List.find?_append]
  rfl

/-- Every name that has been tried is known afterwards. -/
theorem find?_attemptAll_ne_none {attempts : List Component} {added : Component}
    (hadded : added ∈ attempts) : (registry.attemptAll attempts).find? added.name ≠ none := by
  rw [find?_attemptAll_eq_or, ← Option.isSome_iff_ne_none, Option.isSome_or,
    firstOf_isSome_iff.mpr ⟨added, hadded, rfl⟩, Bool.or_true]

/-- A name leads elsewhere after a run only if it was unknown and has been tried. -/
theorem exists_added_of_find?_ne {attempts : List Component} {name : String}
    (hne : (registry.attemptAll attempts).find? name ≠ registry.find? name) :
    registry.find? name = none ∧ ∃ added ∈ attempts, added.name = name := by
  rw [find?_attemptAll_eq_or] at hne
  cases hfound : registry.find? name with
  | some component =>
      rw [hfound, Option.some_or] at hne
      exact absurd rfl hne
  | none =>
      rw [hfound, Option.none_or] at hne
      exact ⟨rfl, firstOf_isSome_iff.mp (Option.isSome_iff_ne_none.mpr hne)⟩

/-- Registering in order is a run of attempts of which none is refused. -/
theorem attemptAll_of_foldlM {components : List Component} {reached : Registry}
    (hregister : components.foldlM register registry = .ok reached) :
    registry.attemptAll components = reached := by
  induction components generalizing registry with
  | nil =>
      cases hregister
      rfl
  | cons head tail ih =>
      rw [List.foldlM_cons] at hregister
      cases hhead : registry.register head with
      | error fault =>
          rw [hhead] at hregister
          cases hregister
      | ok extended =>
          rw [hhead] at hregister
          have htail := ih hregister
          rw [attemptAll, List.foldl_cons, attempt_of_register hhead]
          exact htail

/-- A registry that was built without refusals shows the first component under each name. -/
theorem find?_of_ofComponents {initial : List Component}
    (hinitial : ofComponents initial = .ok registry) (name : String) :
    registry.find? name = firstOf initial name := by
  have hempty : ∀ other, empty.find? other = firstOf [] other := by
    intro other
    rfl
  rw [← attemptAll_of_foldlM hinitial, find?_attemptAll hempty, List.nil_append]

/-! ## What can be observed -/

theorem names_increasing (registry : Registry) : registry.names.Pairwise (· < ·) := by
  apply List.pairwise_map.mpr
  exact registry.sorted

theorem mem_names_iff {name : String} :
    name ∈ registry.names ↔ ∃ component, registry.find? name = some component := by
  rw [names, List.mem_map, ← Option.isSome_iff_exists, find?, List.find?_isSome]
  simp

theorem find?_of_mem {component : Component} (hmem : component ∈ registry.components) :
    registry.find? component.name = some component := by
  have hnodup : registry.names.Nodup := registry.names_increasing.imp String.ne_of_lt
  have hlisted : component.name ∈ registry.names := List.mem_map_of_mem hmem
  obtain ⟨other, hfound⟩ := mem_names_iff.mp hlisted
  obtain ⟨hother, hname⟩ := mem_of_find?_eq_some hfound
  rw [hfound, List.inj_on_of_nodup_map hnodup hother hmem hname]

/-- The registry shows the components of the log of which each is the first of its
name, and nothing else. -/
structure FirstWins (registry : Registry) (log : List Component) : Prop where
  find? : ∀ name, registry.find? name = log.find? fun component => component.name == name
  unknown : ∀ name, registry.find? name = none ↔ ∀ component ∈ log, component.name ≠ name
  stored : ∀ component ∈ registry.components, registry.find? component.name = some component
  increasing : registry.names.Pairwise (· < ·)
  listed : ∀ name, name ∈ registry.names ↔ ∃ component, registry.find? name = some component
  size : registry.size = registry.names.length
  empty : registry.isEmpty = true ↔ registry.size = 0
  refuses : ∀ component fault, registry.register component = .error fault ↔
    (∃ earlier ∈ log, earlier.name = component.name) ∧ fault = ⟨component.name⟩

/-- A registry that finds the first components shows nothing else in any other way. -/
theorem firstWins_of_find? (hlog : ∀ name, registry.find? name = firstOf log name) :
    registry.FirstWins log where
  find? := hlog
  unknown name := by
    rw [hlog name, firstOf, List.find?_eq_none]
    simp
  stored _ hmem := find?_of_mem hmem
  increasing := registry.names_increasing
  listed _ := mem_names_iff
  size := (List.length_map Component.name).symm
  empty := by rw [isEmpty, size, List.isEmpty_iff, List.length_eq_zero_iff]
  refuses component fault := by
    rw [register_eq_error_iff, hlog component.name, firstOf_isSome_iff]

/-- After any run of attempts on a registry of initial components, the registry keeps
the first component of every name, and a refused attempt leaves no trace in the run. -/
theorem attemptAll_firstWins {initial : List Component}
    (hinitial : ofComponents initial = .ok registry) (attempts : List Component) :
    (registry.attemptAll attempts).FirstWins (initial ++ attempts) ∧
    ∀ component fault, (registry.attemptAll attempts).register component = .error fault →
      registry.attemptAll (attempts ++ [component]) = registry.attemptAll attempts := by
  constructor
  · apply firstWins_of_find?
    exact find?_attemptAll (find?_of_ofComponents hinitial) attempts
  · intro component fault hregister
    have htaken := (register_eq_error_iff.mp hregister).1
    rw [attemptAll_append_singleton, attempt_of_taken htaken]

/-- The initial component keeps its name, and with it the order and the repetition of
its values, and an attempt on a name that came in later is refused as well. -/
theorem attemptAll_firstWins_settings :
    ∃ registry, ofComponents [⟨"Settings", ["B", "A", "B"]⟩, ⟨"App", []⟩] = .ok registry ∧
      (registry.attemptAll [⟨"Settings", []⟩, ⟨"Zoo", ["A"]⟩]).FirstWins
        [⟨"Settings", ["B", "A", "B"]⟩, ⟨"App", []⟩, ⟨"Settings", []⟩, ⟨"Zoo", ["A"]⟩] ∧
      registry.attemptAll [⟨"Settings", []⟩, ⟨"Zoo", ["A"]⟩, ⟨"Zoo", []⟩] =
        registry.attemptAll [⟨"Settings", []⟩, ⟨"Zoo", ["A"]⟩] := by
  have hinitial : ofComponents [⟨"Settings", ["B", "A", "B"]⟩, ⟨"App", []⟩] =
      .ok ⟨[⟨"App", []⟩, ⟨"Settings", ["B", "A", "B"]⟩], List.pairwise_pair.mpr (by decide)⟩ := rfl
  obtain ⟨hwins, hunchanged⟩ :=
    attemptAll_firstWins hinitial [⟨"Settings", []⟩, ⟨"Zoo", ["A"]⟩]
  exact ⟨_, hinitial, hwins, hunchanged ⟨"Zoo", []⟩ ⟨"Zoo"⟩ rfl⟩

end FieldWiring.Registry
