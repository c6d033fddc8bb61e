import FieldWiring.Resolution

/-!
# Directories and registries of components

A directory answers which component, if any, goes by a name.  A registry is the
directory that is filled one component at a time and never gives a name twice.  It
is kept sorted by name, so that two registries with the same members are equal and
the listing of names needs no further step.
-/

namespace FieldWiring

abbrev Directory := String → Option Component

/-- The refusal of a second component of one name. -/
structure DuplicateComponent where
  name : String
deriving DecidableEq, Repr

def DuplicateComponent.message (fault : DuplicateComponent) : String :=
  "Attempted to register a duplicated component with name: " ++ fault.name

/-- Puts a component in front of the first one with a greater name. -/
def insertByName (component : Component) : List Component → List Component
  | [] => [component]
  | other :: rest =>
      if component.name < other.name then component :: other :: rest
      else other :: insertByName component rest

theorem insertByName_perm (component : Component) (components : List Component) :
    (insertByName component components).Perm (component :: components) := by
  induction components with
  | nil => exact List.Perm.refl [component]
  | cons head tail ih =>
      by_cases hlt : component.name < head.name
      · rw [insertByName, if_pos hlt]
      · rw [insertByName, if_neg hlt]
        exact (ih.cons head).trans (List.Perm.swap component head tail)

theorem mem_insertByName {component other : Component} {components : List Component} :
    other ∈ insertByName component components ↔ other = component ∨ other ∈ components := by
  rw [(insertByName_perm component components).mem_iff, List.mem_cons]

/-- Components in strictly increasing order of their names, hence with distinct names. -/
def SortedByName (components : List Component) : Prop :=
  components.Pairwise fun left right => left.name < right.name

theorem sortedByName_insertByName {component : Component} {components : List Component}
    (hsorted : SortedByName components) (hnew : ∀ other ∈ components, other.name ≠ component.name) :
    SortedByName (insertByName component components) := by
  induction components with
  | nil => exact List.pairwise_singleton _ _
  | cons head tail ih =>
      have htail := List.pairwise_cons.mp hsorted
      by_cases hlt : component.name < head.name
      · rw [insertByName, if_pos hlt]
        refine List.pairwise_cons.mpr ⟨fun other hmem => ?_, hsorted⟩
        rcases List.mem_cons.mp hmem with rfl | hlater
        · exact hlt
        · exact String.lt_trans hlt (htail.1 other hlater)
      · rw [insertByName, if_neg hlt]
        refine List.pairwise_cons.mpr ⟨fun other hmem => ?_, ih htail.2 fun other hlater =>
          hnew other (List.mem_cons_of_mem _ hlater)⟩
        rcases mem_insertByName.mp hmem with rfl | hlater
        · have hne := hnew head List.mem_cons_self
          exact String.not_le.mp fun hle => hne (String.le_antisymm (String.not_lt.mp hlt) hle)
        · exact htail.1 other hlater

/-- A new component is found under its name, and hides nothing. -/
theorem find?_insertByName {component : Component} {components : List Component}
    (hnew : ∀ other ∈ components, other.name ≠ component.name) (name : String) :
    (insertByName component components).find? (fun other => other.name == name) =
      if name = component.name then some component
      else components.find? fun other => other.name == name := by
  have hcons : ∀ rest : List Component,
      (component :: rest).find? (fun other => other.name == name) =
        if name = component.name then some component
        else rest.find? fun other => other.name == name := by
    intro rest
    by_cases hname : name = component.name
    · simp [hname]
    · simp [hname, Ne.symm hname]
  induction components with
  | nil => exact hcons []
  | cons head tail ih =>
      by_cases hlt : component.name < head.name
      · rw [insertByName, if_pos hlt]
        exact hcons (head :: tail)
      · rw [insertByName, if_neg hlt, List.find?_cons, List.find?_cons,
          ih fun other hlater => hnew other (List.mem_cons_of_mem _ hlater)]
        by_cases hname : head.name = name
        · have hne : name ≠ component.name := hname ▸ hnew head List.mem_cons_self
          simp [hname, hne]
        · simp [beq_eq_false_iff_ne.mpr hname]

/-- Components by name, none of them twice. -/
structure Registry where
  components : List Component
  sorted : SortedByName components

namespace Registry

def empty : Registry := ⟨[], List.Pairwise.nil⟩

def find? (registry : Registry) : Directory := fun name =>
  registry.components.find? fun component => component.name == name

theorem mem_of_find?_eq_some {registry : Registry} {name : String} {component : Component}
    (hfound : registry.find? name = some component) :
    component ∈ registry.components ∧ component.name = name :=
  ⟨List.mem_of_find?_eq_some hfound, by simpa using List.find?_some hfound⟩

/-- Components of one name that are found are one component, and asked for by one name. -/
theorem eq_of_find?_of_name_eq {registry : Registry} {leftName rightName : String}
    {left right : Component} (hleft : registry.find? leftName = some left)
    (hright : registry.find? rightName = some right) (hname : left.name = right.name) :
    leftName = rightName ∧ left = right := by
  have hnames : leftName = rightName := by
    rw [← (mem_of_find?_eq_some hleft).2, hname, (mem_of_find?_eq_some hright).2]
  rw [hnames] at hleft
  exact ⟨hnames, Option.some.inj (hleft.symm.trans hright)⟩

theorem find?_eq_none_iff {registry : Registry} {name : String} :
    registry.find? name = none ↔ ∀ component ∈ registry.components, component.name ≠ name := by
  simp [find?]

/-- Adds a component, unless one of its name is there. -/
def register (registry : Registry) (component : Component) :
    Except DuplicateComponent Registry :=
  match hfound : registry.find? component.name with
  | some _ => .error ⟨component.name⟩
  | none => .ok ⟨insertByName component registry.components,
      sortedByName_insertByName registry.sorted (find?_eq_none_iff.mp hfound)⟩

/-- Tries to add a component.  A refused one leaves the registry as it is. -/
def attempt (registry : Registry) (component : Component) :
    Registry × Option DuplicateComponent :=
  match registry.register component with
  | .ok extended => (extended, none)
  | .error fault => (registry, some fault)

/-- Registers the components in order and stops at the first one refused. -/
def ofComponents (components : List Component) : Except DuplicateComponent Registry :=
  components.foldlM register empty

def names (registry : Registry) : List String :=
  registry.components.map Component.name

def size (registry : Registry) : Nat := registry.components.length

def isEmpty (registry : Registry) : Bool := registry.components.isEmpty

@[simp]
theorem find?_empty (name : String) : empty.find? name = none := rfl

/-- A component is refused exactly when its name is taken. -/
theorem register_eq_error_iff {registry : Registry} {component : Component}
    {fault : DuplicateComponent} :
    registry.register component = .error fault ↔
      (registry.find? component.name).isSome ∧ fault = ⟨component.name⟩ := by
  unfold register
  split <;> rename_i hfound <;> simp [hfound, eq_comm]

theorem components_of_register_eq_ok {registry extended : Registry} {component : Component}
    (hregister : registry.register component = .ok extended) :
    extended.components = insertByName component registry.components := by
  unfold register at hregister
  split at hregister
  · simp at hregister
  · simpa using (congrArg components (Except.ok.inj hregister)).symm

/-- After a registration the new name leads to the new component, and every other name
where it led before. -/
theorem find?_of_register_eq_ok {registry extended : Registry} {component : Component}
    (hregister : registry.register component = .ok extended) (name : String) :
    extended.find? name =
      if name = component.name then some component else registry.find? name := by
  have hnew : ∀ other ∈ registry.components, other.name ≠ component.name := by
    refine find?_eq_none_iff.mp (Option.not_isSome_iff_eq_none.mp fun htaken => ?_)
    have herror := register_eq_error_iff.mpr ⟨htaken, rfl⟩
    rw [herror] at hregister
    simp at hregister
  rw [find?, components_of_register_eq_ok hregister]
  exact find?_insertByName hnew name

end Registry

end FieldWiring
