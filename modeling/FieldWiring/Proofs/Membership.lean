import Mathlib.Data.List.Induction
import FieldWiring.Generator
import FieldWiring.Proofs.Registration

/-!
# Registries built from lists

A registry is built from a list one component at a time, and the first component whose name
has come before ends the building.  A list without repeated names leaves nothing of its
order behind: the registry is the list sorted by name, so whatever permutes the list is seen
neither in the registry nor in what is generated over it.
-/

namespace FieldWiring.Registry

variable {registry left right : Registry} {components front : List Component}
variable {component : Component}

/-! ## The first repeated name -/

/-- The names of the front are distinct, and the component behind it has one of them. -/
structure IsFirstRepeated (front : List Component) (component : Component) : Prop where
  distinct : (front.map Component.name).Nodup
  repeated : component.name ∈ front.map Component.name

theorem distinct_append_singleton_iff :
    ((front ++ [component]).map Component.name).Nodup ↔
      (front.map Component.name).Nodup ∧ component.name ∉ front.map Component.name := by
  rw [List.map_append, List.map_singleton, ← List.concat_eq_append, List.nodup_concat, and_comm]

theorem exists_isFirstRepeated (hrepeated : ¬ (components.map Component.name).Nodup) :
    ∃ front component back, components = front ++ component :: back ∧
      IsFirstRepeated front component := by
  induction components using List.reverseRecOn with
  | nil => exact absurd List.nodup_nil hrepeated
  | append_singleton init last ih =>
      rw [distinct_append_singleton_iff, not_and_not_right] at hrepeated
      by_cases hinit : (init.map Component.name).Nodup
      · exact ⟨init, last, [], rfl, hinit, hrepeated hinit⟩
      · obtain ⟨front, component, back, hsplit, hfirst⟩ := ih hinit
        refine ⟨front, component, back ++ [last], ?_, hfirst⟩
        rw [hsplit, List.append_assoc, List.cons_append]

/-! ## Building from a list -/

/-- Components are registered from where the ones in front of them have led. -/
theorem ofComponents_append (front back : List Component) :
    ofComponents (front ++ back) =
      ofComponents front >>= fun reached => back.foldlM register reached :=
  List.foldlM_append

/-- The registry knows the names of its components and no others. -/
theorem find?_isSome_iff_of_ofComponents (hbuilt : ofComponents components = .ok registry)
    {name : String} :
    (registry.find? name).isSome ↔ name ∈ components.map Component.name := by
  rw [find?_of_ofComponents hbuilt, firstOf_isSome_iff, List.mem_map]

theorem exists_ofComponents (hdistinct : (components.map Component.name).Nodup) :
    ∃ registry, ofComponents components = .ok registry := by
  induction components using List.reverseRecOn with
  | nil => exact ⟨empty, rfl⟩
  | append_singleton front component ih =>
      obtain ⟨hfront, hnew⟩ := distinct_append_singleton_iff.mp hdistinct
      obtain ⟨reached, hreached⟩ := ih hfront
      rw [← find?_isSome_iff_of_ofComponents hreached, Option.not_isSome_iff_eq_none] at hnew
      obtain ⟨extended, hregister⟩ := exists_register_eq_ok hnew
      refine ⟨extended, ?_⟩
      rw [ofComponents_append, hreached]
      change [component].foldlM register reached = .ok extended
      rw [List.foldlM_cons, hregister]
      rfl

/-- The first component with a name that was there before is refused. -/
theorem ofComponents_of_isFirstRepeated (hfirst : IsFirstRepeated front component)
    (back : List Component) :
    ofComponents (front ++ component :: back) = .error ⟨component.name⟩ := by
  obtain ⟨reached, hreached⟩ := exists_ofComponents hfirst.distinct
  have htaken := (find?_isSome_iff_of_ofComponents hreached).mpr hfirst.repeated
  rw [ofComponents_append, hreached]
  change (component :: back).foldlM register reached = .error ⟨component.name⟩
  rw [List.foldlM_cons, register_eq_error_iff.mpr ⟨htaken, rfl⟩]
  rfl

theorem exists_fault_of_repeated (hrepeated : ¬ (components.map Component.name).Nodup) :
    ∃ fault, ofComponents components = .error fault := by
  obtain ⟨front, component, back, rfl, hfirst⟩ := exists_isFirstRepeated hrepeated
  exact ⟨_, ofComponents_of_isFirstRepeated hfirst back⟩

/-- Components are registered exactly if their names are distinct. -/
theorem ofComponents_succeeds_iff :
    (∃ registry, ofComponents components = .ok registry) ↔
      (components.map Component.name).Nodup := by
  constructor
  · intro h
    obtain ⟨registry, hbuilt⟩ := h
    by_contra hrepeated
    obtain ⟨fault, hfault⟩ := exists_fault_of_repeated hrepeated
    rw [hfault] at hbuilt
    cases hbuilt
  · exact exists_ofComponents

/-- The refusal names the first component that repeats a name. -/
theorem ofComponents_eq_error_iff {fault : DuplicateComponent} :
    ofComponents components = .error fault ↔
      ∃ front component back, components = front ++ component :: back ∧
        IsFirstRepeated front component ∧ fault = ⟨component.name⟩ := by
  constructor
  · intro hfault
    have hrepeated : ¬ (components.map Component.name).Nodup := by
      intro hdistinct
      obtain ⟨registry, hbuilt⟩ := exists_ofComponents hdistinct
      rw [hfault] at hbuilt
      cases hbuilt
    obtain ⟨front, component, back, rfl, hfirst⟩ := exists_isFirstRepeated hrepeated
    rw [ofComponents_of_isFirstRepeated hfirst back] at hfault
    exact ⟨front, component, back, rfl, hfirst, (Except.error.inj hfault).symm⟩
  · intro h
    obtain ⟨front, component, back, rfl, hfirst, rfl⟩ := h
    exact ofComponents_of_isFirstRepeated hfirst back

/-! ## What the order leaves behind -/

theorem components_perm_of_foldlM {reached : Registry}
    (hbuilt : components.foldlM register registry = .ok reached) :
    reached.components.Perm (registry.components ++ components) := by
  induction components generalizing registry with
  | nil =>
      cases hbuilt
      rw [List.append_nil]
  | cons head tail ih =>
      rw [List.foldlM_cons] at hbuilt
      cases hregister : registry.register head with
      | error fault =>
          rw [hregister] at hbuilt
          cases hbuilt
      | ok extended =>
          rw [hregister] at hbuilt
          have hextended : extended.components.Perm (head :: registry.components) := by
            rw [components_of_register_eq_ok hregister]
            exact insertByName_perm head registry.components
          calc
            List.Perm reached.components (extended.components ++ tail) := ih hbuilt
            List.Perm _ (head :: registry.components ++ tail) := hextended.append_right tail
            List.Perm _ (registry.components ++ head :: tail) := List.perm_middle.symm

/-- A registry has exactly the components that it was built from. -/
theorem components_perm_of_ofComponents (hbuilt : ofComponents components = .ok registry) :
    registry.components.Perm components :=
  components_perm_of_foldlM hbuilt

/-- Components of distinct names have only one order by name. -/
theorem eq_of_components_perm (hperm : left.components.Perm right.components) : left = right := by
  have hcomponents : left.components = right.components := by
    apply hperm.eq_of_pairwise _ left.sorted right.sorted
    intro first second _ _ hlt hgt
    exact absurd hgt (String.lt_asymm hlt)
  obtain ⟨leftComponents, hleft⟩ := left
  obtain ⟨rightComponents, hright⟩ := right
  subst hcomponents
  rfl

/-- No question to the registries, and no generation over them, tells them apart. -/
structure LooksLike (left right : Registry) : Prop where
  find? : ∀ name, left.find? name = right.find? name
  names : left.names = right.names
  size : left.size = right.size
  isEmpty : left.isEmpty = right.isEmpty
  generate : ∀ naming request, (Generator.mk left.find? naming).generate request =
    (Generator.mk right.find? naming).generate request
  generateAll : ∀ naming requests, (Generator.mk left.find? naming).generateAll requests =
    (Generator.mk right.find? naming).generateAll requests
  generateRegistered : ∀ naming registered,
    (Generator.mk left.find? naming).generateRegistered registered =
      (Generator.mk right.find? naming).generateRegistered registered

theorem LooksLike.refl (registry : Registry) : registry.LooksLike registry where
  find? _ := rfl
  names := rfl
  size := rfl
  isEmpty := rfl
  generate _ _ := rfl
  generateAll _ _ := rfl
  generateRegistered _ _ := rfl

/-- A list of components makes a registry exactly if no two of them share a name.  Otherwise
it is refused for the first component whose name has come before, be that name the least, the
most frequent or neither.  Permuting a list does not change whether it is refused, and what is
built from it looks the same. -/
theorem ofComponents_forgets_order :
    (∀ components,
      ((∃ registry, ofComponents components = .ok registry) ↔
        (components.map Component.name).Nodup) ∧
      ∀ fault, ofComponents components = .error fault ↔
        ∃ front component back, components = front ++ component :: back ∧
          IsFirstRepeated front component ∧ fault = ⟨component.name⟩) ∧
    ∀ left right : List Component, left.Perm right →
      (∃ leftRegistry rightRegistry, ofComponents left = .ok leftRegistry ∧
        ofComponents right = .ok rightRegistry ∧ leftRegistry.LooksLike rightRegistry) ∨
      ∃ leftFault rightFault, ofComponents left = .error leftFault ∧
        ofComponents right = .error rightFault := by
  refine ⟨fun components => ⟨ofComponents_succeeds_iff, fun fault => ofComponents_eq_error_iff⟩, ?_⟩
  intro left right hperm
  have hnames := (hperm.map Component.name).nodup_iff
  by_cases hdistinct : (left.map Component.name).Nodup
  · left
    obtain ⟨leftRegistry, hleft⟩ := exists_ofComponents hdistinct
    obtain ⟨rightRegistry, hright⟩ := exists_ofComponents (hnames.mp hdistinct)
    have hsame : leftRegistry = rightRegistry := by
      apply eq_of_components_perm
      calc
        List.Perm leftRegistry.components left := components_perm_of_ofComponents hleft
        List.Perm _ right := hperm
        List.Perm _ rightRegistry.components := (components_perm_of_ofComponents hright).symm
    subst hsame
    exact ⟨leftRegistry, leftRegistry, hleft, hright, .refl leftRegistry⟩
  · right
    obtain ⟨leftFault, hleft⟩ := exists_fault_of_repeated hdistinct
    obtain ⟨rightFault, hright⟩ := exists_fault_of_repeated (mt hnames.mpr hdistinct)
    exact ⟨leftFault, rightFault, hleft, hright⟩

/-- The name that is repeated first is reported although another one is lesser and occurs more
often, and where names are distinct the order of the list does not show. -/
theorem ofComponents_forgets_order_zoo :
    let zoo : Component := ⟨"Zoo", ["B", "A", "B"]⟩
    let app : Component := ⟨"App", ["A"]⟩
    ofComponents [zoo, app, zoo, app, app] = .error ⟨"Zoo"⟩ ∧
      [zoo, app].Perm [app, zoo] ∧
      ∃ left right, ofComponents [zoo, app] = .ok left ∧ ofComponents [app, zoo] = .ok right ∧
        left.LooksLike right := by
  intro zoo app
  obtain ⟨hdecides, hpermuted⟩ := ofComponents_forgets_order
  have hfirst : IsFirstRepeated [zoo, app] zoo := ⟨by decide, by decide⟩
  have hperm : [zoo, app].Perm [app, zoo] := List.Perm.swap app zoo []
  refine ⟨((hdecides _).2 _).mpr ⟨[zoo, app], zoo, [app, app], rfl, hfirst, rfl⟩, hperm, ?_⟩
  cases hpermuted [zoo, app] [app, zoo] hperm with
  | inl hsucceed => exact hsucceed
  | inr hfail =>
      obtain ⟨fault, -, hfault, -⟩ := hfail
      obtain ⟨registry, hbuilt⟩ := (hdecides [zoo, app]).1.mpr (by decide)
      rw [hbuilt] at hfault
      cases hfault

end FieldWiring.Registry
