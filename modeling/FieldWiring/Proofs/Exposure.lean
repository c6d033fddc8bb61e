import FieldWiring.Style
import FieldWiring.Proofs.Accessors

/-!
# What an emission reads

Of a component an emission reads its name and which types it exposes, of a target its two
names and its marked fields.  Nothing else of the two shows in the injector, the refusal or
the log.  A component that exposes more keeps every injector, with one exception: where its
own class is added, the value behind a getter takes the place of the component itself.
-/

namespace FieldWiring

/-- The components have one name and expose the same types, in whatever order and however
often. -/
structure Component.Alike (left right : Component) : Prop where
  name : left.name = right.name
  exposed : ∀ typeName, typeName ∈ left.exposed ↔ typeName ∈ right.exposed

/-- The component after further types have come in, anywhere among those that it exposes. -/
structure Component.ExtendedBy (owner : Component) (added : List String)
    (extended : Component) : Prop where
  name : extended.name = owner.name
  exposed : extended.exposed.Perm (owner.exposed ++ added)

theorem Component.ExtendedBy.mem_exposed_iff {owner extended : Component} {added : List String}
    (hextended : owner.ExtendedBy added extended) {typeName : String} :
    typeName ∈ extended.exposed ↔ typeName ∈ owner.exposed ∨ typeName ∈ added := by
  rw [hextended.exposed.mem_iff, List.mem_append]

/-- The targets differ in nothing but the fields that are not marked. -/
structure Target.Alike (left right : Target) : Prop where
  simpleName : left.simpleName = right.simpleName
  typeName : left.typeName = right.typeName
  injectedFields : left.injectedFields = right.injectedFields

namespace Resolution

variable {naming : Naming} {owner extended left right : Component} {added : List String}
variable {typeName expression : String}

/-- A type is resolved by its being exposed or not, and by nothing else that is exposed. -/
theorem ofType_eq_of_mem_iff (hname : left.name = right.name)
    (hexposed : typeName ∈ left.exposed ↔ typeName ∈ right.exposed) :
    ofType naming left typeName = ofType naming right typeName := by
  simp only [ofType, Component.exposes_iff, hexposed, hname]

theorem accessor_eq_of_name_eq (hname : left.name = right.name) :
    accessor naming left = accessor naming right := by
  funext resolution
  cases resolution with
  | value getter => rw [accessor, accessor, hname]
  | component => rw [accessor, accessor, hname]
  | unresolvable typeName => rfl

/-- A type other than the owner's class that was resolvable is so still. -/
theorem resolvable_of_extended (hextended : owner.ExtendedBy added extended)
    (hresolvable : Resolvable naming owner typeName)
    (hclass : typeName ≠ naming.componentClass owner.name) :
    Resolvable naming extended typeName := by
  cases hresolvable with
  | inl hvalue =>
      left
      exact ⟨hextended.mem_exposed_iff.mpr (Or.inl hvalue.1), hvalue.2⟩
  | inr hcomponent => exact absurd hcomponent.2 hclass

/-- Whatever was reached is still reached in the same way, apart from the owner's own class. -/
theorem accesses_of_extended (hextended : owner.ExtendedBy added extended)
    (haccess : Accesses naming owner typeName expression)
    (hclass : typeName ≠ naming.componentClass owner.name) :
    Accesses naming extended typeName expression := by
  cases haccess with
  | value hexposed hgetter =>
      have hmore : typeName ∈ extended.exposed := hextended.mem_exposed_iff.mpr (Or.inl hexposed)
      rw [← hextended.name]
      exact .value hmore hgetter
  | component _ hown => exact absurd hown hclass

/-- Once it is exposed, the owner's own class is a value like any other. -/
theorem accesses_own_class (hextended : owner.ExtendedBy added extended)
    (hadded : naming.componentClass owner.name ∈ added)
    (hgetter : naming.getter (naming.componentClass owner.name) ≠ "") :
    Accesses naming extended (naming.componentClass owner.name)
      (naming.componentClass owner.name ++ ".getInstance()." ++
        naming.getter (naming.componentClass owner.name) ++ "()") := by
  have hexposed := hextended.mem_exposed_iff.mpr (Or.inr hadded)
  rw [← hextended.name] at hexposed hgetter ⊢
  exact .value hexposed hgetter

end Resolution

namespace Injector

open Resolution

variable {naming : Naming} {owner extended left right : Component}
variable {target leftTarget rightTarget : Target} {added : List String} {injector : Injector}

/-! ## Emissions that cannot be told apart -/

theorem assign_eq_of_mem_iff {field : Field} (hname : left.name = right.name)
    (hexposed : field.typeName ∈ left.exposed ↔ field.typeName ∈ right.exposed)
    (htarget : leftTarget.simpleName = rightTarget.simpleName) :
    assign naming left leftTarget field = assign naming right rightTarget field := by
  simp only [assign, ofType_eq_of_mem_iff hname hexposed, accessor_eq_of_name_eq hname, htarget]

/-- Of what is exposed, only the types of marked fields are asked for. -/
theorem emit_eq_of_mem_iff (hname : left.name = right.name)
    (hexposed : ∀ field ∈ leftTarget.injectedFields,
      (field.typeName ∈ left.exposed ↔ field.typeName ∈ right.exposed))
    (htarget : leftTarget.Alike rightTarget) :
    emit naming left leftTarget = emit naming right rightTarget := by
  have htraverse : Logged.traverse (assign naming left leftTarget) leftTarget.injectedFields =
      Logged.traverse (assign naming right rightTarget) leftTarget.injectedFields := by
    apply Logged.traverse_eq_of_throughFirst
    intro field hmem
    exact assign_eq_of_mem_iff hname (hexposed field (mem_of_mem_throughFirst hmem))
      htarget.simpleName
  have hinjector : ofStatements naming leftTarget = ofStatements naming rightTarget := by
    funext statements
    rw [ofStatements, ofStatements, htarget.simpleName, htarget.typeName]
  rw [emit, emit, htraverse, hinjector, htarget.injectedFields]

/-- An emission does not see in which order types are exposed or how often, nor where the
marked fields stand among the others.  Its result and its log are the same, and so is the
source in every style. -/
theorem emit_eq_of_alike (naming : Naming) (hcomponent : left.Alike right)
    (htarget : leftTarget.Alike rightTarget) :
    emit naming left leftTarget = emit naming right rightTarget ∧
    ∀ style : Style, (emit naming left leftTarget).result.map style.render =
      (emit naming right rightTarget).result.map style.render := by
  have hemit : emit naming left leftTarget = emit naming right rightTarget := by
    apply emit_eq_of_mem_iff hcomponent.name _ htarget
    intro field _
    exact hcomponent.exposed field.typeName
  refine ⟨hemit, ?_⟩
  intro style
  rw [hemit]

/-- Another order, a repetition and two fields that are not marked change nothing, although
the emission is refused half way. -/
theorem emit_eq_of_alike_shuffled :
    let left : Component := ⟨"App", ["Preference_User", "Preference_Device"]⟩
    let right : Component := ⟨"App", ["Preference_Device", "Preference_User", "Preference_Device"]⟩
    let user : Field := ⟨"user", "Preference_User", true⟩
    let other : Field := ⟨"other", "Preference_Other", true⟩
    let leftTarget : Target :=
      { simpleName := "Main", fields := [user, ⟨"tag", "String", false⟩, other] }
    let rightTarget : Target :=
      { simpleName := "Main", fields := [⟨"note", "Preference_User", false⟩, user, other] }
    left.Alike right ∧ leftTarget.Alike rightTarget ∧
      emit {} left leftTarget = emit {} right rightTarget ∧
      (emit {} left leftTarget).result.map ({} : Style).render =
        (emit {} right rightTarget).result.map ({} : Style).render := by
  intro left right user other leftTarget rightTarget
  have hcomponent : left.Alike right := by
    refine ⟨rfl, ?_⟩
    intro typeName
    simp only [left, right, List.mem_cons, List.not_mem_nil, or_false]
    grind
  have htarget : leftTarget.Alike rightTarget := ⟨rfl, rfl, rfl⟩
  obtain ⟨hemit, hrender⟩ := emit_eq_of_alike {} hcomponent htarget
  exact ⟨hcomponent, htarget, hemit, hrender {}⟩

/-! ## Components that expose more -/

/-- The added types bring in the owner's own class, for which a marked field asks. -/
structure Displaces (naming : Naming) (owner : Component) (target : Target)
    (added : List String) : Prop where
  added : naming.componentClass owner.name ∈ added
  notExposed : naming.componentClass owner.name ∉ owner.exposed
  asked : ∃ field ∈ target.injectedFields, field.typeName = naming.componentClass owner.name

/-- A statement as it is once the owner's own class is exposed. -/
def displaced (naming : Naming) (owner : Component) (field : Field)
    (statement : Assignment) : Assignment :=
  if field.typeName = naming.componentClass owner.name then
    { statement with
      accessor := naming.componentClass owner.name ++ ".getInstance()." ++
        naming.getter (naming.componentClass owner.name) ++ "()" }
  else statement

def withDisplaced (naming : Naming) (owner : Component) (target : Target)
    (injector : Injector) : Injector :=
  { injector with
    statements := List.zipWith (displaced naming owner) target.injectedFields injector.statements }

/-- Unless the owner's class is displaced, the added types are not asked for. -/
theorem emit_eq_of_not_displaces (hextended : owner.ExtendedBy added extended)
    (hemit : (emit naming owner target).result = .ok injector)
    (hkept : ¬ Displaces naming owner target added) :
    emit naming extended target = emit naming owner target := by
  have hresolvable := emit_succeeds_iff.mp ⟨injector, hemit⟩
  apply emit_eq_of_mem_iff hextended.name _ ⟨rfl, rfl, rfl⟩
  intro field hmem
  rw [hextended.mem_exposed_iff]
  cases hresolvable field hmem with
  | inl hvalue => exact iff_of_true (Or.inl hvalue.1) hvalue.1
  | inr hcomponent =>
      obtain ⟨hnotExposed, hclass⟩ := hcomponent
      apply or_iff_left
      intro hadded
      rw [hclass] at hnotExposed hadded
      exact hkept ⟨hadded, hnotExposed, field, hmem, hclass⟩

theorem fills_displaced (hextended : owner.ExtendedBy added extended)
    (hadded : naming.componentClass owner.name ∈ added)
    (hgetter : naming.getter (naming.componentClass owner.name) ≠ "") {field : Field}
    {statement : Assignment} (hfills : Fills naming owner field statement) :
    Fills naming extended field (displaced naming owner field statement) := by
  by_cases hclass : field.typeName = naming.componentClass owner.name
  · rw [displaced, if_pos hclass]
    refine ⟨hfills.receiver, hfills.fieldName, ?_⟩
    rw [hclass]
    exact accesses_own_class hextended hadded hgetter
  · rw [displaced, if_neg hclass]
    exact ⟨hfills.receiver, hfills.fieldName,
      accesses_of_extended hextended hfills.accessor hclass⟩

/-- The component itself is what a field of its own class had before. -/
theorem accessor_of_fills {field : Field} {statement : Assignment}
    (hfills : Fills naming owner field statement)
    (hnotExposed : naming.componentClass owner.name ∉ owner.exposed)
    (hclass : field.typeName = naming.componentClass owner.name) :
    statement.accessor = naming.componentClass owner.name ++ ".getInstance()" := by
  have haccess := hfills.accessor
  rw [hclass] at haccess
  generalize statement.accessor = expression at haccess
  cases haccess with
  | value hexposed _ => exact absurd hexposed hnotExposed
  | component _ _ => rfl

theorem wires_withDisplaced (hextended : owner.ExtendedBy added extended)
    (hadded : naming.componentClass owner.name ∈ added)
    (hgetter : naming.getter (naming.componentClass owner.name) ≠ "")
    (hwires : Wires naming owner target injector) :
    Wires naming extended target (withDisplaced naming owner target injector) where
  name := hwires.name
  parameter := hwires.parameter
  statements := by
    apply forall₂_zipWith hwires.statements
    intro field statement hfills
    exact fills_displaced hextended hadded hgetter hfills

/-- An own class without a getter is the first type that an emission stumbles over. -/
theorem emit_of_extended_eq_error (hextended : owner.ExtendedBy added extended)
    (hemit : (emit naming owner target).result = .ok injector)
    (hdisplaces : Displaces naming owner target added)
    (hgetter : naming.getter (naming.componentClass owner.name) = "") :
    (emit naming extended target).result = .error ⟨naming.componentClass owner.name⟩ := by
  have hresolvable := emit_succeeds_iff.mp ⟨injector, hemit⟩
  have hlost : ¬ Resolvable naming extended (naming.componentClass owner.name) := by
    intro hstill
    cases hstill with
    | inl hvalue => exact hvalue.2 hgetter
    | inr hcomponent =>
        exact hcomponent.1 (hextended.mem_exposed_iff.mpr (Or.inr hdisplaces.added))
  cases hresult : (emit naming extended target).result with
  | ok other =>
      obtain ⟨field, hmem, hclass⟩ := hdisplaces.asked
      have hstill := emit_succeeds_iff.mp ⟨other, hresult⟩ field hmem
      rw [hclass] at hstill
      exact absurd hstill hlost
  | error fault =>
      obtain ⟨field, hfirst, rfl⟩ := emit_eq_error_iff.mp hresult
      have hmem : field ∈ target.injectedFields := List.mem_of_find?_eq_some hfirst
      obtain ⟨-, -, -, -, hfield⟩ := firstUnresolvable?_eq_some_iff.mp hfirst
      -- Only the class was resolvable before and is not now.
      by_cases hclass : field.typeName = naming.componentClass owner.name
      · rw [hclass]
      · exact absurd (resolvable_of_extended hextended (hresolvable field hmem) hclass) hfield

/-- A component that exposes more keeps its injectors, unless its own class is among what
comes in, was not exposed before and is the type of a marked field.  Then the fields of that
type, which had the component itself, get the value behind the getter of the class, and
nothing else changes; without such a getter the emission is refused for the class. -/
theorem emit_of_extended (hextended : owner.ExtendedBy added extended)
    (hemit : (emit naming owner target).result = .ok injector) :
    (¬ Displaces naming owner target added →
      (emit naming extended target).result = .ok injector ∧
      emit naming extended target = emit naming owner target) ∧
    (Displaces naming owner target added →
      naming.getter (naming.componentClass owner.name) ≠ "" →
      (emit naming extended target).result = .ok (withDisplaced naming owner target injector) ∧
      List.Forall₂ (fun field statement => field.typeName = naming.componentClass owner.name →
        statement.accessor = naming.componentClass owner.name ++ ".getInstance()")
        target.injectedFields injector.statements) ∧
    (Displaces naming owner target added →
      naming.getter (naming.componentClass owner.name) = "" →
      (emit naming extended target).result = .error ⟨naming.componentClass owner.name⟩) := by
  have hwires := emit_eq_ok_iff.mp hemit
  refine ⟨?_, ?_, emit_of_extended_eq_error hextended hemit⟩
  · intro hkept
    have hsame := emit_eq_of_not_displaces hextended hemit hkept
    rw [hsame]
    exact ⟨hemit, rfl⟩
  · intro hdisplaces hgetter
    constructor
    · apply emit_eq_ok_iff.mpr
      exact wires_withDisplaced hextended hdisplaces.added hgetter hwires
    · apply hwires.statements.imp
      intro field statement hfills hclass
      exact accessor_of_fills hfills hdisplaces.notExposed hclass

/-- A type that no field asks for changes nothing.  The class of the component does: the
field that had the component itself gets a value, or, where the value prefix leaves nothing
of the class, the emission is refused. -/
theorem emit_of_extended_activity :
    let app : Component := ⟨"App", ["Preference_User"]⟩
    let withDevice : Component := ⟨"App", ["Preference_Device", "Preference_User"]⟩
    let withClass : Component := ⟨"App", ["PreferenceComponent_App", "Preference_User"]⟩
    let strict : Naming := { valuePrefix := "PreferenceComponent_App" }
    let target : Target :=
      { simpleName := "Main",
        fields := [⟨"user", "Preference_User", true⟩, ⟨"app", "PreferenceComponent_App", true⟩] }
    (∃ injector, (emit {} app target).result = .ok injector ∧
      (emit {} withDevice target).result = .ok injector ∧
      (emit {} withClass target).result = .ok (withDisplaced {} app target injector) ∧
      (withDisplaced {} app target injector).statements.map Assignment.accessor =
        ["PreferenceComponent_App.getInstance().User()",
          "PreferenceComponent_App.getInstance().PreferenceComponent_App()"]) ∧
    (∃ injector, (emit strict app target).result = .ok injector) ∧
    (emit strict withClass target).result = .error ⟨"PreferenceComponent_App"⟩ := by
  intro app withDevice withClass strict target
  have hdevice : app.ExtendedBy ["Preference_Device"] withDevice := ⟨rfl, .swap _ _ _⟩
  have hclass : app.ExtendedBy ["PreferenceComponent_App"] withClass := ⟨rfl, .swap _ _ _⟩
  have hdisplaces : Displaces {} app target ["PreferenceComponent_App"] :=
    ⟨by decide, by decide, by decide⟩
  have hstrict : Displaces strict app target ["PreferenceComponent_App"] :=
    ⟨by decide, by decide, by decide⟩
  have hkept : ¬ Displaces {} app target ["Preference_Device"] := by
    intro hdevice
    have hadded := hdevice.added
    revert hadded
    decide
  have hemit : ∃ injector, (emit strict app target).result = .ok injector :=
    emit_succeeds_iff.mpr (by decide)
  refine ⟨⟨_, rfl, ?_, ?_, by decide⟩, hemit, ?_⟩
  · exact ((emit_of_extended hdevice rfl).1 hkept).1
  · exact ((emit_of_extended hclass rfl).2.1 hdisplaces (by decide)).1
  · obtain ⟨injector, hinjector⟩ := hemit
    exact (emit_of_extended hclass hinjector).2.2 hstrict (by decide)

end Injector

end FieldWiring
