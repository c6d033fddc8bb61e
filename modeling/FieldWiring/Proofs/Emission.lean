import FieldWiring.Generator
import FieldWiring.Proofs.Traversal

/-!
# What an emission yields

A component fills a field in one of two ways, and the relation `Accesses` lists them
without saying how they are told apart.  An injector is emitted exactly when every
marked field can be filled, its statements follow the marked fields one by one, and
otherwise the first field that cannot be filled is what the emission is refused for.
-/

namespace FieldWiring

namespace Resolution

variable {naming : Naming} {owner : Component} {typeName : String}

instance : Decidable (Resolvable naming owner typeName) :=
  inferInstanceAs (Decidable (_ ∨ _))

/-- The expressions that yield a value of the given type. -/
inductive Accesses (naming : Naming) (owner : Component) (typeName : String) : String → Prop where
  /-- An exposed value stands behind its getter. -/
  | value (hexposed : typeName ∈ owner.exposed) (hgetter : naming.getter typeName ≠ "") :
      Accesses naming owner typeName
        (naming.componentPrefix ++ owner.name ++ ".getInstance()." ++
          naming.getter typeName ++ "()")
  /-- A type that is not exposed may be the component's own class. -/
  | component (hexposed : typeName ∉ owner.exposed)
      (hclass : typeName = naming.componentPrefix ++ owner.name) :
      Accesses naming owner typeName (naming.componentPrefix ++ owner.name ++ ".getInstance()")

theorem ofType_of_getter (hexposed : typeName ∈ owner.exposed)
    (hgetter : naming.getter typeName ≠ "") :
    ofType naming owner typeName = .value (naming.getter typeName) := by
  rw [ofType, if_pos (Component.exposes_iff.mpr hexposed), if_neg hgetter]

theorem ofType_of_class (hexposed : typeName ∉ owner.exposed)
    (hclass : typeName = naming.componentClass owner.name) :
    ofType naming owner typeName = .component := by
  rw [ofType, if_neg (fun hexposes => hexposed (Component.exposes_iff.mp hexposes)), if_pos hclass]

theorem ofType_of_not_resolvable (hunresolvable : ¬ Resolvable naming owner typeName) :
    ofType naming owner typeName = .unresolvable typeName := by
  have haccessor := accessor_ofType_eq_error_iff.mpr ⟨hunresolvable, rfl⟩
  cases hresolution : ofType naming owner typeName with
  | value getter | component =>
      rw [hresolution] at haccessor
      cases haccessor
  | unresolvable refused =>
      rw [hresolution] at haccessor
      cases haccessor
      rfl

/-- The accessor of a resolved type is the one expression that yields its value. -/
theorem accessor_ofType_eq_ok_iff {expression : String} :
    accessor naming owner (ofType naming owner typeName) = .ok expression ↔
      Accesses naming owner typeName expression := by
  constructor
  · intro haccessor
    have hresolvable : Resolvable naming owner typeName := by
      by_contra hunresolvable
      rw [accessor_ofType_eq_error_iff.mpr ⟨hunresolvable, rfl⟩] at haccessor
      cases haccessor
    cases hresolvable with
    | inl hvalue =>
        rw [ofType_of_getter hvalue.1 hvalue.2] at haccessor
        cases haccessor
        exact .value hvalue.1 hvalue.2
    | inr hcomponent =>
        rw [ofType_of_class hcomponent.1 hcomponent.2] at haccessor
        cases haccessor
        exact .component hcomponent.1 hcomponent.2
  · intro haccess
    cases haccess with
    | value hexposed hgetter =>
        rw [ofType_of_getter hexposed hgetter]
        rfl
    | component hexposed hclass =>
        rw [ofType_of_class hexposed hclass]
        rfl

/-- Whatever is accessed, it is through the class of the owner. -/
theorem Accesses.eq_or {expression : String} (haccess : Accesses naming owner typeName expression) :
    expression = naming.componentClass owner.name ++ ".getInstance()" ∨
      ∃ getter, expression =
        naming.componentClass owner.name ++ ".getInstance()." ++ getter ++ "()" := by
  cases haccess with
  | value hexposed hgetter =>
      right
      exact ⟨naming.getter typeName, rfl⟩
  | component hexposed hclass =>
      left
      rfl

end Resolution

namespace Injector

open Resolution

variable {naming : Naming} {owner : Component} {target : Target}

/-- The statement assigns the field what its type gives access to. -/
structure Fills (naming : Naming) (owner : Component) (field : Field)
    (statement : Assignment) : Prop where
  receiver : statement.receiver = naming.parameterName
  fieldName : statement.fieldName = field.name
  accessor : Accesses naming owner field.typeName statement.accessor

/-- The injector is the target's own: its parameter is a target that is never null, and
its statements fill the marked fields, one each and in order. -/
structure Wires (naming : Naming) (owner : Component) (target : Target)
    (injector : Injector) : Prop where
  name : injector.name = target.simpleName ++ naming.injectorSuffix
  parameter : injector.parameter = ⟨naming.parameterName, target.typeName, true⟩
  statements : List.Forall₂ (Fills naming owner) target.injectedFields injector.statements

/-- Every accessor is a call on the owner's instance. -/
theorem Wires.accessor_eq_or {injector : Injector} (hwires : Wires naming owner target injector)
    {statement : Assignment} (hmem : statement ∈ injector.statements) :
    statement.accessor = naming.componentClass owner.name ++ ".getInstance()" ∨
      ∃ getter, statement.accessor =
        naming.componentClass owner.name ++ ".getInstance()." ++ getter ++ "()" := by
  obtain ⟨field, -, hfills⟩ := exists_related_of_mem hwires.statements hmem
  exact hfills.accessor.eq_or

/-- The first marked field that cannot be filled. -/
def firstUnresolvable? (naming : Naming) (owner : Component) (target : Target) : Option Field :=
  target.injectedFields.find? fun field => !decide (Resolvable naming owner field.typeName)

theorem assign_result (field : Field) :
    (assign naming owner target field).result =
      (accessor naming owner (ofType naming owner field.typeName)).map
        (Assignment.mk naming.parameterName field.name) := by
  cases haccessor : accessor naming owner (ofType naming owner field.typeName) with
  | ok expression => simp [assign, haccessor, Except.map]
  | error cause => simp [assign, haccessor, Logged.fail, Except.map]

/-- A field is assigned what its type gives access to. -/
theorem assign_eq_ok_iff {field : Field} {statement : Assignment} :
    (assign naming owner target field).result = .ok statement ↔
      Fills naming owner field statement := by
  rw [assign_result]
  constructor
  · intro hok
    cases haccessor : accessor naming owner (ofType naming owner field.typeName) with
    | error cause =>
        rw [haccessor] at hok
        cases hok
    | ok expression =>
        rw [haccessor] at hok
        cases hok
        exact ⟨rfl, rfl, accessor_ofType_eq_ok_iff.mp haccessor⟩
  · intro hfills
    obtain ⟨receiver, fieldName, expression⟩ := statement
    obtain ⟨hreceiver, hname, haccess⟩ := hfills
    subst hreceiver hname
    rw [accessor_ofType_eq_ok_iff.mpr haccess]
    rfl

/-- A field is refused by the name of its type, if that cannot be resolved. -/
theorem assign_eq_error_iff {field : Field} {fault : UnresolvableType} :
    (assign naming owner target field).result = .error fault ↔
      ¬ Resolvable naming owner field.typeName ∧ fault = ⟨field.typeName⟩ := by
  rw [assign_result, ← accessor_ofType_eq_error_iff]
  cases accessor naming owner (ofType naming owner field.typeName) with
  | ok expression => simp [Except.map]
  | error cause => simp [Except.map]

theorem failsOn_assign_of_resolvable {field : Field}
    (hresolvable : Resolvable naming owner field.typeName) :
    Logged.failsOn (assign naming owner target) field = false := by
  apply Bool.eq_false_iff.mpr
  intro hfails
  obtain ⟨fault, hfault⟩ := Logged.failsOn_eq_true_iff.mp hfails
  exact (assign_eq_error_iff.mp hfault).1 hresolvable

theorem failsOn_assign_of_not_resolvable {field : Field}
    (hunresolvable : ¬ Resolvable naming owner field.typeName) :
    Logged.failsOn (assign naming owner target) field = true := by
  apply Logged.failsOn_eq_true_iff.mpr
  exact ⟨⟨field.typeName⟩, assign_eq_error_iff.mpr ⟨hunresolvable, rfl⟩⟩

theorem assign_succeeds_iff {field : Field} :
    (∃ statement, (assign naming owner target field).result = .ok statement) ↔
      Resolvable naming owner field.typeName := by
  rw [← Logged.failsOn_eq_false_iff]
  constructor
  · intro hpasses
    by_contra hunresolvable
    rw [failsOn_assign_of_not_resolvable hunresolvable] at hpasses
    cases hpasses
  · exact failsOn_assign_of_resolvable

/-- The first field that is refused is the first one that cannot be filled. -/
theorem find?_failsOn_assign :
    target.injectedFields.find? (Logged.failsOn (assign naming owner target)) =
      firstUnresolvable? naming owner target := by
  rw [firstUnresolvable?]
  congr 1
  funext field
  by_cases hresolvable : Resolvable naming owner field.typeName
  · rw [failsOn_assign_of_resolvable hresolvable, decide_eq_true hresolvable]
    rfl
  · rw [failsOn_assign_of_not_resolvable hresolvable, decide_eq_false hresolvable]
    rfl

/-- Every field in front of the first one that cannot be filled can be filled. -/
theorem firstUnresolvable?_eq_some_iff {field : Field} :
    firstUnresolvable? naming owner target = some field ↔
      ∃ front back, target.injectedFields = front ++ field :: back ∧
        (∀ earlier ∈ front, Resolvable naming owner earlier.typeName) ∧
        ¬ Resolvable naming owner field.typeName := by
  rw [firstUnresolvable?, List.find?_eq_some_iff_append]
  constructor
  · intro h
    obtain ⟨hfield, front, back, hsplit, hfront⟩ := h
    exact ⟨front, back, hsplit, by simpa using hfront, by simpa using hfield⟩
  · intro h
    obtain ⟨front, back, hsplit, hfront, hfield⟩ := h
    exact ⟨by simpa using hfield, front, back, hsplit, by simpa using hfront⟩

/-- Emission yields the injector that wires the target, and no other. -/
theorem emit_eq_ok_iff {injector : Injector} :
    (emit naming owner target).result = .ok injector ↔ Wires naming owner target injector := by
  rw [emit, Logged.bind_eq_ok_iff]
  simp only [Logged.traverse_eq_ok_iff, assign_eq_ok_iff]
  constructor
  · intro h
    obtain ⟨statements, hstatements, hinjector⟩ := h
    cases hinjector
    exact ⟨rfl, rfl, hstatements⟩
  · intro hwires
    refine ⟨injector.statements, hwires.statements, ?_⟩
    obtain ⟨name, parameter, statements⟩ := injector
    obtain ⟨hname, hparameter, -⟩ := hwires
    subst hname hparameter
    rfl

/-- Emission is refused for the first field that cannot be filled. -/
theorem emit_eq_error_iff {fault : UnresolvableType} :
    (emit naming owner target).result = .error fault ↔
      ∃ field, firstUnresolvable? naming owner target = some field ∧
        fault = ⟨field.typeName⟩ := by
  rw [emit, Logged.bind_eq_error_iff, Logged.traverse_eq_error_iff, find?_failsOn_assign]
  constructor
  · intro h
    cases h with
    | inl hassign =>
        obtain ⟨field, hfirst, hfault⟩ := hassign
        exact ⟨field, hfirst, (assign_eq_error_iff.mp hfault).2⟩
    | inr hpublish =>
        -- Nothing fails once every field has its statement.
        obtain ⟨statements, -, hfault⟩ := hpublish
        cases hfault
  · intro h
    obtain ⟨field, hfirst, hfault⟩ := h
    obtain ⟨front, back, -, -, hunresolvable⟩ := firstUnresolvable?_eq_some_iff.mp hfirst
    left
    exact ⟨field, hfirst, assign_eq_error_iff.mpr ⟨hunresolvable, hfault⟩⟩

/-- Emission succeeds exactly if every marked field can be filled. -/
theorem emit_succeeds_iff :
    (∃ injector, (emit naming owner target).result = .ok injector) ↔
      ∀ field ∈ target.injectedFields, Resolvable naming owner field.typeName := by
  have htraverse : (∃ injector, (emit naming owner target).result = .ok injector) ↔
      ∃ statements, (Logged.traverse (assign naming owner target)
        target.injectedFields).result = .ok statements := by
    constructor
    · intro h
      obtain ⟨injector, hinjector⟩ := h
      obtain ⟨statements, hstatements, -⟩ := Logged.bind_eq_ok_iff.mp hinjector
      exact ⟨statements, hstatements⟩
    · intro h
      obtain ⟨statements, hstatements⟩ := h
      exact ⟨_, Logged.bind_eq_ok_iff.mpr ⟨statements, hstatements, rfl⟩⟩
  rw [htraverse, Logged.traverse_succeeds_iff]
  simp only [assign_succeeds_iff]

/-- An injector is emitted whole or not at all.  It is emitted exactly when every marked
field is resolvable, it is then the one injector that wires the target, and otherwise
the emission is refused for the type of the first field that is not resolvable. -/
theorem emit_all_or_nothing (naming : Naming) (owner : Component) (target : Target) :
    ((∃ injector, (emit naming owner target).result = .ok injector) ↔
      ∀ field ∈ target.injectedFields, Resolvable naming owner field.typeName) ∧
    (∀ injector, (emit naming owner target).result = .ok injector ↔
      Wires naming owner target injector) ∧
    ∀ fault, (emit naming owner target).result = .error fault ↔
      ∃ front field back, target.injectedFields = front ++ field :: back ∧
        (∀ earlier ∈ front, Resolvable naming owner earlier.typeName) ∧
        ¬ Resolvable naming owner field.typeName ∧ fault = ⟨field.typeName⟩ := by
  refine ⟨emit_succeeds_iff, fun injector => emit_eq_ok_iff, ?_⟩
  intro fault
  rw [emit_eq_error_iff]
  constructor
  · intro h
    obtain ⟨field, hfirst, hfault⟩ := h
    obtain ⟨front, back, hsplit, hfront, hfield⟩ := firstUnresolvable?_eq_some_iff.mp hfirst
    exact ⟨front, field, back, hsplit, hfront, hfield, hfault⟩
  · intro h
    obtain ⟨front, field, back, hsplit, hfront, hfield, hfault⟩ := h
    have hfirst := firstUnresolvable?_eq_some_iff.mpr ⟨front, back, hsplit, hfront, hfield⟩
    exact ⟨field, hfirst, hfault⟩

end Injector

end FieldWiring
