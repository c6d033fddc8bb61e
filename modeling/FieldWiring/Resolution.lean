import FieldWiring.Text
import FieldWiring.Text.Hidden

/-!
# Resolution of fields

A field of a target is filled with a value of the owning component, or with the
component itself; which of the two is decided by the field's type name alone.
-/

namespace FieldWiring

/-! ## Naming

Components, injectors and the calls between them are tied together by name alone.
The four texts from which the names are built are kept in one record, and each name
is a function of that record.
-/

/-- The texts from which generated names are built. -/
structure Naming where
  /-- Put in front of a component's name to form its class name. -/
  componentPrefix : String := "PreferenceComponent_"
  /-- Removed from the front of an exposed type to form its getter. -/
  valuePrefix : String := "Preference_"
  /-- Put behind a target's simple name to form its injector's name. -/
  injectorSuffix : String := "_Injector"
  /-- The name of the only constructor parameter of an injector. -/
  parameterName : String := "injectObject"
deriving DecidableEq, Repr

namespace Naming

def isSeparator (c : Char) : Bool := c == '.' || c == ':'

def injectorName (naming : Naming) (simpleName : String) : String :=
  simpleName ++ naming.injectorSuffix

def componentClass (naming : Naming) (component : String) : String :=
  naming.componentPrefix ++ component

/-- The getter of an exposed type: its last segment, without the value prefix if it
starts with that. -/
def getter (naming : Naming) (typeName : String) : String :=
  String.ofList <|
    Text.withoutStart naming.valuePrefix.toList (Text.afterLast isSeparator typeName.toList)

/-- Distinct targets have distinct injectors. -/
theorem injectorName_injective (naming : Naming) {left right : String}
    (heq : naming.injectorName left = naming.injectorName right) : left = right :=
  (String.append_left_inj naming.injectorSuffix).mp heq

/-- Distinct components have distinct classes. -/
theorem componentClass_injective (naming : Naming) {left right : String}
    (heq : naming.componentClass left = naming.componentClass right) : left = right :=
  (String.append_right_inj naming.componentPrefix).mp heq

end Naming

/-! ## Components

A component owns values.  It is known by its name and by the type names of the
values that it exposes; nothing else of it is visible to an injector.
-/

/-- A component and the type names that it exposes, in the order given. -/
structure Component where
  name : String
  exposed : List String
deriving DecidableEq, Repr

namespace Component

def exposes (component : Component) (typeName : String) : Bool :=
  component.exposed.contains typeName

theorem exposes_iff {component : Component} {typeName : String} :
    component.exposes typeName = true ↔ typeName ∈ component.exposed := by
  simp [exposes]

end Component

/-! ## Resolution

A field of a target is filled with a value of the owning component, or with the
component itself; which of the two is decided by the field's type name alone.  An
exposed type takes precedence, and an exposed type without a getter is given up
rather than tried as the component.
-/

inductive Resolution where
  /-- A value of the component, behind a getter. -/
  | value (getter : String)
  | component
  /-- Nothing: the component has no use for the type. -/
  | unresolvable (typeName : String)
deriving DecidableEq, Repr

/-- The refusal of a field's type. -/
structure UnresolvableType where
  typeName : String
deriving DecidableEq, Repr, Ord

def UnresolvableType.message (fault : UnresolvableType) : String :=
  "'" ++ fault.typeName ++ "' type can not be injected"

namespace Resolution

def text : Resolution → String
  | value getter => "ComponentValue \x7b getter: " ++ Text.inQuotes getter ++ " \x7d"
  | component => "ComponentItself"
  | unresolvable typeName => "Unresolvable(" ++ Text.inQuotes typeName ++ ")"

/-- Decides what a field of the given type is filled with. -/
def ofType (naming : Naming) (owner : Component) (typeName : String) : Resolution :=
  if owner.exposes typeName then
    if naming.getter typeName = "" then .unresolvable typeName
    else .value (naming.getter typeName)
  else if typeName = naming.componentClass owner.name then .component
  else .unresolvable typeName

def accessor (naming : Naming) (owner : Component) :
    Resolution → Except UnresolvableType String
  | value getter => .ok (naming.componentClass owner.name ++ ".getInstance()." ++ getter ++ "()")
  | component => .ok (naming.componentClass owner.name ++ ".getInstance()")
  | unresolvable typeName => .error ⟨typeName⟩

/-- A type that the owner exposes under a getter, or that is the owner's class and not
exposed. -/
def Resolvable (naming : Naming) (owner : Component) (typeName : String) : Prop :=
  (typeName ∈ owner.exposed ∧ naming.getter typeName ≠ "") ∨
    (typeName ∉ owner.exposed ∧ typeName = naming.componentClass owner.name)

/-- Only an unresolvable type is refused, and by its own name. -/
theorem accessor_ofType_eq_error_iff {naming : Naming} {owner : Component} {typeName : String}
    {fault : UnresolvableType} :
    accessor naming owner (ofType naming owner typeName) = .error fault ↔
      ¬ Resolvable naming owner typeName ∧ fault = ⟨typeName⟩ := by
  have hfault : ∀ message : UnresolvableType, message = fault ↔ fault = message := fun _ => eq_comm
  by_cases hexposed : typeName ∈ owner.exposed
  · have hexposes := Component.exposes_iff.mpr hexposed
    by_cases hgetter : naming.getter typeName = "" <;>
      simp [ofType, Resolvable, accessor, hexposes, hexposed, hgetter, hfault]
  · have hexposes : owner.exposes typeName = false :=
      Bool.eq_false_iff.mpr fun h => hexposed (Component.exposes_iff.mp h)
    by_cases hclass : typeName = naming.componentClass owner.name
    · simp [ofType, Resolvable, accessor, hexposes, hexposed, ← hclass]
    · simp [ofType, Resolvable, accessor, hexposes, hexposed, hclass, hfault]

end Resolution

end FieldWiring
