import FieldWiring.Logged
import FieldWiring.Registry

/-!
# Generation of injectors

A generator serves requests: each names a component and describes a target that the
component is to fill.  What it yields are injectors, the classes that do so.
-/

namespace FieldWiring

/-! ## Injection targets

A target is a type whose marked fields are filled from a component.  Fields stand in
declaration order, marked or not.  A request names the component that is to fill it.
-/

/-- A declared field; `injected` says whether it is marked for injection. -/
structure Field where
  name : String
  typeName : String
  injected : Bool
deriving DecidableEq, Repr

/-- A type with fields to inject.  Generated code refers to it by `typeName`, which is
the simple name unless stated otherwise. -/
structure Target where
  simpleName : String
  typeName : String := simpleName
  fields : List Field
deriving DecidableEq, Repr

namespace Target

def injectedFields (target : Target) : List Field :=
  target.fields.filter Field.injected

end Target

/-- A target and the name of the component that owns it. -/
structure Request where
  component : String
  target : Target
deriving DecidableEq, Repr

/-! ## Injectors

An injector is a class with one constructor, which takes a target and assigns its
marked fields.  It is emitted whole or not at all: the first field that cannot be
resolved ends the emission.
-/

structure Assignment where
  receiver : String
  fieldName : String
  accessor : String
deriving DecidableEq, Repr

def Assignment.text (assignment : Assignment) : String :=
  assignment.receiver ++ "." ++ assignment.fieldName ++ " = " ++ assignment.accessor

structure Parameter where
  name : String
  typeName : String
  nonNull : Bool
deriving DecidableEq, Repr

/-- A generated class: its name, its constructor's parameter and the assignments, in
the order of the target's fields. -/
structure Injector where
  name : String
  parameter : Parameter
  statements : List Assignment
deriving DecidableEq, Repr

namespace Injector

def assign (naming : Naming) (owner : Component) (target : Target) (field : Field) :
    Logged UnresolvableType Assignment := do
  let resolution := Resolution.ofType naming owner field.typeName
  .log (.resolved field.name field.typeName resolution)
  match resolution.accessor naming owner with
  | .ok accessor => pure ⟨naming.parameterName, field.name, accessor⟩
  | .error cause =>
      .log (.aborting target.simpleName field.name cause)
      .fail cause

def ofStatements (naming : Naming) (target : Target) (statements : List Assignment) :
    Injector where
  name := naming.injectorName target.simpleName
  parameter := ⟨naming.parameterName, target.typeName, true⟩
  statements := statements

/-- Emits the injector of a target that the given component owns. -/
def emit (naming : Naming) (owner : Component) (target : Target) :
    Logged UnresolvableType Injector := do
  let statements ← Logged.traverse (assign naming owner target) target.injectedFields
  let injector := ofStatements naming target statements
  .log (.generated injector.name statements.length)
  pure injector

end Injector

/-! ## Generators

A generator serves requests: each names a component and describes a target that the
component is to fill.  Several requests are served in order, and what they yield is
published sorted by name, provided that no name occurs twice.
-/

/-- Why generation failed, in the order in which failures are listed. -/
inductive GenerationError where
  | unknownComponent (component target : String)
  | duplicateInjector (name : String)
  | unresolvable (cause : UnresolvableType)
deriving DecidableEq, Repr, Ord

namespace GenerationError

def message : GenerationError → String
  | unknownComponent component target =>
      "Cannot find component '" ++ component ++ "' owning injection target: " ++ target
  | duplicateInjector name => "Multiple injection targets would generate injector: " ++ name
  | unresolvable cause => cause.message

/-- Lists failures by kind, then by the names in them. -/
def sort (faults : List GenerationError) : List GenerationError :=
  faults.mergeSort fun left right => (compare left right).isLE

end GenerationError

/-- The first name that is followed by itself. -/
def adjacentDuplicate? : List String → Option String
  | first :: second :: rest =>
      if first = second then some first else adjacentDuplicate? (second :: rest)
  | _ => none

/-- Publishes injectors that are sorted by name, unless two of them share one. -/
def publish (injectors : List Injector) : Logged GenerationError (List Injector) :=
  match adjacentDuplicate? (injectors.map Injector.name) with
  | some name => .fail (.duplicateInjector name)
  | none => do
      .log (.published injectors.length)
      pure injectors

/-- What injectors are generated with. -/
structure Generator where
  directory : Directory := Registry.empty.find?
  naming : Naming := {}

namespace Generator

def generate (generator : Generator) (request : Request) : Logged GenerationError Injector :=
  match generator.directory request.component with
  | none => .fail (.unknownComponent request.component request.target.simpleName)
  | some owner => do
      .log (.generating request.component request.target.simpleName)
      (Injector.emit generator.naming owner request.target).mapError .unresolvable

/-- Generates the injectors of all requests and publishes them by name. -/
def generateAll (generator : Generator) (requests : List Request) :
    Logged GenerationError (List Injector) := do
  let injectors ← Logged.traverse generator.generate requests
  publish (injectors.mergeSort fun left right => decide (left.name ≤ right.name))

def bySimpleName (requests : List Request) : List Request :=
  requests.mergeSort fun left right => decide (left.target.simpleName ≤ right.target.simpleName)

/-- Generates the injectors of all registered requests, in the order of their targets'
simple names. -/
def generateRegistered (generator : Generator) (registered : List Request) :
    Logged GenerationError (List Injector) := do
  .log (.found registered.length)
  generator.generateAll (bySimpleName registered)

end Generator

end FieldWiring
