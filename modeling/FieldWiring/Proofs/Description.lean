import Mathlib.Data.List.Forall2
import FieldWiring.Proofs.Batch
import FieldWiring.Proofs.Refusal
import FieldWiring.Proofs.TypeNames

/-!
# What a declaration describes

What is stated on a declaration and on its members comes back in the request that is read
from it, and from there in the injector that is generated for the request.
-/

namespace FieldWiring

/-! ## Generation -/

/-- A request is served exactly if its component is known and can fill every marked field. -/
theorem Generator.generate_succeeds_iff {generator : Generator} {request : Request} :
    (∃ injector, (generator.generate request).result = .ok injector) ↔
      ∃ owner, generator.directory request.component = some owner ∧
        ∀ field ∈ request.target.injectedFields,
          Resolution.Resolvable generator.naming owner field.typeName := by
  simp only [generate_eq_ok_iff, ← Injector.emit_succeeds_iff, Injector.emit_eq_ok_iff]
  rw [exists_comm]
  simp only [exists_and_left]

/-! ## Members -/

namespace Member

variable {member : Member} {field : Field} {typeName : String}

def IsMarked (member : Member) : Prop := ∃ attr ∈ member.attributes, attr.IsNamed "inject"

instance : DecidablePred IsMarked := fun member =>
  inferInstanceAs <|
    Decidable (∃ attr ∈ member.attributes, Source.tokens attr.path = [.word "inject"])

/-- The member's first `inject` attribute sets the type name, last to this. -/
def StatesTypeName (member : Member) (typeName : String) : Prop :=
  ∃ attr settings, Attribute.IsFirst attr member.attributes "inject" ∧
    attr.Lists ["type_name"] settings ∧ IsLastSetting settings "type_name" typeName

/-- The type name that is stated, or else the name of the declared type. -/
def HasTypeName (member : Member) (typeName : String) : Prop :=
  member.StatesTypeName typeName ∨
    (∀ other, ¬ member.StatesTypeName other) ∧ typeName = Source.typeName member.declaredType

/-- The field is what the member and its attributes say, and the declared type has the name
that its source calls for. -/
structure Describes (member : Member) (field : Field) : Prop where
  name : Source.Spells member.name field.name
  typeName : member.HasTypeName field.typeName
  declared : Source.Names member.declaredType (Source.typeName member.declaredType)
  injected : member.IsMarked ↔ field.injected = true

/-- The type name that a member states is the one that is read from its attribute. -/
theorem statesTypeName_iff {attr : Attribute} {stated : Option String}
    (hattr : attr.IsFirst member.attributes "inject") (hstated : attr.statedType = .ok stated) :
    member.StatesTypeName typeName ↔ stated = some typeName := by
  constructor
  · intro h
    obtain ⟨other, settings, hother, hlists, hlast⟩ := h
    rw [hother.unique hattr] at hlists
    have hread := Attribute.statedType_eq_ok_iff.mpr (.inr ⟨settings, hlists, rfl⟩)
    rw [hstated, lastSetting?_eq_some_iff.mpr hlast] at hread
    exact Except.ok.inj hread
  · intro heq
    rw [heq] at hstated
    rcases Attribute.statedType_eq_ok_iff.mp hstated with ⟨-, hnone⟩ | ⟨settings, hlists, hlast⟩
    · cases hnone
    · exact ⟨attr, settings, hattr, hlists, lastSetting?_eq_some_iff.mp hlast.symm⟩

/-- The two members are the same but for how their types are written. -/
structure SameUpToBlanks (left right : Member) : Prop where
  name : left.name = right.name
  declaredType : Source.SameUpToBlanks left.declaredType right.declaredType
  attributes : left.attributes = right.attributes

/-- Members that differ in blanks only describe one field. -/
theorem SameUpToBlanks.field_eq {left right : Member} (hsame : left.SameUpToBlanks right) :
    left.field = right.field := by
  have hname : left.fieldName = right.fieldName := by rw [fieldName, fieldName, hsame.name]
  have htype : left.typeName = right.typeName :=
    Source.typeName_eq_of_sameUpToBlanks hsame.declaredType
  rw [Member.field, Member.field, hname, htype, hsame.attributes]

/-- The field that is read from a member is the one that the member describes. -/
theorem describes_of_field (hfield : member.field = .ok field) : member.Describes field := by
  have hname := Source.spells_condensed member.name
  have hdeclared := Source.names_typeName member.declaredType
  rcases Attribute.none_or_isFirst member.attributes "inject" with hnone | ⟨attr, hattr⟩
  · rw [field_of_not_isNamed hnone] at hfield
    cases hfield
    refine ⟨hname, .inr ⟨?_, rfl⟩, hdeclared, ?_⟩
    · intro other hother
      obtain ⟨attr, -, hattr, -⟩ := hother
      exact hnone attr hattr.mem hattr.isNamed
    · simpa [IsMarked] using hnone
  · rw [field_of_isFirst hattr] at hfield
    obtain ⟨stated, hstated, heq⟩ := map_eq_ok_iff.mp hfield
    cases heq
    refine ⟨hname, ?_, hdeclared, iff_of_true ⟨attr, hattr.mem, hattr.isNamed⟩ rfl⟩
    cases stated with
    | some stated => exact .inl ((statesTypeName_iff hattr hstated).mpr rfl)
    | none =>
        refine .inr ⟨?_, rfl⟩
        intro other hother
        cases (statesTypeName_iff hattr hstated).mp hother

theorem StatesTypeName.unique {other : String} (hstates : member.StatesTypeName typeName)
    (hother : member.StatesTypeName other) : typeName = other := by
  obtain ⟨attr, settings, hattr, hlists, hlast⟩ := hstates
  have hread := Attribute.statedType_eq_ok_iff.mpr (.inr ⟨settings, hlists, rfl⟩)
  rw [lastSetting?_eq_some_iff.mpr hlast] at hread
  exact Option.some.inj ((statesTypeName_iff hattr hread).mp hother)

/-- A member has one type name. -/
theorem HasTypeName.unique {other : String} (hhas : member.HasTypeName typeName)
    (hother : member.HasTypeName other) : typeName = other := by
  rcases hhas with hstates | ⟨hnone, hnames⟩
  · rcases hother with hstates' | ⟨hnone, -⟩
    · exact hstates.unique hstates'
    · exact absurd hstates (hnone typeName)
  · rcases hother with hstates | ⟨-, hnames'⟩
    · exact absurd hstates (hnone other)
    · exact hnames.trans hnames'.symm

/-- The statement assigns the declared member what its type name gives access to. -/
structure FilledBy (naming : Naming) (owner : Component) (member : Member)
    (statement : Assignment) : Prop where
  receiver : statement.receiver = naming.parameterName
  fieldName : Source.Spells member.name statement.fieldName
  accessor : ∃ typeName, member.HasTypeName typeName ∧
    Resolution.Accesses naming owner typeName statement.accessor

variable {naming : Naming} {owner : Component}

/-- Filling a member is filling the field that it describes. -/
theorem Describes.filledBy_iff (hdescribes : member.Describes field) (statement : Assignment) :
    member.FilledBy naming owner statement ↔ Injector.Fills naming owner field statement := by
  constructor
  · intro hfilled
    obtain ⟨typeName, htypeName, haccess⟩ := hfilled.accessor
    rw [htypeName.unique hdescribes.typeName] at haccess
    refine ⟨hfilled.receiver, ?_, haccess⟩
    rw [hfilled.fieldName.condensed, hdescribes.name.condensed]
  · intro hfills
    refine ⟨hfills.receiver, ?_, field.typeName, hdescribes.typeName, hfills.accessor⟩
    rw [hfills.fieldName]
    exact hdescribes.name

theorem Describes.resolvable_iff (hdescribes : member.Describes field) :
    (∃ typeName, member.HasTypeName typeName ∧ Resolution.Resolvable naming owner typeName) ↔
      Resolution.Resolvable naming owner field.typeName := by
  constructor
  · intro h
    obtain ⟨typeName, htypeName, hresolvable⟩ := h
    exact htypeName.unique hdescribes.typeName ▸ hresolvable
  · intro hresolvable
    exact ⟨field.typeName, hdescribes.typeName, hresolvable⟩

/-- Marked members describe marked fields, in order. -/
theorem forall₂_marked {members : List Member} {fields : List Field}
    (hdescribes : List.Forall₂ Describes members fields) :
    List.Forall₂ Describes (members.filter fun member => decide member.IsMarked)
      (fields.filter Field.injected) := by
  apply List.rel_filter _ hdescribes
  intro member field hdescribes
  simpa using hdescribes.injected

end Member

/-! ## Declarations -/

inductive Body.SameUpToBlanks : Body → Body → Prop where
  | named {left right : List Member} (hmembers : List.Forall₂ Member.SameUpToBlanks left right) :
      SameUpToBlanks (.named left) (.named right)
  | same (body : Body) : SameUpToBlanks body body

theorem Body.SameUpToBlanks.isStruct_eq {left right : Body} (hsame : left.SameUpToBlanks right) :
    left.isStruct = right.isStruct := by
  cases hsame with
  | named hmembers => rfl
  | same => rfl

theorem Body.SameUpToBlanks.fields_eq {left right : Body} (hsame : left.SameUpToBlanks right) :
    left.fields = right.fields := by
  cases hsame with
  | same => rfl
  | named hmembers =>
      rw [Body.fields, Body.fields]
      induction hmembers with
      | nil => rfl
      | cons hhead _ ih => rw [List.mapM_cons, List.mapM_cons, hhead.field_eq, ih]

namespace Declaration

variable {declaration : Declaration} {request : Request}

def SetsOr (settings : List (String × String)) (key default value : String) : Prop :=
  IsLastSetting settings key value ∨ (∀ setting ∈ settings, setting.1 ≠ key) ∧ value = default

/-- The component and the names of the request are those that the attribute's settings and
the declared name call for. -/
structure NamesRequest (settings : List (String × String)) (name : String) (request : Request) :
    Prop where
  component : IsLastSetting settings "component" request.component
  simpleName : SetsOr settings "name" name request.target.simpleName
  typeName : SetsOr settings "type_name" request.target.simpleName request.target.typeName

/-- The request has a field for each member, and the names that the declaration's first
attribute of its own states. -/
structure Describes (declaration : Declaration) (request : Request) : Prop where
  fields : ∃ members, declaration.body.namedMembers? = some members ∧
    List.Forall₂ Member.Describes members request.target.fields
  names : ∃ attr settings name,
    Attribute.IsFirst attr declaration.attributes "injection_target" ∧
    attr.Lists Attribute.targetKeys settings ∧ Source.Spells declaration.name name ∧
    NamesRequest settings name request

theorem setsOr_getD (settings : List (String × String)) (key default : String) :
    SetsOr settings key default ((lastSetting? settings key).getD default) := by
  cases hlast : lastSetting? settings key with
  | some value => exact .inl (lastSetting?_eq_some_iff.mp hlast)
  | none => exact .inr ⟨lastSetting?_eq_none_iff.mp hlast, rfl⟩

/-- A declaration is read from its fields and its settings, once all checks before them are
passed. -/
theorem request_eq_ok_iff :
    declaration.request = .ok request ↔
      declaration.HasFields ∧ ∃ fields settings, declaration.body.fields = .ok fields ∧
        declaration.settings = .ok settings ∧
        declaration.describe fields settings = .ok request := by
  constructor
  · intro hrequest
    rcases readable_or_refused declaration with hreadable | ⟨fault, hrefused⟩
    · obtain ⟨-, -, fields, hfields⟩ := hasFields_iff.mp hreadable.toHasFields
      rw [request_of_hasFields hfields hreadable.toHasFields] at hrequest
      cases hsettings : declaration.settings with
      | error fault =>
          rw [hsettings] at hrequest
          cases hrequest
      | ok settings =>
          rw [hsettings] at hrequest
          exact ⟨hreadable.toHasFields, fields, settings, hfields, rfl, hrequest⟩
    · rw [request_of_refused hrefused] at hrequest
      cases hrequest
  · intro h
    obtain ⟨hchecked, fields, settings, hfields, hsettings, hdescribe⟩ := h
    rw [request_of_hasFields hfields hchecked, hsettings]
    exact hdescribe

/-- A request says what its declaration says. -/
theorem describes_of_request (hrequest : declaration.request = .ok request) :
    declaration.Describes request := by
  obtain ⟨-, fields, settings, hfields, hsettings, hdescribe⟩ := request_eq_ok_iff.mp hrequest
  obtain ⟨members, hnamed, hmembers⟩ := Body.fields_eq_ok_iff.mp hfields
  obtain ⟨attr, hattr, hlists⟩ := settings_eq_ok_iff.mp hsettings
  obtain ⟨component, hcomponent, heq⟩ := describe_eq_ok_iff.mp hdescribe
  subst heq
  constructor
  · exact ⟨members, hnamed, hmembers.imp fun _ _ => Member.describes_of_field⟩
  · refine ⟨attr, settings, _, hattr, hlists, Source.spells_condensed declaration.name, ?_⟩
    exact ⟨hcomponent, setsOr_getD settings "name" _, setsOr_getD settings "type_name" _⟩

/-! ## Injectors -/

variable {naming : Naming} {owner : Component} {injector : Injector}

def marked (declaration : Declaration) : List Member :=
  (declaration.body.namedMembers?.getD []).filter fun member => decide member.IsMarked

def IsFillable (naming : Naming) (owner : Component) (declaration : Declaration) : Prop :=
  ∀ member ∈ declaration.marked, ∃ typeName, member.HasTypeName typeName ∧
    Resolution.Resolvable naming owner typeName

/-- The injector is the declared type's own, with one statement for each marked member. -/
structure WiredBy (naming : Naming) (owner : Component) (declaration : Declaration)
    (request : Request) (injector : Injector) : Prop where
  name : injector.name = request.target.simpleName ++ naming.injectorSuffix
  parameter : injector.parameter = ⟨naming.parameterName, request.target.typeName, true⟩
  statements : List.Forall₂ (Member.FilledBy naming owner) declaration.marked injector.statements

theorem Describes.marked (hdescribes : declaration.Describes request) :
    List.Forall₂ Member.Describes declaration.marked request.target.injectedFields := by
  obtain ⟨members, hnamed, hmembers⟩ := hdescribes.fields
  rw [Declaration.marked, hnamed]
  exact Member.forall₂_marked hmembers

/-- The owner can fill the declaration's members exactly if it can fill the request's fields. -/
theorem Describes.isFillable_iff (hdescribes : declaration.Describes request) :
    declaration.IsFillable naming owner ↔
      ∀ field ∈ request.target.injectedFields,
        Resolution.Resolvable naming owner field.typeName := by
  apply forall_mem_iff_of_forall₂ hdescribes.marked
  intro member field hmember
  exact hmember.resolvable_iff

/-- An injector is wired by a declaration exactly if it wires the described target. -/
theorem Describes.wiredBy_iff (hdescribes : declaration.Describes request) :
    declaration.WiredBy naming owner request injector ↔
      Injector.Wires naming owner request.target injector := by
  have hstatements : List.Forall₂ (Member.FilledBy naming owner) declaration.marked
      injector.statements ↔
      List.Forall₂ (Injector.Fills naming owner) request.target.injectedFields
        injector.statements := by
    apply forall₂_iff_of_forall₂ hdescribes.marked
    intro member field hmember
    exact hmember.filledBy_iff
  constructor
  · intro hwired
    exact ⟨hwired.name, hwired.parameter, hstatements.mp hwired.statements⟩
  · intro hwires
    exact ⟨hwires.name, hwires.parameter, hstatements.mpr hwires.statements⟩

/-! ## Declarations that differ in blanks -/

/-- The two declarations are the same but for how the types of their members are written. -/
structure SameUpToBlanks (left right : Declaration) : Prop where
  name : left.name = right.name
  generics : left.generics = right.generics
  attributes : left.attributes = right.attributes
  body : left.body.SameUpToBlanks right.body

/-- Declarations that differ in blanks only are read alike. -/
theorem SameUpToBlanks.request_eq {left right : Declaration} (hsame : left.SameUpToBlanks right) :
    left.request = right.request := by
  have hgeneric : left.isGeneric = right.isGeneric := by
    rw [isGeneric, isGeneric, hsame.generics]
  have hsettings : left.settings = right.settings := by
    rw [Declaration.settings, Declaration.settings, hsame.attributes]
  have hdescribe : left.describe = right.describe := by
    funext fields settings
    rw [describe, describe, hsame.name]
  rw [Declaration.request, Declaration.request, hsame.body.isStruct_eq, hgeneric,
    hsame.body.fields_eq, hsettings, hdescribe]

/-! ## Requests -/

/-- A request says what its declaration says, with type names that are stated or else the
declared types, and the injector that is generated for it does what the declaration says.
Blanks in the declared types make no difference. -/
theorem request_describes {declaration : Declaration} {request : Request}
    (hrequest : declaration.request = .ok request) :
    declaration.Describes request ∧
    (∀ generator : Generator,
      ((∃ injector, (generator.generate request).result = .ok injector) ↔
        ∃ owner, generator.directory request.component = some owner ∧
          declaration.IsFillable generator.naming owner) ∧
      ∀ injector, (generator.generate request).result = .ok injector ↔
        ∃ owner, generator.directory request.component = some owner ∧
          declaration.WiredBy generator.naming owner request injector) ∧
    ∀ other, declaration.SameUpToBlanks other → other.request = .ok request := by
  have hdescribes := describes_of_request hrequest
  refine ⟨hdescribes, ?_, ?_⟩
  · intro generator
    have hgenerated : ∀ injector, (generator.generate request).result = .ok injector ↔
        ∃ owner, generator.directory request.component = some owner ∧
          declaration.WiredBy generator.naming owner request injector := by
      intro injector
      rw [Generator.generate_eq_ok_iff]
      simp only [hdescribes.wiredBy_iff]
    refine ⟨?_, hgenerated⟩
    rw [Generator.generate_succeeds_iff]
    simp only [hdescribes.isFillable_iff]
  · intro other hsame
    rw [← hsame.request_eq]
    exact hrequest

def activityOf (user theme palette pair : String) : Declaration where
  name := "Main"
  attributes :=
    [⟨"injection_target",
      .arguments [⟨"component", .text "Settings", ""⟩, ⟨"component", .text "App", ""⟩] true⟩]
  body := .named
    [⟨"user", user, [⟨"inject", .arguments [⟨"type_name", .text "Preference_User", ""⟩] false⟩]⟩,
      ⟨"theme", theme, [⟨"inject", .bare⟩]⟩, ⟨"palette", palette, []⟩, ⟨"pair", pair, []⟩]

def activity : Declaration :=
  activityOf "Option < User >" "com :: Preference_Theme" "[Cow<'a, 'b>; 4]" "Foo<T, 'a>"

def activityWithoutBlanks : Declaration :=
  activityOf "Option<User>" "com::Preference_Theme" "[Cow<'a,'b>;4]" "Foo<T,'a>"

def activityRequest : Request where
  component := "App"
  target := ⟨"Main", "Main",
    [⟨"user", "Preference_User", true⟩, ⟨"theme", "com::Preference_Theme", true⟩,
      ⟨"palette", "[Cow<'a,'b>;4]", false⟩, ⟨"pair", "Foo<'a,T,>", false⟩]⟩

theorem activity_sameUpToBlanks : activity.SameUpToBlanks activityWithoutBlanks := by
  have hpalette : ∀ joined, Source.IsType (fun _ => True) true
      (Source.inBrackets '[' ']' ([Source.wordOf "Cow".toList, Source.markOf '<' true,
        Source.lifetimeOf "'a".toList, Source.markOf ',' joined, Source.lifetimeOf "'b".toList,
        Source.markOf '>' true] ++ [Source.markOf ';' false, ⟨.number, ['4'], false⟩]))
      "[Cow<'a,'b>;4]".toList := fun joined =>
    .array true false (Source.isType_generic "Cow".toList true true (by decide)
      (.cons joined (.lifetime "'a".toList) (.last (.lifetime "'b".toList))) trivial)
      (Source.isLength_number ['4'])
  have hpair : ∀ joined, Source.IsType (fun _ => True) true
      [Source.wordOf "Foo".toList, Source.markOf '<' false, Source.wordOf "T".toList,
        Source.markOf ',' joined, Source.lifetimeOf "'a".toList, Source.markOf '>' false]
      "Foo<'a,T,>".toList := fun joined =>
    Source.isType_generic "Foo".toList false false (by decide)
      (.cons joined (.type (Source.isType_name true "T".toList (by decide)))
        (.last (.lifetime "'a".toList))) trivial
  refine ⟨rfl, rfl, rfl, .named (.cons ?_ (.cons ?_ (.cons ?_ (.cons ?_ .nil))))⟩
  · exact ⟨rfl, .lexemes (by decide), rfl⟩
  · exact ⟨rfl, .lexemes (by decide), rfl⟩
  · exact ⟨rfl, .printed (hpalette false) (hpalette true), rfl⟩
  · exact ⟨rfl, .printed (hpair false) (hpair true), rfl⟩

theorem request_describes_activity :
    activity.request = .ok activityRequest ∧ activity.Describes activityRequest ∧
    activityWithoutBlanks.request = .ok activityRequest :=
  ⟨rfl, (request_describes rfl).1, (request_describes rfl).2.2 _ activity_sameUpToBlanks⟩

def pairOf (declaredType : String) : Declaration where
  name := "Main"
  attributes := [⟨"injection_target", .arguments [⟨"component", .text "App", ""⟩] false⟩]
  body := .named [⟨"pair", declaredType, []⟩]

/-- A type whose arguments are moved is not called by its source, and a blank can decide
whether they are. -/
theorem pairOf_request_moves :
    (pairOf "Foo<T, 'a>").request = .ok ⟨"App", "Main", "Main", [⟨"pair", "Foo<'a,T,>", false⟩]⟩ ∧
    "Foo<'a,T,>" ≠ String.ofList (Text.withoutBlanks "Foo<T, 'a>".toList) ∧
    Text.withoutBlanks "fn(mut self: Foo<T, 'a>)".toList =
      Text.withoutBlanks "fn(mutself: Foo<T, 'a>)".toList ∧
    (pairOf "fn(mut self: Foo<T, 'a>)").request ≠ (pairOf "fn(mutself: Foo<T, 'a>)").request := by
  have hkept : (pairOf "fn(mut self: Foo<T, 'a>)").request =
      .ok ⟨"App", "Main", "Main", [⟨"pair", "fn(mutself:Foo<T,'a>)", false⟩]⟩ := rfl
  have hmoved : (pairOf "fn(mutself: Foo<T, 'a>)").request =
      .ok ⟨"App", "Main", "Main", [⟨"pair", "fn(mutself:Foo<'a,T,>)", false⟩]⟩ := rfl
  refine ⟨rfl, by decide, by decide, ?_⟩
  rw [hkept, hmoved]
  simp

end Declaration

end FieldWiring
