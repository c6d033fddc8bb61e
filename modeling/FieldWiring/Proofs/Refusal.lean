import FieldWiring.Declaration
import FieldWiring.Proofs.Arguments
import FieldWiring.Proofs.Traversal

/-!
# Which declarations are refused

A declaration has to pass checks in a fixed order: its body, its generics, its members one
by one, and its own attribute.  It is read exactly if it passes them all, and refused with
the fault of the first one that it does not pass.  Of several attributes with one name only
the first is looked at, by every check.
-/

namespace FieldWiring

open Source (Token)

theorem map_eq_ok_iff {ε α β : Type} {result : Except ε α} {change : α → β} {value : β} :
    result.map change = .ok value ↔ ∃ found, result = .ok found ∧ change found = value := by
  cases result <;> simp [Except.map]

theorem map_eq_error_iff {ε α β : Type} {result : Except ε α} {change : α → β} {fault : ε} :
    result.map change = .error fault ↔ result = .error fault := by
  cases result <;> simp [Except.map]

/-! ## Attributes -/

namespace Attribute

variable {attr : Attribute} {known : List String} {unknown fault : DeclarationError}
  {settings : List (String × String)}

def IsNamed (attr : Attribute) (path : String) : Prop := Source.tokens attr.path = [.word path]

def listTokens? (attr : Attribute) : Option (List Token) :=
  match attr.content with
  | .bare | .value _ => none
  | .arguments arguments trailingComma => some (argumentTokens arguments trailingComma)

/-- The attribute's arguments set known keys to texts. -/
def Lists (attr : Attribute) (known : List String) (settings : List (String × String)) : Prop :=
  ∃ tokens, attr.listTokens? = some tokens ∧ SetsKeys known tokens settings

/-- One of the attribute's arguments is faulty, and none before it. -/
def IsFaultyList (attr : Attribute) (known : List String) (unknown fault : DeclarationError) :
    Prop :=
  ∃ tokens, attr.listTokens? = some tokens ∧ FaultyArguments known unknown tokens fault

/-- The attribute is the first one with exactly this path. -/
def IsFirst (attr : Attribute) (attributes : List Attribute) (path : String) : Prop :=
  ∃ front back, attributes = front ++ attr :: back ∧ attr.IsNamed path ∧
    ∀ earlier ∈ front, ¬ earlier.IsNamed path

/-- A lookup finds the first attribute with this path. -/
theorem findAttribute?_eq_some_iff {attributes : List Attribute} {path : String} :
    findAttribute? attributes path = some attr ↔ attr.IsFirst attributes path := by
  rw [findAttribute?, List.find?_eq_some_iff_append]
  simp only [IsFirst, IsNamed, beq_iff_eq, Bool.not_eq_true', beq_eq_false_iff_ne]
  constructor
  · intro h
    obtain ⟨hnamed, front, back, hsplit, hfront⟩ := h
    exact ⟨front, back, hsplit, hnamed, hfront⟩
  · intro h
    obtain ⟨front, back, hsplit, hnamed, hfront⟩ := h
    exact ⟨hnamed, front, back, hsplit, hfront⟩

theorem findAttribute?_eq_none_iff {attributes : List Attribute} {path : String} :
    findAttribute? attributes path = none ↔ ∀ attr ∈ attributes, ¬ attr.IsNamed path := by
  rw [findAttribute?, List.find?_eq_none]
  simp only [IsNamed, beq_iff_eq]

theorem IsFirst.mem {attributes : List Attribute} {path : String}
    (hattr : attr.IsFirst attributes path) : attr ∈ attributes := by
  obtain ⟨front, back, hsplit, -⟩ := hattr
  rw [hsplit]
  exact List.mem_append_right front List.mem_cons_self

theorem IsFirst.isNamed {attributes : List Attribute} {path : String}
    (hattr : attr.IsFirst attributes path) : attr.IsNamed path := by
  obtain ⟨front, back, -, hnamed, -⟩ := hattr
  exact hnamed

/-- Either no attribute has this path, or one is the first that has. -/
theorem none_or_isFirst (attributes : List Attribute) (path : String) :
    (∀ attr ∈ attributes, ¬ attr.IsNamed path) ∨
      ∃ attr : Attribute, attr.IsFirst attributes path := by
  cases hfound : findAttribute? attributes path with
  | none => exact .inl (findAttribute?_eq_none_iff.mp hfound)
  | some attr => exact .inr ⟨attr, findAttribute?_eq_some_iff.mp hfound⟩

theorem IsFirst.unique {attributes : List Attribute} {path : String} {other : Attribute}
    (hattr : attr.IsFirst attributes path) (hother : other.IsFirst attributes path) :
    attr = other := by
  rw [← findAttribute?_eq_some_iff] at hattr hother
  exact Option.some.inj (hattr.symm.trans hother)

/-- A member's attribute states a type, or none, exactly if it stands alone or its
arguments set nothing else. -/
theorem statedType_eq_ok_iff {stated : Option String} :
    attr.statedType = .ok stated ↔
      attr.content = .bare ∧ stated = none ∨
        ∃ settings, attr.Lists ["type_name"] settings ∧
          stated = lastSetting? settings "type_name" := by
  simp only [statedType, Lists, listTokens?]
  cases hcontent : attr.content with
  | bare => simp [eq_comm]
  | value text => simp
  | arguments arguments trailingComma =>
      simp only [map_eq_ok_iff, readArguments_eq_ok_iff]
      simp [eq_comm]

/-- A member's attribute is refused for being set to a value or for its first faulty argument. -/
theorem statedType_eq_error_iff :
    attr.statedType = .error fault ↔
      (∃ text, attr.content = .value text) ∧ fault = .unsupportedInject ∨
        attr.IsFaultyList ["type_name"] .unsupportedInject fault := by
  simp only [statedType, IsFaultyList, listTokens?]
  cases hcontent : attr.content with
  | bare => simp
  | value text => simp [eq_comm]
  | arguments arguments trailingComma =>
      simp only [map_eq_error_iff, readArguments_eq_error_iff]
      simp

def targetKeys : List String := ["component", "name", "type_name"]

/-- A declaration's attribute has settings exactly if it lists them. -/
theorem targetSettings_eq_ok_iff :
    attr.targetSettings = .ok settings ↔ attr.Lists targetKeys settings := by
  simp only [targetSettings, Lists, listTokens?]
  cases hcontent : attr.content with
  | bare => simp
  | value text => simp
  | arguments arguments trailingComma =>
      simp only [readArguments_eq_ok_iff]
      simp [targetKeys]

/-- A declaration's attribute is refused for its form or for its first faulty argument. -/
theorem targetSettings_eq_error_iff :
    attr.targetSettings = .error fault ↔
      attr.content = .bare ∧ fault = .missingArguments ∨
        (∃ text, attr.content = .value text) ∧ fault = .missingParentheses ∨
        attr.IsFaultyList targetKeys .unsupportedTarget fault := by
  simp only [targetSettings, IsFaultyList, listTokens?]
  cases hcontent : attr.content with
  | bare => simp [eq_comm]
  | value text => simp [eq_comm]
  | arguments arguments trailingComma =>
      simp only [readArguments_eq_error_iff]
      simp [targetKeys]

end Attribute

/-! ## Members -/

namespace Member

variable {member : Member} {fault : DeclarationError}

/-- The member's first `inject` attribute, if it has one, stands alone or sets nothing but
type names. -/
def WellAnnotated (member : Member) : Prop :=
  ∀ attr : Attribute, attr.IsFirst member.attributes "inject" →
    attr.content = .bare ∨ ∃ settings, attr.Lists ["type_name"] settings

/-- What is wrong with the member's first `inject` attribute. -/
inductive Misannotated (member : Member) : DeclarationError → Prop where
  | value {attr : Attribute} {text : String} (hattr : attr.IsFirst member.attributes "inject")
      (hcontent : attr.content = .value text) : Misannotated member .unsupportedInject
  | argument {attr : Attribute} {fault : DeclarationError}
      (hattr : attr.IsFirst member.attributes "inject")
      (hfault : attr.IsFaultyList ["type_name"] .unsupportedInject fault) :
      Misannotated member fault

/-- A member with an `inject` attribute is read by the first one. -/
theorem field_of_isFirst {attr : Attribute} (hattr : attr.IsFirst member.attributes "inject") :
    member.field = attr.statedType.map fun stated =>
      ⟨member.fieldName, stated.getD member.typeName, true⟩ := by
  rw [field, Attribute.findAttribute?_eq_some_iff.mpr hattr]

theorem field_of_not_isNamed (hnone : ∀ attr ∈ member.attributes, ¬ attr.IsNamed "inject") :
    member.field = .ok ⟨member.fieldName, member.typeName, false⟩ := by
  rw [field, Attribute.findAttribute?_eq_none_iff.mpr hnone]

/-- A member has a field exactly if its first `inject` attribute is in order. -/
theorem exists_field_iff : (∃ field, member.field = .ok field) ↔ member.WellAnnotated := by
  rcases Attribute.none_or_isFirst member.attributes "inject" with hnone | ⟨attr, hattr⟩
  · have hannotated : member.WellAnnotated := by
      intro attr hattr
      exact absurd hattr.isNamed (hnone attr hattr.mem)
    exact iff_of_true ⟨_, field_of_not_isNamed hnone⟩ hannotated
  · have hunique : ∀ other : Attribute, other.IsFirst member.attributes "inject" → other = attr :=
      fun other hother => hother.unique hattr
    rw [field_of_isFirst hattr]
    constructor
    · intro h other hother
      obtain ⟨field, hfield⟩ := h
      obtain ⟨stated, hstated, -⟩ := map_eq_ok_iff.mp hfield
      rw [hunique other hother]
      apply (Attribute.statedType_eq_ok_iff.mp hstated).imp
      · exact And.left
      · exact fun ⟨settings, hlists, _⟩ => ⟨settings, hlists⟩
    · intro hannotated
      suffices hstated : ∃ stated, attr.statedType = .ok stated by
        obtain ⟨stated, hstated⟩ := hstated
        exact ⟨_, map_eq_ok_iff.mpr ⟨stated, hstated, rfl⟩⟩
      cases hannotated attr hattr with
      | inl hbare => exact ⟨none, Attribute.statedType_eq_ok_iff.mpr (.inl ⟨hbare, rfl⟩)⟩
      | inr hlists =>
          obtain ⟨settings, hlists⟩ := hlists
          exact ⟨_, Attribute.statedType_eq_ok_iff.mpr (.inr ⟨settings, hlists, rfl⟩)⟩

/-- A member is refused for what is wrong with its first `inject` attribute. -/
theorem field_eq_error_iff : member.field = .error fault ↔ member.Misannotated fault := by
  constructor
  · intro hfield
    rcases Attribute.none_or_isFirst member.attributes "inject" with hnone | ⟨attr, hattr⟩
    · rw [field_of_not_isNamed hnone] at hfield
      cases hfield
    · rw [field_of_isFirst hattr, map_eq_error_iff,
        Attribute.statedType_eq_error_iff] at hfield
      rcases hfield with ⟨⟨text, hcontent⟩, rfl⟩ | hfaulty
      · exact .value hattr hcontent
      · exact .argument hattr hfaulty
  · intro hmisannotated
    cases hmisannotated with
    | value hattr hcontent =>
        rw [field_of_isFirst hattr, map_eq_error_iff, Attribute.statedType_eq_error_iff]
        exact .inl ⟨⟨_, hcontent⟩, rfl⟩
    | argument hattr hfaulty =>
        rw [field_of_isFirst hattr, map_eq_error_iff, Attribute.statedType_eq_error_iff]
        exact .inr hfaulty

end Member

/-! ## Bodies -/

namespace Body

variable {body : Body} {fault : DeclarationError}

def namedMembers? : Body → Option (List Member)
  | named members => some members
  | unit => some []
  | tuple _ | enumeration | union => none

theorem isStruct_of_namedMembers? {members : List Member}
    (hnamed : body.namedMembers? = some members) : body.isStruct = true := by
  cases body with
  | named | unit => rfl
  | tuple | enumeration | union => cases hnamed

/-- A body has a field for each of its members, in order. -/
theorem fields_eq_ok_iff {fields : List Field} :
    body.fields = .ok fields ↔
      ∃ members, body.namedMembers? = some members ∧
        List.Forall₂ (fun member field => member.field = .ok field) members fields := by
  cases body with
  | named members => simp [Body.fields, namedMembers?, Logged.mapM_eq_ok_iff]
  | unit => simp [Body.fields, namedMembers?, eq_comm]
  | tuple | enumeration | union => simp [Body.fields, namedMembers?]

theorem exists_fields_iff :
    (∃ fields, body.fields = .ok fields) ↔
      ∃ members, body.namedMembers? = some members ∧
        ∀ member ∈ members, member.WellAnnotated := by
  simp only [← Member.exists_field_iff, ← Logged.mapM_succeeds_iff]
  cases body with
  | named members => simp [Body.fields, namedMembers?]
  | unit => simp [Body.fields, namedMembers?, pure, Except.pure]
  | tuple | enumeration | union => simp [Body.fields, namedMembers?]

/-- A body is refused for its shape or for its first member that is not in order. -/
theorem fields_eq_error_iff :
    body.fields = .error fault ↔
      body.isStruct = false ∧ fault = .notStruct ∨
        (∃ members, body = .tuple members) ∧ fault = .unnamedMembers ∨
        ∃ front member back, body.namedMembers? = some (front ++ member :: back) ∧
          (∀ earlier ∈ front, earlier.WellAnnotated) ∧ member.Misannotated fault := by
  simp only [← Member.exists_field_iff, ← Member.field_eq_error_iff]
  cases body with
  | named members => simp [Body.fields, namedMembers?, isStruct, Logged.mapM_eq_error_iff]
  | unit => simp [Body.fields, namedMembers?, isStruct]
  | tuple | enumeration | union => simp [Body.fields, namedMembers?, isStruct, eq_comm]

end Body

/-! ## Declarations -/

namespace Declaration

variable {declaration : Declaration} {fault : DeclarationError} {fields : List Field}
  {settings : List (String × String)}

/-- The declared type has no parameters, with or without brackets for them. -/
def HasNoParameters (declaration : Declaration) : Prop :=
  Source.condensed declaration.generics = "" ∨ Source.condensed declaration.generics = "<>"

/-- What is checked before the declaration's own attribute is looked at. -/
structure HasFields (declaration : Declaration) : Prop where
  isStruct : declaration.body.isStruct = true
  plain : declaration.HasNoParameters
  named : ∃ members, declaration.body.namedMembers? = some members ∧
    ∀ member ∈ members, member.WellAnnotated

/-- The declaration passes every check. -/
structure Readable (declaration : Declaration) : Prop extends declaration.HasFields where
  target : ∃ attr settings, Attribute.IsFirst attr declaration.attributes "injection_target" ∧
    attr.Lists Attribute.targetKeys settings ∧ ∃ setting ∈ settings, setting.1 = "component"

/-- The fault of the first check that the declaration does not pass. -/
inductive Refused (declaration : Declaration) : DeclarationError → Prop where
  | notStruct (hbody : declaration.body.isStruct = false) : Refused declaration .notStruct
  | generic (hstruct : declaration.body.isStruct = true)
      (hgenerics : ¬ declaration.HasNoParameters) : Refused declaration .generic
  | tuple (hplain : declaration.HasNoParameters) {members : List Member}
      (hbody : declaration.body = .tuple members) : Refused declaration .unnamedMembers
  | member (hplain : declaration.HasNoParameters) {front back : List Member} {member : Member}
      (hnamed : declaration.body.namedMembers? = some (front ++ member :: back))
      (hfront : ∀ earlier ∈ front, earlier.WellAnnotated) {fault : DeclarationError}
      (hfault : member.Misannotated fault) : Refused declaration fault
  | noTarget (hfields : declaration.HasFields)
      (hnone : ∀ attr ∈ declaration.attributes, ¬ attr.IsNamed "injection_target") :
      Refused declaration .missingComponent
  | bareTarget (hfields : declaration.HasFields) {attr : Attribute}
      (hattr : attr.IsFirst declaration.attributes "injection_target")
      (hcontent : attr.content = .bare) : Refused declaration .missingArguments
  | valueTarget (hfields : declaration.HasFields) {attr : Attribute} {text : String}
      (hattr : attr.IsFirst declaration.attributes "injection_target")
      (hcontent : attr.content = .value text) : Refused declaration .missingParentheses
  | argument (hfields : declaration.HasFields) {attr : Attribute}
      (hattr : attr.IsFirst declaration.attributes "injection_target") {fault : DeclarationError}
      (hfault : attr.IsFaultyList Attribute.targetKeys .unsupportedTarget fault) :
      Refused declaration fault
  | noComponent (hfields : declaration.HasFields) {attr : Attribute}
      {settings : List (String × String)}
      (hattr : attr.IsFirst declaration.attributes "injection_target")
      (hlists : attr.Lists Attribute.targetKeys settings)
      (hnone : ∀ setting ∈ settings, setting.1 ≠ "component") :
      Refused declaration .missingComponent

theorem isGeneric_eq_false_iff : declaration.isGeneric = false ↔ declaration.HasNoParameters := by
  simp only [isGeneric, HasNoParameters, Bool.and_eq_false_iff, bne_eq_false_iff_eq]

/-- The checks before the attribute are those of the body, the generics and the members. -/
theorem hasFields_iff :
    declaration.HasFields ↔
      declaration.body.isStruct = true ∧ declaration.isGeneric = false ∧
        ∃ fields, declaration.body.fields = .ok fields := by
  rw [isGeneric_eq_false_iff, Body.exists_fields_iff]
  constructor
  · intro h
    exact ⟨h.isStruct, h.plain, h.named⟩
  · intro h
    exact ⟨h.1, h.2.1, h.2.2⟩

theorem settings_of_isFirst {attr : Attribute}
    (hattr : attr.IsFirst declaration.attributes "injection_target") :
    declaration.settings = attr.targetSettings := by
  rw [Declaration.settings, Attribute.findAttribute?_eq_some_iff.mpr hattr]

theorem settings_of_not_isNamed
    (hnone : ∀ attr ∈ declaration.attributes, ¬ attr.IsNamed "injection_target") :
    declaration.settings = .error .missingComponent := by
  rw [Declaration.settings, Attribute.findAttribute?_eq_none_iff.mpr hnone]

/-- The settings are those of the first attribute of the declaration. -/
theorem settings_eq_ok_iff :
    declaration.settings = .ok settings ↔
      ∃ attr, Attribute.IsFirst attr declaration.attributes "injection_target" ∧
        attr.Lists Attribute.targetKeys settings := by
  constructor
  · intro hsettings
    rcases Attribute.none_or_isFirst declaration.attributes "injection_target" with
      hnone | ⟨attr, hattr⟩
    · rw [settings_of_not_isNamed hnone] at hsettings
      cases hsettings
    · rw [settings_of_isFirst hattr] at hsettings
      exact ⟨attr, hattr, Attribute.targetSettings_eq_ok_iff.mp hsettings⟩
  · intro h
    obtain ⟨attr, hattr, hlists⟩ := h
    rw [settings_of_isFirst hattr]
    exact Attribute.targetSettings_eq_ok_iff.mpr hlists

/-- A request needs a component, and other names have their defaults. -/
theorem describe_eq_ok_iff {request : Request} :
    declaration.describe fields settings = .ok request ↔
      ∃ component, IsLastSetting settings "component" component ∧
        request = ⟨component,
          (lastSetting? settings "name").getD (Source.condensed declaration.name),
          (lastSetting? settings "type_name").getD
            ((lastSetting? settings "name").getD (Source.condensed declaration.name)), fields⟩ := by
  rw [describe]
  cases hlast : lastSetting? settings "component" with
  | none => simp [← lastSetting?_eq_some_iff, hlast]
  | some component => simp [← lastSetting?_eq_some_iff, hlast, eq_comm]

/-- Only a component can be missing. -/
theorem describe_eq_error_iff :
    declaration.describe fields settings = .error fault ↔
      (∀ setting ∈ settings, setting.1 ≠ "component") ∧ fault = .missingComponent := by
  rw [describe, ← lastSetting?_eq_none_iff]
  cases lastSetting? settings "component" with
  | none => simp [eq_comm]
  | some component => simp

theorem request_of_hasFields (hfields : declaration.body.fields = .ok fields)
    (hchecked : declaration.HasFields) :
    declaration.request = declaration.settings >>= declaration.describe fields := by
  obtain ⟨hstruct, hplain, -⟩ := hasFields_iff.mp hchecked
  rw [request, if_neg (by simp [hstruct]), if_neg (by simp [hplain]), hfields]
  rfl

theorem request_of_not_isStruct (hbody : declaration.body.isStruct = false) :
    declaration.request = .error .notStruct := by
  rw [request, if_pos hbody]

theorem request_of_parameters (hstruct : declaration.body.isStruct = true)
    (hgenerics : ¬ declaration.HasNoParameters) : declaration.request = .error .generic := by
  have hgeneric : declaration.isGeneric = true := by
    rw [← Bool.not_eq_false, isGeneric_eq_false_iff]
    exact hgenerics
  rw [request, if_neg (by simp [hstruct]), if_pos hgeneric]

theorem request_of_fields_eq_error (hstruct : declaration.body.isStruct = true)
    (hplain : declaration.HasNoParameters) (hfields : declaration.body.fields = .error fault) :
    declaration.request = .error fault := by
  rw [request, if_neg (by simp [hstruct]), if_neg (by simp [isGeneric_eq_false_iff.mpr hplain]),
    hfields]
  rfl

/-- A declaration that passes every check is read. -/
theorem exists_request (hreadable : declaration.Readable) :
    ∃ request, declaration.request = .ok request := by
  obtain ⟨fields, hfields⟩ := (hasFields_iff.mp hreadable.toHasFields).2.2
  obtain ⟨attr, settings, hattr, hlists, setting, hmem, hkey⟩ := hreadable.target
  rw [request_of_hasFields hfields hreadable.toHasFields,
    settings_eq_ok_iff.mpr ⟨attr, hattr, hlists⟩]
  cases hdescribe : declaration.describe fields settings with
  | ok request => exact ⟨request, hdescribe⟩
  | error fault => exact absurd hkey ((describe_eq_error_iff.mp hdescribe).1 setting hmem)

theorem request_of_settings (hchecked : declaration.HasFields)
    (hsettings : declaration.settings = .error fault) : declaration.request = .error fault := by
  obtain ⟨fields, hfields⟩ := (hasFields_iff.mp hchecked).2.2
  rw [request_of_hasFields hfields hchecked, hsettings]
  rfl

/-- A declaration is refused with the fault of the check that it does not pass. -/
theorem request_of_refused (hrefused : declaration.Refused fault) :
    declaration.request = .error fault := by
  cases hrefused with
  | notStruct hbody => exact request_of_not_isStruct hbody
  | generic hstruct hgenerics => exact request_of_parameters hstruct hgenerics
  | tuple hplain hbody =>
      apply request_of_fields_eq_error _ hplain
      · rw [hbody, Body.fields]
      · rw [hbody, Body.isStruct]
  | member hplain hnamed hfront hfault =>
      apply request_of_fields_eq_error (Body.isStruct_of_namedMembers? hnamed) hplain
      exact Body.fields_eq_error_iff.mpr (.inr (.inr ⟨_, _, _, hnamed, hfront, hfault⟩))
  | noTarget hchecked hnone => exact request_of_settings hchecked (settings_of_not_isNamed hnone)
  | bareTarget hchecked hattr hcontent =>
      apply request_of_settings hchecked
      rw [settings_of_isFirst hattr, Attribute.targetSettings_eq_error_iff]
      exact .inl ⟨hcontent, rfl⟩
  | valueTarget hchecked hattr hcontent =>
      apply request_of_settings hchecked
      rw [settings_of_isFirst hattr, Attribute.targetSettings_eq_error_iff]
      exact .inr (.inl ⟨⟨_, hcontent⟩, rfl⟩)
  | argument hchecked hattr hfault =>
      apply request_of_settings hchecked
      rw [settings_of_isFirst hattr, Attribute.targetSettings_eq_error_iff]
      exact .inr (.inr hfault)
  | noComponent hchecked hattr hlists hnone =>
      obtain ⟨fields, hfields⟩ := (hasFields_iff.mp hchecked).2.2
      rw [request_of_hasFields hfields hchecked, settings_eq_ok_iff.mpr ⟨_, hattr, hlists⟩]
      exact describe_eq_error_iff.mpr ⟨hnone, rfl⟩

/-- The checks leave nothing out. -/
theorem readable_or_refused (declaration : Declaration) :
    declaration.Readable ∨ ∃ fault, declaration.Refused fault := by
  by_cases hstruct : declaration.body.isStruct = true
  case neg => exact .inr ⟨_, .notStruct (Bool.not_eq_true _ ▸ hstruct)⟩
  by_cases hplain : declaration.HasNoParameters
  case neg => exact .inr ⟨_, .generic hstruct hplain⟩
  cases hfields : declaration.body.fields with
  | error fault =>
      rcases Body.fields_eq_error_iff.mp hfields with
        ⟨hbody, -⟩ | ⟨⟨members, hbody⟩, -⟩ | ⟨front, member, back, hnamed, hfront, hfault⟩
      · exact absurd hbody (by simp [hstruct])
      · exact .inr ⟨_, .tuple hplain hbody⟩
      · exact .inr ⟨_, .member hplain hnamed hfront hfault⟩
  | ok fields =>
      have hchecked := hasFields_iff.mpr
        ⟨hstruct, isGeneric_eq_false_iff.mpr hplain, fields, hfields⟩
      rcases Attribute.none_or_isFirst declaration.attributes "injection_target" with
        hnone | ⟨attr, hattr⟩
      · exact .inr ⟨_, .noTarget hchecked hnone⟩
      cases hsettings : attr.targetSettings with
      | error fault =>
          rcases Attribute.targetSettings_eq_error_iff.mp hsettings with
            ⟨hcontent, -⟩ | ⟨⟨text, hcontent⟩, -⟩ | hfault
          · exact .inr ⟨_, .bareTarget hchecked hattr hcontent⟩
          · exact .inr ⟨_, .valueTarget hchecked hattr hcontent⟩
          · exact .inr ⟨_, .argument hchecked hattr hfault⟩
      | ok settings =>
          have hlists := Attribute.targetSettings_eq_ok_iff.mp hsettings
          by_cases hcomponent : ∃ setting ∈ settings, setting.1 = "component"
          · exact .inl ⟨hchecked, attr, settings, hattr, hlists, hcomponent⟩
          · refine .inr ⟨_, .noComponent hchecked hattr hlists ?_⟩
            intro setting hmem hkey
            exact hcomponent ⟨setting, hmem, hkey⟩

/-- A declaration is read exactly if it passes every check, and otherwise refused with the
fault of the first check that it does not pass. -/
theorem request_decides (declaration : Declaration) :
    ((∃ request, declaration.request = .ok request) ↔ declaration.Readable) ∧
      ∀ fault, declaration.request = .error fault ↔ declaration.Refused fault := by
  rcases readable_or_refused declaration with hreadable | ⟨first, hfirst⟩
  · obtain ⟨request, hrequest⟩ := exists_request hreadable
    refine ⟨iff_of_true ⟨request, hrequest⟩ hreadable, ?_⟩
    intro fault
    constructor
    · intro hfault
      rw [hrequest] at hfault
      cases hfault
    · exact request_of_refused
  · have hrequest := request_of_refused hfirst
    refine ⟨⟨?_, exists_request⟩, ?_⟩
    · intro h
      obtain ⟨request, hok⟩ := h
      rw [hrequest] at hok
      cases hok
    · intro fault
      constructor
      · intro hfault
        rw [hrequest] at hfault
        cases hfault
        exact hfirst
      · exact request_of_refused

example : Readable
    { name := "Main"
      attributes := [⟨"injection_target", .arguments [⟨"component", .text "App", ""⟩] false⟩]
      body := .named [⟨"user", "Preference_User", [⟨"inject", .bare⟩]⟩] } where
  isStruct := rfl
  plain := .inl rfl
  named := by
    refine ⟨_, rfl, List.forall_mem_singleton.mpr ?_⟩
    intro attr hattr
    exact .inl (congrArg Attribute.content (List.mem_singleton.mp hattr.mem))
  target := by
    refine ⟨_, [("component", "App")], ⟨[], [], rfl, rfl, List.forall_mem_nil _⟩, ?_, ?_⟩
    · exact ⟨_, rfl, List.forall_mem_singleton.mpr List.mem_cons_self, .inr rfl⟩
    · exact ⟨_, List.mem_cons_self, rfl⟩

end Declaration

end FieldWiring
