import FieldWiring.Proofs.Accessors
import FieldWiring.Proofs.Getters

/-!
# Identifiers

A compiler reads an injector only if the names in it are identifiers.  Prefixes, suffixes and
qualifiers are put in front of names and behind them, or taken off, and all but one of these
steps make identifiers of identifiers.  A value prefix that is taken off may leave a digit in
front: a type that leaves nothing is refused, but a type that leaves such a getter is not.
-/

namespace FieldWiring

def isIdentifierChar (c : Char) : Bool := c.isAlphanum || c == '_' || c == '$'

def IsIdentifierPart (text : String) : Prop := ∀ c ∈ text.toList, isIdentifierChar c = true

instance (text : String) : Decidable (IsIdentifierPart text) :=
  decidable_of_iff (text.toList.all isIdentifierChar = true) List.all_eq_true

def beginsWithDigit (text : String) : Bool := text.toList.head?.any Char.isDigit

/-- A text of identifier characters that is not empty and does not begin with a digit. -/
structure IsIdentifier (text : String) : Prop where
  nonempty : text ≠ ""
  part : IsIdentifierPart text
  begins : beginsWithDigit text = false

theorem isIdentifier_iff {text : String} :
    IsIdentifier text ↔ text ≠ "" ∧ IsIdentifierPart text ∧ beginsWithDigit text = false :=
  ⟨fun h => ⟨h.nonempty, h.part, h.begins⟩, fun h => ⟨h.1, h.2.1, h.2.2⟩⟩

instance (text : String) : Decidable (IsIdentifier text) :=
  decidable_of_iff _ isIdentifier_iff.symm

/-- Identifiers joined by full stops or double colons. -/
inductive IsQualified : String → Prop where
  | identifier {name : String} (hname : IsIdentifier name) : IsQualified name
  | dot {front name : String} (hfront : IsQualified front) (hname : IsIdentifier name) :
      IsQualified (front ++ "." ++ name)
  | colons {front name : String} (hfront : IsQualified front) (hname : IsIdentifier name) :
      IsQualified (front ++ "::" ++ name)

/-! ## Putting names together -/

section Parts

variable {left right text : String}

theorem IsIdentifierPart.append (hleft : IsIdentifierPart left) (hright : IsIdentifierPart right) :
    IsIdentifierPart (left ++ right) := by
  intro c hmem
  rw [String.toList_append, List.mem_append] at hmem
  cases hmem with
  | inl hmem => exact hleft c hmem
  | inr hmem => exact hright c hmem

/-- A text that is not empty decides alone what the whole begins with. -/
theorem beginsWithDigit_append (hleft : left ≠ "") :
    beginsWithDigit (left ++ right) = beginsWithDigit left := by
  have hchars : left.toList ≠ [] := by
    rw [ne_eq, String.toList_eq_nil_iff]
    exact hleft
  rw [beginsWithDigit, String.toList_append, List.head?_append_of_ne_nil _ hchars, beginsWithDigit]

theorem IsIdentifier.append (hleft : IsIdentifier left) (hright : IsIdentifierPart right) :
    IsIdentifier (left ++ right) where
  nonempty := by
    rw [ne_eq, String.append_eq_empty_iff, not_and_or]
    exact Or.inl hleft.nonempty
  part := hleft.part.append hright
  begins := by rw [beginsWithDigit_append hleft.nonempty, hleft.begins]

theorem isIdentifierChar_of_isSeparator {c : Char} (hseparator : Naming.isSeparator c = true) :
    isIdentifierChar c = false := by
  rw [Naming.isSeparator, Bool.or_eq_true, beq_iff_eq, beq_iff_eq] at hseparator
  rcases hseparator with rfl | rfl
  · rfl
  · rfl

/-- No separator may stand inside an identifier. -/
theorem IsIdentifierPart.isSegment (hpart : IsIdentifierPart text) : Naming.IsSegment text := by
  intro c hmem
  rw [Bool.eq_false_iff]
  intro hseparator
  have hchar := hpart c hmem
  rw [isIdentifierChar_of_isSeparator hseparator] at hchar
  cases hchar

theorem IsIdentifierPart.dot_notMem (hpart : IsIdentifierPart text) : '.' ∉ text.toList := by
  intro hmem
  have hdot := hpart.isSegment '.' hmem
  revert hdot
  decide

end Parts

/-! ## Taking names apart -/

namespace Naming

variable {naming : Naming} {typeName : String}

/-- The last segment of a qualified name is one of its identifiers. -/
theorem exists_splits_of_isQualified (hqualified : IsQualified typeName) :
    ∃ qualifier name, Splits typeName qualifier name ∧ IsIdentifier name := by
  cases hqualified with
  | identifier hname =>
      exact ⟨"", _, ⟨String.empty_append.symm, Or.inl rfl, hname.part.isSegment⟩, hname⟩
  | @dot front name hfront hname =>
      have hends : EndsInSeparator (front ++ ".") :=
        (endsInSeparator_of_mem_separators (by decide)).append_left front
      exact ⟨_, _, ⟨rfl, Or.inr hends, hname.part.isSegment⟩, hname⟩
  | @colons front name hfront hname =>
      have hends : EndsInSeparator (front ++ "::") :=
        (endsInSeparator_of_mem_separators (by decide)).append_left front
      exact ⟨_, _, ⟨rfl, Or.inr hends, hname.part.isSegment⟩, hname⟩

theorem isIdentifier_lastSegment (hqualified : IsQualified typeName) :
    IsIdentifier (lastSegment typeName) := by
  obtain ⟨qualifier, name, hsplits, hname⟩ := exists_splits_of_isQualified hqualified
  rwa [← hsplits.segment_eq]

/-- Behind the value prefix, the last segment of the type goes on with a digit. -/
def LeavesDigit (naming : Naming) (typeName : String) : Prop :=
  ∃ rest, lastSegment typeName = naming.valuePrefix ++ rest ∧ beginsWithDigit rest = true

/-- A getter may stand inside an identifier, even where it is none. -/
theorem isIdentifierPart_getter (hqualified : IsQualified typeName) :
    IsIdentifierPart (naming.getter typeName) := by
  intro c hmem
  have hsuffix := (leaves_getter naming typeName).suffix
  exact (isIdentifier_lastSegment hqualified).part c (hsuffix.subset hmem)

/-- What goes on with a digit behind the value prefix is a getter that begins with one. -/
theorem leavesDigit_iff (hqualified : IsQualified typeName) :
    naming.LeavesDigit typeName ↔ beginsWithDigit (naming.getter typeName) = true := by
  have hleaves := leaves_getter naming typeName
  constructor
  · intro h
    obtain ⟨rest, hrest, hdigit⟩ := h
    rw [hrest] at hleaves
    rwa [hleaves.of_append]
  · intro hdigit
    cases hleaves.eq_or with
    | inl hstripped => exact ⟨_, hstripped, hdigit⟩
    | inr hkept =>
        -- Nothing was taken off, so the getter begins as the identifier that it is.
        rw [hkept, (isIdentifier_lastSegment hqualified).begins] at hdigit
        cases hdigit

/-- A getter that is not empty is an identifier unless it begins with a digit. -/
theorem isIdentifier_getter_iff (hqualified : IsQualified typeName)
    (hgetter : naming.getter typeName ≠ "") :
    IsIdentifier (naming.getter typeName) ↔ ¬ naming.LeavesDigit typeName := by
  rw [leavesDigit_iff hqualified, Bool.not_eq_true]
  constructor
  · intro hidentifier
    exact hidentifier.begins
  · intro hbegins
    exact ⟨hgetter, isIdentifierPart_getter hqualified, hbegins⟩

end Naming

/-! ## Calls -/

namespace Resolution

variable {naming : Naming} {owner : Component} {typeName expression className : String}

def CallsIdentifiers (expression : String) : Prop :=
  ∃ className getter?, expression = call className getter? ∧ IsIdentifier className ∧
    ∀ getter ∈ getter?, IsIdentifier getter

/-- There is no other way to read the call of an identifier. -/
theorem callsIdentifiers_call_iff (hclass : IsIdentifier className) {getter? : Option String} :
    CallsIdentifiers (call className getter?) ↔ ∀ getter ∈ getter?, IsIdentifier getter := by
  constructor
  · intro h
    obtain ⟨other, otherGetter?, heq, hother, hgetter⟩ := h
    rw [(call_inj hclass.part.dot_notMem hother.part.dot_notMem heq).2]
    exact hgetter
  · intro hgetter
    exact ⟨className, getter?, rfl, hclass, hgetter⟩

end Resolution

/-! ## Emissions -/

/-- What is put in front of names and what stands for itself is an identifier, and what is put
behind them may be part of one.  Of the value prefix nothing is asked. -/
structure Naming.WellNamed (naming : Naming) : Prop where
  componentPrefix : IsIdentifier naming.componentPrefix
  injectorSuffix : IsIdentifierPart naming.injectorSuffix
  parameterName : IsIdentifier naming.parameterName

structure Component.WellNamed (component : Component) : Prop where
  name : IsIdentifierPart component.name
  exposed : ∀ typeName ∈ component.exposed, IsQualified typeName

structure Target.WellNamed (target : Target) : Prop where
  simpleName : IsIdentifier target.simpleName
  marked : ∀ field ∈ target.injectedFields, IsIdentifier field.name

namespace Resolution

variable {naming : Naming} {owner : Component} {typeName expression : String}

theorem isIdentifier_componentClass (hnaming : naming.WellNamed) (howner : owner.WellNamed) :
    IsIdentifier (naming.componentClass owner.name) :=
  hnaming.componentPrefix.append howner.name

/-- A call through the class of the owner is all that gives access to anything. -/
theorem exists_call_of_accesses (haccess : Accesses naming owner typeName expression) :
    ∃ getter?, expression = call (naming.componentClass owner.name) getter? ∧
      (getter? = none ∧ typeName ∉ owner.exposed ∨
        getter? = some (naming.getter typeName) ∧ typeName ∈ owner.exposed ∧
          naming.getter typeName ≠ "") := by
  cases haccess with
  | value hexposed hgetter =>
      exact ⟨some (naming.getter typeName), (call_some _ _).symm, Or.inr ⟨rfl, hexposed, hgetter⟩⟩
  | component hexposed _ => exact ⟨none, (call_none _).symm, Or.inl ⟨rfl, hexposed⟩⟩

/-- Only a getter that begins with a digit keeps a call from being one of identifiers. -/
theorem callsIdentifiers_iff (hnaming : naming.WellNamed) (howner : owner.WellNamed)
    (haccess : Accesses naming owner typeName expression) :
    CallsIdentifiers expression ↔ (typeName ∈ owner.exposed → ¬ naming.LeavesDigit typeName) := by
  obtain ⟨getter?, hcall, hgetter⟩ := exists_call_of_accesses haccess
  rw [hcall, callsIdentifiers_call_iff (isIdentifier_componentClass hnaming howner)]
  rcases hgetter with ⟨rfl, hexposed⟩ | ⟨rfl, hexposed, hnonempty⟩
  · simp [hexposed]
  · have hidentifier := Naming.isIdentifier_getter_iff (howner.exposed typeName hexposed) hnonempty
    simp [hexposed, hidentifier]

end Resolution

namespace Injector

open Resolution

variable {naming : Naming} {owner : Component} {target : Target} {injector : Injector}

/-- Every name that the injector writes is an identifier. -/
structure IsReadable (injector : Injector) : Prop where
  name : IsIdentifier injector.name
  statements : ∀ statement ∈ injector.statements,
    IsIdentifier statement.receiver ∧ IsIdentifier statement.fieldName ∧
      CallsIdentifiers statement.accessor

theorem isIdentifier_name (hnaming : naming.WellNamed) (htarget : target.WellNamed)
    (hwires : Wires naming owner target injector) : IsIdentifier injector.name := by
  rw [hwires.name]
  exact htarget.simpleName.append hnaming.injectorSuffix

theorem isIdentifier_assigned (hnaming : naming.WellNamed) (htarget : target.WellNamed)
    (hwires : Wires naming owner target injector) {statement : Assignment}
    (hmem : statement ∈ injector.statements) :
    IsIdentifier statement.receiver ∧ IsIdentifier statement.fieldName := by
  obtain ⟨field, hfield, hfills⟩ := exists_related_of_mem hwires.statements hmem
  rw [hfills.receiver, hfills.fieldName]
  exact ⟨hnaming.parameterName, htarget.marked field hfield⟩

/-- Only the getters of exposed types keep an injector from being readable. -/
theorem isReadable_iff (hnaming : naming.WellNamed) (howner : owner.WellNamed)
    (htarget : target.WellNamed) (hwires : Wires naming owner target injector) :
    injector.IsReadable ↔ ∀ field ∈ target.injectedFields,
      field.typeName ∈ owner.exposed → ¬ naming.LeavesDigit field.typeName := by
  have haccessors : (∀ field ∈ target.injectedFields,
      field.typeName ∈ owner.exposed → ¬ naming.LeavesDigit field.typeName) ↔
      ∀ statement ∈ injector.statements, CallsIdentifiers statement.accessor := by
    apply forall_mem_iff_of_forall₂ hwires.statements
    intro field statement hfills
    exact (callsIdentifiers_iff hnaming howner hfills.accessor).symm
  rw [haccessors]
  constructor
  · intro hreadable statement hmem
    exact (hreadable.statements statement hmem).2.2
  · intro hcalls
    refine ⟨isIdentifier_name hnaming htarget hwires, ?_⟩
    intro statement hmem
    obtain ⟨hreceiver, hfieldName⟩ := isIdentifier_assigned hnaming htarget hwires hmem
    exact ⟨hreceiver, hfieldName, hcalls statement hmem⟩

/-- What is emitted from identifiers has them for its name, its receivers, its fields and
the classes that it calls, and a getter is never empty and has no other characters.  All of
it can be read unless a marked field has an exposed type that leaves a digit in front of its
getter. -/
theorem emit_isReadable_iff (hnaming : naming.WellNamed) (howner : owner.WellNamed)
    (htarget : target.WellNamed) (hemit : (emit naming owner target).result = .ok injector) :
    IsIdentifier injector.name ∧
    (∀ statement ∈ injector.statements,
      IsIdentifier statement.receiver ∧ IsIdentifier statement.fieldName ∧
        ∃ className getter?, statement.accessor = call className getter? ∧
          IsIdentifier className ∧ ∀ getter ∈ getter?, getter ≠ "" ∧ IsIdentifierPart getter) ∧
    (injector.IsReadable ↔ ∀ field ∈ target.injectedFields,
      field.typeName ∈ owner.exposed → ¬ naming.LeavesDigit field.typeName) := by
  have hwires := emit_eq_ok_iff.mp hemit
  refine ⟨isIdentifier_name hnaming htarget hwires, ?_,
    isReadable_iff hnaming howner htarget hwires⟩
  intro statement hmem
  obtain ⟨hreceiver, hfieldName⟩ := isIdentifier_assigned hnaming htarget hwires hmem
  obtain ⟨field, -, hfills⟩ := exists_related_of_mem hwires.statements hmem
  obtain ⟨getter?, hcall, hgetter⟩ := exists_call_of_accesses hfills.accessor
  refine ⟨hreceiver, hfieldName, _, getter?, hcall, isIdentifier_componentClass hnaming howner, ?_⟩
  intro getter hsome
  rcases hgetter with ⟨rfl, -⟩ | ⟨rfl, hexposed, hnonempty⟩
  · cases hsome
  · cases hsome
    exact ⟨hnonempty, Naming.isIdentifierPart_getter (howner.exposed _ hexposed)⟩

/-- A qualified type and the component itself give a readable injector. -/
theorem emit_isReadable_iff_user :
    let app : Component := ⟨"App", ["com.example.Preference_User"]⟩
    let target : Target :=
      { simpleName := "Main",
        fields := [⟨"user", "com.example.Preference_User", true⟩,
          ⟨"app", "PreferenceComponent_App", true⟩, ⟨"1 tag", "1 String", false⟩] }
    ({} : Naming).WellNamed ∧ app.WellNamed ∧ target.WellNamed ∧
      ∃ injector, (emit {} app target).result = .ok injector ∧ injector.IsReadable := by
  intro app target
  have hqualified : IsQualified "com.example.Preference_User" := by
    have hjoined : "com.example.Preference_User" =
        "com" ++ "." ++ "example" ++ "." ++ "Preference_User" := rfl
    rw [hjoined]
    exact .dot (.dot (.identifier (by decide)) (by decide)) (by decide)
  have hnaming : ({} : Naming).WellNamed := ⟨by decide, by decide, by decide⟩
  have howner : app.WellNamed := by
    refine ⟨by decide, ?_⟩
    intro typeName hmem
    rw [List.mem_singleton.mp hmem]
    exact hqualified
  have htarget : target.WellNamed := ⟨by decide, by decide⟩
  refine ⟨hnaming, howner, htarget, _, rfl, ?_⟩
  apply (emit_isReadable_iff hnaming howner htarget rfl).2.2.mpr
  intro field _ hexposed
  rw [List.mem_singleton.mp hexposed, Naming.leavesDigit_iff hqualified]
  decide

/-- A type whose name goes on with a digit behind the value prefix is not refused, although
the getter that is left of it cannot be called. -/
theorem emit_digit_not_isReadable :
    let app : Component := ⟨"App", ["Preference_1User"]⟩
    let target : Target := { simpleName := "Main", fields := [⟨"user", "Preference_1User", true⟩] }
    ({} : Naming).WellNamed ∧ IsIdentifierPart ({} : Naming).valuePrefix ∧ app.WellNamed ∧
      target.WellNamed ∧
      ∃ injector, (emit {} app target).result = .ok injector ∧
        injector.statements.map Assignment.accessor =
          ["PreferenceComponent_App.getInstance().1User()"] ∧
        ¬ injector.IsReadable := by
  intro app target
  have hnaming : ({} : Naming).WellNamed := ⟨by decide, by decide, by decide⟩
  have howner : app.WellNamed := by
    refine ⟨by decide, ?_⟩
    intro typeName hmem
    rw [List.mem_singleton.mp hmem]
    exact .identifier (by decide)
  have htarget : target.WellNamed := ⟨by decide, by decide⟩
  refine ⟨hnaming, by decide, howner, htarget, _, rfl, by decide, ?_⟩
  intro hreadable
  have hfree := (isReadable_iff hnaming howner htarget (emit_eq_ok_iff.mp rfl)).mp hreadable
  have hdigit : ({} : Naming).LeavesDigit "Preference_1User" := ⟨"1User", by decide, by decide⟩
  exact hfree _ List.mem_cons_self List.mem_cons_self hdigit

end Injector

end FieldWiring
