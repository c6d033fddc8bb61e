import FieldWiring.Registry
import FieldWiring.Proofs.Emission

/-!
# What an accessor tells

An accessor is written as plain text, and yet it can be read back.  A class name without a
full stop ends at the first one, and what follows shows whether a getter is called and which.
Equal accessors therefore belong to components of one name and to one resolution, and a
class is the own class of no more than one component.
-/

namespace FieldWiring

namespace Resolution

/-! ## Calls -/

/-- What is called on a class: its instance, and on that a getter if there is one. -/
def calls : Option String → String
  | none => "getInstance()"
  | some getter => "getInstance()." ++ getter ++ "()"

def call (className : String) (getter? : Option String) : String :=
  className ++ "." ++ calls getter?

theorem call_none (className : String) :
    call className none = className ++ ".getInstance()" := by
  rw [call, calls, String.append_assoc]
  rfl

theorem call_some (className getter : String) :
    call className (some getter) = className ++ ".getInstance()." ++ getter ++ "()" := by
  simp only [call, calls, String.append_assoc]
  rfl

theorem toList_call (className : String) (getter? : Option String) :
    (call className getter?).toList = className.toList ++ '.' :: (calls getter?).toList := by
  simp [call]

/-- What is called tells whether there is a getter, and which one. -/
theorem calls_injective : Function.Injective calls := by
  have hlonger : ∀ getter, calls none ≠ calls (some getter) := by
    intro getter heq
    have hchars := congrArg String.toList heq
    simp [calls] at hchars
  intro left right heq
  cases left with
  | none =>
      cases right with
      | none => rfl
      | some getter => exact absurd heq (hlonger getter)
  | some getter =>
      cases right with
      | none => exact absurd heq.symm (hlonger getter)
      | some other =>
          have hgetter := (String.append_left_inj "()").mp heq
          rw [(String.append_right_inj "getInstance().").mp hgetter]

/-- A call is read back from its text if the class name has no full stop. -/
theorem call_inj {left right : String} {leftGetter? rightGetter? : Option String}
    (hleft : '.' ∉ left.toList) (hright : '.' ∉ right.toList)
    (heq : call left leftGetter? = call right rightGetter?) :
    left = right ∧ leftGetter? = rightGetter? := by
  have hchars := congrArg String.toList heq
  rw [toList_call, toList_call] at hchars
  have hcut := Text.append_cons_inj hleft hright hchars
  exact ⟨String.toList_inj.mp hcut.1, calls_injective (String.toList_inj.mp hcut.2)⟩

/-- With a full stop in a class name, a getter may be taken for a part of the class. -/
example : call "App" (some "getInstance") = call "App.getInstance()" none := by decide

/-- Whatever the class is called, its calls differ by their getters. -/
theorem call_right_injective (className : String) : Function.Injective (call className) := by
  intro left right heq
  exact calls_injective ((String.append_right_inj (className ++ ".")).mp heq)

/-! ## Resolutions and their accessors -/

/-- What a call reaches: the value behind the getter, or the component itself. -/
def reached : Option String → Resolution
  | none => .component
  | some getter => .value getter

variable {naming : Naming} {owner left right : Component} {resolution : Resolution}
variable {typeName leftType rightType expression : String}

theorem ofType_eq_value_iff {getter : String} :
    ofType naming owner typeName = .value getter ↔
      typeName ∈ owner.exposed ∧ naming.getter typeName ≠ "" ∧ getter = naming.getter typeName := by
  simp only [ofType, Component.exposes_iff]
  split_ifs with hexposed hgetter hclass
  · simp [hgetter]
  · simp [hexposed, hgetter, eq_comm]
  · simp [hexposed]
  · simp [hexposed]

theorem ofType_eq_component_iff :
    ofType naming owner typeName = .component ↔
      typeName ∉ owner.exposed ∧ typeName = naming.componentClass owner.name := by
  simp only [ofType, Component.exposes_iff]
  split_ifs with hexposed hgetter hclass
  · simp [hexposed]
  · simp [hexposed]
  · simp [hexposed, ← hclass]
  · simp [hclass]

/-- Whatever is reached has an accessor, and nothing else has one. -/
theorem accessor_eq_ok_iff :
    accessor naming owner resolution = .ok expression ↔
      ∃ getter?, resolution = reached getter? ∧
        expression = call (naming.componentClass owner.name) getter? := by
  constructor
  · intro haccessor
    cases resolution with
    | value getter =>
        cases haccessor
        exact ⟨some getter, rfl, (call_some _ getter).symm⟩
    | component =>
        cases haccessor
        exact ⟨none, rfl, (call_none _).symm⟩
    | unresolvable typeName => cases haccessor
  · intro h
    obtain ⟨getter?, hresolution, hexpression⟩ := h
    subst hresolution hexpression
    cases getter? with
    | none => rw [call_none, reached, accessor]
    | some getter => rw [call_some, reached, accessor]

/-- An exposed type is reached by its getter, and not at all if that is empty. -/
theorem accessor_ofType_of_exposed (hexposed : typeName ∈ owner.exposed) :
    accessor naming owner (ofType naming owner typeName) = .ok expression ↔
      naming.getter typeName ≠ "" ∧
        expression = call (naming.componentClass owner.name) (some (naming.getter typeName)) := by
  rw [accessor_eq_ok_iff]
  constructor
  · intro h
    obtain ⟨getter?, hresolution, hexpression⟩ := h
    cases getter? with
    | none => exact absurd hexposed (ofType_eq_component_iff.mp hresolution).1
    | some getter =>
        obtain ⟨-, hgetter, rfl⟩ := ofType_eq_value_iff.mp hresolution
        exact ⟨hgetter, hexpression⟩
  · intro h
    obtain ⟨hgetter, hexpression⟩ := h
    exact ⟨some _, ofType_eq_value_iff.mpr ⟨hexposed, hgetter, rfl⟩, hexpression⟩

/-- No exposed type is reached like the component itself. -/
theorem accessor_ofType_ne_component (hexposed : typeName ∈ owner.exposed) :
    accessor naming owner (ofType naming owner typeName) ≠ accessor naming owner .component := by
  intro heq
  have hcomponent : accessor naming owner .component =
      .ok (call (naming.componentClass owner.name) none) :=
    accessor_eq_ok_iff.mpr ⟨none, rfl, rfl⟩
  rw [hcomponent] at heq
  obtain ⟨-, hcall⟩ := (accessor_ofType_of_exposed hexposed).mp heq
  cases call_right_injective _ hcall

/-- The accessors of exposed types differ only where their getters do. -/
theorem accessor_eq_iff_getter_eq {leftExpression rightExpression : String}
    (hleft : leftType ∈ owner.exposed) (hright : rightType ∈ owner.exposed)
    (hleftAccessor : accessor naming owner (ofType naming owner leftType) = .ok leftExpression)
    (hrightAccessor : accessor naming owner (ofType naming owner rightType) = .ok rightExpression) :
    leftExpression = rightExpression ↔ naming.getter leftType = naming.getter rightType := by
  obtain ⟨-, rfl⟩ := (accessor_ofType_of_exposed hleft).mp hleftAccessor
  obtain ⟨-, rfl⟩ := (accessor_ofType_of_exposed hright).mp hrightAccessor
  rw [(call_right_injective _).eq_iff, Option.some.injEq]

/-- Equal accessors have reached the same, through components of one name. -/
theorem reached_of_accessor_eq {leftResolution rightResolution : Resolution}
    (hleft : '.' ∉ (naming.componentClass left.name).toList)
    (hright : '.' ∉ (naming.componentClass right.name).toList)
    (hleftAccessor : accessor naming left leftResolution = .ok expression)
    (hrightAccessor : accessor naming right rightResolution = .ok expression) :
    left.name = right.name ∧
      ∃ getter?, leftResolution = reached getter? ∧ rightResolution = reached getter? := by
  obtain ⟨leftGetter?, hleftReached, hleftCall⟩ := accessor_eq_ok_iff.mp hleftAccessor
  obtain ⟨rightGetter?, hrightReached, hrightCall⟩ := accessor_eq_ok_iff.mp hrightAccessor
  have hcalls := call_inj hleft hright (hleftCall.symm.trans hrightCall)
  refine ⟨naming.componentClass_injective hcalls.1, leftGetter?, hleftReached, ?_⟩
  rw [hrightReached, hcalls.2]

/-- A type is the own class of components of one name only. -/
theorem name_eq_of_component (hleft : ofType naming left typeName = .component)
    (hright : ofType naming right typeName = .component) : left.name = right.name := by
  obtain ⟨-, hleftClass⟩ := ofType_eq_component_iff.mp hleft
  obtain ⟨-, hrightClass⟩ := ofType_eq_component_iff.mp hright
  exact naming.componentClass_injective (hleftClass.symm.trans hrightClass)

/-- An accessor tells whose it is and what it reaches.  Where class names have no full stop,
equal accessors belong to components of one name and to fields resolved alike.  Among the
exposed types of one component those that have a getter have an accessor, it is told apart
by the getter, and it is never that of the component itself.  Components that resolve a
type as themselves have one name, and a registry has only one of them. -/
theorem accessor_determines_resolution (naming : Naming) :
    (∀ (left right : Component) (leftField rightField : Field) (expression : String),
      '.' ∉ (naming.componentClass left.name).toList →
      '.' ∉ (naming.componentClass right.name).toList →
      accessor naming left (ofType naming left leftField.typeName) = .ok expression →
      accessor naming right (ofType naming right rightField.typeName) = .ok expression →
      left.name = right.name ∧
        ((ofType naming left leftField.typeName = .component ∧
            ofType naming right rightField.typeName = .component) ∨
          ∃ getter, ofType naming left leftField.typeName = .value getter ∧
            ofType naming right rightField.typeName = .value getter)) ∧
    (∀ (owner : Component) (typeName : String), typeName ∈ owner.exposed →
      ((∃ expression, accessor naming owner (ofType naming owner typeName) = .ok expression) ↔
        naming.getter typeName ≠ "") ∧
      accessor naming owner (ofType naming owner typeName) ≠ accessor naming owner .component) ∧
    (∀ (owner : Component) (leftType rightType leftExpression rightExpression : String),
      leftType ∈ owner.exposed → rightType ∈ owner.exposed →
      accessor naming owner (ofType naming owner leftType) = .ok leftExpression →
      accessor naming owner (ofType naming owner rightType) = .ok rightExpression →
      (leftExpression = rightExpression ↔ naming.getter leftType = naming.getter rightType)) ∧
    ∀ (left right : Component) (typeName : String),
      ofType naming left typeName = .component → ofType naming right typeName = .component →
      left.name = right.name ∧
        ∀ (registry : Registry) (leftName rightName : String),
          registry.find? leftName = some left → registry.find? rightName = some right →
          leftName = rightName ∧ left = right := by
  refine ⟨?_, ?_, ?_, ?_⟩
  · intro left right leftField rightField expression hleft hright hleftAccessor hrightAccessor
    obtain ⟨hname, getter?, hleftReached, hrightReached⟩ :=
      reached_of_accessor_eq hleft hright hleftAccessor hrightAccessor
    refine ⟨hname, ?_⟩
    cases getter? with
    | none =>
        left
        exact ⟨hleftReached, hrightReached⟩
    | some getter =>
        right
        exact ⟨getter, hleftReached, hrightReached⟩
  · intro owner typeName hexposed
    refine ⟨?_, accessor_ofType_ne_component hexposed⟩
    simp only [accessor_ofType_of_exposed hexposed, exists_and_left, exists_eq, and_true]
  · intro owner leftType rightType leftExpression rightExpression hleft hright
    exact accessor_eq_iff_getter_eq hleft hright
  · intro left right typeName hleft hright
    have hname := name_eq_of_component hleft hright
    refine ⟨hname, ?_⟩
    intro registry leftName rightName hleftFound hrightFound
    exact Registry.eq_of_find?_of_name_eq hleftFound hrightFound hname

/-- Two qualified types of one name share a getter and with it their accessor, in one
component and across two of one name.  A registry has the class of a component for that
one alone. -/
theorem accessor_determines_resolution_user :
    let app : Component := ⟨"App", ["com.a.Preference_User", "b::Preference_User"]⟩
    let later : Component := ⟨"App", ["b::Preference_User"]⟩
    let settings : Component := ⟨"Settings", []⟩
    let user : Field := ⟨"user", "com.a.Preference_User", true⟩
    let guest : Field := ⟨"guest", "b::Preference_User", true⟩
    (app.name = later.name ∧
      ((ofType {} app user.typeName = .component ∧ ofType {} later guest.typeName = .component) ∨
        ∃ getter, ofType {} app user.typeName = .value getter ∧
          ofType {} later guest.typeName = .value getter)) ∧
    (∃ expression, accessor {} app (ofType {} app user.typeName) = .ok expression) ∧
    accessor {} app (ofType {} app user.typeName) ≠ accessor {} app .component ∧
    ({} : Naming).getter user.typeName = ({} : Naming).getter guest.typeName ∧
    ∃ registry, Registry.ofComponents [settings, app] = .ok registry ∧
      registry.find? "App" = some app ∧ registry.find? "Settings" = some settings ∧
      ofType {} app "PreferenceComponent_App" = .component ∧
      ofType {} settings "PreferenceComponent_App" ≠ .component := by
  intro app later settings user guest
  obtain ⟨hreached, hexposed, hgetters, hcomponent⟩ := accessor_determines_resolution {}
  have huser : accessor {} app (ofType {} app user.typeName) =
      .ok "PreferenceComponent_App.getInstance().User()" := by decide
  have hguest : accessor {} app (ofType {} app guest.typeName) =
      .ok "PreferenceComponent_App.getInstance().User()" := by decide
  have hlike := hreached app later user guest _ (by decide) (by decide) huser (by decide)
  have hvalue := hexposed app user.typeName (by decide)
  have hgetter := (hgetters app _ _ _ _ (by decide) (by decide) huser hguest).mp rfl
  have hown : ofType {} app "PreferenceComponent_App" = .component := rfl
  refine ⟨hlike, hvalue.1.mpr (by decide), hvalue.2, hgetter, _, rfl, by decide, by decide,
    hown, ?_⟩
  intro hclaimed
  have hname := (hcomponent app settings _ hown hclaimed).1
  revert hname
  decide

end Resolution

end FieldWiring
