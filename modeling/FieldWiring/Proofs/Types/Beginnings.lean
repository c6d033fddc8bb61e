import FieldWiring.Proofs.Types.Copying

/-!
# Beginnings and ends of types

A copier tells by a few lexemes what it has to go on with.  The beginnings of types, arguments
and bounds are told from each other here, and from what can follow them.
-/

namespace FieldWiring.Source

open Arrangement

variable {lexemes rest : List Lexeme} {name text : List Char} {form : Form} {isSum : Bool}

/-! ## Names -/

/-- A name is none of the keywords. -/
theorem IsName.begins_word_eq_false (hname : IsName name) (spelling : String)
    (hkeyword : spelling ∈ keywords) (more : List Lexeme) :
    (Form.word spelling).begins (wordOf name :: more) = false := by
  have hne : name ≠ spelling.toList := by
    intro heq
    rw [IsName, heq, String.ofList_toList] at hname
    exact hname hkeyword
  simp [Form.begins, Form.isFormOf, wordOf, hne]

theorem IsName.any_words_eq_false (hname : IsName name) (spellings : List String)
    (hkeywords : ∀ spelling ∈ spellings, spelling ∈ keywords) (more : List Lexeme) :
    ((spellings.map Form.word).any fun form => form.begins (wordOf name :: more)) = false := by
  rw [List.any_map, List.any_eq_false]
  intro spelling hmem
  rw [Function.comp, hname.begins_word_eq_false spelling (hkeywords spelling hmem)]
  exact Bool.false_ne_true

theorem IsName.begins_literal_eq_false (hname : IsName name) (more : List Lexeme) :
    Form.literal.begins (wordOf name :: more) = false := by
  have htrue := hname.begins_word_eq_false "true" (by decide) more
  have hfalse := hname.begins_word_eq_false "false" (by decide) more
  simp [Form.begins, Form.isFormOf, wordOf] at htrue hfalse ⊢
  exact ⟨htrue, hfalse⟩

theorem IsName.begins_name (hname : IsName name) (more : List Lexeme) :
    Form.name.begins (wordOf name :: more) = true := (isFormed_name hname).begins more

/-! ## Beginnings -/

/-- The lexemes begin like a path. -/
inductive BeginsPath : List Lexeme → Prop where
  | name {name : List Char} (hname : IsName name) (more : List Lexeme) :
      BeginsPath (wordOf name :: more)
  | keyword {name : List Char} (hname : name ∈ pathKeywords) (more : List Lexeme) :
      BeginsPath (wordOf name :: more)
  | separator (joined : Bool) (more : List Lexeme) : BeginsPath (colons joined ++ more)

/-- The keywords that a type can begin with. -/
def typeKeywords : List String := ["fn", "unsafe", "extern", "for", "_", "dyn", "impl"]

/-- The lexemes begin like a type. -/
inductive BeginsType : List Lexeme → Prop where
  | path {lexemes : List Lexeme} (hpath : BeginsPath lexemes) : BeginsType lexemes
  | keyword {spelling : String} (hspelling : spelling ∈ typeKeywords)
      (more : List Lexeme) : BeginsType (keyword spelling :: more)
  | mark {symbol : Char} (hsymbol : symbol ∈ ['&', '*', '!']) (joined : Bool)
      (more : List Lexeme) : BeginsType (markOf symbol joined :: more)
  | angle (opened : Bool) {more : List Lexeme} (hmore : (Form.sign "=").begins more = false) :
      BeginsType (markOf '<' opened :: more)
  | opening {bracket : Char} (hbracket : bracket ∈ ['(', '[']) (more : List Lexeme) :
      BeginsType (openingOf bracket :: more)

/-- The lexemes begin like a generic argument. -/
inductive BeginsArgument : List Lexeme → Prop where
  | lifetime (name : List Char) (more : List Lexeme) : BeginsArgument (lifetimeOf name :: more)
  | constant {lexemes : List Lexeme} (hconstant : IsConstant lexemes) (more : List Lexeme) :
      BeginsArgument (lexemes ++ more)
  | type {lexemes : List Lexeme} (htype : BeginsType lexemes) : BeginsArgument lexemes

/-- The lexemes begin like a bound. -/
inductive BeginsBound : List Lexeme → Prop where
  | lifetime (name : List Char) (more : List Lexeme) : BeginsBound (lifetimeOf name :: more)
  | relaxed (joined : Bool) (more : List Lexeme) : BeginsBound (markOf '?' joined :: more)
  | binder (more : List Lexeme) : BeginsBound (keyword "for" :: more)
  | path {lexemes : List Lexeme} (hpath : BeginsPath lexemes) : BeginsBound lexemes

/-- The lexemes do not begin with a name for a parameter. -/
def IsUnlabelled (lexemes : List Lexeme) : Prop :=
  isAtArgumentName.beginsWithColon lexemes = false

/-! ## Forms that do not begin a type -/

/-- Forms that no type begins with. -/
def foreignForms : List Form :=
  [.closing, .lifetime, .literal, .opening '\x7b', .word "mut", .sign ">", .sign "-", .sign "=",
    .sign "?", .sign "#", .sign "..."]

theorem BeginsPath.any_foreign (hbegins : BeginsPath lexemes) :
    (foreignForms.any fun form => form.begins lexemes) = false := by
  cases hbegins with
  | name hname more =>
      have hmut := hname.begins_word_eq_false "mut" (by decide) more
      have hliteral := hname.begins_literal_eq_false more
      change (Form.literal.begins _ || ((Form.word "mut").begins _ || false)) = false
      rw [hmut, hliteral]
      rfl
  | keyword hname more =>
      simp only [pathKeywords, List.mem_cons, List.not_mem_nil, or_false] at hname
      rcases hname with rfl | rfl | rfl | rfl <;> rfl
  | separator joined more => rfl

theorem BeginsType.any_foreign (hbegins : BeginsType lexemes) :
    (foreignForms.any fun form => form.begins lexemes) = false := by
  cases hbegins with
  | path hpath => exact hpath.any_foreign
  | keyword hspelling more =>
      simp only [typeKeywords, List.mem_cons, List.not_mem_nil, or_false] at hspelling
      rcases hspelling with rfl | rfl | rfl | rfl | rfl | rfl | rfl <;> rfl
  | mark hsymbol joined more =>
      simp only [List.mem_cons, List.not_mem_nil, or_false] at hsymbol
      rcases hsymbol with rfl | rfl | rfl <;> rfl
  | angle opened hmore => rfl
  | opening hbracket more =>
      simp only [List.mem_cons, List.not_mem_nil, or_false] at hbracket
      rcases hbracket with rfl | rfl <;> rfl

/-- What begins like a type has none of the foreign forms in front. -/
theorem BeginsType.begins_eq_false (hbegins : BeginsType lexemes) (form : Form)
    (hform : form ∈ foreignForms) : form.begins lexemes = false := by
  simpa using List.any_eq_false.mp hbegins.any_foreign form hform

/-- A list does not end where a type begins. -/
theorem BeginsType.isOngoing (hbegins : BeginsType lexemes) : IsOngoing lexemes := by
  have hclosing := hbegins.begins_eq_false .closing (by decide)
  have hnonempty : lexemes.isEmpty = false := by
    cases hbegins with
    | path hpath => cases hpath <;> rfl
    | _ => rfl
  rw [IsOngoing, hclosing, hnonempty]
  rfl

theorem BeginsPath.begins_angle_eq_false (hpath : BeginsPath lexemes) :
    (Form.sign "<").begins lexemes = false := by
  cases hpath <;> rfl

/-! ## How types begin -/

section

variable {Permits : List GenericArgument → Prop}

theorem IsSegment.beginsPath (hsegment : IsSegment Permits lexemes text) (rest : List Lexeme) :
    BeginsPath (lexemes ++ rest) := by
  cases hsegment with
  | name hname =>
      cases hname with
      | inl hname => exact .name hname rest
      | inr hname => exact .keyword hname rest
  | generic opened closed hname harguments hpermits =>
      cases hname with
      | inl hname => exact .name hname _
      | inr hname => exact .keyword (by rw [hname]; decide) _

theorem AreSegments.beginsPath (hsegments : AreSegments Permits lexemes text)
    (rest : List Lexeme) : BeginsPath (lexemes ++ rest) := by
  cases hsegments with
  | last hsegment => exact hsegment.beginsPath rest
  | cons joined hsegment hrest =>
      rw [List.append_assoc, List.append_assoc]
      exact hsegment.beginsPath _

theorem AreSegments.begins_separator_eq_false (hsegments : AreSegments Permits lexemes text)
    (rest : List Lexeme) : (Form.sign "::").begins (lexemes ++ rest) = false := by
  have hsegment : ∀ {lexemes text}, IsSegment Permits lexemes text → ∀ rest,
      (Form.sign "::").begins (lexemes ++ rest) = false := by
    intro lexemes text hsegment rest
    cases hsegment <;> rfl
  cases hsegments with
  | last hlast => exact hsegment hlast rest
  | cons joined hfirst hrest =>
      rw [List.append_assoc, List.append_assoc]
      exact hsegment hfirst _

theorem IsPath.beginsPath (hpath : IsPath Permits lexemes text) (rest : List Lexeme) :
    BeginsPath (lexemes ++ rest) := by
  cases hpath with
  | relative hsegments => exact hsegments.beginsPath rest
  | rooted joined hsegments =>
      rw [List.append_assoc]
      exact .separator joined _

theorem IsApplied.beginsPath (happlied : IsApplied Permits lexemes text) (rest : List Lexeme) :
    BeginsPath (lexemes ++ rest) := by
  cases happlied with
  | path hpath => exact hpath.beginsPath rest
  | function hpath hparameters hresult =>
      rw [List.append_assoc, List.append_assoc]
      exact hpath.beginsPath _

theorem IsNamePath.beginsPath (hpath : IsNamePath lexemes) (rest : List Lexeme) :
    BeginsPath (lexemes ++ rest) := by
  have hbegins : ∀ {name : List Char} (more : List Lexeme), IsName name ∨ name ∈ pathKeywords →
      BeginsPath (wordOf name :: more) := fun more hname =>
    hname.elim (fun hname => .name hname more) (fun hname => .keyword hname more)
  cases hpath with
  | last hname => exact hbegins _ hname
  | cons joined hname hrest => exact hbegins _ hname

theorem IsFunctionHead.beginsType (hhead : IsFunctionHead lexemes) (rest : List Lexeme) :
    BeginsType (lexemes ++ rest) := by
  cases hhead with
  | checked hconvention => cases hconvention <;> exact .keyword (by decide) _
  | unchecked hconvention => exact .keyword (by decide) _

theorem IsFunctionStart.beginsType (hstart : IsFunctionStart lexemes) (rest : List Lexeme) :
    BeginsType (lexemes ++ rest) := by
  cases hstart with
  | plain hhead => exact hhead.beginsType rest
  | binder hbinder hhead =>
      cases hbinder with
      | lifetimes joined behind hnames => exact .keyword (by decide) _

theorem IsIndirection.beginsType (hstart : IsIndirection lexemes) (rest : List Lexeme) :
    BeginsType (lexemes ++ rest) := by
  cases hstart with
  | reference joined => exact .mark (by decide) joined _
  | lasting joined name => exact .mark (by decide) joined _
  | changeable joined => exact .mark (by decide) joined _
  | both joined name => exact .mark (by decide) joined _
  | pointer joined haccess => exact .mark (by decide) joined _

/-- Every type begins like a type, whatever follows it. -/
theorem IsType.beginsType {isSum : Bool} {lexemes : List Lexeme} {text : List Char} :
    IsType Permits isSum lexemes text → ∀ rest, BeginsType (lexemes ++ rest)
  | .applied _ happlied, rest => .path (happlied.beginsPath rest)
  | .qualified _ opened closed joined howner hsegments, rest => by
      simp only [List.cons_append, List.append_assoc]
      exact .angle opened ((howner.beginsType _).begins_eq_false _ (by decide))
  | .cast _ opened closed joined howner htrait hsegments, rest => by
      simp only [List.cons_append, List.append_assoc]
      exact .angle opened ((howner.beginsType _).begins_eq_false _ (by decide))
  | .function _ hstart hparameters hresult, rest => by
      rw [List.append_assoc, List.append_assoc]
      exact hstart.beginsType _
  | .tuple _ htypes, rest => .opening (by decide) _
  | .slice _ helement, rest => .opening (by decide) _
  | .array _ joined helement hlength, rest => .opening (by decide) _
  | .indirect _ hstart htarget, rest => by
      rw [List.append_assoc]
      exact hstart.beginsType _
  | .bounded _ hintroduction hbounds, rest =>
      .keyword (List.mem_append_right ["fn", "unsafe", "extern", "for", "_"] hintroduction) _
  | .never _ joined, rest => .mark (by decide) joined _
  | .inferred _, rest => .keyword (by decide) _

/-- Every generic argument begins like one. -/
theorem IsArgument.beginsArgument {argument : GenericArgument}
    (hargument : IsArgument Permits lexemes argument) (rest : List Lexeme) :
    BeginsArgument (lexemes ++ rest) := by
  cases hargument with
  | lifetime name => exact .lifetime name rest
  | type htype => exact .type (htype.beginsType rest)
  | constant hconstant => exact .constant hconstant rest
  | associated joined hname htype => exact .type (.path (.name hname _))

theorem IsBound.beginsBound (hbound : IsBound Permits lexemes text) (rest : List Lexeme) :
    BeginsBound (lexemes ++ rest) := by
  cases hbound with
  | lifetime => exact .lifetime _ rest
  | trait hstart happlied =>
      cases hstart with
      | none => exact .path (happlied.beginsPath rest)
      | relaxed joined => exact .relaxed joined _
      | binder hbinder =>
          cases hbinder with
          | lifetimes opened closed hnames => exact .binder _

/-- Bounds begin like their first bound. -/
theorem AreBounds.beginsBound (hbounds : AreBounds Permits isSum lexemes text)
    (rest : List Lexeme) : BeginsBound (lexemes ++ rest) := by
  cases hbounds with
  | last _ hbound => exact hbound.beginsBound rest
  | cons joined hbound hrest =>
      rw [List.append_assoc]
      exact hbound.beginsBound _

end

/-! ## Signs with an angle bracket -/

theorem BeginsPath.signs (hbegins : BeginsPath lexemes) (opened : Bool) :
    ([Form.sign "<=", .sign "<<="].any fun form => form.begins (markOf '<' opened :: lexemes)) =
      false := by
  cases hbegins <;> cases opened <;> rfl

theorem BeginsType.signs (hbegins : BeginsType lexemes) (opened : Bool) :
    ([Form.sign "<=", .sign "<<="].any fun form => form.begins (markOf '<' opened :: lexemes)) =
      false := by
  cases hbegins with
  | path hpath => exact hpath.signs opened
  | keyword hspelling more => cases opened <;> rfl
  | mark hsymbol joined more =>
      simp only [List.mem_cons, List.not_mem_nil, or_false] at hsymbol
      rcases hsymbol with rfl | rfl | rfl <;> cases opened <;> rfl
  | angle joined hmore =>
      cases opened
      · rfl
      cases joined
      · rfl
      change (false || (Form.sign "=").begins _ || false) = false
      rw [hmore]
      rfl
  | opening hbracket more => cases opened <;> rfl

/-- Nothing that an argument begins with makes up a longer sign with an angle bracket. -/
theorem BeginsArgument.signs (hbegins : BeginsArgument lexemes) (opened : Bool) :
    ([Form.sign "<=", .sign "<<="].any fun form => form.begins (markOf '<' opened :: lexemes)) =
      false := by
  cases hbegins with
  | lifetime name more => cases opened <;> rfl
  | constant hconstant more =>
      cases hconstant with
      | literal hkind spelling =>
          simp only [List.mem_cons, List.not_mem_nil, or_false] at hkind
          rcases hkind with rfl | rfl | rfl <;> cases opened <;> rfl
      | truth hspelling => cases opened <;> rfl
      | negative joined spelling => cases opened <;> rfl
  | type htype => exact htype.signs opened

theorem BeginsArgument.begins_greater_eq_false (hbegins : BeginsArgument lexemes) :
    (Form.sign ">").begins lexemes = false := by
  cases hbegins with
  | lifetime name more => rfl
  | constant hconstant more =>
      cases hconstant with
      | literal hkind spelling =>
          simp only [List.mem_cons, List.not_mem_nil, or_false] at hkind
          rcases hkind with rfl | rfl | rfl <;> rfl
      | truth hspelling => rfl
      | negative joined spelling => rfl
  | type htype => exact htype.begins_eq_false _ (by decide)

/-! ## Names of parameters -/

/-- Without a colon behind the first lexeme, that is no name of a parameter. -/
theorem isUnlabelled_of_colon (first : Lexeme) (hcolon : (Form.sign ":").begins rest = false) :
    IsUnlabelled (first :: rest) := by
  change (Form.begins .anyWord (first :: rest) &&
    ((Form.sign ":").begins rest && true) && _) = false
  rw [hcolon, Bool.false_and, Bool.and_false, Bool.false_and]

/-- A separator behind the first lexeme makes it a part of a path. -/
theorem isUnlabelled_of_separator (first : Lexeme)
    (hseparator : (Form.sign "::").begins rest = true) : IsUnlabelled (first :: rest) := by
  change (Form.begins .anyWord (first :: rest) && _ &&
    !(Form.begins .anyWord (first :: rest) && ((Form.sign "::").begins rest && true))) = false
  rw [hseparator, Bool.and_true]
  cases Form.begins .anyWord (first :: rest) <;> simp

section

variable {Permits : List GenericArgument → Prop}

theorem IsSegment.isUnlabelled (hsegment : IsSegment Permits lexemes text)
    (hrest : (Form.sign ":").begins rest = false ∨ (Form.sign "::").begins rest = true) :
    IsUnlabelled (lexemes ++ rest) := by
  cases hsegment with
  | name hname => exact hrest.elim (isUnlabelled_of_colon _) (isUnlabelled_of_separator _)
  | generic opened closed hname harguments hpermits => exact isUnlabelled_of_colon _ rfl

theorem AreSegments.isUnlabelled (hsegments : AreSegments Permits lexemes text)
    (hrest : (Form.sign ":").begins rest = false) : IsUnlabelled (lexemes ++ rest) := by
  cases hsegments with
  | last hsegment => exact hsegment.isUnlabelled (.inl hrest)
  | cons joined hsegment hsegments =>
      rw [List.append_assoc, List.append_assoc]
      exact hsegment.isUnlabelled (.inr rfl)

theorem IsPath.isUnlabelled (hpath : IsPath Permits lexemes text)
    (hrest : (Form.sign ":").begins rest = false) : IsUnlabelled (lexemes ++ rest) := by
  cases hpath with
  | relative hsegments => exact hsegments.isUnlabelled hrest
  | rooted joined hsegments => rfl

theorem IsApplied.isUnlabelled (happlied : IsApplied Permits lexemes text)
    (hrest : (Form.sign ":").begins rest = false) : IsUnlabelled (lexemes ++ rest) := by
  cases happlied with
  | path hpath => exact hpath.isUnlabelled hrest
  | function hpath hparameters hresult =>
      rw [List.append_assoc, List.append_assoc]
      exact hpath.isUnlabelled rfl

theorem BeginsBound.isUnlabelled (hbegins : BeginsBound lexemes) (first : Lexeme) :
    IsUnlabelled (first :: lexemes) := by
  cases hbegins with
  | path hpath =>
      cases hpath with
      | name hname more => exact isUnlabelled_of_colon _ rfl
      | keyword hname more => exact isUnlabelled_of_colon _ rfl
      | separator joined more => exact isUnlabelled_of_separator _ rfl
  | _ => exact isUnlabelled_of_colon _ rfl

theorem IsFunctionHead.isUnlabelled (hhead : IsFunctionHead lexemes)
    (hrest : (Form.sign ":").begins rest = false) : IsUnlabelled (lexemes ++ rest) := by
  cases hhead with
  | checked hconvention =>
      cases hconvention with
      | none => exact isUnlabelled_of_colon _ hrest
      | foreign => exact isUnlabelled_of_colon _ rfl
      | named spelling => exact isUnlabelled_of_colon _ rfl
  | unchecked hconvention => cases hconvention <;> exact isUnlabelled_of_colon _ rfl

theorem IsFunctionStart.isUnlabelled (hstart : IsFunctionStart lexemes)
    (hrest : (Form.sign ":").begins rest = false) : IsUnlabelled (lexemes ++ rest) := by
  cases hstart with
  | plain hhead => exact hhead.isUnlabelled hrest
  | binder hbinder hhead =>
      cases hbinder with
      | lifetimes opened closed hnames => exact isUnlabelled_of_colon _ rfl

/-- A type is not taken for the name of a parameter. -/
theorem IsType.isUnlabelled (htype : IsType Permits isSum lexemes text)
    (hrest : (Form.sign ":").begins rest = false) : IsUnlabelled (lexemes ++ rest) := by
  cases htype with
  | applied _ happlied => exact happlied.isUnlabelled hrest
  | qualified _ opened closed joined howner hsegments => rfl
  | cast _ opened closed joined howner htrait hsegments => rfl
  | function _ hstart hparameters hresult =>
      rw [List.append_assoc, List.append_assoc]
      exact hstart.isUnlabelled rfl
  | tuple _ htypes => rfl
  | slice _ helement => rfl
  | array _ joined helement hlength => rfl
  | indirect _ hstart htarget => cases hstart <;> rfl
  | bounded _ hintroduction hbounds => exact (hbounds.beginsBound rest).isUnlabelled _
  | never _ joined => rfl
  | inferred _ => exact isUnlabelled_of_colon _ hrest

end

/-! ## Ends -/

/-- The lexemes end a type; whether it may be a sum of bounds. -/
inductive EndsType : Bool → List Lexeme → Prop where
  | nil (isSum : Bool) : EndsType isSum []
  | closing (isSum : Bool) (closing : Char) (more : List Lexeme) :
      EndsType isSum (closingOf closing :: more)
  | mark (isSum : Bool) {symbol : Char} (hsymbol : symbol ∈ [',', '>', ';', '=']) (joined : Bool)
      (more : List Lexeme) : EndsType isSum (markOf symbol joined :: more)
  | cast (isSum : Bool) (more : List Lexeme) : EndsType isSum (keyword "as" :: more)
  | plus (joined : Bool) (more : List Lexeme) : EndsType false (markOf '+' joined :: more)

/-- Forms that would go on with a type. -/
def continuingForms (isSum : Bool) : List Form :=
  [.sign "::", .sign "<", .sign ":", .sign "!", .sign "->", .opening '('] ++
    if isSum then [.sign "+"] else []

theorem EndsType.any_continuing (hends : EndsType isSum rest) :
    ((continuingForms isSum).any fun form => form.begins rest) = false := by
  cases hends with
  | nil => cases isSum <;> rfl
  | closing _ closing more => cases isSum <;> rfl
  | mark _ hsymbol joined more =>
      simp only [List.mem_cons, List.not_mem_nil, or_false] at hsymbol
      rcases hsymbol with rfl | rfl | rfl | rfl <;> cases isSum <;> rfl
  | cast _ more => cases isSum <;> rfl
  | plus joined more => rfl

/-- What ends a type goes on with none of the continuing forms. -/
theorem EndsType.begins_eq_false (hends : EndsType isSum rest) (form : Form)
    (hform : form ∈ continuingForms isSum) : form.begins rest = false := by
  simpa using List.any_eq_false.mp hends.any_continuing form hform

/-- What ends a sum of bounds ends every type. -/
theorem EndsType.of_sum (hends : EndsType true rest) : EndsType isSum rest := by
  cases hends with
  | nil => exact .nil isSum
  | closing _ closing more => exact .closing isSum closing more
  | mark _ hsymbol joined more => exact .mark isSum hsymbol joined more
  | cast _ more => exact .cast isSum more

theorem EndsType.withoutSum (hends : EndsType isSum rest) : EndsType false rest := by
  cases isSum with
  | false => exact hends
  | true => exact hends.of_sum

/-- A path does not go on here. -/
structure EndsPath (rest : List Lexeme) : Prop where
  separator : (Form.sign "::").begins rest = false
  angle : (Form.sign "<").begins rest = false

theorem EndsType.endsPath (hends : EndsType isSum rest) : EndsPath rest where
  separator := hends.begins_eq_false _ (by cases isSum <;> decide)
  angle := hends.begins_eq_false _ (by cases isSum <;> decide)

/-- No generic arguments follow a name here. -/
structure EndsName (rest : List Lexeme) : Prop where
  angle : (Form.sign "<").begins rest = false
  separated : beginWith [.sign "::", .sign "<"] rest = false

theorem EndsPath.endsName (hends : EndsPath rest) : EndsName rest where
  angle := hends.angle
  separated := by rw [beginWith, hends.separator, Bool.false_and]

theorem BeginsPath.endsName {joined : Bool} (hpath : BeginsPath lexemes) :
    EndsName (colons joined ++ lexemes) := by
  constructor
  · rfl
  · cases hpath <;> rfl

/-- The lexemes end a generic argument. -/
inductive EndsArgument : List Lexeme → Prop where
  | mark {symbol : Char} (hsymbol : symbol ∈ [',', '>']) (joined : Bool) (more : List Lexeme) :
      EndsArgument (markOf symbol joined :: more)

theorem EndsArgument.endsType (hends : EndsArgument rest) : EndsType true rest := by
  cases hends with
  | mark hsymbol joined more =>
      have hend : _ ∈ [',', '>', ';', '='] := List.mem_append_left [';', '='] hsymbol
      exact .mark true hend joined more

theorem EndsArgument.begins_sign_eq_false (hends : EndsArgument rest) (sign : String)
    (hsign : sign ∈ ["=", ":", "+"]) : (Form.sign sign).begins rest = false := by
  cases hends with
  | mark hsymbol joined more =>
      simp only [List.mem_cons, List.not_mem_nil, or_false] at hsymbol hsign
      rcases hsymbol with rfl | rfl <;> rcases hsign with rfl | rfl | rfl <;> rfl

end FieldWiring.Source
