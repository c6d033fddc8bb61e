import FieldWiring.Proofs.Types.Bounds

/-!
# Compound types

Types that begin with a keyword, a bracket or a sign are copied like what they are made of.
-/

namespace FieldWiring.Source

open Arrangement

variable {before after middle lexemes rest : List Lexeme} {text text' : List Char}
  {isSum joined : Bool} {grammar : Grammar}

/-! ## Bounds as types -/

/-- Bounds behind `dyn` or `impl` are a type. -/
theorem writes_boundedType {introduction : String} (hintroduction : introduction ∈ ["dyn", "impl"])
    (hbounds : WritesBounds grammar isSum before rest text) :
    Writes (type grammar isSum) (keyword introduction :: before) rest ()
      (introduction.toList ++ text) := by
  simp only [List.mem_cons, List.not_mem_nil, or_false] at hintroduction
  rcases hintroduction with rfl | rfl
  · have hstar : (Form.sign "*").begins before = false := by
      cases hbounds.begins with
      | path hpath => cases hpath <;> rfl
      | _ => rfl
    have hdyn := (isFormed_keyword "dyn").writes_copy before
    have hobject : Writes (do
        copy (.word "dyn")
        let isStarred ← copyIf (.sign "*")
        sumOfBounds grammar isSum
        return isStarred) (keyword "dyn" :: before) rest false ("dyn".toList ++ text) :=
      hdyn.bind ((writes_copyIf_of_not hstar).bind_right (hbounds.sum.bind_left (.pure false rest)))
    exact hobject.asItStandsOr
  · exact .of_cons (sumOfBounds grammar isSum) (fun _ => rfl) hbounds.sum

/-! ## Tuples and arrays -/

theorem writes_tupleType
    (hlists : Lists (do
      if ← isAt (.sign "?") then grammar .bound else grammar (.type true))
      (closingOf ')' :: rest) before text) (hends : EndsType isSum rest) :
    Writes (type grammar isSum) (openingOf '(' :: before) rest ()
      ('(' :: text ++ [')']) := by
  have hfurther : Writes (furtherBounds grammar isSum) rest rest () [] := by
    cases isSum with
    | false => exact .pure () rest
    | true =>
        have hplus := writes_copyIf_of_not (hends.begins_eq_false (.sign "+") (by decide))
        exact hplus.bind_right (.pure () rest)
  have hbrackets : Writes (bracketed '(' (listOf do
      if ← isAt (.sign "?") then grammar .bound else grammar (.type true)))
      (openingOf '(' :: before) rest () ('(' :: text ++ [')']) :=
    (hlists.listOf rfl).bracketed
  have htuple : Writes (do
      bracketed '(' (listOf do
        if ← isAt (.sign "?") then grammar .bound else grammar (.type true))
      furtherBounds grammar isSum) (openingOf '(' :: before) rest ()
      ('(' :: text ++ [')']) := hbrackets.bind_left hfurther
  exact htuple

theorem writes_sliceType
    (helement : Writes (grammar (.type true)) before (closingOf ']' :: rest) () text) :
    Writes (type grammar isSum) (openingOf '[' :: before) rest ()
      ('[' :: text ++ [']']) := by
  have hnone : Writes (copyIf (.sign ";")) (closingOf ']' :: rest) _ false [] :=
    writes_copyIf_of_not rfl
  have hcontent : Writes (do
      grammar (.type true)
      if ← copyIf (.sign ";") then grammar (.expression true)) before
      (closingOf ']' :: rest) () text :=
    helement.bind_left (hnone.bind_right (.pure () _))
  exact hcontent.bracketed

theorem writes_arrayType
    (helement : Writes (grammar (.type true)) before (markOf ';' joined :: middle) () text)
    (hlength : Writes (grammar (.expression true)) middle (closingOf ']' :: rest) ()
      text') :
    Writes (type grammar isSum) (openingOf '[' :: before) rest ()
      ('[' :: (text ++ ';' :: (text' ++ [']']))) := by
  have hsemicolon := (isFormed_sign ";" rfl joined).writes_copyIf middle
  have hcontent : Writes (do
      grammar (.type true)
      if ← copyIf (.sign ";") then grammar (.expression true)) before
      (closingOf ']' :: rest) () (text ++ ([';'] ++ text')) :=
    helement.bind (hsemicolon.bind hlength)
  have htext : '[' :: (text ++ ';' :: (text' ++ [']'])) =
      '[' :: (text ++ ([';'] ++ text')) ++ [']'] := by simp
  rw [htext]
  exact hcontent.bracketed

/-! ## Indirections -/

/-- Copies a reference behind its sign. -/
def referenceTarget (grammar : Grammar) : Copier Unit := do
  let _ ← copyIf .lifetime
  let _ ← copyIf (.word "mut")
  grammar (.type false)

/-- Copies a pointer behind its sign. -/
def pointerTarget (grammar : Grammar) : Copier Unit := do
  if !(← copyIf (.word "mut")) then copy (.word "const")
  grammar (.type false)

theorem writes_referenceType (htarget : Writes (referenceTarget grammar) before rest () text) :
    Writes (type grammar isSum) (markOf '&' joined :: before) rest () ('&' :: text) :=
  .of_cons (referenceTarget grammar) (fun _ => rfl) htarget

/-- A reference or a pointer is copied with the type behind it. -/
theorem IsIndirection.writes_type {start : List Lexeme} (hstart : IsIndirection start)
    (hbegins : BeginsType lexemes)
    (htarget : Writes (grammar (.type false)) lexemes rest () text) :
    Writes (type grammar isSum) (start ++ lexemes) rest () (spelled start ++ text) := by
  have hnoLifetime := writes_copyIf_of_not (hbegins.begins_eq_false .lifetime (by decide))
  have hnoMut := writes_copyIf_of_not (hbegins.begins_eq_false (.word "mut") (by decide))
  have hmut := (isFormed_keyword "mut").writes_copyIf lexemes
  cases hstart with
  | reference joined =>
      exact writes_referenceType (hnoLifetime.bind_right (hnoMut.bind_right htarget))
  | lasting joined name =>
      have hlifetime := (isFormed_lifetime name).writes_copyIf lexemes
      have htext : spelled [markOf '&' joined, lifetimeOf name] ++ text =
          '&' :: (spelled [lifetimeOf name] ++ text) := rfl
      rw [htext]
      exact writes_referenceType (hlifetime.bind (hnoMut.bind_right htarget))
  | changeable joined =>
      have hnoLifetime : Writes (copyIf .lifetime) (keyword "mut" :: lexemes) _ false [] :=
        writes_copyIf_of_not rfl
      exact writes_referenceType (hnoLifetime.bind_right (hmut.bind htarget))
  | both joined name =>
      have hlifetime := (isFormed_lifetime name).writes_copyIf (keyword "mut" :: lexemes)
      have htext : spelled [markOf '&' joined, lifetimeOf name, keyword "mut"] ++ text =
          '&' :: (spelled [lifetimeOf name] ++ (spelled [keyword "mut"] ++ text)) := by
        simp [spelled, markOf]
      rw [htext]
      exact writes_referenceType (hlifetime.bind (hmut.bind htarget))
  | pointer joined haccess =>
      simp only [List.mem_cons, List.not_mem_nil, or_false] at haccess
      apply Writes.of_cons (pointerTarget grammar) (fun _ => rfl)
      rcases haccess with rfl | rfl
      · have hnoMut : Writes (copyIf (.word "mut")) (keyword "const" :: lexemes) _ false [] :=
          writes_copyIf_of_not rfl
        have hconst := (isFormed_keyword "const").writes_copy lexemes
        exact hnoMut.bind_right (hconst.bind htarget)
      · exact hmut.bind htarget

theorem writes_neverType (rest : List Lexeme) :
    Writes (type grammar isSum) (markOf '!' joined :: rest) rest () ['!'] :=
  .of_cons (pure ()) (fun _ => rfl) (.pure () rest)

theorem writes_inferredType (rest : List Lexeme) :
    Writes (type grammar isSum) (keyword "_" :: rest) rest () ['_'] :=
  (isFormed_keyword "_").writes_copy rest

/-! ## Function types -/

theorem IsUnlabelled.writes_isAtArgumentName (hunlabelled : IsUnlabelled lexemes)
    (isFirst : Bool) : Writes (isAtArgumentName isFirst) lexemes lexemes false [] := by
  have hcolon : Writes (do return isAtArgumentName.beginsWithColon (← ahead)) lexemes lexemes
      (isAtArgumentName.beginsWithColon lexemes) [] := ⟨[], rfl, fun _ => rfl⟩
  rw [hunlabelled] at hcolon
  cases hname : [Form.name, .word "_"].any fun form => form.begins lexemes with
  | true => exact (writes_isAtAny_of hname).bind_right hcolon
  | false =>
      refine (writes_isAtAny_of hname).bind_right ((writes_isAt _ _).bind_right ?_)
      split
      · exact hcolon
      · exact .pure false lexemes

/-- A parameter without a name is copied as its type. -/
theorem writes_parameter (isFirst : Bool) (hbegins : BeginsType before)
    (hunlabelled : IsUnlabelled before)
    (htype : Writes (grammar (.type true)) before after () text) :
    Writes (functionTypeArgument grammar isFirst) before after () text := by
  have hnone : Writes (outerAttributes grammar) before before () [] :=
    writes_outerAttributes_none (hbegins.begins_eq_false (.sign "#") (by decide))
  have hmutable : beginWith [.word "mut", .word "self"] before = false := by
    rw [beginWith, hbegins.begins_eq_false (.word "mut") (by decide), Bool.false_and]
  have hself := writes_isAtAll_of hmutable
  have hname := hunlabelled.writes_isAtArgumentName isFirst
  have hdots := writes_copyIf_of_not (hbegins.begins_eq_false (.sign "...") (by decide))
  refine hnone.bind_right (Writes.asItStandsOr ?_)
  cases isFirst with
  | false =>
      have hreceiver : Writes (pure false <&&> isAtAll [.word "mut", .word "self"]) before before
          false [] := .pure false before
      exact hreceiver.bind_right (hname.bind_right (hdots.bind_right (hself.bind_right
        (htype.bind_left (.pure false after)))))
  | true =>
      have hreceiver : Writes (pure true <&&> isAtAll [.word "mut", .word "self"]) before before
          false [] := hself
      exact hreceiver.bind_right (hname.bind_right (hdots.bind_right (hself.bind_right
        (htype.bind_left (.pure false after)))))

/-- Types with commas between them, read one by one. -/
inductive TypeLists (grammar : Grammar) (after : List Lexeme) :
    List Lexeme → List Char → Prop where
  | nil : TypeLists grammar after after []
  | last {before : List Lexeme} {text : List Char} (hbegins : BeginsType before)
      (hunlabelled : IsUnlabelled before)
      (htype : Writes (grammar (.type true)) before after () text) :
      TypeLists grammar after before text
  | cons (joined : Bool) {before middle : List Lexeme} {text text' : List Char}
      (hbegins : BeginsType before) (hunlabelled : IsUnlabelled before)
      (hshorter : middle.length < before.length)
      (htype : Writes (grammar (.type true)) before (markOf ',' joined :: middle) () text)
      (hlists : TypeLists grammar after middle text') :
      TypeLists grammar after before (text ++ ',' :: text')

/-- Whatever copies each of the types copies the list. -/
theorem TypeLists.lists (hlists : TypeLists grammar after before text) {item : Copier Unit}
    (hitem : ∀ {before after : List Lexeme} {text : List Char}, BeginsType before →
      IsUnlabelled before → Writes (grammar (.type true)) before after () text →
      Writes item before after () text) : Lists item after before text := by
  induction hlists with
  | nil => exact .nil
  | last hbegins hunlabelled htype =>
      exact .last hbegins.isOngoing (hitem hbegins hunlabelled htype)
  | cons joined hbegins hunlabelled hshorter htype hlists ih =>
      exact .cons joined hbegins.isOngoing hshorter (hitem hbegins hunlabelled htype) ih

/-- Copies the parameters of a function type. -/
def functionTypeParameters (grammar : Grammar) : Copier Unit := do
  if ← isAtEnd then return
  functionTypeArgument grammar true
  if ← copyIf (.sign ",") then listOf (functionTypeArgument grammar false)

theorem TypeLists.writes_functionTypeParameters {closing : Char}
    (hlists : TypeLists grammar (closingOf closing :: after) before text) :
    Writes (functionTypeParameters grammar) before (closingOf closing :: after) () text := by
  cases hlists with
  | nil => exact (writes_isAtEnd _).bind_right (.pure () _)
  | last hbegins hunlabelled htype =>
      have hongoing := hbegins.isOngoing ▸ writes_isAtEnd before
      have hnone : Writes (copyIf (.sign ",")) (closingOf closing :: after) _ false [] :=
        writes_copyIf_of_not rfl
      exact hongoing.bind_right ((writes_parameter true hbegins hunlabelled htype).bind_left
        (hnone.bind_right (.pure () _)))
  | @cons joined _ middle text text' hbegins hunlabelled hshorter htype hlists =>
      have hongoing := hbegins.isOngoing ▸ writes_isAtEnd before
      have hcomma := (isFormed_sign "," rfl joined).writes_copyIf middle
      have hrest : Writes (listOf (functionTypeArgument grammar false)) middle
          (closingOf closing :: after) () text' :=
        (hlists.lists (writes_parameter false)).listOf rfl
      exact hongoing.bind_right ((writes_parameter true hbegins hunlabelled htype).bind
        (hcomma.bind hrest))

theorem IsConvention.writes_callingConvention {convention : List Lexeme}
    (hconvention : IsConvention convention) (hword : (Form.word "extern").begins rest = false)
    (htext : Form.text.begins rest = false) :
    Writes callingConvention (convention ++ rest) rest () (spelled convention) := by
  have hforeign := isFormed_keyword "extern"
  cases hconvention with
  | none => exact (writes_copyIf_of_not hword).bind_right (.pure () rest)
  | foreign =>
      have hnone := writes_copyIf_of_not htext
      exact (hforeign.writes_copyIf rest).bind_left (hnone.bind_right (.pure () rest))
  | named spelling =>
      have hname : IsFormed .text [⟨.text, spelling, false⟩] := ⟨rfl, fun _ => rfl⟩
      exact (hforeign.writes_copyIf _).bind ((hname.writes_copyIf rest).bind_left (.pure () rest))

/-- Copies a function type behind what is said about the safety of its calls. -/
def safeFunctionType (grammar : Grammar) : Copier Unit := do
  callingConvention
  copy (.word "fn")
  bracketed '(' (functionTypeParameters grammar)
  resultType grammar false

/-- A function type is copied as its head, parameters and result. -/
theorem IsFunctionHead.writes_functionType {head : List Lexeme} (hhead : IsFunctionHead head)
    (hparameters : TypeLists grammar (closingOf ')' :: middle) before text)
    (hresult : Writes (resultType grammar false) middle rest () text') :
    Writes (functionType grammar) (head ++ openingOf '(' :: before) rest ()
      (spelled head ++ '(' :: (text ++ ')' :: text')) := by
  have hfn := (isFormed_keyword "fn").writes_copy (openingOf '(' :: before)
  have hbrackets : Writes (bracketed '(' (functionTypeParameters grammar))
      (openingOf '(' :: before) middle () ('(' :: text ++ [')']) :=
    hparameters.writes_functionTypeParameters.bracketed
  have hsafe : ∀ {convention : List Lexeme}, IsConvention convention →
      Writes (safeFunctionType grammar) (convention ++ keyword "fn" :: openingOf '(' :: before)
        rest () (spelled convention ++ ("fn".toList ++ ('(' :: text ++ [')'] ++ text'))) :=
    fun hconvention => (hconvention.writes_callingConvention rfl rfl).bind
      (hfn.bind (hbrackets.bind hresult))
  cases hhead with
  | @checked convention hconvention =>
      have hnone : Writes (copyIf (.word "unsafe"))
          (convention ++ keyword "fn" :: openingOf '(' :: before)
          (convention ++ keyword "fn" :: openingOf '(' :: before) false [] := by
        cases hconvention <;> exact writes_copyIf_of_not rfl
      have h : Writes (functionType grammar) (convention ++ keyword "fn" :: openingOf '(' :: before)
          rest () _ := hnone.bind_right (hsafe hconvention)
      simpa [spelled_append, keyword, spelled_wordOf, spelled_nil] using h
  | @unchecked convention hconvention =>
      have hunsafe := (isFormed_keyword "unsafe").writes_copyIf
        (convention ++ keyword "fn" :: openingOf '(' :: before)
      have h : Writes (functionType grammar)
          (keyword "unsafe" :: (convention ++ keyword "fn" :: openingOf '(' :: before)) rest () _ :=
        hunsafe.bind (hsafe hconvention)
      simpa [spelled_append, keyword, spelled_wordOf, spelled_nil] using h

theorem IsFunctionHead.begins_for {head : List Lexeme} (hhead : IsFunctionHead head)
    (more : List Lexeme) : (Form.word "for").begins (head ++ more) = false := by
  cases hhead with
  | checked hconvention => cases hconvention <;> rfl
  | unchecked hconvention => rfl

theorem IsFunctionHead.any_functionForms {head : List Lexeme} (hhead : IsFunctionHead head)
    (more : List Lexeme) : ([Form.word "fn", .word "unsafe", .word "extern"].any
      fun form => form.begins (head ++ more)) = true := by
  cases hhead with
  | checked hconvention => cases hconvention <;> rfl
  | unchecked hconvention => rfl

theorem IsFunctionStart.writes_type {start : List Lexeme} (hstart : IsFunctionStart start)
    (hparameters : TypeLists grammar (closingOf ')' :: middle) before text)
    (hresult : Writes (resultType grammar false) middle rest () text') :
    Writes (type grammar isSum) (start ++ openingOf '(' :: before) rest ()
      (spelled start ++ '(' :: (text ++ ')' :: text')) := by
  cases hstart with
  | plain hhead =>
      have hfunction := hhead.writes_functionType hparameters hresult
      have hfor := writes_isAt_of (hhead.begins_for (openingOf '(' :: before))
      have hforms := writes_isAtAny_of (hhead.any_functionForms (openingOf '(' :: before))
      exact hfor.bind_right (hforms.bind_right hfunction)
  | @binder binder head hbinder hhead =>
      have hfunction := hhead.writes_functionType hparameters hresult
      have hforms := writes_isAtAny_of (hhead.any_functionForms (openingOf '(' :: before))
      have hfor := writes_isAt_of (hbinder.begins_for (head ++ openingOf '(' :: before))
      have hwritesBinder := hbinder.writes_binder grammar (head ++ openingOf '(' :: before)
      rw [spelled_append, List.append_assoc, List.append_assoc]
      exact hfor.bind_right (hwritesBinder.bind (hforms.bind_right hfunction))

end FieldWiring.Source
