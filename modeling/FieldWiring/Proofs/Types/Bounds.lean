import FieldWiring.Proofs.Types.Paths

/-!
# Arguments and bounds

Generic arguments, the lifetimes of a binder, and the bounds of a sum are copied one by one.
-/

namespace FieldWiring.Source

open Arrangement

variable {before after middle lexemes rest : List Lexeme} {name text text' : List Char}
  {form : Form} {isSum joined : Bool} {grammar : Grammar}

/-! ## Generic arguments -/

theorem EndsArgument.writes_lifetime (hends : EndsArgument rest) (name : List Char) :
    Writes (genericArgument grammar) (lifetimeOf name :: rest) rest true name := by
  have hplus : beginWith [.lifetime, .sign "+"] (lifetimeOf name :: rest) = false := by
    change ((Form.sign "+").begins rest && true) = false
    rw [hends.begins_sign_eq_false "+" (by decide), Bool.false_and]
  have hcopy := (isFormed_lifetime name).writes_copy rest
  have hspelled : spelled [lifetimeOf name] = name := by simp [spelled, lifetimeOf]
  rw [hspelled] at hcopy
  exact (writes_isAt _ _).bind_right ((writes_isAtAll_of hplus).bind_right
    (hcopy.bind_left (.pure true rest)))

theorem IsConstant.writes_constantLiteral (hconstant : IsConstant lexemes) (rest : List Lexeme) :
    Writes constantLiteral (lexemes ++ rest) rest () (spelled lexemes) := by
  cases hconstant with
  | @literal kind hkind spelling =>
      have hliteral : IsFormed .literal [⟨kind, spelling, false⟩] := by
        simp only [List.mem_cons, List.not_mem_nil, or_false] at hkind
        rcases hkind with rfl | rfl | rfl <;> exact ⟨rfl, fun _ => rfl⟩
      have hminus : (Form.sign "-").begins (⟨kind, spelling, false⟩ :: rest) = false := by
        simp only [List.mem_cons, List.not_mem_nil, or_false] at hkind
        rcases hkind with rfl | rfl | rfl <;> rfl
      exact (writes_copyIf_of_not hminus).bind_right (hliteral.writes_copy rest)
  | @truth spelling hspelling =>
      have hliteral : IsFormed .literal [keyword spelling] := by
        simp only [List.mem_cons, List.not_mem_nil, or_false] at hspelling
        rcases hspelling with rfl | rfl <;> exact ⟨rfl, fun _ => rfl⟩
      have hminus : Writes (copyIf (.sign "-")) (keyword spelling :: rest)
          (keyword spelling :: rest) false [] := writes_copyIf_of_not rfl
      exact hminus.bind_right (hliteral.writes_copy rest)
  | negative joined spelling =>
      have hliteral : IsFormed .literal [⟨.number, spelling, false⟩] := ⟨rfl, fun _ => rfl⟩
      have hminus := (isFormed_sign "-" rfl joined).writes_copyIf
        (⟨.number, spelling, false⟩ :: rest)
      exact hminus.bind (hliteral.writes_copy rest)

theorem IsConstant.begins (hconstant : IsConstant lexemes) (rest : List Lexeme) :
    Form.lifetime.begins (lexemes ++ rest) = false ∧
    (Form.opening '\x7b').begins (lexemes ++ rest) = false ∧
    ([Form.sign "-", .literal].any fun form => form.begins (lexemes ++ rest)) = true := by
  cases hconstant with
  | literal hkind spelling =>
      simp only [List.mem_cons, List.not_mem_nil, or_false] at hkind
      rcases hkind with rfl | rfl | rfl <;> exact ⟨rfl, rfl, rfl⟩
  | truth hspelling =>
      simp only [List.mem_cons, List.not_mem_nil, or_false] at hspelling
      rcases hspelling with rfl | rfl <;> exact ⟨rfl, rfl, rfl⟩
  | negative joined spelling => exact ⟨rfl, rfl, rfl⟩

/-- A constant is copied as it is spelled. -/
theorem IsConstant.writes_genericArgument (hconstant : IsConstant lexemes) (rest : List Lexeme) :
    Writes (genericArgument grammar) (lexemes ++ rest) rest false (spelled lexemes) := by
  obtain ⟨hlifetime, hblock, hliteral⟩ := hconstant.begins rest
  have hconstantAhead : Writes isAtConstant (lexemes ++ rest) (lexemes ++ rest) true [] := by
    apply writes_isAtAny_of
    rw [List.any_cons, hblock, hliteral]
    rfl
  have hargument : Writes (constantArgument grammar) (lexemes ++ rest) rest ()
      (spelled lexemes) :=
    (writes_isAt_of hblock).bind_right ((writes_isAtAny_of hliteral).bind_right
      (hconstant.writes_constantLiteral rest))
  exact (writes_isAt_of hlifetime).bind_right ((writes_isAtAll _ _).bind_right
    (hconstantAhead.bind_right (hargument.bind_left (.pure false rest))))

theorem BeginsType.writes_isAtConstant (hbegins : BeginsType before) :
    Writes isAtConstant before before false [] := by
  apply writes_isAtAny_of
  simp only [List.any_cons, List.any_nil, Bool.or_false,
    hbegins.begins_eq_false (.opening '\x7b') (by decide),
    hbegins.begins_eq_false (.sign "-") (by decide), hbegins.begins_eq_false .literal (by decide)]

theorem writes_typeArgument (hbegins : BeginsType before)
    (htype : Writes (grammar (.type true)) before rest () text) (hends : EndsArgument rest) :
    Writes (genericArgument grammar) before rest false text := by
  have hlifetime := writes_isAt_of (hbegins.begins_eq_false .lifetime (by decide))
  have hequals := writes_copyIf_of_not (hends.begins_sign_eq_false "=" (by decide))
  have hcolon := writes_copyIf_of_not (hends.begins_sign_eq_false ":" (by decide))
  exact hlifetime.bind_right ((writes_isAtAll _ _).bind_right
    (hbegins.writes_isAtConstant.bind_right (htype.bind_left
      (hequals.bind_right (hcolon.bind_right (.pure false rest))))))

theorem writes_associatedArgument (hbegins : BeginsType before)
    (hname : Writes (grammar (.type true)) before (markOf '=' joined :: middle) () text)
    (hvalue : BeginsType middle) (htype : Writes (grammar (.type true)) middle rest () text') :
    Writes (genericArgument grammar) before rest false (text ++ '=' :: text') := by
  have hlifetime := writes_isAt_of (hbegins.begins_eq_false .lifetime (by decide))
  have hequals := (isFormed_sign "=" rfl joined).writes_copyIf middle
  have htext : text ++ '=' :: text' = text ++ (['='] ++ text') := rfl
  rw [htext]
  exact hlifetime.bind_right ((writes_isAtAll _ _).bind_right
    (hbegins.writes_isAtConstant.bind_right (hname.bind (hequals.bind
      (hvalue.writes_isAtConstant.bind_right (htype.bind_left (.pure false rest)))))))

/-! ## Binders -/

/-- A lifetime is a parameter of a binder. -/
theorem EndsArgument.writes_genericParameter (hends : EndsArgument rest) (name : List Char) :
    Writes (genericParameter grammar) (lifetimeOf name :: rest) rest true name := by
  have hnone : Writes (outerAttributes grammar) (lifetimeOf name :: rest)
      (lifetimeOf name :: rest) () [] := writes_outerAttributes_none rfl
  have hcopy := (isFormed_lifetime name).writes_copyIf rest
  have hspelled : spelled [lifetimeOf name] = name := by simp [spelled, lifetimeOf]
  rw [hspelled] at hcopy
  have hcolon := writes_skipIf_of_not (hends.begins_sign_eq_false ":" (by decide))
  have hbounds : Writes (optionalBounds grammar) rest rest () [] :=
    hcolon.bind_right (.pure () rest)
  exact hnone.bind_right (hcopy.bind_left (hbounds.bind_right (.pure true rest)))

/-- Lifetimes are read one by one as the parameters of a binder. -/
theorem AreLifetimes.argumentLists (hlifetimes : AreLifetimes lexemes) (grammar : Grammar)
    (closed : Bool) (rest : List Lexeme) : ∃ arguments endsWithComma,
      ArgumentLists (genericParameter grammar) rest (lexemes ++ markOf '>' closed :: rest)
        arguments endsWithComma ∧
      spelled (separated arguments) = spelled lexemes := by
  induction hlifetimes with
  | nil => exact ⟨[], false, .nil closed, rfl⟩
  | last name =>
      have hends : EndsArgument (markOf '>' closed :: rest) := .mark (by decide) closed rest
      obtain ⟨read, hread, hcaptured⟩ := (hends.writes_genericParameter name).captured
      refine ⟨_, _, .last closed rfl hcaptured, ?_⟩
      rw [separated, if_neg Bool.false_ne_true, List.append_nil, hread]
      simp [spelled, lifetimeOf]
  | @cons name joined more hmore ih =>
      obtain ⟨arguments, endsWithComma, hlists, hspelled⟩ := ih
      have hends : EndsArgument (markOf ',' joined :: (more ++ markOf '>' closed :: rest)) :=
        .mark (by decide) joined _
      obtain ⟨read, hread, hcaptured⟩ := (hends.writes_genericParameter name).captured
      refine ⟨_, _, .cons joined rfl ?_ hcaptured hlists, ?_⟩
      · simp only [List.cons_append, List.length_cons]
        omega
      · rw [separated_cons_ended, spelled_append, spelled_cons, hspelled, hread]
        rfl

/-- A binder keeps the order of its lifetimes. -/
theorem IsBinder.writes_binder (hbinder : IsBinder lexemes) (grammar : Grammar)
    (rest : List Lexeme) : Writes (binder grammar) (lexemes ++ rest) rest () (spelled lexemes) := by
  cases hbinder with
  | @lifetimes joined behind names hnames =>
      obtain ⟨arguments, endsWithComma, hlists, hspelled⟩ :=
        hnames.argumentLists grammar behind rest
      have hfor := (isFormed_keyword "for").writes_copy
        (markOf '<' joined :: (names ++ markOf '>' behind :: rest))
      have hwrite := writes_write (mark '<' :: separated arguments ++ [mark '>']) rest
      rw [spelled_append, spelled_cons, hspelled] at hwrite
      have htext : spelled (keyword "for" :: markOf '<' joined :: names ++ [markOf '>' behind]) =
          spelled [keyword "for"] ++ ('<' :: spelled names ++ ['>']) := by
        rw [spelled_append]
        rfl
      have hlexemes : keyword "for" :: markOf '<' joined :: names ++ [markOf '>' behind] ++ rest =
          [keyword "for"] ++ markOf '<' joined :: (names ++ markOf '>' behind :: rest) := by simp
      rw [htext, hlexemes]
      exact hfor.bind ((hlists.angleBracketed joined).bind_right hwrite)

/-! ## Bounds -/

/-- Forms that stand in front of the trait in a bound, or in its place. -/
def boundForms : List Form :=
  [.lifetime, .word "use", .opening '(', .word "for", .opening '[', .word "const", .sign "?",
    .word "where"]

theorem BeginsPath.any_boundForms (hpath : BeginsPath lexemes) :
    (boundForms.any fun form => form.begins lexemes) = false := by
  cases hpath with
  | name hname more =>
      exact hname.any_words_eq_false ["use", "for", "const", "where"] (by decide) more
  | keyword hname more =>
      simp only [pathKeywords, List.mem_cons, List.not_mem_nil, or_false] at hname
      rcases hname with rfl | rfl | rfl | rfl <;> rfl
  | separator joined more => rfl

theorem BeginsPath.begins_bound_eq_false (hpath : BeginsPath lexemes) (form : Form)
    (hform : form ∈ boundForms) : form.begins lexemes = false := by
  simpa using List.any_eq_false.mp hpath.any_boundForms form hform

theorem BeginsPath.writes_traitBound (hpath : BeginsPath lexemes)
    (happlied : WritesApplied grammar lexemes rest text) :
    Writes (traitBound grammar) lexemes rest false text := by
  obtain ⟨middle, pathText, typesText, rfl, hwrites, htypes⟩ := happlied.parts
  have hfor := writes_isAt_of (hpath.begins_bound_eq_false (.word "for") (by decide))
  have hconditional := writes_isAt_of (hpath.begins_bound_eq_false (.opening '[') (by decide))
  have hconst := writes_copyIf_of_not (hpath.begins_bound_eq_false (.word "const") (by decide))
  have hrelaxed := writes_copyIf_of_not (hpath.begins_bound_eq_false (.sign "?") (by decide))
  exact hfor.bind_right (hconditional.bind_right (hconst.bind_right (hrelaxed.bind_right
    (hwrites.bind (htypes.bind_left (.pure false rest))))))

theorem BeginsPath.writes_relaxedBound (hpath : BeginsPath lexemes)
    (happlied : WritesApplied grammar lexemes rest text) :
    Writes (traitBound grammar) (markOf '?' joined :: lexemes) rest false ('?' :: text) := by
  obtain ⟨middle, pathText, typesText, rfl, hwrites, htypes⟩ := happlied.parts
  have hfor := writes_isAt_of (hpath.begins_bound_eq_false (.word "for") (by decide))
  have hrelaxed := (isFormed_sign "?" rfl joined).writes_copyIf lexemes
  have hconst : Writes (copyIf (.word "const")) (markOf '?' joined :: lexemes) _ false [] :=
    writes_copyIf_of_not rfl
  exact (writes_isAt _ _).bind_right ((writes_isAt _ _).bind_right (hconst.bind_right
    (hrelaxed.bind (hfor.bind_right (hwrites.bind (htypes.bind_left (.pure false rest)))))))

theorem IsBinder.begins_for {binder : List Lexeme} (hbinder : IsBinder binder)
    (rest : List Lexeme) : (Form.word "for").begins (binder ++ rest) = true := by
  cases hbinder
  rfl

theorem IsBinder.writes_traitBound {binder : List Lexeme} (hbinder : IsBinder binder)
    (hpath : BeginsPath lexemes) (happlied : WritesApplied grammar lexemes rest text) :
    Writes (traitBound grammar) (binder ++ lexemes) rest false (spelled binder ++ text) := by
  obtain ⟨middle, pathText, typesText, rfl, hwrites, htypes⟩ := happlied.parts
  have hwritesBinder := hbinder.writes_binder grammar lexemes
  have hconditional := writes_isAt_of (hpath.begins_bound_eq_false (.opening '[') (by decide))
  have hconst := writes_copyIf_of_not (hpath.begins_bound_eq_false (.word "const") (by decide))
  have hrelaxed := writes_copyIf_of_not (hpath.begins_bound_eq_false (.sign "?") (by decide))
  have hfor := writes_isAt_of (hbinder.begins_for lexemes)
  exact hfor.bind_right (hwritesBinder.bind (hconditional.bind_right (hconst.bind_right
    (hrelaxed.bind_right (hwrites.bind (htypes.bind_left (.pure false rest)))))))

/-- A bound is copied like its trait. -/
theorem writes_bound (hlifetime : Form.lifetime.begins before = false)
    (huse : (Form.word "use").begins before = false)
    (hopening : (Form.opening '(').begins before = false)
    (htrait : Writes (traitBound grammar) before rest false text) :
    Writes (bound grammar) before rest () text := by
  have hcopied : Writes (do
      if ← isAt (.opening '(') then bracketed '(' (traitBound grammar) else traitBound grammar)
      before rest false text := (writes_isAt_of hopening).bind_right htrait
  exact (writes_copyIf_of_not hlifetime).bind_right
    ((writes_copyIf_of_not huse).bind_right hcopied.asItStandsOr)

/-- A bound is copied with what stands in front of its trait. -/
theorem IsBoundStart.writes_bound {start : List Lexeme} (hstart : IsBoundStart start)
    (hpath : BeginsPath lexemes) (happlied : WritesApplied grammar lexemes rest text) :
    Writes (bound grammar) (start ++ lexemes) rest () (spelled start ++ text) := by
  cases hstart with
  | none =>
      exact Source.writes_bound (hpath.begins_bound_eq_false _ (by decide))
        (hpath.begins_bound_eq_false _ (by decide)) (hpath.begins_bound_eq_false _ (by decide))
        (hpath.writes_traitBound happlied)
  | relaxed joined => exact Source.writes_bound rfl rfl rfl (hpath.writes_relaxedBound happlied)
  | binder hbinder =>
      have htrait := hbinder.writes_traitBound hpath happlied
      cases hbinder with
      | lifetimes opened closed hnames => exact Source.writes_bound rfl rfl rfl htrait

theorem writes_lifetimeBound (name : List Char) (rest : List Lexeme) :
    Writes (bound grammar) (lifetimeOf name :: rest) rest () name := by
  have hcopy := (isFormed_lifetime name).writes_copyIf rest
  have hspelled : spelled [lifetimeOf name] = name := by simp [spelled, lifetimeOf]
  rw [hspelled] at hcopy
  exact hcopy.bind_left (.pure () rest)

/-! ## Sums of bounds -/

theorem BeginsBound.writes_isAtBound (hbegins : BeginsBound lexemes) :
    Writes isAtBound lexemes lexemes true [] := by
  have hwhere : (Form.word "where").begins lexemes = false := by
    cases hbegins with
    | path hpath => exact hpath.begins_bound_eq_false _ (by decide)
    | _ => rfl
  have hbound : ([Form.anyWord, .lifetime, .sign "::", .sign "?", .opening '(', .opening '['].any
      fun form => form.begins lexemes) = true := by
    cases hbegins with
    | path hpath => cases hpath <;> rfl
    | _ => rfl
  exact (writes_isAt_of hwhere).bind_right (writes_isAtAny_of hbound)

/-- Copies a bound, and tells whether another one follows. -/
def boundStep (grammar : Grammar) : Copier Bool := do
  if ← isAtBound then
    grammar .bound
    copyIf (.sign "+")
  else return false

/-- The bounds of a sum, of which there may be one alone. -/
structure WritesBounds (grammar : Grammar) (isSum : Bool) (before rest : List Lexeme)
    (text : List Char) : Prop where
  begins : BeginsBound before
  sum : Writes (sumOfBounds grammar isSum) before rest () text
  repeats : isSum = true → Repeats (boundStep grammar) rest before text

theorem writesBounds_last (hbegins : BeginsBound before)
    (hbound : Writes (grammar .bound) before rest () text) (hends : EndsType isSum rest) :
    WritesBounds grammar isSum before rest text where
  begins := hbegins
  sum := by
    cases isSum with
    | false => exact hbound.bind_left (.pure () rest)
    | true =>
        have hplus := writes_copyIf_of_not (hends.begins_eq_false (.sign "+") (by decide))
        exact hbound.bind_left (hplus.bind_right (.pure () rest))
  repeats hsum := by
    subst hsum
    have hplus := writes_copyIf_of_not (hends.begins_eq_false (.sign "+") (by decide))
    exact .last (hbegins.writes_isAtBound.bind_right (hbound.bind_left hplus))

theorem writesBounds_cons (hbegins : BeginsBound before)
    (hbound : Writes (grammar .bound) before (markOf '+' joined :: middle) () text)
    (hshorter : middle.length < before.length)
    (hrest : WritesBounds grammar true middle rest text') :
    WritesBounds grammar true before rest (text ++ '+' :: text') where
  begins := hbegins
  sum := by
    have hplus := (isFormed_sign "+" rfl joined).writes_copyIf middle
    exact hbound.bind (hplus.bind (hrest.repeats rfl).repeating)
  repeats _ := by
    have hplus := (isFormed_sign "+" rfl joined).writes_copyIf middle
    have htext : text ++ '+' :: text' = (text ++ ['+']) ++ text' := by simp
    rw [htext]
    exact .more hshorter (hbegins.writes_isAtBound.bind_right (hbound.bind hplus))
      (hrest.repeats rfl)

end FieldWiring.Source
