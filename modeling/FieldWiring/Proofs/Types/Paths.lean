import FieldWiring.Proofs.Types.Beginnings

/-!
# Paths

Paths are copied part by part, each with its generic arguments.  A type can be a path, or a
path with the types of a function behind it.
-/

namespace FieldWiring.Source

open Arrangement

variable {before after middle lexemes rest : List Lexeme} {name text text' ownerText : List Char}
  {form : Form} {isSum opened closed joined : Bool} {grammar : Grammar}

/-! ## Parts of paths -/

theorem EndsName.writes_isAtGenericArguments (hends : EndsName rest) (inExpression : Bool) :
    Writes (isAtGenericArguments inExpression) rest rest false [] := by
  have hseparated := writes_isAtAll_of hends.separated
  have hangle := writes_isAt_of hends.angle
  cases inExpression with
  | true => exact hseparated.bind_right (.pure false rest)
  | false =>
      exact hseparated.bind_right (hangle.bind_right ((writes_isAtAny _ rest).bind_right
        (.pure false rest)))

/-- An angle bracket alone opens generic arguments in a type. -/
theorem writes_isAtGenericArguments_of_angle {opened : Bool}
    (hsigns : ([Form.sign "<=", .sign "<<="].any fun form =>
      form.begins (markOf '<' opened :: rest)) = false) :
    Writes (isAtGenericArguments false) (markOf '<' opened :: rest) (markOf '<' opened :: rest)
      true [] := by
  have hsigns := writes_isAtAny_of hsigns
  exact (writes_isAtAll _ _).bind_right ((writes_isAt _ _).bind_right
    (hsigns.bind_right (.pure true _)))

theorem isFormed_anyWord (name : List Char) : IsFormed .anyWord [wordOf name] :=
  ⟨rfl, fun _ => rfl⟩

/-- What a name in a path is copied by, up to its generic arguments. -/
theorem writes_pathSegment {inExpression : Bool}
    (hname : IsName name ∨ name = "Self".toList)
    (harguments : Writes (do
      if ← isAtGenericArguments inExpression then
        let _ ← copyIf (.sign "::")
        genericArguments grammar) before after () text) :
    Writes (pathSegment grammar inExpression) (wordOf name :: before) after () (name ++ text) := by
  have hspelled : spelled [wordOf name] = name := by
    rw [spelled_wordOf, spelled_nil, List.append_nil]
  cases hname with
  | inl hname =>
      have hself := writes_isAtAny_of (hname.any_words_eq_false ["super", "self", "crate", "try"]
        (by decide) before)
      have hSelf := writes_isAt_of (hname.begins_word_eq_false "Self" (by decide) before)
      have hcopy := (isFormed_name hname).writes_copy before
      rw [hspelled] at hcopy
      exact hself.bind_right (hSelf.bind_right (hcopy.bind harguments))
  | inr hname =>
      subst hname
      have hcopy := (isFormed_anyWord "Self".toList).writes_copy before
      exact (writes_isAtAny _ _).bind_right ((writes_isAt _ _).bind_right (hcopy.bind harguments))

/-- A name without generic arguments is copied alone. -/
theorem EndsName.writes_pathSegment (hends : EndsName rest)
    (hname : IsName name ∨ name ∈ pathKeywords) (grammar : Grammar) (inExpression : Bool) :
    Writes (pathSegment grammar inExpression) (wordOf name :: rest) rest () name := by
  have hnone : Writes (do
      if ← isAtGenericArguments inExpression then
        let _ ← copyIf (.sign "::")
        genericArguments grammar) rest rest () [] :=
    (hends.writes_isAtGenericArguments inExpression).bind_right (.pure () rest)
  rcases hname with hname | hname
  · simpa only [List.append_nil] using Source.writes_pathSegment (.inl hname) hnone
  · simp only [pathKeywords, List.mem_cons, List.not_mem_nil, or_false] at hname
    have hcopy := (isFormed_anyWord name).writes_copy rest
    rcases hname with rfl | rfl | rfl | rfl
    · simpa only [List.append_nil] using Source.writes_pathSegment (.inr rfl) hnone
    · exact (writes_isAtAny _ _).bind_right hcopy
    · exact (writes_isAtAny _ _).bind_right hcopy
    · exact (writes_isAtAny _ _).bind_right hcopy

/-- Generic arguments are printed where they stand. -/
theorem writes_genericArguments {arguments : List Arrangement.Argument}
    {endsWithComma opened : Bool}
    (hlists : ArgumentLists (genericArgument grammar) after before arguments endsWithComma) :
    Writes (genericArguments grammar) (markOf '<' opened :: before) after ()
      ('<' :: GenericArgument.printed (arguments.map Arrangement.Argument.generic) endsWithComma ++
        ['>']) := by
  have hwrite := writes_write (mark '<' :: separated (lifetimesFirst arguments) ++ [mark '>']) after
  rw [spelled_append, spelled_cons, hlists.endedBy.spelled_lifetimesFirst] at hwrite
  exact (hlists.angleBracketed opened).bind_right hwrite

/-- Copies a part of a path, and tells whether another part follows. -/
def segmentStep (grammar : Grammar) (inExpression : Bool) : Copier Bool := do
  pathSegment grammar inExpression
  if ← isAtAll [.sign "::", .opening '('] then return false
  copyIf (.sign "::")

theorem repeats_last_segment {inExpression : Bool}
    (hsegment : Writes (pathSegment grammar inExpression) before rest () text)
    (hends : (Form.sign "::").begins rest = false) :
    Repeats (segmentStep grammar inExpression) rest before text := by
  have hnone : beginWith [.sign "::", .opening '('] rest = false := by
    rw [beginWith, hends, Bool.false_and]
  have hcolons := writes_copyIf_of_not hends
  exact .last (hsegment.bind_left ((writes_isAtAll_of hnone).bind_right hcolons))

theorem repeats_cons_segment {inExpression joined : Bool}
    (hsegment : Writes (pathSegment grammar inExpression) before (colons joined ++ lexemes) () text)
    (hpath : BeginsPath lexemes) (hshorter : lexemes.length < before.length)
    (hrest : Repeats (segmentStep grammar inExpression) rest lexemes text') :
    Repeats (segmentStep grammar inExpression) rest before (text ++ "::".toList ++ text') := by
  have hnone : beginWith [.sign "::", .opening '('] (colons joined ++ lexemes) = false := by
    cases hpath <;> rfl
  have hcolons := (isFormed_colons joined).writes_copyIf lexemes
  exact .more hshorter (hsegment.bind ((writes_isAtAll_of hnone).bind_right hcolons)) hrest

/-! ## Types of functions -/

theorem writes_resultType_none (hends : (Form.sign "->").begins rest = false) (isSum : Bool) :
    Writes (resultType grammar isSum) rest rest () [] :=
  (writes_copyIf_of_not hends).bind_right (.pure () rest)

theorem writes_resultType {joined : Bool}
    (htype : Writes (grammar (.type isSum)) before after () text) :
    Writes (resultType grammar isSum) (markOf '-' true :: markOf '>' joined :: before) after ()
      ("->".toList ++ text) := by
  have harrow : IsFormed (.sign "->") [markOf '-' true, markOf '>' joined] := ⟨rfl, fun _ => rfl⟩
  exact (harrow.writes_copyIf before).bind htype

theorem writes_functionTypes_none (hopening : (Form.opening '(').begins rest = false)
    (hcolons : (Form.sign "::").begins rest = false) :
    Writes (functionTypes grammar) rest rest () [] := by
  have hopening := writes_isAt_of hopening
  have hnone : Writes (isAtAll [.sign "::", .opening '(']) rest rest false [] := by
    apply writes_isAtAll_of
    rw [beginWith, hcolons, Bool.false_and]
  exact hopening.bind_right (hnone.bind_right (.pure () rest))

/-- The types of a function are copied with their parentheses. -/
theorem writes_functionTypes
    (hlists : Lists (grammar (.type true)) (closingOf ')' :: after) before text)
    (hresult : Writes (resultType grammar false) after rest () text') :
    Writes (functionTypes grammar) (openingOf '(' :: before) rest ()
      ('(' :: (text ++ ')' :: text')) := by
  have hbrackets : Writes (bracketed '(' (listOf (grammar (.type true))))
      (openingOf '(' :: before) after () ('(' :: text ++ [')']) :=
    (hlists.listOf rfl).bracketed
  have hskip : Writes (skipIf (.sign "::")) (openingOf '(' :: before) _ false [] :=
    writes_skipIf_of_not rfl
  have htext : '(' :: (text ++ ')' :: text') = ('(' :: text ++ [')']) ++ text' := by simp
  rw [htext]
  exact (writes_isAt _ _).bind_right ((writes_isAtAll _ _).bind_right
    (hskip.bind_right (hbrackets.bind hresult)))

theorem EndsType.writes_functionTypes (hends : EndsType isSum rest) :
    Writes (functionTypes grammar) rest rest () [] :=
  writes_functionTypes_none (hends.begins_eq_false _ (by cases isSum <;> decide))
    (hends.begins_eq_false _ (by cases isSum <;> decide))

/-! ## Types that begin with a path -/

/-- Copies the rest of a type behind its path. -/
def pathType (grammar : Grammar) (isSum : Bool) : Copier Unit := do
  qualifiedPath grammar false
  functionTypes grammar
  if ← isAtExpansion then expansion else furtherBounds grammar isSum

/-- A type that begins like a path is read as one. -/
theorem BeginsPath.writes_type (hpath : BeginsPath lexemes)
    (hpathType : Writes (pathType grammar isSum) lexemes rest () text) :
    Writes (type grammar isSum) lexemes rest () text := by
  cases hpath with
  | name hname more =>
      have hfor := writes_isAt_of (hname.begins_word_eq_false "for" (by decide) more)
      have hfunction := writes_isAtAny_of
        (hname.any_words_eq_false ["fn", "unsafe", "extern"] (by decide) more)
      have hpath : Writes isAtPath (wordOf _ :: more) (wordOf _ :: more) true [] :=
        writes_isAtAny_of (by rw [List.any_cons, hname.begins_name, Bool.true_or])
      exact hfor.bind_right (hfunction.bind_right (hpath.bind_right hpathType))
  | keyword hname more =>
      simp only [pathKeywords, List.mem_cons, List.not_mem_nil, or_false] at hname
      rcases hname with rfl | rfl | rfl | rfl <;> exact hpathType
  | separator joined more => exact hpathType

/-- A path with what is applied to it. -/
structure WritesApplied (grammar : Grammar) (before rest : List Lexeme) (text : List Char) :
    Prop where
  parts : ∃ middle pathText typesText, text = pathText ++ typesText ∧
    Writes (path grammar false) before middle () pathText ∧
    Writes (functionTypes grammar) middle rest () typesText

/-- What ends a type is no part of it. -/
theorem EndsType.writes_end (hends : EndsType isSum rest) :
    Writes (do if ← isAtExpansion then expansion else furtherBounds grammar isSum) rest rest ()
      [] := by
  have hexpansion : Writes isAtExpansion rest rest false [] :=
    (writes_isAt_of (hends.begins_eq_false (.sign "!") (by cases isSum <;> decide))).bind_right
      ((writes_isAt _ rest).bind_right (.pure false rest))
  apply hexpansion.bind_right
  cases isSum with
  | false => exact .pure () rest
  | true =>
      have hplus := writes_copyIf_of_not (hends.begins_eq_false (.sign "+") (by decide))
      exact hplus.bind_right (.pure () rest)

/-- A path with what is applied to it is a type. -/
theorem WritesApplied.writes_type (happlied : WritesApplied grammar lexemes rest text)
    (hpath : BeginsPath lexemes) (hends : EndsType isSum rest) :
    Writes (type grammar isSum) lexemes rest () text := by
  obtain ⟨middle, pathText, typesText, rfl, hpathWrites, htypes⟩ := happlied.parts
  apply hpath.writes_type
  have hangle := hpath.begins_angle_eq_false
  have hqualified : Writes (qualifiedPath grammar false) lexemes middle () pathText :=
    (writes_copyIf_of_not hangle).bind_right hpathWrites
  exact hqualified.bind (htypes.bind_left hends.writes_end)

theorem writes_nameType (hname : IsName name) (hends : EndsType isSum rest) :
    Writes (type grammar isSum) (wordOf name :: rest) rest () name := by
  have hpath : BeginsPath (wordOf name :: rest) := .name hname rest
  have hsegment := hends.endsPath.endsName.writes_pathSegment (.inl hname) grammar false
  have hsegments := (repeats_last_segment hsegment hends.endsPath.separator).repeating
  have hnone : Writes (copyIf (.sign "::")) (wordOf name :: rest) _ false [] :=
    writes_copyIf_of_not rfl
  have happlied : WritesApplied grammar (wordOf name :: rest) rest name :=
    ⟨rest, name, [], (List.append_nil name).symm, hnone.bind_right hsegments,
      hends.writes_functionTypes⟩
  exact happlied.writes_type hpath hends

/-! ## Qualified paths -/

theorem writes_qualifiedPath
    (howner : Writes (grammar (.type true)) before
      (markOf '>' closed :: (colons joined ++ lexemes)) () ownerText)
    (hsegments : Repeats (segmentStep grammar false) rest lexemes text) :
    Writes (qualifiedPath grammar false) (markOf '<' opened :: before) rest ()
      ('<' :: (ownerText ++ (">::".toList ++ text))) := by
  have hopened := (isFormed_sign "<" rfl opened).writes_copyIf before
  have hcast : Writes (copyIf (.word "as")) (markOf '>' closed :: (colons joined ++ lexemes)) _
      false [] := writes_copyIf_of_not rfl
  have hclosed := (isFormed_sign ">" rfl closed).writes_copy (colons joined ++ lexemes)
  have hcolons := (isFormed_colons joined).writes_copy lexemes
  exact hopened.bind (howner.bind (hcast.bind_right (hclosed.bind (hcolons.bind
    hsegments.repeating))))

/-- A path into a type as it is seen by a trait. -/
theorem writes_castPath {traitText : List Char}
    (howner : Writes (grammar (.type true)) before (keyword "as" :: middle) () ownerText)
    (htrait : Writes (path grammar false) middle
      (markOf '>' closed :: (colons joined ++ lexemes)) () traitText)
    (hsegments : Repeats (segmentStep grammar false) rest lexemes text) :
    Writes (qualifiedPath grammar false) (markOf '<' opened :: before) rest ()
      ('<' :: (ownerText ++ ("as".toList ++ (traitText ++ (">::".toList ++ text))))) := by
  have hopened := (isFormed_sign "<" rfl opened).writes_copyIf before
  have hcast := (isFormed_keyword "as").writes_copyIf middle
  have hclosed := (isFormed_sign ">" rfl closed).writes_copy (colons joined ++ lexemes)
  have hcolons := (isFormed_colons joined).writes_copy lexemes
  exact hopened.bind (howner.bind (hcast.bind (htrait.bind (hclosed.bind (hcolons.bind
    hsegments.repeating)))))

theorem writes_type_of_angle
    (hpath : Writes (qualifiedPath grammar false) (markOf '<' opened :: before) rest () text)
    (hends : EndsType isSum rest) :
    Writes (type grammar isSum) (markOf '<' opened :: before) rest () text := by
  have htypes : Writes (functionTypes grammar) rest rest () [] :=
    writes_functionTypes_none (hends.begins_eq_false _ (by cases isSum <;> decide))
      (hends.begins_eq_false _ (by cases isSum <;> decide))
  have h : Writes (pathType grammar isSum) (markOf '<' opened :: before) rest () text :=
    hpath.bind_left (htypes.bind_right hends.writes_end)
  exact h

end FieldWiring.Source
