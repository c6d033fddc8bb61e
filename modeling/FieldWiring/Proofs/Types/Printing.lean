import FieldWiring.Proofs.Types.Compounds
import FieldWiring.Proofs.Types.Lengths

/-!
# Printed types

A type is copied as it is printed, by induction on how the grammar puts it together.  The
nesting of the copiers is bounded; a part of a type has fewer lexemes than the type, so that a
bound on their number is enough.
-/

namespace FieldWiring.Source

open Arrangement

/-! ## Lengths -/

section

variable {before after lexemes rest : List Lexeme} {name text : List Char} {isSum : Bool}
  {Permits : List GenericArgument → Prop}

theorem IsType.length_pos (htype : IsType Permits isSum lexemes text) : 0 < lexemes.length := by
  have hongoing := (htype.beginsType []).isOngoing
  cases lexemes with
  | nil => cases hongoing
  | cons first rest => exact Nat.succ_pos _

theorem IsIndirection.length_pos (hstart : IsIndirection lexemes) : 0 < lexemes.length := by
  cases hstart <;> exact Nat.succ_pos _

theorem IsBound.length_pos (hbound : IsBound Permits lexemes text) : 0 < lexemes.length := by
  have hbegins := hbound.beginsBound []
  cases lexemes with
  | nil =>
      cases hbegins with
      | path hpath => cases hpath
  | cons first rest => exact Nat.succ_pos _

/-! ## Nesting -/

/-- A type is copied inside another if there is room for its lexemes. -/
theorem IsType.nested (htype : IsType Permits isSum lexemes text)
    (hwrites : ∀ depth rest, lexemes.length ≤ depth + 1 → EndsType isSum rest →
      Writes (grammarUpTo (depth + 1) (.type isSum)) (lexemes ++ rest) rest () text)
    {depth : Nat} (rest : List Lexeme) (hlength : lexemes.length ≤ depth)
    (hends : EndsType isSum rest) :
    Writes (grammarUpTo depth (.type isSum)) (lexemes ++ rest) rest () text :=
  writes_grammarUpTo (fun depth hlength => hwrites depth rest hlength hends) htype.length_pos
    hlength

theorem IsBound.nested (hbound : IsBound Permits lexemes text)
    (hwrites : ∀ depth rest, lexemes.length ≤ depth + 1 → EndsType false rest →
      Writes (grammarUpTo (depth + 1) .bound) (lexemes ++ rest) rest () text)
    {depth : Nat} (rest : List Lexeme) (hlength : lexemes.length ≤ depth)
    (hends : EndsType false rest) :
    Writes (grammarUpTo depth .bound) (lexemes ++ rest) rest () text :=
  writes_grammarUpTo (fun depth hlength => hwrites depth rest hlength hends) hbound.length_pos
    hlength

theorem writes_nestedName (hname : IsName name) (depth : Nat) (joined : Bool) (more : List Lexeme)
    (hdepth : 0 < depth) :
    Writes (grammarUpTo depth (.type true)) (wordOf name :: markOf '=' joined :: more)
      (markOf '=' joined :: more) () name :=
  writes_grammarUpTo (fun _ _ => writes_nameType hname (.mark true (by decide) joined more))
    Nat.one_pos hdepth

/-- The bracket in front of arguments is no part of a longer sign. -/
theorem AreArguments.signs {arguments : List GenericArgument} {endsWithComma : Bool}
    (harguments : AreArguments Permits lexemes arguments endsWithComma) (closed : Bool)
    (rest : List Lexeme) (opened : Bool) :
    ([Form.sign "<=", .sign "<<="].any fun form =>
      form.begins (markOf '<' opened :: (lexemes ++ markOf '>' closed :: rest))) = false := by
  cases harguments with
  | nil => cases opened <;> rfl
  | last hargument => exact (hargument.beginsArgument _).signs opened
  | cons joined hargument hrest =>
      rw [List.append_assoc]
      exact (hargument.beginsArgument _).signs opened

end

/-! ## Types -/

mutual

theorem IsType.writes {Permits : List GenericArgument → Prop} {isSum : Bool}
    {lexemes : List Lexeme} {text : List Char} :
    IsType Permits isSum lexemes text → ∀ depth rest, lexemes.length ≤ depth + 1 →
      EndsType isSum rest →
      Writes (grammarUpTo (depth + 1) (.type isSum)) (lexemes ++ rest) rest () text
  | .applied _ happlied, depth, rest, hlength, hends =>
      (happlied.writes depth rest hlength hends.withoutSum).writes_type
        (happlied.beginsPath rest) hends
  | .qualified _ opened closed joined howner hsegments, depth, rest, hlength, hends => by
      simp only [List.length_append, List.length_cons, length_colons] at hlength
      simp only [List.append_assoc, List.cons_append]
      exact writes_type_of_angle (writes_qualifiedPath
        (howner.nested howner.writes _ (by omega) (.mark true (by decide) closed _))
        (hsegments.repeats depth rest (by omega) hends.endsPath)) hends
  | .cast _ opened closed joined howner htrait hsegments, depth, rest, hlength, hends => by
      simp only [List.length_append, List.length_cons, length_colons] at hlength
      simp only [List.append_assoc, List.cons_append]
      exact writes_type_of_angle (writes_castPath
        (howner.nested howner.writes _ (by omega) (.cast true _))
        (htrait.writes depth _ (by omega) ⟨rfl, rfl⟩)
        (hsegments.repeats depth rest (by omega) hends.endsPath)) hends
  | .function _ hstart hparameters hresult, depth, rest, hlength, hends => by
      simp only [List.length_append, length_inBrackets] at hlength
      simp only [List.append_assoc, List.cons_append, inBrackets_append]
      exact hstart.writes_type (hparameters.typeLists depth ')' _ (by omega))
        (hresult.writes depth rest (by omega) hends.withoutSum)
  | .tuple _ htypes, depth, rest, hlength, hends => by
      rw [length_inBrackets] at hlength
      rw [inBrackets_append]
      refine writes_tupleType ((htypes.typeLists depth ')' rest (by omega)).lists ?_) hends
      intro before after text hbegins hunlabelled hwrites
      exact (writes_isAt_of (hbegins.begins_eq_false (.sign "?") (by decide))).bind_right hwrites
  | .slice _ helement, depth, rest, hlength, hends => by
      rw [length_inBrackets] at hlength
      rw [inBrackets_append]
      exact writes_sliceType (helement.nested helement.writes _ (by omega)
        (.closing true ']' rest))
  | .array _ joined helement hcount, depth, rest, hlength, hends => by
      simp only [length_inBrackets, List.length_append, List.length_cons] at hlength
      simp only [List.append_assoc, List.cons_append, inBrackets_append]
      exact writes_arrayType
        (helement.nested helement.writes _ (by omega) (.mark true (by decide) joined _))
        (hcount.writes_nested depth rest (by omega))
  | .indirect _ hstart htarget, depth, rest, hlength, hends => by
      have hpos := hstart.length_pos
      rw [List.length_append] at hlength
      rw [List.append_assoc]
      exact hstart.writes_type (htarget.beginsType rest)
        (htarget.nested htarget.writes rest (by omega) hends.withoutSum)
  | .bounded _ hintroduction hbounds, depth, rest, hlength, hends => by
      rw [List.length_cons] at hlength
      exact writes_boundedType hintroduction (hbounds.writes depth rest (by omega) hends)
  | .never _ joined, depth, rest, hlength, hends => writes_neverType rest
  | .inferred _, depth, rest, hlength, hends => writes_inferredType rest

theorem IsApplied.writes {Permits : List GenericArgument → Prop} {lexemes : List Lexeme}
    {text : List Char} :
    IsApplied Permits lexemes text → ∀ depth rest, lexemes.length ≤ depth + 1 →
      EndsType false rest → WritesApplied (grammarUpTo depth) (lexemes ++ rest) rest text
  | .path hpath, depth, rest, hlength, hends =>
      ⟨rest, _, [], (List.append_nil _).symm, hpath.writes depth rest hlength hends.endsPath,
        hends.writes_functionTypes⟩
  | .function hpath hparameters hresult, depth, rest, hlength, hends => by
      simp only [List.length_append, length_inBrackets] at hlength
      simp only [List.append_assoc, List.cons_append, inBrackets_append]
      exact ⟨_, _, _, rfl, hpath.writes depth _ (by omega) ⟨rfl, rfl⟩, writes_functionTypes
        ((hparameters.typeLists depth ')' _ (by omega)).lists fun _ _ hwrites => hwrites)
        (hresult.writes depth rest (by omega) hends)⟩

theorem IsPath.writes {Permits : List GenericArgument → Prop} {lexemes : List Lexeme}
    {text : List Char} :
    IsPath Permits lexemes text → ∀ depth rest, lexemes.length ≤ depth + 1 →
      EndsPath rest → Writes (path (grammarUpTo depth) false) (lexemes ++ rest) rest () text
  | .relative hsegments, depth, rest, hlength, hends =>
      (writes_copyIf_of_not (hsegments.begins_separator_eq_false rest)).bind_right
        (hsegments.repeats depth rest hlength hends).repeating
  | .rooted joined hsegments, depth, rest, hlength, hends => by
      rw [List.length_append, length_colons] at hlength
      rw [List.append_assoc]
      exact ((isFormed_colons joined).writes_copyIf _).bind
        (hsegments.repeats depth rest (by omega) hends).repeating

theorem AreSegments.repeats {Permits : List GenericArgument → Prop} {lexemes : List Lexeme}
    {text : List Char} :
    AreSegments Permits lexemes text → ∀ depth rest, lexemes.length ≤ depth + 1 →
      EndsPath rest →
      Repeats (segmentStep (grammarUpTo depth) false) rest (lexemes ++ rest) text
  | .last hsegment, depth, rest, hlength, hends =>
      repeats_last_segment (hsegment.writes depth rest hlength hends.endsName) hends.separator
  | .cons joined hsegment hrest, depth, rest, hlength, hends => by
      simp only [List.length_append, length_colons] at hlength
      have hbegins := hrest.beginsPath rest
      have hsegmentWrites := hsegment.writes depth (colons joined ++ (_ ++ rest)) (by omega)
        hbegins.endsName
      rw [List.append_assoc, List.append_assoc]
      refine repeats_cons_segment hsegmentWrites hbegins ?_
        (hrest.repeats depth rest (by omega) hends)
      simp only [List.length_append, length_colons]
      omega

theorem IsSegment.writes {Permits : List GenericArgument → Prop} {lexemes : List Lexeme}
    {text : List Char} :
    IsSegment Permits lexemes text → ∀ depth rest, lexemes.length ≤ depth + 1 →
      EndsName rest →
      Writes (pathSegment (grammarUpTo depth) false) (lexemes ++ rest) rest () text
  | .name hname, depth, rest, hlength, hends =>
      hends.writes_pathSegment hname (grammarUpTo depth) false
  | .generic opened closed hname harguments hpermits, depth, rest, hlength, hends => by
      simp only [List.length_append, List.length_cons, List.length_nil] at hlength
      simp only [List.append_assoc, List.cons_append, List.nil_append]
      obtain ⟨read, hlists, hread⟩ := harguments.argumentLists depth closed rest (by omega)
      subst hread
      have hangle := writes_isAtGenericArguments_of_angle (harguments.signs closed rest opened)
      exact writes_pathSegment hname (hangle.bind_right
        ((writes_copyIf_of_not rfl).bind_right (writes_genericArguments hlists)))

theorem AreArguments.argumentLists {Permits : List GenericArgument → Prop}
    {lexemes : List Lexeme} {arguments : List GenericArgument} {endsWithComma : Bool} :
    AreArguments Permits lexemes arguments endsWithComma → ∀ depth closed rest,
      lexemes.length ≤ depth → ∃ read,
        ArgumentLists (genericArgument (grammarUpTo depth)) rest
          (lexemes ++ markOf '>' closed :: rest) read endsWithComma ∧
        read.map Arrangement.Argument.generic = arguments
  | .nil, depth, closed, rest, hlength => ⟨[], .nil closed, rfl⟩
  | .last hargument, depth, closed, rest, hlength => by
      have hends : EndsArgument (markOf '>' closed :: rest) := .mark (by decide) closed rest
      obtain ⟨read, hread, hcaptured⟩ := (hargument.writes depth _ hlength hends).captured
      have hbegins := hargument.beginsArgument (markOf '>' closed :: rest)
      refine ⟨_, .last closed hbegins.begins_greater_eq_false hcaptured, ?_⟩
      rw [List.map_singleton, Arrangement.Argument.generic, hread]
  | @AreArguments.cons _ joined _ more _ _ _ hargument hrest, depth, closed, rest, hlength => by
      rw [List.length_append, List.length_cons] at hlength
      obtain ⟨reads, hlists, hreads⟩ := hrest.argumentLists depth closed rest (by omega)
      subst hreads
      rw [List.append_assoc, List.cons_append, List.isEmpty_map]
      have hends : EndsArgument (markOf ',' joined :: (more ++ markOf '>' closed :: rest)) :=
        .mark (by decide) joined _
      obtain ⟨read, hread, hcaptured⟩ := (hargument.writes depth _ (by omega) hends).captured
      refine ⟨_, .cons joined (hargument.beginsArgument _).begins_greater_eq_false ?_ hcaptured
        hlists, ?_⟩
      · simp only [List.length_append, List.length_cons]
        omega
      · rw [List.map_cons, Arrangement.Argument.generic, hread]

theorem IsArgument.writes {Permits : List GenericArgument → Prop} {lexemes : List Lexeme}
    {argument : GenericArgument} :
    IsArgument Permits lexemes argument → ∀ depth rest, lexemes.length ≤ depth →
      EndsArgument rest →
      Writes (genericArgument (grammarUpTo depth)) (lexemes ++ rest) rest argument.isLifetime
        argument.text
  | .lifetime name, depth, rest, hlength, hends => hends.writes_lifetime name
  | .type htype, depth, rest, hlength, hends =>
      writes_typeArgument (htype.beginsType rest)
        (htype.nested htype.writes rest hlength hends.endsType) hends
  | .constant hconstant, depth, rest, hlength, hends => hconstant.writes_genericArgument rest
  | @IsArgument.associated _ _ joined lexemes _ hname htype, depth, rest, hlength, hends => by
      rw [List.length_cons, List.length_cons] at hlength
      have hnameWrites := writes_nestedName hname depth joined (lexemes ++ rest) (by omega)
      exact writes_associatedArgument (.path (.name hname _)) hnameWrites (htype.beginsType rest)
        (htype.nested htype.writes rest (by omega) hends.endsType)

theorem AreTypes.typeLists {Permits : List GenericArgument → Prop} {lexemes : List Lexeme}
    {text : List Char} :
    AreTypes Permits lexemes text → ∀ depth closing rest, lexemes.length ≤ depth →
      TypeLists (grammarUpTo depth) (closingOf closing :: rest)
        (lexemes ++ closingOf closing :: rest) text
  | .nil, depth, closing, rest, hlength => .nil
  | .last htype, depth, closing, rest, hlength =>
      .last (htype.beginsType _) (htype.isUnlabelled rfl)
        (htype.nested htype.writes _ hlength (.closing true closing rest))
  | .cons joined htype hrest, depth, closing, rest, hlength => by
      rw [List.length_append, List.length_cons] at hlength
      rw [List.append_assoc, List.cons_append]
      refine .cons joined (htype.beginsType _) (htype.isUnlabelled rfl) ?_
        (htype.nested htype.writes _ (by omega) (.mark true (by decide) joined _))
        (hrest.typeLists depth closing rest (by omega))
      simp only [List.length_append, List.length_cons]
      omega

theorem IsResult.writes {Permits : List GenericArgument → Prop} {lexemes : List Lexeme}
    {text : List Char} :
    IsResult Permits lexemes text → ∀ depth rest, lexemes.length ≤ depth →
      EndsType false rest →
      Writes (resultType (grammarUpTo depth) false) (lexemes ++ rest) rest () text
  | .none, depth, rest, hlength, hends =>
      writes_resultType_none (hends.begins_eq_false _ (by decide)) false
  | .type joined htype, depth, rest, hlength, hends => by
      simp only [List.length_cons] at hlength
      exact writes_resultType (htype.nested htype.writes rest (by omega) hends)

theorem IsBound.writes {Permits : List GenericArgument → Prop} {lexemes : List Lexeme}
    {text : List Char} :
    IsBound Permits lexemes text → ∀ depth rest, lexemes.length ≤ depth + 1 →
      EndsType false rest →
      Writes (grammarUpTo (depth + 1) .bound) (lexemes ++ rest) rest () text
  | .lifetime name, depth, rest, hlength, hends => writes_lifetimeBound name rest
  | .trait hstart happlied, depth, rest, hlength, hends => by
      rw [List.length_append] at hlength
      rw [List.append_assoc]
      exact hstart.writes_bound (happlied.beginsPath rest)
        (happlied.writes depth rest (by omega) hends)

theorem AreBounds.writes {Permits : List GenericArgument → Prop} {isSum : Bool}
    {lexemes : List Lexeme} {text : List Char} :
    AreBounds Permits isSum lexemes text → ∀ depth rest, lexemes.length ≤ depth →
      EndsType isSum rest →
      WritesBounds (grammarUpTo depth) isSum (lexemes ++ rest) rest text
  | .last _ hbound, depth, rest, hlength, hends =>
      writesBounds_last (hbound.beginsBound rest)
        (hbound.nested hbound.writes rest hlength hends.withoutSum) hends
  | .cons joined hbound hrest, depth, rest, hlength, hends => by
      rw [List.length_append, List.length_cons] at hlength
      rw [List.append_assoc, List.cons_append]
      refine writesBounds_cons (hbound.beginsBound _)
        (hbound.nested hbound.writes _ (by omega) (.plus joined _)) ?_
        (hrest.writes depth rest (by omega) hends)
      simp only [List.length_append, List.length_cons]
      omega

end

/-- An ordinary type is arranged as it is printed. -/
theorem IsType.spelled_arranged {Permits : List GenericArgument → Prop} {lexemes : List Lexeme}
    {text : List Char} (htype : IsType Permits true lexemes text) :
    spelled (arranged lexemes) = text := by
  obtain ⟨copy, hcopy, hrun⟩ := htype.writes (3 * lexemes.length + 2) [] (by omega) (.nil true)
  have hwritten : (grammarUpTo (3 * lexemes.length + 3) (.type true)).run ⟨lexemes, []⟩ =
      some ((), ⟨[], copy.reverse⟩) := by
    simpa using hrun []
  rw [arranged, hwritten]
  simpa using hcopy

end FieldWiring.Source
