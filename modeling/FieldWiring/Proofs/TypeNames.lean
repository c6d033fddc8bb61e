import FieldWiring.Proofs.Types.Printing

/-!
# What a type is called

A type is called by the lexemes of its source, as they are arranged: an ordinary type as it is
printed, and one in which nothing moves as it is spelled.  Comments that are only remarks are
no lexemes.  For a plain source the name is the source without its blanks.
-/

namespace FieldWiring.Source

/-! ## Names -/

theorem tokensOf_ne_nil (first : Lexeme) (rest : List Lexeme) : tokensOf (first :: rest) ≠ [] := by
  cases rest with
  | nil => simp [tokensOf]
  | cons second rest =>
      rw [tokensOf]
      split <;> simp

/-- A token that is a word is a lexeme that is one. -/
theorem token_eq_word_iff {lexeme : Lexeme} {name : String} :
    lexeme.token = .word name ↔ lexeme.kind = .word ∧ String.ofList lexeme.spelling = name := by
  obtain ⟨kind, spelling, joined⟩ := lexeme
  cases kind with
  | mark =>
      simp only [Lexeme.token, reduceCtorEq, false_and, iff_false]
      repeat' split
      all_goals simp
  | _ => simp [Lexeme.token]

/-- A source that is a name alone has one lexeme, which spells the name. -/
theorem condensed_of_tokens_eq_word {source name : String} (hname : tokens source = [.word name]) :
    condensed source = name := by
  rw [tokens] at hname
  rw [condensed]
  match hlexemes : lexemes source.toList with
  | [] =>
      rw [hlexemes] at hname
      cases hname
  | [lexeme] =>
      rw [hlexemes, tokensOf, List.cons.injEq, token_eq_word_iff] at hname
      rw [List.flatMap_singleton]
      exact hname.1.2
  | first :: second :: rest =>
      rw [hlexemes, tokensOf] at hname
      split at hname
      · cases hname
      · exact absurd (List.cons.inj hname).2 (tokensOf_ne_nil second rest)

/-- The name is spelled by the source: it is the source, if that is a name alone. -/
structure Spells (source name : String) : Prop where
  condensed : name = condensed source
  alone : ∀ word, tokens source = [.word word] → name = word

/-- A name without its gaps is spelled by its source. -/
theorem spells_condensed (source : String) : Spells source (condensed source) where
  condensed := rfl
  alone _ hword := condensed_of_tokens_eq_word hword

/-! ## Plain sources -/

open Arrangement (spelled)

/-- What the lexemes of a source mean: a comment that documents counts as its attribute. -/
def meant (source : String) : List Lexeme := (lexemes source.toList).flatMap Lexeme.expanded

/-- Nothing but blanks stands between the lexemes of the source. -/
structure HasBlankGaps (source : String) : Prop where
  gaps : ∀ lexeme ∈ cut 0 source.toList, lexeme.kind = .gap →
    lexeme.spelling.all Text.isBlank = true
  undocumented : ∀ lexeme ∈ lexemes source.toList, lexeme.kind ≠ .documentation

/-- The source is a type in which no argument stands out of its order: nothing that moves
occurs, or it is an ordinary type in whose lists the lifetimes lead. -/
structure IsPlain (source : String) : Prop extends HasBlankGaps source where
  ordered : Arrangement.IsSimple (meant source) ∨
    ∃ text, IsType GenericArgument.LifetimesLead true (meant source) text

/-- Where nothing documents, lexemes mean themselves. -/
theorem flatMap_expanded {lexemes : List Lexeme}
    (hundocumented : ∀ lexeme ∈ lexemes, lexeme.kind ≠ .documentation) :
    lexemes.flatMap Lexeme.expanded = lexemes := by
  induction lexemes with
  | nil => rfl
  | cons lexeme rest ih =>
      obtain ⟨hlexeme, hrest⟩ := List.forall_mem_cons.mp hundocumented
      rw [List.flatMap_cons, ih hrest, Lexeme.expanded, if_neg hlexeme, List.singleton_append]

theorem withoutBlanks_append (front back : List Char) :
    Text.withoutBlanks (front ++ back) = Text.withoutBlanks front ++ Text.withoutBlanks back :=
  List.filter_append ..

theorem withoutBlanks_eq_nil {text : List Char} (hblank : text.all Text.isBlank = true) :
    Text.withoutBlanks text = [] := by
  rw [Text.withoutBlanks, List.filter_eq_nil_iff]
  intro c hmem
  simp [List.all_eq_true.mp hblank c hmem]

/-- Gaps of blanks do not count for what is left without blanks. -/
theorem withoutBlanks_filter_gaps {lexemes : List Lexeme}
    (hgaps : ∀ lexeme ∈ lexemes, lexeme.kind = .gap →
      lexeme.spelling.all Text.isBlank = true) :
    Text.withoutBlanks
        ((lexemes.filter fun lexeme => lexeme.kind != .gap).flatMap Lexeme.spelling) =
      Text.withoutBlanks (lexemes.flatMap Lexeme.spelling) := by
  induction lexemes with
  | nil => rfl
  | cons lexeme rest ih =>
      obtain ⟨hlexeme, hrest⟩ := List.forall_mem_cons.mp hgaps
      rw [List.flatMap_cons, withoutBlanks_append, ← ih hrest]
      by_cases hgap : lexeme.kind = .gap
      · rw [List.filter_cons_of_neg (by simp [hgap]), withoutBlanks_eq_nil (hlexeme hgap),
          List.nil_append]
      · rw [List.filter_cons_of_pos (by simp [hgap]), List.flatMap_cons, withoutBlanks_append]

/-- What is meant by a source with blank gaps is the source without its blanks. -/
theorem HasBlankGaps.withoutBlanks_spelled {source : String} (hgaps : HasBlankGaps source) :
    Text.withoutBlanks (spelled (meant source)) = Text.withoutBlanks source.toList := by
  have hsource : (cut 0 source.toList).flatMap Lexeme.spelling = source.toList := by
    rw [flatMap_spelling_cut, List.drop_zero]
  calc
    Text.withoutBlanks (spelled (meant source)) =
        Text.withoutBlanks ((lexemes source.toList).flatMap Lexeme.spelling) := by
      rw [meant, flatMap_expanded hgaps.undocumented]
      rfl
    _ = Text.withoutBlanks ((cut 0 source.toList).flatMap Lexeme.spelling) := by
      rw [lexemes, withoutBlanks_filter_gaps hgaps.gaps]
    _ = Text.withoutBlanks source.toList := by rw [hsource]

/-- A plain source keeps its arrangement. -/
theorem IsPlain.spelled_arranged {source : String} (hplain : IsPlain source) :
    spelled (arranged (meant source)) = spelled (meant source) := by
  rcases hplain.ordered with hsimple | ⟨text, htype⟩
  · exact hsimple.spelled_arranged
  · rw [htype.spelled_arranged, htype.eq_spelled]

/-- A type is called by its arranged lexemes, without blanks in them. -/
theorem typeName_eq (source : String) :
    typeName source = String.ofList (Text.withoutBlanks (spelled (arranged (meant source)))) := rfl

/-- A plain source is called by its characters without the blanks. -/
theorem IsPlain.typeName_eq {source : String} (hplain : IsPlain source) :
    typeName source = String.ofList (Text.withoutBlanks source.toList) := by
  rw [Source.typeName_eq, hplain.spelled_arranged, hplain.withoutBlanks_spelled]

/-! ## Names of types -/

/-- The name has no blanks, and stands for the type that is given as source code: an ordinary
type is called as it is printed, and another one as it is spelled, if nothing in it moves. -/
structure Names (source name : String) : Prop where
  noBlank : ∀ c ∈ name.toList, Text.isBlank c = false
  ordinary : ∀ {Permits : List GenericArgument → Prop} {text : List Char},
    IsType Permits true (meant source) text → name = String.ofList (Text.withoutBlanks text)
  simple : Arrangement.IsSimple (meant source) →
    name = String.ofList (Text.withoutBlanks (spelled (meant source)))
  plain : IsPlain source → name = String.ofList (Text.withoutBlanks source.toList)

/-- Every type is called by a name that stands for it. -/
theorem names_typeName (source : String) : Names source (typeName source) where
  noBlank _ hmem := not_isBlank_of_mem_typeName hmem
  ordinary htype := by rw [typeName_eq, htype.spelled_arranged]
  simple hsimple := by rw [typeName_eq, hsimple.spelled_arranged]
  plain hplain := hplain.typeName_eq

open GenericArgument (LifetimesLead)

example : IsPlain "[u8; 4]" :=
  ⟨⟨by decide, by decide⟩, .inr ⟨"[u8;4]".toList,
    .array true false (isType_name true "u8".toList (by decide)) (isLength_number "4".toList)⟩⟩

example : IsPlain "[u8; N + 1]" :=
  ⟨⟨by decide, by decide⟩, .inr ⟨"[u8;N+1]".toList,
    .array true false (isType_name true "u8".toList (by decide))
      (.operands (.name (.last (.inl (by decide))))
        (.cons false (by decide) (.number "1".toList) .nil))⟩⟩

example : IsPlain "Cow<'a, 'b>" :=
  ⟨⟨by decide, by decide⟩, .inr ⟨"Cow<'a,'b>".toList,
    isType_generic "Cow".toList true false (by decide)
      (.cons false (.lifetime "'a".toList) (.last (.lifetime "'b".toList)))
      (by simp [LifetimesLead])⟩⟩

example : IsType LifetimesLead true (meant "Box<dyn for<'a> Fn(&'a str)>")
    "Box<dynfor<'a>Fn(&'astr)>".toList := by
  have hparameter : IsType LifetimesLead true
      [markOf '&' true, lifetimeOf "'a".toList, wordOf "str".toList] "&'astr".toList :=
    .indirect true (.lasting true "'a".toList) (isType_name false "str".toList (by decide))
  have hfunction : IsApplied LifetimesLead
      (wordOf "Fn".toList ::
        inBrackets '(' ')' [markOf '&' true, lifetimeOf "'a".toList, wordOf "str".toList])
      "Fn(&'astr)".toList :=
    .function (.relative (.last (.name (.inl (by decide))))) (.last hparameter) .none
  have hbound := IsBound.trait (.binder (.lifetimes true false (.last "'a".toList))) hfunction
  have hdyn : "dyn" ∈ ["dyn", "impl"] := by decide
  have hobject := IsType.bounded true hdyn (.last true hbound)
  exact isType_generic "Box".toList false false (by decide) (.last (.type hobject))
    (by simp [LifetimesLead])

/-- The two sources give the same type: they have the same lexemes, are plain and differ only in
blanks, or are ordinary types that are printed alike. -/
inductive SameUpToBlanks (left right : String) : Prop where
  | lexemes (hlexemes : lexemes left.toList = lexemes right.toList)
  | plain (hleft : IsPlain left) (hright : IsPlain right)
      (hsame : Text.withoutBlanks left.toList = Text.withoutBlanks right.toList)
  | printed {Permits : List GenericArgument → Prop} {text : List Char}
      (hleft : IsType Permits true (meant left) text)
      (hright : IsType Permits true (meant right) text)

/-- Sources that give the same type give the same name. -/
theorem typeName_eq_of_sameUpToBlanks {left right : String} (hsame : SameUpToBlanks left right) :
    typeName left = typeName right := by
  cases hsame with
  | lexemes hlexemes => rw [typeName, typeName, hlexemes]
  | plain hleft hright hsame => rw [hleft.typeName_eq, hright.typeName_eq, hsame]
  | printed hleft hright =>
      rw [typeName_eq, typeName_eq, hleft.spelled_arranged, hright.spelled_arranged]

end FieldWiring.Source
