import FieldWiring.Source.Arrangement.Item
import FieldWiring.Text.Hidden

/-!
# The arrangement of types

A type is named by its lexemes without gaps, after they have been arranged: parts whose order
has no meaning stand in one order, and marks without a meaning are left out.
-/

namespace FieldWiring.Source

/-! ## Documentation

A comment that documents means the same as an attribute whose value is the content of the
comment.  Its value is a quoted text, in which every character that cannot be shown is
escaped.
-/

/-- A text as it is written between quotes.  The character with the number zero is
written so that no digit behind it can be taken for part of its escape. -/
def quoted : List Char → List Char
  | [] => []
  | c :: rest =>
      let isBeforeDigit := rest.head?.any fun next => '0' ≤ next && next ≤ '7'
      (if c = '\x00' && isBeforeDigit then "\\x00".toList else Text.escaped c) ++ quoted rest

/-- The content of a comment that documents: what stands behind its three characters, up
to its end. -/
def documentationContent (spelling : List Char) : List Char :=
  let body := spelling.drop 3
  if spelling.take 2 = ['/', '*'] then body.take (body.length - 2)
  else if body.getLast? = some '\r' then body.dropLast
  else body

/-- The attribute that a comment means.  One with an exclamation mark documents what is
around it. -/
def documentationAttribute (spelling : List Char) : List Lexeme :=
  let inner := if (spelling.drop 2).head? = some '!' then [⟨.mark, ['!'], false⟩] else []
  let content := '"' :: quoted (documentationContent spelling) ++ ['"']
  ⟨.mark, ['#'], false⟩ :: inner ++
    [⟨.opening, ['['], false⟩, ⟨.word, "doc".toList, false⟩, ⟨.mark, ['='], false⟩,
      ⟨.text, content, false⟩, ⟨.closing, [']'], false⟩]

/-- The lexemes that mean the same as a lexeme. -/
def Lexeme.expanded (lexeme : Lexeme) : List Lexeme :=
  if lexeme.kind = .documentation then documentationAttribute lexeme.spelling else [lexeme]

/-! ## Arrangement -/

open Arrangement

/-- The copiers for all categories, whose nesting is at most `depth`. -/
def grammarUpTo : Nat → Grammar
  | 0, _ => failure
  | depth + 1, category =>
      let grammar := grammarUpTo depth
      match category with
      | .type isSum => type grammar isSum
      | .bound => bound grammar
      | .pattern => pattern grammar
      | .alternative => alternative grammar
      | .expression hasRecords => do
          let _ ← expression grammar hasRecords
      | .operand hasRecords => do
          let _ ← operand grammar hasRecords
      | .arm => arm grammar
      | .block => block grammar
      | .item => item grammar

/-- The arrangement of the lexemes of a type.  What is no type keeps its own. -/
def arranged (lexemes : List Lexeme) : List Lexeme :=
  match (grammarUpTo (3 * lexemes.length + 3) (.type true)).run { remaining := lexemes } with
  | some ((), ⟨[], written⟩) => written.reverse
  | _ => lexemes

/-! ## Names of types -/

def typeName (source : String) : String :=
  let expanded := (lexemes source.toList).flatMap Lexeme.expanded
  String.ofList (Text.withoutBlanks ((arranged expanded).flatMap Lexeme.spelling))

/-- No blank is in a name. -/
theorem not_isBlank_of_mem_typeName {source : String} {c : Char}
    (hmem : c ∈ (typeName source).toList) : Text.isBlank c = false := by
  rw [typeName, String.toList_ofList] at hmem
  exact Text.not_isBlank_of_mem_withoutBlanks hmem

end FieldWiring.Source
