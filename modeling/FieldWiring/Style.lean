import FieldWiring.Generator
import FieldWiring.Text

/-!
# Class sources

An injector is written as the source of a Java class.  A source is a list of rows, each
ended by a line feed, and the rows of each part are a function of their own.
-/

namespace FieldWiring

namespace Text

/-! ## Lines of a text

A line feed ends a line, together with a carriage return directly before it.  A
final line feed opens no further line, so that a text and its lines determine each
other up to the line ends.
-/

/-- The lines of a text, without their ends; a carriage return elsewhere belongs to
its line. -/
def lines : List Char → List (List Char)
  | [] => []
  | '\n' :: rest => [] :: lines rest
  | '\r' :: '\n' :: rest => [] :: lines rest
  | c :: rest =>
      match lines rest with
      | [] => [[c]]
      | line :: others => (c :: line) :: others

/-- Writes each line with a line feed behind it. -/
def unlines (rows : List (List Char)) : List Char :=
  rows.flatMap fun row => row ++ ['\n']

/-- No line holds a line feed. -/
theorem newline_not_mem_of_mem_lines {text line : List Char} (hmem : line ∈ lines text) :
    '\n' ∉ line := by
  induction text using lines.induct generalizing line with
  | case1 => simp [lines] at hmem
  | case2 rest ih =>
      rcases List.mem_cons.mp (by simpa [lines] using hmem) with rfl | htail
      · simp
      · exact ih htail
  | case3 rest ih =>
      rcases List.mem_cons.mp (by simpa [lines] using hmem) with rfl | htail
      · simp
      · exact ih htail
  | case4 c rest hnewline hreturn hempty ih =>
      simp only [lines, hempty, List.mem_singleton] at hmem
      subst hmem
      simpa using fun h => hnewline h.symm
  | case5 c rest hnewline hreturn first others hlines ih =>
      simp only [lines, hlines] at hmem
      rcases List.mem_cons.mp hmem with rfl | htail
      · have hfirst : '\n' ∉ first := ih (by simp [hlines])
        simp only [List.mem_cons, not_or]
        exact ⟨fun h => hnewline h.symm, hfirst⟩
      · exact ih (by simp [hlines, htail])

@[simp]
theorem unlines_nil : unlines [] = [] := rfl

@[simp]
theorem unlines_cons (row : List Char) (rows : List (List Char)) :
    unlines (row :: rows) = row ++ '\n' :: unlines rows := by
  simp [unlines]

end Text

/-! ## Styles

An injector is written as the source of a Java class.  The style decides what stands
around the class: its package, its header comment, and the marker of a parameter that
is never null.  A source is a list of rows, each ended by a line feed, and the
rows of each part are a function of their own.
-/

/-- How the source of an injector is laid out. -/
structure Style where
  /-- The package of the class; without one it is in the unnamed package. -/
  package : Option String := none
  /-- The qualified marker of a parameter that is never null. -/
  nonNullMarker : Option String := some "android.support.annotation.NonNull"
  /-- The text of the comment in front of the class. -/
  header : Option String :=
    some "Generated by PreferenceRoom. (https://github.com/skydoves/PreferenceRoom)."
deriving DecidableEq, Repr

namespace Style

def packageRows : Option String → List String
  | none => []
  | some package => ["package " ++ package ++ ";", ""]

def importRows : Option String → List String
  | none => []
  | some marker => ["import " ++ marker ++ ";", ""]

/-- The header's lines, each behind a star. -/
def commentRows (header : String) : List String :=
  (Text.lines header.toList).map fun line => " * " ++ String.ofList line

def headerRows : Option String → List String
  | none => []
  | some header => "/**" :: commentRows header ++ [" */"]

/-- A marker as it stands in front of a parameter: behind an at sign, without its
qualifiers. -/
def markerText : Option String → String
  | none => ""
  | some marker => "@" ++ String.ofList (Text.afterLast (· == '.') marker.toList) ++ " "

def constructorRow (marker : Option String) (injector : Injector) : String :=
  "  public " ++ injector.name ++ "(" ++ markerText marker ++
    injector.parameter.typeName ++ " " ++ injector.parameter.name ++ ") \x7b"

def statementRow (assignment : Assignment) : String :=
  "    " ++ assignment.text ++ ";"

def classRows (marker : Option String) (injector : Injector) : List String :=
  ["public class " ++ injector.name ++ " \x7b", constructorRow marker injector] ++
    injector.statements.map statementRow ++ ["  \x7d", "\x7d"]

/-- The marker that a parameter gets: the style's, if the parameter is never null. -/
def marker? (style : Style) (parameter : Parameter) : Option String :=
  if parameter.nonNull then style.nonNullMarker else none

def rows (style : Style) (injector : Injector) : List String :=
  let marker := style.marker? injector.parameter
  packageRows style.package ++ importRows marker ++ headerRows style.header ++
    classRows marker injector

def render (style : Style) (injector : Injector) : String :=
  String.ofList (Text.unlines ((style.rows injector).map String.toList))

end Style

end FieldWiring
