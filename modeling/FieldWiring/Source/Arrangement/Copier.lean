import FieldWiring.Source.Lexeme

/-!
# Copiers

A source is arranged by copying it.  This module has the copiers that everything else is put
together from, and how they tell what comes next.
-/

namespace FieldWiring.Source.Arrangement

/-! ## Forms

Whoever reads source code has to tell what it continues with.  A form is one answer: a
certain word or sign, a bracket, or a lexeme of some kind.  Forms look at the lexemes ahead
and take none of them.
-/

def keywords : List String :=
  ["_", "abstract", "as", "async", "await", "become", "box", "break", "const", "continue",
    "crate", "do", "dyn", "else", "enum", "extern", "false", "final", "fn", "for", "if",
    "impl", "in", "let", "loop", "macro", "match", "mod", "move", "mut", "override", "priv",
    "pub", "ref", "return", "Self", "self", "static", "struct", "super", "trait", "true",
    "try", "type", "typeof", "unsafe", "unsized", "use", "virtual", "where", "while", "yield"]

/-- What a source continues with. -/
inductive Form where
  | word (spelling : String)
  | sign (spelling : String)
  | opening (bracket : Char)
  | closing
  | name
  | anyWord
  | lifetime
  | number
  | text
  | literal
deriving DecidableEq, Repr

/-- Whether lexemes begin with a sign: its marks, each but the last joined to the next. -/
def beginsWithSign : List Char → List Lexeme → Bool
  | [], _ => true
  | _ :: _, [] => false
  | symbol :: more, lexeme :: rest =>
      lexeme.kind = .mark && lexeme.spelling = [symbol] &&
        (more.isEmpty || (lexeme.joined && beginsWithSign more rest))

/-- Whether a lexeme has a form that one lexeme can have. -/
def Form.isFormOf (form : Form) (lexeme : Lexeme) : Bool :=
  match form with
  | word spelling => lexeme.kind = .word && lexeme.spelling = spelling.toList
  | sign spelling => beginsWithSign spelling.toList [lexeme]
  | opening bracket => lexeme.kind = .opening && lexeme.spelling = [bracket]
  | closing => lexeme.kind = .closing
  | name => lexeme.kind = .word && !keywords.contains (String.ofList lexeme.spelling)
  | anyWord => lexeme.kind = .word
  | lifetime => lexeme.kind = .lifetime
  | number => lexeme.kind = .number
  | text => lexeme.kind = .text
  | literal =>
      lexeme.kind = .number || lexeme.kind = .text || lexeme.kind = .literal ||
        (lexeme.kind = .word && ["true".toList, "false".toList].contains lexeme.spelling)

def Form.begins (form : Form) (lexemes : List Lexeme) : Bool :=
  match form with
  | sign spelling => beginsWithSign spelling.toList lexemes
  | _ => lexemes.head?.any form.isFormOf

def Form.length : Form → Nat
  | sign spelling => spelling.length
  | _ => 1

def beginWith : List Form → List Lexeme → Bool
  | [], _ => true
  | form :: forms, lexemes => form.begins lexemes && beginWith forms (lexemes.drop form.length)

def behindOptional (form : Form) (lexemes : List Lexeme) : List Lexeme :=
  if form.begins lexemes then lexemes.drop form.length else lexemes

/-- The number of lexemes up to the bracket that closes as many brackets as are open. -/
def lengthToClosing (depth : Nat) : List Lexeme → Nat
  | [] => 0
  | lexeme :: rest =>
      match lexeme.kind with
      | .opening => lengthToClosing (depth + 1) rest + 1
      | .closing => if depth ≤ 1 then 1 else lengthToClosing (depth - 1) rest + 1
      | _ => lengthToClosing depth rest + 1

/-- The number of lexemes of a unit: a single lexeme, or brackets with their content. -/
def unitLength : List Lexeme → Nat
  | [] => 0
  | lexeme :: rest => if lexeme.kind = .opening then lengthToClosing 1 rest + 1 else 1

def behindUnit (lexemes : List Lexeme) : List Lexeme := lexemes.drop (unitLength lexemes)

/-! ## Copying

A copier goes through the lexemes of a source and writes a copy of them, in which it may
leave lexemes out, put others in, or write a part in another order.  It fails where the
source does not have the form that it expects.
-/

/-- How far a source has been copied: the lexemes that remain, and those that have been
written, the latest first. -/
structure Progress where
  remaining : List Lexeme
  written : List Lexeme := []
deriving DecidableEq, Repr

/-- A copier, with a result that says something about what it has copied. -/
abbrev Copier := StateT Progress Option

def mark (symbol : Char) : Lexeme := ⟨.mark, [symbol], false⟩

def ahead : Copier (List Lexeme) := return (← get).remaining

def isAt (form : Form) : Copier Bool := return form.begins (← ahead)

def isAtAny (forms : List Form) : Copier Bool := do
  let lexemes ← ahead
  return forms.any fun form => form.begins lexemes

def isAtAll (forms : List Form) : Copier Bool := return beginWith forms (← ahead)

/-- Whether the source, or the innermost bracket, ends. -/
def isAtEnd : Copier Bool := return (← ahead).isEmpty || Form.closing.begins (← ahead)

def write (lexemes : List Lexeme) : Copier Unit :=
  modify fun progress => { progress with written := lexemes.reverse ++ progress.written }

def leaveOut (count : Nat) : Copier Unit :=
  modify fun progress => { progress with remaining := progress.remaining.drop count }

def copyLexemes (count : Nat) : Copier Unit := do
  write ((← ahead).take count)
  leaveOut count

def copy (form : Form) : Copier Unit := do
  guard (← isAt form)
  copyLexemes form.length

def copyIf (form : Form) : Copier Bool := do
  let present ← isAt form
  if present then copyLexemes form.length
  return present

def skip (form : Form) : Copier Unit := do
  guard (← isAt form)
  leaveOut form.length

def skipIf (form : Form) : Copier Bool := do
  let present ← isAt form
  if present then leaveOut form.length
  return present

/-- Copies a lexeme, or brackets with their content as it stands. -/
def copyUnit : Copier Unit := do
  let lexemes ← ahead
  guard (!lexemes.isEmpty && !Form.closing.begins lexemes)
  copyLexemes (unitLength lexemes)

def copyThrough (form : Form) : Copier Unit := do
  go (← ahead).length
where
  go : Nat → Copier Unit
    | 0 => copy form
    | fuel + 1 => do
        if ← copyIf form then return
        copyUnit
        go fuel

/-- Copies brackets, and their content by a copier. -/
def bracketed {α : Type} (bracket : Char) (content : Copier α) : Copier α := do
  copy (.opening bracket)
  let result ← content
  copy .closing
  return result

/-- What a copier writes, without writing it. -/
def captured {α : Type} (part : Copier α) : Copier (α × List Lexeme) := do
  let before ← get
  set { before with written := [] }
  let result ← part
  let written := (← get).written
  modify fun progress => { progress with written := before.written }
  return (result, written.reverse)

/-- Copies a part, and as it stands if its result has a property. -/
def asItStandsIf {α : Type} (property : α → Bool) (part : Copier α) : Copier α := do
  let before ← get
  let result ← part
  if property result then
    let length := before.remaining.length - (← ahead).length
    modify fun progress =>
      { progress with written := (before.remaining.take length).reverse ++ before.written }
  return result

/-- Copies a part, and as it stands if the copier says so. -/
def asItStandsOr (part : Copier Bool) : Copier Unit := do
  let _ ← asItStandsIf id part

def asItStands (part : Copier Unit) : Copier Unit := asItStandsIf (fun _ => true) part

/-- Repeats a step as long as it says so, at most this many times. -/
def repeatUpTo (step : Copier Bool) : Nat → Copier Unit
  | 0 => return
  | fuel + 1 => do
      if ← step then repeatUpTo step fuel

def repeating (step : Copier Bool) : Copier Unit := do
  repeatUpTo step ((← ahead).length + 1)

/-- Copies items up to the end of the innermost bracket. -/
def allOf (item : Copier Unit) : Copier Unit :=
  repeating do
    if ← isAtEnd then return false
    item
    return true

/-- Copies items with commas between them, up to the end of the innermost bracket. -/
def listOf (item : Copier Unit) : Copier Unit :=
  repeating do
    if ← isAtEnd then return false
    item
    if ← isAtEnd then return false
    copy (.sign ",")
    return true

/-! ## Categories and attributes

The categories of source code contain each other.  A copier for one of them is therefore
given the copiers for all of them; how the circle is closed is not its concern.

Attributes can stand in all categories.  The list behind an attribute's path stands for
itself; a value behind an equals sign is an expression.
-/

/-- The categories of source code that contain each other. -/
inductive Category where
  /-- A type; whether it may be a sum of bounds. -/
  | type (isSum : Bool)
  | bound
  /-- A pattern, which may have alternatives. -/
  | pattern
  /-- A pattern without alternatives. -/
  | alternative
  /-- An expression; whether a name before braces makes a record. -/
  | expression (hasRecords : Bool)
  | operand (hasRecords : Bool)
  /-- An arm of a selection by patterns. -/
  | arm
  | block
  | item
deriving DecidableEq, Repr

abbrev Grammar := Category → Copier Unit

def plainPath : Copier Unit := do
  let _ ← copyIf (.sign "::")
  repeating do
    copy .anyWord
    copyIf (.sign "::")

/-- Copies a literal, which may be a negative number. -/
def constantLiteral : Copier Unit := do
  let _ ← copyIf (.sign "-")
  copy .literal

def attributeContent (grammar : Grammar) : Copier Unit := do
  plainPath
  if ← copyIf (.sign "=") then grammar (.expression true)
  else if !(← isAtEnd) then copyUnit

/-- Copies attributes of what follows. -/
def outerAttributes (grammar : Grammar) : Copier Unit :=
  repeating do
    if ← isAtAll [.sign "#", .opening '['] then
      copy (.sign "#")
      bracketed '[' (attributeContent grammar)
      return true
    return false

/-- Copies attributes of what is around. -/
def innerAttributes (grammar : Grammar) : Copier Unit :=
  repeating do
    if ← isAtAll [.sign "#", .sign "!", .opening '['] then
      copyLexemes 2
      bracketed '[' (attributeContent grammar)
      return true
    return false

/-- Lexemes behind the attributes at their front; there are not more than `fuel`. -/
def behindAttributesUpTo : Nat → List Lexeme → List Lexeme
  | 0, lexemes => lexemes
  | fuel + 1, lexemes =>
      if beginWith [.sign "#", .opening '['] lexemes then
        behindAttributesUpTo fuel (behindUnit (lexemes.drop 1))
      else lexemes

def behindAttributes (lexemes : List Lexeme) : List Lexeme :=
  behindAttributesUpTo lexemes.length lexemes

/-- Copies what stands behind the name of something that is expanded before it is read: an
exclamation mark and its content, which stands for itself. -/
def expansion : Copier Unit := do
  copy (.sign "!")
  copyUnit

def isAtExpansion : Copier Bool := return (← isAt (.sign "!")) && !(← isAt (.sign "!="))

end FieldWiring.Source.Arrangement
