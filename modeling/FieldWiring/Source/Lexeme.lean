import FieldWiring.Text

/-!
# Lexemes and tokens

Source code is read in two steps.  It is cut into lexemes without loss, and where arguments
are read, lexemes count as tokens, of which only some are told apart.
-/

namespace FieldWiring.Source

/-! ## Lexemes

Source code is cut into lexemes, each a run of characters of one kind.  Nothing is lost:
blanks and comments are lexemes too, and the spellings of all lexemes, one after the
other, are the source.
-/

inductive Kind where
  /-- A blank character, or a comment that is only a remark. -/
  | gap
  /-- A comment that documents what follows. -/
  | documentation
  /-- A name or a keyword. -/
  | word
  | lifetime
  | number
  /-- A text literal, in quotes or raw. -/
  | text
  /-- The literal of a character or of bytes. -/
  | literal
  | mark
  | opening
  | closing
deriving DecidableEq, Repr

/-- A run of characters, with its kind.  A mark is a single character; one that is joined
can make up a longer sign with the mark directly behind it. -/
structure Lexeme where
  kind : Kind
  spelling : List Char
  joined : Bool := false
deriving DecidableEq, Repr

/-- The characters that separate lexemes: the blank ones, and the two that only set the
direction of writing. -/
def isSeparating (c : Char) : Bool :=
  Text.isBlank c || c == '\u200e' || c == '\u200f'

/-- The characters of words.  Beyond the ASCII range that is every one that does not
separate. -/
def isWordChar (c : Char) : Bool :=
  c.isAlphanum || c == '_' || (0x80 ≤ c.toNat && !isSeparating c)

def wordLength (text : List Char) : Nat := (text.takeWhile isWordChar).length

/-- The length of the name that a text begins with; unlike other words, a name begins
with no digit. -/
def nameLength (text : List Char) : Nat :=
  if (text.head?.map Char.isDigit).getD true then 0 else wordLength text

def beginsName (text : List Char) : Bool := nameLength text != 0

def isDigitOrGap (c : Char) : Bool := c.isDigit || c == '_'

/-- The length of a fraction that a text begins with.  A point belongs to it unless a
second point or a name follows. -/
def fractionLength : List Char → Nat
  | '.' :: rest =>
      if rest.head? = some '.' || beginsName rest then 0
      else (rest.takeWhile isDigitOrGap).length + 1
  | _ => 0

def exponentLength : List Char → Nat
  | letter :: sign :: rest =>
      if letter ∈ ['e', 'E'] && sign ∈ ['+', '-'] &&
          (rest.takeWhile isDigitOrGap).any Char.isDigit then 2
      else 0
  | _ => 0

/-- The length of the rest of a number that begins with this digit: digits, a fraction,
an exponent and a suffix.  One that is not decimal has digits and suffix only. -/
def numberLength (first : Char) (rest : List Char) : Nat :=
  if first = '0' && rest.head?.any (· ∈ ['x', 'o', 'b']) then wordLength rest
  else
    let whole := (rest.takeWhile isDigitOrGap).length
    let fraction := fractionLength (rest.drop whole)
    let exponent := exponentLength (rest.drop (whole + fraction))
    whole + fraction + exponent + wordLength (rest.drop (whole + fraction + exponent))

def lineLength (text : List Char) : Nat := (text.takeWhile (· != '\n')).length

/-- The length of a text up to the end of a comment.  Such comments nest; `depth` counts
those that are open. -/
def commentLength (depth : Nat) : List Char → Nat
  | [] => 0
  | '/' :: '*' :: rest => commentLength (depth + 1) rest + 2
  | '*' :: '/' :: rest => if depth ≤ 1 then 2 else commentLength (depth - 1) rest + 2
  | _ :: rest => commentLength depth rest + 1

/-- The part of a text in front of the first place where `closing` stands. -/
def before (closing : List Char) : List Char → List Char
  | [] => []
  | c :: rest => if closing.isPrefixOf (c :: rest) then [] else c :: before closing rest

/-- The length of a text up to the end of a literal with this quote.  A character behind
a backslash is not the end. -/
def quotedLength (quote : Char) : List Char → Nat
  | [] => 0
  | '\\' :: _ :: rest => quotedLength quote rest + 2
  | c :: rest => if c = quote then 1 else quotedLength quote rest + 1

/-- What closes a raw literal that continues with this text, and the text between the
quotes and what follows it.  Raw are hashes and a quote, up to the next quote with as many
hashes. -/
def rawBody? (text : List Char) : Option (List Char × List Char) :=
  match text.dropWhile (· == '#') with
  | '"' :: body => some ('"' :: text.takeWhile (· == '#'), body)
  | _ => none

def rawLength? (text : List Char) : Option Nat :=
  (rawBody? text).map fun raw => 2 * raw.1.length + (before raw.1 raw.2).length

/-- The kind of a literal that begins with this character and continues with this text,
and its length without the first character. -/
def literal? (first : Char) (rest : List Char) : Option (Kind × Nat) :=
  match first, rest with
  | '"', _ => some (.text, quotedLength '"' rest)
  | 'r', _ => (rawLength? rest).map (.text, ·)
  | 'b', '\'' :: body => some (.literal, quotedLength '\'' body + 1)
  | 'b', '"' :: body => some (.literal, quotedLength '"' body + 1)
  | 'c', '"' :: body => some (.literal, quotedLength '"' body + 1)
  | 'b', 'r' :: raw => (rawLength? raw).map fun length => (.literal, length + 1)
  | 'c', 'r' :: raw => (rawLength? raw).map fun length => (.literal, length + 1)
  | '\'', '\\' :: _ => some (.literal, quotedLength '\'' rest)
  | '\'', _ :: '\'' :: _ => some (.literal, 2)
  | _, _ => none

/-- Whether a comment to the end of its line documents.  It is given behind its two
slashes: one more makes it document, but not two more. -/
def lineDocuments : List Char → Bool
  | '/' :: '/' :: _ => false
  | '/' :: _ => true
  | '!' :: _ => true
  | _ => false

/-- Whether a comment with an end of its own documents.  It is given behind its slash and
star: one more star makes it document, but not two more, nor the end. -/
def blockDocuments : List Char → Bool
  | '*' :: '*' :: _ => false
  | '*' :: '/' :: _ => false
  | '*' :: _ => true
  | '!' :: _ => true
  | _ => false

/-- The kind of the lexeme that begins with this character and continues with this text,
and its length without the first character. -/
def front (first : Char) (rest : List Char) : Kind × Nat :=
  match literal? first rest with
  | some (kind, length) => (kind, length + nameLength (rest.drop length))
  | none =>
      match first, rest with
      | '/', '/' :: comment =>
          (if lineDocuments comment then .documentation else .gap, lineLength comment + 1)
      | '/', '*' :: comment =>
          (if blockDocuments comment then .documentation else .gap, commentLength 1 comment + 1)
      | '\'', 'r' :: '#' :: name => (.lifetime, wordLength name + 2)
      | '\'', name => (.lifetime, wordLength name)
      | 'r', '#' :: name =>
          if nameLength name = 0 then (.word, 0) else (.word, nameLength name + 1)
      | _, _ =>
          if isSeparating first then (.gap, 0)
          else if first.isDigit then (.number, numberLength first rest)
          else if isWordChar first then (.word, wordLength rest)
          else if first ∈ ['(', '[', '\x7b'] then (.opening, 0)
          else if first ∈ [')', ']', '\x7d'] then (.closing, 0)
          else (.mark, 0)

def markChars : List Char := "~!@#$%^&*-=+|;:,<.>/?'".toList

/-- Whether a mark stands at the front of a text, and not a comment. -/
def beginsMark : List Char → Bool
  | '/' :: '/' :: _ => false
  | '/' :: '*' :: _ => false
  | c :: _ => markChars.contains c
  | [] => false

/-- Cuts a source into lexemes, behind those of its characters that belong to a lexeme
which has been cut off. -/
def cut (taken : Nat) : List Char → List Lexeme
  | [] => []
  | first :: rest =>
      match taken with
      | taken + 1 => cut taken rest
      | 0 =>
          let (kind, length) := front first rest
          let joined := kind = .mark && beginsMark (rest.drop length)
          ⟨kind, first :: rest.take length, joined⟩ :: cut length rest

def lexemes (source : List Char) : List Lexeme :=
  (cut 0 source).filter fun lexeme => lexeme.kind != .gap

def condensed (source : String) : String :=
  String.ofList ((lexemes source.toList).flatMap Lexeme.spelling)

/-- What is not taken is cut without loss. -/
theorem flatMap_spelling_cut (taken : Nat) (source : List Char) :
    (cut taken source).flatMap Lexeme.spelling = source.drop taken := by
  induction source generalizing taken with
  | nil => simp [cut]
  | cons first rest ih =>
      cases taken with
      | zero => simp [cut, ih]
      | succ taken => simpa [cut] using ih taken

/-! ## Text literals

A text literal is written between quotes, where a backslash announces an escape, or raw,
where every character stands for itself.  A suffix behind the closing quote does not
belong to the text.
-/

/-- The characters that an escape stands for, and its length.  The escape is given behind
its backslash.  A line end stands for nothing, and so do the ASCII blanks behind it. -/
def escape : List Char → List Char × Nat
  | 'n' :: _ => (['\n'], 1)
  | 'r' :: _ => (['\r'], 1)
  | 't' :: _ => (['\t'], 1)
  | '0' :: _ => (['\x00'], 1)
  | 'x' :: high :: low :: _ => ([Char.ofNat (Text.hexValue [high, low])], 3)
  | 'u' :: '\x7b' :: rest =>
      let digits := rest.takeWhile (· != '\x7d')
      ([Char.ofNat (Text.hexValue digits)], digits.length + 3)
  | '\n' :: rest => ([], (rest.takeWhile Char.isWhitespace).length + 1)
  | '\r' :: rest => ([], (rest.takeWhile Char.isWhitespace).length + 1)
  | c :: _ => ([c], 1)
  | [] => ([], 0)

/-- The text that is written up to the next quote, behind those characters that belong to
an escape which has been read.  A line end is a line feed alone. -/
def unquoted (taken : Nat) : List Char → List Char
  | [] => []
  | c :: rest =>
      match taken with
      | taken + 1 => unquoted taken rest
      | 0 =>
          if c = '"' then []
          else if c = '\\' then (escape rest).1 ++ unquoted (escape rest).2 rest
          else if c = '\r' then unquoted 0 rest
          else c :: unquoted 0 rest

def literalText (spelling : List Char) : List Char :=
  match spelling with
  | 'r' :: rest =>
      match rawBody? rest with
      | some (closing, body) => before closing body
      | none => []
  | _ :: rest => unquoted 0 rest
  | [] => []

/-- Characters that are neither quotes nor the beginning of an escape nor part of a line
end stand for themselves. -/
theorem unquoted_append {text : List Char} (rest : List Char)
    (hplain : ∀ c ∈ text, c ≠ '"' ∧ c ≠ '\\' ∧ c ≠ '\r') :
    unquoted 0 (text ++ '"' :: rest) = text := by
  induction text with
  | nil => simp [unquoted]
  | cons c text ih =>
      have hc := hplain c (by simp)
      simp [unquoted, hc, ih fun d hd => hplain d (by simp [hd])]

/-! ## Tokens

Where arguments are read, a lexeme counts as a token: a word or a text with its content,
one of the marks that structure arguments, or something else that has only to be told
apart.
-/

inductive Token where
  | word (name : String)
  | text (value : String)
  | number
  /-- A literal of another kind. -/
  | literal
  | equals
  | comma
  | minus
  /-- Two colons, which separate the parts of a path. -/
  | separator
  | other
deriving DecidableEq, Repr

def Lexeme.token (lexeme : Lexeme) : Token :=
  match lexeme.kind with
  | .word => .word (String.ofList lexeme.spelling)
  | .text => .text (String.ofList (literalText lexeme.spelling))
  | .number => .number
  | .literal => .literal
  | .mark =>
      if lexeme.spelling = ['='] then .equals
      else if lexeme.spelling = [','] then .comma
      else if lexeme.spelling = ['-'] then .minus
      else .other
  | .gap | .documentation | .lifetime | .opening | .closing => .other

def areSeparator (first second : Lexeme) : Bool :=
  first.kind = .mark && first.spelling = [':'] && first.joined && second.spelling = [':']

def tokensOf : List Lexeme → List Token
  | [] => []
  | [last] => [last.token]
  | first :: second :: rest =>
      if areSeparator first second then .separator :: tokensOf rest
      else first.token :: tokensOf (second :: rest)

def tokens (source : String) : List Token := tokensOf (lexemes source.toList)

end FieldWiring.Source
