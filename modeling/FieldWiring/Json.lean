import FieldWiring.Decimal
import FieldWiring.Text

/-!
# The data format of settings

Settings are kept in a file of nested values.  The text of the file is cut into tokens,
which are then read as one value.
-/

namespace FieldWiring

/-! ## Numbers

A number is written in decimal and kept in one of two forms: a whole number that fits
a signed 64-bit word exactly, and any other as a binary64.  Minus zero is of the second
form, because only there its sign is kept.  A number of the second form is read with a
coefficient that fits an unsigned 64-bit word; digits beyond that have no influence but
for their number.
-/

namespace Json

/-- A number as it is written: its sign, the digits before the point, and the digits
behind it and the exponent where they are given. -/
structure Literal where
  negative : Bool
  whole : List Char
  fraction : Option (List Char)
  exponent : Option Int
deriving DecidableEq, Repr

inductive Number where
  | whole (value : Int)
  | real (negative : Bool) (magnitude : Binary64)
deriving DecidableEq, Repr

/-- A signed 64-bit word holds the whole numbers below this bound, and their negatives
and the negative bound. -/
def wordBound : Nat := Nat.pow 2 63

def digitsValue (digits : List Char) : Nat :=
  digits.foldl (fun value digit => 10 * value + (digit.toNat - '0'.toNat)) 0

def leadingDigits? (text : List Char) : Option (List Char × List Char) :=
  match text.takeWhile Char.isDigit with
  | [] => none
  | digits => some (digits, text.dropWhile Char.isDigit)

/-- The digits before the point: a zero alone, or digits that start with another one. -/
def wholePart? (text : List Char) : Option (List Char × List Char) :=
  match leadingDigits? text with
  | some ('0' :: _ :: _, _) => none
  | split => split

def fractionPart? (text : List Char) : Option (Option (List Char) × List Char) :=
  match text with
  | '.' :: rest => (leadingDigits? rest).map fun split => (some split.1, split.2)
  | _ => some (none, text)

def exponentPart? (text : List Char) : Option (Option Int × List Char) :=
  let unsigned (sign : Int) (rest : List Char) :=
    (leadingDigits? rest).map fun split => (some (sign * digitsValue split.1), split.2)
  let signed (rest : List Char) :=
    match rest with
    | '-' :: rest => unsigned (-1) rest
    | '+' :: rest => unsigned 1 rest
    | _ => unsigned 1 rest
  match text with
  | 'e' :: rest => signed rest
  | 'E' :: rest => signed rest
  | _ => some (none, text)

namespace Literal

/-- Reads a text that is a number from end to end. -/
def read? (text : List Char) : Option Literal := do
  let (negative, unsigned) := match text with
    | '-' :: rest => (true, rest)
    | _ => (false, text)
  let (whole, behindWhole) ← wholePart? unsigned
  let (fraction, behindFraction) ← fractionPart? behindWhole
  let (exponent, rest) ← exponentPart? behindFraction
  if rest = [] then some ⟨negative, whole, fraction, exponent⟩ else none

/-- Extends a coefficient by digits for as long as it fits an unsigned 64-bit word, and
gives the digits that are left. -/
def extendCoefficient (coefficient : Nat) : List Char → Nat × List Char
  | [] => (coefficient, [])
  | digit :: rest =>
      let extended := 10 * coefficient + (digit.toNat - '0'.toNat)
      if extended < 2 * wordBound then extendCoefficient extended rest
      else (coefficient, digit :: rest)

/-- The magnitude of a literal.  Digits before the point that do not fit the coefficient
count as zeros.  Those behind the point are then tried anew, and dropped from the first
one on that does not fit. -/
def magnitude (literal : Literal) : Decimal :=
  let fraction := literal.fraction.getD []
  let (whole, uncounted) := extendCoefficient 0 literal.whole
  let (coefficient, dropped) := extendCoefficient whole fraction
  ⟨coefficient, literal.exponent.getD 0 + uncounted.length - (fraction.length - dropped.length)⟩

/-- The whole number that a literal stands for, if it is written as one, fits a signed
64-bit word and is not minus zero. -/
def word? (literal : Literal) : Option Int :=
  let value := digitsValue literal.whole
  if literal.fraction ≠ none ∨ literal.exponent ≠ none then none
  else if literal.negative then
    if value ≠ 0 ∧ value ≤ wordBound then some (-value) else none
  else if value < wordBound then some value
  else none

/-- The number that a literal stands for, unless it is out of range. -/
def number? (literal : Literal) : Option Number :=
  match literal.word? with
  | some value => some (.whole value)
  | none => (Binary64.ofDecimal? literal.magnitude).map (.real literal.negative)

end Literal

/-- Writes a number with the fewest digits that tell it apart from others of its form, and
without an exponent. -/
def Number.text : Number → String
  | whole value => toString value
  | real negative magnitude => (if negative then "-" else "") ++ magnitude.shortest.positional

end Json

/-! ## Values

Settings are kept in a file of nested values.  The entries of an object stay in the
order in which they are written, repeated keys included: what a repetition means is
for the reader of the settings to say.
-/

inductive Json where
  | null
  | bool (value : Bool)
  | number (value : Json.Number)
  | text (value : String)
  | array (items : List Json)
  | object (entries : List (String × Json))

/-- The entries of an object; any other value has none. -/
def Json.entries : Json → List (String × Json)
  | object entries => entries
  | _ => []

/-! ## Tokens

A text is cut into punctuation, quoted texts and words.  A word is a run of characters
that are none of these and no blanks; it has to be a constant or a number.  Blanks
between tokens are dropped.
-/

namespace Json

/-- A piece of a text.  A scalar is a constant or a number. -/
inductive Token where
  | openArray
  | closeArray
  | openObject
  | closeObject
  | comma
  | colon
  | quoted (value : String)
  | scalar (value : Json)

def isSpace (c : Char) : Bool := c == ' ' || c == '\t' || c == '\n' || c == '\r'

def punctuation? : Char → Option Token
  | '[' => some .openArray
  | ']' => some .closeArray
  | '\x7b' => some .openObject
  | '\x7d' => some .closeObject
  | ',' => some .comma
  | ':' => some .colon
  | _ => none

def wordValue? (word : List Char) : Option Json :=
  if word = "null".toList then some .null
  else if word = "true".toList then some (.bool true)
  else if word = "false".toList then some (.bool false)
  else ((Literal.read? word).bind Literal.number?).map .number

/-- Puts the word in front of the tokens, if there is one. -/
def consWord (word : List Char) (tokens : List Token) : Option (List Token) :=
  if word = [] then some tokens
  else (wordValue? word).map fun value => .scalar value :: tokens

def escaped? : Char → Option Char
  | '"' => some '"'
  | '\\' => some '\\'
  | '/' => some '/'
  | 'b' => some '\x08'
  | 'f' => some '\x0c'
  | 'n' => some '\n'
  | 'r' => some '\r'
  | 't' => some '\t'
  | _ => none

def codeUnit? (a b c d : Char) : Option Nat := do
  let high := (← Text.hexDigit? a) * 16 + (← Text.hexDigit? b)
  let low := (← Text.hexDigit? c) * 16 + (← Text.hexDigit? d)
  return high * 256 + low

def isLeading (unit : Nat) : Bool := 0xD800 ≤ unit && unit < 0xDC00

def isTrailing (unit : Nat) : Bool := 0xDC00 ≤ unit && unit < 0xE000

def pairValue (leading trailing : Nat) : Char :=
  Char.ofNat (0x10000 + (leading - 0xD800) * 1024 + (trailing - 0xDC00))

mutual

/-- Cuts a text into tokens.  `word` holds the characters of the word that the text
continues, the last one first. -/
def scan (word : List Char) : List Char → Option (List Token)
  | [] => consWord word.reverse []
  | c :: rest =>
      if isSpace c then (scan [] rest).bind (consWord word.reverse)
      else match punctuation? c with
        | some token => (scan [] rest).bind fun tokens => consWord word.reverse (token :: tokens)
        | none =>
            if c = '"' then (scanQuoted [] rest).bind (consWord word.reverse)
            else scan (c :: word) rest

/-- Reads on inside a quoted text; `seen` holds its characters so far, the last one
first. -/
def scanQuoted (seen : List Char) : List Char → Option (List Token)
  | [] => none
  | '"' :: rest => (scan [] rest).map fun tokens => .quoted (String.ofList seen.reverse) :: tokens
  | '\\' :: 'u' :: a :: b :: c :: d :: rest =>
      match codeUnit? a b c d with
      | none => none
      | some unit =>
          if isTrailing unit then none
          else if isLeading unit then
            match rest with
            | '\\' :: 'u' :: a' :: b' :: c' :: d' :: rest =>
                match codeUnit? a' b' c' d' with
                | none => none
                | some second =>
                    if isTrailing second then scanQuoted (pairValue unit second :: seen) rest
                    else none
            | _ => none
          else scanQuoted (Char.ofNat unit :: seen) rest
  | '\\' :: letter :: rest =>
      match escaped? letter with
      | none => none
      | some c => scanQuoted (c :: seen) rest
  | c :: rest => if c = '\\' ∨ c.toNat < 0x20 then none else scanQuoted (c :: seen) rest

end

def tokens? (text : List Char) : Option (List Token) := scan [] text

end Json

/-! ## Reading values

A text is read token by token.  What is open around the current place is kept as a
stack of frames, whose height is bounded, so that the reading is one recursion on the
tokens.
-/

namespace Json

/-- An array or object that is still open, with what it holds so far, the last first.
An open object is waiting for the value of a key. -/
inductive Frame where
  | array (items : List Json)
  | object (entries : List (String × Json)) (key : String)

def maxDepth : Nat := 127

mutual

/-- Reads a value and what follows it. -/
def readValue (stack : List Frame) : List Token → Option Json
  | .scalar value :: rest => continueWith stack value rest
  | .quoted value :: rest => continueWith stack (.text value) rest
  | .openArray :: .closeArray :: rest =>
      if stack.length < maxDepth then continueWith stack (.array []) rest else none
  | .openArray :: rest =>
      if stack.length < maxDepth then readValue (.array [] :: stack) rest else none
  | .openObject :: .closeObject :: rest =>
      if stack.length < maxDepth then continueWith stack (.object []) rest else none
  | .openObject :: .quoted key :: .colon :: rest =>
      if stack.length < maxDepth then readValue (.object [] key :: stack) rest else none
  | _ => none

/-- Puts a value into the innermost frame and reads what follows. -/
def continueWith : List Frame → Json → List Token → Option Json
  | [], value, [] => some value
  | .array items :: outer, value, .comma :: rest =>
      readValue (.array (value :: items) :: outer) rest
  | .array items :: outer, value, .closeArray :: rest =>
      continueWith outer (.array (value :: items).reverse) rest
  | .object entries key :: outer, value, .comma :: .quoted next :: .colon :: rest =>
      readValue (.object ((key, value) :: entries) next :: outer) rest
  | .object entries key :: outer, value, .closeObject :: rest =>
      continueWith outer (.object ((key, value) :: entries).reverse) rest
  | _, _, _ => none

end

/-- Reads a text that is one value from end to end. -/
def read? (text : List Char) : Option Json :=
  (tokens? text).bind (readValue [])

end Json

end FieldWiring
