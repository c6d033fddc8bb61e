import FieldWiring.Source.Arrangement.Type

/-!
# Patterns and expressions

Lengths of arrays and constant arguments are expressions, whose parts are copied like those
of types.
-/

namespace FieldWiring.Source.Arrangement

/-! ## Numbers of members

A member without a name is told by its number.  It may be written in any base, but has a
single decimal form.  Two such numbers, one for a member of the other, can look like one
number with a fraction.
-/

/-- The value of a number without a fraction. -/
def wholeNumber : List Char → Nat
  | '0' :: 'x' :: digits => Text.hexValue digits
  | '0' :: 'o' :: digits => Text.valueInBase 8 digits
  | '0' :: 'b' :: digits => Text.valueInBase 2 digits
  | digits => Text.valueInBase 10 digits

def decimal (digits : List Char) : Lexeme := ⟨.number, (wholeNumber digits).repr.toList, false⟩

/-- The numbers of members in a lexeme, with the points between them and behind them. -/
def memberNumbers (spelling : List Char) : List Lexeme :=
  let point := ⟨.mark, ['.'], false⟩
  match spelling.dropWhile (· != '.') with
  | [] => [decimal spelling]
  | [_] => [decimal (spelling.takeWhile (· != '.')), point]
  | _ :: digits => [decimal (spelling.takeWhile (· != '.')), point, decimal digits]

/-! ## Patterns

A range with its end in it is written with an equals sign, also where three points stand.
A boxed pattern stands for itself.
-/

def memberNumber : Copier Unit := do
  match (← ahead).head? with
  | some lexeme =>
      skip .number
      write (memberNumbers lexeme.spelling)
  | none => failure

def member : Copier Unit := do
  if ← isAt .number then memberNumber else copy .name

def rangeMarks : Copier Unit := do
  if !(← copyIf (.sign "..=")) then copy (.sign "..")

def isAtOpenEnd : Copier Bool := do
  if ← isAtEnd then return true
  if ← isAtAny [.sign "|", .sign "=", .sign ",", .sign ";", .word "if"] then return true
  return (← isAt (.sign ":")) && !(← isAt (.sign "::"))

def rangeEnd (grammar : Grammar) : Copier Unit := do
  if ← isAtAny [.sign "-", .literal] then constantLiteral
  else if ← copyIf (.word "const") then grammar .block
  else qualifiedPath grammar true

/-- Copies the marks of a range in a pattern, and what stands behind them. -/
def rangeBehindStart (grammar : Grammar) : Copier Unit := do
  if ← skipIf (.sign "...") then write [mark '.', mark '.', mark '='] else rangeMarks
  if !(← isAtOpenEnd) then rangeEnd grammar

def memberPattern (grammar : Grammar) : Copier Unit := do
  outerAttributes grammar
  if ← copyIf (.sign "..") then return
  let _ ← copyIf (.word "box")
  let _ ← copyIf (.word "ref")
  let _ ← copyIf (.word "mut")
  member
  if ← copyIf (.sign ":") then grammar .pattern

def pathPattern (grammar : Grammar) : Copier Unit := do
  qualifiedPath grammar true
  if ← isAtExpansion then expansion
  else if ← isAt (.opening '\x7b') then bracketed '\x7b' (listOf (memberPattern grammar))
  else if ← isAt (.opening '(') then bracketed '(' (listOf (grammar .pattern))
  else if ← isAt (.sign "..") then rangeBehindStart grammar

/-- Whether the source continues with a path that is more than a new name. -/
def isAtPathPattern : Copier Bool := do
  if ← isAt .name then
    let lexemes := (← ahead).drop 1
    return [Form.sign "::", .sign "!", .opening '\x7b', .opening '(', .sign ".."].any
      fun form => form.begins lexemes
  if ← isAt (.word "self") then isAtAll [.anyWord, .sign "::"] else isAtPath

/-- Copies a pattern without alternatives. -/
def alternative (grammar : Grammar) : Copier Unit := do
  if ← isAt (.word "box") then
    asItStands do
      copy (.word "box")
      grammar .alternative
  else if ← copyIf (.word "_") then return
  else if ← isAtAny [.sign "-", .literal, .word "const"] then
    rangeEnd grammar
    if ← isAt (.sign "..") then rangeBehindStart grammar
  else if ← isAtPathPattern then pathPattern grammar
  else if ← copyIf (.sign "&") then
    let _ ← copyIf (.word "mut")
    grammar .alternative
  else if ← isAt (.opening '(') then bracketed '(' (listOf (grammar .pattern))
  else if ← isAt (.opening '[') then bracketed '[' (listOf (grammar .pattern))
  else if ← isAt (.sign "..") then
    rangeMarks
    if !(← isAtOpenEnd) then rangeEnd grammar
  else
    let _ ← copyIf (.word "ref")
    let _ ← copyIf (.word "mut")
    if !(← copyIf (.word "self")) then copy .name
    if ← copyIf (.sign "@") then grammar .alternative

def pattern (grammar : Grammar) : Copier Unit := do
  let _ ← copyIf (.sign "|")
  repeating do
    alternative grammar
    if ← isAtAny [.sign "||", .sign "|="] then return false
    copyIf (.sign "|")

/-! ## Operands

The operands of expressions are literals, names, calls and selections, functions without a
name, and expressions that begin with a keyword.  Attributes can stand in front of them:
those of a range put it in parentheses, and an operand that stands for itself loses them
where they belong to what is around it.
-/

/-- What an expression is for the attributes in front of it. -/
inductive Nature where
  | ordinary
  /-- It is a range. -/
  | range
  /-- It begins with an operand that stands for itself. -/
  | verbatim
deriving DecidableEq, Repr

def withAttributes (attributes : List Lexeme) (nature : Nature) (expression : List Lexeme) :
    List Lexeme :=
  if attributes.isEmpty then expression
  else match nature with
    | .ordinary => attributes ++ expression
    | .range =>
        attributes ++ ⟨.opening, ['('], false⟩ :: expression ++ [⟨.closing, [')'], false⟩]
    | .verbatim => expression

def beginsClosure (lexemes : List Lexeme) : Bool :=
  beginWith [.sign "|"] lexemes || beginWith [.word "move"] lexemes ||
    beginWith [.word "static"] lexemes ||
    beginWith [.word "for", .sign "<", .lifetime] lexemes ||
    beginWith [.word "for", .sign "<", .sign ">"] lexemes ||
    (beginWith [.word "const"] lexemes && !beginWith [.anyWord, .opening '\x7b'] lexemes) ||
    beginWith [.word "async", .sign "|"] lexemes || beginWith [.word "async", .word "move"] lexemes

def beginsAsyncBlock (lexemes : List Lexeme) : Bool :=
  beginWith [.word "async", .opening '\x7b'] lexemes ||
    beginWith [.word "async", .word "move", .opening '\x7b'] lexemes

/-- Whether lexemes begin with an expression that ends with a block, and so needs nothing
to end it. -/
def beginsWithBlockForm (lexemes : List Lexeme) : Bool :=
  [Form.word "if", .word "while", .word "loop", .word "match", .word "unsafe",
      .opening '\x7b', .lifetime].any (fun form => form.begins lexemes) ||
    (beginWith [.word "for"] lexemes && !beginsClosure lexemes) ||
    beginWith [.word "try", .opening '\x7b'] lexemes ||
    beginWith [.word "const", .opening '\x7b'] lexemes

/-- Whether lexemes begin with a point that selects a member. -/
def beginsSelection (lexemes : List Lexeme) : Bool :=
  beginWith [.sign "."] lexemes && !beginWith [.sign ".."] lexemes

def beginsExpression (lexemes : List Lexeme) : Bool :=
  let isAtSign (sign : String) (others : List String) :=
    beginWith [.sign sign] lexemes && !others.any fun other => beginWith [.sign other] lexemes
  (beginWith [.anyWord] lexemes && !beginWith [.word "as"] lexemes) ||
    [Form.opening '(', .opening '[', .opening '\x7b', .literal, .sign "..", .sign "::", .lifetime,
      .sign "#"].any (fun form => form.begins lexemes) ||
    isAtSign "!" ["!="] || isAtSign "-" ["-=", "->"] || isAtSign "*" ["*="] ||
    isAtSign "|" ["|="] || isAtSign "&" ["&="] || isAtSign "<" ["<=", "<<="]

/-- Whether the end of a range is left open in an expression. -/
def isAtRangeWithoutEnd (hasRecords : Bool) : Copier Bool := do
  let lexemes ← ahead
  if ← isAtEnd then return true
  if beginsSelection lexemes || (!hasRecords && Form.begins (.opening '\x7b') lexemes) then
    return true
  isAtAny [.sign ",", .sign ";", .sign "?", .sign "=>", .sign "=", .sign "+", .sign "/", .sign "%",
    .sign "^", .sign ">", .sign "<=", .sign "!=", .sign "-=", .sign "*=", .sign "&=", .sign "|=",
    .sign "<<=", .word "as"]

def expressions (grammar : Grammar) : Copier Unit := listOf (grammar (.expression true))

/-- Copies an argument of a function that has no name.  The attributes of one that stands
for itself are lost. -/
def closureArgument (grammar : Grammar) : Copier Unit := do
  let (_, attributes) ← captured (outerAttributes grammar)
  let isVerbatim ← isAt (.word "box")
  let (_, argument) ← captured (alternative grammar)
  if ← isAt (.sign ":") then
    write (attributes ++ argument)
    copy (.sign ":")
    grammar (.type true)
  else write (withAttributes attributes (if isVerbatim then .verbatim else .ordinary) argument)

def closure (grammar : Grammar) (hasRecords : Bool) : Copier Unit := do
  if ← isAt (.word "for") then binder grammar
  for modifier in ["const", "static", "async", "move"] do
    let _ ← copyIf (.word modifier)
  copy (.sign "|")
  repeating do
    if ← isAt (.sign "|") then return false
    closureArgument grammar
    copyIf (.sign ",")
  copy (.sign "|")
  if ← isAt (.sign "->") then
    resultType grammar true
    grammar .block
  else grammar (.expression hasRecords)

/-- Copies a member of a record, or the record that the other members are taken from. -/
def recordMember (grammar : Grammar) : Copier Unit := do
  if ← copyIf (.sign "..") then
    if !(← isAtEnd) then grammar (.expression true)
  else
    outerAttributes grammar
    member
    if ← copyIf (.sign ":") then grammar (.expression true)

def named (grammar : Grammar) (hasRecords : Bool) : Copier Unit := do
  qualifiedPath grammar true
  if ← isAtExpansion then expansion
  else if ← pure hasRecords <&&> isAt (.opening '\x7b') then
    bracketed '\x7b' (listOf (recordMember grammar))

def optionalExpression (grammar : Grammar) : Copier Unit := do
  if beginsExpression (← ahead) then grammar (.expression true)

/-- Copies a choice behind its keyword, and what else is chosen. -/
def choice (grammar : Grammar) : Copier Unit :=
  repeating do
    grammar (.expression false)
    grammar .block
    if ← copyIf (.word "else") then
      if ← copyIf (.word "if") then return true
      grammar .block
    return false

/-- Copies an expression in brackets, several, or one with the number of its repetitions. -/
def array (grammar : Grammar) : Copier Unit :=
  bracketed '[' (listOf do
    grammar (.expression true)
    if ← copyIf (.sign ";") then grammar (.expression true))

def rangeBehind (grammar : Grammar) (hasRecords : Bool) : Copier Unit := do
  if ← copyIf (.sign "..=") then grammar (.operand hasRecords)
  else
    copy (.sign "..")
    if !(← isAtRangeWithoutEnd hasRecords) then grammar (.operand hasRecords)

def blockForm (grammar : Grammar) : Copier Unit := do
  if ← copyIf .lifetime then copy (.sign ":")
  if ← copyIf (.word "if") then choice grammar
  else if ← copyIf (.word "while") then
    grammar (.expression false)
    grammar .block
  else if ← copyIf (.word "for") then
    grammar .pattern
    copy (.word "in")
    grammar (.expression false)
    grammar .block
  else if ← copyIf (.word "match") then
    grammar (.expression false)
    bracketed '\x7b' do
      innerAttributes grammar
      allOf (grammar .arm)
  else
    for keyword in ["loop", "unsafe", "try", "const"] do
      let _ ← copyIf (.word keyword)
    grammar .block

/-- Copies an operand without the signs in front of it and the selections behind it. -/
def atom (grammar : Grammar) (hasRecords : Bool) : Copier Nature := do
  let lexemes ← ahead
  if ← copyIf .literal then return .ordinary
  if beginsAsyncBlock lexemes then
    copy (.word "async")
    let _ ← copyIf (.word "move")
    grammar .block
  else if beginsWithBlockForm lexemes then blockForm grammar
  else if beginsClosure lexemes then closure grammar hasRecords
  else if beginWith [.word "builtin", .sign "#"] lexemes then
    copyLexemes 3
    copyUnit
    return .verbatim
  else if ← copyIf (.word "become") then
    grammar (.expression true)
    return .verbatim
  else if ← copyIf (.word "let") then
    grammar .pattern
    copy (.sign "=")
    grammar (.operand hasRecords)
  else if ← copyIf (.word "break") then
    let _ ← copyIf .lifetime
    if hasRecords || !(← isAt (.opening '\x7b')) then optionalExpression grammar
  else if ← copyIf (.word "continue") then
    let _ ← copyIf .lifetime
  else if ← isAtAny [.word "return", .word "yield"] then
    copy .anyWord
    optionalExpression grammar
  else if ← copyIf (.word "_") then return .ordinary
  else if ← isAt (.sign "..") then
    rangeBehind grammar hasRecords
    return .range
  else if ← isAt (.opening '(') then bracketed '(' (expressions grammar)
  else if ← isAt (.opening '[') then array grammar
  else named grammar hasRecords
  return .ordinary

/-- Copies a selected member, with the generic arguments of one that is called. -/
def selection (grammar : Grammar) : Copier Unit := do
  copy (.sign ".")
  repeating do
    if ← isAt .number then
      let (_, numbers) ← captured memberNumber
      write numbers
      return numbers.getLast? = some (mark '.')
    copy .anyWord
    return false
  if ← isAtAll [.sign "::", .sign "<"] then
    copy (.sign "::")
    genericArguments grammar

/-- Copies what selects from an operand, calls it or asks it, and tells whether there is
anything. -/
def trailers (grammar : Grammar) : Copier Bool := do
  let before := (← ahead).length
  repeating do
    if ← isAt (.opening '(') then bracketed '(' (expressions grammar)
    else if ← isAt (.opening '[') then bracketed '[' (grammar (.expression true))
    else if beginsSelection (← ahead) then selection grammar
    else return (← copyIf (.sign "?"))
    return true
  return (← ahead).length != before

/-- Copies the sign in front of an operand, and tells whether there is one. -/
def signInFront : Copier Bool := do
  if ← copyIf (.sign "&") then
    if (← isAtAll [.word "raw", .word "mut"]) || (← isAtAll [.word "raw", .word "const"]) then
      copyLexemes 2
    else
      let _ ← copyIf (.word "mut")
    return true
  return (← copyIf (.sign "*")) || (← copyIf (.sign "!")) || (← copyIf (.sign "-"))

def operand (grammar : Grammar) (hasRecords : Bool) : Copier Nature :=
  asItStandsIf (· = .verbatim) do
    outerAttributes grammar
    if ← signInFront then
      grammar (.operand hasRecords)
      return .ordinary
    let nature ← atom grammar hasRecords
    if ← trailers grammar then return .ordinary
    return nature

/-! ## Expressions

An expression is a chain of operands with operators between them.  How tightly operators
bind does not show in what is written.  Where an expression that ends with a block is a
statement, or an arm of a selection, it goes on only by a selection from its value.
-/

/-- The operators that change their left operand. -/
def changingOperators : List String :=
  ["<<=", ">>=", "+=", "-=", "*=", "/=", "%=", "^=", "&=", "|="]

/-- The other operators, one that begins with another in front of that. -/
def operators : List String :=
  ["<<", ">>", "&&", "||", "==", "<=", "!=", ">=", "+", "-", "*", "/", "%", "^", "&", "|", "<", ">"]

/-- Copies an operator that changes its left operand, and tells whether there is one. -/
def assignment : Copier Bool := do
  let lexemes ← ahead
  match changingOperators.find? fun operator => beginWith [.sign operator] lexemes with
  | some operator => copyIf (.sign operator)
  | none =>
      if ← isAtAny [.sign "==", .sign "=>"] then return false
      copyIf (.sign "=")

def operator : Copier Bool := do
  let lexemes ← ahead
  match operators.find? fun operator => beginWith [.sign operator] lexemes with
  | some operator => copyIf (.sign operator)
  | none => return false

/-- Copies what stands behind the first operand of an expression, at most `fuel` operators,
where the expression up to there has this nature. -/
def chainUpTo (grammar : Grammar) (hasRecords : Bool) : Nat → Nature → Copier Nature
  | 0, nature => return nature
  | fuel + 1, nature => do
      if ← assignment then
        grammar (.expression hasRecords)
        return nature
      if ← operator then
        grammar (.operand hasRecords)
        chainUpTo grammar hasRecords fuel nature
      else if ← copyIf (.word "as") then
        grammar (.type false)
        chainUpTo grammar hasRecords fuel nature
      else if ← isAt (.sign "..") then
        rangeBehind grammar hasRecords
        chainUpTo grammar hasRecords fuel .range
      else return nature

def chain (grammar : Grammar) (hasRecords : Bool) (nature : Nature) : Copier Nature := do
  chainUpTo grammar hasRecords ((← ahead).length + 1) nature

/-- Copies an expression; whether a name before braces makes a record. -/
def expression (grammar : Grammar) (hasRecords : Bool) : Copier Nature := do
  chain grammar hasRecords (← operand grammar hasRecords)

/-- Copies the first operand of an expression that stands where it may end with a block,
and tells whether the expression goes on. -/
def leading (grammar : Grammar) : Copier (Nature × Bool) := do
  if beginsWithBlockForm (← ahead) then
    blockForm grammar
    if beginsSelection (← ahead) || (← isAt (.sign "?")) then
      let _ ← trailers grammar
      return (.ordinary, true)
    return (.ordinary, false)
  return (← operand grammar true, true)

/-- Copies an arm of a selection by patterns.  The attributes of its expression belong to
the first operand. -/
def arm (grammar : Grammar) : Copier Unit := do
  outerAttributes grammar
  grammar .pattern
  if ← copyIf (.word "if") then grammar (.expression true)
  copy (.sign "=>")
  let (_, attributes) ← captured (outerAttributes grammar)
  let ((nature, goesOn), first) ← captured (leading grammar)
  write (withAttributes attributes nature first)
  if goesOn then
    let _ ← chain grammar true nature
  let _ ← copyIf (.sign ",")

/-- Copies an expression that is a statement, with attributes that belong to all of it. -/
def expressionStatement (grammar : Grammar) (attributes : List Lexeme) : Copier Unit := do
  let (nature, expression) ← captured do
    let (nature, goesOn) ← leading grammar
    if goesOn then chain grammar true nature else return nature
  write (withAttributes attributes nature expression)

end FieldWiring.Source.Arrangement
