import FieldWiring.Source.Arrangement.Copier

/-!
# Types

Types contain paths with generic arguments, and bounds.
-/

namespace FieldWiring.Source.Arrangement

/-! ## Paths and generic arguments

In a list of generic arguments the lifetimes come first.  An argument keeps its comma, and
one that is followed by another has a comma in any case.
-/

/-- A generic argument or parameter: what is written for it, whether it is a lifetime, and
whether a comma ends it. -/
structure Argument where
  lexemes : List Lexeme
  isLifetime : Bool
  isEnded : Bool
deriving DecidableEq, Repr

def separated : List Argument → List Lexeme
  | [] => []
  | [argument] => argument.lexemes ++ if argument.isEnded then [mark ','] else []
  | argument :: rest => argument.lexemes ++ mark ',' :: separated rest

/-- The lifetimes among arguments, then the others. -/
def lifetimesFirst (arguments : List Argument) : List Argument :=
  arguments.filter Argument.isLifetime ++ arguments.filter fun argument => !argument.isLifetime

/-- The arguments up to a closing angle bracket, each read by a copier that tells whether
it is a lifetime; there are not more than `fuel`. -/
def argumentsUpTo (argument : Copier Bool) : Nat → Copier (List Argument)
  | 0 => failure
  | fuel + 1 => do
      if ← isAt (.sign ">") then return []
      let (isLifetime, lexemes) ← captured argument
      if ← skipIf (.sign ",") then
        return ⟨lexemes, isLifetime, true⟩ :: (← argumentsUpTo argument fuel)
      return [⟨lexemes, isLifetime, false⟩]

/-- The arguments in angle brackets, which are left out. -/
def angleBracketed (argument : Copier Bool) : Copier (List Argument) := do
  skip (.sign "<")
  let arguments ← argumentsUpTo argument ((← ahead).length + 1)
  skip (.sign ">")
  return arguments

def writeAngleBracketed (arguments : List Argument) : Copier Unit :=
  write (mark '<' :: separated arguments ++ [mark '>'])

def constantArgument (grammar : Grammar) : Copier Unit := do
  if ← isAt (.opening '\x7b') then grammar .block
  else if ← isAtAny [.sign "-", .literal] then constantLiteral
  else copy .name

def isAtConstant : Copier Bool := isAtAny [.opening '\x7b', .sign "-", .literal]

def isAtBound : Copier Bool := do
  if ← isAt (.word "where") then return false
  isAtAny [.anyWord, .lifetime, .sign "::", .sign "?", .opening '(', .opening '[']

def bounds (grammar : Grammar) : Copier Unit :=
  repeating do
    if ← isAtBound then
      grammar .bound
      copyIf (.sign "+")
    else return false

/-- Copies a generic argument, and tells whether it is a lifetime. -/
def genericArgument (grammar : Grammar) : Copier Bool := do
  if (← isAt .lifetime) && !(← isAtAll [.lifetime, .sign "+"]) then
    copy .lifetime
    return true
  if ← isAtConstant then constantArgument grammar
  else
    grammar (.type true)
    if ← copyIf (.sign "=") then
      if ← isAtConstant then constantArgument grammar else grammar (.type true)
    else if ← copyIf (.sign ":") then bounds grammar
  return false

def genericArguments (grammar : Grammar) : Copier Unit := do
  writeAngleBracketed (lifetimesFirst (← angleBracketed (genericArgument grammar)))

/-- Whether generic arguments follow the name in a path.  In an expression they need a
separator, because an angle bracket alone compares. -/
def isAtGenericArguments (inExpression : Bool) : Copier Bool := do
  if ← isAtAll [.sign "::", .sign "<"] then return true
  if inExpression then return false
  return (← isAt (.sign "<")) && !(← isAtAny [.sign "<=", .sign "<<="])

def pathSegment (grammar : Grammar) (inExpression : Bool) : Copier Unit := do
  if ← isAtAny [.word "super", .word "self", .word "crate", .word "try"] then copy .anyWord
  else
    if ← isAt (.word "Self") then copy .anyWord else copy .name
    if ← isAtGenericArguments inExpression then
      let _ ← copyIf (.sign "::")
      genericArguments grammar

def pathSegments (grammar : Grammar) (inExpression : Bool) : Copier Unit :=
  repeating do
    pathSegment grammar inExpression
    if ← isAtAll [.sign "::", .opening '('] then return false
    copyIf (.sign "::")

def path (grammar : Grammar) (inExpression : Bool) : Copier Unit := do
  let _ ← copyIf (.sign "::")
  pathSegments grammar inExpression

/-- Copies a path that may begin with a type in angle brackets. -/
def qualifiedPath (grammar : Grammar) (inExpression : Bool) : Copier Unit := do
  if ← copyIf (.sign "<") then
    grammar (.type true)
    if ← copyIf (.word "as") then path grammar false
    copy (.sign ">")
    copy (.sign "::")
    pathSegments grammar inExpression
  else path grammar inExpression

/-- Copies the result type of a function; whether it may be a sum of bounds. -/
def resultType (grammar : Grammar) (isSum : Bool) : Copier Unit := do
  if ← copyIf (.sign "->") then grammar (.type isSum)

/-- Copies the types of a function's arguments and result, if they follow a path.  A
separator in front of them is left out. -/
def functionTypes (grammar : Grammar) : Copier Unit := do
  if (← isAt (.opening '(')) || (← isAtAll [.sign "::", .opening '(']) then
    let _ ← skipIf (.sign "::")
    bracketed '(' (listOf (grammar (.type true)))
    resultType grammar false

def isAtPath : Copier Bool :=
  isAtAny [.name, .sign "::", .sign "<", .word "self", .word "Self", .word "super", .word "crate"]

/-! ## Bounds and generic parameters

A colon, a `where` or angle brackets behind which nothing is stated are left out.  The
lifetimes among generic parameters come first, as they do among arguments.  A bound that
holds only in constant evaluation stands for itself.
-/

/-- Writes lexemes and what a copier writes, or nothing if that writes nothing. -/
def introducedBy (introduction : List Lexeme) (part : Copier Unit) : Copier Unit := do
  let (_, lexemes) ← captured part
  if !lexemes.isEmpty then write (introduction ++ lexemes)

def optionalBounds (grammar : Grammar) : Copier Unit := do
  if ← skipIf (.sign ":") then introducedBy [mark ':'] (bounds grammar)

/-- Copies a generic parameter, and tells whether it is a lifetime. -/
def genericParameter (grammar : Grammar) : Copier Bool := do
  outerAttributes grammar
  if ← copyIf .lifetime then
    optionalBounds grammar
    return true
  if ← copyIf (.word "const") then
    copy .name
    copy (.sign ":")
    grammar (.type true)
    if ← copyIf (.sign "=") then constantArgument grammar
  else
    if !(← copyIf (.word "_")) then copy .name
    optionalBounds grammar
    if ← copyIf (.sign "=") then grammar (.type true)
  return false

def genericParameters (grammar : Grammar) : Copier Bool := do
  if !(← isAt (.sign "<")) then return false
  let parameters ← angleBracketed (genericParameter grammar)
  if !parameters.isEmpty then writeAngleBracketed (lifetimesFirst parameters)
  return true

/-- Copies the generic parameters that a bound or a function type introduces.  They keep
their order. -/
def binder (grammar : Grammar) : Copier Unit := do
  copy (.word "for")
  writeAngleBracketed (← angleBracketed (genericParameter grammar))

/-- Copies a trait, and tells whether it is one in constant evaluation. -/
def traitBound (grammar : Grammar) : Copier Bool := do
  if ← isAt (.word "for") then binder grammar
  let isConditional ← isAt (.opening '[')
  if isConditional then copyUnit
  let isConstant ← copyIf (.word "const")
  if ← copyIf (.sign "?") then
    if ← isAt (.word "for") then binder grammar
  path grammar false
  functionTypes grammar
  return isConditional || isConstant

def bound (grammar : Grammar) : Copier Unit := do
  if ← copyIf .lifetime then return
  if ← copyIf (.word "use") then
    let captures ← angleBracketed do
      if ← copyIf .lifetime then return true
      copy .anyWord
      return false
    writeAngleBracketed (lifetimesFirst captures)
  else
    asItStandsOr do
      if ← isAt (.opening '(') then bracketed '(' (traitBound grammar) else traitBound grammar

def isAtEndOfConditions : Copier Bool := do
  if ← isAtEnd then return true
  if ← isAtAny [.opening '\x7b', .sign ",", .sign ";", .sign "="] then return true
  return (← isAt (.sign ":")) && !(← isAt (.sign "::"))

def condition (grammar : Grammar) : Copier Unit := do
  if ← isAtAll [.lifetime, .sign ":"] then copy .lifetime
  else
    if ← isAt (.word "for") then binder grammar
    grammar (.type true)
  copy (.sign ":")
  bounds grammar

/-- Copies the conditions behind `where`, and tells whether it stands there. -/
def whereConditions (grammar : Grammar) : Copier Bool := do
  let lexemes ← ahead
  let present ← skipIf (.word "where")
  if present then
    introducedBy (lexemes.take 1) (repeating do
      if ← isAtEndOfConditions then return false
      condition grammar
      copyIf (.sign ","))
  return present

/-! ## Types

Besides names with their arguments, types are functions, sums of bounds, tuples, arrays,
references and pointers.  A sum of bounds that is marked with a star stands for itself, and
so does the first argument of a function type if it is the mutable receiver.
-/

/-- Copies the bounds behind the first one of a sum; whether there may be others. -/
def furtherBounds (grammar : Grammar) (isSum : Bool) : Copier Unit := do
  if isSum then
    if ← copyIf (.sign "+") then bounds grammar

/-- Copies the bounds of a sum; whether there may be more than one. -/
def sumOfBounds (grammar : Grammar) (isSum : Bool) : Copier Unit := do
  grammar .bound
  furtherBounds grammar isSum

def callingConvention : Copier Unit := do
  if ← copyIf (.word "extern") then
    let _ ← copyIf .text

/-- Whether the source continues with a name for an argument. -/
def isAtArgumentName (isFirst : Bool) : Copier Bool := do
  if ← isAtAny [.name, .word "_"] then return (beginsWithColon (← ahead))
  if isFirst && (← isAt (.word "self")) then return (beginsWithColon (← ahead))
  return false
where
  beginsWithColon (lexemes : List Lexeme) : Bool :=
    beginWith [.anyWord, .sign ":"] lexemes && !beginWith [.anyWord, .sign "::"] lexemes

/-- Copies an argument of a function type; whether it is the first one. -/
def functionTypeArgument (grammar : Grammar) (isFirst : Bool) : Copier Unit := do
  outerAttributes grammar
  asItStandsOr do
    let isReceiver ← pure isFirst <&&> isAtAll [.word "mut", .word "self"]
    if isReceiver then copy (.word "mut")
    let isNamed ← isAtArgumentName isFirst
    if isNamed then copyLexemes 2
    if ← copyIf (.sign "...") then return false
    if isReceiver && !isNamed then copy (.word "self")
    else if isFirst && (← isAtAll [.word "mut", .word "self"]) then copyLexemes 2
    else grammar (.type true)
    return isReceiver

def functionType (grammar : Grammar) : Copier Unit := do
  let _ ← copyIf (.word "unsafe")
  callingConvention
  copy (.word "fn")
  bracketed '(' do
    if ← isAtEnd then return
    functionTypeArgument grammar true
    if ← copyIf (.sign ",") then listOf (functionTypeArgument grammar false)
  resultType grammar false

/-- Copies a type; whether it may be a sum of bounds. -/
def type (grammar : Grammar) (isSum : Bool) : Copier Unit := do
  if ← isAt (.word "for") then binder grammar
  if ← isAtAny [.word "fn", .word "unsafe", .word "extern"] then functionType grammar
  else if ← isAtPath then
    qualifiedPath grammar false
    functionTypes grammar
    if ← isAtExpansion then expansion else furtherBounds grammar isSum
  else if ← isAt (.opening '(') then
    bracketed '(' (listOf do
      if ← isAt (.sign "?") then grammar .bound else grammar (.type true))
    furtherBounds grammar isSum
  else if ← isAt (.word "dyn") then
    asItStandsOr do
      copy (.word "dyn")
      let isStarred ← copyIf (.sign "*")
      sumOfBounds grammar isSum
      return isStarred
  else if ← copyIf (.word "impl") then sumOfBounds grammar isSum
  else if ← isAt .lifetime then sumOfBounds grammar isSum
  else if ← isAt (.opening '[') then
    bracketed '[' do
      grammar (.type true)
      if ← copyIf (.sign ";") then grammar (.expression true)
  else if ← copyIf (.sign "*") then
    if !(← copyIf (.word "mut")) then copy (.word "const")
    grammar (.type false)
  else if ← copyIf (.sign "&") then
    let _ ← copyIf .lifetime
    let _ ← copyIf (.word "mut")
    grammar (.type false)
  else if ← copyIf (.sign "!") then return
  else copy (.word "_")

end FieldWiring.Source.Arrangement
