import FieldWiring.Source.Arrangement.Expression

/-!
# Items and statements

Types may contain blocks, and blocks contain everything: statements, and items with their own
types and blocks.
-/

namespace FieldWiring.Source.Arrangement

/-! ## Functions

A function has a head, with its arguments and the conditions that it states, and a body or
a semicolon in its place.  An argument that is only a type gets a name.
-/

def behindVisibility (lexemes : List Lexeme) : List Lexeme :=
  if Form.begins (.word "pub") lexemes then
    let restriction := lexemes.drop 1
    let isClosedBy (word : String) :=
      beginWith [.opening '(', .word word, .closing] restriction
    if isClosedBy "crate" || isClosedBy "self" || isClosedBy "super" ||
        beginWith [.opening '(', .word "in"] restriction then behindUnit restriction
    else restriction
  else lexemes

def visibility : Copier Bool := do
  let lexemes ← ahead
  let length := lexemes.length - (behindVisibility lexemes).length
  copyLexemes length
  return length != 0

def optionalValue (grammar : Grammar) : Copier Bool := do
  let present ← copyIf (.sign "=")
  if present then grammar (.expression true)
  return present

/-- Copies braces with their attributes and with members. -/
def membersInBraces (grammar : Grammar) (members : Copier Unit) : Copier Unit :=
  bracketed '\x7b' do
    innerAttributes grammar
    members

/-- Whether lexemes begin with a function; whether it may be marked as safe. -/
def beginsFunction (maySafe : Bool) (lexemes : List Lexeme) : Bool :=
  let lexemes := behindOptional (.word "async") (behindOptional (.word "const") lexemes)
  let lexemes :=
    if maySafe && Form.begins (.word "safe") lexemes then lexemes.drop 1
    else behindOptional (.word "unsafe") lexemes
  let lexemes :=
    if Form.begins (.word "extern") lexemes then behindOptional .text (lexemes.drop 1)
    else lexemes
  Form.begins (.word "fn") lexemes

/-- Whether lexemes begin with the receiver of a method. -/
def beginsReceiver (lexemes : List Lexeme) : Bool :=
  let lexemes :=
    if beginWith [.sign "&"] lexemes then behindOptional .lifetime (lexemes.drop 1) else lexemes
  Form.begins (.word "self") (behindOptional (.word "mut") lexemes)

def receiver (grammar : Grammar) : Copier Unit := do
  let isReference ← copyIf (.sign "&")
  if isReference then
    let _ ← copyIf .lifetime
  let _ ← copyIf (.word "mut")
  copy (.word "self")
  if !isReference then
    if ← copyIf (.sign ":") then grammar (.type true)

/-- Copies an argument of a function.  One that is a type alone gets a name. -/
def functionArgument (grammar : Grammar) : Copier Unit := do
  outerAttributes grammar
  if ← copyIf (.sign "...") then return
  if beginsReceiver (← ahead) then receiver grammar
  else if ← isAtAll [.name, .sign "<"] then
    write [⟨.word, ['_'], false⟩, mark ':']
    grammar (.type true)
  else
    alternative grammar
    copy (.sign ":")
    if !(← copyIf (.sign "...")) then grammar (.type true)

/-- Copies the head of a function, and tells whether it is marked as safe. -/
def functionHead (grammar : Grammar) : Copier Bool := do
  let _ ← copyIf (.word "const")
  let _ ← copyIf (.word "async")
  let isSafe ← copyIf (.word "safe")
  let _ ← copyIf (.word "unsafe")
  callingConvention
  copy (.word "fn")
  copy .name
  let _ ← genericParameters grammar
  bracketed '(' (listOf (functionArgument grammar))
  resultType grammar true
  let _ ← whereConditions grammar
  return isSafe

def functionBody (grammar : Grammar) : Copier Bool := do
  if ← copyIf (.sign ";") then return false
  grammar .block
  return true

/-! ## Definitions

Constants, variables of the program and types are defined alike in several places, but not
every part may be there in each of them.  The copiers tell which parts there are.
-/

structure ConstantForm where
  isGeneric : Bool
  hasValue : Bool
deriving DecidableEq, Repr

def constant (grammar : Grammar) : Copier ConstantForm := do
  copy (.word "const")
  copy .anyWord
  let hasParameters ← genericParameters grammar
  copy (.sign ":")
  grammar (.type true)
  let hasValue ← optionalValue grammar
  let hasConditions ← whereConditions grammar
  copy (.sign ";")
  return { isGeneric := hasParameters || hasConditions, hasValue }

/-- Copies a variable of the program, and tells whether its type and its value are as
expected. -/
def staticVariable (grammar : Grammar) : Copier (Bool × Bool) := do
  copy (.word "static")
  let _ ← copyIf (.word "mut")
  copy .name
  let hasType ← copyIf (.sign ":")
  if hasType then grammar (.type true)
  let hasValue ← optionalValue grammar
  copy (.sign ";")
  return (hasType, hasValue)

structure TypeForm where
  hasColon : Bool
  hasDefinition : Bool
deriving DecidableEq, Repr

/-- Copies the definition of a type.  Conditions may stand in front of the equals sign or
behind what follows it. -/
def typeDefinition (grammar : Grammar) : Copier TypeForm := do
  copy (.word "type")
  copy .name
  let _ ← genericParameters grammar
  let hasColon ← isAt (.sign ":")
  optionalBounds grammar
  let _ ← whereConditions grammar
  let hasDefinition ← copyIf (.sign "=")
  if hasDefinition then grammar (.type true)
  let _ ← whereConditions grammar
  copy (.sign ";")
  return { hasColon, hasDefinition }

/-- Copies a named field.  A record in the place of its type stands for itself. -/
def namedField (grammar : Grammar) : Copier Unit := do
  outerAttributes grammar
  let _ ← visibility
  copy .anyWord
  copy (.sign ":")
  let lexemes ← ahead
  let isRecord := ["struct", "union"].any fun keyword =>
    beginWith [.word keyword, .opening '\x7b'] lexemes
  if isRecord then
    copyLexemes 1
    copyUnit
  else grammar (.type true)

def positionalField (grammar : Grammar) : Copier Unit := do
  outerAttributes grammar
  let _ ← visibility
  grammar (.type true)

def namedFields (grammar : Grammar) : Copier Unit := bracketed '\x7b' (listOf (namedField grammar))

def positionalFields (grammar : Grammar) : Copier Unit :=
  bracketed '(' (listOf (positionalField grammar))

/-- Copies a variant of an enumeration, whose visibility is left out. -/
def enumVariant (grammar : Grammar) : Copier Unit := do
  outerAttributes grammar
  let _ ← captured visibility
  copy .name
  if ← isAt (.opening '\x7b') then namedFields grammar
  else if ← isAt (.opening '(') then positionalFields grammar
  let _ ← optionalValue grammar

def enumeration (grammar : Grammar) : Copier Unit := do
  copy (.word "enum")
  copy .name
  let _ ← genericParameters grammar
  let _ ← whereConditions grammar
  bracketed '\x7b' (listOf (enumVariant grammar))

def recordType (grammar : Grammar) : Copier Unit := do
  copy .anyWord
  copy .name
  let _ ← genericParameters grammar
  let _ ← whereConditions grammar
  if ← isAt (.opening '\x7b') then namedFields grammar
  else
    if ← isAt (.opening '(') then
      positionalFields grammar
      let _ ← whereConditions grammar
    copy (.sign ";")

/-! ## Traits, implementations and foreign code

A member with a part that has no meaning in its place, or without one that is needed there,
stands for itself; so does an implementation of anything but a plain trait.
-/

/-- Copies an item that is expanded before it is read. -/
def expandedItem : Copier Unit := do
  plainPath
  copy (.sign "!")
  let _ ← copyIf .anyWord
  let isBraced ← isAt (.opening '\x7b')
  copyUnit
  if !isBraced then copy (.sign ";")

def traitMember (grammar : Grammar) : Copier Unit :=
  asItStandsOr do
    outerAttributes grammar
    let isVisible ← visibility
    let isDefault ← copyIf (.word "default")
    let lexemes ← ahead
    if beginsFunction false lexemes then
      let _ ← functionHead grammar
      let _ ← functionBody grammar
      return isVisible || isDefault
    if Form.begins (.word "const") lexemes then
      return (← constant grammar).isGeneric || isVisible || isDefault
    if Form.begins (.word "type") lexemes then
      let _ ← typeDefinition grammar
      return isVisible || isDefault
    expandedItem
    return false

/-- Copies a trait, or another name for bounds. -/
def traitItem (grammar : Grammar) : Copier Unit := do
  let _ ← copyIf (.word "unsafe")
  let _ ← copyIf (.word "auto")
  copy (.word "trait")
  copy .name
  let _ ← genericParameters grammar
  if ← copyIf (.sign "=") then
    bounds grammar
    let _ ← whereConditions grammar
    copy (.sign ";")
  else
    optionalBounds grammar
    let _ ← whereConditions grammar
    membersInBraces grammar (allOf (traitMember grammar))

def implementationMember (grammar : Grammar) : Copier Unit :=
  asItStandsOr do
    outerAttributes grammar
    let _ ← visibility
    if !(← isAtAll [.anyWord, .sign "!"]) then
      let _ ← copyIf (.word "default")
    let lexemes ← ahead
    if beginsFunction false lexemes then
      let _ ← functionHead grammar
      return !(← functionBody grammar)
    if Form.begins (.word "const") lexemes then
      let form ← constant grammar
      return form.isGeneric || !form.hasValue
    if Form.begins (.word "type") lexemes then
      let form ← typeDefinition grammar
      return form.hasColon || !form.hasDefinition
    expandedItem
    return false

/-- Whether lexemes begin with generic parameters, and not with a type in angle
brackets. -/
def beginsParameters (lexemes : List Lexeme) : Bool :=
  let behind := lexemes.drop 2
  beginWith [.sign "<", .sign ">"] lexemes || beginWith [.sign "<", .sign "#"] lexemes ||
    beginWith [.sign "<", .word "const"] lexemes ||
    ((beginWith [.sign "<", .lifetime] lexemes || beginWith [.sign "<", .name] lexemes) &&
      (beginWith [.sign ">"] behind || beginWith [.sign ","] behind ||
        beginWith [.sign "="] behind ||
        (beginWith [.sign ":"] behind && !beginWith [.sign "::"] behind)))

/-- Copies the trait that is implemented and the word behind it, if there is one; then the
type.  Tells whether the trait is a type of another form than a path. -/
def implementedTrait (grammar : Grammar) : Copier Bool := do
  let isPath ← (do
    path grammar false
    functionTypes grammar
    copy (.word "for")
    return true) <|> return false
  if isPath then
    grammar (.type true)
    return false
  grammar (.type true)
  let isOther ← copyIf (.word "for")
  if isOther then grammar (.type true)
  return isOther

/-- Copies an implementation, and tells whether it stands for itself. -/
def implementation (grammar : Grammar) : Copier Bool := do
  let isVisible ← visibility
  let _ ← copyIf (.word "default")
  let _ ← copyIf (.word "unsafe")
  copy (.word "impl")
  if beginsParameters (← ahead) then
    let _ ← genericParameters grammar
  let _ ← copyIf (.sign "?")
  let isConstant ← copyIf (.word "const")
  if !(← isAtAll [.sign "!", .opening '\x7b']) then
    let _ ← copyIf (.sign "!")
  let isOther ← implementedTrait grammar
  let _ ← whereConditions grammar
  membersInBraces grammar (allOf (implementationMember grammar))
  return isVisible || isConstant || isOther

def foreignMember (grammar : Grammar) : Copier Unit :=
  asItStandsOr do
    outerAttributes grammar
    let _ ← visibility
    let lexemes ← ahead
    if beginsFunction true lexemes then
      let isSafe ← functionHead grammar
      return (← functionBody grammar) || isSafe
    if Form.begins (.word "type") lexemes then
      let form ← typeDefinition grammar
      return form.hasColon || form.hasDefinition
    let isMarked := beginWith [.word "unsafe", .word "static"] lexemes ||
      beginWith [.word "safe", .word "static"] lexemes
    if isMarked || Form.begins (.word "static") lexemes then
      if isMarked then copyLexemes 1
      let (_, hasValue) ← staticVariable grammar
      return isMarked || hasValue
    expandedItem
    return false

def foreignItems (grammar : Grammar) : Copier Unit := do
  let _ ← copyIf (.word "unsafe")
  callingConvention
  membersInBraces grammar (allOf (foreignMember grammar))

/-! ## Items

Items are functions, constants, types, traits and what belongs to them, and modules.  One
with a part that has no meaning in its place, or without one that is needed, stands for
itself with its attributes.
-/

def moduleItem (grammar : Grammar) : Copier Unit := do
  let _ ← copyIf (.word "unsafe")
  copy (.word "mod")
  copy .name
  if !(← copyIf (.sign ";")) then membersInBraces grammar (allOf (grammar .item))

/-- Copies what stands behind the attributes of an item, and tells whether the item stands
for itself. -/
def itemBehindAttributes (grammar : Grammar) : Copier Bool := do
  let before ← get
  let _ ← visibility
  let lexemes ← ahead
  let begins (forms : List Form) := beginWith forms lexemes
  if beginsFunction false lexemes then
    let _ ← functionHead grammar
    return !(← functionBody grammar)
  if begins [.word "extern", .word "crate"] || begins [.word "use"] then
    copyThrough (.sign ";")
    return false
  if begins [.word "extern"] || begins [.word "unsafe", .word "extern"] then
    foreignItems grammar
    return false
  if begins [.word "static"] then
    let (hasType, hasValue) ← staticVariable grammar
    return !hasType || !hasValue
  if begins [.word "const"] then
    let form ← constant grammar
    return form.isGeneric || !form.hasValue
  if begins [.word "trait"] || begins [.word "auto", .word "trait"] ||
      begins [.word "unsafe", .word "trait"] || begins [.word "unsafe", .word "auto"] then
    traitItem grammar
    return false
  if begins [.word "mod"] || begins [.word "unsafe", .word "mod"] then
    moduleItem grammar
    return false
  if begins [.word "type"] then
    let form ← typeDefinition grammar
    return form.hasColon || !form.hasDefinition
  if begins [.word "struct"] || begins [.word "union", .name] then
    recordType grammar
    return false
  if begins [.word "enum"] then
    enumeration grammar
    return false
  if begins [.word "macro"] then
    copyLexemes 2
    copyUnit
    if ← isAt (.opening '\x7b') then copyUnit
    return true
  if begins [.word "impl"] || begins [.word "unsafe", .word "impl"] ||
      (begins [.word "default"] && !begins [.anyWord, .sign "!"]) then
    set before
    implementation grammar
  else
    expandedItem
    return false

def item (grammar : Grammar) : Copier Unit :=
  asItStandsOr do
    outerAttributes grammar
    itemBehindAttributes grammar

/-! ## Statements

A block holds statements: local variables, items, expressions and expansions.
-/

/-- The length of a path without generic arguments at the front of lexemes; there are not
more than `fuel` parts. -/
def plainPathLength : Nat → List Lexeme → Option Nat
  | 0, _ => none
  | fuel + 1, lexemes =>
      let isPart := [Form.name, .word "self", .word "Self", .word "super", .word "crate"].any
        fun form => form.begins lexemes
      if !isPart then none
      else if beginWith [.anyWord, .sign "::"] lexemes then
        (plainPathLength fuel (lexemes.drop 3)).map (· + 3)
      else some 1

/-- Lexemes behind the path at their front, if it is the name of an expansion: they begin
with an exclamation mark. -/
def behindExpansionName (lexemes : List Lexeme) : Option (List Lexeme) := do
  let leading := if beginWith [.sign "::"] lexemes then 2 else 0
  let length ← plainPathLength (lexemes.length + 1) (lexemes.drop leading)
  let behind := lexemes.drop (leading + length)
  guard (beginWith [.sign "!"] behind)
  return behind

/-- Whether lexemes begin with an expansion that defines something by a name. -/
def beginsDefinition (lexemes : List Lexeme) : Bool :=
  (behindExpansionName lexemes).any fun behind =>
    beginWith [.sign "!", .name] behind || beginWith [.sign "!", .word "try"] behind

def beginsBracedExpansion (lexemes : List Lexeme) : Bool :=
  (behindExpansionName lexemes).any fun behind =>
    beginWith [.sign "!", .opening '\x7b'] behind &&
      let rest := behindUnit (behind.drop 1)
      !(beginsSelection rest || beginWith [.sign "?"] rest)

/-- Whether lexemes begin with the word `static` or `const` of an item, and not with that
of an expression. -/
def beginsStaticOrConstant (lexemes : List Lexeme) : Bool :=
  let begins (forms : List Form) := beginWith forms lexemes
  (begins [.word "static"] &&
    (begins [.anyWord, .word "mut"] || begins [.anyWord, .name])) ||
  (begins [.word "const"] &&
    !(begins [.anyWord, .opening '\x7b'] || begins [.anyWord, .word "static"] ||
      begins [.anyWord, .word "move"] || begins [.anyWord, .sign "|"] ||
      (begins [.anyWord, .word "async"] &&
        !(begins [.anyWord, .anyWord, .word "unsafe"] ||
          begins [.anyWord, .anyWord, .word "extern"] ||
          begins [.anyWord, .anyWord, .word "fn"]))))

def beginsItem (lexemes : List Lexeme) : Bool :=
  let begins (forms : List Form) := beginWith forms lexemes
  ["pub", "extern", "use", "fn", "mod", "type", "struct", "enum", "trait", "impl", "macro"].any
      (fun keyword => begins [.word keyword]) ||
    (begins [.word "crate"] && !begins [.anyWord, .sign "::"]) ||
    beginsStaticOrConstant lexemes ||
    (begins [.word "unsafe"] && !begins [.anyWord, .opening '\x7b']) ||
    (begins [.word "async"] && ["unsafe", "extern", "fn"].any
      fun keyword => begins [.anyWord, .word keyword]) ||
    begins [.word "union", .name] || begins [.word "auto", .word "trait"] ||
    begins [.word "default", .word "unsafe"] || begins [.word "default", .word "impl"] ||
    beginsDefinition lexemes

def localVariables (grammar : Grammar) : Copier Unit := do
  copy (.word "let")
  alternative grammar
  if ← copyIf (.sign ":") then grammar (.type true)
  if ← optionalValue grammar then
    if ← copyIf (.word "else") then grammar .block
  copy (.sign ";")

/-- Copies a statement that is no item, behind its attributes. -/
def statementBehindAttributes (grammar : Grammar) (attributes : List Lexeme) :
    Copier Unit := do
  if ← isAt (.word "let") then
    write attributes
    localVariables grammar
  else
    if beginsBracedExpansion (← ahead) then
      write attributes
      plainPath
      expansion
    else expressionStatement grammar attributes
    let _ ← copyIf (.sign ";")

def statement (grammar : Grammar) : Copier Unit := do
  if ← copyIf (.sign ";") then return
  let behind := behindAttributes (← ahead)
  if beginsItem behind && !beginsBracedExpansion behind then grammar .item
  else
    let (_, attributes) ← captured (outerAttributes grammar)
    statementBehindAttributes grammar attributes

def block (grammar : Grammar) : Copier Unit := membersInBraces grammar (allOf (statement grammar))

end FieldWiring.Source.Arrangement
