import FieldWiring.Generator
import FieldWiring.Source.Arrangement

/-!
# Annotated declarations

A target may be declared next to the type that it describes: the type's named members
become the fields, and attributes say which of them are injected and which component
owns the target.
-/

namespace FieldWiring

/-! ## Attributes

A declaration and its members carry attributes: a path, alone, with a value, or with
arguments.  The arguments are source code, in which each one should set a key to a text
literal.  What else may stand there is described too, because each deviation has its own
complaint and the first one from the left is the one reported.
-/

/-- Why a declaration does not describe a target. -/
inductive DeclarationError where
  | notStruct
  | generic
  | unnamedMembers
  /-- A member's attribute is a form or has a key that is not known. -/
  | unsupportedInject
  /-- The declaration's attribute has a key that is not known. -/
  | unsupportedTarget
  | missingComponent
  /-- The declaration's attribute stands alone. -/
  | missingArguments
  /-- The declaration's attribute has a value in the place of arguments. -/
  | missingParentheses
  /-- There is nothing where a key should stand. -/
  | missingKey
  /-- There is a literal where a key should stand. -/
  | literalForKey
  /-- There is something else where a key should stand. -/
  | otherForKey
  /-- The path of a key is not continued by a word. -/
  | missingWord
  /-- The path of a key is not continued at all. -/
  | endForWord
  | missingEquals
  /-- A known key is set to something that is not a text literal. -/
  | missingLiteral
  /-- A known key is set to nothing, and nothing follows. -/
  | endForLiteral
  /-- A text literal is followed by something that is not a comma. -/
  | missingComma
deriving DecidableEq, Repr

def DeclarationError.message : DeclarationError → String
  | notStruct => "Can only derive InjectionTarget on structs!"
  | generic => "Cannot derive InjectionTarget on generic structs!"
  | unnamedMembers => "Can only derive InjectionTarget on structs with named fields!"
  | unsupportedInject => "Unsupported inject attribute!"
  | unsupportedTarget => "Unsupported injection_target attribute!"
  | missingComponent => "Missing owning component: #[injection_target(component = \"...\")]"
  | missingArguments =>
      "expected attribute arguments in parentheses: #[injection_target(...)]"
  | missingParentheses => "expected parentheses: #[injection_target(...)]"
  | missingKey => "unexpected end of input, expected nested attribute"
  | literalForKey => "unexpected literal in nested attribute, expected ident"
  | otherForKey => "unexpected token in nested attribute, expected ident"
  | missingWord => "expected ident"
  | endForWord => "unexpected end of input, expected ident"
  | missingEquals => "expected `=`"
  | missingLiteral => "expected string literal"
  | endForLiteral => "unexpected end of input, expected string literal"
  | missingComma => "expected `,`"

open Source (Token)

inductive Setting where
  | absent
  /-- An equals sign and a quoted text. -/
  | text (value : String)
  /-- An equals sign and source code. -/
  | code (source : String)
  /-- A list in parentheses. -/
  | nested
deriving DecidableEq, Repr

def Setting.tokens : Setting → List Token
  | absent => []
  | text value => [.equals, .text value]
  | code source => .equals :: Source.tokens source
  | nested => [.other]

/-- An argument of an attribute: the source of its key, what stands behind the key, and
the source between that and the next comma. -/
structure Argument where
  key : String
  setting : Setting
  trailing : String := ""
deriving DecidableEq, Repr

def Argument.tokens (argument : Argument) : List Token :=
  Source.tokens argument.key ++ argument.setting.tokens ++ Source.tokens argument.trailing

/-- What stands behind the path of an attribute.  Arguments are separated by commas, and
there may be one at the end. -/
inductive Content where
  | bare
  | value (text : String)
  | arguments (arguments : List Argument) (trailingComma : Bool)
deriving DecidableEq, Repr

/-- An attribute of a declaration or a member, with the source of its path. -/
structure Attribute where
  path : String
  content : Content
deriving DecidableEq, Repr

def argumentTokens (arguments : List Argument) (trailingComma : Bool) : List Token :=
  [Token.comma].intercalate (arguments.map Argument.tokens) ++
    if trailingComma then [.comma] else []

/-- What is wrong behind the first word of a path that is no known key: it is not
continued properly, or else it is `unknown`. -/
def pathFault (unknown : DeclarationError) : List Token → DeclarationError
  | .separator :: .word _ :: rest => pathFault unknown rest
  | [.separator] => .endForWord
  | .separator :: _ => .missingWord
  | _ => unknown

/-- What is wrong with tokens that do not begin with a known key.  A path may have a
separator at its front, but such a path is `unknown`. -/
def keyFault (unknown : DeclarationError) (tokens : List Token) : DeclarationError :=
  let path := match tokens with
    | .separator :: rest => rest
    | _ => tokens
  match path with
  | .word _ :: rest => pathFault unknown rest
  | [] => .missingKey
  | .text _ :: _ | .number :: _ | .literal :: _ | .minus :: .number :: _ => .literalForKey
  | _ => .otherForKey

/-- What is wrong behind a known key that is not set to a text literal. -/
def settingFault (unknown : DeclarationError) : List Token → DeclarationError
  | .equals :: .text _ :: _ => .missingComma
  | [.equals] => .endForLiteral
  | .equals :: _ => .missingLiteral
  | tokens@(.separator :: _) => pathFault unknown tokens
  | _ => .missingEquals

/-- Reads arguments as keys with their texts, up to the first fault.  A key that is not
known is reported before anything behind it. -/
def readArguments (known : List String) (unknown : DeclarationError) :
    List Token → Except DeclarationError (List (String × String))
  | [] => .ok []
  | [.word key, .equals, .text value] =>
      if key ∈ known then .ok [(key, value)] else .error unknown
  | .word key :: .equals :: .text value :: .comma :: rest =>
      if key ∈ known then (readArguments known unknown rest).map ((key, value) :: ·)
      else .error unknown
  | .word key :: rest =>
      .error (if key ∈ known then settingFault unknown rest else pathFault unknown rest)
  | tokens => .error (keyFault unknown tokens)

def lastSetting? (settings : List (String × String)) (key : String) : Option String :=
  settings.reverse.lookup key

/-- The first attribute whose path is exactly this word. -/
def findAttribute? (attributes : List Attribute) (path : String) : Option Attribute :=
  attributes.find? fun attr => Source.tokens attr.path == [.word path]

namespace Attribute

/-- The type name that a member's attribute states in the place of the declared type. -/
def statedType (attr : Attribute) : Except DeclarationError (Option String) :=
  match attr.content with
  | .bare => .ok none
  | .value _ => .error .unsupportedInject
  | .arguments arguments trailingComma =>
      (readArguments ["type_name"] .unsupportedInject
        (argumentTokens arguments trailingComma)).map (lastSetting? · "type_name")

def targetSettings (attr : Attribute) :
    Except DeclarationError (List (String × String)) :=
  match attr.content with
  | .bare => .error .missingArguments
  | .value _ => .error .missingParentheses
  | .arguments arguments trailingComma =>
      readArguments ["component", "name", "type_name"] .unsupportedTarget
        (argumentTokens arguments trailingComma)

end Attribute

/-! ## Declarations

A target may be declared next to the type that it describes: the type's named members
become the fields, and attributes say which of them are injected and which component
owns the target.  Reading such a declaration yields a request, or the first fault in
the order body, generics, members, owner.
-/

/-- A member of a declared type, with the sources of its name and its type. -/
structure Member where
  name : String
  declaredType : String
  attributes : List Attribute
deriving DecidableEq, Repr

inductive Body where
  | named (members : List Member)
  /-- A struct whose members have positions only. -/
  | tuple (members : List Member)
  | unit
  | enumeration
  | union
deriving DecidableEq, Repr

/-- A declared type, with the sources of its name and its generics.  The generics are in
angle brackets; neither them being empty nor a where clause matters. -/
structure Declaration where
  name : String
  generics : String := ""
  whereClause : Option String := none
  attributes : List Attribute
  body : Body
deriving DecidableEq, Repr

namespace Member

def fieldName (member : Member) : String := Source.condensed member.name

def typeName (member : Member) : String := Source.typeName member.declaredType

/-- The field that a member describes.  It is injected if it has an `inject` attribute;
only the first such attribute is read. -/
def field (member : Member) : Except DeclarationError Field :=
  match findAttribute? member.attributes "inject" with
  | none => .ok ⟨member.fieldName, member.typeName, false⟩
  | some attr =>
      attr.statedType.map fun stated =>
        ⟨member.fieldName, stated.getD member.typeName, true⟩

end Member

namespace Body

def isStruct : Body → Bool
  | named _ | tuple _ | unit => true
  | enumeration | union => false

def fields : Body → Except DeclarationError (List Field)
  | named members => members.mapM Member.field
  | tuple _ => .error .unnamedMembers
  | unit => .ok []
  | enumeration | union => .error .notStruct

end Body

namespace Declaration

def isGeneric (declaration : Declaration) : Bool :=
  let parameters := Source.condensed declaration.generics
  parameters != "" && parameters != "<>"

def settings (declaration : Declaration) : Except DeclarationError (List (String × String)) :=
  match findAttribute? declaration.attributes "injection_target" with
  | none => .error .missingComponent
  | some attr => attr.targetSettings

/-- Names the owner and the target.  A target without a name is called like the type,
and one without a type name by its simple name. -/
def describe (declaration : Declaration) (fields : List Field)
    (settings : List (String × String)) : Except DeclarationError Request :=
  match lastSetting? settings "component" with
  | none => .error .missingComponent
  | some component =>
      let simpleName := (lastSetting? settings "name").getD (Source.condensed declaration.name)
      let typeName := (lastSetting? settings "type_name").getD simpleName
      .ok ⟨component, ⟨simpleName, typeName, fields⟩⟩

def request (declaration : Declaration) : Except DeclarationError Request :=
  if declaration.body.isStruct = false then .error .notStruct
  else if declaration.isGeneric then .error .generic
  else do
    let fields ← declaration.body.fields
    let settings ← declaration.settings
    declaration.describe fields settings

end Declaration

end FieldWiring
