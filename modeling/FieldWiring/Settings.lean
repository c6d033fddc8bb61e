import FieldWiring.Json
import FieldWiring.Resolution

/-!
# Settings of the naming

The naming is set by a file and by the environment, over the defaults.  Both sources
are read as entries, the environment's behind the file's, and each text of the naming
is decided by its own slot, so that no setting depends on another one.
-/

namespace FieldWiring.Settings

/-! ## Keys

A key names a setting, or a place inside one: behind the name, each further step goes
into a table by a name or into a sequence by an index.  A key that is not of this form
stands for itself, and since every setting's name is of this form, such a key names no
setting.
-/

/-- One step from a value into a part of it. -/
inductive Step where
  | field (name : String)
  | index (value : Int)
deriving DecidableEq, Repr

structure KeyPath where
  root : String
  steps : List Step
deriving DecidableEq, Repr

namespace KeyPath

def isNameChar (c : Char) : Bool :=
  c.isAlphanum || c == '_' || c == '-' || c == ' '

def isPadding (c : Char) : Bool := c == ' ' || c == '\t'

def withoutPadding (text : List Char) : List Char :=
  ((text.dropWhile isPadding).reverse.dropWhile isPadding).reverse

/-- The index that a text in brackets stands for: digits, perhaps behind a minus sign,
whose value fits a signed 64-bit word. -/
def index? (text : List Char) : Option Int :=
  let read (sign : Int) (digits : List Char) : Option Int :=
    let value := sign * Json.digitsValue digits
    let bound : Int := Json.wordBound
    if digits ≠ [] ∧ digits.all Char.isDigit ∧ -bound ≤ value ∧ value < bound then some value
    else none
  match withoutPadding text with
  | '-' :: digits => read (-1) digits
  | digits => read 1 digits

mutual

/-- Reads the rest of a name, possibly nothing, and the steps behind it. -/
def readName : List Char → Option (List Char × List Step)
  | [] => some ([], [])
  | c :: rest =>
      if isNameChar c then (readName rest).map fun read => (c :: read.1, read.2)
      else if c = '.' then
        match readName rest with
        | some (first :: name, steps) => some ([], .field (String.ofList (first :: name)) :: steps)
        | _ => none
      else if c = '[' then
        (readBrackets rest).bind fun read =>
          (index? read.1).map fun value => ([], .index value :: read.2)
      else none

/-- Reads up to the closing bracket, and the steps behind it. -/
def readBrackets : List Char → Option (List Char × List Step)
  | [] => none
  | c :: rest =>
      if c = ']' then
        match readName rest with
        | some ([], steps) => some ([], steps)
        | _ => none
      else (readBrackets rest).map fun read => (c :: read.1, read.2)

end

/-- Reads a key as a path, if it is one. -/
def read? (key : String) : Option KeyPath :=
  match readName key.toList with
  | some (first :: name, steps) => some ⟨String.ofList (first :: name), steps⟩
  | _ => none

end KeyPath

/-! ## Slots

Each setting has a slot, into which the sources put their values one after the other.
A slot remembers of a sequence whether it was written as one in the file: the complaint
about it says so.
-/

/-- What the sources have put into a slot. -/
inductive Slot where
  | unset
  | text (value : String)
  | sequence (fromFile : Bool)
  | table
deriving DecidableEq, Repr

structure Entry where
  key : String
  value : Slot
deriving DecidableEq, Repr

namespace Slot

/-- The content of a slot that is set to a value in the file. -/
def ofJson : Json → Slot
  | .null => .unset
  | .bool value => .text (if value then "true" else "false")
  | .number value => .text value.text
  | .text value => .text value
  | .array _ => .sequence true
  | .object _ => .table

/-- The content of a slot after a value was put into a part of it. -/
def enter (slot : Slot) : Step → Slot
  | .field _ => .table
  | .index _ =>
      match slot with
      | .sequence fromFile => .sequence fromFile
      | _ => .sequence false

/-- The content of the slot with the given name after an entry. -/
def put (name : String) (slot : Slot) (entry : Entry) : Slot :=
  match KeyPath.read? entry.key with
  | none => slot
  | some path =>
      if path.root ≠ name then slot
      else match path.steps with
        | [] => entry.value
        | step :: _ => slot.enter step

/-- The content of the slot with the given name after all entries. -/
def ofEntries (name : String) (entries : List Entry) : Slot :=
  entries.foldl (put name) .unset

end Slot

/-! ## Sources

The naming is set by a file and by the environment, over the defaults.  Both sources
are read as entries, the environment's behind the file's, and each text of the naming
is decided by its own slot, so that no setting depends on another one.
-/

inductive SettingsError where
  /-- The file does not hold a value of the data format. -/
  | malformedFile
  /-- A sequence stands in the place of a text. -/
  | sequence (name : String) (fromFile : Bool)
  /-- A table stands in the place of a text. -/
  | table (name : String)
deriving DecidableEq, Repr

/-- The text shown to the user.  Only a sequence that the file holds points to the
file. -/
def SettingsError.message : SettingsError → String
  | malformedFile => "malformed settings in prefroom.json"
  | sequence name fromFile =>
      "invalid type: sequence, expected a string for key `" ++ name ++ "`" ++
        if fromFile then " in prefroom.json" else ""
  | table name => "invalid type: map, expected a string for key `" ++ name ++ "`"

/-- What the names of the environment's settings start with, in small letters. -/
def environmentStart : String := "prefroom_"

/-- The small letter of a character whose small letter is in the ASCII range; any other
character stays as it is.  The Kelvin sign is the only such character outside that
range. -/
def toSmall (c : Char) : Char :=
  if c = '\u212a' then 'k' else c.toLower

/-- The key that a variable of this name sets, if it is one for settings. -/
def environmentKey? (name : String) : Option String :=
  (environmentStart.toList.isPrefixOf? (name.toList.map toSmall)).map String.ofList

/-- The entries of the environment.  A variable's value is a text, whatever it holds. -/
def environmentEntries (environment : List (String × String)) : List Entry :=
  environment.filterMap fun setting =>
    (environmentKey? setting.1).map fun key => ⟨key, .text setting.2⟩

/-- The entries of the file.  A file that is not there, or is no text, makes none, and
neither does a value that is no object. -/
def fileEntries (file : Option ByteArray) : Except SettingsError (List Entry) :=
  match file.bind String.fromUTF8? with
  | none => .ok []
  | some text =>
      match Json.read? text.toList with
      | none => .error .malformedFile
      | some value => .ok (value.entries.map fun entry => ⟨entry.1, .ofJson entry.2⟩)

/-- The text in a slot, or the default if nothing is set. -/
def textOf (name default : String) (entries : List Entry) : Except SettingsError String :=
  match Slot.ofEntries name entries with
  | .unset => .ok default
  | .text value => .ok value
  | .sequence fromFile => .error (.sequence name fromFile)
  | .table => .error (.table name)

def naming (entries : List Entry) : Except SettingsError Naming := do
  let standard : Naming := {}
  let componentPrefix ← textOf "component_prefix" standard.componentPrefix entries
  let valuePrefix ← textOf "value_prefix" standard.valuePrefix entries
  let injectorSuffix ← textOf "injector_suffix" standard.injectorSuffix entries
  let parameterName ← textOf "param_name" standard.parameterName entries
  return { componentPrefix, valuePrefix, injectorSuffix, parameterName }

/-- Loads the naming from the contents of the file and the variables of the
environment, which override the file. -/
def load (file : Option ByteArray) (environment : List (String × String)) :
    Except SettingsError Naming := do
  let entries ← fileEntries file
  naming (entries ++ environmentEntries environment)

end FieldWiring.Settings
