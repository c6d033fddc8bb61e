import Mathlib.Data.List.Pairwise
import FieldWiring.Proofs.Arrangement

/-!
# Ordinary types

The types that fields are declared with: paths with generic arguments, qualified paths, tuples,
arrays and slices, references and pointers, function types, and bounds of traits.  A grammar
relates the lexemes of each to the text that it is printed as.  The text differs from the
lexemes in one place alone, a list of generic arguments, where lifetimes come first.
-/

namespace FieldWiring.Source

open Arrangement (spelled spelled_append)

/-! ## Generic arguments -/

/-- A generic argument as it is printed. -/
structure GenericArgument where
  text : List Char
  isLifetime : Bool
deriving DecidableEq, Repr

namespace GenericArgument

/-- Arguments with commas between them, and one behind the last if a comma ends them. -/
def joined (arguments : List GenericArgument) (endsWithComma : Bool) : List Char :=
  [','].intercalate (arguments.map text) ++
    if endsWithComma && !arguments.isEmpty then [','] else []

/-- Whether the last argument is a lifetime that another argument is printed behind. -/
def lastMoves (arguments : List GenericArgument) : Bool :=
  (arguments.getLast?.any isLifetime) && arguments.any fun argument => !argument.isLifetime

/-- Arguments are printed with the lifetimes first.  A comma that stands behind an argument
stays with it, and so does the comma of one that was followed by a lifetime. -/
def printed (arguments : List GenericArgument) (endsWithComma : Bool) : List Char :=
  joined (arguments.filter isLifetime ++ arguments.filter fun argument => !argument.isLifetime)
    (endsWithComma || lastMoves arguments)

/-- No lifetime stands behind another argument. -/
def LifetimesLead (arguments : List GenericArgument) : Prop :=
  arguments.Pairwise fun earlier later => later.isLifetime = true → earlier.isLifetime = true

/-- Where lifetimes lead, putting them first changes nothing. -/
theorem LifetimesLead.filter_append {arguments : List GenericArgument}
    (hlead : LifetimesLead arguments) :
    arguments.filter isLifetime ++ arguments.filter (fun argument => !argument.isLifetime) =
      arguments := by
  induction arguments with
  | nil => rfl
  | cons first rest ih =>
      obtain ⟨hfirst, hrest⟩ := List.pairwise_cons.mp hlead
      cases hlifetime : first.isLifetime with
      | true => simp [hlifetime, ih hrest]
      | false =>
          have hnone : ∀ argument ∈ rest, argument.isLifetime = false := by
            intro argument hmem
            by_contra h
            exact absurd (hfirst argument hmem (by simpa using h)) (by simp [hlifetime])
          have hlifetimes : rest.filter isLifetime = [] := by
            rw [List.filter_eq_nil_iff]
            simpa using hnone
          have hothers : rest.filter (fun argument => !argument.isLifetime) = rest := by
            rw [List.filter_eq_self]
            simpa using hnone
          simp [hlifetime, hlifetimes, hothers]

theorem lastMoves_concat (front : List GenericArgument) (last : GenericArgument) :
    lastMoves (front ++ [last]) =
      (last.isLifetime && front.any fun argument => !argument.isLifetime) := by
  cases hlifetime : last.isLifetime <;> simp [lastMoves, hlifetime]

theorem LifetimesLead.lastMoves_eq_false {arguments : List GenericArgument}
    (hlead : LifetimesLead arguments) : lastMoves arguments = false := by
  rcases List.eq_nil_or_concat arguments with hnil | ⟨front, last, hsplit⟩
  · rw [hnil]
    rfl
  · rw [hsplit, List.concat_eq_append] at hlead ⊢
    obtain ⟨-, -, hbefore⟩ := List.pairwise_append.mp hlead
    rw [lastMoves_concat]
    cases hlast : last.isLifetime with
    | false => rfl
    | true =>
        have hfront : ∀ argument ∈ front, argument.isLifetime = true := fun argument hmem =>
          hbefore argument hmem last (List.mem_singleton_self last) hlast
        simpa using hfront

/-- Arguments whose lifetimes lead are printed in their order, with the commas they have. -/
theorem LifetimesLead.printed_eq {arguments : List GenericArgument}
    (hlead : LifetimesLead arguments) (endsWithComma : Bool) :
    printed arguments endsWithComma = joined arguments endsWithComma := by
  rw [printed, hlead.filter_append, hlead.lastMoves_eq_false, Bool.or_false]

end GenericArgument

/-! ## Names, lengths and constants -/

def wordOf (spelling : List Char) : Lexeme := ⟨.word, spelling, false⟩

def keyword (spelling : String) : Lexeme := wordOf spelling.toList

/-- A mark, which may be joined to the next. -/
def markOf (symbol : Char) (joined : Bool) : Lexeme := ⟨.mark, [symbol], joined⟩

def lifetimeOf (spelling : List Char) : Lexeme := ⟨.lifetime, spelling, false⟩

/-- The two colons between the parts of a path. -/
def colons (joined : Bool) : List Lexeme := [markOf ':' true, markOf ':' joined]

def openingOf (bracket : Char) : Lexeme := ⟨.opening, [bracket], false⟩

def closingOf (bracket : Char) : Lexeme := ⟨.closing, [bracket], false⟩

def inBrackets (bracket closing : Char) (content : List Lexeme) : List Lexeme :=
  openingOf bracket :: content ++ [closingOf closing]

theorem length_inBrackets (bracket closing : Char) (content : List Lexeme) :
    (inBrackets bracket closing content).length = content.length + 2 := by
  simp [inBrackets]

theorem inBrackets_append (bracket closing : Char) (content rest : List Lexeme) :
    inBrackets bracket closing content ++ rest =
      openingOf bracket :: (content ++ closingOf closing :: rest) := by
  simp [inBrackets]

theorem length_colons (joined : Bool) : (colons joined).length = 2 := rfl

/-- A word that is no keyword. -/
def IsName (spelling : List Char) : Prop := String.ofList spelling ∉ Arrangement.keywords

instance : DecidablePred IsName := fun _ => inferInstanceAs (Decidable (¬ _))

/-- The keywords that can stand where a path has a name. -/
def pathKeywords : List (List Char) :=
  ["Self".toList, "self".toList, "super".toList, "crate".toList]

/-- The names of a path without generic arguments. -/
inductive IsNamePath : List Lexeme → Prop where
  | last {name : List Char} (hname : IsName name ∨ name ∈ pathKeywords) :
      IsNamePath [wordOf name]
  | cons {name : List Char} (joined : Bool) {rest : List Lexeme}
      (hname : IsName name ∨ name ∈ pathKeywords) (hrest : IsNamePath rest) :
      IsNamePath (wordOf name :: colons joined ++ rest)

/-- The operators that can stand in the length of an array. -/
def operatorSymbols : List Char := ['+', '-', '*', '/', '%']

mutual

/-- An operand of a length: a number, the name of a constant, or a length in parentheses. -/
inductive IsOperand : List Lexeme → Prop where
  | number (spelling : List Char) : IsOperand [⟨.number, spelling, false⟩]
  | name {lexemes : List Lexeme} (hpath : IsNamePath lexemes) : IsOperand lexemes
  | group {lexemes : List Lexeme} (hlength : IsLength lexemes) :
      IsOperand (inBrackets '(' ')' lexemes)

/-- The length of an array: an operand, and what is applied to it. -/
inductive IsLength : List Lexeme → Prop where
  | operands {first more : List Lexeme} (hfirst : IsOperand first) (hmore : AreApplied more) :
      IsLength (first ++ more)

/-- Operators, each with an operand behind it. -/
inductive AreApplied : List Lexeme → Prop where
  | nil : AreApplied []
  | cons (joined : Bool) {symbol : Char} (hsymbol : symbol ∈ operatorSymbols)
      {operand more : List Lexeme} (hoperand : IsOperand operand) (hmore : AreApplied more) :
      AreApplied (markOf symbol joined :: operand ++ more)

end

theorem isLength_number (spelling : List Char) : IsLength [⟨.number, spelling, false⟩] :=
  .operands (.number spelling) .nil

/-- A literal as a generic argument. -/
inductive IsConstant : List Lexeme → Prop where
  | literal {kind : Kind} (hkind : kind ∈ [Kind.number, Kind.text, Kind.literal])
      (spelling : List Char) : IsConstant [⟨kind, spelling, false⟩]
  | truth {spelling : String} (hspelling : spelling ∈ ["true", "false"]) :
      IsConstant [keyword spelling]
  | negative (joined : Bool) (spelling : List Char) :
      IsConstant [markOf '-' joined, ⟨.number, spelling, false⟩]

/-- The lifetimes that a binder introduces, with commas between them. -/
inductive AreLifetimes : List Lexeme → Prop where
  | nil : AreLifetimes []
  | last (name : List Char) : AreLifetimes [lifetimeOf name]
  | cons (name : List Char) (joined : Bool) {rest : List Lexeme} (hrest : AreLifetimes rest) :
      AreLifetimes (lifetimeOf name :: markOf ',' joined :: rest)

inductive IsBinder : List Lexeme → Prop where
  | lifetimes (joined behind : Bool) {names : List Lexeme} (hnames : AreLifetimes names) :
      IsBinder (keyword "for" :: markOf '<' joined :: names ++ [markOf '>' behind])

/-- What stands in front of the type that is pointed to. -/
inductive IsIndirection : List Lexeme → Prop where
  | reference (joined : Bool) : IsIndirection [markOf '&' joined]
  | lasting (joined : Bool) (name : List Char) :
      IsIndirection [markOf '&' joined, lifetimeOf name]
  | changeable (joined : Bool) : IsIndirection [markOf '&' joined, keyword "mut"]
  | both (joined : Bool) (name : List Char) :
      IsIndirection [markOf '&' joined, lifetimeOf name, keyword "mut"]
  | pointer (joined : Bool) {access : String} (haccess : access ∈ ["const", "mut"]) :
      IsIndirection [markOf '*' joined, keyword access]

/-- What stands in front of a trait in a bound. -/
inductive IsBoundStart : List Lexeme → Prop where
  | none : IsBoundStart []
  | relaxed (joined : Bool) : IsBoundStart [markOf '?' joined]
  | binder {binder : List Lexeme} (hbinder : IsBinder binder) : IsBoundStart binder

/-- What is stated about how a function is called. -/
inductive IsConvention : List Lexeme → Prop where
  | none : IsConvention []
  | foreign : IsConvention [keyword "extern"]
  | named (spelling : List Char) : IsConvention [keyword "extern", ⟨.text, spelling, false⟩]

/-- What stands in front of the parameters of a function type, behind its binder. -/
inductive IsFunctionHead : List Lexeme → Prop where
  | checked {convention : List Lexeme} (hconvention : IsConvention convention) :
      IsFunctionHead (convention ++ [keyword "fn"])
  | unchecked {convention : List Lexeme} (hconvention : IsConvention convention) :
      IsFunctionHead (keyword "unsafe" :: convention ++ [keyword "fn"])

inductive IsFunctionStart : List Lexeme → Prop where
  | plain {head : List Lexeme} (hhead : IsFunctionHead head) : IsFunctionStart head
  | binder {binder head : List Lexeme} (hbinder : IsBinder binder)
      (hhead : IsFunctionHead head) : IsFunctionStart (binder ++ head)

/-! ## Types

The grammar is given a property, which the arguments in every list have.
-/

section

variable (Permits : List GenericArgument → Prop)

mutual

/-- The lexemes are a type, printed as this text; whether it may be a sum of bounds. -/
inductive IsType : Bool → List Lexeme → List Char → Prop where
  | applied (isSum : Bool) {lexemes : List Lexeme} {text : List Char}
      (happlied : IsApplied lexemes text) : IsType isSum lexemes text
  | qualified (isSum opened closed joined : Bool) {owner segments : List Lexeme}
      {ownerText text : List Char} (howner : IsType true owner ownerText)
      (hsegments : AreSegments segments text) :
      IsType isSum
        (markOf '<' opened :: owner ++ markOf '>' closed :: colons joined ++ segments)
        ('<' :: ownerText ++ ">::".toList ++ text)
  | cast (isSum opened closed joined : Bool) {owner trait segments : List Lexeme}
      {ownerText traitText text : List Char} (howner : IsType true owner ownerText)
      (htrait : IsPath trait traitText) (hsegments : AreSegments segments text) :
      IsType isSum
        (markOf '<' opened :: owner ++ keyword "as" :: trait ++
          markOf '>' closed :: colons joined ++ segments)
        ('<' :: ownerText ++ "as".toList ++ traitText ++ ">::".toList ++ text)
  | function (isSum : Bool) {start parameters result : List Lexeme}
      {text resultText : List Char} (hstart : IsFunctionStart start)
      (hparameters : AreTypes parameters text) (hresult : IsResult result resultText) :
      IsType isSum (start ++ inBrackets '(' ')' parameters ++ result)
        (spelled start ++ '(' :: text ++ ')' :: resultText)
  | tuple (isSum : Bool) {lexemes : List Lexeme} {text : List Char}
      (htypes : AreTypes lexemes text) :
      IsType isSum (inBrackets '(' ')' lexemes) ('(' :: text ++ [')'])
  | slice (isSum : Bool) {lexemes : List Lexeme} {text : List Char}
      (helement : IsType true lexemes text) :
      IsType isSum (inBrackets '[' ']' lexemes) ('[' :: text ++ [']'])
  | array (isSum joined : Bool) {lexemes length : List Lexeme} {text : List Char}
      (helement : IsType true lexemes text) (hlength : IsLength length) :
      IsType isSum (inBrackets '[' ']' (lexemes ++ markOf ';' joined :: length))
        ('[' :: text ++ ';' :: spelled length ++ [']'])
  | indirect (isSum : Bool) {start lexemes : List Lexeme} {text : List Char}
      (hstart : IsIndirection start) (htarget : IsType false lexemes text) :
      IsType isSum (start ++ lexemes) (spelled start ++ text)
  | bounded (isSum : Bool) {introduction : String} {lexemes : List Lexeme} {text : List Char}
      (hintroduction : introduction ∈ ["dyn", "impl"]) (hbounds : AreBounds isSum lexemes text) :
      IsType isSum (keyword introduction :: lexemes) (introduction.toList ++ text)
  | never (isSum joined : Bool) : IsType isSum [markOf '!' joined] ['!']
  | inferred (isSum : Bool) : IsType isSum [keyword "_"] ['_']

/-- A path, to which the types of a function may be applied. -/
inductive IsApplied : List Lexeme → List Char → Prop where
  | path {lexemes : List Lexeme} {text : List Char} (hpath : IsPath lexemes text) :
      IsApplied lexemes text
  | function {path parameters result : List Lexeme} {pathText text resultText : List Char}
      (hpath : IsPath path pathText) (hparameters : AreTypes parameters text)
      (hresult : IsResult result resultText) :
      IsApplied (path ++ inBrackets '(' ')' parameters ++ result)
        (pathText ++ '(' :: text ++ ')' :: resultText)

/-- A path, which may begin with a separator. -/
inductive IsPath : List Lexeme → List Char → Prop where
  | relative {lexemes : List Lexeme} {text : List Char} (hsegments : AreSegments lexemes text) :
      IsPath lexemes text
  | rooted (joined : Bool) {lexemes : List Lexeme} {text : List Char}
      (hsegments : AreSegments lexemes text) :
      IsPath (colons joined ++ lexemes) ("::".toList ++ text)

/-- The parts of a path. -/
inductive AreSegments : List Lexeme → List Char → Prop where
  | last {lexemes : List Lexeme} {text : List Char} (hsegment : IsSegment lexemes text) :
      AreSegments lexemes text
  | cons (joined : Bool) {segment rest : List Lexeme} {text restText : List Char}
      (hsegment : IsSegment segment text) (hrest : AreSegments rest restText) :
      AreSegments (segment ++ colons joined ++ rest) (text ++ "::".toList ++ restText)

inductive IsSegment : List Lexeme → List Char → Prop where
  | name {name : List Char} (hname : IsName name ∨ name ∈ pathKeywords) :
      IsSegment [wordOf name] name
  | generic {name : List Char} (opened closed : Bool) {lexemes : List Lexeme}
      {arguments : List GenericArgument} {endsWithComma : Bool}
      (hname : IsName name ∨ name = "Self".toList)
      (harguments : AreArguments lexemes arguments endsWithComma) (hpermits : Permits arguments) :
      IsSegment (wordOf name :: markOf '<' opened :: lexemes ++ [markOf '>' closed])
        (name ++ '<' :: GenericArgument.printed arguments endsWithComma ++ ['>'])

/-- Generic arguments; whether a comma ends them. -/
inductive AreArguments : List Lexeme → List GenericArgument → Bool → Prop where
  | nil : AreArguments [] [] false
  | last {lexemes : List Lexeme} {argument : GenericArgument}
      (hargument : IsArgument lexemes argument) : AreArguments lexemes [argument] false
  | cons (joined : Bool) {lexemes rest : List Lexeme} {argument : GenericArgument}
      {arguments : List GenericArgument} {endsWithComma : Bool}
      (hargument : IsArgument lexemes argument)
      (hrest : AreArguments rest arguments endsWithComma) :
      AreArguments (lexemes ++ markOf ',' joined :: rest) (argument :: arguments)
        (endsWithComma || arguments.isEmpty)

inductive IsArgument : List Lexeme → GenericArgument → Prop where
  | lifetime (name : List Char) : IsArgument [lifetimeOf name] ⟨name, true⟩
  | type {lexemes : List Lexeme} {text : List Char} (htype : IsType true lexemes text) :
      IsArgument lexemes ⟨text, false⟩
  | constant {lexemes : List Lexeme} (hconstant : IsConstant lexemes) :
      IsArgument lexemes ⟨spelled lexemes, false⟩
  | associated {name : List Char} (joined : Bool) {lexemes : List Lexeme} {text : List Char}
      (hname : IsName name) (htype : IsType true lexemes text) :
      IsArgument (wordOf name :: markOf '=' joined :: lexemes) ⟨name ++ '=' :: text, false⟩

/-- Types with commas between them. -/
inductive AreTypes : List Lexeme → List Char → Prop where
  | nil : AreTypes [] []
  | last {lexemes : List Lexeme} {text : List Char} (htype : IsType true lexemes text) :
      AreTypes lexemes text
  | cons (joined : Bool) {lexemes rest : List Lexeme} {text restText : List Char}
      (htype : IsType true lexemes text) (hrest : AreTypes rest restText) :
      AreTypes (lexemes ++ markOf ',' joined :: rest) (text ++ ',' :: restText)

/-- The result type of a function, if it is stated. -/
inductive IsResult : List Lexeme → List Char → Prop where
  | none : IsResult [] []
  | type (joined : Bool) {lexemes : List Lexeme} {text : List Char}
      (htype : IsType false lexemes text) :
      IsResult (markOf '-' true :: markOf '>' joined :: lexemes) ("->".toList ++ text)

inductive IsBound : List Lexeme → List Char → Prop where
  | lifetime (name : List Char) : IsBound [lifetimeOf name] name
  | trait {start lexemes : List Lexeme} {text : List Char} (hstart : IsBoundStart start)
      (happlied : IsApplied lexemes text) : IsBound (start ++ lexemes) (spelled start ++ text)

/-- A bound, or several in a sum. -/
inductive AreBounds : Bool → List Lexeme → List Char → Prop where
  | last (isSum : Bool) {lexemes : List Lexeme} {text : List Char}
      (hbound : IsBound lexemes text) : AreBounds isSum lexemes text
  | cons (joined : Bool) {lexemes rest : List Lexeme} {text restText : List Char}
      (hbound : IsBound lexemes text) (hrest : AreBounds true rest restText) :
      AreBounds true (lexemes ++ markOf '+' joined :: rest) (text ++ '+' :: restText)

end

end

/-- A name alone is a type. -/
theorem isType_name {Permits : List GenericArgument → Prop} (isSum : Bool) (name : List Char)
    (hname : IsName name) : IsType Permits isSum [wordOf name] name :=
  .applied isSum (.path (.relative (.last (.name (.inl hname)))))

theorem isType_generic {Permits : List GenericArgument → Prop} (name : List Char)
    {lexemes : List Lexeme} {arguments : List GenericArgument} {endsWithComma : Bool}
    (opened closed : Bool) (hname : IsName name)
    (harguments : AreArguments Permits lexemes arguments endsWithComma)
    (hpermits : Permits arguments) :
    IsType Permits true (wordOf name :: markOf '<' opened :: lexemes ++ [markOf '>' closed])
      (name ++ '<' :: GenericArgument.printed arguments endsWithComma ++ ['>']) :=
  .applied true
    (.path (.relative (.last (.generic opened closed (.inl hname) harguments hpermits))))

/-! ## Types that are printed as they are spelled -/

open GenericArgument (LifetimesLead)

theorem spelled_cons (first : Lexeme) (rest : List Lexeme) :
    spelled (first :: rest) = first.spelling ++ spelled rest := rfl

theorem spelled_nil : spelled [] = [] := rfl

theorem spelled_markOf (symbol : Char) (joined : Bool) (rest : List Lexeme) :
    spelled (markOf symbol joined :: rest) = symbol :: spelled rest := rfl

theorem spelled_wordOf (name : List Char) (rest : List Lexeme) :
    spelled (wordOf name :: rest) = name ++ spelled rest := rfl

theorem spelled_colons (joined : Bool) : spelled (colons joined) = "::".toList := rfl

theorem spelled_inBrackets (bracket closing : Char) (content : List Lexeme) :
    spelled (inBrackets bracket closing content) = bracket :: spelled content ++ [closing] := by
  rw [inBrackets, spelled_append]
  rfl

theorem GenericArgument.joined_cons (first : GenericArgument) (rest : List GenericArgument)
    (endsWithComma : Bool) : joined (first :: rest) (endsWithComma || rest.isEmpty) =
      first.text ++ ',' :: joined rest endsWithComma := by
  cases rest with
  | nil => cases endsWithComma <;> simp [joined]
  | cons second rest => simp [joined]

mutual

/-- Where lifetimes lead in every list, a type is printed as it is spelled. -/
theorem IsType.eq_spelled {isSum : Bool} {lexemes : List Lexeme} {text : List Char} :
    IsType LifetimesLead isSum lexemes text → text = spelled lexemes
  | .applied _ happlied => happlied.eq_spelled
  | .qualified _ opened closed joined howner hsegments => by
      rw [howner.eq_spelled, hsegments.eq_spelled]
      simp [spelled_append, spelled_markOf, spelled_colons]
  | .cast _ opened closed joined howner htrait hsegments => by
      rw [howner.eq_spelled, htrait.eq_spelled, hsegments.eq_spelled]
      simp [spelled_append, spelled_markOf, spelled_colons, keyword, spelled_wordOf]
  | .function _ hstart hparameters hresult => by
      rw [hparameters.eq_spelled, hresult.eq_spelled]
      simp [spelled_append, spelled_inBrackets]
  | .tuple _ htypes => by rw [htypes.eq_spelled, spelled_inBrackets]
  | .slice _ helement => by rw [helement.eq_spelled, spelled_inBrackets]
  | .array _ joined helement hlength => by
      rw [helement.eq_spelled]
      simp [spelled_append, spelled_inBrackets, spelled_markOf]
  | .indirect _ hstart htarget => by rw [htarget.eq_spelled, spelled_append]
  | .bounded _ hintroduction hbounds => by
      rw [hbounds.eq_spelled, keyword, spelled_wordOf]
  | .never _ joined => rfl
  | .inferred _ => rfl

theorem IsApplied.eq_spelled {lexemes : List Lexeme} {text : List Char} :
    IsApplied LifetimesLead lexemes text → text = spelled lexemes
  | .path hpath => hpath.eq_spelled
  | .function hpath hparameters hresult => by
      rw [hpath.eq_spelled, hparameters.eq_spelled, hresult.eq_spelled]
      simp [spelled_append, spelled_inBrackets]

theorem IsPath.eq_spelled {lexemes : List Lexeme} {text : List Char} :
    IsPath LifetimesLead lexemes text → text = spelled lexemes
  | .relative hsegments => hsegments.eq_spelled
  | .rooted joined hsegments => by rw [hsegments.eq_spelled, spelled_append, spelled_colons]

theorem AreSegments.eq_spelled {lexemes : List Lexeme} {text : List Char} :
    AreSegments LifetimesLead lexemes text → text = spelled lexemes
  | .last hsegment => hsegment.eq_spelled
  | .cons joined hsegment hrest => by
      rw [hsegment.eq_spelled, hrest.eq_spelled, spelled_append, spelled_append, spelled_colons]

theorem IsSegment.eq_spelled {lexemes : List Lexeme} {text : List Char} :
    IsSegment LifetimesLead lexemes text → text = spelled lexemes
  | .name hname => by simp [spelled_wordOf, spelled_nil]
  | .generic opened closed hname harguments hlead => by
      rw [hlead.printed_eq, harguments.eq_spelled]
      simp [spelled_append, spelled_markOf, spelled_wordOf, spelled_nil]

theorem AreArguments.eq_spelled {lexemes : List Lexeme} {arguments : List GenericArgument}
    {endsWithComma : Bool} : AreArguments LifetimesLead lexemes arguments endsWithComma →
      GenericArgument.joined arguments endsWithComma = spelled lexemes
  | .nil => rfl
  | .last hargument => by simp [GenericArgument.joined, hargument.eq_spelled]
  | .cons joined hargument hrest => by
      rw [GenericArgument.joined_cons, hargument.eq_spelled, hrest.eq_spelled, spelled_append,
        spelled_markOf]

theorem IsArgument.eq_spelled {lexemes : List Lexeme} {argument : GenericArgument} :
    IsArgument LifetimesLead lexemes argument → argument.text = spelled lexemes
  | .lifetime name => by simp [spelled, lifetimeOf]
  | .type htype => htype.eq_spelled
  | .constant hconstant => rfl
  | .associated joined hname htype => by
      rw [htype.eq_spelled, spelled_wordOf, spelled_markOf]

theorem AreTypes.eq_spelled {lexemes : List Lexeme} {text : List Char} :
    AreTypes LifetimesLead lexemes text → text = spelled lexemes
  | .nil => rfl
  | .last htype => htype.eq_spelled
  | .cons joined htype hrest => by
      rw [htype.eq_spelled, hrest.eq_spelled, spelled_append, spelled_markOf]

theorem IsResult.eq_spelled {lexemes : List Lexeme} {text : List Char} :
    IsResult LifetimesLead lexemes text → text = spelled lexemes
  | .none => rfl
  | .type joined htype => by
      rw [htype.eq_spelled, spelled_markOf, spelled_markOf]
      rfl

theorem IsBound.eq_spelled {lexemes : List Lexeme} {text : List Char} :
    IsBound LifetimesLead lexemes text → text = spelled lexemes
  | .lifetime name => by simp [spelled, lifetimeOf]
  | .trait hstart happlied => by rw [happlied.eq_spelled, spelled_append]

theorem AreBounds.eq_spelled {isSum : Bool} {lexemes : List Lexeme} {text : List Char} :
    AreBounds LifetimesLead isSum lexemes text → text = spelled lexemes
  | .last _ hbound => hbound.eq_spelled
  | .cons joined hbound hrest => by
      rw [hbound.eq_spelled, hrest.eq_spelled, spelled_append, spelled_markOf]

end

end FieldWiring.Source
