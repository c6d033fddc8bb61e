import FieldWiring.Proofs.Refusal

/-!
# What sources stand for

Paths and arguments of attributes are given as source code, and read as tokens.  A source that
is put together from words, texts and signs stands for the tokens of these, whatever blanks
are between them.  So an attribute that is written plainly says what is written.
-/

namespace FieldWiring.Source

variable {name text rest : List Char} {tokens : List Token}

/-! ## The lexeme at the front -/

/-- What belongs to a lexeme that has been cut off is dropped. -/
theorem cut_eq_cut_drop (taken : Nat) (source : List Char) :
    cut taken source = cut 0 (source.drop taken) := by
  induction source generalizing taken with
  | nil => simp [cut]
  | cons first rest ih =>
      cases taken with
      | zero => rfl
      | succ taken => rw [cut, ih, List.drop_succ_cons]

theorem cut_of_front {first : Char} {tail : List Char} {kind : Kind}
    (hfront : front first (tail ++ rest) = (kind, tail.length)) :
    cut 0 (first :: (tail ++ rest)) =
      ⟨kind, first :: tail, kind = .mark && beginsMark rest⟩ :: cut 0 rest := by
  rw [cut, hfront]
  simp [cut_eq_cut_drop tail.length]

/-- A lexeme at the front that is no gap is the first one. -/
theorem lexemes_of_front {first : Char} {tail : List Char} {kind : Kind} (hkind : kind ≠ .gap)
    (hfront : front first (tail ++ rest) = (kind, tail.length)) :
    lexemes (first :: (tail ++ rest)) =
      ⟨kind, first :: tail, kind = .mark && beginsMark rest⟩ :: lexemes rest := by
  rw [lexemes, cut_of_front hfront, List.filter_cons_of_pos (by simpa using hkind), lexemes]

/-! ## Words -/

theorem lt_of_isAlphanum {c : Char} (hc : c.isAlphanum = true) : c.toNat < 0x80 := by
  change ((decide ('A'.val ≤ c.val ∧ c.val ≤ 'Z'.val) ||
    (decide ('a'.val ≤ c.val) && decide (c.val ≤ 'z'.val))) ||
    (decide ('0'.val ≤ c.val) && decide (c.val ≤ '9'.val))) = true at hc
  simp only [Bool.or_eq_true, Bool.and_eq_true, decide_eq_true_eq, UInt32.le_iff_toNat_le] at hc
  change ((65 ≤ c.toNat ∧ c.toNat ≤ 90) ∨ (97 ≤ c.toNat ∧ c.toNat ≤ 122)) ∨
    (48 ≤ c.toNat ∧ c.toNat ≤ 57) at hc
  omega

/-- No character of a word separates, in the ASCII range or beyond it. -/
theorem isSeparating_eq_false_of_isWordChar {c : Char} (hc : isWordChar c = true) :
    isSeparating c = false := by
  by_cases hascii : c.toNat < 0x80
  · have hall : ∀ code < 0x80, isWordChar (Char.ofNat code) = true →
        isSeparating (Char.ofNat code) = false := by decide
    have hcode := hall c.toNat hascii
    rw [Char.ofNat_toNat] at hcode
    exact hcode hc
  · have halphanum : c.isAlphanum = false :=
      Bool.eq_false_iff.mpr fun halphanum => hascii (lt_of_isAlphanum halphanum)
    have hunderscore : c ≠ '_' := by
      rintro rfl
      exact hascii (by decide)
    simpa [isWordChar, halphanum, hunderscore, Nat.le_of_not_lt hascii] using hc

/-- The characters are those of a word that begins with no digit. -/
structure IsWord (name : List Char) : Prop where
  begins : name.head?.any (fun c => !c.isDigit) = true
  chars : ∀ c ∈ name, isWordChar c = true

/-- A word does not go on here, nor does it turn out to be the beginning of a literal. -/
def EndsWord (rest : List Char) : Prop :=
  ∀ c ∈ rest.head?, isWordChar c = false ∧ c ∉ ['"', '\'', '#']

theorem EndsWord.not_mem_head? (hend : EndsWord rest) {tail : List Char}
    (htail : ∀ c ∈ tail, isWordChar c = true) :
    ∀ c ∈ (tail ++ rest).head?, c ∉ ['"', '\'', '#'] := by
  intro c hc hmem
  cases tail with
  | nil => exact (hend c hc).2 hmem
  | cons first tail =>
      obtain rfl : first = c := by simpa using hc
      have hword := htail first List.mem_cons_self
      simp only [List.mem_cons, List.not_mem_nil, or_false] at hmem
      rcases hmem with rfl | rfl | rfl <;> cases hword

/-- No raw literal begins without a hash or a quote. -/
theorem rawLength?_eq_none (hrest : ∀ c ∈ rest.head?, c ∉ ['"', '\'', '#']) :
    rawLength? rest = none := by
  cases rest with
  | nil => rfl
  | cons first rest =>
      have hfirst := hrest first rfl
      simp only [List.mem_cons, List.not_mem_nil, or_false, not_or] at hfirst
      have hbody : rawBody? (first :: rest) = none := by
        rw [rawBody?, List.dropWhile_cons_of_neg (by simpa using hfirst.2.2)]
        simp [hfirst.1]
      rw [rawLength?, hbody, Option.map_none]

/-- The letters that can announce a literal are followed by no quote here. -/
theorem literal?_of_word {first : Char} {tail : List Char}
    (hword : ∀ c ∈ first :: tail, isWordChar c = true) (hend : EndsWord rest) :
    literal? first (tail ++ rest) = none := by
  obtain ⟨hfirst, htail⟩ := List.forall_mem_cons.mp hword
  have hhead := hend.not_mem_head? htail
  have hraw : ∀ {c : Char} {raw : List Char}, tail ++ rest = c :: raw → isWordChar c = true →
      rawLength? raw = none := by
    intro c raw heq hc
    cases tail with
    | nil =>
        rw [List.nil_append] at heq
        exact absurd hc (Bool.eq_false_iff.mp (hend c (by rw [heq]; rfl)).1)
    | cons _ tail =>
        cases heq
        exact rawLength?_eq_none (hend.not_mem_head? (List.forall_mem_cons.mp htail).2)
  rw [literal?.eq_def]
  split
  · cases hfirst
  · rw [rawLength?_eq_none hhead, Option.map_none]
  · rename_i heq
    rw [heq] at hhead
    simp at hhead
  · rename_i heq
    rw [heq] at hhead
    simp at hhead
  · rename_i heq
    rw [heq] at hhead
    simp at hhead
  · rename_i heq
    rw [hraw heq (by decide), Option.map_none]
  · rename_i heq
    rw [hraw heq (by decide), Option.map_none]
  · cases hfirst
  · cases hfirst
  · rfl

theorem takeWhile_isWordChar {tail : List Char} (htail : ∀ c ∈ tail, isWordChar c = true)
    (hend : EndsWord rest) : (tail ++ rest).takeWhile isWordChar = tail := by
  have hrest : rest.takeWhile isWordChar = [] := by
    cases rest with
    | nil => rfl
    | cons c rest => exact List.takeWhile_cons_of_neg (by simp [(hend c rfl).1])
  rw [List.takeWhile_append_of_pos htail, hrest, List.append_nil]

theorem front_of_word {first : Char} {tail : List Char} (hdigit : first.isDigit = false)
    (hword : ∀ c ∈ first :: tail, isWordChar c = true) (hend : EndsWord rest) :
    front first (tail ++ rest) = (.word, tail.length) := by
  obtain ⟨hfirst, htail⟩ := List.forall_mem_cons.mp hword
  have hseparating := isSeparating_eq_false_of_isWordChar hfirst
  have hlength : wordLength (tail ++ rest) = tail.length := by
    rw [wordLength, takeWhile_isWordChar htail hend]
  rw [front.eq_def, literal?_of_word hword hend]
  dsimp only
  split
  · cases hfirst
  · cases hfirst
  · cases hfirst
  · cases hfirst
  · rename_i heq
    have hhead := hend.not_mem_head? htail
    rw [heq] at hhead
    simp at hhead
  · simp [hseparating, hdigit, hfirst, hlength]

/-- A word is one lexeme, and what follows is cut for itself. -/
theorem lexemes_word_append (hname : IsWord name) (hend : EndsWord rest) :
    lexemes (name ++ rest) = ⟨.word, name, false⟩ :: lexemes rest := by
  cases name with
  | nil => cases hname.begins
  | cons first tail =>
      have hdigit : first.isDigit = false := by simpa using hname.begins
      exact lexemes_of_front (by decide) (front_of_word hdigit hname.chars hend)

/-! ## Texts, signs and blanks -/

/-- The characters stand for themselves between quotes. -/
def IsText (text : List Char) : Prop := ∀ c ∈ text, c ≠ '"' ∧ c ≠ '\\' ∧ c ≠ '\r'

/-- A text ends at the first quote behind it. -/
theorem quotedLength_append (htext : IsText text) (rest : List Char) :
    quotedLength '"' (text ++ '"' :: rest) = text.length + 1 := by
  induction text with
  | nil => simp [quotedLength]
  | cons c text ih =>
      obtain ⟨⟨hquote, hbackslash, -⟩, htext⟩ := List.forall_mem_cons.mp htext
      rw [List.cons_append, quotedLength, if_neg hquote, ih htext, List.length_cons]
      intro next rest heq
      exact absurd heq hbackslash

theorem lexemes_text_append (htext : IsText text) (hend : beginsName rest = false) :
    lexemes ('"' :: (text ++ '"' :: rest)) =
      ⟨.text, '"' :: (text ++ ['"']), false⟩ :: lexemes rest := by
  have hname : nameLength rest = 0 := by simpa [beginsName] using hend
  have hfront : front '"' (text ++ ['"'] ++ rest) = (.text, (text ++ ['"']).length) := by
    have hliteral : literal? '"' (text ++ ['"'] ++ rest) =
        some (.text, quotedLength '"' (text ++ ['"'] ++ rest)) := rfl
    rw [front.eq_def, hliteral]
    simp [quotedLength_append htext, hname]
  have hlexemes := lexemes_of_front (by decide) hfront
  simpa using hlexemes

/-- A blank is a gap, which is left out. -/
theorem lexemes_blank_cons {c : Char} (hblank : Text.isBlank c = true) (rest : List Char) :
    lexemes (c :: rest) = lexemes rest := by
  have hliteral : literal? c rest = none := by
    rw [literal?.eq_def]
    split <;> first | rfl | cases hblank
  have hfront : front c ([] ++ rest) = (.gap, 0) := by
    rw [List.nil_append, front.eq_def, hliteral]
    dsimp only
    split <;> first | cases hblank | simp [isSeparating, hblank]
  rw [← List.nil_append rest, lexemes, cut_of_front hfront, List.filter_cons_of_neg (by simp)]
  rfl

theorem lexemes_mark_cons {symbol : Char} (hsymbol : symbol ∈ ['=', ',', ':'])
    (rest : List Char) :
    lexemes (symbol :: rest) = ⟨.mark, [symbol], beginsMark rest⟩ :: lexemes rest := by
  have hfront : front symbol ([] ++ rest) = (.mark, 0) := by
    simp only [List.mem_cons, List.not_mem_nil, or_false] at hsymbol
    rcases hsymbol with rfl | rfl | rfl <;> rfl
  exact lexemes_of_front (by decide) hfront

/-! ## Tokens -/

/-- The source is put together from words, texts and signs, with blanks between them, and
these are its tokens. -/
inductive StandsFor : List Char → List Token → Prop where
  | nil : StandsFor [] []
  | blank {c : Char} {rest : List Char} {tokens : List Token} (hblank : Text.isBlank c = true)
      (hrest : StandsFor rest tokens) : StandsFor (c :: rest) tokens
  | word {name rest : List Char} {tokens : List Token} (hname : IsWord name)
      (hend : EndsWord rest) (hrest : StandsFor rest tokens) :
      StandsFor (name ++ rest) (.word (String.ofList name) :: tokens)
  | text {text rest : List Char} {tokens : List Token} (htext : IsText text)
      (hend : beginsName rest = false) (hrest : StandsFor rest tokens) :
      StandsFor ('"' :: (text ++ '"' :: rest)) (.text (String.ofList text) :: tokens)
  | equals {rest : List Char} {tokens : List Token} (hrest : StandsFor rest tokens) :
      StandsFor ('=' :: rest) (.equals :: tokens)
  | comma {rest : List Char} {tokens : List Token} (hrest : StandsFor rest tokens) :
      StandsFor (',' :: rest) (.comma :: tokens)
  | separator {rest : List Char} {tokens : List Token} (hrest : StandsFor rest tokens) :
      StandsFor (':' :: ':' :: rest) (.separator :: tokens)

/-- A lexeme that is no colon is a token of its own. -/
theorem tokensOf_cons {lexeme : Lexeme} (hcolon : lexeme.spelling ≠ [':']) (more : List Lexeme) :
    tokensOf (lexeme :: more) = lexeme.token :: tokensOf more := by
  cases more with
  | nil => rfl
  | cons second more =>
      have hseparator : areSeparator lexeme second = false := by simp [areSeparator, hcolon]
      rw [tokensOf, hseparator, if_neg Bool.false_ne_true]

theorem IsWord.ne_colon (hname : IsWord name) : name ≠ [':'] := by
  rintro rfl
  cases hname.chars ':' (List.mem_singleton_self ':')

theorem StandsFor.tokensOf_lexemes {source : List Char} (hsource : StandsFor source tokens) :
    tokensOf (lexemes source) = tokens := by
  induction hsource with
  | nil => rfl
  | blank hblank hrest ih => rw [lexemes_blank_cons hblank, ih]
  | word hname hend hrest ih =>
      rw [lexemes_word_append hname hend, tokensOf_cons hname.ne_colon, ih]
      rfl
  | @text text rest tokens htext hend hrest ih =>
      have hvalue : literalText ('"' :: (text ++ ['"'])) = text := unquoted_append [] htext
      rw [lexemes_text_append htext hend, tokensOf_cons (by simp), ih, Lexeme.token, hvalue]
  | equals hrest ih =>
      rw [lexemes_mark_cons (by decide), tokensOf_cons (by simp), ih]
      rfl
  | comma hrest ih =>
      rw [lexemes_mark_cons (by decide), tokensOf_cons (by simp), ih]
      rfl
  | separator hrest ih =>
      -- The first colon is joined to the second, whatever stands behind them.
      rw [lexemes_mark_cons (by decide), lexemes_mark_cons (by decide), tokensOf, ih]
      rfl

/-- A source is read as the tokens that it stands for. -/
theorem StandsFor.tokens_eq {source : String} (hsource : StandsFor source.toList tokens) :
    Source.tokens source = tokens := hsource.tokensOf_lexemes

/-! ## Paths -/

theorem standsFor_word {name : String} (hname : IsWord name.toList) :
    StandsFor name.toList [.word name] := by
  have hword := StandsFor.word hname (show EndsWord [] by simp [EndsWord]) .nil
  rwa [List.append_nil, String.ofList_toList] at hword

/-- The names of a path behind its first one, each with its separator. -/
def stepText (more : List String) : List Char :=
  more.flatMap fun name => "::".toList ++ name.toList

def pathText (isRooted : Bool) (first : String) (more : List String) : List Char :=
  (if isRooted then "::".toList else []) ++ first.toList ++ stepText more

theorem standsFor_steps {first : String} {more : List String} (hfirst : IsWord first.toList)
    (hmore : ∀ name ∈ more, IsWord name.toList) :
    StandsFor (first.toList ++ stepText more) (.word first :: stepTokens more) := by
  induction more generalizing first with
  | nil =>
      rw [stepText, List.flatMap_nil, List.append_nil]
      exact standsFor_word hfirst
  | cons name more ih =>
      obtain ⟨hname, hmore⟩ := List.forall_mem_cons.mp hmore
      have hend : EndsWord (':' :: ':' :: (name.toList ++ stepText more)) := by
        intro c hc
        cases hc
        exact ⟨rfl, by decide⟩
      have hword := StandsFor.word hfirst hend (.separator (ih hname hmore))
      rw [String.ofList_toList] at hword
      simpa [stepText, stepTokens] using hword

/-- A path stands for its names and the separators between them. -/
theorem standsFor_path (isRooted : Bool) {first : String} {more : List String}
    (hfirst : IsWord first.toList) (hmore : ∀ name ∈ more, IsWord name.toList) :
    StandsFor (pathText isRooted first more) (pathTokens isRooted first more) := by
  have hsteps := standsFor_steps hfirst hmore
  cases isRooted with
  | false => exact hsteps
  | true =>
      have hrooted := StandsFor.separator hsteps
      simpa [pathText, pathTokens, rootTokens] using hrooted

/-! ## Settings -/

theorem StandsFor.blanks {blanks : List Char} (hblanks : blanks.all Text.isBlank = true)
    (hrest : StandsFor rest tokens) : StandsFor (blanks ++ rest) tokens := by
  induction blanks with
  | nil => exact hrest
  | cons c blanks ih =>
      rw [List.all_cons, Bool.and_eq_true] at hblanks
      exact .blank hblanks.1 (ih hblanks.2)

theorem endsWord_blank {c : Char} (hblank : Text.isBlank c = true) (rest : List Char) :
    EndsWord (c :: rest) := by
  intro first hfirst
  cases hfirst
  constructor
  · by_contra hword
    have hseparating := isSeparating_eq_false_of_isWordChar (Bool.not_eq_false _ ▸ hword)
    simp [isSeparating, hblank] at hseparating
  · intro hmem
    simp only [List.mem_cons, List.not_mem_nil, or_false] at hmem
    rcases hmem with rfl | rfl | rfl <;> cases hblank

theorem endsWord_equals {blanks : List Char} (hblanks : blanks.all Text.isBlank = true)
    (rest : List Char) : EndsWord (blanks ++ '=' :: rest) := by
  cases blanks with
  | nil =>
      intro c hc
      cases hc
      exact ⟨rfl, by decide⟩
  | cons c blanks =>
      rw [List.all_cons, Bool.and_eq_true] at hblanks
      exact endsWord_blank hblanks.1 _

/-- A key is set to a text, with or without blanks around the sign. -/
theorem standsFor_setting {key value : String} {blanks behind : List Char}
    (hkey : IsWord key.toList) (hvalue : IsText value.toList)
    (hblanks : blanks.all Text.isBlank = true) (hbehind : behind.all Text.isBlank = true) :
    StandsFor (key.toList ++ (blanks ++ '=' :: (behind ++ '"' :: (value.toList ++ ['"']))))
      [.word key, .equals, .text value] := by
  have htext := StandsFor.text hvalue rfl .nil
  rw [String.ofList_toList] at htext
  have hequals := StandsFor.equals (htext.blanks hbehind)
  have hword := StandsFor.word hkey (endsWord_equals hblanks _) (hequals.blanks hblanks)
  rwa [String.ofList_toList] at hword

example : Source.tokens "type_name = \"User\"" =
    [.word "type_name", .equals, .text "User"] := by decide

end FieldWiring.Source

namespace FieldWiring

open Source (IsWord)

variable {attr : Attribute} {known : List String} {settings listed : List (String × String)}

/-! ## Attributes as they are written -/

/-- A path has a name exactly if it is this word alone. -/
theorem Attribute.isNamed_iff_of_path {isRooted : Bool} {first path : String}
    {more : List String} (hpath : attr.path.toList = Source.pathText isRooted first more)
    (hfirst : IsWord first.toList) (hmore : ∀ name ∈ more, IsWord name.toList) :
    attr.IsNamed path ↔ isRooted = false ∧ first = path ∧ more = [] := by
  have hstands := Source.standsFor_path isRooted hfirst hmore
  rw [← hpath] at hstands
  rw [IsNamed, hstands.tokens_eq]
  cases isRooted with
  | true => simp [pathTokens, rootTokens]
  | false => cases more <;> simp [pathTokens, rootTokens, stepTokens]

def settingArguments (settings : List (String × String)) : List Argument :=
  settings.map fun setting => ⟨setting.1, .text setting.2, ""⟩

theorem tokens_settingArgument {key : String} (hkey : IsWord key.toList) (value : String) :
    Argument.tokens ⟨key, .text value, ""⟩ = [.word key, .equals, .text value] := by
  rw [Argument.tokens, (Source.standsFor_word hkey).tokens_eq]
  rfl

/-- The tokens of settings are those of their arguments, with a comma behind the last one. -/
theorem argumentTokens_settingArguments
    (hkeys : ∀ setting ∈ settings, IsWord setting.1.toList) (hsome : settings ≠ [])
    (trailingComma : Bool) :
    argumentTokens (settingArguments settings) trailingComma ++
      (if trailingComma then [] else [.comma]) = settingTokens settings := by
  induction settings with
  | nil => exact absurd rfl hsome
  | cons head tail ih =>
      obtain ⟨hhead, htail⟩ := List.forall_mem_cons.mp hkeys
      have htokens := tokens_settingArgument hhead head.2
      cases tail with
      | nil =>
          cases trailingComma <;>
            simp [argumentTokens, settingArguments, htokens, settingTokens]
      | cons second tail =>
          have hrest := ih htail (by simp)
          simp only [argumentTokens, settingArguments, List.map_cons, settingTokens,
            List.flatMap_cons] at hrest ⊢
          rw [List.intercalate_cons_cons, htokens]
          simpa using hrest

/-- Tokens set the same keys to the same texts, whatever keys are known. -/
theorem SetsKeys.unique {known' : List String} {tokens : List Source.Token}
    (hsettings : SetsKeys known tokens settings) (hlisted : SetsKeys known' tokens listed) :
    settings = listed := by
  have hleft : SetsKeys (known ++ known') tokens settings :=
    ⟨fun setting hmem => List.mem_append_left known' (hsettings.known setting hmem),
      hsettings.tokens⟩
  have hright : SetsKeys (known ++ known') tokens listed :=
    ⟨fun setting hmem => List.mem_append_right known (hlisted.known setting hmem),
      hlisted.tokens⟩
  have hread : readArguments (known ++ known') .missingKey tokens = .ok settings :=
    readArguments_eq_ok_iff.mpr hleft
  rw [readArguments_eq_ok_iff.mpr hright] at hread
  exact (Except.ok.inj hread).symm

/-- Arguments that are written as settings list these, if all their keys are known. -/
theorem Attribute.lists_iff_of_settingArguments {trailingComma : Bool}
    (hcontent : attr.content = .arguments (settingArguments settings) trailingComma)
    (hkeys : ∀ setting ∈ settings, IsWord setting.1.toList) (hsome : settings ≠ []) :
    attr.Lists known listed ↔ listed = settings ∧ ∀ setting ∈ settings, setting.1 ∈ known := by
  have htokens := argumentTokens_settingArguments hkeys hsome trailingComma
  have hlist : attr.listTokens? =
      some (argumentTokens (settingArguments settings) trailingComma) := by
    rw [Attribute.listTokens?, hcontent]
  have hsettings : SetsKeys (settings.map Prod.fst)
      (argumentTokens (settingArguments settings) trailingComma) settings := by
    constructor
    · exact fun setting hmem => List.mem_map_of_mem hmem
    · cases trailingComma with
      | true => exact .inl (by simpa using htokens)
      | false => exact .inr htokens
  constructor
  · intro hlists
    obtain ⟨tokens, heq, hlisted⟩ := hlists
    rw [hlist] at heq
    cases heq
    obtain rfl := hlisted.unique hsettings
    exact ⟨rfl, hlisted.known⟩
  · intro h
    obtain ⟨rfl, hknown⟩ := h
    exact ⟨_, hlist, hknown, hsettings.tokens⟩

end FieldWiring
