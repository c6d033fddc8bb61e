import FieldWiring.Proofs.Numerals

/-!
# Tokens of the data format

A text is cut into tokens by a scanner that collects the word or the quoted text which it is
in.  The relation that it decides is put together from the end: what a text is cut into is told
by its first token and by what the rest is cut into.
-/

namespace FieldWiring.Json

variable {text rest : List Char}

/-! ## Quoted texts -/

/-- A hexadecimal digit and what it stands for. -/
def IsHexDigit (c : Char) (value : Nat) : Prop :=
  "0123456789abcdef".toList[value]? = some c ∨ "0123456789ABCDEF".toList[value]? = some c

instance (c : Char) (value : Nat) : Decidable (IsHexDigit c value) :=
  inferInstanceAs (Decidable (_ ∨ _))

theorem hexDigit?_eq_some_iff {c : Char} {value : Nat} :
    Text.hexDigit? c = some value ↔ IsHexDigit c value := by
  constructor
  · intro hdigit
    have hascii : c.toNat < 128 := by
      simp only [Text.hexDigit?, Char.le_def, UInt32.le_iff_toNat_le] at hdigit
      grind [Char.toNat]
    have hall : ∀ code < 128, ∀ value ∈ Text.hexDigit? (Char.ofNat code),
        IsHexDigit (Char.ofNat code) value := by decide
    have hc := hall c.toNat hascii value
    rw [Char.ofNat_toNat] at hc
    exact hc hdigit
  · intro hdigit
    have hvalue : value < 16 := by
      cases hdigit with
      | inl hsmall => exact (List.getElem?_eq_some_iff.mp hsmall).1
      | inr hcapital => exact (List.getElem?_eq_some_iff.mp hcapital).1
    have hall : ∀ value < 16,
        "0123456789abcdef".toList[value]?.bind Text.hexDigit? = some value ∧
          "0123456789ABCDEF".toList[value]?.bind Text.hexDigit? = some value := by decide
    obtain ⟨hsmall, hcapital⟩ := hall value hvalue
    cases hdigit with
    | inl hc =>
        rw [hc] at hsmall
        exact hsmall
    | inr hc =>
        rw [hc] at hcapital
        exact hcapital

def escapes : List (Char × Char) :=
  [('"', '"'), ('\\', '\\'), ('/', '/'), ('b', '\x08'), ('f', '\x0c'), ('n', '\n'), ('r', '\r'),
    ('t', '\t')]

/-- A letter is an escape exactly if it is listed. -/
theorem escaped?_eq_some_iff {letter c : Char} :
    escaped? letter = some c ↔ (letter, c) ∈ escapes := by
  constructor
  · intro h
    unfold escaped? at h
    split at h <;> cases h <;> decide
  · intro h
    have hall : ∀ pair ∈ escapes, escaped? pair.1 = some pair.2 := by decide
    exact hall (letter, c) h

/-- Four hexadecimal digits and the number that they stand for. -/
inductive IsCodeUnit : Char → Char → Char → Char → Nat → Prop where
  | digits {a b c d : Char} {w x y z : Nat} (ha : IsHexDigit a w) (hb : IsHexDigit b x)
      (hc : IsHexDigit c y) (hd : IsHexDigit d z) :
      IsCodeUnit a b c d ((w * 16 + x) * 256 + (y * 16 + z))

/-- Four characters are a code unit exactly if all of them are digits. -/
theorem codeUnit?_eq_some_iff {a b c d : Char} {unit : Nat} :
    codeUnit? a b c d = some unit ↔ IsCodeUnit a b c d unit := by
  constructor
  · intro hunit
    obtain ⟨w, ha, hunit⟩ := Option.bind_eq_some_iff.mp hunit
    obtain ⟨x, hb, hunit⟩ := Option.bind_eq_some_iff.mp hunit
    obtain ⟨y, hc, hunit⟩ := Option.bind_eq_some_iff.mp hunit
    obtain ⟨z, hd, hunit⟩ := Option.bind_eq_some_iff.mp hunit
    cases hunit
    exact .digits (hexDigit?_eq_some_iff.mp ha) (hexDigit?_eq_some_iff.mp hb)
      (hexDigit?_eq_some_iff.mp hc) (hexDigit?_eq_some_iff.mp hd)
  · intro hunit
    cases hunit with
    | digits ha hb hc hd =>
        rw [codeUnit?, hexDigit?_eq_some_iff.mpr ha, hexDigit?_eq_some_iff.mpr hb,
          hexDigit?_eq_some_iff.mpr hc, hexDigit?_eq_some_iff.mpr hd]
        rfl

/-- What stands behind a quote: characters up to the next quote, what they stand for, and what
follows.  An escape of a surrogate is followed by one that makes a pair with it. -/
inductive IsQuoted : List Char → List Char → List Char → Prop where
  | close (rest : List Char) : IsQuoted ('"' :: rest) [] rest
  | plain {c : Char} {text chars rest : List Char} (hquote : c ≠ '"') (hbackslash : c ≠ '\\')
      (hcontrol : 0x20 ≤ c.toNat) (hmore : IsQuoted text chars rest) :
      IsQuoted (c :: text) (c :: chars) rest
  | escape {letter c : Char} {text chars rest : List Char} (hletter : (letter, c) ∈ escapes)
      (hmore : IsQuoted text chars rest) : IsQuoted ('\\' :: letter :: text) (c :: chars) rest
  | unit {a b c d : Char} {unit : Nat} {text chars rest : List Char}
      (hunit : IsCodeUnit a b c d unit) (hscalar : unit < 0xD800 ∨ 0xE000 ≤ unit)
      (hmore : IsQuoted text chars rest) :
      IsQuoted ('\\' :: 'u' :: a :: b :: c :: d :: text) (Char.ofNat unit :: chars) rest
  | pair {a b c d a' b' c' d' : Char} {leading trailing : Nat} {text chars rest : List Char}
      (hunit : IsCodeUnit a b c d leading) (hleading : 0xD800 ≤ leading ∧ leading < 0xDC00)
      (hunit' : IsCodeUnit a' b' c' d' trailing) (htrailing : 0xDC00 ≤ trailing ∧ trailing < 0xE000)
      (hmore : IsQuoted text chars rest) :
      IsQuoted ('\\' :: 'u' :: a :: b :: c :: d :: '\\' :: 'u' :: a' :: b' :: c' :: d' :: text)
        (Char.ofNat (0x10000 + (leading - 0xD800) * 1024 + (trailing - 0xDC00)) :: chars) rest

theorem isLeading_iff {unit : Nat} : isLeading unit = true ↔ 0xD800 ≤ unit ∧ unit < 0xDC00 := by
  simp [isLeading]

theorem isTrailing_iff {unit : Nat} : isTrailing unit = true ↔ 0xDC00 ≤ unit ∧ unit < 0xE000 := by
  simp [isTrailing]

/-- A quoted text is read through its quote. -/
theorem scanQuoted_of_isQuoted {chars : List Char} (hquoted : IsQuoted text chars rest)
    (seen : List Char) :
    scanQuoted seen text =
      (scan [] rest).map (.quoted (String.ofList (seen.reverse ++ chars)) :: ·) := by
  induction hquoted generalizing seen with
  | close rest => rw [scanQuoted, List.append_nil]
  | @plain c text chars rest hquote hbackslash hcontrol _ ih =>
      have hplain : ¬ (c = '\\' ∨ c.toNat < 0x20) := not_or.mpr ⟨hbackslash, by omega⟩
      rw [scanQuoted, if_neg hplain, ih]
      all_goals simp_all
  | @escape letter c text chars rest hletter _ ih =>
      have hescaped := escaped?_eq_some_iff.mpr hletter
      rw [scanQuoted, hescaped]
      · simp [ih]
      · rintro a b c d more rfl
        cases hescaped
  | @unit a b c d unit text chars rest hunit hscalar _ ih =>
      have hleading : isLeading unit = false := by simp [isLeading]; omega
      have htrailing : isTrailing unit = false := by simp [isTrailing]; omega
      rw [scanQuoted, codeUnit?_eq_some_iff.mpr hunit]
      simp [hleading, htrailing, ih]
  | @pair a b c d a' b' c' d' leading trailing text chars rest hunit hleading hunit' htrailing _
      ih =>
      have hnotTrailing : isTrailing leading = false := by simp [isTrailing]; omega
      rw [scanQuoted, codeUnit?_eq_some_iff.mpr hunit]
      simp [isLeading_iff.mpr hleading, hnotTrailing, codeUnit?_eq_some_iff.mpr hunit',
        isTrailing_iff.mpr htrailing, ih, pairValue]

/-! ## Tokens -/

def marks : List (Char × Token) :=
  [('[', .openArray), (']', .closeArray), ('\x7b', .openObject), ('\x7d', .closeObject),
    (',', .comma), (':', .colon)]

def spaces : List Char := [' ', '\t', '\n', '\r']

/-- A character that belongs to a word. -/
structure IsWordChar (c : Char) : Prop where
  space : c ∉ spaces
  mark : ∀ token, (c, token) ∉ marks
  quote : c ≠ '"'

/-- The text is cut into these tokens.  A word extends as far as it can. -/
inductive IsCut : List Char → List Token → Prop where
  | nil : IsCut [] []
  | space {c : Char} {rest : List Char} {tokens : List Token} (hspace : c ∈ spaces)
      (hrest : IsCut rest tokens) : IsCut (c :: rest) tokens
  | mark {c : Char} {token : Token} {rest : List Char} {tokens : List Token}
      (hmark : (c, token) ∈ marks) (hrest : IsCut rest tokens) :
      IsCut (c :: rest) (token :: tokens)
  | quoted {text chars rest : List Char} {tokens : List Token}
      (hquoted : IsQuoted text chars rest) (hrest : IsCut rest tokens) :
      IsCut ('"' :: text) (.quoted (String.ofList chars) :: tokens)
  | word {word rest : List Char} {value : Json} {tokens : List Token}
      (hword : ∀ c ∈ word, IsWordChar c) (hend : ∀ c ∈ rest.head?, ¬ IsWordChar c)
      (hscalar : IsScalar word value) (hrest : IsCut rest tokens) :
      IsCut (word ++ rest) (.scalar value :: tokens)

theorem isSpace_iff {c : Char} : isSpace c = true ↔ c ∈ spaces := by
  simp [isSpace, spaces, or_assoc]

/-- A character is a token by itself exactly if it is listed. -/
theorem punctuation?_eq_some_iff {c : Char} {token : Token} :
    punctuation? c = some token ↔ (c, token) ∈ marks := by
  constructor
  · intro h
    unfold punctuation? at h
    split at h <;> cases h <;> simp [marks]
  · intro h
    simp only [marks, List.mem_cons, Prod.mk.injEq, List.not_mem_nil, or_false] at h
    rcases h with ⟨rfl, rfl⟩ | ⟨rfl, rfl⟩ | ⟨rfl, rfl⟩ | ⟨rfl, rfl⟩ | ⟨rfl, rfl⟩ | ⟨rfl, rfl⟩ <;>
      rfl

theorem isWordChar_iff {c : Char} :
    IsWordChar c ↔ isSpace c = false ∧ punctuation? c = none ∧ c ≠ '"' := by
  have hspace : c ∉ spaces ↔ isSpace c = false := by
    rw [← isSpace_iff, Bool.not_eq_true]
  have hmark : (∀ token, (c, token) ∉ marks) ↔ punctuation? c = none := by
    simp only [← punctuation?_eq_some_iff, Option.eq_none_iff_forall_ne_some, ne_eq]
  constructor
  · intro h
    exact ⟨hspace.mp h.space, hmark.mp h.mark, h.quote⟩
  · intro h
    exact ⟨hspace.mpr h.1, hmark.mpr h.2.1, h.2.2⟩

/-- The characters of a word are collected in front of what follows. -/
theorem scan_word {word : List Char} (hword : ∀ c ∈ word, IsWordChar c) (seen rest : List Char) :
    scan seen (word ++ rest) = scan (word.reverse ++ seen) rest := by
  induction word generalizing seen with
  | nil => rfl
  | cons c word ih =>
      obtain ⟨hc, hmore⟩ := List.forall_mem_cons.mp hword
      obtain ⟨hspace, hmark, hquote⟩ := isWordChar_iff.mp hc
      calc
        scan seen (c :: word ++ rest) = scan (c :: seen) (word ++ rest) := by
          rw [List.cons_append, scan, hspace, hmark]
          simp [hquote]
        _ = scan ((c :: word).reverse ++ seen) rest := by
          rw [ih hmore, List.reverse_cons, List.append_assoc, List.singleton_append]

/-- Where a word ends, its value is put in front of the tokens behind it. -/
theorem scan_of_end (hend : ∀ c ∈ rest.head?, ¬ IsWordChar c) (seen : List Char) :
    scan seen rest = (scan [] rest).bind (consWord seen.reverse) := by
  have hnil : ∀ tokens, consWord [] tokens = some tokens := fun tokens => if_pos rfl
  cases rest with
  | nil => simp [scan, hnil]
  | cons c rest =>
      rw [scan, scan]
      cases hspace : isSpace c with
      | true => cases scan [] rest <;> simp [hnil]
      | false =>
          cases hmark : punctuation? c with
          | some token => cases scan [] rest <;> simp [hnil]
          | none =>
              have hquote : c = '"' := by
                by_contra hquote
                exact hend c rfl (isWordChar_iff.mpr ⟨hspace, hmark, hquote⟩)
              cases scanQuoted [] rest <;> simp [hquote, hnil]

/-- A text that can be cut into tokens is cut into them. -/
theorem scan_of_isCut {tokens : List Token} (hcut : IsCut text tokens) :
    scan [] text = some tokens := by
  have hnil : ∀ tokens, consWord [] tokens = some tokens := fun tokens => if_pos rfl
  induction hcut with
  | nil => rfl
  | space hspace _ ih => rw [scan, if_pos (isSpace_iff.mpr hspace), ih]; exact hnil _
  | @mark c token rest tokens hmark _ ih =>
      have hspace : isSpace c = false := by
        simp only [marks, List.mem_cons, Prod.mk.injEq, List.not_mem_nil, or_false] at hmark
        rcases hmark with ⟨rfl, -⟩ | ⟨rfl, -⟩ | ⟨rfl, -⟩ | ⟨rfl, -⟩ | ⟨rfl, -⟩ | ⟨rfl, -⟩ <;> rfl
      rw [scan, hspace, punctuation?_eq_some_iff.mpr hmark, ih]
      exact hnil _
  | quoted hquoted _ ih =>
      have hscan := scanQuoted_of_isQuoted hquoted []
      rw [ih] at hscan
      change (scanQuoted [] _).bind (consWord []) = _
      rw [hscan]
      exact hnil _
  | @word word rest value tokens hword hend hscalar _ ih =>
      have hne : word ≠ [] := by
        rintro rfl
        have hnone : wordValue? [] = none := rfl
        rw [wordValue?_eq_some_iff.mpr hscalar] at hnone
        cases hnone
      rw [scan_word hword, List.append_nil, scan_of_end hend, ih, List.reverse_reverse,
        Option.bind_some, consWord, if_neg hne, wordValue?_eq_some_iff.mpr hscalar]
      rfl

/-- A word in front of a text is a token in front of its tokens. -/
theorem isCut_of_consWord {word : List Char} {tokens all : List Token}
    (hword : ∀ c ∈ word, IsWordChar c) (hend : ∀ c ∈ rest.head?, ¬ IsWordChar c)
    (hrest : IsCut rest tokens) (hcons : consWord word tokens = some all) :
    IsCut (word ++ rest) all := by
  rw [consWord] at hcons
  split_ifs at hcons with hnil
  · cases hcons
    rw [hnil]
    exact hrest
  · obtain ⟨value, hvalue, rfl⟩ := Option.map_eq_some_iff.mp hcons
    exact .word hword hend (wordValue?_eq_some_iff.mp hvalue) hrest

/-- A text that continues a word is cut into what it can be cut into. -/
def ScansWord (word text : List Char) : Prop :=
  ∀ tokens, scan word text = some tokens → (∀ c ∈ word, IsWordChar c) →
    IsCut (word.reverse ++ text) tokens

/-- A text that continues a quoted text begins with the rest of that. -/
def ScansQuoted (seen text : List Char) : Prop :=
  ∀ tokens, scanQuoted seen text = some tokens → ∃ chars rest later,
    IsQuoted text chars rest ∧ IsCut rest later ∧
      tokens = .quoted (String.ofList (seen.reverse ++ chars)) :: later

theorem scansWord_of_bind {word : List Char} (first : Option (List Token))
    (hend : ∀ c ∈ rest.head?, ¬ IsWordChar c)
    (hfirst : ∀ later, first = some later → IsCut rest later)
    (hscan : scan word rest = first.bind (consWord word.reverse)) : ScansWord word rest := by
  intro tokens htokens hword
  rw [hscan] at htokens
  obtain ⟨later, hlater, hcons⟩ := Option.bind_eq_some_iff.mp htokens
  refine isCut_of_consWord ?_ hend (hfirst later hlater) hcons
  intro c hmem
  exact hword c (List.mem_reverse.mp hmem)

/-- A character of a quoted text is put behind those that have been read. -/
theorem ScansQuoted.cons {seen : List Char} {c : Char} (hmore : ScansQuoted (c :: seen) rest)
    (hscan : scanQuoted seen text = scanQuoted (c :: seen) rest)
    (hquoted : ∀ {chars behind}, IsQuoted rest chars behind → IsQuoted text (c :: chars) behind) :
    ScansQuoted seen text := by
  intro tokens htokens
  rw [hscan] at htokens
  obtain ⟨chars, behind, later, hchars, hlater, rfl⟩ := hmore tokens htokens
  refine ⟨c :: chars, behind, later, hquoted hchars, hlater, ?_⟩
  rw [List.reverse_cons, List.append_assoc, List.singleton_append]

theorem scansQuoted_of_none {seen : List Char} (hscan : scanQuoted seen text = none) :
    ScansQuoted seen text := by
  intro tokens htokens
  rw [hscan] at htokens
  cases htokens

/-- Whatever is scanned is cut as it may be, by induction on the text. -/
theorem scansWord_and_scansQuoted :
    (∀ word text, ScansWord word text) ∧ ∀ seen text, ScansQuoted seen text := by
  apply scan.mutual_induct
  case case1 =>
    intro word
    refine scansWord_of_bind (some []) (by simp) ?_ rfl
    intro later hlater
    cases hlater
    exact .nil
  case case2 =>
    intro word c rest hspace ih
    refine scansWord_of_bind (scan [] rest) ?_ ?_ ?_
    · intro d hd hword
      cases hd
      exact hword.space (isSpace_iff.mp hspace)
    · intro later hlater
      exact .space (isSpace_iff.mp hspace) (ih later hlater (by simp))
    · rw [scan, if_pos hspace]
  case case3 =>
    intro word c rest hspace token hmark ih
    refine scansWord_of_bind ((scan [] rest).map (token :: ·)) ?_ ?_ ?_
    · intro d hd hword
      cases hd
      exact hword.mark token (punctuation?_eq_some_iff.mp hmark)
    · intro later hlater
      obtain ⟨tokens, htokens, rfl⟩ := Option.map_eq_some_iff.mp hlater
      exact .mark (punctuation?_eq_some_iff.mp hmark) (ih tokens htokens (by simp))
    · rw [scan, if_neg hspace, hmark, Option.bind_map]
      rfl
  case case4 =>
    intro word rest hspace hmark ih
    refine scansWord_of_bind (scanQuoted [] rest) ?_ ?_ ?_
    · intro d hd hword
      cases hd
      exact hword.quote rfl
    · intro later hlater
      obtain ⟨chars, behind, tokens, hchars, htokens, rfl⟩ := ih later hlater
      exact .quoted hchars htokens
    · rw [scan, if_neg hspace, hmark, if_pos rfl]
  case case5 =>
    intro word c rest hspace hmark hquote ih tokens htokens hword
    have hc : IsWordChar c := isWordChar_iff.mpr ⟨Bool.not_eq_true _ ▸ hspace, hmark, hquote⟩
    rw [scan, if_neg hspace, hmark, if_neg hquote] at htokens
    have hcut := ih tokens htokens (List.forall_mem_cons.mpr ⟨hc, hword⟩)
    rwa [List.reverse_cons, List.append_assoc, List.singleton_append] at hcut
  case case6 =>
    intro seen
    exact scansQuoted_of_none rfl
  case case7 =>
    intro seen rest ih tokens htokens
    rw [scanQuoted] at htokens
    obtain ⟨later, hlater, rfl⟩ := Option.map_eq_some_iff.mp htokens
    exact ⟨[], rest, later, .close rest, ih later hlater (by simp), by rw [List.append_nil]⟩
  case case8 =>
    intro seen a b c d rest hunit
    exact scansQuoted_of_none (by simp [scanQuoted, hunit])
  case case9 =>
    intro seen a b c d rest unit hunit htrailing
    exact scansQuoted_of_none (by simp [scanQuoted, hunit, htrailing])
  case case10 =>
    intro seen a b c d leading hunit htrailing hleading a' b' c' d' rest hunit'
    exact scansQuoted_of_none (by simp [scanQuoted, hunit, htrailing, hleading, hunit'])
  case case11 =>
    intro seen a b c d leading hunit hnot hleading a' b' c' d' rest trailing hunit' htrailing ih
    refine ih.cons ?_ ?_
    · simp [scanQuoted, hunit, hnot, hleading, hunit', htrailing]
    · intro chars behind hchars
      exact .pair (codeUnit?_eq_some_iff.mp hunit) (isLeading_iff.mp hleading)
        (codeUnit?_eq_some_iff.mp hunit') (isTrailing_iff.mp htrailing) hchars
  case case12 =>
    intro seen a b c d leading hunit htrailing hleading a' b' c' d' rest second hunit' hsecond
    exact scansQuoted_of_none (by simp [scanQuoted, hunit, htrailing, hleading, hunit', hsecond])
  case case13 =>
    intro seen a b c d rest leading hunit htrailing hleading _
    exact scansQuoted_of_none (by simp [scanQuoted, hunit, htrailing, hleading])
  case case14 =>
    intro seen a b c d rest unit hunit htrailing hleading ih
    refine ih.cons ?_ ?_
    · simp [scanQuoted, hunit, htrailing, hleading]
    · intro chars behind hchars
      have hscalar : unit < 0xD800 ∨ 0xE000 ≤ unit := by
        rw [isLeading_iff] at hleading
        rw [isTrailing_iff] at htrailing
        omega
      exact .unit (codeUnit?_eq_some_iff.mp hunit) hscalar hchars
  case case15 =>
    intro seen letter rest hletter hescaped
    refine scansQuoted_of_none ?_
    rw [scanQuoted, hescaped]
    exact hletter
  case case16 =>
    intro seen letter rest hletter c hescaped ih
    refine ih.cons ?_ ?_
    · rw [scanQuoted, hescaped]
      exact hletter
    · intro chars behind hchars
      exact .escape (escaped?_eq_some_iff.mp hescaped) hchars
  case case17 =>
    intro seen c rest hquote hunit hletter hcontrol
    refine scansQuoted_of_none ?_
    rw [scanQuoted, if_pos hcontrol]
    all_goals assumption
  case case18 =>
    intro seen c rest hquote hunit hletter hplain ih
    obtain ⟨hbackslash, hcontrol⟩ := not_or.mp hplain
    refine ih.cons ?_ ?_
    · rw [scanQuoted, if_neg hplain]
      all_goals assumption
    · intro chars behind hchars
      exact .plain hquote hbackslash (Nat.le_of_not_lt hcontrol) hchars

/-- A text is cut into tokens in one way, if at all. -/
theorem tokens?_eq_some_iff {tokens : List Token} :
    tokens? text = some tokens ↔ IsCut text tokens := by
  constructor
  · intro htokens
    exact scansWord_and_scansQuoted.1 [] text tokens htokens (by simp)
  · exact scan_of_isCut

end FieldWiring.Json
