import FieldWiring.Proofs.Conversion

/-!
# Numbers and constants of the data format

A word of the format is a constant or a number.  A number is written in decimal, without zeros
in front, with digits on both sides of its point and behind the letter of its exponent, and it
has to stay in the range of binary64.
-/

namespace FieldWiring.Json

/-! ## Numerals -/

def IsDigits (text : List Char) : Prop := text ≠ [] ∧ ∀ c ∈ text, c.isDigit = true

/-- A zero before other digits is not written. -/
structure IsWhole (text : List Char) : Prop where
  digits : IsDigits text
  zero : text.head? = some '0' → text = ['0']

inductive IsFraction : List Char → Option (List Char) → Prop where
  | absent : IsFraction [] none
  | present {digits : List Char} (hdigits : IsDigits digits) :
      IsFraction ('.' :: digits) (some digits)

inductive IsExponent : List Char → Option Int → Prop where
  | absent : IsExponent [] none
  | unsigned {letter : Char} {digits : List Char} (hletter : letter = 'e' ∨ letter = 'E')
      (hdigits : IsDigits digits) : IsExponent (letter :: digits) (some (digitsValue digits))
  | plus {letter : Char} {digits : List Char} (hletter : letter = 'e' ∨ letter = 'E')
      (hdigits : IsDigits digits) :
      IsExponent (letter :: '+' :: digits) (some (digitsValue digits))
  | minus {letter : Char} {digits : List Char} (hletter : letter = 'e' ∨ letter = 'E')
      (hdigits : IsDigits digits) :
      IsExponent (letter :: '-' :: digits) (some (-digitsValue digits))

/-- The text is a number, with these parts. -/
inductive IsNumeral : List Char → Literal → Prop where
  | unsigned {whole behindWhole behindFraction : List Char} {fraction : Option (List Char)}
      {exponent : Option Int} (hwhole : IsWhole whole) (hfraction : IsFraction behindWhole fraction)
      (hexponent : IsExponent behindFraction exponent) :
      IsNumeral (whole ++ (behindWhole ++ behindFraction)) ⟨false, whole, fraction, exponent⟩
  | negative {whole behindWhole behindFraction : List Char} {fraction : Option (List Char)}
      {exponent : Option Int} (hwhole : IsWhole whole) (hfraction : IsFraction behindWhole fraction)
      (hexponent : IsExponent behindFraction exponent) :
      IsNumeral ('-' :: (whole ++ (behindWhole ++ behindFraction)))
        ⟨true, whole, fraction, exponent⟩

/-- The text does not go on with a digit. -/
def EndsDigits (rest : List Char) : Prop := ∀ c ∈ rest.head?, c.isDigit = false

variable {text rest digits : List Char}

/-- Digits are read up to where they end. -/
theorem leadingDigits?_append (hdigits : IsDigits digits) (hrest : EndsDigits rest) :
    leadingDigits? (digits ++ rest) = some (digits, rest) := by
  have htake : rest.takeWhile Char.isDigit = [] := by
    cases rest with
    | nil => rfl
    | cons c rest => exact List.takeWhile_cons_of_neg (by simp [hrest c rfl])
  have hdrop : rest.dropWhile Char.isDigit = rest := by
    cases rest with
    | nil => rfl
    | cons c rest => exact List.dropWhile_cons_of_neg (by simp [hrest c rfl])
  rw [leadingDigits?, List.takeWhile_append_of_pos hdigits.2, htake, List.append_nil,
    List.dropWhile_append_of_pos hdigits.2, hdrop]
  cases digits with
  | nil => exact absurd rfl hdigits.1
  | cons first others => rfl

/-- What is read as digits are digits, and what is left follows them. -/
theorem eq_append_of_leadingDigits? (hread : leadingDigits? text = some (digits, rest)) :
    IsDigits digits ∧ text = digits ++ rest := by
  rw [leadingDigits?] at hread
  split at hread
  · cases hread
  · rename_i found hfound
    cases hread
    refine ⟨⟨?_, ?_⟩, List.takeWhile_append_dropWhile.symm⟩
    · intro hnil
      exact hfound hnil
    · intro c hmem
      exact List.all_eq_true.mp List.all_takeWhile c hmem

/-- A whole part is read up to where its digits end. -/
theorem wholePart?_append (hwhole : IsWhole digits) (hrest : EndsDigits rest) :
    wholePart? (digits ++ rest) = some (digits, rest) := by
  rw [wholePart?, leadingDigits?_append hwhole.digits hrest]
  split
  · rename_i second others _ heq
    cases heq
    cases hwhole.zero rfl
  · rfl

theorem eq_append_of_wholePart? (hread : wholePart? text = some (digits, rest)) :
    IsWhole digits ∧ text = digits ++ rest := by
  rw [wholePart?] at hread
  split at hread
  · cases hread
  · rename_i hzero
    obtain ⟨hdigits, htext⟩ := eq_append_of_leadingDigits? hread
    refine ⟨⟨hdigits, ?_⟩, htext⟩
    intro hhead
    cases digits with
    | nil => cases hhead
    | cons first others =>
        obtain rfl : first = '0' := Option.some.inj hhead
        cases others with
        | nil => rfl
        | cons second others => exact absurd hread (hzero second others rest)

theorem fractionPart?_append {fraction : Option (List Char)} (hfraction : IsFraction text fraction)
    (hrest : EndsDigits rest) (hpoint : rest.head? ≠ some '.') :
    fractionPart? (text ++ rest) = some (fraction, rest) := by
  cases hfraction with
  | absent =>
      rw [List.nil_append, fractionPart?]
      intro behind heq
      rw [heq] at hpoint
      exact hpoint rfl
  | present hdigits =>
      rw [List.cons_append, fractionPart?, leadingDigits?_append hdigits hrest]
      rfl

/-- What is read as a fraction is one, or there is none. -/
theorem exists_of_fractionPart? {fraction : Option (List Char)}
    (hread : fractionPart? text = some (fraction, rest)) :
    ∃ front, IsFraction front fraction ∧ text = front ++ rest := by
  unfold fractionPart? at hread
  split at hread
  · obtain ⟨split, hsplit, heq⟩ := Option.map_eq_some_iff.mp hread
    cases heq
    obtain ⟨hdigits, hbehind⟩ := eq_append_of_leadingDigits? hsplit
    exact ⟨_, .present hdigits, by rw [hbehind, List.cons_append]⟩
  · cases hread
    exact ⟨[], .absent, rfl⟩

theorem IsDigits.ne_cons {c : Char} (hdigits : IsDigits text) (hc : c.isDigit = false) :
    text ≠ c :: rest := by
  intro htext
  have hdigit := hdigits.2 c (htext ▸ List.mem_cons_self)
  rw [hc] at hdigit
  cases hdigit

theorem exponentPart?_of_isExponent {exponent : Option Int} (hexponent : IsExponent text exponent) :
    exponentPart? text = some (exponent, []) := by
  have hread : ∀ digits, IsDigits digits → leadingDigits? digits = some (digits, []) := by
    intro digits hdigits
    have hend : EndsDigits [] := by simp [EndsDigits]
    simpa using leadingDigits?_append hdigits hend
  cases hexponent with
  | absent => rfl
  | @unsigned letter digits hletter hdigits =>
      -- A digit is no sign, so the match on the sign falls through.
      have hsigned : ∀ rest, digits ≠ '-' :: rest ∧ digits ≠ '+' :: rest :=
        fun rest => ⟨hdigits.ne_cons rfl, hdigits.ne_cons rfl⟩
      rcases hletter with rfl | rfl <;>
        · simp only [exponentPart?]
          split
          · exact absurd rfl (hsigned _).1
          · exact absurd rfl (hsigned _).2
          · simp [hread _ hdigits]
  | plus hletter hdigits =>
      rcases hletter with rfl | rfl <;> simp [exponentPart?, hread _ hdigits]
  | minus hletter hdigits =>
      rcases hletter with rfl | rfl <;> simp [exponentPart?, hread _ hdigits]

/-- What is read as an exponent is one, or there is none. -/
theorem isExponent_of_exponentPart? {exponent : Option Int}
    (hread : exponentPart? text = some (exponent, [])) : IsExponent text exponent := by
  have hunsigned : ∀ {sign : Int} {rest : List Char}, ((leadingDigits? rest).map fun split =>
      (some (sign * digitsValue split.1), split.2)) = some (exponent, []) →
        IsDigits rest ∧ exponent = some (sign * digitsValue rest) := by
    intro sign rest h
    obtain ⟨⟨digits, behind⟩, hsplit, heq⟩ := Option.map_eq_some_iff.mp h
    cases heq
    obtain ⟨hdigits, hrest⟩ := eq_append_of_leadingDigits? hsplit
    rw [List.append_nil] at hrest
    rw [hrest]
    exact ⟨hdigits, rfl⟩
  unfold exponentPart? at hread
  split at hread
  all_goals first
    | cases hread; exact .absent
    | skip
  all_goals
    dsimp only at hread
    split at hread
    all_goals
      obtain ⟨hdigits, rfl⟩ := hunsigned hread
  · simpa using IsExponent.minus (.inl rfl) hdigits
  · simpa using IsExponent.plus (.inl rfl) hdigits
  · simpa using IsExponent.unsigned (.inl rfl) hdigits
  · simpa using IsExponent.minus (.inr rfl) hdigits
  · simpa using IsExponent.plus (.inr rfl) hdigits
  · simpa using IsExponent.unsigned (.inr rfl) hdigits

/-- Behind the digits and the point of a number there is a letter or nothing. -/
theorem IsExponent.endsDigits {exponent : Option Int} (hexponent : IsExponent text exponent) :
    EndsDigits text ∧ text.head? ≠ some '.' := by
  cases hexponent with
  | absent => simp [EndsDigits]
  | unsigned hletter | plus hletter | minus hletter =>
      rcases hletter with rfl | rfl <;> exact ⟨fun c hc => by cases hc; rfl, by simp⟩

theorem IsFraction.endsDigits {fraction : Option (List Char)} (hfraction : IsFraction text fraction)
    (hrest : EndsDigits rest) : EndsDigits (text ++ rest) := by
  cases hfraction with
  | absent => exact hrest
  | present hdigits =>
      intro c hc
      cases hc
      rfl

/-- Reads a numeral behind its sign. -/
def readUnsigned? (negative : Bool) (text : List Char) : Option Literal :=
  (wholePart? text).bind fun whole =>
    (fractionPart? whole.2).bind fun fraction =>
      (exponentPart? fraction.2).bind fun exponent =>
        if exponent.2 = [] then some ⟨negative, whole.1, fraction.1, exponent.1⟩ else none

theorem read?_minus (rest : List Char) :
    Literal.read? ('-' :: rest) = readUnsigned? true rest := rfl

theorem read?_of_ne (hsign : ∀ rest, text ≠ '-' :: rest) :
    Literal.read? text = readUnsigned? false text := by
  unfold Literal.read?
  split
  rename_i negative unsigned heq
  split at heq
  · exact absurd rfl (hsign _)
  · cases heq
    rfl

theorem IsWhole.ne_minus (hwhole : IsWhole digits) (behind rest : List Char) :
    digits ++ behind ≠ '-' :: rest := by
  cases digits with
  | nil => exact absurd rfl hwhole.digits.1
  | cons first others =>
      intro heq
      have hdigit := hwhole.digits.2 first List.mem_cons_self
      rw [List.head_eq_of_cons_eq heq] at hdigit
      cases hdigit

/-- A numeral behind its sign is read part by part. -/
theorem readUnsigned?_append {negative : Bool} {whole behindWhole behindFraction : List Char}
    {fraction : Option (List Char)} {exponent : Option Int} (hwhole : IsWhole whole)
    (hfraction : IsFraction behindWhole fraction) (hexponent : IsExponent behindFraction exponent) :
    readUnsigned? negative (whole ++ (behindWhole ++ behindFraction)) =
      some ⟨negative, whole, fraction, exponent⟩ := by
  obtain ⟨hdigits, hpoint⟩ := hexponent.endsDigits
  rw [readUnsigned?, wholePart?_append hwhole (hfraction.endsDigits hdigits), Option.bind_some,
    fractionPart?_append hfraction hdigits hpoint, Option.bind_some,
    exponentPart?_of_isExponent hexponent, Option.bind_some, if_pos rfl]

/-- What is read behind a sign is a numeral. -/
theorem exists_of_readUnsigned? {negative : Bool} {literal : Literal}
    (hread : readUnsigned? negative text = some literal) :
    ∃ whole behindWhole behindFraction fraction exponent, IsWhole whole ∧
      IsFraction behindWhole fraction ∧ IsExponent behindFraction exponent ∧
      text = whole ++ (behindWhole ++ behindFraction) ∧
      literal = ⟨negative, whole, fraction, exponent⟩ := by
  obtain ⟨⟨whole, rest⟩, hwhole, hread⟩ := Option.bind_eq_some_iff.mp hread
  obtain ⟨⟨fraction, rest'⟩, hfraction, hread⟩ := Option.bind_eq_some_iff.mp hread
  obtain ⟨⟨exponent, rest''⟩, hexponent, hread⟩ := Option.bind_eq_some_iff.mp hread
  dsimp only at hfraction hexponent hread
  split at hread
  · rename_i hnil
    cases hread
    rw [hnil] at hexponent
    obtain ⟨hwhole, htext⟩ := eq_append_of_wholePart? hwhole
    obtain ⟨behindWhole, hfraction, hbehind⟩ := exists_of_fractionPart? hfraction
    refine ⟨whole, behindWhole, rest', fraction, exponent, hwhole, hfraction,
      isExponent_of_exponentPart? hexponent, ?_, rfl⟩
    rw [htext, hbehind]
  · cases hread

/-- A text is read as a number exactly if it is one. -/
theorem Literal.read?_eq_some_iff {literal : Literal} :
    Literal.read? text = some literal ↔ IsNumeral text literal := by
  constructor
  · intro hread
    by_cases hsign : ∃ rest, text = '-' :: rest
    · obtain ⟨rest, rfl⟩ := hsign
      rw [read?_minus] at hread
      obtain ⟨whole, behindWhole, behindFraction, fraction, exponent, hwhole, hfraction,
        hexponent, rfl, rfl⟩ := exists_of_readUnsigned? hread
      exact .negative hwhole hfraction hexponent
    · rw [read?_of_ne (not_exists.mp hsign)] at hread
      obtain ⟨whole, behindWhole, behindFraction, fraction, exponent, hwhole, hfraction,
        hexponent, rfl, rfl⟩ := exists_of_readUnsigned? hread
      exact .unsigned hwhole hfraction hexponent
  · intro hnumeral
    cases hnumeral with
    | negative hwhole hfraction hexponent =>
        rw [read?_minus]
        exact readUnsigned?_append hwhole hfraction hexponent
    | unsigned hwhole hfraction hexponent =>
        rw [read?_of_ne (hwhole.ne_minus _)]
        exact readUnsigned?_append hwhole hfraction hexponent

/-! ## Numbers

A number without a point and an exponent is kept exactly if it fits a signed 64-bit word.  Of
any other one the digits are kept that fit an unsigned 64-bit word.  Digits before the point
that do not fit count as places, and those behind the point are dropped.
-/

theorem digitsValue_append (front back : List Char) :
    digitsValue (front ++ back) = 10 ^ back.length * digitsValue front + digitsValue back :=
  (Nat.ofDigitChars_append 0).trans Nat.ofDigitChars_eq_ofDigitChars_zero

/-- The digits that are taken behind those before them fit an unsigned 64-bit word, and the
next one would not. -/
structure AreMost (before taken left : List Char) : Prop where
  fits : digitsValue (before ++ taken) < 2 ^ 64
  full : ∀ c ∈ left.head?, 2 ^ 64 ≤ digitsValue (before ++ taken ++ [c])

/-- The decimal that is kept of a number. -/
inductive IsKept (literal : Literal) : Decimal → Prop where
  | intro {whole uncounted fraction dropped : List Char}
      (hwhole : literal.whole = whole ++ uncounted) (hmostWhole : AreMost [] whole uncounted)
      (hfraction : literal.fraction.getD [] = fraction ++ dropped)
      (hmostFraction : AreMost whole fraction dropped) :
      IsKept literal ⟨digitsValue (whole ++ fraction),
        literal.exponent.getD 0 + uncounted.length - fraction.length⟩

/-- The whole number that is written without a point and an exponent, if it fits a signed
64-bit word; minus zero is none. -/
inductive IsWord (literal : Literal) : Int → Prop where
  | positive (hfraction : literal.fraction = none) (hexponent : literal.exponent = none)
      (hsign : literal.negative = false) (hbound : digitsValue literal.whole < 2 ^ 63) :
      IsWord literal (digitsValue literal.whole)
  | negative (hfraction : literal.fraction = none) (hexponent : literal.exponent = none)
      (hsign : literal.negative = true) (hzero : digitsValue literal.whole ≠ 0)
      (hbound : digitsValue literal.whole ≤ 2 ^ 63) : IsWord literal (-digitsValue literal.whole)

inductive IsNumber (literal : Literal) : Number → Prop where
  | whole {value : Int} (hword : IsWord literal value) : IsNumber literal (.whole value)
  | real {decimal : Decimal} {magnitude : Binary64} (hword : ∀ value, ¬ IsWord literal value)
      (hkept : IsKept literal decimal) (hreading : Binary64.IsReading decimal magnitude) :
      IsNumber literal (.real literal.negative magnitude)

theorem digitsValue_append_singleton (text : List Char) (c : Char) :
    digitsValue (text ++ [c]) = 10 * digitsValue text + (c.toNat - '0'.toNat) := by
  rw [digitsValue, List.foldl_append]
  rfl

theorem AreMost.extendCoefficient_eq {before taken left : List Char}
    (hmost : AreMost before taken left) :
    Literal.extendCoefficient (digitsValue before) (taken ++ left) =
      (digitsValue (before ++ taken), left) := by
  induction taken generalizing before with
  | nil =>
      rw [List.nil_append, List.append_nil]
      cases left with
      | nil => rfl
      | cons c left =>
          have hfull := hmost.full c rfl
          rw [List.append_nil, digitsValue_append_singleton] at hfull
          rw [Literal.extendCoefficient]
          exact if_neg (Nat.not_lt_of_le hfull)
  | cons c taken ih =>
      have happend : before ++ c :: taken = before ++ [c] ++ taken := by simp
      have hfits := hmost.fits
      have hle : digitsValue (before ++ [c]) ≤ digitsValue (before ++ [c] ++ taken) := by
        rw [digitsValue_append (before ++ [c])]
        exact Nat.le_add_right_of_le (Nat.le_mul_of_pos_left _ (Nat.pow_pos (by decide)))
      have hmore : AreMost (before ++ [c]) taken left :=
        ⟨happend ▸ hfits, fun d hd => happend ▸ hmost.full d hd⟩
      have hextended : 10 * digitsValue before + (c.toNat - '0'.toNat) < 2 * wordBound := by
        rw [← digitsValue_append_singleton]
        exact Nat.lt_of_le_of_lt hle hmore.fits
      rw [List.cons_append, Literal.extendCoefficient, if_pos hextended,
        ← digitsValue_append_singleton, ih hmore, happend]

theorem exists_areMost (before digits : List Char) (hfits : digitsValue before < 2 ^ 64) :
    ∃ taken left, digits = taken ++ left ∧ AreMost before taken left := by
  induction digits generalizing before with
  | nil => exact ⟨[], [], rfl, by rwa [List.append_nil], by simp⟩
  | cons c rest ih =>
      by_cases hmore : digitsValue (before ++ [c]) < 2 ^ 64
      · obtain ⟨taken, left, rfl, hmost⟩ := ih (before ++ [c]) hmore
        have happend : before ++ [c] ++ taken = before ++ c :: taken := by simp
        exact ⟨c :: taken, left, rfl, happend ▸ hmost.fits, fun d hd => happend ▸ hmost.full d hd⟩
      · refine ⟨[], c :: rest, rfl, by rwa [List.append_nil], ?_⟩
        intro d hd
        cases hd
        rw [List.append_nil]
        exact Nat.le_of_not_lt hmore

theorem IsKept.magnitude_eq {literal : Literal} {decimal : Decimal}
    (hkept : IsKept literal decimal) : literal.magnitude = decimal := by
  cases hkept with
  | @intro whole uncounted fraction dropped hwhole hmostWhole hfraction hmostFraction =>
      have hread : Literal.extendCoefficient 0 (whole ++ uncounted) =
        (digitsValue whole, uncounted) := hmostWhole.extendCoefficient_eq
      have hread' := hmostFraction.extendCoefficient_eq
      rw [Literal.magnitude, hwhole, hfraction]
      simp only [hread, hread', List.length_append, Nat.cast_add, add_sub_cancel_right]

/-- The magnitude of a number is the decimal that is kept of it. -/
theorem magnitude_eq_iff {literal : Literal} {decimal : Decimal} :
    literal.magnitude = decimal ↔ IsKept literal decimal := by
  constructor
  · rintro rfl
    obtain ⟨whole, uncounted, hwhole, hmostWhole⟩ :=
      exists_areMost [] literal.whole (by decide)
    obtain ⟨fraction, dropped, hfraction, hmostFraction⟩ :=
      exists_areMost whole (literal.fraction.getD []) hmostWhole.fits
    have hkept := IsKept.intro hwhole hmostWhole hfraction hmostFraction
    rwa [hkept.magnitude_eq]
  · intro hkept
    exact hkept.magnitude_eq

theorem IsKept.coefficient_lt {literal : Literal} {decimal : Decimal}
    (hkept : IsKept literal decimal) : decimal.coefficient < 2 ^ 64 := by
  cases hkept with
  | intro _ _ _ hmostFraction => exact hmostFraction.fits

theorem word?_eq_some_iff {literal : Literal} {value : Int} :
    literal.word? = some value ↔ IsWord literal value := by
  have hbound : wordBound = 2 ^ 63 := rfl
  rw [Literal.word?, hbound]
  constructor
  · intro hword
    split_ifs at hword with hplain hsign hnegative hpositive
    · obtain ⟨hfraction, hexponent⟩ := not_or.mp hplain
      cases hword
      exact .negative (not_not.mp hfraction) (not_not.mp hexponent) hsign hnegative.1 hnegative.2
    · obtain ⟨hfraction, hexponent⟩ := not_or.mp hplain
      cases hword
      exact .positive (not_not.mp hfraction) (not_not.mp hexponent)
        (Bool.not_eq_true _ ▸ hsign) hpositive
  · intro hword
    cases hword with
    | positive hfraction hexponent hsign hbound =>
        have hplain : ¬ (literal.fraction ≠ none ∨ literal.exponent ≠ none) := by
          simp [hfraction, hexponent]
        rw [if_neg hplain, if_neg (Bool.not_eq_true _ ▸ hsign), if_pos hbound]
    | negative hfraction hexponent hsign hzero hbound =>
        have hplain : ¬ (literal.fraction ≠ none ∨ literal.exponent ≠ none) := by
          simp [hfraction, hexponent]
        rw [if_neg hplain, if_pos hsign, if_pos ⟨hzero, hbound⟩]

/-- A number is kept as a whole number or as a binary64, or it is out of range. -/
theorem number?_eq_some_iff {literal : Literal} {number : Number} :
    literal.number? = some number ↔ IsNumber literal number := by
  rw [Literal.number?]
  constructor
  · intro h
    cases hword : literal.word? with
    | some value =>
        rw [hword] at h
        cases h
        exact .whole (word?_eq_some_iff.mp hword)
    | none =>
        rw [hword] at h
        obtain ⟨magnitude, hmagnitude, rfl⟩ := Option.map_eq_some_iff.mp h
        have hkept := magnitude_eq_iff.mp (Eq.refl literal.magnitude)
        refine .real ?_ hkept ((Binary64.ofDecimal?_eq_some_iff hkept.coefficient_lt).mp hmagnitude)
        intro value hvalue
        rw [word?_eq_some_iff.mpr hvalue] at hword
        cases hword
  · intro hnumber
    cases hnumber with
    | whole hword => rw [word?_eq_some_iff.mpr hword]
    | @real decimal magnitude hword hkept hreading =>
        have hnone : literal.word? = none := by
          rw [Option.eq_none_iff_forall_ne_some]
          intro value hvalue
          exact hword value (word?_eq_some_iff.mp hvalue)
        rw [hnone, hkept.magnitude_eq,
          (Binary64.ofDecimal?_eq_some_iff hkept.coefficient_lt).mpr hreading]
        rfl

/-! ## Words -/

/-- The word is a constant, or a number in the range of binary64. -/
inductive IsScalar : List Char → Json → Prop where
  | null : IsScalar "null".toList .null
  | yes : IsScalar "true".toList (.bool true)
  | no : IsScalar "false".toList (.bool false)
  | number {word : List Char} {literal : Literal} {number : Number}
      (hnumeral : IsNumeral word literal) (hnumber : IsNumber literal number) :
      IsScalar word (.number number)

/-- A word has the value of the constant or the number that it is. -/
theorem wordValue?_eq_some_iff {word : List Char} {value : Json} :
    wordValue? word = some value ↔ IsScalar word value := by
  constructor
  · intro hvalue
    rw [wordValue?] at hvalue
    split_ifs at hvalue with hnull htrue hfalse
    · cases hvalue
      exact hnull ▸ .null
    · cases hvalue
      exact htrue ▸ .yes
    · cases hvalue
      exact hfalse ▸ .no
    · obtain ⟨number, hnumber, rfl⟩ := Option.map_eq_some_iff.mp hvalue
      obtain ⟨literal, hread, hnumber⟩ := Option.bind_eq_some_iff.mp hnumber
      exact .number (Literal.read?_eq_some_iff.mp hread) (number?_eq_some_iff.mp hnumber)
  · intro hscalar
    cases hscalar with
    | null | yes | no => rfl
    | @number word literal number hnumeral hnumber =>
        have hread := Literal.read?_eq_some_iff.mpr hnumeral
        have hunread : ∀ constant ∈ ["null".toList, "true".toList, "false".toList],
            Literal.read? constant = none := by decide
        have hconstants : ∀ constant ∈ ["null".toList, "true".toList, "false".toList],
            word ≠ constant := by
          intro constant hmem heq
          rw [heq, hunread constant hmem] at hread
          cases hread
        rw [wordValue?, if_neg (hconstants _ (by simp)), if_neg (hconstants _ (by simp)),
          if_neg (hconstants _ (by simp)), hread, Option.bind_some,
          number?_eq_some_iff.mpr hnumber]
        rfl

end FieldWiring.Json
