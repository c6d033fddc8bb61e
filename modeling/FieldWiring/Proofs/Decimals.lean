import Mathlib.Data.List.Induction
import FieldWiring.Proofs.Numerals

/-!
# Decimals as texts

A whole number has one text without zeros in front.  A decimal in positional form is a whole
part of that kind, and behind the point as many digits as its exponent asks for.
-/

namespace FieldWiring.Json

variable {text whole fraction : List Char}

/-! ## Digits -/

theorem isDigits_toDigits (number : Nat) : IsDigits (Nat.toDigits 10 number) :=
  ⟨Nat.toDigits_ne_nil, fun _ => Nat.isDigit_of_mem_toDigits (by decide) (by decide)⟩

theorem digitsValue_toDigits (number : Nat) : digitsValue (Nat.toDigits 10 number) = number :=
  Nat.ofDigitChars_ten_toDigits

theorem digitsValue_replicate_append (count : Nat) (text : List Char) :
    digitsValue (List.replicate count '0' ++ text) = digitsValue text := by
  induction count with
  | zero => rfl
  | succ count ih => exact ih

theorem exists_digitChar {c : Char} (hdigit : c.isDigit = true) :
    ∃ digit < 10, c = Nat.digitChar digit := by
  simp only [Char.isDigit, Bool.and_eq_true, decide_eq_true_eq, ge_iff_le, UInt32.le_iff_toNat_le]
    at hdigit
  have hlow : 48 ≤ c.toNat := hdigit.1
  have hhigh : c.toNat ≤ 57 := hdigit.2
  refine ⟨c.toNat - 48, by omega, ?_⟩
  rw [← Char.toNat_inj, Nat.toNat_digitChar_of_lt_ten (by omega)]
  omega

theorem digitsValue_singleton {digit : Nat} (hdigit : digit < 10) :
    digitsValue [Nat.digitChar digit] = digit :=
  (Nat.zero_add _).trans (Nat.toNat_digitChar_sub_48_of_lt_ten hdigit)

theorem digitsValue_cons {digit : Nat} (hdigit : digit < 10) (text : List Char) :
    digitsValue (Nat.digitChar digit :: text) = 10 ^ text.length * digit + digitsValue text := by
  rw [← List.singleton_append, digitsValue_append, digitsValue_singleton hdigit]

theorem digitsValue_lt (hdigits : ∀ c ∈ text, c.isDigit = true) :
    digitsValue text < 10 ^ text.length := by
  induction text with
  | nil => decide
  | cons c rest ih =>
      obtain ⟨hc, hrest⟩ := List.forall_mem_cons.mp hdigits
      obtain ⟨digit, hdigit, rfl⟩ := exists_digitChar hc
      have hplace := Nat.mul_le_mul_left (10 ^ rest.length) (Nat.le_of_lt_succ hdigit)
      have := ih hrest
      rw [digitsValue_cons hdigit, List.length_cons, Nat.pow_succ]
      omega

/-- A whole number has one text without zeros in front, by induction from its last digit. -/
theorem IsWhole.toDigits_digitsValue (hwhole : IsWhole text) :
    Nat.toDigits 10 (digitsValue text) = text := by
  induction text using List.reverseRecOn with
  | nil => exact absurd rfl hwhole.digits.1
  | append_singleton front last ih =>
      obtain ⟨digit, hdigit, rfl⟩ := exists_digitChar (hwhole.digits.2 last (by simp))
      rw [digitsValue_append, digitsValue_singleton hdigit]
      cases front with
      | nil =>
          have hvalue : 10 ^ 1 * digitsValue [] + digit = digit := Nat.zero_add digit
          rw [List.length_singleton, hvalue]
          exact Nat.toDigits_of_lt_base hdigit
      | cons first others =>
          have hzero : first ≠ '0' := by
            rintro rfl
            simpa using hwhole.zero rfl
          have hfront : IsWhole (first :: others) :=
            ⟨⟨List.cons_ne_nil _ _, fun c hc => hwhole.digits.2 c (List.mem_append_left _ hc)⟩,
              fun hhead => absurd (Option.some.inj hhead) hzero⟩
          have hpositive : 0 < digitsValue (first :: others) := by
            apply Nat.pos_of_ne_zero
            intro hvalue
            have htext := ih hfront
            rw [hvalue] at htext
            exact hzero (List.head_eq_of_cons_eq htext).symm
          have happend := Nat.toDigits_append_toDigits (by decide) hpositive hdigit
          rw [ih hfront, Nat.toDigits_of_lt_base hdigit] at happend
          exact happend.symm

/-- Digits are those of their value behind zeros, by induction on the zeros. -/
theorem eq_replicate_append_toDigits (hdigits : IsDigits text) :
    List.replicate (text.length - (Nat.toDigits 10 (digitsValue text)).length) '0' ++
      Nat.toDigits 10 (digitsValue text) = text := by
  induction text with
  | nil => exact absurd rfl hdigits.1
  | cons first others ih =>
      by_cases hwhole : IsWhole (first :: others)
      · rw [hwhole.toDigits_digitsValue, Nat.sub_self, List.replicate_zero, List.nil_append]
      · have hzero : first = '0' := by
          by_contra hne
          exact hwhole ⟨hdigits, fun hhead => absurd (Option.some.inj hhead) hne⟩
        have hothers : IsDigits others := by
          refine ⟨?_, (List.forall_mem_cons.mp hdigits.2).2⟩
          rintro rfl
          exact hwhole ⟨hdigits, fun _ => by rw [hzero]⟩
        have hle : (Nat.toDigits 10 (digitsValue others)).length ≤ others.length := by
          rw [Nat.length_toDigits_le_iff (by decide) (List.length_pos_of_ne_nil hothers.1)]
          exact digitsValue_lt hothers.2
        have hvalue : digitsValue (first :: others) = digitsValue others := by
          rw [hzero]
          rfl
        rw [hvalue, List.length_cons, Nat.succ_sub hle, List.replicate_succ, List.cons_append,
          ih hothers, hzero]

theorem isWhole_toDigits (number : Nat) : IsWhole (Nat.toDigits 10 number) := by
  refine ⟨isDigits_toDigits number, ?_⟩
  induction number using Nat.strongRecOn with
  | ind number ih =>
      rcases Nat.lt_or_ge number 10 with hlt | hge
      · rw [Nat.toDigits_of_lt_base hlt]
        intro hhead
        rw [Option.some.inj hhead]
      · rw [Nat.toDigits_of_base_le (by decide) hge, List.head?_append]
        intro hhead
        have hfront : (Nat.toDigits 10 (number / 10)).head? = some '0' := by
          cases hdigits : Nat.toDigits 10 (number / 10) with
          | nil => exact absurd hdigits Nat.toDigits_ne_nil
          | cons first others =>
              rw [hdigits] at hhead
              exact hhead
        have hzero := digitsValue_toDigits (number / 10)
        rw [ih (number / 10) (by omega) hfront] at hzero
        have hvalue : digitsValue ['0'] = 0 := rfl
        omega

theorem toDigits_mul_pow {number places : Nat} (hnumber : number ≠ 0 ∨ places = 0) :
    Nat.toDigits 10 (number * 10 ^ places) =
      Nat.toDigits 10 number ++ List.replicate places '0' := by
  induction places with
  | zero => rw [Nat.pow_zero, Nat.mul_one, List.replicate_zero, List.append_nil]
  | succ places ih =>
      have hpositive : 0 < number := Nat.pos_of_ne_zero (hnumber.resolve_right (by simp))
      have hpower : 0 < number * 10 ^ places :=
        Nat.mul_pos hpositive (Nat.pow_pos (by decide))
      have happend := Nat.toDigits_append_toDigits (by decide) hpower (by decide : 0 < 10)
      rw [ih (.inl (Nat.ne_of_gt hpositive)), Nat.toDigits_zero, Nat.add_zero,
        List.append_assoc, ← List.replicate_succ'] at happend
      rw [Nat.pow_succ, ← Nat.mul_assoc, Nat.mul_comm _ 10]
      exact happend.symm

/-! ## Positional form -/

/-- The text of a decimal without an exponent: a whole number, or a point with as many digits
behind it as the decimal has. -/
inductive IsPositional (decimal : Decimal) : List Char → Prop where
  | whole {text : List Char} (hwhole : IsWhole text) (hexponent : 0 ≤ decimal.exponent)
      (hvalue : digitsValue text = decimal.coefficient * 10 ^ decimal.exponent.toNat) :
      IsPositional decimal text
  | point {whole fraction : List Char} (hwhole : IsWhole whole) (hfraction : IsDigits fraction)
      (hexponent : decimal.exponent = -fraction.length)
      (hvalue : digitsValue (whole ++ fraction) = decimal.coefficient) :
      IsPositional decimal (whole ++ '.' :: fraction)

variable {decimal : Decimal}

/-- The digits of a coefficient, with zeros in front so that one stands before the point. -/
def paddedDigits (coefficient places : Nat) : List Char :=
  List.replicate (places + 1 - (Nat.toDigits 10 coefficient).length) '0' ++
    Nat.toDigits 10 coefficient

theorem positional_of_nonneg (hexponent : 0 ≤ decimal.exponent) :
    decimal.positional = String.ofList (Nat.toDigits 10 decimal.coefficient ++
      List.replicate decimal.exponent.toNat '0') := by
  rw [Decimal.positional]
  exact if_pos hexponent

theorem positional_of_eq_neg {places : Nat} (hexponent : decimal.exponent = -places)
    (hplaces : places ≠ 0) :
    decimal.positional =
      let padded := paddedDigits decimal.coefficient places
      String.ofList (padded.take (padded.length - places) ++
        '.' :: padded.drop (padded.length - places)) := by
  have hnegative : ¬ 0 ≤ decimal.exponent := by omega
  have hcount : (-decimal.exponent).toNat = places := by omega
  rw [Decimal.positional]
  dsimp only
  rw [if_neg hnegative, hcount]
  rfl

/-- With a whole part in front, the digits of a fraction are those of its coefficient. -/
theorem paddedDigits_digitsValue (hwhole : IsWhole whole) (hfraction : IsDigits fraction) :
    paddedDigits (digitsValue (whole ++ fraction)) fraction.length = whole ++ fraction := by
  have hdigits : IsDigits (whole ++ fraction) := by
    refine ⟨List.append_ne_nil_of_right_ne_nil _ hfraction.1, ?_⟩
    intro c hmem
    exact (List.mem_append.mp hmem).elim (hwhole.digits.2 c) (hfraction.2 c)
  have hpadded := eq_replicate_append_toDigits hdigits
  by_cases hzero : whole.head? = some '0'
  · rw [hwhole.zero hzero] at hpadded ⊢
    rwa [List.length_append, List.length_singleton, Nat.add_comm 1] at hpadded
  · have hall : IsWhole (whole ++ fraction) := by
      refine ⟨hdigits, ?_⟩
      intro hhead
      rw [List.head?_append] at hhead
      cases whole with
      | nil => exact absurd rfl hwhole.digits.1
      | cons first others => exact absurd hhead hzero
    have hlength : fraction.length + 1 ≤ (whole ++ fraction).length := by
      have := List.length_pos_of_ne_nil hwhole.digits.1
      rw [List.length_append]
      omega
    rw [paddedDigits, hall.toDigits_digitsValue, Nat.sub_eq_zero_of_le hlength,
      List.replicate_zero, List.nil_append]

theorem IsPositional.positional_eq (hpositional : IsPositional decimal text)
    (hcoefficient : decimal.coefficient ≠ 0 ∨ decimal.exponent ≤ 0) :
    decimal.positional = String.ofList text := by
  cases hpositional with
  | whole hwhole hexponent hvalue =>
      have hcount : decimal.coefficient ≠ 0 ∨ decimal.exponent.toNat = 0 :=
        hcoefficient.imp_right fun hle => by omega
      rw [positional_of_nonneg hexponent, ← toDigits_mul_pow hcount, ← hvalue,
        hwhole.toDigits_digitsValue]
  | @point whole fraction hwhole hfraction hexponent hvalue =>
      have hplaces : fraction.length ≠ 0 :=
        Nat.ne_of_gt (List.length_pos_of_ne_nil hfraction.1)
      rw [positional_of_eq_neg hexponent hplaces, ← hvalue]
      dsimp only
      rw [paddedDigits_digitsValue hwhole hfraction, List.length_append, Nat.add_sub_cancel,
        List.take_left, List.drop_left]

theorem length_paddedDigits (coefficient places : Nat) :
    places + 1 ≤ (paddedDigits coefficient places).length := by
  rw [paddedDigits, List.length_append, List.length_replicate]
  omega

theorem isDigit_of_mem_paddedDigits {coefficient places : Nat} {c : Char}
    (hmem : c ∈ paddedDigits coefficient places) : c.isDigit = true := by
  rcases List.mem_append.mp hmem with hzero | hdigit
  · rw [List.eq_of_mem_replicate hzero]
    rfl
  · exact (isDigits_toDigits coefficient).2 c hdigit

/-- Before the point there is no zero in front of other digits. -/
theorem isWhole_take_paddedDigits (coefficient places : Nat) :
    IsWhole ((paddedDigits coefficient places).take
      ((paddedDigits coefficient places).length - places)) := by
  have hlength := length_paddedDigits coefficient places
  refine ⟨⟨?_, fun c hmem => isDigit_of_mem_paddedDigits (List.mem_of_mem_take hmem)⟩, ?_⟩
  · intro hnil
    have hzero := congrArg List.length hnil
    rw [List.length_take, List.length_nil] at hzero
    omega
  · intro hhead
    rw [List.head?_take, if_neg (by omega)] at hhead
    by_cases hfew : (Nat.toDigits 10 coefficient).length ≤ places
    · obtain ⟨zeros, hzeros⟩ := Nat.exists_eq_add_one_of_ne_zero
        (Nat.sub_ne_zero_of_lt (Nat.lt_succ_of_le hfew))
      have hcount : (paddedDigits coefficient places).length - places = 1 := by
        rw [paddedDigits, List.length_append, List.length_replicate]
        omega
      rw [hcount, paddedDigits, hzeros, List.replicate_succ]
      rfl
    · have hnone : places + 1 - (Nat.toDigits 10 coefficient).length = 0 := by omega
      rw [paddedDigits, hnone, List.replicate_zero, List.nil_append] at hhead hlength ⊢
      rw [(isWhole_toDigits coefficient).zero hhead] at hlength ⊢
      have hplaces : places = 0 := Nat.le_zero.mp (Nat.le_of_succ_le_succ hlength)
      rw [hplaces]
      rfl

/-- Behind the point there are as many digits as places. -/
theorem length_drop_paddedDigits (coefficient places : Nat) :
    ((paddedDigits coefficient places).drop
      ((paddedDigits coefficient places).length - places)).length = places := by
  have hlength := length_paddedDigits coefficient places
  rw [List.length_drop]
  omega

theorem exists_isPositional (decimal : Decimal) : ∃ text, IsPositional decimal text := by
  by_cases hexponent : 0 ≤ decimal.exponent
  · exact ⟨_, .whole (isWhole_toDigits _) hexponent (digitsValue_toDigits _)⟩
  · obtain ⟨places, hplaces⟩ : ∃ places : Nat, decimal.exponent = -places :=
      ⟨(-decimal.exponent).toNat, by omega⟩
    have hdrop := length_drop_paddedDigits decimal.coefficient places
    refine ⟨_, .point (isWhole_take_paddedDigits decimal.coefficient places) ⟨?_, ?_⟩
      (hplaces.trans (congrArg (fun length : Nat => -(length : Int)) hdrop.symm)) ?_⟩
    · intro hnil
      rw [hnil, List.length_nil] at hdrop
      omega
    · intro c hmem
      exact isDigit_of_mem_paddedDigits (List.mem_of_mem_drop hmem)
    · rw [List.take_append_drop]
      exact (digitsValue_replicate_append _ _).trans (digitsValue_toDigits _)

/-- The positional form of a decimal is its text. -/
theorem positional_eq_iff (hcoefficient : decimal.coefficient ≠ 0 ∨ decimal.exponent ≤ 0) :
    decimal.positional = String.ofList text ↔ IsPositional decimal text := by
  constructor
  · intro heq
    obtain ⟨written, hwritten⟩ := exists_isPositional decimal
    rw [hwritten.positional_eq hcoefficient, String.ofList_inj] at heq
    rwa [heq] at hwritten
  · intro hpositional
    exact hpositional.positional_eq hcoefficient

end FieldWiring.Json
