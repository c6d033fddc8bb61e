import FieldWiring.Json
import FieldWiring.Proofs.Rounding

/-!
# Numbers as binary64

A number of the data format is brought to binary64 in steps, each of which is rounded: its
coefficient, a power of ten, and their product or quotient.  A power of ten that is not finite
is divided by in several steps, and two of them leave nothing of a coefficient of 64 bits.
-/

namespace FieldWiring.Binary64

variable {magnitude other front power quotient result : Binary64} {x : ℚ} {number places : ℕ}

/-! ## Bounds -/

theorem IsNearest.value_le (hnearest : magnitude.IsNearest x) (hother : other.IsCanonical)
    (hle : x ≤ other.value) : magnitude.value ≤ other.value := by
  by_contra hgt
  have hnearer := hnearest.nearest other hother
  rw [abs_of_nonpos (by linarith), abs_of_nonpos (by linarith)] at hnearer
  linarith

theorem IsNearest.le_value (hnearest : magnitude.IsNearest x) (hother : other.IsCanonical)
    (hle : other.value ≤ x) : other.value ≤ magnitude.value := by
  by_contra hlt
  have hnearer := hnearest.nearest other hother
  rw [abs_of_nonneg (by linarith), abs_of_nonneg (by linarith)] at hnearer
  linarith

theorem isCanonical_twoPow (doublings : ℕ) : IsCanonical ⟨2 ^ 52, doublings⟩ :=
  ⟨by norm_num, .inr le_rfl⟩

theorem value_twoPow (doublings : ℕ) :
    value ⟨2 ^ 52, doublings⟩ = 2 ^ ((doublings : ℤ) - 1022) := by
  rw [value, Nat.cast_pow, Nat.cast_ofNat, ← zpow_natCast, ← zpow_add₀ two_ne_zero]
  congr 1
  push_cast
  ring

theorem value_twoPow_add (exponent : ℕ) :
    value ⟨2 ^ 52, 1022 + exponent⟩ = 2 ^ (exponent : ℤ) := by
  rw [value_twoPow, Nat.cast_add, Nat.cast_ofNat, add_sub_cancel_left]

theorem value_nonneg (magnitude : Binary64) : 0 ≤ magnitude.value := by
  rw [value]
  positivity

theorem value_zero : value ⟨0, 0⟩ = 0 := by
  rw [value, Nat.cast_zero, zero_mul]

/-- Half of the least magnitude and anything below it is rounded to zero. -/
theorem isRounded_zero (hx : 0 ≤ x) (hsmall : x ≤ 2 ^ (-1075 : ℤ)) : IsRounded ⟨0, 0⟩ x := by
  have hcanonical : IsCanonical ⟨0, 0⟩ := ⟨by norm_num, .inl rfl⟩
  refine ⟨(hcanonical.isNearest_iff hx).mpr ?_, Nat.zero_le _⟩
  have hquarters : quarters x ≤ 2 := by
    calc
      quarters x ≤ quarters (2 ^ (-1075 : ℤ)) := mul_le_mul_of_nonneg_left hsmall quarters_pos.le
      _ = 2 := by
        rw [quarters, cast_unitsPerOne, mul_assoc, ← zpow_add₀ two_ne_zero]
        norm_num
  have hends : (neighbourhood ⟨0, 0⟩).Contains (quarters x) ↔
      (0 : ℕ) ≤ quarters x ∧ quarters x ≤ (2 : ℕ) := Iff.rfl
  rw [hends]
  exact ⟨by exact_mod_cast quarters_nonneg hx, by exact_mod_cast hquarters⟩

theorem IsNearest.mantissa_ne_zero (hnearest : magnitude.IsNearest x) (hx : 1 ≤ x) :
    magnitude.mantissa ≠ 0 := by
  intro hzero
  have hone := isCanonical_twoPow 1022
  have hvalue := hnearest.le_value hone (by rw [value_twoPow]; simpa using hx)
  rw [value_twoPow, value, hzero] at hvalue
  norm_num at hvalue

/-! ## Division by powers of ten -/

def divideBy? (front : Binary64) (places : ℕ) : Option Binary64 :=
  (ofNat? (Nat.pow 10 places)).bind front.div?

theorem one_le_pow (places : ℕ) : (1 : ℚ) ≤ 10 ^ places := one_le_pow₀ (by norm_num)

theorem divideBy?_eq_some_iff :
    front.divideBy? places = some quotient ↔
      ∃ power, IsRounded power (10 ^ places) ∧ quotient.IsRounded (front.value / power.value) := by
  rw [divideBy?, Option.bind_eq_some_iff]
  simp only [ofNat?_pow_eq_some_iff]
  constructor
  · intro h
    obtain ⟨power, hpower, hquotient⟩ := h
    have hpositive := hpower.nearest.mantissa_ne_zero (one_le_pow places)
    exact ⟨power, hpower, (div?_eq_some_iff hpositive).mp hquotient⟩
  · intro h
    obtain ⟨power, hpower, hquotient⟩ := h
    have hpositive := hpower.nearest.mantissa_ne_zero (one_le_pow places)
    exact ⟨power, hpower, (div?_eq_some_iff hpositive).mpr hquotient⟩

/-- The greatest finite magnitude. -/
def greatest : Binary64 := ⟨2 ^ 53 - 1, maxDoublings⟩

/-- What is not above the greatest finite magnitude is rounded to a finite one. -/
theorem IsNearest.isRounded (hnearest : magnitude.IsNearest x) (hle : x ≤ greatest.value) :
    magnitude.IsRounded x := by
  refine ⟨hnearest, ?_⟩
  by_contra hgt
  have hgreatest : greatest.IsCanonical := ⟨by norm_num [greatest], .inr (by norm_num [greatest])⟩
  have hbelow := hgreatest.units_lt (Nat.lt_of_not_le hgt)
  have habove := hnearest.canonical.le_units (Nat.ne_zero_of_lt (Nat.lt_of_not_le hgt))
  have hstep : 0 < 2 ^ magnitude.doublings := Nat.two_pow_pos _
  have hunits : (greatest.units : ℚ) < magnitude.units := by exact_mod_cast by omega
  have hvalue := hnearest.value_le hgreatest hle
  rw [value_eq_div, value_eq_div, div_le_div_iff_of_pos_right cast_unitsPerOne_pos] at hvalue
  linarith

theorem exists_power (hplaces : places ≤ maxPower) : ∃ power, IsRounded power (10 ^ places) := by
  have hnearest := rounded_isNearest (10 ^ places * unitsPerOne) one_pos
  rw [Nat.cast_mul, Nat.cast_one, one_mul, mul_div_cancel_right₀ _ cast_unitsPerOne_pos.ne',
    Nat.cast_pow, Nat.cast_ofNat] at hnearest
  have hmost : 10 ^ maxPower * unitsPerOne ≤ greatest.units := by decide +kernel
  refine ⟨_, hnearest.isRounded ?_⟩
  rw [value_eq_div, le_div_iff₀ cast_unitsPerOne_pos]
  calc
    (10 : ℚ) ^ places * unitsPerOne ≤ 10 ^ maxPower * unitsPerOne :=
      mul_le_mul_of_nonneg_right (pow_le_pow_right₀ (by norm_num) hplaces) cast_unitsPerOne_pos.le
    _ ≤ greatest.units := by exact_mod_cast hmost

/-- Zero stays zero. -/
theorem divideBy?_zero (hplaces : places ≤ maxPower) :
    divideBy? ⟨0, 0⟩ places = some ⟨0, 0⟩ := by
  obtain ⟨power, hpower⟩ := exists_power hplaces
  rw [divideBy?_eq_some_iff]
  refine ⟨power, hpower, ?_⟩
  rw [value_zero, zero_div]
  exact isRounded_zero le_rfl (by positivity)

/-- Two divisions by the greatest power leave nothing of a coefficient of 64 bits. -/
theorem eq_zero_of_divideBy?_twice (hnumber : number < 2 ^ 64) (hfront : front.IsRounded number)
    (hquotient : front.divideBy? maxPower = some quotient)
    (hresult : quotient.divideBy? maxPower = some result) : result = ⟨0, 0⟩ := by
  obtain ⟨power, hpower, hquotient⟩ := divideBy?_eq_some_iff.mp hquotient
  obtain ⟨other, hother, hresult⟩ := divideBy?_eq_some_iff.mp hresult
  rw [hother.unique hpower] at hresult
  have hmost : front.value ≤ 2 ^ ((64 : ℕ) : ℤ) := by
    have hle := hfront.nearest.value_le (isCanonical_twoPow (1022 + 64))
    rw [value_twoPow_add, zpow_natCast] at hle
    rw [zpow_natCast]
    exact hle (by exact_mod_cast hnumber.le)
  have hleast : 2 ^ ((1023 : ℕ) : ℤ) ≤ power.value := by
    have hpowers : 2 ^ 1023 ≤ 10 ^ maxPower := by decide +kernel
    have hle := hpower.nearest.le_value (isCanonical_twoPow (1022 + 1023))
    rw [value_twoPow_add, zpow_natCast] at hle
    rw [zpow_natCast]
    exact hle (by exact_mod_cast hpowers)
  have hdivide : ∀ {x : ℚ} {exponent : ℤ}, x ≤ 2 ^ exponent →
      x / power.value ≤ 2 ^ (exponent - (1023 : ℕ)) := by
    intro x exponent hx
    rw [zpow_sub₀ two_ne_zero]
    exact div_le_div₀ (by positivity) hx (by positivity) hleast
  have hsmall : quotient.value ≤ 2 ^ (((63 : ℕ) : ℤ) - 1022) := by
    have hle := hquotient.nearest.value_le (isCanonical_twoPow 63)
    rw [value_twoPow] at hle
    exact hle ((hdivide hmost).trans (zpow_le_zpow_right₀ one_le_two (by norm_num)))
  have hnonneg : 0 ≤ quotient.value / power.value :=
    div_nonneg (value_nonneg quotient) (value_nonneg power)
  refine hresult.unique (isRounded_zero hnonneg ((hdivide hsmall).trans ?_))
  exact zpow_le_zpow_right₀ one_le_two (by norm_num)

/-- The quotient by a power of ten, which is taken in steps as long as the power is not
finite. -/
inductive IsQuotient : Binary64 → ℕ → Binary64 → Prop where
  | last {front power quotient : Binary64} {places : ℕ} (hplaces : places ≤ 308)
      (hpower : IsRounded power (10 ^ places))
      (hquotient : quotient.IsRounded (front.value / power.value)) :
      IsQuotient front places quotient
  | step {front power quotient result : Binary64} {places : ℕ} (hplaces : 0 < places)
      (hpower : IsRounded power (10 ^ 308))
      (hquotient : quotient.IsRounded (front.value / power.value))
      (hresult : IsQuotient quotient places result) : IsQuotient front (places + 308) result

/-- Steps by the greatest power are followed by one with the places that are left. -/
theorem foldlM_divideBy?_eq_some_iff (hpositive : 0 < places) (hplaces : places ≤ maxPower)
    (steps : ℕ) :
    (List.replicate steps maxPower ++ [places]).foldlM divideBy? front = some result ↔
      IsQuotient front (places + steps * maxPower) result := by
  have hmost : places ≤ 308 := hplaces
  induction steps generalizing front with
  | zero =>
      rw [List.replicate_zero, List.nil_append, List.foldlM_cons, Nat.zero_mul, Nat.add_zero]
      change (front.divideBy? places).bind some = some result ↔ _
      rw [Option.bind_fun_some, divideBy?_eq_some_iff]
      constructor
      · intro h
        obtain ⟨power, hpower, hresult⟩ := h
        exact .last hmost hpower hresult
      · intro hquotient
        cases hquotient with
        | last _ hpower hresult => exact ⟨_, hpower, hresult⟩
        | step hmore => omega
  | succ steps ih =>
      have hcount : places + (steps + 1) * maxPower = places + steps * maxPower + 308 := by
        rw [Nat.succ_mul, ← Nat.add_assoc]
        rfl
      rw [List.replicate_succ, List.cons_append, List.foldlM_cons, hcount]
      change (front.divideBy? maxPower).bind _ = some result ↔ _
      rw [Option.bind_eq_some_iff]
      constructor
      · intro h
        obtain ⟨quotient, hquotient, hresult⟩ := h
        obtain ⟨power, hpower, hquotient⟩ := divideBy?_eq_some_iff.mp hquotient
        exact .step (by omega) hpower hquotient (ih.mp hresult)
      · intro hquotient
        generalize htotal : places + steps * maxPower + 308 = total at hquotient
        cases hquotient with
        | last hfew => omega
        | step _ hpower hquotient hresult =>
            rw [← Nat.add_right_cancel htotal] at hresult
            exact ⟨_, divideBy?_eq_some_iff.mpr ⟨_, hpower, hquotient⟩, ih.mpr hresult⟩

theorem foldlM_divideBy?_zero (hplaces : places ≤ maxPower) (steps : ℕ) :
    (List.replicate steps maxPower ++ [places]).foldlM divideBy? ⟨0, 0⟩ = some ⟨0, 0⟩ := by
  induction steps with
  | zero =>
      rw [List.replicate_zero, List.nil_append, List.foldlM_cons, divideBy?_zero hplaces,
        Option.bind_eq_bind, Option.bind_some, List.foldlM_nil, Option.pure_def]
  | succ steps ih =>
      rw [List.replicate_succ, List.cons_append, List.foldlM_cons, divideBy?_zero le_rfl,
        Option.bind_eq_bind, Option.bind_some, ih]

/-- Steps behind the second one change nothing. -/
theorem foldlM_divideBy?_min (hplaces : places ≤ maxPower) (hnumber : number < 2 ^ 64)
    (hfront : front.IsRounded number) (steps : ℕ) :
    (List.replicate (min steps 2) maxPower ++ [places]).foldlM divideBy? front =
      (List.replicate steps maxPower ++ [places]).foldlM divideBy? front := by
  rcases Nat.lt_or_ge steps 2 with hfew | hmany
  · rw [Nat.min_eq_left hfew.le]
  · obtain ⟨more, rfl⟩ := Nat.exists_eq_add_of_le hmany
    have hzero := foldlM_divideBy?_zero hplaces 0
    rw [List.replicate_zero, List.nil_append] at hzero
    rw [Nat.min_eq_right hmany, ← List.replicate_append_replicate, List.append_assoc,
      List.foldlM_append, List.foldlM_append]
    cases htwice : (List.replicate 2 maxPower).foldlM divideBy? front with
    | none => rw [Option.bind_eq_bind, Option.bind_none, Option.bind_none]
    | some quotient =>
        rw [List.replicate_succ, List.replicate_succ, List.replicate_zero, List.foldlM_cons,
          Option.bind_eq_bind, Option.bind_eq_some_iff] at htwice
        obtain ⟨once, honce, htwice⟩ := htwice
        rw [List.foldlM_cons, Option.bind_eq_bind, Option.bind_eq_some_iff] at htwice
        obtain ⟨twice, htwice, hquotient⟩ := htwice
        rw [List.foldlM_nil, Option.pure_def, Option.some.injEq] at hquotient
        rw [Option.bind_eq_bind, Option.bind_some, Option.bind_some, ← hquotient,
          eq_zero_of_divideBy?_twice hnumber hfront honce htwice, hzero,
          foldlM_divideBy?_zero hplaces more]

/-- A coefficient is divided by a power of ten step by step. -/
theorem dividePower?_eq_some_iff (hplaces : 0 < places) (hnumber : number < 2 ^ 64)
    (hfront : front.IsRounded number) :
    front.dividePower? places = some result ↔ IsQuotient front places result := by
  have hdivision := Nat.div_add_mod' (places - 1) maxPower
  have hremainder := Nat.mod_lt (places - 1) (by decide : 0 < maxPower)
  change (List.replicate (min ((places - 1) / maxPower) 2) maxPower ++
    [places - (places - 1) / maxPower * maxPower]).foldlM divideBy? front = some result ↔ _
  generalize (places - 1) / maxPower = steps at *
  rw [foldlM_divideBy?_min (by omega) hnumber hfront,
    foldlM_divideBy?_eq_some_iff (by omega) (by omega), Nat.sub_add_cancel (by omega)]

/-! ## Decimals -/

/-- The magnitude that a decimal is read as. -/
inductive IsReading (decimal : Decimal) (magnitude : Binary64) : Prop where
  | quotient {coefficient : Binary64} {places : ℕ} (hplaces : 0 < places)
      (hexponent : decimal.exponent = -places)
      (hcoefficient : coefficient.IsRounded decimal.coefficient)
      (hquotient : IsQuotient coefficient places magnitude)
  | product {coefficient power : Binary64} {places : ℕ} (hplaces : places ≤ 308)
      (hexponent : decimal.exponent = places)
      (hcoefficient : coefficient.IsRounded decimal.coefficient)
      (hpower : IsRounded power (10 ^ places))
      (hproduct : magnitude.IsRounded (coefficient.value * power.value))
  | zero (hexponent : 308 < decimal.exponent) (hcoefficient : decimal.coefficient = 0)
      (hmagnitude : magnitude = ⟨0, 0⟩)

theorem ofDecimal?_eq (decimal : Decimal) :
    ofDecimal? decimal = (ofNat? decimal.coefficient).bind fun coefficient =>
      if decimal.exponent < 0 then coefficient.dividePower? (-decimal.exponent).toNat
      else if decimal.exponent ≤ maxPower then
        (ofNat? (Nat.pow 10 decimal.exponent.toNat)).bind coefficient.mul?
      else if decimal.coefficient = 0 then some coefficient
      else none := rfl

/-- A decimal with a coefficient of 64 bits is read in rounded steps. -/
theorem ofDecimal?_eq_some_iff {decimal : Decimal} (hbound : decimal.coefficient < 2 ^ 64) :
    ofDecimal? decimal = some magnitude ↔ IsReading decimal magnitude := by
  rw [ofDecimal?_eq, Option.bind_eq_some_iff]
  constructor
  · intro h
    obtain ⟨coefficient, hcoefficient, hresult⟩ := h
    rw [ofNat?_eq_some_iff] at hcoefficient
    split_ifs at hresult with hnegative hfew hzero
    · rw [dividePower?_eq_some_iff (by omega) hbound hcoefficient] at hresult
      exact .quotient (by omega) (by omega) hcoefficient hresult
    · obtain ⟨power, hpower, hproduct⟩ := Option.bind_eq_some_iff.mp hresult
      rw [ofNat?_pow_eq_some_iff] at hpower
      rw [mul?_eq_some_iff] at hproduct
      have hmost : decimal.exponent.toNat ≤ 308 := Int.toNat_le.mpr hfew
      exact .product hmost (by omega) hcoefficient hpower hproduct
    · rw [hzero, Nat.cast_zero] at hcoefficient
      cases hresult
      exact .zero (Int.not_le.mp hfew) hzero
        (hcoefficient.unique (isRounded_zero le_rfl (by positivity)))
  · intro hreading
    cases hreading with
    | @quotient coefficient places hplaces hexponent hcoefficient hquotient =>
        have hcount : (-decimal.exponent).toNat = places := by omega
        refine ⟨coefficient, ofNat?_eq_some_iff.mpr hcoefficient, ?_⟩
        rw [if_pos (by omega), hcount]
        exact (dividePower?_eq_some_iff hplaces hbound hcoefficient).mpr hquotient
    | @product coefficient power places hplaces hexponent hcoefficient hpower hproduct =>
        have hcount : decimal.exponent.toNat = places := by omega
        have hfew : decimal.exponent ≤ maxPower := by
          rw [hexponent]
          exact_mod_cast hplaces
        refine ⟨coefficient, ofNat?_eq_some_iff.mpr hcoefficient, ?_⟩
        rw [if_neg (by omega), if_pos hfew, hcount, Option.bind_eq_some_iff]
        exact ⟨power, ofNat?_pow_eq_some_iff.mpr hpower, mul?_eq_some_iff.mpr hproduct⟩
    | zero hexponent hcoefficient hmagnitude =>
        have hmany : ¬ decimal.exponent ≤ maxPower := Int.not_le.mpr hexponent
        refine ⟨⟨0, 0⟩, ?_, ?_⟩
        · rw [ofNat?_eq_some_iff, hcoefficient, Nat.cast_zero]
          exact isRounded_zero le_rfl (by positivity)
        · rw [if_neg (by omega), if_neg hmany, if_pos hcoefficient, hmagnitude]

theorem IsQuotient.exists_isRounded (hquotient : IsQuotient front places result) :
    ∃ x, result.IsRounded x := by
  induction hquotient with
  | last _ _ hquotient => exact ⟨_, hquotient⟩
  | step _ _ _ _ ih => exact ih

/-- Whatever a decimal is read as is canonical and finite. -/
theorem IsReading.exists_isRounded {decimal : Decimal} (hreading : IsReading decimal magnitude) :
    ∃ x, magnitude.IsRounded x := by
  cases hreading with
  | quotient _ _ _ hquotient => exact hquotient.exists_isRounded
  | product _ _ _ _ hproduct => exact ⟨_, hproduct⟩
  | zero _ _ hmagnitude => exact ⟨0, hmagnitude ▸ isRounded_zero le_rfl (by positivity)⟩

end FieldWiring.Binary64
