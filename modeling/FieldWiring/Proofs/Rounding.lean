import Mathlib.Tactic
import FieldWiring.Decimal

/-!
# Rounding to binary64

The value of a magnitude is a rational number.  A number is rounded to the nearest magnitude
of any size, and to one with an even mantissa where two are equally near.  The numbers that
are rounded to a magnitude are those of its neighbourhood, which reaches half way to the next
magnitudes.  Products and quotients of magnitudes are rounded once.
-/

namespace FieldWiring.Binary64

variable {magnitude other : Binary64} {x : ℚ}

/-! ## Values -/

def value (magnitude : Binary64) : ℚ :=
  magnitude.mantissa * 2 ^ ((magnitude.doublings : ℤ) - 1074)

/-- The mantissa has at most 53 digits, and fewer only where no doubling can be undone. -/
structure IsCanonical (magnitude : Binary64) : Prop where
  mantissa : magnitude.mantissa < 2 ^ 53
  normal : magnitude.doublings = 0 ∨ 2 ^ 52 ≤ magnitude.mantissa

/-- No magnitude is nearer to the number, and if another one is as near, then this one has an
even mantissa. -/
structure IsNearest (magnitude : Binary64) (x : ℚ) : Prop where
  canonical : magnitude.IsCanonical
  nearest : ∀ other : Binary64, other.IsCanonical → |x - magnitude.value| ≤ |x - other.value|
  even : ∀ other : Binary64, other.IsCanonical → other.value ≠ magnitude.value →
    |x - magnitude.value| = |x - other.value| → magnitude.mantissa % 2 = 0

/-- A number in quarters of the least positive magnitude. -/
def quarters (x : ℚ) : ℚ := 4 * unitsPerOne * x

theorem cast_unitsPerOne : (unitsPerOne : ℚ) = 2 ^ (1074 : ℤ) := by
  obtain ⟨doublings, hdoublings, hunits⟩ :
      ∃ doublings : ℕ, (1074 : ℤ) = doublings ∧ unitsPerOne = Nat.pow 2 doublings :=
    ⟨1074, rfl, by decide +kernel⟩
  rw [hdoublings, hunits, Nat.pow_eq, Nat.cast_pow, zpow_natCast, Nat.cast_ofNat]

theorem unitsPerOne_pos : 0 < unitsPerOne := by decide +kernel

theorem cast_unitsPerOne_pos : (0 : ℚ) < unitsPerOne := by exact_mod_cast unitsPerOne_pos

theorem units_eq (magnitude : Binary64) :
    magnitude.units = magnitude.mantissa * 2 ^ magnitude.doublings := rfl

theorem quarters_value (magnitude : Binary64) :
    quarters magnitude.value = 4 * magnitude.units := by
  have hpower : (2 : ℚ) ^ (1074 : ℤ) * 2 ^ ((magnitude.doublings : ℤ) - 1074) =
      2 ^ magnitude.doublings := by
    rw [← zpow_add₀ two_ne_zero, add_sub_cancel, zpow_natCast]
  rw [quarters, value, units_eq, cast_unitsPerOne, Nat.cast_mul, Nat.cast_pow, Nat.cast_ofNat,
    ← hpower]
  ring

theorem quarters_pos : (0 : ℚ) < 4 * unitsPerOne :=
  mul_pos four_pos cast_unitsPerOne_pos

theorem abs_sub_value (x : ℚ) (magnitude : Binary64) :
    |quarters x - 4 * magnitude.units| = 4 * unitsPerOne * |x - magnitude.value| := by
  rw [← quarters_value, quarters, quarters, ← mul_sub, abs_mul, abs_of_pos quarters_pos]

theorem nearer_iff : |x - magnitude.value| ≤ |x - other.value| ↔
    |quarters x - 4 * magnitude.units| ≤ |quarters x - 4 * other.units| := by
  rw [abs_sub_value, abs_sub_value, mul_le_mul_iff_right₀ quarters_pos]

/-! ## Neighbours

Between two magnitudes, the number half way decides which of them is nearer.
-/

theorem closer_iff_of_lt {x low high : ℚ} (hlt : low < high) :
    |x - low| ≤ |x - high| ↔ 2 * x ≤ low + high := by
  rcases abs_cases (x - low) with ⟨hl, _⟩ | ⟨hl, _⟩ <;>
    rcases abs_cases (x - high) with ⟨hh, _⟩ | ⟨hh, _⟩ <;> rw [hl, hh] <;>
    constructor <;> intro h <;> linarith

theorem closer_iff_of_gt {x low high : ℚ} (hlt : low < high) :
    |x - high| ≤ |x - low| ↔ low + high ≤ 2 * x := by
  rcases abs_cases (x - low) with ⟨hl, _⟩ | ⟨hl, _⟩ <;>
    rcases abs_cases (x - high) with ⟨hh, _⟩ | ⟨hh, _⟩ <;> rw [hl, hh] <;>
    constructor <;> intro h <;> linarith

/-- A number is nearer to the smaller of two magnitudes up to half way between them. -/
theorem nearer_iff_of_lt (hlt : magnitude.units < other.units) :
    |x - magnitude.value| ≤ |x - other.value| ↔
      quarters x ≤ 2 * magnitude.units + 2 * other.units := by
  have hcast : (4 * magnitude.units : ℚ) < 4 * other.units := by exact_mod_cast by omega
  rw [nearer_iff, closer_iff_of_lt hcast]
  constructor <;> intro h <;> linarith

theorem nearer_iff_of_gt (hlt : other.units < magnitude.units) :
    |x - magnitude.value| ≤ |x - other.value| ↔
      2 * magnitude.units + 2 * other.units ≤ quarters x := by
  have hcast : (4 * other.units : ℚ) < 4 * magnitude.units := by exact_mod_cast by omega
  rw [nearer_iff, closer_iff_of_gt hcast]
  constructor <;> intro h <;> linarith

/-- The next magnitude below is half as far as the one above. -/
def IsNarrow (magnitude : Binary64) : Prop :=
  magnitude.mantissa = 2 ^ 52 ∧ magnitude.doublings ≠ 0

instance : DecidablePred IsNarrow := fun _ => inferInstanceAs (Decidable (_ ∧ _))

theorem neighbourhood_centre (magnitude : Binary64) :
    magnitude.neighbourhood.centre = 4 * magnitude.units :=
  Nat.mul_assoc ..

theorem neighbourhood_high (magnitude : Binary64) :
    magnitude.neighbourhood.high = 4 * magnitude.units + 2 * 2 ^ magnitude.doublings := by
  change (4 * magnitude.mantissa + 2) * 2 ^ magnitude.doublings = _
  rw [Nat.add_mul, Nat.mul_assoc, units_eq]

theorem neighbourhood_low (magnitude : Binary64) :
    magnitude.neighbourhood.low = 4 * magnitude.units -
      (if magnitude.IsNarrow then 1 else 2) * 2 ^ magnitude.doublings := by
  have hnarrow : (magnitude.mantissa == 2 ^ 52 && magnitude.doublings != 0) = true ↔
      magnitude.IsNarrow := by simp [IsNarrow]
  change (4 * magnitude.mantissa - if (magnitude.mantissa == 2 ^ 52 &&
    magnitude.doublings != 0) = true then 1 else 2) * 2 ^ magnitude.doublings = _
  rw [Nat.sub_mul, Nat.mul_assoc, units_eq]
  simp only [hnarrow]

/-- Fewer doublings make a magnitude smaller than the least one that has more. -/
theorem IsCanonical.units_lt (hcanonical : magnitude.IsCanonical) {doublings : ℕ}
    (hlt : magnitude.doublings < doublings) :
    2 * magnitude.units + 2 ^ doublings ≤ 2 * (2 ^ 52 * 2 ^ doublings) := by
  have hmantissa := hcanonical.mantissa
  have hpower : 2 ^ (magnitude.doublings + 1) ≤ 2 ^ doublings :=
    Nat.pow_le_pow_right two_pos hlt
  calc
    2 * magnitude.units + 2 ^ doublings =
        magnitude.mantissa * 2 ^ (magnitude.doublings + 1) + 2 ^ doublings := by
      rw [units_eq]
      ring
    _ ≤ magnitude.mantissa * 2 ^ doublings + 2 ^ doublings :=
      Nat.add_le_add_right (Nat.mul_le_mul_left _ hpower) _
    _ = (magnitude.mantissa + 1) * 2 ^ doublings := by ring
    _ ≤ 2 ^ 53 * 2 ^ doublings := Nat.mul_le_mul_right _ hmantissa
    _ = 2 * (2 ^ 52 * 2 ^ doublings) := by ring

theorem IsCanonical.le_units (hcanonical : magnitude.IsCanonical)
    (hdoublings : magnitude.doublings ≠ 0) :
    2 ^ 52 * 2 ^ magnitude.doublings ≤ magnitude.units :=
  Nat.mul_le_mul_right _ (hcanonical.normal.resolve_left hdoublings)

/-- Magnitudes with more doublings are multiples of the same step. -/
theorem exists_units_eq (hle : magnitude.doublings ≤ other.doublings) :
    ∃ count, other.units = count * 2 ^ magnitude.doublings := by
  obtain ⟨more, hmore⟩ := Nat.exists_eq_add_of_le hle
  refine ⟨other.mantissa * 2 ^ more, ?_⟩
  rw [units_eq, hmore]
  ring

theorem add_le_of_mul_lt {front back step : ℕ} (hlt : front * step < back * step) :
    front * step + step ≤ back * step := by
  have hstep := Nat.mul_le_mul_right step (Nat.lt_of_mul_lt_mul_right hlt)
  rwa [Nat.succ_mul] at hstep

/-- The gap above a magnitude is as wide as its step. -/
theorem IsCanonical.high_le (hmagnitude : magnitude.IsCanonical) (hother : other.IsCanonical)
    (hlt : magnitude.units < other.units) :
    magnitude.neighbourhood.high ≤ 2 * magnitude.units + 2 * other.units := by
  have hgap : magnitude.units + 2 ^ magnitude.doublings ≤ other.units := by
    rcases le_or_gt magnitude.doublings other.doublings with hle | hgt
    · obtain ⟨count, hcount⟩ := exists_units_eq hle
      rw [hcount, units_eq] at hlt ⊢
      exact add_le_of_mul_lt hlt
    · have hbelow := hother.units_lt hgt
      have habove := hmagnitude.le_units (Nat.ne_zero_of_lt hgt)
      omega
  rw [neighbourhood_high]
  omega

/-- The gap below a magnitude is as wide as its step, or half as wide. -/
theorem IsCanonical.le_low (hmagnitude : magnitude.IsCanonical) (hother : other.IsCanonical)
    (hlt : other.units < magnitude.units) :
    2 * magnitude.units + 2 * other.units ≤ magnitude.neighbourhood.low := by
  rcases le_or_gt magnitude.doublings other.doublings with hle | hgt
  · have hgap : other.units + 2 ^ magnitude.doublings ≤ magnitude.units := by
      obtain ⟨count, hcount⟩ := exists_units_eq hle
      rw [hcount, units_eq] at hlt ⊢
      exact add_le_of_mul_lt hlt
    by_cases hnarrow : magnitude.IsNarrow
    · rw [neighbourhood_low, if_pos hnarrow]
      omega
    · rw [neighbourhood_low, if_neg hnarrow]
      omega
  · have hbelow := hother.units_lt hgt
    have hdoublings := Nat.ne_zero_of_lt hgt
    have habove := hmagnitude.le_units hdoublings
    by_cases hnarrow : magnitude.IsNarrow
    · rw [neighbourhood_low, if_pos hnarrow]
      omega
    · have hmantissa : 2 ^ 52 + 1 ≤ magnitude.mantissa := by
        have hnormal := hmagnitude.normal.resolve_left hdoublings
        have hne : magnitude.mantissa ≠ 2 ^ 52 := fun heq => hnarrow ⟨heq, hdoublings⟩
        omega
      have hwide := Nat.mul_le_mul_right (2 ^ magnitude.doublings) hmantissa
      rw [Nat.add_mul, Nat.one_mul, ← units_eq] at hwide
      rw [neighbourhood_low, if_neg hnarrow]
      omega

/-- The next magnitude has an odd mantissa exactly if this one has an even one. -/
theorem IsCanonical.exists_above (hcanonical : magnitude.IsCanonical) :
    ∃ other : Binary64, other.IsCanonical ∧ other.mantissa % 2 ≠ magnitude.mantissa % 2 ∧
      magnitude.units < other.units ∧
      2 * magnitude.units + 2 * other.units = magnitude.neighbourhood.high := by
  have hstep : 0 < 2 ^ magnitude.doublings := Nat.two_pow_pos _
  have hmantissa := hcanonical.mantissa
  suffices h : ∃ other : Binary64, other.IsCanonical ∧
      other.mantissa % 2 ≠ magnitude.mantissa % 2 ∧
      other.units = magnitude.units + 2 ^ magnitude.doublings by
    obtain ⟨other, hother, hparity, hunits⟩ := h
    rw [neighbourhood_high]
    exact ⟨other, hother, hparity, by omega, by omega⟩
  by_cases hlast : magnitude.mantissa + 1 = 2 ^ 53
  · refine ⟨⟨2 ^ 52, magnitude.doublings + 1⟩, ⟨by norm_num, .inr le_rfl⟩, ?_, ?_⟩
    · change 2 ^ 52 % 2 ≠ magnitude.mantissa % 2
      omega
    calc
      2 ^ 52 * 2 ^ (magnitude.doublings + 1) = 2 ^ 53 * 2 ^ magnitude.doublings := by ring
      _ = (magnitude.mantissa + 1) * 2 ^ magnitude.doublings := by rw [hlast]
      _ = magnitude.units + 2 ^ magnitude.doublings := by rw [units_eq, Nat.add_mul, Nat.one_mul]
  · refine ⟨⟨magnitude.mantissa + 1, magnitude.doublings⟩,
      ⟨by change magnitude.mantissa + 1 < 2 ^ 53; omega,
        hcanonical.normal.imp_right fun h => Nat.le_succ_of_le h⟩, ?_, ?_⟩
    · change (magnitude.mantissa + 1) % 2 ≠ magnitude.mantissa % 2
      omega
    · rw [units_eq, units_eq, Nat.add_mul, Nat.one_mul]

theorem IsCanonical.exists_below (hcanonical : magnitude.IsCanonical)
    (hpos : magnitude.mantissa ≠ 0) :
    ∃ other : Binary64, other.IsCanonical ∧ other.units < magnitude.units ∧
      2 * magnitude.units + 2 * other.units = magnitude.neighbourhood.low := by
  have hmantissa := hcanonical.mantissa
  have hstep : 0 < 2 ^ magnitude.doublings := Nat.two_pow_pos _
  by_cases hnarrow : magnitude.IsNarrow
  · obtain ⟨fewer, hfewer⟩ := Nat.exists_eq_add_one_of_ne_zero hnarrow.2
    refine ⟨⟨2 ^ 53 - 1, fewer⟩, ⟨by norm_num, .inr (by norm_num)⟩, ?_⟩
    have hunits : magnitude.units = 2 ^ 53 * 2 ^ fewer := by
      rw [units_eq, hnarrow.1, hfewer]
      ring
    have hother : units ⟨2 ^ 53 - 1, fewer⟩ + 2 ^ fewer = 2 ^ 53 * 2 ^ fewer := by
      change (2 ^ 53 - 1) * 2 ^ fewer + 2 ^ fewer = _
      norm_num
      ring
    have hpower : 2 ^ magnitude.doublings = 2 * 2 ^ fewer := by
      rw [hfewer]
      ring
    rw [neighbourhood_low, if_pos hnarrow]
    omega
  · refine ⟨⟨magnitude.mantissa - 1, magnitude.doublings⟩, ⟨?_, ?_⟩, ?_⟩
    · change magnitude.mantissa - 1 < 2 ^ 53
      omega
    · change magnitude.doublings = 0 ∨ 2 ^ 52 ≤ magnitude.mantissa - 1
      by_cases hdoublings : magnitude.doublings = 0
      · exact .inl hdoublings
      · have hnormal := hcanonical.normal.resolve_left hdoublings
        have hne : magnitude.mantissa ≠ 2 ^ 52 := fun heq => hnarrow ⟨heq, hdoublings⟩
        exact .inr (by omega)
    · have hother : units ⟨magnitude.mantissa - 1, magnitude.doublings⟩ +
          2 ^ magnitude.doublings = magnitude.units := by
        rw [units_eq, units_eq, ← Nat.succ_mul]
        congr 1
        change magnitude.mantissa - 1 + 1 = magnitude.mantissa
        omega
      rw [neighbourhood_low, if_neg hnarrow]
      omega

/-! ## Neighbourhoods -/

def Neighbourhood.Contains (around : Neighbourhood) (y : ℚ) : Prop :=
  if around.closed then around.low ≤ y ∧ y ≤ around.high else around.low < y ∧ y < around.high

theorem Neighbourhood.Contains.bounds {around : Neighbourhood} {y : ℚ}
    (hcontains : around.Contains y) : around.low ≤ y ∧ y ≤ around.high := by
  rw [Contains] at hcontains
  split at hcontains
  · exact hcontains
  · exact ⟨hcontains.1.le, hcontains.2.le⟩

/-- A quotient is in a neighbourhood if it is so in whole numbers. -/
theorem Neighbourhood.contains_div_iff {around : Neighbourhood} {numerator denominator : ℕ}
    (hpos : 0 < denominator) :
    around.Contains (numerator / denominator) ↔
      if around.closed then
        around.low * denominator ≤ numerator ∧ numerator ≤ around.high * denominator
      else around.low * denominator < numerator ∧ numerator < around.high * denominator := by
  have hcast : (0 : ℚ) < denominator := by exact_mod_cast hpos
  rw [Contains, le_div_iff₀ hcast, div_le_iff₀ hcast, lt_div_iff₀ hcast, div_lt_iff₀ hcast]
  split_ifs <;> norm_cast

theorem closed_iff : magnitude.neighbourhood.closed = true ↔ magnitude.mantissa % 2 = 0 :=
  beq_iff_eq

theorem value_ne_of_units_ne (hne : other.units ≠ magnitude.units) :
    other.value ≠ magnitude.value := by
  intro heq
  have hunits : (4 * other.units : ℚ) = 4 * magnitude.units := by
    rw [← quarters_value, ← quarters_value, heq]
  exact hne (by exact_mod_cast mul_left_cancel₀ four_ne_zero hunits)

theorem IsNearest.le_high (hnearest : magnitude.IsNearest x) :
    quarters x ≤ magnitude.neighbourhood.high ∧
      (quarters x = magnitude.neighbourhood.high → magnitude.mantissa % 2 = 0) := by
  obtain ⟨other, hother, -, hlt, hhalf⟩ := hnearest.canonical.exists_above
  have hcast : (2 * magnitude.units + 2 * other.units : ℚ) = magnitude.neighbourhood.high := by
    exact_mod_cast hhalf
  have hnearer := hnearest.nearest other hother
  rw [← hcast]
  refine ⟨(nearer_iff_of_lt hlt).mp hnearer, ?_⟩
  intro heq
  have hother' : |x - other.value| ≤ |x - magnitude.value| :=
    (nearer_iff_of_gt hlt).mpr (by rw [heq]; linarith)
  exact hnearest.even other hother (value_ne_of_units_ne (Nat.ne_of_gt hlt))
    (le_antisymm hnearer hother')

theorem IsNearest.low_le (hnearest : magnitude.IsNearest x) (hpos : magnitude.mantissa ≠ 0) :
    magnitude.neighbourhood.low ≤ quarters x ∧
      (quarters x = magnitude.neighbourhood.low → magnitude.mantissa % 2 = 0) := by
  obtain ⟨other, hother, hlt, hhalf⟩ := hnearest.canonical.exists_below hpos
  have hcast : (2 * magnitude.units + 2 * other.units : ℚ) = magnitude.neighbourhood.low := by
    exact_mod_cast hhalf
  have hnearer := hnearest.nearest other hother
  rw [← hcast]
  refine ⟨(nearer_iff_of_gt hlt).mp hnearer, ?_⟩
  intro heq
  have hother' : |x - other.value| ≤ |x - magnitude.value| :=
    (nearer_iff_of_lt hlt).mpr (by rw [heq]; linarith)
  exact hnearest.even other hother (value_ne_of_units_ne (Nat.ne_of_lt hlt))
    (le_antisymm hnearer hother')

/-- A canonical magnitude is given by its units. -/
theorem IsCanonical.eq_of_units_eq (hmagnitude : magnitude.IsCanonical)
    (hother : other.IsCanonical) (hunits : magnitude.units = other.units) : magnitude = other := by
  obtain hlt | heq | hgt := lt_trichotomy magnitude.doublings other.doublings
  · have hbelow := hmagnitude.units_lt hlt
    have habove := hother.le_units (Nat.ne_zero_of_lt hlt)
    have hstep : 0 < 2 ^ other.doublings := Nat.two_pow_pos _
    omega
  · obtain ⟨mantissa, doublings⟩ := magnitude
    obtain ⟨mantissa', doublings'⟩ := other
    obtain rfl : doublings = doublings' := heq
    congr 1
    exact Nat.eq_of_mul_eq_mul_right (Nat.two_pow_pos doublings) hunits
  · have hbelow := hother.units_lt hgt
    have habove := hmagnitude.le_units (Nat.ne_zero_of_lt hgt)
    have hstep : 0 < 2 ^ magnitude.doublings := Nat.two_pow_pos _
    omega

/-- Of two magnitudes that are next to each other, one has an odd mantissa, so they are not
both nearest to the number half way between them. -/
theorem IsNearest.not_lt (hmagnitude : magnitude.IsNearest x) (hother : other.IsNearest x) :
    ¬ magnitude.units < other.units := by
  intro hlt
  have htie := le_antisymm (hmagnitude.nearest other hother.canonical)
    (hother.nearest magnitude hmagnitude.canonical)
  have hne := value_ne_of_units_ne (Nat.ne_of_gt hlt)
  have heven := hmagnitude.even other hother.canonical hne htie
  have heven' := hother.even magnitude hmagnitude.canonical hne.symm htie.symm
  obtain ⟨above, habove, hparity, hgt, hhigh⟩ := hmagnitude.canonical.exists_above
  have hhalf : quarters x = 2 * magnitude.units + 2 * other.units :=
    le_antisymm ((nearer_iff_of_lt hlt).mp htie.le)
      ((add_comm _ _).trans_le ((nearer_iff_of_gt hlt).mp htie.ge))
  have hle : other.units ≤ above.units := by
    have hbound := hmagnitude.le_high.1
    rw [hhalf, ← hhigh] at hbound
    have : 2 * magnitude.units + 2 * other.units ≤ 2 * magnitude.units + 2 * above.units := by
      exact_mod_cast hbound
    omega
  have hge := hmagnitude.canonical.high_le hother.canonical hlt
  rw [habove.eq_of_units_eq hother.canonical (by omega), heven, heven'] at hparity
  exact hparity rfl

/-- A number is rounded to one magnitude only. -/
theorem IsNearest.unique (hmagnitude : magnitude.IsNearest x) (hother : other.IsNearest x) :
    magnitude = other :=
  hmagnitude.canonical.eq_of_units_eq hother.canonical
    (le_antisymm (Nat.le_of_not_lt (hother.not_lt hmagnitude))
      (Nat.le_of_not_lt (hmagnitude.not_lt hother)))

theorem quarters_nonneg (hx : 0 ≤ x) : 0 ≤ quarters x := mul_nonneg quarters_pos.le hx

/-- The numbers that are rounded to a magnitude are those of its neighbourhood. -/
theorem IsCanonical.isNearest_iff (hcanonical : magnitude.IsCanonical) (hx : 0 ≤ x) :
    magnitude.IsNearest x ↔ magnitude.neighbourhood.Contains (quarters x) := by
  constructor
  · intro hnearest
    obtain ⟨hhigh, hhighEven⟩ := hnearest.le_high
    have hlow : magnitude.neighbourhood.low ≤ quarters x ∧
        (quarters x = magnitude.neighbourhood.low → magnitude.mantissa % 2 = 0) := by
      by_cases hzero : magnitude.mantissa = 0
      · have hbottom : magnitude.neighbourhood.low = 0 := by
          rw [neighbourhood_low, units_eq, hzero, Nat.zero_mul, Nat.mul_zero, Nat.zero_sub]
        rw [hbottom, Nat.cast_zero]
        exact ⟨quarters_nonneg hx, fun _ => by rw [hzero]⟩
      · exact hnearest.low_le hzero
    rw [Neighbourhood.Contains]
    split
    · exact ⟨hlow.1, hhigh⟩
    · have hodd : ¬ magnitude.mantissa % 2 = 0 := fun heven => ‹¬ _› (closed_iff.mpr heven)
      exact ⟨lt_of_le_of_ne hlow.1 fun heq => hodd (hlow.2 heq.symm),
        lt_of_le_of_ne hhigh fun heq => hodd (hhighEven heq)⟩
  · intro hcontains
    obtain ⟨hlow, hhigh⟩ := hcontains.bounds
    have habove : ∀ {other : Binary64}, other.IsCanonical → magnitude.units < other.units →
        (magnitude.neighbourhood.high : ℚ) ≤ 2 * magnitude.units + 2 * other.units :=
      fun hother hlt => by exact_mod_cast hcanonical.high_le hother hlt
    have hbelow : ∀ {other : Binary64}, other.IsCanonical → other.units < magnitude.units →
        (2 * magnitude.units + 2 * other.units : ℚ) ≤ magnitude.neighbourhood.low :=
      fun hother hlt => by exact_mod_cast hcanonical.le_low hother hlt
    refine ⟨hcanonical, ?_, ?_⟩
    · intro other hother
      rcases lt_trichotomy magnitude.units other.units with hlt | heq | hgt
      · exact (nearer_iff_of_lt hlt).mpr (hhigh.trans (habove hother hlt))
      · rw [nearer_iff, heq]
      · exact (nearer_iff_of_gt hgt).mpr ((hbelow hother hgt).trans hlow)
    · intro other hother hne htie
      by_contra hodd
      rw [Neighbourhood.Contains, if_neg fun hclosed => hodd (closed_iff.mp hclosed)] at hcontains
      rcases lt_trichotomy magnitude.units other.units with hlt | heq | hgt
      · have hhalf := (nearer_iff_of_gt hlt).mp htie.ge
        linarith [habove hother hlt, hcontains.2]
      · have hvalue : quarters other.value = quarters magnitude.value := by
          rw [quarters_value, quarters_value, heq]
        exact hne (mul_left_cancel₀ quarters_pos.ne' hvalue)
      · have hhalf := (nearer_iff_of_lt hgt).mp htie.ge
        linarith [hbelow hother hgt, hcontains.1]

theorem Neighbourhood.Contains.between {around : Neighbourhood} {x y z : ℚ}
    (hx : around.Contains x) (hz : around.Contains z) (hxy : x ≤ y) (hyz : y ≤ z) :
    around.Contains y := by
  rw [Contains] at *
  split_ifs at *
  · exact ⟨hx.1.trans hxy, hyz.trans hz.2⟩
  · exact ⟨hx.1.trans_le hxy, hyz.trans_lt hz.2⟩

theorem IsCanonical.isNearest_value (hcanonical : magnitude.IsCanonical) :
    magnitude.IsNearest magnitude.value := by
  refine ⟨hcanonical, ?_, ?_⟩
  · intro other _
    rw [sub_self, abs_zero]
    exact abs_nonneg _
  · intro other _ hne heq
    rw [sub_self, abs_zero, eq_comm, abs_eq_zero, sub_eq_zero] at heq
    exact absurd heq.symm hne

/-- What lies between two numbers that are rounded to a magnitude is rounded to it as well. -/
theorem IsNearest.between {x y z : ℚ} (hx : magnitude.IsNearest x) (hz : magnitude.IsNearest z)
    (hnonneg : 0 ≤ x) (hxy : x ≤ y) (hyz : y ≤ z) : magnitude.IsNearest y := by
  have hcanonical := hx.canonical
  have hy := hnonneg.trans hxy
  rw [hcanonical.isNearest_iff hnonneg] at hx
  rw [hcanonical.isNearest_iff (hy.trans hyz)] at hz
  rw [hcanonical.isNearest_iff hy]
  have hmono : ∀ {x y : ℚ}, x ≤ y → quarters x ≤ quarters y :=
    fun h => mul_le_mul_of_nonneg_left h quarters_pos.le
  exact hx.between hz (hmono hxy) (hmono hyz)

/-! ## Quotients -/

/-- A rounded quotient is at most a half away, and if it is odd it is less than that. -/
theorem divNearest_nearest (numerator : ℕ) {denominator : ℕ} (hpos : 0 < denominator) :
    2 * (divNearest numerator denominator * denominator) ≤ 2 * numerator + denominator ∧
    2 * numerator ≤ 2 * (divNearest numerator denominator * denominator) + denominator ∧
    (divNearest numerator denominator % 2 ≠ 0 →
      2 * (divNearest numerator denominator * denominator) ≠ 2 * numerator + denominator ∧
      2 * numerator ≠ 2 * (divNearest numerator denominator * denominator) + denominator) := by
  have hdivision := Nat.div_add_mod numerator denominator
  rw [Nat.mul_comm] at hdivision
  have hremainder := Nat.mod_lt numerator hpos
  rw [divNearest]
  split_ifs with hbelow habove
  · omega
  · rw [Nat.add_mul, Nat.one_mul]
    omega
  · rcases Nat.mod_two_eq_zero_or_one (numerator / denominator) with heven | hodd
    · rw [heven, Nat.add_zero]
      omega
    · rw [hodd, Nat.add_mul, Nat.one_mul]
      omega

/-- The number of doublings that leaves 53 digits of a quotient. -/
def fittingDoublings (quotient : ℕ) : ℕ :=
  if quotient = 0 then 0 else quotient.log2 + 1 - precision

/-- With these doublings the quotient has 53 digits, or fewer if none are needed. -/
theorem fittingDoublings_fits (numerator : ℕ) {denominator : ℕ} (hpos : 0 < denominator) :
    (fittingDoublings (numerator / denominator) = 0 ∨
      2 ^ 52 * (denominator * 2 ^ fittingDoublings (numerator / denominator)) ≤ numerator) ∧
    numerator < 2 ^ 53 * (denominator * 2 ^ fittingDoublings (numerator / denominator)) := by
  have hbelow : ∀ doublings, numerator / denominator < 2 ^ 53 * 2 ^ doublings →
      numerator < 2 ^ 53 * (denominator * 2 ^ doublings) := by
    intro doublings hlt
    rw [Nat.div_lt_iff_lt_mul hpos] at hlt
    calc
      numerator < 2 ^ 53 * 2 ^ doublings * denominator := hlt
      _ = 2 ^ 53 * (denominator * 2 ^ doublings) := by ring
  rw [fittingDoublings]
  split
  · rename_i hzero
    exact ⟨.inl rfl, hbelow 0 (by omega)⟩
  · rename_i hquotient
    have hleast := Nat.log2_self_le hquotient
    have hgreatest := Nat.lt_log2_self (n := numerator / denominator)
    by_cases hfew : (numerator / denominator).log2 + 1 ≤ 53
    · have hnone : (numerator / denominator).log2 + 1 - precision = 0 := Nat.sub_eq_zero_of_le hfew
      have hpower : 2 ^ ((numerator / denominator).log2 + 1) ≤ 2 ^ 53 :=
        Nat.pow_le_pow_right two_pos hfew
      rw [hnone]
      exact ⟨.inl rfl, hbelow 0 (by omega)⟩
    · have hmany : 52 ≤ (numerator / denominator).log2 := by omega
      obtain ⟨more, hmore⟩ := Nat.exists_eq_add_of_le hmany
      have hdoublings : (numerator / denominator).log2 + 1 - precision = more := by
        rw [hmore, precision]
        omega
      rw [hdoublings]
      rw [hmore, Nat.pow_add] at hleast
      rw [hmore, Nat.add_right_comm, Nat.pow_add] at hgreatest
      refine ⟨.inr ?_, hbelow more hgreatest⟩
      rw [Nat.le_div_iff_mul_le hpos] at hleast
      calc
        2 ^ 52 * (denominator * 2 ^ more) = 2 ^ 52 * 2 ^ more * denominator := by ring
        _ ≤ numerator := hleast

/-- A quotient rounded to a magnitude of any size. -/
def rounded (numerator denominator : ℕ) : Binary64 :=
  let doublings := fittingDoublings (numerator / denominator)
  let mantissa := divNearest numerator (denominator * 2 ^ doublings)
  if mantissa = 2 ^ 53 then ⟨2 ^ 52, doublings + 1⟩ else ⟨mantissa, doublings⟩

theorem ofQuotient?_eq (numerator denominator : ℕ) :
    ofQuotient? numerator denominator =
      if (rounded numerator denominator).doublings ≤ maxDoublings then
        some (rounded numerator denominator)
      else none := rfl

section

variable {numerator denominator : ℕ}

theorem contains_quotient {around : Neighbourhood} (hpos : 0 < denominator)
    (hlow : around.low * denominator ≤ 4 * numerator)
    (hhigh : 4 * numerator ≤ around.high * denominator)
    (hinside : around.closed ≠ true →
      around.low * denominator ≠ 4 * numerator ∧ 4 * numerator ≠ around.high * denominator) :
    around.Contains (4 * numerator / denominator) := by
  have hcast : (4 * numerator / denominator : ℚ) = (4 * numerator : ℕ) / denominator := by
    rw [Nat.cast_mul, Nat.cast_ofNat]
  rw [hcast, Neighbourhood.contains_div_iff hpos]
  split
  · exact ⟨hlow, hhigh⟩
  · rename_i hopen
    obtain ⟨hlowNe, hhighNe⟩ := hinside hopen
    exact ⟨lt_of_le_of_ne hlow hlowNe, lt_of_le_of_ne hhigh hhighNe⟩

theorem neighbourhood_low_mul (mantissa doublings denominator : ℕ) :
    (neighbourhood ⟨mantissa, doublings⟩).low * denominator =
      4 * (mantissa * (denominator * 2 ^ doublings)) -
        (if IsNarrow ⟨mantissa, doublings⟩ then 1 else 2) * (denominator * 2 ^ doublings) := by
  rw [neighbourhood_low, units_eq, Nat.sub_mul]
  congr 1 <;> ring

theorem neighbourhood_high_mul (mantissa doublings denominator : ℕ) :
    (neighbourhood ⟨mantissa, doublings⟩).high * denominator =
      4 * (mantissa * (denominator * 2 ^ doublings)) + 2 * (denominator * 2 ^ doublings) := by
  rw [neighbourhood_high, units_eq]
  ring

/-- The quotient, in quarters, is in the neighbourhood of what it is rounded to. -/
theorem rounded_isCanonical_and_contains (numerator : ℕ) (hpos : 0 < denominator) :
    (rounded numerator denominator).IsCanonical ∧
      (rounded numerator denominator).neighbourhood.Contains (4 * numerator / denominator) := by
  obtain ⟨hleast, hgreatest⟩ := fittingDoublings_fits numerator hpos
  rw [rounded]
  generalize fittingDoublings (numerator / denominator) = doublings at hleast hgreatest
  have hstep : 0 < denominator * 2 ^ doublings := Nat.mul_pos hpos (Nat.two_pow_pos _)
  obtain ⟨hbelow, habove, hties⟩ := divNearest_nearest numerator hstep
  generalize divNearest numerator (denominator * 2 ^ doublings) = mantissa at hbelow habove hties
  generalize hwidth : denominator * 2 ^ doublings = width at *
  have hmantissa : mantissa ≤ 2 ^ 53 := by
    by_contra hmore
    have := Nat.mul_le_mul_right width (Nat.lt_of_not_le hmore)
    rw [Nat.succ_mul] at this
    omega
  by_cases hcarry : mantissa = 2 ^ 53
  · -- The mantissa has one digit more; it is even, and its lower neighbour is half as far.
    rw [if_pos hcarry]
    have hnarrow : IsNarrow ⟨2 ^ 52, doublings + 1⟩ := ⟨rfl, Nat.succ_ne_zero _⟩
    have hwider : denominator * 2 ^ (doublings + 1) = 2 * width := by
      rw [← hwidth]
      ring
    rw [hcarry] at hbelow habove
    refine ⟨⟨by norm_num, .inr le_rfl⟩, contains_quotient hpos ?_ ?_ ?_⟩
    · rw [neighbourhood_low_mul, if_pos hnarrow, hwider]
      omega
    · rw [neighbourhood_high_mul, hwider]
      omega
    · intro hopen
      exact absurd (closed_iff.mpr (by norm_num)) hopen
  · rw [if_neg hcarry]
    have hnormal : doublings = 0 ∨ 2 ^ 52 ≤ mantissa := by
      refine hleast.imp_right fun hfull => ?_
      by_contra hless
      have hshort := Nat.mul_le_mul_right width (Nat.lt_of_not_le hless)
      rw [Nat.succ_mul] at hshort
      omega
    refine ⟨⟨lt_of_le_of_ne hmantissa hcarry, hnormal⟩, contains_quotient hpos ?_ ?_ ?_⟩
    · rw [neighbourhood_low_mul, hwidth]
      split
      · rename_i hnarrow
        have hleader : mantissa = 2 ^ 52 := hnarrow.1
        have hfull := hleast.resolve_left hnarrow.2
        rw [← hleader] at hfull
        omega
      · omega
    · rw [neighbourhood_high_mul, hwidth]
      omega
    · intro hopen
      have hodd : mantissa % 2 ≠ 0 := fun heven => hopen (closed_iff.mpr heven)
      have hwide : ¬ IsNarrow ⟨mantissa, doublings⟩ := by
        intro hnarrow
        have hleader : mantissa = 2 ^ 52 := hnarrow.1
        rw [hleader] at hodd
        norm_num at hodd
      have hpositive : 1 ≤ mantissa := by omega
      have hwidest := Nat.mul_le_mul_right width hpositive
      rw [neighbourhood_low_mul, neighbourhood_high_mul, if_neg hwide, hwidth]
      have hnoTies := hties hodd
      omega

/-- A quotient is rounded to the nearest magnitude. -/
theorem rounded_isNearest (numerator : ℕ) (hpos : 0 < denominator) :
    (rounded numerator denominator).IsNearest (numerator / (denominator * unitsPerOne)) := by
  obtain ⟨hcanonical, hcontains⟩ := rounded_isCanonical_and_contains numerator hpos
  have hunits := cast_unitsPerOne_pos
  have hdenominator : (0 : ℚ) < denominator := by exact_mod_cast hpos
  have hquarters : quarters (numerator / (denominator * unitsPerOne)) =
      4 * numerator / denominator := by
    rw [quarters, mul_div_assoc', mul_comm (denominator : ℚ), mul_right_comm,
      mul_comm _ (unitsPerOne : ℚ), mul_div_mul_left _ _ hunits.ne']
  have hnonneg : (0 : ℚ) ≤ numerator / (denominator * unitsPerOne) :=
    div_nonneg (Nat.cast_nonneg _) (mul_pos hdenominator hunits).le
  rw [hcanonical.isNearest_iff hnonneg, hquarters]
  exact hcontains

/-! ## Operations -/

/-- The magnitude is the nearest one and finite. -/
structure IsRounded (magnitude : Binary64) (x : ℚ) : Prop where
  nearest : magnitude.IsNearest x
  finite : magnitude.doublings ≤ maxDoublings

theorem IsRounded.unique (hmagnitude : magnitude.IsRounded x) (hother : other.IsRounded x) :
    magnitude = other :=
  hmagnitude.nearest.unique hother.nearest

/-- What is left of a quotient of units is its rounding, if that is finite. -/
theorem ofQuotient?_eq_some_iff (hpos : 0 < denominator) :
    ofQuotient? numerator denominator = some magnitude ↔
      magnitude.IsRounded (numerator / (denominator * unitsPerOne)) := by
  have hnearest := rounded_isNearest numerator hpos
  rw [ofQuotient?_eq]
  constructor
  · intro h
    split at h
    · cases h
      exact ⟨hnearest, ‹_›⟩
    · cases h
  · intro h
    rw [hnearest.unique h.nearest, if_pos h.finite]

theorem value_eq_div (magnitude : Binary64) :
    magnitude.value = magnitude.units / unitsPerOne := by
  have hquarters := quarters_value magnitude
  rw [quarters, mul_assoc, mul_right_inj' four_ne_zero] at hquarters
  rw [eq_div_iff cast_unitsPerOne_pos.ne', mul_comm]
  exact hquarters

/-- A whole number is rounded once. -/
theorem ofNat?_eq_some_iff {number : ℕ} :
    ofNat? number = some magnitude ↔ magnitude.IsRounded number := by
  rw [ofNat?, ofQuotient?_eq_some_iff one_pos, Nat.cast_mul, Nat.cast_one, one_mul,
    mul_div_cancel_right₀ _ cast_unitsPerOne_pos.ne']

theorem ofNat?_pow_eq_some_iff {places : ℕ} :
    ofNat? (Nat.pow 10 places) = some magnitude ↔ magnitude.IsRounded (10 ^ places) := by
  rw [ofNat?_eq_some_iff, Nat.pow_eq, Nat.cast_pow, Nat.cast_ofNat]

/-- A product is rounded once. -/
theorem mul?_eq_some_iff {left right : Binary64} :
    left.mul? right = some magnitude ↔ magnitude.IsRounded (left.value * right.value) := by
  rw [mul?, ofQuotient?_eq_some_iff unitsPerOne_pos, Nat.cast_mul, ← div_mul_div_comm,
    value_eq_div, value_eq_div]

/-- A quotient is rounded once. -/
theorem div?_eq_some_iff {left right : Binary64} (hright : right.mantissa ≠ 0) :
    left.div? right = some magnitude ↔ magnitude.IsRounded (left.value / right.value) := by
  have hunits := cast_unitsPerOne_pos.ne'
  have hpos : 0 < right.units := Nat.mul_pos (Nat.pos_of_ne_zero hright) (Nat.two_pow_pos _)
  rw [div?, ofQuotient?_eq_some_iff hpos, Nat.cast_mul, value_eq_div, value_eq_div,
    div_div_div_cancel_right₀ hunits, mul_div_mul_right _ _ hunits]

end

end FieldWiring.Binary64
