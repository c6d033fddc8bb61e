import FieldWiring.Proofs.Rounding

/-!
# Shortest decimals

A magnitude is written as a decimal that is rounded to it.  Of all of these it is one with
the greatest power of ten, which leaves the fewest digits, and of those it is the one nearest
to the magnitude.
-/

namespace FieldWiring

/-! ## Decimals of a magnitude -/

def Decimal.value (decimal : Decimal) : ℚ := decimal.coefficient * 10 ^ decimal.exponent

theorem Decimal.value_nonneg (decimal : Decimal) : 0 ≤ decimal.value := by
  rw [value]
  positivity

namespace Binary64

variable {magnitude : Binary64} {coefficient : ℕ} {exponent : ℤ} {decimal : Decimal}

def distance (magnitude : Binary64) (decimal : Decimal) : ℚ :=
  |decimal.value - magnitude.value|

/-- The decimal is rounded to the magnitude and closest to it among those with its exponent
that are; of two that are equally close it is the greater one. -/
structure IsClosest (magnitude : Binary64) (decimal : Decimal) : Prop where
  rounded : magnitude.IsNearest decimal.value
  closest : ∀ other : Decimal, other.exponent = decimal.exponent →
    magnitude.IsNearest other.value → magnitude.distance decimal ≤ magnitude.distance other
  greatest : ∀ other : Decimal, other.exponent = decimal.exponent →
    magnitude.IsNearest other.value → magnitude.distance decimal = magnitude.distance other →
    other.coefficient ≤ decimal.coefficient

/-- The decimal that a magnitude is written as: with the greatest exponent for which any decimal
is rounded to the magnitude, and the closest one with it. -/
inductive IsShortest (magnitude : Binary64) (decimal : Decimal) : Prop where
  | zero (hmagnitude : magnitude.mantissa = 0) (hdecimal : decimal = ⟨0, 0⟩)
  | positive (hmagnitude : magnitude.mantissa ≠ 0) (hclosest : magnitude.IsClosest decimal)
      (hcoarsest : ∀ other : Decimal, magnitude.IsNearest other.value →
        other.exponent ≤ decimal.exponent)

theorem IsClosest.unique {front back : Decimal} (hfront : magnitude.IsClosest front)
    (hback : magnitude.IsClosest back) (hexponent : front.exponent = back.exponent) :
    front = back := by
  have hdistance := le_antisymm (hfront.closest back hexponent.symm hback.rounded)
    (hback.closest front hexponent hfront.rounded)
  have hle := hback.greatest front hexponent hfront.rounded hdistance.symm
  have hge := hfront.greatest back hexponent.symm hback.rounded hdistance
  obtain ⟨coefficient, exponent⟩ := front
  obtain rfl := hexponent
  exact congrArg (Decimal.mk · back.exponent) (le_antisymm hle hge)

/-- A magnitude is written as one decimal only. -/
theorem IsShortest.unique {front back : Decimal} (hfront : magnitude.IsShortest front)
    (hback : magnitude.IsShortest back) : front = back := by
  cases hfront with
  | zero hmagnitude hfront =>
      cases hback with
      | zero _ hback => rw [hfront, hback]
      | positive hpositive => exact absurd hmagnitude hpositive
  | positive hpositive hfront hfrontCoarsest =>
      cases hback with
      | zero hmagnitude => exact absurd hmagnitude hpositive
      | positive _ hback hbackCoarsest =>
          exact hfront.unique hback (le_antisymm (hbackCoarsest front hfront.rounded)
            (hfrontCoarsest back hback.rounded))

/-! ## Grids

The decimals with one exponent are the points of a grid.  The last one that is not above a
magnitude and the next one enclose it, and of the points on either side these are the closest.
-/

/-- The magnitude is not below this point of the grid, but below the next one. -/
structure IsBetween (magnitude : Binary64) (exponent : ℤ) (below : ℕ) : Prop where
  le_value : Decimal.value ⟨below, exponent⟩ ≤ magnitude.value
  value_lt : magnitude.value < Decimal.value ⟨below + 1, exponent⟩

theorem point_le (exponent : ℤ) {front back : ℕ} (hle : front ≤ back) :
    Decimal.value ⟨front, exponent⟩ ≤ Decimal.value ⟨back, exponent⟩ := by
  have hcast : (front : ℚ) ≤ back := by exact_mod_cast hle
  exact mul_le_mul_of_nonneg_right hcast (by positivity)

theorem point_lt (exponent : ℤ) {front back : ℕ} (hlt : front < back) :
    Decimal.value ⟨front, exponent⟩ < Decimal.value ⟨back, exponent⟩ := by
  have hcast : (front : ℚ) < back := by exact_mod_cast hlt
  exact mul_lt_mul_of_pos_right hcast (by positivity)

section

variable {below : ℕ}

theorem IsBetween.distance_le (hbetween : magnitude.IsBetween exponent below)
    (hle : coefficient ≤ below) :
    magnitude.distance ⟨below, exponent⟩ ≤ magnitude.distance ⟨coefficient, exponent⟩ :=
  abs_le_abs_of_nonpos (sub_nonpos.mpr hbetween.le_value)
    (sub_le_sub_right (point_le exponent hle) _)

theorem IsBetween.distance_succ_le (hbetween : magnitude.IsBetween exponent below)
    (hlt : below < coefficient) :
    magnitude.distance ⟨below + 1, exponent⟩ ≤ magnitude.distance ⟨coefficient, exponent⟩ :=
  abs_le_abs_of_nonneg (sub_nonneg.mpr hbetween.value_lt.le)
    (sub_le_sub_right (point_le exponent hlt) _)

theorem IsBetween.distance_succ_lt (hbetween : magnitude.IsBetween exponent below)
    (hlt : below + 1 < coefficient) :
    magnitude.distance ⟨below + 1, exponent⟩ < magnitude.distance ⟨coefficient, exponent⟩ := by
  have hpositive := sub_pos.mpr hbetween.value_lt
  have hfarther := sub_lt_sub_right (point_lt exponent hlt) magnitude.value
  rw [distance, distance, abs_of_pos hpositive, abs_of_pos (hpositive.trans hfarther)]
  exact hfarther

/-- The point below is the closest one if it is nearer than the next one, or if no point above
is rounded to the magnitude. -/
theorem IsBetween.isClosest (hbetween : magnitude.IsBetween exponent below)
    (hrounded : magnitude.IsNearest (Decimal.value ⟨below, exponent⟩))
    (hnearer : magnitude.distance ⟨below, exponent⟩ < magnitude.distance ⟨below + 1, exponent⟩ ∨
      ∀ coefficient, below < coefficient →
        ¬ magnitude.IsNearest (Decimal.value ⟨coefficient, exponent⟩)) :
    magnitude.IsClosest ⟨below, exponent⟩ := by
  have habove : ∀ coefficient, below < coefficient →
      magnitude.IsNearest (Decimal.value ⟨coefficient, exponent⟩) →
      magnitude.distance ⟨below, exponent⟩ < magnitude.distance ⟨coefficient, exponent⟩ := by
    intro coefficient hlt hnearest
    have hnext := hnearer.resolve_right fun hnone => hnone coefficient hlt hnearest
    exact hnext.trans_le (hbetween.distance_succ_le hlt)
  refine ⟨hrounded, ?_, ?_⟩
  · rintro ⟨coefficient, _⟩ rfl hnearest
    rcases le_or_gt coefficient below with hle | hgt
    · exact hbetween.distance_le hle
    · exact (habove coefficient hgt hnearest).le
  · rintro ⟨coefficient, _⟩ rfl hnearest heq
    by_contra hgt
    exact (habove coefficient (Nat.lt_of_not_le hgt) hnearest).ne heq

/-- The next point is the closest one if it is as near as the one below, or if no point below
is rounded to the magnitude. -/
theorem IsBetween.isClosest_succ (hbetween : magnitude.IsBetween exponent below)
    (hrounded : magnitude.IsNearest (Decimal.value ⟨below + 1, exponent⟩))
    (hnearer : magnitude.distance ⟨below + 1, exponent⟩ ≤ magnitude.distance ⟨below, exponent⟩ ∨
      ∀ coefficient, coefficient ≤ below →
        ¬ magnitude.IsNearest (Decimal.value ⟨coefficient, exponent⟩)) :
    magnitude.IsClosest ⟨below + 1, exponent⟩ := by
  refine ⟨hrounded, ?_, ?_⟩
  · rintro ⟨coefficient, _⟩ rfl hnearest
    rcases le_or_gt coefficient below with hle | hgt
    · have hbelow := hnearer.resolve_right fun hnone => hnone coefficient hle hnearest
      exact hbelow.trans (hbetween.distance_le hle)
    · exact hbetween.distance_succ_le hgt
  · rintro ⟨coefficient, _⟩ rfl _ heq
    by_contra hgt
    exact (hbetween.distance_succ_lt (Nat.lt_of_not_le hgt)).ne heq

end

/-! ## Whole numbers

Both a magnitude and the points of a grid are brought to whole numbers by one factor.
-/

def fine (exponent : ℤ) : ℕ := Nat.pow 10 (-exponent).toNat

def gridStep (exponent : ℤ) : ℕ := Nat.pow 10 exponent.toNat * (4 * unitsPerOne)

def gridFactor (exponent : ℤ) : ℚ := 4 * unitsPerOne * fine exponent

theorem fine_pos (exponent : ℤ) : 0 < fine exponent := Nat.pow_pos (by norm_num)

theorem gridFactor_pos (exponent : ℤ) : 0 < gridFactor exponent := by
  have hfine : (0 : ℚ) < fine exponent := by exact_mod_cast fine_pos exponent
  exact mul_pos quarters_pos hfine

theorem gridStep_pos (exponent : ℤ) : 0 < gridStep exponent :=
  Nat.mul_pos (Nat.pow_pos (by norm_num)) (Nat.mul_pos (by norm_num) unitsPerOne_pos)

theorem power_mul_gridFactor (exponent : ℤ) :
    10 ^ exponent * gridFactor exponent = gridStep exponent := by
  have hpower : (10 : ℚ) ^ exponent * 10 ^ (-exponent).toNat = 10 ^ exponent.toNat := by
    rw [← zpow_natCast, ← zpow_natCast, ← zpow_add₀ (by norm_num)]
    congr 1
    omega
  rw [gridFactor, fine, gridStep, Nat.pow_eq, Nat.pow_eq, Nat.cast_mul, Nat.cast_mul, Nat.cast_pow,
    Nat.cast_pow, Nat.cast_ofNat, Nat.cast_ofNat, ← hpower, mul_comm (4 * (unitsPerOne : ℚ)),
    mul_assoc]

theorem quarters_mul_fine (x : ℚ) (exponent : ℤ) :
    quarters x * fine exponent = x * gridFactor exponent := by
  rw [quarters, gridFactor]
  ring

theorem value_mul_gridFactor (magnitude : Binary64) (exponent : ℤ) :
    magnitude.value * gridFactor exponent = magnitude.neighbourhood.centre * fine exponent := by
  rw [← quarters_mul_fine, quarters_value, neighbourhood_centre, Nat.cast_mul, Nat.cast_ofNat]

theorem point_mul_gridFactor (coefficient : ℕ) (exponent : ℤ) :
    Decimal.value ⟨coefficient, exponent⟩ * gridFactor exponent =
      coefficient * gridStep exponent := by
  rw [Decimal.value, mul_assoc, power_mul_gridFactor]

/-- The last point that is not above the magnitude is a quotient. -/
theorem isBetween_div (magnitude : Binary64) (exponent : ℤ) :
    magnitude.IsBetween exponent
      (magnitude.neighbourhood.centre * fine exponent / gridStep exponent) := by
  have hfactor := gridFactor_pos exponent
  constructor
  · rw [← mul_le_mul_iff_left₀ hfactor, point_mul_gridFactor, value_mul_gridFactor]
    exact_mod_cast Nat.div_mul_le_self _ _
  · rw [← mul_lt_mul_iff_left₀ hfactor, point_mul_gridFactor, value_mul_gridFactor]
    exact_mod_cast Nat.lt_mul_of_div_lt (Nat.lt_succ_self _) (gridStep_pos exponent)

/-- The remainder tells which of the two points around a magnitude is nearer. -/
theorem distance_lt_iff (magnitude : Binary64) (exponent : ℤ) :
    let below := magnitude.neighbourhood.centre * fine exponent / gridStep exponent
    magnitude.distance ⟨below, exponent⟩ < magnitude.distance ⟨below + 1, exponent⟩ ↔
      2 * (magnitude.neighbourhood.centre * fine exponent % gridStep exponent) <
        gridStep exponent := by
  have hbetween := isBetween_div magnitude exponent
  have hdivision := Nat.div_add_mod' (magnitude.neighbourhood.centre * fine exponent)
    (gridStep exponent)
  dsimp only
  generalize magnitude.neighbourhood.centre * fine exponent % gridStep exponent = remainder at *
  generalize magnitude.neighbourhood.centre * fine exponent / gridStep exponent = below at *
  rw [distance, distance, abs_of_nonpos (sub_nonpos.mpr hbetween.le_value),
    abs_of_pos (sub_pos.mpr hbetween.value_lt), ← mul_lt_mul_iff_left₀ (gridFactor_pos exponent),
    neg_sub, sub_mul, sub_mul, point_mul_gridFactor, point_mul_gridFactor, value_mul_gridFactor,
    ← Nat.cast_mul, ← hdivision]
  have hcast : 2 * remainder < gridStep exponent ↔ (2 * remainder : ℚ) < gridStep exponent := by
    norm_cast
  rw [hcast]
  push_cast
  constructor <;> intro h <;> linarith

theorem quarters_point (coefficient : ℕ) (exponent : ℤ) :
    quarters (Decimal.value ⟨coefficient, exponent⟩) =
      (coefficient * gridStep exponent : ℕ) / fine exponent := by
  have hfine : (0 : ℚ) < fine exponent := by exact_mod_cast fine_pos exponent
  rw [eq_div_iff hfine.ne', quarters_mul_fine, point_mul_gridFactor, Nat.cast_mul]

def Neighbourhood.within (around : Neighbourhood) (exponent : ℤ) (coefficient : ℕ) : Bool :=
  if around.closed then
    around.low * fine exponent ≤ coefficient * gridStep exponent &&
      coefficient * gridStep exponent ≤ around.high * fine exponent
  else
    around.low * fine exponent < coefficient * gridStep exponent &&
      coefficient * gridStep exponent < around.high * fine exponent

/-- The first of two points that is in the neighbourhood. -/
def Neighbourhood.first? (around : Neighbourhood) (exponent : ℤ) (nearer farther : ℕ) :
    Option Decimal :=
  if around.within exponent nearer then some ⟨nearer, exponent⟩
  else if around.within exponent farther then some ⟨farther, exponent⟩
  else none

theorem Neighbourhood.onGrid?_eq (around : Neighbourhood) (exponent : ℤ) :
    around.onGrid? exponent =
      let below := around.centre * fine exponent / gridStep exponent
      if 2 * (around.centre * fine exponent % gridStep exponent) < gridStep exponent then
        around.first? exponent below (below + 1)
      else around.first? exponent (below + 1) below := by
  change onGrid? around exponent =
    if 2 * (around.centre * Nat.pow 10 (-exponent).toNat %
        (Nat.pow 10 exponent.toNat * (4 * unitsPerOne))) <
          Nat.pow 10 exponent.toNat * (4 * unitsPerOne) then _ else _
  rw [onGrid?]
  split <;> rfl

theorem IsCanonical.within_iff (hcanonical : magnitude.IsCanonical) :
    magnitude.neighbourhood.within exponent coefficient = true ↔
      magnitude.IsNearest (Decimal.value ⟨coefficient, exponent⟩) := by
  rw [hcanonical.isNearest_iff (Decimal.value_nonneg _), quarters_point,
    Neighbourhood.contains_div_iff (fine_pos exponent), Neighbourhood.within]
  split_ifs <;> rw [Bool.and_eq_true, decide_eq_true_iff, decide_eq_true_iff]

/-- If any point on a side of the magnitude is rounded to it, the one next to it is. -/
theorem IsBetween.isNearest {below : ℕ} (hbetween : magnitude.IsBetween exponent below)
    (hnearest : magnitude.IsNearest (Decimal.value ⟨coefficient, exponent⟩)) :
    (coefficient ≤ below → magnitude.IsNearest (Decimal.value ⟨below, exponent⟩)) ∧
      (below < coefficient → magnitude.IsNearest (Decimal.value ⟨below + 1, exponent⟩)) := by
  have hcentre := hnearest.canonical.isNearest_value
  constructor
  · intro hle
    have hnonneg := Decimal.value_nonneg ⟨coefficient, exponent⟩
    exact hnearest.between hcentre hnonneg (point_le exponent hle) hbetween.le_value
  · intro hlt
    have hnonneg : 0 ≤ magnitude.value := (Decimal.value_nonneg _).trans hbetween.le_value
    exact hcentre.between hnearest hnonneg hbetween.value_lt.le (point_le exponent hlt)

/-- What is found on a grid is the closest of its points that are rounded to the magnitude. -/
theorem IsCanonical.isClosest_of_onGrid? (hcanonical : magnitude.IsCanonical)
    (hfound : magnitude.neighbourhood.onGrid? exponent = some decimal) :
    decimal.exponent = exponent ∧ magnitude.IsClosest decimal := by
  have hbetween := isBetween_div magnitude exponent
  have hcloser := distance_lt_iff magnitude exponent
  rw [Neighbourhood.onGrid?_eq] at hfound
  dsimp only at hcloser hfound
  generalize magnitude.neighbourhood.centre * fine exponent / gridStep exponent = below at *
  by_cases hlow : magnitude.distance ⟨below, exponent⟩ < magnitude.distance ⟨below + 1, exponent⟩
  · rw [if_pos (hcloser.mp hlow), Neighbourhood.first?] at hfound
    split_ifs at hfound with hnearer hfarther
    · cases hfound
      exact ⟨rfl, hbetween.isClosest (hcanonical.within_iff.mp hnearer) (.inl hlow)⟩
    · cases hfound
      refine ⟨rfl, hbetween.isClosest_succ (hcanonical.within_iff.mp hfarther) (.inr ?_)⟩
      intro coefficient hle hnearest
      exact hnearer (hcanonical.within_iff.mpr ((hbetween.isNearest hnearest).1 hle))
  · rw [if_neg (hcloser.not.mp hlow), Neighbourhood.first?] at hfound
    split_ifs at hfound with hnearer hfarther
    · cases hfound
      exact ⟨rfl, hbetween.isClosest_succ (hcanonical.within_iff.mp hnearer)
        (.inl (le_of_not_gt hlow))⟩
    · cases hfound
      refine ⟨rfl, hbetween.isClosest (hcanonical.within_iff.mp hfarther) (.inr ?_)⟩
      intro coefficient hlt hnearest
      exact hnearer (hcanonical.within_iff.mpr ((hbetween.isNearest hnearest).2 hlt))

/-- Where nothing is found on a grid, none of its points is rounded to the magnitude. -/
theorem IsCanonical.exists_onGrid? (hcanonical : magnitude.IsCanonical)
    (hnearest : magnitude.IsNearest (Decimal.value ⟨coefficient, exponent⟩)) :
    ∃ decimal, magnitude.neighbourhood.onGrid? exponent = some decimal := by
  obtain ⟨hbelow, habove⟩ := (isBetween_div magnitude exponent).isNearest hnearest
  rw [Neighbourhood.onGrid?_eq]
  dsimp only
  generalize magnitude.neighbourhood.centre * fine exponent / gridStep exponent = below at *
  rw [← hcanonical.within_iff] at hbelow habove
  rcases le_or_gt coefficient below with hle | hgt
  · split <;> rw [Neighbourhood.first?] <;> split_ifs <;> simp_all
  · split <;> rw [Neighbourhood.first?] <;> split_ifs <;> simp_all

/-! ## Exponents

A finite magnitude is so small that no multiple of `10 ^ 309` is rounded to it, and every
magnitude reaches so far that some multiple of `10 ^ (-324)` is.
-/

theorem gridExponents_pairwise : gridExponents.Pairwise fun front back => back < front := by
  rw [gridExponents, List.pairwise_map]
  refine List.pairwise_lt_range.imp ?_
  intro front back hlt
  omega

theorem mem_gridExponents : exponent ∈ gridExponents ↔ -324 ≤ exponent ∧ exponent ≤ 308 := by
  rw [gridExponents, List.mem_map]
  constructor
  · intro h
    obtain ⟨index, hindex, rfl⟩ := h
    rw [List.mem_range] at hindex
    omega
  · intro h
    refine ⟨(308 - exponent).toNat, ?_, ?_⟩
    · rw [List.mem_range]
      omega
    · omega

theorem two_pow_le_units (hpositive : magnitude.mantissa ≠ 0) :
    2 ^ magnitude.doublings ≤ magnitude.units :=
  Nat.le_mul_of_pos_left _ (Nat.pos_of_ne_zero hpositive)

theorem neighbourhood_low_pos (hpositive : magnitude.mantissa ≠ 0) :
    0 < magnitude.neighbourhood.low := by
  have hunits := two_pow_le_units hpositive
  have hpower : 0 < 2 ^ magnitude.doublings := Nat.two_pow_pos _
  rw [neighbourhood_low]
  split_ifs <;> omega

/-- A neighbourhood is wider than half of the least magnitude. -/
theorem neighbourhood_low_add_le (hpositive : magnitude.mantissa ≠ 0) :
    magnitude.neighbourhood.low + 3 ≤ magnitude.neighbourhood.high := by
  have hunits := two_pow_le_units hpositive
  have hpower : 0 < 2 ^ magnitude.doublings := Nat.two_pow_pos _
  rw [neighbourhood_low, neighbourhood_high]
  split_ifs <;> omega

theorem IsNearest.ne_zero {x : ℚ} (hnearest : magnitude.IsNearest x)
    (hpositive : magnitude.mantissa ≠ 0) : x ≠ 0 := by
  rintro rfl
  have hlow := (hnearest.low_le hpositive).1
  rw [quarters, mul_zero] at hlow
  exact absurd (neighbourhood_low_pos hpositive) (by exact_mod_cast not_lt_of_ge hlow)

/-- A finite magnitude is below `2 ^ 1024`, and what is rounded to it is not above that. -/
theorem IsNearest.lt_bound {x : ℚ} (hnearest : magnitude.IsNearest x)
    (hfinite : magnitude.doublings ≤ maxDoublings) : x < 10 ^ (309 : ℤ) := by
  have hhigh : magnitude.neighbourhood.high ≤ 4 * unitsPerOne * 2 ^ 1024 := by
    have hmantissa : 4 * magnitude.mantissa + 2 ≤ 2 ^ 55 := by
      have := hnearest.canonical.mantissa
      omega
    have hpower : ∀ doublings, magnitude.doublings ≤ doublings →
        2 ^ magnitude.doublings ≤ 2 ^ doublings := fun _ => Nat.pow_le_pow_right two_pos
    have hbound : 2 ^ 55 * 2 ^ maxDoublings = 4 * unitsPerOne * 2 ^ 1024 := by decide +kernel
    rw [← hbound]
    exact Nat.mul_le_mul hmantissa (hpower maxDoublings hfinite)
  have hpower : 2 ^ 1024 < 10 ^ 309 := by decide +kernel
  have hquarters : quarters x ≤ quarters (2 ^ 1024) := by
    refine hnearest.le_high.1.trans ?_
    rw [quarters]
    exact_mod_cast hhigh
  calc
    x ≤ 2 ^ 1024 := le_of_mul_le_mul_left hquarters quarters_pos
    _ < 10 ^ 309 := by exact_mod_cast hpower
    _ = 10 ^ (309 : ℤ) := (zpow_natCast 10 309).symm

/-- No multiple of a greater power of ten is rounded to a finite magnitude. -/
theorem IsNearest.exponent_le (hnearest : magnitude.IsNearest decimal.value)
    (hpositive : magnitude.mantissa ≠ 0) (hfinite : magnitude.doublings ≤ maxDoublings) :
    decimal.exponent ≤ 308 := by
  by_contra hgt
  have hcoefficient : 1 ≤ decimal.coefficient := by
    rw [Nat.one_le_iff_ne_zero]
    intro hzero
    apply hnearest.ne_zero hpositive
    rw [Decimal.value, hzero, Nat.cast_zero, zero_mul]
  have hpower : (10 : ℚ) ^ (309 : ℤ) ≤ 10 ^ decimal.exponent :=
    zpow_le_zpow_right₀ (by norm_num) (by omega)
  have hcast : (1 : ℚ) ≤ decimal.coefficient := by exact_mod_cast hcoefficient
  have hvalue : (10 : ℚ) ^ (309 : ℤ) ≤ decimal.value :=
    hpower.trans (le_mul_of_one_le_left (by positivity) hcast)
  exact absurd (hnearest.lt_bound hfinite) (not_lt_of_ge hvalue)

/-- Some multiple of this power of ten is rounded to any magnitude. -/
theorem IsCanonical.exists_finest (hcanonical : magnitude.IsCanonical)
    (hpositive : magnitude.mantissa ≠ 0) :
    ∃ coefficient, magnitude.IsNearest (Decimal.value ⟨coefficient, -324⟩) := by
  have hstep : gridStep (-324) < 3 * fine (-324) := by decide +kernel
  have hwidth := Nat.mul_le_mul_right (fine (-324)) (neighbourhood_low_add_le hpositive)
  rw [Nat.add_mul] at hwidth
  refine ⟨magnitude.neighbourhood.low * fine (-324) / gridStep (-324) + 1, ?_⟩
  rw [hcanonical.isNearest_iff (Decimal.value_nonneg _), quarters_point,
    Neighbourhood.contains_div_iff (fine_pos _)]
  have hdivision := Nat.div_add_mod' (magnitude.neighbourhood.low * fine (-324)) (gridStep (-324))
  have hremainder := Nat.mod_lt (magnitude.neighbourhood.low * fine (-324)) (gridStep_pos (-324))
  rw [Nat.add_mul, Nat.one_mul]
  split_ifs <;> omega

/-- In a sorted list, what is found belongs to the first element that has something. -/
theorem exists_of_findSome?_of_pairwise {α β : Type} {r : α → α → Prop} {f : α → Option β}
    {elements : List α} {result : β} (hsorted : elements.Pairwise r)
    (hfound : elements.findSome? f = some result) :
    ∃ first ∈ elements, f first = some result ∧
      ∀ other ∈ elements, f other ≠ none → other = first ∨ r first other := by
  obtain ⟨front, first, back, rfl, hfirst, hnone⟩ := List.findSome?_eq_some_iff.mp hfound
  rw [List.pairwise_append, List.pairwise_cons] at hsorted
  refine ⟨first, by simp, hfirst, ?_⟩
  intro other hmem hother
  rw [List.mem_append, List.mem_cons] at hmem
  rcases hmem with hmem | heq | hmem
  · exact absurd (hnone other hmem) hother
  · exact .inl heq
  · exact .inr (hsorted.2.1.1 other hmem)

/-- What a finite magnitude is written as is the shortest decimal. -/
theorem IsCanonical.isShortest (hcanonical : magnitude.IsCanonical)
    (hfinite : magnitude.doublings ≤ maxDoublings) : magnitude.IsShortest magnitude.shortest := by
  by_cases hzero : magnitude.mantissa = 0
  · rw [shortest, if_pos hzero]
    exact .zero hzero rfl
  · rw [shortest, if_neg hzero]
    obtain ⟨finest, hfinest⟩ := hcanonical.exists_finest hzero
    have hsome : ∀ {coefficient : ℕ} {exponent : ℤ},
        magnitude.IsNearest (Decimal.value ⟨coefficient, exponent⟩) →
        magnitude.neighbourhood.onGrid? exponent ≠ none := by
      intro coefficient exponent hother hnone
      obtain ⟨decimal, hdecimal⟩ := hcanonical.exists_onGrid? hother
      rw [hnone] at hdecimal
      cases hdecimal
    have hfinestMem : (-324 : ℤ) ∈ gridExponents := mem_gridExponents.mpr ⟨le_rfl, by norm_num⟩
    cases hfound : gridExponents.findSome? magnitude.neighbourhood.onGrid? with
    | none =>
        have hnone := List.findSome?_eq_none_iff.mp hfound (-324) hfinestMem
        exact absurd hnone (hsome hfinest)
    | some decimal =>
        change magnitude.IsShortest decimal
        obtain ⟨exponent, hmem, hdecimal, hfirst⟩ :=
          exists_of_findSome?_of_pairwise gridExponents_pairwise hfound
        obtain ⟨rfl, hclosest⟩ := hcanonical.isClosest_of_onGrid? hdecimal
        refine .positive hzero hclosest ?_
        intro other hother
        rw [mem_gridExponents] at hmem
        rcases lt_or_ge other.exponent (-324) with hlt | hge
        · omega
        · have hother' : other.exponent ∈ gridExponents :=
            mem_gridExponents.mpr ⟨hge, hother.exponent_le hzero hfinite⟩
          rcases hfirst other.exponent hother' (hsome hother) with heq | hlt
          · exact heq.le
          · exact hlt.le

theorem isShortest_iff (hcanonical : magnitude.IsCanonical)
    (hfinite : magnitude.doublings ≤ maxDoublings) :
    magnitude.IsShortest decimal ↔ magnitude.shortest = decimal := by
  constructor
  · intro hshortest
    exact (hcanonical.isShortest hfinite).unique hshortest
  · rintro rfl
    exact hcanonical.isShortest hfinite

theorem IsShortest.coefficient_ne_zero (hshortest : magnitude.IsShortest decimal) :
    decimal.coefficient ≠ 0 ∨ decimal.exponent ≤ 0 := by
  cases hshortest with
  | zero _ hdecimal => exact .inr (hdecimal ▸ le_rfl)
  | positive hpositive hclosest =>
      refine .inl fun hzero => hclosest.rounded.ne_zero hpositive ?_
      rw [Decimal.value, hzero, Nat.cast_zero, zero_mul]

/-- No decimal that is rounded to a positive magnitude has fewer digits than the shortest one:
a power of ten between the two would be coarser than that. -/
theorem IsShortest.coefficient_lt {other : Decimal} (hshortest : magnitude.IsShortest decimal)
    (hpositive : magnitude.mantissa ≠ 0) (hother : magnitude.IsNearest other.value) {places : ℕ}
    (hplaces : other.coefficient < 10 ^ places) : decimal.coefficient < 10 ^ places := by
  cases hshortest with
  | zero hzero => exact absurd hzero hpositive
  | positive _ hclosest hcoarsest =>
      by_contra hge
      have hbelow : other.value ≤ Decimal.value ⟨1, places + decimal.exponent⟩ := by
        have hcast : (other.coefficient : ℚ) ≤ 10 ^ places := by exact_mod_cast hplaces.le
        have hpower : (10 : ℚ) ^ other.exponent ≤ 10 ^ decimal.exponent :=
          zpow_le_zpow_right₀ (by norm_num) (hcoarsest other hother)
        rw [Decimal.value, Decimal.value, Nat.cast_one, one_mul, zpow_add₀ (by norm_num),
          zpow_natCast]
        exact mul_le_mul hcast hpower (by positivity) (by positivity)
      have habove : Decimal.value ⟨1, places + decimal.exponent⟩ ≤ decimal.value := by
        have hcast : (10 ^ places : ℚ) ≤ decimal.coefficient := by
          exact_mod_cast Nat.le_of_not_lt hge
        rw [Decimal.value, Decimal.value, Nat.cast_one, one_mul, zpow_add₀ (by norm_num),
          zpow_natCast]
        exact mul_le_mul_of_nonneg_right hcast (by positivity)
      have hbetween := hother.between hclosest.rounded other.value_nonneg hbelow habove
      have hcoarser := hcoarsest _ hbetween
      have hnone : places = 0 := by
        dsimp only at hcoarser
        omega
      rw [hnone, Nat.pow_zero, Nat.lt_one_iff] at hplaces
      apply hother.ne_zero hpositive
      rw [Decimal.value, hplaces, Nat.cast_zero, zero_mul]

end Binary64

end FieldWiring
