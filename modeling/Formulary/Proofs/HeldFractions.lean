import Formulary.Proofs.IntegerQuotients

/-!
What a decimal holds of a fraction: the nearest number of 28 places, or of as many as there is room
for. Sums, products and quotients of decimals are the exact results, held in this way, so they
depend on the numbers alone and not on how these are written.
-/
namespace Formulary

/-! Halves to even -/

structure IsHalfEven (q : ℚ) (c : Int) : Prop where
  near : |c - q| ≤ 1 / 2
  even : |c - q| = 1 / 2 → c % 2 = 0

namespace IsHalfEven

variable {q q' : ℚ} {c c' : Int}

theorem unique (left : IsHalfEven q c) (right : IsHalfEven q c') : c = c' := by
  -- two that are apart are both half a unit away, on either side, and only one of them is even
  have apart {c c' : Int} (left : IsHalfEven q c) (right : IsHalfEven q c') : ¬ c < c' := by
    intro below
    have one : (c : ℚ) + 1 ≤ c' := by exact_mod_cast below
    obtain ⟨-, above⟩ := abs_le.mp right.near
    obtain ⟨under, -⟩ := abs_le.mp left.near
    have next : c' = c + 1 := by
      have le : (c' : ℚ) ≤ c + 1 := by linarith
      exact_mod_cast le_antisymm le one
    have evenLeft := left.even (by rw [abs_of_nonpos (by linarith)]; linarith)
    have evenRight := right.even (by rw [abs_of_nonneg (by linarith)]; linarith)
    omega
  exact le_antisymm (not_lt.mp (apart right left)) (not_lt.mp (apart left right))

theorem mono (left : IsHalfEven q c) (right : IsHalfEven q' c') (below : q ≤ q') : c ≤ c' := by
  by_contra above
  have one : (c' : ℚ) + 1 ≤ c := by exact_mod_cast not_le.mp above
  obtain ⟨-, most⟩ := abs_le.mp left.near
  obtain ⟨under, -⟩ := abs_le.mp right.near
  have same : q = q' := by linarith
  subst same
  exact above (left.unique right).le

theorem neg (half : IsHalfEven q c) : IsHalfEven (-q) (-c) := by
  have turned : |((-c : Int) : ℚ) - -q| = |(c : ℚ) - q| := by
    push_cast
    rw [← abs_neg]
    congr 1
    ring
  refine ⟨turned ▸ half.near, fun tie => ?_⟩
  have even := half.even (turned ▸ tie)
  omega

theorem abs (half : IsHalfEven q c) : IsHalfEven |q| |c| := by
  obtain ⟨most, under⟩ := abs_le.mp half.near
  rcases le_total 0 q with above | below
  · have positive : (-1 : ℚ) < c := by linarith
    have whole : 0 ≤ c := Int.add_one_le_of_lt (by exact_mod_cast positive)
    rwa [abs_of_nonneg above, abs_of_nonneg whole]
  · have negative : (c : ℚ) < 1 := by linarith
    have whole : c ≤ 0 := Int.le_of_lt_add_one (by exact_mod_cast negative)
    rw [abs_of_nonpos below, abs_of_nonpos whole]
    exact half.neg

theorem intCast (i : Int) : IsHalfEven i i := by
  refine ⟨?_, fun tie => ?_⟩
  · rw [sub_self, abs_zero]
    norm_num
  · rw [sub_self, abs_zero] at tie
    norm_num at tie

end IsHalfEven

theorem isHalfEven_roundHalfEven (num : Int) {den : Nat} (positive : 0 < den) :
    IsHalfEven (num / den) (roundHalfEven num den) := by
  refine ⟨abs_roundHalfEven_sub_le num positive, fun tie => ?_⟩
  have wide : (0 : ℚ) < den := Nat.cast_pos.mpr positive
  have apart : |(2 * (roundHalfEven num den * den - num) : Int)| = (den : Int) := by
    have exact : (roundHalfEven num den * den - num : ℚ) =
        (roundHalfEven num den - num / den) * den := by
      rw [sub_mul, div_mul_cancel₀ _ wide.ne']
    have cast : ((|(2 * (roundHalfEven num den * den - num) : Int)| : Int) : ℚ) = den := by
      push_cast
      rw [exact, abs_mul, abs_mul, tie, abs_of_pos wide, abs_two]
      ring
    exact_mod_cast cast
  have split := Int.ediv_mul_add_emod num den
  have low := Int.emod_nonneg num (b := (den : Int)) (by omega)
  have high := Int.emod_lt_of_pos num (b := (den : Int)) (by omega)
  have next : (num / den + 1) * den = num / den * den + den := by rw [add_mul, one_mul]
  rcases abs_cases (2 * (roundHalfEven num den * den - num) : Int) with ⟨same, -⟩ | ⟨same, -⟩
  all_goals
    rw [same] at apart
    simp only [roundHalfEven] at apart ⊢
    split_ifs at apart ⊢ <;> omega

theorem roundHalfEven_congr {num num' : Int} {den den' : Nat} (positive : 0 < den)
    (positive' : 0 < den') (same : (num / den : ℚ) = num' / den') :
    roundHalfEven num den = roundHalfEven num' den' := by
  have left := isHalfEven_roundHalfEven num positive
  rw [same] at left
  exact left.unique (isHalfEven_roundHalfEven num' positive')

theorem roundHalfEven_whole {num i : Int} {den : Nat} (positive : 0 < den)
    (whole : (num / den : ℚ) = i) : roundHalfEven num den = i := by
  have rounded := isHalfEven_roundHalfEven num positive
  rw [whole] at rounded
  exact rounded.unique (.intCast i)

namespace Decimal

variable {num num' i : Int} {den den' cap : Nat} {d : Decimal}

/-! The largest scale that is tried -/

theorem nearest_congr (positive : 0 < den) (positive' : 0 < den')
    (same : (num / den : ℚ) = num' / den') (cap : Nat) :
    nearest num den cap = nearest num' den' cap := by
  have scaled (places : Nat) : roundHalfEven (num * tenTo places) den =
      roundHalfEven (num' * tenTo places) den' := by
    refine roundHalfEven_congr positive positive' ?_
    push_cast
    rw [mul_div_right_comm, mul_div_right_comm, same]
  induction cap with
  | zero => rw [nearest, nearest, roundHalfEven_congr positive positive' same]
  | succ cap ih => rw [nearest, nearest, scaled, ih]

theorem nearest_of_fits (fits : ofParts? (roundHalfEven (num * tenTo cap) den) cap = some d) :
    nearest num den cap = some d := by
  cases cap with
  | zero =>
    rw [show tenTo 0 = 1 from rfl, Nat.cast_one, mul_one] at fits
    exact fits
  | succ cap => rw [nearest, fits]

theorem nearest_of_maxScale_le (num : Int) (den : Nat) (high : maxScale ≤ cap) :
    nearest num den cap = nearest num den maxScale := by
  induction cap, high using Nat.le_induction with
  | base => rfl
  | succ cap high ih =>
    have none : ofParts? (roundHalfEven (num * tenTo (cap + 1)) den) (cap + 1) = none :=
      ofParts?_eq_none_iff.mpr (.inr (Nat.lt_succ_of_le high))
    rw [nearest, none, ih]

theorem scaled_whole (whole : (num / den : ℚ) * tenTo cap = i) :
    ((num * tenTo cap : Int) / den : ℚ) = i := by
  rw [← whole]
  push_cast
  exact mul_div_right_comm _ _ _

theorem nearest_succ_of_whole (positive : 0 < den) (low : cap < maxScale)
    (whole : (num / den : ℚ) * tenTo cap = i) :
    (nearest num den (cap + 1)).map toRat = (nearest num den cap).map toRat := by
  have here : roundHalfEven (num * tenTo cap) den = i :=
    roundHalfEven_whole positive (scaled_whole whole)
  have further : roundHalfEven (num * tenTo (cap + 1)) den = i * 10 := by
    refine roundHalfEven_whole positive (scaled_whole ?_)
    rw [tenTo_succ, Nat.cast_mul, ← mul_assoc, whole]
    push_cast
    rfl
  rw [nearest, further]
  cases fits : ofParts? (i * 10) (cap + 1) with
  | none => rfl
  | some longer =>
    obtain ⟨coeff, scale⟩ := ofParts?_eq_some_iff.mp fits
    have narrow : i.natAbs < widthBound := by
      have bounded := longer.coeff_lt
      rw [coeff, Int.natAbs_mul, show Int.natAbs 10 = 10 from rfl] at bounded
      omega
    have shorter : ofParts? i cap = some ⟨i, cap, narrow, low.le⟩ :=
      ofParts?_eq_some_iff.mpr ⟨rfl, rfl⟩
    rw [nearest_of_fits (by rw [here]; exact shorter)]
    refine congrArg some ((toRat_eq_iff _ _).mpr ?_)
    rw [coeff, scale, tenTo_succ]
    push_cast
    ring

theorem nearest_of_whole (positive : 0 < den) (low : cap ≤ maxScale)
    (whole : (num / den : ℚ) * tenTo cap = i) :
    (nearest num den maxScale).map toRat = (nearest num den cap).map toRat := by
  have further (places : Nat) (more : cap ≤ places) :
      ∃ i : Int, (num / den : ℚ) * tenTo places = i := by
    induction places, more using Nat.le_induction with
    | base => exact ⟨i, whole⟩
    | succ places _ ih =>
      obtain ⟨j, same⟩ := ih
      refine ⟨j * 10, ?_⟩
      rw [tenTo_succ, Nat.cast_mul, ← mul_assoc, same]
      push_cast
      rfl
  have upTo (places : Nat) (more : cap ≤ places) (bounded : places ≤ maxScale) :
      (nearest num den places).map toRat = (nearest num den cap).map toRat := by
    induction places, more using Nat.le_induction with
    | base => rfl
    | succ places more ih =>
      obtain ⟨j, same⟩ := further places more
      rw [nearest_succ_of_whole positive bounded same, ih (Nat.le_of_succ_le bounded)]
  exact upTo maxScale low (Nat.le_refl _)

/-! Held fractions -/

/-- What a decimal can hold of a fraction, none if even its whole part is too wide. -/
def held? (q : ℚ) : Option ℚ := (nearest q.num q.den maxScale).map toRat

theorem map_nearest (positive : 0 < den)
    (enough : maxScale ≤ cap ∨ ∃ i : Int, (num / den : ℚ) * tenTo cap = i) :
    (nearest num den cap).map toRat = held? (num / den) := by
  have reduced : (num / den : ℚ) = (num / den : ℚ).num / (num / den : ℚ).den :=
    (Rat.num_div_den _).symm
  have all : (nearest num den maxScale).map toRat = held? (num / den) :=
    congrArg (Option.map toRat) (nearest_congr positive (Rat.den_pos _) reduced maxScale)
  rcases le_total maxScale cap with high | low
  · rw [nearest_of_maxScale_le _ _ high, all]
  · rcases enough with high | ⟨i, whole⟩
    · rw [nearest_of_maxScale_le _ _ high, all]
    · rw [← nearest_of_whole positive low whole, all]

theorem held?_toRat (d : Decimal) : held? d.toRat = some d.toRat := by
  have places := (tenTo_cast_pos d.scale).ne'
  have whole : (d.coeff / tenTo d.scale : ℚ) * tenTo d.scale = d.coeff := div_mul_cancel₀ _ places
  have fits : ofParts? (roundHalfEven (d.coeff * tenTo d.scale) (tenTo d.scale)) d.scale =
      some d := by
    rw [roundHalfEven_exact _ (tenTo_pos _)]
    exact ofParts?_eq_some_iff.mpr ⟨rfl, rfl⟩
  have held := map_nearest (tenTo_pos d.scale) (.inr ⟨d.coeff, whole⟩)
  rw [nearest_of_fits fits] at held
  exact held.symm

theorem toRat_zero : zero.toRat = 0 := by decide +kernel

theorem toRat_one : one.toRat = 1 := by decide +kernel

theorem toRat_neg (d : Decimal) : d.neg.toRat = -d.toRat := by
  simp only [toRat, neg, Int.cast_neg, neg_div]

theorem toRat_eq_zero_iff (d : Decimal) : d.toRat = 0 ↔ d.coeff = 0 := by
  rw [toRat, div_eq_zero_iff, or_iff_left (tenTo_cast_pos _).ne', Int.cast_eq_zero]

theorem isZero_iff (d : Decimal) : d.isZero = true ↔ d.toRat = 0 := by
  rw [isZero, beq_iff_eq, toRat_eq_zero_iff]

theorem isNegative_iff (d : Decimal) : d.isNegative = true ↔ d.toRat < 0 := by
  rw [isNegative, decide_eq_true_eq, toRat, div_neg_iff]
  have places := tenTo_cast_pos d.scale
  constructor
  · intro negative
    exact .inr ⟨Int.cast_lt_zero.mpr negative, places⟩
  · rintro (⟨-, wrong⟩ | ⟨negative, -⟩)
    · exact absurd wrong places.not_gt
    · exact Int.cast_lt_zero.mp negative

theorem coeffAt_div (d : Decimal) {scale : Nat} (low : d.scale ≤ scale) :
    (d.coeffAt scale / tenTo scale : ℚ) = d.toRat := by
  have split : tenTo scale = tenTo d.scale * tenTo (scale - d.scale) := by
    rw [tenTo, tenTo, tenTo, Nat.pow_eq, Nat.pow_eq, Nat.pow_eq, ← pow_add, Nat.add_sub_of_le low]
  rw [coeffAt, split, toRat]
  push_cast
  rw [mul_div_mul_right _ _ (tenTo_cast_pos _).ne']

/-! Operations -/

theorem add?_held (a b : Decimal) : (a.add? b).map toRat = held? (a.toRat + b.toRat) := by
  unfold add?
  split
  · next nothing =>
    rw [a.isZero_iff.mp nothing, zero_add, held?_toRat]
    rfl
  · split
    · next nothing =>
      rw [b.isZero_iff.mp nothing, add_zero, held?_toRat]
      rfl
    · have places := (tenTo_cast_pos (max a.scale b.scale)).ne'
      have whole := div_mul_cancel₀
        ((a.coeffAt (max a.scale b.scale) + b.coeffAt (max a.scale b.scale) : Int) : ℚ) places
      refine (map_nearest (tenTo_pos _) (.inr ⟨_, whole⟩)).trans ?_
      rw [Int.cast_add, add_div, a.coeffAt_div (le_max_left _ _), b.coeffAt_div (le_max_right _ _)]

theorem sub?_held (a b : Decimal) : (a.sub? b).map toRat = held? (a.toRat - b.toRat) := by
  rw [sub?, add?_held, toRat_neg, sub_eq_add_neg]

theorem mul?_held (a b : Decimal) : (a.mul? b).map toRat = held? (a.toRat * b.toRat) := by
  unfold mul?
  split
  · next nothing =>
    have product : a.toRat * b.toRat = zero.toRat := by
      rw [toRat_zero, mul_eq_zero]
      simpa only [Bool.or_eq_true, isZero_iff] using nothing
    rw [product, held?_toRat]
    rfl
  · have places := (tenTo_cast_pos (a.scale + b.scale)).ne'
    have whole := div_mul_cancel₀ ((a.coeff * b.coeff : Int) : ℚ) places
    refine (map_nearest (tenTo_pos _) (.inr ⟨_, whole⟩)).trans ?_
    rw [tenTo, Nat.pow_eq, pow_add, toRat, toRat, tenTo, tenTo, Nat.pow_eq, Nat.pow_eq]
    push_cast
    rw [mul_div_mul_comm]

theorem div?_held {a b : Decimal} (nonzero : b.toRat ≠ 0) :
    (a.div? b).map toRat = held? (a.toRat / b.toRat) := by
  have someDivisor : ¬ b.isZero = true := mt b.isZero_iff.mp nonzero
  have noZero : b.coeff ≠ 0 := mt b.toRat_eq_zero_iff.mpr nonzero
  rw [div?, if_neg someDivisor]
  split
  · next nothing =>
    rw [a.isZero_iff.mp nothing, zero_div, ← toRat_zero, held?_toRat]
    rfl
  · have positive : 0 < b.coeff.natAbs * tenTo a.scale :=
      Nat.mul_pos (Int.natAbs_pos.mpr noZero) (tenTo_pos _)
    have stripped : toRat ∘ strip (a.scale - b.scale) = toRat := funext fun d => toRat_strip _ d
    rw [Option.map_map, stripped, map_nearest positive (.inl (Nat.le_refl _)), quotient_eq noZero]

theorem div?_zero {a b : Decimal} (nothing : b.toRat = 0) : a.div? b = none :=
  if_pos (b.isZero_iff.mpr nothing)

/-! Bounds -/

variable {q q' x x' : ℚ}

theorem rounded_of_held? (held : held? q = some x) :
    ∃ d : Decimal, d.toRat = x ∧ Rounded maxScale q d d.scale := by
  obtain ⟨d, made, same⟩ := Option.map_eq_some_iff.mp held
  have rounded := rounded_of_nearest (Rat.den_pos q) (Nat.le_refl _) made
  rw [Rat.num_div_den] at rounded
  exact ⟨d, same, rounded⟩

theorem wide_of_held? (none : held? q = none) : (widthBound : ℚ) - 1 / 2 ≤ |q| := by
  have tooWide : widthBound ≤ (roundHalfEven q.num q.den).natAbs := by
    by_contra narrow
    obtain ⟨d, made⟩ := nearest_isSome_of_rounded (not_le.mp narrow) maxScale
    rw [held?, made] at none
    cases none
  have tooWide : (widthBound : ℚ) ≤ |(roundHalfEven q.num q.den : ℚ)| := by
    rw [← Int.cast_abs, Int.abs_eq_natAbs]
    exact_mod_cast tooWide
  have near := (isHalfEven_roundHalfEven q.num (Rat.den_pos q)).near
  rw [Rat.num_div_den] at near
  have far := abs_sub_abs_le_abs_sub (roundHalfEven q.num q.den : ℚ) q
  exact sub_le_iff_le_add'.mpr (tooWide.trans (sub_le_iff_le_add.mp (far.trans near)))

theorem halfEven_of_held? (held : held? q = some x) :
    ∃ d : Decimal, d.toRat = x ∧ IsHalfEven (q * tenTo d.scale) d.coeff ∧
      (d.scale < maxScale → (widthBound : ℚ) - 1 / 2 ≤ |q| * tenTo (d.scale + 1)) := by
  obtain ⟨d, made, same⟩ := Option.map_eq_some_iff.mp held
  have rounded := rounded_of_nearest (Rat.den_pos q) (Nat.le_refl _) made
  have half := isHalfEven_roundHalfEven (q.num * tenTo d.scale) (Rat.den_pos q)
  push_cast at half
  rw [← (nearest_eq_some (Nat.le_refl _) made).2.1, mul_div_right_comm] at half
  rw [Rat.num_div_den] at rounded half
  exact ⟨d, same, half, rounded.full⟩

theorem abs_coeff_le (d : Decimal) : |(d.coeff : ℚ)| + 1 ≤ widthBound := by
  rw [← Int.cast_abs, Int.abs_eq_natAbs]
  exact_mod_cast d.coeff_lt

theorem abs_toRat_le (d : Decimal) : |d.toRat| + 1 ≤ widthBound := by
  have narrow : |d.toRat| ≤ |(d.coeff : ℚ)| := by
    rw [toRat, abs_div, abs_of_pos (tenTo_cast_pos _)]
    refine div_le_self (abs_nonneg _) ?_
    exact_mod_cast tenTo_pos d.scale
  exact (add_le_add_left narrow 1).trans d.abs_coeff_le

theorem scale_le_of_held {d d' : Decimal} (farther : |q| ≤ |q'|)
    (full : d.scale < maxScale → (widthBound : ℚ) - 1 / 2 ≤ |q| * tenTo (d.scale + 1))
    (half : IsHalfEven (q' * tenTo d'.scale) d'.coeff) : d'.scale ≤ d.scale := by
  by_contra more
  have fewer : d.scale + 1 ≤ d'.scale := not_le.mp more
  have places : (tenTo (d.scale + 1) : ℚ) ≤ tenTo d'.scale := by
    exact_mod_cast Nat.pow_le_pow_right (by decide : 0 < 10) fewer
  have wide : (widthBound : ℚ) - 1 / 2 ≤ |q'| * tenTo d'.scale := by
    calc
      (widthBound : ℚ) - 1 / 2 ≤ |q| * tenTo (d.scale + 1) := full (fewer.trans d'.scale_le)
      _ ≤ |q'| * tenTo d'.scale := mul_le_mul farther places (tenTo_cast_pos _).le (abs_nonneg _)
  have size := half.abs
  rw [abs_mul, abs_of_pos (tenTo_cast_pos _)] at size
  obtain ⟨under, -⟩ := abs_le.mp size.near
  have largest : |d'.coeff| = widthBound - 1 := by
    have least : (widthBound : ℚ) - 1 ≤ (|d'.coeff| : Int) := by
      generalize (widthBound : ℚ) = width at wide
      linarith
    have least : (widthBound : Int) - 1 ≤ |d'.coeff| := by exact_mod_cast least
    have fits := d'.coeff_lt
    rw [Int.abs_eq_natAbs] at least ⊢
    omega
  -- the largest coefficient is odd, so the half above it is not rounded down to it
  have tie : |((|d'.coeff| : Int) : ℚ) - |q'| * tenTo d'.scale| = 1 / 2 := by
    have value : ((|d'.coeff| : Int) : ℚ) = (widthBound : ℚ) - 1 := by
      rw [largest]
      norm_cast
    rw [value] at under ⊢
    generalize (widthBound : ℚ) = width at wide under
    rw [abs_of_nonpos (by linarith)]
    linarith
  have even := size.even tie
  rw [largest] at even
  exact absurd even (by decide)

theorem held?_abs_mono (farther : |q| ≤ |q'|) (held : held? q = some x)
    (held' : held? q' = some x') : |x| ≤ |x'| := by
  obtain ⟨d, rfl, half, full⟩ := halfEven_of_held? held
  obtain ⟨d', rfl, half', full'⟩ := halfEven_of_held? held'
  have places := tenTo_cast_pos d.scale
  have size (d : Decimal) : |d.toRat| = (|d.coeff| : Int) / tenTo d.scale := by
    rw [toRat, abs_div, abs_of_pos (tenTo_cast_pos _), Int.cast_abs]
  rw [size, size]
  rcases (scale_le_of_held farther full half').eq_or_lt with same | fewer
  · have order : |d.coeff| ≤ |d'.coeff| := by
      refine half.abs.mono half'.abs ?_
      rw [same, abs_mul, abs_mul]
      exact mul_le_mul_of_nonneg_right farther (abs_nonneg _)
    rw [same]
    exact div_le_div_of_nonneg_right (by exact_mod_cast order) places.le
  · have grown : (widthBound : Int) ≤ |d'.coeff| * 10 := by
      have wide := full' (lt_of_lt_of_le fewer d.scale_le)
      have near := half'.abs.near
      rw [abs_mul, abs_of_pos (tenTo_cast_pos _)] at near
      obtain ⟨under, -⟩ := abs_le.mp near
      have least : (2 * widthBound - 11 : ℚ) ≤ 20 * (|d'.coeff| : Int) := by
        rw [tenTo_succ, Nat.cast_mul, ← mul_assoc] at wide
        generalize (widthBound : ℚ) = width at wide ⊢
        push_cast at wide ⊢
        push_cast at under
        linarith
      have least : (2 * widthBound - 11 : Int) ≤ 20 * |d'.coeff| := by exact_mod_cast least
      unfold widthBound at least ⊢
      omega
    have fits := d.coeff_lt
    have bounded : |d.coeff| ≤ |d'.coeff| * 10 := by
      rw [Int.abs_eq_natAbs d.coeff]
      omega
    have further : (tenTo (d'.scale + 1) : ℚ) ≤ tenTo d.scale := by
      exact_mod_cast Nat.pow_le_pow_right (by decide : 0 < 10) fewer
    calc
      ((|d.coeff| : Int) : ℚ) / tenTo d.scale ≤ ((|d'.coeff| * 10 : Int) : ℚ) / tenTo d.scale :=
        div_le_div_of_nonneg_right (by exact_mod_cast bounded) places.le
      _ ≤ ((|d'.coeff| * 10 : Int) : ℚ) / tenTo (d'.scale + 1) :=
        div_le_div_of_nonneg_left (by positivity) (tenTo_cast_pos _) further
      _ = ((|d'.coeff| : Int) : ℚ) / tenTo d'.scale := by
        rw [tenTo_succ]
        push_cast
        exact mul_div_mul_right _ _ (by norm_num)

theorem held?_abs_le {bound : Decimal} (within : |q| ≤ |bound.toRat|) (held : held? q = some x) :
    |x| ≤ |bound.toRat| :=
  held?_abs_mono within held (held?_toRat bound)

theorem held?_nonneg (positive : 0 ≤ q) (held : held? q = some x) : 0 ≤ x := by
  obtain ⟨d, rfl, half, -⟩ := halfEven_of_held? held
  have order : 0 ≤ d.coeff := by
    refine (IsHalfEven.intCast 0).mono half ?_
    rw [Int.cast_zero]
    exact mul_nonneg positive (tenTo_cast_pos _).le
  exact div_nonneg (by exact_mod_cast order) (tenTo_cast_pos _).le

theorem held?_nonpos (negative : q ≤ 0) (held : held? q = some x) : x ≤ 0 := by
  obtain ⟨d, rfl, half, -⟩ := halfEven_of_held? held
  have order : d.coeff ≤ 0 := by
    refine half.mono (IsHalfEven.intCast 0) ?_
    rw [Int.cast_zero]
    exact mul_nonpos_of_nonpos_of_nonneg negative (tenTo_cast_pos _).le
  exact div_nonpos_of_nonpos_of_nonneg (by exact_mod_cast order) (tenTo_cast_pos _).le

theorem held?_mono (below : q ≤ q') (held : held? q = some x) (held' : held? q' = some x') :
    x ≤ x' := by
  rcases le_total 0 q with above | negative
  · have order := held?_abs_mono (abs_le_abs_of_nonneg above below) held held'
    rwa [abs_of_nonneg (held?_nonneg above held),
      abs_of_nonneg (held?_nonneg (above.trans below) held')] at order
  · rcases le_total 0 q' with above' | negative'
    · exact (held?_nonpos negative held).trans (held?_nonneg above' held')
    · have order := held?_abs_mono (abs_le_abs_of_nonpos negative' below) held' held
      rw [abs_of_nonpos (held?_nonpos negative held),
        abs_of_nonpos (held?_nonpos negative' held')] at order
      exact neg_le_neg_iff.mp order

theorem held?_isSome {bound : Decimal} (within : |q| ≤ |bound.toRat|) : ∃ x, held? q = some x := by
  cases held : held? q with
  | some x => exact ⟨x, rfl⟩
  | none =>
    have wide := (wide_of_held? held).trans within
    have contrary : (widthBound : ℚ) - 1 / 2 + 1 ≤ widthBound :=
      (add_le_add_left wide 1).trans bound.abs_toRat_le
    norm_num [widthBound] at contrary

theorem held?_of_small (small : |q| ≤ 1) :
    ∃ c : Int, held? q = some (c / tenTo maxScale : ℚ) ∧ IsHalfEven (q * tenTo maxScale) c := by
  have half : IsHalfEven (q * tenTo maxScale)
      (roundHalfEven (q.num * tenTo maxScale) q.den) := by
    have rounded := isHalfEven_roundHalfEven (q.num * tenTo maxScale) (Rat.den_pos q)
    push_cast at rounded
    rwa [mul_div_right_comm, Rat.num_div_den] at rounded
  generalize made : roundHalfEven (q.num * tenTo maxScale) q.den = c at half
  have unit : IsHalfEven ((tenTo maxScale : Int) : ℚ) (tenTo maxScale : Int) := .intCast _
  have narrow : |c| ≤ (tenTo maxScale : Int) := by
    refine half.abs.mono unit ?_
    rw [abs_mul, abs_of_pos (tenTo_cast_pos maxScale)]
    exact mul_le_of_le_one_left (tenTo_cast_pos _).le small
  have bounded : c.natAbs < widthBound := by
    rw [Int.abs_eq_natAbs] at narrow
    exact lt_of_le_of_lt (Int.ofNat_le.mp narrow) (by decide)
  have fits : ofParts? (roundHalfEven (q.num * tenTo maxScale) q.den) maxScale =
      some ⟨c, maxScale, bounded, Nat.le_refl _⟩ := by
    rw [made]
    exact ofParts?_eq_some_iff.mpr ⟨rfl, rfl⟩
  refine ⟨c, ?_, half⟩
  rw [held?, nearest_of_fits fits]
  rfl

theorem held?_of_large (large : 1 ≤ |q|) (held : held? q = some x) :
    1 ≤ |x| ∧ |x| * (1 - 1 / tenTo maxScale) ≤ |q| := by
  obtain ⟨d, rfl, rounded⟩ := rounded_of_held? held
  obtain ⟨count, units⟩ := rounded.units
  have places := tenTo_cast_pos d.scale
  have change : |d.toRat - q| ≤ 1 / 2 / tenTo d.scale := (le_div_iff₀ places).mpr rounded.near
  have least : 1 ≤ |d.toRat| := by
    -- the rounded number is a whole count of units, and half a unit below one there is none
    have cast : |d.toRat| * tenTo d.scale = (|count| : Int) := by
      rw [Int.cast_abs, ← units, abs_mul, abs_of_pos places]
    have far := abs_sub_abs_le_abs_sub q d.toRat
    rw [abs_sub_comm] at far
    have above : (tenTo d.scale : ℚ) - 1 / 2 ≤ (|count| : Int) := by
      have near := rounded.near
      rw [← cast]
      nlinarith
    have whole : (tenTo d.scale : Int) ≤ |count| := by
      have strict : (tenTo d.scale : ℚ) < (|count| : Int) + 1 := by linarith
      exact Int.lt_add_one_iff.mp (by exact_mod_cast strict)
    have whole : (tenTo d.scale : ℚ) ≤ |d.toRat| * tenTo d.scale := by
      rw [cast]
      exact_mod_cast whole
    exact (le_mul_iff_one_le_left places).mp whole
  have most := abs_sub_abs_le_abs_sub d.toRat q
  refine ⟨least, ?_⟩
  have unit : (0 : ℚ) < 1 / tenTo maxScale := one_div_pos.mpr (tenTo_cast_pos _)
  rcases eq_or_lt_of_le rounded.low with all | fewer
  · have half : 1 / 2 / (tenTo d.scale : ℚ) ≤ |d.toRat| * (1 / tenTo maxScale) := by
      rw [all, div_right_comm]
      nlinarith
    linarith
  · -- where there is no room for all places, the number is that much wider
    have full := rounded.full fewer
    have wide : 1 / 2 / (tenTo d.scale : ℚ) ≤ |q| * (1 / tenTo maxScale) := by
      rw [tenTo_succ, Nat.cast_mul] at full
      rw [div_le_iff₀ places]
      norm_num [widthBound, tenTo] at full ⊢
      linarith
    have most : |d.toRat| ≤ |q| * (1 + 1 / tenTo maxScale) := by linarith
    have squared : (0 : ℚ) ≤ |q| * (1 / tenTo maxScale) * (1 / tenTo maxScale) := by positivity
    calc
      |d.toRat| * (1 - 1 / tenTo maxScale) ≤
          |q| * (1 + 1 / tenTo maxScale) * (1 - 1 / tenTo maxScale) := by
        refine mul_le_mul_of_nonneg_right most ?_
        norm_num [tenTo]
      _ = |q| - |q| * (1 / tenTo maxScale) * (1 / tenTo maxScale) := by ring
      _ ≤ |q| := sub_le_self _ squared

end Decimal

end Formulary
