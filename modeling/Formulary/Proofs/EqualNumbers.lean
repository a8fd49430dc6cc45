import Formulary.Proofs.FlooredRemainders
import Formulary.Proofs.PowerRange

/-!
Equal numbers as operands. How a number is written, with zeros behind its last digit or as an
integer, has no part in the result of an operation, nor in the kind of the result or of the error.
Only remainders are apart: zeros behind the last digit may cost the division a word.
-/
namespace Formulary

/-- The same error twice, or two numbers that are related. -/
inductive BothGive (related : Number → Number → Prop) : Outcome Number → Outcome Number → Prop
  | error (e : FormulaError) : BothGive related (.error e) (.error e)
  | ok {n m : Number} (pair : related n m) : BothGive related (.ok n) (.ok m)

namespace BothGive

variable {related related' : Number → Number → Prop} {x y : Outcome Number}

theorem refl (refl : ∀ n, related n n) (x : Outcome Number) : BothGive related x x := by
  cases x with
  | error e => exact .error e
  | ok n => exact .ok (refl n)

theorem mono (weaker : ∀ n m, x = .ok n → y = .ok m → related n m → related' n m)
    (both : BothGive related x y) : BothGive related' x y := by
  cases both with
  | error e => exact .error e
  | ok pair => exact .ok (weaker _ _ rfl rfl pair)

end BothGive

namespace Number

/-- Two numbers of the same value and the same kind. -/
structure Twin (n m : Number) : Prop where
  value : n.toRat = m.toRat
  kind : n.isInteger = m.isInteger

variable {n m : Number}

theorem order_eq_iff (n m : Number) : n.order m = .eq ↔ n.toRat = m.toRat := by
  rw [order_eq_compare, compare_eq_iff_eq]

namespace Twin

theorem refl (n : Number) : Twin n n := ⟨rfl, rfl⟩

theorem decimals {d d' : Decimal} (same : d.toRat = d'.toRat) : Twin (decimal d) (decimal d') :=
  ⟨same, rfl⟩

theorem eq_or_decimals (twin : Twin n m) :
    n = m ∨ ∃ d d', n = decimal d ∧ m = decimal d' ∧ d.toRat = d'.toRat := by
  obtain ⟨value, kind⟩ := twin
  cases n with
  | integer i fits =>
    cases m with
    | decimal d => cases kind
    | integer j fits' =>
      rw [toRat_integer, toRat_integer, Int.cast_inj] at value
      subst value
      exact .inl rfl
  | decimal d =>
    cases m with
    | integer j fits => cases kind
    | decimal d' => exact .inr ⟨d, d', rfl, rfl, value⟩

theorem narrow {d d' : Decimal} (same : d.toRat = d'.toRat) :
    Twin (decimal d).narrow (decimal d').narrow := by
  constructor
  · rw [toRat_narrow, toRat_narrow, same]
  · rw [Bool.eq_iff_iff, isInteger_narrow, isInteger_narrow, same]

end Twin

end Number

open Number (Twin)

/-! Operations on decimals -/

namespace Decimal

variable {a a' b b' : Decimal}

theorem isZero_congr (same : a.toRat = a'.toRat) : a.isZero = a'.isZero := by
  rw [Bool.eq_iff_iff, isZero_iff, isZero_iff, same]

theorem cases_of_map {x y : Option Decimal} (same : x.map toRat = y.map toRat) :
    (x = none ∧ y = none) ∨ ∃ d d', x = some d ∧ y = some d' ∧ d.toRat = d'.toRat := by
  cases x with
  | none => exact .inl ⟨rfl, Option.map_eq_none_iff.mp same.symm⟩
  | some d =>
    obtain ⟨d', made, value⟩ := Option.map_eq_some_iff.mp same.symm
    exact .inr ⟨d, d', rfl, made, value.symm⟩

theorem div?_congr (dividend : a.toRat = a'.toRat) (divisor : b.toRat = b'.toRat) :
    (a.div? b).map toRat = (a'.div? b').map toRat := by
  by_cases nothing : b.toRat = 0
  · rw [div?_zero nothing, div?_zero (divisor ▸ nothing)]
  · rw [div?_held nothing, div?_held (divisor ▸ nothing), dividend, divisor]

theorem pow?_congr (base : a.toRat = a'.toRat) (e : Int) :
    (a.pow? e).map toRat = (a'.pow? e).map toRat := by
  have powers : (a.powNat? e.natAbs).map toRat = (a'.powNat? e.natAbs).map toRat := by
    rw [map_powNat?, map_powNat?, base]
  rcases lt_or_ge e 0 with negative | positive
  · rw [pow?_of_neg negative, pow?_of_neg negative]
    rcases cases_of_map powers with ⟨none, none'⟩ | ⟨d, d', made, made', same⟩
    · rw [none, none']
    · rw [made, made']
      exact div?_congr rfl same
  · rw [pow?_of_nonneg positive, pow?_of_nonneg positive, powers]

theorem realPow?_congr {e : Int} (base : a.toRat = a'.toRat) (exponent : b.toRat = e)
    (exponent' : b'.toRat = e) : (a.realPow? b).map toRat = (a'.realPow? b').map toRat := by
  have same : b.toRat = b'.toRat := exponent.trans exponent'.symm
  have one : a.order one = a'.order one := by
    have left := Number.order_eq_compare (.decimal a) (.decimal one)
    have right := Number.order_eq_compare (.decimal a') (.decimal one)
    have equal : (Number.decimal a).toRat = (Number.decimal a').toRat := base
    rw [equal, ← right] at left
    exact left
  have whole : b.isWhole = true := b.isWhole_iff.mpr ⟨e, exponent⟩
  have whole' : b'.isWhole = true := b'.isWhole_iff.mpr ⟨e, exponent'⟩
  unfold realPow?
  simp only [isZero_congr same, isZero_congr base, one, whole, whole', toInt_of_toRat exponent,
    toInt_of_toRat exponent', if_true]
  split
  · exact rfl
  · split
    · exact rfl
    · split
      · exact rfl
      · split
        · exact pow?_congr base e
        · exact rfl

end Decimal

namespace Arithmetic

def ofDecimal? (op : Arithmetic) (d : Option Decimal) : Outcome Number :=
  d.elim (.error (.overflow (.arithmetic op))) (.ok <| .decimal ·)

variable {op : Arithmetic} {l l' r r' : Number} {a a' b b' : Decimal}

theorem bothGive_ofDecimal? {d d' : Option Decimal}
    (same : d.map Decimal.toRat = d'.map Decimal.toRat) :
    BothGive Twin (op.ofDecimal? d) (op.ofDecimal? d') := by
  rcases Decimal.cases_of_map same with ⟨rfl, rfl⟩ | ⟨x, y, rfl, rfl, value⟩
  · exact .error _
  · exact .ok (.decimals value)

theorem onDecimals?_congr (noRemainder : op ≠ modulo) (left : a.toRat = a'.toRat)
    (right : b.toRat = b'.toRat) :
    (op.onDecimals? a b).map Decimal.toRat = (op.onDecimals? a' b').map Decimal.toRat := by
  cases op with
  | addition => exact (a.add?_held b).trans (by rw [left, right, ← Decimal.add?_held]; rfl)
  | subtraction => exact (a.sub?_held b).trans (by rw [left, right, ← Decimal.sub?_held]; rfl)
  | multiplication => exact (a.mul?_held b).trans (by rw [left, right, ← Decimal.mul?_held]; rfl)
  | division => exact Decimal.div?_congr left right
  | modulo => exact absurd rfl noRemainder
  | exponentiation => rfl

theorem compute_decimals (noPower : op ≠ exponentiation)
    (someDivisor : op = modulo → r.isZero = false) (words : op.onIntegerNumbers? l r = none) :
    op.compute l r = op.ofDecimal? (op.onDecimals? l.toDecimal r.toDecimal) := by
  have goesOn : ¬ (op = modulo ∧ r.isZero = true) := by
    rintro ⟨remainder, zero⟩
    rw [someDivisor remainder] at zero
    cases zero
  unfold compute
  split
  · exact absurd rfl noPower
  · rw [if_neg goesOn, words]
    cases op.onDecimals? l.toDecimal r.toDecimal <;> rfl

theorem bothGive_compute {related : Number → Number → Prop} (refl : ∀ n, related n n)
    (noPower : op ≠ exponentiation) (left : Twin l l') (right : Twin r r')
    (decimals : (op = modulo → r.toRat ≠ 0) →
      BothGive related (op.ofDecimal? (op.onDecimals? l.toDecimal r.toDecimal))
        (op.ofDecimal? (op.onDecimals? l'.toDecimal r'.toDecimal))) :
    BothGive related (op.compute l r) (op.compute l' r') := by
  by_cases nothing : op = modulo ∧ r.isZero = true
  · obtain ⟨rfl, zero⟩ := nothing
    have zero' : r'.isZero = true := (Decimal.isZero_congr right.value).symm.trans zero
    have failed {l r : Number} (zero : r.isZero = true) :
        modulo.compute l r = .error .divisionByZero := if_pos ⟨rfl, zero⟩
    rw [failed zero, failed zero']
    exact .error _
  · have someDivisor (remainder : op = modulo) : r.isZero = false :=
      Bool.eq_false_iff.mpr fun zero => nothing ⟨remainder, zero⟩
    have someDivisor' (remainder : op = modulo) : r'.isZero = false :=
      (Decimal.isZero_congr right.value).symm.trans (someDivisor remainder)
    have goesOn (words : op.onIntegerNumbers? l r = none)
        (words' : op.onIntegerNumbers? l' r' = none) :
        BothGive related (op.compute l r) (op.compute l' r') := by
      rw [compute_decimals noPower someDivisor words, compute_decimals noPower someDivisor' words']
      refine decimals fun remainder zero => ?_
      have noZero := someDivisor remainder
      rw [Number.isZero, r.toDecimal.isZero_iff.mpr zero] at noZero
      cases noZero
    rcases left.eq_or_decimals with rfl | ⟨d, d', rfl, rfl, -⟩
    · rcases right.eq_or_decimals with rfl | ⟨d, d', rfl, rfl, -⟩
      · exact .refl refl _
      · exact goesOn (by cases l <;> rfl) (by cases l <;> rfl)
    · exact goesOn rfl rfl

theorem bothGive_values (noPower : op ≠ exponentiation) (noRemainder : op ≠ modulo)
    (left : Twin l l') (right : Twin r r') : BothGive Twin (op.compute l r) (op.compute l' r') :=
  bothGive_compute Twin.refl noPower left right fun _ =>
    bothGive_ofDecimal? (onDecimals?_congr noRemainder left.value right.value)

theorem bothGive_kinds (noPower : op ≠ exponentiation) (left : Twin l l') (right : Twin r r') :
    BothGive (fun n m => n.isInteger = m.isInteger) (op.compute l r) (op.compute l' r') := by
  by_cases remainder : op = modulo
  · refine bothGive_compute (fun _ => rfl) noPower left right fun someDivisor => ?_
    have nonzero := someDivisor remainder
    subst remainder
    obtain ⟨d, made, -⟩ := Decimal.mod?_isSome (a := l.toDecimal) nonzero
    obtain ⟨d', made', -⟩ := Decimal.mod?_isSome (a := l'.toDecimal) (right.value ▸ nonzero)
    rw [show modulo.onDecimals? l.toDecimal r.toDecimal = some d from made,
      show modulo.onDecimals? l'.toDecimal r'.toDecimal = some d' from made']
    exact .ok rfl
  · exact (bothGive_values noPower remainder left right).mono fun _ _ _ _ twin => twin.kind

end Arithmetic

namespace Number

variable {n m base base' exponent exponent' : Number}

theorem decimalPower?_congr {b b' : Decimal} {e : Int} (base : b.toRat = b'.toRat)
    (exponent : Twin n m) (whole : n.toRat = e) :
    (decimalPower? b n).map Decimal.toRat = (decimalPower? b' m).map Decimal.toRat := by
  rcases exponent.eq_or_decimals with rfl | ⟨d, d', rfl, rfl, same⟩
  · cases n with
    | integer i fits => exact Decimal.pow?_congr base i
    | decimal d => exact Decimal.realPow?_congr base whole whole
  · exact Decimal.realPow?_congr base whole (same ▸ whole)

theorem bothGive_decimalPower {e : Int} (left : base.toRat = base'.toRat)
    (right : Twin exponent exponent') (whole : exponent.toRat = e) :
    BothGive Twin (decimalPower base exponent) (decimalPower base' exponent') := by
  have powers := decimalPower?_congr left right whole
  rw [decimalPower_of_whole whole, decimalPower_of_whole (right.value ▸ whole), ← left]
  split
  · exact .error _
  · rcases Decimal.cases_of_map powers with ⟨none, none'⟩ | ⟨d, d', made, made', same⟩
    · rw [none, none']
      dsimp only
      split <;> exact .error _
    · rw [made, made']
      exact .ok (.decimals same)

theorem bothGive_power {e : Int} (left : Twin base base') (right : Twin exponent exponent')
    (whole : exponent.toRat = e) :
    BothGive Twin (base.power exponent) (base'.power exponent') := by
  have goesOn {base base' exponent exponent' : Number} (value : base.toRat = base'.toRat)
      (right : Twin exponent exponent') (whole : exponent.toRat = e)
      (words : wholePower? base exponent = none) (words' : wholePower? base' exponent' = none) :
      BothGive Twin (base.power exponent) (base'.power exponent') := by
    rw [power, words, power, words']
    exact bothGive_decimalPower value right whole
  rcases right.eq_or_decimals with rfl | ⟨d, d', rfl, rfl, -⟩
  · rcases left.eq_or_decimals with rfl | ⟨d, d', rfl, rfl, -⟩
    · exact .refl Twin.refl _
    · exact goesOn left.value (Twin.refl _) whole rfl rfl
  · exact goesOn left.value right whole (by cases base <;> rfl) (by cases base' <;> rfl)

end Number

namespace Arithmetic

variable {op : Arithmetic} {l l' r r' : Number}

theorem apply_division (l r : Number) : division.apply (.number l) (.number r) =
    if r.isZero then .error .divisionByZero
    else match (Number.decimal l.toDecimal).narrow.toDecimal.div? r.toDecimal with
      | some d => .ok (Number.decimal d).narrow
      | none => .error (.overflow (.arithmetic division)) := rfl

theorem bothGive_division (left : l.toRat = l'.toRat) (right : r.toRat = r'.toRat) :
    BothGive Twin (division.apply (.number l) (.number r))
      (division.apply (.number l') (.number r')) := by
  have zero : r.isZero = r'.isZero := Decimal.isZero_congr right
  have quotients := Decimal.div?_congr (Twin.narrow left).value right
  rw [apply_division, apply_division, zero]
  split
  · exact .error _
  · rcases Decimal.cases_of_map quotients with ⟨none, none'⟩ | ⟨d, d', made, made', same⟩
    · rw [none, none']
      exact .error _
    · rw [made, made']
      exact .ok (.narrow same)

theorem bothGive_apply (left : l.toRat = l'.toRat) (right : r.toRat = r'.toRat)
    (whole : op = exponentiation → ∃ e : Int, r.toRat = e) :
    BothGive (fun n m => n.isInteger = m.isInteger ∧ (op ≠ modulo → n.toRat = m.toRat))
      (op.apply (.number l) (.number r)) (op.apply (.number l') (.number r')) := by
  have all {x y : Outcome Number} (both : BothGive Twin x y) :
      BothGive (fun n m => n.isInteger = m.isInteger ∧ (op ≠ modulo → n.toRat = m.toRat)) x y :=
    both.mono fun _ _ _ _ twin => ⟨twin.kind, fun _ => twin.value⟩
  have leftTwin : Twin (Number.decimal l.toDecimal).narrow (Number.decimal l'.toDecimal).narrow :=
    .narrow left
  have rightTwin : Twin (Number.decimal r.toDecimal).narrow (Number.decimal r'.toDecimal).narrow :=
    .narrow right
  by_cases quotient : op = division
  · subst quotient
    exact all (bothGive_division left right)
  rw [apply_numbers quotient, apply_numbers quotient]
  by_cases power : op = exponentiation
  · obtain ⟨e, same⟩ := whole power
    subst power
    exact all (Number.bothGive_power leftTwin rightTwin ((Number.toRat_narrow _).trans same))
  by_cases remainder : op = modulo
  · exact (bothGive_kinds power leftTwin rightTwin).mono fun _ _ _ _ kind =>
      ⟨kind, fun other => absurd remainder other⟩
  · exact all (bothGive_values power remainder leftTwin rightTwin)

/-- If the division loses no word for one way to write the operands, then the remainder for another
    way is equal exactly if none is lost there either. -/
theorem equal_remainders_iff (left : l.toRat = l'.toRat) (right : r.toRat = r'.toRat) {n m : Number}
    (exact : l.operand.RestExact r.operand)
    (given : modulo.apply (.number l) (.number r) = .ok n)
    (given' : modulo.apply (.number l') (.number r') = .ok m) :
    n.toRat = m.toRat ↔ l'.operand.RestExact r'.operand := by
  have nonzero : r.toRat ≠ 0 := by
    intro zero
    rw [apply_modulo_zero l zero] at given
    cases given
  obtain ⟨x, d, applied, made, same⟩ := apply_modulo l r nonzero
  obtain rfl : n = x := Except.ok.inj (given.symm.trans applied)
  obtain ⟨x, d', applied', made', same'⟩ := apply_modulo l' r' (right ▸ nonzero)
  obtain rfl : m = x := Except.ok.inj (given'.symm.trans applied')
  have someDivisor : r.operand.toRat ≠ 0 := r.toRat_operand.symm ▸ nonzero
  have someDivisor' : r'.operand.toRat ≠ 0 := by rwa [r'.toRat_operand, ← right]
  have values : l'.operand.toRat = l.operand.toRat ∧ r'.operand.toRat = r.operand.toRat := by
    simp only [Number.toRat_operand, left, right, and_self]
  have held := Decimal.map_mod? someDivisor exact
  rw [made, Option.map_some] at held
  rw [same, same']
  constructor
  · intro equal
    rcases le_or_gt |r.operand.toRat| |l.operand.toRat| with farther | nearer
    · -- there was no need to round, so the other result is the floored remainder too
      rw [Decimal.held?_floored someDivisor exact (.inr farther), Option.some_inj, equal,
        ← values.1, ← values.2] at held
      have floored := IsFloored.floor l'.operand.toRat someDivisor'
      rw [← held] at floored
      exact ((Decimal.mod?_isFloored_iff someDivisor' made').mp floored).1
    · refine Decimal.restExact_of_le ((Decimal.sizeBeside_le_iff _ _).mpr ?_)
      rw [values.1, values.2]
      exact nearer.le
  · intro exact'
    have held' := Decimal.map_mod? someDivisor' exact'
    rw [made', Option.map_some, values.1, values.2, ← held] at held'
    exact (Option.some_inj.mp held').symm

/-- Operations do not see how their operands are written. Of equal ones they make the same error,
    or results of the same kind that are equal: remainders if the division loses no word either
    way. -/
theorem equal_operands (op : Arithmetic) (l l' r r' : Number) (left : l.order l' = .eq)
    (right : r.order r' = .eq) (whole : op = exponentiation → ∃ e : Int, r.toRat = e) :
    BothGive (fun n m => n.isInteger = m.isInteger ∧
        (op ≠ modulo → n.order m = .eq) ∧
        (op = modulo → l.operand.RestExact r.operand →
          (n.order m = .eq ↔ l'.operand.RestExact r'.operand)))
      (op.apply (.number l) (.number r)) (op.apply (.number l') (.number r')) := by
  rw [Number.order_eq_iff] at left right
  refine (bothGive_apply left right whole).mono fun n m given given' pair => ?_
  refine ⟨pair.1, fun other => (n.order_eq_iff m).mpr (pair.2 other), ?_⟩
  rintro rfl exact
  exact (n.order_eq_iff m).trans (equal_remainders_iff left right exact given given')

/-- A square and a remainder of numbers that are written in two ways. -/
theorem equal_operands_zeros :
    let x : Number := .decimal ⟨15, 1, by decide, by decide⟩
    let x' : Number := .decimal ⟨150, 2, by decide, by decide⟩
    let two : Number := .integer 2 (by decide)
    let two' : Number := .decimal ⟨20, 1, by decide, by decide⟩
    x.order x' = .eq ∧ two.order two' = .eq ∧ (∃ e : Int, two.toRat = e) ∧
      x.operand.RestExact two.operand ∧ x'.operand.RestExact two'.operand ∧
      BothGive (fun n m => n.isInteger = m.isInteger ∧ n.order m = .eq)
        (exponentiation.apply (.number x) (.number two))
        (exponentiation.apply (.number x') (.number two')) ∧
      BothGive (fun n m => n.isInteger = m.isInteger ∧ n.order m = .eq)
        (modulo.apply (.number x) (.number two)) (modulo.apply (.number x') (.number two')) := by
  intro x x' two two'
  have left : x.order x' = .eq := by decide +kernel
  have right : two.order two' = .eq := by decide +kernel
  have whole : ∃ e : Int, two.toRat = e := ⟨2, Number.toRat_integer 2 (by decide)⟩
  have exact : x.operand.RestExact two.operand := by decide +kernel
  have exact' : x'.operand.RestExact two'.operand := by decide +kernel
  refine ⟨left, right, whole, exact, exact', ?_, ?_⟩
  · exact (equal_operands exponentiation x x' two two' left right fun _ => whole).mono
      fun _ _ _ _ pair => ⟨pair.1, pair.2.1 nofun⟩
  · exact (equal_operands modulo x x' two two' left right nofun).mono
      fun _ _ _ _ pair => ⟨pair.1, (pair.2.2 rfl exact).mpr exact'⟩

/-- The zeros behind a divisor cost the division a word, and so change the remainder. -/
theorem equal_divisors_differ :
    let most : Number := .integer 9223372036854775806 (by decide)
    let short : Number := .decimal ⟨5, 4, by decide, by decide⟩
    let long : Number := .decimal ⟨50000000000000000000000, 26, by decide, by decide⟩
    most.order most = .eq ∧ short.order long = .eq ∧
      ∃ n m, modulo.apply (.number most) (.number short) = .ok n ∧
        modulo.apply (.number most) (.number long) = .ok m ∧ n.order m ≠ .eq :=
  ⟨by decide, by decide, .decimal ⟨0, 4, by decide, by decide⟩,
    .decimal ⟨42314096482655081070592, 26, by decide, by decide⟩, by decide +kernel,
    by decide +kernel, by decide⟩

end Arithmetic

end Formulary
