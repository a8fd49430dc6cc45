import Formulary.Proofs.DateNumbers
import Formulary.Proofs.NumericTexts
import Formulary.Proofs.SmallLetters

/-!
Numerals as the scanner takes them, and how far they reach. One of ASCII digits is refused only if
it is out of range: its number is greater than all decimals, or its power of ten is beyond the
scales that decimals have.
-/
namespace Formulary

open Decimal (widthBound maxScale)
open DateTimeLiteral (AsciiDigits)

/-! Digits that there is no room for -/

namespace Decimal

/-- What comes of reading a number with so many digits behind the point: all of it, or as much of it
    as there is room for. -/
inductive ReadOff (size : ℚ) (places : Nat) : Except NumeralError Decimal → Prop where
  | held {d : Decimal} (fewer : d.scale ≤ places) (full : d.toRat = size ∨ d.scale = maxScale ∨
      (widthBound - 1 : ℚ) < size * tenTo (d.scale + 1)) : ReadOff size places (.ok d)
  | wide {cause : NumeralError} (above : (widthBound - 1 : ℚ) < size) :
      ReadOff size places (.error cause)

section

variable {digits rest : List Char} {read : Decimal} {n : Nat}

theorem mapM_asciiDigit? (plain : ∀ c ∈ digits, c.isDigit = true) :
    digits.mapM Text.asciiDigit? = some (digits.map fun c => c.toNat - 48) := by
  induction digits with
  | nil => rfl
  | cons c digits ih =>
    have first := Text.asciiDigit?_of_isDigit (plain c List.mem_cons_self)
    have others := ih fun c member => plain c (List.mem_cons_of_mem _ member)
    rw [List.mapM_cons, first, others]
    rfl

theorem le_ofDigitChars_div (digits : List Char) (n : Nat) :
    (n : ℚ) ≤ Nat.ofDigitChars 10 digits n / tenTo digits.length := by
  have most : n * tenTo digits.length ≤ Nat.ofDigitChars 10 digits n := by
    rw [Nat.ofDigitChars_eq_ofDigitChars_zero, Nat.mul_comm]
    exact Nat.le_add_right _ _
  rw [le_div_iff₀ (tenTo_cast_pos _)]
  exact_mod_cast most

theorem le_ofDigitChars_cons (c : Char) (rest : List Char) (n scale : Nat) :
    ((10 * n + (c.toNat - 48) : Nat) : ℚ) ≤ Nat.ofDigitChars 10 (c :: rest) n /
      tenTo (scale + (c :: rest).length) * tenTo (scale + 1) := by
  have places : scale + (c :: rest).length = rest.length + (scale + 1) := by
    rw [List.length_cons]
    omega
  have split : tenTo (rest.length + (scale + 1)) = tenTo rest.length * tenTo (scale + 1) :=
    Nat.pow_add 10 rest.length (scale + 1)
  rw [places, split, Nat.cast_mul, div_mul_eq_div_div, div_mul_cancel₀ _ (tenTo_cast_pos _).ne',
    Nat.ofDigitChars_cons]
  exact le_ofDigitChars_div rest _

theorem readDigits_tooMany (plain : ∀ c ∈ digits, c.isDigit = true) (sofar : read.coeff = n)
    (scale : read.scale = 0) (wide : widthBound ≤ Nat.ofDigitChars 10 digits n)
    (rest : List Char) : readDigits false read (digits ++ rest) = .error .tooManyDigits := by
  induction digits generalizing read n with
  | nil =>
    have narrow := read.coeff_lt
    rw [sofar, Int.natAbs_natCast] at narrow
    exact absurd narrow (Nat.not_lt.mpr wide)
  | cons c digits ih =>
    have digit := Text.asciiDigit?_of_isDigit (plain c List.mem_cons_self)
    simp only [List.cons_append, readDigits, digit, Bool.false_and, Bool.false_eq_true, if_false]
    cases made : ofParts? (read.coeff * 10 + (c.toNat - 48 : Nat)) (read.scale + 0) with
    | none => rfl
    | some next =>
      obtain ⟨coeff, places⟩ := ofParts?_eq_some_iff.mp made
      have zero : '0'.toNat = 48 := rfl
      have value : next.coeff = (10 * n + (c.toNat - '0'.toNat) : Nat) := by
        rw [coeff, sofar, zero]
        push_cast
        omega
      rw [Nat.ofDigitChars_cons] at wide
      exact ih (fun c member => plain c (List.mem_cons_of_mem _ member)) value
        (places.trans scale) wide

theorem readDigits_front (plain : ∀ c ∈ digits, c.isDigit = true) (rest : List Char) :
    let front : Nat := Nat.ofDigitChars 10 digits 0
    (widthBound - 1 : ℚ) < front ∧
        readDigits false zero (digits ++ rest) = .error .tooManyDigits ∨
      ∃ read : Decimal, read.coeff = front ∧ read.scale = 0 ∧
        readDigits false zero (digits ++ rest) = readDigits false read rest := by
  intro front
  by_cases wide : widthBound ≤ front
  · have above : (widthBound : ℚ) ≤ front := by exact_mod_cast wide
    exact .inl ⟨by linarith, readDigits_tooMany plain rfl rfl wide rest⟩
  · let read : Decimal := ⟨front, 0, by omega, Nat.zero_le _⟩
    exact .inr ⟨read, rfl, rfl, readDigits_append read rest plain rfl rfl rfl⟩

theorem above_of_largest {q : ℚ} {digit scale : Nat} (largest : n + 1 = widthBound)
    (up : 5 ≤ digit) (size : ((10 * n + digit : Nat) : ℚ) ≤ q * tenTo (scale + 1)) :
    (widthBound - 1 : ℚ) < q * tenTo scale := by
  have above : (widthBound - 1 : ℚ) * 10 < q * tenTo (scale + 1) := by
    have five : (5 : ℚ) ≤ digit := by exact_mod_cast up
    rw [← largest]
    push_cast at size ⊢
    linarith
  rw [tenTo_succ, Nat.cast_mul, ← mul_assoc] at above
  exact lt_of_mul_lt_mul_right above (by norm_num)

theorem readOff_roundOff {c : Char} (plain : ∀ d ∈ c :: rest, d.isDigit = true)
    (sofar : read.coeff = n)
    (full : read.scale = maxScale ∨ widthBound ≤ 10 * n + (c.toNat - 48)) :
    ReadOff (Nat.ofDigitChars 10 (c :: rest) n / tenTo (read.scale + (c :: rest).length))
      (read.scale + (c :: rest).length) (roundOff read (c :: rest)) := by
  have size := le_ofDigitChars_cons c rest n read.scale
  have narrow := read.coeff_lt
  have low := read.scale_le
  generalize (Nat.ofDigitChars 10 (c :: rest) n / tenTo (read.scale + (c :: rest).length) : ℚ) = q
    at size ⊢
  have limit : read.scale = maxScale ∨ (widthBound - 1 : ℚ) < q * tenTo (read.scale + 1) := by
    refine full.imp_right ?_
    intro wide
    have wide : (widthBound : ℚ) ≤ (10 * n + (c.toNat - 48) : Nat) := by exact_mod_cast wide
    linarith
  simp only [roundOff, mapM_asciiDigit? plain, List.map_cons]
  split
  · exact .held (Nat.le_add_right _ _) (.inr limit)
  · next few =>
    rw [List.headD_cons] at few
    split
    · next rounded made =>
      obtain ⟨-, scale⟩ := ofParts?_eq_some_iff.mp made
      refine .held (by omega) (.inr ?_)
      rwa [scale]
    · next unmade =>
      -- only the largest coefficient has none behind it
      have largest : n + 1 = widthBound := by
        rcases ofParts?_eq_none_iff.mp unmade with wide | deep
        · omega
        · omega
      have above := above_of_largest largest (Nat.not_lt.mp few) size
      split
      · next whole =>
        rw [whole] at above
        refine .wide ?_
        simpa [tenTo] using above
      · next fraction =>
        split
        · next rounded made =>
          obtain ⟨-, scale⟩ := ofParts?_eq_some_iff.mp made
          refine .held (by omega) (.inr (.inr ?_))
          rw [scale, Nat.sub_add_cancel (Nat.one_le_iff_ne_zero.mpr fraction)]
          exact above
        · next unmade =>
          rcases ofParts?_eq_none_iff.mp unmade with wide | deep
          · omega
          · omega

theorem readOff_fraction (plain : ∀ c ∈ digits, c.isDigit = true) (sofar : read.coeff = n) :
    ReadOff (Nat.ofDigitChars 10 digits n / tenTo (read.scale + digits.length))
      (read.scale + digits.length) (readDigits true read digits) := by
  induction digits generalizing read n with
  | nil =>
    refine .held (Nat.le_refl _) (.inl ?_)
    rw [toRat, sofar]
    rfl
  | cons c digits ih =>
    have digit := Text.asciiDigit?_of_isDigit (plain c List.mem_cons_self)
    simp only [readDigits, digit, Bool.true_and, if_true]
    split
    · next last => exact readOff_roundOff plain sofar (.inl (by simpa using last))
    · next room =>
      split
      · next next made =>
        obtain ⟨coeff, scale⟩ := ofParts?_eq_some_iff.mp made
        have value : next.coeff = (10 * n + (c.toNat - 48) : Nat) := by
          rw [coeff, sofar]
          push_cast
          omega
        have length : read.scale + (c :: digits).length = next.scale + digits.length := by
          rw [scale, List.length_cons]
          omega
        rw [length, Nat.ofDigitChars_cons]
        exact ih (fun c member => plain c (List.mem_cons_of_mem _ member)) value
      · next unmade =>
        refine readOff_roundOff plain sofar (.inr ?_)
        have low := read.scale_le
        have room : read.scale ≠ maxScale := by simpa using room
        rcases ofParts?_eq_none_iff.mp unmade with wide | deep
        · rw [sofar] at wide
          omega
        · omega

end

end Decimal

/-! Numerals -/

structure NumeralLiteral where
  base : List Char
  sign : List Char
  exponent : List Char

namespace NumeralLiteral

open PlainNumeral (coefficient places)

inductive Written : NumeralLiteral → List Char → Prop where
  | plain {base : List Char} (isBase : PlainNumeral Text.isDecimalDigit base) :
      Written ⟨base, [], []⟩ base
  | scientific {base sign exponent : List Char} {mark : Char}
      (isBase : PlainNumeral Text.isDecimalDigit base) (isMark : mark = 'e' ∨ mark = 'E')
      (isSign : sign = [] ∨ sign = ['+'] ∨ sign = ['-']) (some_digit : exponent ≠ [])
      (digits : ∀ c ∈ exponent, Text.isDecimalDigit c = true) :
      Written ⟨base, sign, exponent⟩ (base ++ mark :: (sign ++ exponent))

def size (l : NumeralLiteral) : ℚ := coefficient l.base / tenTo (places l.base)

def power (l : NumeralLiteral) : Nat := Nat.ofDigitChars 10 l.exponent 0

/-- The number is greater than all decimals, with its power of ten or already without it, or the
    power is greater than all scales, or it leaves more places behind the point than these. -/
inductive OutOfRange (l : NumeralLiteral) : Prop where
  | size (above : (widthBound - 1 : ℚ) < l.size)
  | product (positive : l.sign ≠ ['-']) (above : (widthBound - 1 : ℚ) < l.size * tenTo l.power)
  | power (more : maxScale < l.power)
  | places (negative : l.sign = ['-']) (more : maxScale < places l.base + l.power)

section

variable {l : NumeralLiteral} {lexeme base : List Char} {d : Decimal} {cause : NumeralError}
  {e : FormulaError}

theorem size_nonneg (l : NumeralLiteral) : 0 ≤ l.size :=
  div_nonneg (Nat.cast_nonneg _) (tenTo_cast_pos _).le

theorem readOff_base (plain : PlainNumeral Char.isDigit base) :
    Decimal.ReadOff (coefficient base / tenTo (places base)) (places base)
      (Decimal.readDigits false .zero base) := by
  cases plain with
  | whole some_digit plain =>
    have unit : (tenTo 0 : ℚ) = 1 := by simp [tenTo]
    have read := Decimal.readDigits_front plain []
    rw [List.append_nil] at read
    rw [PlainNumeral.coefficient_whole plain, PlainNumeral.places_whole plain]
    rcases read with ⟨wide, refused⟩ | ⟨front, coeff, scale, read⟩
    · rw [refused, unit, div_one]
      exact .wide wide
    · rw [read]
      refine .held (Nat.le_of_eq scale) (.inl ?_)
      rw [Decimal.toRat, coeff, scale]
      rfl
  | @point digits fraction plain some_place fractionPlain =>
    rw [PlainNumeral.coefficient_point plain fractionPlain, PlainNumeral.places_point plain]
    rcases Decimal.readDigits_front plain ('.' :: fraction) with
      ⟨wide, refused⟩ | ⟨front, coeff, scale, read⟩
    · rw [refused]
      exact .wide (wide.trans_le (Decimal.le_ofDigitChars_div fraction _))
    · have point : Decimal.readDigits false front ('.' :: fraction) =
          Decimal.readDigits true front fraction := rfl
      have behind := Decimal.readOff_fraction fractionPlain coeff
      rw [scale, Nat.zero_add] at behind
      rw [read, point]
      exact behind

/-! Powers of ten -/

theorem readExponent_cases (plain : ∀ c ∈ l.exponent, c.isDigit = true)
    (some_digit : l.exponent ≠ []) : Decimal.readExponent l.exponent = .ok l.power ∨
      maxScale < l.power := by
  have counted : Decimal.natOfDigits? l.exponent = some l.power :=
    Decimal.natOfDigits?_eq_some_iff.mpr ⟨some_digit, plain, rfl⟩
  simp only [Decimal.readExponent, counted]
  split
  · exact .inl rfl
  · next wide =>
    have far : maxScale < Decimal.exponentBound := by decide
    exact .inr (by omega)

theorem shift_positive (plain : ∀ c ∈ l.exponent, c.isDigit = true)
    (isSign : l.sign = [] ∨ l.sign = ['+'])
    (read : Decimal.readExponent l.exponent = .ok l.power) (near : ¬ maxScale < l.power) :
    d.shift (l.sign ++ l.exponent) =
      if l.power ≤ d.scale then d.rescale (d.scale - l.power)
      else match (Decimal.ofParts? (tenTo l.power) 0).bind d.mul? with
        | some product => .ok product.normalize
        | none => .error .tooLarge := by
  have digits {exponent : List Char} (noMinus : exponent.head? ≠ some '-')
      (same : (if exponent.head? = some '+' then exponent.tail else exponent) = l.exponent) :
      d.shift exponent =
        if l.power ≤ d.scale then d.rescale (d.scale - l.power)
        else match (Decimal.ofParts? (tenTo l.power) 0).bind d.mul? with
          | some product => .ok product.normalize
          | none => .error .tooLarge := by
    unfold Decimal.shift
    split
    · exact absurd rfl noMinus
    · rw [same, read]
      exact if_congr Iff.rfl rfl (if_neg near)
  have noSign {c : Char} (outside : c.isDigit = false) : l.exponent.head? ≠ some c := by
    intro front
    rw [plain c (List.mem_of_head? front)] at outside
    cases outside
  rcases isSign with none | plus
  · rw [none, List.nil_append]
    exact digits (noSign (by decide)) (if_neg (noSign (by decide)))
  · rw [plus]
    exact digits (by simp) (by simp)

theorem more_of_shift (read : Decimal.readExponent l.exponent = .ok l.power)
    (near : ¬ maxScale < l.power) (refused : d.shift ('-' :: l.exponent) = .error cause) :
    maxScale < d.scale + l.power := by
  simp only [Decimal.shift, read, bind, Except.bind, if_neg near, Decimal.rescale] at refused
  split at refused
  · cases refused
  · next unmade =>
    have narrow := d.coeff_lt
    rcases Decimal.ofParts?_eq_none_iff.mp unmade with wide | deep
    · omega
    · omega

theorem wide_of_product {n : Nat} (near : n ≤ maxScale)
    (unheld : (Decimal.ofParts? (tenTo n) 0).bind d.mul? = none) :
    (widthBound : ℚ) - 1 / 2 ≤ |d.toRat * tenTo n| := by
  have narrow : tenTo n < widthBound :=
    lt_of_le_of_lt (Nat.pow_le_pow_right (by decide) near) (by decide)
  let factor : Decimal := ⟨tenTo n, 0, narrow, Nat.zero_le _⟩
  have made : Decimal.ofParts? (tenTo n) 0 = some factor :=
    Decimal.ofParts?_eq_some_iff.mpr ⟨rfl, rfl⟩
  have value : factor.toRat = tenTo n := by simp [Decimal.toRat, factor, tenTo]
  rw [made, Option.bind_some] at unheld
  have product := Decimal.mul?_held d factor
  rw [unheld, value] at product
  exact Decimal.wide_of_held? product.symm

theorem wide_of_shift (plain : ∀ c ∈ l.exponent, c.isDigit = true)
    (isSign : l.sign = [] ∨ l.sign = ['+'])
    (read : Decimal.readExponent l.exponent = .ok l.power) (near : ¬ maxScale < l.power)
    (refused : d.shift (l.sign ++ l.exponent) = .error cause) :
    d.scale < l.power ∧ (widthBound : ℚ) - 1 / 2 ≤ |d.toRat * tenTo l.power| := by
  rw [shift_positive plain isSign read near] at refused
  split at refused
  · have fits : Decimal.ofParts? d.coeff (d.scale - l.power) =
        some ⟨d.coeff, d.scale - l.power, d.coeff_lt, (Nat.sub_le _ _).trans d.scale_le⟩ :=
      Decimal.ofParts?_eq_some_iff.mpr ⟨rfl, rfl⟩
    rw [Decimal.rescale, fits] at refused
    cases refused
  · next further =>
    split at refused
    · cases refused
    · next unheld => exact ⟨Nat.not_le.mp further, wide_of_product (Nat.not_lt.mp near) unheld⟩

theorem outOfRange_of_shift (plain : ∀ c ∈ l.exponent, c.isDigit = true)
    (some_digit : l.exponent ≠ []) (isSign : l.sign = [] ∨ l.sign = ['+'] ∨ l.sign = ['-'])
    (held : Decimal.ReadOff l.size (places l.base) (.ok d))
    (refused : d.shift (l.sign ++ l.exponent) = .error cause) : l.OutOfRange := by
  obtain ⟨fewer, full⟩ := held
  by_cases beyond : maxScale < l.power
  · exact .power beyond
  have read : Decimal.readExponent l.exponent = .ok l.power :=
    (readExponent_cases plain some_digit).resolve_right beyond
  by_cases negative : l.sign = ['-']
  · rw [negative] at refused
    have more := more_of_shift read beyond refused
    exact .places negative (by omega)
  · have positive : l.sign = [] ∨ l.sign = ['+'] := by
      rcases isSign with none | plus | minus
      · exact .inl none
      · exact .inr plus
      · exact absurd minus negative
    obtain ⟨further, wide⟩ := wide_of_shift plain positive read beyond refused
    refine .product negative ?_
    rcases full with exact | last | full
    · rw [exact, abs_of_nonneg (mul_nonneg l.size_nonneg (tenTo_cast_pos _).le)] at wide
      generalize (widthBound : ℚ) = width at wide ⊢
      linarith
    · omega
    · have places : (tenTo (d.scale + 1) : ℚ) ≤ tenTo l.power := by
        exact_mod_cast Nat.pow_le_pow_right (by decide : 0 < 10) further
      exact full.trans_le (mul_le_mul_of_nonneg_left places l.size_nonneg)

/-! What is refused -/

theorem readDigits_padNumeral (plain : PlainNumeral Text.isDecimalDigit base) :
    Decimal.readDigits false .zero (padNumeral base) = Decimal.readDigits false .zero base := by
  rw [padNumeral_of_unsigned plain.unsigned]
  split
  · rfl
  · rfl

theorem base_ne_nil (plain : PlainNumeral Text.isDecimalDigit base) : base ≠ [] := by
  cases plain with
  | whole some_digit => exact some_digit
  | point => exact List.append_ne_nil_of_right_ne_nil _ (List.cons_ne_nil _ _)

theorem head?_append (plain : PlainNumeral Text.isDecimalDigit base) (tail : List Char) :
    (base ++ tail).head? = base.head? :=
  List.head?_append_of_ne_nil base (base_ne_nil plain)

theorem padNumeral_append (plain : PlainNumeral Text.isDecimalDigit base) (tail : List Char) :
    padNumeral (base ++ tail) = padNumeral base ++ tail := by
  have unsigned := plain.unsigned
  have head := head?_append plain tail
  rw [padNumeral_of_unsigned unsigned, padNumeral_of_unsigned (head ▸ unsigned), head]
  split
  · rfl
  · rfl

def isMark (c : Char) : Bool := c == 'e' || c == 'E'

theorem noMark_padNumeral (plain : PlainNumeral Text.isDecimalDigit base) :
    ∀ c ∈ padNumeral base, (!isMark c) = true := by
  have digits : ∀ c ∈ base, (!isMark c) = true := by
    intro c member
    have small : c ≠ 'e' := fun same => plain.not_mem (by decide) (by decide) (same ▸ member)
    have capital : c ≠ 'E' := fun same => plain.not_mem (by decide) (by decide) (same ▸ member)
    simp [isMark, small, capital]
  rw [padNumeral_of_unsigned plain.unsigned]
  split
  · exact List.forall_mem_cons.mpr ⟨rfl, digits⟩
  · exact digits

theorem ofScientific_append (plain : PlainNumeral Text.isDecimalDigit base) (tail : List Char)
    (isTail : ∀ mark, tail.head? = some mark → isMark mark = true) :
    Decimal.ofScientific (padNumeral (base ++ tail)) =
      (Decimal.readDigits false .zero base).bind fun d =>
        if tail = [] then .ok d else d.shift tail.tail := by
  have digits := noMark_padNumeral plain
  have stop : tail.takeWhile (!isMark ·) = [] ∧ tail.dropWhile (!isMark ·) = tail := by
    cases tail with
    | nil => exact ⟨rfl, rfl⟩
    | cons mark tail =>
      have goesOn : ¬ (!isMark mark) = true := by simpa using isTail mark rfl
      exact ⟨List.takeWhile_cons_of_neg goesOn, List.dropWhile_cons_of_neg goesOn⟩
  have front : (padNumeral base ++ tail).takeWhile (!isMark ·) = padNumeral base := by
    rw [List.takeWhile_append_of_pos digits, stop.1, List.append_nil]
  have behind : (padNumeral base ++ tail).dropWhile (!isMark ·) = tail := by
    rw [List.dropWhile_append_of_pos digits, stop.2]
  have number : Decimal.ofNumeral (padNumeral base) = Decimal.readDigits false .zero base := by
    rw [Decimal.ofNumeral_unsigned (unsigned_padNumeral plain.unsigned),
      readDigits_padNumeral plain]
  unfold isMark at front behind
  simp only [Decimal.ofScientific, padNumeral_append plain, front, behind, number]
  cases tail with
  | nil => rfl
  | cons mark tail => rfl

theorem ofScientific_of_numeralValue (unsigned : lexeme.head? ≠ some '-')
    (refused : Lexicon.numeralValue lexeme = .error e) :
    ∃ cause, Decimal.ofScientific (padNumeral lexeme) = .error cause := by
  simp only [Lexicon.numeralValue, ← padNumeral_of_unsigned unsigned] at refused
  split at refused
  · cases refused
  · split at refused
    · cases refused
    · next cause found => exact ⟨cause, found⟩

theorem Written.ne_nil (written : l.Written lexeme) : lexeme ≠ [] := by
  cases written with
  | plain isBase => exact base_ne_nil isBase
  | scientific isBase => exact List.append_ne_nil_of_left_ne_nil (base_ne_nil isBase) _

theorem Written.unsigned (written : l.Written lexeme) : lexeme.head? ≠ some '-' := by
  cases written with
  | plain isBase => exact isBase.unsigned
  | scientific isBase =>
    rw [head?_append isBase]
    exact isBase.unsigned

/-- A numeral of ASCII digits is refused only if it is out of range. -/
theorem outOfRange_of_refused (written : l.Written lexeme) (ascii : AsciiDigits lexeme)
    (refused : Lexicon.numeralValue lexeme = .error e) : l.OutOfRange := by
  obtain ⟨cause, refused⟩ := ofScientific_of_numeralValue written.unsigned refused
  have readOff (isBase : PlainNumeral Text.isDecimalDigit l.base) (part : l.base ⊆ lexeme) :
      Decimal.ReadOff l.size (places l.base) (Decimal.readDigits false .zero l.base) :=
    readOff_base (isBase.of_digits fun c member => ascii c (part member))
  cases written with
  | plain isBase =>
    have held := readOff isBase (List.Subset.refl _)
    have read := ofScientific_append isBase [] nofun
    rw [List.append_nil, refused] at read
    cases digits : Decimal.readDigits false .zero lexeme with
    | ok d =>
      rw [digits] at read
      cases read
    | error other =>
      rw [digits] at held
      cases held with
      | wide above => exact .size above
  | @scientific base sign exponent mark isBase isMark isSign some_digit isExponent =>
    have held := readOff isBase (List.subset_append_left _ _)
    have isTail : ∀ c, (mark :: (sign ++ exponent)).head? = some c →
        NumeralLiteral.isMark c = true := by
      intro c same
      obtain rfl := Option.some.inj same
      rcases isMark with rfl | rfl
      · rfl
      · rfl
    have read := ofScientific_append isBase (mark :: (sign ++ exponent)) isTail
    rw [refused] at read
    cases digits : Decimal.readDigits false .zero base with
    | ok d =>
      rw [digits] at read held
      have plain : ∀ c ∈ exponent, c.isDigit = true := by
        intro c member
        exact ascii c (by simp [member]) (isExponent c member)
      exact outOfRange_of_shift plain some_digit isSign held read.symm
    | error other =>
      rw [digits] at held
      cases held with
      | wide above => exact .size above

end

end NumeralLiteral

/-! What the scanner takes -/

namespace Lexicon

open Text (isDecimalDigit)

variable {text : List Char}

theorem take_digitsLength (text : List Char) :
    text.take (digitsLength text) = text.takeWhile isDecimalDigit :=
  (List.prefix_iff_eq_take.mp (List.takeWhile_prefix _)).symm

theorem digits_of_take (text : List Char) :
    ∀ c ∈ text.take (digitsLength text), isDecimalDigit c = true := by
  intro c member
  rw [take_digitsLength] at member
  exact List.mem_takeWhile_imp member

theorem take_ne_nil (some_digit : digitsLength text ≠ 0) :
    text.take (digitsLength text) ≠ [] := by
  rw [take_digitsLength]
  exact List.ne_nil_of_length_pos (Nat.pos_of_ne_zero some_digit)

theorem take_fractionLength (text : List Char) : fractionLength text = 0 ∨
    ∃ places, places ≠ [] ∧ (∀ c ∈ places, isDecimalDigit c = true) ∧
      text.take (fractionLength text) = '.' :: places := by
  unfold fractionLength
  split
  · next rest =>
    split
    · exact .inl rfl
    · next some_digit =>
      exact .inr ⟨rest.take (digitsLength rest), take_ne_nil some_digit, digits_of_take rest, rfl⟩
  · exact .inl rfl

theorem plain_of_fraction
    (some_digit : digitsLength text + fractionLength (text.drop (digitsLength text)) ≠ 0) :
    PlainNumeral isDecimalDigit
      (text.take (digitsLength text + fractionLength (text.drop (digitsLength text)))) := by
  rw [List.take_add]
  rcases take_fractionLength (text.drop (digitsLength text)) with
    none | ⟨places, some_place, digits, front⟩
  · rw [none, List.take_zero, List.append_nil]
    exact .whole (take_ne_nil (by omega)) (digits_of_take text)
  · rw [front]
    exact .point (digits_of_take text) some_place digits

theorem isFormOf_e {c : Char} (form : isFormOf 'e' c = true) : c = 'e' ∨ c = 'E' := by
  have capitals : ∀ i < 26, Char.ofNat (0x61 + i) = 'e' → Char.ofNat (0x41 + i) = 'E' := by decide
  rcases isFormOf_cases (by decide) form with small | ⟨other, -⟩ | ⟨other, -⟩
  · rcases Text.toLower_cases c with same | ⟨i, within, rfl, lower⟩
    · exact .inl (same ▸ small)
    · exact .inr (capitals i within (lower ▸ small))
  · cases other
  · cases other

theorem written_of_exponent {base : List Char} (isBase : PlainNumeral isDecimalDigit base)
    (text : List Char) :
    ∃ l : NumeralLiteral, l.Written (base ++ text.take (exponentLength text)) := by
  cases text with
  | nil =>
    rw [List.take_nil, List.append_nil]
    exact ⟨_, .plain isBase⟩
  | cons mark rest =>
    simp only [exponentLength]
    generalize signLength :
      (if rest.head? = some '+' ∨ rest.head? = some '-' then 1 else 0) = sign
    split
    · next exponent =>
      have isSign : rest.take sign = [] ∨ rest.take sign = ['+'] ∨ rest.take sign = ['-'] := by
        subst signLength
        split
        · next signed =>
          rcases signed with plus | minus
          · obtain ⟨others, rfl⟩ := List.head?_eq_some_iff.mp plus
            exact .inr (.inl rfl)
          · obtain ⟨others, rfl⟩ := List.head?_eq_some_iff.mp minus
            exact .inr (.inr rfl)
        · exact .inl rfl
      have split : (mark :: rest).take (1 + sign + digitsLength (rest.drop sign)) =
          mark :: (rest.take sign ++ (rest.drop sign).take (digitsLength (rest.drop sign))) := by
        rw [Nat.add_assoc, Nat.add_comm 1, List.take_succ_cons, List.take_add]
      rw [split]
      exact ⟨_, .scientific isBase (isFormOf_e exponent.1) isSign (take_ne_nil exponent.2)
        (digits_of_take _)⟩
    · rw [List.take_zero, List.append_nil]
      exact ⟨_, .plain isBase⟩

theorem written_of_numeralLength? {n : Nat} (read : numeralLength? text = some n) :
    ∃ l : NumeralLiteral, l.Written (text.take n) := by
  simp only [numeralLength?] at read
  split at read
  · cases read
  · next some_digit =>
    have tried := List.mem_of_find?_eq_some read
    simp only [List.mem_append, List.mem_cons, List.not_mem_nil, or_false] at tried
    rcases tried with (rfl | rfl) | short
    · rw [List.take_add]
      exact written_of_exponent (plain_of_fraction some_digit) _
    · exact ⟨_, .plain (plain_of_fraction some_digit)⟩
    · split at short
      · cases short
      · next whole =>
        obtain rfl := List.mem_singleton.mp short
        exact ⟨_, .plain (.whole (take_ne_nil whole) (digits_of_take text))⟩

end Lexicon

end Formulary
