import Mathlib.Data.List.TakeWhile
import Formulary.Lexicon.Literal
import Formulary.Proofs.Rewriting

/-!
Numbers as they are written. The reader of numerals takes what is written of a decimal for the
same decimal, the scanner of numerals takes all of it, and no lexeme without a sign stands for a
negative number.
-/
namespace Formulary

namespace Text

theorem isDigit_bounds {c : Char} (digit : c.isDigit = true) : 48 ≤ c.toNat ∧ c.toNat ≤ 57 := by
  simp only [Char.isDigit, Bool.and_eq_true, decide_eq_true_eq, UInt32.le_iff_toNat_le] at digit
  exact digit

theorem asciiDigit?_of_isDigit {c : Char} (digit : c.isDigit = true) :
    asciiDigit? c = some (c.toNat - 48) := by
  obtain ⟨least, most⟩ := isDigit_bounds digit
  refine if_pos ⟨?_, ?_⟩
  · exact UInt32.le_iff_toNat_le.mpr least
  · exact UInt32.le_iff_toNat_le.mpr most

theorem isDigit_of_asciiDigit? {c : Char} {digit : Nat} (isDigit : asciiDigit? c = some digit) :
    c.isDigit = true := by
  unfold asciiDigit? at isDigit
  split at isDigit
  · next bounds => exact Bool.and_eq_true_iff.mpr ⟨decide_eq_true bounds.1, decide_eq_true bounds.2⟩
  · cases isDigit

theorem isDecimalDigit_of_isDigit {c : Char} (digit : c.isDigit = true) :
    isDecimalDigit c = true :=
  (inRanges_iff _ c).mpr ⟨(0x30, 0x39), by simp [decimalDigitRanges], isDigit_bounds digit⟩

end Text

namespace Decimal

theorem eq_of_parts {a b : Decimal} (coeff : a.coeff = b.coeff) (scale : a.scale = b.scale) :
    a = b := by
  cases a
  cases b
  cases coeff
  cases scale
  rfl

theorem nonneg_neg {d : Decimal} (negative : d.coeff < 0) : 0 ≤ d.neg.coeff := by
  simp only [neg]
  omega

theorem neg_twice (d : Decimal) : d.neg.neg = d := eq_of_parts (Int.neg_neg d.coeff) rfl

/-! Digits -/

theorem le_ofDigitChars (digits : List Char) (n : Nat) : n ≤ Nat.ofDigitChars 10 digits n := by
  rw [Nat.ofDigitChars_eq_ofDigitChars_zero]
  have grows : n ≤ 10 ^ digits.length * n := Nat.le_mul_of_pos_left n (Nat.pow_pos (by decide))
  exact Nat.le_add_right_of_le grows

theorem readDigits_append {pointSeen : Bool} {digits : List Char} {read : Decimal} {n : Nat}
    (final : Decimal) (rest : List Char) (plain : ∀ c ∈ digits, c.isDigit = true)
    (sofar : read.coeff = n) (value : final.coeff = (Nat.ofDigitChars 10 digits n : Nat))
    (places : final.scale = read.scale + if pointSeen then digits.length else 0) :
    readDigits pointSeen read (digits ++ rest) = readDigits pointSeen final rest := by
  induction digits generalizing read n with
  | nil =>
    obtain rfl : read = final := eq_of_parts (sofar.trans value.symm) (by simpa using places.symm)
    rfl
  | cons c digits ih =>
    have room := final.coeff_lt
    have low := final.scale_le
    rw [Nat.ofDigitChars_cons] at value
    have grows := le_ofDigitChars digits (10 * n + (c.toNat - '0'.toNat))
    have fewer : read.scale + (if pointSeen then 1 else 0) ≤ maxScale := by
      rw [places, List.length_cons] at low
      split at low
      · next seen => rw [if_pos seen]; omega
      · next unseen => rw [if_neg unseen]; omega
    have more : (pointSeen && read.scale == maxScale) = false := by
      rw [Bool.and_eq_false_imp]
      rintro rfl
      rw [if_pos rfl] at fewer
      exact beq_eq_false_iff_ne.mpr (by omega)
    have digit := Text.asciiDigit?_of_isDigit (plain c List.mem_cons_self)
    have zero : '0'.toNat = 48 := rfl
    let next : Decimal := ⟨(10 * n + (c.toNat - 48) : Nat), read.scale + if pointSeen then 1 else 0,
      by omega, fewer⟩
    have made : ofParts? (read.coeff * 10 + (c.toNat - 48 : Nat))
        (read.scale + if pointSeen then 1 else 0) = some next :=
      ofParts?_eq_some_iff.mpr ⟨by simp only [next]; omega, rfl⟩
    simp only [List.cons_append, readDigits, more, digit, made, Bool.false_eq_true, if_false]
    refine ih (fun c member => plain c (List.mem_cons_of_mem _ member)) rfl value ?_
    rw [places, List.length_cons]
    cases pointSeen with
    | false => rfl
    | true => simp only [next, if_true]; omega

section

variable {d : Decimal} {digits places : List Char} (plain : ∀ c ∈ digits, c.isDigit = true)

include plain

theorem readDigits_whole (coeff : d.coeff = (Nat.ofDigitChars 10 digits 0 : Nat))
    (scale : d.scale = 0) : readDigits false zero digits = .ok d := by
  have read : readDigits false zero (digits ++ []) = readDigits false d [] :=
    readDigits_append d [] plain rfl coeff scale
  rw [List.append_nil] at read
  exact read

theorem readDigits_point (plain' : ∀ c ∈ places, c.isDigit = true)
    (coeff : d.coeff = (Nat.ofDigitChars 10 places (Nat.ofDigitChars 10 digits 0) : Nat))
    (scale : d.scale = places.length) :
    readDigits false zero (digits ++ '.' :: places) = .ok d := by
  have fits := d.coeff_lt
  have grows := le_ofDigitChars places (Nat.ofDigitChars 10 digits 0)
  let front : Decimal := ⟨(Nat.ofDigitChars 10 digits 0 : Nat), 0, by omega, Nat.zero_le _⟩
  have before : readDigits false zero (digits ++ '.' :: places) =
      readDigits false front ('.' :: places) := readDigits_append front _ plain rfl rfl rfl
  have point : readDigits false front ('.' :: places) = readDigits true front places := rfl
  have behind : readDigits true front (places ++ []) = readDigits true d [] :=
    readDigits_append d [] plain' rfl coeff (by simp [front, scale])
  rw [List.append_nil] at behind
  rw [before, point, behind]
  rfl

end

def wholeDigits (d : Decimal) : List Char := Nat.toDigits 10 (d.coeff.natAbs / tenTo d.scale)

def placeDigits (d : Decimal) : List Char :=
  (Nat.toDigits 10 (d.coeff.natAbs % tenTo d.scale)).leftpad d.scale '0'

section

variable {d : Decimal} {c : Char}

theorem isDigit_of_mem_wholeDigits (member : c ∈ d.wholeDigits) : c.isDigit = true :=
  Nat.isDigit_of_mem_toDigits (by decide) (by decide) member

theorem wholeDigits_ne_nil : d.wholeDigits ≠ [] := Nat.toDigits_ne_nil

theorem ofDigitChars_wholeDigits :
    Nat.ofDigitChars 10 d.wholeDigits 0 = d.coeff.natAbs / tenTo d.scale :=
  Nat.ofDigitChars_toDigits (by decide) (by decide)

theorem isDigit_of_mem_placeDigits (member : c ∈ d.placeDigits) : c.isDigit = true := by
  rcases List.mem_append.mp member with zero | digit
  · rw [List.eq_of_mem_replicate zero]
    rfl
  · exact Nat.isDigit_of_mem_toDigits (by decide) (by decide) digit

theorem length_placeDigits (places : d.scale ≠ 0) : d.placeDigits.length = d.scale := by
  have short := (Nat.length_toDigits_le_iff (by decide) (Nat.pos_of_ne_zero places)).mpr
    (Nat.mod_lt d.coeff.natAbs (tenTo_pos d.scale))
  rw [placeDigits, List.length_leftpad]
  exact Nat.max_eq_left short

theorem ofDigitChars_placeDigits (places : d.scale ≠ 0) (n : Nat) :
    Nat.ofDigitChars 10 d.placeDigits n =
      n * tenTo d.scale + d.coeff.natAbs % tenTo d.scale := by
  have zeros : Nat.ofDigitChars 10 d.placeDigits 0 = d.coeff.natAbs % tenTo d.scale := by
    simp only [placeDigits, List.leftpad, Nat.ofDigitChars_append,
      Nat.ofDigitChars_replicate_zero, Nat.mul_zero]
    exact Nat.ofDigitChars_toDigits (by decide) (by decide)
  rw [Nat.ofDigitChars_eq_ofDigitChars_zero, zeros, length_placeDigits places, Nat.mul_comm]
  rfl

theorem chars_of_whole (positive : 0 ≤ d.coeff) (whole : d.scale = 0) :
    d.chars = d.wholeDigits := by
  simp [chars, isNegative, whole, Int.not_lt.mpr positive, wholeDigits]

theorem chars_of_places (positive : 0 ≤ d.coeff) (places : d.scale ≠ 0) :
    d.chars = d.wholeDigits ++ '.' :: d.placeDigits := by
  simp [chars, isNegative, places, Int.not_lt.mpr positive, wholeDigits, placeDigits]

theorem chars_of_negative (negative : d.coeff < 0) : d.chars = '-' :: d.neg.chars := by
  simp [chars, isNegative, negative, neg, Int.le_of_lt negative]

theorem isDigit_or_point_of_mem_chars (positive : 0 ≤ d.coeff) (member : c ∈ d.chars) :
    c.isDigit = true ∨ c = '.' := by
  by_cases whole : d.scale = 0
  · rw [chars_of_whole positive whole] at member
    exact .inl (isDigit_of_mem_wholeDigits member)
  · rw [chars_of_places positive whole, List.mem_append, List.mem_cons] at member
    rcases member with digit | point | digit
    · exact .inl (isDigit_of_mem_wholeDigits digit)
    · exact .inr point
    · exact .inl (isDigit_of_mem_placeDigits digit)

theorem chars_eq_cons (positive : 0 ≤ d.coeff) :
    ∃ first others, d.chars = first :: others ∧ first.isDigit = true := by
  obtain ⟨first, others, digits⟩ := List.exists_cons_of_ne_nil (wholeDigits_ne_nil (d := d))
  have digit := isDigit_of_mem_wholeDigits (d := d) (c := first) (by simp [digits])
  by_cases whole : d.scale = 0
  · exact ⟨first, others, (chars_of_whole positive whole).trans digits, digit⟩
  · exact ⟨first, others ++ '.' :: d.placeDigits,
      by rw [chars_of_places positive whole, digits, List.cons_append], digit⟩

theorem readDigits_chars (positive : 0 ≤ d.coeff) : readDigits false zero d.chars = .ok d := by
  have size : (d.coeff.natAbs : Int) = d.coeff := by omega
  have parts := Nat.div_add_mod d.coeff.natAbs (tenTo d.scale)
  by_cases whole : d.scale = 0
  · have value : d.coeff = (Nat.ofDigitChars 10 d.wholeDigits 0 : Nat) := by
      rw [ofDigitChars_wholeDigits, whole]
      simp [tenTo, size]
    rw [chars_of_whole positive whole]
    exact readDigits_whole (fun _ => isDigit_of_mem_wholeDigits) value whole
  · have value : d.coeff = (Nat.ofDigitChars 10 d.placeDigits
        (Nat.ofDigitChars 10 d.wholeDigits 0) : Nat) := by
      rw [ofDigitChars_wholeDigits, ofDigitChars_placeDigits whole, Nat.mul_comm, parts, size]
    rw [chars_of_places positive whole]
    exact readDigits_point (fun _ => isDigit_of_mem_wholeDigits)
      (fun _ => isDigit_of_mem_placeDigits) value (length_placeDigits whole).symm

end

theorem ofNumeral_unsigned {numeral : List Char} (unsigned : numeral.head? ≠ some '-') :
    ofNumeral numeral = readDigits false zero numeral := by
  unfold ofNumeral
  split
  · exact absurd rfl unsigned
  · rfl

theorem ofNumeral_chars (d : Decimal) : ofNumeral d.chars = .ok d := by
  by_cases negative : d.coeff < 0
  · rw [chars_of_negative negative]
    simp only [ofNumeral, readDigits_chars (nonneg_neg negative), Except.map]
    rw [neg_twice]
  · have positive : 0 ≤ d.coeff := Int.not_lt.mp negative
    obtain ⟨first, others, chars, digit⟩ := chars_eq_cons positive
    have unsigned : d.chars.head? ≠ some '-' := by
      rw [chars]
      rintro ⟨⟩
      cases digit
    rw [ofNumeral_unsigned unsigned, readDigits_chars positive]

/-! The shortest form -/

theorem strip_go_value (least scale : Nat) (coeff : Int) (small : coeff.natAbs < widthBound)
    (low : scale ≤ maxScale) :
    (strip.go least scale coeff small low).coeff * tenTo scale =
      coeff * tenTo (strip.go least scale coeff small low).scale := by
  induction scale generalizing coeff with
  | zero => simp [strip.go]
  | succ scale ih =>
    unfold strip.go
    split
    · next more =>
      have shorter := ih (coeff / 10) (by omega) (by omega)
      have ten : tenTo (scale + 1) = tenTo scale * 10 := Nat.pow_succ 10 scale
      have whole : coeff / 10 * 10 = coeff := Int.ediv_mul_cancel (Int.dvd_of_emod_eq_zero more.2)
      rw [ten, Int.natCast_mul, ← Int.mul_assoc, shorter, Int.mul_right_comm]
      exact congrArg (· * _) whole
    · rfl

theorem strip_value (least : Nat) (d : Decimal) :
    (d.strip least).coeff * tenTo d.scale = d.coeff * tenTo (d.strip least).scale :=
  strip_go_value least d.scale d.coeff d.coeff_lt d.scale_le

theorem order_normalize (d : Decimal) : d.normalize.order d = .eq := by
  exact Std.LawfulEqOrd.compare_eq_iff_eq.mpr (strip_value 0 d)

theorem nonneg_normalize {d : Decimal} : 0 ≤ d.normalize.coeff ↔ 0 ≤ d.coeff := by
  have same := strip_value 0 d
  have positive (places : Nat) : (0 : Int) < tenTo places := Int.natCast_pos.mpr (tenTo_pos places)
  rw [← Int.mul_nonneg_iff_of_pos_right (positive d.scale), normalize, same,
    Int.mul_nonneg_iff_of_pos_right (positive _)]

/-! Without a sign -/

theorem nonneg_of_roundOff {read rounded : Decimal} {dropped : List Char}
    (rounds : roundOff read dropped = .ok rounded) (positive : 0 ≤ read.coeff) :
    0 ≤ rounded.coeff := by
  unfold roundOff at rounds
  split at rounds
  · cases rounds
  · split at rounds
    · cases rounds
      exact positive
    · split at rounds
      · next up made =>
        cases rounds
        have := (ofParts?_eq_some_iff.mp made).1
        omega
      · split at rounds
        · cases rounds
        · split at rounds
          · next up made =>
            cases rounds
            have := (ofParts?_eq_some_iff.mp made).1
            omega
          · cases rounds

theorem nonneg_of_readDigits {pointSeen : Bool} {read final : Decimal} {digits : List Char}
    (reads : readDigits pointSeen read digits = .ok final) (positive : 0 ≤ read.coeff) :
    0 ≤ final.coeff := by
  induction digits generalizing pointSeen read with
  | nil =>
    cases reads
    exact positive
  | cons c digits ih =>
    unfold readDigits at reads
    split at reads
    · exact nonneg_of_roundOff reads positive
    · split at reads
      · split at reads
        · next next made =>
          have := (ofParts?_eq_some_iff.mp made).1
          exact ih reads (by omega)
        · split at reads
          · exact nonneg_of_roundOff reads positive
          · cases reads
      · split at reads
        · exact ih reads positive
        · cases reads

theorem nonneg_of_ofNumeral {numeral : List Char} {d : Decimal} (reads : ofNumeral numeral = .ok d)
    (unsigned : numeral.head? ≠ some '-') : 0 ≤ d.coeff := by
  rw [ofNumeral_unsigned unsigned] at reads
  exact nonneg_of_readDigits reads (Int.le_refl 0)

theorem nonneg_of_nearest {num : Int} {den cap : Nat} {d : Decimal}
    (made : nearest num den cap = some d) (positive : 0 ≤ num) : 0 ≤ d.coeff := by
  have rounded {n : Int} (above : 0 ≤ n) : 0 ≤ roundHalfEven n den := by
    have floor : 0 ≤ n / (den : Int) := Int.ediv_nonneg above (Int.natCast_nonneg den)
    simp only [roundHalfEven]
    repeat' split
    all_goals omega
  induction cap with
  | zero => exact (ofParts?_eq_some_iff.mp made).1 ▸ rounded positive
  | succ cap ih =>
    unfold nearest at made
    split at made
    · next at_cap =>
      cases made
      exact (ofParts?_eq_some_iff.mp at_cap).1 ▸
        rounded (Int.mul_nonneg positive (Int.natCast_nonneg _))
    · exact ih made

theorem nonneg_of_mul? {a b product : Decimal} (made : a.mul? b = some product)
    (left : 0 ≤ a.coeff) (right : 0 ≤ b.coeff) : 0 ≤ product.coeff := by
  unfold mul? at made
  split at made
  · cases made
    exact Int.le_refl 0
  · exact nonneg_of_nearest made (Int.mul_nonneg left right)

theorem coeff_of_rescale {base scaled : Decimal} {scale : Nat}
    (made : base.rescale scale = .ok scaled) : scaled.coeff = base.coeff := by
  unfold rescale at made
  split at made
  · next same =>
    cases made
    exact (ofParts?_eq_some_iff.mp same).1
  · cases made

theorem nonneg_of_shift {base shifted : Decimal} {exponent : List Char}
    (made : base.shift exponent = .ok shifted) (positive : 0 ≤ base.coeff) :
    0 ≤ shifted.coeff := by
  unfold shift at made
  split at made
  · obtain ⟨places, _, scaled⟩ := bind_eq_ok.mp made
    split at scaled
    · cases scaled
    · exact (coeff_of_rescale scaled).symm ▸ positive
  · obtain ⟨places, _, scaled⟩ := bind_eq_ok.mp made
    split at scaled
    · exact (coeff_of_rescale scaled).symm ▸ positive
    · split at scaled
      · cases scaled
      · split at scaled
        · next product multiplied =>
          cases scaled
          obtain ⟨power, isPower, multiplied⟩ := Option.bind_eq_some_iff.mp multiplied
          have above : 0 ≤ power.coeff :=
            (ofParts?_eq_some_iff.mp isPower).1 ▸ Int.natCast_nonneg _
          exact nonneg_normalize.mpr (nonneg_of_mul? multiplied positive above)
        · cases scaled

theorem nonneg_of_ofScientific {numeral : List Char} {d : Decimal}
    (reads : ofScientific numeral = .ok d) (unsigned : numeral.head? ≠ some '-') :
    0 ≤ d.coeff := by
  obtain ⟨base, isBase, shifted⟩ := bind_eq_ok.mp reads
  have positive : 0 ≤ base.coeff := by
    refine nonneg_of_ofNumeral isBase ?_
    cases numeral with
    | nil => exact nofun
    | cons c rest =>
      rw [List.takeWhile_cons]
      split
      · exact unsigned
      · exact nofun
  split at shifted
  · cases shifted
    exact positive
  · exact nonneg_of_shift shifted positive

/-! Whole numbers -/

theorem natOfDigits?_eq_some {digits : List Char} (plain : ∀ c ∈ digits, c.isDigit = true)
    (some_digit : digits ≠ []) : natOfDigits? digits = some (Nat.ofDigitChars 10 digits 0) := by
  have from_sum (n : Nat) : digits.foldl
      (fun sum c => do return (← sum) * 10 + (← Text.asciiDigit? c)) (some n) =
        some (Nat.ofDigitChars 10 digits n) := by
    clear some_digit
    induction digits generalizing n with
    | nil => rfl
    | cons c digits ih =>
      rw [Nat.ofDigitChars_cons, ← ih fun c member => plain c (List.mem_cons_of_mem _ member)]
      simp [Text.asciiDigit?_of_isDigit (plain c List.mem_cons_self), Nat.mul_comm]
  rw [natOfDigits?, if_neg (by simpa using some_digit), from_sum]

theorem natOfDigits?_eq_none {digits : List Char} {c : Char} (member : c ∈ digits)
    (foreign : Text.asciiDigit? c = none) : natOfDigits? digits = none := by
  have lost (rest : List Char) :
      rest.foldl (fun sum c => do return (← sum) * 10 + (← Text.asciiDigit? c)) none =
        (none : Option Nat) := by
    induction rest with
    | nil => rfl
    | cons c rest ih => exact ih
  obtain ⟨before, behind, rfl⟩ := List.append_of_mem member
  rw [natOfDigits?, if_neg (by simp), List.foldl_append, List.foldl_cons]
  simp only [foreign]
  cases before.foldl (fun sum c => do return (← sum) * 10 + (← Text.asciiDigit? c)) (some 0) with
  | none => exact lost behind
  | some n => exact lost behind

theorem natOfDigits?_eq_some_iff {digits : List Char} {n : Nat} :
    natOfDigits? digits = some n ↔
      digits ≠ [] ∧ (∀ c ∈ digits, c.isDigit = true) ∧ Nat.ofDigitChars 10 digits 0 = n := by
  constructor
  · intro counted
    have some_digit : digits ≠ [] := by
      rintro rfl
      cases counted
    have plain : ∀ c ∈ digits, c.isDigit = true := by
      intro c member
      cases ascii : Text.asciiDigit? c with
      | some digit => exact Text.isDigit_of_asciiDigit? ascii
      | none =>
        rw [natOfDigits?_eq_none member ascii] at counted
        cases counted
    rw [natOfDigits?_eq_some plain some_digit, Option.some.injEq] at counted
    exact ⟨some_digit, plain, counted⟩
  · rintro ⟨some_digit, plain, rfl⟩
    exact natOfDigits?_eq_some plain some_digit

theorem ofScientific_of_noMark {numeral : List Char} (small : 'e' ∉ numeral)
    (capital : 'E' ∉ numeral) : ofScientific numeral = ofNumeral numeral := by
  have noMark : ∀ c ∈ numeral, (!(c == 'e' || c == 'E')) = true := by
    intro c member
    have notSmall : c ≠ 'e' := fun same => small (same ▸ member)
    have notCapital : c ≠ 'E' := fun same => capital (same ▸ member)
    simp [notSmall, notCapital]
  have all := List.takeWhile_eq_self_iff.mpr noMark
  have nothing := List.dropWhile_eq_nil_iff.mpr noMark
  simp only [ofScientific, all, nothing]
  exact bind_pure _

theorem ofScientific_chars {d : Decimal} (positive : 0 ≤ d.coeff) :
    ofScientific d.chars = .ok d := by
  have outside {c : Char} (noDigit : c.isDigit = false) (noPoint : c ≠ '.') : c ∉ d.chars := by
    intro member
    rcases isDigit_or_point_of_mem_chars positive member with digit | point
    · exact absurd digit (noDigit ▸ Bool.false_ne_true)
    · exact noPoint point
  rw [ofScientific_of_noMark (outside rfl (by decide)) (outside rfl (by decide)),
    ofNumeral_chars]

end Decimal

namespace Lexicon

theorem nonneg_of_numeralValue {lexeme : List Char} {n : Number}
    (value : numeralValue lexeme = .ok n) (unsigned : lexeme.head? ≠ some '-') :
    0 ≤ n.toDecimal.coeff := by
  simp only [numeralValue] at value
  split at value
  · next whole isWhole =>
    cases value
    obtain ⟨size, _, made⟩ := Option.bind_eq_some_iff.mp isWhole
    unfold Number.ofInt? at made
    split at made
    · cases made
      exact Int.natCast_nonneg size
    · cases made
  · split at value
    · next d reads =>
      cases value
      refine Decimal.nonneg_of_ofScientific reads ?_
      split
      · exact nofun
      · exact unsigned
    · cases value

theorem numeralValue_chars {d : Decimal} (positive : 0 ≤ d.coeff) :
    ∃ n, numeralValue d.chars = .ok n ∧ n.toDecimal = d := by
  obtain ⟨first, others, chars, digit⟩ := Decimal.chars_eq_cons positive
  have noPoint : d.chars.head? ≠ some '.' := by
    rw [chars]
    rintro ⟨⟩
    cases digit
  simp only [numeralValue, if_neg noPoint, Decimal.ofScientific_chars positive]
  split
  · next n isWhole =>
    refine ⟨n, rfl, ?_⟩
    obtain ⟨size, counted, made⟩ := Option.bind_eq_some_iff.mp isWhole
    have whole : d.scale = 0 := by
      refine Decidable.byContradiction fun places => ?_
      have point : '.' ∈ d.chars := by simp [Decimal.chars_of_places positive places]
      rw [Decimal.natOfDigits?_eq_none point rfl] at counted
      cases counted
    rw [Decimal.chars_of_whole positive whole, Decimal.natOfDigits?_eq_some
      (fun _ => Decimal.isDigit_of_mem_wholeDigits) Decimal.wholeDigits_ne_nil] at counted
    obtain rfl := Option.some.inj counted
    unfold Number.ofInt? at made
    split at made
    · obtain rfl := Option.some.inj made
      refine Decimal.eq_of_parts ?_ whole.symm
      have one : tenTo 0 = 1 := rfl
      simp only [Number.toDecimal, Decimal.ofInt, Decimal.ofDigitChars_wholeDigits, whole, one]
      omega
    · cases made
  · exact ⟨.decimal d, rfl, rfl⟩

inductive Spaced : List Char → Prop where
  | nothing : Spaced []
  | blank (rest : List Char) : Spaced (' ' :: rest)

theorem Spaced.wordEnds {tail : List Char} (spaced : Spaced tail) :
    Text.wordEndsBefore tail = true := by
  cases spaced with
  | nothing => rfl
  | blank rest =>
    have outside : Text.isWordChar ' ' = false := by decide +kernel
    simp [Text.wordEndsBefore, outside]

theorem digitsLength_append {digits : List Char} (rest : List Char)
    (plain : ∀ c ∈ digits, c.isDigit = true) (ends : digitsLength rest = 0) :
    digitsLength (digits ++ rest) = digits.length := by
  have all : ∀ c ∈ digits, Text.isDecimalDigit c = true :=
    fun c member => Text.isDecimalDigit_of_isDigit (plain c member)
  rw [digitsLength, List.takeWhile_append_of_pos all, List.length_append]
  exact congrArg _ ends

theorem numeralLength?_chars {d : Decimal} (positive : 0 ≤ d.coeff) {tail : List Char}
    (spaced : Spaced tail) : numeralLength? (d.chars ++ tail) = some d.chars.length := by
  have word := spaced.wordEnds
  have noDigit : digitsLength tail = 0 := by cases spaced <;> rfl
  have noFraction : fractionLength tail = 0 := by cases spaced <;> rfl
  have noExponent : exponentLength tail = 0 := by cases spaced <;> rfl
  have wholeDigits := List.length_pos_iff.mpr (Decimal.wholeDigits_ne_nil (d := d))
  by_cases whole : d.scale = 0
  · have count := digitsLength_append tail (fun c => Decimal.isDigit_of_mem_wholeDigits (d := d))
      noDigit
    rw [Decimal.chars_of_whole positive whole]
    simp only [numeralLength?, count, List.drop_left, noFraction, Nat.add_zero, noExponent]
    rw [if_neg (by omega)]
    simp [word]
  · have count := digitsLength_append ('.' :: (d.placeDigits ++ tail))
      (fun c => Decimal.isDigit_of_mem_wholeDigits (d := d)) rfl
    have places := digitsLength_append tail (fun c => Decimal.isDigit_of_mem_placeDigits (d := d))
      noDigit
    have some_place : d.placeDigits.length ≠ 0 := by rwa [Decimal.length_placeDigits whole]
    have fraction : fractionLength ('.' :: (d.placeDigits ++ tail)) = d.placeDigits.length + 1 := by
      rw [fractionLength, places, if_neg some_place]
    have behind : (d.wholeDigits ++ '.' :: (d.placeDigits ++ tail)).drop
        (d.wholeDigits.length + (d.placeDigits.length + 1)) = tail := by
      simp [List.drop_append]
    rw [Decimal.chars_of_places positive whole, List.append_assoc, List.cons_append]
    simp only [numeralLength?, count, List.drop_left, fraction, behind, noExponent, Nat.add_zero]
    rw [if_neg (by omega)]
    simp [behind, word]

end Lexicon

end Formulary
