import Formulary.Proofs.NumericTexts

/-!
Values as numbers. Operands and arguments are read in ways of their own: operands by way of a
decimal, which may be made narrow again, and arguments as they are if they are numbers. All the same
both are read alike, and as what they count as. A narrow number is not changed by being read again.
-/
namespace Formulary

open PlainNumeral (coefficient places)

/-! Narrow numbers -/

namespace Number

/-- An integer if a word holds the number, and a decimal if not. -/
def IsNarrow (n : Number) : Prop := n.isInteger = true ↔ ∃ i : Int, InWord i ∧ n.toRat = i

variable {n : Number}

theorem isNarrow_narrow (d : Decimal) : (decimal d).narrow.IsNarrow := by
  rw [IsNarrow, isInteger_narrow, toRat_narrow]

theorem IsNarrow.narrow (narrow : n.IsNarrow) : (decimal n.toDecimal).narrow = n := by
  cases n with
  | integer i fits => exact narrow_integer fits
  | decimal d =>
    rcases narrow_cases d with ⟨i, fits, whole, -⟩ | ⟨-, same⟩
    · exact absurd (narrow.mpr ⟨i, fits, whole⟩) Bool.false_ne_true
    · exact same

end Number

/-! Reading values -/

structure PlainNumeral.HeldBy (numeral : List Char) (d : Decimal) : Prop where
  plain : PlainNumeral Char.isDigit numeral
  digits : d.coeff = coefficient numeral
  scale : d.scale = places numeral

theorem PlainNumeral.HeldBy.decimal? {numeral : List Char} {d : Decimal} (held : HeldBy numeral d) :
    decimal? numeral = some d :=
  decimal?_of_room held.plain held.digits held.scale

namespace Value

/-- A number, or a text that spells one: digits that a decimal has room for, perhaps with a point,
    perhaps behind a minus. -/
inductive Counts : Value → ℚ → Prop
  | number (n : Number) : Counts (.number n) n.toRat
  | plain {text : String} {d : Decimal} (held : PlainNumeral.HeldBy text.toList d) :
      Counts (.text text) d.toRat
  | minus {text : String} {numeral : List Char} {d : Decimal} (spelt : text.toList = '-' :: numeral)
      (held : PlainNumeral.HeldBy numeral d) : Counts (.text text) (-d.toRat)

/-- What all ways to read a value have in common: they stand for one decimal, or refuse the
    value. -/
inductive Readings (v : Value) : Prop
  | taken {d : Decimal} {n : Number}
      (operand : ∀ operation preferInteger, v.coerce operation preferInteger =
        .ok (if preferInteger then (Number.decimal d).narrow else .decimal d))
      (argument : v.toNumber = .ok n) (same : n.toRat = d.toRat)
  | refused (operand : ∀ operation preferInteger, ∃ e,
        v.coerce operation preferInteger = .error e)
      (argument : ∃ e, v.toNumber = .error e)

theorem ofText_cases (text : String) : (∃ d, Number.ofText text = .ok (.decimal d)) ∨
    Number.ofText text = .error (.notNumeric text) := by
  unfold Number.ofText
  split
  · cases Decimal.ofNumeral (padNumeral text.toList) with
    | ok d => exact .inl ⟨d, rfl⟩
    | error e => exact .inr rfl
  · exact .inr rfl

theorem coerce_text (operation : Operation) (preferInteger : Bool) (text : String) :
    (Value.text text).coerce operation preferInteger =
      (Number.ofText text).map fun n => if preferInteger then n.narrow else n := by
  rw [coerce]
  cases Number.ofText text with
  | ok n => rfl
  | error e => rfl

variable {v : Value} {q : ℚ} {n : Number} {text : String} {e : FormulaError}
  {operation : Operation}

theorem toNumber_of_ofText {d : Decimal} (spells : Number.ofText text = .ok (.decimal d)) :
    ∃ n, (Value.text text).toNumber = .ok n ∧ n.toRat = d.toRat := by
  refine ⟨(Number.decimal d).narrow, ?_, Number.toRat_narrow d⟩
  rw [toNumber, spells]
  rfl

theorem readings (v : Value) : v.Readings := by
  cases v with
  | number n => exact .taken (fun _ _ => rfl) rfl rfl
  | text text =>
    -- both readers ask for the same decimal, or fail with it
    rcases ofText_cases text with ⟨d, spells⟩ | refused
    · obtain ⟨n, argument, same⟩ := toNumber_of_ofText spells
      refine .taken (d := d) ?_ argument same
      intro operation preferInteger
      rw [coerce_text, spells]
      rfl
    · refine .refused ?_ ?_
      · intro operation preferInteger
        rw [coerce_text, refused]
        exact ⟨_, rfl⟩
      · rw [toNumber, refused]
        exact ⟨_, rfl⟩
  | logical b => exact .refused (fun _ _ => ⟨_, rfl⟩) ⟨_, rfl⟩
  | dateTime t => exact .refused (fun _ _ => ⟨_, rfl⟩) ⟨_, rfl⟩
  | list items => exact .refused (fun _ _ => ⟨_, rfl⟩) ⟨_, rfl⟩
  | null => exact .refused (fun _ _ => ⟨_, rfl⟩) ⟨_, rfl⟩

namespace Readings

theorem agree (readings : v.Readings) (preferInteger : Bool) :
    Option.Rel (fun n m => n.order m = .eq) (v.coerce operation preferInteger).toOption
      v.toNumber.toOption := by
  cases readings with
  | @taken d n operand argument same =>
    have value : (if preferInteger then (Number.decimal d).narrow else .decimal d).toRat =
        d.toRat := by
      cases preferInteger with
      | true => exact Number.toRat_narrow d
      | false => rfl
    rw [operand, argument]
    refine .some ?_
    rw [Number.order_eq_iff, value, same]
  | refused operand argument =>
    obtain ⟨e, operand⟩ := operand operation preferInteger
    obtain ⟨e', argument⟩ := argument
    rw [operand, argument]
    exact .none

theorem isNarrow (readings : v.Readings) (taken : v.coerce operation true = .ok n) :
    n.IsNarrow := by
  cases readings with
  | @taken d m operand argument same =>
    rw [operand] at taken
    cases taken
    exact Number.isNarrow_narrow d
  | refused operand argument =>
    obtain ⟨e, refused⟩ := operand operation true
    rw [refused] at taken
    cases taken

end Readings

theorem coerce_of_isNarrow (narrow : n.IsNarrow) (operation : Operation) :
    (Value.number n).coerce operation true = .ok n :=
  congrArg Except.ok narrow.narrow

theorem Counts.toNumber (counts : v.Counts q) : ∃ n, v.toNumber = .ok n ∧ n.toRat = q := by
  cases counts with
  | number n => exact ⟨n, rfl, rfl⟩
  | plain held =>
    refine toNumber_of_ofText ?_
    rw [held.plain.decimalDigits.ofText_plain, held.decimal?]
    rfl
  | minus spelt held =>
    rw [← Decimal.toRat_neg]
    refine toNumber_of_ofText ?_
    rw [held.plain.decimalDigits.ofText_minus spelt, held.decimal?]
    rfl

theorem refused_text (refused : (Value.text text).toNumber = .error e) :
    e = .notNumeric text ∧ ∀ preferInteger, (Value.text text).coerce operation preferInteger =
      .error e := by
  rcases ofText_cases text with ⟨d, spells⟩ | noNumber
  · obtain ⟨n, taken, -⟩ := toNumber_of_ofText spells
    rw [refused] at taken
    cases taken
  · rw [toNumber, noNumber] at refused
    cases refused
    refine ⟨rfl, fun preferInteger => ?_⟩
    rw [coerce_text, noNumber]
    rfl

/-- Operands and arguments are the same values, read as equal numbers, and a text that is none is
    refused with the same error. What a value counts as is kept. An operand that is to be an integer
    is one exactly if a word holds the number, and is not changed by reading it again. -/
theorem readings_agree (operation : Operation) (v : Value) :
    (∀ preferInteger, Option.Rel (fun n m => n.order m = .eq)
      (v.coerce operation preferInteger).toOption v.toNumber.toOption) ∧
    (∀ q, v.Counts q → ∃ n, v.toNumber = .ok n ∧ n.toRat = q) ∧
    (∀ text e, v = .text text → v.toNumber = .error e → e = .notNumeric text ∧
      ∀ preferInteger, v.coerce operation preferInteger = .error e) ∧
    ∀ n, v.coerce operation true = .ok n →
      (n.isInteger = true ↔ ∃ i : Int, InWord i ∧ n.toRat = i) ∧
      ∀ again, (Value.number n).coerce again true = .ok n := by
  refine ⟨v.readings.agree, fun q => Counts.toNumber, ?_, ?_⟩
  · rintro text e rfl refused
    exact refused_text refused
  · intro n taken
    have narrow := v.readings.isNarrow taken
    exact ⟨narrow, coerce_of_isNarrow narrow⟩

/-- The least integer of a word, spelt with a place behind the point, and a text with an
    exponent. -/
theorem readings_agree_least :
    let least : Value := .text "-9223372036854775808.0"
    let integer : Number := .integer (-0x8000000000000000) (by decide)
    least.Counts (-0x8000000000000000) ∧
      least.coerce .negation true = .ok integer ∧
      (∃ n, least.toNumber = .ok n ∧ n.toRat = -0x8000000000000000) ∧
      (integer.isInteger = true ↔ ∃ i : Int, InWord i ∧ integer.toRat = i) ∧
      (Value.number integer).coerce .negation true = .ok integer ∧
      (Value.text "1e3").toNumber = .error (.notNumeric "1e3") ∧
      (Value.text "1e3").coerce .negation false = .error (.notNumeric "1e3") := by
  intro least integer
  have counts : least.Counts (-0x8000000000000000) := by
    let d : Decimal := ⟨92233720368547758080, 1, by decide, by decide⟩
    have digits : PlainNumeral Char.isDigit ("9223372036854775808".toList ++ '.' :: ['0']) :=
      .point (by decide) (List.cons_ne_nil _ _) (by decide)
    have held : PlainNumeral.HeldBy "9223372036854775808.0".toList d :=
      ⟨digits, by decide +kernel, by decide +kernel⟩
    have whole : d.toRat = (0x8000000000000000 : Int) :=
      (d.toRat_eq_intCast_iff _).mpr (by decide)
    have spelt : least.Counts (-d.toRat) := .minus rfl held
    rwa [whole, Int.cast_ofNat] at spelt
  have taken : least.coerce .negation true = .ok integer := by decide +kernel
  have refused : (Value.text "1e3").toNumber = .error (.notNumeric "1e3") := by decide +kernel
  obtain ⟨-, kept, -, narrow⟩ := readings_agree .negation least
  obtain ⟨isInteger, again⟩ := narrow integer taken
  obtain ⟨-, -, alike, -⟩ := readings_agree .negation (.text "1e3")
  exact ⟨counts, taken, kept _ counts, isInteger, again .negation, refused,
    (alike "1e3" _ rfl refused).2 false⟩

end Value

end Formulary
