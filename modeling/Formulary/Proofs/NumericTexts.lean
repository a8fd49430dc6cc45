import Formulary.Proofs.EqualNumbers

/-!
Texts that are numbers. They have the form of a numeral without an exponent, behind at most one
minus, and they are the number that this numeral stands for in an expression. The two readers take
the digits of all scripts for a numeral, and then count those of ASCII alone.
-/
namespace Formulary

open Lexicon

/-- Digits, or digits behind a point, perhaps with some before it. -/
inductive PlainNumeral (digit : Char → Bool) : List Char → Prop where
  | whole {digits : List Char} (some_digit : digits ≠ []) (plain : ∀ c ∈ digits, digit c = true) :
      PlainNumeral digit digits
  | point {whole places : List Char} (plain : ∀ c ∈ whole, digit c = true)
      (some_place : places ≠ []) (fraction : ∀ c ∈ places, digit c = true) :
      PlainNumeral digit (whole ++ '.' :: places)

namespace PlainNumeral

variable {digit digit' : Char → Bool} {numeral : List Char}

theorem digit_or_point (plain : PlainNumeral digit numeral) :
    ∀ c ∈ numeral, digit c = true ∨ c = '.' := by
  intro c member
  cases plain with
  | whole some_digit plain => exact .inl (plain c member)
  | point plain some_place fraction =>
    rw [List.mem_append, List.mem_cons] at member
    rcases member with before | point | behind
    · exact .inl (plain c before)
    · exact .inr point
    · exact .inl (fraction c behind)

theorem of_digits (plain : PlainNumeral digit numeral)
    (digits : ∀ c ∈ numeral, digit c = true → digit' c = true) : PlainNumeral digit' numeral := by
  cases plain with
  | whole some_digit plain =>
    refine .whole some_digit ?_
    intro c member
    exact digits c member (plain c member)
  | point plain some_place fraction =>
    refine .point ?_ some_place ?_
    · intro c member
      exact digits c (by simp [member]) (plain c member)
    · intro c member
      exact digits c (by simp [member]) (fraction c member)

theorem decimalDigits (plain : PlainNumeral Char.isDigit numeral) :
    PlainNumeral Text.isDecimalDigit numeral := by
  refine plain.of_digits ?_
  intro c member
  exact Text.isDecimalDigit_of_isDigit

theorem not_mem (plain : PlainNumeral digit numeral) {c : Char} (noDigit : digit c = false)
    (noPoint : c ≠ '.') : c ∉ numeral := by
  intro member
  rcases plain.digit_or_point c member with isDigit | point
  · rw [noDigit] at isDigit
    cases isDigit
  · exact noPoint point

end PlainNumeral

section

variable {numeral : List Char}

theorem isUnsignedNumeral_iff :
    isUnsignedNumeral numeral = true ↔ PlainNumeral Text.isDecimalDigit numeral := by
  constructor
  · intro accepted
    have digits : ∀ c ∈ numeral.takeWhile Text.isDecimalDigit, Text.isDecimalDigit c = true :=
      fun c member => List.mem_takeWhile_imp member
    have parts := List.takeWhile_append_dropWhile (p := Text.isDecimalDigit) (l := numeral)
    simp only [isUnsignedNumeral] at accepted
    split at accepted
    · next nothing =>
      rw [nothing, List.append_nil] at parts
      rw [parts] at accepted digits
      exact .whole (by simpa using accepted) digits
    · next places behind =>
      rw [behind] at parts
      rw [Bool.and_eq_true, List.all_eq_true] at accepted
      rw [← parts]
      exact .point digits (by simpa using accepted.1) accepted.2
    · cases accepted
  · intro plain
    cases plain with
    | whole some_digit plain =>
      have all := List.takeWhile_eq_self_iff.mpr plain
      have nothing := List.dropWhile_eq_nil_iff.mpr plain
      simp [isUnsignedNumeral, all, nothing, some_digit]
    | point plain some_place fraction =>
      have stop : Text.isDecimalDigit '.' = false := by decide
      simp [isUnsignedNumeral, List.dropWhile_append_of_pos plain, stop, some_place,
        List.all_eq_true.mpr fraction]

theorem PlainNumeral.unsigned (plain : PlainNumeral Text.isDecimalDigit numeral) :
    numeral.head? ≠ some '-' := by
  have outside : Text.isDecimalDigit '-' = false := by decide
  intro minus
  exact plain.not_mem outside (by decide) (List.mem_of_head? minus)

theorem isNumeral_of_unsigned (unsigned : numeral.head? ≠ some '-') :
    isNumeral numeral = isUnsignedNumeral numeral := by
  unfold isNumeral
  split
  · exact absurd rfl unsigned
  · rfl

theorem isNumeral_iff : isNumeral numeral = true ↔ PlainNumeral Text.isDecimalDigit numeral ∨
    ∃ behind, numeral = '-' :: behind ∧ PlainNumeral Text.isDecimalDigit behind := by
  constructor
  · intro accepted
    unfold isNumeral at accepted
    split at accepted
    · next behind => exact .inr ⟨behind, rfl, isUnsignedNumeral_iff.mp accepted⟩
    · exact .inl (isUnsignedNumeral_iff.mp accepted)
  · rintro (plain | ⟨behind, rfl, plain⟩)
    · rw [isNumeral_of_unsigned plain.unsigned]
      exact isUnsignedNumeral_iff.mpr plain
    · exact isUnsignedNumeral_iff.mpr plain

theorem padNumeral_of_unsigned (unsigned : numeral.head? ≠ some '-') :
    padNumeral numeral = if numeral.head? = some '.' then '0' :: numeral else numeral := by
  unfold padNumeral
  split
  · exact absurd rfl unsigned
  · rfl
  · next noPoint =>
    rw [if_neg]
    intro point
    obtain ⟨rest, rfl⟩ := List.head?_eq_some_iff.mp point
    exact noPoint rest rfl

theorem padNumeral_minus (unsigned : numeral.head? ≠ some '-') :
    padNumeral ('-' :: numeral) = '-' :: padNumeral numeral := by
  rw [padNumeral_of_unsigned unsigned]
  unfold padNumeral
  split
  · next same =>
    obtain ⟨-, rfl⟩ := List.cons.inj same
    rfl
  · next same => cases same
  · next noPoint _ =>
    rw [if_neg]
    intro point
    obtain ⟨rest, rfl⟩ := List.head?_eq_some_iff.mp point
    exact noPoint rest rfl

theorem padNumeral_of_digit {first : Char} {others : List Char} (digit : first.isDigit = true) :
    padNumeral (first :: others) = first :: others := by
  unfold padNumeral
  split
  · next same =>
    obtain ⟨rfl, -⟩ := List.cons.inj same
    cases digit
  · next same =>
    obtain ⟨rfl, -⟩ := List.cons.inj same
    cases digit
  · rfl

theorem unsigned_padNumeral (unsigned : numeral.head? ≠ some '-') :
    (padNumeral numeral).head? ≠ some '-' := by
  rw [padNumeral_of_unsigned unsigned]
  split
  · exact nofun
  · exact unsigned

/-! The digits that count -/

namespace Decimal

theorem isDigit_of_mapM {dropped : List Char} {digits : List Nat}
    (ascii : dropped.mapM Text.asciiDigit? = some digits) : ∀ c ∈ dropped, c.isDigit = true := by
  induction dropped generalizing digits with
  | nil => exact List.forall_mem_nil _
  | cons c dropped ih =>
    rw [List.mapM_cons] at ascii
    obtain ⟨first, isFirst, ascii⟩ := Option.bind_eq_some_iff.mp ascii
    obtain ⟨others, areOthers, -⟩ := Option.bind_eq_some_iff.mp ascii
    exact List.forall_mem_cons.mpr ⟨Text.isDigit_of_asciiDigit? isFirst, ih areOthers⟩

theorem isDigit_of_roundOff {read rounded : Decimal} {dropped : List Char}
    (rounds : roundOff read dropped = .ok rounded) : ∀ c ∈ dropped, c.isDigit = true := by
  unfold roundOff at rounds
  split at rounds
  · cases rounds
  · next digits ascii => exact isDigit_of_mapM ascii

theorem isDigit_or_point_of_readDigits {pointSeen : Bool} {read final : Decimal}
    {digits : List Char} (reads : readDigits pointSeen read digits = .ok final) :
    ∀ c ∈ digits, c.isDigit = true ∨ c = '.' := by
  induction digits generalizing pointSeen read with
  | nil => exact List.forall_mem_nil _
  | cons c digits ih =>
    unfold readDigits at reads
    split at reads
    · intro c member
      exact .inl (isDigit_of_roundOff reads c member)
    · split at reads
      · next digit isDigit =>
        split at reads
        · exact List.forall_mem_cons.mpr ⟨.inl (Text.isDigit_of_asciiDigit? isDigit), ih reads⟩
        · split at reads
          · intro c member
            exact .inl (isDigit_of_roundOff reads c member)
          · cases reads
      · split at reads
        · next point =>
          have isPoint : c = '.' ∧ pointSeen = false := by simpa using point
          exact List.forall_mem_cons.mpr ⟨.inr isPoint.1, ih reads⟩
        · cases reads

end Decimal

/-! What the readers make of them -/

namespace PlainNumeral

def decimal? (numeral : List Char) : Option Decimal :=
  (Decimal.readDigits false .zero (padNumeral numeral)).toOption

theorem mem_padNumeral {c : Char} (plain : PlainNumeral Text.isDecimalDigit numeral)
    (member : c ∈ numeral) : c ∈ padNumeral numeral := by
  rw [padNumeral_of_unsigned plain.unsigned]
  split
  · exact List.mem_cons_of_mem _ member
  · exact member

theorem of_decimal? {d : Decimal} (plain : PlainNumeral Text.isDecimalDigit numeral)
    (stands : decimal? numeral = some d) : PlainNumeral Char.isDigit numeral := by
  have stop : Text.isDecimalDigit '.' = false := by decide
  refine plain.of_digits ?_
  intro c member digit
  unfold decimal? at stands
  cases reads : Decimal.readDigits false .zero (padNumeral numeral) with
  | error e =>
    rw [reads] at stands
    cases stands
  | ok d =>
    rcases Decimal.isDigit_or_point_of_readDigits reads c (plain.mem_padNumeral member) with
      ascii | rfl
    · exact ascii
    · rw [stop] at digit
      cases digit

theorem ofText_plain {text : String} (plain : PlainNumeral Text.isDecimalDigit text.toList) :
    Number.ofText text = (decimal? text.toList).elim (.error (.notNumeric text)) fun d =>
      .ok (.decimal d) := by
  have accepted := isNumeral_iff.mpr (.inl plain)
  rw [Number.ofText, if_pos accepted,
    Decimal.ofNumeral_unsigned (unsigned_padNumeral plain.unsigned), decimal?]
  cases Decimal.readDigits false .zero (padNumeral text.toList) <;> rfl

theorem ofText_minus {text : String} (minus : text.toList = '-' :: numeral)
    (plain : PlainNumeral Text.isDecimalDigit numeral) :
    Number.ofText text = (decimal? numeral).elim (.error (.notNumeric text)) fun d =>
      .ok (.decimal d.neg) := by
  have accepted := isNumeral_iff.mpr (.inr ⟨numeral, rfl, plain⟩)
  rw [Number.ofText, minus, if_pos accepted, padNumeral_minus plain.unsigned, Decimal.ofNumeral,
    decimal?]
  cases Decimal.readDigits false .zero (padNumeral numeral) <;> rfl

theorem numeralValue_plain (plain : PlainNumeral Text.isDecimalDigit numeral) :
    Option.Rel (fun n d => n.toDecimal = d) (numeralValue numeral).toOption (decimal? numeral) := by
  have padded := padNumeral_of_unsigned plain.unsigned
  have noMark {c : Char} (outside : Text.isDecimalDigit c = false) (noPoint : c ≠ '.')
      (noZero : c ≠ '0') : c ∉ padNumeral numeral := by
    have absent := plain.not_mem outside noPoint
    rw [padded]
    split
    · exact List.not_mem_cons_of_ne_of_not_mem noZero absent
    · exact absent
  have reads : Decimal.ofScientific (padNumeral numeral) =
      Decimal.readDigits false .zero (padNumeral numeral) := by
    rw [Decimal.ofScientific_of_noMark (noMark (by decide) (by decide) (by decide))
      (noMark (by decide) (by decide) (by decide)),
      Decimal.ofNumeral_unsigned (unsigned_padNumeral plain.unsigned)]
  simp only [numeralValue, ← padded, reads, decimal?]
  split
  · next n isWhole =>
    obtain ⟨size, counted, made⟩ := Option.bind_eq_some_iff.mp isWhole
    unfold Number.ofInt? at made
    split at made
    · next fits =>
      obtain rfl := Option.some.inj made
      obtain ⟨-, plain, rfl⟩ := Decimal.natOfDigits?_eq_some_iff.mp counted
      rw [Decimal.readDigits_whole plain (d := (Number.integer _ fits).toDecimal) rfl rfl]
      exact .some rfl
    · cases made
  · cases Decimal.readDigits false .zero (padNumeral numeral) with
    | error e => exact .none
    | ok d => exact .some rfl

/-! With room for every digit -/

def coefficient (numeral : List Char) : Nat := Nat.ofDigitChars 10 (numeral.filter (· != '.')) 0

def places (numeral : List Char) : Nat := (numeral.dropWhile (· != '.')).tail.length

section

variable {digits whole fraction : List Char}

theorem not_point (plain : ∀ c ∈ digits, c.isDigit = true) : ∀ c ∈ digits, (c != '.') = true := by
  intro c member
  rw [bne_iff_ne]
  rintro rfl
  cases plain _ member

theorem coefficient_whole (plain : ∀ c ∈ digits, c.isDigit = true) :
    coefficient digits = Nat.ofDigitChars 10 digits 0 := by
  rw [coefficient, List.filter_eq_self.mpr (not_point plain)]

theorem coefficient_point (plain : ∀ c ∈ whole, c.isDigit = true)
    (plain' : ∀ c ∈ fraction, c.isDigit = true) : coefficient (whole ++ '.' :: fraction) =
      Nat.ofDigitChars 10 fraction (Nat.ofDigitChars 10 whole 0) := by
  have kept := List.filter_eq_self.mpr (not_point plain)
  have kept' := List.filter_eq_self.mpr (not_point plain')
  simp [coefficient, kept, kept', Nat.ofDigitChars_append]

theorem places_whole (plain : ∀ c ∈ digits, c.isDigit = true) : places digits = 0 := by
  rw [places, List.dropWhile_eq_nil_iff.mpr (not_point plain)]
  rfl

theorem places_point (plain : ∀ c ∈ whole, c.isDigit = true) :
    places (whole ++ '.' :: fraction) = fraction.length := by
  rw [places, List.dropWhile_append_of_pos (not_point plain)]
  rfl

end

theorem decimal?_of_room {d : Decimal} (plain : PlainNumeral Char.isDigit numeral)
    (digits : d.coeff = coefficient numeral) (scale : d.scale = places numeral) :
    decimal? numeral = some d := by
  cases plain with
  | whole some_digit plain =>
    obtain ⟨first, others, rfl⟩ := List.exists_cons_of_ne_nil some_digit
    rw [coefficient_whole plain] at digits
    rw [places_whole plain] at scale
    rw [decimal?, padNumeral_of_digit (plain first List.mem_cons_self),
      Decimal.readDigits_whole plain digits scale]
    rfl
  | @point whole fraction plain some_place fractionPlain =>
    rw [coefficient_point plain fractionPlain] at digits
    rw [places_point plain] at scale
    cases whole with
    | nil =>
      have zero : ∀ c ∈ ['0'], c.isDigit = true := by simp
      have pad : padNumeral ([] ++ '.' :: fraction) = ['0'] ++ '.' :: fraction := rfl
      rw [decimal?, pad, Decimal.readDigits_point zero fractionPlain digits scale]
      rfl
    | cons first others =>
      have pad : padNumeral (first :: others ++ '.' :: fraction) =
          first :: others ++ '.' :: fraction :=
        padNumeral_of_digit (plain first List.mem_cons_self)
      rw [decimal?, pad, Decimal.readDigits_point plain fractionPlain digits scale]
      rfl

end PlainNumeral

end

namespace Number

theorem plain_of_ofText {text : String} {n : Number} (spells : ofText text = .ok n) :
    PlainNumeral Char.isDigit text.toList ∨
      ∃ numeral, text.toList = '-' :: numeral ∧ PlainNumeral Char.isDigit numeral := by
  have accepted : isNumeral text.toList = true := by
    unfold ofText at spells
    split at spells
    · assumption
    · cases spells
  rcases isNumeral_iff.mp accepted with plain | ⟨numeral, minus, plain⟩
  · rw [plain.ofText_plain] at spells
    cases stands : PlainNumeral.decimal? text.toList with
    | none =>
      rw [stands] at spells
      cases spells
    | some d => exact .inl (plain.of_decimal? stands)
  · rw [plain.ofText_minus minus] at spells
    cases stands : PlainNumeral.decimal? numeral with
    | none =>
      rw [stands] at spells
      cases spells
    | some d => exact .inr ⟨numeral, minus, plain.of_decimal? stands⟩

open PlainNumeral in
/-- Only plain numerals behind at most one minus are numbers as texts. What such a numeral is as a
text it stands for in an expression, and a minus in front makes it its negative. With room for all
of its digits none is lost. -/
theorem texts_agree (text : String) :
    (∀ n, ofText text = .ok n → PlainNumeral Char.isDigit text.toList ∨
      ∃ numeral, text.toList = '-' :: numeral ∧ PlainNumeral Char.isDigit numeral) ∧
    (PlainNumeral Text.isDecimalDigit text.toList →
      Option.Rel (fun n m : Number => n.order m = .eq) (numeralValue text.toList).toOption
        (ofText text).toOption ∧
      (ofText ("-" ++ text)).toOption = (ofText text).toOption.map negate) ∧
    ∀ d : Decimal, PlainNumeral Char.isDigit text.toList → d.coeff = coefficient text.toList →
      d.scale = places text.toList → ofText text = .ok (.decimal d) := by
  refine ⟨fun n => plain_of_ofText, ?_, ?_⟩
  · intro plain
    have minus : ("-" ++ text).toList = '-' :: text.toList := by simp
    have found := plain.numeralValue_plain
    rw [plain.ofText_plain, plain.ofText_minus minus]
    generalize (numeralValue text.toList).toOption = value at found ⊢
    generalize decimal? text.toList = stands at found ⊢
    cases found with
    | none => exact ⟨.none, rfl⟩
    | some same =>
      refine ⟨.some ?_, rfl⟩
      rw [order_eq_iff, toRat, same]
      rfl
  · intro d plain digits scale
    rw [plain.decimalDigits.ofText_plain, plain.decimal?_of_room digits scale]
    rfl

/-- One half without a zero before the point, alone and behind a minus. -/
theorem texts_agree_half : PlainNumeral Char.isDigit ".5".toList ∧
    PlainNumeral Text.isDecimalDigit ".5".toList ∧
    ofText ".5" = .ok (.decimal ⟨5, 1, by decide, by decide⟩) ∧
    Option.Rel (fun n m : Number => n.order m = .eq) (numeralValue ".5".toList).toOption
      (ofText ".5").toOption ∧
    (ofText "-.5").toOption = some (.decimal ⟨-5, 1, by decide, by decide⟩) := by
  obtain ⟨accepted, agree, exact⟩ := texts_agree ".5"
  have plain : PlainNumeral Char.isDigit ".5".toList :=
    .point (List.forall_mem_nil _) (List.cons_ne_nil '5' []) (by decide)
  have half := exact ⟨5, 1, by decide, by decide⟩ plain rfl rfl
  have plain' : PlainNumeral Text.isDecimalDigit ".5".toList := plain.decimalDigits
  obtain ⟨same, negative⟩ := agree plain'
  refine ⟨?_, plain', half, same, ?_⟩
  · rcases accepted _ half with here | ⟨numeral, minus, -⟩
    · exact here
    · cases minus
  · rw [half] at negative
    exact negative

end Number

end Formulary
