import Formulary.Proofs.ReservedWords

/-!
The letters `A` to `Z` beside `a` to `z`. No class of characters that a scanner looks at tells a
capital from its small letter, and so no reader of words, numerals or dates does.
-/
namespace Formulary

namespace Text

theorem toLower_cases (c : Char) : c.toLower = c ∨
    ∃ i < 26, c = Char.ofNat (0x41 + i) ∧ c.toLower = Char.ofNat (0x61 + i) := by
  by_cases capital : 65 ≤ c.toNat ∧ c.toNat ≤ 90
  · right
    have pairs : ∀ i < 26, (Char.ofNat (0x41 + i)).toLower = Char.ofNat (0x61 + i) := by decide
    have letter : Char.ofNat (0x41 + (c.toNat - 65)) = c := by
      rw [show 0x41 + (c.toNat - 65) = c.toNat by omega, Char.ofNat_toNat]
    have small := pairs (c.toNat - 65) (by omega)
    rw [letter] at small
    exact ⟨c.toNat - 65, by omega, letter.symm, small⟩
  · left
    have noCapital : ¬(c.val ≥ 'A'.val ∧ c.val ≤ 'Z'.val) := by
      rintro ⟨least, most⟩
      have : 65 ≤ c.toNat := UInt32.le_iff_toNat_le.mp least
      have : c.toNat ≤ 90 := UInt32.le_iff_toNat_le.mp most
      omega
    exact dif_neg noCapital

theorem apply_toLower {α : Type} {f : Char → α}
    (letters : ∀ i < 26, f (Char.ofNat (0x61 + i)) = f (Char.ofNat (0x41 + i))) (c : Char) :
    f c.toLower = f c := by
  rcases toLower_cases c with same | ⟨i, small, capital, lower⟩
  · rw [same]
  · rw [lower, capital]
    exact letters i small

/-- What scanners ask of a character, apart from the sign or letter that it is. -/
structure Look where
  blank : Bool
  word : Bool
  name : Bool
  decimalDigit : Bool
  digit : Option Nat
  cased : Bool
  caseIgnorable : Bool
  lower : List Char
  size : Nat
deriving DecidableEq

def look (c : Char) : Look where
  blank := isBlank c
  word := isWordChar c
  name := Lexicon.isNameChar c
  decimalDigit := isDecimalDigit c
  digit := asciiDigit? c
  cased := isCased c
  caseIgnorable := isCaseIgnorable c
  lower := lowerChar c
  size := c.utf8Size

theorem look_toLower (c : Char) : look c.toLower = look c := apply_toLower (by decide +kernel) c

theorem isBlank_toLower (c : Char) : isBlank c.toLower = isBlank c :=
  congrArg Look.blank (look_toLower c)

theorem isWordChar_toLower (c : Char) : isWordChar c.toLower = isWordChar c :=
  congrArg Look.word (look_toLower c)

theorem isNameChar_toLower (c : Char) : Lexicon.isNameChar c.toLower = Lexicon.isNameChar c :=
  congrArg Look.name (look_toLower c)

theorem isDecimalDigit_toLower (c : Char) : isDecimalDigit c.toLower = isDecimalDigit c :=
  congrArg Look.decimalDigit (look_toLower c)

theorem asciiDigit?_toLower (c : Char) : asciiDigit? c.toLower = asciiDigit? c :=
  congrArg Look.digit (look_toLower c)

theorem isCased_toLower (c : Char) : isCased c.toLower = isCased c :=
  congrArg Look.cased (look_toLower c)

theorem isCaseIgnorable_toLower (c : Char) : isCaseIgnorable c.toLower = isCaseIgnorable c :=
  congrArg Look.caseIgnorable (look_toLower c)

theorem lowerChar_toLower (c : Char) : lowerChar c.toLower = lowerChar c :=
  congrArg Look.lower (look_toLower c)

theorem utf8Size_toLower (c : Char) : c.toLower.utf8Size = c.utf8Size :=
  congrArg Look.size (look_toLower c)

theorem toLower_eq_iff (sign : Char) (plain : sign.isAlpha = false) (c : Char) :
    c.toLower = sign ↔ c = sign := by
  rcases toLower_cases c with same | ⟨i, small, capital, lower⟩
  · rw [same]
  · have letters : ∀ i < 26, (Char.ofNat (0x61 + i)).isAlpha = true ∧
        (Char.ofNat (0x41 + i)).isAlpha = true := by decide
    obtain ⟨first, second⟩ := letters i small
    rw [lower, capital]
    constructor
    · rintro rfl
      rw [first] at plain
      cases plain
    · rintro rfl
      rw [second] at plain
      cases plain

/-! Texts -/

section

variable {p : Char → Bool} {sign : List Char}

theorem map_toLower_toLower (text : List Char) :
    (text.map Char.toLower).map Char.toLower = text.map Char.toLower := by
  rw [List.map_map]
  exact List.map_congr_left fun c _ => apply_toLower (f := Char.toLower) (by decide) c

theorem takeWhile_toLower (same : ∀ c, p c.toLower = p c) (text : List Char) :
    (text.map Char.toLower).takeWhile p = (text.takeWhile p).map Char.toLower := by
  have alike : p ∘ Char.toLower = p := funext same
  rw [List.takeWhile_map, alike]

theorem dropWhile_toLower (same : ∀ c, p c.toLower = p c) (text : List Char) :
    (text.map Char.toLower).dropWhile p = (text.dropWhile p).map Char.toLower := by
  have alike : p ∘ Char.toLower = p := funext same
  rw [List.dropWhile_map, alike]

theorem head?_toLower (sign : Char) (plain : sign.isAlpha = false) (text : List Char) :
    (text.map Char.toLower).head? = some sign ↔ text.head? = some sign := by
  cases text with
  | nil => exact Iff.rfl
  | cons c rest =>
    simp only [List.map_cons, List.head?_cons, Option.some.injEq, toLower_eq_iff sign plain]

theorem map_toLower_eq_iff (plain : ∀ c ∈ sign, c.isAlpha = false) (text : List Char) :
    text.map Char.toLower = sign ↔ text = sign := by
  induction sign generalizing text with
  | nil => exact List.map_eq_nil_iff
  | cons first sign ih =>
    cases text with
    | nil => simp
    | cons c text =>
      have rest := ih (fun c member => plain c (List.mem_cons_of_mem _ member)) text
      simp only [List.map_cons, List.cons.injEq, rest,
        toLower_eq_iff first (plain first List.mem_cons_self) c]

theorem isPrefixOf_toLower (plain : ∀ c ∈ sign, c.isAlpha = false) (text : List Char) :
    sign.isPrefixOf (text.map Char.toLower) = sign.isPrefixOf text := by
  rw [Bool.eq_iff_iff, List.isPrefixOf_iff_prefix, List.isPrefixOf_iff_prefix,
    List.prefix_iff_eq_take, List.prefix_iff_eq_take, ← List.map_take, eq_comm,
    map_toLower_eq_iff plain, eq_comm]

theorem wordEndsBefore_toLower (text : List Char) :
    wordEndsBefore (text.map Char.toLower) = wordEndsBefore text := by
  cases text with
  | nil => rfl
  | cons c rest => simp only [List.map_cons, wordEndsBefore, isWordChar_toLower]

theorem trim_toLower (text : List Char) :
    trim (text.map Char.toLower) = (trim text).map Char.toLower := by
  simp only [trim, dropWhile_toLower isBlank_toLower, ← List.map_reverse]

theorem startsCased_toLower (text : List Char) :
    startsCased (text.map Char.toLower) = startsCased text := by
  simp only [startsCased, dropWhile_toLower isCaseIgnorable_toLower]
  cases text.dropWhile isCaseIgnorable with
  | nil => rfl
  | cons c rest => exact isCased_toLower c

/-- What becomes of a sigma hangs on the letters around it, but not on their case. -/
theorem lowerAfter_toLower (before text : List Char) :
    lowerAfter (before.map Char.toLower) (text.map Char.toLower) = lowerAfter before text := by
  induction text generalizing before with
  | nil => rfl
  | cons c rest ih =>
    have later := ih (c :: before)
    rw [List.map_cons] at later
    simp only [List.map_cons, lowerAfter, later, startsCased_toLower, lowerChar_toLower,
      toLower_eq_iff 'Σ' (by decide)]

theorem byteLength_toLower (text : List Char) :
    byteLength (text.map Char.toLower) = byteLength text := by
  induction text with
  | nil => rfl
  | cons c rest ih => simp only [List.map_cons, byteLength, utf8Size_toLower, ih]

theorem toList_toLower (text : String) : text.toLower.toList = text.toList.map Char.toLower :=
  String.toList_map

theorem toLower_ofList (text : List Char) :
    (String.ofList text).toLower = String.ofList (text.map Char.toLower) := by
  rw [← String.toList_inj, toList_toLower, String.toList_ofList, String.toList_ofList]

end

end Text

/-! Words, signs and numerals -/

namespace Lexicon

open Text

theorem isFormOf_toLower (letter : Char) (known : letter ∈ 'z' :: reservedLetters) (c : Char) :
    isFormOf letter c.toLower = isFormOf letter c := by
  have letters : ∀ letter ∈ 'z' :: reservedLetters, ∀ i < 26,
      isFormOf letter (Char.ofNat (0x61 + i)) = isFormOf letter (Char.ofNat (0x41 + i)) := by
    decide +kernel
  exact apply_toLower (letters letter known) c

theorem isFormOf_cases {letter c : Char} (small : letter.toLower = letter)
    (form : isFormOf letter c = true) : c.toLower = letter ∨ letter = 's' ∧ c = 'ſ' ∨
      letter = 'k' ∧ c = Char.ofNat 0x212A := by
  simp only [isFormOf, Bool.or_eq_true, Bool.and_eq_true, beq_iff_eq] at form
  rcases form with ((same | capital) | longS) | kelvin
  · subst same
    exact .inl small
  · exact .inl capital
  · exact .inr (.inl longS)
  · exact .inr (.inr kelvin)

theorem startsWithWord_toLower {word : List Char}
    (known : ∀ letter ∈ word, letter ∈ 'z' :: reservedLetters) (text : List Char) :
    startsWithWord word (text.map Char.toLower) = startsWithWord word text := by
  induction word generalizing text with
  | nil => rfl
  | cons letter word ih =>
    cases text with
    | nil => rfl
    | cons c text =>
      have rest := ih (fun c member => known c (List.mem_cons_of_mem _ member)) text
      simp only [List.map_cons, startsWithWord, rest,
        isFormOf_toLower letter (known letter List.mem_cons_self)]

theorem wordLength?_toLower {word : String}
    (known : ∀ letter ∈ word.toList, letter ∈ 'z' :: reservedLetters) (text : List Char) :
    wordLength? (text.map Char.toLower) word = wordLength? text word := by
  simp only [wordLength?, startsWithWord_toLower known, ← List.map_drop, wordEndsBefore_toLower]

theorem findSome?_wordLength?_toLower (words : List String)
    (known : ∀ word ∈ words, ∀ letter ∈ word.toList, letter ∈ 'z' :: reservedLetters)
    (text : List Char) :
    words.findSome? (wordLength? (text.map Char.toLower)) = words.findSome? (wordLength? text) := by
  induction words with
  | nil => rfl
  | cons word words ih =>
    have later := ih fun word member => known word (List.mem_cons_of_mem _ member)
    simp only [List.findSome?_cons, later, wordLength?_toLower (known word List.mem_cons_self)]

theorem signLength?_toLower {sign : String} (plain : ∀ c ∈ sign.toList, c.isAlpha = false)
    (text : List Char) : signLength? (text.map Char.toLower) sign = signLength? text sign := by
  simp only [signLength?, isPrefixOf_toLower plain]

theorem lookup_toLower {α : Type} {spellings : List (String × α)}
    (plain : ∀ spelling ∈ spellings, ∀ c ∈ spelling.1.toList, c.isAlpha = false)
    (lexeme : List Char) : spellings.lookup (String.ofList (lexeme.map Char.toLower)) =
      spellings.lookup (String.ofList lexeme) := by
  induction spellings with
  | nil => rfl
  | cons spelling spellings ih =>
    have later := ih fun spelling member => plain spelling (List.mem_cons_of_mem _ member)
    have same : (String.ofList (lexeme.map Char.toLower) == spelling.1) =
        (String.ofList lexeme == spelling.1) := by
      rw [Bool.eq_iff_iff, beq_iff_eq, beq_iff_eq, ← String.toList_inj, ← String.toList_inj,
        String.toList_ofList, String.toList_ofList,
        map_toLower_eq_iff (plain spelling List.mem_cons_self)]
    rw [List.lookup_cons, List.lookup_cons, same, later]

theorem digitsLength_toLower (text : List Char) :
    digitsLength (text.map Char.toLower) = digitsLength text := by
  simp only [digitsLength, takeWhile_toLower isDecimalDigit_toLower, List.length_map]

theorem fractionLength_toLower (text : List Char) :
    fractionLength (text.map Char.toLower) = fractionLength text := by
  cases text with
  | nil => rfl
  | cons c rest =>
    by_cases point : c = '.'
    · subst point
      exact if_congr (by rw [digitsLength_toLower]) rfl (by rw [digitsLength_toLower])
    · have other : c.toLower ≠ '.' := mt (toLower_eq_iff '.' (by decide) c).mp point
      rw [List.map_cons, fractionLength_cons_of_ne point, fractionLength_cons_of_ne other]

theorem exponentLength_toLower (text : List Char) :
    exponentLength (text.map Char.toLower) = exponentLength text := by
  cases text with
  | nil => rfl
  | cons mark rest =>
    simp only [List.map_cons, exponentLength, head?_toLower '+' (by decide),
      head?_toLower '-' (by decide), ← List.map_drop, digitsLength_toLower,
      isFormOf_toLower 'e' (by decide)]

theorem numeralLength?_toLower (text : List Char) :
    numeralLength? (text.map Char.toLower) = numeralLength? text := by
  simp only [numeralLength?, ← List.map_drop, digitsLength_toLower, fractionLength_toLower,
    exponentLength_toLower, wordEndsBefore_toLower]

end Lexicon

/-! Dates -/

namespace DateTimeLiteral

open Text

def lowerRest {α : Type} (read : α × List Char) : α × List Char :=
  (read.1, read.2.map Char.toLower)

theorem readDigits_toLower (least most : Nat) (text : List Char) :
    readDigits least most (text.map Char.toLower) = (readDigits least most text).map lowerRest := by
  have noCapital : ∀ i < 26, isDecimalDigit (Char.ofNat (0x41 + i)) = false := by decide +kernel
  have unchanged : ∀ c, isDecimalDigit c = true → c.toLower = c := by
    intro c digit
    rcases toLower_cases c with same | ⟨i, small, rfl, _⟩
    · exact same
    · rw [noCapital i small] at digit
      cases digit
  have same : ((text.take most).takeWhile isDecimalDigit).map Char.toLower =
      (text.take most).takeWhile isDecimalDigit := by
    rw [List.map_congr_left fun c member =>
      unchanged c (List.all_eq_true.mp List.all_takeWhile c member), List.map_id']
  simp only [readDigits, ← List.map_take, takeWhile_toLower isDecimalDigit_toLower, same]
  split
  · rfl
  · rw [← List.map_drop]
    rfl

theorem readSign_toLower (sign : Char) (plain : sign.isAlpha = false) (text : List Char) :
    readSign sign (text.map Char.toLower) = (readSign sign text).map (List.map Char.toLower) := by
  cases text with
  | nil => rfl
  | cons c rest =>
    simp only [List.map_cons, readSign, toLower_eq_iff sign plain]
    split
    · rfl
    · rfl

theorem readSign_getD_toLower (sign : Char) (plain : sign.isAlpha = false) (text : List Char) :
    (readSign sign (text.map Char.toLower)).getD (text.map Char.toLower) =
      ((readSign sign text).getD text).map Char.toLower := by
  rw [readSign_toLower sign plain, Option.getD_map]

theorem readTriple_toLower (sign : Char) (plain : sign.isAlpha = false) (least most : Nat)
    (text : List Char) : readTriple sign least most (text.map Char.toLower) =
      (readTriple sign least most text).map lowerRest := by
  simp only [readTriple, readDigits_toLower, readSign_toLower sign plain, lowerRest,
    Option.bind_eq_bind, Option.bind_map, Option.map_bind, Option.pure_def, Option.map_some,
    Function.comp_def]

theorem readTime_toLower (text : List Char) :
    readTime (text.map Char.toLower) = (readTime text).map lowerRest := by
  simp only [readTime, readSign_toLower ' ' (by decide), readTriple_toLower ':' (by decide),
    Option.bind_eq_bind, Option.bind_map, Option.map_bind, Function.comp_def]

theorem readOffset_toLower (text : List Char) :
    readOffset (text.map Char.toLower) = (readOffset text).map lowerRest := by
  simp only [readOffset, readDigits_toLower, readSign_getD_toLower ':' (by decide), lowerRest,
    Option.bind_eq_bind, Option.bind_map, Option.map_bind, Option.pure_def, Option.map_some,
    Function.comp_def]

theorem readZone_toLower (text : List Char) :
    readZone (text.map Char.toLower) = lowerRest (readZone text) := by
  cases text with
  | nil => rfl
  | cons c rest =>
    simp only [List.map_cons, readZone, Lexicon.isFormOf_toLower 'z' (by decide),
      toLower_eq_iff '+' (by decide), toLower_eq_iff '-' (by decide)]
    split
    · rfl
    · split
      · rw [readOffset_toLower]
        cases readOffset rest with
        | none => rfl
        | some found => rfl
      · rfl

theorem read_toLower (text : List Char) :
    read (text.map Char.toLower) = (read text).map lowerRest := by
  simp only [read, readTriple_toLower '-' (by decide), readTime_toLower, lowerRest,
    Option.bind_eq_bind, Option.bind_map, Option.map_bind, Option.pure_def, Option.map_some,
    Function.comp_def]
  congr 1
  funext found
  obtain ⟨⟨year, month, day⟩, rest⟩ := found
  cases readTime rest with
  | none => simp [readSign_getD_toLower ' ' (by decide), readZone_toLower, lowerRest]
  | some time => simp [readSign_getD_toLower ' ' (by decide), readZone_toLower, lowerRest]

end DateTimeLiteral

/-! Decimals -/

namespace Decimal

open Text

theorem natOfDigits?_toLower (digits : List Char) :
    natOfDigits? (digits.map Char.toLower) = natOfDigits? digits := by
  simp only [natOfDigits?, List.isEmpty_map, List.foldl_map, asciiDigit?_toLower]

theorem roundOff_toLower (start : Decimal) (dropped : List Char) :
    roundOff start (dropped.map Char.toLower) = roundOff start dropped := by
  simp only [roundOff, List.mapM_map, Function.comp_def, asciiDigit?_toLower]

theorem readDigits_toLower (pointSeen : Bool) (start : Decimal) (digits : List Char) :
    readDigits pointSeen start (digits.map Char.toLower) = readDigits pointSeen start digits := by
  induction digits generalizing pointSeen start with
  | nil => rfl
  | cons c rest ih =>
    have dropped := roundOff_toLower start (c :: rest)
    rw [List.map_cons] at dropped
    simp only [List.map_cons, readDigits, asciiDigit?_toLower, ih, dropped,
      toLower_eq_iff '.' (by decide)]

theorem ofNumeral_toLower (numeral : List Char) :
    ofNumeral (numeral.map Char.toLower) = ofNumeral numeral := by
  cases numeral with
  | nil => rfl
  | cons c rest =>
    by_cases minus : c = '-'
    · subst minus
      exact congrArg (Except.map neg) (readDigits_toLower false zero rest)
    · have other : c.toLower ≠ '-' := mt (toLower_eq_iff '-' (by decide) c).mp minus
      have digits := readDigits_toLower false zero (c :: rest)
      rw [List.map_cons] at digits ⊢
      simpa [ofNumeral, minus, other] using digits

theorem readExponent_toLower (digits : List Char) :
    readExponent (digits.map Char.toLower) = readExponent digits := by
  simp only [readExponent, natOfDigits?_toLower]

theorem shift_toLower (base : Decimal) (exponent : List Char) :
    base.shift (exponent.map Char.toLower) = base.shift exponent := by
  cases exponent with
  | nil => rfl
  | cons c rest =>
    by_cases minus : c = '-'
    · subst minus
      simp only [List.map_cons, shift, readExponent_toLower, show '-'.toLower = '-' from rfl]
    · have other : c.toLower ≠ '-' := mt (toLower_eq_iff '-' (by decide) c).mp minus
      have places : readExponent
          (if c = '+' then rest.map Char.toLower else c.toLower :: rest.map Char.toLower) =
            readExponent (if c = '+' then rest else c :: rest) := by
        split
        · exact readExponent_toLower rest
        · exact readExponent_toLower (c :: rest)
      simp [shift, minus, other, toLower_eq_iff '+' (by decide), places]

theorem ofScientific_toLower (numeral : List Char) :
    ofScientific (numeral.map Char.toLower) = ofScientific numeral := by
  have same : ∀ c : Char, (!(c.toLower == 'e' || c.toLower == 'E')) = !(c == 'e' || c == 'E') :=
    apply_toLower (f := fun c => !(c == 'e' || c == 'E')) (by decide)
  have before := takeWhile_toLower (p := fun c => !(c == 'e' || c == 'E')) same numeral
  have behind := dropWhile_toLower (p := fun c => !(c == 'e' || c == 'E')) same numeral
  simp only [ofScientific, before, behind, ofNumeral_toLower]
  cases numeral.dropWhile fun c => !(c == 'e' || c == 'E') with
  | nil => rfl
  | cons c exponent => simp only [List.map_cons, shift_toLower]

end Decimal

end Formulary
