import Formulary.Lexicon.Word
import Formulary.Text.DecimalDigit
import Formulary.Text.LowerCase

/-!
Words in lower case. They stay words. Apart from the letters `A` to `Z`, no character that changes
is a digit or a letter of a reserved word, nor does it become one.
-/
namespace Formulary.Text

/-- The characters of a list are looked at one by one, and never all the characters there are. -/
instance decidableForallMem {letters : List Char} {p : Char → Prop} [DecidablePred p] :
    Decidable (∀ c ∈ letters, p c) := List.decidableBAll p letters

instance decidableExistsMem {letters : List Char} {p : Char → Prop} [DecidablePred p] :
    Decidable (∃ c ∈ letters, p c) := List.decidableBEx p letters

/-! Ranges against ranges -/

def inside (ranges : List CodeRange) (least most : Nat) : Bool :=
  ranges.any fun range => Nat.ble range.1 least && Nat.ble most range.2

def outside (ranges : List CodeRange) (least most : Nat) : Bool :=
  ranges.all fun range => Nat.ble (range.2 + 1) least || Nat.ble (most + 1) range.1

section

variable {ranges : List CodeRange} {least most : Nat} {c : Char}

theorem inRanges_of_inside (within : inside ranges least most = true) (above : least ≤ c.toNat)
    (below : c.toNat ≤ most) : inRanges ranges c = true := by
  simp only [inside, List.any_eq_true, Bool.and_eq_true, Nat.ble_eq] at within
  obtain ⟨range, member, first, last⟩ := within
  exact (inRanges_iff ranges c).mpr ⟨range, member, by omega, by omega⟩

theorem not_inRanges_of_outside (apart : outside ranges least most = true)
    (above : least ≤ c.toNat) (below : c.toNat ≤ most) : inRanges ranges c = false := by
  simp only [outside, List.all_eq_true, Bool.or_eq_true, Nat.ble_eq] at apart
  rw [Bool.eq_false_iff, ne_eq, inRanges_iff]
  rintro ⟨range, member, first, last⟩
  have := apart range member
  omega

theorem inRanges_of_all_inside {others : List CodeRange}
    (within : others.all (fun range => inside ranges range.1 range.2) = true)
    (member : inRanges others c = true) : inRanges ranges c = true := by
  obtain ⟨range, here, above, below⟩ := (inRanges_iff others c).mp member
  exact inRanges_of_inside (List.all_eq_true.mp within range here) above below

theorem not_inRanges_of_all_outside {others : List CodeRange}
    (apart : others.all (fun range => outside ranges range.1 range.2) = true)
    (member : inRanges others c = true) : inRanges ranges c = false := by
  obtain ⟨range, here, above, below⟩ := (inRanges_iff others c).mp member
  exact not_inRanges_of_outside (List.all_eq_true.mp apart range here) above below

theorem isWordChar_of_isDecimalDigit (digit : isDecimalDigit c = true) : isWordChar c = true :=
  inRanges_of_all_inside (by decide +kernel) digit

theorem not_isWordChar_of_isBlank (blank : isBlank c = true) : isWordChar c = false :=
  not_inRanges_of_all_outside (by decide +kernel) blank

end

/-! Runs of code points -/

namespace CaseRun

/-- The run leads from characters of words to characters of words: to a stretch of them, from none,
    or one by one. -/
def keepsWords (run : CaseRun) : Bool :=
  inside wordRanges run.low run.high || outside wordRanges run.first run.last ||
    (List.range (run.last - run.first + 1)).all fun i =>
      let c := Char.ofNat (run.first + i)
      !run.covers c || !isWordChar c || isWordChar (run.image c)

end CaseRun

def reservedLetters : List Char := "acdefhlnorstuw".toList

/-- A character that words are made of, but neither numerals nor reserved words. -/
structure Plain (c : Char) : Prop where
  word : isWordChar c = true
  digit : isDecimalDigit c = false
  letter : ∀ letter ∈ reservedLetters, Lexicon.isFormOf letter c = false

section

variable {run : CaseRun} {c : Char}

theorem lowerRuns_words : lowerRuns.all CaseRun.keepsWords = true := by decide +kernel

theorem lowerRuns_digits : (lowerRuns.all fun run =>
    outside decimalDigitRanges run.first run.last &&
      outside decimalDigitRanges run.low run.high) = true := by decide +kernel

theorem lowerRuns_letters : ∀ run ∈ lowerRuns,
    (run.first = 0x41 ∧ run.last = 0x5A ∧ run.shift = 32) ∨
      128 ≤ run.first ∧ (run.last < 0x17F ∨ 0x17F < run.first) ∧
        (run.low = 0x6B ∧ run.high = 0x6B ∨
          128 ≤ run.low ∧ (run.high < 0x17F ∨ 0x17F < run.low)) := by decide +kernel

theorem isWordChar_recase (word : isWordChar c = true) :
    isWordChar (recase lowerRuns c) = true := by
  rcases recase_cases lowerRuns c with ⟨free, same⟩ | ⟨run, member, covers, same⟩
  · rwa [same]
  · rw [same]
    obtain ⟨_, low, high⟩ := toNat_image member covers
    obtain ⟨above, below, _⟩ := CaseRun.covers_iff.mp covers
    have keeps := List.all_eq_true.mp lowerRuns_words run member
    simp only [CaseRun.keepsWords, Bool.or_eq_true, List.all_eq_true, List.mem_range,
      Bool.not_eq_true'] at keeps
    rcases keeps with (within | apart) | each
    · exact inRanges_of_inside within low high
    · rw [isWordChar, not_inRanges_of_outside apart above below] at word
      cases word
    · have here := each (c.toNat - run.first) (by omega)
      rw [Nat.add_sub_cancel' above, Char.ofNat_toNat, covers, word] at here
      simpa using here

end

/-! Characters and texts -/

theorem Lowers.ne_nil {c : Char} {image : List Char} (lowers : Lowers c image) : image ≠ [] := by
  cases lowers <;> exact nofun

theorem Lowers.word {c : Char} {image : List Char} (lowers : Lowers c image)
    (word : isWordChar c = true) : ∀ m ∈ image, isWordChar m = true := by
  cases lowers with
  | sigma either =>
    intro m member
    rw [List.mem_singleton.mp member]
    rcases either with rfl | rfl <;> decide
  | dotted =>
    intro m member
    simp only [List.mem_cons, List.not_mem_nil, or_false] at member
    rcases member with rfl | rfl <;> decide
  | single =>
    intro m member
    rw [List.mem_singleton.mp member]
    exact isWordChar_recase word

theorem not_isFormOf {c letter : Char} (beyond : 128 ≤ c.toNat) (longS : c.toNat ≠ 0x17F)
    (reserved : letter ∈ reservedLetters) : Lexicon.isFormOf letter c = false := by
  have ascii : ∀ letter ∈ reservedLetters, letter.toNat < 128 ∧ letter ≠ 'k' := by decide
  obtain ⟨small, notK⟩ := ascii letter reserved
  have other : c ≠ letter := by rintro rfl; omega
  have notLongS : c ≠ 'ſ' := by rintro rfl; exact longS rfl
  have noCapital : ¬(c.val ≥ 'A'.val ∧ c.val ≤ 'Z'.val) := by
    rintro ⟨_, least⟩
    have : c.toNat ≤ 90 := UInt32.le_iff_toNat_le.mp least
    omega
  have stays : c.toLower = c := dif_neg noCapital
  simp [Lexicon.isFormOf, stays, other, notK, notLongS]

theorem isWordChar_of_isFormOf {c letter : Char} (reserved : letter ∈ reservedLetters)
    (form : Lexicon.isFormOf letter c = true) : isWordChar c = true := by
  by_cases beyond : 128 ≤ c.toNat
  · by_cases longS : c.toNat = 0x17F
    · obtain rfl : c = 'ſ' := Char.toNat_inj.mp longS
      decide +kernel
    · rw [not_isFormOf beyond longS reserved] at form
      cases form
  · have ascii : ∀ n < 128, ∀ letter ∈ reservedLetters,
        Lexicon.isFormOf letter (Char.ofNat n) = true → isWordChar (Char.ofNat n) = true := by
      decide +kernel
    have here := ascii c.toNat (by omega) letter reserved
    rw [Char.ofNat_toNat] at here
    exact here form

/-- The two characters are the same to numerals and reserved words. -/
structure Alike (c m : Char) : Prop where
  word : isWordChar c = isWordChar m
  digit : isDecimalDigit c = isDecimalDigit m
  point : c = '.' ↔ m = '.'
  letter : ∀ letter ∈ reservedLetters, Lexicon.isFormOf letter c = Lexicon.isFormOf letter m

theorem Alike.rfl {c : Char} : Alike c c := ⟨Eq.refl _, Eq.refl _, Iff.rfl, fun _ _ => Eq.refl _⟩

theorem alike_capitals : ∀ i < 26, let c := Char.ofNat (0x41 + i)
    let m := Char.ofNat (0x61 + i)
    isWordChar c = isWordChar m ∧ isDecimalDigit c = isDecimalDigit m ∧ (c = '.' ↔ m = '.') ∧
      ∀ letter ∈ reservedLetters, Lexicon.isFormOf letter c = Lexicon.isFormOf letter m := by
  decide +kernel

/-- To numerals and reserved words a character of a word is the same in lower case, or it ends them
    before and after. -/
theorem Lowers.cases_word {c : Char} {image : List Char} (lowers : Lowers c image)
    (word : isWordChar c = true) :
    (∃ m, image = [m] ∧ Alike c m) ∨ ∃ m others, image = m :: others ∧ Plain c ∧ Plain m := by
  cases lowers with
  | sigma either =>
    refine .inr ⟨_, [], rfl, ⟨word, by decide, by decide⟩, ?_⟩
    rcases either with rfl | rfl
    · exact ⟨by decide, by decide, by decide⟩
    · exact ⟨by decide, by decide, by decide⟩
  | dotted =>
    exact .inr ⟨_, _, rfl, ⟨word, by decide, by decide⟩,
      ⟨by decide, by decide, by decide⟩⟩
  | single =>
    rcases recase_cases lowerRuns c with ⟨_, same⟩ | ⟨run, here, covers, same⟩
    · exact .inl ⟨c, by rw [same], .rfl⟩
    · obtain ⟨code, low, high⟩ := toNat_image here covers
      obtain ⟨above, below, _⟩ := CaseRun.covers_iff.mp covers
      have digits := List.all_eq_true.mp lowerRuns_digits run here
      rw [Bool.and_eq_true] at digits
      have image_word := isWordChar_recase word
      rw [same] at image_word ⊢
      rcases lowerRuns_letters run here with ⟨first, last, shift⟩ | ⟨beyond, longS, where_to⟩
      · have capital : Char.ofNat (0x41 + (c.toNat - 0x41)) = c := by
          rw [Nat.add_sub_cancel' (by omega), Char.ofNat_toNat]
        have small : Char.ofNat (0x61 + (c.toNat - 0x41)) = run.image c := by
          rw [← Char.ofNat_toNat (run.image c)]
          congr 1
          omega
        have alike := alike_capitals (c.toNat - 0x41) (by omega)
        rw [capital, small] at alike
        exact .inl ⟨_, rfl, alike.1, alike.2.1, alike.2.2.1, alike.2.2.2⟩
      · refine .inr ⟨_, [], rfl, ⟨word, not_inRanges_of_outside digits.1 above below, fun letter =>
          not_isFormOf (by omega) (by omega)⟩, image_word,
          not_inRanges_of_outside digits.2 low high, fun letter reserved => ?_⟩
        rcases where_to with ⟨least, most⟩ | ⟨far, otherS⟩
        · have code : (run.image c).toNat = 'k'.toNat := by
            have : 'k'.toNat = 0x6B := by decide
            omega
          have noK : ∀ letter ∈ reservedLetters, Lexicon.isFormOf letter 'k' = false := by decide
          rw [Char.toNat_inj.mp code]
          exact noK letter reserved
        · exact not_isFormOf (by omega) (by omega) reserved

theorem Lowered.word {text low : List Char} (lowered : Lowered text low)
    (word : ∀ c ∈ text, isWordChar c = true) : ∀ c ∈ low, isWordChar c = true := by
  induction lowered with
  | nil => exact word
  | cons first others ih =>
    intro m member
    rcases List.mem_append.mp member with here | later
    · exact first.word (word _ List.mem_cons_self) m here
    · exact ih (fun c member => word c (List.mem_cons_of_mem _ member)) m later

theorem Lowered.point {text low : List Char} (lowered : Lowered text low) (point : '.' ∈ text) :
    '.' ∈ low := by
  induction lowered with
  | nil => exact point
  | cons first others ih =>
    rcases List.mem_cons.mp point with rfl | later
    · simp [first.of_small small_point]
    · exact List.mem_append_right _ (ih later)

theorem Lowered.append_inv {left right low : List Char} (lowered : Lowered (left ++ right) low) :
    ∃ lowLeft lowRight, low = lowLeft ++ lowRight ∧ Lowered left lowLeft ∧
      Lowered right lowRight := by
  induction left generalizing low with
  | nil => exact ⟨[], low, rfl, .nil, lowered⟩
  | cons c left ih =>
    cases lowered with
    | cons first others =>
      obtain ⟨lowLeft, lowRight, rfl, before, behind⟩ := ih others
      exact ⟨_, lowRight, (List.append_assoc _ _ _).symm, .cons first before, behind⟩

end Formulary.Text
