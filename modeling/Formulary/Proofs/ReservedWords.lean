import Formulary.Proofs.Lexemes
import Formulary.Proofs.LowerCase

/-!
Names beside literals and reserved words. A name is none of these; in lower case, and with nothing
but a blank behind it, it is none of them either. Its lower case agrees with it in all that the
scanners of literals and reserved words look at.
-/
namespace Formulary.Lexicon

/-- Nothing stands here that could prolong a word or a numeral. -/
structure Stops (text : List Char) : Prop where
  word : Text.wordEndsBefore text = true
  fraction : fractionLength text = 0

/-- Neither could it be the sign of an exponent, or join the parts of a date. -/
structure Parted (text : List Char) : Prop extends Stops text where
  plus : text.head? ≠ some '+'
  minus : text.head? ≠ some '-'

/-- The texts agree in all that decides whether a literal or a reserved word stands in front. They
    need not agree behind a character that neither contains. -/
inductive Agree : List Char → List Char → Prop where
  | stop {left right : List Char} (stops : Stops left) (parted : Parted right) : Agree left right
  | alike {c m : Char} {left right : List Char} (same : Text.Alike c m)
      (name : isNameChar c = true) (others : Agree left right) : Agree (c :: left) (m :: right)
  | plain {c m : Char} {left right : List Char} (here : Text.Plain c) (there : Text.Plain m) :
      Agree (c :: left) (m :: right)

section

variable {text rest left right : List Char} {c m : Char}

theorem digitsLength_cons (digit : Text.isDecimalDigit c = true) :
    digitsLength (c :: text) = digitsLength text + 1 := by
  simp [digitsLength, digit]

theorem digitsLength_cons_of_not (digit : Text.isDecimalDigit c = false) :
    digitsLength (c :: text) = 0 := by
  simp [digitsLength, digit]

theorem digitsLength_of_wordEnds (ends : Text.wordEndsBefore text = true) :
    digitsLength text = 0 := by
  cases text with
  | nil => rfl
  | cons c text =>
    refine digitsLength_cons_of_not (Bool.eq_false_iff.mpr fun digit => ?_)
    simp [Text.wordEndsBefore, Text.isWordChar_of_isDecimalDigit digit] at ends

theorem fractionLength_cons_of_ne (other : c ≠ '.') : fractionLength (c :: text) = 0 := by
  unfold fractionLength
  split
  · next same => exact absurd (List.cons.inj same).1 other
  · rfl

theorem not_isWordChar_point : Text.isWordChar '.' = false := by decide +kernel

theorem isWordChar_of_isNameChar (name : isNameChar c = true) :
    c = '.' ∨ Text.isWordChar c = true := by
  simp only [isNameChar, Bool.or_eq_true, beq_iff_eq] at name
  exact name.symm

theorem isNameChar_of_isWordChar (word : Text.isWordChar c = true) : isNameChar c = true := by
  simp [isNameChar, word]

theorem isNameChar_of_alike (same : Text.Alike c m) (name : isNameChar c = true) :
    isNameChar m = true := by
  rcases isWordChar_of_isNameChar name with rfl | word
  · rw [same.point.mp rfl]
    exact name
  · exact isNameChar_of_isWordChar (same.word ▸ word)

theorem not_isNameChar_sign (sign : c = '+' ∨ c = '-') : isNameChar c = false := by
  rcases sign with rfl | rfl <;> decide +kernel

namespace Agree

theorem of_lowered {low tail : List Char} (lowered : Text.Lowered text low)
    (names : ∀ c ∈ text, isNameChar c = true) (stops : Stops rest) (parted : Parted tail) :
    Agree (text ++ rest) (low ++ tail) := by
  induction lowered with
  | nil => exact .stop stops parted
  | @cons c image text low first others ih =>
    have later := ih fun c member => names c (List.mem_cons_of_mem _ member)
    have name := names c List.mem_cons_self
    rcases isWordChar_of_isNameChar name with rfl | word
    · rw [first.of_small Text.small_point]
      exact .alike .rfl name later
    · rcases first.cases_word word with ⟨m, rfl, same⟩ | ⟨m, others, rfl, here, there⟩
      · exact .alike same name later
      · exact .plain here there

theorem wordEnds (agree : Agree left right) :
    Text.wordEndsBefore left = Text.wordEndsBefore right := by
  cases agree with
  | stop stops parted => rw [stops.word, parted.word]
  | alike same => simp [Text.wordEndsBefore, same.word]
  | plain here there => simp [Text.wordEndsBefore, here.word, there.word]

theorem unsigned (agree : Agree left right) :
    ¬(right.head? = some '+' ∨ right.head? = some '-') := by
  have noSign {m : Char} {text : List Char} (name : isNameChar m = true) :
      ¬((m :: text).head? = some '+' ∨ (m :: text).head? = some '-') := by
    simp only [List.head?_cons, Option.some.injEq]
    intro sign
    rw [not_isNameChar_sign sign] at name
    cases name
  cases agree with
  | stop stops parted => exact fun sign => sign.elim parted.plus parted.minus
  | alike same name => exact noSign (isNameChar_of_alike same name)
  | plain here there => exact noSign (isNameChar_of_isWordChar there.word)

theorem digits (agree : Agree left right) : digitsLength left = digitsLength right ∧
    Agree (left.drop (digitsLength right)) (right.drop (digitsLength right)) := by
  induction agree with
  | stop stops parted =>
    rw [digitsLength_of_wordEnds stops.word, digitsLength_of_wordEnds parted.word]
    exact ⟨rfl, .stop stops parted⟩
  | @alike c m left right same name others ih =>
    cases isDigit : Text.isDecimalDigit m with
    | true =>
      rw [digitsLength_cons isDigit, digitsLength_cons (same.digit.trans isDigit), ih.1]
      exact ⟨rfl, ih.2⟩
    | false =>
      rw [digitsLength_cons_of_not isDigit, digitsLength_cons_of_not (same.digit.trans isDigit)]
      exact ⟨rfl, .alike same name others⟩
  | plain here there =>
    rw [digitsLength_cons_of_not here.digit, digitsLength_cons_of_not there.digit]
    exact ⟨rfl, .plain here there⟩

theorem fraction (agree : Agree left right) : fractionLength left = fractionLength right ∧
    Agree (left.drop (fractionLength right)) (right.drop (fractionLength right)) := by
  cases agree with
  | stop stops parted =>
    rw [stops.fraction, parted.fraction]
    exact ⟨rfl, .stop stops parted⟩
  | @alike c m left right same name others =>
    by_cases point : c = '.'
    · obtain rfl := point
      obtain rfl := same.point.mp rfl
      obtain ⟨digits, behind⟩ := others.digits
      refine ⟨by simp only [fractionLength, digits], ?_⟩
      simp only [fractionLength]
      split
      · exact .alike same name others
      · exact behind
    · rw [fractionLength_cons_of_ne point, fractionLength_cons_of_ne (point ∘ same.point.mpr)]
      exact ⟨rfl, .alike same name others⟩
  | plain here there =>
    have noPoint {c : Char} (plain : Text.Plain c) : c ≠ '.' := by
      rintro rfl
      exact absurd plain.word (by simp [not_isWordChar_point])
    rw [fractionLength_cons_of_ne (noPoint here), fractionLength_cons_of_ne (noPoint there)]
    exact ⟨rfl, .plain here there⟩

theorem exponentLength_cons {mark : Char}
    (unsigned : ¬(rest.head? = some '+' ∨ rest.head? = some '-')) :
    exponentLength (mark :: rest) =
      if isFormOf 'e' mark = true ∧ digitsLength rest ≠ 0 then digitsLength rest + 1 else 0 := by
  simp only [exponentLength, if_neg unsigned, List.drop_zero, Nat.add_comm 1]

theorem exponent (agree : Agree left right) : exponentLength right = 0 ∨
    exponentLength left = exponentLength right ∧
      Agree (left.drop (exponentLength right)) (right.drop (exponentLength right)) := by
  have reserved : 'e' ∈ Text.reservedLetters := by decide
  cases agree with
  | @stop left right stops parted =>
    left
    cases right with
    | nil => rfl
    | cons mark right =>
      have noMark : isFormOf 'e' mark ≠ true := by
        intro form
        have ends := parted.word
        simp [Text.wordEndsBefore, Text.isWordChar_of_isFormOf reserved form] at ends
      exact if_neg fun mark => noMark mark.1
  | @alike c m left right same name others =>
    rw [exponentLength_cons others.unsigned]
    split
    · next exponent =>
      obtain ⟨digits, behind⟩ := others.digits
      have unsigned : ¬(left.head? = some '+' ∨ left.head? = some '-') := by
        intro sign
        have noDigit : digitsLength left = 0 := by
          cases left with
          | nil => rfl
          | cons c left =>
            simp only [List.head?_cons, Option.some.injEq] at sign
            refine digitsLength_of_wordEnds ?_
            have noName := not_isNameChar_sign sign
            simp only [isNameChar, Bool.or_eq_false_iff] at noName
            simp [Text.wordEndsBefore, noName.1]
        exact exponent.2 (digits ▸ noDigit)
      rw [exponentLength_cons unsigned, same.letter 'e' reserved, digits, if_pos exponent]
      exact .inr ⟨rfl, behind⟩
    · exact .inl rfl
  | plain here there =>
    exact .inl (if_neg fun mark => by simp [there.letter 'e' reserved] at mark)

theorem numeral (agree : Agree left right) (unread : numeralLength? left = none) :
    numeralLength? right = none := by
  obtain ⟨whole, behindWhole⟩ := agree.digits
  obtain ⟨fraction, behindFraction⟩ := behindWhole.fraction
  rw [List.drop_drop, List.drop_drop] at behindFraction
  simp only [numeralLength?, whole, fraction] at unread ⊢
  split at unread
  · next nothing => rw [if_pos nothing]
  · next something =>
    rw [if_neg something]
    simp only [List.find?_eq_none, List.mem_append, List.mem_cons, List.not_mem_nil, or_false]
      at unread ⊢
    have ends {n : Nat} (agree : Agree (left.drop n) (right.drop n))
        (unread : ¬Text.wordEndsBefore (left.drop n) = true) :
        ¬Text.wordEndsBefore (right.drop n) = true := agree.wordEnds ▸ unread
    rintro n ((rfl | rfl) | short)
    · rcases behindFraction.exponent with none | ⟨exponent, behind⟩
      · rw [none, Nat.add_zero]
        exact ends behindFraction (unread _ (.inl (.inr rfl)))
      · rw [List.drop_drop, List.drop_drop] at behind
        exact ends behind (exponent ▸ unread _ (.inl (.inl rfl)))
    · exact ends behindFraction (unread _ (.inl (.inr rfl)))
    · have unread := unread n (.inr short)
      split at short
      · cases short
      · obtain rfl := List.mem_singleton.mp short
        exact ends behindWhole unread

theorem startsWithWord {word : List Char} (reserved : ∀ c ∈ word, c ∈ Text.reservedLetters)
    (agree : Agree left right) (starts : Lexicon.startsWithWord word right = true) :
    Lexicon.startsWithWord word left = true ∧
      Agree (left.drop word.length) (right.drop word.length) := by
  induction word generalizing left right with
  | nil => exact ⟨rfl, agree⟩
  | cons letter word ih =>
    have isLetter := reserved letter List.mem_cons_self
    cases agree with
    | stop stops parted =>
      cases right with
      | nil => cases starts
      | cons m right =>
        simp only [Lexicon.startsWithWord, Bool.and_eq_true] at starts
        have ends := parted.word
        simp [Text.wordEndsBefore, Text.isWordChar_of_isFormOf isLetter starts.1] at ends
    | alike same name others =>
      simp only [Lexicon.startsWithWord, Bool.and_eq_true] at starts ⊢
      obtain ⟨later, behind⟩ := ih (fun c member => reserved c (List.mem_cons_of_mem _ member))
        others starts.2
      exact ⟨⟨(same.letter letter isLetter).trans starts.1, later⟩, behind⟩
    | plain here there =>
      simp [Lexicon.startsWithWord, there.letter letter isLetter] at starts

theorem wordLength? {word : String} (reserved : ∀ c ∈ word.toList, c ∈ Text.reservedLetters)
    (agree : Agree left right) (unread : Lexicon.wordLength? left word = none) :
    Lexicon.wordLength? right word = none := by
  simp only [Lexicon.wordLength?, ite_eq_right_iff, reduceCtorEq, imp_false, Bool.and_eq_true,
    not_and] at unread ⊢
  intro starts
  obtain ⟨before, behind⟩ := agree.startsWithWord reserved starts
  rw [← behind.wordEnds]
  exact unread before

end Agree

/-! Literals and reserved words -/

theorem digitsLength_le_append (front back : List Char) :
    digitsLength front ≤ digitsLength (front ++ back) := by
  rw [digitsLength, digitsLength, List.takeWhile_append]
  split
  · rw [List.length_append]
    exact Nat.le_add_right_of_le (List.takeWhile_prefix _).length_le
  · exact Nat.le_refl _

theorem readTriple_eq_none (noSign : ∀ n ≤ digitsLength text, (text.drop n).head? ≠ some '-') :
    DateTimeLiteral.readTriple '-' 4 4 text = none := by
  unfold DateTimeLiteral.readTriple
  cases digits : DateTimeLiteral.readDigits 4 4 text with
  | none => rfl
  | some found =>
    obtain ⟨first, others⟩ := found
    simp only [DateTimeLiteral.readDigits] at digits
    split at digits
    · cases digits
    · cases digits
      have shorter : ((text.take 4).takeWhile Text.isDecimalDigit).length ≤ digitsLength text := by
        have longer := digitsLength_le_append (text.take 4) (text.drop 4)
        rwa [List.take_append_drop] at longer
      have noSign := noSign _ shorter
      have unsigned : DateTimeLiteral.readSign '-'
          (text.drop ((text.take 4).takeWhile Text.isDecimalDigit).length) = none := by
        unfold DateTimeLiteral.readSign
        split
        · rfl
        · next here => exact if_neg fun same => noSign (by rw [here, same]; rfl)
      simp [unsigned]

theorem dateTime_recognize_eq_none {tail : List Char} (noMinus : '-' ∉ text)
    (parted : Parted tail) : dateTime.recognize (text ++ tail) = none := by
  have within : digitsLength (text ++ tail) ≤ text.length := by
    have none := digitsLength_of_wordEnds parted.word
    rw [digitsLength] at none
    rw [digitsLength, List.takeWhile_append]
    split
    · exact Nat.le_of_eq (by rw [List.length_append, none, Nat.add_zero])
    · exact (List.takeWhile_prefix _).length_le
  have triple : DateTimeLiteral.readTriple '-' 4 4 (text ++ tail) = none := by
    refine readTriple_eq_none fun n shorter => ?_
    rw [List.drop_append_of_le_length (Nat.le_trans shorter within)]
    cases part : text.drop n with
    | nil => exact parted.minus
    | cons c others =>
      rintro ⟨⟩
      exact noMinus (List.mem_of_mem_drop (i := n) (part ▸ List.mem_cons_self))
  simp [dateTime, DateTimeLiteral.read, triple]

theorem isNameChar_of_lowered {low : List Char} (lowered : Text.Lowered text low)
    (names : ∀ c ∈ text, isNameChar c = true) : ∀ c ∈ low, isNameChar c = true := by
  induction lowered with
  | nil => exact names
  | @cons c image text low first others ih =>
    intro m member
    rcases List.mem_append.mp member with here | later
    · rcases isWordChar_of_isNameChar (names c List.mem_cons_self) with rfl | word
      · rw [first.of_small Text.small_point, List.mem_singleton] at here
        exact here ▸ names '.' List.mem_cons_self
      · exact isNameChar_of_isWordChar (first.word word m here)
    · exact ih (fun c member => names c (List.mem_cons_of_mem _ member)) m later

theorem caseStatement_recognize (text : List Char) : caseStatement.recognize text =
    (caseWords.map Prod.fst).findSome? (wordLength? text) := by
  rw [List.findSome?_map]
  rfl

/-- In lower case a name is no more a literal or a reserved word than it was before. -/
theorem Unreserved.lowered {low tail : List Char} (unreserved : Unreserved (text ++ rest))
    (lowered : Text.Lowered text low) (names : ∀ c ∈ text, isNameChar c = true)
    (stops : Stops rest) (parted : Parted tail) : Unreserved (low ++ tail) := by
  have agree := Agree.of_lowered lowered names stops parted
  have noMinus : '-' ∉ low := fun member => by
    have name := isNameChar_of_lowered lowered names '-' member
    rw [not_isNameChar_sign (.inr rfl)] at name
    cases name
  have noWord {words : List String}
      (reserved : ∀ word ∈ words, ∀ c ∈ word.toList, c ∈ Text.reservedLetters)
      (unread : words.findSome? (wordLength? (text ++ rest)) = none) :
      words.findSome? (wordLength? (low ++ tail)) = none := by
    rw [List.findSome?_eq_none_iff] at unread ⊢
    exact fun word member => agree.wordLength? (reserved word member) (unread word member)
  simp only [Unreserved, List.forall_mem_cons, List.not_mem_nil, false_imp_iff, implies_true,
    and_true] at unreserved ⊢
  obtain ⟨noNull, _, noNumeral, noCase, noJunction, noTruth⟩ := unreserved
  refine ⟨agree.wordLength? (by decide) noNull, dateTime_recognize_eq_none noMinus parted,
    agree.numeral noNumeral, ?_, noWord (by decide) noJunction, noWord (by decide) noTruth⟩
  rw [caseStatement_recognize] at noCase ⊢
  exact noWord (by decide) noCase

end

end Formulary.Lexicon
