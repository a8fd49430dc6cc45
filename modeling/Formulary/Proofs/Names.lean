import Mathlib.Data.List.TakeWhile
import Formulary.Proofs.Numerals
import Formulary.Proofs.ReservedWords

/-!
Names of variables and of functions, as their scanners take them from a text, and as they are
written again: in lower case, with a blank behind them.
-/
namespace Formulary.Lexicon

section

variable {text rest : List Char} {c : Char}

/-! Names of variables -/

/-- What the scanner of names takes: characters of names, with no point at the end. -/
structure Named (name : List Char) : Prop where
  chars : ∀ c ∈ name, isNameChar c = true
  last : ∃ c, name.getLast? = some c ∧ c ≠ '.'

theorem takeWhile_append_of_stop {p : Char → Bool} {front back : List Char}
    (all : ∀ c ∈ front, p c = true) (stop : ∀ c, back.head? = some c → p c = false) :
    (front ++ back).takeWhile p = front := by
  rw [List.takeWhile_append_of_pos all]
  cases back with
  | nil => rw [List.takeWhile_nil, List.append_nil]
  | cons c back => rw [List.takeWhile_cons, stop c rfl, if_neg Bool.false_ne_true, List.append_nil]

theorem Spaced.not_isNameChar (spaced : Spaced text) (first : text.head? = some c) :
    isNameChar c = false := by
  cases spaced with
  | nothing => cases first
  | blank =>
    cases first
    decide +kernel

theorem Named.recognize {name tail : List Char} (named : Named name) (spaced : Spaced tail) :
    identifier.recognize (name ++ tail) = some name.length := by
  have all : (name ++ tail).takeWhile isNameChar = name :=
    takeWhile_append_of_stop named.chars fun _ => spaced.not_isNameChar
  obtain ⟨c, last, other⟩ := named.last
  have kept : name.reverse.dropWhile (· == '.') = name.reverse := by
    cases backwards : name.reverse with
    | nil => rfl
    | cons first others =>
      obtain rfl : first = c := by
        rw [← List.head?_reverse, backwards] at last
        exact Option.some.inj last
      exact List.dropWhile_cons_of_neg (by simpa using other)
  have some_char : name.length ≠ 0 := by
    rintro none
    rw [List.length_eq_zero_iff.mp none] at last
    cases last
  simp only [identifier, all, kept, List.length_reverse, if_neg some_char]

theorem exists_name (text : List Char) : ∃ name points rest, text = name ++ (points ++ rest) ∧
    (∀ c ∈ name, isNameChar c = true) ∧ (∀ c, name.getLast? = some c → c ≠ '.') ∧
      (∀ c ∈ points, c = '.') ∧ (∀ c, rest.head? = some c → isNameChar c = false) ∧
        identifier.recognize text = if name.length = 0 then none else some name.length := by
  have inner := List.dropWhile_suffix (· == '.') (l := (text.takeWhile isNameChar).reverse)
  have last := List.head?_dropWhile_not (· == '.') (text.takeWhile isNameChar).reverse
  have next := List.head?_dropWhile_not isNameChar text
  refine ⟨((text.takeWhile isNameChar).reverse.dropWhile (· == '.')).reverse,
    ((text.takeWhile isNameChar).reverse.takeWhile (· == '.')).reverse,
    text.dropWhile isNameChar, ?_, ?_, ?_, ?_, ?_, ?_⟩
  · rw [← List.append_assoc, ← List.reverse_append, List.takeWhile_append_dropWhile,
      List.reverse_reverse, List.takeWhile_append_dropWhile]
  · exact fun c member => List.mem_takeWhile_imp
      (List.mem_reverse.mp (inner.subset (List.mem_reverse.mp member)))
  · intro c here
    rw [List.getLast?_reverse] at here
    rw [here] at last
    simpa using last
  · exact fun c member => by simpa using List.mem_takeWhile_imp (List.mem_reverse.mp member)
  · intro c here
    rw [here] at next
    exact next
  · rw [List.length_reverse]
    rfl

theorem named_of_recognize {n : Nat} (read : identifier.recognize text = some n) :
    Named (text.take n) ∧ Stops (text.drop n) := by
  obtain ⟨name, points, rest, cut, chars, last, arePoints, next, recognized⟩ := exists_name text
  rw [recognized] at read
  split at read
  · cases read
  · next something =>
    obtain rfl := Option.some.inj read
    rw [cut, List.take_left, List.drop_left]
    have wordEnds {points : List Char} (arePoints : ∀ c ∈ points, c = '.') :
        Text.wordEndsBefore (points ++ rest) = true := by
      cases points with
      | nil =>
        cases rest with
        | nil => rfl
        | cons c rest =>
          have noName := next c rfl
          simp only [isNameChar, Bool.or_eq_false_iff] at noName
          simp [Text.wordEndsBefore, noName.1]
      | cons c points =>
        obtain rfl := arePoints c List.mem_cons_self
        simp [Text.wordEndsBefore, not_isWordChar_point]
    refine ⟨⟨chars, ?_⟩, ⟨wordEnds arePoints, ?_⟩⟩
    · cases final : name.getLast? with
      | none => exact absurd (by simp [List.getLast?_eq_none_iff.mp final]) something
      | some c => exact ⟨c, rfl, last c final⟩
    · cases points with
      | nil =>
        cases rest with
        | nil => rfl
        | cons c rest =>
          refine fractionLength_cons_of_ne ?_
          rintro rfl
          have point : isNameChar '.' = true := by simp [isNameChar]
          rw [next '.' rfl] at point
          cases point
      | cons c points =>
        obtain rfl := arePoints c List.mem_cons_self
        have none := digitsLength_of_wordEnds
          (wordEnds fun c member => arePoints c (List.mem_cons_of_mem _ member))
        exact if_pos none

theorem Named.lowered {name low : List Char} (named : Named name)
    (lowered : Text.Lowered name low) : Named low := by
  refine ⟨isNameChar_of_lowered lowered named.chars, ?_⟩
  obtain ⟨c, last, other⟩ := named.last
  obtain ⟨front, rfl⟩ := List.getLast?_eq_some_iff.mp last
  obtain ⟨small, image, rfl, _, final⟩ := lowered.append_inv
  have word : Text.isWordChar c = true :=
    (isWordChar_of_isNameChar (named.chars c (by simp))).resolve_left other
  cases final with
  | @cons _ first _ _ lowers others =>
    cases others
    rw [List.append_nil]
    cases isLast : first.getLast? with
    | none => exact absurd (List.getLast?_eq_none_iff.mp isLast) lowers.ne_nil
    | some m =>
      refine ⟨m, by rw [List.getLast?_append, isLast]; rfl, ?_⟩
      rintro rfl
      have point := lowers.word word '.' (List.mem_of_getLast? isLast)
      rw [not_isWordChar_point] at point
      cases point

/-! Names of functions -/

structure Called (word mark : List Char) : Prop where
  some_char : word ≠ []
  chars : ∀ c ∈ word, Text.isWordChar c = true
  marked : mark = [] ∨ mark = ['!']

theorem not_isNameChar_of_isBlank (blank : Text.isBlank c = true) : isNameChar c = false := by
  have noPoint : c ≠ '.' := by
    rintro rfl
    cases blank
  simp [isNameChar, Text.not_isWordChar_of_isBlank blank, noPoint]

theorem not_isNameChar_behind {mark blanks : List Char} (marked : mark = [] ∨ mark = ['!'])
    (blank : ∀ c ∈ blanks, Text.isBlank c = true)
    (first : (mark ++ (blanks ++ '(' :: rest)).head? = some c) : isNameChar c = false := by
  rcases marked with rfl | rfl
  · cases blanks with
    | nil =>
      cases first
      decide +kernel
    | cons c blanks =>
      cases first
      exact not_isNameChar_of_isBlank (blank c List.mem_cons_self)
  · cases first
    decide +kernel

theorem not_isWordChar_of_not_isNameChar (noName : isNameChar c = false) :
    Text.isWordChar c = false := by
  simp only [isNameChar, Bool.or_eq_false_iff] at noName
  exact noName.1

theorem stops_of_not_isNameChar (next : ∀ c, text.head? = some c → isNameChar c = false) :
    Stops text := by
  cases text with
  | nil => exact ⟨rfl, rfl⟩
  | cons c text =>
    have noName := next c rfl
    have noPoint : c ≠ '.' := by
      rintro rfl
      simp [isNameChar] at noName
    exact ⟨by simp [Text.wordEndsBefore, not_isWordChar_of_not_isNameChar noName],
      fractionLength_cons_of_ne noPoint⟩

namespace Called

variable {word mark blanks : List Char}

theorem recognize (called : Called word mark) (blank : ∀ c ∈ blanks, Text.isBlank c = true)
    (rest : List Char) : function.recognize (word ++ (mark ++ (blanks ++ '(' :: rest))) =
      some (word.length + mark.length + blanks.length + 1) := by
  have front : (word ++ (mark ++ (blanks ++ '(' :: rest))).takeWhile Text.isWordChar = word :=
    takeWhile_append_of_stop called.chars fun c first =>
      not_isWordChar_of_not_isNameChar (not_isNameChar_behind called.marked blank first)
  have isMark : (if (mark ++ (blanks ++ '(' :: rest)).head? = some '!' then 1 else 0) =
      mark.length := by
    rcases called.marked with rfl | rfl
    · refine if_neg fun first => ?_
      cases blanks with
      | nil => cases first
      | cons c blanks =>
        cases first
        cases blank '!' List.mem_cons_self
    · rfl
  have behind : (word ++ (mark ++ (blanks ++ '(' :: rest))).drop (word.length + mark.length) =
      blanks ++ '(' :: rest := by
    rw [← List.drop_drop, List.drop_left, List.drop_left]
  have between : (blanks ++ '(' :: rest).takeWhile Text.isBlank = blanks :=
    takeWhile_append_of_stop blank fun c first => by cases first; rfl
  have opens : (word ++ (mark ++ (blanks ++ '(' :: rest))).drop
      (word.length + mark.length + blanks.length) = '(' :: rest := by
    rw [← List.drop_drop, behind, List.drop_left]
  simp only [function, front, List.drop_left, isMark, behind, between, opens]
  exact if_pos ⟨List.length_pos_iff.mpr called.some_char, rfl⟩

theorem trim (called : Called word mark) (blank : ∀ c ∈ blanks, Text.isBlank c = true) :
    Text.trim (word ++ (mark ++ blanks)) = word ++ mark := by
  have solid {c : Char} (word : Text.isWordChar c = true) : ¬Text.isBlank c = true := by
    intro blank
    rw [Text.not_isWordChar_of_isBlank blank] at word
    cases word
  have start : (word ++ (mark ++ blanks)).dropWhile Text.isBlank = word ++ (mark ++ blanks) := by
    obtain ⟨c, others, rfl⟩ := List.exists_cons_of_ne_nil called.some_char
    exact List.dropWhile_cons_of_neg (solid (called.chars c List.mem_cons_self))
  have final : (word ++ mark).reverse.dropWhile Text.isBlank = (word ++ mark).reverse := by
    rcases called.marked with rfl | rfl
    · rw [List.append_nil]
      cases backwards : word.reverse with
      | nil => rfl
      | cons c others =>
        have member : c ∈ word := List.mem_reverse.mp (backwards ▸ List.mem_cons_self)
        exact List.dropWhile_cons_of_neg (solid (called.chars c member))
    · rw [List.reverse_append]
      rfl
  rw [Text.trim, start, ← List.append_assoc, List.reverse_append,
    List.dropWhile_append_of_pos fun c member => blank c (List.mem_reverse.mp member), final,
    List.reverse_reverse]

theorem lowered {low : List Char} (called : Called word mark)
    (lowered : Text.Lowered (word ++ mark) low) :
    ∃ small, low = small ++ mark ∧ Text.Lowered word small ∧ Called small mark := by
  obtain ⟨small, image, rfl, isWord, isMark⟩ := lowered.append_inv
  have same : image = mark := by
    rcases called.marked with rfl | rfl
    · cases isMark
      rfl
    · cases isMark with
      | cons first others =>
        cases others
        rw [first.of_small Text.small_mark]
        rfl
  refine ⟨small, by rw [same], isWord, ?_, isWord.word called.chars, called.marked⟩
  obtain ⟨c, others, rfl⟩ := List.exists_cons_of_ne_nil called.some_char
  cases isWord with
  | cons first others => exact List.append_ne_nil_of_left_ne_nil first.ne_nil _

end Called

theorem drop_takeWhile (p : Char → Bool) (text : List Char) :
    text.drop (text.takeWhile p).length = text.dropWhile p := by
  have behind := @List.drop_left _ (text.takeWhile p) (text.dropWhile p)
  rwa [List.takeWhile_append_dropWhile] at behind

theorem exists_mark (text : List Char) : ∃ mark rest, text = mark ++ rest ∧
    (mark = [] ∨ mark = ['!']) ∧ (if text.head? = some '!' then 1 else 0) = mark.length := by
  cases text with
  | nil => exact ⟨[], [], rfl, .inl rfl, rfl⟩
  | cons c rest =>
    by_cases isMark : c = '!'
    · exact ⟨['!'], rest, by rw [isMark]; rfl, .inr rfl, by rw [isMark]; rfl⟩
    · exact ⟨[], c :: rest, rfl, .inl rfl, if_neg fun same => isMark (Option.some.inj same)⟩

theorem exists_call (text : List Char) : ∃ word mark blanks rest,
    text = word ++ (mark ++ (blanks ++ rest)) ∧ (∀ c ∈ word, Text.isWordChar c = true) ∧
      (mark = [] ∨ mark = ['!']) ∧ (∀ c ∈ blanks, Text.isBlank c = true) ∧
        function.recognize text = if 0 < word.length ∧ rest.head? = some '(' then
          some (word.length + mark.length + blanks.length + 1) else none := by
  obtain ⟨mark, others, cut, marked, size⟩ := exists_mark (text.dropWhile Text.isWordChar)
  refine ⟨text.takeWhile Text.isWordChar, mark, others.takeWhile Text.isBlank,
    others.dropWhile Text.isBlank, ?_, fun _ => List.mem_takeWhile_imp, marked,
    fun _ => List.mem_takeWhile_imp, ?_⟩
  · rw [List.takeWhile_append_dropWhile, ← cut, List.takeWhile_append_dropWhile]
  · simp only [function, ← List.drop_drop, drop_takeWhile]
    rw [size, cut, List.drop_left]

theorem called_of_recognize {n : Nat} (read : function.recognize text = some n) :
    ∃ word mark blanks rest, text = word ++ (mark ++ (blanks ++ '(' :: rest)) ∧
      Called word mark ∧ (∀ c ∈ blanks, Text.isBlank c = true) ∧
        n = word.length + mark.length + blanks.length + 1 := by
  obtain ⟨word, mark, blanks, rest, cut, chars, marked, blank, recognized⟩ := exists_call text
  rw [recognized] at read
  split at read
  · next found =>
    obtain ⟨rest, rfl⟩ := List.head?_eq_some_iff.mp found.2
    exact ⟨word, mark, blanks, rest, cut, ⟨List.length_pos_iff.mp found.1, chars, marked⟩, blank,
      (Option.some.inj read).symm⟩
  · cases read

theorem Named.not_called {name tail : List Char} (named : Named name) (spaced : Spaced tail)
    (apart : '.' ∈ name ∨ ∀ c, tail.tail.head? = some c → c ≠ '(' ∧ Text.isBlank c = false) :
    function.recognize (name ++ tail) = none := by
  cases read : function.recognize (name ++ tail) with
  | none => rfl
  | some n =>
    exfalso
    obtain ⟨word, mark, blanks, rest, cut, called, blank, _⟩ := called_of_recognize read
    have whole : word = name := by
      have front := congrArg (List.takeWhile isNameChar) cut
      rw [takeWhile_append_of_stop named.chars fun _ => spaced.not_isNameChar,
        takeWhile_append_of_stop (fun c member => isNameChar_of_isWordChar (called.chars c member))
          fun c => not_isNameChar_behind called.marked blank] at front
      exact front.symm
    subst whole
    rw [List.append_cancel_left_eq] at cut
    rcases apart with point | apart
    · have isWord := called.chars '.' point
      rw [not_isWordChar_point] at isWord
      cases isWord
    · subst cut
      rcases called.marked with rfl | rfl
      · cases blanks with
        | nil => cases spaced
        | cons c blanks =>
          cases blanks with
          | nil => exact (apart '(' rfl).1 rfl
          | cons next blanks =>
            have solid := (apart next rfl).2
            rw [blank next (by simp)] at solid
            cases solid
      · cases spaced

end

end Formulary.Lexicon
