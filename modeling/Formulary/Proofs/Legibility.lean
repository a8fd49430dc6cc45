import Formulary.Proofs.Arrangement
import Formulary.Proofs.Names

/-!
Streams of tokens that can be read back once they are written. Names are in lower case, and none
of them was a literal or a reserved word where it was read; behind the name of a variable no
bracket opens, unless a point in the name tells it from the name of a function; numbers have no
sign, and texts no double quote. What the tokenizer hands on is such a stream, but for points in
time and for texts with a double quote.
-/
namespace Formulary

open Lexicon

structure IsName (name : List Char) : Prop extends Named name where
  unreserved : ∀ tail, Spaced tail → Unreserved (name ++ tail)
  lower : Text.lowerAfter [] name = name

structure IsHead (head : List Char) : Prop where
  called : ∃ word mark, head = word ++ mark ∧ Called word mark
  unreserved : ∀ tail, Spaced tail → Unreserved (head ++ tail)

inductive Legible (last : Option Token) : Content → Prop where
  | null : Legible last (.data .null)
  | number {n : Number} (unsigned : 0 ≤ n.toDecimal.coeff) : Legible last (.data (.number n))
  | text {s : String} (closed : '"' ∉ s.toList) : Legible last (.data (.text s))
  | truth (b : Bool) : Legible last (.data (.logical b))
  | negate (unary : startsOperand last = true) : Legible last (.symbol (.operator .negate))
  | operator {op : Operator} (binary : op ≠ .negate)
      (minus : op = .subtract → startsOperand last = false) :
      Legible last (.symbol (.operator op))
  | bracket {mark : Grouping} (plain : mark ≠ .callOpening) :
      Legible last (.symbol (.grouping mark))
  | comparator (sign : Comparator) : Legible last (.symbol (.comparator sign))
  | combinator (word : Combinator) : Legible last (.symbol (.combinator word))
  | caseWord (word : CaseWord) : Legible last (.symbol (.caseWord word))

theorem Legible.solid {last : Option Token} {c : Content} (legible : Legible last c) :
    c ≠ .blank := by
  cases legible <;> exact nofun

inductive Readable : Option Token → List Token → Prop where
  | nothing (last : Option Token) : Readable last []
  | plain {last : Option Token} {t : Token} {rest : List Token} (legible : Legible last t.content)
      (later : Readable (some t) rest) : Readable last (t :: rest)
  | name {last : Option Token} {t : Token} {rest : List Token} {name : String}
      (content : t.content = .identifier name) (isName : IsName name.toList)
      (apart : '.' ∈ name.toList ∨
        ∀ next, rest.head? = some next → next.content ≠ .symbol (.grouping .opening))
      (later : Readable (some t) rest) : Readable last (t :: rest)
  | call {last : Option Token} {head opening : Token} {rest : List Token} {name : Name}
      (content : head.content = .symbol (.function name)) (isHead : IsHead name.text.toList)
      (opens : opening.content = .symbol (.grouping .callOpening))
      (later : Readable (some opening) rest) : Readable last (head :: opening :: rest)

section

variable {last : Option Token} {text rest : List Char} {tokens : List Token} {n : Nat}

theorem Lexicon.Spaced.parted (spaced : Spaced text) : Parted text := by
  cases spaced with
  | nothing => exact ⟨⟨rfl, rfl⟩, nofun, nofun⟩
  | blank rest => exact ⟨⟨(Spaced.blank rest).wordEnds, rfl⟩, nofun, nofun⟩

theorem Lexicon.Spaced.parted_mark (spaced : Spaced text) {mark : List Char}
    (marked : mark = [] ∨ mark = ['!']) : Parted (mark ++ text) := by
  rcases marked with rfl | rfl
  · exact spaced.parted
  · have outside : Text.isWordChar '!' = false := by decide +kernel
    exact ⟨⟨by simp [Text.wordEndsBefore, outside], rfl⟩, nofun, nofun⟩

theorem isName_of_recognize (unreserved : Unreserved text)
    (read : identifier.recognize text = some n) :
    IsName (Text.lowerAfter [] (text.take n)) := by
  obtain ⟨named, stops⟩ := named_of_recognize read
  have lowered := Text.lowered_lowerAfter [] (text.take n)
  rw [← List.take_append_drop n text] at unreserved
  exact ⟨named.lowered lowered, fun tail spaced => unreserved.lowered lowered named.chars stops
    spaced.parted, lowered.lowerAfter_eq []⟩

theorem isHead_of_recognize (unreserved : Unreserved text)
    (read : function.recognize text = some n) :
    IsHead (Name.ofText (String.ofList (Text.trim (text.take n).dropLast))).text.toList := by
  unfold Name.ofText Text.lower
  rw [String.toList_ofList, String.toList_ofList]
  obtain ⟨word, mark, blanks, rest, rfl, called, blank, rfl⟩ := called_of_recognize read
  have head : ((word ++ (mark ++ (blanks ++ '(' :: rest))).take
      (word.length + mark.length + blanks.length + 1)).dropLast = word ++ (mark ++ blanks) := by
    have cut : word ++ (mark ++ (blanks ++ '(' :: rest)) =
        (word ++ (mark ++ blanks) ++ ['(']) ++ rest := by simp
    have size : word.length + mark.length + blanks.length + 1 =
        (word ++ (mark ++ blanks) ++ ['(']).length := by simp [Nat.add_assoc]
    rw [cut, size, List.take_left, List.dropLast_concat]
  rw [head, called.trim blank]
  have lowered := Text.lowered_lowerAfter [] (word ++ mark)
  obtain ⟨small, same, isWord, isCalled⟩ := called.lowered lowered
  refine ⟨⟨small, mark, same, isCalled⟩, fun tail spaced => ?_⟩
  rw [same, List.append_assoc]
  exact unreserved.lowered isWord (fun c member => isNameChar_of_isWordChar (called.chars c member))
    (stops_of_not_isNameChar fun c => not_isNameChar_behind called.marked blank)
    (spaced.parted_mark called.marked)

theorem lexeme_append_rest {scanned : Scanned}
    (found : ScannerSet.standard.scan last text = .ok (some scanned)) :
    scanned.lexeme ++ scanned.rest = text := by
  obtain ⟨i, s, _, _, read, _⟩ := ScannerSet.firstScan_eq_some_iff.mp found
  exact Scanner.lexeme_append_rest read

theorem opens_of_reads (reads : ScannerSet.standard.Reads last text tokens rest)
    {t : Token} (first : tokens.head? = some t)
    (opens : t.content = .symbol (.grouping .opening)) :
    ∃ blanks behind, text = blanks ++ '(' :: behind ∧ ∀ c ∈ blanks, Text.isBlank c = true := by
  induction reads with
  | nothing => cases first
  | @lexeme last text rest scanned tokens found later ih =>
    have cut := lexeme_append_rest found
    have stands := stands_of_scan found
    generalize contents : scanned.tokens.map Token.content = kinds at stands
    generalize scanned.lexeme = lexeme at cut stands
    have other {c : Content} (single : kinds = [c]) (solid : c ≠ .blank)
        (different : c ≠ .symbol (.grouping .opening)) : False := by
      obtain ⟨u, kept, content⟩ := kept_single (contents.trans single) solid
      rw [kept] at first
      obtain rfl : u = t := Option.some.inj first
      exact different (content.symm.trans opens)
    cases stands with
    | blank blank =>
      rw [kept_blank contents, List.nil_append] at first
      obtain ⟨blanks, behind, same, more⟩ := ih first
      refine ⟨lexeme ++ blanks, behind, by rw [← cut, same, List.append_assoc], ?_⟩
      intro c member
      rcases List.mem_append.mp member with here | later
      · exact blank c here
      · exact more c later
    | @bracket _ mark plain written =>
      by_cases isOpening : mark = .opening
      · obtain ⟨behind, same⟩ := List.head?_eq_some_iff.mp (written isOpening)
        exact ⟨[], behind, same, nofun⟩
      · exact (other rfl nofun fun same => isOpening (by cases same; rfl)).elim
    | call unreserved read =>
      obtain ⟨head, opening, kept, function, _⟩ := kept_call contents
      rw [kept] at first
      obtain rfl : head = t := Option.some.inj first
      rw [opens] at function
      cases function
    | _ => exact (other rfl nofun nofun).elim

theorem point_of_not_called (noCall : function.recognize text = none)
    (read : identifier.recognize text = some n) {blanks behind : List Char}
    (opens : text.drop n = blanks ++ '(' :: behind) (blank : ∀ c ∈ blanks, Text.isBlank c = true) :
    '.' ∈ Text.lowerAfter [] (text.take n) := by
  obtain ⟨⟨chars, c, last, _⟩, _⟩ := named_of_recognize read
  refine (Text.lowered_lowerAfter [] _).point (Decidable.byContradiction fun noPoint => ?_)
  have called : Called (text.take n) [] := by
    refine ⟨?_, fun c member => ?_, .inl rfl⟩
    · intro nothing
      rw [nothing] at last
      cases last
    · refine (isWordChar_of_isNameChar (chars c member)).resolve_left ?_
      rintro rfl
      exact noPoint member
  have recognized := called.recognize blank behind
  rw [List.nil_append, ← opens, List.take_append_drop, noCall] at recognized
  cases recognized

/-- What the tokenizer hands on can be read back, but for points in time and texts with a double
    quote. -/
theorem readable_of_reads (reads : ScannerSet.standard.Reads last text tokens rest)
    (noDate : ∀ t ∈ tokens, t.category ≠ .dateTime)
    (closed : ∀ t ∈ tokens, ∀ s, t.content = .data (.text s) → '"' ∉ s.toList) :
    Readable last tokens := by
  induction reads with
  | nothing last => exact .nothing last
  | @lexeme last text rest scanned tokens found later ih =>
    have cut := lexeme_append_rest found
    have stands := stands_of_scan found
    generalize contents : scanned.tokens.map Token.content = kinds at stands
    generalize scanned.lexeme = lexeme at cut stands
    replace ih := ih (fun t member => noDate t (List.mem_append_right _ member))
      (fun t member => closed t (List.mem_append_right _ member))
    have single {c : Content} (single : kinds = [c]) (solid : c ≠ .blank) :
        ∃ t, scanned.kept = [t] ∧ t.content = c := kept_single (contents.trans single) solid
    have plain {c : Content} (isSingle : kinds = [c]) (legible : Legible last c) :
        Readable last (scanned.kept ++ tokens) := by
      obtain ⟨t, kept, rfl⟩ := single isSingle legible.solid
      rw [kept] at ih ⊢
      exact .plain legible ih
    cases stands with
    | blank =>
      rw [kept_blank contents] at ih ⊢
      exact ih
    | null => exact plain rfl .null
    | dateTime moment =>
      obtain ⟨t, kept, content⟩ := single rfl (by rintro ⟨⟩)
      exact absurd (by simp [Token.category, content, Value.category]) (noDate t (by simp [kept]))
    | numeral value unsigned =>
      exact plain rfl (.number (nonneg_of_numeralValue value unsigned))
    | quoted s =>
      obtain ⟨t, kept, content⟩ := single rfl (by rintro ⟨⟩)
      exact plain rfl (.text (closed t (by simp [kept]) s content))
    | truth b => exact plain rfl (.truth b)
    | minus unary => exact plain rfl (.negate unary)
    | operator binary minus => exact plain rfl (.operator binary minus)
    | bracket isPlain => exact plain rfl (.bracket isPlain)
    | comparator sign => exact plain rfl (.comparator sign)
    | combinator word => exact plain rfl (.combinator word)
    | caseWord word => exact plain rfl (.caseWord word)
    | call unreserved read =>
      obtain ⟨head, opening, kept, content, opens⟩ := kept_call contents
      rw [kept] at ih ⊢
      exact .call content (isHead_of_recognize unreserved read) opens ih
    | @name n unreserved noCall read =>
      obtain ⟨t, kept, content⟩ := single rfl (by rintro ⟨⟩)
      rw [kept] at later ih ⊢
      refine .name content ?_ ?_ ih
      · rw [String.toList_ofList]
        exact isName_of_recognize unreserved read
      · rw [String.toList_ofList, Decidable.or_iff_not_imp_left]
        intro noPoint next first opens
        obtain ⟨blanks, behind, same, blank⟩ := opens_of_reads later first opens
        have left : text.drop n = blanks ++ '(' :: behind := by
          rw [← same]
          exact List.append_cancel_left ((List.take_append_drop n text).trans cut.symm)
        exact noPoint (point_of_not_called noCall read left blank)

end

end Formulary
