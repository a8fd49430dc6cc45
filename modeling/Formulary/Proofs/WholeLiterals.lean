import Formulary.Proofs.Dependencies
import Formulary.Proofs.Hundredths
import Formulary.Proofs.Rendering

/-!
Literals of digits: how the numeral of a positive whole number is read, whatever its length, up to
what no decimal can hold. Zeros may lead. A text that is put together from such literals and
operators spells their tokens, one by one, and a calculator evaluates these.
-/
namespace Formulary

open Lexicon

structure WholeLiteral where
  digits : List Char
  plain : ∀ c ∈ digits, c.isDigit = true
  positive : 0 < Nat.ofDigitChars 10 digits 0
  fits : Nat.ofDigitChars 10 digits 0 < Decimal.widthBound

namespace WholeLiteral

def value (l : WholeLiteral) : Nat := Nat.ofDigitChars 10 l.digits 0

theorem value_pos (l : WholeLiteral) : 0 < l.value := l.positive

theorem value_lt (l : WholeLiteral) : l.value < Decimal.widthBound := l.fits

def decimal (l : WholeLiteral) : Decimal := .ofInt l.value (by simpa using l.value_lt)

def number (l : WholeLiteral) : Number := (Number.ofInt? l.value).getD (.decimal l.decimal)

theorem number_of_value {l : WholeLiteral} {n : Nat} (value : l.value = n) (fits : InWord n) :
    l.number = .integer n fits := by
  subst value
  rw [number, Number.ofInt?, dif_pos fits, Option.getD_some]

theorem isWhole_number (l : WholeLiteral) : l.number.IsWhole l.value := by
  unfold number Number.ofInt?
  split
  · exact Number.isWhole_integer _ _
  · exact ⟨rfl, rfl⟩

def hundredth (l : WholeLiteral) : Decimal := .hundredths l.value (by simpa using l.value_lt)

theorem hundredth_of_value {l : WholeLiteral} {n : Nat} (value : l.value = n)
    (bounded : (n : Int).natAbs < Decimal.widthBound) : l.hundredth = .hundredths n bounded := by
  subst value
  rfl

theorem percent_number (l : WholeLiteral) :
    (Value.number l.number).percent = .ok (.decimal l.hundredth) :=
  Value.percent_whole l.isWhole_number (by simpa using Nat.ne_of_gt l.value_pos)

theorem digits_ne_nil (l : WholeLiteral) : l.digits ≠ [] := by
  intro none
  have positive := l.positive
  rw [none] at positive
  exact absurd positive (Nat.lt_irrefl 0)

theorem digits_eq_cons (l : WholeLiteral) :
    ∃ first others, l.digits = first :: others ∧ first.isDigit = true := by
  obtain ⟨first, others, digits⟩ := List.exists_cons_of_ne_nil l.digits_ne_nil
  exact ⟨first, others, digits, l.plain first (digits ▸ List.mem_cons_self)⟩

theorem not_mem_digits (l : WholeLiteral) {c : Char} (other : c.isDigit = false) :
    c ∉ l.digits := by
  intro member
  rw [l.plain c member] at other
  cases other

/-! What the digits stand for -/

theorem ofScientific_digits (l : WholeLiteral) : Decimal.ofScientific l.digits = .ok l.decimal := by
  have unsigned : l.digits.head? ≠ some '-' := fun head =>
    l.not_mem_digits (by decide) (List.mem_of_head? head)
  rw [Decimal.ofScientific_of_noMark (l.not_mem_digits rfl) (l.not_mem_digits rfl),
    Decimal.ofNumeral_unsigned unsigned]
  exact Decimal.readDigits_whole l.plain rfl rfl

theorem numeralValue_digits (l : WholeLiteral) : numeralValue l.digits = .ok l.number := by
  have noPoint : l.digits.head? ≠ some '.' := fun head =>
    l.not_mem_digits (by decide) (List.mem_of_head? head)
  have whole : ((Decimal.natOfDigits? l.digits).bind fun n => Number.ofInt? n) =
      Number.ofInt? l.value := by
    rw [Decimal.natOfDigits?_eq_some l.plain l.digits_ne_nil, Option.bind_some]
    rfl
  simp only [numeralValue, if_neg noPoint, l.ofScientific_digits]
  unfold number
  split
  · next n made =>
    rw [← whole, made, Option.getD_some]
  · next wide =>
    rw [← whole, wide, Option.getD_none]

/-! How far they are read -/

/-- Nothing stands here that could prolong a literal of digits. -/
structure Ends (tail : List Char) : Prop extends Parted tail where
  exponent : exponentLength tail = 0

theorem ends_of_spaced {tail : List Char} (spaced : Spaced tail) : Ends tail :=
  ⟨spaced.parted, by cases spaced <;> rfl⟩

theorem ends_percent (rest : List Char) : Ends ('%' :: rest) := by
  have outside : Text.isWordChar '%' = false := by decide +kernel
  have noMark : isFormOf 'e' '%' = false := by decide
  refine ⟨⟨⟨by simp [Text.wordEndsBefore, outside], rfl⟩, nofun, nofun⟩, ?_⟩
  simp [exponentLength, noMark]

variable {last : Option Token} {tail : List Char}

theorem numeralLength?_digits (l : WholeLiteral) (ends : Ends tail) :
    numeralLength? (l.digits ++ tail) = some l.digits.length := by
  have some_digit := List.length_pos_iff.mpr l.digits_ne_nil
  have count := digitsLength_append tail l.plain (digitsLength_of_wordEnds ends.word)
  simp only [numeralLength?, count, List.drop_left, ends.fraction, Nat.add_zero, ends.exponent]
  rw [if_neg (by omega)]
  simp [ends.word]

theorem scan (l : WholeLiteral) (last : Option Token) (ends : Ends tail) :
    ScannerSet.standard.scan last (l.digits ++ tail) = .ok (some
      ⟨[⟨.data (.number l.number), byteLength l.digits⟩], l.digits, tail⟩) := by
  obtain ⟨first, others, digits, digit⟩ := l.digits_eq_cons
  have noBlank := recognize_eq_none_of_isNameChar (isNameChar_of_isDigit digit) (others ++ tail)
    whitespace (by simp)
  have noNull : null.recognize (first :: (others ++ tail)) = none := by
    simp [null, wordLength?, startsWithWord, not_isFormOf_digit digit]
  refine scan_standard (i := 3) rfl ?_ (l.numeralLength?_digits ends) rfl ?_ l.digits_ne_nil
  · have early : Unread last 2 (l.digits ++ tail) := by
      rw [digits]
      exact unread_of_all (by simp [ScannerSet.standard, noBlank, noNull])
    have noDate := dateTime_recognize_eq_none (l.not_mem_digits (by decide)) ends.toParted
    exact early.next rfl (.inl noDate)
  · simp only [numeric, l.numeralValue_digits]
    rfl

end WholeLiteral

/-! Texts of literals and operators -/

section

variable {last : Option Token} {text tail : List Char} {contents : List Content}

def Spells (last : Option Token) (text : List Char) (contents : List Content) : Prop :=
  ∃ tokens, ScannerSet.standard.Reads last text tokens [] ∧ tokens.map Token.content = contents

def Content.IsCounting (c : Content) : Prop :=
  (∃ n, c = .data (.number n)) ∨ ∃ op, c = .symbol (.operator op)

theorem Content.isCounting_number (n : Number) : (Content.data (.number n)).IsCounting :=
  .inl ⟨n, rfl⟩

theorem Content.isCounting_operator (op : Operator) : (Content.symbol (.operator op)).IsCounting :=
  .inr ⟨op, rfl⟩

namespace Spells

theorem nothing (last : Option Token) : Spells last [] [] := ⟨[], .nothing last [], rfl⟩

theorem lexeme {t : Token} {lexeme : List Char} (solid : t.content ≠ .blank)
    (found : ScannerSet.standard.scan last text = .ok (some ⟨[t], lexeme, tail⟩))
    (later : Spells (some t) tail contents) : Spells last text (t.content :: contents) := by
  obtain ⟨tokens, reads, same⟩ := later
  have kept : (⟨[t], lexeme, tail⟩ : Scanned).kept = [t] := by
    simp [Scanned.kept, category_ne_blank solid]
  refine ⟨t :: tokens, reads_kept found kept reads, ?_⟩
  rw [List.map_cons, same]

theorem literal (l : WholeLiteral) (ends : WholeLiteral.Ends tail)
    (later : ∀ t : Token, t.content = .data (.number l.number) → Spells (some t) tail contents) :
    Spells last (l.digits ++ tail) (.data (.number l.number) :: contents) := by
  have solid : (⟨.data (.number l.number), byteLength l.digits⟩ : Token).content ≠ .blank := nofun
  exact lexeme solid (l.scan last ends) (later _ rfl)

theorem sign {op : Operator} (binary : op ≠ .negate)
    (minus : op = .subtract → startsOperand last = false)
    (later : ∀ t : Token, t.content = .symbol (.operator op) → Spells (some t) tail contents) :
    Spells last (op.text.toList ++ tail) (.symbol (.operator op) :: contents) := by
  have readBack : ReadBack last (.operator op) tail := readBack_operator rfl binary minus
  obtain ⟨again, found, echoes⟩ := readBack
  have content : again.content = .symbol (.operator op) :=
    Token.content_of_symbol? (Token.symbol?_of_same echoes.same)
  have spells := lexeme (echoes.solid nofun) found (later again content)
  rwa [content] at spells

theorem blank (solid : ∀ c ∈ text.head?, Text.isBlank c = false)
    (later : Spells last text contents) : Spells last (' ' :: text) contents := by
  obtain ⟨tokens, reads, same⟩ := later
  exact ⟨tokens, reads_behind_blank solid reads, same⟩

theorem spaced_literal (l : WholeLiteral) (ends : WholeLiteral.Ends tail)
    (later : ∀ t : Token, t.content = .data (.number l.number) → Spells (some t) tail contents) :
    Spells last (' ' :: (l.digits ++ tail)) (.data (.number l.number) :: contents) := by
  refine blank (fun c first => ?_) (literal l ends later)
  obtain ⟨digit, others, digits, isDigit⟩ := l.digits_eq_cons
  rw [digits, List.cons_append, List.head?_cons] at first
  obtain rfl := Option.some.inj first
  rw [Bool.eq_false_iff]
  intro blank
  have name := isNameChar_of_isDigit isDigit
  rw [not_isNameChar_of_isBlank blank] at name
  cases name

theorem spaced_sign {op : Operator} (binary : op ≠ .negate)
    (minus : op = .subtract → startsOperand last = false)
    (later : ∀ t : Token, t.content = .symbol (.operator op) → Spells (some t) tail contents) :
    Spells last (' ' :: (op.text.toList ++ tail)) (.symbol (.operator op) :: contents) := by
  refine blank (fun c first => ?_) (sign binary minus later)
  cases op <;> cases first <;> decide

theorem last_literal (l : WholeLiteral) :
    Spells last (' ' :: l.digits) [.data (.number l.number)] := by
  have spells : Spells last (' ' :: (l.digits ++ [])) [.data (.number l.number)] :=
    spaced_literal l (WholeLiteral.ends_of_spaced .nothing) fun _ _ => nothing _
  rwa [List.append_nil] at spells

theorem percent
    (later : ∀ t : Token, t.content = .symbol (.operator .modulo) → Spells (some t) tail contents) :
    Spells last ('%' :: tail) (.symbol (.operator .modulo) :: contents) := by
  have binary : Operator.modulo ≠ .negate := nofun
  exact sign binary nofun later

/-! Evaluating what has been read -/

theorem endDepth?_counting (depth : Nat) {tokens : List Token}
    (counting : ∀ t ∈ tokens, t.content.IsCounting) : endDepth? depth tokens = some depth := by
  induction tokens with
  | nil => rfl
  | cons t tokens ih =>
    have plain : t.category ≠ .grouping := by
      rcases counting t List.mem_cons_self with ⟨n, content⟩ | ⟨op, content⟩
      · rw [Token.category_of_data content]
        exact nofun
      · rw [Token.category_of_symbol content]
        exact nofun
    have same : depthAfter? depth t = some depth := by
      simp [depthAfter?, Token.isOpening, Token.isClosing, Token.not_isGrouping plain]
    rw [endDepth?, same, Option.bind_some]
    exact ih fun u member => counting u (List.mem_cons_of_mem t member)

theorem mapM_resolve_counting (lookup : String → Option Value) {tokens : List Token}
    (counting : ∀ t ∈ tokens, t.content.IsCounting) :
    tokens.mapM (Token.resolve lookup) = .ok tokens := by
  induction tokens with
  | nil => rfl
  | cons t tokens ih =>
    have same : t.resolve lookup = .ok t := by
      rcases counting t List.mem_cons_self with ⟨n, content⟩ | ⟨op, content⟩ <;>
        simp [Token.resolve, content]
    rw [List.mapM_cons, same, ih fun u member => counting u (List.mem_cons_of_mem t member)]
    rfl

theorem evaluate (spells : Spells none text contents) (counting : ∀ c ∈ contents, c.IsCounting)
    (book : RuleBook) (memory : Bindings) : ∃ tokens, tokens.map Token.content = contents ∧
      ({ book, memory } : Calculator).evaluate (String.ofList text) = book.evaluate tokens := by
  obtain ⟨tokens, reads, same⟩ := spells
  have among : ∀ t ∈ tokens, t.content.IsCounting := fun t member =>
    counting t.content (same ▸ List.mem_map_of_mem member)
  have accepted : ScannerSet.standard.tokenize (String.ofList text) = .ok tokens := by
    rw [ScannerSet.tokenize, String.toList_ofList]
    exact ScannerSet.tokenizeFrom_eq_ok_iff.mpr ⟨reads, endDepth?_counting 0 among⟩
  have read : ({ book, memory } : Calculator).tokenize (String.ofList text) = .ok tokens := accepted
  refine ⟨tokens, same, ?_⟩
  rw [Calculator.evaluate, Calculator.evaluateWith_eq, read]
  show (tokens.mapM _ >>= _ : Outcome Value) = _
  rw [mapM_resolve_counting _ among]
  rfl

end Spells

end

end Formulary
