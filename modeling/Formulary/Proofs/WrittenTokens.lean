import Formulary.Proofs.Legibility

/-!
Reading single tokens that have been written. Each is written as one lexeme. With a blank behind
it, or nothing, the scanners before the one it is meant for do not read it, and that one reads no
more and no less than the lexeme.
-/
namespace Formulary

open Lexicon

/-- The token is read again: it is the same, and what stands behind it is no other sign. -/
structure Echoes (again t : Token) : Prop where
  same : again.same t = true
  starts : startsOperand (some again) = startsOperand (some t)

theorem Value.order_self (n : Number) : n.order n = .eq :=
  Std.LawfulEqOrd.compare_eq_iff_eq.mpr rfl

section

variable {last : Option Token} {tail : List Char}

theorem Legible.same_self {c : Content} (legible : Legible last c) : c.same c = true := by
  cases legible <;> simp [Content.same, Value.same, Value.order_self]

theorem echoes_of_content {again t : Token} (content : again.content = t.content)
    (self : t.content.same t.content = true) : Echoes again t := by
  refine ⟨by rw [Token.same, content, self], ?_⟩
  simp [startsOperand, Token.category, Token.isOpening, Token.isComma, Token.isGrouping,
    Token.symbol?, content]

def Unread (last : Option Token) (i : Nat) (text : List Char) : Prop :=
  ∀ s ∈ ScannerSet.standard.scanners.take i, s.recognize text = none ∨ s.admits last = false

theorem unread_of_all {i : Nat} {text : List Char}
    (none : (ScannerSet.standard.scanners.take i).all (fun s => (s.recognize text).isNone) = true) :
    Unread last i text := by
  intro s member
  exact .inl (Option.isNone_iff_eq_none.mp (List.all_eq_true.mp none s member))

theorem Unread.next {i : Nat} {text : List Char} (unread : Unread last i text) {s : Scanner}
    (known : ScannerSet.standard.scanners[i]? = some s)
    (here : s.recognize text = none ∨ s.admits last = false) : Unread last (i + 1) text := by
  intro other member
  rw [List.take_add_one, known] at member
  rcases List.mem_append.mp member with early | same
  · exact unread other early
  · obtain rfl := List.mem_singleton.mp same
    exact here

theorem scan_standard {i : Nat} {s : Scanner} (known : ScannerSet.standard.scanners[i]? = some s)
    {lexeme : List Char} {tokens : List Token} (unread : Unread last i (lexeme ++ tail))
    (read : s.recognize (lexeme ++ tail) = some lexeme.length) (admitted : s.admits last = true)
    (made : s.convert lexeme = .ok tokens) (some_char : lexeme ≠ []) :
    ScannerSet.standard.scan last (lexeme ++ tail) = .ok (some ⟨tokens, lexeme, tail⟩) := by
  refine ScannerSet.firstScan_eq_some_iff.mpr ⟨i, s, known, fun b member =>
    Scanner.scan_eq_none_iff.mpr (unread b member), ?_, some_char⟩
  refine Scanner.scan_eq_some_iff.mpr ⟨lexeme.length, read, admitted, ?_, ?_, ?_⟩
  · rw [List.take_left]
    exact made
  · rw [List.take_left]
  · rw [List.drop_left]

/-- What is written of the token is read as one lexeme, and makes a token that echoes it. -/
def ReadBack (last : Option Token) (t : Token) (tail : List Char) : Prop :=
  ∃ again, ScannerSet.standard.scan last (t.display.toList ++ tail) =
    .ok (some ⟨[again], t.display.toList, tail⟩) ∧ Echoes again t

section

variable {t : Token}

theorem readBack_of_scan {i : Nat} {s : Scanner} (legible : Legible last t.content)
    (known : ScannerSet.standard.scanners[i]? = some s)
    (unread : Unread last i (t.display.toList ++ tail))
    (read : s.recognize (t.display.toList ++ tail) = some t.display.toList.length)
    (admitted : s.admits last = true)
    (made : s.convert t.display.toList = .ok (tokenOf t.content t.display.toList))
    (some_char : t.display.toList ≠ []) : ReadBack last t tail :=
  ⟨_, scan_standard known unread read admitted made some_char,
    echoes_of_content rfl legible.same_self⟩

theorem display_of_symbol {symbol : Symbol} (content : t.content = .symbol symbol) :
    t.display = symbol.text := by
  simp [Token.display, content]

theorem readBack_negate (content : t.content = .symbol (.operator .negate))
    (unary : startsOperand last = true) : ReadBack last t tail := by
  have legible : Legible last t.content := content ▸ .negate unary
  have display := display_of_symbol content
  refine readBack_of_scan (i := 6) legible rfl ?_ ?_ unary ?_ ?_ <;> rw [display]
  · exact unread_of_all rfl
  · rfl
  · rw [content]
    rfl
  · exact nofun

theorem readBack_operator {op : Operator} (content : t.content = .symbol (.operator op))
    (binary : op ≠ .negate) (minus : op = .subtract → startsOperand last = false) :
    ReadBack last t tail := by
  have legible : Legible last t.content := content ▸ .operator binary minus
  have display := display_of_symbol content
  refine readBack_of_scan (i := 7) legible rfl ?_ ?_ rfl ?_ ?_ <;> rw [display]
  · have early : Unread last 6 ((Symbol.operator op).text.toList ++ tail) :=
      unread_of_all (by cases op <;> rfl)
    refine early.next rfl ?_
    cases op with
    | negate => exact absurd rfl binary
    | subtract => exact .inr (minus rfl)
    | _ => exact .inl rfl
  · cases op <;> rfl
  · rw [content]
    cases op with
    | negate => exact absurd rfl binary
    | _ => rfl
  · cases op <;> exact nofun

theorem readBack_bracket {mark : Grouping} (content : t.content = .symbol (.grouping mark))
    (plain : mark ≠ .callOpening) : ReadBack last t tail := by
  have legible : Legible last t.content := content ▸ .bracket plain
  have display := display_of_symbol content
  refine readBack_of_scan (i := 8) legible rfl ?_ ?_ rfl ?_ ?_ <;> rw [display]
  · exact unread_of_all (by cases mark <;> rfl)
  · cases mark <;> rfl
  · rw [content]
    cases mark with
    | callOpening => exact absurd rfl plain
    | _ => rfl
  · cases mark <;> exact nofun

theorem readBack_comparator {sign : Comparator} (content : t.content = .symbol (.comparator sign))
    (spaced : Spaced tail) : ReadBack last t tail := by
  have legible : Legible last t.content := content ▸ .comparator sign
  have display := display_of_symbol content
  refine readBack_of_scan (i := 10) legible rfl ?_ ?_ rfl ?_ ?_ <;> rw [display]
  · exact unread_of_all (by cases sign <;> rfl)
  · cases sign <;> cases spaced <;> rfl
  · rw [content]
    cases sign <;> rfl
  · cases sign <;> exact nofun

/-! Reserved words -/

theorem startsWithWord_append {word : List Char} (starts : startsWithWord word word = true)
    (tail : List Char) : startsWithWord word (word ++ tail) = true := by
  have longer (word text : List Char) (starts : startsWithWord word text = true) :
      startsWithWord word (text ++ tail) = true := by
    induction word generalizing text with
    | nil => rfl
    | cons letter word ih =>
      cases text with
      | nil => cases starts
      | cons c text =>
        simp only [startsWithWord, List.cons_append, Bool.and_eq_true] at starts ⊢
        exact ⟨starts.1, ih text starts.2⟩
  exact longer word word starts

theorem wordLength?_append {word : String} (spaced : Spaced tail)
    (starts : startsWithWord word.toList word.toList = true) :
    wordLength? (word.toList ++ tail) word = some word.toList.length := by
  simp [wordLength?, startsWithWord_append starts tail, spaced.wordEnds]

theorem findSome?_words (before : List String) (word : String) (others : List String)
    (spaced : Spaced tail) (starts : startsWithWord word.toList word.toList = true)
    (unread : (before.all fun other => (wordLength? (word.toList ++ tail) other).isNone) = true) :
    (before ++ word :: others).findSome? (wordLength? (word.toList ++ tail)) =
      some word.toList.length := by
  have none : before.findSome? (wordLength? (word.toList ++ tail)) = none :=
    List.findSome?_eq_none_iff.mpr fun other member =>
      Option.isNone_iff_eq_none.mp (List.all_eq_true.mp unread other member)
  rw [List.findSome?_append, none, Option.none_or, List.findSome?_cons,
    wordLength?_append spaced starts]

theorem readBack_null (content : t.content = .data .null) (spaced : Spaced tail) :
    ReadBack last t tail := by
  have legible : Legible last t.content := content ▸ .null
  have display : t.display = "null" := by simp [Token.display, content, Value.display]
  refine readBack_of_scan (i := 1) legible rfl ?_ ?_ rfl ?_ ?_ <;> rw [display]
  · exact unread_of_all rfl
  · exact wordLength?_append spaced rfl
  · rw [content]
    rfl
  · exact nofun

theorem readBack_truth {b : Bool} (content : t.content = .data (.logical b))
    (spaced : Spaced tail) : ReadBack last t tail := by
  have legible : Legible last t.content := content ▸ .truth b
  have display : t.display = if b then "true" else "false" := by
    simp [Token.display, content, Value.display]
  refine readBack_of_scan (i := 12) legible rfl ?_ ?_ rfl ?_ ?_ <;> rw [display]
  · exact unread_of_all (by cases b <;> rfl)
  · cases b with
    | true => exact findSome?_words [] "true" ["false"] spaced rfl rfl
    | false => exact findSome?_words ["true"] "false" [] spaced rfl rfl
  · rw [content]
    cases b <;> rfl
  · cases b <;> exact nofun

theorem readBack_combinator {word : Combinator} (content : t.content = .symbol (.combinator word))
    (spaced : Spaced tail) : ReadBack last t tail := by
  have legible : Legible last t.content := content ▸ .combinator word
  have display := display_of_symbol content
  refine readBack_of_scan (i := 11) legible rfl ?_ ?_ rfl ?_ ?_ <;> rw [display]
  · exact unread_of_all (by cases word <;> rfl)
  · cases word with
    | and => exact findSome?_words [] "and" ["or"] spaced rfl rfl
    | or => exact findSome?_words ["and"] "or" [] spaced rfl rfl
  · rw [content]
    cases word <;> rfl
  · cases word <;> exact nofun

theorem readBack_caseWord {word : CaseWord} (content : t.content = .symbol (.caseWord word))
    (spaced : Spaced tail) : ReadBack last t tail := by
  have legible : Legible last t.content := content ▸ .caseWord word
  have display := display_of_symbol content
  have lower : Text.lowerAfter [] word.text.toList = word.text.toList := by
    cases word <;> decide +kernel
  refine readBack_of_scan (i := 9) legible rfl ?_ ?_ rfl ?_ ?_ <;> rw [display]
  · exact unread_of_all (by cases word <;> rfl)
  · rw [caseStatement_recognize]
    cases word with
    | beginCase => exact findSome?_words [] "case" _ spaced rfl rfl
    | endCase => exact findSome?_words ["case"] "end" _ spaced rfl rfl
    | consequent => exact findSome?_words ["case", "end"] "then" _ spaced rfl rfl
    | condition => exact findSome?_words ["case", "end", "then"] "when" _ spaced rfl rfl
    | alternative => exact findSome?_words ["case", "end", "then", "when"] "else" _ spaced rfl rfl
  · rw [content]
    simp only [Symbol.text, caseStatement, lower]
    cases word <;> rfl
  · cases word <;> exact nofun

/-! Literals -/

theorem isNameChar_of_isDigit {c : Char} (digit : c.isDigit = true) : isNameChar c = true :=
  isNameChar_of_isWordChar
    (Text.isWordChar_of_isDecimalDigit (Text.isDecimalDigit_of_isDigit digit))

def signs : List Char := "^+-*/%|&(),<>!=".toList

theorem signLength?_eq_none {c : Char} (name : isNameChar c = true) (text : List Char)
    {sign : String} (begins : ∃ x ∈ signs, sign.toList.head? = some x) :
    signLength? (c :: text) sign = none := by
  obtain ⟨x, member, first⟩ := begins
  obtain ⟨others, spelled⟩ := List.head?_eq_some_iff.mp first
  have other : x ≠ c := by
    rintro rfl
    have noName : ∀ x ∈ signs, isNameChar x = false := by decide +kernel
    rw [noName x member] at name
    cases name
  simp [signLength?, spelled, other]

theorem recognize_eq_none_of_isNameChar {c : Char} (name : isNameChar c = true)
    (text : List Char) : ∀ s ∈ [whitespace, doubleQuoted, singleQuoted, negate, operator, grouping,
      comparator], s.recognize (c :: text) = none := by
  have solid : Text.isBlank c = false := by
    rw [Bool.eq_false_iff]
    intro blank
    rw [not_isNameChar_of_isBlank blank] at name
    cases name
  have noQuote (quote : Char) (foreign : isNameChar quote = false) :
      quotedLength? quote (c :: text) = none := by
    refine if_neg fun same => ?_
    rw [← same.1, name] at foreign
    cases foreign
  have noSign {spellings : List (String × Symbol)}
      (begin : ∀ spelling ∈ spellings, ∃ x ∈ signs, spelling.1.toList.head? = some x) :
      spellings.findSome? (fun spelling => signLength? (c :: text) spelling.1) = none :=
    List.findSome?_eq_none_iff.mpr fun spelling member =>
      signLength?_eq_none name text (begin spelling member)
  simp only [List.forall_mem_cons]
  refine ⟨by simp [whitespace, solid], noQuote '"' (by decide +kernel),
    noQuote '\'' (by decide +kernel), signLength?_eq_none name text (by decide +kernel),
    noSign (by decide +kernel), noSign (by decide +kernel), noSign (by decide +kernel), nofun⟩

theorem not_isFormOf_digit {c : Char} (digit : c.isDigit = true) : isFormOf 'n' c = false := by
  have ascii : ∀ n < 58, 48 ≤ n → isFormOf 'n' (Char.ofNat n) = false := by decide
  obtain ⟨least, most⟩ := Text.isDigit_bounds digit
  have here := ascii c.toNat (by omega) least
  rwa [Char.ofNat_toNat] at here

theorem scan_chars {d : Decimal} (positive : 0 ≤ d.coeff) :
    ∃ n : Number, n.toDecimal = d ∧ ∀ last tail, Spaced tail →
      ScannerSet.standard.scan last (d.chars ++ tail) = .ok (some
        ⟨[⟨.data (.number n), byteLength d.chars⟩], d.chars, tail⟩) := by
  obtain ⟨n, value, same⟩ := numeralValue_chars positive
  obtain ⟨first, others, chars, digit⟩ := Decimal.chars_eq_cons positive
  have noMinus : '-' ∉ d.chars := fun member =>
    (Decimal.isDigit_or_point_of_mem_chars positive member).elim (by decide) (by decide)
  refine ⟨n, same, fun last tail spaced => ?_⟩
  have noBlank := recognize_eq_none_of_isNameChar (isNameChar_of_isDigit digit) (others ++ tail)
    whitespace (by simp)
  have noNull : null.recognize (first :: (others ++ tail)) = none := by
    simp [null, wordLength?, startsWithWord, not_isFormOf_digit digit]
  refine scan_standard (i := 3) rfl ?_ (numeralLength?_chars positive spaced) rfl ?_ ?_
  · have early : Unread last 2 (d.chars ++ tail) := by
      rw [chars]
      exact unread_of_all (by simp [ScannerSet.standard, noBlank, noNull])
    exact early.next rfl (.inl (dateTime_recognize_eq_none noMinus spaced.parted))
  · simp only [numeric, value]
    rfl
  · rw [chars]
    exact List.cons_ne_nil _ _

theorem readBack_number {n : Number} (content : t.content = .data (.number n))
    (unsigned : 0 ≤ n.toDecimal.coeff) (spaced : Spaced tail) : ReadBack last t tail := by
  have display : t.display.toList = n.toDecimal.normalize.chars := by
    simp [Token.display, content, Value.display, Number.text, Decimal.text]
  obtain ⟨again, same, found⟩ := scan_chars (Decimal.nonneg_normalize.mpr unsigned)
  refine ⟨⟨.data (.number again), byteLength n.toDecimal.normalize.chars⟩, ?_, ?_, ?_⟩
  · rw [display]
    exact found last tail spaced
  · simp only [Token.same, content, Content.same, Value.same, Number.order, same,
      Decimal.order_normalize]
    rfl
  · simp [startsOperand, Token.category, Token.isOpening, Token.isComma, Token.isGrouping,
      Token.symbol?, content, Value.category]

theorem readBack_text {s : String} (content : t.content = .data (.text s))
    (closed : '"' ∉ s.toList) : ReadBack last t tail := by
  have legible : Legible last t.content := content ▸ .text closed
  have display : t.display.toList = '"' :: (s.toList ++ ['"']) := by
    simp [Token.display, content]
  have inner : (s.toList ++ '"' :: tail).takeWhile (· != '"') = s.toList := by
    refine takeWhile_append_of_stop (fun c member => bne_iff_ne.mpr ?_) fun c first => ?_
    · rintro rfl
      exact closed member
    · cases first
      rfl
  refine readBack_of_scan (i := 4) legible rfl ?_ ?_ rfl ?_ ?_ <;> rw [display]
  · exact unread_of_all rfl
  · simp [doubleQuoted, quotedScanner, quotedLength?, inner]
  · simp [doubleQuoted, quotedScanner, content]
  · exact nofun

/-! Names -/

theorem unread_name (last : Option Token) {name : List Char}
    (begins : ∃ c others, name = c :: others ∧ isNameChar c = true)
    (unreserved : Unreserved (name ++ tail)) :
    Unread last 13 (name ++ tail) := by
  obtain ⟨c, others, rfl, isName⟩ := begins
  have noSign := recognize_eq_none_of_isNameChar isName (others ++ tail)
  simp only [Unreserved, List.forall_mem_cons, List.cons_append] at unreserved noSign
  obtain ⟨noNull, noDate, noNumeral, noCase, noJunction, noTruth, _⟩ := unreserved
  obtain ⟨noBlank, noDouble, noSingle, noMinus, noOperator, noBracket, noComparator, _⟩ := noSign
  refine unread_of_all ?_
  simp [ScannerSet.standard, noBlank, noNull, noDate, noNumeral, noDouble, noSingle, noMinus,
    noOperator, noBracket, noCase, noComparator, noJunction, noTruth]

theorem IsName.begins {name : List Char} (isName : IsName name) :
    ∃ c others, name = c :: others ∧ isNameChar c = true := by
  cases name with
  | nil =>
    obtain ⟨c, last, _⟩ := isName.last
    cases last
  | cons c others => exact ⟨c, others, rfl, isName.chars c List.mem_cons_self⟩

theorem IsHead.begins {head : List Char} (isHead : IsHead head) :
    ∃ c others, head = c :: others ∧ isNameChar c = true := by
  obtain ⟨word, mark, rfl, called⟩ := isHead.called
  obtain ⟨c, others, rfl⟩ := List.exists_cons_of_ne_nil called.some_char
  exact ⟨c, others ++ mark, rfl, isNameChar_of_isWordChar (called.chars c List.mem_cons_self)⟩

theorem readBack_name {name : String} (content : t.content = .identifier name)
    (isName : IsName name.toList) (spaced : Spaced tail)
    (apart : '.' ∈ name.toList ∨
      ∀ c, tail.tail.head? = some c → c ≠ '(' ∧ Text.isBlank c = false) :
    ReadBack last t tail := by
  have display : t.display = name := by simp [Token.display, content]
  have self : t.content.same t.content = true := by simp [Content.same, content]
  have early := unread_name last isName.begins (isName.unreserved tail spaced)
  have unread : Unread last 14 (name.toList ++ tail) :=
    early.next rfl (.inl (isName.not_called spaced apart))
  obtain ⟨c, others, chars, _⟩ := isName.begins
  refine ⟨⟨t.content, byteLength name.toList⟩, ?_, echoes_of_content rfl self⟩
  rw [display]
  refine scan_standard (i := 14) rfl unread (isName.recognize spaced) rfl ?_ ?_
  · simp only [identifier, isName.lower, String.ofList_toList, content]
    rfl
  · rw [chars]
    exact List.cons_ne_nil _ _

theorem scan_head (last : Option Token) {name : Name}
    (isHead : IsHead name.text.toList) (tail : List Char) :
    ScannerSet.standard.scan last (name.text.toList ++ ' ' :: '(' :: tail) =
      .ok (some ⟨[⟨.symbol (.function name), byteLength (name.text.toList ++ [' '])⟩,
        ⟨.symbol (.grouping .callOpening), 1⟩], name.text.toList ++ [' ', '('], tail⟩) := by
  obtain ⟨word, mark, parts, called⟩ := isHead.called
  have blank : ∀ c ∈ [' '], Text.isBlank c = true := by decide
  have trimmed : Text.trim (name.text.toList ++ [' ']) = name.text.toList := by
    rw [parts, List.append_assoc, called.trim blank]
  have recognized := called.recognize blank tail
  have unread := unread_name last isHead.begins (isHead.unreserved _ (.blank ('(' :: tail)))
  have size : (name.text.toList ++ [' ', '(']).length =
      word.length + mark.length + [' '].length + 1 := by
    rw [parts, List.length_append, List.length_append]
    rfl
  have cut : name.text.toList ++ ' ' :: '(' :: tail =
      (name.text.toList ++ [' ', '(']) ++ tail := by simp
  rw [← size, ← List.append_assoc, ← parts, List.singleton_append, cut] at recognized
  rw [cut] at unread ⊢
  refine scan_standard (i := 13) rfl unread recognized rfl ?_ (by simp)
  have front : (name.text.toList ++ [' ', '(']).dropLast = name.text.toList ++ [' '] :=
    List.dropLast_append_of_ne_nil (by simp)
  simp only [function, front, trimmed, String.ofList_toList, Name.ofText_text]

end

end

end Formulary
