import Formulary.Proofs.SmallLetters

/-!
What is written in capitals is cut into tokens as it is in small letters. Every scanner reads
lexemes of the same length, and makes the same tokens of them, but for the texts in quotes, which
keep the case that they are written in.
-/
namespace Formulary

open Text

/-! Tokens and errors -/

/-- A text in small letters, as far as `A` to `Z` go; other contents have no case. -/
def Content.lowerText : Content → Content
  | .data (.text s) => .data (.text s.toLower)
  | content => content

def Token.lowerText (t : Token) : Token := { t with content := t.content.lowerText }

def LexicalError.lowerText : LexicalError → LexicalError
  | .unmatched rest => .unmatched rest.toLower
  | .zeroWidth scanner rest => .zeroWidth scanner rest.toLower
  | .invalidNumeral numeral cause => .invalidNumeral numeral.toLower cause
  | .invalidDateTime literal => .invalidDateTime literal.toLower
  | .unknownLexeme kind lexeme => .unknownLexeme kind lexeme.toLower
  | cause => cause

def FormulaError.lowerText : FormulaError → FormulaError
  | .lexical cause => .lexical cause.lowerText
  | e => e

/-- The outcome for the input in small letters, if `f` tells the results apart. -/
def lowerOutcome {α β : Type} (f : α → β) : Outcome α → Outcome β
  | .ok a => .ok (f a)
  | .error e => .error e.lowerText

def Scanned.lowerText (scanned : Scanned) : Scanned where
  tokens := scanned.tokens.map Token.lowerText
  lexeme := scanned.lexeme.map Char.toLower
  rest := scanned.rest.map Char.toLower

theorem Token.lowerText_category (t : Token) : t.lowerText.category = t.category := by
  obtain ⟨content, width⟩ := t
  cases content with
  | data value => cases value <;> rfl
  | identifier name => rfl
  | symbol symbol => rfl
  | blank => rfl

theorem Token.lowerText_isGrouping (mark : Grouping) (t : Token) :
    t.lowerText.isGrouping mark = t.isGrouping mark := by
  obtain ⟨content, width⟩ := t
  cases content with
  | data value => cases value <;> rfl
  | identifier name => rfl
  | symbol symbol => rfl
  | blank => rfl

theorem depthAfter?_lowerText (depth : Nat) (t : Token) :
    depthAfter? depth t.lowerText = depthAfter? depth t := by
  have opens : t.lowerText.isOpening = t.isOpening := by
    simp only [Token.isOpening, Token.lowerText_isGrouping]
  have closes : t.lowerText.isClosing = t.isClosing := by
    simp only [Token.isClosing, Token.lowerText_isGrouping]
  rw [depthAfter?.eq_def, depthAfter?.eq_def depth t, opens, closes]

theorem endDepth?_lowerText (depth : Nat) (tokens : List Token) :
    endDepth? depth (tokens.map Token.lowerText) = endDepth? depth tokens := by
  induction tokens generalizing depth with
  | nil => rfl
  | cons t rest ih => simp only [List.map_cons, endDepth?, depthAfter?_lowerText, ih]

theorem Scanned.kept_lowerText (scanned : Scanned) :
    scanned.lowerText.kept = scanned.kept.map Token.lowerText := by
  simp only [Scanned.kept, Scanned.lowerText, List.filter_map, Function.comp_def,
    Token.lowerText_category]

/-! Scanners of any set -/

/-- The scanner does with a text in small letters what it does with the text. -/
structure Scanner.IgnoresCase (s : Scanner) : Prop where
  recognize (text : List Char) : s.recognize (text.map Char.toLower) = s.recognize text
  convert (lexeme : List Char) : s.convert (lexeme.map Char.toLower) =
    lowerOutcome (List.map Token.lowerText) (s.convert lexeme)
  admits (last : Option Token) : s.admits (last.map Token.lowerText) = s.admits last

theorem Scanner.IgnoresCase.scan {s : Scanner} (blind : s.IgnoresCase) (last : Option Token)
    (text : List Char) : s.scan (last.map Token.lowerText) (text.map Char.toLower) =
      lowerOutcome (Option.map Scanned.lowerText) (s.scan last text) := by
  unfold Scanner.scan
  rw [blind.recognize]
  cases s.recognize text with
  | none => rfl
  | some length =>
    simp only [blind.admits, ← List.map_take, ← List.map_drop, blind.convert]
    split
    · cases s.convert (text.take length) with
      | error e => rfl
      | ok tokens => rfl
    · rfl

namespace ScannerSet

theorem firstScan_lowerText {scanners : List Scanner} (blind : ∀ s ∈ scanners, s.IgnoresCase)
    (last : Option Token) (text : List Char) :
    firstScan (last.map Token.lowerText) (text.map Char.toLower) scanners =
      lowerOutcome (Option.map Scanned.lowerText) (firstScan last text scanners) := by
  induction scanners with
  | nil => rfl
  | cons s others ih =>
    have here := (blind s List.mem_cons_self).scan last text
    have later := ih fun s member => blind s (List.mem_cons_of_mem _ member)
    simp only [firstScan, here, later]
    cases s.scan last text with
    | error e => rfl
    | ok result =>
      cases result with
      | none => rfl
      | some scanned =>
        have empty : scanned.lowerText.lexeme.isEmpty = scanned.lexeme.isEmpty := List.isEmpty_map
        simp only [lowerOutcome, Option.map_some, bind, Except.bind, empty]
        split
        · simp only [FormulaError.lowerText, LexicalError.lowerText, toLower_ofList]
        · rfl

/-- Scanners that ignore case cut texts in the same places, whatever the case. -/
theorem tokenizeFrom_lowerText {set : ScannerSet} (blind : ∀ s ∈ set.scanners, s.IgnoresCase)
    (depth : Nat) (last : Option Token) (text : List Char) :
    set.tokenizeFrom depth (last.map Token.lowerText) (text.map Char.toLower) =
      lowerOutcome (List.map Token.lowerText) (set.tokenizeFrom depth last text) := by
  induction size : text.length using Nat.strongRecOn generalizing depth last text with
  | ind n ih =>
    by_cases more : text = []
    · subst more
      rw [List.map_nil, tokenizeFrom_nil, tokenizeFrom_nil]
      split
      · rfl
      · rfl
    · have moreSmall : text.map Char.toLower ≠ [] := mt List.map_eq_nil_iff.mp more
      have small : set.scan (last.map Token.lowerText) (text.map Char.toLower) =
          lowerOutcome (Option.map Scanned.lowerText) (set.scan last text) :=
        firstScan_lowerText blind last text
      cases found : set.scan last text with
      | error e =>
        rw [found] at small
        rw [tokenizeFrom_error more found, tokenizeFrom_error moreSmall small]
        rfl
      | ok result =>
        rw [found] at small
        cases result with
        | none =>
          rw [tokenizeFrom_unmatched more found, tokenizeFrom_unmatched moreSmall small,
            ← toLower_ofList]
          rfl
        | some scanned =>
          rw [tokenizeFrom_lexeme found, tokenizeFrom_lexeme small, Scanned.kept_lowerText,
            endDepth?_lowerText, List.getLast?_map, ← Option.map_or]
          cases endDepth? depth scanned.kept with
          | none => rfl
          | some next =>
            have rest := ih _ (size ▸ rest_shorter found) next (scanned.kept.getLast?.or last)
              scanned.rest rfl
            simp only [Scanned.lowerText, rest]
            cases set.tokenizeFrom next (scanned.kept.getLast?.or last) scanned.rest with
            | error e => rfl
            | ok tokens => simp only [lowerOutcome, Except.map, List.map_append]

end ScannerSet

/-! The standard scanners -/

namespace Lexicon

theorem convert_tokenOf {content : Content} (noText : content.lowerText = content)
    (lexeme : List Char) : .ok (tokenOf content (lexeme.map Char.toLower)) =
      lowerOutcome (List.map Token.lowerText) (.ok (tokenOf content lexeme)) := by
  simp only [lowerOutcome, tokenOf, List.map_cons, List.map_nil, Token.lowerText, noText,
    byteLength_toLower]

theorem convert_symbolOf (kind : String) {spellings : List (String × Symbol)}
    {spelled small : List Char}
    (same : spellings.lookup (String.ofList small) = spellings.lookup (String.ofList spelled))
    (lexeme : List Char) : symbolOf kind spellings small (lexeme.map Char.toLower) =
      lowerOutcome (List.map Token.lowerText) (symbolOf kind spellings spelled lexeme) := by
  simp only [symbolOf, same]
  split
  · exact convert_tokenOf rfl lexeme
  · simp only [lowerOutcome, FormulaError.lowerText, LexicalError.lowerText, toLower_ofList]

theorem numeralValue_toLower (numeral : List Char) :
    numeralValue (numeral.map Char.toLower) = lowerOutcome id (numeralValue numeral) := by
  have padded : (if (numeral.map Char.toLower).head? = some '.'
      then '0' :: numeral.map Char.toLower else numeral.map Char.toLower) =
        (if numeral.head? = some '.' then '0' :: numeral else numeral).map Char.toLower := by
    simp only [head?_toLower '.' (by decide)]
    split
    · rfl
    · rfl
  simp only [numeralValue, padded, Decimal.natOfDigits?_toLower, Decimal.ofScientific_toLower]
  split
  · rfl
  · split
    · rfl
    · simp only [lowerOutcome, FormulaError.lowerText, LexicalError.lowerText, toLower_ofList]

theorem startsOperand_lowerText (last : Option Token) :
    startsOperand (last.map Token.lowerText) = startsOperand last := by
  cases last with
  | none => rfl
  | some t =>
    simp only [Option.map_some, startsOperand, Token.lowerText_category, Token.isOpening,
      Token.isComma, Token.lowerText_isGrouping]

theorem ignoresCase_whitespace : whitespace.IgnoresCase where
  recognize text := by
    simp only [whitespace, takeWhile_toLower isBlank_toLower, List.length_map]
  convert := convert_tokenOf rfl
  admits _ := rfl

theorem ignoresCase_null : null.IgnoresCase where
  recognize := wordLength?_toLower (by decide)
  convert := convert_tokenOf rfl
  admits _ := rfl

theorem ignoresCase_dateTime : dateTime.IgnoresCase where
  recognize text := by
    simp only [dateTime, DateTimeLiteral.read_toLower]
    cases DateTimeLiteral.read text with
    | none => rfl
    | some found => simp [DateTimeLiteral.lowerRest]
  convert lexeme := by
    have value : ((DateTimeLiteral.read (lexeme.map Char.toLower)).bind fun literal =>
        literal.1.value?) = (DateTimeLiteral.read lexeme).bind fun literal => literal.1.value? := by
      rw [DateTimeLiteral.read_toLower, Option.bind_map]
      rfl
    simp only [dateTime, value]
    split
    · exact convert_tokenOf rfl lexeme
    · simp only [lowerOutcome, FormulaError.lowerText, LexicalError.lowerText, toLower_ofList]
  admits _ := rfl

theorem ignoresCase_numeric : numeric.IgnoresCase where
  recognize := numeralLength?_toLower
  convert lexeme := by
    simp only [numeric, numeralValue_toLower]
    cases numeralValue lexeme with
    | error e => rfl
    | ok n => exact convert_tokenOf rfl lexeme
  admits _ := rfl

theorem ignoresCase_quoted (name : String) {quote : Char} (plain : quote.isAlpha = false) :
    (quotedScanner name quote).IgnoresCase where
  recognize text := by
    have same (c : Char) : (c.toLower != quote) = (c != quote) := by
      rw [Bool.eq_iff_iff, bne_iff_ne, bne_iff_ne, ne_eq, toLower_eq_iff quote plain]
    cases text with
    | nil => rfl
    | cons c rest =>
      have inner := takeWhile_toLower (p := (· != quote)) same rest
      simp only [quotedScanner, List.map_cons, quotedLength?, inner, List.length_map,
        toLower_eq_iff quote plain]
  convert lexeme := by
    simp only [quotedScanner, lowerOutcome, tokenOf, List.map_cons, List.map_nil, Token.lowerText,
      Content.lowerText, toLower_ofList, byteLength_toLower, List.map_tail, List.map_dropLast]
  admits _ := rfl

theorem ignoresCase_negate : negate.IgnoresCase where
  recognize := signLength?_toLower (by decide)
  convert := convert_tokenOf rfl
  admits := startsOperand_lowerText

theorem ignoresCase_sign (name : String) (category : Category) {spellings : List (String × Symbol)}
    (plain : ∀ spelling ∈ spellings, ∀ c ∈ spelling.1.toList, c.isAlpha = false) :
    (signScanner name category spellings).IgnoresCase where
  recognize text := by
    simp only [signScanner]
    induction spellings with
    | nil => rfl
    | cons spelling spellings ih =>
      have here := signLength?_toLower (plain spelling List.mem_cons_self) text
      have later := ih fun spelling member => plain spelling (List.mem_cons_of_mem _ member)
      simp only [List.findSome?_cons, here, later]
  convert lexeme := convert_symbolOf name (lookup_toLower plain lexeme) lexeme
  admits _ := rfl

theorem ignoresCase_caseStatement : caseStatement.IgnoresCase where
  recognize text := by
    have words := findSome?_wordLength?_toLower (caseWords.map Prod.fst) (by decide) text
    rw [List.findSome?_map, List.findSome?_map] at words
    exact words
  convert lexeme := by
    have word : lowerAfter [] (lexeme.map Char.toLower) = lowerAfter [] lexeme :=
      lowerAfter_toLower [] lexeme
    exact convert_symbolOf "keyword" (by rw [word]) lexeme
  admits _ := rfl

theorem ignoresCase_combinator : combinator.IgnoresCase where
  recognize := findSome?_wordLength?_toLower _ (by decide)
  convert lexeme := by
    simp only [combinator, map_toLower_toLower]
    exact convert_tokenOf rfl lexeme
  admits _ := rfl

theorem ignoresCase_boolean : boolean.IgnoresCase where
  recognize := findSome?_wordLength?_toLower _ (by decide)
  convert lexeme := by
    simp only [boolean, map_toLower_toLower]
    exact convert_tokenOf rfl lexeme
  admits _ := rfl

theorem ignoresCase_function : function.IgnoresCase where
  recognize text := by
    simp only [function, takeWhile_toLower isWordChar_toLower, takeWhile_toLower isBlank_toLower,
      ← List.map_drop, List.length_map, head?_toLower '!' (by decide),
      head?_toLower '(' (by decide)]
  convert lexeme := by
    have name : Name.ofText (String.ofList (trim (lexeme.map Char.toLower).dropLast)) =
        Name.ofText (String.ofList (trim lexeme.dropLast)) := by
      rw [← List.map_dropLast, trim_toLower]
      ext1
      simp only [Name.ofText, lower, String.toList_ofList]
      exact congrArg String.ofList (lowerAfter_toLower [] _)
    simp only [function, name]
    rw [← List.map_dropLast, byteLength_toLower]
    rfl
  admits _ := rfl

theorem ignoresCase_identifier : identifier.IgnoresCase where
  recognize text := by
    have same : ∀ c : Char, (c.toLower == '.') = (c == '.') :=
      apply_toLower (f := (· == '.')) (by decide)
    have points := dropWhile_toLower (p := (· == '.')) same (text.takeWhile isNameChar).reverse
    simp only [identifier, takeWhile_toLower isNameChar_toLower, ← List.map_reverse, points,
      List.length_map]
  convert lexeme := by
    have name : lowerAfter [] (lexeme.map Char.toLower) = lowerAfter [] lexeme :=
      lowerAfter_toLower [] lexeme
    simp only [identifier, name]
    exact convert_tokenOf rfl lexeme
  admits _ := rfl

theorem ignoresCase_standard : ∀ s ∈ ScannerSet.standard.scanners, s.IgnoresCase := by
  intro s member
  simp only [ScannerSet.standard, List.mem_cons, List.not_mem_nil, or_false] at member
  rcases member with rfl | rfl | rfl | rfl | rfl | rfl | rfl | rfl | rfl | rfl | rfl | rfl | rfl |
    rfl | rfl
  · exact ignoresCase_whitespace
  · exact ignoresCase_null
  · exact ignoresCase_dateTime
  · exact ignoresCase_numeric
  · exact ignoresCase_quoted "double_quoted_string" (by decide)
  · exact ignoresCase_quoted "single_quoted_string" (by decide)
  · exact ignoresCase_negate
  · exact ignoresCase_sign "operator" .operator (by decide)
  · exact ignoresCase_sign "grouping" .grouping (by decide)
  · exact ignoresCase_caseStatement
  · exact ignoresCase_sign "comparator" .comparator (by decide)
  · exact ignoresCase_combinator
  · exact ignoresCase_boolean
  · exact ignoresCase_function
  · exact ignoresCase_identifier

end Lexicon

/-- A text in small letters gives the tokens of the text, with the texts in quotes in small letters
    too, or else its error. -/
theorem ScannerSet.tokenize_toLower (text : String) : standard.tokenize text.toLower =
    lowerOutcome (List.map Token.lowerText) (standard.tokenize text) := by
  rw [tokenize, Text.toList_toLower]
  exact tokenizeFrom_lowerText Lexicon.ignoresCase_standard 0 none text.toList

end Formulary
