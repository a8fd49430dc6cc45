import Formulary.Scanner
import Formulary.Text.Blank
import Formulary.Text.WordChar

/-! Blanks, reserved words, names, and signs with a fixed spelling. -/
namespace Formulary.Lexicon

/-- The character is a form of the lower-case letter: the letter itself, its capital, or one of
    the two old letters that share their capital with `s` and `k`. -/
def isFormOf (letter c : Char) : Bool :=
  c == letter || c.toLower == letter || (letter == 's' && c == 'ſ') ||
    (letter == 'k' && c == Char.ofNat 0x212A)

def startsWithWord : (word text : List Char) → Bool
  | [], _ => true
  | _ :: _, [] => false
  | letter :: word, c :: text => isFormOf letter c && startsWithWord word text

def wordLength? (text : List Char) (word : String) : Option Nat :=
  let length := word.toList.length
  if startsWithWord word.toList text && Text.wordEndsBefore (text.drop length) then some length
  else none

def signLength? (text : List Char) (sign : String) : Option Nat :=
  if sign.toList.isPrefixOf text then some sign.toList.length else none

def tokenOf (content : Content) (lexeme : List Char) : List Token := [⟨content, byteLength lexeme⟩]

def symbolOf (kind : String) (spellings : List (String × Symbol)) (spelled lexeme : List Char) :
    Outcome (List Token) :=
  match spellings.lookup (String.ofList spelled) with
  | some symbol => .ok (tokenOf (.symbol symbol) lexeme)
  | none => .error (.lexical (.unknownLexeme kind (String.ofList lexeme)))

def signScanner (name : String) (category : Category) (spellings : List (String × Symbol)) :
    Scanner where
  name := name
  category := category
  recognize text := spellings.findSome? fun spelling => signLength? text spelling.1
  convert lexeme := symbolOf name spellings lexeme lexeme

def whitespace : Scanner where
  name := "whitespace"
  category := .blank
  recognize text :=
    let length := (text.takeWhile Text.isBlank).length
    if length = 0 then none else some length
  convert lexeme := .ok (tokenOf .blank lexeme)

def null : Scanner where
  name := "null"
  category := .null
  recognize text := wordLength? text "null"
  convert lexeme := .ok (tokenOf (.data .null) lexeme)

def caseWords : List (String × Symbol) := [
  ("case", .caseWord .beginCase), ("end", .caseWord .endCase), ("then", .caseWord .consequent),
  ("when", .caseWord .condition), ("else", .caseWord .alternative)]

/-- The words are looked up in plain lower case, so not all that is recognized is known. -/
def caseStatement : Scanner where
  name := "case_statement"
  category := .case
  recognize text := caseWords.findSome? fun spelling => wordLength? text spelling.1
  convert lexeme := symbolOf "keyword" caseWords (Text.lowerAfter [] lexeme) lexeme

def combinator : Scanner where
  name := "combinator"
  category := .combinator
  recognize text := ["and", "or"].findSome? (wordLength? text)
  convert lexeme :=
    let word := if lexeme.map Char.toLower = "and".toList then Combinator.and else .or
    .ok (tokenOf (.symbol (.combinator word)) lexeme)

def boolean : Scanner where
  name := "boolean"
  category := .logical
  recognize text := ["true", "false"].findSome? (wordLength? text)
  convert lexeme :=
    .ok (tokenOf (.data (.logical (lexeme.map Char.toLower == "true".toList))) lexeme)

def operators : List (String × Symbol) := [
  ("^", .operator .power), ("+", .operator .add), ("-", .operator .subtract),
  ("*", .operator .multiply), ("/", .operator .divide), ("%", .operator .modulo),
  ("|", .operator .bitOr), ("&", .operator .bitAnd)]

def operator : Scanner := signScanner "operator" .operator operators

/-- The token before is none that a left operand could end with. -/
def startsOperand : Option Token → Bool
  | none => true
  | some t =>
    [Category.operator, .comparator, .combinator].contains t.category || t.isOpening || t.isComma

def negate : Scanner where
  name := "negate"
  category := .operator
  recognize text := signLength? text "-"
  convert lexeme := .ok (tokenOf (.symbol (.operator .negate)) lexeme)
  admits := startsOperand

def grouping : Scanner := signScanner "grouping" .grouping [
  ("(", .grouping .opening), (")", .grouping .closing), (",", .grouping .comma)]

def comparator : Scanner := signScanner "comparator" .comparator [
  ("<=", .comparator .lessEqual), (">=", .comparator .greaterEqual),
  ("!=", .comparator .unequal), ("<>", .comparator .unequal), ("<", .comparator .less),
  (">", .comparator .greater), ("==", .comparator .equal), ("=", .comparator .equal)]

/-- The name of a function: a word, perhaps with an exclamation mark, and its opening bracket,
    perhaps with blanks between. -/
def function : Scanner where
  name := "function"
  category := .function
  recognize text :=
    let word := (text.takeWhile Text.isWordChar).length
    let mark := if (text.drop word).head? = some '!' then 1 else 0
    let blanks := ((text.drop (word + mark)).takeWhile Text.isBlank).length
    let head := word + mark + blanks
    if 0 < word ∧ (text.drop head).head? = some '(' then some (head + 1) else none
  convert lexeme :=
    let head := lexeme.dropLast
    let name := Name.ofText (String.ofList (Text.trim head))
    .ok [⟨.symbol (.function name), byteLength head⟩, ⟨.symbol (.grouping .callOpening), 1⟩]

def isNameChar (c : Char) : Bool := Text.isWordChar c || c == '.'

def identifier : Scanner where
  name := "identifier"
  category := .identifier
  recognize text :=
    let length := ((text.takeWhile isNameChar).reverse.dropWhile (· == '.')).length
    if length = 0 then none else some length
  convert lexeme := .ok (tokenOf (.identifier (String.ofList (Text.lowerAfter [] lexeme))) lexeme)

end Formulary.Lexicon
