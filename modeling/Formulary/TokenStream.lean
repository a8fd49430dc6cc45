import Formulary.Bracket
import Formulary.Lexicon.DateTimeLiteral
import Formulary.Lexicon.Literal

/-!
Cutting text into tokens. Blanks are dropped, and no bracket closes that was not opened, nor stays
open at the end.
-/
namespace Formulary

def ScannerSet.standard : ScannerSet := ⟨[
  Lexicon.whitespace, Lexicon.null, Lexicon.dateTime, Lexicon.numeric, Lexicon.doubleQuoted,
  Lexicon.singleQuoted, Lexicon.negate, Lexicon.operator, Lexicon.grouping,
  Lexicon.caseStatement, Lexicon.comparator, Lexicon.combinator, Lexicon.boolean,
  Lexicon.function, Lexicon.identifier]⟩

namespace ScannerSet

/-- The tokens of a text, behind the token `last` and within `depth` open brackets. -/
def tokenizeFrom (set : ScannerSet) (depth : Nat) (last : Option Token) (text : List Char) :
    Outcome (List Token) :=
  if text.isEmpty then
    if depth = 0 then .ok [] else .error (.lexical .tooManyOpening)
  else
    match _found : set.scan last text with
    | .error e => .error e
    | .ok none => .error (.lexical (.unmatched (String.ofList text)))
    | .ok (some scanned) =>
      match endDepth? depth scanned.tokens with
      | none => .error (.lexical .tooManyClosing)
      | some depth =>
        let kept := scanned.tokens.filter (·.category != .blank)
        (tokenizeFrom set depth (kept.getLast?.or last) scanned.rest).map (kept ++ ·)
termination_by text.length
decreasing_by exact rest_shorter _found

def tokenize (set : ScannerSet) (text : String) : Outcome (List Token) :=
  set.tokenizeFrom 0 none text.toList

end ScannerSet

end Formulary
