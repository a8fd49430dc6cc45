import Formulary.Error
import Formulary.Token

/-!
Scanners: each knows the lexemes of one kind at the front of a text, and the tokens they stand
for. Of a set the first scanner that recognizes a lexeme is heard.
-/
namespace Formulary

def byteLength : List Char → Nat
  | [] => 0
  | c :: rest => c.utf8Size + byteLength rest

structure Scanner where
  name : String
  category : Category
  /-- The length of the lexeme at the front of a text. -/
  recognize : List Char → Option Nat
  convert : List Char → Outcome (List Token)
  /-- Whether the scanner is heard behind the token before the text, if there is one. -/
  admits : Option Token → Bool := fun _ => true

structure Scanned where
  tokens : List Token
  lexeme : List Char
  rest : List Char

def Scanner.scan (s : Scanner) (last : Option Token) (text : List Char) :
    Outcome (Option Scanned) :=
  match s.recognize text with
  | none => .ok none
  | some length =>
    if s.admits last then do
      let tokens ← s.convert (text.take length)
      return some ⟨tokens, text.take length, text.drop length⟩
    else .ok none

theorem Scanner.lexeme_append_rest {s : Scanner} {last : Option Token} {text : List Char}
    {scanned : Scanned} (found : s.scan last text = .ok (some scanned)) :
    scanned.lexeme ++ scanned.rest = text := by
  unfold scan at found
  split at found
  · cases found
  · split at found
    · simp only [bind, Except.bind, pure, Except.pure] at found
      split at found
      · cases found
      · cases found
        exact List.take_append_drop _ _
    · cases found

structure ScannerSet where
  scanners : List Scanner

namespace ScannerSet

def empty : ScannerSet := ⟨[]⟩

/-- Puts a scanner in the place of the one with its name, or behind all others. -/
def register (set : ScannerSet) (s : Scanner) : ScannerSet :=
  if set.scanners.any (·.name == s.name) then
    ⟨set.scanners.map fun other => if other.name == s.name then s else other⟩
  else ⟨set.scanners ++ [s]⟩

/-- Puts a scanner in front of all others, and removes the one with its name. -/
def registerFirst (set : ScannerSet) (s : Scanner) : ScannerSet :=
  ⟨s :: set.scanners.filter (·.name != s.name)⟩

def retain (set : ScannerSet) (names : List String) : ScannerSet :=
  ⟨set.scanners.filter fun s => names.contains s.name⟩

def firstScan (last : Option Token) (text : List Char) : List Scanner → Outcome (Option Scanned)
  | [] => .ok none
  | s :: others => do
    match ← s.scan last text with
    | none => firstScan last text others
    | some scanned =>
      if scanned.lexeme.isEmpty then
        .error (.lexical (.zeroWidth s.name (String.ofList text)))
      else return some scanned

def scan (set : ScannerSet) (last : Option Token) (text : List Char) : Outcome (Option Scanned) :=
  firstScan last text set.scanners

theorem rest_shorter_of_firstScan {last : Option Token} {text : List Char} {scanners : List Scanner}
    {scanned : Scanned} (found : firstScan last text scanners = .ok (some scanned)) :
    scanned.rest.length < text.length := by
  induction scanners with
  | nil => cases found
  | cons s others ih =>
    simp only [firstScan, bind, Except.bind] at found
    split at found
    · cases found
    · next result here =>
      cases result with
      | none => exact ih found
      | some first =>
        simp only at found
        split at found
        · cases found
        · next nonempty =>
          cases found
          have whole := congrArg List.length (Scanner.lexeme_append_rest here)
          have nonblank : scanned.lexeme ≠ [] := by simpa using nonempty
          have := List.length_pos_iff.mpr nonblank
          rw [List.length_append] at whole
          omega

theorem rest_shorter {set : ScannerSet} {last : Option Token} {text : List Char} {scanned : Scanned}
    (found : set.scan last text = .ok (some scanned)) : scanned.rest.length < text.length :=
  rest_shorter_of_firstScan found

end ScannerSet

end Formulary
