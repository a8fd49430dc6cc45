import Formulary.Matched
import Formulary.TokenStream

/-!
Cutting text into tokens, lexeme by lexeme. `Reads` follows the scanners alone; the tokenizer
follows them as long as no bracket closes that was not opened, and accepts what it has read at the
end of the text if none is open any more.
-/
namespace Formulary

def openings (tokens : List Token) : Nat := tokens.countP Token.isOpening

def closings (tokens : List Token) : Nat := tokens.countP Token.isClosing

theorem Token.isClosing_of_isOpening {t : Token} (opens : t.isOpening = true) :
    t.isClosing = false := by
  simp only [isOpening, isClosing, isGrouping, Bool.or_eq_true, beq_iff_eq] at opens ⊢
  rcases opens with same | same <;> rw [same] <;> rfl

theorem depthAfter?_count {depth next : Nat} {t : Token} (after : depthAfter? depth t = some next) :
    next + closings [t] = depth + openings [t] := by
  unfold depthAfter? at after
  by_cases opens : t.isOpening = true
  · rw [if_pos opens] at after
    cases after
    simp [closings, openings, opens, Token.isClosing_of_isOpening opens]
  · rw [if_neg opens] at after
    by_cases closes : t.isClosing = true
    · rw [if_pos closes] at after
      cases depth with
      | zero => cases after
      | succ depth =>
        cases after
        simp [closings, openings, opens, closes]
    · rw [if_neg closes] at after
      cases after
      simp [closings, openings, opens, closes]

theorem closings_of_depthAfter? {depth : Nat} {t : Token} (failed : depthAfter? depth t = none) :
    depth = 0 ∧ closings [t] = 1 ∧ openings [t] = 0 := by
  unfold depthAfter? at failed
  by_cases opens : t.isOpening = true
  · rw [if_pos opens] at failed
    cases failed
  · rw [if_neg opens] at failed
    by_cases closes : t.isClosing = true
    · rw [if_pos closes] at failed
      cases depth with
      | zero => simp [closings, openings, opens, closes]
      | succ depth => cases failed
    · rw [if_neg closes] at failed
      cases failed

theorem openings_append (left right : List Token) :
    openings (left ++ right) = openings left + openings right := List.countP_append

theorem closings_append (left right : List Token) :
    closings (left ++ right) = closings left + closings right := List.countP_append

theorem openings_cons (t : Token) (rest : List Token) :
    openings (t :: rest) = openings [t] + openings rest := openings_append [t] rest

theorem closings_cons (t : Token) (rest : List Token) :
    closings (t :: rest) = closings [t] + closings rest := closings_append [t] rest

theorem endDepth?_eq_some_iff {depth final : Nat} {tokens : List Token} :
    endDepth? depth tokens = some final ↔
      (∀ n, closings (tokens.take n) ≤ depth + openings (tokens.take n)) ∧
        final + closings tokens = depth + openings tokens := by
  induction tokens generalizing depth with
  | nil => simp [endDepth?, closings, openings, eq_comm]
  | cons t rest ih =>
    simp only [endDepth?]
    cases after : depthAfter? depth t with
    | none =>
      obtain ⟨bottom, closes, opens⟩ := closings_of_depthAfter? after
      simp only [Option.bind_none, reduceCtorEq, false_iff, not_and]
      intro every
      have first := every 1
      rw [List.take_succ_cons, List.take_zero] at first
      omega
    | some next =>
      have step := depthAfter?_count after
      rw [Option.bind_some, ih, openings_cons, closings_cons]
      refine and_congr ⟨fun every n => ?_, fun every n => ?_⟩ (by omega)
      · cases n with
        | zero => simp [closings, openings]
        | succ n =>
          have here := every n
          rw [List.take_succ_cons, openings_cons, closings_cons]
          omega
      · have here := every (n + 1)
        rw [List.take_succ_cons, openings_cons, closings_cons] at here
        omega

theorem endDepth?_filter_blank (depth : Nat) (tokens : List Token) :
    endDepth? depth (tokens.filter (·.category != .blank)) = endDepth? depth tokens := by
  induction tokens generalizing depth with
  | nil => rfl
  | cons t rest ih =>
    by_cases blank : t.category = .blank
    · have other : t.category ≠ .grouping := by rw [blank]; decide
      have same : depthAfter? depth t = some depth := by
        simp [depthAfter?, Token.isOpening, Token.isClosing, Token.not_isGrouping other]
      rw [List.filter_cons_of_neg (by simp [blank]), ih, endDepth?, same, Option.bind_some]
    · rw [List.filter_cons_of_pos (by simp [blank])]
      simp only [endDepth?, ih]

def Scanned.kept (scanned : Scanned) : List Token := scanned.tokens.filter (·.category != .blank)

namespace ScannerSet

/-- Behind the token `last`, the scanners make these tokens of a text up to what is left of it. -/
inductive Reads (set : ScannerSet) : Option Token → List Char → List Token → List Char → Prop where
  | nothing (last : Option Token) (text : List Char) : Reads set last text [] text
  | lexeme {last : Option Token} {text rest : List Char} {scanned : Scanned} {tokens : List Token}
      (found : set.scan last text = .ok (some scanned))
      (later : Reads set (scanned.kept.getLast?.or last) scanned.rest tokens rest) :
      Reads set last text (scanned.kept ++ tokens) rest

variable {set : ScannerSet} {last : Option Token} {text rest : List Char} {tokens : List Token}
  {depth : Nat}

theorem ne_nil_of_scan {scanned : Scanned} (found : set.scan last text = .ok (some scanned)) :
    text ≠ [] := by
  intro none
  have shorter := rest_shorter found
  rw [none] at shorter
  exact Nat.not_lt_zero _ shorter

theorem tokenizeFrom_nil (set : ScannerSet) (depth : Nat) (last : Option Token) :
    set.tokenizeFrom depth last [] =
      if depth = 0 then .ok [] else .error (.lexical .tooManyOpening) := by
  rw [tokenizeFrom]
  rfl

theorem tokenizeFrom_error {e : FormulaError} (more : text ≠ [])
    (failed : set.scan last text = .error e) : set.tokenizeFrom depth last text = .error e := by
  rw [tokenizeFrom, if_neg (by simpa using more)]
  split
  · next other => rw [failed] at other; cases other; rfl
  · next other => rw [failed] at other; cases other
  · next other => rw [failed] at other; cases other

theorem tokenizeFrom_unmatched (more : text ≠ []) (stuck : set.scan last text = .ok none) :
    set.tokenizeFrom depth last text =
      .error (.lexical (.unmatched (String.ofList text))) := by
  rw [tokenizeFrom, if_neg (by simpa using more)]
  split
  · next other => rw [stuck] at other; cases other
  · rfl
  · next other => rw [stuck] at other; cases other

theorem tokenizeFrom_lexeme {scanned : Scanned} (found : set.scan last text = .ok (some scanned)) :
    set.tokenizeFrom depth last text =
      match endDepth? depth scanned.kept with
      | none => .error (.lexical .tooManyClosing)
      | some depth => (set.tokenizeFrom depth (scanned.kept.getLast?.or last) scanned.rest).map
          (scanned.kept ++ ·) := by
  rw [tokenizeFrom, if_neg (by simpa using ne_nil_of_scan found)]
  split
  · next other => rw [found] at other; cases other
  · next other => rw [found] at other; cases other
  · next other here =>
    obtain rfl := Option.some.inj (Except.ok.inj (here.symm.trans found))
    have kept : endDepth? depth other.kept = endDepth? depth other.tokens :=
      endDepth?_filter_blank depth other.tokens
    rw [kept]
    cases endDepth? depth other.tokens with
    | none => rfl
    | some next => rfl

theorem tokenizeFrom_of_reads (reads : set.Reads last text tokens rest) (depth : Nat) :
    set.tokenizeFrom depth last text =
      match endDepth? depth tokens with
      | none => .error (.lexical .tooManyClosing)
      | some depth =>
        (set.tokenizeFrom depth (tokens.getLast?.or last) rest).map (tokens ++ ·) := by
  induction reads generalizing depth with
  | nothing last text =>
    simp only [endDepth?, List.getLast?_nil, Option.none_or, List.nil_append]
    cases set.tokenizeFrom depth last text <;> rfl
  | @lexeme last text rest scanned tokens found later ih =>
    rw [tokenizeFrom_lexeme found, endDepth?_append]
    cases endDepth? depth scanned.kept with
    | none => rfl
    | some next =>
      simp only [Option.bind_some, ih next, List.getLast?_append, Option.or_assoc]
      cases endDepth? next tokens with
      | none => rfl
      | some final =>
        dsimp only
        cases set.tokenizeFrom final (tokens.getLast?.or (scanned.kept.getLast?.or last)) rest with
        | error e => rfl
        | ok others => simp only [Except.map, List.append_assoc]

theorem exists_reads (set : ScannerSet) (last : Option Token) (text : List Char) :
    ∃ tokens rest, set.Reads last text tokens rest ∧
      (rest = [] ∨ rest ≠ [] ∧
        ∀ scanned, set.scan (tokens.getLast?.or last) rest ≠ .ok (some scanned)) := by
  induction size : text.length using Nat.strongRecOn generalizing last text with
  | ind n ih =>
    by_cases more : text = []
    · exact ⟨[], text, .nothing last text, .inl more⟩
    · by_cases reads : ∃ scanned, set.scan last text = .ok (some scanned)
      · obtain ⟨scanned, found⟩ := reads
        obtain ⟨tokens, rest, later, stops⟩ :=
          ih _ (size ▸ rest_shorter found) (scanned.kept.getLast?.or last) scanned.rest rfl
        refine ⟨scanned.kept ++ tokens, rest, .lexeme found later, ?_⟩
        rw [List.getLast?_append, Option.or_assoc]
        exact stops
      · exact ⟨[], text, .nothing last text, .inr ⟨more, fun scanned found =>
          reads ⟨scanned, found⟩⟩⟩

inductive Verdict (set : ScannerSet) (depth : Nat) (last : Option Token) (text : List Char) :
    Outcome (List Token) → Prop where
  | accepted {tokens : List Token} (reads : set.Reads last text tokens [])
      (closed : endDepth? depth tokens = some 0) : Verdict set depth last text (.ok tokens)
  | tooManyOpening {read : List Token} {still : Nat} (reads : set.Reads last text read [])
      (opened : endDepth? depth read = some (still + 1)) :
      Verdict set depth last text (.error (.lexical .tooManyOpening))
  | tooManyClosing {read : List Token} {rest : List Char} (reads : set.Reads last text read rest)
      (closed : endDepth? depth read = none) :
      Verdict set depth last text (.error (.lexical .tooManyClosing))
  | unmatched {read : List Token} {rest : List Char} (reads : set.Reads last text read rest)
      (stuck : set.scan (read.getLast?.or last) rest = .ok none) :
      Verdict set depth last text (.error (.lexical (.unmatched (String.ofList rest))))
  | refused {read : List Token} {rest : List Char} {e : FormulaError}
      (reads : set.Reads last text read rest)
      (failed : set.scan (read.getLast?.or last) rest = .error e) :
      Verdict set depth last text (.error e)

theorem verdict (set : ScannerSet) (depth : Nat) (last : Option Token) (text : List Char) :
    set.Verdict depth last text (set.tokenizeFrom depth last text) := by
  obtain ⟨read, rest, reads, stops⟩ := set.exists_reads last text
  rw [tokenizeFrom_of_reads reads depth]
  cases ends : endDepth? depth read with
  | none => exact .tooManyClosing reads ends
  | some final =>
    dsimp only
    rcases stops with rfl | ⟨more, stuck⟩
    · rw [tokenizeFrom_nil]
      cases final with
      | zero =>
        rw [if_pos rfl]
        simp only [Except.map, List.append_nil]
        exact .accepted reads ends
      | succ still => exact .tooManyOpening reads ends
    · cases found : set.scan (read.getLast?.or last) rest with
      | error e =>
        rw [tokenizeFrom_error more found]
        exact .refused reads found
      | ok result =>
        cases result with
        | none =>
          rw [tokenizeFrom_unmatched more found]
          exact .unmatched reads found
        | some scanned => exact absurd found (stuck scanned)

/-- The tokenizer accepts what has been read to the end of the text with all brackets closed. -/
theorem tokenizeFrom_eq_ok_iff : set.tokenizeFrom depth last text = .ok tokens ↔
    set.Reads last text tokens [] ∧ endDepth? depth tokens = some 0 := by
  constructor
  · intro accepted
    have verdict := set.verdict depth last text
    rw [accepted] at verdict
    cases verdict with
    | accepted reads closed => exact ⟨reads, closed⟩
  · rintro ⟨reads, closed⟩
    rw [tokenizeFrom_of_reads reads depth, closed]
    simp only [tokenizeFrom_nil, Except.map, if_true, List.append_nil]

theorem tokenizeFrom_eq_tooManyOpening_iff
    (silent : ∀ last text, set.scan last text ≠ .error (.lexical .tooManyOpening)) :
    set.tokenizeFrom depth last text = .error (.lexical .tooManyOpening) ↔
      ∃ read still, set.Reads last text read [] ∧ endDepth? depth read = some (still + 1) := by
  constructor
  · intro rejected
    have verdict := set.verdict depth last text
    rw [rejected] at verdict
    cases verdict with
    | tooManyOpening reads opened => exact ⟨_, _, reads, opened⟩
    | refused reads failed => exact absurd failed (silent _ _)
  · rintro ⟨read, still, reads, opened⟩
    rw [tokenizeFrom_of_reads reads depth, opened]
    simp only [tokenizeFrom_nil]
    rfl

theorem tokenizeFrom_eq_tooManyClosing_iff
    (silent : ∀ last text, set.scan last text ≠ .error (.lexical .tooManyClosing)) :
    set.tokenizeFrom depth last text = .error (.lexical .tooManyClosing) ↔
      ∃ read rest, set.Reads last text read rest ∧ endDepth? depth read = none := by
  constructor
  · intro rejected
    have verdict := set.verdict depth last text
    rw [rejected] at verdict
    cases verdict with
    | tooManyClosing reads closed => exact ⟨_, _, reads, closed⟩
    | refused reads failed => exact absurd failed (silent _ _)
  · rintro ⟨read, rest, reads, closed⟩
    rw [tokenizeFrom_of_reads reads depth, closed]

end ScannerSet

end Formulary
