import Formulary.Proofs.Reading
import Formulary.Proofs.Rewriting

/-!
What the scanners make of one lexeme. The first scanner that reads one is heard, so what it reads
is nothing that those before it would have read.
-/
namespace Formulary

variable {last : Option Token} {text : List Char}

namespace Scanner

variable {s : Scanner}

theorem scan_eq_none_iff :
    s.scan last text = .ok none ↔ s.recognize text = none ∨ s.admits last = false := by
  unfold scan
  cases s.recognize text with
  | none => simp
  | some n =>
    cases admits : s.admits last with
    | false => simp
    | true =>
      cases converted : s.convert (text.take n) with
      | error e => simp [converted, bind, Except.bind]
      | ok tokens => simp [converted, bind, Except.bind, pure, Except.pure]

theorem scan_eq_some_iff {scanned : Scanned} : s.scan last text = .ok (some scanned) ↔
    ∃ n, s.recognize text = some n ∧ s.admits last = true ∧
      s.convert (text.take n) = .ok scanned.tokens ∧ scanned.lexeme = text.take n ∧
      scanned.rest = text.drop n := by
  unfold scan
  cases s.recognize text with
  | none => simp
  | some n =>
    cases admits : s.admits last with
    | false => simp
    | true =>
      cases converted : s.convert (text.take n) with
      | error e => simp [converted, bind, Except.bind]
      | ok tokens =>
        obtain ⟨made, lexeme, rest⟩ := scanned
        simp [converted, bind, Except.bind, pure, Except.pure, eq_comm]

theorem scan_eq_error {e : FormulaError} (failed : s.scan last text = .error e) :
    ∃ n, s.recognize text = some n ∧ s.convert (text.take n) = .error e := by
  unfold scan at failed
  cases recognized : s.recognize text with
  | none => rw [recognized] at failed; cases failed
  | some n =>
    rw [recognized] at failed
    refine ⟨n, rfl, ?_⟩
    cases admits : s.admits last with
    | false => simp [admits] at failed
    | true =>
      cases converted : s.convert (text.take n) with
      | error e => simpa [admits, converted, bind, Except.bind] using failed
      | ok tokens => simp [admits, converted, bind, Except.bind, pure, Except.pure] at failed

end Scanner

namespace ScannerSet

theorem firstScan_eq_some_iff {scanners : List Scanner} {scanned : Scanned} :
    firstScan last text scanners = .ok (some scanned) ↔
      ∃ i s, scanners[i]? = some s ∧ (∀ b ∈ scanners.take i, b.scan last text = .ok none) ∧
        s.scan last text = .ok (some scanned) ∧ scanned.lexeme ≠ [] := by
  induction scanners with
  | nil => simp [firstScan]
  | cons s others ih =>
    simp only [firstScan, bind, Except.bind]
    constructor
    · intro found
      cases here : s.scan last text with
      | error e => rw [here] at found; cases found
      | ok result =>
        rw [here] at found
        cases result with
        | none =>
          obtain ⟨i, other, known, before, read⟩ := ih.mp found
          refine ⟨i + 1, other, known, ?_, read⟩
          intro b member
          rcases List.mem_cons.mp member with rfl | earlier
          · exact here
          · exact before b earlier
        | some first =>
          dsimp only at found
          split at found
          · cases found
          · next something =>
            cases found
            exact ⟨0, s, rfl, by simp, here, by simpa using something⟩
    · rintro ⟨i, other, known, before, read, something⟩
      cases i with
      | zero =>
        obtain rfl := Option.some.inj known
        rw [read]
        dsimp only
        rw [if_neg (by simpa using something)]
        rfl
      | succ i =>
        rw [before s (by simp)]
        exact ih.mpr ⟨i, other, known, fun b earlier => before b (by simp [earlier]), read,
          something⟩

theorem firstScan_eq_error {scanners : List Scanner} {e : FormulaError}
    (failed : firstScan last text scanners = .error e) :
    (∃ s ∈ scanners, s.scan last text = .error e) ∨
      ∃ name, e = .lexical (.zeroWidth name (String.ofList text)) := by
  induction scanners with
  | nil => cases failed
  | cons s others ih =>
    simp only [firstScan, bind, Except.bind] at failed
    cases here : s.scan last text with
    | error other =>
      rw [here] at failed
      cases failed
      exact .inl ⟨s, List.mem_cons_self, here⟩
    | ok result =>
      rw [here] at failed
      cases result with
      | none =>
        rcases ih failed with ⟨other, member, own⟩ | zero
        · exact .inl ⟨other, List.mem_cons_of_mem s member, own⟩
        · exact .inr zero
      | some first =>
        dsimp only at failed
        split at failed
        · cases failed
          exact .inr ⟨s.name, rfl⟩
        · cases failed

end ScannerSet

/-! The standard scanners -/

namespace Lexicon

/-- None of the scanners of literals and reserved words reads a lexeme here. -/
def Unreserved (text : List Char) : Prop :=
  ∀ s ∈ [null, dateTime, numeric, caseStatement, combinator, boolean], s.recognize text = none

/-- What a lexeme at the front of the text can stand for, behind the token `last`. -/
inductive Stands (last : Option Token) (text : List Char) : (lexeme : List Char) →
    List Content → Prop where
  | blank {lexeme : List Char} (blank : ∀ c ∈ lexeme, Text.isBlank c = true) :
      Stands last text lexeme [.blank]
  | null {lexeme : List Char} : Stands last text lexeme [.data .null]
  | dateTime {lexeme : List Char} (t : DateTime) : Stands last text lexeme [.data (.dateTime t)]
  | numeral {lexeme : List Char} {n : Number} (value : numeralValue lexeme = .ok n)
      (unsigned : lexeme.head? ≠ some '-') : Stands last text lexeme [.data (.number n)]
  | quoted {lexeme : List Char} (s : String) : Stands last text lexeme [.data (.text s)]
  | truth {lexeme : List Char} (b : Bool) : Stands last text lexeme [.data (.logical b)]
  | minus {lexeme : List Char} (unary : startsOperand last = true) :
      Stands last text lexeme [.symbol (.operator .negate)]
  | operator {lexeme : List Char} {op : Operator} (binary : op ≠ .negate)
      (minus : op = .subtract → startsOperand last = false) :
      Stands last text lexeme [.symbol (.operator op)]
  | bracket {lexeme : List Char} {mark : Grouping} (plain : mark ≠ .callOpening)
      (written : mark = .opening → text.head? = some '(') :
      Stands last text lexeme [.symbol (.grouping mark)]
  | comparator {lexeme : List Char} (sign : Comparator) :
      Stands last text lexeme [.symbol (.comparator sign)]
  | combinator {lexeme : List Char} (word : Combinator) :
      Stands last text lexeme [.symbol (.combinator word)]
  | caseWord {lexeme : List Char} (word : CaseWord) :
      Stands last text lexeme [.symbol (.caseWord word)]
  | call {n : Nat} (unreserved : Unreserved text) (read : function.recognize text = some n) :
      Stands last text (text.take n)
        [.symbol (.function (.ofText (String.ofList (Text.trim (text.take n).dropLast)))),
          .symbol (.grouping .callOpening)]
  | name {n : Nat} (unreserved : Unreserved text) (noCall : function.recognize text = none)
      (read : identifier.recognize text = some n) :
      Stands last text (text.take n)
        [.identifier (String.ofList (Text.lowerAfter [] (text.take n)))]

theorem symbolOf_eq_ok {kind : String} {spellings : List (String × Symbol)}
    {spelled lexeme : List Char} {tokens : List Token}
    (known : symbolOf kind spellings spelled lexeme = .ok tokens) :
    ∃ symbol, spellings.lookup (String.ofList spelled) = some symbol ∧
      tokens.map Token.content = [.symbol symbol] := by
  unfold symbolOf at known
  split at known
  · next symbol found =>
    cases known
    exact ⟨symbol, found, rfl⟩
  · cases known

theorem mem_of_lookup {α : Type} {spellings : List (String × α)} {spelling : String} {a : α}
    (found : spellings.lookup spelling = some a) : (spelling, a) ∈ spellings := by
  induction spellings with
  | nil => cases found
  | cons first others ih =>
    rw [List.lookup_cons] at found
    split at found
    · next same =>
      obtain rfl := Option.some.inj found
      rw [eq_of_beq same]
      exact List.mem_cons_self
    · exact List.mem_cons_of_mem first (ih found)

theorem mem_of_convert_sign {name : String} {category : Category}
    {spellings : List (String × Symbol)} {lexeme : List Char} {tokens : List Token}
    (made : (signScanner name category spellings).convert lexeme = .ok tokens) :
    ∃ symbol, (String.ofList lexeme, symbol) ∈ spellings ∧
      tokens.map Token.content = [.symbol symbol] := by
  obtain ⟨symbol, found, same⟩ := symbolOf_eq_ok made
  exact ⟨symbol, mem_of_lookup found, same⟩

theorem stands_for_operator {lexeme : List Char} {tokens : List Token}
    (begins : ∃ n, lexeme = text.take n) (noMinus : negate.scan last text = .ok none)
    (made : operator.convert lexeme = .ok tokens) :
    Stands last text lexeme (tokens.map Token.content) := by
  obtain ⟨symbol, member, same⟩ := mem_of_convert_sign made
  rw [same]
  simp only [operators, List.mem_cons, Prod.mk.injEq, List.not_mem_nil, or_false] at member
  rcases member with ⟨_, rfl⟩ | ⟨_, rfl⟩ | ⟨sign, rfl⟩ | ⟨_, rfl⟩ | ⟨_, rfl⟩ | ⟨_, rfl⟩ |
    ⟨_, rfl⟩ | ⟨_, rfl⟩
  case inr.inr.inl =>
    refine .operator (by decide) fun _ => ?_
    obtain ⟨n, begins⟩ := begins
    have sign : lexeme = ['-'] := String.ofList_injective sign
    have front : ['-'] <+: text := sign ▸ begins ▸ List.take_prefix n text
    rcases Scanner.scan_eq_none_iff.mp noMinus with none | refused
    · have read : negate.recognize text = some 1 := by
        obtain ⟨rest, rfl⟩ := front
        rfl
      rw [read] at none
      cases none
    · exact refused
  all_goals exact .operator (by decide) nofun

theorem stands_for_bracket {lexeme : List Char} {tokens : List Token}
    (begins : ∃ n, lexeme = text.take n) (made : grouping.convert lexeme = .ok tokens) :
    Stands last text lexeme (tokens.map Token.content) := by
  obtain ⟨symbol, member, same⟩ := mem_of_convert_sign made
  rw [same]
  simp only [List.mem_cons, Prod.mk.injEq, List.not_mem_nil, or_false] at member
  rcases member with ⟨sign, rfl⟩ | ⟨_, rfl⟩ | ⟨_, rfl⟩
  · refine .bracket (by decide) fun _ => ?_
    obtain ⟨n, begins⟩ := begins
    have sign : lexeme = ['('] := String.ofList_injective sign
    obtain ⟨rest, rfl⟩ : ['('] <+: text := sign ▸ begins ▸ List.take_prefix n text
    rfl
  · exact .bracket (by decide) nofun
  · exact .bracket (by decide) nofun

theorem stands_for_comparator {lexeme : List Char} {tokens : List Token}
    (made : comparator.convert lexeme = .ok tokens) :
    Stands last text lexeme (tokens.map Token.content) := by
  obtain ⟨symbol, member, same⟩ := mem_of_convert_sign made
  rw [same]
  simp only [List.mem_cons, Prod.mk.injEq, List.not_mem_nil, or_false] at member
  rcases member with ⟨_, rfl⟩ | ⟨_, rfl⟩ | ⟨_, rfl⟩ | ⟨_, rfl⟩ | ⟨_, rfl⟩ | ⟨_, rfl⟩ | ⟨_, rfl⟩ |
    ⟨_, rfl⟩
  all_goals exact .comparator _

theorem stands_for_caseWord {lexeme : List Char} {tokens : List Token}
    (made : caseStatement.convert lexeme = .ok tokens) :
    Stands last text lexeme (tokens.map Token.content) := by
  obtain ⟨symbol, found, same⟩ := symbolOf_eq_ok made
  have member := mem_of_lookup found
  rw [same]
  simp only [caseWords, List.mem_cons, Prod.mk.injEq, List.not_mem_nil, or_false] at member
  rcases member with ⟨_, rfl⟩ | ⟨_, rfl⟩ | ⟨_, rfl⟩ | ⟨_, rfl⟩ | ⟨_, rfl⟩
  all_goals exact .caseWord _

theorem stands_for_blank {n : Nat} (read : whitespace.recognize text = some n) :
    Stands last text (text.take n) [.blank] := by
  simp only [whitespace] at read
  split at read
  · cases read
  · obtain rfl := Option.some.inj read
    rw [← List.prefix_iff_eq_take.mp (List.takeWhile_prefix _)]
    exact .blank (List.all_eq_true.mp List.all_takeWhile)

theorem stands_for_numeral {n : Nat} {tokens : List Token}
    (read : numeralLength? text = some n) (made : numeric.convert (text.take n) = .ok tokens) :
    Stands last text (text.take n) (tokens.map Token.content) := by
  obtain ⟨number, value, same⟩ := bind_eq_ok.mp made
  cases same
  refine .numeral value ?_
  intro sign
  obtain ⟨others, begins⟩ := List.head?_eq_some_iff.mp sign
  obtain ⟨rest, rfl⟩ : ['-'] <+: text :=
    List.IsPrefix.trans ⟨others, begins.symm⟩ (List.take_prefix n text)
  have unread : numeralLength? (['-'] ++ rest) = none := rfl
  rw [unread] at read
  cases read

theorem stands_for_dateTime {lexeme : List Char} {tokens : List Token}
    (made : dateTime.convert lexeme = .ok tokens) :
    Stands last text lexeme (tokens.map Token.content) := by
  simp only [dateTime] at made
  split at made
  · next t _ =>
    cases made
    exact .dateTime t
  · cases made

theorem unreserved_of_scan (rejected : ∀ s ∈ ScannerSet.standard.scanners.take 13,
    s.scan last text = .ok none) : Unreserved text := by
  intro s member
  have early : s ∈ ScannerSet.standard.scanners.take 13 := by
    simp only [List.mem_cons, List.not_mem_nil, or_false] at member
    rcases member with rfl | rfl | rfl | rfl | rfl | rfl <;> simp [ScannerSet.standard]
  refine (Scanner.scan_eq_none_iff.mp (rejected s early)).resolve_right ?_
  simp only [List.mem_cons, List.not_mem_nil, or_false] at member
  rcases member with rfl | rfl | rfl | rfl | rfl | rfl <;> exact nofun

/-- Every lexeme that is read stands for something. -/
theorem stands_of_scan {scanned : Scanned}
    (found : ScannerSet.standard.scan last text = .ok (some scanned)) :
    Stands last text scanned.lexeme (scanned.tokens.map Token.content) := by
  obtain ⟨i, s, known, before, read, _⟩ := ScannerSet.firstScan_eq_some_iff.mp found
  obtain ⟨n, recognized, admitted, made, front, _⟩ := Scanner.scan_eq_some_iff.mp read
  rw [← front] at made
  have begins : ∃ n, scanned.lexeme = text.take n := ⟨n, front⟩
  match i, known with
  | 0, rfl => rw [← Except.ok.inj made, front]; exact stands_for_blank recognized
  | 1, rfl => rw [← Except.ok.inj made]; exact .null
  | 2, rfl => exact stands_for_dateTime made
  | 3, rfl => rw [front] at made ⊢; exact stands_for_numeral recognized made
  | 4, rfl => rw [← Except.ok.inj made]; exact .quoted _
  | 5, rfl => rw [← Except.ok.inj made]; exact .quoted _
  | 6, rfl => rw [← Except.ok.inj made]; exact .minus admitted
  | 7, rfl =>
    have noMinus := before negate (by simp [ScannerSet.standard])
    exact stands_for_operator begins noMinus made
  | 8, rfl => exact stands_for_bracket begins made
  | 9, rfl => exact stands_for_caseWord made
  | 10, rfl => exact stands_for_comparator made
  | 11, rfl => rw [← Except.ok.inj made]; exact .combinator _
  | 12, rfl => rw [← Except.ok.inj made]; exact .truth _
  | 13, rfl =>
    rw [← Except.ok.inj made, front]
    exact .call (unreserved_of_scan before) recognized
  | 14, rfl =>
    have early : ∀ s ∈ ScannerSet.standard.scanners.take 13, s.scan last text = .ok none :=
      fun s member => before s (List.take_subset_take_left _ (by decide) member)
    have noCall := before function (by simp [ScannerSet.standard])
    have unread := (Scanner.scan_eq_none_iff.mp noCall).resolve_right nofun
    rw [← Except.ok.inj made, front]
    exact .name (unreserved_of_scan early) unread recognized

theorem symbolOf_eq_error {kind : String} {spellings : List (String × Symbol)}
    {spelled lexeme : List Char} {e : FormulaError}
    (unknown : symbolOf kind spellings spelled lexeme = .error e) :
    e = .lexical (.unknownLexeme kind (String.ofList lexeme)) := by
  unfold symbolOf at unknown
  split at unknown
  · cases unknown
  · exact (Except.error.inj unknown).symm

theorem numeralValue_eq_error {lexeme : List Char} {e : FormulaError}
    (invalid : numeralValue lexeme = .error e) :
    ∃ cause, e = .lexical (.invalidNumeral (String.ofList lexeme) cause) := by
  simp only [numeralValue] at invalid
  split at invalid
  · cases invalid
  · split at invalid
    · cases invalid
    · next cause _ => exact ⟨cause, (Except.error.inj invalid).symm⟩

theorem convert_error {s : Scanner} (member : s ∈ ScannerSet.standard.scanners) {lexeme : List Char}
    {e : FormulaError} (fault : s.convert lexeme = .error e) :
    (∃ kind, e = .lexical (.unknownLexeme kind (String.ofList lexeme))) ∨
      (∃ cause, e = .lexical (.invalidNumeral (String.ofList lexeme) cause)) ∨
      e = .lexical (.invalidDateTime (String.ofList lexeme)) := by
  simp only [ScannerSet.standard, List.mem_cons, List.not_mem_nil, or_false] at member
  rcases member with rfl | rfl | rfl | rfl | rfl | rfl | rfl | rfl | rfl | rfl | rfl | rfl | rfl |
    rfl | rfl
  case inr.inr.inl =>
    simp only [dateTime] at fault
    split at fault
    · cases fault
    · exact .inr (.inr (Except.error.inj fault).symm)
  case inr.inr.inr.inl =>
    simp only [numeric, bind, Except.bind] at fault
    split at fault
    · next invalid =>
      obtain rfl := Except.error.inj fault
      exact .inr (.inl (numeralValue_eq_error invalid))
    · cases fault
  all_goals first
    | exact .inl ⟨_, symbolOf_eq_error fault⟩
    | cases fault

/-- The standard scanners find faults with lexemes only, and leave brackets alone. -/
theorem fault_of_scan {e : FormulaError}
    (failed : ScannerSet.standard.scan last text = .error e) :
    ∃ fault, e = .lexical fault ∧ fault ≠ .tooManyClosing ∧ fault ≠ .tooManyOpening := by
  rcases ScannerSet.firstScan_eq_error failed with ⟨s, member, own⟩ | ⟨name, rfl⟩
  · obtain ⟨n, _, fault⟩ := Scanner.scan_eq_error own
    rcases convert_error member fault with ⟨_, rfl⟩ | ⟨_, rfl⟩ | rfl <;>
      exact ⟨_, rfl, nofun, nofun⟩
  · exact ⟨_, rfl, nofun, nofun⟩

theorem scan_error {e : FormulaError} (failed : ScannerSet.standard.scan last text = .error e) :
    e ≠ .lexical .tooManyClosing ∧ e ≠ .lexical .tooManyOpening := by
  obtain ⟨fault, rfl, noClosing, noOpening⟩ := fault_of_scan failed
  exact ⟨fun same => noClosing (FormulaError.lexical.inj same),
    fun same => noOpening (FormulaError.lexical.inj same)⟩

end Lexicon

end Formulary
