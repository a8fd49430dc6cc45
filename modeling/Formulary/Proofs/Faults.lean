import Formulary.Proofs.CaseBlindness
import Formulary.Proofs.NumeralRange

/-!
What texts are refused for. A lexeme that a scanner recognizes is refused if it is a date that does
not exist, a numeral out of range, or either of them in other digits than those of ASCII, or a
keyword that is written with the letter `ſ`; all other lexemes have a meaning. Apart from lexemes
only brackets are refused, and what no scanner recognizes.
-/
namespace Formulary

open DateTimeLiteral (AsciiDigits Leads)

namespace Lexicon

variable {last : Option Token} {text word rest : List Char} {e : FormulaError}

/-! Signs -/

theorem sign_of_recognize {name : String} {category : Category}
    {spellings : List (String × Symbol)} {n : Nat}
    (read : (signScanner name category spellings).recognize text = some n) :
    ∃ spelling ∈ spellings, text.take n = spelling.1.toList := by
  obtain ⟨spelling, member, sign⟩ := List.exists_of_findSome?_eq_some read
  refine ⟨spelling, member, ?_⟩
  unfold signLength? at sign
  split at sign
  · next front =>
    obtain rfl := Option.some.inj sign
    exact (List.prefix_iff_eq_take.mp (List.isPrefixOf_iff_prefix.mp front)).symm
  · cases sign

theorem scan_sign_ne_error (name : String) (category : Category)
    (spellings : List (String × Symbol)) (last : Option Token) (text : List Char)
    (e : FormulaError) : (signScanner name category spellings).scan last text ≠ .error e := by
  intro failed
  obtain ⟨n, read, fault⟩ := Scanner.scan_eq_error failed
  obtain ⟨spelling, member, sign⟩ := sign_of_recognize read
  rw [sign] at fault
  have unknown : spellings.lookup spelling.1 = none := by
    simp only [signScanner, symbolOf, String.ofList_toList] at fault
    split at fault
    · cases fault
    · assumption
  have unequal := List.lookup_eq_none_iff.mp unknown spelling member
  simp at unequal

/-! Keywords -/

/-- All the ways to write a word with `ſ` for some `s`. -/
def longSpellings : List Char → List (List Char)
  | [] => [[]]
  | letter :: word =>
    (if letter = 's' then [letter, 'ſ'] else [letter]).flatMap fun c =>
      (longSpellings word).map (c :: ·)

def longKeywords : List (List Char) := ["caſe".toList, "elſe".toList]

theorem longSpellings_of_startsWithWord
    (small : ∀ letter ∈ word, letter.toLower = letter ∧ letter ≠ 'k')
    (starts : startsWithWord word text = true) :
    (text.take word.length).map Char.toLower ∈ longSpellings word := by
  induction word generalizing text with
  | nil => exact List.mem_singleton.mpr rfl
  | cons letter word ih =>
    cases text with
    | nil => cases starts
    | cons c text =>
      simp only [startsWithWord, Bool.and_eq_true] at starts
      obtain ⟨isSmall, notK⟩ := small letter List.mem_cons_self
      have others := ih (fun c member => small c (List.mem_cons_of_mem _ member)) starts.2
      have first : c.toLower ∈ if letter = 's' then [letter, 'ſ'] else [letter] := by
        rcases isFormOf_cases isSmall starts.1 with same | ⟨isS, rfl⟩ | ⟨isK, -⟩
        · rw [same]
          split <;> simp
        · rw [if_pos isS]
          exact List.mem_cons_of_mem _ (List.mem_singleton.mpr rfl)
        · exact absurd isK notK
      rw [List.length_cons, List.take_succ_cons, List.map_cons, longSpellings, List.mem_flatMap]
      exact ⟨_, first, List.mem_map_of_mem others⟩

theorem wordLength?_eq_some_iff {n : Nat} {word : String} : wordLength? text word = some n ↔
    n = word.toList.length ∧ startsWithWord word.toList text = true ∧
      Text.wordEndsBefore (text.drop n) = true := by
  simp only [wordLength?, Option.ite_none_right_eq_some, Option.some.injEq, Bool.and_eq_true]
  constructor
  · rintro ⟨⟨starts, ends⟩, rfl⟩
    exact ⟨rfl, starts, ends⟩
  · rintro ⟨rfl, starts, ends⟩
    exact ⟨⟨starts, ends⟩, rfl⟩

theorem keyword_of_recognize {n : Nat} (read : caseStatement.recognize text = some n) :
    ∃ spelling ∈ caseWords, (text.take n).map Char.toLower ∈ longSpellings spelling.1.toList ∧
      Text.wordEndsBefore (text.drop n) = true := by
  have small : ∀ spelling ∈ caseWords, ∀ letter ∈ spelling.1.toList,
      letter.toLower = letter ∧ letter ≠ 'k' := by decide
  obtain ⟨spelling, member, length⟩ := List.exists_of_findSome?_eq_some read
  obtain ⟨rfl, starts, ends⟩ := wordLength?_eq_some_iff.mp length
  exact ⟨spelling, member, longSpellings_of_startsWithWord (small spelling member) starts, ends⟩

theorem lookup_longSpellings : ∀ spelling ∈ caseWords,
    ∀ small ∈ longSpellings spelling.1.toList, small ∈ longKeywords ∨
      (caseWords.lookup (String.ofList (Text.lowerAfter [] small))).isSome = true := by
  decide +kernel

theorem lookup_longKeywords : ∀ small ∈ longKeywords,
    caseWords.lookup (String.ofList (Text.lowerAfter [] small)) = none := by
  decide +kernel

theorem convert_keyword (word : List Char) : caseStatement.convert word =
    match caseWords.lookup (String.ofList (Text.lowerAfter [] (word.map Char.toLower))) with
    | some symbol => .ok (tokenOf (.symbol symbol) word)
    | none => .error (.lexical (.unknownLexeme "keyword" (String.ofList word))) := by
  have lower : Text.lowerAfter [] (word.map Char.toLower) = Text.lowerAfter [] word :=
    Text.lowerAfter_toLower [] word
  rw [lower]
  rfl

theorem recognize_longKeyword {small : List Char} (longS : small ∈ longKeywords)
    (ends : Text.wordEndsBefore rest = true) :
    caseStatement.recognize (small ++ rest) = some small.length := by
  have length (word : String) (starts : startsWithWord word.toList (small ++ rest) = true)
      (same : word.toList.length = small.length) :
      wordLength? (small ++ rest) word = some small.length :=
    wordLength?_eq_some_iff.mpr ⟨same.symm, starts, by rwa [List.drop_left]⟩
  simp only [longKeywords, List.mem_cons, List.not_mem_nil, or_false] at longS
  rcases longS with rfl | rfl
  · have read := length "case" rfl rfl
    simp only [caseStatement, caseWords, List.findSome?_cons, read]
  · have read := length "else" rfl rfl
    have unread : ∀ word ∈ ["case", "end", "then", "when"],
        wordLength? ("elſe".toList ++ rest) word = none := by
      intro word member
      simp only [List.mem_cons, List.not_mem_nil, or_false] at member
      rcases member with rfl | rfl | rfl | rfl <;> rfl
    simp only [List.forall_mem_cons] at unread
    obtain ⟨noCase, noEnd, noThen, noWhen, -⟩ := unread
    simp only [caseStatement, caseWords, List.findSome?_cons, noCase, noEnd, noThen, noWhen, read]

/-- A keyword with a long s is recognized, but it is not known. -/
theorem scan_keyword_eq_error_iff : caseStatement.scan last text = .error e ↔
    ∃ word rest, text = word ++ rest ∧ word.map Char.toLower ∈ longKeywords ∧
      Text.wordEndsBefore rest = true ∧
      e = .lexical (.unknownLexeme "keyword" (String.ofList word)) := by
  constructor
  · intro failed
    obtain ⟨n, read, fault⟩ := Scanner.scan_eq_error failed
    obtain ⟨spelling, member, spelled, ends⟩ := keyword_of_recognize read
    rw [convert_keyword] at fault
    split at fault
    · cases fault
    · next unknown =>
      have longS : (text.take n).map Char.toLower ∈ longKeywords := by
        refine (lookup_longSpellings spelling member _ spelled).resolve_right ?_
        rw [unknown]
        exact Bool.false_ne_true
      exact ⟨text.take n, text.drop n, (List.take_append_drop n text).symm, longS, ends,
        (Except.error.inj fault).symm⟩
  · rintro ⟨word, rest, rfl, longS, ends, rfl⟩
    have endsSmall : Text.wordEndsBefore (rest.map Char.toLower) = true := by
      rw [Text.wordEndsBefore_toLower, ends]
    have read := recognize_longKeyword longS endsSmall
    rw [← List.map_append, ignoresCase_caseStatement.recognize, List.length_map] at read
    have fault := convert_keyword word
    rw [lookup_longKeywords _ longS] at fault
    have admitted : caseStatement.admits last = true := rfl
    rw [Scanner.scan, read]
    simp only [admitted, if_true, List.take_left, fault]
    rfl

/-! Lexemes -/

inductive Refused (text : List Char) : FormulaError → Prop where
  | numeral {l : NumeralLiteral} {lexeme : List Char} {cause : NumeralError}
      (front : lexeme <+: text) (written : l.Written lexeme)
      (range : AsciiDigits lexeme → l.OutOfRange) :
      Refused text (.lexical (.invalidNumeral (String.ofList lexeme) cause))
  | dateTime {literal : DateTimeLiteral} {lexeme : List Char} (leads : Leads literal lexeme text)
      (none : AsciiDigits lexeme → ¬ (literal.moment Text.denoted).Exists) :
      Refused text (.lexical (.invalidDateTime (String.ofList lexeme)))
  | keyword {word rest : List Char} (split : text = word ++ rest)
      (longS : word.map Char.toLower ∈ longKeywords) (ends : Text.wordEndsBefore rest = true) :
      Refused text (.lexical (.unknownLexeme "keyword" (String.ofList word)))

theorem refused_of_numeric (failed : numeric.scan last text = .error e) : Refused text e := by
  obtain ⟨n, read, fault⟩ := Scanner.scan_eq_error failed
  obtain ⟨l, written⟩ := written_of_numeralLength? read
  have invalid : numeralValue (text.take n) = .error e := by
    simp only [numeric] at fault
    cases value : numeralValue (text.take n) with
    | error other =>
      rw [value] at fault
      cases fault
      rfl
    | ok number =>
      rw [value] at fault
      cases fault
  obtain ⟨cause, rfl⟩ := numeralValue_eq_error invalid
  refine .numeral (List.take_prefix n text) written ?_
  intro ascii
  exact NumeralLiteral.outOfRange_of_refused written ascii invalid

theorem refused_of_dateTime (failed : dateTime.scan last text = .error e) : Refused text e := by
  obtain ⟨n, read, -⟩ := Scanner.scan_eq_error failed
  obtain ⟨literal, lexeme, leads, -⟩ := dateTime_recognize_iff.mp read
  have answer := scan_of_leads leads last
  cases value : literal.value? with
  | some t =>
    rw [failed, value] at answer
    cases answer
  | none =>
    have invalid : dateTime.scan last text =
        .error (.lexical (.invalidDateTime (String.ofList lexeme))) := by
      rw [answer, value]
      rfl
    obtain rfl := Except.error.inj (failed.symm.trans invalid)
    refine .dateTime leads ?_
    intro ascii found
    obtain ⟨year, same⟩ := leads.written.counted ascii
    have answers := answers_counted leads year last
    rw [same, invalid] at answers
    cases answers with
    | none impossible => exact impossible found

theorem refused_of_scan {s : Scanner} (member : s ∈ ScannerSet.standard.scanners)
    (failed : s.scan last text = .error e) : Refused text e := by
  have total {s : Scanner} (made : ∀ lexeme, ∃ tokens, s.convert lexeme = .ok tokens)
      (failed : s.scan last text = .error e) : Refused text e := by
    obtain ⟨n, -, fault⟩ := Scanner.scan_eq_error failed
    obtain ⟨tokens, same⟩ := made (text.take n)
    rw [same] at fault
    cases fault
  simp only [ScannerSet.standard, List.mem_cons, List.not_mem_nil, or_false] at member
  rcases member with rfl | rfl | rfl | rfl | rfl | rfl | rfl | rfl | rfl | rfl | rfl | rfl | rfl |
    rfl | rfl
  · exact total (fun lexeme => ⟨_, rfl⟩) failed
  · exact total (fun lexeme => ⟨_, rfl⟩) failed
  · exact refused_of_dateTime failed
  · exact refused_of_numeric failed
  · exact total (fun lexeme => ⟨_, rfl⟩) failed
  · exact total (fun lexeme => ⟨_, rfl⟩) failed
  · exact total (fun lexeme => ⟨_, rfl⟩) failed
  · exact absurd failed (scan_sign_ne_error _ _ _ last text e)
  · exact absurd failed (scan_sign_ne_error _ _ _ last text e)
  · obtain ⟨word, rest, split, longS, ends, rfl⟩ := scan_keyword_eq_error_iff.mp failed
    exact .keyword split longS ends
  · exact absurd failed (scan_sign_ne_error _ _ _ last text e)
  · exact total (fun lexeme => ⟨_, rfl⟩) failed
  · exact total (fun lexeme => ⟨_, rfl⟩) failed
  · exact total (fun lexeme => ⟨_, rfl⟩) failed
  · exact total (fun lexeme => ⟨_, rfl⟩) failed

/-! Lexemes of no characters -/

theorem pos_of_words {n : Nat} {words : List String}
    (read : words.findSome? (wordLength? text) = some n)
    (some_letter : ∀ word ∈ words, 0 < word.toList.length) : 0 < n := by
  obtain ⟨word, member, length⟩ := List.exists_of_findSome?_eq_some read
  obtain ⟨rfl, -, -⟩ := wordLength?_eq_some_iff.mp length
  exact some_letter word member

theorem pos_of_sign {name : String} {category : Category}
    {spellings : List (String × Symbol)} {n : Nat}
    (read : (signScanner name category spellings).recognize text = some n)
    (some_char : ∀ spelling ∈ spellings, 0 < spelling.1.toList.length) : 0 < n := by
  obtain ⟨spelling, member, sign⟩ := sign_of_recognize read
  have length := congrArg List.length sign
  have some_char := some_char spelling member
  rw [List.length_take] at length
  omega

theorem pos_of_quoted {name : String} {quote : Char} {n : Nat}
    (read : (quotedScanner name quote).recognize text = some n) : 0 < n := by
  cases text with
  | nil => cases read
  | cons c rest =>
    simp only [quotedScanner, quotedLength?] at read
    split at read
    · cases read
      omega
    · cases read

theorem pos_of_recognize {s : Scanner} (member : s ∈ ScannerSet.standard.scanners) {n : Nat}
    (read : s.recognize text = some n) : 0 < n := by
  simp only [ScannerSet.standard, List.mem_cons, List.not_mem_nil, or_false] at member
  rcases member with rfl | rfl | rfl | rfl | rfl | rfl | rfl | rfl | rfl | rfl | rfl | rfl | rfl |
    rfl | rfl
  · simp only [whitespace] at read
    split at read
    · cases read
    · cases read
      omega
  · obtain ⟨rfl, -, -⟩ := wordLength?_eq_some_iff.mp read
    decide
  · obtain ⟨literal, lexeme, leads, rfl⟩ := dateTime_recognize_iff.mp read
    obtain ⟨isDate, -, -, -⟩ := leads.written
    obtain ⟨first, others, rfl, -⟩ := isDate.eq_cons (by decide)
    exact Nat.succ_pos _
  · obtain ⟨l, written⟩ := written_of_numeralLength? read
    by_contra zero
    obtain rfl : n = 0 := by omega
    exact written.ne_nil rfl
  · exact pos_of_quoted read
  · exact pos_of_quoted read
  · simp only [negate, signLength?] at read
    split at read
    · cases read
      decide
    · cases read
  · exact pos_of_sign read (by decide)
  · exact pos_of_sign read (by decide)
  · have words : (caseWords.map Prod.fst).findSome? (wordLength? text) = some n := by
      rw [List.findSome?_map]
      exact read
    exact pos_of_words words (by decide)
  · exact pos_of_sign read (by decide)
  · exact pos_of_words read (by decide)
  · exact pos_of_words read (by decide)
  · simp only [function, Option.ite_none_right_eq_some, Option.some.injEq] at read
    obtain ⟨-, rfl⟩ := read
    exact Nat.succ_pos _
  · simp only [identifier] at read
    split at read
    · cases read
    · cases read
      omega

theorem exists_of_firstScan {scanners : List Scanner}
    (solid : ∀ s ∈ scanners, ∀ scanned, s.scan last text = .ok (some scanned) →
      scanned.lexeme ≠ [])
    (failed : ScannerSet.firstScan last text scanners = .error e) :
    ∃ s ∈ scanners, s.scan last text = .error e := by
  induction scanners with
  | nil => cases failed
  | cons s others ih =>
    simp only [ScannerSet.firstScan, bind, Except.bind] at failed
    cases here : s.scan last text with
    | error other =>
      rw [here] at failed
      cases failed
      exact ⟨s, List.mem_cons_self, here⟩
    | ok result =>
      rw [here] at failed
      cases result with
      | none =>
        obtain ⟨other, member, own⟩ :=
          ih (fun s member => solid s (List.mem_cons_of_mem _ member)) failed
        exact ⟨other, List.mem_cons_of_mem s member, own⟩
      | some scanned =>
        have some_char := solid s List.mem_cons_self scanned here
        dsimp only at failed
        rw [if_neg (by simpa using some_char)] at failed
        cases failed

theorem refused_of_standard (failed : ScannerSet.standard.scan last text = .error e) :
    Refused text e := by
  have more : text ≠ [] := by
    rintro rfl
    have nothing : ScannerSet.standard.scan last [] = .ok none := rfl
    rw [nothing] at failed
    cases failed
  have solid : ∀ s ∈ ScannerSet.standard.scanners, ∀ scanned,
      s.scan last text = .ok (some scanned) → scanned.lexeme ≠ [] := by
    intro s member scanned found
    obtain ⟨n, read, -, -, front, -⟩ := Scanner.scan_eq_some_iff.mp found
    have positive := pos_of_recognize member read
    rw [front, ne_eq, List.take_eq_nil_iff]
    rintro (zero | none)
    · omega
    · exact more none
  obtain ⟨s, member, own⟩ := exists_of_firstScan solid failed
  exact refused_of_scan member own

end Lexicon

namespace ScannerSet

open Lexicon

/-- Why a text is refused: what has been read of it, and what stops the reading or is open at its
    end. -/
inductive Fault (text : List Char) : FormulaError → Prop where
  | unmatched {read : List Token} {rest : List Char} (reads : standard.Reads none text read rest)
      (stuck : standard.scan read.getLast? rest = .ok none) :
      Fault text (.lexical (.unmatched (String.ofList rest)))
  | tooManyOpening {read : List Token} {still : Nat} (reads : standard.Reads none text read [])
      (opened : endDepth? 0 read = some (still + 1)) : Fault text (.lexical .tooManyOpening)
  | tooManyClosing {read : List Token} {rest : List Char}
      (reads : standard.Reads none text read rest) (closed : endDepth? 0 read = none) :
      Fault text (.lexical .tooManyClosing)
  | refused {read : List Token} {rest : List Char} {e : FormulaError}
      (reads : standard.Reads none text read rest) (refused : Refused rest e) : Fault text e

theorem fault_of_tokenize {text : String} {e : FormulaError}
    (failed : standard.tokenize text = .error e) : Fault text.toList e := by
  have verdict := standard.verdict 0 none text.toList
  rw [← tokenize, failed] at verdict
  cases verdict with
  | tooManyOpening reads opened => exact .tooManyOpening reads opened
  | tooManyClosing reads closed => exact .tooManyClosing reads closed
  | unmatched reads stuck =>
    rw [Option.or_none] at stuck
    exact .unmatched reads stuck
  | refused reads failed => exact .refused reads (refused_of_standard failed)

/-- The scanners of signs never fail, and that of keywords only where one is written with `ſ`. A
text is refused for what no scanner recognizes, for its brackets, or for a lexeme that is
`Refused`. -/
theorem tokenizer_faults (last : Option Token) (text : String) (e : FormulaError) :
    (operator.scan last text.toList ≠ .error e ∧ grouping.scan last text.toList ≠ .error e ∧
      comparator.scan last text.toList ≠ .error e ∧
      (caseStatement.scan last text.toList = .error e ↔
        ∃ word rest, text.toList = word ++ rest ∧ word.map Char.toLower ∈ longKeywords ∧
          Text.wordEndsBefore rest = true ∧
          e = .lexical (.unknownLexeme "keyword" (String.ofList word)))) ∧
    (standard.tokenize text = .error e → Fault text.toList e) :=
  ⟨⟨scan_sign_ne_error _ _ _ last _ e, scan_sign_ne_error _ _ _ last _ e,
    scan_sign_ne_error _ _ _ last _ e, scan_keyword_eq_error_iff⟩, fault_of_tokenize⟩

/-- A power of ten that no decimal reaches. -/
theorem tokenizer_faults_power :
    let e : FormulaError := .lexical (.invalidNumeral "1e29" (.scaleExceeded 29))
    standard.tokenize "1e29" = .error e ∧ Fault "1e29".toList e := by
  intro e
  have scan : standard.scan none "1e29".toList = .error e := rfl
  have failed : standard.tokenize "1e29" = .error e := tokenizeFrom_error (by decide) scan
  exact ⟨failed, (tokenizer_faults none "1e29" e).2 failed⟩

/-- A keyword that is recognized and not known. -/
theorem long_keyword_refused :
    let e : FormulaError := .lexical (.unknownLexeme "keyword" "caſe")
    caseStatement.scan none "caſe".toList = .error e ∧ standard.tokenize "caſe" = .error e := by
  intro e
  have scan : standard.scan none "caſe".toList = .error e := rfl
  exact ⟨rfl, tokenizeFrom_error (by decide) scan⟩

end ScannerSet

end Formulary
