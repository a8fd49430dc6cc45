import Formulary.Proofs.Lexemes

/-!
What the tokenizer hands on. Its tokens are no blanks, their brackets are balanced, the bracket of
a call stands behind the name of a function and nowhere else, and a minus is a sign exactly where
no left operand can end.
-/
namespace Formulary

/-- How a token stands between the one before it, if there is one, and those behind it. -/
structure Token.Fits (last : Option Token) (t : Token) (behind : List Token) : Prop where
  solid : t.category ≠ .blank
  called : (∃ name, t.content = .symbol (.function name)) ↔
    ∃ next, behind.head? = some next ∧ next.content = .symbol (.grouping .callOpening)
  calling : t.content = .symbol (.grouping .callOpening) ↔
    ∃ head name, last = some head ∧ head.content = .symbol (.function name)
  minus : t.content = .symbol (.operator .negate) ∨ t.content = .symbol (.operator .subtract) →
    (t.content = .symbol (.operator .negate) ↔
      last = none ∨ ∃ p, last = some p ∧ (p.category = .operator ∨ p.category = .comparator ∨
        p.category = .combinator ∨ p.isOpening = true ∨ p.isComma = true))

def Arranged : Option Token → List Token → Prop
  | _, [] => True
  | last, t :: rest => t.Fits last rest ∧ Arranged (some t) rest

/-- The token is the name of a function, so that its bracket has to follow. -/
def Token.IsHead (t : Token) : Prop := ∃ name, t.content = .symbol (.function name)

theorem startsOperand_iff (last : Option Token) : Lexicon.startsOperand last = true ↔
    last = none ∨ ∃ p, last = some p ∧ (p.category = .operator ∨ p.category = .comparator ∨
      p.category = .combinator ∨ p.isOpening = true ∨ p.isComma = true) := by
  cases last with
  | none => simp [Lexicon.startsOperand]
  | some p => simp [Lexicon.startsOperand, or_assoc]

namespace Arranged

variable {last : Option Token} {tokens : List Token}

theorem fits (arranged : Arranged last tokens) {before behind : List Token} {t : Token}
    (here : tokens = before ++ t :: behind) : t.Fits (before.getLast?.or last) behind := by
  induction before generalizing last tokens with
  | nil =>
    subst here
    exact arranged.1
  | cons first before ih =>
    subst here
    have later := ih arranged.2 rfl
    rw [List.getLast?_cons]
    cases before with
    | nil => exact later
    | cons second before => simpa [List.getLast?_cons] using later

theorem head_iff (arranged : Arranged last tokens) :
    (∃ next, tokens.head? = some next ∧ next.content = .symbol (.grouping .callOpening)) →
      ∃ head, last = some head ∧ head.IsHead := by
  rintro ⟨next, first, opens⟩
  cases tokens with
  | nil => cases first
  | cons t rest =>
    obtain rfl := Option.some.inj first
    obtain ⟨head, name, same, function⟩ := arranged.1.calling.mp opens
    exact ⟨head, same, name, function⟩

end Arranged

/-! What the standard scanners read -/

namespace Lexicon

variable {last : Option Token} {text rest : List Char} {tokens : List Token}

structure IsPlain (last : Option Token) (c : Content) : Prop where
  solid : c ≠ .blank
  noHead : ∀ name, c ≠ .symbol (.function name)
  noCall : c ≠ .symbol (.grouping .callOpening)
  minus : c = .symbol (.operator .negate) ∨ c = .symbol (.operator .subtract) →
    (c = .symbol (.operator .negate) ↔ startsOperand last = true)

theorem Stands.cases {text lexeme : List Char} {contents : List Content}
    (stands : Stands last text lexeme contents) :
    contents = [.blank] ∨ (∃ c, contents = [c] ∧ IsPlain last c) ∨
      ∃ name, contents = [.symbol (.function name), .symbol (.grouping .callOpening)] := by
  cases stands with
  | blank => exact .inl rfl
  | minus unary => exact .inr (.inl ⟨_, rfl, nofun, nofun, nofun, fun _ => by simp [unary]⟩)
  | @operator _ op binary minus =>
    refine .inr (.inl ⟨_, rfl, nofun, nofun, nofun, fun isMinus => ?_⟩)
    rcases isMinus with same | same
    · cases same
      exact absurd rfl binary
    · cases same
      simp [minus rfl]
  | @bracket _ mark plain written =>
    refine .inr (.inl ⟨_, rfl, nofun, nofun, fun call => ?_, nofun⟩)
    cases call
    exact plain rfl
  | call unreserved read => exact .inr (.inr ⟨_, rfl⟩)
  | _ => exact .inr (.inl ⟨_, rfl, nofun, nofun, nofun, nofun⟩)

theorem category_ne_blank {t : Token} (solid : t.content ≠ .blank) : t.category ≠ .blank := by
  unfold Token.category
  split
  · next value _ => cases value <;> exact nofun
  · exact nofun
  · next symbol _ => cases symbol <;> exact nofun
  · next blank => exact absurd blank solid

theorem kept_blank {scanned : Scanned} (contents : scanned.tokens.map Token.content = [.blank]) :
    scanned.kept = [] := by
  obtain ⟨t, single, blank⟩ := List.map_eq_singleton_iff.mp contents
  have category : t.category = .blank := by simp [Token.category, blank]
  simp [Scanned.kept, single, category]

theorem kept_single {scanned : Scanned} {c : Content}
    (contents : scanned.tokens.map Token.content = [c]) (solid : c ≠ .blank) :
    ∃ t, scanned.kept = [t] ∧ t.content = c := by
  obtain ⟨t, single, rfl⟩ := List.map_eq_singleton_iff.mp contents
  exact ⟨t, by simp [Scanned.kept, single, category_ne_blank solid], rfl⟩

theorem kept_call {scanned : Scanned} {name : Name}
    (contents : scanned.tokens.map Token.content =
      [.symbol (.function name), .symbol (.grouping .callOpening)]) :
    ∃ head opening, scanned.kept = [head, opening] ∧ head.content = .symbol (.function name) ∧
      opening.content = .symbol (.grouping .callOpening) := by
  obtain ⟨head, others, pair, function, rest⟩ := List.map_eq_cons_iff.mp contents
  obtain ⟨opening, rfl, opens⟩ := List.map_eq_singleton_iff.mp rest
  have solid : head.category ≠ .blank := category_ne_blank (by rw [function]; nofun)
  have solidToo : opening.category ≠ .blank := category_ne_blank (by rw [opens]; nofun)
  exact ⟨head, opening, by simp [Scanned.kept, pair, solid, solidToo], function, opens⟩

theorem arranged_single {t : Token} (plain : IsPlain last t.content)
    (begins : ∀ head, last = some head → ¬ head.IsHead) (later : Arranged (some t) tokens) :
    Arranged last (t :: tokens) := by
  have noHead : ¬ t.IsHead := fun ⟨name, function⟩ => plain.noHead name function
  refine ⟨⟨category_ne_blank plain.solid, ⟨fun head => absurd head noHead, fun follows => ?_⟩,
    ⟨fun call => absurd call plain.noCall, fun follows => ?_⟩, fun isMinus => ?_⟩, later⟩
  · obtain ⟨head, same, isHead⟩ := later.head_iff follows
    obtain rfl := Option.some.inj same
    exact absurd isHead noHead
  · obtain ⟨head, name, same, function⟩ := follows
    exact absurd ⟨name, function⟩ (begins head same)
  · exact (plain.minus isMinus).trans (startsOperand_iff last)

theorem arranged_call {head opening : Token} (isHead : head.IsHead)
    (opens : opening.content = .symbol (.grouping .callOpening))
    (begins : ∀ head, last = some head → ¬ head.IsHead) (later : Arranged (some opening) tokens) :
    Arranged last (head :: opening :: tokens) := by
  obtain ⟨name, function⟩ := isHead
  refine ⟨⟨?_, ⟨fun _ => ⟨opening, rfl, opens⟩, fun _ => ⟨name, function⟩⟩, ⟨fun call => ?_,
    fun follows => ?_⟩, fun isMinus => ?_⟩, ⟨?_, ⟨fun isHead => ?_, fun follows => ?_⟩,
    ⟨fun _ => ⟨head, name, rfl, function⟩, fun _ => opens⟩, fun isMinus => ?_⟩, later⟩
  · simp [Token.category, function, Symbol.category]
  · rw [function] at call
    cases call
  · obtain ⟨other, name, same, isHead⟩ := follows
    exact absurd ⟨name, isHead⟩ (begins other same)
  · rw [function] at isMinus
    rcases isMinus with impossible | impossible <;> cases impossible
  · simp [Token.category, opens, Symbol.category]
  · obtain ⟨name, isHead⟩ := isHead
    rw [opens] at isHead
    cases isHead
  · obtain ⟨other, same, isHead⟩ := later.head_iff follows
    obtain rfl := Option.some.inj same
    obtain ⟨name, isHead⟩ := isHead
    rw [opens] at isHead
    cases isHead
  · rw [opens] at isMinus
    rcases isMinus with impossible | impossible <;> cases impossible

theorem arranged_of_reads (reads : ScannerSet.standard.Reads last text tokens rest)
    (begins : ∀ head, last = some head → ¬ head.IsHead) : Arranged last tokens := by
  -- By induction on the lexemes; none of them ends with the name of a function.
  induction reads with
  | nothing last text => trivial
  | @lexeme last text rest scanned tokens found later ih =>
    rcases (stands_of_scan found).cases with blank | ⟨c, single, plain⟩ | ⟨name, call⟩
    · rw [kept_blank blank] at later ih ⊢
      exact ih begins
    · obtain ⟨t, kept, rfl⟩ := kept_single single plain.solid
      rw [kept] at later ih ⊢
      refine arranged_single plain begins (ih ?_)
      rintro head same ⟨name, function⟩
      obtain rfl := Option.some.inj same
      exact plain.noHead name function
    · obtain ⟨head, opening, kept, function, opens⟩ := kept_call call
      rw [kept] at later ih ⊢
      refine arranged_call ⟨name, function⟩ opens begins (ih ?_)
      rintro other same ⟨name, function⟩
      obtain rfl : opening = other := Option.some.inj same
      rw [opens] at function
      cases function

theorem closes_of_reads (reads : ScannerSet.standard.Reads last text tokens rest) {depth : Nat}
    (unopened : endDepth? depth tokens = none) :
    ∃ read rest, ScannerSet.standard.Reads last text read rest ∧
      depth + openings read < closings read := by
  induction reads generalizing depth with
  | nothing last text => cases unopened
  | @lexeme last text rest scanned tokens found later ih =>
    cases ends : endDepth? depth scanned.kept with
    | some next =>
      rw [endDepth?_append, ends, Option.bind_some] at unopened
      obtain ⟨read, rest, reads, excess⟩ := ih unopened
      refine ⟨scanned.kept ++ read, rest, .lexeme found reads, ?_⟩
      have count := (endDepth?_eq_some_iff.mp ends).2
      rw [openings_append, closings_append]
      omega
    | none =>
      refine ⟨scanned.kept ++ [], scanned.rest, .lexeme found (.nothing _ _), ?_⟩
      rw [List.append_nil]
      rcases (stands_of_scan found).cases with blank | ⟨c, single, plain⟩ | ⟨name, call⟩
      · rw [kept_blank blank] at ends
        cases ends
      · obtain ⟨t, kept, rfl⟩ := kept_single single plain.solid
        rw [kept] at ends ⊢
        have failed : depthAfter? depth t = none := by
          cases after : depthAfter? depth t with
          | none => rfl
          | some next => simp [endDepth?, after] at ends
        obtain ⟨bottom, closes, opens⟩ := closings_of_depthAfter? failed
        omega
      · obtain ⟨head, opening, kept, function, opens⟩ := kept_call call
        simp [kept, endDepth?, depthAfter?, Token.isOpening, Token.isClosing, Token.isGrouping,
          Token.symbol?, function, opens] at ends

end Lexicon

namespace ScannerSet

/-- What the tokenizer accepts is well formed: nowhere do more brackets close than were opened, in
    the end all are closed, and every token stands as it may. It finds too many closing brackets
    exactly if what has been read up to some place closes more than it opens, and too many opening
    ones exactly if the text is read to its end without that and opens more than it closes. -/
theorem tokenize_wellFormed (text : String) :
    (∀ tokens, standard.tokenize text = .ok tokens →
      (∀ n, closings (tokens.take n) ≤ openings (tokens.take n)) ∧
        closings tokens = openings tokens ∧
        ∀ before t behind, tokens = before ++ t :: behind → t.Fits before.getLast? behind) ∧
    (standard.tokenize text = .error (.lexical .tooManyClosing) ↔
      ∃ read rest, standard.Reads none text.toList read rest ∧ openings read < closings read) ∧
    (standard.tokenize text = .error (.lexical .tooManyOpening) ↔
      ∃ read, standard.Reads none text.toList read [] ∧
        (∀ n, closings (read.take n) ≤ openings (read.take n)) ∧
        closings read < openings read) := by
  have closing (last : Option Token) (text : List Char) : standard.scan last text ≠
      .error (.lexical .tooManyClosing) := fun failed => (Lexicon.scan_error failed).1 rfl
  have opening (last : Option Token) (text : List Char) : standard.scan last text ≠
      .error (.lexical .tooManyOpening) := fun failed => (Lexicon.scan_error failed).2 rfl
  refine ⟨fun tokens accepted => ?_, ?_, ?_⟩
  · obtain ⟨reads, closed⟩ := tokenizeFrom_eq_ok_iff.mp accepted
    obtain ⟨every, all⟩ := endDepth?_eq_some_iff.mp closed
    refine ⟨fun n => by simpa using every n, by omega, ?_⟩
    intro before t behind here
    have fits := (Lexicon.arranged_of_reads reads nofun).fits here
    rwa [Option.or_none] at fits
  · refine (tokenizeFrom_eq_tooManyClosing_iff closing).trans ⟨?_, ?_⟩
    · rintro ⟨read, rest, reads, unopened⟩
      obtain ⟨read, rest, reads, excess⟩ := Lexicon.closes_of_reads reads unopened
      exact ⟨read, rest, reads, by omega⟩
    · rintro ⟨read, rest, reads, excess⟩
      refine ⟨read, rest, reads, ?_⟩
      cases ends : endDepth? 0 read with
      | none => rfl
      | some final =>
        have count := (endDepth?_eq_some_iff.mp ends).2
        omega
  · refine (tokenizeFrom_eq_tooManyOpening_iff opening).trans (exists_congr fun read => ?_)
    constructor
    · rintro ⟨still, reads, opened⟩
      obtain ⟨every, all⟩ := endDepth?_eq_some_iff.mp opened
      exact ⟨reads, fun n => by simpa using every n, by omega⟩
    · rintro ⟨reads, every, more⟩
      refine ⟨openings read - closings read - 1, reads, endDepth?_eq_some_iff.mpr
        ⟨fun n => by simpa using every n, by omega⟩⟩

/-- In `(-)-` the first minus is a sign, and the second none. -/
theorem tokenize_wellFormed_minus :
    let tokens : List Token := [⟨.symbol (.grouping .opening), 1⟩, ⟨.symbol (.operator .negate), 1⟩,
      ⟨.symbol (.grouping .closing), 1⟩, ⟨.symbol (.operator .subtract), 1⟩]
    standard.tokenize "(-)-" = .ok tokens ∧
      closings tokens = openings tokens ∧
      tokens = tokens.take 3 ++ ⟨.symbol (.operator .subtract), 1⟩ :: [] ∧
      Token.Fits (some ⟨.symbol (.grouping .closing), 1⟩)
        ⟨.symbol (.operator .subtract), 1⟩ [] := by
  intro tokens
  have text : "(-)-".toList = ['(', '-', ')', '-'] := rfl
  have first : standard.scan none ['(', '-', ')', '-'] =
      .ok (some ⟨[⟨.symbol (.grouping .opening), 1⟩], ['('], ['-', ')', '-']⟩) := rfl
  have second : standard.scan (some ⟨.symbol (.grouping .opening), 1⟩) ['-', ')', '-'] =
      .ok (some ⟨[⟨.symbol (.operator .negate), 1⟩], ['-'], [')', '-']⟩) := rfl
  have third : standard.scan (some ⟨.symbol (.operator .negate), 1⟩) [')', '-'] =
      .ok (some ⟨[⟨.symbol (.grouping .closing), 1⟩], [')'], ['-']⟩) := rfl
  have fourth : standard.scan (some ⟨.symbol (.grouping .closing), 1⟩) ['-'] =
      .ok (some ⟨[⟨.symbol (.operator .subtract), 1⟩], ['-'], []⟩) := rfl
  have reads : standard.Reads none ['(', '-', ')', '-'] tokens [] :=
    .lexeme first (.lexeme second (.lexeme third (.lexeme fourth (.nothing _ _))))
  have accepted : standard.tokenize "(-)-" = .ok tokens :=
    tokenizeFrom_eq_ok_iff.mpr ⟨text ▸ reads, rfl⟩
  obtain ⟨_, balanced, fits⟩ := (tokenize_wellFormed "(-)-").1 tokens accepted
  exact ⟨accepted, balanced, rfl, fits (tokens.take 3) _ [] rfl⟩

end ScannerSet

end Formulary
