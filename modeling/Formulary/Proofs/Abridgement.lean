import Mathlib.Data.List.Forall2
import Formulary.Proofs.Parts

/-!
Groups that stand for a value, and tokens in which that value takes the place of the group. Runs,
pieces between commas, and matches of the rules for calls and groups go through a group as a whole,
so that they are cut alike in both.
-/
namespace Formulary

structure IsGroup (book : RuleBook) (opening : Token) (inner : List Token) (closing : Token)
    (v : Value) : Prop where
  opens : opening.content = .symbol (.grouping .opening)
  closes : closing.content = .symbol (.grouping .closing)
  value : book.evaluate inner = .ok v

namespace IsGroup

variable {book : RuleBook} {opening closing : Token} {inner : List Token} {v : Value}
  (group : IsGroup book opening inner closing v)

include group

theorem isOpening : opening.isOpening = true := by
  simp [Token.isOpening, Token.isGrouping_of_content group.opens]

theorem isClosing : closing.isClosing = true := Token.isGrouping_of_content group.closes

theorem balanced : endDepth? 0 inner = some 0 :=
  endDepth?_of_freeDepth? (RuleBook.freeDepth?_of_evaluate group.value)

end IsGroup

/-- The second tokens are the first with the values of some groups in their places. -/
inductive Abridged (book : RuleBook) : List Token → List Token → Prop where
  | nil : Abridged book [] []
  | cons (t : Token) {whole short : List Token} :
      Abridged book whole short → Abridged book (t :: whole) (t :: short)
  | group {opening closing : Token} {inner whole short : List Token} {v : Value} :
      IsGroup book opening inner closing v → Abridged book whole short →
      Abridged book (opening :: (inner ++ closing :: whole)) (.data v :: short)

/-! Runs and pieces go through what stands between brackets -/

theorem runLength_inner (throughCommas : Bool) {depth final : Nat} {inner : List Token}
    (ends : endDepth? depth inner = some final) (around : Nat) (rest : List Token) :
    runLength throughCommas (depth + (around + 1)) (inner ++ rest) =
      inner.length + runLength throughCommas (final + (around + 1)) rest := by
  induction inner generalizing depth with
  | nil =>
    cases ends
    simp
  | cons t inner ih =>
    obtain ⟨next, here, there⟩ := Option.bind_eq_some_iff.mp ends
    have inside : (t.isComma && depth + (around + 1) == 0 && !throughCommas) = false := by simp
    simp only [List.cons_append, runLength, depthAfter?_add here, inside, ih there,
      List.length_cons, Bool.false_eq_true, if_false]
    omega

theorem pieces_inner {depth final : Nat} {inner : List Token}
    (ends : endDepth? depth inner = some final) (around : Nat) (rest : List Token) :
    pieces (depth + (around + 1)) (inner ++ rest) =
      inner.foldr extendPiece (pieces (final + (around + 1)) rest) := by
  induction inner generalizing depth with
  | nil =>
    cases ends
    rfl
  | cons t inner ih =>
    obtain ⟨next, here, there⟩ := Option.bind_eq_some_iff.mp ends
    have inside : (t.isComma && depth + (around + 1) == 0) = false := by simp
    simp only [List.cons_append, pieces, depthAfter?_add here, inside, ih there,
      Bool.false_eq_true, if_false, List.foldr_cons]

namespace Abridged

variable {book : RuleBook} {whole short : List Token}

theorem refl (book : RuleBook) (tokens : List Token) : Abridged book tokens tokens := by
  induction tokens with
  | nil => exact .nil
  | cons t rest ih => exact .cons t ih

theorem append (abridged : Abridged book whole short) {more more' : List Token}
    (further : Abridged book more more') : Abridged book (whole ++ more) (short ++ more') := by
  induction abridged with
  | nil => exact further
  | cons t _ ih => exact .cons t ih
  | group isGroup _ ih =>
    have joined := Abridged.group isGroup ih
    simpa using joined

theorem isEmpty (abridged : Abridged book whole short) : whole.isEmpty = short.isEmpty := by
  cases abridged <;> rfl

def Cuts (book : RuleBook) (whole short : List Token) (n n' : Nat) : Prop :=
  ∃ front front' back back', whole = front ++ back ∧ short = front' ++ back' ∧
    Abridged book front front' ∧ Abridged book back back' ∧ n = front.length ∧ n' = front'.length

theorem Cuts.none (abridged : Abridged book whole short) : Cuts book whole short 0 0 :=
  ⟨[], [], whole, short, rfl, rfl, .nil, abridged, rfl, rfl⟩

theorem Cuts.cons {n n' : Nat} (cuts : Cuts book whole short n n') (t : Token) :
    Cuts book (t :: whole) (t :: short) (n + 1) (n' + 1) := by
  obtain ⟨front, front', back, back', rfl, rfl, inFront, behind, rfl, rfl⟩ := cuts
  exact ⟨t :: front, t :: front', back, back', rfl, rfl, .cons t inFront, behind, rfl, rfl⟩

theorem Cuts.group {opening closing : Token} {inner : List Token} {v : Value}
    (isGroup : IsGroup book opening inner closing v) {n n' : Nat}
    (cuts : Cuts book whole short n n') :
    Cuts book (opening :: (inner ++ closing :: whole)) (.data v :: short) (inner.length + n + 2)
      (n' + 1) := by
  obtain ⟨front, front', back, back', rfl, rfl, inFront, behind, rfl, rfl⟩ := cuts
  refine ⟨opening :: (inner ++ closing :: front), .data v :: front', back, back', by simp, rfl,
    .group isGroup inFront, behind, ?_, rfl⟩
  simp only [List.length_cons, List.length_append]
  omega

theorem Cuts.eq_zero_iff {n n' : Nat} (cuts : Cuts book whole short n n') : n = 0 ↔ n' = 0 := by
  obtain ⟨front, front', _, _, _, _, inFront, _, rfl, rfl⟩ := cuts
  cases inFront <;> simp

theorem runLength (abridged : Abridged book whole short) (throughCommas : Bool) (depth : Nat) :
    Cuts book whole short (runLength throughCommas depth whole)
      (runLength throughCommas depth short) := by
  induction abridged generalizing depth with
  | nil => exact .none .nil
  | @cons t whole short abridged ih =>
    unfold Formulary.runLength
    cases depthAfter? depth t with
    | none => exact .none (.cons t abridged)
    | some next =>
      by_cases stops : (t.isComma && depth == 0 && !throughCommas) = true
      · simp only [stops, if_true]
        exact .none (.cons t abridged)
      · simp only [stops]
        exact (ih next).cons t
  | @group opening closing inner whole short v isGroup abridged ih =>
    have opens := depthAfter?_of_isOpening isGroup.isOpening depth
    have comma := isComma_of_bracket (.inl isGroup.isOpening)
    have last := isComma_of_bracket (.inr isGroup.isClosing)
    have closes := depthAfter?_of_isClosing isGroup.isClosing depth
    have through := runLength_inner throughCommas isGroup.balanced depth (closing :: whole)
    rw [Nat.zero_add] at through
    have long : Formulary.runLength throughCommas depth (opening :: (inner ++ closing :: whole)) =
        inner.length + Formulary.runLength throughCommas depth whole + 2 := by
      simp only [Formulary.runLength, opens, comma, through, closes, last, Bool.false_and,
        Bool.false_eq_true, if_false]
      omega
    have single : Formulary.runLength throughCommas depth (.data v :: short) =
        Formulary.runLength throughCommas depth short + 1 := by
      simp [Formulary.runLength, depthAfter?_of_category (category_data v),
        isComma_of_category (category_data v)]
    rw [long, single]
    exact .group isGroup (ih depth)

theorem extendPiece {pieces pieces' : List (List Token)}
    (each : List.Forall₂ (Abridged book) pieces pieces') (t : Token) :
    List.Forall₂ (Abridged book) (extendPiece t pieces) (extendPiece t pieces') := by
  cases each with
  | nil => exact .cons (.cons t .nil) .nil
  | cons first others => exact .cons (.cons t first) others

theorem foldr_extendPiece (tokens : List Token) (piece : List Token)
    (others : List (List Token)) :
    tokens.foldr Formulary.extendPiece (piece :: others) = (tokens ++ piece) :: others := by
  induction tokens with
  | nil => rfl
  | cons t tokens ih =>
    rw [List.foldr_cons, ih]
    rfl

theorem pieces (abridged : Abridged book whole short) (depth : Nat) :
    List.Forall₂ (Abridged book) (pieces depth whole) (pieces depth short) := by
  induction abridged generalizing depth with
  | nil => exact .cons .nil .nil
  | @cons t whole short abridged ih =>
    unfold Formulary.pieces
    cases depthAfter? depth t with
    | none => exact .cons .nil (ih 0)
    | some next =>
      by_cases parts : (t.isComma && depth == 0) = true
      · simp only [parts, if_true]
        exact .cons .nil (ih 0)
      · simp only [parts]
        exact extendPiece (ih next) t
  | @group opening closing inner whole short v isGroup abridged ih =>
    have opens := depthAfter?_of_isOpening isGroup.isOpening depth
    have comma := isComma_of_bracket (.inl isGroup.isOpening)
    have last := isComma_of_bracket (.inr isGroup.isClosing)
    have closes := depthAfter?_of_isClosing isGroup.isClosing depth
    have through := pieces_inner isGroup.balanced depth (closing :: whole)
    rw [Nat.zero_add] at through
    have long : Formulary.pieces depth (opening :: (inner ++ closing :: whole)) =
        (opening :: (inner ++ [closing])).foldr Formulary.extendPiece
          (Formulary.pieces depth whole) := by
      simp only [Formulary.pieces, opens, comma, through, closes, last, Bool.false_and,
        Bool.false_eq_true, if_false, List.foldr_cons, List.foldr_append, List.foldr_nil]
    have single : Formulary.pieces depth (.data v :: short) =
        Formulary.extendPiece (.data v) (Formulary.pieces depth short) := by
      simp [Formulary.pieces, depthAfter?_of_category (category_data v),
        isComma_of_category (category_data v)]
    rw [long, single]
    obtain ⟨first, others, same, _, _⟩ := pieces_inside depth whole
    obtain ⟨first', others', same', _, _⟩ := pieces_inside depth short
    have rest := ih depth
    rw [same, same'] at rest ⊢
    rw [foldr_extendPiece]
    cases rest with
    | cons here behind =>
      refine .cons ?_ behind
      have joined := Abridged.group isGroup here
      simpa using joined

theorem splitArguments (abridged : Abridged book whole short) :
    List.Forall₂ (Abridged book) (splitArguments whole) (splitArguments short) := by
  unfold Formulary.splitArguments
  rw [abridged.isEmpty]
  split
  · exact .nil
  · exact abridged.pieces 0

theorem all_isEmpty {spans spans' : List (List Token)}
    (each : List.Forall₂ (Abridged book) spans spans') :
    spans.all (!·.isEmpty) = spans'.all (!·.isEmpty) := by
  induction each with
  | nil => rfl
  | cons here _ ih => rw [List.all_cons, List.all_cons, here.isEmpty, ih]

/-! Matches -/

inductive Agrees (book : RuleBook) (whole short : List Token) : Option Nat → Option Nat → Prop
  | none : Agrees book whole short none none
  | some {n n' : Nat} : Cuts book whole short n n' → Agrees book whole short (some n) (some n')

theorem argumentsLength? (abridged : Abridged book whole short) :
    Agrees book whole short (argumentsLength? whole) (argumentsLength? short) := by
  have cuts := abridged.runLength true 0
  have alike : (Formulary.splitArguments (whole.take (Formulary.runLength true 0 whole))).all
        (!·.isEmpty) =
      (Formulary.splitArguments (short.take (Formulary.runLength true 0 short))).all
        (!·.isEmpty) := by
    obtain ⟨front, front', back, back', split, split', inFront, _, long, long'⟩ := cuts
    rw [long, long', split, split', List.take_left, List.take_left]
    exact all_isEmpty inFront.splitArguments
  simp only [argumentsLength?_eq, alike]
  split
  · exact .some cuts
  · exact .none

theorem take?_grouping (abridged : Abridged book whole short) {mark : Grouping}
    (other : mark ≠ .opening) (atStart atStart' : Bool) :
    ((Matcher.grouping mark).take? atStart whole = none ∧
      (Matcher.grouping mark).take? atStart' short = none) ∨
    ∃ t more more', whole = t :: more ∧ short = t :: more' ∧ Abridged book more more' ∧
      (Matcher.grouping mark).take? atStart whole = some 1 ∧
      (Matcher.grouping mark).take? atStart' short = some 1 := by
  have one (atStart : Bool) (t : Token) (rest : List Token) :
      (Matcher.grouping mark).take? atStart (t :: rest) =
        if (Matcher.grouping mark).accepts t then some 1 else none := by
    simp [Matcher.take?, Matcher.grouping]
  cases abridged with
  | nil => exact .inl ⟨rfl, rfl⟩
  | @cons t more more' abridged =>
    rw [one, one]
    by_cases accepted : (Matcher.grouping mark).accepts t = true
    · rw [if_pos accepted]
      exact .inr ⟨t, more, more', rfl, rfl, abridged, rfl, rfl⟩
    · rw [if_neg accepted]
      exact .inl ⟨rfl, rfl⟩
  | @group opening closing inner more more' v isGroup abridged =>
    have apart : (Matcher.grouping mark).accepts opening = false :=
      Matcher.rejects_grouping isGroup.opens other.symm
    have plain : (Matcher.grouping mark).accepts (.data v) = false :=
      Matcher.rejects_of_category rfl (by simpa using category_data v)
    rw [one, one, apart, plain]
    exact .inl ⟨rfl, rfl⟩

theorem take?_inner (abridged : Abridged book whole short) {m : Matcher} (inner : m.IsInner)
    (atStart atStart' : Bool) :
    Agrees book whole short (m.take? atStart whole) (m.take? atStart' short) := by
  have cuts := abridged.runLength false 0
  rcases inner with rfl | rfl | rfl | rfl
  · simp only [Matcher.take?, Matcher.run, Bool.false_and, Bool.false_eq_true, if_false,
      cuts.eq_zero_iff]
    split
    · exact .none
    · exact .some cuts
  · exact .some cuts
  · exact abridged.argumentsLength?
  · rcases abridged.take?_grouping (show Grouping.comma ≠ .opening by decide) atStart atStart' with
      ⟨nothing, nothing'⟩ | ⟨t, more, more', rfl, rfl, behind, one, one'⟩
    · rw [Matcher.comma, nothing, nothing']
      exact .none
    · rw [Matcher.comma, one, one']
      exact .some ((Cuts.none behind).cons t)

/-- How what a match takes is made up: some tokens in front, others up to the bracket that closes,
    and that bracket. -/
structure Splits (book : RuleBook) (whole short lead : List Token) (n n' : Nat)
    (inner inner' : List Token) (closing : Token) (more more' : List Token) : Prop where
  whole_eq : whole = lead ++ (inner ++ closing :: more)
  short_eq : short = lead ++ (inner' ++ closing :: more')
  inside : Abridged book inner inner'
  behind : Abridged book more more'
  length_eq : n = lead.length + inner.length + 1
  length_eq' : n' = lead.length + inner'.length + 1

theorem take?_closing {pattern : Pattern} (every : ∀ m ∈ pattern, m.IsInner)
    (abridged : Abridged book whole short) (atStart atStart' : Bool) :
    (Pattern.take? (pattern ++ [.closing]) atStart whole = none ∧
      Pattern.take? (pattern ++ [.closing]) atStart' short = none) ∨
    ∃ n n' inner inner' closing more more',
      Pattern.take? (pattern ++ [.closing]) atStart whole = some n ∧
      Pattern.take? (pattern ++ [.closing]) atStart' short = some n' ∧
      Splits book whole short [] n n' inner inner' closing more more' := by
  induction pattern generalizing whole short atStart atStart' with
  | nil =>
    rcases abridged.take?_grouping (show Grouping.closing ≠ .opening by decide)
        atStart atStart' with
      ⟨nothing, nothing'⟩ | ⟨t, more, more', rfl, rfl, behind, one, one'⟩
    · exact .inl ⟨by simp [Pattern.take?, Matcher.closing, nothing],
        by simp [Pattern.take?, Matcher.closing, nothing']⟩
    · exact .inr ⟨1, 1, [], [], t, more, more', by simp [Pattern.take?, Matcher.closing, one],
        by simp [Pattern.take?, Matcher.closing, one'], rfl, rfl, .nil, behind, rfl, rfl⟩
  | cons m pattern ih =>
    have first := abridged.take?_inner (every m List.mem_cons_self) atStart atStart'
    simp only [List.cons_append, Pattern.take?]
    generalize m.take? atStart whole = taken, m.take? atStart' short = taken' at first
    cases first with
    | none => exact .inl ⟨rfl, rfl⟩
    | some cuts =>
      obtain ⟨front, front', back, back', rfl, rfl, inFront, behind, rfl, rfl⟩ := cuts
      rcases ih (fun other member => every other (List.mem_cons_of_mem m member)) behind
        (atStart && front.length == 0) (atStart' && front'.length == 0) with
        ⟨nothing, nothing'⟩ | ⟨n, n', inner, inner', closing, more, more', there, there', splits⟩
      · exact .inl ⟨by simp [nothing], by simp [nothing']⟩
      · refine .inr ⟨front.length + n, front'.length + n', front ++ inner, front' ++ inner',
          closing, more, more', by simp [there], by simp [there'], ?_⟩
        obtain ⟨rfl, rfl, inside, further, rfl, rfl⟩ := splits
        exact ⟨by simp, by simp, inFront.append inside, further, by simp; omega, by simp; omega⟩

end Abridged

inductive Action.Leads (action : Action) : List Token → Prop where
  | call {head : Token} (opening : Token) {name : Name} : head.symbol? = some (.function name) →
      action.lead? = some 2 → Leads action [head, opening]
  | group (opening : Token) : action = .evaluateGroup → Leads action [opening]

theorem Token.symbol_of_function {t : Token} (category : t.category = .function) :
    ∃ name, t.symbol? = some (.function name) := by
  cases content : t.content with
  | symbol symbol => cases symbol <;> simp_all [Token.category, Symbol.category, Token.symbol?]
  | data v => cases v <;> simp_all [Token.category, Value.category]
  | _ => simp_all [Token.category]

namespace Abridged

variable {book : RuleBook} {whole short : List Token}

/-- Rules for calls and groups match alike, and take the spans that they evaluate alike. -/
theorem bracketed (abridged : Abridged book whole short) {rule : Rule} (bracketed : rule.Bracketed)
    (t : Token) (atStart atStart' : Bool) :
    (rule.pattern.take? atStart (t :: whole) = none ∧
      rule.pattern.take? atStart' (t :: short) = none) ∨
    ∃ n n' lead inner inner' closing more more',
      rule.pattern.take? atStart (t :: whole) = some n ∧
      rule.pattern.take? atStart' (t :: short) = some n' ∧
      Splits book (t :: whole) (t :: short) lead n n' inner inner' closing more more' ∧
      rule.action.Leads lead := by
  cases bracketed with
  | call names pattern every same action =>
    rw [same, Pattern.take?_cons_single ⟨_, _, rfl⟩ rfl, Pattern.take?_cons_single ⟨_, _, rfl⟩ rfl]
    split
    · next accepted =>
      obtain ⟨name, isName⟩ := Token.symbol_of_function (Matcher.category_of_accepts rfl accepted)
      rcases abridged.take?_grouping (show Grouping.callOpening ≠ .opening by decide)
          false false with
        ⟨nothing, nothing'⟩ | ⟨opening, rest, rest', rfl, rfl, behind, one, one'⟩
      · exact .inl ⟨by simp [Pattern.take?, Matcher.callOpening, nothing],
          by simp [Pattern.take?, Matcher.callOpening, nothing']⟩
      · rcases behind.take?_closing every false false with ⟨nothing, nothing'⟩ |
          ⟨n, n', inner, inner', closing, more, more', there, there', splits⟩
        · exact .inl ⟨by simp [Pattern.take?, Matcher.callOpening, one, nothing],
            by simp [Pattern.take?, Matcher.callOpening, one', nothing']⟩
        · refine .inr ⟨1 + (1 + n), 1 + (1 + n'), [t, opening], inner, inner', closing, more, more',
            by simp [Pattern.take?, Matcher.callOpening, one, there],
            by simp [Pattern.take?, Matcher.callOpening, one', there'], ?_,
            .call opening isName action⟩
          obtain ⟨rfl, rfl, inside, further, rfl, rfl⟩ := splits
          exact ⟨rfl, rfl, inside, further, by simp; omega, by simp; omega⟩
    · exact .inl ⟨rfl, rfl⟩
  | group pattern every same action =>
    rw [same, Pattern.take?_cons_single ⟨_, _, rfl⟩ rfl, Pattern.take?_cons_single ⟨_, _, rfl⟩ rfl]
    split
    · rcases abridged.take?_closing every false false with ⟨nothing, nothing'⟩ |
        ⟨n, n', inner, inner', closing, more, more', there, there', splits⟩
      · exact .inl ⟨by simp [nothing], by simp [nothing']⟩
      · refine .inr ⟨1 + n, 1 + n', [t], inner, inner', closing, more, more', by simp [there],
          by simp [there'], ?_, .group t action⟩
        obtain ⟨rfl, rfl, inside, further, rfl, rfl⟩ := splits
        exact ⟨rfl, rfl, inside, further, by simp; omega, by simp; omega⟩
    · exact .inl ⟨rfl, rfl⟩

theorem rejects_data {pattern : Pattern} (bracketed : pattern.Bracketed) (v : Value)
    (atStart : Bool) (rest : List Token) : pattern.take? atStart (.data v :: rest) = none := by
  have plain : (Token.data v).category ≠ .function := by
    cases v <;> simp [Token.data, Token.category, Value.category]
  cases bracketed with
  | call names inner =>
    exact Pattern.take?_cons_of_rejects ⟨_, _, rfl⟩
      (Matcher.rejects_of_category rfl (by simpa using plain)) _ _ _
  | group inner =>
    exact Pattern.take?_cons_of_rejects ⟨_, _, rfl⟩
      (Matcher.rejects_of_category rfl (by simpa using category_data v)) _ _ _

theorem nowhere (abridged : Abridged book whole short) {rule : Rule} (bracketed : rule.Bracketed)
    {more more' : List Token} (further : Abridged book more more')
    (absent : ∀ start < whole.length, rule.pattern.matchAt? (whole ++ more) start = none) :
    ∀ start < short.length, rule.pattern.matchAt? (short ++ more') start = none := by
  have apart := bracketed.pattern
  have free (tokens : List Token) (start : Nat) :
      rule.pattern.matchAt? tokens start = rule.pattern.take? false (tokens.drop start) :=
    apart.take?_atStart _ _
  simp only [free] at absent ⊢
  induction abridged with
  | nil => exact fun start inside => absurd inside (Nat.not_lt_zero start)
  | @cons t whole short abridged ih =>
    intro start inside
    cases start with
    | zero =>
      rcases (abridged.append further).bracketed bracketed t false false with ⟨_, nothing⟩ |
        ⟨_, _, _, _, _, _, _, _, taken, _⟩
      · exact nothing
      · have nothing := absent 0 (Nat.succ_pos _)
        rw [List.drop_zero, List.cons_append, taken] at nothing
        cases nothing
    | succ start =>
      exact ih (fun place within => absent (place + 1) (Nat.succ_lt_succ within)) start
        (Nat.lt_of_succ_lt_succ inside)
  | @group opening closing inner whole short v isGroup abridged ih =>
    intro start inside
    cases start with
    | zero => exact rejects_data apart v _ _
    | succ start =>
      refine ih (fun place within => ?_) start (Nat.lt_of_succ_lt_succ inside)
      have behind := absent ((opening :: (inner ++ [closing])).length + place) (by
        simp only [List.length_cons, List.length_append, List.length_nil]
        omega)
      rw [show opening :: (inner ++ closing :: whole) ++ more =
        (opening :: (inner ++ [closing])) ++ (whole ++ more) by simp,
        List.drop_length_add_append] at behind
      exact behind

end Abridged

end Formulary
