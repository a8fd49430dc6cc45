import Formulary.Proofs.Clauses

/-!
Arithmetic in clauses. What stands on both sides of a comparison is computed as if it stood alone:
the rules for operators pass over all other signs.
-/
namespace Formulary

def Profile.waiting (place : Nat) : Profile where
  categories := [.numeric, .text, .logical, .dateTime, .operator, .comparator, .combinator]
  symbols := (levels.flatten.filter (place ≤ ·.place)).map .operator ++
    [.less, .lessEqual, .greater, .greaterEqual, .unequal, .equal].map .comparator ++
    [.and, .or].map .combinator

section

variable (place : Nat)

theorem uncalled_waiting : .function ∉ (Profile.waiting place).categories := by
  simp [Profile.waiting]

theorem within_data {v : Value} (some : v.category ≠ .null) :
    (Content.data v).Within (.waiting place) := by
  refine ⟨?_, nofun⟩
  cases v <;> first | exact absurd rfl some | simp [Profile.waiting, Token.category, Value.category]

theorem within_operator {op : Operator} (later : place ≤ op.place) (binary : op ≠ .negate) :
    (Content.symbol (.operator op)).Within (.waiting place) := by
  refine ⟨by simp [Profile.waiting, Token.category, Symbol.category], fun symbol same => ?_⟩
  cases same
  obtain ⟨level, known, joined⟩ := mem_levels binary
  have among : op ∈ levels.flatten := List.mem_flatten.mpr ⟨level, known, joined⟩
  exact List.mem_append_left _ (List.mem_append_left _
    (List.mem_map_of_mem (List.mem_filter.mpr ⟨among, decide_eq_true later⟩)))

theorem within_comparator (sign : Comparator) :
    (Content.symbol (.comparator sign)).Within (.waiting place) := by
  refine ⟨by simp [Profile.waiting, Token.category, Symbol.category], fun symbol same => ?_⟩
  cases same
  cases sign <;> simp [Profile.waiting]

theorem within_combinator (word : Combinator) :
    (Content.symbol (.combinator word)).Within (.waiting place) := by
  refine ⟨by simp [Profile.waiting, Token.category, Symbol.category], fun symbol same => ?_⟩
  cases same
  cases word <;> simp [Profile.waiting]

end

theorem ne_negate_of_mem {level : List Operator} (known : level ∈ levels) {op : Operator}
    (joined : op ∈ level) : op ≠ .negate := by
  have none : ∀ level ∈ levels, .negate ∉ level := by decide
  exact fun same => none level known (same ▸ joined)

theorem foreign_waiting {op : Operator} (binary : op ≠ .negate) :
    ForeignBefore op.place (.waiting op.place) [7] := by
  cases op <;> first | exact absurd rfl binary | (unfold ForeignBefore; decide)

/-- What has been passed at a place: it is within the profile, and none of the patterns matches in
    it, whatever comes behind. -/
structure Front (place : Nat) (patterns : List Pattern) (passed : List Token) : Prop where
  within : ∀ t ∈ passed, t.content.Within (.waiting place)
  skips : ∀ pattern ∈ patterns, ∀ behind, pattern.Skips behind passed
  starts : ∀ t ∈ passed.head?, t.category ≠ .operator

theorem Front.append {place : Nat} {patterns : List Pattern} {passed more : List Token}
    (front : Front place patterns passed)
    (within : ∀ t ∈ more, t.content.Within (.waiting place))
    (skips : ∀ pattern ∈ patterns, ∀ behind, pattern.Skips behind more)
    (starts : ∀ t ∈ more.head?, t.category ≠ .operator) :
    Front place patterns (passed ++ more) := by
  refine ⟨List.forall_mem_append.mpr ⟨front.within, within⟩, fun pattern member behind =>
    .append (front.skips pattern member _) (skips pattern member behind), ?_⟩
  cases passed with
  | nil => exact starts
  | cons t passed => exact front.starts

theorem Front.next {place : Nat} {level : List Operator} {passed : List Token}
    (front : Front place [between level] passed) {t sign : Token} {v : Value} {symbol : Symbol}
    (isValue : t.content = .data v) (some : v.category ≠ .null)
    (isSign : sign.content = .symbol symbol)
    (within : (Content.symbol symbol).Within (.waiting place))
    (apart : (Matcher.operators level).accepts sign = false) :
    Front place [between level] (passed ++ [t, sign]) := by
  have value : t.content.Within (.waiting place) := isValue ▸ within_data place some
  have other : Matcher.numeric.accepts sign = false := by
    refine Matcher.rejects_of_category rfl ?_
    rw [Token.category_of_symbol isSign]
    cases symbol <;> exact nofun
  refine front.append ?_ ?_ ?_
  · simp [value, isSign, within]
  · intro pattern member behind
    obtain rfl := List.mem_singleton.mp member
    refine ⟨fun atStart => ?_, fun atStart => ?_, trivial⟩
    · unfold between
      rw [Pattern.take?_cons_single Matcher.isSingle_numeric rfl, List.singleton_append,
        Pattern.take?_cons_of_rejects (Matcher.isSingle_operators level) apart]
      split <;> rfl
    · exact Pattern.take?_cons_of_rejects Matcher.isSingle_numeric other _ _ _
  · rintro u ⟨⟩
    rw [Token.category_of_data isValue]
    cases v <;> exact nofun

structure Series.Of (P : Operator → Prop) (s : Series Value) : Prop where
  some : s.first.category ≠ .null
  numeric : s.rest ≠ [] → s.IsNumeric
  operators : ∀ step ∈ s.rest, P step.1

def Operator.Waits (place : Nat) (op : Operator) : Prop := place ≤ op.place ∧ op ≠ .negate

theorem Series.Of.imp {P Q : Operator → Prop} (imp : ∀ op, P op → Q op) {s : Series Value}
    (series : s.Of P) : s.Of Q :=
  ⟨series.some, series.numeric, fun step member => imp _ (series.operators step member)⟩

theorem Series.Of.within {place : Nat} {s : Series Value} (waits : s.Of (·.Waits place)) :
    ∀ c ∈ s.contents, c.Within (.waiting place) := by
  intro c member
  rcases List.mem_cons.mp member with rfl | behind
  · exact within_data place waits.some
  · obtain ⟨step, among, here⟩ := List.mem_flatMap.mp behind
    have number := (waits.numeric (List.ne_nil_of_mem among)).2 step among
    rcases List.mem_cons.mp here with rfl | here
    · exact within_operator place (waits.operators step among).1 (waits.operators step among).2
    · obtain rfl := List.mem_singleton.mp here
      exact within_data place (by rw [number]; decide)

theorem Series.Of.compute {P : Operator → Prop} {level : List Operator} {s after : Series Value}
    (series : s.Of P) (computed : Formulary.compute level s.first s.rest = .ok after) :
    after.Of fun op => P op ∧ op ∉ level := by
  obtain ⟨first, rest⟩ := s
  have kept : ∀ step ∈ after.rest, P step.1 ∧ step.1 ∉ level := by
    intro step member
    have inside : step.1 ∈ after.rest.map Prod.fst := List.mem_map_of_mem member
    rw [operators_compute computed] at inside
    obtain ⟨among, apart⟩ := List.mem_filter.mp inside
    obtain ⟨origin, earlier, same⟩ := List.mem_map.mp among
    exact ⟨same ▸ series.operators origin earlier, of_decide_eq_true apart⟩
  cases rest with
  | nil =>
    cases computed
    exact ⟨series.some, series.numeric, kept⟩
  | cons step rest =>
    have numeric := RuleBook.numeric_compute (series.numeric (List.cons_ne_nil _ _)) computed
    exact ⟨by rw [numeric.1]; decide, fun _ => numeric, kept⟩

theorem Front.series {place : Nat} {level : List Operator} {passed : List Token}
    (front : Front place [between level] passed) {s : Series Value}
    (left : s.Of fun op => op.Waits place ∧ op ∉ level) (some : level ≠ []) {symbol : Symbol}
    (within : (Content.symbol symbol).Within (.waiting place))
    (apart : ∀ t : Token, t.content = .symbol symbol → (Matcher.operators level).accepts t = false)
    {tokens : List Token} (spelled : tokens.map Token.content = s.contents ++ [.symbol symbol]) :
    Front place [between level] (passed ++ tokens) := by
  obtain ⟨first, rest⟩ := s
  induction rest generalizing passed first tokens with
  | nil =>
    obtain ⟨t, behind, rfl, isValue, spelled⟩ := List.map_eq_cons_iff.mp spelled
    obtain ⟨sign, nothing, rfl, isSign, spelled⟩ := List.map_eq_cons_iff.mp spelled
    obtain rfl := List.map_eq_nil_iff.mp spelled
    exact front.next isValue left.some isSign within (apart sign isSign)
  | cons step rest ih =>
    obtain ⟨op, next⟩ := step
    obtain ⟨t, behind, rfl, isValue, spelled⟩ := List.map_eq_cons_iff.mp spelled
    obtain ⟨sign, behind, rfl, isSign, spelled⟩ := List.map_eq_cons_iff.mp spelled
    obtain ⟨⟨later, binary⟩, outside⟩ := left.operators (op, next) List.mem_cons_self
    have numeric := left.numeric (List.cons_ne_nil _ _)
    have number : next.category = .numeric := numeric.2 (op, next) List.mem_cons_self
    have other : (Matcher.operators level).accepts sign = false := by
      rw [Bool.eq_false_iff, ne_eq, Matcher.accepts_operators level isSign]
      exact not_or.mpr ⟨some, outside⟩
    have further := front.next isValue left.some isSign (within_operator place later binary) other
    have others : (⟨next, rest⟩ : Series Value).Of fun op => op.Waits place ∧ op ∉ level := by
      refine ⟨by rw [number]; decide, fun _ => ⟨number, fun step member => ?_⟩,
        fun step member => ?_⟩
      · exact numeric.2 step (List.mem_cons_of_mem _ member)
      · exact left.operators step (List.mem_cons_of_mem _ member)
    have run := ih further next others spelled
    rwa [List.append_assoc] at run

namespace RuleBook

section

variable {level : List Operator} (known : level ∈ levels) {passed : List Token}
  {tail : List Content}

include known

theorem joins_within (book : RuleBook) {op : Operator} (joined : op ∈ level)
    (front : Front op.place [between level] passed) {l r : Value}
    (numericLeft : l.category = .numeric) (numericRight : r.category = .numeric)
    (within : ∀ c ∈ tail, c.Within (.waiting op.place)) {tokens : List Token}
    (spelled : tokens.map Token.content =
      .data l :: .symbol (.operator op) :: .data r :: tail) :
    book.Becomes passed tokens ((op.join l r).map fun v => .data v :: tail) := by
  have binary : op ≠ .negate := ne_negate_of_mem known joined
  obtain ⟨left, behind, rfl, isLeft, spelled⟩ := List.map_eq_cons_iff.mp spelled
  obtain ⟨sign, behind, rfl, isSign, spelled⟩ := List.map_eq_cons_iff.mp spelled
  obtain ⟨right, behind, rfl, isRight, isBehind⟩ := List.map_eq_cons_iff.mp spelled
  obtain ⟨name, rule⟩ := core_operator known joined
  have whole : ∀ t ∈ passed ++ ([left, sign, right] ++ behind),
      t.content.Within (.waiting op.place) := by
    refine List.forall_mem_append.mpr ⟨front.within, List.forall_mem_append.mpr ⟨?_, fun t member =>
      within _ (isBehind ▸ List.mem_map_of_mem member)⟩⟩
    have number {v : Value} (numeric : v.category = .numeric) :
        (Content.data v).Within (.waiting op.place) := within_data _ (by rw [numeric]; decide)
    simp [isLeft, isSign, isRight, number numericLeft, number numericRight,
      within_operator op.place (Nat.le_refl _) binary]
  have skips := front.skips _ List.mem_cons_self ([left, sign, right] ++ behind)
  have found := skips.find? rfl rfl
    (between_take? isLeft numericLeft isSign joined isRight numericRight · behind)
  have starts : ∀ t ∈ (passed ++ ([left, sign, right] ++ behind)).head?,
      t.category ≠ .operator := by
    cases passed with
    | nil =>
      rintro t ⟨⟩
      rw [Token.category_of_data isLeft, numericLeft]
      decide
    | cons t passed => exact front.starts
  have apart : ∀ index ∈ [7], ∀ other, coreRules[index]? = some other →
      other.pattern.find? (passed ++ ([left, sign, right] ++ behind)) = none := by
    intro index member other there
    obtain rfl := List.mem_singleton.mp member
    cases there
    exact leadingMinus_find?_eq_none starts
  have step := book.evaluate_core (foreign_waiting binary) (uncalled_waiting _) rule (by simp) whole
    found apart
  have applied := applyTokens_operator isLeft numericLeft isSign isRight numericRight
  simp only [Action.plan, applied] at step
  cases joined : op.join l r with
  | error e =>
    rw [joined] at step
    exact step
  | ok v =>
    rw [joined] at step
    exact ⟨[Token.data v] ++ behind, by simp [isBehind, Token.data], step⟩

theorem computes_within (book : RuleBook) {lead : Operator} (leads : lead ∈ level)
    (front : Front lead.place [between level] passed) {s : Series Value}
    (waits : s.Of (·.Waits lead.place)) (within : ∀ c ∈ tail, c.Within (.waiting lead.place))
    {tokens : List Token} (spelled : tokens.map Token.content = s.contents ++ tail) :
    book.Becomes passed tokens
      ((compute level s.first s.rest).map fun done => done.contents ++ tail) := by
  -- All steps of one level in a series, whatever comes behind. By induction on what is still to the
  -- right: an operator of the level is joined next, any other is passed.
  obtain ⟨first, rest⟩ := s
  induction rest generalizing passed first tokens with
  | nil => exact ⟨tokens, spelled, rfl⟩
  | cons step rest ih =>
    obtain ⟨op, next⟩ := step
    obtain ⟨here, binary⟩ := waits.operators (op, next) List.mem_cons_self
    obtain ⟨numericFirst, numericRest⟩ := waits.numeric (List.cons_ne_nil _ _)
    have numericNext : next.category = .numeric := numericRest (op, next) List.mem_cons_self
    have same := mem_level_iff known leads binary
    have waitsFrom {v : Value} (number : v.category = .numeric) :
        (⟨v, rest⟩ : Series Value).Of (·.Waits lead.place) :=
      ⟨by rw [number]; decide,
        fun _ => ⟨number, fun step member => numericRest step (List.mem_cons_of_mem _ member)⟩,
        fun step member => waits.operators step (List.mem_cons_of_mem _ member)⟩
    by_cases joined : op ∈ level
    · have place : op.place = lead.place := same.mp joined
      have behind : ∀ c ∈ rest.flatMap (fun step => [Content.symbol (.operator step.1),
          .data step.2]) ++ tail, c.Within (.waiting op.place) := by
        rw [place]
        refine List.forall_mem_append.mpr ⟨fun c member => ?_, within⟩
        exact (waitsFrom numericNext).within c (List.mem_cons_of_mem _ member)
      have step := book.joins_within known joined (place ▸ front) numericFirst numericNext behind
        spelled
      simp only [compute, if_pos joined]
      exact step.bind fun v after value spelled =>
        ih front v (waitsFrom (category_join value)) spelled
    · obtain ⟨left, behind, rfl, isLeft, spelled⟩ := List.map_eq_cons_iff.mp spelled
      obtain ⟨sign, behind, rfl, isSign, spelled⟩ := List.map_eq_cons_iff.mp spelled
      have apart : (Matcher.operators level).accepts sign = false := by
        rw [Bool.eq_false_iff, ne_eq, Matcher.accepts_operators level isSign]
        exact not_or.mpr ⟨levels_nonempty known, joined⟩
      have further := front.next isLeft waits.some isSign
        (within_operator lead.place here binary) apart
      have run := ih further next (waitsFrom numericNext) spelled
      simp only [compute, if_neg joined]
      refine (run.behind fun done => rfl).bind fun done after _ spelled => ⟨after, ?_, rfl⟩
      rw [spelled]
      simp [isLeft, isSign, Series.contents]

end

end RuleBook

/-! Clauses -/

namespace Clause

def compute (level : List Operator) : Clause → Outcome Clause
  | truth b => .ok (truth b)
  | comparison left sign right => do
    let l ← Formulary.compute level left.first left.rest
    let r ← Formulary.compute level right.first right.rest
    return comparison l sign r

def settle : List (List Operator) → Clause → Outcome Clause
  | [], c => .ok c
  | level :: others, c => do settle others (← c.compute level)

def Of (P : Operator → Prop) : Clause → Prop
  | truth _ => True
  | comparison left _ right => left.Of P ∧ right.Of P

theorem settle_comparison {remaining : List (List Operator)} {left right : Series Value}
    {sign : Comparator} {c : Clause} : (comparison left sign right).settle remaining = .ok c ↔
      ∃ l r, Formulary.settle remaining left = .ok l ∧ Formulary.settle remaining right = .ok r ∧
        c = comparison l sign r := by
  induction remaining generalizing left right with
  | nil =>
    constructor
    · rintro ⟨⟩
      exact ⟨left, right, rfl, rfl, rfl⟩
    · rintro ⟨l, r, ⟨⟩, ⟨⟩, rfl⟩
      rfl
  | cons level remaining ih =>
    constructor
    · intro settled
      obtain ⟨next, computed, later⟩ := bind_eq_ok.mp settled
      obtain ⟨l, isLeft, computed⟩ := bind_eq_ok.mp computed
      obtain ⟨r, isRight, same⟩ := bind_eq_ok.mp computed
      cases same
      obtain ⟨l', r', restLeft, restRight, same⟩ := ih.mp later
      exact ⟨l', r', bind_eq_ok.mpr ⟨l, isLeft, restLeft⟩, bind_eq_ok.mpr ⟨r, isRight, restRight⟩,
        same⟩
    · rintro ⟨l', r', settledLeft, settledRight, rfl⟩
      obtain ⟨l, isLeft, restLeft⟩ := bind_eq_ok.mp settledLeft
      obtain ⟨r, isRight, restRight⟩ := bind_eq_ok.mp settledRight
      refine bind_eq_ok.mpr ⟨comparison l sign r, ?_, ih.mpr ⟨l', r', restLeft, restRight, rfl⟩⟩
      exact bind_eq_ok.mpr ⟨l, isLeft, bind_eq_ok.mpr ⟨r, isRight, rfl⟩⟩

variable {P Q : Operator → Prop} {c after : Clause}

theorem Of.imp (imp : ∀ op, P op → Q op) (clause : c.Of P) : c.Of Q := by
  cases c with
  | truth b => trivial
  | comparison left sign right => exact ⟨clause.1.imp imp, clause.2.imp imp⟩

theorem Of.compute {level : List Operator} (clause : c.Of P)
    (computed : c.compute level = .ok after) : after.Of fun op => P op ∧ op ∉ level := by
  cases c with
  | truth b =>
    cases computed
    trivial
  | comparison x sign y =>
    obtain ⟨l, isLeft, computed⟩ := bind_eq_ok.mp computed
    obtain ⟨r, isRight, same⟩ := bind_eq_ok.mp computed
    cases same
    exact ⟨clause.1.compute isLeft, clause.2.compute isRight⟩

theorem Of.within {place : Nat} (waits : c.Of (·.Waits place)) :
    ∀ content ∈ c.contents, content.Within (.waiting place) := by
  cases c with
  | truth b => simpa [contents] using within_data place (v := .logical b) nofun
  | comparison left sign right =>
    exact List.forall_mem_append.mpr ⟨waits.1.within,
      List.forall_mem_cons.mpr ⟨within_comparator place sign, waits.2.within⟩⟩

end Clause

theorem within_following {place : Nat} {rest : List (Combinator × Clause)}
    (waits : ∀ step ∈ rest, step.2.Of (·.Waits place)) :
    ∀ c ∈ Junction.following rest, c.Within (.waiting place) := by
  intro c member
  obtain ⟨step, among, here⟩ := List.mem_flatMap.mp member
  rcases List.mem_cons.mp here with rfl | here
  · exact within_combinator place step.1
  · exact (waits step among).within c here

namespace RuleBook

section

variable {level : List Operator} (known : level ∈ levels) {lead : Operator} (leads : lead ∈ level)
  {passed tokens : List Token} {first : Clause}
  (front : Front lead.place [between level] passed)

include known leads front

theorem computes_clause (book : RuleBook) (waits : first.Of (·.Waits lead.place))
    {rest : List (Combinator × Clause)} (later : ∀ step ∈ rest, step.2.Of (·.Waits lead.place))
    (spelled : tokens.map Token.content = first.contents ++ Junction.following rest) :
    book.Becomes passed tokens
      ((first.compute level).map fun done => done.contents ++ Junction.following rest) := by
  have behind := within_following later
  cases first with
  | truth b => exact ⟨tokens, spelled, rfl⟩
  | comparison left sign right =>
    have whole : tokens.map Token.content =
        left.contents ++ (.symbol (.comparator sign) :: right.contents ++
          Junction.following rest) := by simpa [Clause.contents] using spelled
    have within : ∀ c ∈ .symbol (.comparator sign) :: right.contents ++ Junction.following rest,
        c.Within (.waiting lead.place) :=
      List.forall_mem_append.mpr ⟨List.forall_mem_cons.mpr
        ⟨within_comparator _ sign, waits.2.within⟩, behind⟩
    refine (book.computes_within known leads front waits.1 within whole).bind
      fun l after computed spelled => ?_
    have parted : after.map Token.content = (l.contents ++ [.symbol (.comparator sign)]) ++
        (right.contents ++ Junction.following rest) := by
      rw [spelled]
      simp
    obtain ⟨before, others, rfl, isBefore, isOthers⟩ := List.map_eq_append_iff.mp parted
    have further := front.series (waits.1.compute computed) (levels_nonempty known)
      (within_comparator _ sign) (fun t content => Matcher.rejects_of_category rfl
        (by rw [Token.category_of_symbol content]; exact nofun)) isBefore
    have run := book.computes_within known leads further waits.2 behind isOthers
    refine (run.behind fun done => rfl).bind fun r after _ spelled => ⟨after, ?_, rfl⟩
    rw [spelled, isBefore]
    simp [Clause.contents]

omit leads in
theorem front_clause (waits : first.Of (·.Waits lead.place)) {done : Clause}
    (computed : first.compute level = .ok done) {word : Combinator}
    (spelled : tokens.map Token.content = done.contents ++ [.symbol (.combinator word)]) :
    Front lead.place [between level] (passed ++ tokens) := by
  have left := waits.compute computed
  have within (word : Combinator) := within_combinator lead.place word
  have apart {t : Token} {symbol : Symbol} (content : t.content = .symbol symbol)
      (other : symbol.category ≠ .operator) : (Matcher.operators level).accepts t = false :=
    Matcher.rejects_of_category rfl (by rwa [Token.category_of_symbol content])
  cases done with
  | truth b =>
    obtain ⟨t, others, rfl, isTruth, spelled⟩ := List.map_eq_cons_iff.mp spelled
    obtain ⟨sign, nothing, rfl, isWord, spelled⟩ := List.map_eq_cons_iff.mp spelled
    obtain rfl := List.map_eq_nil_iff.mp spelled
    exact front.next isTruth nofun isWord (within word) (apart isWord nofun)
  | comparison l sign r =>
    have parted : tokens.map Token.content = (l.contents ++ [.symbol (.comparator sign)]) ++
        (r.contents ++ [.symbol (.combinator word)]) := by
      rw [spelled]
      simp [Clause.contents]
    obtain ⟨before, behind, rfl, isBefore, isBehind⟩ := List.map_eq_append_iff.mp parted
    have some := levels_nonempty known
    have further := front.series left.1 some (within_comparator _ sign)
      (fun t content => apart content nofun) isBefore
    have last := further.series left.2 some (within word) (fun t content => apart content nofun)
      isBehind
    rwa [List.append_assoc] at last

end

/-- What is left of the operators when these levels have joined all that they can join. -/
def LeftBy (done : List (List Operator)) (op : Operator) : Prop :=
  op ≠ .negate ∧ ∀ level ∈ done, op ∉ level

/-- All steps of all levels from one on: if arithmetic fails in any clause, it fails. -/
theorem settles_clauses (book : RuleBook) {done remaining : List (List Operator)}
    (split : levels = done ++ remaining) {j : Junction Clause}
    (left : ∀ c ∈ j.operands, c.Of (LeftBy done)) {tokens : List Token}
    (spelled : tokens.map Token.content = j.contents) :
    (∃ d, j.Rel (fun c settled => c.settle remaining = .ok settled) d ∧
      book.Becomes [] tokens (.ok d.contents)) ∨
    ∃ c ∈ j.operands, ∃ e e', c.settle remaining = .error e ∧ book.evaluate tokens = .error e' := by
  induction remaining generalizing done j tokens with
  | nil =>
    refine .inl ⟨j, ⟨rfl, ?_⟩, tokens, spelled, rfl⟩
    exact List.forall₂_same.mpr fun step _ => ⟨rfl, rfl⟩
  | cons level remaining ih =>
    have known : level ∈ levels := by simp [split]
    obtain ⟨lead, leads⟩ := List.exists_mem_of_ne_nil _ (levels_nonempty known)
    have waits : ∀ c ∈ j.operands, c.Of (·.Waits lead.place) := fun c member =>
      (left c member).imp fun op leftBy => ⟨place_le split leftBy.1 leftBy.2 leads, leftBy.1⟩
    have front : Front lead.place [between level] [] := ⟨by simp, fun _ _ _ => trivial, by simp⟩
    rcases @passes book (Clause.compute level) (Front lead.place [between level])
      (Clause.Of (·.Waits lead.place))
      (fun front waits later spelled => book.computes_clause known leads front waits later spelled)
      (fun front waits done spelled => front_clause known front waits done spelled) [] tokens front
      j waits spelled with ⟨next, computed, run⟩ | ⟨c, member, e, failed, also⟩
    · have further : ∀ c ∈ next.operands, c.Of (LeftBy (done ++ [level])) := by
        intro c member
        obtain ⟨origin, inside, became⟩ := computed.mem member
        refine ((left origin inside).compute became).imp fun op kept => ⟨kept.1.1, ?_⟩
        refine List.forall_mem_append.mpr ⟨kept.1.2, fun other last => ?_⟩
        rw [List.mem_singleton.mp last]
        exact kept.2
      obtain ⟨after, isAfter, same⟩ := run
      have split : levels = (done ++ [level]) ++ remaining := by simp [split]
      rcases ih split further isAfter with ⟨d, rel, run⟩ | ⟨c, member, e, e', failed, also⟩
      · obtain ⟨last, isLast, also⟩ := run
        have compose {a b c : Clause} (here : a.compute level = .ok b)
            (there : b.settle remaining = .ok c) : a.settle (level :: remaining) = .ok c :=
          bind_eq_ok.mpr ⟨b, here, there⟩
        have settled := Junction.Rel.trans
          (T := fun c settled => c.settle (level :: remaining) = .ok settled) compose computed rel
        exact .inl ⟨d, settled, last, isLast, same.trans also⟩
      · obtain ⟨origin, inside, became⟩ := computed.mem member
        have fails : origin.settle (level :: remaining) = .error e := by
          simp [Clause.settle, became, failed, bind, Except.bind]
        exact .inr ⟨origin, inside, e, e', fails, same.trans also⟩
    · exact .inr ⟨c, member, e, e, by simp [Clause.settle, failed, bind, Except.bind], also⟩

end RuleBook

end Formulary
