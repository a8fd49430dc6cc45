import Formulary.Proofs.Comparisons

/-!
Chains of comparisons in one direction. The rule for the direction writes the number in the middle
of two comparisons twice, with `and` between, until each comparison stands alone. So a chain has
the value of its comparisons joined by `and`.
-/
namespace Formulary

structure ComparisonChain where
  first : Number
  rest : List (Comparator × Number)

def Clause.ofNumbers (left : Number) (sign : Comparator) (right : Number) : Clause :=
  .comparison ⟨.number left, []⟩ sign ⟨.number right, []⟩

namespace ComparisonChain

def following (rest : List (Comparator × Number)) : List Content :=
  rest.flatMap fun step => [.symbol (.comparator step.1), .data (.number step.2)]

def contents (c : ComparisonChain) : List Content := .data (.number c.first) :: following c.rest

theorem following_cons (sign : Comparator) (next : Number) (rest : List (Comparator × Number)) :
    following ((sign, next) :: rest) =
      .symbol (.comparator sign) :: .data (.number next) :: following rest := rfl

def pairs (first : Number) : List (Comparator × Number) → List (Number × Comparator × Number)
  | [] => []
  | (sign, next) :: rest => (first, sign, next) :: pairs next rest

def holds (c : ComparisonChain) : Bool :=
  (pairs c.first c.rest).all fun pair => pair.2.1.holds (pair.1.order pair.2.2)

def clauses (first : Number) (sign : Comparator) (next : Number)
    (rest : List (Comparator × Number)) : Junction Clause :=
  ⟨.ofNumbers first sign next,
    (pairs next rest).map fun pair => (.and, .ofNumbers pair.1 pair.2.1 pair.2.2)⟩

theorem clauses_cons (first : Number) (sign : Comparator) (next : Number) (sign' : Comparator)
    (last : Number) (rest : List (Comparator × Number)) :
    clauses first sign next ((sign', last) :: rest) =
      ⟨.ofNumbers first sign next, (.and, (clauses next sign' last rest).first) ::
        (clauses next sign' last rest).rest⟩ := rfl

theorem simple_clauses (first : Number) (sign : Comparator) (next : Number)
    (rest : List (Comparator × Number)) :
    ∀ c ∈ (clauses first sign next rest).operands, c.Simple := by
  have simple (l : Number) (sign : Comparator) (r : Number) : (Clause.ofNumbers l sign r).Simple :=
    ⟨rfl, rfl, l.order r, rfl⟩
  intro c member
  rcases List.mem_cons.mp member with same | later
  · rw [same]
    exact simple first sign next
  · obtain ⟨step, inside, same⟩ := List.mem_map.mp later
    obtain ⟨pair, _, made⟩ := List.mem_map.mp inside
    rw [← same, ← made]
    exact simple _ _ _

theorem value_of_all_and (b : Bool) (bs : List Bool) :
    (⟨b, bs.map fun c => (.and, c)⟩ : Junction Bool).value = (b && bs.all id) := by
  induction bs generalizing b with
  | nil => simp [Junction.value]
  | cons c bs ih =>
    have next := ih (b && c)
    simp only [Junction.value, List.map_cons, List.foldl_cons, Combinator.unite] at next ⊢
    rw [next, List.all_cons, id, Bool.and_assoc]

theorem value_clauses (first : Number) (sign : Comparator) (next : Number)
    (rest : List (Comparator × Number)) :
    ((clauses first sign next rest).map Clause.holds).value =
      holds ⟨first, (sign, next) :: rest⟩ := by
  have truths : (clauses first sign next rest).map Clause.holds =
      ⟨sign.holds (first.order next), ((pairs next rest).map fun pair =>
        pair.2.1.holds (pair.1.order pair.2.2)).map fun c => (.and, c)⟩ := by
    simp [clauses, Junction.map, Clause.ofNumbers, Clause.holds, Value.order?, Function.comp_def]
  rw [truths, value_of_all_and]
  simp [holds, pairs]

end ComparisonChain

open ComparisonChain

/-! Directions -/

inductive IsDirection : List Comparator → Nat → Prop
  | ascending : IsDirection [.less, .lessEqual] 17
  | descending : IsDirection [.greater, .greaterEqual] 18

def Profile.directed (signs : List Comparator) : Profile :=
  ⟨[.numeric, .comparator, .combinator], .combinator .and :: signs.map .comparator⟩

theorem Profile.directed_uncalled (signs : List Comparator) :
    .function ∉ (Profile.directed signs).categories := by simp [directed]

namespace IsDirection

variable {signs : List Comparator} {place : Nat}

theorem rule (direction : IsDirection signs place) :
    ∃ name, coreRules[place]? = some ⟨name, chaining signs, .expandRange⟩ := by
  cases direction with
  | ascending => exact ⟨_, rfl⟩
  | descending => exact ⟨_, rfl⟩

theorem foreign (direction : IsDirection signs place) :
    ForeignBefore place (.directed signs) [] := by
  unfold ForeignBefore
  cases direction with
  | ascending => decide
  | descending => decide

end IsDirection

section

variable {signs : List Comparator}

theorem within_number (n : Number) : (Content.data (.number n)).Within (.directed signs) := by
  constructor
  · simp [Profile.directed, Token.category, Value.category]
  · intro symbol impossible
    cases impossible

theorem within_sign {sign : Comparator} (known : sign ∈ signs) :
    (Content.symbol (.comparator sign)).Within (.directed signs) := by
  constructor
  · simp [Profile.directed, Token.category, Symbol.category]
  · intro symbol same
    cases same
    simp [Profile.directed, known]

theorem within_and : (Content.symbol (.combinator .and)).Within (.directed signs) := by
  constructor
  · simp [Profile.directed, Token.category, Symbol.category]
  · intro symbol same
    cases same
    simp [Profile.directed]

theorem within_chain {c : ComparisonChain} (known : ∀ step ∈ c.rest, step.1 ∈ signs) :
    ∀ content ∈ c.contents, content.Within (.directed signs) := by
  intro content member
  rcases List.mem_cons.mp member with same | later
  · rw [same]
    exact within_number c.first
  · obtain ⟨step, among, here⟩ := List.mem_flatMap.mp later
    simp only [List.mem_cons, List.not_mem_nil, or_false] at here
    rcases here with same | same
    · rw [same]
      exact within_sign (known step among)
    · rw [same]
      exact within_number step.2

theorem chaining_take? {a first b second c : Token} {l m r : Number} {sign sign' : Comparator}
    (isA : a.content = .data (.number l)) (isFirst : first.content = .symbol (.comparator sign))
    (known : sign ∈ signs) (isB : b.content = .data (.number m))
    (isSecond : second.content = .symbol (.comparator sign')) (known' : sign' ∈ signs)
    (isC : c.content = .data (.number r)) (atStart : Bool) (rest : List Token) :
    (chaining signs).take? atStart (a :: first :: b :: second :: c :: rest) = some 5 := by
  have single : (Matcher.comparators signs).IsSingle := ⟨_, _, rfl⟩
  have accepts {t : Token} {sign : Comparator} (content : t.content = .symbol (.comparator sign))
      (known : sign ∈ signs) : (Matcher.comparators signs).accepts t = true := by
    have category : t.category = .comparator := Token.category_of_symbol content
    simp [Matcher.accepts, Matcher.comparators, Matcher.categories, Matcher.symbols, category,
      Token.symbol?_of_symbol content, known]
  unfold chaining
  rw [Pattern.take?_cons_of_accepts Matcher.isSingle_numeric rfl (Matcher.accepts_numeric isA rfl),
    Pattern.take?_cons_of_accepts single rfl (accepts isFirst known),
    Pattern.take?_cons_of_accepts Matcher.isSingle_numeric rfl (Matcher.accepts_numeric isB rfl),
    Pattern.take?_cons_of_accepts single rfl (accepts isSecond known'),
    Pattern.take?_cons_of_accepts Matcher.isSingle_numeric rfl (Matcher.accepts_numeric isC rfl)]
  rfl

/-- What stands in front of the chain that is left: comparisons, each with `and` behind it. -/
structure Expanded (signs : List Comparator) (passed : List Token) : Prop where
  within : ∀ t ∈ passed, t.content.Within (.directed signs)
  skips : ∀ behind, (chaining signs).Skips behind passed

theorem Expanded.nil : Expanded signs [] := ⟨by simp, fun _ => trivial⟩

theorem Expanded.next {passed : List Token} (expanded : Expanded signs passed)
    {left sign right word : Token} {l r : Number} {comparator : Comparator}
    (isLeft : left.content = .data (.number l))
    (isSign : sign.content = .symbol (.comparator comparator)) (known : comparator ∈ signs)
    (isRight : right.content = .data (.number r))
    (isWord : word.content = .symbol (.combinator .and)) :
    Expanded signs (passed ++ [left, sign, right, word]) := by
  have simple : (Clause.ofNumbers l comparator r).Simple := ⟨rfl, rfl, l.order r, rfl⟩
  have isCombinator : word.category = .combinator := Token.category_of_symbol isWord
  obtain ⟨inClause, atWord⟩ := chaining_ignores signs simple
  constructor
  · intro t member
    rcases List.mem_append.mp member with earlier | here
    · exact expanded.within t earlier
    · simp only [List.mem_cons, List.not_mem_nil, or_false] at here
      rcases here with same | same | same | same
      · rw [same, isLeft]
        exact within_number l
      · rw [same, isSign]
        exact within_sign known
      · rw [same, isRight]
        exact within_number r
      · rw [same, isWord]
        exact within_and
  · intro behind
    have clause : (chaining signs).Skips ([word] ++ behind) [left, sign, right] := by
      apply inClause
      · simp [isLeft, isSign, isRight, Clause.ofNumbers, Clause.contents, Series.contents]
      · simp [isCombinator]
    exact .append (expanded.skips _) (.append clause (atWord isCombinator))

end

namespace RuleBook

variable {signs : List Comparator} {place : Nat} (direction : IsDirection signs place)
include direction

theorem evaluate_expanded (book : RuleBook) {passed behind : List Token}
    (expanded : Expanded signs passed) {a first b second c : Token} {l m r : Number}
    {sign sign' : Comparator} (isA : a.content = .data (.number l))
    (isFirst : first.content = .symbol (.comparator sign)) (known : sign ∈ signs)
    (isB : b.content = .data (.number m))
    (isSecond : second.content = .symbol (.comparator sign')) (known' : sign' ∈ signs)
    (isC : c.content = .data (.number r))
    (within : ∀ t ∈ behind, t.content.Within (.directed signs)) :
    book.evaluate (passed ++ ([a, first, b, second, c] ++ behind)) =
      book.evaluate (passed ++ ([a, first, b, .combinator .and] ++ (b :: second :: c :: behind)))
        := by
  obtain ⟨name, rule⟩ := direction.rule
  have whole : ∀ t ∈ passed ++ ([a, first, b, second, c] ++ behind),
      t.content.Within (.directed signs) := by
    intro t member
    simp only [List.mem_append, List.mem_cons, List.not_mem_nil, or_false] at member
    rcases member with earlier | (same | same | same | same | same) | later
    · exact expanded.within t earlier
    · rw [same, isA]
      exact within_number l
    · rw [same, isFirst]
      exact within_sign known
    · rw [same, isB]
      exact within_number m
    · rw [same, isSecond]
      exact within_sign known'
    · rw [same, isC]
      exact within_number r
    · exact within t later
  have found := (expanded.skips _).find? rfl rfl
    (chaining_take? isA isFirst known isB isSecond known' isC · behind)
  have step := book.evaluate_core direction.foreign (Profile.directed_uncalled signs) rule (by simp)
    whole found (by simp)
  exact step

theorem expands (book : RuleBook) {passed tokens : List Token} (expanded : Expanded signs passed)
    {first next : Number} {sign : Comparator} {rest : List (Comparator × Number)}
    (known : ∀ step ∈ (sign, next) :: rest, step.1 ∈ signs)
    (spelled : tokens.map Token.content = contents ⟨first, (sign, next) :: rest⟩) :
    book.Becomes passed tokens (.ok (clauses first sign next rest).contents) := by
  -- By induction on the comparisons behind the first: each is parted from the one before it.
  induction rest generalizing passed tokens first sign next with
  | nil => exact ⟨tokens, spelled, rfl⟩
  | cons step rest ih =>
    obtain ⟨sign', last⟩ := step
    obtain ⟨here, others⟩ := List.forall_mem_cons.mp known
    obtain ⟨here', later⟩ := List.forall_mem_cons.mp others
    obtain ⟨a, behind, rfl, isA, spelled⟩ := List.map_eq_cons_iff.mp spelled
    rw [following_cons, following_cons] at spelled
    obtain ⟨s, behind, rfl, isFirst, spelled⟩ := List.map_eq_cons_iff.mp spelled
    obtain ⟨b, behind, rfl, isB, spelled⟩ := List.map_eq_cons_iff.mp spelled
    obtain ⟨s', behind, rfl, isSecond, spelled⟩ := List.map_eq_cons_iff.mp spelled
    obtain ⟨c, behind, rfl, isC, isBehind⟩ := List.map_eq_cons_iff.mp spelled
    have within : ∀ t ∈ behind, t.content.Within (.directed signs) := by
      intro t member
      have inside : t.content ∈ following rest := isBehind ▸ List.mem_map_of_mem member
      exact within_chain (c := ⟨last, rest⟩) later _ (List.mem_cons_of_mem _ inside)
    have isWord : (Token.combinator .and).content = .symbol (.combinator .and) := rfl
    have isRest : (b :: s' :: c :: behind).map Token.content =
        contents ⟨next, (sign', last) :: rest⟩ := by
      simp [contents, following_cons, isB, isSecond, isC, isBehind]
    have step := book.evaluate_expanded direction expanded isA isFirst here isB isSecond here' isC
      within
    obtain ⟨after, isAfter, same⟩ := ih (expanded.next isA isFirst here isB isWord) others isRest
    refine ⟨[a, s, b, .combinator .and] ++ after, ?_, ?_⟩
    · rw [clauses_cons, List.map_append, isAfter]
      simp [isA, isFirst, isB, Token.combinator, Token.symbol, Junction.contents,
        Junction.following, Clause.ofNumbers, Clause.contents, Series.contents]
    · rw [List.append_assoc, List.append_assoc] at same
      exact step.trans same

/-- A chain of comparisons in one direction is true if all comparisons of neighbours hold. -/
theorem evaluate_directed (book : RuleBook) {c : ComparisonChain} (some : c.rest ≠ [])
    (known : ∀ step ∈ c.rest, step.1 ∈ signs) {tokens : List Token}
    (spelled : tokens.map Token.content = c.contents) :
    book.evaluate tokens = .ok (.logical c.holds) := by
  obtain ⟨first, rest⟩ := c
  cases rest with
  | nil => exact absurd rfl some
  | cons step rest =>
    obtain ⟨sign, next⟩ := step
    obtain ⟨after, isAfter, same⟩ := book.expands direction .nil known spelled
    have value := book.evaluate_simple (simple_clauses first sign next rest) isAfter
    rw [value_clauses] at value
    exact same.trans value

end RuleBook

end Formulary
