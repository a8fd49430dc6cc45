import Formulary.Proofs.ClauseArithmetic

/-!
Comparisons and words. When all arithmetic is done, numbers are compared, then texts, then points
in time, each kind in one pass, and in the end words join truth values from the left. No chain of
two comparisons is ever there, because a word stands between any two.
-/
namespace Formulary

/-! Patterns of single tokens -/

theorem Pattern.take?_eq_none_of_rejects {pattern : Pattern} (single : ∀ m ∈ pattern, m.IsSingle)
    {i : Nat} {m : Matcher} (there : pattern[i]? = some m) {tokens : List Token}
    (rejected : ∀ t, tokens[i]? = some t → m.accepts t = false) (atStart : Bool) :
    pattern.take? atStart tokens = none := by
  induction pattern generalizing i tokens atStart with
  | nil => cases there
  | cons first pattern ih =>
    cases taken : Pattern.take? (first :: pattern) atStart tokens with
    | none => rfl
    | some n =>
      exfalso
      obtain ⟨here, others, takes, more, rfl⟩ := take?_cons taken
      obtain ⟨categories, symbols, shape⟩ := single first List.mem_cons_self
      obtain ⟨t, rest, rfl, accepted, rfl⟩ := Matcher.take?_one shape takes
      cases i with
      | zero =>
        cases there
        rw [rejected t rfl] at accepted
        cases accepted
      | succ i =>
        have failed := ih (fun m member => single m (List.mem_cons_of_mem _ member))
          (i := i) there rejected (atStart && 1 == 0)
        rw [List.drop_one, List.tail_cons, failed] at more
        cases more

def comparing (kind : Category) : Pattern := [.ofCategory kind, .comparator, .ofCategory kind]

def chaining (signs : List Comparator) : Pattern :=
  [.numeric, .comparators signs, .numeric, .comparators signs, .numeric]

theorem isSingle_chaining {signs : List Comparator} : ∀ m ∈ chaining signs, m.IsSingle := by
  simp [chaining, Matcher.IsSingle, Matcher.numeric, Matcher.ofCategory, Matcher.comparators]

theorem comparing_take? {kind : Category} {left sign right : Token} {l r : Value}
    {comparator : Comparator} (isLeft : left.content = .data l) (leftKind : l.category = kind)
    (isSign : sign.content = .symbol (.comparator comparator))
    (isRight : right.content = .data r) (rightKind : r.category = kind) (atStart : Bool)
    (rest : List Token) :
    (comparing kind).take? atStart (left :: sign :: right :: rest) = some 3 := by
  refine Pattern.take?_three ?_
    (Matcher.accepts_of_category ((Token.category_of_data isLeft).trans leftKind))
    (Matcher.accepts_of_category (Token.category_of_symbol isSign))
    (Matcher.accepts_of_category ((Token.category_of_data isRight).trans rightKind)) atStart rest
  simp [Matcher.IsSingle, Matcher.ofCategory]

theorem applyTokens_comparator {left sign right : Token} {l r : Value} {comparator : Comparator}
    (isLeft : left.content = .data l) (isSign : sign.content = .symbol (.comparator comparator))
    (isRight : right.content = .data r) :
    applyTokens left sign right = (comparator.compare l r).map Value.logical := by
  unfold applyTokens
  rw [Token.toOperand_of_data isLeft, Token.toOperand_of_data isRight,
    Token.symbol?_of_symbol isSign]
  simp only [bind, Except.bind, Operand.resolve]
  cases comparator.compare l r <;> rfl

/-! Clauses without operators -/

def Value.IsOrdered (l r : Value) : Prop := ∃ order, l.order? r = some order

theorem Value.IsOrdered.category {l r : Value} (ordered : l.IsOrdered r) :
    l.category = r.category ∧ l.category ∈ [.numeric, .text, .dateTime] := by
  obtain ⟨order, same⟩ := ordered
  cases l <;> cases r <;> first | (cases same; done) | simp [Value.category]

namespace Clause

def kind : Clause → Category
  | truth _ => .logical
  | comparison left _ _ => left.first.category

def holds : Clause → Bool
  | truth b => b
  | comparison left sign right => (left.first.order? right.first).any sign.holds

def Simple : Clause → Prop
  | truth _ => True
  | comparison left _ right => left.rest = [] ∧ right.rest = [] ∧ left.first.IsOrdered right.first

def compare (kind : Category) (c : Clause) : Clause := if c.kind = kind then truth c.holds else c

variable {c : Clause}

theorem Simple.compare (simple : c.Simple) (kind : Category) : (c.compare kind).Simple := by
  unfold Clause.compare
  split
  · trivial
  · exact simple

theorem Simple.of (simple : c.Simple) (P : Operator → Prop) : c.Of P := by
  cases c with
  | truth b => trivial
  | comparison left sign right =>
    obtain ⟨aloneLeft, aloneRight, ordered⟩ := simple
    obtain ⟨same, among⟩ := ordered.category
    have some : left.first.category ≠ .null := by
      intro null
      simp [null] at among
    refine ⟨⟨some, fun several => absurd aloneLeft several, by simp [aloneLeft]⟩,
      ⟨same ▸ some, fun several => absurd aloneRight several, by simp [aloneRight]⟩⟩

theorem Simple.spelled (simple : c.Simple) {tokens : List Token} {more : List Content}
    (spelled : tokens.map Token.content = c.contents ++ more) :
    (∃ t behind, tokens = t :: behind ∧ behind.map Token.content = more ∧
      t.content = .data (.logical c.holds) ∧ c.kind = .logical) ∨
    ∃ left sign right behind, tokens = left :: sign :: right :: behind ∧
      behind.map Token.content = more ∧
      ∃ l comparator r, left.content = .data l ∧ sign.content = .symbol (.comparator comparator) ∧
        right.content = .data r ∧ c.kind = l.category ∧ l.IsOrdered r ∧
        comparator.compare l r = .ok c.holds := by
  cases c with
  | truth b =>
    obtain ⟨t, behind, rfl, isTruth, spelled⟩ := List.map_eq_cons_iff.mp spelled
    exact .inl ⟨t, behind, rfl, spelled, isTruth, rfl⟩
  | comparison x comparator y =>
    obtain ⟨l, others⟩ := x
    obtain ⟨r, others'⟩ := y
    obtain ⟨rfl, rfl, order, ordered⟩ := simple
    obtain ⟨left, behind, rfl, isLeft, spelled⟩ := List.map_eq_cons_iff.mp spelled
    obtain ⟨sign, behind, rfl, isSign, spelled⟩ := List.map_eq_cons_iff.mp spelled
    obtain ⟨right, behind, rfl, isRight, spelled⟩ := List.map_eq_cons_iff.mp spelled
    refine .inr ⟨left, sign, right, behind, rfl, spelled, l, comparator, r, isLeft, isSign, isRight,
      rfl, ⟨order, ordered⟩, ?_⟩
    dsimp only at ordered
    simp [Comparator.compare, holds, ordered]

end Clause

/-! What passes over a clause -/

/-- The pattern matches nowhere in the clause, if a word or nothing comes behind, and nowhere at a
    word. -/
def Pattern.Ignores (pattern : Pattern) (c : Clause) : Prop :=
  (∀ {tokens behind}, tokens.map Token.content = c.contents →
    (∀ t ∈ behind.head?, t.category = .combinator) → pattern.Skips behind tokens) ∧
  ∀ {t behind}, t.category = .combinator → pattern.Skips behind [t]

theorem ofCategory_rejects {kind : Category} {t : Token} (other : t.category ≠ kind) :
    (Matcher.ofCategory kind).accepts t = false := Matcher.rejects_of_category rfl other

theorem comparing_ignores {kind : Category} (among : kind ∈ [.numeric, .text, .dateTime])
    {c : Clause} (simple : c.Simple) (other : c.kind ≠ kind) : (comparing kind).Ignores c := by
  have single : (Matcher.ofCategory kind).IsSingle := ⟨_, _, rfl⟩
  have notWord : Category.combinator ≠ kind := by
    rintro rfl
    simp at among
  have notSign : Category.comparator ≠ kind := by
    rintro rfl
    simp at among
  refine ⟨fun {tokens behind} spelled _ => Pattern.skips_of_rejects single fun t member => ?_,
    fun word => Pattern.skips_of_rejects single fun t member => ?_⟩
  · rw [← List.append_nil c.contents] at spelled
    rcases simple.spelled spelled with ⟨u, others, rfl, nothing, isTruth, same⟩ |
      ⟨left, sign, right, others, rfl, nothing, l, comparator, r, isLeft, isSign, isRight, same,
        ordered, _⟩
    all_goals obtain rfl := List.map_eq_nil_iff.mp nothing
    · obtain rfl := List.mem_singleton.mp member
      refine ofCategory_rejects ?_
      rw [Token.category_of_data isTruth]
      rwa [same] at other
    · simp only [List.mem_cons, List.not_mem_nil, or_false] at member
      rcases member with rfl | rfl | rfl
      · exact ofCategory_rejects (by rw [Token.category_of_data isLeft, ← same]; exact other)
      · exact ofCategory_rejects (by rw [Token.category_of_symbol isSign]; exact notSign)
      · refine ofCategory_rejects ?_
        rw [Token.category_of_data isRight, ← ordered.category.1, ← same]
        exact other
  · obtain rfl := List.mem_singleton.mp member
    exact ofCategory_rejects (by rw [word]; exact notWord)

theorem chaining_ignores (signs : List Comparator) {c : Clause} (simple : c.Simple) :
    (chaining signs).Ignores c := by
  have single := @isSingle_chaining signs
  have fails := fun (i : Nat) (m : Matcher) (there : (chaining signs)[i]? = some m)
    (tokens : List Token) => @Pattern.take?_eq_none_of_rejects _ single i m there tokens
  have start {t : Token} {others : List Token} (other : t.category ≠ .numeric) (atStart : Bool) :
      (chaining signs).take? atStart (t :: others) = none :=
    fails 0 .numeric rfl _ (by rintro u ⟨⟩; exact ofCategory_rejects other) atStart
  refine ⟨fun {tokens behind} spelled ends => ?_, fun {t behind} word => ⟨start ?_, trivial⟩⟩
  · have atEnd (u : Token) (next : behind[0]? = some u) :
        (Matcher.comparators signs).accepts u = false := by
      refine Matcher.rejects_of_category rfl ?_
      rw [ends u (by rw [List.head?_eq_getElem?, next]; rfl)]
      decide
    rw [← List.append_nil c.contents] at spelled
    rcases simple.spelled spelled with ⟨t, others, rfl, nothing, isTruth, same⟩ |
      ⟨left, sign, right, others, rfl, nothing, l, comparator, r, isLeft, isSign, isRight, _⟩
    all_goals obtain rfl := List.map_eq_nil_iff.mp nothing
    · exact ⟨start (by rw [Token.category_of_data isTruth]; exact nofun), trivial⟩
    · refine ⟨fails 3 (.comparators signs) rfl _ atEnd,
        start (by rw [Token.category_of_symbol isSign]; exact nofun),
        fails 1 (.comparators signs) rfl _ atEnd, trivial⟩
  · rw [word]
    decide

theorem skips_junction {pattern : Pattern} {first : Clause} {rest : List (Combinator × Clause)}
    (here : pattern.Ignores first) (later : ∀ step ∈ rest, pattern.Ignores step.2)
    {tokens : List Token}
    (spelled : tokens.map Token.content = first.contents ++ Junction.following rest) :
    pattern.Skips [] tokens := by
  induction rest generalizing first tokens with
  | nil =>
    rw [show Junction.following [] = [] from rfl, List.append_nil] at spelled
    exact here.1 spelled (by simp)
  | cons step rest ih =>
    obtain ⟨before, behind, rfl, isBefore, spelled⟩ := List.map_eq_append_iff.mp spelled
    obtain ⟨word, behind, rfl, isWord, isBehind⟩ := List.map_eq_cons_iff.mp spelled
    have category : word.category = .combinator := Token.category_of_symbol isWord
    obtain ⟨next, others⟩ := List.forall_mem_cons.mp later
    have more := ih next others isBehind
    have apart : pattern.Skips [] ([word] ++ behind) := .append (here.2 category) more
    refine .append (here.1 isBefore ?_) apart
    rw [List.append_nil]
    rintro t ⟨⟩
    exact category

/-! Passes of comparisons -/

inductive IsComparison : Category → Nat → List Category → Prop
  | numbers : IsComparison .numeric 19 []
  | texts : IsComparison .text 20 [.numeric]
  | times : IsComparison .dateTime 21 [.numeric, .text]

def watched (earlier : List Category) : List Pattern :=
  chaining [.less, .lessEqual] :: chaining [.greater, .greaterEqual] :: earlier.map comparing

namespace IsComparison

variable {kind : Category} {place : Nat} {earlier : List Category}

theorem rule (stage : IsComparison kind place earlier) :
    ∃ name, coreRules[place]? = some ⟨name, comparing kind, .apply⟩ := by
  cases stage <;> exact ⟨_, rfl⟩

theorem kind_mem (stage : IsComparison kind place earlier) :
    kind ∈ [.numeric, .text, .dateTime] ∧
      ∀ other ∈ earlier, other ∈ [.numeric, .text, .dateTime] := by
  cases stage <;> decide

theorem foreign (stage : IsComparison kind place earlier) :
    ForeignBefore place (.waiting place) (List.range' 17 (place - 17)) := by
  cases stage <;> unfold ForeignBefore <;> decide

theorem watches (stage : IsComparison kind place earlier) :
    ∀ index ∈ List.range' 17 (place - 17), ∀ rule, coreRules[index]? = some rule →
      rule.pattern ∈ watched earlier ∧ rule.pattern.isAnchored = false := by
  intro index member rule there
  cases stage
  all_goals
    simp only [List.range', List.mem_cons, List.not_mem_nil, or_false] at member
    rcases member with rfl | rfl | rfl | rfl <;> cases there <;>
      exact ⟨by simp [watched, chaining, comparing, Matcher.ascending, Matcher.descending,
        Matcher.numeric, Matcher.text], rfl⟩

end IsComparison

def Clause.Awaits (earlier : List Category) (c : Clause) : Prop := c.Simple ∧ c.kind ∉ earlier

theorem Clause.Awaits.ignored {earlier : List Category}
    (known : ∀ other ∈ earlier, other ∈ [.numeric, .text, .dateTime]) {c : Clause}
    (awaits : c.Awaits earlier) : ∀ pattern ∈ watched earlier, pattern.Ignores c := by
  intro pattern member
  simp only [watched, List.mem_cons, List.mem_map] at member
  rcases member with rfl | rfl | ⟨kind, among, rfl⟩
  · exact chaining_ignores _ awaits.1
  · exact chaining_ignores _ awaits.1
  · exact comparing_ignores (known kind among) awaits.1 fun same => awaits.2 (same ▸ among)

theorem Clause.Awaits.compare {kind : Category} {place : Nat} {earlier : List Category}
    (stage : IsComparison kind place earlier) {c : Clause} (awaits : c.Awaits earlier) :
    (c.compare kind).Awaits (earlier ++ [kind]) := by
  obtain ⟨simple, apart⟩ := awaits
  refine ⟨simple.compare kind, ?_⟩
  unfold Clause.compare
  split
  · have noTruth : ∀ other ∈ [Category.numeric, .text, .dateTime], other ≠ .logical := by decide
    intro member
    rcases List.mem_append.mp member with before | last
    · exact noTruth _ (stage.kind_mem.2 _ before) rfl
    · exact noTruth _ stage.kind_mem.1 (List.mem_singleton.mp last).symm
  · next other =>
    intro member
    rcases List.mem_append.mp member with before | last
    · exact apart before
    · exact other (List.mem_singleton.mp last)

namespace RuleBook

section

variable {kind : Category} {place : Nat} {earlier : List Category}
  (stage : IsComparison kind place earlier) {passed tokens : List Token}
  (front : Front place (watched (earlier ++ [kind])) passed) {first : Clause}
  (awaits : first.Awaits earlier)

include stage front awaits

theorem compares_clause (book : RuleBook) {rest : List (Combinator × Clause)}
    (later : ∀ step ∈ rest, step.2.Awaits earlier)
    (spelled : tokens.map Token.content = first.contents ++ Junction.following rest) :
    book.Becomes passed tokens
      (.ok ((first.compare kind).contents ++ Junction.following rest)) := by
  obtain ⟨among, known⟩ := stage.kind_mem
  by_cases here : first.kind = kind
  · have whole : ∀ t ∈ passed ++ tokens, t.content.Within (.waiting place) := by
      refine List.forall_mem_append.mpr ⟨front.within, fun t member => ?_⟩
      have inside : t.content ∈ first.contents ++ Junction.following rest :=
        spelled ▸ List.mem_map_of_mem member
      rcases List.mem_append.mp inside with inFirst | behind
      · exact (awaits.1.of _).within _ inFirst
      · exact within_following (fun step member => (later step member).1.of _) _ behind
    have quiet : ∀ pattern ∈ watched earlier, pattern.isAnchored = false →
        pattern.find? (passed ++ tokens) = none := by
      intro pattern member free
      have among : pattern ∈ watched (earlier ++ [kind]) := by
        simp only [watched, List.map_append, List.mem_cons, List.mem_append] at member ⊢
        rcases member with one | two | others
        · exact .inl one
        · exact .inr (.inl two)
        · exact .inr (.inr (.inl others))
      refine (Pattern.Skips.append (front.skips pattern among _) ?_).find?_eq_none free
      exact skips_junction (awaits.ignored known pattern member)
        (fun step inside => (later step inside).ignored known pattern member) spelled
    rcases awaits.1.spelled spelled with ⟨_, _, _, _, _, same⟩ |
      ⟨left, sign, right, behind, rfl, isBehind, l, comparator, r, isLeft, isSign, isRight, same,
        ordered, value⟩
    · rw [same] at here
      subst here
      simp at among
    · have leftKind : l.category = kind := same.symm.trans here
      have rightKind : r.category = kind := ordered.category.1.symm.trans leftKind
      obtain ⟨name, rule⟩ := stage.rule
      have own : comparing kind ∈ watched (earlier ++ [kind]) := by simp [watched]
      have found := (front.skips _ own ([left, sign, right] ++ behind)).find? rfl rfl
        (comparing_take? isLeft leftKind isSign isRight rightKind · behind)
      have step := book.evaluate_core stage.foreign (uncalled_waiting _) rule (by simp) whole found
        fun index member other there =>
          quiet _ (stage.watches index member other there).1
            (stage.watches index member other there).2
      have applied := applyTokens_comparator isLeft isSign isRight
      rw [value] at applied
      simp only [Action.plan, applied] at step
      refine ⟨[Token.data (.logical first.holds)] ++ behind, ?_, step⟩
      simp [Clause.compare, here, Clause.contents, Token.data, isBehind]
  · rw [Clause.compare, if_neg here]
    exact ⟨tokens, spelled, rfl⟩

theorem front_compared {word : Combinator} (spelled : tokens.map Token.content =
      (first.compare kind).contents ++ [.symbol (.combinator word)]) :
    Front place (watched (earlier ++ [kind])) (passed ++ tokens) := by
  have compared := awaits.compare stage
  have known : ∀ other ∈ earlier ++ [kind], other ∈ [.numeric, .text, .dateTime] :=
    List.forall_mem_append.mpr ⟨stage.kind_mem.2, fun other member =>
      List.mem_singleton.mp member ▸ stage.kind_mem.1⟩
  have starts : ∀ t ∈ tokens.head?, t.category ≠ .operator := by
    rcases compared.1.spelled spelled with ⟨t, _, rfl, _, isValue, _⟩ |
      ⟨t, _, _, _, rfl, _, v, _, _, isValue, _⟩
    all_goals
      rintro u ⟨⟩
      rw [Token.category_of_data isValue]
    · exact nofun
    · cases v <;> exact nofun
  obtain ⟨before, last, rfl, isBefore, spelled⟩ := List.map_eq_append_iff.mp spelled
  obtain ⟨t, nothing, rfl, isWord, spelled⟩ := List.map_eq_cons_iff.mp spelled
  obtain rfl := List.map_eq_nil_iff.mp spelled
  have category : t.category = .combinator := Token.category_of_symbol isWord
  refine front.append (List.forall_mem_append.mpr ⟨fun u member => ?_, ?_⟩) ?_ starts
  · exact (compared.1.of _).within _ (isBefore ▸ List.mem_map_of_mem member)
  · simpa [isWord] using within_combinator place word
  · intro pattern member behind
    obtain ⟨inClause, atWord⟩ := compared.ignored known pattern member
    refine .append (inClause isBefore ?_) (atWord category)
    rintro u ⟨⟩
    exact category

end

theorem compares (book : RuleBook) {kind : Category} {place : Nat} {earlier : List Category}
    (stage : IsComparison kind place earlier) {j : Junction Clause}
    (awaits : ∀ c ∈ j.operands, c.Awaits earlier) {tokens : List Token}
    (spelled : tokens.map Token.content = j.contents) :
    book.Becomes [] tokens (.ok (j.map (Clause.compare kind)).contents) := by
  have front : Front place (watched (earlier ++ [kind])) [] :=
    ⟨by simp, fun _ _ _ => trivial, by simp⟩
  rcases @passes book (fun c => .ok (c.compare kind)) (Front place (watched (earlier ++ [kind])))
      (Clause.Awaits earlier)
      (fun front awaits later spelled => book.compares_clause stage front awaits later spelled)
      (fun front awaits same spelled =>
        front_compared stage front awaits (Except.ok.inj same ▸ spelled)) [] tokens front j awaits
      spelled with ⟨d, rel, run⟩ | ⟨c, _, e, impossible, _⟩
  · have same : d = j.map (Clause.compare kind) := Junction.Rel.eq_map
      ⟨Except.ok.inj rel.1, rel.2.imp fun _ _ step => ⟨step.1, Except.ok.inj step.2⟩⟩
    rwa [same] at run
  · cases impossible

end RuleBook

/-! Words -/

def Combinator.unite : Combinator → Bool → Bool → Bool
  | and => (· && ·)
  | or => (· || ·)

/-- The words join truth values from the left, and equally tightly. -/
def Junction.value (j : Junction Bool) : Bool :=
  j.rest.foldl (fun b step => step.1.unite b step.2) j.first

theorem Combinator.join_logical (word : Combinator) (l r : Bool) :
    word.join (.logical l) (.logical r) = .logical (word.unite l r) := by
  cases word <;> cases l <;> rfl

theorem uniting_take? {left sign right : Token} {b c : Bool} {word : Combinator}
    (isLeft : left.content = .data (.logical b))
    (isWord : sign.content = .symbol (.combinator word))
    (isRight : right.content = .data (.logical c)) (atStart : Bool) (rest : List Token) :
    Pattern.take? [.logical, .combinator, .logical] atStart (left :: sign :: right :: rest) =
      some 3 := by
  have isCombinator : Matcher.combinator.accepts sign = true := by
    have category : sign.category = .combinator := Token.category_of_symbol isWord
    have symbol := Token.symbol?_of_symbol isWord
    cases word <;> simp [Matcher.accepts, Matcher.combinator, Matcher.categories,
      Matcher.symbols, category, symbol]
  refine Pattern.take?_three ?_ (Matcher.accepts_of_category (Token.category_of_data isLeft))
    isCombinator (Matcher.accepts_of_category (Token.category_of_data isRight)) atStart rest
  simp [Matcher.IsSingle, Matcher.ofCategory, Matcher.combinator]

theorem applyTokens_combinator {left sign right : Token} {b c : Bool} {word : Combinator}
    (isLeft : left.content = .data (.logical b))
    (isWord : sign.content = .symbol (.combinator word))
    (isRight : right.content = .data (.logical c)) :
    applyTokens left sign right = .ok (.logical (word.unite b c)) := by
  unfold applyTokens
  rw [Token.toOperand_of_data isLeft, Token.toOperand_of_data isRight,
    Token.symbol?_of_symbol isWord]
  simp [bind, Except.bind, Node.ofCombination, Operand.check, Value.category, Node.value,
    Operand.resolve, pure, Except.pure, Combinator.join_logical]

def Profile.truths : Profile := ⟨[.logical, .combinator], [.combinator .and, .combinator .or]⟩

theorem foreign_truths : ForeignBefore 22 .truths [] := by
  unfold ForeignBefore
  decide

theorem Clause.Simple.compared {c : Clause} (simple : c.Simple) :
    ((c.compare .numeric).compare .text).compare .dateTime = .truth c.holds := by
  cases c with
  | truth b => rfl
  | comparison left sign right =>
    have among := simple.2.2.category.2
    simp only [List.mem_cons, List.not_mem_nil, or_false] at among
    rcases among with same | same | same <;> simp [Clause.compare, kind, same, holds]

namespace RuleBook

theorem within_truths {j : Junction Bool} :
    ∀ c ∈ (j.map Clause.truth).contents, c.Within .truths := by
  have truth (b : Bool) : (Content.data (.logical b)).Within .truths :=
    ⟨by simp [Profile.truths, Token.category, Value.category], nofun⟩
  have word (word : Combinator) : (Content.symbol (.combinator word)).Within .truths := by
    refine ⟨by simp [Profile.truths, Token.category, Symbol.category], fun symbol same => ?_⟩
    cases same
    cases word <;> simp [Profile.truths]
  intro c member
  rcases List.mem_append.mp member with first | behind
  · obtain rfl := List.mem_singleton.mp first
    exact truth _
  · obtain ⟨step, among, here⟩ := List.mem_flatMap.mp behind
    obtain ⟨origin, _, rfl⟩ := List.mem_map.mp among
    rcases List.mem_cons.mp here with rfl | here
    · exact word _
    · obtain rfl := List.mem_singleton.mp here
      exact truth _

theorem joins_truths (book : RuleBook) {left sign right : Token} {behind : List Token} {b c : Bool}
    {word : Combinator} (isLeft : left.content = .data (.logical b))
    (isWord : sign.content = .symbol (.combinator word))
    (isRight : right.content = .data (.logical c))
    (within : ∀ t ∈ [left, sign, right] ++ behind, t.content.Within .truths) :
    book.evaluate ([left, sign, right] ++ behind) =
      book.evaluate (.data (.logical (word.unite b c)) :: behind) := by
  have rule : coreRules[22]? =
      some ⟨"combine", [.logical, .combinator, .logical], .apply⟩ := rfl
  have nothing : Pattern.Skips [.logical, .combinator, .logical] ([left, sign, right] ++ behind)
      [] := trivial
  have found := nothing.find? rfl rfl (uniting_take? isLeft isWord isRight · behind)
  have step := book.evaluate_core foreign_truths (by decide) rule (by simp) within found (by simp)
  simp only [Action.plan, applyTokens_combinator isLeft isWord isRight] at step
  exact step

theorem evaluate_truths (book : RuleBook) {j : Junction Bool} {tokens : List Token}
    (spelled : tokens.map Token.content = (j.map Clause.truth).contents) :
    book.evaluate tokens = .ok (.logical j.value) := by
  -- By induction on what is behind the first word: it is joined next.
  obtain ⟨b, rest⟩ := j
  induction rest generalizing b tokens with
  | nil =>
    obtain ⟨t, nothing, rfl, isTruth, spelled⟩ := List.map_eq_cons_iff.mp spelled
    obtain rfl := List.map_eq_nil_iff.mp spelled
    rw [book.evaluate_short (show [t].length ≤ 1 from Nat.le_refl 1)]
    simp [Token.toValue, isTruth, Junction.value]
  | cons step rest ih =>
    obtain ⟨word, c⟩ := step
    have within : ∀ t ∈ tokens, t.content.Within .truths := fun t member =>
      within_truths _ (spelled ▸ List.mem_map_of_mem member)
    obtain ⟨left, behind, rfl, isLeft, spelled⟩ := List.map_eq_cons_iff.mp spelled
    obtain ⟨sign, behind, rfl, isWord, spelled⟩ := List.map_eq_cons_iff.mp spelled
    obtain ⟨right, behind, rfl, isRight, isBehind⟩ := List.map_eq_cons_iff.mp spelled
    exact (book.joins_truths isLeft isWord isRight within).trans (ih (word.unite b c)
      (congrArg (List.cons (Content.data (.logical (word.unite b c)))) isBehind))

theorem evaluate_simple (book : RuleBook) {j : Junction Clause}
    (simple : ∀ c ∈ j.operands, c.Simple) {tokens : List Token}
    (spelled : tokens.map Token.content = j.contents) :
    book.evaluate tokens = .ok (.logical (j.map Clause.holds).value) := by
  have awaits : ∀ c ∈ j.operands, c.Awaits [] := fun c member => ⟨simple c member, nofun⟩
  have next {kind : Category} {place : Nat} {earlier : List Category} {j : Junction Clause}
      (stage : IsComparison kind place earlier) (awaits : ∀ c ∈ j.operands, c.Awaits earlier) :
      ∀ c ∈ (j.map (Clause.compare kind)).operands, c.Awaits (earlier ++ [kind]) := by
    rw [Junction.operands_map]
    exact List.forall_mem_map.mpr fun c member => (awaits c member).compare stage
  have numbers := next .numbers awaits
  have texts := next .texts numbers
  obtain ⟨one, isOne, first⟩ := book.compares .numbers awaits spelled
  obtain ⟨two, isTwo, second⟩ := book.compares .texts numbers isOne
  obtain ⟨three, isThree, third⟩ := book.compares .times texts isTwo
  simp only [List.nil_append] at first second third
  rw [first, second, third]
  refine book.evaluate_truths (isThree.trans (congrArg Junction.contents ?_))
  rw [Junction.map_map, Junction.map_map, Junction.map_map]
  exact Junction.map_congr fun c member => (simple c member).compared

end RuleBook

end Formulary
