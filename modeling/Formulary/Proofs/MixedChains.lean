import Formulary.Proofs.ComparisonChains
import Formulary.Proofs.Failures

/-!
Chains of comparisons in mixed directions. A sign beside a truth value is never compared again, and
two signs in different directions around a number are never parted. Each of these clashes is left
behind by every step as one of them, so that a stream with a clash is never reduced to one token.
-/
namespace Formulary

/-- What stands beside signs: a number, or the truth value of what has been compared. -/
inductive Comparand where
  | number (n : Number)
  | truth (b : Bool)

def Comparand.content : Comparand → Content
  | number n => .data (.number n)
  | truth b => .data (.logical b)

/-- What stands between comparands: a comparison sign, or `and` where there is none. -/
abbrev Link := Option Comparator

def Link.content : Link → Content
  | some sign => .symbol (.comparator sign)
  | none => .symbol (.combinator .and)

structure Linked where
  first : Comparand
  rest : List (Link × Comparand)

theorem Comparand.content_eq_number {x : Comparand} {n : Number}
    (same : x.content = .data (.number n)) : x = .number n := by
  cases x with
  | number m =>
    cases same
    rfl
  | truth b => cases same

theorem Comparand.content_eq_truth {x : Comparand} {b : Bool}
    (same : x.content = .data (.logical b)) : x = .truth b := by
  cases x with
  | number n => cases same
  | truth c =>
    cases same
    rfl

theorem Link.content_eq_sign {link : Link} {sign : Comparator}
    (same : link.content = .symbol (.comparator sign)) : link = some sign := by
  cases link with
  | none => cases same
  | some other =>
    cases same
    rfl

theorem Link.content_eq_word {link : Link} {word : Combinator}
    (same : link.content = .symbol (.combinator word)) : link = none ∧ word = .and := by
  cases link with
  | none =>
    cases same
    exact ⟨rfl, rfl⟩
  | some other => cases same

def Linked.contents (s : Linked) : List Content :=
  s.first.content :: s.rest.flatMap fun step => [step.1.content, step.2.content]

def ComparisonChain.linked (c : ComparisonChain) : Linked :=
  ⟨.number c.first, c.rest.map fun step => (some step.1, .number step.2)⟩

theorem ComparisonChain.contents_linked (c : ComparisonChain) :
    c.linked.contents = c.contents := by
  simp only [Linked.contents, linked, contents, following, List.flatMap_map]
  rfl

def Comparator.Alike (sign sign' : Comparator) : Prop :=
  ∃ signs place, IsDirection signs place ∧ sign ∈ signs ∧ sign' ∈ signs

theorem IsDirection.eq_of_mem {signs signs' : List Comparator} {place place' : Nat}
    (direction : IsDirection signs place) (direction' : IsDirection signs' place')
    {sign : Comparator} (known : sign ∈ signs) (known' : sign ∈ signs') : signs = signs' := by
  cases direction with
  | ascending =>
    cases direction' with
    | ascending => rfl
    | descending => cases sign <;> simp at known known'
  | descending =>
    cases direction' with
    | ascending => cases sign <;> simp at known known'
    | descending => rfl

theorem Comparator.Alike.trans {a b c : Comparator} (here : a.Alike b) (there : b.Alike c) :
    a.Alike c := by
  obtain ⟨signs, place, direction, known, next⟩ := here
  obtain ⟨signs', place', direction', also, last⟩ := there
  have same := direction.eq_of_mem direction' next also
  exact ⟨signs, place, direction, known, same ▸ last⟩

/-! Steps -/

namespace Linked

/-- What a step does, wherever its rule matches: it expands two comparisons in one direction,
    compares two numbers, or joins two truth values. -/
inductive Reduces : Linked → Linked → Prop where
  | expand {l m r : Number} {sign sign' : Comparator} {rest : List (Link × Comparand)}
      (alike : sign.Alike sign') :
      Reduces ⟨.number l, (some sign, .number m) :: (some sign', .number r) :: rest⟩
        ⟨.number l, (some sign, .number m) :: (none, .number m) :: (some sign', .number r) :: rest⟩
  | compare {l r : Number} {sign : Comparator} {rest : List (Link × Comparand)} :
      Reduces ⟨.number l, (some sign, .number r) :: rest⟩ ⟨.truth (sign.holds (l.order r)), rest⟩
  | unite {b c : Bool} {rest : List (Link × Comparand)} :
      Reduces ⟨.truth b, (none, .truth c) :: rest⟩ ⟨.truth (b && c), rest⟩
  | behind {s t : Linked} (x : Comparand) (link : Link) (later : Reduces s t) :
      Reduces ⟨x, (link, s.first) :: s.rest⟩ ⟨x, (link, t.first) :: t.rest⟩

/-- The comparand cannot be compared with what stands on both sides of it. -/
inductive Clash : Link → Comparand → Link → Prop where
  | signBefore (sign : Comparator) (b : Bool) (right : Link) : Clash (some sign) (.truth b) right
  | signBehind (left : Link) (b : Bool) (sign : Comparator) : Clash left (.truth b) (some sign)
  | between {sign sign' : Comparator} (n : Number) (apart : ¬ sign.Alike sign') :
      Clash (some sign) (.number n) (some sign')

def Clashes (left : Link) : Comparand → List (Link × Comparand) → Prop
  | x, [] => Clash left x none
  | x, (link, y) :: rest => Clash left x link ∨ Clashes link y rest

theorem clashes_truth {left : Link} {sign : Comparator} {l r : Number}
    {rest : List (Link × Comparand)} (b : Bool)
    (clash : Clash left (.number l) (some sign) ∨ Clashes (some sign) (.number r) rest) :
    Clashes left (.truth b) rest := by
  rcases clash with before | later
  · cases before with
    | between _ apart =>
      cases rest with
      | nil => exact .signBefore _ b none
      | cons step rest => exact .inl (.signBefore _ b step.1)
  · cases rest with
    | nil => cases later
    | cons step rest =>
      obtain ⟨link, y⟩ := step
      rcases later with here | behind
      · cases here with
        | between _ apart => exact .inl (.signBehind left b _)
      · exact .inr behind

theorem clashes_united {left : Link} {b c : Bool} {rest : List (Link × Comparand)} (d : Bool)
    (clash : Clash left (.truth b) none ∨ Clashes none (.truth c) rest) :
    Clashes left (.truth d) rest := by
  rcases clash with before | later
  · cases before with
    | signBefore sign =>
      cases rest with
      | nil => exact .signBefore sign d none
      | cons step rest => exact .inl (.signBefore sign d step.1)
  · cases rest with
    | nil => cases later
    | cons step rest =>
      obtain ⟨link, y⟩ := step
      rcases later with here | behind
      · cases here with
        | signBehind _ _ sign => exact .inl (.signBehind left d sign)
      · exact .inr behind

theorem Reduces.clashes {s t : Linked} (step : s.Reduces t) {left : Link}
    (clash : Clashes left s.first s.rest) : Clashes left t.first t.rest := by
  induction step generalizing left with
  | expand alike =>
    rcases clash with first | second | later
    · exact .inl first
    · cases second with
      | between _ apart => exact absurd alike apart
    · exact .inr (.inr (.inr later))
  | compare => exact clashes_truth _ clash
  | unite => exact clashes_united _ clash
  | behind x link _ ih =>
    rcases clash with here | later
    · exact .inl here
    · exact .inr (ih later)

/-! Steps of an evaluation -/

theorem contents_cons (x : Comparand) (link : Link) (s : Linked) :
    contents ⟨x, (link, s.first) :: s.rest⟩ = x.content :: link.content :: s.contents := rfl

theorem cons_of_contents {s : Linked} {c d : Content} {behind : List Content}
    (spelled : s.contents = c :: d :: behind) :
    ∃ x link t, s = ⟨x, (link, Linked.first t) :: t.rest⟩ ∧ x.content = c ∧ link.content = d ∧
      t.contents = behind := by
  obtain ⟨x, rest⟩ := s
  cases rest with
  | nil =>
    have impossible := (List.cons.inj spelled).2
    cases impossible
  | cons step rest =>
    obtain ⟨link, y⟩ := step
    rw [contents_cons x link ⟨y, rest⟩] at spelled
    obtain ⟨isFirst, spelled⟩ := List.cons.inj spelled
    obtain ⟨isLink, isRest⟩ := List.cons.inj spelled
    exact ⟨x, link, ⟨y, rest⟩, rfl, isFirst, isLink, isRest⟩

theorem reduces_within {v : Value} {window replaced behind : List Content}
    (front : ∀ {s : Linked}, s.contents = .data v :: (window ++ behind) →
      ∃ t : Linked, t.contents = replaced ++ behind ∧ s.Reduces t)
    {s : Linked} {before : List Content}
    (spelled : s.contents = before ++ .data v :: (window ++ behind)) :
    ∃ t : Linked, t.contents = before ++ (replaced ++ behind) ∧ s.Reduces t := by
  obtain ⟨x, rest⟩ := s
  induction rest generalizing x before with
  | nil =>
    cases before with
    | nil => exact front spelled
    | cons c before =>
      have nothing := (List.cons.inj spelled).2
      simp at nothing
  | cons step rest ih =>
    obtain ⟨link, y⟩ := step
    rw [contents_cons x link ⟨y, rest⟩] at spelled
    cases before with
    | nil => exact front spelled
    | cons c before =>
      obtain ⟨first, spelled⟩ := List.cons.inj spelled
      cases before with
      | nil =>
        have impossible := (List.cons.inj spelled).1
        cases link <;> cases impossible
      | cons d before =>
        obtain ⟨second, spelled⟩ := List.cons.inj spelled
        obtain ⟨t, isT, later⟩ := ih y spelled
        refine ⟨⟨x, (link, t.first) :: t.rest⟩, ?_, .behind x link later⟩
        rw [contents_cons x link t, isT, first, second]
        rfl

theorem reduces_compare {l r : Number} {sign : Comparator} {behind : List Content} {s : Linked}
    (spelled : s.contents = .data (.number l) ::
      ([.symbol (.comparator sign), .data (.number r)] ++ behind)) :
    ∃ t : Linked, t.contents = [.data (.logical (sign.holds (l.order r)))] ++ behind ∧
      s.Reduces t := by
  obtain ⟨x, link, t, rfl, isLeft, isSign, spelled⟩ := cons_of_contents spelled
  obtain ⟨isRight, isBehind⟩ := List.cons.inj spelled
  obtain ⟨y, rest⟩ := t
  obtain rfl := Comparand.content_eq_number isLeft
  obtain rfl := Link.content_eq_sign isSign
  obtain rfl := Comparand.content_eq_number isRight
  exact ⟨⟨.truth (sign.holds (l.order r)), rest⟩, congrArg _ isBehind, .compare⟩

theorem reduces_unite {b c : Bool} {word : Combinator} {behind : List Content} {s : Linked}
    (spelled : s.contents = .data (.logical b) ::
      ([.symbol (.combinator word), .data (.logical c)] ++ behind)) :
    ∃ t : Linked, t.contents = [.data (.logical (word.unite b c))] ++ behind ∧ s.Reduces t := by
  obtain ⟨x, link, t, rfl, isLeft, isWord, spelled⟩ := cons_of_contents spelled
  obtain ⟨isRight, isBehind⟩ := List.cons.inj spelled
  obtain ⟨y, rest⟩ := t
  obtain rfl := Comparand.content_eq_truth isLeft
  obtain ⟨rfl, rfl⟩ := Link.content_eq_word isWord
  obtain rfl := Comparand.content_eq_truth isRight
  exact ⟨⟨.truth (b && c), rest⟩, congrArg _ isBehind, .unite⟩

theorem reduces_expand {l m r : Number} {sign sign' : Comparator} (alike : sign.Alike sign')
    {behind : List Content} {s : Linked}
    (spelled : s.contents = .data (.number l) :: ([.symbol (.comparator sign), .data (.number m),
      .symbol (.comparator sign'), .data (.number r)] ++ behind)) :
    ∃ t : Linked, t.contents = [.data (.number l), .symbol (.comparator sign), .data (.number m),
      .symbol (.combinator .and), .data (.number m), .symbol (.comparator sign'),
      .data (.number r)] ++ behind ∧ s.Reduces t := by
  obtain ⟨x, link, t, rfl, isLeft, isSign, spelled⟩ := cons_of_contents spelled
  obtain ⟨y, link', u, rfl, isMiddle, isSign', spelled⟩ := cons_of_contents spelled
  obtain ⟨isRight, isBehind⟩ := List.cons.inj spelled
  obtain ⟨z, rest⟩ := u
  obtain rfl := Comparand.content_eq_number isLeft
  obtain rfl := Link.content_eq_sign isSign
  obtain rfl := Comparand.content_eq_number isMiddle
  obtain rfl := Link.content_eq_sign isSign'
  obtain rfl := Comparand.content_eq_number isRight
  obtain rfl : _ = behind := isBehind
  exact ⟨⟨.number l, (some sign, .number m) :: (none, .number m) :: (some sign', .number r) ::
    rest⟩, rfl, .expand alike⟩

theorem mem_contents {s : Linked} {c : Content} (member : c ∈ s.contents) :
    (∃ x : Comparand, c = x.content) ∨ ∃ link : Link, c = link.content := by
  rcases List.mem_cons.mp member with same | later
  · exact .inl ⟨s.first, same⟩
  · obtain ⟨step, _, here⟩ := List.mem_flatMap.mp later
    simp only [List.mem_cons, List.not_mem_nil, or_false] at here
    rcases here with same | same
    · exact .inr ⟨step.1, same⟩
    · exact .inl ⟨step.2, same⟩

theorem not_mem_contents {s : Linked} {symbol : Symbol}
    (other : symbol.category ≠ .comparator ∧ symbol.category ≠ .combinator) :
    .symbol symbol ∉ s.contents := by
  intro member
  rcases mem_contents member with ⟨x, same⟩ | ⟨link, same⟩
  · cases x <;> cases same
  · cases link with
    | none =>
      cases same
      exact other.2 rfl
    | some sign =>
      cases same
      exact other.1 rfl

theorem cases_of_data {s : Linked} {v : Value} (member : .data v ∈ s.contents) :
    (∃ n, v = .number n) ∨ ∃ b, v = .logical b := by
  rcases mem_contents member with ⟨x, same⟩ | ⟨link, same⟩
  · cases x with
    | number n =>
      cases same
      exact .inl ⟨n, rfl⟩
    | truth b =>
      cases same
      exact .inr ⟨b, rfl⟩
  · cases link <;> cases same

theorem number_of_holds {s : Linked} {t : Token} (member : t.content ∈ s.contents)
    {category : Category} (holds : t.Holds category) (other : category ≠ .logical) :
    ∃ n, t.content = .data (.number n) := by
  obtain ⟨v, content, same⟩ := holds
  rw [content] at member
  rcases cases_of_data member with ⟨n, number⟩ | ⟨b, truth⟩
  · exact ⟨n, by rw [content, number]⟩
  · rw [truth] at same
    exact absurd same.symm other

end Linked

/-! What the rules match -/

theorem Matcher.comparators_of_accepts {signs : List Comparator} (any : signs ≠ []) {t : Token}
    (accepted : (comparators signs).accepts t = true) :
    ∃ sign ∈ signs, t.content = .symbol (.comparator sign) := by
  obtain ⟨symbol, member, same⟩ := symbol_mem_of_accepts accepted (by simpa [symbols, comparators])
  obtain ⟨sign, inside, rfl⟩ := List.mem_map.mp member
  exact ⟨sign, inside, Token.content_of_symbol? same⟩

theorem direction_of_expandRange {rule : Rule} (member : rule ∈ coreRules)
    (expands : rule.action = .expandRange) :
    ∃ signs place, IsDirection signs place ∧ rule.pattern = chaining signs := by
  simp only [coreRules, List.mem_cons, List.not_mem_nil, or_false] at member
  rcases member with rfl | rfl | rfl | rfl | rfl | rfl | rfl | rfl | rfl | rfl | rfl | rfl | rfl |
    rfl | rfl | rfl | rfl | rfl | rfl | rfl | rfl | rfl | rfl
  all_goals first
    | cases expands
      done
    | exact ⟨_, _, .ascending, rfl⟩
    | exact ⟨_, _, .descending, rfl⟩

namespace RuleBook

variable {book : RuleBook} {tokens : List Token} {m : RuleMatch}

theorem alike_of_expandRange (found : book.find? tokens = some m)
    (expands : m.rule.action = .expandRange) :
    ∃ a first b second c sign sign', m.stretch.select tokens = [a, first, b, second, c] ∧
      first.content = .symbol (.comparator sign) ∧ second.content = .symbol (.comparator sign') ∧
      sign.Alike sign' := by
  have first := firstMatch_of_find? found
  have core : m.rule ∈ coreRules := by
    rcases List.mem_append.mp (List.mem_of_getElem? first.known) with custom | core
    · obtain ⟨d, _, same⟩ := List.mem_map.mp custom
      rw [← same] at expands
      cases expands
    · exact core
  obtain ⟨signs, place, direction, same⟩ := direction_of_expandRange core expands
  have any : signs ≠ [] := by cases direction <;> exact List.cons_ne_nil _ _
  have here := first.here
  rw [same] at here
  have accepts : (chaining signs).Accepts (m.stretch.select tokens) :=
    Pattern.accepts_of_take? isSingle_chaining here
  match selected : m.stretch.select tokens, accepts with
  | [a, f, b, s, c], ⟨_, isFirst, _, isSecond, _⟩ =>
    obtain ⟨sign, known, isFirst⟩ := Matcher.comparators_of_accepts any isFirst
    obtain ⟨sign', known', isSecond⟩ := Matcher.comparators_of_accepts any isSecond
    exact ⟨a, f, b, s, c, sign, sign', rfl, isFirst, isSecond, signs, place, direction, known,
      known'⟩

inductive Reduct : List Token → List Token → Prop where
  | compare {left sign right : Token} {l r : Number} {comparator : Comparator}
      (isLeft : left.content = .data (.number l))
      (isSign : sign.content = .symbol (.comparator comparator))
      (isRight : right.content = .data (.number r)) :
      Reduct [left, sign, right] [.data (.logical (comparator.holds (l.order r)))]
  | unite {left sign right : Token} {b c : Bool} {word : Combinator}
      (isLeft : left.content = .data (.logical b))
      (isWord : sign.content = .symbol (.combinator word))
      (isRight : right.content = .data (.logical c)) :
      Reduct [left, sign, right] [.data (.logical (word.unite b c))]
  | expand {a first b second c : Token} {l m r : Number} {sign sign' : Comparator}
      (isA : a.content = .data (.number l)) (isFirst : first.content = .symbol (.comparator sign))
      (isB : b.content = .data (.number m))
      (isSecond : second.content = .symbol (.comparator sign'))
      (isC : c.content = .data (.number r)) (alike : sign.Alike sign') :
      Reduct [a, first, b, second, c] [a, first, b, .combinator .and, b, second, c]

/-- No rule but those for comparisons and for words matches, and none of these fails. -/
theorem reduct_of_find? {s : Linked} (spelled : tokens.map Token.content = s.contents)
    (found : book.find? tokens = some m) :
    ∃ replaced, book.replacement (m.rule.action.plan (m.stretch.select tokens)) = .ok replaced ∧
      Reduct (m.stretch.select tokens) replaced := by
  have inside : ∀ t ∈ m.stretch.select tokens, t.content ∈ s.contents := by
    intro t member
    rw [← spelled]
    exact List.mem_map_of_mem (List.mem_of_mem_drop (List.mem_of_mem_take member))
  have apart {symbol : Symbol} {t : Token} (member : t ∈ m.stretch.select tokens)
      (content : t.content = .symbol symbol) :
      symbol.category = .comparator ∨ symbol.category = .combinator := by
    by_contra neither
    rw [not_or] at neither
    exact Linked.not_mem_contents neither (content ▸ inside t member)
  have ranges := alike_of_expandRange found
  have suits := suits_of_find? found
  generalize m.stretch.select tokens = matched at suits inside apart ranges ⊢
  generalize m.rule.action = action at suits ranges ⊢
  cases suits with
  | choose call each =>
    cases call with
    | mk isName => rcases apart (by simp) isName with h | h <;> cases h
  | call calls call each =>
    cases call with
    | mk isName => rcases apart (by simp) isName with h | h <;> cases h
  | negateLogical call argument =>
    cases call with
    | mk isName => rcases apart (by simp) isName with h | h <;> cases h
  | evaluateGroup opens => rcases apart (by simp) opens with h | h <;> cases h
  | negate isMinus =>
    obtain ⟨op, _, isMinus⟩ := isMinus
    rcases apart (by simp) isMinus with h | h <;> cases h
  | negated _ _ isSign => rcases apart (by simp) isSign with h | h <;> cases h
  | percentage _ isSign => rcases apart (by simp) isSign with h | h <;> cases h
  | @apply left sign right symbol category isLeft isSign isRight joins =>
    cases joins with
    | operator => rcases apart (by simp) isSign with h | h <;> cases h
    | comparator comparator ordered =>
      have other : category ≠ .logical := by
        intro same
        simp [same] at ordered
      obtain ⟨l, isLeft⟩ := Linked.number_of_holds (inside left (by simp)) isLeft other
      obtain ⟨r, isRight⟩ := Linked.number_of_holds (inside right (by simp)) isRight other
      refine ⟨_, ?_, .compare isLeft isSign isRight⟩
      simp only [Action.plan, applyTokens_comparator isLeft isSign isRight]
      rfl
    | combinator word =>
      obtain ⟨b, isLeft⟩ := isLeft.logical
      obtain ⟨c, isRight⟩ := isRight.logical
      refine ⟨_, ?_, .unite isLeft isSign isRight⟩
      simp only [Action.plan, applyTokens_combinator isLeft isSign isRight]
      rfl
  | @expandRange a first b second c sign sign' isA isFirst isB isSecond isC =>
    have other : Category.numeric ≠ .logical := by decide
    obtain ⟨l, isA⟩ := Linked.number_of_holds (inside a (by simp)) isA other
    obtain ⟨n, isB⟩ := Linked.number_of_holds (inside b (by simp)) isB other
    obtain ⟨r, isC⟩ := Linked.number_of_holds (inside c (by simp)) isC other
    obtain ⟨_, _, _, _, _, _, _, same, isFirst, isSecond, alike⟩ := ranges rfl
    cases same
    exact ⟨_, rfl, .expand isA isFirst isB isSecond isC alike⟩

theorem Reduct.reduces {matched replaced : List Token} (reduct : Reduct matched replaced)
    {before behind : List Content} {s : Linked}
    (spelled : s.contents = before ++ (matched.map Token.content ++ behind)) :
    ∃ t : Linked, t.contents = before ++ (replaced.map Token.content ++ behind) ∧
      s.Reduces t := by
  cases reduct with
  | compare isLeft isSign isRight =>
    simp only [List.map_cons, List.map_nil, isLeft, isSign, isRight] at spelled
    exact Linked.reduces_within Linked.reduces_compare spelled
  | unite isLeft isWord isRight =>
    simp only [List.map_cons, List.map_nil, isLeft, isWord, isRight] at spelled
    exact Linked.reduces_within Linked.reduces_unite spelled
  | expand isA isFirst isB isSecond isC alike =>
    simp only [List.map_cons, List.map_nil, isA, isFirst, isB, isSecond, isC] at spelled ⊢
    exact Linked.reduces_within (Linked.reduces_expand alike) spelled

theorem reduces_of_find? {s : Linked} (spelled : tokens.map Token.content = s.contents)
    (found : book.find? tokens = some m) :
    ∃ after t, book.rewrite tokens m = .ok after ∧ after.map Token.content = t.contents ∧
      s.Reduces t := by
  obtain ⟨replaced, value, reduct⟩ := reduct_of_find? spelled found
  have split := m.stretch.splice_select tokens
  have parts : s.contents = (tokens.take m.stretch.start).map Token.content ++
      ((m.stretch.select tokens).map Token.content ++
        (tokens.drop (m.stretch.start + m.stretch.length)).map Token.content) := by
    rw [← spelled, ← List.map_append, ← List.map_append, ← List.append_assoc]
    exact (congrArg (List.map Token.content) split).symm
  obtain ⟨t, isT, step⟩ := reduct.reduces parts
  refine ⟨m.stretch.splice tokens replaced, t, ?_, ?_, step⟩
  · rw [rewrite, value]
    rfl
  · rw [isT, Stretch.splice, List.map_append, List.map_append, List.append_assoc]

theorem evaluate_clashing (book : RuleBook) {s : Linked}
    (spelled : tokens.map Token.content = s.contents)
    (clash : Linked.Clashes none s.first s.rest) :
    ∃ rendered, book.evaluate tokens = .error (.unreducible rendered) := by
  -- By induction on the weight: a stream with a clash keeps one until no rule matches.
  induction size : weight tokens using Nat.strongRecOn generalizing tokens s with
  | ind n ih =>
    -- a single comparand has no sign beside it that it could clash with
    have long : ¬ tokens.length ≤ 1 := by
      have count := congrArg List.length spelled
      obtain ⟨x, rest⟩ := s
      cases rest with
      | nil => cases clash
      | cons step rest =>
        simp only [Linked.contents, List.flatMap_cons, List.length_map, List.length_cons,
          List.length_append] at count
        omega
    cases found : book.find? tokens with
    | none => exact ⟨_, book.evaluate_stuck long found⟩
    | some m =>
      obtain ⟨after, t, done, isAfter, step⟩ := reduces_of_find? spelled found
      have lighter := rewrite_lighter found done
      obtain ⟨rendered, failed⟩ := ih _ (size ▸ lighter) isAfter (step.clashes clash) rfl
      refine ⟨rendered, ?_⟩
      rw [book.evaluate_step long found, done]
      exact failed

end RuleBook

/-! Chains in mixed directions -/

namespace ComparisonChain

theorem alike_of_not_clashes {sign : Comparator} {n : Number} {rest : List (Comparator × Number)}
    (none : ¬ Linked.Clashes (some sign) (.number n)
      (rest.map fun step => (some step.1, .number step.2))) :
    ∀ step ∈ rest, sign.Alike step.1 := by
  induction rest generalizing sign n with
  | nil => simp
  | cons step rest ih =>
    obtain ⟨sign', next⟩ := step
    rw [List.map_cons, Linked.Clashes, not_or] at none
    have here : sign.Alike sign' := by
      by_contra apart
      exact none.1 (.between n apart)
    intro step member
    rcases List.mem_cons.mp member with same | later
    · rw [same]
      exact here
    · exact here.trans (ih none.2 step later)

theorem directed_or_clashes {c : ComparisonChain} (several : 2 ≤ c.rest.length) :
    (∃ signs place, IsDirection signs place ∧ ∀ step ∈ c.rest, step.1 ∈ signs) ∨
      Linked.Clashes none c.linked.first c.linked.rest := by
  obtain ⟨first, rest⟩ := c
  match rest, several with
  | (sign, next) :: (sign', last) :: rest, _ =>
    by_cases clash : Linked.Clashes (some sign) (.number next)
        (((sign', last) :: rest).map fun step => (some step.1, .number step.2))
    · exact .inr (.inr clash)
    · have alike := alike_of_not_clashes clash
      obtain ⟨signs, place, direction, known, _⟩ := alike (sign', last) List.mem_cons_self
      refine .inl ⟨signs, place, direction, ?_⟩
      intro step member
      rcases List.mem_cons.mp member with same | later
      · rw [same]
        exact known
      · obtain ⟨others, _, direction', known', there⟩ := alike step later
        rw [direction.eq_of_mem direction' known known']
        exact there

end ComparisonChain

namespace RuleBook

theorem evaluate_comparison (book : RuleBook) {first n : Number} {sign : Comparator}
    {tokens : List Token}
    (spelled : tokens.map Token.content = ComparisonChain.contents ⟨first, [(sign, n)]⟩) :
    book.evaluate tokens = .ok (.logical (sign.holds (first.order n))) := by
  have simple := ComparisonChain.simple_clauses first sign n []
  have value := book.evaluate_simple simple spelled
  rw [ComparisonChain.value_clauses] at value
  simpa [ComparisonChain.holds, ComparisonChain.pairs] using value

/-- Numbers with comparison signs between them, whatever functions are registered. A single
    comparison has its truth value. Several have one exactly if all signs point the same way, and
    then it says whether all comparisons of neighbours hold; else the tokens cannot be reduced. -/
theorem evaluate_comparison_chain (book : RuleBook) {c : ComparisonChain} {tokens : List Token}
    (spelled : tokens.map Token.content = c.contents) :
    let directed := (∀ step ∈ c.rest, step.1 ∈ [Comparator.less, .lessEqual]) ∨
      ∀ step ∈ c.rest, step.1 ∈ [Comparator.greater, .greaterEqual]
    (∀ sign n, c.rest = [(sign, n)] → book.evaluate tokens =
      (sign.compare (.number c.first) (.number n)).map Value.logical) ∧
    (2 ≤ c.rest.length →
      ((∃ v, book.evaluate tokens = .ok v) ↔ directed) ∧
      (directed → ∃ b, book.evaluate tokens = .ok (.logical b) ∧
        (b = true ↔ ∀ pair ∈ ComparisonChain.pairs c.first c.rest,
          pair.2.1.compare (.number pair.1) (.number pair.2.2) = .ok true)) ∧
      (¬ directed → ∃ rendered, book.evaluate tokens = .error (.unreducible rendered))) := by
  intro directed
  constructor
  · intro sign n single
    obtain ⟨first, rest⟩ := c
    obtain rfl : rest = [(sign, n)] := single
    exact book.evaluate_comparison spelled
  · intro several
    have some : c.rest ≠ [] := by
      intro none
      simp [none] at several
    have value (isDirected : directed) : book.evaluate tokens = .ok (.logical c.holds) := by
      rcases isDirected with ascending | descending
      · exact book.evaluate_directed .ascending some ascending spelled
      · exact book.evaluate_directed .descending some descending spelled
    have failed (mixed : ¬ directed) :
        ∃ rendered, book.evaluate tokens = .error (.unreducible rendered) := by
      rcases c.directed_or_clashes several with ⟨_, _, direction, known⟩ | clash
      · cases direction with
        | ascending => exact absurd (.inl known) mixed
        | descending => exact absurd (.inr known) mixed
      · exact book.evaluate_clashing (spelled.trans c.contents_linked.symm) clash
    refine ⟨⟨?_, fun isDirected => ⟨_, value isDirected⟩⟩, ?_, failed⟩
    · intro ⟨v, outcome⟩
      by_contra mixed
      obtain ⟨rendered, error⟩ := failed mixed
      rw [error] at outcome
      cases outcome
    · intro isDirected
      refine ⟨c.holds, value isDirected, ?_⟩
      simp [ComparisonChain.holds, Comparator.compare, Value.order?]

/-- `1 < 2 <= 2 < 3` is true with the core rules, and `1 < 2 > 1` cannot be reduced. -/
theorem evaluate_comparison_chain_mixed :
    let number (i : Int) (fits : InWord i) : Number := .integer i fits
    let rising : ComparisonChain := ⟨number 1 (by decide), [(.less, number 2 (by decide)),
      (.lessEqual, number 2 (by decide)), (.less, number 3 (by decide))]⟩
    let mixed : ComparisonChain := ⟨number 1 (by decide), [(.less, number 2 (by decide)),
      (.greater, number 1 (by decide))]⟩
    let tokens (c : ComparisonChain) : List Token := c.contents.map fun content => ⟨content, 1⟩
    (∀ c, (tokens c).map Token.content = c.contents) ∧
      core.evaluate (tokens rising) = .ok (.logical true) ∧
      ∃ rendered, core.evaluate (tokens mixed) = .error (.unreducible rendered) := by
  intro number rising mixed tokens
  have spelled (c : ComparisonChain) : (tokens c).map Token.content = c.contents := by
    simp [tokens, Function.comp_def]
  obtain ⟨b, value, holds⟩ :=
    ((core.evaluate_comparison_chain (spelled rising)).2 (by decide)).2.1 (.inl (by decide))
  have isTrue : b = true := holds.mpr (by decide)
  refine ⟨spelled, isTrue ▸ value, ?_⟩
  exact ((core.evaluate_comparison_chain (spelled mixed)).2 (by decide)).2.2 (by decide)

end RuleBook

end Formulary
