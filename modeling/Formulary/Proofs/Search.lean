import Formulary.Matched

/-!
The search for a rule. The profile of the tokens only leaves out rules that match nowhere, so what
is found is the first of all rules that matches anywhere, at its leftmost match.
-/
namespace Formulary

theorem mem_distinct {α : Type} [BEq α] [LawfulBEq α] {a : α} {l : List α} :
    a ∈ distinct l ↔ a ∈ l := by
  induction l with
  | nil => rfl
  | cons b l ih =>
    by_cases same : a = b
    · simp [distinct, same]
    · simp [distinct, same, ih]

namespace Token

theorem category_of_data {t : Token} {v : Value} (content : t.content = .data v) :
    t.category = v.category := by
  simp only [category, content]

theorem category_of_symbol {t : Token} {symbol : Symbol} (content : t.content = .symbol symbol) :
    t.category = symbol.category := by
  simp only [category, content]

theorem symbol?_of_symbol {t : Token} {symbol : Symbol} (content : t.content = .symbol symbol) :
    t.symbol? = some symbol := by
  simp only [symbol?, content]

theorem content_of_symbol? {t : Token} {symbol : Symbol} (same : t.symbol? = some symbol) :
    t.content = .symbol symbol := by
  unfold symbol? at same
  split at same
  · next other content =>
    obtain rfl := Option.some.inj same
    exact content
  · cases same

theorem isGrouping_of_content {t : Token} {mark : Grouping}
    (content : t.content = .symbol (.grouping mark)) : t.isGrouping mark = true := by
  simp [isGrouping, symbol?, content]

end Token

namespace Matcher

theorem rejects_of_category {m : Matcher} {category : Category} {symbols : List Symbol}
    (shape : m.shape = .one [category] symbols) {t : Token} (other : t.category ≠ category) :
    m.accepts t = false := by
  cases accepted : m.accepts t with
  | false => rfl
  | true => exact absurd (category_of_accepts shape accepted) other

theorem accepts_of_category {category : Category} {t : Token} (same : t.category = category) :
    (ofCategory category).accepts t = true := by
  simp [accepts, ofCategory, categories, symbols, same]

def IsSingle (m : Matcher) : Prop := ∃ categories symbols, m.shape = .one categories symbols

theorem isSingle_of_category {m : Matcher} {category : Category}
    (member : category ∈ m.categories) : m.IsSingle := by
  cases kind : m.shape with
  | one categories symbols => exact ⟨categories, symbols, kind⟩
  | _ => simp [categories, kind] at member

theorem isSingle_of_symbol {m : Matcher} {symbol : Symbol} (member : symbol ∈ m.symbols) :
    m.IsSingle := by
  cases kind : m.shape with
  | one categories symbols => exact ⟨categories, symbols, kind⟩
  | _ => simp [symbols, kind] at member

theorem category_mem_of_accepts {m : Matcher} {t : Token} (accepted : m.accepts t = true)
    (asks : m.categories ≠ []) : t.category ∈ m.categories := by
  simp only [accepts, Bool.and_eq_true, Bool.or_eq_true, List.isEmpty_iff] at accepted
  rcases accepted.1 with none | some
  · exact absurd none asks
  · exact List.contains_iff_mem.mp some

theorem symbol_mem_of_accepts {m : Matcher} {t : Token} (accepted : m.accepts t = true)
    (asks : m.symbols ≠ []) : ∃ symbol ∈ m.symbols, t.symbol? = some symbol := by
  simp only [accepts, Bool.and_eq_true, Bool.or_eq_true, List.isEmpty_iff] at accepted
  rcases accepted.2 with none | some
  · exact absurd none asks
  · cases symbol : t.symbol? with
    | none => simp [symbol] at some
    | some asked => exact ⟨asked, by simpa [symbol] using some, rfl⟩

theorem accepts_grouping {mark other : Grouping} {t : Token}
    (content : t.content = .symbol (.grouping other)) :
    (grouping mark).accepts t = true ↔ other = mark := by
  have category : t.category = .grouping := Token.category_of_symbol content
  have symbol := Token.symbol?_of_symbol content
  simp [accepts, grouping, categories, symbols, category, symbol]

theorem rejects_grouping {mark other : Grouping} {t : Token}
    (content : t.content = .symbol (.grouping other)) (apart : other ≠ mark) :
    (grouping mark).accepts t = false := by
  rw [Bool.eq_false_iff, ne_eq, accepts_grouping content]
  exact apart

theorem function_rejects (name : Name) {mark : Grouping} {t : Token}
    (content : t.content = .symbol (.grouping mark)) : (function name).accepts t = false := by
  have category : t.category = .grouping := Token.category_of_symbol content
  exact rejects_of_category rfl (by rw [category]; decide)

theorem accepts_function {name other : Name} {t : Token}
    (content : t.content = .symbol (.function other)) :
    (function name).accepts t = true ↔ other = name := by
  have category : t.category = .function := Token.category_of_symbol content
  have symbol := Token.symbol?_of_symbol content
  simp [accepts, function, categories, symbols, category, symbol]

end Matcher

namespace Pattern

theorem exists_accepts_of_take? {pattern : Pattern} {m : Matcher} (member : m ∈ pattern)
    (single : m.IsSingle) {atStart : Bool} {tokens : List Token} {n : Nat}
    (taken : pattern.take? atStart tokens = some n) : ∃ t ∈ tokens, m.accepts t = true := by
  induction pattern generalizing atStart tokens n with
  | nil => cases member
  | cons first pattern ih =>
    obtain ⟨here, others, takes, there, rfl⟩ := take?_cons taken
    rcases List.mem_cons.mp member with rfl | member
    · obtain ⟨categories, symbols, shape⟩ := single
      obtain ⟨t, rest, rfl, accepted, _⟩ := Matcher.take?_one shape takes
      exact ⟨t, List.mem_cons_self, accepted⟩
    · obtain ⟨t, inside, accepted⟩ := ih member there
      exact ⟨t, List.mem_of_mem_drop inside, accepted⟩

theorem find?_eq_none_of_absent {pattern : Pattern} {m : Matcher} (member : m ∈ pattern)
    (single : m.IsSingle) {tokens : List Token} (absent : ∀ t ∈ tokens, m.accepts t = false) :
    pattern.find? tokens = none := by
  cases found : pattern.find? tokens with
  | none => rfl
  | some s =>
    obtain ⟨t, inside, accepted⟩ := exists_accepts_of_take? member single (take?_of_find? found)
    rw [absent t (List.mem_of_mem_drop inside)] at accepted
    cases accepted

/-! Single tokens -/

theorem take?_cons_of_rejects {m : Matcher} (single : m.IsSingle) {t : Token}
    (rejected : m.accepts t = false) (pattern : Pattern) (atStart : Bool) (rest : List Token) :
    take? (m :: pattern) atStart (t :: rest) = none := by
  cases taken : take? (m :: pattern) atStart (t :: rest) with
  | none => rfl
  | some n =>
    obtain ⟨_, _, here, _⟩ := take?_cons taken
    obtain ⟨_, _, shape⟩ := single
    obtain ⟨other, _, same, accepted, _⟩ := Matcher.take?_one shape here
    obtain ⟨rfl, _⟩ := List.cons.inj same
    rw [rejected] at accepted
    cases accepted

theorem take?_cons_of_accepts {m : Matcher} (single : m.IsSingle) (free : m.anchored = false)
    {t : Token} (accepted : m.accepts t = true) (pattern : Pattern) (atStart : Bool)
    (rest : List Token) :
    take? (m :: pattern) atStart (t :: rest) = (take? pattern false rest).map (1 + ·) := by
  obtain ⟨_, _, shape⟩ := single
  have one : m.take? atStart (t :: rest) = some 1 := by
    simp [Matcher.take?, free, shape, accepted]
  simp only [take?, one, Option.bind_eq_bind, Option.bind_some, List.drop_one, List.tail_cons,
    Nat.reduceBEq, Bool.and_false]
  cases take? pattern false rest <;> rfl

theorem take?_cons_single {m : Matcher} (single : m.IsSingle) (free : m.anchored = false)
    (pattern : Pattern) (atStart : Bool) (t : Token) (rest : List Token) :
    take? (m :: pattern) atStart (t :: rest) =
      if m.accepts t then (take? pattern false rest).map (1 + ·) else none := by
  cases accepted : m.accepts t with
  | false => exact take?_cons_of_rejects single accepted pattern atStart rest
  | true => exact take?_cons_of_accepts single free accepted pattern atStart rest

theorem take?_three {first second third : Matcher}
    (single : ∀ m ∈ [first, second, third], m.IsSingle ∧ m.anchored = false)
    {left sign right : Token} (isLeft : first.accepts left = true)
    (isSign : second.accepts sign = true) (isRight : third.accepts right = true) (atStart : Bool)
    (rest : List Token) :
    take? [first, second, third] atStart (left :: sign :: right :: rest) = some 3 := by
  obtain ⟨one, two, three, _⟩ : (first.IsSingle ∧ first.anchored = false) ∧
      (second.IsSingle ∧ second.anchored = false) ∧
      (third.IsSingle ∧ third.anchored = false) ∧ True := by simpa using single
  rw [take?_cons_of_accepts one.1 one.2 isLeft, take?_cons_of_accepts two.1 two.2 isSign,
    take?_cons_of_accepts three.1 three.2 isRight]
  rfl

/-! The leftmost match -/

def Headed (pattern : Pattern) : Prop := ∃ m rest, pattern = m :: rest ∧ m.IsSingle

theorem take?_nil_of_headed {pattern : Pattern} (headed : pattern.Headed) (atStart : Bool) :
    pattern.take? atStart [] = none := by
  obtain ⟨m, rest, rfl, categories, symbols, shape⟩ := headed
  cases taken : take? (m :: rest) atStart [] with
  | none => rfl
  | some n =>
    obtain ⟨_, _, takes, _, _⟩ := take?_cons taken
    obtain ⟨_, _, impossible, _⟩ := Matcher.take?_one shape takes
    cases impossible

theorem take?_of_isAnchored {pattern : Pattern} (anchored : pattern.isAnchored = true)
    (tokens : List Token) : pattern.take? false tokens = none := by
  cases pattern with
  | nil => cases anchored
  | cons m rest =>
    have : m.anchored = true := by simpa [isAnchored] using anchored
    simp [take?, Matcher.take?, this]

theorem findFrom?_eq_none_iff {pattern : Pattern} {start : Nat} {tokens : List Token} :
    pattern.findFrom? start tokens = none ↔
      ∀ k < tokens.length, pattern.take? (start + k == 0) (tokens.drop k) = none := by
  induction tokens generalizing start with
  | nil => simp [findFrom?]
  | cons t rest ih =>
    unfold findFrom?
    constructor
    · intro none k short
      split at none
      · cases none
      · next here =>
        cases k with
        | zero => exact here
        | succ k =>
          have there := ih.mp none k (by simpa using short)
          rwa [Nat.add_right_comm] at there
    · intro none
      have here := none 0 (by simp)
      simp only [Nat.add_zero, List.drop_zero] at here
      rw [here]
      refine ih.mpr fun k short => ?_
      have there := none (k + 1) (by simpa using short)
      rwa [Nat.add_right_comm]

theorem findFrom?_eq_some_iff {pattern : Pattern} {start k n : Nat} {tokens : List Token} :
    pattern.findFrom? start tokens = some ⟨start + k, n⟩ ↔
      k < tokens.length ∧ pattern.take? (start + k == 0) (tokens.drop k) = some n ∧
        ∀ j < k, pattern.take? (start + j == 0) (tokens.drop j) = none := by
  induction tokens generalizing start k with
  | nil => simp [findFrom?]
  | cons t rest ih =>
    unfold findFrom?
    cases here : pattern.take? (start == 0) (t :: rest) with
    | some length =>
      cases k with
      | zero => simp [here]
      | succ k =>
        simp only [Option.some.injEq, Stretch.mk.injEq]
        constructor
        · intro impossible
          omega
        · rintro ⟨_, _, earlier⟩
          have := earlier 0 (by omega)
          simp [here] at this
    | none =>
      cases k with
      | zero =>
        simp only [Nat.add_zero, List.drop_zero, here]
        constructor
        · intro found
          have : start + 1 ≤ start := (take?_of_findFrom? found).1
          omega
        · rintro ⟨_, impossible, _⟩
          cases impossible
      | succ k =>
        rw [show start + (k + 1) = start + 1 + k by omega, ih]
        constructor
        · rintro ⟨short, taken, earlier⟩
          refine ⟨by simpa using short, taken, ?_⟩
          intro j below
          cases j with
          | zero => exact here
          | succ j =>
            rw [show start + (j + 1) = start + 1 + j by omega]
            exact earlier j (by omega)
        · rintro ⟨short, taken, earlier⟩
          refine ⟨by simpa using short, taken, ?_⟩
          intro j below
          have there := earlier (j + 1) (by omega)
          rwa [show start + (j + 1) = start + 1 + j by omega] at there

theorem matchAt?_of_length_le {pattern : Pattern} (headed : pattern.Headed) {tokens : List Token}
    {start : Nat} (past : tokens.length ≤ start) : pattern.matchAt? tokens start = none := by
  unfold matchAt?
  rw [List.drop_eq_nil_of_le past]
  exact take?_nil_of_headed headed _

theorem find?_eq_some_iff {pattern : Pattern} (headed : pattern.Headed) {tokens : List Token}
    {s : Stretch} :
    pattern.find? tokens = some s ↔ pattern.matchAt? tokens s.start = some s.length ∧
      ∀ start < s.start, pattern.matchAt? tokens start = none := by
  obtain ⟨start, n⟩ := s
  unfold find?
  by_cases anchored : pattern.isAnchored = true
  · rw [if_pos anchored]
    cases start with
    | zero => simp [matchAt?]
    | succ start => simp [matchAt?, take?_of_isAnchored anchored]
  · rw [if_neg anchored]
    have whole : pattern.findFrom? 0 tokens = some ⟨0 + start, n⟩ ↔ _ := findFrom?_eq_some_iff
    simp only [Nat.zero_add] at whole
    rw [whole]
    constructor
    · exact fun found => found.2
    · rintro ⟨here, earlier⟩
      refine ⟨?_, here, earlier⟩
      by_cases short : start < tokens.length
      · exact short
      · rw [matchAt?_of_length_le headed (Nat.le_of_not_lt short)] at here
        cases here

theorem find?_eq_none_iff {pattern : Pattern} (headed : pattern.Headed) {tokens : List Token} :
    pattern.find? tokens = none ↔ ∀ start, pattern.matchAt? tokens start = none := by
  unfold find?
  by_cases anchored : pattern.isAnchored = true
  · rw [if_pos anchored, Option.map_eq_none_iff]
    constructor
    · intro none start
      cases start with
      | zero => exact none
      | succ start => exact take?_of_isAnchored anchored _
    · exact fun none => none 0
  · rw [if_neg anchored, findFrom?_eq_none_iff]
    simp only [Nat.zero_add]
    constructor
    · intro none start
      by_cases short : start < tokens.length
      · exact none start short
      · exact matchAt?_of_length_le headed (by omega)
    · exact fun none start _ => none start

end Pattern

/-! The rules that are left out -/

namespace Rule

theorem appliesTo_of_matchAt? {r : Rule} (asks : r.categories ≠ []) {tokens : List Token}
    {start n : Nat} (taken : r.pattern.matchAt? tokens start = some n) :
    r.appliesTo (.ofTokens tokens) = true := by
  have accepted {m : Matcher} (member : m ∈ r.pattern) (single : m.IsSingle) :
      ∃ t ∈ tokens, m.accepts t = true := by
    obtain ⟨t, inside, accepted⟩ := Pattern.exists_accepts_of_take? member single taken
    exact ⟨t, List.mem_of_mem_drop inside, accepted⟩
  simp only [appliesTo, Profile.ofTokens, Bool.and_eq_true, Bool.or_eq_true, List.isEmpty_iff,
    List.any_eq_true, List.contains_iff_mem, mem_distinct, List.mem_map, List.mem_filterMap]
  constructor
  · obtain ⟨category, member⟩ := List.exists_mem_of_ne_nil _ asks
    obtain ⟨m, inside, asked⟩ := List.mem_flatMap.mp member
    obtain ⟨t, present, accepts⟩ := accepted inside (Matcher.isSingle_of_category asked)
    have shared := Matcher.category_mem_of_accepts accepts (List.ne_nil_of_mem asked)
    exact ⟨_, List.mem_flatMap.mpr ⟨m, inside, shared⟩, t, present, rfl⟩
  · by_cases any : r.symbols = []
    · exact .inl any
    · obtain ⟨symbol, member⟩ := List.exists_mem_of_ne_nil _ any
      obtain ⟨m, inside, asked⟩ := List.mem_flatMap.mp member
      obtain ⟨t, present, accepts⟩ := accepted inside (Matcher.isSingle_of_symbol asked)
      obtain ⟨shared, among, here⟩ :=
        Matcher.symbol_mem_of_accepts accepts (List.ne_nil_of_mem asked)
      exact .inr ⟨shared, List.mem_flatMap.mpr ⟨m, inside, among⟩, t, present, here⟩

def IsHeaded (r : Rule) : Prop := ∃ m rest, r.pattern = m :: rest ∧ m.categories ≠ []

theorem IsHeaded.headed {r : Rule} (headed : r.IsHeaded) : r.pattern.Headed := by
  obtain ⟨m, rest, same, asks⟩ := headed
  obtain ⟨category, member⟩ := List.exists_mem_of_ne_nil _ asks
  exact ⟨m, rest, same, Matcher.isSingle_of_category member⟩

theorem IsHeaded.categories_ne_nil {r : Rule} (headed : r.IsHeaded) : r.categories ≠ [] := by
  obtain ⟨m, rest, same, asks⟩ := headed
  simp [categories, same, asks]

theorem IsHeaded.find?_eq_none {r : Rule} (headed : r.IsHeaded) {tokens : List Token}
    (apart : r.appliesTo (.ofTokens tokens) ≠ true) : r.pattern.find? tokens = none := by
  rw [Pattern.find?_eq_none_iff headed.headed]
  intro start
  cases taken : r.pattern.matchAt? tokens start with
  | none => rfl
  | some n => exact absurd (appliesTo_of_matchAt? headed.categories_ne_nil taken) apart

end Rule

theorem isHeaded_of_mem_coreRules {rule : Rule} (member : rule ∈ coreRules) : rule.IsHeaded := by
  simp only [coreRules, List.mem_cons, List.not_mem_nil, or_false] at member
  rcases member with rfl | rfl | rfl | rfl | rfl | rfl | rfl | rfl | rfl | rfl | rfl | rfl | rfl |
    rfl | rfl | rfl | rfl | rfl | rfl | rfl | rfl | rfl | rfl
  all_goals exact ⟨_, _, rfl, List.cons_ne_nil _ _⟩

namespace RuleBook

theorem isHeaded_of_mem_rules {book : RuleBook} {rule : Rule} (member : rule ∈ book.rules) :
    rule.IsHeaded := by
  rcases List.mem_append.mp member with custom | core
  · obtain ⟨d, _, rfl⟩ := List.mem_map.mp custom
    exact ⟨_, _, rfl, List.cons_ne_nil _ _⟩
  · exact isHeaded_of_mem_coreRules core

def search (book : RuleBook) (tokens : List Token) : Option RuleMatch :=
  book.rules.zipIdx.findSome? fun entry =>
    (entry.1.pattern.find? tokens).map fun stretch => ⟨entry.2, entry.1, stretch⟩

theorem findSome?_filter {α β : Type} {p : α → Bool} {f g : α → Option β} {l : List α}
    (same : ∀ a ∈ l, p a = true → f a = g a) (apart : ∀ a ∈ l, p a ≠ true → g a = none) :
    (l.filter p).findSome? f = l.findSome? g := by
  induction l with
  | nil => rfl
  | cons a l ih =>
    have rest := ih (fun b member => same b (List.mem_cons_of_mem a member))
      (fun b member => apart b (List.mem_cons_of_mem a member))
    by_cases kept : p a = true
    · have here := same a List.mem_cons_self kept
      rw [List.filter_cons_of_pos kept, List.findSome?_cons, List.findSome?_cons, here, rest]
    · have here := apart a List.mem_cons_self kept
      rw [List.filter_cons_of_neg kept, List.findSome?_cons, here, rest]

theorem find?_eq_search (book : RuleBook) (tokens : List Token) :
    book.find? tokens = book.search tokens := by
  unfold find? relevant candidates search
  rw [List.findSome?_map]
  apply findSome?_filter
  · intro entry member _
    have known : book.rule? entry.2 = some entry.1 := List.mem_zipIdx_iff_getElem?.mp member
    simp only [Function.comp, known, Option.bind_eq_bind, Option.bind_some]
    cases entry.1.pattern.find? tokens <;> rfl
  · intro entry member apart
    have headed := isHeaded_of_mem_rules (List.fst_mem_of_mem_zipIdx member)
    rw [headed.find?_eq_none apart]
    rfl

theorem search_eq_none_iff {book : RuleBook} {tokens : List Token} :
    book.search tokens = none ↔ ∀ rule ∈ book.rules, rule.pattern.find? tokens = none := by
  unfold search
  rw [List.findSome?_eq_none_iff]
  constructor
  · intro none rule member
    obtain ⟨index, known⟩ := List.getElem?_of_mem member
    have := none (rule, index) (List.mem_zipIdx_iff_getElem?.mpr known)
    exact Option.map_eq_none_iff.mp this
  · intro none entry member
    rw [none entry.1 (List.fst_mem_of_mem_zipIdx member)]
    rfl

theorem search_eq_some_iff {book : RuleBook} {tokens : List Token} {m : RuleMatch} :
    book.search tokens = some m ↔ book.rules[m.index]? = some m.rule ∧
      m.rule.pattern.find? tokens = some m.stretch ∧
        ∀ index < m.index, ∀ rule, book.rules[index]? = some rule →
          rule.pattern.find? tokens = none := by
  unfold search
  rw [List.findSome?_eq_some_iff]
  constructor
  · rintro ⟨before, entry, behind, split, found, none⟩
    obtain ⟨stretch, here, rfl⟩ := Option.map_eq_some_iff.mp found
    have place : book.rules.zipIdx[before.length]? = some entry := by simp [split]
    have index : entry.2 = before.length := by
      rw [List.getElem?_zipIdx, Option.map_eq_some_iff] at place
      obtain ⟨_, _, rfl⟩ := place
      simp
    refine ⟨?_, here, fun earlier below rule known => ?_⟩
    · exact List.mem_zipIdx_iff_getElem?.mp (split ▸ by simp)
    · have among : before[earlier]? = some (rule, earlier) := by
        have : book.rules.zipIdx[earlier]? = some (rule, earlier) := by
          simp [List.getElem?_zipIdx, known]
        rwa [split, List.getElem?_append_left (by simpa [index] using below)] at this
      exact Option.map_eq_none_iff.mp (none _ (List.mem_of_getElem? among))
  · rintro ⟨known, here, none⟩
    have place : book.rules.zipIdx[m.index]? = some (m.rule, m.index) := by
      simp [List.getElem?_zipIdx, known]
    obtain ⟨short, same⟩ := List.getElem?_eq_some_iff.mp place
    refine ⟨book.rules.zipIdx.take m.index, (m.rule, m.index),
      book.rules.zipIdx.drop (m.index + 1), ?_, ?_, ?_⟩
    · rw [← same, List.getElem_cons_drop, List.take_append_drop]
    · rw [here]
      rfl
    · intro entry member
      obtain ⟨earlier, below, rfl⟩ := List.mem_take_iff_getElem.mp member
      have inside : earlier < book.rules.length := by
        rw [List.length_zipIdx] at below
        omega
      have := none earlier (by omega) book.rules[earlier] (List.getElem?_eq_getElem inside)
      simp [this]

theorem getElem?_rules_core (book : RuleBook) (place : Nat) :
    book.rules[book.custom.length + place]? = coreRules[place]? := by
  have size : (book.custom.map Definition.rule).length = book.custom.length := List.length_map _
  unfold rules
  rw [List.getElem?_append_right (by omega), size, Nat.add_sub_cancel_left]

theorem rule_cases {book : RuleBook} {index : Nat} {rule : Rule}
    (known : book.rules[index]? = some rule) :
    (∃ d ∈ book.custom, d.rule = rule ∧ index < book.custom.length) ∨
      ∃ place, book.custom.length + place = index ∧ coreRules[place]? = some rule := by
  rcases Nat.lt_or_ge index book.custom.length with registered | behind
  · unfold rules at known
    rw [List.getElem?_append_left (by simpa using registered)] at known
    obtain ⟨d, member, same⟩ := List.mem_map.mp (List.mem_of_getElem? known)
    exact .inl ⟨d, member, same, registered⟩
  · obtain ⟨place, rfl⟩ := Nat.exists_eq_add_of_le behind
    exact .inr ⟨place, rfl, getElem?_rules_core book place ▸ known⟩

theorem find?_core {book : RuleBook} {tokens : List Token} {place : Nat} {rule : Rule}
    {s : Stretch} (known : coreRules[place]? = some rule)
    (found : rule.pattern.find? tokens = some s)
    (custom : ∀ d ∈ book.custom, d.pattern.find? tokens = none)
    (earlier : ∀ other ∈ coreRules.take place, other.pattern.find? tokens = none) :
    book.find? tokens = some ⟨book.custom.length + place, rule, s⟩ := by
  rw [find?_eq_search, search_eq_some_iff]
  refine ⟨(book.getElem?_rules_core place).trans known, found,
    fun index (below : index < book.custom.length + place) other there => ?_⟩
  obtain ⟨d, member, rfl, _⟩ | ⟨before, rfl, here⟩ := rule_cases there
  · exact custom d member
  · refine earlier other (List.mem_of_getElem? (i := before) ?_)
    rw [List.getElem?_take_of_lt (by omega)]
    exact here

/-- A rule of the book at its leftmost match, where no rule before it matches anywhere. -/
structure FirstMatch (book : RuleBook) (tokens : List Token) (m : RuleMatch) : Prop where
  known : book.rules[m.index]? = some m.rule
  here : m.rule.pattern.matchAt? tokens m.stretch.start = some m.stretch.length
  leftmost : ∀ start < m.stretch.start, m.rule.pattern.matchAt? tokens start = none
  first : ∀ index < m.index, ∀ rule, book.rules[index]? = some rule →
    ∀ start, rule.pattern.matchAt? tokens start = none

theorem search_eq_some_iff_firstMatch {book : RuleBook} {tokens : List Token} {m : RuleMatch} :
    book.search tokens = some m ↔ book.FirstMatch tokens m := by
  have headed {index : Nat} {rule : Rule} (known : book.rules[index]? = some rule) :
      rule.pattern.Headed := (isHeaded_of_mem_rules (List.mem_of_getElem? known)).headed
  rw [search_eq_some_iff]
  constructor
  · rintro ⟨known, found, none⟩
    obtain ⟨here, leftmost⟩ := (Pattern.find?_eq_some_iff (headed known)).mp found
    exact ⟨known, here, leftmost, fun index below rule earlier =>
      (Pattern.find?_eq_none_iff (headed earlier)).mp (none index below rule earlier)⟩
  · rintro ⟨known, here, leftmost, first⟩
    exact ⟨known, (Pattern.find?_eq_some_iff (headed known)).mpr ⟨here, leftmost⟩,
      fun index below rule earlier =>
        (Pattern.find?_eq_none_iff (headed earlier)).mpr (first index below rule earlier)⟩

/-- Trying only the rules that the profile leaves finds what trying all of them finds. -/
theorem pruned_search_exact (book : RuleBook) (tokens : List Token) :
    book.find? tokens = book.search tokens ∧
      (∀ m, book.find? tokens = some m ↔ book.FirstMatch tokens m) ∧
      (book.find? tokens = none ↔
        ∀ rule ∈ book.rules, ∀ start, rule.pattern.matchAt? tokens start = none) := by
  have same := book.find?_eq_search tokens
  refine ⟨same, ?_, ?_⟩
  · intro m
    rw [same]
    exact search_eq_some_iff_firstMatch
  · rw [same, search_eq_none_iff]
    constructor
    · intro none rule member
      exact (Pattern.find?_eq_none_iff (isHeaded_of_mem_rules member).headed).mp (none rule member)
    · intro none rule member
      exact (Pattern.find?_eq_none_iff (isHeaded_of_mem_rules member).headed).mpr (none rule member)

end RuleBook

end Formulary
