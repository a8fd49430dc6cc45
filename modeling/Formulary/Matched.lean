import Formulary.Chain
import Formulary.Pattern.Matching
import Formulary.RuleBook

/-! What the rules of a book match, as far as it matters for how evaluation ends. -/
namespace Formulary

/-- What a rule of a book can have matched. Apart from two kinds of rules, the brackets of the
    matched tokens close, and no truth value or combinator stands outside them. -/
inductive Matched : Action → List Token → Prop where
  | closed {action : Action} {matched : List Token} : action ≠ .expandRange →
      2 ≤ matched.length → (∀ r : Row, r.Le (r.afterAll matched)) → Matched action matched
  | combination {left word right : Token} : left.category = .logical →
      word.category = .combinator → right.category = .logical →
      Matched .apply [left, word, right]
  | range {a first b second c : Token} : a.category = .numeric → first.category = .comparator →
      b.category = .numeric → second.category = .comparator → c.category = .numeric →
      Matched .expandRange [a, first, b, second, c]

/-! Marks of tokens, by category -/

theorem Token.not_isGrouping {t : Token} (other : t.category ≠ .grouping) (mark : Grouping) :
    t.isGrouping mark = false := by
  cases content : t.content <;>
    simp_all [category, isGrouping, symbol?, Symbol.category]
  intro equal
  simp [equal] at other

theorem Token.mark_of_category {t : Token} {category : Category} (same : t.category = category)
    (other : category ≠ .grouping) : t.mark = category.mark := by
  subst same
  simp [mark, isOpening, isClosing, not_isGrouping other]

def Category.isPlain : Category → Bool
  | .grouping | .combinator | .logical => false
  | _ => true

theorem Row.le_after {t : Token} (plain : t.category.isPlain = true) (r : Row) :
    r.Le (r.after t.mark) := by
  have other : t.category ≠ .grouping := by
    intro grouping
    simp [grouping, Category.isPlain] at plain
  rw [Token.mark_of_category rfl other]
  cases category : t.category with
  | comparator => exact ⟨fun _ => rfl, fun _ => id⟩
  | combinator | logical => simp [category, Category.isPlain] at plain
  | _ => exact .refl r

theorem Matcher.category_of_accepts {m : Matcher} {category : Category} {symbols : List Symbol}
    (shape : m.shape = .one [category] symbols) {t : Token} (accepted : m.accepts t = true) :
    t.category = category := by
  simp only [accepts, categories, shape, Bool.and_eq_true] at accepted
  simpa using accepted.1

def Matcher.isPlain (m : Matcher) : Bool :=
  match m.shape with
  | .one [category] _ => category.isPlain
  | _ => false

theorem Matcher.one_of_isPlain {m : Matcher} (plain : m.isPlain = true) :
    ∃ category symbols, m.shape = .one [category] symbols ∧ category.isPlain = true := by
  unfold isPlain at plain
  split at plain
  · exact ⟨_, _, by assumption, plain⟩
  · cases plain

/-! What patterns of the core rules match -/

theorem closed_of_accepts {pattern : Pattern} (plain : pattern.all Matcher.isPlain = true)
    {matched : List Token} (accepts : pattern.Accepts matched) :
    matched.length = pattern.length ∧ ∀ r : Row, r.Le (r.afterAll matched) := by
  induction pattern generalizing matched with
  | nil =>
    cases matched with
    | nil => exact ⟨rfl, Row.Le.refl⟩
    | cons t matched => exact accepts.elim
  | cons m pattern ih =>
    cases matched with
    | nil => exact accepts.elim
    | cons t matched =>
      simp only [List.all_cons, Bool.and_eq_true] at plain
      obtain ⟨category, symbols, shape, isPlain⟩ := Matcher.one_of_isPlain plain.1
      obtain ⟨size, row⟩ := ih plain.2 accepts.2
      refine ⟨by simp [size], fun r => .trans (Row.le_after ?_ r) (row _)⟩
      rw [Matcher.category_of_accepts shape accepts.1]
      exact isPlain

theorem matched_plain {pattern : Pattern} (plain : pattern.all Matcher.isPlain = true)
    (several : 2 ≤ pattern.length) {action : Action} (other : action ≠ .expandRange)
    {atStart : Bool} {tokens : List Token} {n : Nat}
    (taken : pattern.take? atStart tokens = some n) :
    Matched action (tokens.take n) := by
  have single : ∀ m ∈ pattern, ∃ categories symbols, m.shape = .one categories symbols := by
    intro m member
    obtain ⟨category, symbols, shape, _⟩ :=
      Matcher.one_of_isPlain (List.all_eq_true.mp plain m member)
    exact ⟨_, _, shape⟩
  obtain ⟨size, row⟩ := closed_of_accepts plain (Pattern.accepts_of_take? single taken)
  exact .closed other (by omega) row

theorem Pattern.take?_brackets {inner : Pattern} (enclosed : inner.Enclosed) {opening : Matcher}
    (opens : opening = .opening ∨ opening = .callOpening) {atStart : Bool} {tokens : List Token}
    {n : Nat} (taken : take? (opening :: (inner ++ [.closing])) atStart tokens = some n) :
    ∃ first span closing, tokens.take n = first :: (span ++ [closing]) ∧
      first.isOpening = true ∧ closing.isClosing = true ∧ endDepth? 0 span = some 0 := by
  have shape : ∃ categories symbols, opening.shape = .one categories symbols := by
    rcases opens with rfl | rfl <;> exact ⟨_, _, rfl⟩
  obtain ⟨_, _, shape⟩ := shape
  obtain ⟨_, others, here, there, rfl⟩ := take?_cons taken
  obtain ⟨t, rest, rfl, accepted, rfl⟩ := Matcher.take?_one shape here
  obtain ⟨span, closing, run, closes, balanced⟩ := enclosed there
  have isOpening : t.isOpening = true := by
    apply Matcher.isOpening_of_accepts
    rcases opens with rfl | rfl
    · exact .inl accepted
    · exact .inr accepted
  refine ⟨t, span, closing, ?_, isOpening, closes, balanced⟩
  rw [Nat.add_comm]
  exact congrArg (t :: ·) run

theorem Pattern.take?_call {inner : Pattern} (enclosed : inner.Enclosed) {name : Matcher}
    {symbols : List Symbol} (shape : name.shape = .one [.function] symbols) {atStart : Bool}
    {tokens : List Token} {n : Nat}
    (taken : take? (name :: .callOpening :: (inner ++ [.closing])) atStart tokens = some n) :
    ∃ head opening span closing, tokens.take n = head :: opening :: (span ++ [closing]) ∧
      head.category = .function ∧ opening.isOpening = true ∧ closing.isClosing = true ∧
      endDepth? 0 span = some 0 := by
  obtain ⟨_, others, here, there, rfl⟩ := take?_cons taken
  obtain ⟨t, rest, rfl, accepted, rfl⟩ := Matcher.take?_one shape here
  obtain ⟨opening, span, closing, same, brackets⟩ := take?_brackets enclosed (.inr rfl) there
  refine ⟨t, opening, span, closing, ?_, Matcher.category_of_accepts shape accepted, brackets⟩
  rw [Nat.add_comm]
  exact congrArg (t :: ·) same

theorem matched_group {pattern : Pattern} (enclosed : pattern.Enclosed) {action : Action}
    (other : action ≠ .expandRange) {atStart : Bool} {tokens : List Token} {n : Nat}
    (taken : Pattern.take? (.opening :: (pattern ++ [.closing])) atStart tokens = some n) :
    Matched action (tokens.take n) := by
  obtain ⟨opening, inner, closing, same, opens, closes, balanced⟩ :=
    Pattern.take?_brackets enclosed (.inl rfl) taken
  rw [same]
  refine .closed other (by simp) fun r => ?_
  have row : r.afterAll (opening :: (inner ++ [closing])) = r :=
    r.afterAll_enclosed opens closes balanced
  rw [row]
  exact .refl r

theorem matched_call {pattern : Pattern} (enclosed : pattern.Enclosed) {name : Matcher}
    {symbols : List Symbol} (shape : name.shape = .one [.function] symbols) {action : Action}
    (other : action ≠ .expandRange) {atStart : Bool} {tokens : List Token} {n : Nat}
    (taken : Pattern.take? (name :: .callOpening :: (pattern ++ [.closing])) atStart tokens =
      some n) :
    Matched action (tokens.take n) := by
  obtain ⟨head, opening, inner, closing, same, function, opens, closes, balanced⟩ :=
    Pattern.take?_call enclosed shape taken
  rw [same]
  refine .closed other (by simp) fun r => ?_
  have passes : head.mark = .passes := Token.mark_of_category function (by decide)
  have row : r.afterAll (opening :: (inner ++ [closing])) = r :=
    r.afterAll_enclosed opens closes balanced
  rw [Row.afterAll, passes, Row.after, row]
  exact .refl r

theorem matched_of_accepts_combination {matched : List Token}
    (accepts : Pattern.Accepts [.logical, .combinator, .logical] matched) :
    Matched .apply matched := by
  match matched, accepts with
  | [_, _, _], ⟨left, word, right, _⟩ =>
    exact .combination (Matcher.category_of_accepts rfl left)
      (Matcher.category_of_accepts rfl word) (Matcher.category_of_accepts rfl right)

theorem matched_of_accepts_range {sign : Matcher} {symbols : List Symbol}
    (shape : sign.shape = .one [.comparator] symbols) {matched : List Token}
    (accepts : Pattern.Accepts [.numeric, sign, .numeric, sign, .numeric] matched) :
    Matched .expandRange matched := by
  match matched, accepts with
  | [_, _, _, _, _], ⟨a, first, b, second, c, _⟩ =>
    exact .range (Matcher.category_of_accepts rfl a) (Matcher.category_of_accepts shape first)
      (Matcher.category_of_accepts rfl b) (Matcher.category_of_accepts shape second)
      (Matcher.category_of_accepts rfl c)

/-! What rules of a book match -/

theorem enclosed_arguments : Pattern.Enclosed [.arguments] :=
  Pattern.enclosed_cons (by simp [Matcher.arguments]) Pattern.enclosed_nil

theorem Definition.enclosed (d : Definition) : (argumentPattern d.signature).Enclosed := by
  cases d.signature with
  | between least most => exact enclosed_arguments
  | parameters names => exact Pattern.enclosed_runs names

theorem Definition.matched_of_take? (d : Definition) {atStart : Bool} {tokens : List Token}
    {n : Nat} (taken : d.rule.pattern.take? atStart tokens = some n) :
    Matched d.rule.action (tokens.take n) :=
  matched_call d.enclosed rfl (by simp [rule]) taken

theorem matched_of_take?_core {rule : Rule} (member : rule ∈ coreRules) {atStart : Bool}
    {tokens : List Token} {n : Nat} (taken : rule.pattern.take? atStart tokens = some n) :
    Matched rule.action (tokens.take n) := by
  simp only [coreRules, List.mem_cons, List.not_mem_nil, or_false] at member
  rcases member with rfl | rfl | rfl | rfl | rfl | rfl | rfl | rfl | rfl | rfl | rfl | rfl | rfl |
    rfl | rfl | rfl | rfl | rfl | rfl | rfl | rfl | rfl | rfl
  · exact matched_call (Pattern.enclosed_runs ["", "", ""]) rfl (by simp) taken
  · exact matched_call enclosed_arguments rfl (by simp) taken
  · exact matched_call enclosed_arguments rfl (by simp) taken
  · exact matched_call enclosed_arguments rfl (by simp) taken
  · exact matched_call (Pattern.enclosed_runs [""]) rfl (by simp) taken
  · exact matched_call enclosed_arguments rfl (by simp) taken
  · exact matched_group (Pattern.enclosed_cons (by simp [Matcher.optionalRun]) Pattern.enclosed_nil)
      (by simp) taken
  iterate 10 exact matched_plain rfl (by decide) (by simp) taken
  iterate 2 exact matched_of_accepts_range rfl (Pattern.accepts_of_take? (by
    simp [Matcher.numeric, Matcher.ofCategory, Matcher.ascending, Matcher.descending,
      Matcher.comparators]) taken)
  iterate 3 exact matched_plain rfl (by decide) (by simp) taken
  exact matched_of_accepts_combination (Pattern.accepts_of_take? (by
    simp [Matcher.logical, Matcher.ofCategory, Matcher.combinator]) taken)

theorem Pattern.take?_of_findFrom? {pattern : Pattern} {start : Nat} {tokens : List Token}
    {s : Stretch} (found : pattern.findFrom? start tokens = some s) :
    start ≤ s.start ∧
      pattern.take? (s.start == 0) (tokens.drop (s.start - start)) = some s.length := by
  induction tokens generalizing start with
  | nil => cases found
  | cons t rest ih =>
    unfold findFrom? at found
    split at found
    · next taken =>
      obtain rfl := Option.some.inj found
      simpa using taken
    · obtain ⟨later, taken⟩ := ih found
      refine ⟨by omega, ?_⟩
      rw [show s.start - start = (s.start - (start + 1)) + 1 by omega]
      exact taken

theorem Pattern.take?_of_find? {pattern : Pattern} {tokens : List Token} {s : Stretch}
    (found : pattern.find? tokens = some s) :
    pattern.take? (s.start == 0) (tokens.drop s.start) = some s.length := by
  unfold find? at found
  split at found
  · obtain ⟨n, taken, rfl⟩ := Option.map_eq_some_iff.mp found
    exact taken
  · exact (take?_of_findFrom? found).2

/-- A rule that has been found has matched in one of the ways of `Matched`. -/
theorem RuleBook.matched_of_find? {book : RuleBook} {tokens : List Token} {m : RuleMatch}
    (found : book.find? tokens = some m) : Matched m.rule.action (m.stretch.select tokens) := by
  obtain ⟨index, _, found⟩ := List.exists_of_findSome?_eq_some found
  simp only [Option.bind_eq_bind, Option.bind_eq_some_iff] at found
  obtain ⟨rule, known, stretch, here, same⟩ := found
  obtain rfl := Option.some.inj same
  have taken := Pattern.take?_of_find? here
  have member : rule ∈ book.rules := List.mem_of_getElem? known
  rcases List.mem_append.mp member with custom | core
  · obtain ⟨d, _, rfl⟩ := List.mem_map.mp custom
    exact d.matched_of_take? taken
  · exact matched_of_take?_core core taken

end Formulary
