import Formulary.Proofs.Parts

/-!
Which rule takes a step is decided by what can not match: rules that need a token that is not
there, and patterns whose matchers reject what stands at a place, so that a search passes over it.
-/
namespace Formulary

def Content.Within (profile : Profile) (c : Content) : Prop :=
  (⟨c, 0⟩ : Token).category ∈ profile.categories ∧
    ∀ symbol, c = .symbol symbol → symbol ∈ profile.symbols

def Matcher.isForeign (profile : Profile) (m : Matcher) : Bool :=
  !m.categories.isEmpty && (m.categories.all (!profile.categories.contains ·) ||
    (!m.symbols.isEmpty && m.symbols.all (!profile.symbols.contains ·)))

theorem Matcher.rejects_of_isForeign {profile : Profile} {m : Matcher}
    (foreign : m.isForeign profile = true) {t : Token} (within : t.content.Within profile) :
    m.accepts t = false := by
  simp only [isForeign, Bool.and_eq_true, Bool.or_eq_true, Bool.not_eq_true',
    List.isEmpty_eq_false_iff, List.all_eq_true, List.contains_eq_mem, decide_eq_false_iff_not]
    at foreign
  obtain ⟨asks, absent⟩ := foreign
  rw [Bool.eq_false_iff, ne_eq]
  intro accepted
  rcases absent with others | ⟨some, others⟩
  · exact others _ (category_mem_of_accepts accepted asks) within.1
  · obtain ⟨symbol, inside, same⟩ := symbol_mem_of_accepts accepted some
    exact others symbol inside (within.2 symbol (Token.content_of_symbol? same))

theorem Pattern.find?_eq_none_of_foreign {profile : Profile} {pattern : Pattern}
    (foreign : pattern.any (Matcher.isForeign profile) = true) {tokens : List Token}
    (within : ∀ t ∈ tokens, t.content.Within profile) : pattern.find? tokens = none := by
  obtain ⟨m, member, foreign⟩ := List.any_eq_true.mp foreign
  have asks : m.categories ≠ [] := by
    intro none
    simp [Matcher.isForeign, none] at foreign
  obtain ⟨category, among⟩ := List.exists_mem_of_ne_nil _ asks
  exact find?_eq_none_of_absent member (Matcher.isSingle_of_category among) fun t inside =>
    Matcher.rejects_of_isForeign foreign (within t inside)

/-! Places that a search passes over -/

namespace Pattern

/-- No match begins in the tokens passed, whatever of them is left, with the others behind. -/
def Skips (pattern : Pattern) (behind : List Token) : List Token → Prop
  | [] => True
  | t :: passed =>
    (∀ atStart, pattern.take? atStart (t :: (passed ++ behind)) = none) ∧
      Skips pattern behind passed

variable {pattern : Pattern} {passed behind : List Token}

theorem Skips.append {more : List Token} (first : pattern.Skips (more ++ behind) passed)
    (second : pattern.Skips behind more) : pattern.Skips behind (passed ++ more) := by
  induction passed with
  | nil => exact second
  | cons t passed ih =>
    refine ⟨fun atStart => ?_, ih first.2⟩
    have here := first.1 atStart
    rwa [← List.append_assoc] at here

theorem skips_of_rejects {m : Matcher} (single : m.IsSingle)
    (rejected : ∀ t ∈ passed, m.accepts t = false) : Skips (m :: pattern) behind passed := by
  induction passed with
  | nil => trivial
  | cons t passed ih =>
    refine ⟨fun atStart => ?_, ih fun u member => rejected u (List.mem_cons_of_mem t member)⟩
    exact take?_cons_of_rejects single (rejected t List.mem_cons_self) _ _ _

theorem Skips.findFrom? (skips : pattern.Skips behind passed) (start : Nat) :
    pattern.findFrom? start (passed ++ behind) =
      pattern.findFrom? (start + passed.length) behind := by
  induction passed generalizing start with
  | nil => rfl
  | cons t passed ih =>
    rw [List.cons_append, Pattern.findFrom?, skips.1]
    dsimp only
    rw [ih skips.2, List.length_cons, Nat.add_assoc, Nat.add_comm 1]

theorem Skips.find? (skips : pattern.Skips behind passed) (free : pattern.isAnchored = false)
    {t : Token} {rest : List Token} (more : behind = t :: rest) {n : Nat}
    (taken : ∀ atStart, pattern.take? atStart behind = some n) :
    pattern.find? (passed ++ behind) = some ⟨passed.length, n⟩ := by
  unfold Pattern.find?
  rw [free, if_neg (by decide), skips.findFrom?, Nat.zero_add]
  subst more
  rw [Pattern.findFrom?, taken]

theorem Skips.find?_eq_none (skips : pattern.Skips [] passed) (free : pattern.isAnchored = false) :
    pattern.find? passed = none := by
  have walked := skips.findFrom? 0
  rw [List.append_nil] at walked
  unfold Pattern.find?
  rw [free, if_neg (by decide), walked]
  rfl

end Pattern

/-! One step among tokens of a profile -/

/-- Up to a place all core rules but some need a token that is not within the profile. -/
def ForeignBefore (place : Nat) (profile : Profile) (but : List Nat) : Prop :=
  ∀ index < place, index ∉ but →
    coreRules[index]?.all (fun rule => rule.pattern.any (Matcher.isForeign profile)) = true

namespace RuleBook

theorem evaluate_core (book : RuleBook) {place : Nat} {profile : Profile} {but : List Nat}
    (foreign : ForeignBefore place profile but) (uncalled : .function ∉ profile.categories)
    {rule : Rule} (known : coreRules[place]? = some rule)
    {passed matched behind : List Token} (several : 2 ≤ matched.length)
    (within : ∀ t ∈ passed ++ (matched ++ behind), t.content.Within profile)
    (found : rule.pattern.find? (passed ++ (matched ++ behind)) =
      some ⟨passed.length, matched.length⟩)
    (apart : ∀ index ∈ but, ∀ other, coreRules[index]? = some other →
      other.pattern.find? (passed ++ (matched ++ behind)) = none) :
    book.evaluate (passed ++ (matched ++ behind)) = (do
      let replaced ← book.replacement (rule.action.plan matched)
      book.evaluate (passed ++ (replaced ++ behind))) := by
  have custom : ∀ d ∈ book.custom, d.pattern.find? (passed ++ (matched ++ behind)) = none := by
    intro d _
    have function : d.pattern.any (Matcher.isForeign profile) = true := by
      simp [Definition.pattern, Matcher.isForeign, Matcher.function, Matcher.categories, uncalled]
    exact Pattern.find?_eq_none_of_foreign function within
  have earlier : ∀ other ∈ coreRules.take place,
      other.pattern.find? (passed ++ (matched ++ behind)) = none := by
    intro other member
    obtain ⟨index, below, same⟩ := List.mem_take_iff_getElem.mp member
    have there : coreRules[index]? = some other := List.getElem?_eq_some_iff.mpr ⟨_, same⟩
    by_cases special : index ∈ but
    · exact apart index special other there
    · have absent := foreign index (by omega) special
      rw [there] at absent
      exact Pattern.find?_eq_none_of_foreign absent within
  have first := find?_core known found custom earlier
  have long : ¬ (passed ++ (matched ++ behind)).length ≤ 1 := by
    simp only [List.length_append]
    omega
  rw [book.evaluate_step long first, rewrite_matched]
  cases book.replacement (rule.action.plan matched) <;> rfl

end RuleBook

end Formulary
