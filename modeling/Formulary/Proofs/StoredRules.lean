import Mathlib.Data.List.Induction
import Formulary.RuleIndex
import Formulary.Proofs.FunctionCalls

/-!
Stored rules and stored functions. A registration brings both up to date, each by itself: the rules
by what they call, the functions by their names. Whatever is registered in whatever order, they stay
in step: both hold the latest definition of each name, and nothing that came before it.
-/
namespace Formulary

/-! Rules of functions -/

namespace Definition

theorem not_mem_symbols_of_isInner {m : Matcher} (inner : m.IsInner) (name : Name) :
    .function name ∉ m.symbols := by
  rcases inner with rfl | rfl | rfl | rfl
  all_goals simp [Matcher.symbols, Matcher.run, Matcher.optionalRun, Matcher.arguments,
    Matcher.comma, Matcher.grouping]

theorem calls_rule (d : Definition) (name : Name) : d.rule.calls name = (d.name == name) := by
  have inside : .function name ∉ (argumentPattern d.signature).flatMap Matcher.symbols := by
    intro member
    obtain ⟨m, known, asked⟩ := List.mem_flatMap.mp member
    exact not_mem_symbols_of_isInner (d.isInner_of_mem known) name asked
  have symbols : d.rule.symbols = .function d.name :: .grouping .callOpening ::
      ((argumentPattern d.signature).flatMap Matcher.symbols ++ [.grouping .closing]) := by
    unfold Rule.symbols rule
    rw [pattern_eq]
    simp [Matcher.symbols, Matcher.function, Matcher.callOpening, Matcher.closing,
      Matcher.grouping]
  have mentions : .function name ∈ d.rule.symbols ↔ d.name = name := by
    rw [symbols]
    simp only [List.mem_cons, List.mem_append, reduceCtorEq, List.not_mem_nil, or_false, inside,
      Symbol.function.injEq]
    exact eq_comm
  unfold Rule.calls
  rw [Bool.eq_iff_iff]
  simp [rule] at mentions ⊢
  exact mentions

end Definition

/-! Registrations, the earliest in front -/

/-- The definition is registered, and none of that name is registered after it. -/
def Latest (history : List Definition) (d : Definition) : Prop :=
  ∃ earlier later, history = earlier ++ d :: later ∧ ∀ e ∈ later, e.name ≠ d.name

/-- From some point on the one name is registered, and the other is not. -/
def RegisteredAfter (history : List Definition) (name other : String) : Prop :=
  ∃ earlier later, history = earlier ++ later ∧ (∃ d ∈ later, d.name.text = name) ∧
    ∀ d ∈ later, d.name.text ≠ other

variable {history : List Definition} {d e : Definition}

theorem latest_concat_iff :
    Latest (history ++ [e]) d ↔ d = e ∨ Latest history d ∧ d.name ≠ e.name := by
  constructor
  · rintro ⟨earlier, later, split, apart⟩
    rcases List.eq_nil_or_concat later with rfl | ⟨before, last, rfl⟩
    · obtain ⟨_, same⟩ := List.append_inj' split rfl
      exact .inl (List.cons.inj same).1.symm
    · rw [List.concat_eq_append] at split apart
      have split : history ++ [e] = (earlier ++ d :: before) ++ [last] := by simpa using split
      obtain ⟨rfl, same⟩ := List.append_inj' split rfl
      obtain rfl := (List.cons.inj same).1
      refine .inr ⟨⟨earlier, before, rfl, ?_⟩, (apart e (by simp)).symm⟩
      intro other member
      exact apart other (List.mem_append_left _ member)
  · rintro (rfl | ⟨⟨earlier, later, rfl, apart⟩, other⟩)
    · exact ⟨history, [], rfl, by simp⟩
    · refine ⟨earlier, later ++ [e], by simp, ?_⟩
      intro f member
      rcases List.mem_append.mp member with member | member
      · exact apart f member
      · rw [List.mem_singleton.mp member]
        exact other.symm

theorem Latest.find? (latest : Latest history d) :
    history.reverse.find? (·.name == d.name) = some d := by
  obtain ⟨earlier, later, rfl, apart⟩ := latest
  have behind : later.reverse.find? (·.name == d.name) = none := by
    rw [List.find?_eq_none]
    intro e member
    simpa using apart e (List.mem_reverse.mp member)
  simp [behind]

theorem Latest.mem (latest : Latest history d) : d ∈ history := by
  obtain ⟨earlier, later, rfl, _⟩ := latest
  simp

theorem exists_latest (member : d ∈ history) : ∃ e, Latest history e ∧ e.name = d.name := by
  -- By induction on the history: what is registered last of a name is the latest of it.
  induction history using List.reverseRecOn with
  | nil => cases member
  | append_singleton history last ih =>
    by_cases same : last.name = d.name
    · exact ⟨last, latest_concat_iff.mpr (.inl rfl), same⟩
    · rcases List.mem_append.mp member with earlier | now
      · obtain ⟨e, latest, name⟩ := ih earlier
        refine ⟨e, latest_concat_iff.mpr (.inr ⟨latest, ?_⟩), name⟩
        rw [name]
        exact Ne.symm same
      · rw [List.mem_singleton.mp now] at same
        exact absurd rfl same

namespace RegisteredAfter

variable {name other : String}

theorem ne (after : RegisteredAfter history name other) : name ≠ other := by
  obtain ⟨_, later, _, ⟨d, member, rfl⟩, apart⟩ := after
  exact apart d member

theorem now (apart : d.name.text ≠ other) : RegisteredAfter (history ++ [d]) d.name.text other :=
  ⟨history, [d], rfl, ⟨d, by simp, rfl⟩, by simpa using apart⟩

theorem concat (after : RegisteredAfter history name other) (apart : d.name.text ≠ other) :
    RegisteredAfter (history ++ [d]) name other := by
  obtain ⟨earlier, later, rfl, ⟨e, member, rfl⟩, before⟩ := after
  refine ⟨earlier, later ++ [d], by simp, ⟨e, List.mem_append_left _ member, rfl⟩, ?_⟩
  intro f inside
  rcases List.mem_append.mp inside with inside | inside
  · exact before f inside
  · rw [List.mem_singleton.mp inside]
    exact apart

end RegisteredAfter

namespace RuleIndex

/-! One registration -/

section

variable (index : RuleIndex)

theorem mem_custom_register {r : Rule} :
    r ∈ (index.register d).custom ↔
      r = d.rule ∨ r ∈ index.custom ∧ r.calls d.name = false := by
  simp [register]

theorem mem_definitions_register :
    e ∈ (index.register d).functions.definitions ↔
      e = d ∨ e ∈ index.functions.definitions ∧ e.name ≠ d.name := by
  simp [register, Registry.register]

theorem rule?_eq (place : Nat) : index.rule? place = index.rules[place]? := by
  unfold rule? rules
  by_cases inside : place < index.custom.length
  · rw [if_pos inside, List.getElem?_append_left inside]
  · rw [if_neg inside, List.getElem?_append_right (Nat.le_of_not_lt inside)]

theorem size_eq : index.size = index.rules.length := by
  unfold size rules
  rw [List.length_append]

end

/-! All registrations -/

def registered (history : List Definition) : RuleIndex := history.foldl register initial

theorem registered_concat (history : List Definition) (d : Definition) :
    registered (history ++ [d]) = (registered history).register d := by
  unfold registered
  rw [List.foldl_append]
  rfl

theorem core_registered (history : List Definition) : (registered history).core = coreRules := by
  induction history using List.reverseRecOn with
  | nil => rfl
  | append_singleton history d ih =>
    rw [registered_concat]
    exact ih

theorem mem_custom_registered {r : Rule} :
    r ∈ (registered history).custom ↔ ∃ d, Latest history d ∧ r = d.rule := by
  induction history using List.reverseRecOn with
  | nil =>
    constructor
    · exact nofun
    · rintro ⟨d, latest, _⟩
      exact absurd latest.mem List.not_mem_nil
  | append_singleton history d ih =>
    rw [registered_concat, mem_custom_register, ih]
    constructor
    · rintro (rfl | ⟨⟨e, latest, rfl⟩, uncalled⟩)
      · exact ⟨d, latest_concat_iff.mpr (.inl rfl), rfl⟩
      · rw [e.calls_rule] at uncalled
        exact ⟨e, latest_concat_iff.mpr (.inr ⟨latest, by simpa using uncalled⟩), rfl⟩
    · rintro ⟨e, latest, rfl⟩
      rcases latest_concat_iff.mp latest with rfl | ⟨latest, apart⟩
      · exact .inl rfl
      · refine .inr ⟨⟨e, latest, rfl⟩, ?_⟩
        rw [e.calls_rule]
        simpa using apart

theorem pairwise_custom_registered (history : List Definition) :
    (registered history).custom.Pairwise fun newer older =>
      RegisteredAfter history newer.name older.name := by
  induction history using List.reverseRecOn with
  | nil => exact .nil
  | append_singleton history d ih =>
    rw [registered_concat]
    have others {r : Rule} (member : r ∈ (registered history).custom.filter (!·.calls d.name)) :
        d.name.text ≠ r.name := by
      obtain ⟨known, uncalled⟩ := List.mem_filter.mp member
      obtain ⟨e, _, rfl⟩ := mem_custom_registered.mp known
      rw [e.calls_rule] at uncalled
      have apart : e.name ≠ d.name := by simpa using uncalled
      exact fun same => apart (Name.ext same.symm)
    refine .cons ?_ ?_
    · intro r member
      exact .now (others member)
    · refine (ih.filter _).imp_of_mem ?_
      intro newer older _ member after
      exact after.concat (others member)

theorem mem_definitions_registered :
    d ∈ (registered history).functions.definitions ↔
      Latest history d ∨ d ∈ Registry.builtin.definitions ∧ ∀ e ∈ history, e.name ≠ d.name := by
  induction history using List.reverseRecOn with
  | nil =>
    have never : ¬ Latest [] d := fun latest => List.not_mem_nil latest.mem
    simp [never, registered, initial]
  | append_singleton history last ih =>
    rw [registered_concat, mem_definitions_register, ih, latest_concat_iff]
    simp only [List.mem_append, List.mem_singleton, or_imp, forall_and, forall_eq]
    constructor
    · rintro (same | ⟨latest | ⟨builtin, apart⟩, other⟩)
      · exact .inl (.inl same)
      · exact .inl (.inr ⟨latest, other⟩)
      · exact .inr ⟨builtin, apart, other.symm⟩
    · rintro ((same | ⟨latest, other⟩) | ⟨builtin, apart, other⟩)
      · exact .inl same
      · exact .inr ⟨.inl latest, other⟩
      · exact .inr ⟨.inr ⟨builtin, apart⟩, other.symm⟩

theorem find?_functions_registered (history : List Definition) (name : Name) :
    (registered history).functions.find? name =
      (history.reverse.find? (·.name == name)).or (Registry.builtin.find? name) := by
  induction history using List.reverseRecOn with
  | nil => rfl
  | append_singleton history d ih =>
    rw [registered_concat]
    refine (Registry.find?_register _ d name).trans ?_
    rw [ih, List.reverse_concat]
    by_cases same : d.name = name
    · simp [same]
    · simp [same]

/-! The rule book that the stores spell out -/

theorem custom_registered (history : List Definition) :
    (registered history).custom = (RuleBook.registered history).custom.map Definition.rule := by
  induction history using List.reverseRecOn with
  | nil => rfl
  | append_singleton history d ih =>
    have book :
        RuleBook.registered (history ++ [d]) = (RuleBook.registered history).register d := by
      unfold RuleBook.registered
      rw [List.foldl_append]
      rfl
    have calls : (fun r : Rule => !r.calls d.name) ∘ Definition.rule = (·.name != d.name) := by
      funext e
      simp [e.calls_rule, bne]
    rw [registered_concat, book]
    unfold register RuleBook.register
    simp only [ih, List.map_cons, List.filter_map, calls]

theorem rules_registered (history : List Definition) :
    (registered history).rules = (RuleBook.registered history).rules := by
  unfold rules RuleBook.rules
  rw [custom_registered, core_registered]

theorem functions_registered (history : List Definition) (name : String) :
    (registered history).functions.get? name = (RuleBook.registered history).function? name := by
  have found : (RuleBook.registered history).function? name =
      (RuleBook.registered history).function? (Name.ofText name).text := by
    rw [RuleBook.function?_text]
    rfl
  rw [found, RuleBook.function?_registered, Registry.get?, find?_functions_registered]
  unfold RuleBook.latest? Registry.find?
  rw [List.find?_append]

structure Records (index : RuleIndex) (history : List Definition) : Prop where
  /-- The rules of registered functions have different names. -/
  names : (index.custom.map Rule.name).Nodup
  /-- They come in the order of the latest registrations of their names, the last in front. -/
  order : index.custom.Pairwise fun newer older => RegisteredAfter history newer.name older.name
  /-- No name that was registered is without a rule. -/
  complete : ∀ d ∈ history, ∃ r ∈ index.custom, r.name = d.name.text
  /-- Each rule is that of the function found under its name, which is the latest of that name. -/
  current : ∀ r ∈ index.custom, ∃ d, index.functions.get? r.name = some d ∧ Latest history d ∧
    r.name = d.name.text ∧ r.pattern = d.pattern ∧ r.action = .call
  /-- All other functions are those that were there from the start. -/
  entries : ∀ d, d ∈ index.functions.definitions ↔
    Latest history d ∨ d ∈ Registry.builtin.definitions ∧ ∀ e ∈ history, e.name ≠ d.name
  /-- The core rules come last, as they are. -/
  rules : index.rules = index.custom ++ coreRules
  place : ∀ i, index.rule? i = index.rules[i]?
  beyond : ∀ i, index.rule? i = none ↔ index.size ≤ i

/-- The rules and the functions never disagree, whatever is registered, and however often. -/
theorem registered_records (history : List Definition) :
    (registered history).Records history where
  names := by
    rw [List.nodup_iff_pairwise_ne, List.pairwise_map]
    exact (pairwise_custom_registered history).imp fun after => after.ne
  order := pairwise_custom_registered history
  complete := by
    intro d member
    obtain ⟨e, latest, name⟩ := exists_latest member
    exact ⟨e.rule, mem_custom_registered.mpr ⟨e, latest, rfl⟩, congrArg Name.text name⟩
  current := by
    intro r member
    obtain ⟨d, latest, rfl⟩ := mem_custom_registered.mp member
    refine ⟨d, ?_, latest, rfl, rfl, rfl⟩
    have name : Name.ofText d.rule.name = d.name := d.name.ofText_text
    unfold Registry.get?
    rw [name, find?_functions_registered, latest.find?, Option.some_or]
  entries := by
    intro d
    exact mem_definitions_registered
  rules := by
    unfold rules
    rw [core_registered]
  place := (registered history).rule?_eq
  beyond := by
    intro i
    rw [rule?_eq, size_eq, List.getElem?_eq_none_iff]

/-- A built-in function is registered over, then a core construct, and then the first name again
    with parameters: the rules and the function found follow. -/
theorem registered_records_again :
    let first (values : List Value) : Outcome Value := .ok (values.headD .null)
    let again : Definition := ⟨.mk "round", .parameters ["x"], first⟩
    let history := [⟨.mk "round", .between 0 none, first⟩, ⟨.mk "if", .between 1 (some 3), first⟩,
      again]
    (registered history).Records history ∧
      (registered history).custom.map Rule.name = ["round", "if"] ∧
      ((registered history).functions.get? "ROUND").map Definition.pattern =
        some again.pattern := by
  intro first again history
  refine ⟨registered_records history, rfl, ?_⟩
  have name : Name.ofText "ROUND" = again.name := by decide +kernel
  unfold Registry.get?
  rw [name, find?_functions_registered]
  rfl

end RuleIndex

end Formulary
