import Mathlib.Data.List.Forall2
import Formulary.Proofs.Laziness
import Formulary.Proofs.Parts

/-!
Calls of functions. Several rules match calls: those of registered functions, those for rounding,
and the general one. Calls among the arguments may be answered first, where they stand. Whichever
rule it is, a call gives what the latest definition of its name gives for the arguments' values.
-/
namespace Formulary

/-! Arguments with commas between -/

inductive Separated : List (List Token) → List Token → Prop where
  | none : Separated [] []
  | last (span : List Token) : Separated [span] span
  | cons {span next : List Token} {others : List (List Token)} {comma : Token}
      {rest : List Token} : comma.content = .symbol (.grouping .comma) →
      Separated (next :: others) rest →
      Separated (span :: next :: others) (span ++ comma :: rest)

namespace Separated

variable {arguments : List (List Token)} {inner : List Token}

theorem balanced (separated : Separated arguments inner)
    (each : ∀ span ∈ arguments, IsArgument span) : endDepth? 0 inner = some 0 := by
  induction separated with
  | none => rfl
  | last span => exact (each span List.mem_cons_self).balanced
  | @cons span next others comma rest isComma _ ih =>
    have later := ih fun other member => each other (List.mem_cons_of_mem span member)
    have through := depthAfter?_comma (Token.isGrouping_of_content isComma) 0
    rw [endDepth?_append, (each span List.mem_cons_self).balanced, Option.bind_some, endDepth?,
      through]
    exact later

theorem pieces (separated : Separated arguments inner)
    (each : ∀ span ∈ arguments, IsArgument span) (some : arguments ≠ []) :
    inner ≠ [] ∧ pieces 0 inner = arguments := by
  induction separated with
  | none => exact absurd rfl some
  | last span =>
    have argument := each span List.mem_cons_self
    exact ⟨argument.nonempty, (pieces_of_freeDepth? argument.freeDepth?).1⟩
  | @cons span next others comma rest isComma _ ih =>
    have later := ih (fun other member => each other (List.mem_cons_of_mem span member))
      (List.cons_ne_nil next others)
    have argument := each span List.mem_cons_self
    refine ⟨by simp, ?_⟩
    rw [(pieces_of_freeDepth? argument.freeDepth?).2 _ _ (Token.isGrouping_of_content isComma),
      later.2]

theorem splitArguments (separated : Separated arguments inner)
    (each : ∀ span ∈ arguments, IsArgument span) : splitArguments inner = arguments := by
  by_cases none : arguments = []
  · subst none
    cases separated
    rfl
  · obtain ⟨nonempty, same⟩ := separated.pieces each none
    unfold Formulary.splitArguments
    rw [if_neg (by simpa using nonempty), same]

theorem locate (separated : Separated arguments inner) {place : Nat}
    (inside : place < inner.length) :
    (∃ left comma right, inner = left ++ comma :: right ∧ left.length = place ∧
      comma.content = .symbol (.grouping .comma)) ∨
    ∃ earlier span later left right, arguments = earlier ++ span :: later ∧
      inner = left ++ (span ++ right) ∧ left.length ≤ place ∧
      place < left.length + span.length ∧
      (∀ t ∈ right.head?, t.content = .symbol (.grouping .comma)) ∧
      ∀ other, Separated (earlier ++ other :: later) (left ++ (other ++ right)) := by
  induction separated generalizing place with
  | none => simp at inside
  | last span =>
    refine .inr ⟨[], span, [], [], [], rfl, by simp, by simp, by simpa using inside, by simp, ?_⟩
    intro other
    simpa using last other
  | @cons span next others comma rest isComma separated ih =>
    rcases Nat.lt_trichotomy place span.length with before | here | behind
    · refine .inr ⟨[], span, next :: others, [], comma :: rest, rfl, rfl, by simp,
        by simpa using before, by simpa using isComma, fun other => cons isComma separated⟩
    · exact .inl ⟨span, comma, rest, rfl, here.symm, isComma⟩
    · obtain ⟨further, rfl⟩ := Nat.exists_eq_add_of_lt behind
      have within : further < rest.length := by
        simp only [List.length_append, List.length_cons] at inside
        omega
      rcases ih within with ⟨left, mark, right, rfl, rfl, isMark⟩ |
        ⟨earlier, part, later, left, right, split, rfl, low, high, stops, put⟩
      · refine .inl ⟨span ++ comma :: left, mark, right, by simp, ?_, isMark⟩
        simp only [List.length_append, List.length_cons]
        omega
      · refine .inr ⟨span :: earlier, part, later, span ++ comma :: left, right, by simp [split],
          by simp, ?_, ?_, stops, fun other => ?_⟩
        · simp only [List.length_append, List.length_cons]
          omega
        · simp only [List.length_append, List.length_cons]
          omega
        · have rest := put other
          obtain ⟨first, behind, same⟩ : ∃ first behind, earlier ++ other :: later =
              first :: behind := by
            cases earlier with
            | nil => exact ⟨other, later, rfl⟩
            | cons first earlier => exact ⟨first, _, rfl⟩
          rw [same] at rest
          have whole : Separated (span :: first :: behind) _ := cons isComma rest
          simpa [same] using whole

end Separated

theorem Separated.take?_arguments {arguments : List (List Token)} {inner : List Token}
    (separated : Separated arguments inner) (each : ∀ span ∈ arguments, IsArgument span)
    {stop : Token} (stops : stop.isClosing = true) (atStart : Bool) (more : List Token) :
    Matcher.arguments.take? atStart (inner ++ stop :: more) = some inner.length := by
  have run := runLength_of_endDepth? (separated.balanced each) stops more
  have nonempty : arguments.all (!·.isEmpty) = true := by
    rw [List.all_eq_true]
    intro span member
    simp [(each span member).nonempty]
  simp [Matcher.take?, Matcher.arguments, argumentsLength?_eq, run, separated.splitArguments each,
    nonempty]

theorem Pattern.take?_closing {closing : Token}
    (closes : closing.content = .symbol (.grouping .closing)) (atStart : Bool) (more : List Token) :
    take? [.closing] atStart (closing :: more) = some 1 :=
  take?_cons_of_accepts ⟨_, _, rfl⟩ rfl ((Matcher.accepts_grouping closes).mpr rfl) [] atStart more

inductive SpellsCall (name : Name) (arguments : List (List Token)) : List Token → Prop where
  | mk {head opening closing : Token} {inner : List Token} :
      head.content = .symbol (.function name) →
      opening.content = .symbol (.grouping .callOpening) →
      closing.content = .symbol (.grouping .closing) → Separated arguments inner →
      SpellsCall name arguments (head :: opening :: (inner ++ [closing]))

/-- A token of a call that is neither its name nor one of its brackets and commas belongs to an
    argument, in whose place any other can stand. -/
theorem SpellsCall.locate {name : Name} {arguments : List (List Token)} {tokens : List Token}
    (call : SpellsCall name arguments tokens) {lead : List Token} {t : Token} {rest : List Token}
    (split : tokens = lead ++ t :: rest) (behind : lead ≠ [])
    (other : ∀ mark, t.content = .symbol (.grouping mark) → mark = .opening) :
    ∃ earlier span later left stop right, arguments = earlier ++ span :: later ∧
      tokens = left ++ (span ++ stop :: right) ∧ Matcher.callOpening.accepts stop = false ∧
      left.length ≤ lead.length ∧ lead.length < left.length + span.length ∧
      ∀ other, SpellsCall name (earlier ++ other :: later) (left ++ (other ++ stop :: right)) := by
  obtain ⟨isName, opens, closes, separated⟩ := call
  rename_i head opening closing inner
  match lead, behind with
  | [_], _ =>
    obtain ⟨_, rfl, _⟩ : head = _ ∧ opening = t ∧ inner ++ [closing] = rest := by simpa using split
    exact absurd (other _ opens) (by decide)
  | first :: second :: lead, _ =>
    obtain ⟨rfl, rfl, tail⟩ : head = first ∧ opening = second ∧
        inner ++ [closing] = lead ++ t :: rest := by simpa using split
    have here : (inner ++ [closing])[lead.length]? = some t := by simp [tail]
    have within : lead.length < inner.length := by
      refine Nat.lt_of_not_le fun past => ?_
      rw [List.getElem?_append_right past, List.getElem?_singleton] at here
      split_ifs at here
      obtain rfl := Option.some.inj here
      exact absurd (other _ closes) (by decide)
    rw [List.getElem?_append_left within] at here
    rcases separated.locate within with ⟨left, comma, right, rfl, size, isComma⟩ |
      ⟨earlier, span, later, left, right, rfl, rfl, low, high, stops, put⟩
    · obtain rfl : comma = t := by simpa [← size] using here
      exact absurd (other _ isComma) (by decide)
    · obtain ⟨stop, more, same, content⟩ : ∃ stop more, right ++ [closing] = stop :: more ∧
          Matcher.callOpening.accepts stop = false := by
        cases right with
        | nil => exact ⟨closing, [], rfl, Matcher.rejects_grouping closes (by decide)⟩
        | cons stop more =>
          exact ⟨stop, more ++ [closing], rfl,
            Matcher.rejects_grouping (stops stop rfl) (by decide)⟩
      refine ⟨earlier, span, later, head :: opening :: left, stop, more, rfl, by simp [← same],
        content, by simpa using low, ?_, fun other => ?_⟩
      · simp only [List.length_cons]
        omega
      · have whole := SpellsCall.mk isName opens closes (put other)
        rw [← same]
        simpa using whole

/-! Rules that match a call -/

/-- The general rule matches every call, so that the rule that comes first is one for calls. -/
theorem SpellsCall.matchAt? {name : Name} {arguments : List (List Token)} {tokens : List Token}
    (call : SpellsCall name arguments tokens) (each : ∀ span ∈ arguments, IsArgument span) :
    Pattern.matchAt? [.ofCategory .function, .callOpening, .arguments, .closing] tokens 0 =
      some tokens.length := by
  obtain ⟨isName, opens, closes, separated⟩ := call
  rename_i head opening closing inner
  have isClosing := Token.isGrouping_of_content closes
  have isHead : (Matcher.ofCategory .function).accepts head = true :=
    Matcher.accepts_of_category (Token.category_of_symbol isName)
  have isOpening : Matcher.callOpening.accepts opening = true :=
    (Matcher.accepts_grouping opens).mpr rfl
  have taken := separated.take?_arguments each isClosing false []
  unfold Pattern.matchAt?
  rw [List.drop_zero, Pattern.take?_cons_of_accepts ⟨_, _, rfl⟩ rfl isHead,
    Pattern.take?_cons_of_accepts ⟨_, _, rfl⟩ rfl isOpening, Pattern.take?, taken]
  simp only [Option.bind_eq_bind, Option.bind_some, List.drop_left, Pattern.take?_closing closes,
    Option.pure_def, Option.map_some, List.length_cons, List.length_append, List.length_nil,
    Option.some.injEq]
  omega

theorem Enclosing.whole {head opening closing : Token} {inner : List Token}
    (call : IsCall head opening inner closing) {n : Nat}
    (enclosing : Enclosing ((head :: opening :: (inner ++ [closing])).take n)) :
    inner.length + 3 ≤ n := by
  generalize taken : (head :: opening :: (inner ++ [closing])).take n = matched at enclosing
  cases enclosing with
  | @group first last contents opens _ _ =>
    have several := congrArg List.length taken
    simp only [List.length_take, List.length_cons, List.length_append] at several
    obtain ⟨k, rfl⟩ : ∃ k, n = k + 1 := ⟨n - 1, by omega⟩
    obtain ⟨rfl, _⟩ := List.cons.inj taken
    have other : head.category ≠ .grouping := by
      rw [call.function]
      decide
    simp [Token.isOpening, Token.not_isGrouping other] at opens
  | @call name first last contents inside =>
    have several := congrArg List.length taken
    simp only [List.length_take, List.length_cons, List.length_append] at several
    obtain ⟨k, rfl⟩ : ∃ k, n = k + 2 := ⟨n - 2, by omega⟩
    have tail : (inner ++ [closing]).take k = contents ++ [last] :=
      (List.cons.inj (List.cons.inj taken).2).2
    by_cases short : k ≤ inner.length
    · -- the bracket that closes the match would close before the inner tokens end
      rw [List.take_append_of_le_length short] at tail
      have ends : endDepth? 0 (inner.take k) = none := by
        rw [tail, endDepth?_append, inside.balanced, Option.bind_some, endDepth?,
          depthAfter?_zero_of_isClosing inside.closes]
        rfl
      have whole := endDepth?_append 0 (inner.take k) (inner.drop k)
      rw [List.take_append_drop, call.balanced, ends] at whole
      cases whole
    · omega

theorem SpellsCall.isCall {name : Name} {arguments : List (List Token)} {head opening : Token}
    {inner : List Token} {closing : Token}
    (isName : head.content = .symbol (.function name))
    (opens : opening.content = .symbol (.grouping .callOpening))
    (closes : closing.content = .symbol (.grouping .closing))
    (separated : Separated arguments inner) (each : ∀ span ∈ arguments, IsArgument span) :
    IsCall head opening inner closing where
  function := Token.category_of_symbol isName
  opens := by simp [Token.isOpening, Token.isGrouping_of_content opens]
  closes := Token.isGrouping_of_content closes
  balanced := separated.balanced each

/-! Definitions by name -/

theorem Registry.find?_filter_name (definitions : List Definition) {name other : Name}
    (apart : other ≠ name) :
    (definitions.filter (·.name != other)).find? (·.name == name) =
      definitions.find? (·.name == name) := by
  induction definitions with
  | nil => rfl
  | cons d definitions ih =>
    by_cases same : d.name = other
    · have differs : d.name ≠ name := same ▸ apart
      rw [List.filter_cons_of_neg (by simp [same]), ih,
        List.find?_cons_of_neg (by simpa using differs)]
    · rw [List.filter_cons_of_pos (by simpa using same), List.find?_cons, List.find?_cons, ih]

theorem Registry.find?_register (registry : Registry) (d : Definition) (name : Name) :
    (registry.register d).find? name = if d.name = name then some d else registry.find? name := by
  unfold Registry.register Registry.find?
  by_cases same : d.name = name
  · simp [same]
  · rw [if_neg same, List.find?_cons_of_neg (by simpa using same),
      Registry.find?_filter_name _ same]

namespace RuleBook

variable {book : RuleBook}

section

variable {head : Token} {name : Name} (isName : head.content = .symbol (.function name))
  {matched : List Token} (first : matched.head? = some head)

include isName first

theorem plan_of_calls {action : Action}
    (calls : action = .call ∨ action = .round ∨ action = .roundInteger) :
    action.plan matched = .request (.call name (splitArguments (interior 2 matched))) := by
  have symbol := Token.symbol?_of_symbol isName
  rcases calls with rfl | rfl | rfl <;> simp [Action.plan, first, symbol]

theorem plan_core_call {index : Nat} {rule : Rule} (known : coreRules[index]? = some rule)
    (early : index < 6) (others : name.text ≠ "if" ∧ name.text ≠ "not") {atStart : Bool}
    {rest : List Token} {n : Nat} (taken : rule.pattern.take? atStart (head :: rest) = some n) :
    rule.action.plan matched = .request (.call name (splitArguments (interior 2 matched))) := by
  have named {other : Name} {pattern : Pattern}
      (taken : Pattern.take? (.function other :: pattern) atStart (head :: rest) = some n) :
      name.text = other.text := by
    obtain ⟨_, _, here, _⟩ := Pattern.take?_cons taken
    obtain ⟨_, _, same, accepted, _⟩ := Matcher.take?_one rfl here
    cases same
    exact congrArg Name.text ((Matcher.accepts_function isName).mp accepted)
  match index, known, early with
  | 0, rfl, _ => exact absurd (named taken) others.1
  | 1, rfl, _ => exact plan_of_calls isName first (.inr (.inl rfl))
  | 2, rfl, _ | 3, rfl, _ => exact plan_of_calls isName first (.inr (.inr rfl))
  | 4, rfl, _ => exact absurd (named taken) others.2
  | 5, rfl, _ => exact plan_of_calls isName first (.inl rfl)

theorem plan_call {index : Nat} {rule : Rule} (known : book.rules[index]? = some rule)
    (early : index < book.custom.length + 6) (others : name.text ≠ "if" ∧ name.text ≠ "not")
    {atStart : Bool} {rest : List Token} {n : Nat}
    (taken : rule.pattern.take? atStart (head :: rest) = some n) :
    rule.action.plan matched = .request (.call name (splitArguments (interior 2 matched))) := by
  obtain ⟨d, _, rfl, _⟩ | ⟨place, rfl, here⟩ := rule_cases known
  · exact plan_of_calls isName first (.inl rfl)
  · exact plan_core_call isName first here (by omega) others taken

end

/-! The values of the arguments -/

theorem mapM_replace {f : List Token → Outcome Value} {earlier later : List (List Token)}
    {span other : List Token} (same : f span = f other) :
    (earlier ++ span :: later).mapM f = (earlier ++ other :: later).mapM f := by
  simp only [List.mapM_append, List.mapM_cons, same]

theorem mapM_fails {f : List Token → Outcome Value} {spans : List (List Token)}
    {span : List Token} (member : span ∈ spans) {e : FormulaError} (failed : f span = .error e) :
    ∃ e', spans.mapM f = .error e' := by
  induction spans with
  | nil => cases member
  | cons first spans ih =>
    rw [List.mapM_cons]
    cases here : f first with
    | error other => exact ⟨other, rfl⟩
    | ok v =>
      rcases List.mem_cons.mp member with rfl | later
      · rw [failed] at here
        cases here
      · obtain ⟨e', rest⟩ := ih later
        exact ⟨e', by rw [rest]; rfl⟩

theorem rewrite_call_whole {name : Name} (others : name.text ≠ "if" ∧ name.text ≠ "not")
    {arguments : List (List Token)} {tokens : List Token} (call : SpellsCall name arguments tokens)
    (each : ∀ span ∈ arguments, IsArgument span) {m : RuleMatch}
    (found : book.find? tokens = some m) (early : m.index < book.custom.length + 6)
    (start : m.stretch.start = 0) : book.rewrite tokens m =
      (arguments.mapM book.evaluate >>= book.call name).map fun v => [.data v] := by
  obtain ⟨isName, opens, closes, separated⟩ := call
  rename_i head opening closing inner
  have isCall := SpellsCall.isCall isName opens closes separated each
  have first := firstMatch_of_find? found
  obtain ⟨index, rule, begin, n⟩ := m
  dsimp only at early start
  subst start
  have known : book.rules[index]? = some rule := first.known
  have bracketed := bracketed_of_index (by omega) known
  have taken := first.here
  have long := Enclosing.whole isCall (bracketed.pattern.enclosing taken)
  dsimp only at taken long
  have size : (head :: opening :: (inner ++ [closing])).length ≤ n := by
    simp only [List.length_cons, List.length_append, List.length_nil]
    omega
  have selected : Stretch.select ⟨0, n⟩ (head :: opening :: (inner ++ [closing])) =
      head :: opening :: (inner ++ [closing]) := by
    unfold Stretch.select
    rw [List.drop_zero, List.take_of_length_le size]
  have spliced (replaced : List Token) :
      Stretch.splice ⟨0, n⟩ (head :: opening :: (inner ++ [closing])) replaced = replaced := by
    unfold Stretch.splice
    rw [Nat.zero_add, List.drop_of_length_le size]
    simp
  have within : interior 2 (head :: opening :: (inner ++ [closing])) = inner := by simp [interior]
  have plan : rule.action.plan (head :: opening :: (inner ++ [closing])) =
      .request (.call name arguments) := by
    rw [plan_call isName rfl known early others taken, within, separated.splitArguments each]
  unfold rewrite
  dsimp only
  rw [selected, plan]
  simp only [replacement, Request.result, spliced]
  cases arguments.mapM book.evaluate >>= book.call name <;> rfl

theorem argument_of_start {name : Name} {arguments : List (List Token)} {tokens : List Token}
    (call : SpellsCall name arguments tokens) {m : RuleMatch} (found : book.find? tokens = some m)
    (early : m.index < book.custom.length + 7) (start : m.stretch.start ≠ 0) :
    ∃ earlier span later left stop right, arguments = earlier ++ span :: later ∧
      tokens = left ++ (span ++ stop :: right) ∧ Matcher.callOpening.accepts stop = false ∧
      left.length ≤ m.stretch.start ∧ m.stretch.start < left.length + span.length ∧
      ∀ other, SpellsCall name (earlier ++ other :: later) (left ++ (other ++ stop :: right)) := by
  obtain ⟨several, inside⟩ := length_of_find? found early
  have short : m.stretch.start < tokens.length := by omega
  have split := tokens.take_append_drop m.stretch.start
  rw [List.drop_eq_getElem_cons short] at split
  have size : (tokens.take m.stretch.start).length = m.stretch.start :=
    List.length_take_of_le (Nat.le_of_lt short)
  have behind : tokens.take m.stretch.start ≠ [] := by
    rw [ne_eq, ← List.length_eq_zero_iff, size]
    exact start
  have located := call.locate split.symm behind fun mark content =>
    Decidable.byContradiction fun other =>
      start_ne_of_grouping found early split.symm content other size.symm
  rwa [size] at located

theorem evaluate_arguments (book : RuleBook) {name : Name}
    (others : name.text ≠ "if" ∧ name.text ≠ "not") {arguments : List (List Token)}
    {tokens : List Token} (call : SpellsCall name arguments tokens)
    (each : ∀ span ∈ arguments, IsArgument span) :
    (∀ values, arguments.mapM book.evaluate = .ok values →
      book.evaluate tokens = book.call name values) ∧
    ∀ e, arguments.mapM book.evaluate = .error e → ∃ e', book.evaluate tokens = .error e' := by
  -- By induction on the weight: a step among the arguments leaves their values as they are, or one
  -- of them fails.
  induction size : weight tokens using Nat.strongRecOn generalizing arguments tokens with
  | ind n ih =>
    have known : book.rules[book.custom.length + 5]? = some ⟨"function",
        [.ofCategory .function, .callOpening, .arguments, .closing], .call⟩ := by
      simp [rules, coreRules]
    obtain ⟨m, found, early⟩ := find?_of_matchAt? known (call.matchAt? each)
    have inside := length_of_find? found (by omega)
    have step := book.evaluate_step (show ¬ tokens.length ≤ 1 by omega) found
    by_cases start : m.stretch.start = 0
    · rw [rewrite_call_whole others call each found (by omega) start] at step
      constructor
      · intro values done
        rw [done] at step
        have called : (.ok values >>= book.call name) = book.call name values := rfl
        rw [step, called]
        cases book.call name values with
        | error e => rfl
        | ok v => exact book.evaluate_short (Nat.le_refl 1)
      · intro e failed
        rw [failed] at step
        exact ⟨e, step⟩
    · obtain ⟨earlier, span, later, left, stop, right, rfl, rfl, apart, behind, before, put⟩ :=
        argument_of_start call found (by omega) start
      have argument := each span (by simp)
      rcases steps_within found (by omega) argument.balanced apart behind before with
        ⟨e, fails, failed⟩ | ⟨after, same, some, free, rewritten⟩
      · obtain ⟨e', stops⟩ := mapM_fails (f := book.evaluate)
          (List.mem_append_right earlier (List.mem_cons_self (a := span) (l := later))) fails
        rw [failed] at step
        refine ⟨fun values done => ?_, fun _ _ => ⟨e, step⟩⟩
        rw [stops] at done
        cases done
      · rw [rewritten] at step
        have isArgument : ∀ other ∈ earlier ++ after :: later, IsArgument other := by
          intro other member
          rcases List.mem_append.mp member with inFront | behind
          · exact each other (List.mem_append_left _ inFront)
          · rcases List.mem_cons.mp behind with rfl | behind
            · exact isArgument_iff.mpr ⟨some, (free 0).trans argument.freeDepth?⟩
            · exact each other (List.mem_append_right _ (List.mem_cons_of_mem _ behind))
        have lighter := size ▸ rewrite_lighter found rewritten
        rw [step, mapM_replace same]
        exact ih _ lighter (put after) isArgument rfl

/-! Registered functions -/

def registered (history : List Definition) : RuleBook := history.foldl register core

def latest? (history : List Definition) (name : Name) : Option Definition :=
  (history.reverse ++ Registry.builtin.definitions).find? (·.name == name)

theorem function?_text (book : RuleBook) (name : Name) :
    book.function? name.text = book.functions.find? name := by
  rw [function?, Registry.get?, Name.ofText_text]

theorem function?_eq (book : RuleBook) (name : Name) :
    book.function? name.text =
      (book.custom ++ Registry.builtin.definitions).find? (·.name == name) := by
  obtain ⟨custom⟩ := book
  rw [function?_text]
  induction custom with
  | nil => rfl
  | cons d custom ih =>
    have one : (functions ⟨d :: custom⟩).find? name =
        if d.name = name then some d else (functions ⟨custom⟩).find? name :=
      Registry.find?_register _ d name
    rw [one, ih]
    by_cases same : d.name = name
    · simp [same]
    · rw [if_neg same, List.cons_append, List.find?_cons_of_neg (by simpa using same)]

theorem function?_register (book : RuleBook) (d : Definition) (name : Name) :
    (book.register d).function? name.text =
      if d.name = name then some d else book.function? name.text := by
  rw [function?_eq, function?_eq]
  unfold register
  by_cases same : d.name = name
  · simp [same]
  · rw [if_neg same, List.cons_append, List.find?_cons_of_neg (by simpa using same),
      List.find?_append, List.find?_append, Registry.find?_filter_name _ same]

theorem function?_foldl (history : List Definition) (book : RuleBook) (name : Name) :
    (history.foldl register book).function? name.text =
      (history.reverse.find? (·.name == name)).or (book.function? name.text) := by
  induction history generalizing book with
  | nil => rfl
  | cons d history ih =>
    rw [List.foldl_cons, ih, function?_register, List.reverse_cons, List.find?_append,
      Option.or_assoc]
    by_cases same : d.name = name <;> simp [same]

theorem function?_registered (history : List Definition) (name : Name) :
    (registered history).function? name.text = latest? history name := by
  unfold registered latest?
  rw [function?_foldl, List.find?_append, function?_text]
  rfl

theorem mapM_eq_ok {f : List Token → Outcome Value} {spans : List (List Token)}
    {values : List Value} (each : List.Forall₂ (fun span v => f span = .ok v) spans values) :
    spans.mapM f = .ok values := by
  induction each with
  | nil => rfl
  | cons here _ ih =>
    rw [List.mapM_cons, here, ih]
    rfl

/-- Whichever rule matches a call, it calls the latest definition of the name with the values of
    the arguments, and fails if one of them does. -/
theorem evaluate_call (history : List Definition) {name : Name}
    (others : name.text ≠ "if" ∧ name.text ≠ "not") {arguments : List (List Token)}
    {tokens : List Token} (call : SpellsCall name arguments tokens)
    (each : ∀ span ∈ arguments, IsArgument span) :
    let book := registered history
    (∀ values, List.Forall₂ (fun span v => book.evaluate span = .ok v) arguments values →
      book.evaluate tokens =
        match latest? history name with
        | some d => d.call values
        | none => .error (.unknownFunction (Text.upper name.text))) ∧
    ∀ span ∈ arguments, ∀ e, book.evaluate span = .error e →
      ∃ e', book.evaluate tokens = .error e' := by
  intro book
  have evaluated := book.evaluate_arguments others call each
  constructor
  · intro values done
    rw [evaluated.1 values (mapM_eq_ok done), ← function?_registered]
    unfold RuleBook.call
    cases book.function? name.text with
    | some d => rfl
    | none => simp [others]
  · intro span member e failed
    obtain ⟨e', fails⟩ := mapM_fails member failed
    exact evaluated.2 e' fails

/-- `round(2)`, after a function of two parameters has been registered under that name: the rule
    for rounding matches, and calls it. -/
theorem evaluate_call_round :
    let first (values : List Value) : Outcome Value := .ok (values.headD .null)
    let history := [Definition.mk (.mk "round") (.parameters ["x", "y"]) first]
    let argument := [Token.data (.integer 2)]
    let tokens := ⟨.symbol (.function (.mk "round")), 0⟩ :: Token.grouping .callOpening ::
      (argument ++ [.grouping .closing])
    SpellsCall (.mk "round") [argument] tokens ∧ IsArgument argument ∧
      (registered history).evaluate argument = .ok (.integer 2) ∧
      (registered history).evaluate tokens =
        .error (.argumentCount (Text.upper "round") (.exactly 2) 1) := by
  intro first history argument tokens
  have call : SpellsCall (.mk "round") [argument] tokens := .mk rfl rfl rfl (.last argument)
  have each : IsArgument argument := by decide
  have value : (registered history).evaluate argument = .ok (.integer 2) :=
    evaluate_short _ (Nat.le_refl 1)
  have others : "round" ≠ "if" ∧ "round" ≠ "not" := by decide
  have evaluated := evaluate_call history others call fun span member =>
    List.mem_singleton.mp member ▸ each
  exact ⟨call, each, value, evaluated.1 [.integer 2] (.cons value .nil)⟩

end RuleBook

end Formulary
