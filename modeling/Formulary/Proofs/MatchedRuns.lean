import Formulary.Proofs.Groups
import Formulary.Proofs.Spans

/-!
What the matchers of a call take, and what its action finds between the brackets. The match stops
where a bracket closes that it has not opened; splitting only sees the tokens between. Both cut at
the same commas, so that the action has exactly the runs that were matched.
-/
namespace Formulary

/-! The runs that matchers take -/

def Matcher.spans (m : Matcher) (taken : Nat) (tokens : List Token) : List (List Token) :=
  match m.shape with
  | .one _ _ => []
  | .run | .optionalRun => [tokens.take taken]
  | .arguments => if taken = 0 then [] else (turns tokens taken 0).map (·.select tokens)

namespace Pattern

def spans? : Pattern → (atStart : Bool) → List Token → Option (List (List Token))
  | [], _, _ => some []
  | m :: rest, atStart, tokens => do
    let taken ← m.take? atStart tokens
    let more ← spans? rest (atStart && taken == 0) (tokens.drop taken)
    return m.spans taken tokens ++ more

def spansAt? (pattern : Pattern) (tokens : List Token) (start : Nat) :
    Option (List (List Token)) :=
  pattern.spans? (start == 0) (tokens.drop start)

theorem spans?_cons {m : Matcher} {atStart : Bool} {tokens : List Token} {first : Nat}
    (taken : m.take? atStart tokens = some first) (rest : Pattern) :
    spans? (m :: rest) atStart tokens =
      (spans? rest (atStart && first == 0) (tokens.drop first)).map
        (m.spans first tokens ++ ·) := by
  simp only [spans?, taken, Option.bind_eq_bind, Option.bind_some]
  cases spans? rest (atStart && first == 0) (tokens.drop first) <;> rfl

theorem spans?_one {m : Matcher} (single : m.IsSingle) {atStart : Bool} {t : Token}
    {tokens : List Token} (taken : m.take? atStart (t :: tokens) = some 1) (rest : Pattern) :
    spans? (m :: rest) atStart (t :: tokens) = spans? rest false tokens := by
  obtain ⟨categories, symbols, shape⟩ := single
  have nothing : m.spans 1 (t :: tokens) = [] := by simp [Matcher.spans, shape]
  have later : (atStart && 1 == 0) = false := Bool.and_false _
  rw [spans?_cons taken, nothing, later, List.drop_one, List.tail_cons]
  exact Option.map_id'

end Pattern

theorem turns_select {tokens : List Token} {stop cursor : Nat}
    (ends : cursor + runLength true 0 (tokens.drop cursor) = stop)
    (each : ∀ turn ∈ turns tokens stop cursor, turn.length ≠ 0) :
    (turns tokens stop cursor).map (·.select tokens) =
      pieces 0 ((tokens.drop cursor).take (stop - cursor)) := by
  fun_induction turns tokens stop cursor with
  | case1 cursor taken last =>
    have some : taken ≠ 0 := each _ List.mem_cons_self
    rcases turn_step ends with ⟨_, split⟩ | ⟨further, _⟩
    · rw [split]
      rfl
    · have reached := last.resolve_left some
      omega
  | case2 cursor taken goesOn ih =>
    obtain ⟨_, short⟩ := not_or.mp goesOn
    rcases turn_step ends with ⟨whole, _⟩ | ⟨further, split⟩
    · exact absurd whole short
    · rw [List.map_cons, ih further (List.forall_mem_cons.mp each).2, split]
      rfl

theorem Matcher.spans_arguments {tokens : List Token} {n : Nat}
    (taken : argumentsLength? tokens = some n) :
    arguments.spans n tokens = splitArguments (tokens.take n) := by
  have total := argumentsLength?_eq_some taken
  unfold argumentsLength? at taken
  simp only [← total] at taken
  change (if n = 0 then [] else _) = _
  split at taken
  · next nothing =>
    rw [if_pos nothing, nothing]
    rfl
  · next some =>
    -- The loop has come to its end, so that no turn was empty.
    have ends : 0 + runLength true 0 (tokens.drop 0) = n := by
      rw [Nat.zero_add, List.drop_zero, total]
    have each : ∀ turn ∈ turns tokens n 0, turn.length ≠ 0 := by
      rw [argumentsEnd?_turns] at taken
      split at taken
      · next each => exact each
      · cases taken
    have nonempty : (tokens.take n).isEmpty = false := by
      rw [total, isEmpty_take_run, ← total]
      exact beq_eq_false_iff_ne.mpr some
    rw [if_neg some, turns_select ends each, splitArguments, nonempty]
    rfl

/-! Commas -/

/-- The number of commas outside all brackets: before them, as many are closed as are opened. -/
def topCommas (tokens : List Token) : Nat :=
  (List.range tokens.length).countP fun place =>
    tokens[place]?.any Token.isComma &&
      closings (tokens.take place) == openings (tokens.take place)

theorem topCommas_append {left : List Token} (closed : closings left = openings left)
    (right : List Token) : topCommas (left ++ right) = topCommas left + topCommas right := by
  unfold topCommas
  rw [List.length_append, List.range_add, List.countP_append, List.countP_map]
  congr 1
  · refine List.countP_congr fun place inside => ?_
    have before : place < left.length := List.mem_range.mp inside
    rw [List.getElem?_append_left before, List.take_append_of_le_length (Nat.le_of_lt before)]
  · refine List.countP_congr fun place _ => ?_
    simp only [Function.comp_apply, List.getElem?_append_right (Nat.le_add_right _ place),
      Nat.add_sub_cancel_left, List.take_length_add_append, closings_append, openings_append,
      closed, Bool.and_eq_true, beq_iff_eq, Nat.add_left_cancel_iff]

theorem topCommas_comma {comma : Token} (isComma : comma.isComma = true) (behind : List Token) :
    topCommas (comma :: behind) = topCommas behind + 1 := by
  have counted := depthAfter?_count (depthAfter?_comma isComma 0)
  have closed : closings [comma] = openings [comma] := by omega
  have one : topCommas [comma] = 1 := by simp [topCommas, isComma, closings, openings]
  have whole := topCommas_append closed behind
  rw [one, Nat.add_comm 1] at whole
  exact whole

theorem IsRun.topCommas {run : List Token} (isRun : IsRun run) : topCommas run = 0 := by
  refine List.countP_eq_zero.mpr fun place inside isTop => ?_
  obtain ⟨isComma, level⟩ := Bool.and_eq_true_iff.mp isTop
  have before : place < run.length := List.mem_range.mp inside
  rw [List.getElem?_eq_getElem before] at isComma
  have split : run = run.take place ++ run[place] :: run.drop (place + 1) := by
    rw [← List.drop_eq_getElem_cons before, List.take_append_drop]
  have enclosed := isRun.enclosed _ _ _ split isComma
  rw [beq_iff_eq.mp level] at enclosed
  exact Nat.lt_irrefl _ enclosed

theorem ClosesOwn.length_pieces {run : List Token} (own : ClosesOwn run) :
    (pieces 0 run).length = topCommas run + 1 := by
  refine own.byCuts (fun run isRun => ?_) fun first comma behind isRun closed isComma _ ih => ?_
  · rw [isRun.pieces, isRun.topCommas]
    rfl
  · rw [pieces_closed isRun closed isComma, topCommas_append closed, isRun.topCommas,
      topCommas_comma isComma, List.length_cons, ih, Nat.zero_add]

/-! Calls -/

namespace Pattern

def ofCall (head : Matcher) (signature : Signature) : Pattern :=
  head :: .callOpening :: (Definition.argumentPattern signature ++ [.closing])

theorem spans?_closing {closing : Token}
    (closes : closing.content = .symbol (.grouping .closing)) (atStart : Bool)
    (more : List Token) : spans? [.closing] atStart (closing :: more) = some [] := by
  have taken : Matcher.closing.take? atStart (closing :: more) = some 1 := by
    have accepted : Matcher.closing.accepts closing = true :=
      (Matcher.accepts_grouping closes).mpr rfl
    exact if_pos accepted
  rw [spans?_one ⟨_, _, rfl⟩ taken]
  rfl

theorem spans?_run {span : List Token} (argument : IsArgument span) {stop : Token}
    (stops : stop.isComma = true ∨ stop.isClosing = true) (pattern : Pattern) (atStart : Bool)
    (more : List Token) :
    spans? (.run :: pattern) atStart (span ++ stop :: more) =
      (spans? pattern false (stop :: more)).map (span :: ·) := by
  have taken := Matcher.take?_run argument stops atStart more
  have inside : (atStart && span.length == 0) = false := by simp [argument.nonempty]
  have here : Matcher.run.spans span.length (span ++ stop :: more) = [span] :=
    congrArg (fun piece => [piece]) List.take_left
  rw [spans?_cons taken, inside, List.drop_left, here]
  rfl

theorem spans?_runs {names : List String} {arguments : List (List Token)} {inner : List Token}
    {closing : Token} (fitted : Fitted (.parameters names) arguments inner closing)
    (atStart : Bool) (more : List Token) :
    (runs names).spans? atStart (inner ++ closing :: more) = some arguments := by
  -- By induction on the arguments, a run for each.
  obtain ⟨separated, each, fits, closes⟩ := fitted
  have stops : closing.isClosing = true := Token.isGrouping_of_content closes
  induction separated generalizing names atStart with
  | none =>
    obtain rfl := List.length_eq_zero_iff.mp fits
    exact spans?_closing closes atStart more
  | last span =>
    obtain ⟨name, rfl⟩ := List.length_eq_one_iff.mp fits
    rw [runs_one, spans?_run (each span List.mem_cons_self) (.inr stops), spans?_closing closes]
    rfl
  | @cons span next others comma rest isComma separated ih =>
    match names, fits with
    | name :: following :: names, fits =>
      have argument := each span List.mem_cons_self
      have taken : Matcher.comma.take? false (comma :: (rest ++ closing :: more)) = some 1 :=
        if_pos ((Matcher.accepts_grouping isComma).mpr rfl)
      have later := ih false (fun other member => each other (List.mem_cons_of_mem span member))
        (Nat.succ.inj fits)
      rw [runs_cons, List.append_assoc, List.cons_append,
        spans?_run argument (.inl (Token.isGrouping_of_content isComma)),
        spans?_one ⟨_, _, rfl⟩ taken, later]
      rfl

theorem spans?_arguments {least : Nat} {most : Option Nat} {arguments : List (List Token)}
    {inner : List Token} {closing : Token}
    (fitted : Fitted (.between least most) arguments inner closing) (atStart : Bool)
    (more : List Token) :
    spans? [.arguments, .closing] atStart (inner ++ closing :: more) = some arguments := by
  have stops : closing.isClosing = true := Token.isGrouping_of_content fitted.closes
  have taken := fitted.separated.take?_arguments fitted.each stops atStart more
  have list : argumentsLength? (inner ++ closing :: more) = some inner.length := by
    simpa [Matcher.take?, Matcher.arguments] using taken
  rw [spans?_cons taken, Matcher.spans_arguments list, List.drop_left, List.take_left,
    fitted.separated.splitArguments fitted.each, spans?_closing fitted.closes, Option.map_some,
    List.append_nil]

end Pattern

def insides (tokens : List Token) (start n : Nat) : List Token :=
  interior 2 ((⟨start, n⟩ : Stretch).select tokens)

def Signature.asked? : Signature → Option Nat
  | .between _ _ => none
  | .parameters names => some names.length

/-- As many spans as were asked for. If any number will do there is none where nothing stands, and
    else one more than commas outside all brackets, and none of them is empty. -/
def Counted (asked? : Option Nat) (inner : List Token) : Prop :=
  match asked? with
  | some count => (splitArguments inner).length = count
  | none => (splitArguments inner).length = (if inner = [] then 0 else topCommas inner + 1) ∧
      ∀ span ∈ splitArguments inner, span ≠ []

/-- The spans between the brackets of a match are the runs that its matchers took. -/
structure SplitsAlike (pattern : Pattern) (asked? : Option Nat) (tokens : List Token)
    (start n : Nat) : Prop where
  runs : pattern.spansAt? tokens start = some (splitArguments (insides tokens start n))
  size : (insides tokens start n).length + 3 = n
  counted : Counted asked? (insides tokens start n)

theorem Fitted.counted {signature : Signature} {arguments : List (List Token)}
    {inner : List Token} {closing : Token} (fitted : Fitted signature arguments inner closing) :
    Counted signature.asked? inner := by
  have split := fitted.separated.splitArguments fitted.each
  cases signature with
  | parameters names =>
    change (splitArguments inner).length = names.length
    rw [split]
    exact fitted.fits.symm
  | between least most =>
    refine ⟨?_, fun span member => ?_⟩
    · by_cases nothing : inner = []
      · rw [if_pos nothing, nothing]
        rfl
      · have own : ClosesOwn inner :=
          closesOwn_iff.mpr ⟨0, fitted.separated.balanced fitted.each⟩
        rw [if_neg nothing, splitArguments, if_neg (by simpa using nothing), own.length_pieces]
    · rw [split] at member
      exact (fitted.each span member).nonempty

theorem Pattern.ofCall_splits {head : Matcher} (single : head.IsSingle) {signature : Signature}
    {tokens : List Token} {start n : Nat}
    (found : (ofCall head signature).matchAt? tokens start = some n) :
    SplitsAlike (ofCall head signature) signature.asked? tokens start n := by
  obtain ⟨_, _, shape⟩ := single
  obtain ⟨_, _, first, there, rfl⟩ := take?_cons found
  obtain ⟨name, rest, begins, _, rfl⟩ := Matcher.take?_one shape first
  have later : (start == 0 && 1 == 0) = false := Bool.and_false _
  rw [begins, later, List.drop_one, List.tail_cons] at there
  obtain ⟨_, _, second, last, rfl⟩ := take?_cons there
  obtain ⟨opening, behind, rfl, _, rfl⟩ := Matcher.take?_one rfl second
  rw [List.drop_one, List.tail_cons] at last
  obtain ⟨arguments, inner, closing, more, rfl, rfl, fitted⟩ := Definition.fitted_of_take? last
  have split := fitted.separated.splitArguments fitted.each
  have within : insides tokens start (1 + (1 + (inner.length + 1))) = inner := by
    have whole : (⟨start, 1 + (1 + (inner.length + 1))⟩ : Stretch).select tokens =
        name :: opening :: (inner ++ [closing]) := by
      unfold Stretch.select
      rw [begins, Nat.add_comm 1, Nat.add_comm 1, List.take_succ_cons, List.take_succ_cons,
        List.take_length_add_append]
      rfl
    rw [insides, whole]
    exact interior_append [name, opening] inner closing
  have between : spans? (Definition.argumentPattern signature ++ [.closing]) false
      (inner ++ closing :: more) = some arguments := by
    cases signature with
    | between least most => exact spans?_arguments fitted false more
    | parameters names => exact spans?_runs fitted false more
  refine ⟨?_, by rw [within]; omega, by rw [within]; exact fitted.counted⟩
  rw [begins] at first
  rw [within, split, spansAt?, begins, ofCall, spans?_one ⟨_, _, shape⟩ first,
    spans?_one ⟨_, _, rfl⟩ second, between]

def callRules : List (String × Option Nat) :=
  [("if", some 3), ("not", some 1), ("round", none), ("roundup", none), ("rounddown", none),
    ("function", none)]

theorem ofCall_of_callRules {rule : Rule} (core : rule ∈ coreRules) {asked? : Option Nat}
    (named : (rule.name, asked?) ∈ callRules) : ∃ head signature, head.IsSingle ∧
      rule.pattern = Pattern.ofCall head signature ∧ signature.asked? = asked? := by
  -- The rules for calls are the first six.
  have others : ∀ rule ∈ coreRules.drop 6, rule.name ∉ callRules.map (·.1) := by decide
  have parts : rule ∈ coreRules.take 6 ++ coreRules.drop 6 := by rwa [List.take_append_drop]
  rcases List.mem_append.mp parts with call | other
  · simp only [coreRules, List.take, List.mem_cons, List.not_mem_nil, or_false] at call
    rcases call with rfl | rfl | rfl | rfl | rfl | rfl <;>
      simp only [callRules, List.mem_cons, Prod.mk.injEq, String.reduceEq, false_and, true_and,
        List.not_mem_nil, or_false, false_or] at named
    · exact ⟨_, .parameters ["", "", ""], ⟨_, _, rfl⟩, rfl, named.symm⟩
    · exact ⟨_, .between 0 none, ⟨_, _, rfl⟩, rfl, named.symm⟩
    · exact ⟨_, .between 0 none, ⟨_, _, rfl⟩, rfl, named.symm⟩
    · exact ⟨_, .between 0 none, ⟨_, _, rfl⟩, rfl, named.symm⟩
    · exact ⟨_, .parameters [""], ⟨_, _, rfl⟩, rfl, named.symm⟩
    · exact ⟨_, .between 0 none, ⟨_, _, rfl⟩, rfl, named.symm⟩
  · exact absurd (List.mem_map_of_mem named) (others rule other)

/-- Wherever a call is matched, its action finds the runs that were matched. The number of them is
    the one that the pattern asks for, so that no function is called with arguments it refuses
    after its own rule has matched. -/
theorem splits_as_matched (tokens : List Token) (start n : Nat) :
    (∀ d : Definition, d.pattern.matchAt? tokens start = some n →
      SplitsAlike d.pattern d.signature.asked? tokens start n ∧
      ∀ names, d.signature = .parameters names →
        d.checkCount (splitArguments (insides tokens start n)).length = .ok ()) ∧
    ∀ rule ∈ coreRules, ∀ asked?, (rule.name, asked?) ∈ callRules →
      rule.pattern.matchAt? tokens start = some n →
        SplitsAlike rule.pattern asked? tokens start n := by
  constructor
  · intro d found
    rw [Definition.pattern_eq] at found ⊢
    have alike := Pattern.ofCall_splits d.isSingle_name found
    refine ⟨alike, fun names kind => ?_⟩
    have counted := alike.counted
    rw [kind] at counted
    have fits : names.length = (splitArguments (insides tokens start n)).length := counted.symm
    simp [Definition.checkCount, Signature.refusal?, kind, fits]
  · intro rule core asked? named found
    obtain ⟨head, signature, single, same, rfl⟩ := ofCall_of_callRules core named
    rw [same] at found ⊢
    exact Pattern.ofCall_splits single found

/-- `1 + round(2, (3, 4))`, where the comma between the inner brackets does not count. A function
    of two parameters has the name of the core rule, and both match. -/
theorem splits_as_matched_nested :
    let d : Definition := ⟨.mk "round", .parameters ["x", "y"], fun _ => .ok .null⟩
    let rule : Rule := ⟨"round", callPattern (.mk "round") [.arguments], .round⟩
    let pair : List Token := [.grouping .opening, .data (.integer 3), .grouping .comma,
      .data (.integer 4), .grouping .closing]
    let tokens : List Token := [.data (.integer 1), .operator .add, .function "round",
      .grouping .callOpening, .data (.integer 2), .grouping .comma] ++ pair ++ [.grouping .closing]
    (d.pattern.matchAt? tokens 2 = some 10 ∧ d.signature = .parameters ["x", "y"] ∧
      rule ∈ coreRules ∧ (rule.name, none) ∈ callRules ∧
      rule.pattern.matchAt? tokens 2 = some 10) ∧
    splitArguments (insides tokens 2 10) = [[.data (.integer 2)], pair] ∧
      SplitsAlike d.pattern (some 2) tokens 2 10 ∧ d.checkCount 2 = .ok () ∧
      SplitsAlike rule.pattern none tokens 2 10 := by
  intro d rule pair tokens
  have taken : d.pattern.matchAt? tokens 2 = some 10 := by cbv
  have core : rule ∈ coreRules := .tail _ (.head _)
  have named : (rule.name, none) ∈ callRules := by decide
  have takenToo : rule.pattern.matchAt? tokens 2 = some 10 := by cbv
  have split : splitArguments (insides tokens 2 10) = [[.data (.integer 2)], pair] := rfl
  have alike := splits_as_matched tokens 2 10
  obtain ⟨own, fits⟩ := alike.1 d taken
  have counted := fits ["x", "y"] rfl
  rw [split] at counted
  exact ⟨⟨taken, rfl, core, named, takenToo⟩, split, own, counted,
    alike.2 rule core none named takenToo⟩

end Formulary
