import Formulary.Proofs.Runs

/-!
What the pattern of a registered function matches: calls by its name, spelled out, whose arguments
stand between commas. If the function has parameters, there is an argument for each.
-/
namespace Formulary

/-! Single tokens -/

theorem Matcher.content_of_accepts {m : Matcher} {symbol : Symbol} (asks : m.symbols = [symbol])
    {t : Token} (accepted : m.accepts t = true) : t.content = .symbol symbol := by
  obtain ⟨other, member, same⟩ := symbol_mem_of_accepts accepted (by simp [asks])
  rw [asks, List.mem_singleton] at member
  exact Token.content_of_symbol? (member ▸ same)

/-! Runs -/

theorem Pattern.argument_of_take? {pattern : Pattern} (headed : pattern.Headed) {atStart : Bool}
    {tokens : List Token} {n : Nat} (taken : take? (.run :: pattern) atStart tokens = some n) :
    ∃ span rest others, tokens = span ++ rest ∧ IsArgument span ∧
      pattern.take? false rest = some others ∧ n = span.length + others := by
  obtain ⟨first, others, here, there, rfl⟩ := take?_cons taken
  simp only [Matcher.take?, Matcher.run, Bool.false_and, Bool.false_eq_true, if_false] at here
  split at here
  · cases here
  · next some =>
    obtain rfl := Option.some.inj here
    have later : (atStart && runLength false 0 tokens == 0) = false := by simp [some]
    rw [later] at there
    have more : tokens.drop (runLength false 0 tokens) ≠ [] := by
      intro nothing
      rw [nothing, take?_nil_of_headed headed] at there
      cases there
    obtain ⟨final, free, closed⟩ := freeDepth?_take_runLength 0 tokens
    rw [closed more] at free
    have size : (tokens.take (runLength false 0 tokens)).length = runLength false 0 tokens :=
      List.length_take_of_le (runLength_le false 0 tokens)
    have nonempty : tokens.take (runLength false 0 tokens) ≠ [] := by
      rw [ne_eq, ← List.length_eq_zero_iff, size]
      exact some
    exact ⟨_, _, others, (List.take_append_drop _ _).symm,
      isArgument_iff.mpr ⟨nonempty, free⟩, there, by rw [size]⟩

/-! Lists of arguments -/

theorem separated_splitArguments {inner : List Token} (balanced : endDepth? 0 inner = some 0)
    (some : ∀ span ∈ splitArguments inner, span ≠ []) :
    Separated (splitArguments inner) inner ∧ ∀ span ∈ splitArguments inner, IsArgument span := by
  have own : ClosesOwn inner := closesOwn_iff.mpr ⟨0, balanced⟩
  have counted := (endDepth?_eq_some_iff.mp balanced).2
  have free := own.freeDepth?_pieces (by omega)
  refine ⟨own.separated_splitArguments, fun span member =>
    isArgument_iff.mpr ⟨some span member, free span ?_⟩⟩
  unfold splitArguments at member
  split at member
  · cases member
  · exact member

theorem Matcher.separated_of_take? {atStart : Bool} {tokens : List Token} {n : Nat}
    (taken : Matcher.arguments.take? atStart tokens = some n) (more : tokens.drop n ≠ []) :
    ∃ arguments, Separated arguments (tokens.take n) ∧ ∀ span ∈ arguments, IsArgument span := by
  have balanced := take?_balanced (by simp [arguments]) taken more
  simp only [take?, arguments, Bool.false_and, Bool.false_eq_true, if_false,
    argumentsLength?_eq] at taken
  split at taken
  · next nonempty =>
    obtain rfl := Option.some.inj taken
    refine ⟨_, separated_splitArguments balanced fun span member => ?_⟩
    simpa using List.all_eq_true.mp nonempty span member
  · cases taken

/-! Up to the closing bracket -/

/-- Whether calls with this number of arguments match at all. -/
def Signature.Fits (signature : Signature) (count : Nat) : Prop :=
  match signature with
  | .between _ _ => True
  | .parameters names => names.length = count

structure Fitted (signature : Signature) (arguments : List (List Token)) (inner : List Token)
    (closing : Token) : Prop where
  separated : Separated arguments inner
  each : ∀ span ∈ arguments, IsArgument span
  fits : signature.Fits arguments.length
  closes : closing.content = .symbol (.grouping .closing)

namespace Pattern

theorem closing_of_take? {atStart : Bool} {tokens : List Token} {n : Nat}
    (taken : take? [.closing] atStart tokens = some n) :
    ∃ closing more, tokens = closing :: more ∧ closing.content = .symbol (.grouping .closing) ∧
      n = 1 := by
  obtain ⟨_, _, here, there, rfl⟩ := take?_cons taken
  obtain ⟨closing, more, rfl, accepted, rfl⟩ := Matcher.take?_one rfl here
  cases there
  exact ⟨closing, more, rfl, Matcher.content_of_accepts rfl accepted, rfl⟩

def runs (names : List String) : Pattern :=
  (names.map fun _ => Matcher.run).intersperse .comma ++ [.closing]

theorem runs_nil : runs [] = [.closing] := rfl

theorem runs_one (name : String) : runs [name] = [.run, .closing] := rfl

theorem runs_cons (name next : String) (names : List String) :
    runs (name :: next :: names) = .run :: .comma :: runs (next :: names) := rfl

theorem headed_runs (next : String) (names : List String) :
    Headed (.comma :: runs (next :: names)) := ⟨_, _, rfl, _, _, rfl⟩

theorem take?_runs {names : List String} {arguments : List (List Token)} {inner : List Token}
    {closing : Token} (fitted : Fitted (.parameters names) arguments inner closing)
    (atStart : Bool) (more : List Token) :
    (runs names).take? atStart (inner ++ closing :: more) = some (inner.length + 1) := by
  obtain ⟨separated, each, fits, closes⟩ := fitted
  have stops : closing.isClosing = true := Token.isGrouping_of_content closes
  induction separated generalizing names atStart with
  | none =>
    obtain rfl := List.length_eq_zero_iff.mp fits
    rw [runs_nil, List.nil_append, take?_closing closes]
    rfl
  | last span =>
    obtain ⟨name, rfl⟩ := List.length_eq_one_iff.mp fits
    rw [runs_one, take?_run (each span List.mem_cons_self) (.inr stops), take?_closing closes]
    rfl
  | @cons span next others comma rest isComma separated ih =>
    match names, fits with
    | name :: following :: names, fits =>
      have isArgument := each span List.mem_cons_self
      have parts : Matcher.comma.accepts comma = true := (Matcher.accepts_grouping isComma).mpr rfl
      have later := ih false (fun other member => each other (List.mem_cons_of_mem span member))
        (Nat.succ.inj fits)
      rw [runs_cons, List.append_assoc, List.cons_append,
        take?_run isArgument (.inl (Token.isGrouping_of_content isComma)),
        take?_cons_of_accepts ⟨_, _, rfl⟩ rfl parts, later]
      simp only [Option.map_some, List.length_append, List.length_cons, Option.some.injEq]
      omega

theorem fitted_of_runs {names : List String} {atStart : Bool} {tokens : List Token} {n : Nat}
    (taken : (runs names).take? atStart tokens = some n) :
    ∃ arguments inner closing more, tokens = inner ++ closing :: more ∧ n = inner.length + 1 ∧
      Fitted (.parameters names) arguments inner closing := by
  -- By induction on the names, an argument for each.
  induction names generalizing atStart tokens n with
  | nil =>
    obtain ⟨closing, more, rfl, closes, rfl⟩ := closing_of_take? taken
    exact ⟨[], [], closing, more, rfl, rfl, .none, by simp, rfl, closes⟩
  | cons name names ih =>
    cases names with
    | nil =>
      rw [runs_one] at taken
      obtain ⟨span, rest, others, rfl, isArgument, there, rfl⟩ :=
        argument_of_take? ⟨_, _, rfl, _, _, rfl⟩ taken
      obtain ⟨closing, more, rfl, closes, rfl⟩ := closing_of_take? there
      exact ⟨[span], span, closing, more, rfl, rfl, .last span, by simpa using isArgument, rfl,
        closes⟩
    | cons next names =>
      rw [runs_cons] at taken
      obtain ⟨span, rest, others, rfl, isArgument, there, rfl⟩ :=
        argument_of_take? (headed_runs next names) taken
      obtain ⟨_, _, here, later, rfl⟩ := take?_cons there
      obtain ⟨comma, rest, rfl, accepted, rfl⟩ := Matcher.take?_one rfl here
      rw [List.drop_one, List.tail_cons] at later
      obtain ⟨arguments, inner, closing, more, rfl, rfl, separated, each, fits, closes⟩ := ih later
      match arguments, fits with
      | following :: behind, fits =>
        have isComma : comma.content = .symbol (.grouping .comma) :=
          Matcher.content_of_accepts rfl accepted
        refine ⟨span :: following :: behind, span ++ comma :: inner, closing, more, by simp, ?_,
          .cons isComma separated, ?_, congrArg (· + 1) fits, closes⟩
        · simp only [List.length_append, List.length_cons]
          omega
        · intro other member
          rcases List.mem_cons.mp member with rfl | member
          · exact isArgument
          · exact each other member

theorem take?_arguments {least : Nat} {most : Option Nat} {arguments : List (List Token)}
    {inner : List Token} {closing : Token}
    (fitted : Fitted (.between least most) arguments inner closing) (atStart : Bool)
    (more : List Token) :
    take? [.arguments, .closing] atStart (inner ++ closing :: more) = some (inner.length + 1) := by
  have stops : closing.isClosing = true := Token.isGrouping_of_content fitted.closes
  have list := fitted.separated.take?_arguments fitted.each stops atStart more
  rw [take?, list, Option.bind_eq_bind, Option.bind_some, List.drop_left,
    take?_closing fitted.closes]
  rfl

theorem fitted_of_arguments {least : Nat} {most : Option Nat} {atStart : Bool}
    {tokens : List Token} {n : Nat}
    (taken : take? [.arguments, .closing] atStart tokens = some n) :
    ∃ arguments inner closing more, tokens = inner ++ closing :: more ∧ n = inner.length + 1 ∧
      Fitted (.between least most) arguments inner closing := by
  obtain ⟨first, others, here, there, rfl⟩ := take?_cons taken
  obtain ⟨closing, more, behind, closes, rfl⟩ := closing_of_take? there
  obtain ⟨arguments, separated, each⟩ := Matcher.separated_of_take? here (by simp [behind])
  have size : (tokens.take first).length = first := List.length_take_of_le (Matcher.take?_le here)
  refine ⟨arguments, tokens.take first, closing, more, ?_, by rw [size], separated, each,
    trivial, closes⟩
  rw [← behind, List.take_append_drop]

end Pattern

/-! Calls -/

structure Definition.Called (d : Definition) (arguments : List (List Token)) (call : List Token) :
    Prop where
  spells : SpellsCall d.name arguments call
  each : ∀ span ∈ arguments, IsArgument span
  fits : d.signature.Fits arguments.length

namespace Definition

variable {d : Definition}

theorem take?_argumentPattern {arguments : List (List Token)} {inner : List Token}
    {closing : Token} (fitted : Fitted d.signature arguments inner closing) (atStart : Bool)
    (more : List Token) :
    Pattern.take? (argumentPattern d.signature ++ [.closing]) atStart (inner ++ closing :: more) =
      some (inner.length + 1) := by
  cases kind : d.signature with
  | between least most => exact Pattern.take?_arguments (kind ▸ fitted) atStart more
  | parameters names => exact Pattern.take?_runs (kind ▸ fitted) atStart more

theorem fitted_of_take? {signature : Signature} {atStart : Bool} {tokens : List Token} {n : Nat}
    (taken : Pattern.take? (argumentPattern signature ++ [.closing]) atStart tokens = some n) :
    ∃ arguments inner closing more, tokens = inner ++ closing :: more ∧ n = inner.length + 1 ∧
      Fitted signature arguments inner closing := by
  cases signature with
  | between least most => exact Pattern.fitted_of_arguments taken
  | parameters names => exact Pattern.fitted_of_runs taken

theorem Called.take? {arguments : List (List Token)} {call : List Token}
    (called : d.Called arguments call) (atStart : Bool) (more : List Token) :
    d.pattern.take? atStart (call ++ more) = some call.length := by
  obtain ⟨⟨isName, opens, closes, separated⟩, each, fits⟩ := called
  rename_i head opening closing inner
  have fitted : Fitted d.signature arguments inner closing := ⟨separated, each, fits, closes⟩
  have isHead : (Matcher.function d.name).accepts head = true :=
    (Matcher.accepts_function isName).mpr rfl
  have isOpening : Matcher.callOpening.accepts opening = true :=
    (Matcher.accepts_grouping opens).mpr rfl
  have last := take?_argumentPattern fitted false more
  rw [pattern_eq, List.cons_append, List.cons_append, List.append_assoc, List.singleton_append,
    Pattern.take?_cons_of_accepts d.isSingle_name rfl isHead,
    Pattern.take?_cons_of_accepts ⟨_, _, rfl⟩ rfl isOpening, last]
  simp only [Option.map_some, List.length_cons, List.length_append, List.length_nil,
    Option.some.injEq]
  omega

theorem called_of_take? {atStart : Bool} {tokens : List Token} {n : Nat}
    (taken : d.pattern.take? atStart tokens = some n) :
    ∃ arguments call more, tokens = call ++ more ∧ n = call.length ∧ d.Called arguments call := by
  rw [pattern_eq] at taken
  obtain ⟨_, _, first, there, rfl⟩ := Pattern.take?_cons taken
  obtain ⟨head, rest, rfl, isName, rfl⟩ := Matcher.take?_one rfl first
  rw [List.drop_one, List.tail_cons] at there
  obtain ⟨_, _, second, last, rfl⟩ := Pattern.take?_cons there
  obtain ⟨opening, behind, rfl, opens, rfl⟩ := Matcher.take?_one rfl second
  rw [List.drop_one, List.tail_cons] at last
  obtain ⟨arguments, inner, closing, more, rfl, rfl, fitted⟩ := fitted_of_take? last
  refine ⟨arguments, head :: opening :: (inner ++ [closing]), more, by simp, ?_,
    ⟨?_, fitted.each, fitted.fits⟩⟩
  · simp only [List.length_cons, List.length_append, List.length_nil]
    omega
  · exact .mk (Matcher.content_of_accepts rfl isName) (Matcher.content_of_accepts rfl opens)
      fitted.closes fitted.separated

/-- The pattern matches the calls of the function, and nothing else. -/
theorem take?_eq_some_iff {atStart : Bool} {tokens : List Token} {n : Nat} :
    d.pattern.take? atStart tokens = some n ↔
      ∃ arguments call more, tokens = call ++ more ∧ n = call.length ∧ d.Called arguments call := by
  refine ⟨called_of_take?, ?_⟩
  rintro ⟨arguments, call, more, rfl, rfl, called⟩
  exact called.take? atStart more

theorem matchAt?_eq_some_iff {tokens : List Token} {start n : Nat} :
    d.pattern.matchAt? tokens start = some n ↔ ∃ left arguments call right,
      tokens = left ++ (call ++ right) ∧ left.length = start ∧ call.length = n ∧
        d.Called arguments call := by
  constructor
  · intro taken
    have short : start ≤ tokens.length := by
      refine Nat.le_of_not_lt fun past => ?_
      rw [Pattern.matchAt?_of_length_le d.bracketed.headed (Nat.le_of_lt past)] at taken
      cases taken
    obtain ⟨arguments, call, right, split, size, called⟩ := take?_eq_some_iff.mp taken
    refine ⟨tokens.take start, arguments, call, right, ?_, List.length_take_of_le short,
      size.symm, called⟩
    rw [← split, List.take_append_drop]
  · rintro ⟨left, arguments, call, right, rfl, rfl, rfl, called⟩
    unfold Pattern.matchAt?
    rw [List.drop_left]
    exact called.take? _ right

end Definition

end Formulary
