import Formulary.Proofs.CallPatterns
import Formulary.Proofs.Registration

/-!
The order in which calls of registered functions are answered. Any of them may be answered first,
wherever it stands: two calls are apart, or one is in an argument of the other, where it is answered
to the same effect. So the values of tokens do not depend on the order of the rules for functions.
-/
namespace Formulary

/-! Calls and what they ask for -/

namespace Definition.Called

variable {d e : Definition} {arguments arguments' : List (List Token)} {call call' : List Token}

theorem head? (called : d.Called arguments call) :
    ∃ head rest, call = head :: rest ∧ head.content = .symbol (.function d.name) := by
  obtain ⟨⟨isName, _, _, _⟩, _, _⟩ := called
  exact ⟨_, _, rfl, isName⟩

theorem isCall (called : d.Called arguments call) :
    ∃ head opening inner closing, call = head :: opening :: (inner ++ [closing]) ∧
      IsCall head opening inner closing := by
  obtain ⟨⟨isName, opens, closes, separated⟩, each, _⟩ := called
  exact ⟨_, _, _, _, rfl, SpellsCall.isCall isName opens closes separated each⟩

theorem plan (called : d.Called arguments call) :
    d.rule.action.plan call = .request (.call d.name arguments) := by
  obtain ⟨⟨isName, opens, closes, separated⟩, each, fits⟩ := called
  rename_i head opening closing inner
  have within : interior 2 (head :: opening :: (inner ++ [closing])) = inner := by simp [interior]
  have asked : d.rule.action.plan (head :: opening :: (inner ++ [closing])) = .request (.call d.name
      (splitArguments (interior 2 (head :: opening :: (inner ++ [closing]))))) :=
    RuleBook.plan_of_calls isName rfl (.inl rfl)
  rw [within, separated.splitArguments each] at asked
  exact asked

theorem matched (called : d.Called arguments call) : Matched d.rule.action call := by
  have taken := d.matched_of_take? (called.take? false [])
  rwa [List.append_nil, List.take_length] at taken

theorem data_lighter (called : d.Called arguments call) (v : Value) (left right : List Token) :
    weight (left ++ .data v :: right) < weight (left ++ (call ++ right)) := by
  have lighter := called.matched.answer_lighter called.plan v left right
  simpa using lighter

theorem argument_lighter (called : d.Called arguments call) {span : List Token}
    (member : span ∈ arguments) (left right : List Token) :
    weight span < weight (left ++ (call ++ right)) := by
  have inside := Action.span_inside called.matched.nonempty called.plan member
  have whole : call <:+: left ++ (call ++ right) := ⟨left, right, by simp⟩
  exact weight_lt_of_infix (inside.1.trans whole) (Nat.lt_of_lt_of_le inside.2 whole.length_le)

theorem length_le (called : d.Called arguments call) (called' : e.Called arguments' call')
    {right right' : List Token} (same : call ++ right = call' ++ right') :
    call.length ≤ call'.length := by
  rcases List.append_eq_append_iff.mp same with ⟨surplus, split, _⟩ | ⟨rest, split, _⟩
  · rw [split, List.length_append]
    apply Nat.le_add_right
  · have enclosing := e.bracketed.enclosing (called'.take? false rest)
    rw [← split] at enclosing
    obtain ⟨head, opening, inner, closing, same, isCall⟩ := called.isCall
    rw [same] at enclosing
    have long := Enclosing.whole isCall enclosing
    simp only [same, List.length_cons, List.length_append, List.length_nil]
    omega

theorem unique (called : d.Called arguments call) (called' : e.Called arguments' call) :
    d.name = e.name ∧ arguments = arguments' := by
  have plans := called.plan.symm.trans called'.plan
  simpa using plans

end Definition.Called

/-- Where a call stands, from the beginning of another on that begins no later: it is the same
    call, or behind it, or in one of its arguments. -/
inductive Placed (d : Definition) (arguments : List (List Token)) (call right : List Token) :
    List Token → List Token → List Token → Prop where
  | same : Placed d arguments call right [] call right
  | behind (between call' right' : List Token) : right = between ++ (call' ++ right') →
      Placed d arguments call right (call ++ between) call' right'
  | within {earlier later : List (List Token)} {span before after left' right' : List Token}
      (call' : List Token) : arguments = earlier ++ span :: later →
      call = before ++ (span ++ after) → span = left' ++ (call' ++ right') →
      (∀ other, SpellsCall d.name (earlier ++ other :: later) (before ++ (other ++ after))) →
      Placed d arguments call right (before ++ left') call' (right' ++ (after ++ right))

namespace Definition.Called

variable {d e : Definition} {arguments arguments' : List (List Token)} {call call' : List Token}

theorem placed_within (called : d.Called arguments call) (called' : e.Called arguments' call')
    {lead right right' : List Token} (same : call ++ right = lead ++ (call' ++ right'))
    (some : lead ≠ []) (short : lead.length < call.length) :
    Placed d arguments call right lead call' right' := by
  obtain ⟨head, more, rfl, isName⟩ := called'.head?
  obtain ⟨rest, rfl, tail⟩ : ∃ rest, call = lead ++ head :: rest ∧
      rest ++ right = more ++ right' := by
    rcases List.append_eq_append_iff.mp same with ⟨surplus, split, _⟩ | ⟨rest, split, tail⟩
    · have size := congrArg List.length split
      rw [List.length_append] at size
      omega
    · cases rest with
      | nil => simp [split] at short
      | cons t rest =>
        obtain ⟨rfl, behind⟩ := List.cons.inj tail
        exact ⟨rest, split, behind.symm⟩
  obtain ⟨earlier, span, later, before, stop, after, rfl, split, apart, low, high, put⟩ :=
    called.spells.locate rfl some fun mark content => by simp [isName] at content
  obtain ⟨place, size⟩ := Nat.exists_eq_add_of_le low
  have inside : place < span.length := by omega
  have argument := called.each span (by simp)
  -- the pattern matches at the same place in the argument alone
  have alone := e.bracketed.matchAt?_within argument.balanced apart before (after ++ right) inside
  have whole : before ++ (span ++ stop :: (after ++ right)) =
      lead ++ (head :: more ++ right') := by
    rw [← same, split]
    simp
  have here : e.pattern.matchAt? (before ++ (span ++ stop :: (after ++ right)))
      (before.length + place) = Option.some (head :: more).length :=
    Definition.matchAt?_eq_some_iff.mpr ⟨lead, _, _, right', whole, size, rfl, called'⟩
  obtain ⟨front, _, found, behind, contents, start, length, _⟩ :=
    Definition.matchAt?_eq_some_iff.mp (alone.symm.trans here)
  obtain ⟨rfl, there⟩ : before ++ front = lead ∧
      found ++ (behind ++ stop :: (after ++ right)) = head :: more ++ right' := by
    refine List.append_inj ?_ (by rw [List.length_append, start, size])
    rw [← whole, contents]
    simp
  obtain ⟨rfl, rfl⟩ := List.append_inj there length
  exact .within (head :: more) rfl split contents put

theorem placed (called : d.Called arguments call) (called' : e.Called arguments' call')
    {lead right right' : List Token} (same : call ++ right = lead ++ (call' ++ right')) :
    Placed d arguments call right lead call' right' := by
  rcases List.append_eq_append_iff.mp same with ⟨between, rfl, rest⟩ | ⟨more, split, rest⟩
  · exact .behind between call' right' rest
  · by_cases first : lead = []
    · subst first
      rw [List.nil_append] at same
      have short := called.length_le called' same
      have long := called'.length_le called same.symm
      obtain ⟨rfl, rfl⟩ := List.append_inj same (Nat.le_antisymm short long)
      exact .same
    · by_cases last : more = []
      · subst last
        rw [List.append_nil] at split
        rw [List.nil_append] at rest
        have behind : Placed d arguments call right (call ++ []) call' right' :=
          .behind [] call' right' rest.symm
        rw [List.append_nil] at behind
        rw [← split]
        exact behind
      · refine called.placed_within called' same first ?_
        rw [split, List.length_append]
        exact Nat.lt_add_of_pos_right (List.length_pos_iff.mpr last)

theorem put {earlier later : List (List Token)} {span other before after : List Token}
    (called : d.Called (earlier ++ span :: later) call) (isArgument : IsArgument other)
    (spells : SpellsCall d.name (earlier ++ other :: later) (before ++ (other ++ after))) :
    d.Called (earlier ++ other :: later) (before ++ (other ++ after)) where
  spells := spells
  each := by
    intro span member
    rcases List.mem_append.mp member with front | behind
    · exact called.each span (List.mem_append_left _ front)
    · rcases List.mem_cons.mp behind with rfl | behind
      · exact isArgument
      · exact called.each span (List.mem_append_right _ (List.mem_cons_of_mem _ behind))
  fits := by
    have fits := called.fits
    simpa using fits

end Definition.Called

theorem IsArgument.replace {d : Definition} {arguments : List (List Token)}
    {left call right : List Token} (argument : IsArgument (left ++ (call ++ right)))
    (called : d.Called arguments call) (v : Value) : IsArgument (left ++ .data v :: right) := by
  obtain ⟨head, opening, inner, closing, rfl, isCall⟩ := called.isCall
  have free := argument.freeDepth?
  refine isArgument_iff.mpr ⟨by simp, ?_⟩
  rw [← List.singleton_append]
  simp only [freeDepth?_append, isCall.freeDepth?, Option.bind_some,
    RuleBook.freeDepth?_data] at free ⊢
  exact free

namespace RuleBook

variable {book other : RuleBook} {tokens : List Token}

/-! Values -/

def value? (book : RuleBook) (tokens : List Token) : Option Value :=
  (book.evaluate tokens).toOption

def callValue? (book : RuleBook) (name : Name) (arguments : List (List Token)) : Option Value :=
  (arguments.mapM book.value?).bind fun values => (book.call name values).toOption

theorem toOption_mapM {f : List Token → Outcome Value} (spans : List (List Token)) :
    (spans.mapM f).toOption = spans.mapM fun span => (f span).toOption := by
  induction spans with
  | nil => rfl
  | cons span spans ih =>
    simp only [List.mapM_cons, toOption_bind, Option.bind_eq_bind, ih]
    rfl

theorem callValue?_eq (book : RuleBook) (name : Name) (arguments : List (List Token)) :
    book.callValue? name arguments =
      (arguments.mapM book.evaluate >>= book.call name).toOption := by
  unfold callValue? value?
  rw [toOption_bind, toOption_mapM]

theorem callValue?_replace {name : Name} {earlier later : List (List Token)} {span : List Token}
    {outcome : Option Value} {next : Value → List Token}
    (same : book.value? span = outcome.bind fun v => book.value? (next v)) :
    book.callValue? name (earlier ++ span :: later) =
      outcome.bind fun v => book.callValue? name (earlier ++ next v :: later) := by
  unfold callValue?
  simp only [List.mapM_append, List.mapM_cons, same, Option.bind_eq_bind]
  cases earlier.mapM book.value? with
  | none => cases outcome <;> rfl
  | some values => cases outcome <;> rfl

def valueAfter? (book : RuleBook) (name : Name) (arguments : List (List Token))
    (left right : List Token) : Option Value :=
  (book.callValue? name arguments).bind fun v => book.value? (left ++ .data v :: right)

/-- Any call among tokens lighter than the bound can be answered first. -/
def AnyFirst (book : RuleBook) (bound : Nat) : Prop :=
  ∀ d ∈ book.custom, ∀ arguments call, d.Called arguments call → ∀ left right,
    weight (left ++ (call ++ right)) < bound →
      book.value? (left ++ (call ++ right)) = book.valueAfter? d.name arguments left right

section

variable {d e : Definition} {arguments arguments' : List (List Token)}
  {call call' right lead right' : List Token}

theorem valueAfter?_behind (memberD : d ∈ book.custom) (memberE : e ∈ book.custom)
    (called : d.Called arguments call) (called' : e.Called arguments' call')
    (left between right' : List Token)
    (anyFirst : book.AnyFirst (weight (left ++ (call ++ (between ++ (call' ++ right')))))) :
    book.valueAfter? d.name arguments left (between ++ (call' ++ right')) =
      book.valueAfter? e.name arguments' (left ++ (call ++ between)) right' := by
  have later (v : Value) : book.value? (left ++ .data v :: (between ++ (call' ++ right'))) =
      book.valueAfter? e.name arguments' (left ++ .data v :: between) right' := by
    have lighter := called.data_lighter v left (between ++ (call' ++ right'))
    have same : left ++ .data v :: (between ++ (call' ++ right')) =
        left ++ .data v :: between ++ (call' ++ right') := by simp
    rw [same] at lighter ⊢
    exact anyFirst e memberE arguments' call' called' _ _ lighter
  have sooner (v : Value) : book.value? (left ++ (call ++ between) ++ .data v :: right') =
      book.valueAfter? d.name arguments left (between ++ .data v :: right') := by
    have lighter := called'.data_lighter v (left ++ (call ++ between)) right'
    simp only [List.append_assoc] at lighter ⊢
    exact anyFirst d memberD arguments call called _ _ lighter
  unfold valueAfter? at later sooner ⊢
  simp only [later, sooner]
  rw [Option.bind_comm]
  simp

theorem valueAfter?_within {earlier later : List (List Token)}
    {before after left' right' : List Token} (memberD : d ∈ book.custom)
    (memberE : e ∈ book.custom) (called' : e.Called arguments' call')
    (called : d.Called (earlier ++ (left' ++ (call' ++ right')) :: later)
      (before ++ (left' ++ (call' ++ right') ++ after)))
    (put : ∀ other, SpellsCall d.name (earlier ++ other :: later) (before ++ (other ++ after)))
    (left right : List Token) (anyFirst : book.AnyFirst
      (weight (left ++ (before ++ (left' ++ (call' ++ right') ++ after) ++ right)))) :
    book.valueAfter? d.name (earlier ++ (left' ++ (call' ++ right')) :: later) left right =
      book.valueAfter? e.name arguments' (left ++ (before ++ left'))
        (right' ++ (after ++ right)) := by
  have inside : book.value? (left' ++ (call' ++ right')) =
      book.valueAfter? e.name arguments' left' right' := by
    apply anyFirst e memberE arguments' call' called'
    exact called.argument_lighter (by simp) left right
  have argument := called.each (left' ++ (call' ++ right')) (by simp)
  have outside (v : Value) :
      book.value? (left ++ (before ++ left') ++ .data v :: (right' ++ (after ++ right))) =
        book.valueAfter? d.name (earlier ++ (left' ++ .data v :: right') :: later) left right := by
    have lighter := called'.data_lighter v (left ++ (before ++ left')) (right' ++ (after ++ right))
    have answered := called.put (argument.replace called' v) (put _)
    have first := anyFirst d memberD _ _ answered left right
    simp only [List.append_assoc, List.cons_append] at lighter first ⊢
    exact first lighter
  unfold valueAfter?
  simp only [outside, callValue?_replace inside, Option.bind_assoc]
  rfl

/-- Two calls can be answered in either order, if lighter tokens may begin with any. -/
theorem valueAfter?_comm (memberD : d ∈ book.custom) (memberE : e ∈ book.custom)
    (called : d.Called arguments call) (called' : e.Called arguments' call')
    (placed : Placed d arguments call right lead call' right') (left : List Token)
    (anyFirst : book.AnyFirst (weight (left ++ (call ++ right)))) :
    book.valueAfter? d.name arguments left right =
      book.valueAfter? e.name arguments' (left ++ lead) right' := by
  cases placed with
  | same =>
    obtain ⟨name, same⟩ := called.unique called'
    rw [name, same, List.append_nil]
  | behind between call' right' rest =>
    subst rest
    exact valueAfter?_behind memberD memberE called called' left between right' anyFirst
  | within call' isSplit split contents put =>
    subst isSplit split contents
    exact valueAfter?_within memberD memberE called' called put left right anyFirst

end

/-! The call that is answered first -/

def Calls (book : RuleBook) (tokens : List Token) : Prop :=
  ∃ d ∈ book.custom, ∃ arguments call left right, d.Called arguments call ∧
    tokens = left ++ (call ++ right)

theorem findCall?_ne_none (calls : book.Calls tokens) : book.findCall? tokens ≠ none := by
  obtain ⟨d, member, arguments, call, left, right, called, rfl⟩ := calls
  intro none
  have nowhere := (Pattern.find?_eq_none_iff d.bracketed.headed).mp
    (findCall?_eq_none_iff.mp none d member) left.length
  rw [Definition.matchAt?_eq_some_iff.mpr ⟨left, arguments, call, right, rfl, rfl, rfl, called⟩]
    at nowhere
  cases nowhere

theorem value?_of_findCall? {m : RuleMatch} (found : book.findCall? tokens = some m) :
    ∃ d ∈ book.custom, ∃ arguments call left right, d.Called arguments call ∧
      tokens = left ++ (call ++ right) ∧
      book.value? tokens = book.valueAfter? d.name arguments left right := by
  obtain ⟨d, member, rule, taken⟩ := findCall?_eq_some found
  obtain ⟨left, arguments, call, right, rfl, start, size, called⟩ :=
    Definition.matchAt?_eq_some_iff.mp taken
  refine ⟨d, member, arguments, call, left, right, called, rfl, ?_⟩
  have here : m = ⟨m.index, d.rule, ⟨left.length, call.length⟩⟩ := by
    obtain ⟨index, _, _, _⟩ := m
    simp_all
  have long : ¬ (left ++ (call ++ right)).length ≤ 1 := by
    obtain ⟨head, opening, inner, closing, rfl, _⟩ := called.isCall
    simp
    omega
  have step := book.evaluate_step long (find?_of_findCall? found)
  rw [here, rewrite_matched, called.plan] at step
  unfold valueAfter? value?
  rw [callValue?_eq, step]
  simp only [replacement, Request.result]
  cases arguments.mapM book.evaluate >>= book.call d.name <;> rfl

theorem anyFirst (book : RuleBook) (bound : Nat) : book.AnyFirst bound := by
  -- By induction on the weight: the next step answers some call, and commutes with any other.
  induction bound using Nat.strongRecOn with
  | ind bound ih =>
    intro d memberD arguments call called left right lighter
    have calls : book.Calls (left ++ (call ++ right)) :=
      ⟨d, memberD, arguments, call, left, right, called, rfl⟩
    obtain ⟨m, found⟩ := Option.ne_none_iff_exists'.mp (findCall?_ne_none calls)
    obtain ⟨e, memberE, arguments', call', left', right', called', split, value⟩ :=
      value?_of_findCall? found
    have below := ih _ lighter
    rw [value]
    rcases List.append_eq_append_iff.mp split with ⟨lead, rfl, rest⟩ | ⟨lead, rfl, rest⟩
    · have placed := called.placed called' rest
      exact (valueAfter?_comm memberD memberE called called' placed left below).symm
    · have placed := called'.placed called rest
      rw [split] at below
      exact valueAfter?_comm memberE memberD called' called placed left' below

/-- Wherever a call of a registered function stands, the value is as if it were answered first. -/
theorem value?_call {d : Definition} (member : d ∈ book.custom) {arguments : List (List Token)}
    {call : List Token} (called : d.Called arguments call) (left right : List Token) :
    book.value? (left ++ (call ++ right)) = book.valueAfter? d.name arguments left right :=
  book.anyFirst _ d member arguments call called left right (Nat.lt_succ_self _)

end RuleBook

end Formulary
