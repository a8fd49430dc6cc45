import Formulary.Proofs.CallPatterns

/-!
What the matchers of runs take. A run is as long as it can be, and a list of arguments is taken if
it is put together from runs, with a comma between one and the next. It is split at these commas,
and commas between the pieces give it back.
-/
namespace Formulary

/-! The longest -/

/-- So many of the tokens have the property, and no more. -/
structure IsLongest (property : List Token → Prop) (tokens : List Token) (n : Nat) : Prop where
  within : n ≤ tokens.length
  holds : property (tokens.take n)
  longest : ∀ m ≤ tokens.length, property (tokens.take m) → m ≤ n

theorem IsLongest.unique {property : List Token → Prop} {tokens : List Token} {n m : Nat}
    (one : IsLongest property tokens n) (other : IsLongest property tokens m) : n = m :=
  Nat.le_antisymm (other.longest n one.within one.holds) (one.longest m other.within other.holds)

theorem isLongest_of_scan {property : List Token → Prop} {throughCommas : Bool}
    (whole : ∀ run, property run → runLength throughCommas 0 run = run.length)
    {tokens : List Token} (holds : property (tokens.take (runLength throughCommas 0 tokens))) :
    IsLongest property tokens (runLength throughCommas 0 tokens) where
  within := runLength_le throughCommas 0 tokens
  holds := holds
  longest m short held := by
    have size := whole _ held
    rw [runLength_take, List.length_take_of_le short] at size
    omega

theorem isLongest_run (tokens : List Token) :
    IsLongest IsRun tokens (runLength false 0 tokens) := by
  refine isLongest_of_scan (fun _ isRun => isRun.runLength) (isRun_iff.mpr ?_)
  obtain ⟨depth, free, _⟩ := freeDepth?_take_runLength 0 tokens
  exact ⟨depth, free⟩

theorem isLongest_closesOwn (tokens : List Token) :
    IsLongest ClosesOwn tokens (runLength true 0 tokens) := by
  refine isLongest_of_scan (fun _ own => own.runLength) (closesOwn_iff.mpr ?_)
  obtain ⟨depth, ends, _⟩ := endDepth?_take_runLength true 0 tokens
  exact ⟨depth, ends⟩

/-! Lists of runs -/

/-- Runs that are not empty, with a comma between one and the next. All but the last close what
    they open, so that these commas stand outside all brackets. -/
inductive Listed : List Token → Prop where
  | last {run : List Token} : run ≠ [] → IsRun run → Listed run
  | cons {run rest : List Token} {comma : Token} : run ≠ [] → IsRun run →
      closings run = openings run → comma.isComma = true → Listed rest →
      Listed (run ++ comma :: rest)

theorem listed_iff {run : List Token} (own : ClosesOwn run) :
    Listed run ↔ ∀ piece ∈ pieces 0 run, piece ≠ [] := by
  constructor
  · intro listed
    clear own
    induction listed with
    | last some isRun => simpa [isRun.pieces] using some
    | cons some isRun closed isComma _ ih =>
      rw [pieces_closed isRun closed isComma]
      exact List.forall_mem_cons.mpr ⟨some, ih⟩
  · refine own.byCuts (fun run isRun some => ?_)
      fun first comma behind isRun closed isComma _ ih some => ?_
    · rw [isRun.pieces] at some
      exact .last (some run List.mem_cons_self) isRun
    · rw [pieces_closed isRun closed isComma] at some
      obtain ⟨here, there⟩ := List.forall_mem_cons.mp some
      exact .cons here isRun closed isComma (ih there)

def joined (spans : List (List Token)) : List Content :=
  [Content.symbol (.grouping .comma)].intercalate (spans.map (·.map Token.content))

theorem Separated.joined {spans : List (List Token)} {inner : List Token}
    (separated : Separated spans inner) : joined spans = inner.map Token.content := by
  induction separated with
  | none => rfl
  | last span => exact List.intercalate_singleton
  | @cons span next others comma rest isComma _ ih =>
    unfold Formulary.joined at ih ⊢
    rw [List.map_cons] at ih
    rw [List.map_cons, List.map_cons, List.intercalate_cons_cons, ih, List.map_append,
      List.map_cons, isComma, List.append_assoc]
    rfl

/-! The loop over a list of arguments -/

/-- The runs that the loop takes, one in each turn, the last included. -/
def turns (tokens : List Token) (stop cursor : Nat) : List Stretch :=
  let taken := runLength false 0 (tokens.drop cursor)
  if taken = 0 ∨ cursor + taken = stop then [⟨cursor, taken⟩]
  else ⟨cursor, taken⟩ :: turns tokens stop (cursor + taken + 1)
termination_by tokens.length - cursor
decreasing_by
  have within := runLength_le false 0 (tokens.drop cursor)
  rw [List.length_drop] at within
  omega

theorem argumentsEnd?_turns (tokens : List Token) (stop cursor : Nat) :
    argumentsEnd? tokens stop cursor =
      if ∀ turn ∈ turns tokens stop cursor, turn.length ≠ 0 then some stop else none := by
  fun_induction argumentsEnd? tokens stop cursor with
  | case1 cursor taken nothing =>
    have last : turns tokens stop cursor = [⟨cursor, taken⟩] := by
      rw [turns]
      exact if_pos (.inl nothing)
    rw [last, if_neg]
    exact fun each => each _ List.mem_cons_self nothing
  | case2 cursor taken some reached =>
    have last : turns tokens stop cursor = [⟨cursor, taken⟩] := by
      rw [turns]
      exact if_pos (.inr reached)
    rw [last, if_pos]
    exact List.forall_mem_singleton.mpr some
  | case3 cursor taken some short ih =>
    have further : turns tokens stop cursor =
        ⟨cursor, taken⟩ :: turns tokens stop (cursor + taken + 1) := by
      rw [turns]
      exact if_neg (not_or.mpr ⟨some, short⟩)
    rw [ih, further]
    simp only [List.forall_mem_cons, ne_eq, some, not_false_eq_true, true_and]

theorem turns_within {tokens : List Token} {stop cursor : Nat}
    (ends : cursor + runLength true 0 (tokens.drop cursor) = stop) :
    cursor + 2 * (turns tokens stop cursor).length ≤ stop + 2 ∧
      ∀ turn ∈ turns tokens stop cursor, turn.start + turn.length ≤ stop := by
  fun_induction turns tokens stop cursor with
  | case1 cursor taken last =>
    have within : cursor + taken ≤ stop := by
      rcases turn_step ends with ⟨whole, _⟩ | ⟨further, _⟩ <;> omega
    refine ⟨by rw [List.length_singleton]; omega, fun turn member => ?_⟩
    obtain rfl := List.mem_singleton.mp member
    exact within
  | case2 cursor taken goesOn ih =>
    obtain ⟨some, short⟩ := not_or.mp goesOn
    rcases turn_step ends with ⟨whole, _⟩ | ⟨further, _⟩
    · exact absurd whole short
    · -- a token at least for the run, and one for the comma
      obtain ⟨few, within⟩ := ih further
      have here : cursor + taken ≤ stop := by omega
      exact ⟨by rw [List.length_cons]; omega, List.forall_mem_cons.mpr ⟨here, within⟩⟩

/-- The loop over the arguments among the first `stop` tokens: a bounded number of turns, none of
    which takes a token from behind them. -/
structure LoopStays (tokens : List Token) (stop : Nat) : Prop where
  answer : argumentsEnd? tokens stop 0 =
    if ∀ turn ∈ turns tokens stop 0, turn.length ≠ 0 then some stop else none
  few : 2 * (turns tokens stop 0).length ≤ stop + 2
  within : ∀ turn ∈ turns tokens stop 0, turn.start + turn.length ≤ stop

theorem loopStays {tokens : List Token} {stop : Nat} (longest : IsLongest ClosesOwn tokens stop) :
    LoopStays tokens stop := by
  have ends : 0 + runLength true 0 (tokens.drop 0) = stop := by
    rw [Nat.zero_add]
    exact (isLongest_closesOwn tokens).unique longest
  obtain ⟨few, within⟩ := turns_within ends
  exact ⟨argumentsEnd?_turns tokens stop 0, by omega, within⟩

/-! What the matchers take -/

namespace Matcher

theorem take?_run_iff (atStart : Bool) (tokens : List Token) (n : Nat) :
    run.take? atStart tokens = some n ↔ IsLongest IsRun tokens n ∧ n ≠ 0 := by
  have longest := isLongest_run tokens
  have unfolded : run.take? atStart tokens =
      if runLength false 0 tokens = 0 then none else some (runLength false 0 tokens) := by
    simp [take?, run]
  rw [unfolded]
  constructor
  · intro taken
    split at taken
    · cases taken
    · next some =>
      obtain rfl := Option.some.inj taken
      exact ⟨longest, some⟩
  · rintro ⟨other, some⟩
    obtain rfl := longest.unique other
    exact if_neg some

theorem take?_arguments_iff (atStart : Bool) (tokens : List Token) (n : Nat) :
    arguments.take? atStart tokens = some n ↔
      IsLongest ClosesOwn tokens n ∧ (tokens.take n = [] ∨ Listed (tokens.take n)) := by
  have longest := isLongest_closesOwn tokens
  have listed : tokens.take (runLength true 0 tokens) = [] ∨
      Listed (tokens.take (runLength true 0 tokens)) ↔
        (splitArguments (tokens.take (runLength true 0 tokens))).all (!·.isEmpty) = true := by
    unfold splitArguments
    by_cases nothing : tokens.take (runLength true 0 tokens) = []
    · simp [nothing]
    · rw [if_neg (by simpa using nothing), listed_iff longest.holds]
      simp [nothing]
  have unfolded : arguments.take? atStart tokens = argumentsLength? tokens := by
    simp [take?, arguments]
  rw [unfolded, argumentsLength?_eq]
  constructor
  · intro taken
    split at taken
    · next each =>
      obtain rfl := Option.some.inj taken
      exact ⟨longest, listed.mpr each⟩
    · cases taken
  · rintro ⟨other, each⟩
    obtain rfl := longest.unique other
    exact if_pos (listed.mp each)

/-- The matchers of runs accept what the grammar says, wherever they start. A run stops at a comma
    outside all brackets, or at a bracket that closes around it; a list of arguments only stops at
    such a bracket, and is refused as a whole if an argument is missing in it. -/
theorem spans_exact (tokens : List Token) (offset : Nat) :
    (∃ n, optionalRun.take? (offset == 0) (tokens.drop offset) = some n ∧
      IsLongest IsRun (tokens.drop offset) n) ∧
    (∀ n, run.take? (offset == 0) (tokens.drop offset) = some n ↔
      IsLongest IsRun (tokens.drop offset) n ∧ n ≠ 0) ∧
    (∀ n, arguments.take? (offset == 0) (tokens.drop offset) = some n ↔
      IsLongest ClosesOwn (tokens.drop offset) n ∧
        ((tokens.drop offset).take n = [] ∨ Listed ((tokens.drop offset).take n))) ∧
    (∃ stop, IsLongest ClosesOwn (tokens.drop offset) stop ∧
      LoopStays (tokens.drop offset) stop) ∧
    ∀ span, ClosesOwn span → joined (splitArguments span) = span.map Token.content := by
  have taken : optionalRun.take? (offset == 0) (tokens.drop offset) =
      some (runLength false 0 (tokens.drop offset)) := by
    simp [take?, optionalRun]
  have total := isLongest_closesOwn (tokens.drop offset)
  exact ⟨⟨_, taken, isLongest_run _⟩, take?_run_iff _ _, take?_arguments_iff _ _,
    ⟨_, total, loopStays total⟩, fun span own => own.separated_splitArguments.joined⟩

/-- An opened bracket that is not closed keeps the commas behind it. -/
example : arguments.take? true [.grouping .opening, .grouping .comma, .grouping .comma] =
    some 3 := by cbv

/-- A comma at the end leaves an argument out. -/
example : arguments.take? true [.data .null, .grouping .comma, .grouping .closing] = none := by cbv

end Matcher

end Formulary
