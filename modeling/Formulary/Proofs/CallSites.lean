import Formulary.Proofs.Rewriting
import Formulary.Proofs.Search

/-!
Calls of registered functions. Their rules come before all others and match wherever the tokens of
a call stand, also between brackets. A call ends where its bracket closes, so that it is the same
whatever stands behind the tokens it belongs to.
-/
namespace Formulary

/-! Depths -/

theorem depthAfter?_add {depth next : Nat} {t : Token} (after : depthAfter? depth t = some next)
    (more : Nat) : depthAfter? (depth + more) t = some (next + more) := by
  unfold depthAfter? at after ⊢
  split
  · next opens =>
    rw [if_pos opens] at after
    cases after
    congr 1
    omega
  · next opens =>
    rw [if_neg opens] at after
    split
    · next closes =>
      rw [if_pos closes] at after
      cases depth with
      | zero => cases after
      | succ depth =>
        cases after
        rw [Nat.add_right_comm]
    · next closes =>
      rw [if_neg closes] at after
      cases after
      rfl

theorem endDepth?_add {depth final : Nat} {tokens : List Token}
    (ends : endDepth? depth tokens = some final) (more : Nat) :
    endDepth? (depth + more) tokens = some (final + more) := by
  induction tokens generalizing depth with
  | nil =>
    cases ends
    rfl
  | cons t rest ih =>
    obtain ⟨next, here, there⟩ := Option.bind_eq_some_iff.mp ends
    rw [endDepth?, depthAfter?_add here more]
    exact ih there

theorem depthAfter?_of_category {t : Token} (other : t.category ≠ .grouping) (depth : Nat) :
    depthAfter? depth t = some depth := by
  simp [depthAfter?, Token.isOpening, Token.isClosing, Token.not_isGrouping other]

theorem depthAfter?_of_isOpening {t : Token} (opens : t.isOpening = true) (depth : Nat) :
    depthAfter? depth t = some (depth + 1) := by
  unfold depthAfter?
  rw [if_pos opens]

/-! Runs, and what stands behind their brackets -/

theorem runLength_append {depth around : Nat} {tokens : List Token}
    (closes : endDepth? (depth + (around + 1)) tokens = some 0) (throughCommas : Bool)
    (behind : List Token) :
    runLength throughCommas depth (tokens ++ behind) = runLength throughCommas depth tokens := by
  induction tokens generalizing depth with
  | nil =>
    have impossible := Option.some.inj closes
    omega
  | cons t rest ih =>
    cases next : depthAfter? depth t with
    | none => simp [runLength, next]
    | some inner =>
      obtain ⟨_, here, there⟩ := Option.bind_eq_some_iff.mp closes
      rw [depthAfter?_add next] at here
      cases here
      simp only [List.cons_append, runLength, next, ih there]

theorem closes_drop_runLength {around : Nat} {tokens : List Token}
    (closes : endDepth? (around + 1) tokens = some 0) (throughCommas : Bool) :
    endDepth? (around + 1) (tokens.drop (runLength throughCommas 0 tokens)) = some 0 := by
  obtain ⟨final, ends, closed⟩ := endDepth?_take_runLength throughCommas 0 tokens
  have inner := endDepth?_add ends (around + 1)
  have whole := endDepth?_append (around + 1) (tokens.take (runLength throughCommas 0 tokens))
    (tokens.drop (runLength throughCommas 0 tokens))
  rw [Nat.zero_add] at inner
  rw [List.take_append_drop, closes, inner, Option.bind_some] at whole
  by_cases more : tokens.drop (runLength throughCommas 0 tokens) = []
  · rw [more] at whole
    have impossible := Option.some.inj whole
    omega
  · rw [closed more, Nat.zero_add] at whole
    exact whole.symm

theorem argumentsLength?_append {around : Nat} {tokens : List Token}
    (closes : endDepth? (around + 1) tokens = some 0) (behind : List Token) :
    argumentsLength? (tokens ++ behind) = argumentsLength? tokens := by
  have total : runLength true 0 (tokens ++ behind) = runLength true 0 tokens :=
    runLength_append (by rwa [Nat.zero_add]) true behind
  have same : (tokens ++ behind).take (runLength true 0 tokens) =
      tokens.take (runLength true 0 tokens) :=
    List.take_append_of_le_length (runLength_le true 0 tokens)
  simp only [argumentsLength?_eq, total, same]

namespace Matcher

def IsInner (m : Matcher) : Prop := m = run ∨ m = optionalRun ∨ m = arguments ∨ m = comma

theorem IsInner.take?_append {m : Matcher} (inner : m.IsInner) {around : Nat}
    {tokens : List Token} (closes : endDepth? (around + 1) tokens = some 0)
    (atStart atStart' : Bool) (behind : List Token) :
    m.take? atStart (tokens ++ behind) = m.take? atStart' tokens ∧
      ∀ n, m.take? atStart' tokens = some n →
        n ≤ tokens.length ∧ endDepth? (around + 1) (tokens.drop n) = some 0 := by
  have run : runLength false 0 (tokens ++ behind) = runLength false 0 tokens :=
    runLength_append (by rwa [Nat.zero_add]) false behind
  rcases inner with rfl | rfl | rfl | rfl
  · constructor
    · simp [take?, Matcher.run, run]
    · intro n taken
      simp only [take?, Matcher.run, Bool.false_and, Bool.false_eq_true, if_false] at taken
      split at taken
      · cases taken
      · cases taken
        exact ⟨runLength_le false 0 tokens, closes_drop_runLength closes false⟩
  · constructor
    · simp [take?, optionalRun, run]
    · intro n taken
      cases taken
      exact ⟨runLength_le false 0 tokens, closes_drop_runLength closes false⟩
  · have same := argumentsLength?_append closes behind
    constructor
    · simp [take?, arguments, same]
    · intro n taken
      simp only [take?, arguments, Bool.false_and, Bool.false_eq_true, if_false] at taken
      obtain rfl := argumentsLength?_eq_some taken
      exact ⟨runLength_le true 0 tokens, closes_drop_runLength closes true⟩
  · cases tokens with
    | nil => cases closes
    | cons t rest =>
      constructor
      · simp [take?, comma, grouping]
      · intro n taken
        obtain ⟨other, behind, same, accepted, rfl⟩ := take?_one rfl taken
        cases same
        have through := depthAfter?_comma (isComma_of_accepts accepted) (around + 1)
        rw [endDepth?, through] at closes
        exact ⟨by simp, closes⟩

theorem take?_le {m : Matcher} {atStart : Bool} {tokens : List Token} {n : Nat}
    (taken : m.take? atStart tokens = some n) : n ≤ tokens.length := by
  cases kind : m.shape with
  | one categories symbols =>
    obtain ⟨t, rest, rfl, _, rfl⟩ := take?_one kind taken
    simp
  | _ =>
    unfold take? at taken
    split at taken
    · cases taken
    · simp only [kind, argumentsLength?_eq] at taken
      first
        | (split at taken <;> cases taken; exact runLength_le _ 0 tokens)
        | (cases taken; exact runLength_le _ 0 tokens)

end Matcher

namespace Pattern

theorem take?_inner_append {pattern : Pattern} (inner : ∀ m ∈ pattern, m.IsInner) {around : Nat}
    {tokens : List Token} (closes : endDepth? (around + 1) tokens = some 0)
    (atStart atStart' : Bool) (behind : List Token) :
    take? (pattern ++ [.closing]) atStart (tokens ++ behind) =
      take? (pattern ++ [.closing]) atStart' tokens := by
  induction pattern generalizing tokens atStart atStart' with
  | nil =>
    cases tokens with
    | nil => cases closes
    | cons t rest => simp [take?, Matcher.take?, Matcher.closing, Matcher.grouping]
  | cons m pattern ih =>
    obtain ⟨same, left⟩ := (inner m List.mem_cons_self).take?_append closes atStart atStart' behind
    simp only [List.cons_append, take?, same]
    cases taken : m.take? atStart' tokens with
    | none => rfl
    | some n =>
      obtain ⟨short, more⟩ := left n taken
      have rest := ih (fun other member => inner other (List.mem_cons_of_mem m member)) more
        (atStart && n == 0) (atStart' && n == 0)
      simp only [Option.bind_eq_bind, Option.bind_some,
        List.drop_append_of_le_length short, rest]

end Pattern

theorem Pattern.take?_le {pattern : Pattern} {atStart : Bool} {tokens : List Token} {n : Nat}
    (taken : pattern.take? atStart tokens = some n) : n ≤ tokens.length := by
  induction pattern generalizing atStart tokens n with
  | nil =>
    cases taken
    exact Nat.zero_le _
  | cons m pattern ih =>
    obtain ⟨first, others, here, there, rfl⟩ := take?_cons taken
    have rest := ih there
    have short : first ≤ tokens.length := Matcher.take?_le here
    rw [List.length_drop] at rest
    omega

/-! Calls and groups among other tokens -/

namespace Pattern

/-- Patterns of calls and of groups: they begin with the bracket that their last matcher closes,
    and with the name of a function before it. -/
inductive Bracketed : Pattern → Prop where
  | call (names : List Symbol) {inner : Pattern} : (∀ m ∈ inner, m.IsInner) →
      Bracketed (⟨.one [.function] names, false⟩ :: .callOpening :: (inner ++ [.closing]))
  | group {inner : Pattern} : (∀ m ∈ inner, m.IsInner) →
      Bracketed (.opening :: (inner ++ [.closing]))

namespace Bracketed

variable {pattern : Pattern} (bracketed : pattern.Bracketed)

include bracketed

theorem headed : pattern.Headed := by
  cases bracketed with
  | call names inner => exact ⟨_, _, rfl, _, _, rfl⟩
  | group inner => exact ⟨_, _, rfl, _, _, rfl⟩

/-- Whether a match begins with the tokens depends on them alone, if all brackets are closed in
    them and no bracket for arguments follows. -/
theorem take?_append {depth : Nat} {tokens : List Token} (nonempty : tokens ≠ [])
    (closes : endDepth? depth tokens = some 0) {stop : Token}
    (apart : Matcher.callOpening.accepts stop = false) (atStart atStart' : Bool)
    (more : List Token) :
    pattern.take? atStart (tokens ++ stop :: more) = pattern.take? atStart' tokens := by
  have single : Matcher.callOpening.IsSingle := ⟨_, _, rfl⟩
  cases tokens with
  | nil => exact absurd rfl nonempty
  | cons t rest =>
    rw [List.cons_append]
    obtain ⟨next, here, there⟩ := Option.bind_eq_some_iff.mp closes
    cases bracketed with
    | group inner =>
      rw [take?_cons_single ⟨_, _, rfl⟩ rfl, take?_cons_single ⟨_, _, rfl⟩ rfl]
      split
      · next opens =>
        rw [depthAfter?_of_isOpening (Matcher.isOpening_of_accepts (.inl opens))] at here
        cases here
        rw [take?_inner_append inner there]
      · rfl
    | call names inner =>
      rw [take?_cons_single ⟨_, _, rfl⟩ rfl, take?_cons_single ⟨_, _, rfl⟩ rfl]
      split
      · next begins =>
        have function : t.category = .function := Matcher.category_of_accepts rfl begins
        rw [depthAfter?_of_category (by rw [function]; decide)] at here
        cases here
        congr 1
        cases rest with
        | nil =>
          rw [List.nil_append, take?_cons_of_rejects single apart]
          exact (take?_nil_of_headed ⟨_, _, rfl, single⟩ false).symm
        | cons u rest =>
          obtain ⟨inside, opened, there⟩ := Option.bind_eq_some_iff.mp there
          rw [List.cons_append, take?_cons_single single rfl, take?_cons_single single rfl]
          split
          · next opens =>
            rw [depthAfter?_of_isOpening (Matcher.isOpening_of_accepts (.inr opens))] at opened
            cases opened
            rw [take?_inner_append inner there]
          · rfl
      · rfl

theorem take?_atStart (atStart : Bool) (tokens : List Token) :
    pattern.take? atStart tokens = pattern.take? false tokens := by
  cases tokens with
  | nil => rw [take?_nil_of_headed bracketed.headed, take?_nil_of_headed bracketed.headed]
  | cons t rest =>
    cases bracketed with
    | call names inner =>
      rw [take?_cons_single ⟨_, _, rfl⟩ rfl, take?_cons_single ⟨_, _, rfl⟩ rfl]
    | group inner => rw [take?_cons_single ⟨_, _, rfl⟩ rfl, take?_cons_single ⟨_, _, rfl⟩ rfl]

end Bracketed

end Pattern

def Stretch.shift (s : Stretch) (ahead : Nat) : Stretch := ⟨s.start + ahead, s.length⟩

namespace Definition

variable (d : Definition)

theorem isInner_of_mem {m : Matcher} (member : m ∈ argumentPattern d.signature) : m.IsInner := by
  unfold argumentPattern at member
  cases kind : d.signature with
  | between least most =>
    rw [kind] at member
    exact .inr (.inr (.inl (List.mem_singleton.mp member)))
  | parameters names =>
    rw [kind] at member
    clear kind
    induction names with
    | nil => cases member
    | cons name names ih =>
      cases names with
      | nil => exact .inl (List.mem_singleton.mp member)
      | cons next names =>
        rcases List.mem_cons.mp member with run | member
        · exact .inl run
        · rcases List.mem_cons.mp member with comma | member
          · exact .inr (.inr (.inr comma))
          · exact ih member

theorem isSingle_name : (Matcher.function d.name).IsSingle := ⟨_, _, rfl⟩

theorem pattern_eq : d.pattern =
    .function d.name :: .callOpening :: (argumentPattern d.signature ++ [.closing]) := by
  simp [pattern]

theorem bracketed : d.pattern.Bracketed := by
  rw [pattern_eq]
  exact .call [.function d.name] fun m member => d.isInner_of_mem member

theorem findFrom?_add (start : Nat) (tokens : List Token) :
    d.pattern.findFrom? start tokens =
      (d.pattern.findFrom? 0 tokens).map fun s => ⟨s.start + start, s.length⟩ := by
  induction tokens generalizing start with
  | nil => rfl
  | cons t rest ih =>
    simp only [Pattern.findFrom?, d.bracketed.take?_atStart]
    cases d.pattern.take? false (t :: rest) with
    | some n => simp
    | none =>
      rw [ih (start + 1), ih (0 + 1), Option.map_map]
      refine Option.map_congr fun s _ => ?_
      simp only [Function.comp]
      congr 1
      omega

theorem find?_eq (tokens : List Token) : d.pattern.find? tokens = d.pattern.findFrom? 0 tokens := by
  have free : d.pattern.isAnchored = false := by
    rw [pattern_eq]
    rfl
  unfold Pattern.find?
  rw [if_neg (by simp [free])]

theorem findFrom?_append {depth : Nat} {left : List Token}
    (closes : endDepth? depth left = some 0) {t : Token}
    (begins : (Matcher.function d.name).accepts t = false)
    (apart : left = [] ∨ Matcher.callOpening.accepts t = false) (start : Nat)
    (right : List Token) :
    d.pattern.findFrom? start (left ++ t :: right) = (d.pattern.findFrom? start left).or
      (d.pattern.findFrom? (start + (left.length + 1)) right) := by
  -- By induction on the tokens in front: what is left of them still closes all brackets.
  induction left generalizing depth start with
  | nil =>
    have none : d.pattern.take? (start == 0) (t :: right) = none := by
      rw [pattern_eq]
      exact Pattern.take?_cons_of_rejects d.isSingle_name begins _ _ _
    simp [Pattern.findFrom?, none]
  | cons u left ih =>
    have apart : Matcher.callOpening.accepts t = false := by
      rcases apart with impossible | apart
      · cases impossible
      · exact apart
    have here := d.bracketed.take?_append (List.cons_ne_nil u left) closes apart (start == 0)
      (start == 0) right
    obtain ⟨_, _, there⟩ := Option.bind_eq_some_iff.mp closes
    rw [List.cons_append] at here ⊢
    simp only [Pattern.findFrom?, here]
    cases d.pattern.take? (start == 0) (u :: left) with
    | some n => rfl
    | none =>
      have rest := ih there (.inr apart) (start + 1)
      rw [List.length_cons, show start + (left.length + 1 + 1) = start + 1 + (left.length + 1) by
        omega]
      exact rest

theorem find?_append {left : List Token} (balanced : endDepth? 0 left = some 0) {t : Token}
    (begins : (Matcher.function d.name).accepts t = false)
    (apart : left = [] ∨ Matcher.callOpening.accepts t = false) (right : List Token) :
    d.pattern.find? (left ++ t :: right) = (d.pattern.find? left).or
      ((d.pattern.find? right).map fun s => s.shift (left.length + 1)) := by
  rw [find?_eq, find?_eq, find?_eq, d.findFrom?_append balanced begins apart,
    d.findFrom?_add (0 + (left.length + 1)), Nat.zero_add]
  rfl

end Definition

/-! The call that is rewritten next -/

def RuleMatch.shift (m : RuleMatch) (ahead : Nat) : RuleMatch :=
  { m with stretch := m.stretch.shift ahead }

theorem findSome?_or {α β : Type} {f g h : α → Option β} {l : List α}
    (either : ∀ a ∈ l, f a = (g a).or (h a)) :
    (l.findSome? f = none ↔ l.findSome? g = none ∧ l.findSome? h = none) ∧
      ∀ b, l.findSome? f = some b → l.findSome? g = some b ∨ l.findSome? h = some b := by
  induction l with
  | nil => simp
  | cons a l ih =>
    obtain ⟨none, found⟩ := ih fun other member => either other (List.mem_cons_of_mem a member)
    simp only [List.findSome?_cons, either a List.mem_cons_self]
    cases left : g a with
    | some c => simp
    | none =>
      cases right : h a with
      | some c => simp
      | none => exact ⟨by simpa using none, by simpa using found⟩

namespace RuleBook

variable {book : RuleBook}

def matchOf? (tokens : List Token) (entry : Definition × Nat) : Option RuleMatch :=
  (entry.1.pattern.find? tokens).map fun s => ⟨entry.2, entry.1.rule, s⟩

def findCall? (book : RuleBook) (tokens : List Token) : Option RuleMatch :=
  book.custom.zipIdx.findSome? (matchOf? tokens)

theorem find?_of_findCall? {tokens : List Token} {m : RuleMatch}
    (found : book.findCall? tokens = some m) : book.find? tokens = some m := by
  rw [find?_eq_search]
  unfold search rules
  rw [List.zipIdx_append, List.findSome?_append, List.zipIdx_map, List.findSome?_map]
  have first : book.custom.zipIdx.findSome? ((fun entry : Rule × Nat =>
      (entry.1.pattern.find? tokens).map fun s => (⟨entry.2, entry.1, s⟩ : RuleMatch)) ∘
        Prod.map Definition.rule id) = some m := found
  rw [first]
  rfl

theorem findCall?_eq_none_iff {tokens : List Token} :
    book.findCall? tokens = none ↔ ∀ d ∈ book.custom, d.pattern.find? tokens = none := by
  unfold findCall?
  rw [List.findSome?_eq_none_iff]
  constructor
  · intro none d member
    obtain ⟨index, known⟩ := List.getElem?_of_mem member
    exact Option.map_eq_none_iff.mp (none (d, index) (List.mem_zipIdx_iff_getElem?.mpr known))
  · intro none entry member
    unfold matchOf?
    rw [none entry.1 (List.fst_mem_of_mem_zipIdx member)]
    rfl

theorem findCall?_eq_some {tokens : List Token} {m : RuleMatch}
    (found : book.findCall? tokens = some m) :
    ∃ d ∈ book.custom, m.rule = d.rule ∧
      d.pattern.take? (m.stretch.start == 0) (tokens.drop m.stretch.start) =
        some m.stretch.length := by
  obtain ⟨entry, member, found⟩ := List.exists_of_findSome?_eq_some found
  obtain ⟨s, here, rfl⟩ := Option.map_eq_some_iff.mp found
  exact ⟨entry.1, List.fst_mem_of_mem_zipIdx member, rfl, Pattern.take?_of_find? here⟩

/-- No call begins with the token, and none that begins in the tokens before it goes on there. -/
structure Parts (book : RuleBook) (left : List Token) (t : Token) : Prop where
  begins : ∀ d ∈ book.custom, (Matcher.function d.name).accepts t = false
  balanced : endDepth? 0 left = some 0
  apart : left = [] ∨ Matcher.callOpening.accepts t = false

theorem parts_of_grouping (book : RuleBook) {left : List Token} {t : Token} {mark : Grouping}
    (content : t.content = .symbol (.grouping mark)) (balanced : endDepth? 0 left = some 0)
    (other : mark ≠ .callOpening) : book.Parts left t :=
  ⟨fun d _ => Matcher.function_rejects d.name content, balanced,
    .inr (Matcher.rejects_grouping content other)⟩

theorem findCall?_append {left : List Token} {t : Token} (parts : book.Parts left t)
    (right : List Token) :
    (book.findCall? (left ++ t :: right) = none ↔
      book.findCall? left = none ∧ book.findCall? right = none) ∧
    ∀ m, book.findCall? (left ++ t :: right) = some m → book.findCall? left = some m ∨
      ∃ m', book.findCall? right = some m' ∧ m = m'.shift (left.length + 1) := by
  have either (entry : Definition × Nat) (member : entry ∈ book.custom.zipIdx) :
      matchOf? (left ++ t :: right) entry = (matchOf? left entry).or
        ((matchOf? right entry).map fun m => m.shift (left.length + 1)) := by
    have begins := parts.begins entry.1 (List.fst_mem_of_mem_zipIdx member)
    unfold matchOf?
    rw [entry.1.find?_append parts.balanced begins parts.apart]
    cases entry.1.pattern.find? left <;> cases entry.1.pattern.find? right <;> rfl
  have shifted : (book.custom.zipIdx.findSome? fun entry =>
      (matchOf? right entry).map fun m => m.shift (left.length + 1)) =
        (book.findCall? right).map fun m => m.shift (left.length + 1) := List.map_findSome?.symm
  obtain ⟨none, found⟩ := findSome?_or either
  rw [shifted] at none found
  constructor
  · simpa [findCall?] using none
  · intro m here
    rcases found m here with inLeft | inRight
    · exact .inl inLeft
    · obtain ⟨m', there, same⟩ := Option.map_eq_some_iff.mp inRight
      exact .inr ⟨m', there, same.symm⟩

end RuleBook

end Formulary
