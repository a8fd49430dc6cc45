import Formulary.Proofs.Search
import Formulary.Proofs.StoredRules

/-!
What rule indices remember. It never shows: whatever indices were asked, brought up to date or
copied before, an index finds relevant what it would find relevant without its memory. All it
remembers it has found itself, by the rules it has now.
-/
namespace Formulary

/-! Profiles that are alike -/

theorem contains_eq_of_all {α : Type} [BEq α] [LawfulBEq α] {l m : List α}
    (sub : l.all m.contains = true) (sup : m.all l.contains = true) : l.contains = m.contains := by
  funext a
  rw [Bool.eq_iff_iff, List.contains_iff_mem, List.contains_iff_mem]
  constructor
  · intro member
    exact List.contains_iff_mem.mp (List.all_eq_true.mp sub a member)
  · intro member
    exact List.contains_iff_mem.mp (List.all_eq_true.mp sup a member)

theorem Rule.appliesTo_of_alike {p q : Profile} (alike : p.alike q = true) (r : Rule) :
    r.appliesTo p = r.appliesTo q := by
  simp only [Profile.alike, Bool.and_eq_true] at alike
  obtain ⟨⟨⟨categories, categories'⟩, symbols⟩, symbols'⟩ := alike
  unfold appliesTo
  rw [contains_eq_of_all categories categories', contains_eq_of_all symbols symbols']

namespace RuleIndex

variable {index : RuleIndex} {tokens : List Token}

theorem candidates_of_alike (index : RuleIndex) {p q : Profile} (alike : p.alike q = true) :
    index.candidates p = index.candidates q := by
  unfold candidates
  simp only [Rule.appliesTo_of_alike alike]

/-! One index -/

/-- All that is remembered is what would be found again. -/
def Faithful (index : RuleIndex) : Prop :=
  ∀ entry ∈ index.remembered, entry.2 = index.candidates entry.1

theorem Faithful.memory? (faithful : index.Faithful) {profile : Profile}
    {entry : Profile × List Nat} (recalled : index.memory? profile = some entry) :
    entry.2 = index.candidates profile := by
  have alike : entry.1.alike profile = true := by simpa using List.find?_some recalled
  rw [faithful entry (List.mem_of_find?_eq_some recalled)]
  exact index.candidates_of_alike alike

theorem relevant_of_memory? {entry : Profile × List Nat}
    (recalled : index.memory? (.ofTokens tokens) = some entry) :
    index.relevant tokens = (entry.2, index) := by simp [relevant, recalled]

theorem relevant_of_unknown (unknown : index.memory? (.ofTokens tokens) = none) :
    index.relevant tokens = (index.candidates (.ofTokens tokens),
      { index with remembered :=
          (.ofTokens tokens, index.candidates (.ofTokens tokens)) :: index.remembered }) := by
  simp [relevant, unknown]

theorem Faithful.relevant (faithful : index.Faithful) (tokens : List Token) :
    (index.relevant tokens).1 = index.candidates (.ofTokens tokens) := by
  cases recalled : index.memory? (.ofTokens tokens) with
  | none => rw [relevant_of_unknown recalled]
  | some entry =>
    rw [relevant_of_memory? recalled]
    exact faithful.memory? recalled

theorem relevant_snd (index : RuleIndex) (tokens : List Token) :
    ∃ remembered, (index.relevant tokens).2 = { index with remembered } ∧
      ∀ entry ∈ remembered, entry ∈ index.remembered ∨
        entry = (.ofTokens tokens, index.candidates (.ofTokens tokens)) := by
  cases recalled : index.memory? (.ofTokens tokens) with
  | none =>
    rw [relevant_of_unknown recalled]
    refine ⟨_, rfl, ?_⟩
    intro entry member
    exact (List.mem_cons.mp member).symm
  | some entry =>
    rw [relevant_of_memory? recalled]
    exact ⟨index.remembered, rfl, fun other member => .inl member⟩

theorem Faithful.find? (faithful : index.Faithful) {book : RuleBook}
    (same : index.rules = book.rules) (tokens : List Token) :
    (index.find? tokens).1 = book.find? tokens := by
  obtain ⟨remembered, after, _⟩ := index.relevant_snd tokens
  have places : (index.relevant tokens).1 = book.relevant tokens := by
    rw [faithful.relevant]
    unfold candidates RuleBook.relevant RuleBook.candidates
    rw [same]
  have rule (place : Nat) : (index.relevant tokens).2.rule? place = book.rule? place := by
    rw [rule?_eq, after]
    unfold RuleBook.rule?
    rw [← same]
    rfl
  unfold RuleIndex.find? RuleBook.find?
  simp only [places, rule]

end RuleIndex

/-! Several indices -/

inductive IndexRequest where
  | relevant (place : Nat) (tokens : List Token)
  | register (place : Nat) (d : Definition)
  | copy (place : Nat)

namespace IndexRequest

def perform (indices : List RuleIndex) : IndexRequest → List RuleIndex
  | relevant place tokens => indices.modify place fun index => (index.relevant tokens).2
  | register place d => indices.modify place fun index => index.register d
  | copy place => indices ++ (indices[place]?.map RuleIndex.copy).toList

def run (requests : List IndexRequest) : List RuleIndex := requests.foldl perform [.initial]

theorem run_concat (requests : List IndexRequest) (request : IndexRequest) :
    run (requests ++ [request]) = perform (run requests) request := by
  unfold run
  rw [List.foldl_append]
  rfl

inductive Performed (indices : List RuleIndex) (place : Nat) : IndexRequest → RuleIndex → Prop where
  | asked {old : RuleIndex} (tokens : List Token) : indices[place]? = some old →
      Performed indices place (relevant place tokens) (old.relevant tokens).2
  | registered {old : RuleIndex} (d : Definition) : indices[place]? = some old →
      Performed indices place (register place d) (old.register d)
  | copied {old : RuleIndex} (origin : Nat) : indices[origin]? = some old →
      Performed indices place (copy origin) old.copy
  | kept {request : IndexRequest} {index : RuleIndex} : indices[place]? = some index →
      (∀ d, request ≠ register place d) → Performed indices place request index

theorem performed {indices : List RuleIndex} {request : IndexRequest} {place : Nat}
    {index : RuleIndex} (known : (perform indices request)[place]? = some index) :
    Performed indices place request index := by
  cases request with
  | relevant asked tokens =>
    rw [perform, List.getElem?_modify] at known
    obtain ⟨old, there, rfl⟩ := Option.map_eq_some_iff.mp known
    split
    · next here => exact here ▸ .asked tokens (here ▸ there)
    · exact .kept there (by simp)
  | register asked d =>
    rw [perform, List.getElem?_modify] at known
    obtain ⟨old, there, rfl⟩ := Option.map_eq_some_iff.mp known
    split
    · next here => exact here ▸ .registered d (here ▸ there)
    · next elsewhere =>
      refine .kept there ?_
      rintro e same
      cases same
      exact elsewhere rfl
  | copy origin =>
    rw [perform, List.getElem?_append] at known
    split at known
    · exact .kept known (by simp)
    · obtain ⟨old, there, rfl⟩ : ∃ old, indices[origin]? = some old ∧ old.copy = index := by
        have copied := List.mem_of_getElem? known
        simpa using copied
      exact .copied origin there

/-- The index at the place has made the entry itself when it was asked, with the rules that it has
    now, and no function has been registered with it since. -/
def Made (requests : List IndexRequest) (place : Nat) (index : RuleIndex)
    (entry : Profile × List Nat) : Prop :=
  ∃ before tokens after asked, requests = before ++ relevant place tokens :: after ∧
    (run before)[place]? = some asked ∧ asked.rules = index.rules ∧
    entry = (.ofTokens tokens, asked.candidates (.ofTokens tokens)) ∧
    ∀ d, register place d ∉ after

variable {requests : List IndexRequest} {place : Nat} {index : RuleIndex}
  {entry : Profile × List Nat}

theorem Made.concat (made : Made requests place index entry) {request : IndexRequest}
    (other : ∀ d, request ≠ register place d) {next : RuleIndex} (same : next.rules = index.rules) :
    Made (requests ++ [request]) place next entry := by
  obtain ⟨before, tokens, after, asked, rfl, known, rules, found, unregistered⟩ := made
  refine ⟨before, tokens, after ++ [request], asked, by simp, known, rules.trans same.symm, found,
    ?_⟩
  intro d member
  rcases List.mem_append.mp member with member | member
  · exact unregistered d member
  · exact other d (List.mem_singleton.mp member).symm

theorem Made.faithful (made : Made requests place index entry) :
    entry.2 = index.candidates entry.1 := by
  obtain ⟨_, _, _, asked, _, _, rules, rfl, _⟩ := made
  unfold RuleIndex.candidates
  rw [rules]

theorem made_of_remembered (known : (run requests)[place]? = some index)
    (member : entry ∈ index.remembered) : Made requests place index entry := by
  -- By induction on the requests: each keeps what it says of one index, and leaves the others.
  induction requests using List.reverseRecOn generalizing place index entry with
  | nil =>
    cases place with
    | zero =>
      obtain rfl := Option.some.inj known
      cases member
    | succ place => cases known
  | append_singleton requests request ih =>
    rw [run_concat] at known
    cases performed known with
    | @asked old tokens there =>
      obtain ⟨remembered, after, entries⟩ := old.relevant_snd tokens
      rw [after] at member ⊢
      rcases entries entry member with earlier | now
      · exact (ih there earlier).concat (by simp) rfl
      · exact ⟨requests, tokens, [], old, rfl, there, rfl, now, by simp⟩
    | registered d there => cases member
    | copied origin there => cases member
    | kept there others => exact (ih there member).concat others rfl

theorem exists_registered (known : (run requests)[place]? = some index) :
    ∃ history, index.copy = RuleIndex.registered history := by
  induction requests using List.reverseRecOn generalizing place index with
  | nil =>
    cases place with
    | zero =>
      obtain rfl := Option.some.inj known
      exact ⟨[], rfl⟩
    | succ place => cases known
  | append_singleton requests request ih =>
    rw [run_concat] at known
    cases performed known with
    | @asked old tokens there =>
      obtain ⟨history, same⟩ := ih there
      obtain ⟨remembered, after, _⟩ := old.relevant_snd tokens
      rw [after]
      exact ⟨history, same⟩
    | registered d there =>
      obtain ⟨history, same⟩ := ih there
      refine ⟨history ++ [d], ?_⟩
      rw [RuleIndex.registered_concat, ← same]
      rfl
    | copied origin there =>
      obtain ⟨history, same⟩ := ih there
      exact ⟨history, same⟩
    | kept there _ => exact ih there

theorem faithful_of_run (known : (run requests)[place]? = some index) : index.Faithful := by
  intro entry member
  exact (made_of_remembered known member).faithful

/-- Whatever an index remembers, rules and functions are found as in the rule book of some
    registrations. -/
theorem find?_of_run (known : (run requests)[place]? = some index) : ∃ history,
    (∀ tokens, (index.find? tokens).1 = (RuleBook.registered history).find? tokens) ∧
      ∀ name, index.functions.get? name = (RuleBook.registered history).function? name := by
  obtain ⟨history, same⟩ := exists_registered known
  have rules : index.rules = (RuleBook.registered history).rules := by
    rw [← RuleIndex.rules_registered, ← same]
    rfl
  refine ⟨history, (faithful_of_run known).find? rules, ?_⟩
  intro name
  rw [← RuleIndex.functions_registered, ← same]
  rfl

/-- The memory never shows. After any requests to any of the indices, each finds what an index with
    the same rules and no memory finds. All it remembers it has found itself by the rules that it
    has now, and after the last registration. Tokens that an entry would serve need what it says. -/
theorem memory_invisible (requests : List IndexRequest) (place : Nat) (index : RuleIndex)
    (known : (run requests)[place]? = some index) :
    (∀ (tokens : List Token) (fresh : RuleIndex), fresh.rules = index.rules →
      fresh.remembered = [] → (index.relevant tokens).1 = (fresh.relevant tokens).1) ∧
    (∀ entry ∈ index.remembered, Made requests place index entry) ∧
    ∀ entry ∈ index.remembered, ∀ tokens, entry.1.alike (.ofTokens tokens) = true →
      entry.2 = index.candidates (.ofTokens tokens) := by
  have faithful := faithful_of_run known
  refine ⟨?_, fun entry member => made_of_remembered known member, ?_⟩
  · intro tokens fresh rules empty
    have unknown : fresh.memory? (.ofTokens tokens) = none := by
      unfold RuleIndex.memory?
      rw [empty]
      rfl
    rw [faithful.relevant, RuleIndex.relevant_of_unknown unknown]
    unfold RuleIndex.candidates
    rw [rules]
  · intro entry member tokens alike
    rw [faithful entry member]
    exact index.candidates_of_alike alike

/-- A sum is looked at, and again in a copy, after a function has been registered with the
    original: what the copy finds is remembered in the copy alone. -/
theorem memory_invisible_copy :
    let d : Definition := ⟨.mk "first", .between 1 none, fun values => .ok (values.headD .null)⟩
    let tokens := [Token.data (.integer 1), .operator .add, .data (.integer 2)]
    let requests := [relevant 0 tokens, copy 0, register 0 d, relevant 1 tokens]
    let original := (RuleIndex.initial.relevant tokens).2.register d
    let copied := ((RuleIndex.initial.relevant tokens).2.copy.relevant tokens).2
    (run requests)[0]? = some original ∧ original.remembered = [] ∧
      (run requests)[1]? = some copied ∧ copied.remembered.length = 1 ∧
      ∀ entry ∈ copied.remembered, Made requests 1 copied entry := by
  intro d tokens requests original copied
  have known : (run requests)[1]? = some copied := rfl
  exact ⟨rfl, rfl, known, rfl, (memory_invisible requests 1 copied known).2.1⟩

end IndexRequest

end Formulary
