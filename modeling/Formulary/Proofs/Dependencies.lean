import Formulary.Proofs.Arrangement
import Formulary.Proofs.Bindings
import Formulary.Proofs.Failures

/-!
Which variables an expression depends on. The list of those without a value foretells whether an
evaluation misses one, and which: they are missed before anything is evaluated, and never
afterwards.
-/
namespace Formulary

/-! Everything once -/

theorem find?_distinct {α : Type} [BEq α] [LawfulBEq α] (p : α → Bool) (l : List α) :
    (distinct l).find? p = l.find? p := by
  induction l with
  | nil => rfl
  | cons a l ih =>
    rw [distinct, List.find?_cons, List.find?_cons]
    cases here : p a with
    | true => rfl
    | false =>
      have apart : (fun b => (b != a) && p b) = p := by
        funext b
        by_cases same : b = a
        · rw [same, here, Bool.and_false]
        · rw [bne_iff_ne.mpr same, Bool.true_and]
      dsimp only
      rw [List.find?_filter, ← ih]
      exact congrArg (List.find? · (distinct l)) (by simpa using apart)

theorem pairwise_distinct {α : Type} [BEq α] [LawfulBEq α] (l : List α) :
    (distinct l).Pairwise fun a b => l.idxOf a < l.idxOf b := by
  induction l with
  | nil => exact .nil
  | cons a l ih =>
    have other : ∀ b ∈ (distinct l).filter (· != a), (a :: l).idxOf b = l.idxOf b + 1 := by
      intro b member
      have apart : b ≠ a := by simpa using (List.mem_filter.mp member).2
      exact List.idxOf_cons_ne l apart.symm
    rw [distinct, List.pairwise_cons]
    constructor
    · intro b member
      rw [List.idxOf_cons_self, other b member]
      exact Nat.succ_pos _
    · refine (ih.filter _).imp_of_mem fun memberLeft memberRight less => ?_
      rw [other _ memberLeft, other _ memberRight]
      exact Nat.succ_lt_succ less

/-! Variables that get their values -/

theorem mentioned_eq_nil {t : Token} (other : ∀ name, t.content ≠ .identifier name) :
    mentioned [t] = [] :=
  List.eq_nil_iff_forall_not_mem.mpr fun name member => by
    obtain ⟨_, same, content⟩ := mem_mentioned.mp member
    exact other name (List.mem_singleton.mp same ▸ content)

def missing? (lookup : String → Option Value) (names : List String) : Option String :=
  names.find? fun name => (lookup name).isNone

theorem mem_of_missing? {lookup : String → Option Value} {names : List String} {name : String}
    (missing : missing? lookup names = some name) : name ∈ names ∧ lookup name = none := by
  have unbound := List.find?_some missing
  exact ⟨List.mem_of_find?_eq_some missing, Option.isNone_iff_eq_none.mp unbound⟩

theorem missing?_congr {f g : String → Option Value} {names : List String}
    (same : ∀ name ∈ names, f name = g name) : missing? f names = missing? g names := by
  unfold missing?
  rw [← List.head?_filter, ← List.head?_filter]
  exact congrArg List.head? (List.filter_congr fun name member => by rw [same name member])

theorem missing?_cons (lookup : String → Option Value) (t : Token) (tokens : List Token) :
    missing? lookup (mentioned (t :: tokens)) =
      (missing? lookup (mentioned [t])).or (missing? lookup (mentioned tokens)) :=
  (congrArg (missing? lookup) (mentioned_append [t] tokens)).trans List.find?_append

theorem resolve_cases (lookup : String → Option Value) (t : Token) :
    (∃ name, missing? lookup (mentioned [t]) = some name ∧
      t.resolve lookup = .error (.unboundVariable name)) ∨
    ∃ resolved, missing? lookup (mentioned [t]) = none ∧ t.resolve lookup = .ok resolved ∧
      mentioned [resolved] = [] := by
  unfold Token.resolve
  split
  · next name content =>
    have one : mentioned [t] = [name] := by simp [mentioned, content]
    rw [one, missing?, List.find?_singleton]
    cases lookup name with
    | none => exact .inl ⟨name, rfl, rfl⟩
    | some value => exact .inr ⟨_, rfl, rfl, rfl⟩
  · next other =>
    have none := mentioned_eq_nil other
    exact .inr ⟨t, by rw [none]; rfl, rfl, none⟩

theorem mapM_resolve (lookup : String → Option Value) (tokens : List Token) :
    (∃ name, missing? lookup (mentioned tokens) = some name ∧
      tokens.mapM (Token.resolve lookup) = .error (.unboundVariable name)) ∨
    ∃ resolved, missing? lookup (mentioned tokens) = none ∧
      tokens.mapM (Token.resolve lookup) = .ok resolved ∧ mentioned resolved = [] := by
  -- By induction on the tokens: the first variable without a value is the one that is missed, and
  -- if all have theirs, no variable is left.
  induction tokens with
  | nil => exact .inr ⟨[], rfl, rfl, rfl⟩
  | cons t tokens ih =>
    have front := missing?_cons lookup t tokens
    rw [List.mapM_cons]
    rcases resolve_cases lookup t with ⟨name, missing, failed⟩ | ⟨r, bound, done, plain⟩
    · refine .inl ⟨name, by rw [front, missing]; rfl, by rw [failed]; rfl⟩
    · rw [front, bound, Option.none_or, done]
      rcases ih with ⟨name, missing, failed⟩ | ⟨rest, bounds, dones, plains⟩
      · exact .inl ⟨name, missing, by rw [failed]; rfl⟩
      · refine .inr ⟨r :: rest, bounds, by rw [dones]; rfl, ?_⟩
        exact (mentioned_append [r] rest).trans (by rw [plain, plains]; rfl)

/-! Names as the standard scanners read them -/

namespace Lexicon

theorem Stands.lower {last : Option Token} {text lexeme : List Char} {contents : List Content}
    (stands : Stands last text lexeme contents) {name : String}
    (member : .identifier name ∈ contents) : Text.lower name = name := by
  cases stands with
  | @name n unreserved noCall read =>
    cases List.mem_singleton.mp member
    have whole : String.ofList (Text.lowerAfter [] (text.take n)) =
        Text.lower (String.ofList (text.take n)) := by
      rw [Text.lower, String.toList_ofList]
    rw [whole, Text.lower_lower]
  | _ => simp at member

theorem lower_of_reads {last : Option Token} {text rest : List Char} {tokens : List Token}
    (reads : ScannerSet.standard.Reads last text tokens rest) {name : String}
    (member : name ∈ mentioned tokens) : Text.lower name = name := by
  -- By induction on the lexemes: names of variables are in lower case.
  induction reads with
  | nothing => cases member
  | @lexeme last text rest scanned tokens found later ih =>
    rw [mentioned_append, List.mem_append] at member
    rcases member with here | there
    · obtain ⟨t, kept, content⟩ := mem_mentioned.mp here
      have made : t ∈ scanned.tokens := (List.mem_filter.mp kept).1
      exact (stands_of_scan found).lower (content ▸ List.mem_map_of_mem made)
    · exact ih there

end Lexicon

theorem ScannerSet.lexical_of_tokenize {text : String} {e : FormulaError}
    (failed : standard.tokenize text = .error e) : ∃ cause, e = .lexical cause := by
  have verdict := standard.verdict 0 none text.toList
  unfold tokenize at failed
  rw [failed] at verdict
  cases verdict with
  | refused _ failed =>
    obtain ⟨fault, lexical, _⟩ := Lexicon.fault_of_scan failed
    exact ⟨fault, lexical⟩
  | _ => exact ⟨_, rfl⟩

/-! Missing variables -/

namespace RuleBook

variable {book : RuleBook} {tokens stream : List Token} {name : String}

theorem Breaks.mentions (quiet : ¬ book.Reports (.unboundVariable name))
    (breaks : book.Breaks tokens (.unboundVariable name)) : name ∈ mentioned tokens := by
  cases breaks with
  | @alone t _ failed =>
    unfold Token.toValue at failed
    split at failed
    · cases failed
    · next content =>
      cases failed
      exact mem_mentioned.mpr ⟨t, List.mem_singleton_self t, content⟩
    · cases failed
  | operation long found failed => exact ((suits_of_find? found).failsIn_plan failed _ rfl).elim
  | call long found planned known failed =>
    rcases book.fails_call _ _ _ failed with impossible | reported
    · cases impossible
    · exact absurd reported quiet

theorem Reaches.mentions (reaches : book.Reaches tokens stream)
    (member : name ∈ mentioned stream) : name ∈ mentioned tokens := by
  obtain ⟨t, inside, content⟩ := mem_mentioned.mp member
  rcases reaches.mem inside with there | ⟨v, rfl⟩ | rfl
  · exact mem_mentioned.mpr ⟨t, there, content⟩
  · cases content
  · cases content

theorem mentions_of_evaluate (quiet : ¬ book.Reports (.unboundVariable name))
    {limit : Option Nat} {p : Progress}
    (failed : ((Evaluator.evaluate ⟨book, limit⟩ tokens).run p).1 =
      .error (.unboundVariable name)) : name ∈ mentioned tokens := by
  rcases book.evaluate_or_limit tokens limit p with same | ⟨l, _, stopped⟩
  · obtain ⟨stream, reaches, breaks⟩ := exists_breaks_of_evaluate (same.symm.trans failed)
    exact reaches.mentions (breaks.mentions quiet)
  · rw [stopped] at failed
    cases failed

end RuleBook

theorem Run.run_ofOutcome_bind {α β : Type} (outcome : Outcome α) (f : α → Run β) (p : Progress) :
    ((Run.ofOutcome outcome >>= f).run p).1 = outcome >>= fun a => ((f a).run p).1 := by
  cases outcome <;> rfl

namespace Calculator

variable {c : Calculator} {expression : String}

theorem evaluateWith_eq (c : Calculator) (expression : String) (pairs : List (String × Value)) :
    c.evaluateWith expression pairs = c.tokenize expression >>= fun tokens =>
      tokens.mapM (Token.resolve (c.scope pairs)) >>= fun resolved =>
        ((c.evaluator.evaluate resolved).run {}).1 := by
  unfold evaluateWith
  rw [evaluation_eq, evaluationBy, Run.run_ofOutcome_bind]
  exact bind_congr fun tokens => Run.run_ofOutcome_bind _ _ _

theorem dependencies_eq (c : Calculator) (expression : String) :
    c.dependencies expression = (c.tokenize expression).map fun tokens =>
      (distinct (mentioned tokens)).filter fun name => (c.lookup? name).isNone := by
  unfold dependencies
  cases c.tokenize expression <;> rfl

/-- A variable is missed if it is the first without a value. -/
theorem evaluateWith_eq_unbound_iff (standard : c.scanners = .standard)
    (quiet : ∀ name, ¬ c.book.Reports (.unboundVariable name)) {pairs : List (String × Value)}
    {name : String} : c.evaluateWith expression pairs = .error (.unboundVariable name) ↔
      ∃ tokens, c.tokenize expression = .ok tokens ∧
        missing? (c.scope pairs) (mentioned tokens) = some name := by
  rw [evaluateWith_eq]
  constructor
  · intro failed
    rcases bind_eq_error.mp failed with unread | ⟨tokens, read, failed⟩
    · unfold tokenize at unread
      rw [standard] at unread
      obtain ⟨_, impossible⟩ := ScannerSet.lexical_of_tokenize unread
      cases impossible
    · refine ⟨tokens, read, ?_⟩
      rcases mapM_resolve (c.scope pairs) tokens with
        ⟨other, missing, unbound⟩ | ⟨resolved, _, bound, plain⟩
      · rw [unbound] at failed
        cases failed
        exact missing
      · -- all variables have their values, so none is left to be missed
        rw [bound] at failed
        have member := RuleBook.mentions_of_evaluate (quiet name) failed
        rw [plain] at member
        cases member
  · rintro ⟨tokens, read, missing⟩
    refine bind_eq_error.mpr (.inr ⟨tokens, read, bind_eq_error.mpr (.inl ?_)⟩)
    rcases mapM_resolve (c.scope pairs) tokens with ⟨other, first, unbound⟩ | ⟨_, none, _⟩
    · rw [missing] at first
      cases first
      exact unbound
    · rw [missing] at none
      cases none

theorem tokenize_of_dependencies {names : List String}
    (listed : c.dependencies expression = .ok names) :
    ∃ tokens, c.tokenize expression = .ok tokens := by
  rw [dependencies_eq] at listed
  cases read : c.tokenize expression with
  | error e =>
    rw [read] at listed
    cases listed
  | ok tokens => exact ⟨tokens, rfl⟩

theorem dependencies_of_tokenize {tokens : List Token}
    (read : c.tokenize expression = .ok tokens) : ∃ names, c.dependencies expression = .ok names :=
  ⟨_, by rw [dependencies_eq, read]; rfl⟩

theorem head?_dependencies {tokens : List Token} (read : c.tokenize expression = .ok tokens)
    {names : List String} (listed : c.dependencies expression = .ok names) :
    names.head? = missing? c.lookup? (mentioned tokens) := by
  rw [dependencies_eq, read] at listed
  cases listed
  rw [List.head?_filter, find?_distinct]
  rfl

theorem lower_of_tokenize (standard : c.scanners = .standard) {tokens : List Token}
    (read : c.tokenize expression = .ok tokens) {name : String} (member : name ∈ mentioned tokens) :
    Text.lower name = name := by
  unfold tokenize at read
  rw [standard] at read
  exact Lexicon.lower_of_reads (ScannerSet.tokenizeFrom_eq_ok_iff.mp read).1 member

theorem missing?_lookup? (standard : c.scanners = .standard) {tokens : List Token}
    (read : c.tokenize expression = .ok tokens) :
    missing? (c.scope []) (mentioned tokens) = missing? c.lookup? (mentioned tokens) :=
  missing?_congr fun name member => by
    rw [lookup?, lower_of_tokenize standard read member]
    rfl

theorem mem_dependencies {tokens : List Token} (read : c.tokenize expression = .ok tokens)
    {names : List String} (listed : c.dependencies expression = .ok names) {name : String} :
    name ∈ names ↔ name ∈ mentioned tokens ∧ c.lookup? name = none := by
  rw [dependencies_eq, read] at listed
  cases listed
  rw [List.mem_filter, mem_distinct, Option.isNone_iff_eq_none]

/-- The dependencies of an expression are its variables without a value, each once, as they first
    appear. An evaluation misses the first of them, if there is one, and only this one. With a
    value for each of them none is missed. -/
theorem dependencies_foretell (standard : c.scanners = .standard)
    (quiet : ∀ name, ¬ c.book.Reports (.unboundVariable name)) (expression : String) :
    (∀ e, c.dependencies expression = .error e ↔ c.tokenize expression = .error e) ∧
    (∀ tokens names, c.tokenize expression = .ok tokens →
      c.dependencies expression = .ok names → names.Nodup ∧
        (∀ name, name ∈ names ↔
          (∃ t ∈ tokens, t.content = .identifier name) ∧ c.lookup? name = none) ∧
        names.Pairwise fun a b => (mentioned tokens).idxOf a < (mentioned tokens).idxOf b) ∧
    (∀ name, c.evaluate expression = .error (.unboundVariable name) ↔
      ∃ rest, c.dependencies expression = .ok (name :: rest)) ∧
    ∀ names pairs, c.dependencies expression = .ok names →
      (∀ name ∈ names, ∃ pair ∈ pairs, Text.lower pair.1 = name) →
      ∀ name, c.evaluateWith expression pairs ≠ .error (.unboundVariable name) := by
  refine ⟨fun e => ?_, fun tokens names read listed => ?_, fun name => ?_,
    fun names pairs listed covered name missed => ?_⟩
  · rw [dependencies_eq]
    cases c.tokenize expression <;> simp [Except.map]
  · have ordered : names.Pairwise fun a b =>
        (mentioned tokens).idxOf a < (mentioned tokens).idxOf b := by
      have plain := listed
      rw [dependencies_eq, read] at plain
      cases plain
      exact (pairwise_distinct (mentioned tokens)).filter _
    refine ⟨ordered.imp fun less same => ?_, fun name => ?_, ordered⟩
    · rw [same] at less
      exact Nat.lt_irrefl _ less
    · rw [mem_dependencies read listed, mem_mentioned]
  · refine (evaluateWith_eq_unbound_iff standard quiet).trans ⟨?_, ?_⟩
    · rintro ⟨tokens, read, missing⟩
      obtain ⟨names, listed⟩ := dependencies_of_tokenize read
      rw [missing?_lookup? standard read, ← head?_dependencies read listed] at missing
      obtain ⟨rest, rfl⟩ := List.head?_eq_some_iff.mp missing
      exact ⟨rest, listed⟩
    · rintro ⟨rest, listed⟩
      obtain ⟨tokens, read⟩ := tokenize_of_dependencies listed
      refine ⟨tokens, read, ?_⟩
      rw [missing?_lookup? standard read, ← head?_dependencies read listed]
      rfl
  · obtain ⟨tokens, read, missing⟩ := (evaluateWith_eq_unbound_iff standard quiet).mp missed
    obtain ⟨member, none⟩ := mem_of_missing? missing
    obtain ⟨unbound, unknown⟩ := Option.or_eq_none_iff.mp none
    have lower := lower_of_tokenize standard read member
    have listedToo : name ∈ names :=
      (mem_dependencies read listed).mpr ⟨member, by rw [lookup?, lower]; exact unknown⟩
    obtain ⟨pair, among, rfl⟩ := covered name listedToo
    exact Bindings.find?_bindAll_ne_none among unbound

set_option maxRecDepth 20000 in
/-- Of two variables one has a value, so the other is the one that is missed. -/
theorem dependencies_foretell_sum :
    let c : Calculator := { memory := Bindings.bindAll [] [("X", .integer 1)] }
    (∀ name, ¬ c.book.Reports (.unboundVariable name)) ∧ c.dependencies "x+y" = .ok ["y"] ∧
      c.evaluate "x+y" = .error (.unboundVariable "y") ∧
      ∀ name, c.evaluateWith "x+y" [("Y", .null)] ≠ .error (.unboundVariable name) := by
  intro c
  have quiet : ∀ name, ¬ c.book.Reports (.unboundVariable name) := by
    rintro name ⟨d, member, _⟩
    cases member
  have first : ScannerSet.standard.scan none ['x', '+', 'y'] =
      .ok (some ⟨[⟨.identifier "x", 1⟩], ['x'], ['+', 'y']⟩) := rfl
  have second : ScannerSet.standard.scan (some ⟨.identifier "x", 1⟩) ['+', 'y'] =
      .ok (some ⟨[⟨.symbol (.operator .add), 1⟩], ['+'], ['y']⟩) := rfl
  have third : ScannerSet.standard.scan (some ⟨.symbol (.operator .add), 1⟩) ['y'] =
      .ok (some ⟨[⟨.identifier "y", 1⟩], ['y'], []⟩) := rfl
  have reads : ScannerSet.standard.Reads none "x+y".toList
      [⟨.identifier "x", 1⟩, ⟨.symbol (.operator .add), 1⟩, ⟨.identifier "y", 1⟩] [] :=
    .lexeme first (.lexeme second (.lexeme third (.nothing _ _)))
  have read : c.tokenize "x+y" =
      .ok [⟨.identifier "x", 1⟩, ⟨.symbol (.operator .add), 1⟩, ⟨.identifier "y", 1⟩] :=
    ScannerSet.tokenizeFrom_eq_ok_iff.mpr ⟨reads, rfl⟩
  have lowX : Text.lower "X" = "x" := by decide +kernel
  have lowY : Text.lower "Y" = "y" := by decide +kernel
  have lowx : Text.lower "x" = "x" := by decide +kernel
  have lowy : Text.lower "y" = "y" := by decide +kernel
  have known (name : String) :
      c.memory.find? name = if name = "x" then some (.integer 1) else none := by
    have stored : c.memory = Bindings.bind [] "X" (.integer 1) := rfl
    rw [stored, Bindings.find?_bind, lowX]
    rfl
  have bound : c.lookup? "x" = some (.integer 1) := by rw [lookup?, lowx, known, if_pos rfl]
  have unbound : c.lookup? "y" = none := by rw [lookup?, lowy, known, if_neg (by decide)]
  have listed : c.dependencies "x+y" = .ok ["y"] := by
    have once : distinct (mentioned [⟨.identifier "x", 1⟩, ⟨.symbol (.operator .add), 1⟩,
        ⟨.identifier "y", 1⟩]) = ["x", "y"] := rfl
    rw [dependencies_eq, read, Except.map, once]
    simp [bound, unbound]
  obtain ⟨_, _, missed, kept⟩ := dependencies_foretell rfl quiet "x+y"
  refine ⟨quiet, listed, (missed "y").mpr ⟨[], listed⟩, kept ["y"] _ listed ?_⟩
  intro name member
  obtain rfl := List.mem_singleton.mp member
  exact ⟨("Y", .null), List.mem_singleton_self _, lowY⟩

end Calculator

end Formulary
