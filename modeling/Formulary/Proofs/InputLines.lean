import Mathlib
import Formulary.CommandLine.Run
import Formulary.Proofs.Requests

/-!
Answering the input line by line. Bindings are carried out one after the other, and the calculator
that they leave answers each line as if it were the only one: what a line prints and whether it
fails depends on no other line.
-/
namespace Formulary.CommandLine

/-! Bindings -/

structure Binding where
  name : List Char
  value : List Char
  plain : '=' ∉ name
  named : Text.trim name ≠ []

namespace Binding

def text (b : Binding) : String := String.ofList (b.name ++ '=' :: b.value)

/-- The calculator with the value bound to the name: what the text evaluates to with the bindings
    so far, or the text itself if it does not evaluate, both without blanks around them. -/
def apply (c : Calculator) (b : Binding) : Calculator :=
  c.store (String.ofList (Text.trim b.name)) <|
    match c.evaluate (String.ofList b.value) with
    | .ok v => v
    | .error _ => .text (String.ofList (Text.trim b.value))

theorem bind_text (c : Calculator) (b : Binding) : bind c b.text = .ok (b.apply c) := by
  have before : ∀ x ∈ b.name, (x != '=') = true := by
    intro x member
    exact bne_iff_ne.mpr fun same => b.plain (same ▸ member)
  have name : (b.name ++ '=' :: b.value).takeWhile (· != '=') = b.name := by
    rw [List.takeWhile_append_of_pos before, List.takeWhile_cons_of_neg (by decide),
      List.append_nil]
  have value : (b.name ++ '=' :: b.value).dropWhile (· != '=') = '=' :: b.value := by
    rw [List.dropWhile_append_of_pos before, List.dropWhile_cons_of_neg (by decide)]
  have named : (trimmed b.name).isEmpty = false := by
    simp [trimmed, b.named]
  simp only [bind, text, String.toList_ofList, name, value, named, Bool.false_eq_true, if_false]
  unfold apply
  cases c.evaluate (String.ofList b.value) <;> rfl

theorem exists_of_bind {c d : Calculator} {written : String} (bound : bind c written = .ok d) :
    ∃ b : Binding, written = b.text := by
  unfold bind at bound
  dsimp only at bound
  split at bound
  · cases bound
  · next x value found =>
    split at bound
    · cases bound
    · next named =>
      have stop : x = '=' := by
        have first := List.head?_dropWhile_not (· != '=') written.toList
        rw [found] at first
        simpa using first
      have plain : '=' ∉ written.toList.takeWhile (· != '=') := by
        intro member
        have before := List.mem_takeWhile_imp member
        exact bne_iff_ne.mp before rfl
      have parts : written.toList.takeWhile (· != '=') ++ '=' :: value = written.toList := by
        have whole := List.takeWhile_append_dropWhile (p := (· != '=')) (l := written.toList)
        rwa [found, stop] at whole
      have some_name : Text.trim (written.toList.takeWhile (· != '=')) ≠ [] := by
        intro blank
        exact named (by rw [trimmed, blank]; rfl)
      refine ⟨⟨written.toList.takeWhile (· != '='), value, plain, some_name⟩, ?_⟩
      rw [text, parts, String.ofList_toList]

theorem bindAll_eq_ok_iff {c d : Calculator} {bindings : List String} :
    bindAll c bindings = .ok d ↔
      ∃ bs : List Binding, bindings = bs.map text ∧ d = bs.foldl apply c := by
  induction bindings generalizing c with
  | nil =>
    constructor
    · intro bound
      cases bound
      exact ⟨[], rfl, rfl⟩
    · rintro ⟨bs, same, rfl⟩
      obtain rfl := List.map_eq_nil_iff.mp same.symm
      rfl
  | cons written bindings ih =>
    constructor
    · intro bound
      cases first : bind c written with
      | error f =>
        rw [bindAll, first] at bound
        cases bound
      | ok next =>
        rw [bindAll, first] at bound
        obtain ⟨b, rfl⟩ := exists_of_bind first
        obtain rfl := Except.ok.inj ((bind_text c b).symm.trans first)
        obtain ⟨bs, rfl, rfl⟩ := ih.mp bound
        exact ⟨b :: bs, rfl, rfl⟩
    · rintro ⟨bs, same, rfl⟩
      obtain ⟨b, others, rfl, rfl, rfl⟩ := List.map_eq_cons_iff.mp same.symm
      rw [bindAll, bind_text]
      exact ih.mpr ⟨others, rfl, rfl⟩

end Binding

/-! Lines -/

/-- The text consists of these lines. Each is ended by a line feed, perhaps with a carriage return
    before it; the last may be ended by the end of the text instead, if it is not empty. -/
inductive IsCut : List Char → List (List Char) → Prop where
  | nothing : IsCut [] []
  | feed {line rest : List Char} {lines : List (List Char)} (plain : '\n' ∉ line)
      (noReturn : line.getLast? ≠ some '\r') (others : IsCut rest lines) :
      IsCut (line ++ '\n' :: rest) (line :: lines)
  | returnFeed {line rest : List Char} {lines : List (List Char)} (plain : '\n' ∉ line)
      (others : IsCut rest lines) : IsCut (line ++ '\r' :: '\n' :: rest) (line :: lines)
  | unended {line : List Char} (plain : '\n' ∉ line) (some_char : line ≠ []) : IsCut line [line]

variable {line rest text : List Char} {lines : List (List Char)}

theorem linesOf_ended (plain : '\n' ∉ line) : linesOf (line ++ '\n' :: rest) =
    (if line.getLast? = some '\r' then line.dropLast else line) :: linesOf rest := by
  have noFeed : ∀ c ∈ line, (c == '\n') = false := by
    intro c member
    exact beq_false_of_ne fun same => plain (same ▸ member)
  have split : (line ++ '\n' :: rest).splitOn '\n' = line :: rest.splitOn '\n' :=
    List.splitOnP_append_cons_of_forall_mem noFeed '\n' rfl rest
  have more : rest.splitOn '\n' ≠ [] := List.splitOn_ne_nil '\n' rest
  simp only [linesOf, split, List.dropLast_cons_of_ne_nil more, List.getLast?_cons_of_ne_nil more,
    List.map_cons, List.cons_append]

theorem linesOf_unended (plain : '\n' ∉ line) (some_char : line ≠ []) : linesOf line = [line] := by
  simp [linesOf, List.splitOn_eq_singleton plain, some_char]

theorem isCut_iff : IsCut text lines ↔ lines = linesOf text := by
  constructor
  · intro cut
    induction cut with
    | nothing => rfl
    | feed plain noReturn _ ih => rw [linesOf_ended plain, if_neg noReturn, ih]
    | @returnFeed line rest lines plain _ ih =>
      have noFeed : '\n' ∉ line ++ ['\r'] := by simp [plain]
      have ended : linesOf ((line ++ ['\r']) ++ '\n' :: rest) = _ := linesOf_ended noFeed
      simpa [ih] using ended.symm
    | unended plain some_char => exact (linesOf_unended plain some_char).symm
  · rintro rfl
    induction size : text.length using Nat.strongRecOn generalizing text with
    | ind n ih =>
      by_cases feed : '\n' ∈ text
      · -- cut at the first feed: what is behind it is a shorter text
        obtain ⟨line, rest, rfl, plain⟩ := List.eq_append_cons_of_mem feed
        have others : IsCut rest (linesOf rest) := by
          refine ih rest.length ?_ rfl
          rw [← size, List.length_append, List.length_cons]
          omega
        rw [linesOf_ended plain]
        split
        · next last =>
          obtain ⟨start, rfl⟩ := List.getLast?_eq_some_iff.mp last
          have cut := IsCut.returnFeed (fun member => plain (List.mem_append_left _ member)) others
          simpa using cut
        · next noReturn => exact .feed plain noReturn others
      · by_cases none : text = []
        · subst none
          exact .nothing
        · rw [linesOf_unended feed none]
          exact .unended feed none

/-! Answers -/

theorem all_isBlank_iff : line.all Text.isBlank = true ↔ Text.trim line = [] := by
  simp only [Text.trim, List.reverse_eq_nil_iff, List.dropWhile_eq_nil_iff, List.mem_reverse,
    List.all_eq_true]
  constructor
  · intro blank c member
    exact blank c ((List.dropWhile_suffix Text.isBlank).mem member)
  · -- a character that is no blank would be left by the trimming from the front
    intro ends c member
    by_contra some_char
    have kept : line.dropWhile Text.isBlank = [] := by
      cases rest : line.dropWhile Text.isBlank with
      | nil => rfl
      | cons first others =>
        have notBlank := List.head?_dropWhile_not Text.isBlank line
        have blank := ends first (by simp [rest])
        simp [rest, blank] at notBlank
    exact some_char (List.dropWhile_eq_nil_iff.mp kept c member)

def asked (lines : List (List Char)) : List (List Char) :=
  lines.filter fun line => Text.trim line ≠ []

def outputOf (c : Calculator) (tokens : Bool) (line : List Char) : String :=
  match answer c tokens (String.ofList line) with
  | .ok printed => printed
  | .error _ => ""

def failureOf (c : Calculator) (tokens : Bool) (line : List Char) : Option Failure :=
  match answer c tokens (String.ofList line) with
  | .ok _ => none
  | .error f => some f

variable {c : Calculator} {tokens : Bool} {printed : String} {f : Failure}

theorem outputOf_ok (answered : answer c tokens (String.ofList line) = .ok printed) :
    outputOf c tokens line = printed := by
  rw [outputOf, answered]

theorem outputOf_error (failed : answer c tokens (String.ofList line) = .error f) :
    outputOf c tokens line = "" := by
  rw [outputOf, failed]

theorem failureOf_ok (answered : answer c tokens (String.ofList line) = .ok printed) :
    failureOf c tokens line = none := by
  rw [failureOf, answered]

theorem failureOf_error (failed : answer c tokens (String.ofList line) = .error f) :
    failureOf c tokens line = some f := by
  rw [failureOf, failed]

def Failure.details (f : Failure) : String :=
  f.context ++ ((f.cause?.map fun cause => ": " ++ cause.message).getD "")

theorem Failure.lineReport_eq (f : Failure) : f.lineReport = "error: " ++ f.details ++ "\n" := by
  simp only [lineReport, details, String.append_assoc]

theorem answerLines_eq (c : Calculator) (tokens : Bool) (lines : List (List Char)) :
    answerLines c tokens lines =
      (String.join ((asked lines).map (outputOf c tokens)),
        String.join (((asked lines).filterMap (failureOf c tokens)).map fun f =>
          "error: " ++ f.details ++ "\n")) := by
  induction lines with
  | nil => rfl
  | cons line rest ih =>
    by_cases blank : Text.trim line = []
    · have passed : asked (line :: rest) = asked rest := by simp [asked, blank]
      simp only [answerLines, ih, all_isBlank_iff.mpr blank, if_true, passed]
    · have kept : asked (line :: rest) = line :: asked rest := by simp [asked, blank]
      have some_char : ¬ line.all Text.isBlank = true := fun all => blank (all_isBlank_iff.mp all)
      simp only [answerLines, ih, if_neg some_char, kept, List.map_cons, String.join_cons]
      cases result : answer c tokens (String.ofList line) with
      | ok printed => rw [outputOf_ok result, List.filterMap_cons_none (failureOf_ok result)]
      | error f =>
        simp only [outputOf_error result, List.filterMap_cons_some (failureOf_error result),
          List.map_cons, String.join_cons, String.empty_append, f.lineReport_eq]

/-- With bindings that are accepted and no expression, the program answers each line of its input
    that is not blank with the calculator that the bindings leave. The output joins what the lines
    print and the errors join the reports of those that fail, one for each. As an expression, a
    line prints the same. -/
theorem run_input {arguments bindings : List String} {maxSteps : Option Nat} {tokens : Bool}
    {c : Calculator}
    (options : Options.ofArguments arguments = .ok { bindings, maxSteps, tokens })
    (accepted : bindAll { maxSteps } bindings = .ok c) (input : String) :
    (∃ bs : List Binding,
      bindings = bs.map Binding.text ∧ c = bs.foldl Binding.apply { maxSteps }) ∧
      ∃ lines : List (List Char), (∀ cut, IsCut input.toList cut ↔ cut = lines) ∧
        run arguments input =
          { code := 0
            output := String.join ((asked lines).map (outputOf c tokens))
            errors := String.join (((asked lines).filterMap (failureOf c tokens)).map fun f =>
              "error: " ++ f.details ++ "\n") } ∧
        ∀ line ∈ asked lines,
          let expression := some (String.ofList line)
          let alone := runWith { expression, bindings, maxSteps, tokens } ""
          alone.output = outputOf c tokens line ∧
            (alone.code = 0 ↔ failureOf c tokens line = none) := by
  constructor
  · exact Binding.bindAll_eq_ok_iff.mp accepted
  · refine ⟨linesOf input.toList, fun cut => isCut_iff, ?_, ?_⟩
    · simp only [run, options, runWith, accepted, answerLines_eq]
    · intro line _
      cases result : answer c tokens (String.ofList line) with
      | ok printed =>
        simp only [runWith, accepted, result, outputOf_ok result, failureOf_ok result, and_self]
      | error f =>
        simp only [runWith, accepted, result, outputOf_error result, failureOf_error result,
          reduceCtorEq, Nat.one_ne_zero, and_self]

/-- The second value does not evaluate and is bound as text. The second line is blank, and the third
    fails, but not the last one, which is not ended. -/
theorem run_input_three :
    bindAll { maxSteps := some 100 } ["x=2", "mark= ("] = .ok
        { maxSteps := some 100, memory := [("mark", .text "("), ("x", .integer 2)] } ∧
      run ["--var=x=2", "--var=mark= (", "--max-steps=100"] "7\n \r\n)\r\n8" =
        { code := 0
          output := "7\n8\n"
          errors := "error: Failed to evaluate ')': " ++
            "Tokenize error: too many closing parentheses\n" } := by
  let bs : List Binding := [⟨['x'], ['2'], by decide, by decide⟩,
    ⟨['m', 'a', 'r', 'k'], [' ', '('], by decide, by decide⟩]
  let c : Calculator :=
    { maxSteps := some 100, memory := [("mark", .text "("), ("x", .integer 2)] }
  have options := @ofArguments_request ["x=2", "mark= ("] (some 100) false (by decide)
  have bound : c = bs.foldl Binding.apply { maxSteps := some 100 } := by cbv
  have accepted : bindAll { maxSteps := some 100 } ["x=2", "mark= ("] = .ok c :=
    Binding.bindAll_eq_ok_iff.mpr ⟨bs, by decide, bound⟩
  obtain ⟨_, cut, cuts, printed, _⟩ := run_input options accepted "7\n \r\n)\r\n8"
  obtain rfl : [['7'], [' '], [')'], ['8']] = cut := (cuts _).mp (isCut_iff.mpr (by decide))
  have lines : asked [['7'], [' '], [')'], ['8']] = [['7'], [')'], ['8']] := by decide
  have seven : answer c false (String.ofList ['7']) = .ok "7\n" := by cbv
  have close : answer c false (String.ofList [')']) =
      .error (.evaluation ")" (.lexical .tooManyClosing)) := by cbv
  have eight : answer c false (String.ofList ['8']) = .ok "8\n" := by cbv
  have output : String.join ([['7'], [')'], ['8']].map (outputOf c false)) = "7\n8\n" := by
    simp only [List.map, outputOf_ok seven, outputOf_error close, outputOf_ok eight]
    rfl
  have failures : [['7'], [')'], ['8']].filterMap (failureOf c false) =
      [.evaluation ")" (.lexical .tooManyClosing)] := by
    simp only [List.filterMap, failureOf_ok seven, failureOf_error close, failureOf_ok eight]
  rw [lines, output, failures] at printed
  exact ⟨accepted, printed⟩

end Formulary.CommandLine
