import Mathlib.Data.List.TakeWhile
import Formulary.CommandLine.Options

/-!
Asking for options. All bindings, all numbers of steps and tokens can be asked for together, and
the options are then what was asked for.
-/
namespace Formulary.CommandLine

def request (bindings : List String) (maxSteps : Option Nat) (tokens : Bool) : List String :=
  bindings.map ("--var=" ++ ·) ++ (maxSteps.toList.map fun n => "--max-steps=" ++ n.repr) ++
    if tokens then ["--tokens"] else []

variable {o : Options} {n : Nat}

theorem readNumber?_repr (bounded : n < Options.stepBound) :
    Options.readNumber? n.repr = some n := by
  have letters : n.repr.toList = Nat.toDigits 10 n := String.toList_ofList
  have digit : ∀ c ∈ Nat.toDigits 10 n, c.isDigit = true :=
    fun c member => Nat.isDigit_of_mem_toDigits (by decide) (by decide) member
  have value : (Nat.toDigits 10 n).foldl (fun sum c => sum * 10 + (c.toNat - 48)) 0 = n := by
    have zero : '0'.toNat = 48 := rfl
    have read : Nat.ofDigitChars 10 (Nat.toDigits 10 n) 0 = n :=
      Nat.ofDigitChars_toDigits (by decide) (by decide)
    simpa only [Nat.ofDigitChars, Nat.mul_comm, zero] using read
  unfold Options.readNumber?
  split
  · -- a plus sign is no digit
    next digits plus =>
    have sign : '+' ∈ Nat.toDigits 10 n := by simp [← letters, plus]
    exact absurd (digit '+' sign) (by decide)
  · next noPlus =>
    have usable : (Nat.toDigits 10 n).all Char.isDigit = true := List.all_eq_true.mpr digit
    have some_digit : (Nat.toDigits 10 n).isEmpty = false :=
      List.isEmpty_eq_false_iff.mpr Nat.toDigits_ne_nil
    simp only [letters, some_digit, usable, value, if_pos bounded, Bool.not_true, Bool.or_self,
      Bool.false_eq_true, if_false]

theorem next_binding (binding : String) :
    Reading.next { options := o } ("--var=" ++ binding) =
      .ok { options := { o with bindings := o.bindings ++ [binding] } } := by
  have letters : ("--var=" ++ binding).toList =
      '-' :: '-' :: 'v' :: 'a' :: 'r' :: '=' :: binding.toList := by
    rw [String.toList_append]
    rfl
  have bound : o.setValue .binding binding =
      .ok { o with bindings := o.bindings ++ [binding] } := rfl
  simp [Reading.next, letters, Reading.readLong, bound]

theorem next_maxSteps {digits : String} (read : Options.readNumber? digits = some n)
    (unset : o.maxSteps = none) :
    Reading.next { options := o } ("--max-steps=" ++ digits) =
      .ok { options := { o with maxSteps := some n } } := by
  have letters : ("--max-steps=" ++ digits).toList =
      '-' :: '-' :: ("max-steps=".toList ++ digits.toList) := by
    rw [String.toList_append]
    rfl
  have set : o.setValue .maxSteps digits = .ok { o with maxSteps := some n } := by
    simp [Options.setValue, unset, read]
  simp [Reading.next, letters, Reading.readLong, set]

theorem next_tokens (unset : o.tokens = false) :
    Reading.next { options := o } "--tokens" = .ok { options := { o with tokens := true } } := by
  have set : o.setTokens = .ok { o with tokens := true } := by simp [Options.setTokens, unset]
  simp [Reading.next, Reading.readLong, set]

theorem foldlM_bindings (bindings rest : List String) :
    (bindings.map ("--var=" ++ ·) ++ rest).foldlM Reading.next { options := o } =
      rest.foldlM Reading.next { options := { o with bindings := o.bindings ++ bindings } } := by
  -- By induction on the bindings: each comes behind those that have been read.
  induction bindings generalizing o with
  | nil => simp
  | cons binding bindings ih =>
    rw [List.map_cons, List.cons_append, List.foldlM_cons, next_binding]
    have others := @ih { o with bindings := o.bindings ++ [binding] }
    rw [List.append_assoc, List.singleton_append] at others
    exact others

theorem ofArguments_request (bindings : List String) {maxSteps : Option Nat} (tokens : Bool)
    (bounded : ∀ n ∈ maxSteps, n < Options.stepBound) :
    Options.ofArguments (request bindings maxSteps tokens) =
      .ok { bindings, maxSteps, tokens } := by
  have steps : ∀ rest : List String,
      ((maxSteps.toList.map fun n => "--max-steps=" ++ n.repr) ++ rest).foldlM Reading.next
        { options := { bindings } } =
      rest.foldlM Reading.next { options := { bindings, maxSteps } } := by
    intro rest
    cases maxSteps with
    | none => rfl
    | some n =>
      have read := readNumber?_repr (bounded n rfl)
      rw [Option.toList_some, List.map_singleton, List.singleton_append, List.foldlM_cons,
        next_maxSteps read rfl]
      rfl
  have read : (request bindings maxSteps tokens).foldlM Reading.next {} =
      .ok { options := { bindings, maxSteps, tokens } } := by
    rw [request, List.append_assoc, foldlM_bindings, List.nil_append, steps]
    cases tokens with
    | false => rfl
    | true =>
      rw [if_pos rfl, List.foldlM_cons, next_tokens rfl]
      rfl
  rw [Options.ofArguments, read]
  rfl

end Formulary.CommandLine
