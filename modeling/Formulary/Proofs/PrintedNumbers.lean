import Formulary.Proofs.NumericTexts
import Formulary.Proofs.SignRuns
import Formulary.Proofs.WholeLiterals

/-!
Numbers as they are printed. Both readers take them back: expressions, where a minus in front is a
token of its own that the rules apply to the numeral behind it, and texts that are to be numbers.
-/
namespace Formulary

open Lexicon

namespace Number

theorem toRat_negate (n : Number) : n.negate.toRat = -n.toRat := by
  cases n with
  | decimal d => exact d.toRat_neg
  | integer i fits =>
    rw [negate, ofInt?]
    split
    · next fits' => rw [Option.getD_some, toRat_integer, toRat_integer, Int.cast_neg]
    · exact Decimal.toRat_neg _

theorem toList_text (n : Number) : n.text.toList = n.toDecimal.normalize.chars :=
  String.toList_ofList

end Number

/-! In expressions -/

structure Signed.Writes (x : Signed) (d : Decimal) : Prop where
  single : x.signs ≤ 1
  value : x.value.toRat = d.toRat
  spells : Spells none d.chars x.contents

namespace Spells

variable {d : Decimal}

theorem unsigned (positive : 0 ≤ d.coeff) :
    ∃ n : Number, n.toDecimal = d ∧ ∀ last, Spells last d.chars [.data (.number n)] := by
  obtain ⟨n, same, found⟩ := scan_chars positive
  refine ⟨n, same, fun last => ?_⟩
  have solid : (⟨.data (.number n), byteLength d.chars⟩ : Token).content ≠ .blank := nofun
  have here := found last [] .nothing
  rw [List.append_nil] at here
  exact lexeme solid here (nothing _)

theorem minus {last : Option Token} {text : List Char} {contents : List Content}
    (unary : startsOperand last = true) (later : ∀ last, Spells last text contents) :
    Spells last ('-' :: text) (.symbol (.operator .negate) :: contents) := by
  have readBack : ReadBack last (.operator .negate) text := readBack_negate rfl unary
  obtain ⟨again, found, echoes⟩ := readBack
  have content : again.content = .symbol (.operator .negate) :=
    Token.content_of_symbol? (Token.symbol?_of_same echoes.same)
  have spells := lexeme (echoes.solid nofun) found (later (some again))
  rwa [content] at spells

theorem signed (d : Decimal) : ∃ x : Signed, x.Writes d := by
  by_cases negative : d.coeff < 0
  · obtain ⟨n, same, spells⟩ := unsigned (Decimal.nonneg_neg negative)
    have value : n.negate.toRat = d.toRat := by
      rw [Number.toRat_negate, Number.toRat, same, Decimal.toRat_neg, neg_neg]
    refine ⟨⟨1, n⟩, Nat.le_refl 1, value, ?_⟩
    rw [Decimal.chars_of_negative negative]
    exact minus rfl spells
  · obtain ⟨n, rfl, spells⟩ := unsigned (not_lt.mp negative)
    exact ⟨⟨0, n⟩, Nat.zero_le 1, rfl, spells none⟩

end Spells

theorem RuleBook.evaluate_signed (book : RuleBook) {x : Signed} (single : x.signs ≤ 1)
    {tokens : List Token} (spelled : tokens.map Token.content = x.contents) :
    book.evaluate tokens = .ok (.number x.value) := by
  have contents : tokens.map Token.content = (⟨x, []⟩ : SignedSeries).contents := by
    rw [spelled, SignedSeries.contents, SignedSeries.following_nil, List.append_nil]
  rw [book.evaluate_sum (List.forall_mem_nil _) contents]
  obtain ⟨signs, n⟩ := x
  obtain rfl | rfl : signs = 0 ∨ signs = 1 := by
    dsimp only at single
    omega
  · rfl
  · rfl

/-! In texts -/

namespace PlainNumeral

variable {d : Decimal}

theorem chars (positive : 0 ≤ d.coeff) : PlainNumeral Char.isDigit d.chars := by
  by_cases whole : d.scale = 0
  · rw [Decimal.chars_of_whole positive whole]
    exact .whole Decimal.wholeDigits_ne_nil fun _ => Decimal.isDigit_of_mem_wholeDigits
  · have some_place : d.placeDigits ≠ [] := by
      intro none
      have count := Decimal.length_placeDigits whole
      rw [none] at count
      exact whole count.symm
    rw [Decimal.chars_of_places positive whole]
    exact .point (fun _ => Decimal.isDigit_of_mem_wholeDigits) some_place
      fun _ => Decimal.isDigit_of_mem_placeDigits

theorem decimal?_chars (positive : 0 ≤ d.coeff) : decimal? d.chars = some d := by
  obtain ⟨first, others, chars, digit⟩ := Decimal.chars_eq_cons positive
  have pad : padNumeral d.chars = d.chars := by
    rw [chars]
    exact padNumeral_of_digit digit
  rw [decimal?, pad, Decimal.readDigits_chars positive]
  rfl

end PlainNumeral

theorem Number.ofText_chars {text : String} {d : Decimal} (written : text.toList = d.chars) :
    ofText text = .ok (.decimal d) := by
  by_cases negative : d.coeff < 0
  · have positive := Decimal.nonneg_neg negative
    have plain := PlainNumeral.chars positive
    rw [Decimal.chars_of_negative negative] at written
    rw [plain.decimalDigits.ofText_minus written, PlainNumeral.decimal?_chars positive,
      Option.elim_some, Decimal.neg_twice]
  · have positive := not_lt.mp negative
    have plain : PlainNumeral Text.isDecimalDigit text.toList := by
      rw [written]
      exact (PlainNumeral.chars positive).decimalDigits
    rw [plain.ofText_plain, written, PlainNumeral.decimal?_chars positive]
    rfl

namespace Calculator

/-- A number that is printed is read back, as an expression and as the text of a number. -/
theorem evaluate_printed (book : RuleBook) (memory : Bindings) (n : Number) :
    (∃ m, ({ book, memory } : Calculator).evaluate n.text = .ok (.number m) ∧ m.order n = .eq) ∧
      ∃ m, Number.ofText n.text = .ok m ∧ m.order n = .eq := by
  constructor
  · obtain ⟨x, single, value, spells⟩ := Spells.signed n.toDecimal.normalize
    have counting : ∀ c ∈ x.contents, Content.IsCounting c := by
      intro c member
      rcases List.mem_append.mp member with sign | number
      · rw [List.eq_of_mem_replicate sign]
        exact Content.isCounting_operator _
      · rw [List.mem_singleton.mp number]
        exact Content.isCounting_number _
    obtain ⟨tokens, spelled, evaluated⟩ := spells.evaluate counting book memory
    refine ⟨x.value, evaluated.trans (book.evaluate_signed single spelled), ?_⟩
    rw [Number.order_eq_iff, value, Decimal.toRat_normalize]
    rfl
  · refine ⟨_, Number.ofText_chars n.toList_text, ?_⟩
    rw [Number.order_eq_iff]
    exact n.toDecimal.toRat_normalize

end Calculator

end Formulary
