import Mathlib.Data.List.Forall2
import Formulary.Proofs.WrittenTokens

/-!
Reading what has been written. A readable stream is written with single blanks between its tokens;
the tokenizer drops the blanks, and makes of each token one that echoes it.
-/
namespace Formulary

open Lexicon

def written : List Token → List Char
  | [] => []
  | t :: rest => ' ' :: (t.display.toList ++ written rest)

theorem spaced_written (tokens : List Token) : Spaced (written tokens) := by
  cases tokens with
  | nil => exact .nothing
  | cons t rest => exact .blank _

theorem toList_render (tokens : List Token) : (render tokens).toList = (written tokens).tail := by
  induction tokens with
  | nil => rfl
  | cons t rest ih =>
    cases rest with
    | nil => simp [render, written, String.intercalate_singleton]
    | cons next rest =>
      have more : (render (t :: next :: rest)) = t.display ++ " " ++ render (next :: rest) := by
        simp [render, String.intercalate_cons_cons]
      rw [more, String.toList_append, String.toList_append, ih]
      simp [written]

section

variable {last : Option Token} {t : Token} {tail : List Char}

theorem Legible.readBack (legible : Legible last t.content) (spaced : Spaced tail) :
    ReadBack last t tail := by
  generalize content : t.content = c at legible
  cases legible with
  | null => exact readBack_null content spaced
  | number unsigned => exact readBack_number content unsigned spaced
  | text closed => exact readBack_text content closed
  | truth b => exact readBack_truth content spaced
  | negate unary => exact readBack_negate content unary
  | operator binary minus => exact readBack_operator content binary minus
  | bracket plain => exact readBack_bracket content plain
  | comparator sign => exact readBack_comparator content spaced
  | combinator word => exact readBack_combinator content spaced
  | caseWord word => exact readBack_caseWord content spaced

theorem Legible.aligned {other : Option Token} {c : Content} (legible : Legible last c)
    (starts : startsOperand other = startsOperand last) : Legible other c := by
  cases legible with
  | null => exact .null
  | number unsigned => exact .number unsigned
  | text closed => exact .text closed
  | truth b => exact .truth b
  | negate unary => exact .negate (starts.trans unary)
  | operator binary minus => exact .operator binary fun same => starts.trans (minus same)
  | bracket plain => exact .bracket plain
  | comparator sign => exact .comparator sign
  | combinator word => exact .combinator word
  | caseWord word => exact .caseWord word

def Begins (t : Token) : Prop := ∃ c others, t.display.toList = c :: others ∧
  Text.isBlank c = false ∧ (t.content ≠ .symbol (.grouping .opening) → c ≠ '(')

theorem begins_of_isNameChar {c : Char} {others : List Char}
    (display : t.display.toList = c :: others) (name : isNameChar c = true) : Begins t := by
  refine ⟨c, others, display, ?_, fun _ => ?_⟩
  · rw [Bool.eq_false_iff]
    intro blank
    rw [not_isNameChar_of_isBlank blank] at name
    cases name
  · rintro rfl
    have foreign : isNameChar '(' = false := by decide +kernel
    rw [foreign] at name
    cases name

theorem begins_of_symbol {symbol : Symbol} {c : Char} {others : List Char}
    (content : t.content = .symbol symbol) (spelled : symbol.text.toList = c :: others)
    (solid : Text.isBlank c = false)
    (bracket : t.content ≠ .symbol (.grouping .opening) → c ≠ '(') : Begins t :=
  ⟨c, others, by rw [display_of_symbol content, spelled], solid, bracket⟩

theorem Legible.begins (legible : Legible last t.content) : Begins t := by
  generalize content : t.content = c at legible
  cases legible with
  | @number n unsigned =>
    obtain ⟨first, others, chars, digit⟩ :=
      Decimal.chars_eq_cons (Decimal.nonneg_normalize.mpr unsigned)
    have display : t.display.toList = first :: others := by
      simp [Token.display, content, Value.display, Number.text, Decimal.text, chars]
    exact begins_of_isNameChar display (isNameChar_of_isDigit digit)
  | @text s closed =>
    exact ⟨'"', s.toList ++ ['"'], by simp [Token.display, content], by decide, fun _ => by decide⟩
  | null => exact ⟨'n', "ull".toList, by simp [Token.display, content, Value.display], by decide,
      fun _ => by decide⟩
  | truth b =>
    cases b with
    | true => exact ⟨'t', "rue".toList, by simp [Token.display, content, Value.display], by decide,
        fun _ => by decide⟩
    | false => exact ⟨'f', "alse".toList, by simp [Token.display, content, Value.display],
        by decide, fun _ => by decide⟩
  | negate unary => exact begins_of_symbol content rfl (by decide) fun _ => by decide
  | @operator op binary minus =>
    cases op <;> exact begins_of_symbol content rfl (by decide) fun _ => by decide
  | @bracket mark plain =>
    cases mark with
    | opening => exact begins_of_symbol content rfl (by decide) fun other => absurd content other
    | callOpening => exact absurd rfl plain
    | _ => exact begins_of_symbol content rfl (by decide) fun _ => by decide
  | comparator sign =>
    cases sign <;> exact begins_of_symbol content rfl (by decide) fun _ => by decide
  | combinator word =>
    cases word <;> exact begins_of_symbol content rfl (by decide) fun _ => by decide
  | caseWord word =>
    cases word <;> exact begins_of_symbol content rfl (by decide) fun _ => by decide

theorem reads_behind_blank {text : List Char} (solid : ∀ c ∈ text.head?, Text.isBlank c = false)
    {tokens : List Token} (reads : ScannerSet.standard.Reads last text tokens []) :
    ScannerSet.standard.Reads last (' ' :: text) tokens [] := by
  have blank : Text.isBlank ' ' = true := by decide
  have alone : text.takeWhile Text.isBlank = [] := by
    cases text with
    | nil => rfl
    | cons c text => exact List.takeWhile_cons_of_neg (Bool.eq_false_iff.mp (solid c rfl))
  have recognized : whitespace.recognize ([' '] ++ text) = some 1 := by
    simp [whitespace, blank, alone]
  have found : ScannerSet.standard.scan last ([' '] ++ text) =
      .ok (some ⟨tokenOf .blank [' '], [' '], text⟩) :=
    scan_standard (i := 0) rfl (unread_of_all rfl) recognized rfl rfl (List.cons_ne_nil _ _)
  exact .lexeme found reads

theorem reads_blank {t : Token} {rest : List Token} (begins : Begins t) {again : List Token}
    (reads : ScannerSet.standard.Reads last (written (t :: rest)).tail again []) :
    ScannerSet.standard.Reads last (written (t :: rest)) again [] := by
  obtain ⟨c, others, display, solid, _⟩ := begins
  simp only [written, List.tail_cons, display, List.cons_append] at reads ⊢
  refine reads_behind_blank (fun first head => ?_) reads
  obtain rfl := Option.some.inj head
  exact solid

theorem Readable.begins {rest : List Token} (readable : Readable last (t :: rest)) : Begins t := by
  cases readable with
  | plain legible => exact legible.begins
  | name content isName =>
    obtain ⟨c, others, chars, name⟩ := isName.begins
    have display : t.display.toList = c :: others := by simp [Token.display, content, chars]
    exact begins_of_isNameChar display name
  | call content isHead =>
    obtain ⟨c, others, chars, name⟩ := isHead.begins
    have display : t.display.toList = c :: others := by
      rw [display_of_symbol content]
      exact chars
    exact begins_of_isNameChar display name

theorem Readable.reads_behind {tokens again : List Token} (readable : Readable (some t) tokens)
    (reads : ScannerSet.standard.Reads last (written tokens).tail again []) :
    ScannerSet.standard.Reads last (written tokens) again [] := by
  cases tokens with
  | nil => exact reads
  | cons next rest => exact reads_blank readable.begins reads

theorem reads_kept {text : List Char} {scanned : Scanned} {tokens others : List Token}
    (found : ScannerSet.standard.scan last text = .ok (some scanned))
    (kept : scanned.kept = tokens)
    (later : ScannerSet.standard.Reads (tokens.getLast?.or last) scanned.rest others []) :
    ScannerSet.standard.Reads last text (tokens ++ others) [] := by
  subst kept
  exact .lexeme found later

theorem Echoes.solid {again : Token} (echoes : Echoes again t) (solid : t.content ≠ .blank) :
    again.content ≠ .blank := by
  intro blank
  have same := echoes.same
  rw [Token.same, blank] at same
  cases content : t.content with
  | blank => exact solid content
  | _ =>
    rw [content] at same
    cases same

theorem reads_again {again : Token} {text lexeme rest : List Char} {others : List Token}
    (found : ScannerSet.standard.scan last text = .ok (some ⟨[again], lexeme, rest⟩))
    (echoes : Echoes again t) (solid : t.content ≠ .blank)
    (later : ScannerSet.standard.Reads (some again) rest others []) :
    ScannerSet.standard.Reads last text (again :: others) [] := by
  have kept : (⟨[again], lexeme, rest⟩ : Scanned).kept = [again] := by
    simp [Scanned.kept, category_ne_blank (echoes.solid solid)]
  exact reads_kept found kept later

theorem Readable.open_only {rest : List Token} (readable : Readable last rest)
    (apart : ∀ next, rest.head? = some next → next.content ≠ .symbol (.grouping .opening))
    (c : Char) (first : (written rest).tail.head? = some c) :
    c ≠ '(' ∧ Text.isBlank c = false := by
  cases rest with
  | nil => cases first
  | cons next rest =>
    obtain ⟨begin, others, display, solid, bracket⟩ := readable.begins
    simp only [written, List.tail_cons, display, List.cons_append, List.head?_cons,
      Option.some.injEq] at first
    subst first
    exact ⟨bracket (apart next rfl), solid⟩

/-- What is readable is read again, token by token. -/
theorem reads_of_readable {tokens : List Token} (readable : Readable last tokens)
    {other : Option Token} (starts : startsOperand other = startsOperand last) :
    ∃ again, ScannerSet.standard.Reads other (written tokens).tail again [] ∧
      List.Forall₂ Echoes again tokens := by
  induction readable generalizing other with
  | nothing last => exact ⟨[], .nothing _ _, .nil⟩
  | @plain last t rest legible later ih =>
    obtain ⟨again, found, echoes⟩ := (legible.aligned starts).readBack (spaced_written rest)
    obtain ⟨others, reads, same⟩ := ih echoes.starts
    refine ⟨again :: others, ?_, .cons echoes same⟩
    exact reads_again found echoes legible.solid (later.reads_behind reads)
  | @name last t rest name content isName apart later ih =>
    have readBack : ReadBack other t (written rest) := readBack_name content isName
      (spaced_written rest) (apart.imp_right fun apart => later.open_only apart)
    obtain ⟨again, found, echoes⟩ := readBack
    obtain ⟨others, reads, same⟩ := ih echoes.starts
    refine ⟨again :: others, ?_, .cons echoes same⟩
    exact reads_again found echoes (by rw [content]; exact nofun) (later.reads_behind reads)
  | @call last head opening rest name content isHead opens later ih =>
    have text : (written (head :: opening :: rest)).tail =
        name.text.toList ++ ' ' :: '(' :: written rest := by
      simp only [written, List.tail_cons, display_of_symbol content, display_of_symbol opens]
      rfl
    have found := scan_head other isHead (written rest)
    have isHeadToo :
        Echoes ⟨.symbol (.function name), byteLength (name.text.toList ++ [' '])⟩ head :=
      echoes_of_content content.symm (by simp [content, Content.same])
    have isOpening : Echoes ⟨.symbol (.grouping .callOpening), 1⟩ opening :=
      echoes_of_content opens.symm (by simp [opens, Content.same])
    obtain ⟨others, reads, same⟩ := ih isOpening.starts
    refine ⟨_ :: _ :: others, ?_, .cons isHeadToo (.cons isOpening same)⟩
    rw [text]
    exact reads_kept found rfl (later.reads_behind reads)

theorem Token.symbol?_of_same {again t : Token} (same : again.same t = true) :
    again.symbol? = t.symbol? := by
  obtain ⟨c, _⟩ := again
  obtain ⟨d, _⟩ := t
  cases c <;> cases d <;> simp_all [Token.same, Content.same, Token.symbol?]

theorem endDepth?_of_echoes {again tokens : List Token} (echoes : List.Forall₂ Echoes again tokens)
    (depth : Nat) : endDepth? depth again = endDepth? depth tokens := by
  induction echoes generalizing depth with
  | nil => rfl
  | @cons a t again tokens first others ih =>
    have same : depthAfter? depth a = depthAfter? depth t := by
      simp only [depthAfter?, Token.isOpening, Token.isClosing, Token.isGrouping,
        Token.symbol?_of_same first.same]
      rfl
    rw [endDepth?, endDepth?, same]
    congr 1
    funext depth
    exact ih depth

end

namespace ScannerSet

/-- A text that the tokenizer accepts is read again from what is written of its tokens: the tokens
    are the same. It must not contain points in time, nor a double quote in a text, which is written
    in double quotes whatever it contains. -/
theorem tokenize_render {text : String} {tokens : List Token}
    (accepted : standard.tokenize text = .ok tokens)
    (noDate : ∀ t ∈ tokens, t.category ≠ .dateTime)
    (closed : ∀ t ∈ tokens, ∀ s, t.content = .data (.text s) → '"' ∉ s.toList) :
    ∃ again, standard.tokenize (render tokens) = .ok again ∧
      List.Forall₂ (fun a t => a.same t = true) again tokens := by
  obtain ⟨reads, balanced⟩ := tokenizeFrom_eq_ok_iff.mp accepted
  have readable := readable_of_reads reads noDate closed
  obtain ⟨again, readsAgain, echoes⟩ := reads_of_readable readable rfl
  rw [← toList_render] at readsAgain
  refine ⟨again, tokenizeFrom_eq_ok_iff.mpr ⟨readsAgain, ?_⟩, echoes.imp fun _ _ => Echoes.same⟩
  rw [endDepth?_of_echoes echoes, balanced]

set_option maxRecDepth 20000 in
/-- The function loses its capital and the blank behind its name, the number its last zero. -/
theorem tokenize_render_call :
    let half : Number := .decimal ⟨50, 2, by decide, by decide⟩
    let tokens : List Token := [⟨.symbol (.function (.mk "f")), 2⟩,
      ⟨.symbol (.grouping .callOpening), 1⟩, ⟨.symbol (.operator .negate), 1⟩,
      ⟨.data (.number half), 3⟩, ⟨.symbol (.grouping .closing), 1⟩]
    standard.tokenize "F (-.50)" = .ok tokens ∧ render tokens = "f ( - 0.5 )" ∧
      ∃ again, standard.tokenize (render tokens) = .ok again ∧
        List.Forall₂ (fun a t => a.same t = true) again tokens := by
  intro half tokens
  have call : standard.scan none ['F', ' ', '(', '-', '.', '5', '0', ')'] =
      .ok (some ⟨tokens.take 2, ['F', ' ', '('], ['-', '.', '5', '0', ')']⟩) := rfl
  have minus : standard.scan (some ⟨.symbol (.grouping .callOpening), 1⟩)
      ['-', '.', '5', '0', ')'] =
        .ok (some ⟨[⟨.symbol (.operator .negate), 1⟩], ['-'], ['.', '5', '0', ')']⟩) := rfl
  have number : standard.scan (some ⟨.symbol (.operator .negate), 1⟩) ['.', '5', '0', ')'] =
      .ok (some ⟨[⟨.data (.number half), 3⟩], ['.', '5', '0'], [')']⟩) := rfl
  have closing : standard.scan (some ⟨.data (.number half), 3⟩) [')'] =
      .ok (some ⟨[⟨.symbol (.grouping .closing), 1⟩], [')'], []⟩) := rfl
  have reads : standard.Reads none ['F', ' ', '(', '-', '.', '5', '0', ')'] tokens [] :=
    .lexeme call (.lexeme minus (.lexeme number (.lexeme closing (.nothing _ _))))
  have text : "F (-.50)".toList = ['F', ' ', '(', '-', '.', '5', '0', ')'] := rfl
  have accepted : standard.tokenize "F (-.50)" = .ok tokens :=
    tokenizeFrom_eq_ok_iff.mpr ⟨text ▸ reads, rfl⟩
  have shown : render tokens = "f ( - 0.5 )" := by decide +kernel
  refine ⟨accepted, shown, tokenize_render accepted ?_ ?_⟩
  · simp [tokens, Token.category, Symbol.category, Value.category]
  · simp [tokens]

end ScannerSet

end Formulary
