import Formulary.Proofs.Arrangement
import Formulary.Proofs.Names

/-!
Nothing is skipped, and nothing is read twice. A text is cut into pieces that lie end to end, each
of which some scanner turns into tokens. Of the standard scanners, all pieces but blanks make a
token as wide as they are, and calls make two, one for the head and one for the bracket.
-/
namespace Formulary

theorem byteLength_append (left right : List Char) :
    byteLength (left ++ right) = byteLength left + byteLength right := by
  induction left with
  | nil => simp [byteLength]
  | cons c left ih => simp only [List.cons_append, byteLength, ih, Nat.add_assoc]

theorem byteLength_toList (text : String) : byteLength text.toList = text.utf8ByteSize := by
  have ofList (chars : List Char) : byteLength chars = (String.ofList chars).utf8ByteSize := by
    induction chars with
    | nil => rfl
    | cons c chars ih =>
      rw [String.ofList_cons, String.utf8ByteSize_append, String.utf8ByteSize_singleton, ← ih]
      rfl
  rw [ofList, String.ofList_toList]

/-! Pieces of any set of scanners -/

structure Piece where
  scanner : Scanner
  lexeme : List Char
  tokens : List Token

def Piece.kept (p : Piece) : List Token := p.tokens.filter (·.category != .blank)

namespace ScannerSet

/-- Behind the token `last`, the scanner of the piece is the first that recognizes a lexeme at the
    front of the text and is admitted. -/
structure Heard (set : ScannerSet) (last : Option Token) (text : List Char) (p : Piece) :
    Prop where
  first : ∃ i, set.scanners[i]? = some p.scanner ∧
    ∀ s ∈ set.scanners.take i, s.recognize text = none ∨ s.admits last = false
  admitted : p.scanner.admits last = true
  recognized : ∃ n, p.scanner.recognize text = some n ∧ p.lexeme = text.take n
  converted : p.scanner.convert p.lexeme = .ok p.tokens
  nonempty : p.lexeme ≠ []

inductive Cut (set : ScannerSet) : Option Token → List Piece → List Char → Prop where
  | nothing (last : Option Token) (rest : List Char) : Cut set last [] rest
  | piece {last : Option Token} {p : Piece} {pieces : List Piece} {rest : List Char}
      (heard : set.Heard last (p.lexeme ++ (pieces.flatMap Piece.lexeme ++ rest)) p)
      (later : Cut set (p.kept.getLast?.or last) pieces rest) : Cut set last (p :: pieces) rest

variable {set : ScannerSet} {last : Option Token} {text rest : List Char} {tokens : List Token}

theorem heard_of_scan {scanned : Scanned} (found : set.scan last text = .ok (some scanned)) :
    text = scanned.lexeme ++ scanned.rest ∧
      ∃ s, set.Heard last text ⟨s, scanned.lexeme, scanned.tokens⟩ := by
  obtain ⟨i, s, known, before, read, nonempty⟩ := firstScan_eq_some_iff.mp found
  obtain ⟨n, recognized, admitted, converted, lexeme, behind⟩ := Scanner.scan_eq_some_iff.mp read
  rw [← lexeme] at converted
  refine ⟨(Scanner.lexeme_append_rest read).symm, s, ?_⟩
  exact ⟨⟨i, known, fun b earlier => Scanner.scan_eq_none_iff.mp (before b earlier)⟩, admitted,
    ⟨n, recognized, lexeme⟩, converted, nonempty⟩

theorem Heard.begins {p : Piece} (heard : set.Heard last text p) :
    ∃ rest, text = p.lexeme ++ rest := by
  obtain ⟨n, _, lexeme⟩ := heard.recognized
  exact ⟨text.drop n, lexeme ▸ (List.take_append_drop n text).symm⟩

theorem Heard.scan {p : Piece} (heard : set.Heard last (p.lexeme ++ rest) p) :
    set.scan last (p.lexeme ++ rest) = .ok (some ⟨p.tokens, p.lexeme, rest⟩) := by
  obtain ⟨i, known, before⟩ := heard.first
  obtain ⟨n, recognized, lexeme⟩ := heard.recognized
  have behind : rest = (p.lexeme ++ rest).drop n := by
    have whole := List.take_append_drop n (p.lexeme ++ rest)
    rw [← lexeme] at whole
    exact (List.append_cancel_left whole).symm
  refine firstScan_eq_some_iff.mpr ⟨i, p.scanner, known,
    fun b earlier => Scanner.scan_eq_none_iff.mpr (before b earlier), ?_, heard.nonempty⟩
  exact Scanner.scan_eq_some_iff.mpr
    ⟨n, recognized, heard.admitted, lexeme ▸ heard.converted, lexeme, behind⟩

/-- What is read comes in pieces. -/
theorem reads_iff_cut : set.Reads last text tokens rest ↔
    ∃ pieces, set.Cut last pieces rest ∧ text = pieces.flatMap Piece.lexeme ++ rest ∧
      tokens = pieces.flatMap Piece.kept := by
  constructor
  · intro reads
    induction reads with
    | nothing last text => exact ⟨[], .nothing last text, rfl, rfl⟩
    | @lexeme _ _ _ scanned _ found later ih =>
      obtain ⟨whole, s, heard⟩ := heard_of_scan found
      obtain ⟨pieces, cut, behind, rfl⟩ := ih
      rw [behind] at whole
      rw [whole] at heard
      exact ⟨⟨s, scanned.lexeme, scanned.tokens⟩ :: pieces, .piece heard cut,
        by rw [whole, List.flatMap_cons, List.append_assoc], rfl⟩
  · rintro ⟨pieces, cut, rfl, rfl⟩
    induction cut with
    | nothing last rest => exact .nothing last rest
    | piece heard later ih =>
      rw [List.flatMap_cons, List.append_assoc]
      exact .lexeme heard.scan ih

theorem Cut.length_le {pieces : List Piece} (cut : set.Cut last pieces rest) :
    pieces.length ≤ (pieces.flatMap Piece.lexeme).length := by
  induction cut with
  | nothing => exact Nat.zero_le _
  | piece heard later ih =>
    have some := List.length_pos_iff.mpr heard.nonempty
    simp only [List.length_cons, List.flatMap_cons, List.length_append]
    omega

theorem tokenizeFrom_stuck (more : text ≠ [])
    (stuck : ∀ scanned, set.scan last text ≠ .ok (some scanned)) (depth : Nat) :
    ∃ e, set.tokenizeFrom depth last text = .error e := by
  cases found : set.scan last text with
  | error e => exact ⟨e, tokenizeFrom_error more found⟩
  | ok result =>
    cases result with
    | none => exact ⟨_, tokenizeFrom_unmatched more found⟩
    | some scanned => exact absurd found (stuck scanned)

theorem tokenizeFrom_eq_ok_iff_of_reads (reads : set.Reads last text tokens rest)
    (stops : rest = [] ∨ rest ≠ [] ∧
      ∀ scanned, set.scan (tokens.getLast?.or last) rest ≠ .ok (some scanned))
    {depth : Nat} {accepted : List Token} :
    set.tokenizeFrom depth last text = .ok accepted ↔
      rest = [] ∧ accepted = tokens ∧ endDepth? depth tokens = some 0 := by
  rw [tokenizeFrom_of_reads reads depth]
  cases endDepth? depth tokens with
  | none => simp
  | some final =>
    dsimp only
    rcases stops with rfl | ⟨more, stuck⟩
    · rw [tokenizeFrom_nil]
      cases final <;> simp [Except.map, eq_comm]
    · obtain ⟨e, failed⟩ := tokenizeFrom_stuck more stuck final
      rw [failed]
      simp [Except.map, more]

end ScannerSet

/-! Tokens of the standard scanners -/

structure Entry where
  token : Token
  lexeme : List Char
  blanks : List Char
  measured : byteLength lexeme = token.width
  blank : ∀ c ∈ blanks, Text.isBlank c = true

def Entry.text (e : Entry) : List Char := e.lexeme ++ e.blanks

namespace ScannerSet

/-- Behind the token `last`, the standard scanners make the tokens of the entries. The scanner of
    a call makes two of one lexeme. -/
inductive Spelled : Option Token → List Entry → Prop where
  | nothing (last : Option Token) : Spelled last []
  | single {last : Option Token} {e : Entry} {entries : List Entry} {s : Scanner}
      (heard : standard.Heard last ((e :: entries).flatMap Entry.text) ⟨s, e.lexeme, [e.token]⟩)
      (later : Spelled (some e.token) entries) : Spelled last (e :: entries)
  | call {last : Option Token} {head opening : Entry} {entries : List Entry} {s : Scanner}
      (heard : standard.Heard last ((head :: opening :: entries).flatMap Entry.text)
        ⟨s, head.lexeme ++ opening.lexeme, [head.token, opening.token]⟩)
      (together : head.blanks = []) (later : Spelled (some opening.token) entries) :
      Spelled last (head :: opening :: entries)

end ScannerSet

namespace Lexicon

variable {last : Option Token} {text rest : List Char} {tokens : List Token}

theorem tokens_of_symbolOf {kind : String} {spellings : List (String × Symbol)}
    {spelled lexeme : List Char} (known : symbolOf kind spellings spelled lexeme = .ok tokens) :
    ∃ content, tokens = tokenOf content lexeme := by
  unfold symbolOf at known
  split at known
  · exact ⟨_, (Except.ok.inj known).symm⟩
  · cases known

theorem tokens_of_convert {s : Scanner} (member : s ∈ ScannerSet.standard.scanners) {n : Nat}
    (read : s.recognize text = some n) (made : s.convert (text.take n) = .ok tokens) :
    (∃ content, tokens = tokenOf content (text.take n)) ∨
      ∃ head name, text.take n = head ++ ['('] ∧
        tokens = [⟨.symbol (.function name), byteLength head⟩,
          ⟨.symbol (.grouping .callOpening), 1⟩] := by
  simp only [ScannerSet.standard, List.mem_cons, List.not_mem_nil, or_false] at member
  rcases member with rfl | rfl | rfl | rfl | rfl | rfl | rfl | rfl | rfl | rfl | rfl | rfl | rfl |
    rfl | rfl
  case inr.inr.inl =>
    simp only [dateTime] at made
    split at made
    · exact .inl ⟨_, (Except.ok.inj made).symm⟩
    · cases made
  case inr.inr.inr.inl =>
    obtain ⟨number, _, same⟩ := bind_eq_ok.mp made
    exact .inl ⟨_, (Except.ok.inj same).symm⟩
  case inr.inr.inr.inr.inr.inr.inr.inr.inr.inr.inr.inr.inr.inl =>
    obtain ⟨word, mark, blanks, rest, rfl, _, _, rfl⟩ := called_of_recognize read
    have front : (word ++ (mark ++ (blanks ++ '(' :: rest))).take
        (word.length + mark.length + blanks.length + 1) = word ++ mark ++ blanks ++ ['('] := by
      have whole : word ++ (mark ++ (blanks ++ '(' :: rest)) =
          word ++ mark ++ blanks ++ ['('] ++ rest := by simp
      rw [whole]
      exact List.take_left' (by simp only [List.length_append, List.length_singleton])
    rw [front] at made ⊢
    let name := Name.ofText (String.ofList (Text.trim (word ++ mark ++ blanks)))
    refine .inr ⟨word ++ mark ++ blanks, name, rfl, ?_⟩
    simp only [function, List.dropLast_concat] at made
    exact (Except.ok.inj made).symm
  all_goals first
    | exact .inl ⟨_, (Except.ok.inj made).symm⟩
    | exact .inl (tokens_of_symbolOf made)

theorem Stands.blank_of_content {lexeme : List Char} (stands : Stands last text lexeme [.blank]) :
    ∀ c ∈ lexeme, Text.isBlank c = true := by
  cases stands with
  | blank blank => exact blank

theorem heard_cases {p : Piece} (heard : ScannerSet.standard.Heard last (p.lexeme ++ rest) p) :
    (p.kept = [] ∧ ∀ c ∈ p.lexeme, Text.isBlank c = true) ∨
      (∃ t, p.tokens = [t] ∧ p.kept = [t] ∧ byteLength p.lexeme = t.width) ∨
      ∃ front head opening, p.lexeme = front ++ ['('] ∧ p.tokens = [head, opening] ∧
        p.kept = [head, opening] ∧ byteLength front = head.width ∧ opening.width = 1 := by
  have stands := stands_of_scan heard.scan
  obtain ⟨i, known, _⟩ := heard.first
  obtain ⟨n, recognized, lexeme⟩ := heard.recognized
  have made := heard.converted
  rw [lexeme] at made
  rcases tokens_of_convert (List.mem_of_getElem? known) recognized made with
    ⟨content, one⟩ | ⟨front, name, whole, two⟩
  · rw [← lexeme] at one
    by_cases blank : content = .blank
    · subst blank
      have none : p.kept = [] := by rw [Piece.kept, one]; rfl
      rw [one] at stands
      exact .inl ⟨none, stands.blank_of_content⟩
    · let t : Token := ⟨content, byteLength p.lexeme⟩
      have solid : t.category ≠ .blank := category_ne_blank blank
      have kept : p.kept = [t] := by
        rw [Piece.kept, one]
        exact List.filter_cons_of_pos (by simpa using solid)
      exact .inr (.inl ⟨t, one, kept, rfl⟩)
  · rw [← lexeme] at whole
    have kept : p.kept = p.tokens := by rw [Piece.kept, two]; rfl
    exact .inr (.inr ⟨front, _, _, whole, two, kept.trans two, rfl, rfl⟩)

end Lexicon

namespace ScannerSet

/-- The entries are those of the pieces, with blanks in front that belong to none of them. -/
structure Accounts (last : Option Token) (pieces : List Piece) (front : List Char)
    (entries : List Entry) : Prop where
  blank : ∀ c ∈ front, Text.isBlank c = true
  whole : pieces.flatMap Piece.lexeme = front ++ entries.flatMap Entry.text
  kept : pieces.flatMap Piece.kept = entries.map Entry.token
  spelled : Spelled last entries

namespace Accounts

variable {last : Option Token} {p : Piece} {pieces : List Piece} {front : List Char}
  {entries : List Entry}

theorem blanks (accounts : Accounts last pieces front entries) (none : p.kept = [])
    (blank : ∀ c ∈ p.lexeme, Text.isBlank c = true) :
    Accounts last (p :: pieces) (p.lexeme ++ front) entries where
  blank c member := (List.mem_append.mp member).elim (blank c) (accounts.blank c)
  whole := by rw [List.flatMap_cons, accounts.whole, List.append_assoc]
  kept := by rw [List.flatMap_cons, none, accounts.kept, List.nil_append]
  spelled := accounts.spelled

theorem token {t : Token} (accounts : Accounts (some t) pieces front entries)
    (made : p.tokens = [t]) (one : p.kept = [t]) (width : byteLength p.lexeme = t.width)
    (heard : standard.Heard last (p.lexeme ++ pieces.flatMap Piece.lexeme) p) :
    ∃ e, Accounts last (p :: pieces) [] (e :: entries) := by
  let e : Entry := ⟨t, p.lexeme, front, width, accounts.blank⟩
  have split : p.lexeme ++ pieces.flatMap Piece.lexeme = (e :: entries).flatMap Entry.text := by
    rw [accounts.whole, List.flatMap_cons, Entry.text, List.append_assoc]
  have same : p = ⟨p.scanner, e.lexeme, [e.token]⟩ := made ▸ rfl
  have read : standard.Heard last ((e :: entries).flatMap Entry.text)
      ⟨p.scanner, e.lexeme, [e.token]⟩ := by rwa [← split, ← same]
  refine ⟨e, nofun, split, ?_, .single read accounts.spelled⟩
  rw [List.flatMap_cons, one, accounts.kept]
  rfl

theorem call {name : List Char} {head opening : Token}
    (accounts : Accounts (some opening) pieces front entries) (lexeme : p.lexeme = name ++ ['('])
    (made : p.tokens = [head, opening]) (two : p.kept = [head, opening])
    (width : byteLength name = head.width) (single : opening.width = 1)
    (heard : standard.Heard last (p.lexeme ++ pieces.flatMap Piece.lexeme) p) :
    ∃ h o, Accounts last (p :: pieces) [] (h :: o :: entries) := by
  let h : Entry := ⟨head, name, [], width, nofun⟩
  let o : Entry := ⟨opening, ['('], front, single.symm ▸ rfl, accounts.blank⟩
  have split : p.lexeme ++ pieces.flatMap Piece.lexeme =
      (h :: o :: entries).flatMap Entry.text := by
    simp only [lexeme, accounts.whole, List.flatMap_cons, Entry.text, h, o, List.append_nil,
      List.append_assoc]
  have same : p = ⟨p.scanner, h.lexeme ++ o.lexeme, [h.token, o.token]⟩ := by
    rw [← made, ← lexeme]
  have read : standard.Heard last ((h :: o :: entries).flatMap Entry.text)
      ⟨p.scanner, h.lexeme ++ o.lexeme, [h.token, o.token]⟩ := by rwa [← split, ← same]
  refine ⟨h, o, nofun, split, ?_, .call read rfl accounts.spelled⟩
  rw [List.flatMap_cons, two, accounts.kept]
  rfl

end Accounts

theorem accounts_of_cut {last : Option Token} {pieces : List Piece} {rest : List Char}
    (cut : standard.Cut last pieces rest) (ends : rest = []) :
    ∃ front entries, Accounts last pieces front entries := by
  -- By induction on the pieces: blanks go to the entry before them.
  induction cut with
  | nothing last => exact ⟨[], [], nofun, rfl, rfl, .nothing last⟩
  | @piece last p pieces rest heard later ih =>
    obtain ⟨front, entries, accounts⟩ := ih ends
    subst ends
    rw [List.append_nil] at heard
    rcases Lexicon.heard_cases heard with ⟨none, blank⟩ | ⟨t, made, one, width⟩ |
      ⟨name, head, opening, lexeme, made, two, width, single⟩
    · rw [none] at accounts
      exact ⟨_, _, accounts.blanks none blank⟩
    · rw [one] at accounts
      obtain ⟨e, accounts⟩ := accounts.token made one width heard
      exact ⟨_, _, accounts⟩
    · rw [two] at accounts
      obtain ⟨h, o, accounts⟩ := accounts.call lexeme made two width single heard
      exact ⟨_, _, accounts⟩

theorem byteLength_entries (entries : List Entry) :
    byteLength (entries.flatMap Entry.text) =
      ((entries.map Entry.token).map Token.width).sum +
        (entries.map fun e => byteLength e.blanks).sum := by
  induction entries with
  | nil => rfl
  | cons e entries ih =>
    simp only [List.flatMap_cons, byteLength_append, Entry.text, ih, e.measured, List.map_cons,
      List.sum_cons]
    omega

/-- Every set of scanners cuts a text into pieces that lie end to end, until the text ends or no
    scanner is heard any more, and only if it ends is the text accepted. With the standard scanners
    every token is made of its own part of the text, as wide as it says, and between these parts
    there are only blanks. -/
theorem tokenize_covers :
    (∀ (set : ScannerSet) (text : String), ∃ pieces rest, set.Cut none pieces rest ∧
      text.toList = pieces.flatMap Piece.lexeme ++ rest ∧
      pieces.length + rest.length ≤ text.length ∧
      (rest = [] ∨ ∀ p, ¬ set.Heard (pieces.flatMap Piece.kept).getLast? rest p) ∧
      ∀ tokens, set.tokenize text = .ok tokens ↔
        rest = [] ∧ tokens = pieces.flatMap Piece.kept ∧ endDepth? 0 tokens = some 0) ∧
    ∀ text tokens, standard.tokenize text = .ok tokens → ∃ front entries,
      (∀ c ∈ front, Text.isBlank c = true) ∧
      text.toList = front ++ entries.flatMap Entry.text ∧
      tokens = entries.map Entry.token ∧ Spelled none entries ∧
      (tokens.map Token.width).sum +
        (byteLength front + (entries.map fun e => byteLength e.blanks).sum) =
          text.utf8ByteSize := by
  constructor
  · intro set text
    obtain ⟨tokens, rest, reads, stops⟩ := set.exists_reads none text.toList
    obtain ⟨pieces, cut, whole, rfl⟩ := reads_iff_cut.mp reads
    refine ⟨pieces, rest, cut, whole, ?_, ?_, fun tokens => ?_⟩
    · have length := congrArg List.length whole
      have few := cut.length_le
      rw [List.length_append, String.length_toList] at length
      omega
    · refine stops.imp_right fun ⟨_, stuck⟩ p heard => ?_
      rw [Option.or_none] at stuck
      obtain ⟨behind, rfl⟩ := heard.begins
      exact stuck _ heard.scan
    · refine (tokenizeFrom_eq_ok_iff_of_reads reads stops).trans (and_congr_right fun _ => ?_)
      exact and_congr_right fun same => by rw [same]
  · intro text tokens accepted
    obtain ⟨pieces, cut, whole, rfl⟩ := reads_iff_cut.mp (tokenizeFrom_eq_ok_iff.mp accepted).1
    obtain ⟨front, entries, accounts⟩ := accounts_of_cut cut rfl
    rw [List.append_nil, accounts.whole] at whole
    refine ⟨front, entries, accounts.blank, whole, accounts.kept, accounts.spelled, ?_⟩
    rw [← byteLength_toList, whole, byteLength_append, byteLength_entries, accounts.kept]
    omega

/-- A quoted letter of two bytes, with a blank behind it. -/
theorem tokenize_covers_quoted :
    let tokens : List Token := [⟨.data (.text "é"), 4⟩]
    standard.tokenize "\"é\" " = .ok tokens ∧ ∃ front, ∃ entries : List Entry,
      (∀ c ∈ front, Text.isBlank c = true) ∧
      ['"', 'é', '"', ' '] = front ++ entries.flatMap Entry.text ∧
      tokens = entries.map Entry.token ∧
      4 + (byteLength front + (entries.map fun e => byteLength e.blanks).sum) = 5 := by
  intro tokens
  have first : standard.scan none ['"', 'é', '"', ' '] =
      .ok (some ⟨tokens, ['"', 'é', '"'], [' ']⟩) := rfl
  have second : standard.scan (some ⟨.data (.text "é"), 4⟩) [' '] =
      .ok (some ⟨[⟨.blank, 1⟩], [' '], []⟩) := rfl
  have reads : standard.Reads none "\"é\" ".toList tokens [] :=
    .lexeme first (.lexeme second (.nothing _ _))
  have accepted : standard.tokenize "\"é\" " = .ok tokens :=
    tokenizeFrom_eq_ok_iff.mpr ⟨reads, rfl⟩
  obtain ⟨front, entries, blank, whole, made, _, sum⟩ := tokenize_covers.2 _ tokens accepted
  exact ⟨accepted, front, entries, blank, whole, made, sum⟩

end ScannerSet

end Formulary
