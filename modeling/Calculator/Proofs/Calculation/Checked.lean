import Calculator.Proofs.Calculation.Stages
import Calculator.Proofs.Expr.Checked
import Calculator.Proofs.Grammar.Phrases
import Calculator.Proofs.Grammar.Viability

/-!
# Calculations that check every step

A calculation is taken once more through its stages, now by operations that tell when they are
misused: a scan looks at the next character, takes a numeral where there is one and knows its value,
a token is looked at in the list, a number is used that has a value, and the arithmetic is that of
`Calculator.Proofs.Expr.Checked`.  Nothing is ever misused, so that a calculation ends with a value,
with the fault of a stage, or by being given up, and in no other way.  Operators and nodes need no
check, since every place that looks at one has a case for each of them.

## Main definitions

* `numeralAhead`, `sizeOfNumeral` — what a numeral is taken for, and what it says.
* `Scanner.checkedNext`, `Scanner.checkedPieces` — scanning with checks.
* `checkedTree`, `checkedCalculate` — a calculation with checks.

## Main results

* `isNumeral_iff` — whether characters are a numeral can be decided.
* `Scanner.checkedPieces_eq` — a scan misuses nothing and gets on at every turn.
* `exists_checkedToken_of_parse` — reading ends at a token of the list.
* `checkedTree_eq` — evaluating an expression misuses nothing, and neither does writing it down.
* `calculate_agrees` — **a calculation agrees with its stages and misuses nothing.**
-/

namespace Calculator

/-! ### Numerals -/

/-- Characters are a numeral if they begin with a digit and the numeral there is as long as they
are. -/
theorem isNumeral_iff {cs : List Char} :
    IsNumeral cs ↔ cs.head?.any Char.isDigit = true ∧ numeralLength cs = cs.length := by
  constructor
  · intro h
    have hlongest : LongestNumeral cs [] := ⟨h, by simp, by simp⟩
    have hlength := numeralLength_append hlongest
    rw [List.append_nil] at hlength
    obtain ⟨c, cs, rfl, hc⟩ := h.exists_cons
    exact ⟨hc, hlength⟩
  · rintro ⟨hhead, hlength⟩
    obtain ⟨c, hhead, hc⟩ := (Option.any_eq_true _ _).1 hhead
    obtain ⟨cs, rfl⟩ := List.head?_eq_some_iff.1 hhead
    obtain ⟨lexeme, rest, hsplit, hlexeme⟩ := exists_longestNumeral hc cs
    rw [hsplit, numeralLength_append hlexeme, List.length_append] at hlength
    obtain rfl : rest = [] := List.length_eq_zero_iff.1 (by omega)
    rw [hsplit, List.append_nil]
    exact hlexeme.numeral

instance : DecidablePred IsNumeral := fun _ => decidable_of_iff _ isNumeral_iff.symm

/-- The numeral at the beginning of a text: digits, and possibly a point and more digits. -/
def numeralAhead (cs : List Char) : Except Breach (List Char) :=
  if (cs.takeWhile Char.isDigit).isEmpty then .error .noNumeral
  else .ok (cs.take (numeralLength cs))

/-- The size of the number that a numeral says. -/
def sizeOfNumeral (lexeme : List Char) : Except Breach Magnitude :=
  if IsNumeral lexeme then .ok (Decimal.ofNumeral lexeme).nearest else .error .noNumeral

/-- At a digit there is a numeral, and it says a number. -/
theorem exists_numeralAhead {c : Char} (hc : c.isDigit = true) (cs : List Char) :
    ∃ lexeme, numeralAhead (c :: cs) = .ok lexeme ∧
      sizeOfNumeral lexeme = .ok (Decimal.ofNumeral lexeme).nearest ∧
      (c :: cs).take (numeralLength (c :: cs)) = lexeme ∧
      lexeme.length = numeralLength (c :: cs) := by
  obtain ⟨lexeme, rest, hsplit, hlexeme⟩ := exists_longestNumeral hc cs
  have hlength := numeralLength_append hlexeme
  rw [← hsplit] at hlength
  have hdigits : ((c :: cs).takeWhile Char.isDigit).isEmpty = false := by simp [hc]
  have htake : (c :: cs).take (numeralLength (c :: cs)) = lexeme := by
    rw [hlength, hsplit, List.take_left]
  refine ⟨lexeme, ?_, if_pos hlexeme.numeral, htake, hlength.symm⟩
  rw [numeralAhead, hdigits, htake]
  rfl

/-! ### Scanning -/

namespace Scanner

/-- The character that the scanner stands before. -/
def checkedPeek (s : Scanner) : Except Breach Char :=
  match s.ahead with
  | [] => .error .noCharacter
  | c :: _ => .ok c

/-- The numeral that the scanner stands before. -/
def checkedNumeral (name : String) (s : Scanner) : Except Breach (Piece × Scanner) := do
  let lexeme ← numeralAhead s.ahead
  let size ← sizeOfNumeral lexeme
  if size.isFinite then
    .ok (.ok ⟨.number, String.ofList lexeme, some (.signed false size), s.location name⟩,
      s.advanceBy lexeme.length)
  else
    .ok (.error ⟨.numeralOverflow (String.ofList lexeme), s.location name⟩,
      s.advanceBy (lexeme.length - 1))

/-- The piece that the scanner stands before, and the scanner after it. -/
def checkedNext (name : String) (s : Scanner) : Except Breach (Piece × Scanner) := do
  let c ← s.checkedPeek
  if c.isDigit then s.checkedNumeral name
  else
    match Token.Kind.ofSymbol? c with
    | some kind => .ok (.ok ⟨kind, c.toString, none, s.location name⟩, s.advance)
    | none => .ok (.error ⟨.unexpectedCharacter c, s.location name⟩, s)

/-- All pieces from the scanner on in at most so many turns, and the scanner at the end. -/
def checkedPieces (name : String) : Nat → Scanner → Except Breach (List Piece × Scanner)
  | 0, s => if s.skipBlanks.ahead = [] then .ok ([], s.skipBlanks) else .error .noProgress
  | turns + 1, s =>
    if s.skipBlanks.ahead = [] then .ok ([], s.skipBlanks)
    else do
      let (piece, after) ← s.skipBlanks.checkedNext name
      let (pieces, last) ← checkedPieces name turns (resume piece after)
      .ok (piece :: pieces, last)

theorem checkedNumeral_eq {name : String} {s : Scanner} {c : Char} {cs : List Char}
    (hahead : s.ahead = c :: cs) (hc : c.isDigit = true) :
    s.checkedNumeral name = .ok (s.numeral name) := by
  obtain ⟨lexeme, hlexeme, hsize, htake, hlength⟩ := exists_numeralAhead hc cs
  rw [← hahead] at hlexeme htake hlength
  rw [checkedNumeral, bind_of_eq_ok hlexeme, bind_of_eq_ok hsize, numeral, htake, ← hlength]
  generalize (Decimal.ofNumeral lexeme).nearest = size
  cases size.isFinite <;> rfl

theorem checkedNext_eq {name : String} {s : Scanner} {found : Piece × Scanner}
    (h : s.next? name = some found) : s.checkedNext name = .ok found := by
  obtain ⟨c, cs, hahead⟩ : ∃ c cs, s.ahead = c :: cs := by
    refine List.exists_cons_of_ne_nil fun hnil => ?_
    simp [next?, hnil] at h
  have hpeek : s.checkedPeek = .ok c := by rw [checkedPeek, hahead]
  simp only [next?, hahead] at h
  rw [checkedNext, bind_of_eq_ok hpeek]
  by_cases hc : c.isDigit = true
  · rw [if_pos hc] at h ⊢
    rw [checkedNumeral_eq hahead hc, Option.some.inj h]
  · rw [if_neg hc] at h ⊢
    cases hkind : Token.Kind.ofSymbol? c with
    | some kind =>
      rw [hkind] at h
      exact congrArg Except.ok (Option.some.inj h)
    | none =>
      rw [hkind] at h
      exact congrArg Except.ok (Option.some.inj h)

/-- **A scan misuses nothing** and gets on at every turn. -/
theorem checkedPieces_eq (name : String) (turns : Nat) {s : Scanner}
    (h : s.ahead.length ≤ turns) : s.checkedPieces name turns = .ok (s.pieces name) := by
  induction turns generalizing s with
  | zero =>
    have hnil : s.skipBlanks.ahead = [] := by
      have hle := s.length_skipBlanks_le
      exact List.length_eq_zero_iff.1 (by omega)
    rw [checkedPieces, if_pos hnil, pieces_of_none (by rw [next?, hnil])]
  | succ turns ih =>
    rw [checkedPieces]
    cases hnext : s.skipBlanks.next? name with
    | none => rw [if_pos (next?_eq_none hnext), pieces_of_none hnext]
    | some found =>
      obtain ⟨piece, after⟩ := found
      have hne : ¬ s.skipBlanks.ahead = [] := fun hnil => by simp [next?, hnil] at hnext
      -- every turn takes a character at least
      have hlt : (resume piece after).ahead.length ≤ turns := by
        have hlt := length_after_lt hnext
        have hle := s.length_skipBlanks_le
        omega
      rw [if_neg hne, bind_of_eq_ok (checkedNext_eq hnext), pieces_of_some hnext]
      exact bind_of_eq_ok (ih hlt) _

end Scanner

/-! ### Reading and evaluating -/

/-- The token at a place in a list. -/
def checkedToken (tokens : List Token) (n : Nat) : Except Breach Token :=
  match tokens[n]? with
  | some t => .ok t
  | none => .error .noToken

/-- The outcome of evaluating a draft that was read from some tokens. -/
def checkedEvaluation (text : String) (tokens : List Token) (draft : Draft) :
    Except Breach (Option Calculation) :=
  match draft.checkedWithin allowance with
  | .ok x => .ok (some ⟨text, tokens, some draft.complete, .ok x⟩)
  | .error (.fault (.inl breach)) => .error breach
  | .error (.fault (.inr fault)) =>
    .ok (some ⟨text, tokens, some draft.complete, .error (.arithmetic fault)⟩)
  | .error .tooDeep => .ok none

/-- The outcome of a draft that was read from some tokens: if it is watched, it is written down
before it is evaluated. -/
def checkedTree (watched : Bool) (text : String) (tokens : List Token) (draft : Draft) :
    Except Breach (Option Calculation) :=
  if watched then
    match draft.textWithin allowance with
    | .ok _ => checkedEvaluation text tokens draft
    | .error (.fault _) => .error .noValue
    | .error .tooDeep => .ok none
  else checkedEvaluation text tokens draft

/-- The outcome of some tokens.  Where reading ends, a token is looked at to see whether the text
ends there too. -/
def checkedReading (watched : Bool) (text : String) (tokens : List Token) :
    Except Breach (Option Calculation) := do
  let (reading, cursor) := (Cursor.ofTokens tokens).parse
  let _ ← checkedToken tokens cursor.passed
  match reading with
  | .ok draft => checkedTree watched text tokens draft
  | .error (.fault fault) => .ok (some ⟨text, tokens, none, .error (.syntactic fault)⟩)
  | .error .tooDeep => .ok none

/-- The outcome of the calculation of a text, with checks. -/
def checkedCalculate (watched : Bool) (name text : String) :
    Except Breach (Option Calculation) := do
  let (pieces, last) ← (Scanner.ofText text).checkedPieces name text.length
  match pieceFaults pieces with
  | [] => checkedReading watched text (pieceTokens pieces ++ [.finish (last.location name)])
  | fault :: _ => .ok (some ⟨text, [], none, .error (.lexical fault)⟩)

/-- **Reading ends at a token of the list**, however it ends. -/
theorem exists_checkedToken_of_parse (front : List Token) (stop : Token) :
    ∃ t, checkedToken (front ++ [stop]) (Cursor.parse ⟨0, front, stop⟩).2.passed = .ok t := by
  have hle : (Cursor.parse ⟨0, front, stop⟩).2.passed ≤ front.length := by
    unfold Cursor.parse Cursor.apply
    split
    · simp [Cursor.moveTo]
    · simp [Cursor.moveTo]
    · exact Nat.zero_le _
  have hlt : (Cursor.parse ⟨0, front, stop⟩).2.passed < (front ++ [stop]).length := by
    rw [List.length_append, List.length_singleton]
    omega
  refine ⟨(front ++ [stop])[(Cursor.parse ⟨0, front, stop⟩).2.passed], ?_⟩
  rw [checkedToken, List.getElem?_eq_getElem hlt]

theorem checkedEvaluation_eq (text : String) (tokens : List Token) (tree : Expr Binary64) :
    checkedEvaluation text tokens tree.draft = .ok (evaluation text tokens tree) := by
  rw [checkedEvaluation, Draft.checkedWithin_draft, Draft.complete_draft, evaluation, Expr.value]
  cases tree.valueWithin allowance with
  | ok x => rfl
  | error halt => cases halt <;> rfl

/-- **Evaluating an expression misuses nothing**, and neither does writing it down. -/
theorem checkedTree_eq (watched : Bool) (text : String) (tokens : List Token)
    (tree : Expr Binary64) :
    checkedTree watched text tokens tree.draft =
      .ok (calculateTree watched text tokens tree).outcome := by
  rw [outcome_calculateTree, checkedTree, checkedEvaluation_eq, Draft.textWithin_draft,
    Expr.textWithin]
  cases watched with
  | false => simp
  | true =>
    by_cases hheight : tree.height ≤ allowance
    · simp [hheight, Nat.not_lt.2 hheight]
    · simp [hheight, Nat.not_le.1 hheight]

/-- What is read from the tokens of a text is an expression of numbers. -/
theorem exists_draft_of_parse {name text : String} {front : List Token} {stop : Token}
    {draft : Draft} (htiled : (Scanner.ofText text).Tiled name (front.map .ok))
    (h : (Cursor.parse ⟨0, front, stop⟩).1 = .ok draft) :
    ∃ tree : Expr Binary64, draft = tree.draft := by
  obtain ⟨d, rfl, rfl, -⟩ := Cursor.exists_of_parse_ok h
  refine d.exists_draft fun t ht hnumber => ?_
  obtain ⟨before, after, -, -, hfits⟩ := htiled.stands (List.mem_map_of_mem (f := Except.ok) ht)
  obtain ⟨size, hsize, -⟩ := hfits.exists_size hnumber
  rw [hsize]
  exact Option.some_ne_none _

theorem checkedReading_eq {name text : String} {tokens : List Token}
    (h : tokenize name text = .ok tokens) (watched : Bool) :
    checkedReading watched text tokens = .ok (calculate watched name text).outcome := by
  obtain ⟨front, rfl, htiled, hfront⟩ := exists_tiled_of_tokenize h
  let stop : Token := .finish (.inText name text text.length)
  have hcursor : Cursor.ofTokens (front ++ [stop]) = ⟨0, front, stop⟩ :=
    Cursor.ofTokens_append hfront rfl
  obtain ⟨t, ht⟩ := exists_checkedToken_of_parse front stop
  simp only [checkedReading, calculate, h, parse, hcursor, bind_of_eq_ok ht, stop]
  cases hread : (Cursor.parse ⟨0, front, stop⟩).1 with
  | ok draft =>
    obtain ⟨tree, rfl⟩ := exists_draft_of_parse htiled hread
    dsimp only [Except.map]
    rw [checkedTree_eq, Draft.complete_draft]
  | error halt => cases halt <;> rfl

/-- **A calculation misuses nothing.** -/
theorem checkedCalculate_eq (watched : Bool) (name text : String) :
    checkedCalculate watched name text = .ok (calculate watched name text).outcome := by
  have hpieces : (Scanner.ofText text).checkedPieces name text.length =
      .ok ((Scanner.ofText text).pieces name) :=
    Scanner.checkedPieces_eq name _ (Nat.le_of_eq (Scanner.length_ahead_ofText text))
  rw [checkedCalculate, bind_of_eq_ok hpieces]
  cases hfaults : pieceFaults ((Scanner.ofText text).pieces name).1 with
  | cons fault faults =>
    have htokens : tokenize name text = .error fault :=
      tokenize_eq_error_iff.2 (congrArg List.head? hfaults)
    simp only [hfaults, calculate, htokens, Trace.fail]
  | nil =>
    have htokens : tokenize name text = .ok (scan name text).tokens := by
      simp only [tokenize, scan, hfaults]
    simp only [hfaults]
    exact checkedReading_eq htokens watched

/-- **A calculation agrees with its stages and misuses nothing.**  Its outcome is what the stages
add up to; a text with lexical faults anywhere fails with the leftmost of them; and no step of it is
misused. -/
theorem calculate_agrees (watched : Bool) (name text : String) :
    (∀ outcome, Staged watched name text outcome ↔
        (calculate watched name text).outcome = outcome) ∧
      ((scan name text).faults ≠ [] ↔ ∃ fault, tokenize name text = .error fault ∧
        fault ∈ (scan name text).faults ∧ ∀ other ∈ (scan name text).faults,
          other ≠ fault → fault.location.offset < other.location.offset) ∧
      checkedCalculate watched name text = .ok (calculate watched name text).outcome :=
  ⟨fun _ => staged_iff, faults_ne_nil_iff, checkedCalculate_eq watched name text⟩

end Calculator
