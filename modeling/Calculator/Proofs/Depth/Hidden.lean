import Calculator.Calculation
import Calculator.Proofs.Grammar.Reading
import Calculator.Proofs.Scan.Tiling

/-!
# Hidden depth

Evaluating an expression costs two of the allowance a level and writing it costs one, so that an
expression with a value can also be written.  An expression with a fault need not: the evaluation
stops at the first fault, and the rest of the expression, however deep, is never looked at.  Such an
expression *hides* its depth.

## Main definitions

* `Reads` — a text is read as an expression.
* `HidesDepth` — a text whose expression has a fault, but is too deep to be written.
* `onesBehind`, `hiddenProduct` — a quotient by zero in front of a long product.

## Main results

* `Expr.height_le_of_value` — an expression with a value can be written.
* `exists_chain` — a chain of ones as what continues a level.
* `hidesDepth_hiddenProduct` — **a long product hides its depth** behind a quotient by zero.
-/

namespace Calculator

/-- The text with the given name has these tokens, and they are read as this expression. -/
def Reads (name text : String) (tokens : List Token) (tree : Expr Binary64) : Prop :=
  tokenize name text = .ok tokens ∧ parse tokens = .ok tree

/-- The text is read as an expression that has too many levels to be written, and whose evaluation
meets a fault before it goes too deep. -/
def HidesDepth (name text : String) : Prop :=
  ∃ tokens tree fault, Reads name text tokens tree ∧ tree.value = .error (.fault fault) ∧
    allowance < tree.height

/-! ### The cost of a value -/

namespace Expr

/-- Even the value of a literal costs two. -/
theorem exists_room_of_valueWithin {room : Nat} {e : Expr Binary64} {x : Binary64}
    (h : e.valueWithin room = .ok x) : ∃ rest, room = rest + 2 := by
  cases room with
  | zero => simp [valueWithin] at h
  | succ room =>
    cases room with
    | zero => simp [valueWithin] at h
    | succ room => exact ⟨room, rfl⟩

/-- A value costs two of the allowance for each level of its expression. -/
theorem height_le_of_valueWithin {room : Nat} {e : Expr Binary64} {x : Binary64}
    (h : e.valueWithin room = .ok x) : 2 * e.height ≤ room := by
  induction e generalizing room x with
  | literal value span =>
    obtain ⟨room, rfl⟩ := exists_room_of_valueWithin h
    rw [height]
    omega
  | negate operand span ih =>
    obtain ⟨room, rfl⟩ := exists_room_of_valueWithin h
    obtain ⟨y, hy, -⟩ := exists_of_bind_eq_ok h
    have hle := ih hy
    rw [height]
    omega
  | binary op left right span ihl ihr =>
    -- both operands have values within what is left, and the higher of them counts
    obtain ⟨room, rfl⟩ := exists_room_of_valueWithin h
    obtain ⟨y, hy, h⟩ := exists_of_bind_eq_ok h
    obtain ⟨z, hz, -⟩ := exists_of_bind_eq_ok h
    have hleft := ihl hy
    have hright := ihr hz
    rw [height]
    omega

theorem height_le_of_value {e : Expr Binary64} {x : Binary64} (h : e.value = .ok x) :
    e.height ≤ allowance := by
  have hle := height_le_of_valueWithin h
  omega

/-- Joining operands to the right of an expression adds at least one level for each of them. -/
theorem height_foldl_join {α : Type} (operands : List (Operator × Expr α)) (first : Expr α) :
    first.height + operands.length ≤
      (operands.foldl (fun left (op, right) => join op left right) first).height := by
  induction operands generalizing first with
  | nil => exact Nat.le_refl _
  | cons operand operands ih =>
    -- the first operand is joined, and the others are joined to that
    obtain ⟨op, right⟩ := operand
    have hjoin : first.height + 1 ≤ (join op first right).height :=
      Nat.add_le_add_right (Nat.le_max_left ..) 1
    calc first.height + (operands.length + 1)
        ≤ (join op first right).height + operands.length := by omega
      _ ≤ _ := ih (join op first right)

end Expr

/-! ### Chains of ones -/

/-- Ones, each of them behind a symbol. -/
def onesBehind (symbol : Char) : Nat → List Char
  | 0 => []
  | n + 1 => symbol :: '1' :: onesBehind symbol n

/-- A quotient by zero, less a product of `n + 1` ones. -/
def hiddenProduct (n : Nat) : String :=
  String.ofList ('1' :: '/' :: '0' :: '-' :: '1' :: onesBehind '*' n)

/-- The token of a numeral that is a single digit. -/
def Token.ofDigit (c : Char) (l : Location) : Token :=
  ⟨.number, String.ofList [c], some (.signed false (Decimal.ofNumeral [c]).nearest), l⟩

/-- A digit as a phrase of any category. -/
def Derivation.ofDigit (c : Char) (l : Location) (category : Category) : Derivation category :=
  .ofNumber (.ofDigit c l) rfl category

@[simp] theorem Derivation.word_ofDigit (c : Char) (l : Location) (category : Category) :
    (ofDigit c l category).word = [.ofDigit c l] := word_ofNumber ..

@[simp] theorem Derivation.draft_ofDigit (c : Char) (l : Location) (category : Category) :
    (ofDigit c l category).draft =
      .literal (some (.signed false (Decimal.ofNumeral [c]).nearest)) ⟨l, l⟩ := draft_ofNumber ..

@[simp] theorem Derivation.nesting_ofDigit (c : Char) (l : Location) (category : Category) :
    (ofDigit c l category).nesting = 0 := nesting_ofNumber ..

theorem nearest_zero : (Decimal.ofNumeral ['0']).nearest = Magnitude.zero := by decide +kernel

theorem nearest_one : (Decimal.ofNumeral ['1']).nearest = Magnitude.one := by decide +kernel

theorem isFinite_nearest_one : (Decimal.ofNumeral ['1']).nearest.isFinite = true := by
  rw [nearest_one]
  decide

/-- The token of a numeral. -/
def Token.ofNumeral (lexeme : List Char) (l : Location) : Token :=
  ⟨.number, String.ofList lexeme, some (.signed false (Decimal.ofNumeral lexeme).nearest), l⟩

theorem Scanner.Tiled.numeral {name : String} {s : Scanner} {lexeme rest : List Char}
    {pieces : List Piece} (hahead : s.ahead = lexeme ++ rest)
    (hlexeme : LongestNumeral lexeme rest)
    (hfinite : (Decimal.ofNumeral lexeme).nearest.isFinite = true)
    (h : Tiled name (s.advanceBy lexeme.length) pieces) :
    Tiled name s (.ok (.ofNumeral lexeme (s.location name)) :: pieces) :=
  .cons (by simp [hahead, Piece.characters, Token.ofNumeral]) (.number hlexeme hfinite) rfl
    (by simpa [Piece.characters, Token.ofNumeral] using h)

/-- A digit in front of something that is neither a digit nor a point begins a tiling. -/
theorem Scanner.Tiled.digit {name : String} {s : Scanner} {c : Char} {rest : List Char}
    {pieces : List Piece} (hahead : s.ahead = c :: rest) (hc : c.isDigit = true)
    (hfinite : (Decimal.ofNumeral [c]).nearest.isFinite = true)
    (hrest : ∀ d ∈ rest.head?, d.isDigit = false ∧ d ≠ '.')
    (h : Tiled name (s.advanceBy 1) pieces) :
    Tiled name s (.ok (.ofDigit c (s.location name)) :: pieces) := by
  have hlexeme : LongestNumeral [c] rest := by
    refine ⟨.whole (by simp) (by simpa using hc), fun d hd => (hrest d hd).1, ?_⟩
    intro _ hpoint
    exact (hrest '.' hpoint).2 rfl
  exact .numeral hahead hlexeme hfinite h

theorem Scanner.Tiled.symbol {name : String} {s : Scanner} {c : Char} {kind : Token.Kind}
    {rest : List Char} {pieces : List Piece} (hahead : s.ahead = c :: rest)
    (hkind : Token.Kind.ofSymbol? c = some kind) (h : Tiled name (s.advanceBy 1) pieces) :
    Tiled name s (.ok ⟨kind, c.toString, none, s.location name⟩ :: pieces) := by
  have hchars : s.ahead =
      Piece.characters (.ok ⟨kind, c.toString, none, s.location name⟩) ++ rest := by
    simp [hahead, Piece.characters]
  exact .cons hchars (.symbol hkind) rfl (by simpa [Piece.characters] using h)

theorem ne_point_of_ofSymbol? {c : Char} {kind : Token.Kind}
    (h : Token.Kind.ofSymbol? c = some kind) : c ≠ '.' := by
  have hall : ∀ entry ∈ Token.Kind.symbols, entry.1 ≠ '.' := by decide
  exact hall _ (Token.Kind.mem_symbols h)

theorem head?_onesBehind {symbol : Char} {kind : Token.Kind}
    (hkind : Token.Kind.ofSymbol? symbol = some kind) (n : Nat) :
    ∀ d ∈ (onesBehind symbol n).head?, d.isDigit = false ∧ d ≠ '.' := by
  intro d hd
  cases n with
  | zero => cases hd
  | succ n =>
    obtain rfl := Option.some.inj hd
    exact ⟨isDigit_of_ofSymbol? hkind, ne_point_of_ofSymbol? hkind⟩

/-- A chain of ones behind an operator of a level continues the level with that many ones. -/
theorem exists_chain (name : String) (l : Level) (op : Operator) {symbol : Char}
    {kind : Token.Kind} (hkind : Token.Kind.ofSymbol? symbol = some kind)
    (hop : l.precedence kind = some op) {n : Nat} {s : Scanner}
    (hahead : s.ahead = onesBehind symbol n) :
    ∃ k : Continuation l, s.Tiled name (k.word.map .ok) ∧ k.nesting = 0 ∧ k.drafts.length = n ∧
      ∀ entry ∈ k.drafts, ∃ span, entry = (op, .literal (some (.signed false .one)) span) := by
  induction n generalizing s with
  | zero =>
    refine ⟨.done, ?_, by rw [Continuation.nesting], by rw [Continuation.drafts]; rfl, ?_⟩
    · rw [Continuation.word]
      exact .finish (by simp [hahead, onesBehind])
    · rw [Continuation.drafts]
      intro entry hentry
      cases hentry
  | succ n ih =>
    rw [onesBehind] at hahead
    have hone : (s.advanceBy 1).ahead = '1' :: onesBehind symbol n := by simp [hahead]
    have hmore : ((s.advanceBy 1).advanceBy 1).ahead = onesBehind symbol n := by simp [hahead]
    obtain ⟨more, htiled, hnesting, hlength, hones⟩ := ih hmore
    -- the symbol and the one behind it are a step in front of the rest of the chain
    refine ⟨.step ⟨kind, symbol.toString, none, s.location name⟩ op hop
      (.ofDigit '1' ((s.advanceBy 1).location name) _) more, ?_, ?_, ?_, ?_⟩
    · rw [Continuation.word, Derivation.word_ofDigit]
      exact .symbol hahead hkind
        (.digit hone rfl isFinite_nearest_one (head?_onesBehind hkind n) htiled)
    · rw [Continuation.nesting, Derivation.nesting_ofDigit, hnesting, Nat.max_self]
    · rw [Continuation.drafts, List.length_cons, hlength]
    · rw [Continuation.drafts, Derivation.draft_ofDigit, nearest_one]
      intro entry hentry
      rcases List.mem_cons.1 hentry with rfl | hentry
      · exact ⟨_, rfl⟩
      · exact hones entry hentry

/-- The derivation of the text `1/0-1*1*…*1`, if the digits and symbols up to the first factor stand
in these places. -/
def hiddenDerivation (place : Nat → Location) (product : Continuation .multiplicative) :
    Derivation .expression :=
  .level
    (.level (.ofDigit '1' (place 0) _)
      (.step ⟨.slash, "/", none, place 1⟩ .div rfl (.ofDigit '0' (place 2) _) .done))
    (.step ⟨.minus, "-", none, place 3⟩ .sub rfl (.level (.ofDigit '1' (place 4) _) product) .done)

/-- The text is tiled by the word of the derivation. -/
theorem exists_hiddenDerivation (name : String) (n : Nat) :
    ∃ place product, (Scanner.ofText (hiddenProduct n)).Tiled name
        ((hiddenDerivation place product).word.map .ok) ∧
      product.nesting = 0 ∧ product.drafts.length = n := by
  -- the scanner behind the first `i` characters, none of which is white space
  let s : Nat → Scanner := fun i => (Scanner.ofText (hiddenProduct n)).advanceBy i
  have hahead (i : Nat) : (s i).ahead =
      ('1' :: '/' :: '0' :: '-' :: '1' :: onesBehind '*' n).drop i := by
    simp [s, Scanner.ofText, hiddenProduct]
  have hnext {i : Nat} {pieces : List Piece} (h : (s (i + 1)).Tiled name pieces) :
      ((s i).advanceBy 1).Tiled name pieces := by
    simpa [s, Scanner.advanceBy_add] using h
  have hzero : (Decimal.ofNumeral ['0']).nearest.isFinite = true := by
    rw [nearest_zero]; decide
  obtain ⟨product, htiled, hnesting, hlength, -⟩ :=
    exists_chain name .multiplicative .mul rfl rfl (hahead 5)
  refine ⟨fun i => (s i).location name, product, ?_, hnesting, hlength⟩
  simp only [hiddenDerivation, Derivation.word, Continuation.word, Derivation.word_ofDigit,
    List.cons_append, List.nil_append, List.append_nil, List.map_cons]
  show (s 0).Tiled name _
  refine .digit (hahead 0) rfl isFinite_nearest_one (by simp) (hnext ?_)
  refine .symbol (hahead 1) rfl (hnext ?_)
  refine .digit (hahead 2) rfl hzero (by simp) (hnext ?_)
  refine .symbol (hahead 3) rfl (hnext ?_)
  exact .digit (hahead 4) rfl isFinite_nearest_one (head?_onesBehind rfl n) (hnext htiled)

/-- The expression of the derivation is a quotient by zero, less an expression with at least as many
levels as the product has factors. -/
theorem exists_complete_hiddenDerivation (place : Nat → Location)
    (product : Continuation .multiplicative) :
    ∃ right, (hiddenDerivation place product).draft.complete =
        .join .sub (.join .div (.literal (.signed false .one) ⟨place 0, place 0⟩)
          (.literal (.signed false .zero) ⟨place 2, place 2⟩)) right ∧
      product.drafts.length + 1 ≤ right.height := by
  let term : Derivation .term := .level (.ofDigit '1' (place 4) _) product
  refine ⟨term.draft.complete, ?_, ?_⟩
  · simp only [hiddenDerivation, Derivation.draft, Continuation.drafts, Derivation.draft_ofDigit,
      List.foldl_cons, List.foldl_nil, Draft.complete, Expr.map_join, Expr.map, nearest_zero,
      nearest_one, Option.getD_some, term]
  · have hle := Expr.height_foldl_join product.drafts
      (Derivation.ofDigit '1' (place 4) .power).draft
    rw [Derivation.draft_ofDigit, Expr.height, Nat.add_comm] at hle
    rw [Draft.complete, Expr.height_map, Derivation.draft, Derivation.draft_ofDigit]
    exact hle

/-- **A long product hides its depth** behind a quotient by zero. -/
theorem hidesDepth_hiddenProduct (name : String) {n : Nat} (hn : allowance ≤ n + 1) :
    HidesDepth name (hiddenProduct n) := by
  obtain ⟨place, product, htiled, hnesting, hlength⟩ := exists_hiddenDerivation name n
  obtain ⟨l, htokens⟩ := tokenize_of_tiled htiled
  obtain ⟨right, htree, hheight⟩ := exists_complete_hiddenDerivation place product
  have hroom : (hiddenDerivation place product).nesting ≤ allowance := by
    simp [hiddenDerivation, Derivation.nesting, Continuation.nesting, hnesting]
  have hparse := parse_word_append hroom (show (Token.finish l).kind = .finish from rfl)
  rw [htree] at hparse
  -- the quotient is the left operand, so that its fault comes before anything on the right
  refine ⟨_, _, .zeroDivisor (.literal (.signed false .zero) ⟨place 2, place 2⟩),
    ⟨htokens, hparse⟩, rfl, ?_⟩
  rw [Expr.join, Expr.height]
  omega

end Calculator
