import Calculator.Proofs.Calculation.Moving
import Calculator.Proofs.Calculation.Pointing
import Calculator.Proofs.Scan.Spacing

/-!
# Spacing does not matter

A text whose tokens are written anew, with other white space between them, is calculated in the same
way.  All lines, columns and offsets may be others, but what a failure tells is the same, and the
token or the expression that it tells of is the one in the same place of the list of tokens.

## Main definitions

* `Failure.Agrees` — failures of two lists of tokens that tell the same of the same tokens.
* `SameOutcome` — outcomes that differ in the places of tokens only.

## Main results

* `mem_of_parse_fault`, `exists_mem_of_mem_nodes` — what a failure tells of is one of the tokens, or
  begins with one.
* `sameOutcome_moved` — moving tokens does not change the outcome.
* `outcome_spacedOut` — **spacing does not matter.**
-/

namespace Calculator

/-! ### Outcomes of two lists of tokens -/

/-- What a failure of the tokens carries agrees with what one of the others does: the token with the
same index, or an expression alike. -/
def Failure.CarriesAlike (tokens tokens' : List Token) : Failure → Failure → Prop
  | syntactic fault, syntactic fault' => (fault.found, fault'.found) ∈ tokens.zip tokens'
  | arithmetic fault, arithmetic fault' => fault'.culprit.Alike fault.culprit
  | _, _ => False

/-- Failures of two lists of tokens that tell the same of the same tokens. -/
structure Failure.Agrees (tokens tokens' : List Token) (failure failure' : Failure) : Prop where
  /-- The codes are the same, and with them the sorts of failure. -/
  code : failure'.diagnostic.code = failure.diagnostic.code
  message : failure'.diagnostic.message = failure.diagnostic.message
  carries : failure.CarriesAlike tokens tokens' failure'
  /-- Both are located at tokens with the same index. -/
  location : ∃ t t', (t, t') ∈ tokens.zip tokens' ∧ failure.diagnostic.location = t.location ∧
    failure'.diagnostic.location = t'.location

/-- Outcomes for two lists of tokens that differ in the places of the tokens only. -/
inductive SameOutcome (tokens tokens' : List Token) :
    Option Calculation → Option Calculation → Prop
  /-- Both are nested too deeply. -/
  | abandoned : SameOutcome tokens tokens' none none
  /-- Both have the same value. -/
  | value {c c' : Calculation} {x : Binary64} (h : c.result = .ok x) (h' : c'.result = .ok x) :
      SameOutcome tokens tokens' (some c) (some c')
  /-- Both have failures that agree. -/
  | failure {c c' : Calculation} {failure failure' : Failure} (h : c.result = .error failure)
      (h' : c'.result = .error failure') (hagrees : failure.Agrees tokens tokens' failure') :
      SameOutcome tokens tokens' (some c) (some c')

/-! ### Tokens that a failure tells of -/

theorem mem_of_parse_fault {name text : String} {tokens : List Token} {fault : SyntaxFault}
    (htokens : tokenize name text = .ok tokens) (h : parse tokens = .error (.fault fault)) :
    fault.found ∈ tokens ∧ ∃ t ∈ tokens, fault.location = t.location := by
  obtain ⟨⟨cause, rest⟩, read, rfl, -, hjustified, rfl, hfound⟩ :=
    exists_refusal_of_parse htokens h
  cases cause with
  | operandExpected => exact ⟨hfound, _, hfound, rfl⟩
  | trailing => exact ⟨hfound, _, hfound, rfl⟩
  | unclosed opener =>
    obtain ⟨-, before, inner, rfl⟩ := hjustified.unclosed opener rfl
    exact ⟨hfound, opener, by simp, rfl⟩

theorem exists_mem_of_mem_nodes {name text : String} {tokens : List Token}
    {tree e : Expr Binary64} (h : Reads name text tokens tree) (he : e ∈ tree.nodes) :
    ∃ t ∈ tokens, e.span.first = t.location := by
  obtain ⟨d, rfl, -, rfl, -⟩ := h.exists_derivation
  rw [Draft.complete, Expr.nodes_map] at he
  obtain ⟨draft, hdraft, rfl⟩ := List.mem_map.1 he
  obtain ⟨⟨t, ht, hfirst⟩, -⟩ := d.exists_tokens_of_mem_nodes hdraft
  exact ⟨t, List.mem_append_left _ ht, by rw [Expr.span_map, hfirst]⟩

/-! ### Tokens that are moved -/

variable {g : Location → Location}

theorem mem_zip_moved {tokens : List Token} {t : Token} (ht : t ∈ tokens) :
    (t, t.moved g) ∈ tokens.zip (tokens.map (Token.moved g)) := by
  rw [List.zip_map_right, List.mem_map]
  exact ⟨(t, t), by simpa [List.zip, List.zipWith_self] using ht, rfl⟩

/-- A failure agrees with the failure in other places. -/
theorem Failure.agrees_moved {tokens : List Token} {failure : Failure}
    (hcarries : failure.CarriesAlike tokens (tokens.map (Token.moved g)) (failure.moved g))
    (hlocation : ∃ t ∈ tokens, failure.diagnostic.location = t.location) :
    failure.Agrees tokens (tokens.map (Token.moved g)) (failure.moved g) := by
  obtain ⟨-, hcode, hmessage⟩ := failure.diagnostic_moved (g := g)
  obtain ⟨t, ht, hplace⟩ := hlocation
  refine ⟨hcode, hmessage, hcarries, t, t.moved g, mem_zip_moved ht, hplace, ?_⟩
  rw [Failure.location_moved, hplace]
  rfl

/-- **Moving the tokens of a text does not change its outcome.** -/
theorem sameOutcome_moved {watched : Bool} {name text text' : String} {tokens : List Token}
    {outcome : Option Calculation} (htokens : tokenize name text = .ok tokens)
    (h : Staged watched name text outcome) :
    SameOutcome tokens (tokens.map (Token.moved g)) outcome
      (outcome.map (Calculation.moved g text')) := by
  -- the tokens of each stage are those of the text
  have hsame {tokens' : List Token} (htokens' : tokenize name text = .ok tokens') :
      tokens' = tokens := Except.ok.inj (htokens'.symm.trans htokens)
  cases h with
  | lexical hfault =>
    rw [htokens] at hfault
    cases hfault
  | unread htokens' hdeep => exact .abandoned
  | unwritten hreads hwatched hdeep => exact .abandoned
  | unevaluated hreads hdeep => exact .abandoned
  | value hreads hresult => exact .value rfl rfl
  | @syntactic _ fault htokens' hfault =>
    obtain rfl := hsame htokens'
    obtain ⟨hfound, hlocation⟩ := mem_of_parse_fault htokens hfault
    refine .failure rfl rfl (Failure.agrees_moved ?_ hlocation)
    show (fault.found, (fault.moved g).found) ∈ _
    rw [SyntaxFault.found_moved]
    exact mem_zip_moved hfound
  | @arithmetic _ _ fault hreads hwritten hfault =>
    obtain rfl := hsame hreads.1
    obtain ⟨hmem, -, -⟩ := ArithmeticFault.shown_of_value hfault
    refine .failure rfl rfl (Failure.agrees_moved ?_ (exists_mem_of_mem_nodes hreads hmem))
    show (fault.moved g).culprit.Alike fault.culprit
    rw [ArithmeticFault.culprit_moved]
    exact fault.culprit.alike_moved g

/-! ### Texts written anew -/

theorem exists_tokenize_spacedOut {name text : String} {tokens : List Token} {ws : List String}
    (h : tokenize name text = .ok tokens) (hws : Spacing tokens ws) (name' : String) :
    ∃ g, tokenize name' (spacedOut ws tokens) = .ok (tokens.map (Token.moved g)) := by
  obtain ⟨front, hfront, htiled, -⟩ := exists_tiled_of_tokenize h
  have hahead : (Scanner.ofText (spacedOut ws tokens)).ahead =
      (spacedOut ws (front ++ [.finish (.inText name text text.length)])).toList := by
    rw [← hfront]
    rfl
  rw [hfront] at hws
  obtain ⟨front', hcontent, htiled'⟩ : ∃ front' : List Token,
      front'.map Token.content = front.map Token.content ∧
        (Scanner.ofText (spacedOut ws tokens)).Tiled name' (front'.map .ok) :=
    htiled.exists_spacedOut rfl hws hahead
  obtain ⟨l, htokens'⟩ := tokenize_of_tiled htiled'
  have hcontent' : (front' ++ [Token.finish l]).map Token.content = tokens.map Token.content := by
    rw [hfront, List.map_append, List.map_append, hcontent]
    rfl
  -- no two tokens are in the same place, so that the new ones are the old ones moved
  have hplaces : tokens.Pairwise fun t u => t.location ≠ u.location := by
    refine (ordered_tokens h).imp ?_
    intro t u hlt heq
    rw [heq] at hlt
    exact Int.lt_irrefl _ hlt
  obtain ⟨g, hg⟩ := exists_moved hcontent' hplaces
  exact ⟨g, by rw [htokens', hg]⟩

/-- **Spacing does not matter**: a text whose tokens are written anew, with other white space that
keeps them apart, has the same tokens and the same outcome. -/
theorem outcome_spacedOut {name text : String} {tokens : List Token} {ws : List String}
    (h : tokenize name text = .ok tokens) (hws : Spacing tokens ws) (watched : Bool)
    (name' : String) :
    ∃ tokens', tokenize name' (spacedOut ws tokens) = .ok tokens' ∧
      tokens'.map Token.content = tokens.map Token.content ∧
      SameOutcome tokens tokens' (calculate watched name text).outcome
        (calculate watched name' (spacedOut ws tokens)).outcome := by
  obtain ⟨g, hmoved⟩ := exists_tokenize_spacedOut h hws name'
  refine ⟨tokens.map (Token.moved g), hmoved, ?_, ?_⟩
  · rw [List.map_map]
    rfl
  · have houtcome : (calculate watched name' (spacedOut ws tokens)).outcome =
        (calculate watched name text).outcome.map
          (Calculation.moved g (spacedOut ws tokens)) := by
      refine outcome_moved ?_
      rw [hmoved, h]
      rfl
    rw [houtcome]
    exact sameOutcome_moved h (staged_calculate watched name text)

/-- Two numbers in parentheses, written on one line and then over three. -/
theorem outcome_spacedOut_lines :
    let tokens := (tokenize defaultName "(2 2)").toOption.getD []
    let ws := ["\n ", "", "\t\n", "", " "]
    tokenize defaultName "(2 2)" = .ok tokens ∧ Spacing tokens ws ∧
      spacedOut ws tokens = "\n (2\t\n2) " ∧
      ∃ tokens', tokenize defaultName "\n (2\t\n2) " = .ok tokens' ∧
        SameOutcome tokens tokens' (calculate false defaultName "(2 2)").outcome
          (calculate false defaultName "\n (2\t\n2) ").outcome := by
  intro tokens ws
  have htokens : (tokenize defaultName "(2 2)").isOk = true := by decide +kernel
  have h : tokenize defaultName "(2 2)" = .ok tokens := eq_ok_getD_of_isOk htokens []
  have hlength : ws.length = tokens.length := by decide +kernel
  have hblank : (ws.all fun w => w.toList.all isBlank) = true := by decide +kernel
  have hws : Spacing tokens ws := by
    refine ⟨hlength, ?_, ?_⟩
    · intro w hw
      exact List.all_eq_true.1 (List.all_eq_true.1 hblank w hw)
    · -- the numbers are the second and the third token
      intro i t u ht hu hnumber hnumber'
      have hkinds : ∀ i < 5, (tokens[i]?.map Token.kind = some .number ∧
          tokens[i + 1]?.map Token.kind = some .number) → i = 1 := by decide +kernel
      have hi : i < 5 := by
        have hlt : i < tokens.length := (List.getElem?_eq_some_iff.1 ht).1
        rwa [← hlength] at hlt
      obtain rfl : i = 1 := by
        refine hkinds i hi ?_
        rw [ht, hu, Option.map_some, Option.map_some, hnumber, hnumber']
        exact ⟨rfl, rfl⟩
      decide
  have htext : spacedOut ws tokens = "\n (2\t\n2) " := by decide +kernel
  obtain ⟨tokens', htokens', -, hsame⟩ := outcome_spacedOut h hws false defaultName
  rw [htext] at htokens' hsame
  exact ⟨h, hws, htext, tokens', htokens', hsame⟩

end Calculator
