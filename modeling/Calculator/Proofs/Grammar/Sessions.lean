import Calculator.Proofs.Grammar.Anywhere

/-!
# Sessions of reading

In a session phrases are read one by one and in any order, also from the place where an earlier one
was refused, and tokens are looked at and passed in between.  A group may be read from any token on,
even from the end of the text.  Whatever has been called, a step only goes forward, it does not go
past the end of the text, and it takes notice of nothing but the tokens from its place on.

A session goes along the list of all tokens, as in `Calculator.Proofs.Grammar.Walking`.  A cursor
takes the same steps, except that it stays where it is if the nesting is too deep.

## Main definitions

* `InFront` — the places up to the end of the text.
* `stepAlong`, `reached` — one step along all tokens, and the place after some of them.
* `Cursor.standing`, `Cursor.after` — the cursor at a place, and after some steps.
* `Orderly`, `DependsOnRest`, `ComesToEnd` — what a step keeps to, what it depends on, and that
  reading comes to an end.

## Main results

* `perform_standing` — a cursor takes the steps that a session takes.
* `orderly_stepAlong`, `inFront_reached` — one step, and then any steps.
* `sessions_go_forward` — **sessions of reading only go forward**, along the tokens up to the end.
-/

namespace Calculator

/-! ### Places -/

/-- The first tokens, so many of them, are there and in front of the end of the text. -/
def InFront (ts : List Token) (place : Nat) : Prop :=
  place ≤ ts.length ∧ ∀ t ∈ ts.take place, t.kind ≠ .finish

theorem inFront_iff {ts : List Token} {place : Nat} :
    InFront ts place ↔ place ≤ (Cursor.ofTokens ts).ahead.length := by
  show _ ↔ place ≤ (ts.takeWhile Cursor.inText).length
  -- token by token, as the text is split at its end
  induction ts generalizing place with
  | nil => simp [InFront]
  | cons t ts ih =>
    cases place with
    | zero => simp [InFront]
    | succ place =>
      by_cases ht : t.kind = .finish
      · simp [InFront, Cursor.inText, ht]
      · rw [List.takeWhile_cons_of_pos (by simp [Cursor.inText, ht]), List.length_cons,
          Nat.succ_le_succ_iff, ← ih]
        simp [InFront, ht]

theorem inFront_zero (ts : List Token) : InFront ts 0 := inFront_iff.2 (Nat.zero_le _)

namespace Cursor

/-- The cursor behind the first tokens, so many of them. -/
def standing (ts : List Token) (place : Nat) : Cursor :=
  ⟨place, (ofTokens ts).ahead.drop place, (ofTokens ts).stop⟩

/-- The cursor after some steps, whatever their answers. -/
def after (c : Cursor) (calls : List Call) : Cursor :=
  calls.foldl (fun c call => (c.perform call).2) c

section

variable {ts : List Token} {place : Nat}

theorem place_standing (h : InFront ts place) :
    (ofTokens ts).ahead.length - (standing ts place).ahead.length = place := by
  have hle := inFront_iff.1 h
  have hlength : (standing ts place).ahead.length = (ofTokens ts).ahead.length - place :=
    List.length_drop
  omega

theorem ahead_standing_suffix (ts : List Token) (place : Nat) :
    (standing ts place).ahead <:+ (ofTokens ts).ahead :=
  List.drop_suffix place _

theorem peek_standing (h : InFront ts place) : (standing ts place).peek = tokenAt ts place := by
  have hlook := (shows_tokenAt ts).look_eq _ (ahead_standing_suffix ts place)
  rw [place_standing h] at hlook
  exact hlook.symm

theorem moveTo_standing (h : InFront ts place) {rest : List Token}
    (hrest : rest <:+ (standing ts place).ahead) :
    (standing ts place).moveTo rest = standing ts ((ofTokens ts).ahead.length - rest.length) := by
  have hplace := place_standing h
  have hle := hrest.length_le
  have hin : rest <:+ (ofTokens ts).ahead := hrest.trans (ahead_standing_suffix ts place)
  have hle' := (ahead_standing_suffix ts place).length_le
  -- what has been passed is told by what is left
  have hpassed : place + ((standing ts place).ahead.length - rest.length) =
      (ofTokens ts).ahead.length - rest.length := by omega
  have hahead : (ofTokens ts).ahead.drop ((ofTokens ts).ahead.length - rest.length) = rest :=
    (List.suffix_iff_eq_drop.1 hin).symm
  show (⟨_, rest, _⟩ : Cursor) = ⟨_, (ofTokens ts).ahead.drop _, _⟩
  rw [hahead, ← hpassed]
  rfl

theorem advance_standing (h : InFront ts place) :
    (standing ts place).advance = standing ts (Walk.advance (tokenAt ts) place).2 := by
  have hplace := place_standing h
  have hin := ahead_standing_suffix ts place
  rw [advance, moveTo_standing h (List.drop_suffix 1 _)]
  cases hahead : (standing ts place).ahead with
  | nil =>
    -- the end of the text is not passed
    have hend : (tokenAt ts place).kind = .finish := by
      rw [← peek_standing h, peek, hahead]
      exact (shows_tokenAt ts).kind_stop
    rw [hahead] at hplace
    rw [Walk.advance, if_pos hend]
    exact congrArg _ hplace
  | cons t rest =>
    have hadvance := Walk.advance_of_suffix (shows_tokenAt ts) (hahead ▸ hin)
    rw [← hahead, hplace] at hadvance
    rw [hadvance]
    rfl

end

end Cursor

/-! ### Steps -/

/-- Takes a step along all tokens. -/
def stepAlong (ts : List Token) (place : Nat) : Cursor.Call → Cursor.Answer × Nat
  | .read p =>
    let (result, after) := Walk.phrase (tokenAt ts) ts.length p place
    (.reading result, after)
  | .peek => (.token (tokenAt ts place), place)
  | .advance => (.token (tokenAt ts place), (Walk.advance (tokenAt ts) place).2)
  | .check kind => (.truth ((tokenAt ts place).kind == kind), place)
  | .take kind =>
    if (tokenAt ts place).kind == kind then (.truth true, (Walk.advance (tokenAt ts) place).2)
    else (.truth false, place)

/-- The place after some steps from the beginning, whatever their answers. -/
def reached (ts : List Token) (calls : List Cursor.Call) : Nat :=
  calls.foldl (fun place call => (stepAlong ts place call).2) 0

/-- Where a cursor stands after a step: it stays where it is if the nesting is too deep. -/
def standsAfter (place : Nat) : Cursor.Answer × Nat → Nat
  | (.reading (.error .tooDeep), _) => place
  | (_, after) => after

/-- What a step from one place to another keeps to. -/
structure Orderly (ts : List Token) (place : Nat) (call : Cursor.Call) (answer : Cursor.Answer)
    (after : Nat) : Prop where
  /-- It does not go back. -/
  le : place ≤ after
  /-- It does not go past the end of the text. -/
  inFront : InFront ts after
  /-- Looking passes nothing. -/
  stays : (call = .peek ∨ ∃ kind, call = .check kind) → after = place
  /-- What is read has tokens. -/
  takes : ∀ p e, call = .read p → answer = .reading (.ok e) → place + p.least ≤ after
  /-- A fault tells of the token at the place where it leaves the cursor. -/
  points : ∀ fault, answer = .reading (.error (.fault fault)) → tokenAt ts after = fault.found

section

variable {ts : List Token} {place : Nat}

theorem coincide_tokenAt (ts : List Token) :
    Walk.Coincide (Cursor.ofTokens ts).ahead.length (tokenAt ts) (tokenAt ts) :=
  (shows_tokenAt ts).coincide (shows_tokenAt ts)

/-- What a phrase gives in a session is what its rule gives for the tokens from the place on. -/
theorem gives_phrase (h : InFront ts place) (p : Phrase) :
    Walk.Gives (Cursor.ofTokens ts).ahead.length (Cursor.ofTokens ts).stop
      (Cursor.standing ts place).ahead (p.rule (Cursor.standing ts place).ahead)
      (Walk.phrase (tokenAt ts) ts.length p place) := by
  have hfollows := Walk.follows_phrase (shows_tokenAt ts) (length_ahead_le ts) p _
    (Cursor.ahead_standing_suffix ts place)
  rwa [Cursor.place_standing h] at hfollows

theorem le_advance (h : InFront ts place) :
    place ≤ (Walk.advance (tokenAt ts) place).2 ∧
      InFront ts (Walk.advance (tokenAt ts) place).2 := by
  obtain ⟨-, hle, hlast⟩ := Walk.alike_advance (coincide_tokenAt ts) place (inFront_iff.1 h)
  exact ⟨hle, inFront_iff.2 hlast⟩

/-- What a step that reads nothing has to keep to. -/
theorem Orderly.of_not_reading {call : Cursor.Call} {answer : Cursor.Answer} {after : Nat}
    (hle : place ≤ after) (hfront : InFront ts after)
    (hstays : (call = .peek ∨ ∃ kind, call = .check kind) → after = place)
    (hanswer : ∀ result, answer ≠ .reading result) : Orderly ts place call answer after where
  le := hle
  inFront := hfront
  stays := hstays
  takes := fun _ _ _ h => absurd h (hanswer _)
  points := fun _ h => absurd h (hanswer _)

/-- **A step is orderly**, wherever it is taken. -/
theorem orderly_stepAlong (h : InFront ts place) (call : Cursor.Call) :
    Orderly ts place call (stepAlong ts place call).1 (stepAlong ts place call).2 := by
  obtain ⟨hle, hfront⟩ := le_advance h
  cases call with
  | read p =>
    have hturns := length_ahead_le ts
    obtain ⟨-, hle, hlast⟩ := Walk.alike_phrase (coincide_tokenAt ts) hturns hturns p place
      (inFront_iff.1 h)
    -- what the rule takes from here on is what the walk passes
    have htakes := p.takes_rule (Cursor.standing ts place).ahead
    obtain ⟨hread, hrefused⟩ := (gives_phrase h p).takes (shows_tokenAt ts)
      (Cursor.ahead_standing_suffix ts place) htakes
    rw [Cursor.place_standing h] at hread
    refine ⟨hle, inFront_iff.2 hlast, by simp, ?_, ?_⟩
    · rintro _ e ⟨⟩ hanswer
      exact hread e (Cursor.Answer.reading.inj hanswer)
    · intro fault hanswer
      exact hrefused fault (Cursor.Answer.reading.inj hanswer)
  | peek => exact .of_not_reading (Nat.le_refl _) h (fun _ => rfl) (by simp [stepAlong])
  | check kind => exact .of_not_reading (Nat.le_refl _) h (fun _ => rfl) (by simp [stepAlong])
  | advance => exact .of_not_reading hle hfront (by simp) (by simp [stepAlong])
  | take kind =>
    rw [stepAlong]
    split
    · exact .of_not_reading hle hfront (by simp) (by simp)
    · exact .of_not_reading (Nat.le_refl _) h (fun _ => rfl) (by simp)

/-- A step of a cursor is orderly as well: if the nesting is too deep, it is not taken. -/
theorem Orderly.standsAfter {call : Cursor.Call} {step : Cursor.Answer × Nat} (h : InFront ts place)
    (hstep : Orderly ts place call step.1 step.2) :
    Orderly ts place call step.1 (standsAfter place step) := by
  unfold Calculator.standsAfter
  split
  · exact ⟨Nat.le_refl _, h, fun _ => rfl, by simp, by simp⟩
  · exact hstep

/-- **A cursor takes the steps that a session takes.** -/
theorem perform_standing (h : InFront ts place) (call : Cursor.Call) :
    (Cursor.standing ts place).perform call =
      ((stepAlong ts place call).1,
        Cursor.standing ts (standsAfter place (stepAlong ts place call))) := by
  have hpeek := Cursor.peek_standing h
  have hadvance := Cursor.advance_standing h
  cases call with
  | peek => rw [Cursor.perform, hpeek]; rfl
  | check kind => rw [Cursor.perform, Cursor.check, hpeek]; rfl
  | advance => rw [Cursor.perform, hpeek, hadvance]; rfl
  | take kind =>
    rw [Cursor.perform, Cursor.take, Cursor.check, hpeek, hadvance, stepAlong]
    by_cases hkind : ((tokenAt ts place).kind == kind) = true
    · rw [if_pos hkind, if_pos hkind]
      rfl
    · rw [if_neg hkind, if_neg hkind]
      rfl
  | read p =>
    have hgives := gives_phrase h p
    have htakes := p.takes_rule (Cursor.standing ts place).ahead
    rw [Cursor.perform, Cursor.apply, stepAlong]
    generalize p.rule (Cursor.standing ts place).ahead = result at hgives htakes
    generalize Walk.phrase (tokenAt ts) ts.length p place = found at hgives
    cases htakes with
    | read hread hleast =>
      rw [hgives.2]
      dsimp only
      rw [Cursor.moveTo_standing h hgives.1]
      rfl
    | @refused read r hread =>
      have hfound : found = (.error (.fault (.ofRefusal (Cursor.ofTokens ts).stop r)),
        (Cursor.ofTokens ts).ahead.length - r.rest.length) := hgives
      rw [hfound]
      dsimp only
      rw [Cursor.moveTo_standing h ⟨read, hread.symm⟩]
      rfl
    | tooDeep =>
      -- the cursor stays, wherever the walk has broken off
      obtain ⟨result, after⟩ := found
      obtain rfl : result = .error .tooDeep := hgives
      rfl

/-- Reading a phrase from a place on comes to an end: no loop needs more turns than there are
tokens, and no rule goes too deep with six of the room for each of them. -/
structure ComesToEnd (ts : List Token) (place : Nat) (p : Phrase) : Prop where
  turns : ∀ turns, ts.length ≤ turns →
    Walk.phrase (tokenAt ts) turns p place = Walk.phrase (tokenAt ts) ts.length p place
  room : ∀ room, 6 * ts.length ≤ room →
    p.within room (Cursor.standing ts place).ahead ≠ .error .tooDeep

theorem comesToEnd (h : InFront ts place) (p : Phrase) : ComesToEnd ts place p where
  turns := by
    intro turns hturns
    have hlength := length_ahead_le ts
    exact (Walk.alike_phrase (coincide_tokenAt ts) (Nat.le_trans hlength hturns) hlength p place
      (inFront_iff.1 h)).1
  room := by
    intro room hroom
    have hlength := length_ahead_le ts
    have hrest := (Cursor.ahead_standing_suffix ts place).length_le
    exact p.within_ne_tooDeep (by omega)

/-- What a step does in any other list that goes on in the same way from a place on and ends with
the same token: it has the same answer there, and goes as far. -/
def DependsOnRest (ts : List Token) (place : Nat) (call : Cursor.Call) : Prop :=
  ∀ ts' place', InFront ts' place' → ts'.drop place' = ts.drop place →
    ts'.getLast? = ts.getLast? →
    ∃ n, (stepAlong ts place call).2 = n + place ∧
      stepAlong ts' place' call = ((stepAlong ts place call).1, n + place')

theorem tokenAt_add_of_drop_eq {ts' : List Token} {place' : Nat}
    (hdrop : ts'.drop place' = ts.drop place) (hlast : ts'.getLast? = ts.getLast?) (i : Nat) :
    tokenAt ts' (i + place') = tokenAt ts (i + place) := by
  have himplied : impliedEnd ts' = impliedEnd ts := by rw [impliedEnd, impliedEnd, hlast]
  rw [tokenAt, tokenAt, himplied, Nat.add_comm i, Nat.add_comm i, ← List.getElem?_drop,
    ← List.getElem?_drop, hdrop]

/-- **A step depends on nothing but the tokens from its place on**, and the last one of the list. -/
theorem dependsOnRest_stepAlong (h : InFront ts place) (call : Cursor.Call) :
    DependsOnRest ts place call := by
  intro ts' place' h' hdrop hlast
  -- what is shown from the two places on
  let look (i : Nat) : Token := tokenAt ts (i + place)
  have hlook : ∀ i, tokenAt ts (i + place) = look i := fun _ => rfl
  have hlook' : ∀ i, tokenAt ts' (i + place') = look i := tokenAt_add_of_drop_eq hdrop hlast
  have hhere : tokenAt ts' place' = tokenAt ts place := by
    simpa only [look, Nat.zero_add] using hlook' 0
  have hadvance := Walk.shifted_advance hlook 0
  have hadvance' := Walk.shifted_advance hlook' 0
  rw [Nat.zero_add] at hadvance hadvance'
  cases call with
  | peek => exact ⟨0, (Nat.zero_add _).symm, by rw [stepAlong, stepAlong, hhere, Nat.zero_add]⟩
  | check kind =>
    exact ⟨0, (Nat.zero_add _).symm, by rw [stepAlong, stepAlong, hhere, Nat.zero_add]⟩
  | advance =>
    refine ⟨(Walk.advance look 0).2, congrArg Prod.snd hadvance, ?_⟩
    rw [stepAlong, stepAlong, hhere, hadvance']
  | take kind =>
    rw [stepAlong, stepAlong, hhere, hadvance, hadvance']
    by_cases hkind : ((tokenAt ts place).kind == kind) = true
    · rw [if_pos hkind, if_pos hkind]
      exact ⟨_, rfl, rfl⟩
    · rw [if_neg hkind, if_neg hkind]
      exact ⟨0, (Nat.zero_add _).symm, by rw [Nat.zero_add]⟩
  | read p =>
    -- with turns enough for both lists
    have hphrase := Walk.shifted_phrase hlook (max ts.length ts'.length) p 0
    have hphrase' := Walk.shifted_phrase hlook' (max ts.length ts'.length) p 0
    rw [Nat.zero_add, (comesToEnd h p).turns _ (Nat.le_max_left ..)] at hphrase
    rw [Nat.zero_add, (comesToEnd h' p).turns _ (Nat.le_max_right ..)] at hphrase'
    rw [stepAlong, stepAlong, hphrase, hphrase']
    exact ⟨_, rfl, rfl⟩

/-! ### Sessions -/

/-- **Any steps along all tokens** end in front of the end of the text. -/
theorem inFront_reached (ts : List Token) (calls : List Cursor.Call) :
    InFront ts (reached ts calls) := by
  -- the invariant of a run, from any place on
  have hrun : ∀ place, InFront ts place →
      InFront ts (calls.foldl (fun place call => (stepAlong ts place call).2) place) := by
    induction calls with
    | nil => exact fun place h => h
    | cons call calls ih => exact fun place h => ih _ (orderly_stepAlong h call).inFront
  exact hrun 0 (inFront_zero ts)

/-- **Any steps of a cursor** leave it at a place in front of the end of the text. -/
theorem after_standing (h : InFront ts place) (calls : List Cursor.Call) :
    InFront ts ((Cursor.standing ts place).after calls).passed ∧
      (Cursor.standing ts place).after calls =
        Cursor.standing ts ((Cursor.standing ts place).after calls).passed := by
  -- each step leaves a standing cursor, from which the rest of the run goes on
  induction calls generalizing place with
  | nil => exact ⟨h, rfl⟩
  | cons call calls ih =>
    have hstep := ((orderly_stepAlong h call).standsAfter h).inFront
    have hafter : (Cursor.standing ts place).after (call :: calls) =
        ((Cursor.standing ts place).perform call).2.after calls := rfl
    rw [hafter, perform_standing h call]
    exact ih hstep

end

/-- **Sessions of reading only go forward.**  After any calls, along all tokens or with a cursor,
the next step goes forward and not past the end of the text; looking passes nothing, what is read
has one token at least and a group three, and a fault tells of the token where it leaves the
session.  A step depends on the tokens from its place on and on the last one of the list only, and
reading from there comes to an end.  The cursor takes the steps that are taken along all tokens. -/
theorem sessions_go_forward (ts : List Token) (calls : List Cursor.Call) (call : Cursor.Call) :
    (let place := reached ts calls
      let step := stepAlong ts place call
      Orderly ts place call step.1 step.2 ∧ DependsOnRest ts place call ∧
        ∀ p, ComesToEnd ts place p) ∧
      (let c := (Cursor.ofTokens ts).after calls
        let step := stepAlong ts c.passed call
        Orderly ts c.passed call (c.perform call).1 (c.perform call).2.passed ∧
          DependsOnRest ts c.passed call ∧ (∀ p, ComesToEnd ts c.passed p) ∧
          (c.perform call).1 = step.1 ∧ (c.perform call).2.passed = standsAfter c.passed step) := by
  have hreached := inFront_reached ts calls
  obtain ⟨hfront, hafter⟩ := after_standing (inFront_zero ts) calls
  refine ⟨⟨orderly_stepAlong hreached call, dependsOnRest_stepAlong hreached call,
    comesToEnd hreached⟩, ?_⟩
  intro c step
  have hc : (Cursor.standing ts 0).after calls = c := rfl
  rw [hc] at hfront hafter
  have hperform : c.perform call =
      (step.1, Cursor.standing ts (standsAfter c.passed step)) := by
    rw [hafter]
    exact perform_standing hfront call
  rw [hperform]
  exact ⟨(orderly_stepAlong hfront call).standsAfter hfront, dependsOnRest_stepAlong hfront call,
    comesToEnd hfront, rfl, rfl⟩

/-- Behind the number a group is read up to the first end, where the fault tells of the end, and no
step goes past it to the parenthesis behind. -/
theorem sessions_go_forward_unclosed :
    let place (n : Nat) : Location := ⟨"<input>", 1, n + 1, n⟩
    let opener : Token := ⟨.leftParen, "(", none, place 1⟩
    let ts : List Token := [⟨.number, "1", some .one, place 0⟩, opener,
      ⟨.number, "2", none, place 2⟩, .finish (place 3), ⟨.rightParen, ")", none, place 4⟩]
    let fault : SyntaxFault := .unclosedParen opener (.finish (place 3))
    reached ts [.read .unary] = 1 ∧
      stepAlong ts 1 (.read .grouping) = (.reading (.error (.fault fault)), 3) ∧
      tokenAt ts 3 = fault.found ∧ reached ts [.read .unary, .read .grouping, .advance] = 3 := by
  intro place opener ts fault
  have hreached : reached ts [.read .unary] = 1 := rfl
  have hstep : stepAlong ts 1 (.read .grouping) = (.reading (.error (.fault fault)), 3) := rfl
  have horderly := (sessions_go_forward ts [.read .unary] (.read .grouping)).1.1
  rw [hreached, hstep] at horderly
  exact ⟨hreached, hstep, horderly.points fault rfl, rfl⟩

end Calculator
