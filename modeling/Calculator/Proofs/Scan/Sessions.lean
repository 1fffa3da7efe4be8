import Calculator.Proofs.Calculation.Pointing
import Calculator.Proofs.Scan.Appending
import Calculator.Token.Session

/-!
# Sessions of scanning

In a session the steps of a scan are taken one by one and in any order, also where a scan would take
none: in the middle of a numeral, in front of white space, or behind a numeral that is too large.
Whatever has been called, line, column and offset agree with the characters in front, and so does
the place of every token and of every fault that an answer holds or the last full scan has left.

## Main definitions

* `Location.IsIn` — the place behind some of the characters of a text, told in full.
* `ScanSession.after` — a session after some calls.
* `ScanSession.Answer.locations` — the places that an answer tells.
* `ScanSession.Sound` — what holds of a session after any calls.

## Main results

* `Scanner.exists_advanceBy_of_next?` — what one step takes, and how far it goes.
* `ScanSession.exists_advanceBy_of_perform` — all but a full scan only moves the scanner on.
* `ScanSession.sound_perform`, `ScanSession.sound_after` — one call, and then any calls, keep a
  session sound.
* `ScanSession.sessions_keep_place` — **a session knows its place** after any calls.
-/

namespace Calculator

/-- The location is the place behind as many characters of the text as its offset says. -/
def Location.IsIn (name text : String) (l : Location) : Prop :=
  ∃ n ≤ text.length, l.offset = n ∧ l = .inText name text n

theorem Location.isIn_inText (name : String) {text : String} {n : Nat} (h : n ≤ text.length) :
    (inText name text n).IsIn name text :=
  ⟨n, h, offset_inText name h, rfl⟩

/-! ### Scanners that are moved on -/

namespace Scanner

theorem exists_advanceBy (n : Nat) (s : Scanner) :
    ∃ m ≤ s.ahead.length, s.advanceBy n = s.advanceBy m := by
  rcases Nat.le_total n s.ahead.length with hle | hge
  · exact ⟨n, hle, rfl⟩
  · refine ⟨s.ahead.length, Nat.le_refl _, ?_⟩
    obtain ⟨more, rfl⟩ := Nat.exists_eq_add_of_le hge
    rw [← advanceBy_add]
    -- nothing is ahead any more
    have hnil : (s.advanceBy s.ahead.length).ahead = [] := by rw [ahead_advanceBy, List.drop_length]
    generalize s.advanceBy s.ahead.length = last at hnil ⊢
    obtain ⟨p, cs⟩ := last
    obtain rfl : cs = [] := hnil
    exact advanceBy_nil more p

/-- The scanner stands behind some of the characters of the text. -/
def StandsIn (text : String) (s : Scanner) : Prop :=
  ∃ n ≤ text.length, s = (ofText text).advanceBy n

theorem StandsIn.advanceBy {text : String} {s : Scanner} (h : s.StandsIn text) (n : Nat) :
    (s.advanceBy n).StandsIn text := by
  obtain ⟨k, -, rfl⟩ := h
  rw [advanceBy_add]
  obtain ⟨m, hm, heq⟩ := (ofText text).exists_advanceBy (k + n)
  refine ⟨m, ?_, heq⟩
  rwa [← length_ahead_ofText]

theorem StandsIn.isIn {text : String} {s : Scanner} (h : s.StandsIn text) (name : String) :
    (s.location name).IsIn name text := by
  obtain ⟨n, hn, rfl⟩ := h
  rw [location_ofText]
  exact Location.isIn_inText name hn

theorem StandsIn.ahead_eq_nil_iff {text : String} {s : Scanner} (h : s.StandsIn text) :
    s.ahead = [] ↔ s.position.offset = text.length := by
  obtain ⟨n, hn, rfl⟩ := h
  have hoffset : ((ofText text).advanceBy n).position.offset = n := by
    rw [offset_advanceBy (length_ahead_ofText text ▸ hn)]
    exact Nat.zero_add n
  rw [hoffset, ahead_advanceBy, List.drop_eq_nil_iff, length_ahead_ofText]
  exact ⟨fun hle => Nat.le_antisymm hn hle, Nat.le_of_eq ∘ Eq.symm⟩

theorem offset_le_offset_advanceBy (n : Nat) (s : Scanner) :
    s.position.offset ≤ (s.advanceBy n).position.offset := by
  obtain ⟨m, hm, heq⟩ := s.exists_advanceBy n
  rw [heq, offset_advanceBy hm]
  exact Nat.le_add_right ..

/-- **What one step takes**, wherever it is taken: a piece that begins at the scanner.  The scanner
is moved on, unless the piece is a character that no token begins with. -/
theorem exists_advanceBy_of_next? {name : String} {s after : Scanner} {piece : Piece}
    (h : s.next? name = some (piece, after)) :
    piece.location = s.location name ∧ (∃ n, after = s.advanceBy n) ∧
      ∀ c l, piece = .error ⟨.unexpectedCharacter c, l⟩ → after = s := by
  unfold next? at h
  split at h
  · cases h
  · split at h
    · -- a numeral, which is passed up to its last character if its value is too large
      unfold numeral at h
      dsimp only at h
      split at h <;> obtain ⟨rfl, rfl⟩ := Prod.mk.inj (Option.some.inj h)
      · exact ⟨rfl, ⟨_, rfl⟩, by simp⟩
      · exact ⟨rfl, ⟨_, rfl⟩, by simp⟩
    · split at h <;> obtain ⟨rfl, rfl⟩ := Prod.mk.inj (Option.some.inj h)
      · exact ⟨rfl, ⟨1, advance_eq_advanceBy s⟩, by simp⟩
      · exact ⟨rfl, ⟨0, rfl⟩, fun _ _ _ => rfl⟩

end Scanner

/-! ### Scans -/

theorem isIn_of_mem_tokens {name text : String} {t : Token} (h : t ∈ (scan name text).tokens) :
    t.location.IsIn name text := by
  rw [tokens_scan, List.mem_append, List.mem_singleton] at h
  -- a token is a piece of the text or its end
  rcases h with hpiece | rfl
  · obtain ⟨n, hn, hlocation, -⟩ :=
      (Scanner.tiled_pieces name (.ofText text)).exists_place (mem_of_mem_pieceTokens hpiece)
    rw [show t.location = _ from hlocation]
    exact Location.isIn_inText name (Nat.le_of_lt hn)
  · exact Location.isIn_inText name (Nat.le_refl _)

theorem isIn_of_mem_faults {name text : String} {f : LexicalFault}
    (h : f ∈ (scan name text).faults) : f.location.IsIn name text := by
  obtain ⟨n, hn, hlocation, -⟩ :=
    (Scanner.tiled_pieces name (.ofText text)).exists_place (mem_of_mem_pieceFaults h)
  rw [show f.location = _ from hlocation]
  exact Location.isIn_inText name (Nat.le_of_lt hn)

theorem standsIn_last (name text : String) : (scan name text).last.StandsIn text := by
  refine ⟨text.length, Nat.le_refl _, ?_⟩
  rw [← Scanner.length_ahead_ofText]
  exact Scanner.pieces_last name (.ofText text)

/-! ### Sessions -/

namespace ScanSession

/-- The session after some calls, whatever their answers. -/
def after (s : ScanSession) (calls : List Call) : ScanSession :=
  calls.foldl (fun s call => (s.perform call).2) s

/-- The places of the tokens and the fault that an answer tells. -/
def Answer.locations : Answer → List Location
  | tokens found => found.map Token.location
  | piece (some found) => [found.location]
  | piece none => []
  | moved => []

/-- What holds of a session in a text after any calls. -/
structure Sound (name text : String) (s : ScanSession) : Prop where
  name_eq : s.name = name
  text_eq : s.text = text
  standsIn : s.scanner.StandsIn text
  tokens : ∀ t ∈ s.tokens, t.location.IsIn name text
  faults : ∀ f ∈ s.faults, f.location.IsIn name text

/-- All that a call does to a session is to move the scanner on, unless it is a full scan. -/
theorem exists_advanceBy_of_perform (s : ScanSession) {call : Call} (h : call ≠ .scanAll) :
    ∃ n, (s.perform call).2 = { s with scanner := s.scanner.advanceBy n } := by
  cases call with
  | scanAll => exact absurd rfl h
  | next =>
    rw [perform]
    split
    · rename_i piece after hnext
      obtain ⟨-, ⟨n, rfl⟩, -⟩ := Scanner.exists_advanceBy_of_next? hnext
      exact ⟨n, rfl⟩
    · exact ⟨0, rfl⟩
  | skipBlanks => exact ⟨_, rfl⟩
  | advance => exact ⟨1, by rw [perform, Scanner.advance_eq_advanceBy]⟩
  | advanceBy n => exact ⟨n.toNat, rfl⟩

section

variable {name text : String} {s : ScanSession}

theorem sound_start (name text : String) : Sound name text (start name text) :=
  ⟨rfl, rfl, ⟨0, Nat.zero_le _, rfl⟩, nofun, nofun⟩

theorem Sound.perform_scanAll (h : Sound name text s) :
    s.perform .scanAll = (start name text).perform .scanAll := by
  -- a full scan reads the name and the text only
  obtain ⟨rfl, rfl, -⟩ := h
  rfl

/-- **One call keeps a session sound.** -/
theorem sound_perform (h : Sound name text s) (call : Call) :
    Sound name text (s.perform call).2 := by
  -- a full scan begins anew, every other call moves on
  by_cases hcall : call = .scanAll
  · rw [hcall, h.perform_scanAll]
    exact ⟨rfl, rfl, standsIn_last name text, fun _ => isIn_of_mem_tokens,
      fun _ => isIn_of_mem_faults⟩
  · obtain ⟨n, heq⟩ := s.exists_advanceBy_of_perform hcall
    rw [heq]
    exact ⟨h.name_eq, h.text_eq, h.standsIn.advanceBy n, h.tokens, h.faults⟩

/-- **Any calls keep a session sound.** -/
theorem sound_after (h : Sound name text s) (calls : List Call) :
    Sound name text (s.after calls) := by
  induction calls generalizing s with
  | nil => exact h
  | cons call calls ih => exact ih (sound_perform h call)

theorem Sound.isIn_of_mem_locations (h : Sound name text s) {call : Call} {l : Location}
    (hl : l ∈ (s.perform call).1.locations) : l.IsIn name text := by
  cases call with
  | scanAll =>
    rw [h.perform_scanAll] at hl
    obtain ⟨t, ht, rfl⟩ := List.mem_map.1 hl
    exact isIn_of_mem_tokens ht
  | next =>
    rw [perform] at hl
    split at hl
    · rename_i piece after hnext
      rw [List.mem_singleton.1 hl, (Scanner.exists_advanceBy_of_next? hnext).1, h.name_eq]
      exact h.standsIn.isIn name
    · cases hl
  | skipBlanks | advance | advanceBy n => cases hl

theorem perform_next_of_unexpected {c : Char} {l : Location}
    (h : (s.perform .next).1 = .piece (some (.error ⟨.unexpectedCharacter c, l⟩))) :
    (s.perform .next).2 = s := by
  rw [perform] at h ⊢
  split at h
  · rename_i piece after hnext
    obtain ⟨-, -, hstay⟩ := Scanner.exists_advanceBy_of_next? hnext
    obtain rfl := hstay c l (Option.some.inj (Answer.piece.inj h))
    rfl
  · cases h

theorem Sound.perform_next_eq_none_iff (h : Sound name text s) :
    (s.perform .next).1 = .piece none ↔ s.scanner.position.offset = text.length := by
  rw [← h.standsIn.ahead_eq_nil_iff, perform]
  split
  · rename_i piece after hnext
    refine iff_of_false (by intro h; cases h) ?_
    -- a step takes something wherever a character is ahead
    intro hnil
    rw [Scanner.next?, hnil] at hnext
    cases hnext
  · rename_i hnone
    exact iff_of_true rfl (Scanner.next?_eq_none hnone)

theorem perform_next_of_eq_none (h : (s.perform .next).1 = .piece none) :
    (s.perform .next).2 = s := by
  rw [perform] at h ⊢
  split at h
  · cases h
  · rfl

end

/-- **A session knows its place** after any calls: it stands in the text, and so do the tokens and
the faults of its last full scan and all that an answer tells of.  Only a full scan goes back, and
it does what it does in a new session.  A step that finds no token leaves the session as it is,
whether a character is unexpected or none is left. -/
theorem sessions_keep_place (name text : String) (calls : List Call) (call : Call) :
    let s := (start name text).after calls
    let answer := (s.perform call).1
    let s' := (s.perform call).2
    s.location.IsIn name text ∧ (∀ t ∈ s.tokens, t.location.IsIn name text) ∧
      (∀ f ∈ s.faults, f.location.IsIn name text) ∧
      (∀ l ∈ answer.locations, l.IsIn name text) ∧
      (call = .scanAll ∨ s.scanner.position.offset ≤ s'.scanner.position.offset) ∧
      (answer = .piece none ↔ call = .next ∧ s.scanner.position.offset = text.length) ∧
      (answer = .piece none → s' = s) ∧
      (∀ c l, answer = .piece (some (.error ⟨.unexpectedCharacter c, l⟩)) → s' = s) ∧
      s.perform .scanAll = (start name text).perform .scanAll := by
  intro s answer s'
  have hsound : Sound name text s := sound_after (sound_start name text) calls
  have hlocation : s.location.IsIn name text := by
    rw [location, hsound.name_eq]
    exact hsound.standsIn.isIn name
  refine ⟨hlocation, hsound.tokens, hsound.faults, fun l => hsound.isIn_of_mem_locations, ?_, ?_,
    ?_, ?_, hsound.perform_scanAll⟩
  · by_cases hcall : call = .scanAll
    · exact Or.inl hcall
    · obtain ⟨n, heq⟩ := s.exists_advanceBy_of_perform hcall
      refine Or.inr ?_
      rw [show s' = _ from heq]
      exact s.scanner.offset_le_offset_advanceBy n
  · cases call with
    | next => simpa using hsound.perform_next_eq_none_iff
    | scanAll | skipBlanks | advance | advanceBy n => simp [answer, perform]
  · cases call with
    | next => exact perform_next_of_eq_none
    | scanAll | skipBlanks | advance | advanceBy n => exact nofun
  · cases call with
    | next => exact fun c l => perform_next_of_unexpected
    | scanAll | skipBlanks | advance | advanceBy n => exact nofun

/-- Behind the number and the line feed no token begins, so that the step is not taken, and a full
scan begins at the first line again. -/
theorem sessions_keep_place_second_line :
    let text := "1\n$2"
    let s := (start defaultName text).after [.next, .advanceBy (-3), .skipBlanks]
    let place : Location := ⟨defaultName, 2, 1, 2⟩
    s.location = place ∧
      (s.perform .next).1 = .piece (some (.error ⟨.unexpectedCharacter '$', place⟩)) ∧
      (s.perform .next).2 = s ∧
      s.perform .scanAll = (start defaultName text).perform .scanAll := by
  intro text s place
  have hname : s.name = defaultName := (sound_after (sound_start defaultName text) _).name_eq
  have hscanner : s.scanner = ⟨⟨2, 1, 2⟩, ['$', '2']⟩ := by decide +kernel
  have hanswer : (s.perform .next).1 =
      .piece (some (.error ⟨.unexpectedCharacter '$', place⟩)) := by
    rw [perform, hname, hscanner]
    rfl
  obtain ⟨-, -, -, -, -, -, -, hstay, hscan⟩ := sessions_keep_place defaultName text
    [.next, .advanceBy (-3), .skipBlanks] .next
  exact ⟨by decide +kernel, hanswer, hstay '$' place hanswer, hscan⟩

end ScanSession

end Calculator
