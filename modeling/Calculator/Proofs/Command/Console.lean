import Calculator.Command.Console
import Calculator.Proofs.Text.Wording

/-!
# What the console leaves as it is

The console changes a text in two ways: a short code between two colons becomes a symbol, and some
controls are left out.  White space keeps colons apart, so that every stretch of text between white
space can be looked at on its own, and every change makes a text shorter.  So a text is written
verbatim if and only if all its stretches are.

## Main definitions

* `inCode` — the characters that may stand between two colons that belong together.
* `writtenCode` — what is written in the place of two such colons and what is between them.
* `Verbatim` — a text that the console writes as it is.
* `isPlain` — the characters that the console leaves alone.

## Main results

* `replaceShortCodes_append_blank` — white space keeps colons apart.
* `replaceShortCodes_eq_or_length_lt` — a text that is changed gets shorter.
* `verbatim_append_blank_iff` — **a text is verbatim if its stretches between white space are.**
* `verbatim_trimEnd`, `verbatim_of_trimEnd` — what cutting off white space at the end leaves.
* `verbatim_of_worded`, `verbatim_heading_iff`, `verbatim_code_iff` — texts without colons, with a
  colon at the end of a word, and with two colons.
-/

namespace Calculator

/-! ### Short codes -/

/-- Whether a character may stand between two colons that belong together. -/
def inCode (c : Char) : Bool := c != ':' && !isBlank c

/-- A code and a colon behind it begin the characters. -/
def BeginsCode (cs : List Char) : Prop :=
  ∃ name rest, (∀ c ∈ name, inCode c = true) ∧ cs = name ++ ':' :: rest

/-- What is written for a name between two colons. -/
def writtenCode (name : List Char) : List Char :=
  match shortCodes.lookup (String.ofList name) with
  | some symbol => [symbol]
  | none => ':' :: name ++ [':']

theorem codeName_append {name : List Char} (h : ∀ c ∈ name, inCode c = true) (rest : List Char) :
    codeName (name ++ ':' :: rest) = name := by
  have hcolon : ¬ inCode ':' = true := by decide
  show (name ++ ':' :: rest).takeWhile inCode = name
  rw [List.takeWhile_append_of_pos h, List.takeWhile_cons_of_neg hcolon, List.append_nil]

theorem replaceShortCodes_nil : replaceShortCodes [] = [] := by rw [replaceShortCodes]

theorem replaceShortCodes_cons {c : Char} (h : c ≠ ':') (cs : List Char) :
    replaceShortCodes (c :: cs) = c :: replaceShortCodes cs := by
  rw [replaceShortCodes, if_neg h]

theorem replaceShortCodes_code {name : List Char} (h : ∀ c ∈ name, inCode c = true)
    (rest : List Char) : replaceShortCodes (':' :: (name ++ ':' :: rest)) =
      writtenCode name ++ replaceShortCodes rest := by
  have hdrop : (name ++ ':' :: rest).drop (codeName (name ++ ':' :: rest)).length =
      ':' :: rest := by
    rw [codeName_append h, List.drop_left]
  rw [replaceShortCodes, if_pos rfl]
  dsimp only
  split
  · rename_i rest' hrest
    obtain rfl := (List.cons.inj (hdrop.symm.trans hrest)).2
    rw [codeName_append h, writtenCode]
    cases shortCodes.lookup (String.ofList name) with
    | some symbol => rfl
    | none => simp
  · rename_i hnone
    exact absurd hdrop (hnone rest)

theorem replaceShortCodes_colon {cs : List Char} (h : ¬ BeginsCode cs) :
    replaceShortCodes (':' :: cs) = ':' :: replaceShortCodes cs := by
  rw [replaceShortCodes, if_pos rfl]
  dsimp only
  split
  · rename_i rest hrest
    refine absurd ⟨codeName cs, rest, ?_, ?_⟩ h
    · exact List.all_eq_true.1 List.all_takeWhile
    · rw [← hrest]
      exact (List.prefix_iff_eq_append.1 (List.takeWhile_prefix _)).symm
  · rfl

/-- The characters of a text one after the other, two colons that belong together at once. -/
theorem shortCodes_induction {P : List Char → Prop} (nil : P [])
    (cons : ∀ c cs, c ≠ ':' → P cs → P (c :: cs))
    (code : ∀ name rest, (∀ c ∈ name, inCode c = true) → P rest →
      P (':' :: (name ++ ':' :: rest)))
    (colon : ∀ cs, ¬ BeginsCode cs → P cs → P (':' :: cs)) (cs : List Char) : P cs := by
  induction hlength : cs.length using Nat.strongRecOn generalizing cs with
  | ind n ih =>
    have hshorter {ds : List Char} (h : ds.length < cs.length) : P ds := ih _ (hlength ▸ h) ds rfl
    cases cs with
    | nil => exact nil
    | cons c cs =>
      by_cases hc : c = ':'
      · subst hc
        by_cases hcode : BeginsCode cs
        · obtain ⟨name, rest, hname, rfl⟩ := hcode
          refine code name rest hname (hshorter ?_)
          rw [List.length_cons, List.length_append, List.length_cons]
          omega
        · exact colon cs hcode (hshorter (Nat.lt_succ_self _))
      · exact cons c cs hc (hshorter (Nat.lt_succ_self _))

theorem length_writtenCode (name : List Char) :
    writtenCode name = ':' :: name ++ [':'] ∨ (writtenCode name).length < name.length + 2 := by
  unfold writtenCode
  split
  · right
    rw [List.length_singleton]
    omega
  · exact Or.inl rfl

/-- **A text that is changed gets shorter.** -/
theorem replaceShortCodes_eq_or_length_lt (cs : List Char) :
    replaceShortCodes cs = cs ∨ (replaceShortCodes cs).length < cs.length := by
  induction cs using shortCodes_induction with
  | nil => exact Or.inl replaceShortCodes_nil
  | cons c cs hc ih =>
    rw [replaceShortCodes_cons hc]
    refine ih.imp (congrArg _) ?_
    exact Nat.succ_lt_succ
  | code name rest hname ih =>
    rw [replaceShortCodes_code hname, List.length_append, List.length_cons, List.length_append,
      List.length_cons]
    have hle : (replaceShortCodes rest).length ≤ rest.length :=
      ih.elim (fun h => Nat.le_of_eq (congrArg List.length h)) Nat.le_of_lt
    -- a name that stays leaves it to the rest, a name that is replaced makes the text shorter
    rcases length_writtenCode name with hname | hname
    · have hlength : (writtenCode name).length = name.length + 2 := by
        rw [hname, List.length_append, List.length_cons, List.length_singleton]
      refine ih.imp ?_ (by omega)
      intro hrest
      rw [hname, hrest]
      simp
    · right
      omega
  | colon cs hcode ih =>
    rw [replaceShortCodes_colon hcode]
    refine ih.imp (congrArg _) ?_
    exact Nat.succ_lt_succ

theorem length_replaceShortCodes_le (cs : List Char) :
    (replaceShortCodes cs).length ≤ cs.length :=
  (replaceShortCodes_eq_or_length_lt cs).elim (fun h => Nat.le_of_eq (congrArg List.length h))
    Nat.le_of_lt

/-- **White space keeps colons apart.** -/
theorem replaceShortCodes_append_blank {b : Char} (hb : isBlank b = true) (cs ds : List Char) :
    replaceShortCodes (cs ++ b :: ds) = replaceShortCodes cs ++ b :: replaceShortCodes ds := by
  have hcolon : b ≠ ':' := by
    rintro rfl
    exact absurd hb (by decide)
  have hcode : inCode b = false := by rw [inCode, hb, Bool.not_true, Bool.and_false]
  induction cs using shortCodes_induction with
  | nil => rw [List.nil_append, replaceShortCodes_cons hcolon, replaceShortCodes_nil]; rfl
  | cons c cs hc ih =>
    rw [List.cons_append, replaceShortCodes_cons hc, replaceShortCodes_cons hc, ih,
      List.cons_append]
  | code name rest hname ih =>
    have hsplit : ':' :: (name ++ ':' :: rest) ++ b :: ds =
        ':' :: (name ++ ':' :: (rest ++ b :: ds)) := by simp
    rw [hsplit, replaceShortCodes_code hname, replaceShortCodes_code hname, ih, List.append_assoc]
  | colon cs hnone ih =>
    have hnone' : ¬ BeginsCode (cs ++ b :: ds) := by
      rintro ⟨name, rest, hname, heq⟩
      rcases List.append_eq_append_iff.1 heq with ⟨more, hmore, hrest⟩ | ⟨more, hmore, hrest⟩
      · -- the white space is no colon, and no part of a name
        cases more with
        | nil => exact hcolon (List.cons.inj hrest).1
        | cons c more =>
          obtain ⟨rfl, -⟩ := List.cons.inj hrest
          rw [hname b (by simp [hmore])] at hcode
          cases hcode
      · cases more with
        | nil => exact hcolon (List.cons.inj hrest).1.symm
        | cons c more =>
          obtain ⟨rfl, -⟩ := List.cons.inj hrest
          exact hnone ⟨name, more, hname, hmore⟩
    rw [List.cons_append, replaceShortCodes_colon hnone, replaceShortCodes_colon hnone', ih,
      List.cons_append]

/-! ### Verbatim texts -/

/-- The console writes the characters as they are. -/
def Verbatim (cs : List Char) : Prop := dropControls (replaceShortCodes cs) = cs

/-- A text is verbatim if no short code is replaced in it and it has no control that is left out. -/
theorem verbatim_iff {cs : List Char} :
    Verbatim cs ↔ replaceShortCodes cs = cs ∧ ∀ c ∈ cs, isDropped c = false := by
  have hkept (ds : List Char) : dropControls ds = ds ↔ ∀ c ∈ ds, isDropped c = false := by
    rw [dropControls, List.filter_eq_self]
    simp only [Bool.not_eq_true']
  constructor
  · intro h
    have hcodes : replaceShortCodes cs = cs := by
      -- a text that has become shorter is not made longer by leaving controls out
      refine (replaceShortCodes_eq_or_length_lt cs).resolve_right fun hlt => ?_
      have hle := (List.filter_sublist (p := fun c => !isDropped c)
        (l := replaceShortCodes cs)).length_le
      have hlength := congrArg List.length h
      rw [dropControls] at hlength
      omega
    refine ⟨hcodes, (hkept cs).1 ?_⟩
    rwa [Verbatim, hcodes] at h
  · rintro ⟨hcodes, hcontrols⟩
    rw [Verbatim, hcodes]
    exact (hkept cs).2 hcontrols

/-- **A text is verbatim if its stretches between white space are.** -/
theorem verbatim_append_blank_iff {b : Char} (hb : isBlank b = true) (hkept : isDropped b = false)
    {cs ds : List Char} : Verbatim (cs ++ b :: ds) ↔ Verbatim cs ∧ Verbatim ds := by
  rw [verbatim_iff, verbatim_iff, verbatim_iff, replaceShortCodes_append_blank hb]
  have hcodes : replaceShortCodes cs ++ b :: replaceShortCodes ds = cs ++ b :: ds ↔
      replaceShortCodes cs = cs ∧ replaceShortCodes ds = ds := by
    constructor
    · intro h
      -- neither of the two parts gets longer, so that they stay where they are
      have hcs := length_replaceShortCodes_le cs
      have hds := length_replaceShortCodes_le ds
      have hlength := congrArg List.length h
      rw [List.length_append, List.length_append, List.length_cons, List.length_cons] at hlength
      obtain ⟨hcs', hds'⟩ := List.append_inj h (by omega)
      exact ⟨hcs', (List.cons.inj hds').2⟩
    · rintro ⟨hcs, hds⟩
      rw [hcs, hds]
  have hcontrols : (∀ c ∈ cs ++ b :: ds, isDropped c = false) ↔
      (∀ c ∈ cs, isDropped c = false) ∧ ∀ c ∈ ds, isDropped c = false := by
    rw [List.forall_mem_append, List.forall_mem_cons]
    simp [hkept]
  rw [hcodes, hcontrols]
  constructor
  · rintro ⟨⟨hcs, hds⟩, hcs', hds'⟩
    exact ⟨⟨hcs, hcs'⟩, hds, hds'⟩
  · rintro ⟨⟨hcs, hcs'⟩, hds, hds'⟩
    exact ⟨⟨hcs, hds⟩, hcs', hds'⟩

theorem verbatim_nil : Verbatim [] := by
  rw [Verbatim, replaceShortCodes_nil]
  rfl

/-- White space behind a text does not matter, if the console leaves none of it out. -/
theorem verbatim_append_iff {cs behind : List Char}
    (h : ∀ b ∈ behind, isBlank b = true ∧ isDropped b = false) :
    Verbatim (cs ++ behind) ↔ Verbatim cs := by
  induction behind generalizing cs with
  | nil => rw [List.append_nil]
  | cons b behind ih =>
    obtain ⟨hb, hkept⟩ := h b List.mem_cons_self
    have hbehind : Verbatim behind :=
      (ih (fun b' hb' => h b' (List.mem_cons_of_mem _ hb'))).2 verbatim_nil
    rw [verbatim_append_blank_iff hb hkept]
    exact and_iff_left hbehind

theorem exists_trimEnd (cs : List Char) :
    ∃ behind, cs = trimEnd cs ++ behind ∧ ∀ b ∈ behind, isBlank b = true := by
  refine ⟨(cs.reverse.takeWhile isBlank).reverse, ?_, ?_⟩
  · rw [trimEnd, ← List.reverse_append, List.takeWhile_append_dropWhile, List.reverse_reverse]
  · intro b hb
    exact List.all_eq_true.1 List.all_takeWhile b (List.mem_reverse.1 hb)

/-- Trimming stops at a character that is no white space. -/
theorem trimEnd_append_cons {c : Char} (hc : isBlank c = false) (cs ds : List Char) :
    trimEnd (cs ++ c :: ds) = cs ++ c :: trimEnd ds := by
  rw [trimEnd, trimEnd, List.reverse_append, List.reverse_cons, List.append_assoc,
    List.dropWhile_append]
  split
  · rename_i hempty
    rw [List.isEmpty_iff.1 hempty, List.singleton_append,
      List.dropWhile_cons_of_neg (by rw [hc]; exact Bool.false_ne_true), List.reverse_cons,
      List.reverse_reverse, List.reverse_nil]
  · rw [List.reverse_append, List.reverse_append, List.reverse_reverse, List.reverse_singleton,
      List.append_assoc, List.singleton_append]

theorem verbatim_trimEnd {cs : List Char} (h : Verbatim cs) : Verbatim (trimEnd cs) := by
  obtain ⟨behind, hcs, hbehind⟩ := exists_trimEnd cs
  rw [hcs] at h
  refine (verbatim_append_iff ?_).1 h
  intro b hb
  exact ⟨hbehind b hb, (verbatim_iff.1 h).2 b (List.mem_append_right _ hb)⟩

/-- Up to a character that is no white space, with white space behind it, a trimmed text that is
verbatim is verbatim. -/
theorem verbatim_of_trimEnd {c b : Char} (hc : isBlank c = false) (hb : isBlank b = true)
    (hkept : isDropped b = false) {cs ds : List Char}
    (h : Verbatim (trimEnd (cs ++ c :: b :: ds))) : Verbatim (cs ++ [c]) := by
  rw [trimEnd_append_cons hc, ← List.singleton_append, ← List.append_assoc] at h
  obtain ⟨behind, htrim, -⟩ := exists_trimEnd (b :: ds)
  cases hrest : trimEnd (b :: ds) with
  | nil => rwa [hrest, List.append_nil] at h
  | cons b' rest =>
    rw [hrest, List.cons_append] at htrim
    obtain rfl := (List.cons.inj htrim).1
    rw [hrest] at h
    exact ((verbatim_append_blank_iff hb hkept).1 h).1

/-- A paragraph is the text without the white space at its end if that is verbatim. -/
theorem paragraph_eq_iff (text : String) :
    paragraph text = String.ofList (trimEnd text.toList) ++ "\n" ↔
      Verbatim (trimEnd text.toList) := by
  rw [← String.toList_inj, paragraph, String.toList_append, String.toList_ofList,
    String.toList_ofList, show "\n".toList = ['\n'] from rfl, List.append_left_inj]
  rfl

/-! ### Words with colons -/

/-- Whether the console leaves a character alone, wherever it stands. -/
def isPlain (c : Char) : Bool := c != ':' && !isDropped c

theorem isPlain_iff {c : Char} : isPlain c = true ↔ c ≠ ':' ∧ isDropped c = false := by
  simp [isPlain]

theorem isDropped_eq_false_iff {c : Char} : isDropped c = false ↔
    c.toNat ≠ 0x07 ∧ c.toNat ≠ 0x08 ∧ c.toNat ≠ 0x0B ∧ c.toNat ≠ 0x0C ∧ c.toNat ≠ 0x0D := by
  simp [isDropped]

theorem verbatim_of_isPlain {cs : List Char} (h : ∀ c ∈ cs, isPlain c = true) : Verbatim cs := by
  refine verbatim_iff.2 ⟨?_, fun c hc => (isPlain_iff.1 (h c hc)).2⟩
  induction cs with
  | nil => exact replaceShortCodes_nil
  | cons c cs ih =>
    rw [replaceShortCodes_cons (isPlain_iff.1 (h c List.mem_cons_self)).1,
      ih fun d hd => h d (List.mem_cons_of_mem _ hd)]

theorem verbatim_plain_append_iff {front cs : List Char} (h : ∀ c ∈ front, isPlain c = true) :
    Verbatim (front ++ cs) ↔ Verbatim cs := by
  induction front with
  | nil => rfl
  | cons c front ih =>
    obtain ⟨hcolon, hkept⟩ := isPlain_iff.1 (h c List.mem_cons_self)
    have hiff := ih fun d hd => h d (List.mem_cons_of_mem _ hd)
    rw [← hiff, Verbatim, List.cons_append, replaceShortCodes_cons hcolon, dropControls,
      List.filter_cons_of_pos (by rw [hkept]; rfl), List.cons_inj_right]
    rfl

theorem verbatim_colon {cs : List Char} (h : ∀ c ∈ cs, isPlain c = true) :
    Verbatim (':' :: cs) := by
  have hcode : ¬ BeginsCode cs := by
    rintro ⟨name, rest, -, rfl⟩
    exact (isPlain_iff.1 (h ':' (by simp))).1 rfl
  have hcs := verbatim_of_isPlain h
  rw [Verbatim, replaceShortCodes_colon hcode, dropControls,
    List.filter_cons_of_pos (by decide), List.cons_inj_right]
  exact hcs

/-- Two colons that belong together are written as they are if they hold no short code. -/
theorem verbatim_code_iff {name cs : List Char}
    (hname : ∀ c ∈ name, inCode c = true ∧ isDropped c = false) (hcs : Verbatim cs) :
    Verbatim (':' :: (name ++ ':' :: cs)) ↔ shortCodes.lookup (String.ofList name) = none := by
  obtain ⟨hcodes, hcontrols⟩ := verbatim_iff.1 hcs
  rw [verbatim_iff, replaceShortCodes_code fun c hc => (hname c hc).1, hcodes]
  have hwritten : writtenCode name ++ cs = ':' :: (name ++ ':' :: cs) ↔
      shortCodes.lookup (String.ofList name) = none := by
    unfold writtenCode
    cases shortCodes.lookup (String.ofList name) with
    | none => simp
    | some symbol =>
      refine iff_of_false ?_ (by simp)
      intro h
      have hlength := congrArg List.length h
      simp only [List.length_append, List.length_cons, List.length_nil] at hlength
      omega
  rw [hwritten, and_iff_left_iff_imp]
  rintro - c hc
  simp only [List.mem_cons, List.mem_append] at hc
  rcases hc with rfl | hc | rfl | hc
  · decide
  · exact (hname c hc).2
  · decide
  · exact hcontrols c hc

/-! ### Wording -/

theorem isPlain_of_isWording {c : Char} (h : isWording c = true) : isPlain c = true := by
  obtain ⟨hlow, -, hcolon⟩ := isWording_iff.1 h
  refine isPlain_iff.2 ⟨hcolon, isDropped_eq_false_iff.2 ?_⟩
  omega

theorem isPlain_of_worded {text : String} (h : Worded text) :
    ∀ c ∈ text.toList, isPlain c = true :=
  fun c hc => isPlain_of_isWording (h c hc)

/-- **Wording is verbatim.** -/
theorem verbatim_of_worded {text : String} (h : Worded text) : Verbatim text.toList :=
  verbatim_of_isPlain (isPlain_of_worded h)

theorem verbatim_worded_append_iff {front : String} (h : Worded front) {cs : List Char} :
    Verbatim (front.toList ++ cs) ↔ Verbatim cs :=
  verbatim_plain_append_iff (isPlain_of_worded h)

/-- Nor does a heading of wording, with a colon and white space. -/
theorem verbatim_heading_iff {head : String} (hhead : Worded head) {b : Char}
    (hb : isBlank b = true) (hkept : isDropped b = false) {cs : List Char} :
    Verbatim (head.toList ++ ':' :: b :: cs) ↔ Verbatim cs := by
  have hcolon : Verbatim [':'] := verbatim_colon (List.forall_mem_nil _)
  rw [verbatim_worded_append_iff hhead, show ':' :: b :: cs = [':'] ++ b :: cs from rfl,
    verbatim_append_blank_iff hb hkept]
  exact and_iff_right hcolon

end Calculator
