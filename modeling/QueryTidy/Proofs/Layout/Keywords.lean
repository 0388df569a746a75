import QueryTidy.Layout.Phrase
import QueryTidy.Proofs.Text.Pieces
import Mathlib.Data.List.Forall2

/-!
The words that the layout writes in capitals. Which pieces belong to a phrase does not depend on
case, and only keywords do, so writing a phrase in capitals leaves every phrase where it is.
-/

set_option autoImplicit false
set_option relaxedAutoImplicit false

namespace QueryTidy.Layout

open Text

def keywords : Slot :=
  slot ["SELECT", "FROM", "WHERE", "GROUP", "ORDER", "BY", "HAVING", "VALUES", "LEFT", "RIGHT",
    "FULL", "INNER", "OUTER", "CROSS", "JOIN", "AND", "OR", "INSERT", "UPDATE", "DELETE", "SET"]

def fold : Piece → Piece
  | .word run => .word (run.map foldChar)
  | .other c => .other c

def respell (role : Role) (p : Piece) : Piece :=
  if role = .plain then p else fold p

@[simp] theorem fold_word (run : Text) : fold (.word run) = .word (run.map foldChar) := rfl

@[simp] theorem fold_other (c : Char) : fold (.other c) = .other c := rfl

theorem map_foldChar_map_foldChar (t : Text) : (t.map foldChar).map foldChar = t.map foldChar := by
  rw [List.map_map]
  apply List.map_congr_left
  intro c _
  exact foldChar_foldChar c

@[simp] theorem fold_fold (p : Piece) : fold (fold p) = fold p := by
  cases p with
  | word run => simp only [fold_word, map_foldChar_map_foldChar]
  | other c => rfl

@[simp] theorem fold_respell (role : Role) (p : Piece) : fold (respell role p) = fold p := by
  unfold respell
  split <;> simp

theorem fold_eq_other {p : Piece} {c : Char} : fold p = .other c ↔ p = .other c := by
  cases p <;> simp

theorem word?_fold_eq_none {p : Piece} : (fold p).word? = none ↔ p.word? = none := by
  cases p <;> simp [Piece.word?]

theorem beq_other_congr {p q : Piece} (same : fold p = fold q) (c : Char) :
    (p == .other c) = (q == .other c) := by
  have iff : p = .other c ↔ q = .other c := by rw [← fold_eq_other, same, fold_eq_other]
  by_cases found : q = .other c
  · simp [iff.mpr found, found]
  · simp [mt iff.mp found, found]

theorem written_eq_text (role : Role) {p : Piece} (word : role ≠ .plain → ∃ run, p = .word run) :
    written role p = (respell role p).text := by
  unfold written respell
  split
  · rfl
  · rename_i inPhrase
    obtain ⟨run, rfl⟩ := word inPhrase
    rfl

theorem holds_congr {p q : Piece} (same : fold p = fold q) (s : Slot) : s.holds p = s.holds q := by
  cases p <;> cases q <;> simp only [fold_word, fold_other, Piece.word.injEq, reduceCtorEq] at same
  · simp only [Slot.holds, sameWord, same]
  · rfl

theorem holds_word (s : Slot) (run : Text) :
    s.holds (.word run) = decide (run.map foldChar ∈ s) := by
  rw [Bool.eq_iff_iff, decide_eq_true_iff]
  simp only [Slot.holds, List.any_eq_true, sameWord_iff]
  constructor
  · rintro ⟨word, inSlot, rfl⟩
    exact inSlot
  · intro inSlot
    exact ⟨_, inSlot, rfl⟩

theorem exists_word_of_holds {s : Slot} {p : Piece} (held : s.holds p) :
    ∃ run, p = .word run ∧ run.map foldChar ∈ s := by
  cases p with
  | other c => simp [Slot.holds] at held
  | word run =>
    rw [holds_word, decide_eq_true_iff] at held
    exact ⟨run, rfl, held⟩

theorem word?_of_holds {s : Slot} {p : Piece} (held : s.holds p) : p.word? ≠ none := by
  obtain ⟨run, rfl, -⟩ := exists_word_of_holds held
  simp [Piece.word?]

theorem holds_of_subset {s s' : Slot} {p : Piece} (subset : s ⊆ s') (held : s.holds p) :
    s'.holds p := by
  obtain ⟨run, rfl, known⟩ := exists_word_of_holds held
  rw [holds_word, decide_eq_true_iff]
  exact subset known

theorem filled_congr {ps qs : List Piece} (same : ps.map fold = qs.map fold) (phrase : List Slot) :
    filled phrase ps = filled phrase qs := by
  induction phrase generalizing ps qs with
  | nil => rfl
  | cons s phrase ih =>
    cases ps <;> cases qs <;> simp only [List.map_nil, List.map_cons, reduceCtorEq,
      List.cons.injEq] at same
    · rfl
    · simp only [filled, holds_congr same.1, ih same.2]

theorem phraseLength_congr {ps qs : List Piece} (same : ps.map fold = qs.map fold) :
    phraseLength ps = phraseLength qs := by
  have tests : (fun phrase => filled phrase ps) = fun phrase => filled phrase qs :=
    funext fun phrase => filled_congr same phrase
  simp only [phraseLength, tests]

theorem roles_congr {ps qs : List Piece} (same : ps.map fold = qs.map fold) (pending : Nat) :
    roles pending ps = roles pending qs := by
  induction ps generalizing qs pending with
  | nil =>
    cases qs with
    | nil => rfl
    | cons q qs => simp at same
  | cons p ps ih =>
    cases qs with
    | nil => simp at same
    | cons q qs =>
      have rest : ps.map fold = qs.map fold := (List.cons.inj same).2
      cases pending with
      | succ pending => simp only [roles, ih rest]
      | zero => simp only [roles, phraseLength_congr same, ih rest]

private theorem mem_keywords {phrase : List Slot} (known : phrase ∈ phrases) :
    ∀ s ∈ phrase, ∀ word ∈ s, word ∈ keywords := by
  revert phrase
  decide

/-- Whether pieces begin with words for slots of which every word is a keyword. -/
private def Fits (slots : List Slot) (ps : List Piece) : Prop :=
  (∀ s ∈ slots, ∀ word ∈ s, word ∈ keywords) ∧ filled slots ps

private theorem Fits.uncons {s : Slot} {slots : List Slot} {p : Piece} {ps : List Piece}
    (fits : Fits (s :: slots) (p :: ps)) : keywords.holds p ∧ Fits slots ps := by
  obtain ⟨known, whole⟩ := fits
  have both : s.holds p ∧ filled slots ps := by simpa [filled] using whole
  exact ⟨holds_of_subset (known s (by simp)) both.1,
    fun s inSlots => known s (List.mem_cons_of_mem _ inSlots), both.2⟩

private theorem fits_of_find {phrase : List Slot} {ps : List Piece}
    (search : phrases.find? (filled · ps) = some phrase) : Fits phrase ps := by
  have whole := List.find?_some search
  exact ⟨mem_keywords (List.mem_of_find?_eq_some search), whole⟩

private theorem forall₂_roles (slots : List Slot) (ps : List Piece) (fits : Fits slots ps) :
    List.Forall₂ (fun p role => role ≠ .plain → keywords.holds p) ps (roles slots.length ps) := by
  -- the phrase that has begun is carried along as the slots that are still to be filled
  induction ps generalizing slots with
  | nil => simp [roles]
  | cons p ps ih =>
    have plain : List.Forall₂ (fun p role => role ≠ .plain → keywords.holds p) (p :: ps)
        (.plain :: roles 0 ps) :=
      .cons (fun inPhrase => absurd rfl inPhrase) (ih [] ⟨by simp, rfl⟩)
    cases slots with
    | cons s slots =>
      obtain ⟨keyword, rest⟩ := fits.uncons
      exact .cons (fun _ => keyword) (ih slots rest)
    | nil =>
      simp only [List.length_nil, roles, phraseLength]
      cases search : phrases.find? (filled · (p :: ps)) with
      | none => exact plain
      | some phrase =>
        have fits := fits_of_find search
        cases phrase with
        | nil => exact plain
        | cons s slots =>
          obtain ⟨keyword, rest⟩ := fits.uncons
          exact .cons (fun _ => keyword) (ih slots rest)

theorem forall₂_holds_roles (ps : List Piece) :
    List.Forall₂ (fun p role => role ≠ .plain → keywords.holds p) ps (roles 0 ps) :=
  forall₂_roles [] ps ⟨by simp, rfl⟩

theorem keywords_capital : ∀ word ∈ keywords, word ≠ [] ∧ word.all isPlainCapital := by
  decide

theorem isWord_of_mem_keywords {word : Text} (known : word ∈ keywords) : IsWord word := by
  obtain ⟨some, capitals⟩ := keywords_capital word known
  refine ⟨some, fun c inWord => ?_⟩
  exact isWordChar_of_isPlainCapital (List.all_eq_true.mp capitals c inWord)

theorem upper_map_foldChar {run : Text} (known : run.map foldChar ∈ keywords) :
    upper (run.map foldChar) = upper run := by
  have capitals := (keywords_capital _ known).2
  rw [upper_of_map_foldChar capitals]
  have again : ((run.map foldChar).map foldChar).all isPlainCapital := by
    rw [map_foldChar_map_foldChar]
    exact capitals
  rw [upper_of_map_foldChar again, map_foldChar_map_foldChar]

end QueryTidy.Layout
