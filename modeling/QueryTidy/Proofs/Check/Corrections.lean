import QueryTidy.Check
import QueryTidy.Proofs.Placement
import QueryTidy.Proofs.Text.Capitals

/-!
The spelling check and the correction of a text see the same misspelt words. Between these words
the text is left as it stands, each of them is reported once, and each is replaced by the correction
that its report suggests.
-/

set_option autoImplicit false
set_option relaxedAutoImplicit false

namespace QueryTidy

open Text

def Check.misspellingOf (word fixed : Text) : Finding :=
  ⟨.misspelledKeyword, "Misspelled keyword: ".toList ++ word,
    "Did you mean: ".toList ++ fixed ++ ['?'], .error⟩

/-- A misspelt word with its correction, and the text between it and the misspelt word before it. -/
structure Slip where
  gap : Text
  word : Text
  fixed : Text

namespace Slip

def written (s : Slip) : Text :=
  s.gap ++ s.word

def corrected (s : Slip) : Text :=
  s.gap ++ s.fixed

def filled (fill : Text → Text → Text) (s : Slip) : Text :=
  s.gap ++ fill s.word s.fixed

def finding (s : Slip) : Finding :=
  Check.misspellingOf (upper s.word) s.fixed

/-- Misspelt words and the text behind the last one, with a text in front of it all. -/
def behind (u : Text) : List Slip × Text → List Slip × Text
  | ([], rest) => ([], u ++ rest)
  | (s :: slips, rest) => ({ s with gap := u ++ s.gap } :: slips, rest)

end Slip

namespace Dictionary

def slip? (d : Dictionary) : Piece → Option Slip
  | .word w => (d.correct? w).map (⟨[], w, ·⟩)
  | .other _ => none

/-- The misspelt words among pieces, in order, and the text behind the last one. -/
def slips (d : Dictionary) : List Piece → List Slip × Text
  | [] => ([], [])
  | p :: ps =>
    match d.slip? p with
    | some s => (s :: (d.slips ps).1, (d.slips ps).2)
    | none => Slip.behind p.text (d.slips ps)

variable {d : Dictionary} {p : Piece} {ps : List Piece}

theorem slip?_eq_some {s : Slip} (found : d.slip? p = some s) :
    ∃ w v, p = .word w ∧ d.correct? w = some v ∧ s = ⟨[], w, v⟩ := by
  cases p with
  | other c => contradiction
  | word w =>
    obtain ⟨v, known, rfl⟩ := Option.map_eq_some_iff.mp found
    exact ⟨w, v, rfl, known, rfl⟩

theorem slip?_word {w v : Text} (known : d.correct? w = some v) :
    d.slip? (.word w) = some ⟨[], w, v⟩ := by
  simp [slip?, known]

theorem misspelling?_eq (d : Dictionary) (w : Text) :
    Check.misspelling? d w = (d.slip? (.word w)).map Slip.finding := by
  have same : d.correct? (upper w) = d.correct? w := by
    rw [correct?, correct?, upper_upper]
  rw [Check.misspelling?, same, slip?, Option.map_map]
  rfl

theorem slips_cons_some {s : Slip} (found : d.slip? p = some s) :
    d.slips (p :: ps) = (s :: (d.slips ps).1, (d.slips ps).2) := by
  rw [slips, found]

theorem slips_cons_none (absent : d.slip? p = none) :
    d.slips (p :: ps) = Slip.behind p.text (d.slips ps) := by
  rw [slips, absent]

theorem filled_behind (fill : Text → Text → Text) (u : Text) (cut : List Slip × Text) :
    (Slip.behind u cut).1.flatMap (Slip.filled fill) ++ (Slip.behind u cut).2 =
      u ++ (cut.1.flatMap (Slip.filled fill) ++ cut.2) := by
  obtain ⟨slips, rest⟩ := cut
  cases slips with
  | nil => rfl
  | cons s slips => simp [Slip.behind, Slip.filled]

theorem finding_behind (u : Text) (cut : List Slip × Text) :
    (Slip.behind u cut).1.map Slip.finding = cut.1.map Slip.finding := by
  obtain ⟨slips, rest⟩ := cut
  cases slips with
  | nil => rfl
  | cons s slips => rfl

theorem filled_slips (d : Dictionary) (fill : Text → Text → Text) (ps : List Piece) :
    (d.slips ps).1.flatMap (Slip.filled fill) ++ (d.slips ps).2 =
      ps.flatMap fun p => ((d.slip? p).map fun s => fill s.word s.fixed).getD p.text := by
  induction ps with
  | nil => rfl
  | cons p ps ih =>
    rw [List.flatMap_cons, ← ih]
    cases found : d.slip? p with
    | none =>
      rw [slips_cons_none found, filled_behind]
      rfl
    | some s =>
      obtain ⟨w, v, -, -, rfl⟩ := slip?_eq_some found
      rw [slips_cons_some found]
      simp [Slip.filled]

theorem written_slips (d : Dictionary) (ps : List Piece) :
    (d.slips ps).1.flatMap Slip.written ++ (d.slips ps).2 = ps.flatMap Piece.text := by
  refine (d.filled_slips (fun w _ => w) ps).trans (List.flatMap_congr fun p _ => ?_)
  cases found : d.slip? p with
  | none => rfl
  | some s =>
    obtain ⟨w, v, rfl, -, rfl⟩ := slip?_eq_some found
    rfl

theorem corrected_slips (d : Dictionary) (ps : List Piece) :
    (d.slips ps).1.flatMap Slip.corrected ++ (d.slips ps).2 = ps.flatMap d.correctPiece := by
  refine (d.filled_slips (fun _ v => v) ps).trans (List.flatMap_congr fun p _ => ?_)
  cases p with
  | other c => rfl
  | word w =>
    rw [slip?, correctPiece, Option.map_map]
    cases d.correct? w <;> rfl

theorem findings_slips (d : Dictionary) (ps : List Piece) :
    (d.slips ps).1.map Slip.finding =
      (ps.filterMap Piece.word?).filterMap (Check.misspelling? d) := by
  induction ps with
  | nil => rfl
  | cons p ps ih =>
    cases p with
    | other c =>
      rw [slips_cons_none rfl, finding_behind, ih]
      rfl
    | word w =>
      have first : (Piece.word w :: ps).filterMap Piece.word? = w :: ps.filterMap Piece.word? := rfl
      rw [first, List.filterMap_cons, misspelling?_eq, ← ih]
      cases found : d.slip? (.word w) with
      | none => rw [slips_cons_none found, finding_behind, Option.map_none]
      | some s => rw [slips_cons_some found, Option.map_some, List.map_cons]

theorem slips_append {w v : Text} (known : d.correct? w = some v) (qs : List Piece) :
    d.slips (ps ++ .word w :: qs) =
      ((d.slips ps).1 ++ ⟨(d.slips ps).2, w, v⟩ :: (d.slips qs).1, (d.slips qs).2) := by
  induction ps with
  | nil => exact slips_cons_some (slip?_word known)
  | cons p ps ih =>
    rw [List.cons_append]
    cases found : d.slip? p with
    | some s => rw [slips_cons_some found, slips_cons_some found, ih, List.cons_append]
    | none =>
      rw [slips_cons_none found, slips_cons_none found, ih]
      -- the text of the piece goes to the first misspelt word, which may be the one in the middle
      obtain ⟨front, rest⟩ := d.slips ps
      cases front <;> rfl

theorem exists_first_slip (d : Dictionary) (ps : List Piece) :
    (d.slips ps).1 = [] ∨ ∃ qs w v rs, ps = qs ++ .word w :: rs ∧ d.correct? w = some v ∧
      (d.slips qs).1 = [] := by
  induction ps with
  | nil => exact Or.inl rfl
  | cons p ps ih =>
    cases found : d.slip? p with
    | some s =>
      obtain ⟨w, v, rfl, known, -⟩ := slip?_eq_some found
      exact Or.inr ⟨[], w, v, ps, rfl, known, rfl⟩
    | none =>
      have clear {qs : List Piece} (none : (d.slips qs).1 = []) : (d.slips (p :: qs)).1 = [] := by
        rw [slips_cons_none found]
        revert none
        obtain ⟨slips, rest⟩ := d.slips qs
        rintro rfl
        rfl
      rcases ih with none | ⟨qs, w, v, rs, rfl, known, none⟩
      · exact Or.inl (clear none)
      · exact Or.inr ⟨p :: qs, w, v, rs, rfl, known, clear none⟩

theorem exists_of_slips_eq {front back : List Slip} {s : Slip}
    (split : (d.slips ps).1 = front ++ s :: back) :
    ∃ qs w v rs, ps = qs ++ .word w :: rs ∧ d.correct? w = some v ∧
      front = (d.slips qs).1 ∧ s = ⟨(d.slips qs).2, w, v⟩ ∧ back = (d.slips rs).1 := by
  induction front generalizing ps with
  | nil =>
    rcases d.exists_first_slip ps with none | ⟨qs, w, v, rs, rfl, known, none⟩
    · rw [none] at split
      contradiction
    · rw [slips_append known, none] at split
      obtain ⟨rfl, rfl⟩ := List.cons.inj split
      exact ⟨qs, w, v, rs, rfl, known, none.symm, rfl, rfl⟩
  | cons first front ih =>
    rcases d.exists_first_slip ps with none | ⟨qs, w, v, rs, rfl, known, none⟩
    · rw [none] at split
      contradiction
    · rw [slips_append known, none] at split
      obtain ⟨rfl, later⟩ := List.cons.inj split
      obtain ⟨qs', w', v', rs', rfl, known', rfl, rfl, rfl⟩ := ih later
      refine ⟨qs ++ .word w :: qs', w', v', rs', by simp, known', ?_, ?_, rfl⟩
      · rw [slips_append known, none]
        rfl
      · rw [slips_append known]

end Dictionary

/-- The spelling check and the correction of a text agree word by word: a text consists of its
misspelt words and what stands between them, the findings are about these words in their order, and
the corrected text differs in them alone. -/
theorem misspellings_agree_with_corrections (d : Dictionary) (t : Text) :
    ∃ slips rest, t = slips.flatMap Slip.written ++ rest ∧
      (∀ before w after v, Occurs t before (.word w) after ∧ d.correct? w = some v ↔
        ∃ front gap back, slips = front ++ ⟨gap, w, v⟩ :: back ∧
          before = front.flatMap Slip.written ++ gap ∧
          after = back.flatMap Slip.written ++ rest) ∧
      Check.run d .misspelledKeyword t = slips.map Slip.finding ∧
      d.correctText t = slips.flatMap Slip.corrected ++ rest := by
  have text {ps : List Piece} := d.written_slips ps
  refine ⟨(d.slips (pieces t)).1, (d.slips (pieces t)).2, ?_, fun before w after v => ?_, ?_, ?_⟩
  · rw [text, text_pieces]
  · constructor
    · rintro ⟨occurs, known⟩
      rw [occurs.pieces_eq, Dictionary.slips_append known]
      refine ⟨_, _, _, rfl, ?_, ?_⟩
      · rw [text, text_pieces]
      · rw [text, text_pieces]
    · rintro ⟨front, gap, back, split, rfl, rfl⟩
      obtain ⟨qs, w', v', rs, cut, known, rfl, same, rfl⟩ := Dictionary.exists_of_slips_eq split
      obtain ⟨rfl, rfl, rfl⟩ := Slip.mk.inj same
      rw [cut, Dictionary.slips_append known, text, text]
      exact ⟨occurs_of_pieces_eq cut, known⟩
  · exact (d.findings_slips (pieces t)).symm
  · exact (d.corrected_slips (pieces t)).symm

end QueryTidy
