import QueryTidy.Dictionary
import QueryTidy.Proofs.Text.Pieces

/-!
Correcting a text, word by word. A dictionary is stable when correcting a correction changes
nothing; then a corrected text holds no word that the dictionary would change again.
-/

set_option autoImplicit false
set_option relaxedAutoImplicit false

namespace QueryTidy

open Text

namespace Dictionary

def Keeps (d : Dictionary) (w : Text) : Prop :=
  d.correctPiece (.word w) = w

/-- Whether no correction that some word has is itself corrected. -/
def Stable (d : Dictionary) : Prop :=
  ∀ w v, IsWord w → d.correct? w = some v → d.correctText v = v

theorem pieces_correctText (d : Dictionary) (t : Text) :
    pieces (d.correctText t) = (pieces t).flatMap fun p => pieces (d.correctPiece p) :=
  pieces_flatMap (cut_pieces t) fun _ => rfl

theorem keeps_of_correctText_eq {d : Dictionary} {t w : Text} (fixed : d.correctText t = t)
    (found : .word w ∈ pieces t) : d.Keeps w := by
  have whole : (pieces t).flatMap d.correctPiece = (pieces t).flatMap Piece.text := by
    rw [text_pieces]
    exact fixed
  exact rewrite_eq_text (cut_pieces t) (fun _ => rfl) whole _ found

theorem correctText_eq_of_keeps {d : Dictionary} {t : Text}
    (keeps : ∀ w, .word w ∈ pieces t → d.Keeps w) : d.correctText t = t := by
  have same : ∀ p ∈ pieces t, d.correctPiece p = p.text := by
    intro p inText
    cases p with
    | word w => exact keeps w inText
    | other c => rfl
  rw [correctText, List.flatMap_congr same, text_pieces]

theorem correctPiece_of_none {d : Dictionary} {w : Text} (unknown : d.correct? w = none) :
    d.correctPiece (.word w) = w := by
  simp [correctPiece, unknown]

theorem correctPiece_of_some {d : Dictionary} {w v : Text} (known : d.correct? w = some v) :
    d.correctPiece (.word w) = v := by
  simp [correctPiece, known]

theorem flatMap_correctPiece_other (d : Dictionary) (s : Text) :
    (s.map Piece.other).flatMap d.correctPiece = s := by
  simp [List.flatMap_map, correctPiece]

theorem correctText_of_isWord {d : Dictionary} {w v : Text} (word : IsWord w)
    (known : d.correct? w = some v) : d.correctText w = v := by
  rw [correctText, pieces_of_isWord word, List.flatMap_singleton, correctPiece_of_some known]

/-- The words of a corrected text are words that had no correction, and words of corrections. -/
theorem mem_pieces_correctText {d : Dictionary} {t w : Text}
    (found : .word w ∈ pieces (d.correctText t)) :
    d.correct? w = none ∨ ∃ u v, IsWord u ∧ d.correct? u = some v ∧ .word w ∈ pieces v := by
  rw [pieces_correctText, List.mem_flatMap] at found
  obtain ⟨p, inText, inPiece⟩ := found
  have proper := (cut_pieces t).proper p inText
  cases p with
  | other c =>
    have single : pieces [c] = [.other c] := pieces_text proper
    simp [correctPiece, single] at inPiece
  | word u =>
    cases known : d.correct? u with
    | none =>
      rw [correctPiece_of_none known, pieces_of_isWord proper] at inPiece
      have same : w = u := by simpa using inPiece
      exact Or.inl (same ▸ known)
    | some v =>
      rw [correctPiece_of_some known] at inPiece
      exact Or.inr ⟨u, v, proper, known, inPiece⟩

theorem Stable.keeps {d : Dictionary} (stable : d.Stable) {t w : Text}
    (found : .word w ∈ pieces (d.correctText t)) : d.Keeps w := by
  rcases mem_pieces_correctText found with unknown | ⟨u, v, word, known, inCorrection⟩
  · exact correctPiece_of_none unknown
  · exact keeps_of_correctText_eq (stable u v word known) inCorrection

theorem mem_of_lookup {entries : List Entry} {wrong right : Text}
    (known : entries.lookup wrong = some right) : (wrong, right) ∈ entries := by
  obtain ⟨before, after, split, -⟩ := List.lookup_eq_some_iff.mp known
  rw [split]
  simp

theorem stable_of_entries {d : Dictionary}
    (fixed : ∀ entry ∈ d.entries, d.correctText entry.2 = entry.2) : d.Stable := by
  intro w v _ known
  exact fixed _ (mem_of_lookup known)

theorem builtin_stable : builtin.Stable :=
  stable_of_entries (by decide +kernel)

end Dictionary

end QueryTidy
