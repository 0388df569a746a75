import QueryTidy.Check
import QueryTidy.Proofs.Spelling

/-!
Correcting a text part by part, and correcting it again. Characters outside words divide a text into
parts that are corrected and reported each for itself. A correction stands in the place of a word,
so the characters around it divide the corrected text as they divided the text, and a second
correction sees each correction as if it stood alone.
-/

set_option autoImplicit false
set_option relaxedAutoImplicit false

namespace QueryTidy

open Text

namespace Text

variable {s : Text}

theorem IsSeparator.pieces_eq (separator : IsSeparator s) (a b : Text) :
    pieces (a ++ s ++ b) = pieces a ++ s.map Piece.other ++ pieces b := by
  rw [List.append_assoc, pieces_append a (separator.breaks b), pieces_others_append separator.2,
    List.append_assoc]

theorem IsSeparator.words_eq (separator : IsSeparator s) (a b : Text) :
    words (a ++ s ++ b) = words a ++ words b := by
  have none : (s.map Piece.other).filterMap Piece.word? = [] := by simp [Piece.word?]
  rw [words, separator.pieces_eq, List.filterMap_append, List.filterMap_append, none,
    List.append_nil, words, words]

end Text

/-- What stands on the two sides of a separator is cut into words and corrected, and its
misspellings are reported, each side for itself. -/
theorem corrections_local (d : Dictionary) {s : Text} (separator : IsSeparator s) (a b : Text) :
    words (a ++ s ++ b) = words a ++ words b ∧
      d.correctText (a ++ s ++ b) = d.correctText a ++ s ++ d.correctText b ∧
      Check.run d .misspelledKeyword (a ++ s ++ b) =
        Check.run d .misspelledKeyword a ++ Check.run d .misspelledKeyword b := by
  refine ⟨separator.words_eq a b, ?_, ?_⟩
  · rw [Dictionary.correctText, separator.pieces_eq, List.flatMap_append, List.flatMap_append,
      d.flatMap_correctPiece_other]
    rfl
  · change (words (a ++ s ++ b)).filterMap (Check.misspelling? d) = _
    rw [separator.words_eq, List.filterMap_append]
    rfl

theorem corrections_local_fraction :
    IsSeparator ['½'] ∧
      Dictionary.builtin.correctText ("x Frm".toList ++ ['½'] ++ "tabl selct_".toList) =
        "x FROM".toList ++ ['½'] ++ "TABLE selct_".toList ∧
      (Check.run .builtin .misspelledKeyword
        ("x Frm".toList ++ ['½'] ++ "tabl selct_".toList)).map Finding.message =
        ["Misspelled keyword: FRM".toList, "Misspelled keyword: TABL".toList] := by
  have separator : IsSeparator ['½'] := by decide +kernel
  obtain ⟨-, corrected, reported⟩ :=
    corrections_local .builtin separator "x Frm".toList "tabl selct_".toList
  rw [corrected, reported]
  exact ⟨separator, by decide +kernel, by decide +kernel⟩

example : Dictionary.builtin.correctText ("sel".toList ++ "ct".toList) ≠
    Dictionary.builtin.correctText "sel".toList ++ Dictionary.builtin.correctText "ct".toList := by
  decide +kernel

namespace Dictionary

theorem Stable.correctText_correctText {d : Dictionary} (stable : d.Stable) (t : Text) :
    d.correctText (d.correctText t) = d.correctText t :=
  correctText_eq_of_keeps fun _ found => stable.keeps found

theorem stable_of_idempotent {d : Dictionary}
    (idempotent : ∀ t, d.correctText (d.correctText t) = d.correctText t) : d.Stable := by
  intro w v word known
  have once : d.correctText w = v := correctText_of_isWord word known
  have twice := idempotent w
  rwa [once] at twice

/-- Correcting a text again changes nothing, for all texts, exactly if no correction that some word
has is itself corrected. The built-in dictionary is of this kind. -/
theorem correctText_idempotent_iff :
    (∀ d : Dictionary, (∀ t, d.correctText (d.correctText t) = d.correctText t) ↔
      ∀ w v, IsWord w → d.correct? w = some v → d.correctText v = v) ∧
    ∀ t, builtin.correctText (builtin.correctText t) = builtin.correctText t :=
  ⟨fun _ => ⟨stable_of_idempotent, Stable.correctText_correctText⟩,
    builtin_stable.correctText_correctText⟩

example :
    let d := withExtra [("a".toList, "b-frm".toList)]
    d.correctText "a".toList = "B-FRM".toList ∧ d.correctText "B-FRM".toList = "B-FROM".toList := by
  decide +kernel

end Dictionary

end QueryTidy
