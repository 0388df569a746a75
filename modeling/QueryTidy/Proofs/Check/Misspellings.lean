import QueryTidy.Check
import QueryTidy.Proofs.Formatting
import QueryTidy.Proofs.Text.Capitals

/-!
The spelling check on a formatted query. The layout changes a word in its case at most, and the
dictionary reads words without regard to case, so what is left to report after formatting are
misspellings that stand in corrections.
-/

set_option autoImplicit false
set_option relaxedAutoImplicit false

namespace QueryTidy

open Text Layout

theorem Text.mem_words {t w : Text} : w ∈ words t ↔ .word w ∈ pieces t := by
  rw [words, List.mem_filterMap]
  constructor
  · rintro ⟨p, inText, isWord⟩
    cases p with
    | other c => simp [Piece.word?] at isWord
    | word run =>
      have same : run = w := by simpa [Piece.word?] using isWord
      exact same ▸ inText
  · intro inText
    exact ⟨.word w, inText, rfl⟩

theorem exists_source_of_mem_format {d : Dictionary} {t w : Text}
    (found : .word w ∈ pieces (format d t)) :
    ∃ source, .word source ∈ pieces (d.correctText t) ∧ upper w = upper source := by
  have inTokens : .word w ∈ tokens (format d t) := List.mem_filter.mpr ⟨found, rfl⟩
  rw [tokens_format] at inTokens
  obtain ⟨⟨i, role⟩, inRanked, word⟩ := List.mem_map.mp inTokens
  have inText := Dictionary.mem_pieces_of_mem_ranked inRanked
  by_cases plain : role = .plain
  · rw [respell, if_pos plain] at word
    exact ⟨w, word ▸ inText, rfl⟩
  · obtain ⟨source, same, known⟩ := exists_word_of_holds (holds_of_mem_ranked inRanked plain)
    rw [respell, if_neg plain, same] at word
    obtain rfl : source.map foldChar = w := Piece.word.inj word
    exact ⟨source, same ▸ inText, upper_map_foldChar known⟩

namespace Dictionary

/-- Whether no word of a correction that some word has is itself a misspelling. -/
def Settled (d : Dictionary) : Prop :=
  ∀ w v, IsWord w → d.correct? w = some v → ∀ run ∈ words v, d.correct? run = none

theorem correct?_congr (d : Dictionary) {w u : Text} (same : upper w = upper u) :
    d.correct? w = d.correct? u := by
  rw [correct?, correct?, same]

theorem settled_of_entries {d : Dictionary}
    (final : ∀ entry ∈ d.entries, ∀ run ∈ words entry.2, d.correct? run = none) : d.Settled :=
  fun _ _ _ known => final _ (mem_of_lookup known)

theorem builtin_settled : builtin.Settled :=
  settled_of_entries (by decide +kernel)

theorem Settled.correct?_eq_none {d : Dictionary} (settled : d.Settled) {t w : Text}
    (found : .word w ∈ pieces (d.correctText t)) : d.correct? w = none := by
  rcases mem_pieces_correctText found with unknown | ⟨u, v, word, known, inCorrection⟩
  · exact unknown
  · exact settled u v word known w (mem_words.mpr inCorrection)

theorem Settled.misspellings_format {d : Dictionary} (settled : d.Settled) (t : Text) :
    Check.run d .misspelledKeyword (format d t) = [] := by
  change (words (format d t)).filterMap (Check.misspelling? d) = []
  rw [List.filterMap_eq_nil_iff]
  intro w found
  obtain ⟨source, inText, same⟩ := exists_source_of_mem_format (mem_words.mp found)
  have unknown : d.correct? (upper w) = none :=
    calc d.correct? (upper w) = d.correct? source :=
          d.correct?_congr ((upper_upper w).trans same)
      _ = none := settled.correct?_eq_none inText
  rw [Check.misspelling?, unknown]
  rfl

end Dictionary

/-- A formatted query holds no misspelling, unless the dictionary writes misspellings itself. -/
theorem format_leaves_no_misspelling :
    (∀ d : Dictionary, d.Settled → ∀ t, Check.run d .misspelledKeyword (format d t) = []) ∧
      ∀ t, Check.run .builtin .misspelledKeyword (format .builtin t) = [] :=
  ⟨fun _ settled t => settled.misspellings_format t,
    Dictionary.builtin_settled.misspellings_format⟩

theorem format_leaves_no_misspelling_slect :
    let d := Dictionary.withExtra [("slect".toList, "select (distinct), from".toList)]
    let t := "Slect a FRM ſlect".toList
    d.Settled ∧ (Check.run d .misspelledKeyword t).length = 3 ∧
      format d t = "SELECT\n( DISTINCT)\n,\nFROM a\nFROM\nSELECT\n( DISTINCT)\n,\nFROM".toList ∧
      Check.run d .misspelledKeyword (format d t) = [] := by
  intro d t
  have settled : d.Settled := Dictionary.settled_of_entries (by decide +kernel)
  exact ⟨settled, by decide +kernel, by decide +kernel,
    format_leaves_no_misspelling.1 d settled t⟩

end QueryTidy
