import QueryTidy.Format
import QueryTidy.Proofs.Layout.Printing
import QueryTidy.Proofs.Spelling

/-!
What formatting keeps. The tokens of a formatted query are those of the corrected query, in the same
order, apart from keywords that are written in capitals; and with a stable dictionary a formatted
query is formatted to itself.
-/

set_option autoImplicit false
set_option relaxedAutoImplicit false

namespace QueryTidy

open Text Layout

def formatItems (d : Dictionary) (t : Text) : List Item :=
  items false (pieces (d.correctText t))

theorem format_eq (d : Dictionary) (t : Text) :
    format d t = render ((cut (cells none (ranked (formatItems d t)))).map lineText) :=
  rfl

theorem items_format (d : Dictionary) (t : Text) :
    items false (pieces (format d t)) = opening (relaid none (ranked (formatItems d t))) := by
  rw [format_eq]
  exact items_render (sound_items false (cut_pieces _))

theorem tokens_format (d : Dictionary) (t : Text) :
    tokens (format d t) = (ranked (formatItems d t)).map fun x => respell x.2 x.1.piece := by
  rw [tokens, ← map_piece_items false, items_format, map_piece_opening, map_piece_relaid]

theorem tokens_correctText (d : Dictionary) (t : Text) :
    tokens (d.correctText t) = (ranked (formatItems d t)).map fun x => x.1.piece := by
  rw [tokens, ← map_piece_items false]
  change (formatItems d t).map Item.piece = _
  conv_lhs => rw [← map_fst_ranked (formatItems d t), List.map_map]
  rfl

/-- How a token may be written: as it stands, or in capitals if it is a keyword up to case. -/
def WrittenAs (p q : Piece) : Prop :=
  q = p ∨ ∃ run, ∃ keyword ∈ keywords, p = .word run ∧ sameWord keyword run ∧ q = .word keyword

theorem writtenAs_respell {role : Role} {p : Piece}
    (keyword : role ≠ .plain → keywords.holds p) : WrittenAs p (respell role p) := by
  unfold respell
  split
  · exact Or.inl rfl
  · rename_i inPhrase
    obtain ⟨run, rfl, known⟩ := exists_word_of_holds (keyword inPhrase)
    exact Or.inr ⟨run, run.map foldChar, known, rfl, by simp [sameWord], rfl⟩

/-- Formatting keeps every token in its place. -/
theorem format_keeps_tokens (d : Dictionary) (t : Text) :
    List.Forall₂ WrittenAs (tokens (d.correctText t)) (tokens (format d t)) := by
  rw [tokens_correctText, tokens_format, List.forall₂_map_left_iff, List.forall₂_map_right_iff,
    List.forall₂_same]
  rintro ⟨i, role⟩ found
  exact writtenAs_respell fun inPhrase => holds_of_mem_ranked found inPhrase

namespace Dictionary

def respelled (d : Dictionary) : Piece → Piece
  | .word run => .word (d.correctPiece (.word run))
  | .other c => .other c

theorem correctPiece_fold {d : Dictionary} {run : Text} (keeps : d.Keeps run)
    (known : run.map foldChar ∈ keywords) :
    d.correctPiece (.word (run.map foldChar)) = run.map foldChar ∨
      d.correctPiece (.word (run.map foldChar)) = run := by
  have same : d.correct? (run.map foldChar) = d.correct? run := by
    unfold correct?
    rw [upper_map_foldChar known]
  cases entry : d.correct? run with
  | none => exact Or.inl (correctPiece_of_none (same.trans entry))
  | some v =>
    right
    rw [correctPiece_of_some (same.trans entry), ← correctPiece_of_some entry]
    exact keeps

theorem pieces_correctText_of_words {d : Dictionary} {t : Text}
    (words : ∀ run, .word run ∈ pieces t → IsWord (d.correctPiece (.word run))) :
    pieces (d.correctText t) = (pieces t).map d.respelled := by
  rw [pieces_correctText, List.map_eq_flatMap]
  apply List.flatMap_congr
  intro p inText
  cases p with
  | word run => exact pieces_of_isWord (words run inText)
  | other c => exact pieces_text ((cut_pieces t).proper _ inText)

theorem items_map_respelled (d : Dictionary) (gap : Bool) (ps : List Piece) :
    items gap (ps.map d.respelled) = (items gap ps).map (Item.rewrite d.respelled) := by
  induction ps generalizing gap with
  | nil => rfl
  | cons p ps ih =>
    cases p with
    | word run => simp [items, respelled, Item.rewrite, ih]
    | other c =>
      by_cases blank : isBlank c
      · simp [items, respelled, blank, ih]
      · simp [items, respelled, Item.rewrite, blank, ih]

theorem mem_pieces_of_mem_ranked {d : Dictionary} {t : Text} {i : Item} {role : Role}
    (found : (i, role) ∈ ranked (formatItems d t)) : i.piece ∈ pieces (d.correctText t) := by
  have inTokens : i.piece ∈ tokens (d.correctText t) := by
    rw [tokens_correctText]
    exact List.mem_map.mpr ⟨(i, role), found, rfl⟩
  exact (List.mem_filter.mp inTokens).1

/-- What the second correction does to a word of the layout: it stays a word and folds to what it
was, and a word outside the phrases stays as it is. -/
private theorem Stable.correctPiece_written {d : Dictionary} (stable : d.Stable) {t : Text}
    {i : Item} {role : Role} (found : (i, role) ∈ ranked (formatItems d t)) {run : Text}
    (word : respell role i.piece = .word run) :
    IsWord (d.correctPiece (.word run)) ∧
      (d.correctPiece (.word run)).map foldChar = run.map foldChar ∧
      (role = .plain → d.correctPiece (.word run) = run) := by
  have inText := mem_pieces_of_mem_ranked found
  have proper := (cut_pieces _).proper _ inText
  by_cases plain : role = .plain
  · rw [respell, if_pos plain] at word
    rw [word] at inText proper
    have keeps : d.correctPiece (.word run) = run := stable.keeps inText
    rw [keeps]
    exact ⟨proper, rfl, fun _ => rfl⟩
  · obtain ⟨source, same, known⟩ := exists_word_of_holds (holds_of_mem_ranked found plain)
    rw [same] at inText proper
    rw [respell, if_neg plain, same] at word
    obtain rfl : source.map foldChar = run := Piece.word.inj word
    refine ⟨?_, ?_, fun isPlain => absurd isPlain plain⟩
    · rcases correctPiece_fold (stable.keeps inText) known with again | back
      · rw [again]
        exact isWord_of_mem_keywords known
      · rw [back]
        exact proper
    · rcases correctPiece_fold (stable.keeps inText) known with again | back
      · rw [again]
      · rw [back, map_foldChar_map_foldChar]

private theorem Stable.pieces_correctText_format {d : Dictionary} (stable : d.Stable) (t : Text) :
    pieces (d.correctText (format d t)) = (pieces (format d t)).map d.respelled := by
  apply pieces_correctText_of_words
  intro run inText
  have inTokens : .word run ∈ tokens (format d t) := List.mem_filter.mpr ⟨inText, rfl⟩
  rw [tokens_format] at inTokens
  obtain ⟨⟨i, role⟩, found, word⟩ := List.mem_map.mp inTokens
  exact (stable.correctPiece_written found word).1

private theorem Stable.invisible_respelled {d : Dictionary} (stable : d.Stable) (t : Text) :
    Invisible d.respelled (ranked (formatItems d t)) := by
  intro i role found
  constructor
  · rw [← fold_respell role i.piece]
    cases word : respell role i.piece with
    | other c => rfl
    | word run =>
      have folded := (stable.correctPiece_written found word).2.1
      simp only [respelled, fold_word, folded]
  · intro plain
    cases word : i.piece with
    | other c => rfl
    | word run =>
      have written : respell role i.piece = .word run := by rw [respell, if_pos plain, word]
      simp only [respelled, (stable.correctPiece_written found written).2.2 plain]

theorem Stable.format_format {d : Dictionary} (stable : d.Stable) (t : Text) :
    format d (format d t) = format d t := by
  have again : formatItems d (format d t) =
      (opening (relaid none (ranked (formatItems d t)))).map (Item.rewrite d.respelled) := by
    unfold formatItems
    rw [stable.pieces_correctText_format, items_map_respelled, items_format]
    rfl
  rw [format_eq d (format d t), again, lines_again (stable.invisible_respelled t)]
  exact (format_eq d t).symm

end Dictionary

/-- Formatting is idempotent for every stable dictionary, the built-in one among them. -/
theorem format_idempotent :
    (∀ d : Dictionary, d.Stable → ∀ t, format d (format d t) = format d t) ∧
      ∀ t, format .builtin (format .builtin t) = format .builtin t :=
  ⟨fun _ stable t => stable.format_format t, Dictionary.builtin_stable.format_format⟩

theorem format_idempotent_slect :
    let d := Dictionary.withExtra [("slect".toList, "select distinct".toList)]
    let t := "slect a,count(*)frm t left  outer join u on(x=1)and½ ſet z".toList
    d.Stable ∧ format d t =
      "SELECT DISTINCT a, count\n( *)\nFROM t\nLEFT OUTER JOIN u on\n( x=1)\nAND½\nSET z".toList ∧
      format d (format d t) = format d t := by
  intro d t
  have stable : d.Stable := Dictionary.stable_of_entries (by decide +kernel)
  exact ⟨stable, by decide +kernel, format_idempotent.1 d stable t⟩

end QueryTidy
