import QueryTidy.Proofs.Check.Trimming
import QueryTidy.Proofs.Text.Lines

/-!
The lines of a layout. What is put into a line is visible throughout, and between two such parts
stands one space or none, so a line begins and ends with a visible character and has no blanks but
single spaces. A layout is cut into these lines again where its line ends are.
-/

set_option autoImplicit false
set_option relaxedAutoImplicit false

namespace QueryTidy

open Text Layout

namespace Text

def Dense (s : Text) : Prop :=
  s ≠ [] ∧ ∀ c ∈ s, isBlank c = false

/-- Whether a text begins and ends with a visible character and has no blanks but single spaces. -/
structure Compact (line : Text) : Prop extends Solid line where
  spaces : ∀ c ∈ line, isBlank c → c = ' '
  single : line.IsChain fun c e => isBlank c → isBlank e = false

theorem Piece.dense_text {p : Piece} (proper : p.Proper) (visible : p.blank = false) :
    Dense p.text := by
  cases p with
  | word run =>
    have isWord : IsWord run := proper
    exact ⟨isWord.1, fun c inRun => isBlank_of_isWordChar (isWord.2 c inRun)⟩
  | other c =>
    have visible : isBlank c = false := visible
    exact ⟨by simp [Piece.text], by simpa [Piece.text] using visible⟩

theorem Dense.nonblank {s : Text} (dense : Dense s) (rest : Text) :
    ∀ c ∈ (s ++ rest).head?, isBlank c = false := by
  obtain ⟨c, s, rfl⟩ := List.exists_cons_of_ne_nil dense.1
  simpa using dense.2 c (by simp)

theorem Dense.right {a b : Text} (dense : Dense (a ++ b)) (some : b ≠ []) : Dense b :=
  ⟨some, fun c inRight => dense.2 c (List.mem_append_right a inRight)⟩

theorem Dense.compact {s : Text} (dense : Dense s) : Compact s where
  some := dense.1
  first c first := dense.2 c (List.mem_of_mem_head? first)
  last c last := dense.2 c (List.mem_of_mem_getLast? last)
  spaces c inText blank := by
    rw [dense.2 c inText] at blank
    contradiction
  single := by
    apply List.Pairwise.isChain
    apply List.pairwise_of_forall_mem_list
    intro c _ e inText _
    exact dense.2 e inText

theorem Compact.prepend {s space line : Text} (compact : Compact line) (dense : Dense s)
    (known : space = [] ∨ space = [' ']) : Compact (s ++ (space ++ line)) where
  toSolid := dense.compact.toSolid.enclose compact.toSolid space
  spaces c inText blank := by
    rcases List.mem_append.mp inText with inFront | inRest
    · exact dense.compact.spaces c inFront blank
    · rcases List.mem_append.mp inRest with inSpace | inLine
      · rcases known with rfl | rfl
        · simp at inSpace
        · exact List.mem_singleton.mp inSpace
      · exact compact.spaces c inLine blank
  single := by
    have rest : (space ++ line).IsChain fun c e => isBlank c → isBlank e = false := by
      rcases known with rfl | rfl
      · exact compact.single
      · exact List.isChain_cons.mpr ⟨fun e first _ => compact.first e first, compact.single⟩
    refine List.isChain_append.mpr ⟨dense.compact.single, rest, ?_⟩
    intro c last e _ blank
    rw [dense.compact.last c last] at blank
    contradiction

theorem Compact.newline_not_mem {line : Text} (compact : Compact line) : '\n' ∉ line := by
  intro inLine
  exact absurd (compact.spaces '\n' inLine rfl) (by decide)

theorem Compact.not_double {line before after : Text} (compact : Compact line) :
    line ≠ before ++ ' ' :: ' ' :: after := by
  rintro rfl
  have pair := (List.isChain_append.mp compact.single).2.1
  exact absurd ((List.isChain_cons.mp pair).1 ' ' rfl rfl) (by decide)

end Text

namespace Layout

theorem compact_cut (c : Cell) {rest : List Cell} (dense : ∀ e ∈ c :: rest, Dense e.text) :
    ∀ line ∈ (cut (c :: rest)).map lineText, Compact line := by
  induction rest generalizing c with
  | nil =>
    have only : (cut [c]).map lineText = [c.text] := by simp [cut, lineText]
    rw [only]
    intro line found
    rw [List.mem_singleton.mp found]
    exact (dense c (by simp)).compact
  | cons d rest ih =>
    obtain ⟨first, lines, tail, whole⟩ := map_lineText_cut c d rest
    have below := ih d fun e inRest => dense e (List.mem_cons_of_mem c inRest)
    have own : Dense c.text := dense c (by simp)
    rw [tail] at below
    rw [whole]
    intro line found
    split at found
    · rcases List.mem_cons.mp found with rfl | inLines
      · exact own.compact
      · exact below line inLines
    · rcases List.mem_cons.mp found with rfl | inLines
      · apply (below first (by simp)).prepend own
        unfold Cell.space
        split
        · exact Or.inr rfl
        · exact Or.inl rfl
      · exact below line (List.mem_cons_of_mem first inLines)

theorem dense_cells (before : Option Piece) {found : List (Item × Role)}
    (sound : Sound (found.map Prod.fst)) (marked : Marked found) :
    ∀ c ∈ cells before found, Dense c.text := by
  induction found generalizing before with
  | nil => simp [cells]
  | cons first rest ih =>
    obtain ⟨i, role⟩ := first
    intro c inCells
    rcases List.mem_cons.mp inCells with rfl | inRest
    · change Dense (written role i.piece)
      rw [marked.written_eq]
      apply Piece.dense_text
      · exact proper_respell (sound.proper i (by simp)) (marked i role (by simp))
      · exact (blank_respell role i.piece).trans (sound.visible i (by simp))
    · exact ih (some i.piece) sound.tail marked.tail c inRest

theorem compact_lines (t : Text) : ∀ line ∈ lines (pieces t), Compact line := by
  have sound := sound_items false (cut_pieces t)
  rw [← map_fst_ranked (items false (pieces t))] at sound
  have dense := dense_cells none sound (marked_ranked _)
  change ∀ line ∈ (cut (cells none (ranked (items false (pieces t))))).map lineText, Compact line
  cases shape : cells none (ranked (items false (pieces t))) with
  | nil => simp [cut]
  | cons c rest =>
    rw [shape] at dense
    exact compact_cut c dense

theorem exists_indent (line : Text) : ∃ n, indented line = List.replicate n ' ' ++ line := by
  unfold indented
  split
  · exact ⟨2, rfl⟩
  · exact ⟨0, rfl⟩

private theorem newline_not_mem_indented {line : Text} (absent : '\n' ∉ line) :
    '\n' ∉ indented line := by
  unfold indented
  split
  · simpa using absent
  · exact absent

theorem splitAt_render {first : Text} {rest : List Text} (absent : '\n' ∉ first)
    (absent' : ∀ line ∈ rest, '\n' ∉ line) :
    splitAt '\n' (render (first :: rest)) = first :: rest.map indented := by
  induction rest generalizing first with
  | nil =>
    have only : render [first] = first := by simp [render]
    rw [only, splitAt_of_not_mem absent]
    rfl
  | cons line rest ih =>
    have below : render (first :: line :: rest) =
        first ++ '\n' :: render (indented line :: rest) := by
      simp [render]
    have next : '\n' ∉ indented line := newline_not_mem_indented (absent' line (by simp))
    rw [below, splitAt_append absent,
      ih next fun other inRest => absent' other (List.mem_cons_of_mem line inRest)]
    rfl

end Layout

/-- A formatted query with anything in it consists of compact lines, those below the first one with
their indents. -/
theorem exists_lines_format {d : Dictionary} {t : Text} (some : format d t ≠ []) :
    ∃ (first : Text) (rest : List Text), Compact first ∧ (∀ line ∈ rest, Compact line) ∧
      splitAt '\n' (format d t) = first :: rest.map indented := by
  have compact := compact_lines (d.correctText t)
  have text : format d t = render (Layout.lines (pieces (d.correctText t))) := rfl
  rw [text] at some ⊢
  cases shape : Layout.lines (pieces (d.correctText t)) with
  | nil =>
    rw [shape] at some
    exact absurd rfl some
  | cons first rest =>
    rw [shape] at compact
    have below : ∀ line ∈ rest, Compact line :=
      fun line inRest => compact line (List.mem_cons_of_mem first inRest)
    refine ⟨first, rest, compact first (by simp), below, ?_⟩
    apply splitAt_render (compact first (by simp)).newline_not_mem
    intro line inRest
    exact (below line inRest).newline_not_mem

end QueryTidy
