import QueryTidy.Proofs.Layout.Phrases
import QueryTidy.Proofs.Layout.Rendering

/-!
The text of a layout, piece by piece. What stands before a piece is decided by the piece, the piece
before it and, for the indent, by what begins there. So a layout is cut into its pieces where they
were written, and every piece stands in it after the blanks that belong to it.
-/

set_option autoImplicit false
set_option relaxedAutoImplicit false

namespace QueryTidy.Layout

open Text

def indent (t : Text) : Text :=
  if isLogical t then [' ', ' '] else []

/-- The blanks before an item, given the piece before and the text from the item on. -/
def separator (before : Option Piece) (role : Role) (i : Item) (t : Text) : Text :=
  match before with
  | none => []
  | some p =>
    if startsLine role (some p) i.piece then '\n' :: indent t
    else if spacedAfter (some p) i then [' '] else []

/-- The text in which items are laid out, after a piece that may precede them. -/
def laid (before : Option Piece) : List (Item × Role) → Text
  | [] => []
  | (i, role) :: rest =>
    separator before role i (written role i.piece ++ laid (some i.piece) rest) ++
      (written role i.piece ++ laid (some i.piece) rest)

private theorem isLogical_append {line t : Text} (ended : ∀ c ∈ t.head?, c = '\n') :
    isLogical (line ++ t) = isLogical line := by
  have stop : t.takeWhile (fun c => isAlphanumeric c || c == '_') = [] := by
    cases t with
    | nil => rfl
    | cons c t =>
      have newline : c = '\n' := ended c rfl
      subst newline
      rfl
  have same : (line ++ t).takeWhile (fun c => isAlphanumeric c || c == '_') =
      line.takeWhile (fun c => isAlphanumeric c || c == '_') := by
    rw [List.takeWhile_append]
    split
    · rename_i whole
      rw [stop, List.append_nil, ( List.takeWhile_prefix _).eq_of_length whole]
    · rfl
  simp only [isLogical, same]

private theorem indented_eq (line : Text) : indented line = indent line ++ line := by
  unfold indented indent
  split <;> rfl

private theorem render_cut (c : Cell) (p : Piece) (rest : List (Item × Role)) :
    render ((cut (c :: cells (some p) rest)).map lineText) = c.text ++ laid (some p) rest := by
  induction rest generalizing c p with
  | nil => simp [cells, cut, lineText, render, laid]
  | cons first rest ih =>
    obtain ⟨i, role⟩ := first
    let d : Cell := ⟨written role i.piece, startsLine role (some p) i.piece, spacedAfter (some p) i⟩
    obtain ⟨line, lines, tail, all⟩ := map_lineText_cut c d (cells (some i.piece) rest)
    have whole := ih d i.piece
    rw [tail] at whole
    change render ((cut (c :: d :: cells (some i.piece) rest)).map lineText) = _
    rw [all]
    let below := lines.flatMap fun l => '\n' :: indented l
    have ended : ∀ e ∈ below.head?, e = '\n' := by
      cases lines with
      | nil => simp [below]
      | cons l lines => simp [below]
    have text : d.text ++ laid (some i.piece) rest = line ++ below := whole.symm
    change _ = c.text ++ (separator (some p) role i (d.text ++ laid (some i.piece) rest) ++
      (d.text ++ laid (some i.piece) rest))
    rw [text]
    cases starts : startsLine role (some p) i.piece with
    | true =>
      have starts' : d.starts = true := starts
      have first : indented line = indent (line ++ below) ++ line := by
        rw [indented_eq, indent, indent, isLogical_append ended]
      have lines' : render (c.text :: line :: lines) =
          c.text ++ '\n' :: (indented line ++ below) := rfl
      simp [separator, starts, starts', lines', first]
    | false =>
      have starts' : d.starts = false := starts
      have space : d.space = if spacedAfter (some p) i then [' '] else [] := rfl
      have lines' : render ((c.text ++ (d.space ++ line)) :: lines) =
          c.text ++ (d.space ++ line) ++ below := rfl
      rw [starts', if_neg Bool.false_ne_true, lines', space]
      simp [separator, starts]

theorem render_eq_laid (found : List (Item × Role)) :
    render ((cut (cells none found)).map lineText) = laid none found := by
  cases found with
  | nil => rfl
  | cons first rest =>
    obtain ⟨i, role⟩ := first
    exact render_cut _ i.piece rest

private theorem isBlank_indent (t : Text) : ∀ c ∈ indent t, isBlank c := by
  intro c found
  unfold indent at found
  split at found
  · have space : c = ' ' := by simpa using found
    subst space
    rfl
  · simp at found

theorem isBlank_separator (before : Option Piece) (role : Role) (i : Item) (t : Text) :
    ∀ c ∈ separator before role i t, isBlank c := by
  intro c found
  unfold separator at found
  cases before with
  | none => simp at found
  | some p =>
    simp only at found
    split at found
    · rcases List.mem_cons.mp found with rfl | inIndent
      · rfl
      · exact isBlank_indent t c inIndent
    · split at found
      · rw [List.mem_singleton.mp found]
        rfl
      · simp at found

theorem Marked.written_eq {i : Item} {role : Role} {rest : List (Item × Role)}
    (marked : Marked ((i, role) :: rest)) :
    written role i.piece = (respell role i.piece).text := by
  apply written_eq_text
  intro inPhrase
  obtain ⟨run, same, -⟩ := exists_word_of_holds (marked i role (by simp) inPhrase)
  exact ⟨run, same⟩

theorem breaks_laid {i : Item} {rest : List (Item × Role)} (word : i.piece.word? ≠ none)
    (sound : Sound (i :: rest.map Prod.fst)) (marked : Marked rest) :
    Breaks (laid (some i.piece) rest) := by
  cases rest with
  | nil => simp [laid, Breaks]
  | cons next rest =>
    obtain ⟨j, role⟩ := next
    let t := written role j.piece ++ laid (some j.piece) rest
    change Breaks (separator (some i.piece) role j t ++ t)
    cases blank : separator (some i.piece) role j t with
    | cons c blank' =>
      have isBlank := isBlank_separator (some i.piece) role j t c (by simp [blank])
      simpa [Breaks] using isWordChar_of_isBlank isBlank
    | nil =>
      have unspaced : spacedAfter (some i.piece) j = false := by
        unfold separator at blank
        simp only at blank
        split at blank
        · simp at blank
        · split at blank
          · simp at blank
          · rename_i unspaced
            exact Bool.eq_false_iff.mpr unspaced
      have apart := separate_of_unspaced (sound.separate_head j rfl) unspaced
      have proper : (respell role j.piece).Proper :=
        proper_respell (sound.proper j (by simp)) (marked j role (by simp))
      have notWord : (respell role j.piece).word? = none :=
        word?_respell.mpr (apart.resolve_left word)
      have text : t = (respell role j.piece).text ++ laid (some j.piece) rest := by
        rw [← marked.written_eq]
      rw [List.nil_append, text]
      cases piece : respell role j.piece with
      | word run => simp [piece, Piece.word?] at notWord
      | other c =>
        rw [piece] at proper
        have other : isWordChar c = false := proper
        simpa [Breaks, Piece.text] using other

theorem pieces_laid_cons (before : Option Piece) {i : Item} {role : Role}
    {rest : List (Item × Role)} (sound : Sound (i :: rest.map Prod.fst))
    (marked : Marked ((i, role) :: rest)) :
    pieces (laid before ((i, role) :: rest)) =
      (separator before role i
          (written role i.piece ++ laid (some i.piece) rest)).map Piece.other ++
        respell role i.piece :: pieces (laid (some i.piece) rest) := by
  have proper : (respell role i.piece).Proper :=
    proper_respell (sound.proper i (by simp)) (marked i role (by simp))
  rw [laid, pieces_blank_append (isBlank_separator before role i _), marked.written_eq]
  rw [pieces_piece_append proper]
  intro word
  exact breaks_laid (mt word?_respell.mpr word) sound marked.tail

theorem laid_append (before : Option Piece) {front rest : List (Item × Role)}
    (sound : Sound ((front ++ rest).map Prod.fst)) (marked : Marked (front ++ rest)) :
    ∃ t, laid before (front ++ rest) =
        t ++ laid (lastOf before (front.map fun x => x.1.piece)) rest ∧
      pieces (laid before (front ++ rest)) =
        pieces t ++ pieces (laid (lastOf before (front.map fun x => x.1.piece)) rest) ∧
      tokens t = front.map fun x => respell x.2 x.1.piece := by
  -- the indents of what comes first look ahead at what follows
  induction front generalizing before with
  | nil => exact ⟨[], rfl, rfl, rfl⟩
  | cons first front ih =>
    obtain ⟨i, role⟩ := first
    rw [List.cons_append] at sound marked ⊢
    obtain ⟨t, text, cuts, written⟩ := ih (some i.piece) sound.tail marked.tail
    let p := respell role i.piece
    let blank := separator before role i
      (Layout.written role i.piece ++ laid (some i.piece) (front ++ rest))
    have isBlank := isBlank_separator before role i
      (Layout.written role i.piece ++ laid (some i.piece) (front ++ rest))
    have proper : p.Proper :=
      proper_respell (sound.proper i (by simp)) (marked i role (by simp))
    have visible : p.blank = false :=
      (blank_respell role i.piece).trans (sound.visible i (by simp))
    have breaks : p.word? ≠ none → Breaks t := by
      intro word
      have whole := breaks_laid (mt word?_respell.mpr word) sound marked.tail
      rw [text] at whole
      exact whole.left
    have cut : pieces (blank ++ (p.text ++ t)) = blank.map Piece.other ++ p :: pieces t := by
      rw [pieces_blank_append isBlank, pieces_piece_append proper breaks]
    refine ⟨blank ++ (p.text ++ t), ?_, ?_, ?_⟩
    · change blank ++ (Layout.written role i.piece ++ laid (some i.piece) (front ++ rest)) = _
      rw [marked.written_eq, text]
      simp [lastOf, p]
    · rw [cut, pieces_laid_cons before sound marked, cuts]
      simp [lastOf, p, blank]
    · rw [tokens_blank_append isBlank, tokens_piece_append proper visible breaks, written]
      rfl

private theorem isEmpty_separator (p : Piece) (role : Role) (i : Item) (t : Text) :
    (!(separator (some p) role i t).isEmpty) =
      (startsLine role (some p) i.piece || spacedAfter (some p) i) := by
  cases starts : startsLine role (some p) i.piece <;>
    cases spaced : spacedAfter (some p) i <;> simp [separator, starts, spaced]

private theorem items_laid {p : Piece} {found : List (Item × Role)}
    (sound : Sound (found.map Prod.fst)) (marked : Marked found) :
    items false (pieces (laid (some p) found)) = relaid (some p) found := by
  induction found generalizing p with
  | nil => rfl
  | cons first rest ih =>
    obtain ⟨i, role⟩ := first
    have visible : (respell role i.piece).blank = false :=
      (blank_respell role i.piece).trans (sound.visible i (by simp))
    rw [pieces_laid_cons (some p) sound marked, items_blank _ (isBlank_separator _ _ _ _),
      items_visible _ visible, ih sound.tail marked.tail, isEmpty_separator]
    rfl

/-- Reading a layout gives back the items that were laid out, as they were written. -/
theorem items_render {is : List Item} (sound : Sound is) :
    items false (pieces (render ((cut (cells none (ranked is))).map lineText))) =
      opening (relaid none (ranked is)) := by
  have marked := marked_ranked is
  rw [← map_fst_ranked is] at sound
  rw [render_eq_laid]
  cases shape : ranked is with
  | nil => rfl
  | cons first rest =>
    obtain ⟨i, role⟩ := first
    rw [shape] at sound marked
    have visible : (respell role i.piece).blank = false :=
      (blank_respell role i.piece).trans (sound.visible i (by simp))
    rw [pieces_laid_cons none sound marked]
    change items false (respell role i.piece :: _) = _
    rw [items_visible _ visible, items_laid sound.tail marked.tail]
    rfl

end QueryTidy.Layout
