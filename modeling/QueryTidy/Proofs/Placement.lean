import QueryTidy.Proofs.Formatting

/-!
Where a piece of a formatted query stands. A piece that is found in the text belongs to one item of
the layout, which decides what stands right before it; and the words of a phrase stand together,
with one space between them, at the start of a line.
-/

set_option autoImplicit false
set_option relaxedAutoImplicit false

namespace QueryTidy

open Text Layout

namespace Text

/-- Whether a piece stands in a text between two others, and not as a part of a longer word. -/
structure Occurs (t before : Text) (p : Piece) (after : Text) : Prop where
  text : t = before ++ (p.text ++ after)
  proper : p.Proper
  left : p.word? ≠ none → ∀ c ∈ before.getLast?, isWordChar c = false
  right : p.word? ≠ none → Breaks after

theorem Occurs.pieces_eq {t before after : Text} {p : Piece} (occurs : Occurs t before p after) :
    pieces t = pieces before ++ p :: pieces after := by
  rw [occurs.text]
  cases p with
  | word run =>
    have isWord : (Piece.word run).word? ≠ none := by simp [Piece.word?]
    rw [pieces_append_of_ends (occurs.left isWord), pieces_piece_append occurs.proper occurs.right]
  | other c =>
    have other : isWordChar c = false := occurs.proper
    have breaks : Breaks ((Piece.other c).text ++ after) := by
      simpa [Breaks, Piece.text] using other
    rw [pieces_append before breaks, pieces_piece_append occurs.proper occurs.right]

theorem occurs_of_pieces_eq {t w : Text} {ps qs : List Piece}
    (cut : pieces t = ps ++ .word w :: qs) :
    Occurs t (ps.flatMap Piece.text) (.word w) (qs.flatMap Piece.text) := by
  have whole : Cut (ps ++ .word w :: qs) := cut ▸ cut_pieces t
  obtain ⟨-, rest, apart⟩ := List.isChain_append.mp whole.separate
  have behind : Cut (.word w :: qs) :=
    ⟨fun p inRest => whole.proper p (List.mem_append_right ps inRest), rest⟩
  refine ⟨?_, behind.proper _ (by simp), fun _ c last => ?_, fun _ => behind.breaks fun _ => rfl⟩
  · rw [← text_pieces t, cut, List.flatMap_append, List.flatMap_cons]
  · rcases List.eq_nil_or_concat ps with rfl | ⟨front, p, rfl⟩
    · simp at last
    · -- the piece right before a word is no word
      rw [List.concat_eq_append] at apart last whole
      have other : p.word? = none :=
        (apart p (by simp) (.word w) rfl).resolve_right (by simp [Piece.word?])
      cases p with
      | word run => simp [Piece.word?] at other
      | other e =>
        obtain rfl : e = c := by simpa [Piece.text] using last
        exact whole.proper (.other e) (by simp)

theorem Occurs.tokens_eq {t before after : Text} {p : Piece} (occurs : Occurs t before p after)
    (visible : p.blank = false) : tokens t = tokens before ++ p :: tokens after := by
  simp [tokens, occurs.pieces_eq, visible]

theorem append_cons_unique {ps ps' qs qs' : List Piece} {p p' : Piece}
    (same : ps ++ p :: qs = ps' ++ p' :: qs') (visible : p.blank = false)
    (visible' : p'.blank = false)
    (count : (ps.filter fun p => !p.blank).length = (ps'.filter fun p => !p.blank).length) :
    ps = ps' ∧ p = p' ∧ qs = qs' := by
  induction ps generalizing ps' with
  | nil =>
    cases ps' with
    | nil => simpa using same
    | cons q ps' =>
      obtain ⟨rfl, -⟩ := List.cons.inj same
      simp [visible] at count
  | cons q ps ih =>
    cases ps' with
    | nil =>
      obtain ⟨rfl, -⟩ := List.cons.inj same
      simp [visible'] at count
    | cons q' ps' =>
      obtain ⟨rfl, rest⟩ := List.cons.inj same
      have count' : (ps.filter fun p => !p.blank).length =
          (ps'.filter fun p => !p.blank).length := by
        cases blank : q.blank <;> simpa [blank] using count
      obtain ⟨rfl, found⟩ := ih rest count'
      exact ⟨rfl, found⟩

theorem Occurs.unique {t before before' after after' : Text} {p p' : Piece}
    (occurs : Occurs t before p after) (occurs' : Occurs t before' p' after')
    (visible : p.blank = false) (visible' : p'.blank = false)
    (count : (tokens before).length = (tokens before').length) :
    before = before' ∧ p = p' ∧ after = after' := by
  have same := occurs.pieces_eq.symm.trans occurs'.pieces_eq
  obtain ⟨front, piece, rest⟩ := append_cons_unique same visible visible' count
  exact ⟨pieces_injective front, piece, pieces_injective rest⟩

theorem occurs_other {t before after : Text} {c : Char} (text : t = before ++ c :: after)
    (other : isWordChar c = false) : Occurs t before (.other c) after :=
  ⟨text, other, by simp [Piece.word?], by simp [Piece.word?]⟩

def EndsLine (t : Text) : Prop :=
  t = [] ∨ ∃ above, t = above ++ ['\n']

/-- Whether nothing but the leading spaces of a line stands between its start and the end of a
text. -/
def Leads (t : Text) : Prop :=
  ∃ above n, EndsLine above ∧ t = above ++ List.replicate n ' '

theorem Leads.ends {t : Text} (leads : Leads t) : ∀ c ∈ t.getLast?, isWordChar c = false := by
  obtain ⟨above, n, line, rfl⟩ := leads
  intro c last
  cases n with
  | zero =>
    rcases line with rfl | ⟨above, rfl⟩
    · simp at last
    · obtain rfl : '\n' = c := by simpa using last
      rfl
  | succ n =>
    obtain rfl : ' ' = c := by simpa [List.replicate_succ', ← List.append_assoc] using last
    rfl

end Text

theorem format_eq_laid (d : Dictionary) (t : Text) :
    format d t = laid none (ranked (formatItems d t)) :=
  (format_eq d t).trans (render_eq_laid _)

theorem sound_ranked (d : Dictionary) (t : Text) :
    Sound ((ranked (formatItems d t)).map Prod.fst) := by
  rw [map_fst_ranked]
  exact sound_items false (cut_pieces _)

theorem format_split {d : Dictionary} {t : Text} {front rest : List (Item × Role)}
    (shape : ranked (formatItems d t) = front ++ rest) :
    ∃ u, format d t = u ++ laid (lastOf none (front.map fun x => x.1.piece)) rest ∧
      pieces (format d t) =
        pieces u ++ pieces (laid (lastOf none (front.map fun x => x.1.piece)) rest) ∧
      tokens u = (front.map fun x => respell x.2 x.1.piece) ∧ (front = [] → u = []) := by
  rw [format_eq_laid, shape]
  cases front with
  | nil => exact ⟨[], rfl, rfl, rfl, fun _ => rfl⟩
  | cons first front =>
    have sound := sound_ranked d t
    have marked := marked_ranked (formatItems d t)
    rw [shape] at sound marked
    obtain ⟨u, text, cuts, written⟩ := laid_append none sound marked
    exact ⟨u, text, cuts, written, by simp⟩

/-- Every piece in a formatted query belongs to an item of the layout and stands after the blanks
of this item. -/
theorem format_locate {d : Dictionary} {t before after : Text} {p : Piece}
    (occurs : Occurs (format d t) before p after) (visible : p.blank = false) :
    ∃ front i role rest, ranked (formatItems d t) = front ++ (i, role) :: rest ∧
      respell role i.piece = p ∧ after = laid (some i.piece) rest ∧
      ∃ u, (front = [] → u = []) ∧ before =
        u ++ separator (lastOf none (front.map fun x => x.1.piece)) role i (p.text ++ after) := by
  have tokens' := occurs.tokens_eq visible
  rw [tokens_format, List.map_eq_append_iff] at tokens'
  obtain ⟨front, found, shape, inFront, inFound⟩ := tokens'
  obtain ⟨⟨i, role⟩, rest, rfl, written, -⟩ := List.map_eq_cons_iff.mp inFound
  obtain ⟨u, -, cuts, inU, first⟩ := format_split shape
  have sound := sound_ranked d t
  have marked := marked_ranked (formatItems d t)
  rw [shape] at sound marked
  rw [List.map_append] at sound
  rw [pieces_laid_cons _ sound.right marked.right, occurs.pieces_eq, written,
    ← List.append_assoc] at cuts
  -- the item is found at the place of the piece because as many tokens come before
  have count : ((pieces before).filter fun p => !p.blank).length =
      ((pieces u ++ (separator (lastOf none (front.map fun x => x.1.piece)) role i
        (Layout.written role i.piece ++ laid (some i.piece) rest)).map Piece.other).filter
          fun p => !p.blank).length := by
    rw [List.filter_append, filter_map_other (isBlank_separator _ _ _ _), List.append_nil]
    change (tokens before).length = (tokens u).length
    rw [← inFront, inU]
  obtain ⟨left, -, right⟩ := append_cons_unique cuts visible visible count
  have after' : after = laid (some i.piece) rest := pieces_injective right
  rw [← pieces_append_blank u (isBlank_separator _ _ _ _)] at left
  refine ⟨front, i, role, rest, shape, written, after', u, first, ?_⟩
  rw [pieces_injective left, marked.right.written_eq, written, after']

theorem endsLine_separator {front : List (Item × Role)} {role : Role} {i : Item} {u : Text}
    (starts : ∀ p, startsLine role (some p) i.piece) (first : front = [] → u = []) (t : Text) :
    ∃ above spaces, u ++ separator (lastOf none (front.map fun x => x.1.piece)) role i t =
      above ++ spaces ∧ EndsLine above ∧ (spaces = [] ∨ spaces = indent t) := by
  cases front with
  | nil =>
    rw [first rfl]
    exact ⟨[], [], rfl, Or.inl rfl, Or.inl rfl⟩
  | cons x front =>
    obtain ⟨p, before⟩ := exists_lastOf x.1.piece (front.map fun x => x.1.piece)
    refine ⟨u ++ ['\n'], indent t, ?_, Or.inr ⟨u, rfl⟩, Or.inr rfl⟩
    change u ++ separator (lastOf (some x.1.piece) (front.map fun x => x.1.piece)) role i t = _
    rw [before, separator]
    simp [starts p]

theorem leads_separator {front : List (Item × Role)} {role : Role} {i : Item} {u : Text}
    (starts : ∀ p, startsLine role (some p) i.piece) (first : front = [] → u = []) (t : Text) :
    Leads (u ++ separator (lastOf none (front.map fun x => x.1.piece)) role i t) := by
  obtain ⟨above, spaces, text, line, all⟩ := endsLine_separator starts first t
  have count : ∃ n, spaces = List.replicate n ' ' := by
    rcases all with rfl | rfl
    · exact ⟨0, rfl⟩
    · unfold indent
      split
      · exact ⟨2, rfl⟩
      · exact ⟨0, rfl⟩
  obtain ⟨n, rfl⟩ := count
  exact ⟨above, n, line, text⟩

theorem laid_inside {i : Item} {inner rest : List (Item × Role)} (word : i.piece.word? ≠ none)
    (inside : ∀ x ∈ inner, x.2 = .inside) (sound : Sound (i :: (inner ++ rest).map Prod.fst))
    (marked : Marked (inner ++ rest)) :
    ∃ after, Breaks after ∧ laid (some i.piece) (inner ++ rest) =
      (inner.flatMap fun x => ' ' :: (respell x.2 x.1.piece).text) ++ after := by
  induction inner generalizing i with
  | nil => exact ⟨laid (some i.piece) rest, breaks_laid word sound marked, rfl⟩
  | cons x inner ih =>
    obtain ⟨j, role⟩ := x
    obtain rfl : role = .inside := inside (j, role) (by simp)
    obtain ⟨run, isWord, -⟩ := exists_word_of_holds (marked j .inside (by simp) (by simp))
    have word' : j.piece.word? ≠ none := by simp [isWord, Piece.word?]
    have inside' : ∀ x ∈ inner, x.2 = .inside :=
      fun x inRest => inside x (List.mem_cons_of_mem _ inRest)
    obtain ⟨after, breaks, text⟩ := ih word' inside' sound.tail marked.tail
    have gap : j.gap = true := by
      rw [← Bool.not_eq_false]
      intro close
      exact (sound.separate_head j rfl close).elim word word'
    have notOther : ∀ c, i.piece ≠ .other c := by
      intro c same
      simp [same, Piece.word?] at word
    have space : ∀ t, separator (some i.piece) .inside j t = [' '] := by
      intro t
      simp [separator, startsLine, spacedAfter, gap, isWord, notOther]
    refine ⟨after, breaks, ?_⟩
    rw [List.cons_append, laid, text, space, marked.written_eq]
    simp

theorem format_phrase {d : Dictionary} {t : Text} {front inner rest : List (Item × Role)}
    {i : Item} (shape : ranked (formatItems d t) = front ++ (i, .lead) :: (inner ++ rest))
    (inside : ∀ x ∈ inner, x.2 = .inside) :
    ∃ start after, Leads start ∧ Breaks after ∧
      tokens start = (front.map fun x => respell x.2 x.1.piece) ∧
      format d t = start ++ ((respell .lead i.piece).text ++
        ((inner.flatMap fun x => ' ' :: (respell x.2 x.1.piece).text) ++ after)) := by
  have sound := sound_ranked d t
  have marked := marked_ranked (formatItems d t)
  rw [shape] at sound marked
  rw [List.map_append] at sound
  obtain ⟨run, isWord, -⟩ := exists_word_of_holds (marked.right i .lead (by simp) (by simp))
  have word : i.piece.word? ≠ none := by simp [isWord, Piece.word?]
  obtain ⟨after, breaks, text⟩ := laid_inside word inside sound.right marked.right.tail
  obtain ⟨u, whole, -, inU, first⟩ := format_split shape
  rw [laid, text, marked.right.written_eq, ← List.append_assoc] at whole
  have starts : ∀ p, startsLine .lead (some p) i.piece := by simp [startsLine]
  refine ⟨_, after, leads_separator starts first _, breaks, ?_, whole⟩
  rw [tokens_append_blank u (isBlank_separator _ _ _ _), inU]

end QueryTidy
