import QueryTidy.Proofs.Placement
import QueryTidy.Proofs.Text.Search

/-!
Rows of words, which stand after each other with nothing but blanks between them. Formatting writes
a row of words as a row of as many words, with corrections that are single words and with other
blanks: a line may begin before a word that can begin a phrase, and before any other word stands
one space.
-/

set_option autoImplicit false
set_option relaxedAutoImplicit false

namespace QueryTidy

open Text Layout

namespace Text

def rowText (row : List (Text × Text)) : Text :=
  row.flatMap fun x => x.1 ++ x.2

def IsRow (row : List (Text × Text)) : Prop :=
  ∀ x ∈ row, IsGap x.1 ∧ IsWord x.2

theorem IsRow.cons {gap w : Text} {row : List (Text × Text)} (isGap : IsGap gap) (word : IsWord w)
    (isRow : IsRow row) : IsRow ((gap, w) :: row) := by
  intro x inRow
  rcases List.mem_cons.mp inRow with rfl | inRest
  · exact ⟨isGap, word⟩
  · exact isRow x inRest

theorem IsRow.breaks {row : List (Text × Text)} (isRow : IsRow row) {rest : Text}
    (ended : Breaks rest) : Breaks (rowText row ++ rest) := by
  cases row with
  | nil => exact ended
  | cons x row =>
    rw [rowText, List.flatMap_cons, List.append_assoc, List.append_assoc]
    exact (isRow x (by simp)).1.breaks _

theorem exists_occurs_of_breaks {w : Text} (word : IsWord w) (a : Text) {b : Text}
    (breaks : Breaks b) :
    ∃ a' x, a = a' ++ x ∧ Occurs (a ++ (w ++ b)) a' (.word (x ++ w)) b := by
  obtain ⟨a', x, rfl, inX, left⟩ := exists_trailing isWordChar a
  refine ⟨a', x, rfl, by simp [Piece.text], ⟨by simp [word.1], ?_⟩, fun _ => left, fun _ => breaks⟩
  intro c inRun
  exact (List.mem_append.mp inRun).elim (inX c) (word.2 c)

theorem IsWord.append {w y : Text} (word : IsWord w) (all : ∀ c ∈ y, isWordChar c) :
    IsWord (w ++ y) :=
  ⟨by simp [word.1], fun c inRun => (List.mem_append.mp inRun).elim (word.2 c) (all c)⟩

theorem exists_piece_of_occursIn {phrase t : Text} (capitals : phrase.all isPlainCapital)
    (some : phrase ≠ []) (found : occursIn phrase t) :
    ∃ w, .word w ∈ pieces t ∧ occursIn phrase w := by
  obtain ⟨a, s, b, same, rfl⟩ := occursIn_iff.mp found
  obtain ⟨y, b, rfl, inY, breaks⟩ := exists_leading isWordChar b
  have word := (isWord_of_sameWord capitals some same).append inY
  obtain ⟨a', x, -, occurs⟩ := exists_occurs_of_breaks word a breaks
  rw [← List.append_assoc s, occurs.pieces_eq]
  exact ⟨x ++ (s ++ y), by simp, occursIn_iff.mpr ⟨x, s, y, same, rfl⟩⟩

end Text

namespace Layout

theorem items_row {row : List (Text × Text)} (isRow : IsRow row) {rest : Text}
    (ended : Breaks rest) (gap : Bool) :
    ∃ more, items gap (pieces (rowText row ++ rest)) =
      (row.map fun x => ⟨.word x.2, true⟩) ++ more := by
  induction row generalizing gap with
  | nil => exact ⟨_, rfl⟩
  | cons x row ih =>
    obtain ⟨isGap, isWord⟩ := isRow x (by simp)
    have isRow' : IsRow row := fun y inRest => isRow y (List.mem_cons_of_mem x inRest)
    obtain ⟨more, inRow⟩ := ih isRow' false
    have split : rowText (x :: row) ++ rest = x.1 ++ (x.2 ++ (rowText row ++ rest)) := by
      simp [rowText]
    have cut : pieces (x.2 ++ (rowText row ++ rest)) = .word x.2 :: pieces (rowText row ++ rest) :=
      pieces_piece_append (p := .word x.2) isWord fun _ => isRow'.breaks ended
    have blank : (!x.1.isEmpty) = true := by simpa using isGap.1
    refine ⟨more, ?_⟩
    rw [split, pieces_blank_append isGap.2, items_blank gap isGap.2, cut, blank, Bool.or_true,
      items_visible true rfl, inRow]
    rfl

private theorem isGap_separator (v w : Text) (role : Role) (t : Text) :
    IsGap (separator (some (.word v)) role ⟨.word w, true⟩ t) ∧
      (role ≠ .lead → separator (some (.word v)) role ⟨.word w, true⟩ t = [' ']) := by
  refine ⟨⟨?_, isBlank_separator _ _ _ _⟩, ?_⟩
  · simp only [separator, spacedAfter]
    split <;> simp
  · intro notLead
    simp [separator, startsLine, spacedAfter, notLead]

theorem laid_row (v : Text) {row rest : List (Item × Role)}
    (words : ∀ x ∈ row, ∃ w, x.1 = ⟨.word w, true⟩) :
    ∃ row' after, laid (some (.word v)) (row ++ rest) = rowText row' ++ after ∧
      List.Forall₂ (fun x x' => IsGap x'.1 ∧ (x.2 ≠ .lead → x'.1 = [' ']) ∧
        x'.2 = written x.2 x.1.piece) row row' := by
  induction row generalizing v with
  | nil => exact ⟨[], laid (some (.word v)) rest, rfl, .nil⟩
  | cons x row ih =>
    obtain ⟨i, role⟩ := x
    obtain ⟨w, rfl⟩ : ∃ w, i = ⟨.word w, true⟩ := words (i, role) (by simp)
    have words' : ∀ y ∈ row, ∃ w, y.1 = ⟨.word w, true⟩ :=
      fun y inRest => words y (List.mem_cons_of_mem _ inRest)
    obtain ⟨row', after, text, related⟩ := ih w words'
    let below := written role (.word w) ++ laid (some (.word w)) (row ++ rest)
    let gap := separator (some (.word v)) role ⟨.word w, true⟩ below
    obtain ⟨isGap, space⟩ := isGap_separator v w role below
    refine ⟨(gap, written role (.word w)) :: row', after, ?_, .cons ⟨isGap, space, rfl⟩ related⟩
    change gap ++ (written role (.word w) ++ laid (some (.word w)) (row ++ rest)) = _
    rw [text]
    simp [rowText]

end Layout

namespace Dictionary

def WordForWord (d : Dictionary) : Prop :=
  ∀ w, IsWord w → IsWord (d.correctPiece (.word w))

theorem wordForWord_of_entries {d : Dictionary} (single : ∀ entry ∈ d.entries, IsWord entry.2) :
    d.WordForWord := by
  intro w word
  cases known : d.correct? w with
  | none => rwa [correctPiece_of_none known]
  | some v =>
    rw [correctPiece_of_some known]
    exact single _ (mem_of_lookup known)

theorem builtin_wordForWord : builtin.WordForWord :=
  wordForWord_of_entries (by decide +kernel)

theorem WordForWord.formatItems_eq {d : Dictionary} (single : d.WordForWord) (t : Text) :
    formatItems d t = (items false (pieces t)).map (Item.rewrite d.respelled) := by
  rw [formatItems, pieces_correctText_of_words, items_map_respelled]
  intro run inText
  exact single run ((cut_pieces t).proper _ inText)

def Respelt (d : Dictionary) (w w' : Text) : Prop :=
  IsWord w' ∧ w'.map foldChar = (d.correctPiece (.word w)).map foldChar

/-- How a word of a row may be written: by its correction, after blanks, and after one space if no
phrase begins with it. -/
structure Typeset (d : Dictionary) (x x' : Text × Text) : Prop where
  gap : IsGap x'.1
  word : d.Respelt x.2 x'.2
  space : starters.holds (d.respelled (.word x.2)) = false → x'.1 = [' ']

theorem respelt_of_mem_ranked {d : Dictionary} {t w : Text} {i : Item} {role : Role}
    (found : (i, role) ∈ ranked (formatItems d t)) (piece : i.piece = d.respelled (.word w)) :
    d.Respelt w (written role i.piece) ∧ respell role i.piece = .word (written role i.piece) := by
  have proper : (respell role i.piece).Proper :=
    proper_respell ((cut_pieces _).proper _ (mem_pieces_of_mem_ranked found))
      (holds_of_mem_ranked found)
  have text : written role i.piece = (respell role i.piece).text :=
    written_eq_text role fun _ => ⟨_, piece⟩
  have folded := fold_respell role i.piece
  rw [text]
  cases word : respell role i.piece with
  | other c =>
    rw [word, piece] at folded
    simp [respelled] at folded
  | word run =>
    rw [word] at proper folded
    rw [piece] at folded
    exact ⟨⟨proper, by simpa [respelled, Piece.text] using folded⟩, rfl⟩

end Dictionary

theorem starters_of_mem_ranked {is : List Item} {i : Item} {role : Role}
    (found : (i, role) ∈ ranked is) : role = .lead → starters.holds i.piece :=
  related_of_mem_ranked (forall₂_starters_roles 0 _) found

private theorem ranked_row {d : Dictionary} (single : d.WordForWord) {t before run rest : Text}
    {row : List (Text × Text)} (isRow : IsRow row) (ended : Breaks rest)
    (occurs : Occurs t before (.word run) (rowText row ++ rest)) :
    ∃ front i role ranks more,
      ranked (formatItems d t) = front ++ (i, role) :: (ranks ++ more) ∧
      front.map Prod.fst = (items false (pieces before)).map (Item.rewrite d.respelled) ∧
      i.piece = d.respelled (.word run) ∧
      ranks.map Prod.fst = row.map fun x => ⟨d.respelled (.word x.2), true⟩ := by
  obtain ⟨more, inRow⟩ := items_row isRow ended false
  have shape : (ranked (formatItems d t)).map Prod.fst =
      (items false (pieces before)).map (Item.rewrite d.respelled) ++
        ⟨d.respelled (.word run), gapAfter false (pieces before)⟩ ::
          ((row.map fun x => ⟨d.respelled (.word x.2), true⟩) ++
            more.map (Item.rewrite d.respelled)) := by
    rw [map_fst_ranked, single.formatItems_eq, occurs.pieces_eq, items_append,
      items_visible _ rfl, inRow]
    simp [Item.rewrite]
  obtain ⟨front, found, split, inFront, inFound⟩ := List.map_eq_append_iff.mp shape
  obtain ⟨⟨i, role⟩, found, rfl, isRun, inFound⟩ := List.map_eq_cons_iff.mp inFound
  obtain ⟨ranks, more', rfl, inRanks, -⟩ := List.map_eq_append_iff.mp inFound
  exact ⟨front, i, role, ranks, more', split, inFront, congrArg Item.piece isRun, inRanks⟩

private theorem typeset_row {d : Dictionary} {t : Text} {row row' : List (Text × Text)}
    {ranks : List (Item × Role)} (found : ∀ x ∈ ranks, x ∈ ranked (formatItems d t))
    (given : ranks.map Prod.fst = row.map fun x => ⟨d.respelled (.word x.2), true⟩)
    (related : List.Forall₂ (fun x x' => IsGap x'.1 ∧ (x.2 ≠ .lead → x'.1 = [' ']) ∧
      x'.2 = written x.2 x.1.piece) ranks row') :
    List.Forall₂ d.Typeset row row' := by
  induction related generalizing row with
  | nil =>
    obtain rfl : row = [] := by simpa using given.symm
    exact .nil
  | @cons x x' ranks row' first _ ih =>
    obtain ⟨i, role⟩ := x
    obtain ⟨⟨gap, word⟩, row, rfl, isItem, given⟩ := List.map_eq_cons_iff.mp given.symm
    obtain ⟨isGap, space, spelt⟩ := first
    have here : (i, role) ∈ ranked (formatItems d t) := found _ (by simp)
    have piece : i.piece = d.respelled (.word word) := congrArg Item.piece isItem.symm
    have found' : ∀ y ∈ ranks, y ∈ ranked (formatItems d t) :=
      fun y inRest => found y (List.mem_cons_of_mem _ inRest)
    refine .cons ⟨isGap, ?_, ?_⟩ (ih found' given.symm)
    · rw [spelt]
      exact (Dictionary.respelt_of_mem_ranked here piece).1
    · intro notStarter
      apply space
      intro lead
      have starter := starters_of_mem_ranked here lead
      rw [piece, notStarter] at starter
      contradiction

private theorem respelt_front {d : Dictionary} {t before : Text} {front rest : List (Item × Role)}
    (split : ranked (formatItems d t) = front ++ rest)
    (inFront : front.map Prod.fst = (items false (pieces before)).map (Item.rewrite d.respelled))
    {w : Text} (inBefore : .word w ∈ pieces before) :
    ∃ w', .word w' ∈ (front.map fun x => respell x.2 x.1.piece) ∧ d.Respelt w w' := by
  have inTokens : .word w ∈ (items false (pieces before)).map Item.piece := by
    rw [map_piece_items]
    exact List.mem_filter.mpr ⟨inBefore, rfl⟩
  obtain ⟨j, inItems, piece⟩ := List.mem_map.mp inTokens
  have rewritten : j.rewrite d.respelled ∈ front.map Prod.fst := by
    rw [inFront]
    exact List.mem_map_of_mem inItems
  obtain ⟨⟨i, role⟩, here, same⟩ := List.mem_map.mp rewritten
  have piece' : i.piece = d.respelled (.word w) := by
    rw [show i = _ from same, Item.rewrite, piece]
  have found : (i, role) ∈ ranked (formatItems d t) := by
    rw [split]
    exact List.mem_append_left _ here
  obtain ⟨respelt, written⟩ := Dictionary.respelt_of_mem_ranked found piece'
  exact ⟨_, written ▸ List.mem_map.mpr ⟨(i, role), here, rfl⟩, respelt⟩

/-- Formatting keeps a row of words after a word. -/
theorem format_row {d : Dictionary} (single : d.WordForWord) {t before run rest : Text}
    {row : List (Text × Text)} (isRow : IsRow row) (ended : Breaks rest)
    (occurs : Occurs t before (.word run) (rowText row ++ rest)) :
    ∃ before' run' row' rest', format d t = before' ++ (run' ++ (rowText row' ++ rest')) ∧
      d.Respelt run run' ∧
      List.Forall₂ d.Typeset row row' ∧
      ∀ w, .word w ∈ pieces before → ∃ w', .word w' ∈ pieces before' ∧ d.Respelt w w' := by
  obtain ⟨front, i, role, ranks, more, split, inFront, isRun, inRanks⟩ :=
    ranked_row single isRow ended occurs
  have words : ∀ x ∈ ranks, ∃ w, x.1 = ⟨.word w, true⟩ := by
    intro x inRank
    have inItems : x.1 ∈ ranks.map Prod.fst := List.mem_map_of_mem inRank
    rw [inRanks] at inItems
    obtain ⟨y, -, same⟩ := List.mem_map.mp inItems
    exact ⟨_, same.symm⟩
  have found : ∀ x ∈ (i, role) :: ranks, x ∈ ranked (formatItems d t) := by
    intro x inRank
    rw [split, ← List.cons_append]
    exact List.mem_append_right _ (List.mem_append_left _ inRank)
  obtain ⟨row', rest', laidRow, related⟩ := laid_row (d.correctPiece (.word run)) words
  obtain ⟨u, text, -, inU, -⟩ := format_split split
  have laidRun : laid (some i.piece) (ranks ++ more) = rowText row' ++ rest' := by
    rw [isRun]
    exact laidRow
  rw [laid, laidRun, ← List.append_assoc] at text
  refine ⟨_, _, row', rest', text, ?_, ?_, ?_⟩
  · exact (Dictionary.respelt_of_mem_ranked (found _ (by simp)) isRun).1
  · exact typeset_row (fun x inRank => found x (List.mem_cons_of_mem _ inRank)) inRanks related
  · intro w inBefore
    obtain ⟨w', inFront', respelt⟩ := respelt_front split inFront inBefore
    rw [← inU] at inFront'
    refine ⟨w', ?_, respelt⟩
    rw [pieces_append_blank u (isBlank_separator _ _ _ _)]
    exact List.mem_append_left _ (List.mem_of_mem_filter inFront')

namespace Dictionary

/-- Whether no misspelling holds a phrase. -/
def Foreign (d : Dictionary) (phrase : Text) : Prop :=
  phrase ≠ [] ∧ phrase.all isPlainCapital ∧ ∀ entry ∈ d.entries, ¬ phrase <:+: entry.1

instance (d : Dictionary) (phrase : Text) : Decidable (d.Foreign phrase) :=
  inferInstanceAs (Decidable (_ ∧ _ ∧ _))

theorem keeps_of_unlisted {d : Dictionary} {run : Text}
    (unlisted : ∀ entry ∈ d.entries, entry.1 ≠ upper run) : d.Keeps run := by
  apply correctPiece_of_none
  rw [correct?, Option.eq_none_iff_forall_ne_some]
  intro v known
  exact unlisted _ (mem_of_lookup known) rfl

theorem Foreign.keeps {d : Dictionary} {phrase run : Text} (foreign : d.Foreign phrase)
    (found : occursIn phrase run) : d.Keeps run := by
  obtain ⟨a, s, b, same, rfl⟩ := occursIn_iff.mp found
  apply keeps_of_unlisted
  intro entry listed spelt
  refine foreign.2.2 entry listed ⟨upper a, upper b, ?_⟩
  rw [spelt, ← upper_of_sameWord foreign.2.1 same]
  simp [upper]

theorem Keeps.respelt {d : Dictionary} {w w' : Text} (keeps : d.Keeps w)
    (respelt : d.Respelt w w') : w'.map foldChar = w.map foldChar :=
  respelt.2.trans (congrArg (List.map foldChar) keeps)

end Dictionary

theorem format_row_of_foreign {d : Dictionary} (single : d.WordForWord) {phrase : Text}
    (foreign : d.Foreign phrase) {s : Text} (same : sameWord phrase s) (a : Text)
    {row : List (Text × Text)} (isRow : IsRow row) {rest : Text} (ended : Breaks rest) :
    ∃ a' s' row' rest',
      format d (a ++ (s ++ (rowText row ++ rest))) = a' ++ (s' ++ (rowText row' ++ rest')) ∧
      sameWord phrase s' ∧
      List.Forall₂ d.Typeset row row' ∧
      ∀ phrase', d.Foreign phrase' → occursIn phrase' a → occursIn phrase' a' := by
  have word : IsWord s := isWord_of_sameWord foreign.2.1 foreign.1 same
  obtain ⟨before, x, rfl, occurs⟩ := exists_occurs_of_breaks word a (isRow.breaks ended)
  obtain ⟨before', run', row', rest', text, respelt, related, kept⟩ :=
    format_row single isRow ended occurs
  have whole := (foreign.keeps (occursIn_iff.mpr ⟨x, s, [], same, by simp⟩)).respelt respelt
  rw [List.map_append] at whole
  obtain ⟨x', s', rfl, inX, inS⟩ := List.map_eq_append_iff.mp whole
  refine ⟨before' ++ x', s', row', rest', by simpa using text, ?_, related, ?_⟩
  · exact sameWord_iff.mpr (inS.trans (sameWord_iff.mp same))
  · intro phrase' foreign' found
    obtain ⟨w, inText, inWord⟩ := exists_piece_of_occursIn foreign'.2.1 foreign'.1 found
    have left : ∀ c ∈ before.getLast?, isWordChar c = false := occurs.left (by simp [Piece.word?])
    rw [pieces_append_of_ends left] at inText
    rcases List.mem_append.mp inText with inBefore | inX'
    · obtain ⟨w', inBefore', respelt'⟩ := kept w inBefore
      obtain ⟨b, c, rfl⟩ := exists_append_of_mem_pieces inBefore'
      have folded := (foreign'.keeps inWord).respelt respelt'
      have inWord' := occursIn_of_map_foldChar folded.symm inWord
      simpa using occursIn_within inWord' b (c ++ x')
    · obtain ⟨b, c, rfl⟩ := exists_append_of_mem_pieces inX'
      have inX'' := occursIn_of_map_foldChar inX.symm (occursIn_within inWord b c)
      simpa using occursIn_within inX'' before' []

end QueryTidy
