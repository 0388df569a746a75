import QueryTidy.Proofs.Layout.Items
import QueryTidy.Proofs.Layout.Keywords

/-!
From items to lines and back to items: the same items in the same order, keywords in capitals, with
blank space before every item that begins a line or is spaced. Lines depend on the spacing of the
items inside them only, so items that differ in nothing else are laid out alike.
-/

set_option autoImplicit false
set_option relaxedAutoImplicit false

namespace QueryTidy.Layout

open Text

def Cell.space (c : Cell) : Text :=
  if c.spaced then [' '] else []

theorem map_lineText_cut (c d : Cell) (rest : List Cell) :
    ∃ line lines, (cut (d :: rest)).map lineText = line :: lines ∧
      (cut (c :: d :: rest)).map lineText =
        if d.starts then c.text :: line :: lines else (c.text ++ (d.space ++ line)) :: lines := by
  have shape : ∃ line lines, cut (d :: rest) = (d :: line) :: lines := by
    simp only [cut]
    split
    · split
      · exact ⟨_, _, rfl⟩
      · exact ⟨_, _, rfl⟩
    · exact ⟨_, _, rfl⟩
  obtain ⟨line, lines, shape⟩ := shape
  refine ⟨lineText (d :: line), lines.map lineText, by rw [shape]; rfl, ?_⟩
  have step : cut (c :: d :: rest) =
      if d.starts then [c] :: (d :: line) :: lines else (c :: d :: line) :: lines := by
    rw [cut, shape]
  rw [step]
  by_cases starts : d.starts
  · simp [starts, lineText]
  · by_cases spaced : d.spaced
    · simp [starts, lineText, Cell.space, spaced]
    · simp [starts, lineText, Cell.space, spaced]

/-- Whether two cells look the same inside a layout; spacing does not matter where a line begins. -/
structure Cell.Alike (c d : Cell) : Prop where
  text : c.text = d.text
  starts : c.starts = d.starts
  spaced : c.starts = false → c.spaced = d.spaced

theorem map_lineText_congr {c d : Cell} {cs ds : List Cell} (text : c.text = d.text)
    (alike : List.Forall₂ Cell.Alike cs ds) :
    (cut (c :: cs)).map lineText = (cut (d :: ds)).map lineText := by
  induction alike generalizing c d with
  | nil => simp [cut, lineText, text]
  | @cons c' d' cs ds same _ ih =>
    obtain ⟨line, lines, tail, whole⟩ := map_lineText_cut c c' cs
    obtain ⟨line', lines', tail', whole'⟩ := map_lineText_cut d d' ds
    rw [ih same.text, tail'] at tail
    obtain ⟨rfl, rfl⟩ := List.cons.inj tail
    rw [whole, whole', ← same.starts, text]
    by_cases starts : c'.starts
    · simp [starts]
    · have spaced := same.spaced (Bool.eq_false_iff.mpr starts)
      simp [starts, Cell.space, spaced]

def ranked (is : List Item) : List (Item × Role) :=
  is.zip (roles 0 (is.map Item.piece))

/-- The items that the cells of a layout are read back as. -/
def relaid (before : Option Piece) : List (Item × Role) → List Item
  | [] => []
  | (i, role) :: rest =>
    ⟨respell role i.piece, startsLine role before i.piece || spacedAfter before i⟩ ::
      relaid (some i.piece) rest

def opening : List Item → List Item
  | [] => []
  | i :: is => ⟨i.piece, false⟩ :: is

theorem map_fst_ranked (is : List Item) : (ranked is).map Prod.fst = is := by
  have lengths := (forall₂_holds_roles (is.map Item.piece)).length_eq
  rw [List.length_map] at lengths
  exact List.map_fst_zip (le_of_eq lengths)

theorem map_snd_ranked (is : List Item) :
    (ranked is).map Prod.snd = roles 0 (is.map Item.piece) := by
  have lengths := (forall₂_holds_roles (is.map Item.piece)).length_eq
  rw [List.length_map] at lengths
  exact List.map_snd_zip (le_of_eq lengths.symm)

theorem related_of_mem_ranked {R : Piece → Role → Prop} {is : List Item}
    (related : List.Forall₂ R (is.map Item.piece) (roles 0 (is.map Item.piece))) {i : Item}
    {role : Role} (found : (i, role) ∈ ranked is) : R i.piece role := by
  have zipped : (i.piece, role) ∈ (is.map Item.piece).zip (roles 0 (is.map Item.piece)) := by
    rw [List.zip_map_left]
    exact List.mem_map.mpr ⟨(i, role), found, rfl⟩
  exact (List.forall₂_iff_zip.mp related).2 zipped

theorem holds_of_mem_ranked {is : List Item} {i : Item} {role : Role}
    (found : (i, role) ∈ ranked is) : role ≠ .plain → keywords.holds i.piece :=
  related_of_mem_ranked (forall₂_holds_roles _) found

def Marked (found : List (Item × Role)) : Prop :=
  ∀ i role, (i, role) ∈ found → role ≠ .plain → keywords.holds i.piece

theorem Marked.tail {first : Item × Role} {rest : List (Item × Role)}
    (marked : Marked (first :: rest)) : Marked rest :=
  fun i role inRest => marked i role (List.mem_cons_of_mem first inRest)

theorem Marked.right {front rest : List (Item × Role)} (marked : Marked (front ++ rest)) :
    Marked rest :=
  fun i role inRest => marked i role (List.mem_append_right front inRest)

theorem marked_ranked (is : List Item) : Marked (ranked is) :=
  fun _ _ found => holds_of_mem_ranked found

theorem proper_respell {role : Role} {p : Piece} (proper : p.Proper)
    (keyword : role ≠ .plain → keywords.holds p) : (respell role p).Proper := by
  unfold respell
  split
  · exact proper
  · rename_i inPhrase
    obtain ⟨run, rfl, known⟩ := exists_word_of_holds (keyword inPhrase)
    exact isWord_of_mem_keywords known

theorem blank_respell (role : Role) (p : Piece) : (respell role p).blank = p.blank := by
  unfold respell
  split
  · rfl
  · cases p <;> rfl

theorem word?_respell {role : Role} {p : Piece} :
    (respell role p).word? = none ↔ p.word? = none := by
  unfold respell
  split
  · rfl
  · exact word?_fold_eq_none

theorem separate_of_unspaced {p : Piece} {j : Item}
    (apart : j.gap = false → p.Separate j.piece) (close : spacedAfter (some p) j = false) :
    p.Separate j.piece := by
  cases gap : j.gap with
  | false => exact apart gap
  | true =>
    have marks : j.piece = .other ',' ∨ j.piece = .other ')' := by
      simp only [spacedAfter, gap, Bool.true_and, Bool.or_eq_false_iff, Bool.and_eq_false_iff,
        bne_eq_false_iff_eq] at close
      exact close.2
    right
    rcases marks with mark | mark <;> rw [mark] <;> rfl

theorem map_piece_relaid (before : Option Piece) (found : List (Item × Role)) :
    (relaid before found).map Item.piece = found.map fun x => respell x.2 x.1.piece := by
  induction found generalizing before with
  | nil => rfl
  | cons first rest ih =>
    obtain ⟨i, role⟩ := first
    simp only [relaid, List.map_cons, ih]

theorem map_piece_opening (is : List Item) : (opening is).map Item.piece = is.map Item.piece := by
  cases is <;> rfl

def Item.rewrite (recase : Piece → Piece) (i : Item) : Item :=
  ⟨recase i.piece, i.gap⟩

/-- Whether a change of the written pieces cannot be seen in a layout: it touches the case of words
in phrases and nothing else. -/
def Invisible (recase : Piece → Piece) (found : List (Item × Role)) : Prop :=
  ∀ i role, (i, role) ∈ found →
    fold (recase (respell role i.piece)) = fold i.piece ∧ (role = .plain → recase i.piece = i.piece)

theorem Invisible.tail {recase : Piece → Piece} {first : Item × Role} {rest : List (Item × Role)}
    (invisible : Invisible recase (first :: rest)) : Invisible recase rest :=
  fun i role inRest => invisible i role (List.mem_cons_of_mem first inRest)

private theorem written_congr {role : Role} {p q : Piece} (same : fold p = fold q)
    (plain : role = .plain → p = q) : written role p = written role q := by
  unfold written
  split
  · rename_i isPlain
    rw [plain isPlain]
  · cases p <;> cases q <;> simp only [fold_word, fold_other, Piece.word.injEq, Piece.other.injEq,
      reduceCtorEq] at same
    · exact same
    · rw [same]

private theorem Invisible.written_eq {recase : Piece → Piece} {found : List (Item × Role)}
    (invisible : Invisible recase found) {i : Item} {role : Role} (inFound : (i, role) ∈ found) :
    written role (recase (respell role i.piece)) = written role i.piece := by
  obtain ⟨folded, plain⟩ := invisible i role inFound
  apply written_congr folded
  intro isPlain
  rw [respell, if_pos isPlain, plain isPlain]

private theorem beq_some_other_congr {before before' : Option Piece}
    (same : before.map fold = before'.map fold) (c : Char) :
    (before == some (.other c)) = (before' == some (.other c)) := by
  cases before <;> cases before' <;> simp only [Option.map_none, Option.map_some, reduceCtorEq,
    Option.some.injEq] at same
  · rfl
  · exact beq_other_congr same c

private theorem alike_cells {recase : Piece → Piece} {before before' : Option Piece}
    (same : before.map fold = before'.map fold) {found : List (Item × Role)}
    (invisible : Invisible recase found) :
    List.Forall₂ Cell.Alike
      (cells before' (((relaid before found).map (Item.rewrite recase)).zip (found.map Prod.snd)))
      (cells before found) := by
  induction found generalizing before before' with
  | nil => exact .nil
  | cons first rest ih =>
    obtain ⟨i, role⟩ := first
    have folded := (invisible i role (by simp)).1
    have comma := beq_some_other_congr same ','
    have paren := beq_some_other_congr same '('
    have closed := beq_some_other_congr same ')'
    refine .cons ⟨?_, ?_, ?_⟩ (ih (by simp [Item.rewrite, folded]) invisible.tail)
    · exact invisible.written_eq (by simp)
    · simp only [startsLine, Item.rewrite, beq_other_congr folded, closed]
    · -- inside a line the gap of the item that was read is the spacing that was written
      intro inside
      have inside : startsLine role before i.piece = false := by
        simpa only [startsLine, Item.rewrite, beq_other_congr folded, closed] using inside
      simp only [spacedAfter, Item.rewrite, inside, Bool.false_or, bne, beq_other_congr folded,
        ← comma, ← paren]
      cases before == some (.other ',') <;> cases before == some (.other '(') <;>
        cases i.gap <;> cases i.piece == .other ',' <;> cases i.piece == .other ')' <;> rfl

private theorem map_fold_relaid {recase : Piece → Piece} {found : List (Item × Role)}
    (invisible : Invisible recase found) :
    (((opening (relaid none found)).map (Item.rewrite recase)).map Item.piece).map fold =
      ((found.map Prod.fst).map Item.piece).map fold := by
  have pieces : ((opening (relaid none found)).map (Item.rewrite recase)).map Item.piece =
      (found.map fun x => respell x.2 x.1.piece).map recase := by
    rw [← map_piece_relaid none, ← map_piece_opening (relaid none found), List.map_map,
      List.map_map]
    rfl
  rw [pieces]
  simp only [List.map_map]
  apply List.map_congr_left
  rintro ⟨i, role⟩ inFound
  exact (invisible i role inFound).1

/-- Laying out what was read from a layout gives the same lines. -/
theorem lines_again {is : List Item} {recase : Piece → Piece}
    (invisible : Invisible recase (ranked is)) :
    (cut (cells none (ranked ((opening (relaid none (ranked is))).map
      (Item.rewrite recase))))).map lineText = (cut (cells none (ranked is))).map lineText := by
  have folds := map_fold_relaid invisible
  rw [map_fst_ranked] at folds
  rw [ranked, roles_congr folds, ← map_snd_ranked]
  cases shape : ranked is with
  | nil => rfl
  | cons first rest =>
    obtain ⟨i, role⟩ := first
    rw [shape] at invisible
    have folded := (invisible i role (by simp)).1
    apply map_lineText_congr
    · exact invisible.written_eq (by simp)
    · apply alike_cells
      · simp [Item.rewrite, folded]
      · exact invisible.tail

end QueryTidy.Layout
