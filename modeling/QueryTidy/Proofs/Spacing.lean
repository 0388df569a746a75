import QueryTidy.Proofs.Formatting

/-!
The layout of a query does not depend on how it was spaced before. The blanks of a text matter only
in so far as there are some between two pieces, and next to commas and parentheses and at both ends
of the text not even that. So one blank can be put in or left out there, and by doing so again and
again every text is brought into its most narrow form without a change to its layout.
-/

set_option autoImplicit false
set_option relaxedAutoImplicit false

namespace QueryTidy

open Text Layout

namespace Text

/-- Whether a character is one that blanks stand next to without meaning: a comma or a
parenthesis. -/
def isTight (c : Char) : Bool :=
  c == ',' || c == '(' || c == ')'

def collapse : Text → Text
  | [] => []
  | c :: t =>
    if isBlank c then
      if t.head?.any isBlank then collapse t else ' ' :: collapse t
    else c :: collapse t

/-- A text without the blanks next to commas and parentheses, after a character that may precede
it. -/
def tighten (before : Option Char) : Text → Text
  | [] => []
  | c :: t =>
    if isBlank c && (before.any isTight || t.head?.any isTight) then tighten before t
    else c :: tighten (some c) t

def narrow (t : Text) : Text :=
  trim (tighten none (collapse t))

end Text

namespace Layout

def tight : Piece → Bool
  | .word _ => false
  | .other c => isTight c

/-- Whether blank space before a piece cannot be seen in a layout. -/
def unseen (before : Option Piece) (p : Piece) : Bool :=
  match before with
  | none => true
  | some q => tight q || tight p

def settle (before : Option Piece) : List Item → List Item
  | [] => []
  | i :: is => ⟨i.piece, i.gap && !unseen before i.piece⟩ :: settle (some i.piece) is

theorem map_piece_settle (before : Option Piece) (is : List Item) :
    (settle before is).map Item.piece = is.map Item.piece := by
  induction is generalizing before with
  | nil => rfl
  | cons i is ih => simp [settle, ih]

theorem settle_append (before : Option Piece) (is js : List Item) :
    settle before (is ++ js) =
      settle before is ++ settle (lastOf before (is.map Item.piece)) js := by
  induction is generalizing before with
  | nil => rfl
  | cons i is ih => simp [settle, lastOf, ih]

private theorem tight_iff {p : Piece} :
    tight p ↔ p = .other ',' ∨ p = .other '(' ∨ p = .other ')' := by
  cases p with
  | word run => simp [tight]
  | other c => simp [tight, isTight, or_assoc]

private theorem separator_unseen {before : Option Piece} {role : Role} {i : Item}
    (isUnseen : unseen before i.piece) (gap : Bool) (t : Text) :
    separator before role ⟨i.piece, gap⟩ t = separator before role i t := by
  cases before with
  | none => rfl
  | some q =>
    have near : tight q ∨ tight i.piece := by simpa [unseen] using isUnseen
    rw [tight_iff, tight_iff] at near
    rcases near with (mark | mark | mark) | (mark | mark | mark) <;>
      simp [separator, startsLine, spacedAfter, mark]

private theorem separator_settle (before : Option Piece) (role : Role) (i : Item) (t : Text) :
    separator before role ⟨i.piece, i.gap && !unseen before i.piece⟩ t =
      separator before role i t := by
  cases isUnseen : unseen before i.piece with
  | true => exact separator_unseen isUnseen _ t
  | false => simp

private theorem laid_settle (before : Option Piece) (is : List Item) (given : List Role) :
    laid before ((settle before is).zip given) = laid before (is.zip given) := by
  induction is generalizing before given with
  | nil => rfl
  | cons i is ih =>
    cases given with
    | nil => rfl
    | cons role given =>
      simp only [settle, List.zip_cons_cons, laid, ih, separator_settle]

theorem laid_ranked_settle (is : List Item) :
    laid none (ranked (settle none is)) = laid none (ranked is) := by
  rw [ranked, ranked, map_piece_settle, laid_settle]

theorem settle_items {before : Option Piece} {ps : List Piece}
    (loose : ∀ p ∈ ps.head?, p.blank ∨ unseen before p) (gap gap' : Bool) :
    settle before (items gap ps) = settle before (items gap' ps) := by
  cases ps with
  | nil => rfl
  | cons p ps =>
    cases blank : p.blank with
    | true =>
      cases p with
      | word run => simp [Piece.blank] at blank
      | other c =>
        have isBlank : isBlank c = true := blank
        simp [items, isBlank]
    | false =>
      have isUnseen : unseen before p := by simpa [blank] using loose p rfl
      simp [items_visible _ blank, settle, isUnseen]

end Layout

namespace Dictionary

def corrected (d : Dictionary) (ps : List Piece) : List Piece :=
  ps.flatMap fun p => pieces (d.correctPiece p)

theorem formatItems_eq (d : Dictionary) (t : Text) :
    formatItems d t = items false (d.corrected (pieces t)) := by
  rw [formatItems, pieces_correctText]
  rfl

theorem corrected_other (d : Dictionary) {c : Char} (other : isWordChar c = false)
    (ps : List Piece) : d.corrected (.other c :: ps) = .other c :: d.corrected ps := by
  have single : pieces (d.correctPiece (.other c)) = [.other c] := pieces_cons_other other []
  rw [corrected, List.flatMap_cons, single]
  rfl

theorem corrected_append (d : Dictionary) (ps qs : List Piece) :
    d.corrected (ps ++ qs) = d.corrected ps ++ d.corrected qs :=
  List.flatMap_append

end Dictionary

/-- Whether blanks next to a character are blanks next to other blanks, or next to a comma or a
parenthesis. -/
def Text.isLoose (c : Char) : Bool :=
  isBlank c || isTight c

theorem Text.isWordChar_of_isLoose {c : Char} (loose : isLoose c) : isWordChar c = false := by
  rcases Bool.or_eq_true _ _ ▸ loose with blank | tight
  · exact isWordChar_of_isBlank blank
  · simp only [isTight, Bool.or_eq_true, beq_iff_eq] at tight
    rcases tight with (rfl | rfl) | rfl <;> rfl

theorem format_congr {d : Dictionary} {t u : Text}
    (same : settle none (formatItems d t) = settle none (formatItems d u)) :
    format d t = format d u := by
  rw [format_eq, format_eq, render_eq_laid, render_eq_laid, ← laid_ranked_settle, same,
    laid_ranked_settle]

private theorem pieces_concat {a : Text} {x : Char} (other : isWordChar x = false) :
    pieces (a ++ [x]) = pieces a ++ [.other x] := by
  have breaks : Breaks [x] := by simpa [Breaks] using other
  rw [pieces_append a breaks, pieces_cons_other other]
  rfl

private theorem settle_after_loose (d : Dictionary) {a : Text}
    (loose : ∀ x ∈ a.getLast?, isLoose x) (ps : List Piece) :
    let front := d.corrected (pieces a)
    let before := lastOf none ((items false front).map Item.piece)
    settle before (items true ps) = settle before (items (gapAfter false front) ps) := by
  intro front before
  rcases List.eq_nil_or_concat a with rfl | ⟨a, x, rfl⟩
  · exact settle_items (fun _ _ => Or.inr rfl) _ _
  · have last : isLoose x := loose x (by simp)
    have other := isWordChar_of_isLoose last
    have shape : front = d.corrected (pieces a) ++ [.other x] := by
      simp only [front]
      rw [List.concat_eq_append, pieces_concat other, d.corrected_append,
        d.corrected_other other]
      rfl
    cases blank : isBlank x with
    | true =>
      have gap : gapAfter false front = true := by rw [shape, gapAfter_concat]; exact blank
      rw [gap]
    | false =>
      have tight : isTight x := by simpa [isLoose, blank] using last
      have visible : (Piece.other x).blank = false := blank
      have isLast : before = some (.other x) := by
        simp only [before, shape, items_append, List.map_append, lastOf_append]
        rw [items_visible _ visible]
        rfl
      exact settle_items (fun _ _ => Or.inr (by simp [isLast, unseen, Layout.tight, tight])) _ _

private theorem settle_before_loose (d : Dictionary) (before : Option Piece) {c : Text}
    (loose : ∀ y ∈ c.head?, isLoose y) (gap gap' : Bool) :
    settle before (items gap (d.corrected (pieces c))) =
      settle before (items gap' (d.corrected (pieces c))) := by
  apply settle_items
  cases c with
  | nil => simp [pieces, Dictionary.corrected]
  | cons y c =>
    have first : isLoose y := loose y rfl
    rw [pieces_cons_other (isWordChar_of_isLoose first),
      d.corrected_other (isWordChar_of_isLoose first)]
    intro p isFirst
    obtain rfl : Piece.other y = p := by simpa using isFirst
    rcases Bool.or_eq_true _ _ ▸ first with blank | tight
    · exact Or.inl blank
    · right
      cases before with
      | none => rfl
      | some q => simp [unseen, Layout.tight, tight]

theorem breaks_of_loose {t : Text} (loose : ∀ y ∈ t.head?, isLoose y) : Breaks t :=
  fun y first => isWordChar_of_isLoose (loose y first)

theorem format_drop_blank (d : Dictionary) {a c : Text} {b : Char} (blank : isBlank b)
    (loose : (∀ x ∈ a.getLast?, isLoose x) ∨ ∀ y ∈ c.head?, isLoose y) :
    format d (a ++ b :: c) = format d (a ++ c) := by
  have other := isWordChar_of_isBlank blank
  have breaks : Breaks (b :: c) := by simpa [Breaks] using other
  have whole : pieces (a ++ c) = pieces a ++ pieces c := by
    rcases loose with left | right
    · exact pieces_append_of_ends (fun x last => isWordChar_of_isLoose (left x last)) c
    · exact pieces_append a (breaks_of_loose right)
  have skip : ∀ gap ps, items gap (.other b :: ps) = items true ps := by
    intro gap ps
    simp [items, blank]
  apply format_congr
  rw [d.formatItems_eq, d.formatItems_eq, pieces_append a breaks, pieces_cons_other other, whole,
    d.corrected_append, d.corrected_append, d.corrected_other other, items_append, items_append,
    skip, settle_append, settle_append]
  congr 1
  rcases loose with left | right
  · exact settle_after_loose d left _
  · exact settle_before_loose d _ right _ _

theorem format_swap_blank (d : Dictionary) {a c : Text} {b b' : Char} (blank : isBlank b)
    (blank' : isBlank b') : format d (a ++ b :: c) = format d (a ++ b' :: c) := by
  have loose : ∀ x ∈ (a ++ [b]).getLast?, isLoose x := by simp [isLoose, blank]
  calc format d (a ++ b :: c) = format d (a ++ [b] ++ c) := by simp
    _ = format d (a ++ [b] ++ b' :: c) := (format_drop_blank d blank' (Or.inl loose)).symm
    _ = format d (a ++ b :: b' :: c) := by simp
    _ = format d (a ++ b' :: c) := format_drop_blank d blank (Or.inr (by simp [isLoose, blank']))

private theorem isBlank_space : isBlank ' ' = true :=
  rfl

private theorem format_collapse (d : Dictionary) (a t : Text) :
    format d (a ++ collapse t) = format d (a ++ t) := by
  induction t generalizing a with
  | nil => rfl
  | cons c t ih =>
    have shift : ∀ (e : Char) (u : Text), a ++ e :: u = (a ++ [e]) ++ u := by simp
    by_cases blank : isBlank c
    · by_cases more : t.head?.any isBlank
      · have next : ∀ y ∈ t.head?, isLoose y := by
          intro y first
          have isBlank : isBlank y := by simpa [Option.mem_def.mp first] using more
          simp [isLoose, isBlank]
        rw [collapse, if_pos blank, if_pos more, ih, format_drop_blank d blank (Or.inr next)]
      · rw [collapse, if_pos blank, if_neg more, shift, ih, ← shift,
          format_swap_blank d isBlank_space blank]
    · rw [collapse, if_neg blank, shift, ih, ← shift]

private theorem loose_of_any_isTight {c : Option Char} (tight : c.any isTight) :
    ∀ x ∈ c, isLoose x := by
  intro x same
  rw [Option.mem_def.mp same] at tight
  have isTight : isTight x := tight
  simp [isLoose, isTight]

private theorem format_tighten (d : Dictionary) (a t : Text) :
    format d (a ++ tighten a.getLast? t) = format d (a ++ t) := by
  induction t generalizing a with
  | nil => rfl
  | cons c t ih =>
    by_cases dropped : isBlank c && (a.getLast?.any isTight || t.head?.any isTight)
    · obtain ⟨blank, near⟩ : isBlank c ∧ (a.getLast?.any isTight ∨ t.head?.any isTight) := by
        simpa using dropped
      have loose : (∀ x ∈ a.getLast?, isLoose x) ∨ ∀ y ∈ t.head?, isLoose y :=
        near.imp loose_of_any_isTight loose_of_any_isTight
      rw [tighten, if_pos dropped, ih, format_drop_blank d blank loose]
    · have last : (a ++ [c]).getLast? = some c := by simp
      have rest := ih (a ++ [c])
      rw [last] at rest
      rw [tighten, if_neg dropped]
      simpa using rest

private theorem format_trimStart (d : Dictionary) (t : Text) :
    format d (trimStart t) = format d t := by
  induction t with
  | nil => rfl
  | cons c t ih =>
    by_cases blank : isBlank c
    · have first := format_drop_blank d (a := []) (c := t) blank (Or.inl (by simp))
      have rest : trimStart (c :: t) = trimStart t := by simp [trimStart, blank]
      rw [rest, ih]
      exact first.symm
    · have same : trimStart (c :: t) = c :: t := by simp [trimStart, blank]
      rw [same]

private theorem format_append_blank (d : Dictionary) (t : Text) {blank : Text}
    (all : ∀ c ∈ blank, isBlank c) : format d (t ++ blank) = format d t := by
  induction blank with
  | nil => simp
  | cons b blank ih =>
    have rest : ∀ c ∈ blank, isBlank c := fun c inRest => all c (List.mem_cons_of_mem b inRest)
    have next : ∀ y ∈ blank.head?, isLoose y := by
      intro y first
      simp [isLoose, rest y (List.mem_of_mem_head? first)]
    rw [format_drop_blank d (all b (by simp)) (Or.inr next), ih rest]

private theorem format_trimEnd (d : Dictionary) (t : Text) :
    format d (trimEnd t) = format d t := by
  have split : trimEnd t ++ (t.reverse.takeWhile isBlank).reverse = t := by
    rw [trimEnd, ← List.reverse_append, List.takeWhile_append_dropWhile, List.reverse_reverse]
  have all : ∀ c ∈ (t.reverse.takeWhile isBlank).reverse, isBlank c := by
    intro c found
    exact List.all_eq_true.mp List.all_takeWhile c (List.mem_reverse.mp found)
  rw [← format_append_blank d (trimEnd t) all, split]

theorem format_narrow (d : Dictionary) (t : Text) : format d (narrow t) = format d t := by
  calc format d (narrow t) = format d (tighten none (collapse t)) := by
        rw [narrow, trim, format_trimEnd, format_trimStart]
    _ = format d (collapse t) := format_tighten d [] (collapse t)
    _ = format d t := format_collapse d [] t

/-- Texts that differ in their spacing only are formatted alike. -/
theorem format_ignores_spacing (d : Dictionary) {t u : Text} (same : narrow t = narrow u) :
    format d t = format d u := by
  rw [← format_narrow d t, same, format_narrow]

theorem format_ignores_spacing_nested :
    let t := " select\ta ,( b)\u00a0\u2003from\r\nt ".toList
    let u := "select a,(b) from t".toList
    t ≠ u ∧ narrow t = narrow u ∧ format .builtin t = format .builtin u := by
  intro t u
  have same : narrow t = narrow u := by decide +kernel
  exact ⟨by decide +kernel, same, format_ignores_spacing .builtin same⟩

end QueryTidy
