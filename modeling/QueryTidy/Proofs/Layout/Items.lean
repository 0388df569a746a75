import QueryTidy.Layout.Line
import QueryTidy.Proofs.Text.Pieces

/-!
The items of a text: its pieces without the blank ones, each with the knowledge of whether blank
space precedes it. Where no blank space precedes an item, it cannot be taken for a part of the one
before.
-/

set_option autoImplicit false
set_option relaxedAutoImplicit false

namespace QueryTidy

open Text

def Text.Piece.blank : Piece → Bool
  | .word _ => false
  | .other c => isBlank c

/-- The words of a text and its other characters that are not blank, in order. -/
def Text.tokens (t : Text) : List Piece :=
  (pieces t).filter fun p => !p.blank

theorem Text.filter_map_other {blank : Text} (all : ∀ c ∈ blank, isBlank c) :
    ((blank.map Piece.other).filter fun p => !p.blank) = [] := by
  rw [List.filter_eq_nil_iff]
  intro p found
  obtain ⟨c, inBlank, rfl⟩ := List.mem_map.mp found
  simp [Piece.blank, all c inBlank]

theorem Text.tokens_blank_append {blank : Text} (all : ∀ c ∈ blank, isBlank c) (t : Text) :
    tokens (blank ++ t) = tokens t := by
  rw [tokens, pieces_blank_append all, List.filter_append, filter_map_other all]
  rfl

theorem Text.tokens_append_blank (t : Text) {blank : Text} (all : ∀ c ∈ blank, isBlank c) :
    tokens (t ++ blank) = tokens t := by
  rw [tokens, pieces_append_blank t all, List.filter_append, filter_map_other all, List.append_nil]
  rfl

theorem Text.tokens_append_of_ends {s : Text} (ends : ∀ c ∈ s.getLast?, isWordChar c = false)
    (t : Text) : tokens (s ++ t) = tokens s ++ tokens t := by
  simp only [tokens, pieces_append_of_ends ends, List.filter_append]

theorem Text.tokens_piece_append {p : Piece} (proper : p.Proper) (visible : p.blank = false)
    {t : Text} (breaks : p.word? ≠ none → Breaks t) : tokens (p.text ++ t) = p :: tokens t := by
  rw [tokens, pieces_piece_append proper breaks, List.filter_cons_of_pos (by simp [visible])]
  rfl

namespace Layout

theorem map_piece_items (gap : Bool) (ps : List Piece) :
    (items gap ps).map Item.piece = ps.filter fun p => !p.blank := by
  induction ps generalizing gap with
  | nil => rfl
  | cons p ps ih =>
    cases p with
    | word run => simp [items, Piece.blank, ih]
    | other c =>
      by_cases blank : isBlank c
      · simp [items, Piece.blank, blank, ih]
      · simp [items, Piece.blank, blank, ih]

/-- Whether items can be told apart when they are written with no more blank space than they ask
for. -/
structure Sound (is : List Item) : Prop where
  proper : ∀ i ∈ is, i.piece.Proper
  visible : ∀ i ∈ is, i.piece.blank = false
  separate : is.IsChain fun i j => j.gap = false → i.piece.Separate j.piece

theorem Sound.cons {i : Item} {is : List Item} (proper : i.piece.Proper)
    (visible : i.piece.blank = false)
    (separate : ∀ j ∈ is.head?, j.gap = false → i.piece.Separate j.piece) (sound : Sound is) :
    Sound (i :: is) := by
  refine ⟨?_, ?_, List.isChain_cons.mpr ⟨separate, sound.separate⟩⟩
  · intro j inList
    rcases List.mem_cons.mp inList with rfl | inRest
    · exact proper
    · exact sound.proper j inRest
  · intro j inList
    rcases List.mem_cons.mp inList with rfl | inRest
    · exact visible
    · exact sound.visible j inRest

theorem Sound.tail {i : Item} {is : List Item} (sound : Sound (i :: is)) : Sound is :=
  ⟨fun j inRest => sound.proper j (List.mem_cons_of_mem i inRest),
    fun j inRest => sound.visible j (List.mem_cons_of_mem i inRest),
    (List.isChain_cons.mp sound.separate).2⟩

theorem Sound.right {is js : List Item} (sound : Sound (is ++ js)) : Sound js := by
  induction is with
  | nil => exact sound
  | cons i is ih => exact ih sound.tail

theorem Sound.separate_head {i : Item} {is : List Item} (sound : Sound (i :: is)) :
    ∀ j ∈ is.head?, j.gap = false → i.piece.Separate j.piece :=
  (List.isChain_cons.mp sound.separate).1

private theorem gap_of_head_items {ps : List Piece} {j : Item}
    (first : j ∈ (items true ps).head?) : j.gap = true := by
  induction ps with
  | nil => simp [items] at first
  | cons p ps ih =>
    cases p with
    | word run =>
      have same : ⟨.word run, true⟩ = j := by simpa [items] using first
      rw [← same]
    | other c =>
      by_cases blank : isBlank c
      · exact ih (by simpa [items, blank] using first)
      · have same : ⟨.other c, true⟩ = j := by simpa [items, blank] using first
        rw [← same]

private theorem piece_of_head_items {gap : Bool} {ps : List Piece} {j : Item}
    (first : j ∈ (items gap ps).head?) (close : j.gap = false) : j.piece ∈ ps.head? := by
  cases ps with
  | nil => simp [items] at first
  | cons p ps =>
    cases p with
    | word run =>
      have same : ⟨.word run, gap⟩ = j := by simpa [items] using first
      simp [← same]
    | other c =>
      by_cases blank : isBlank c
      · have wide : j.gap = true := gap_of_head_items (by simpa [items, blank] using first)
        rw [wide] at close
        contradiction
      · have same : ⟨.other c, gap⟩ = j := by simpa [items, blank] using first
        simp [← same]

theorem sound_items (gap : Bool) {ps : List Piece} (cut : Cut ps) : Sound (items gap ps) := by
  induction ps generalizing gap with
  | nil => exact ⟨by simp [items], by simp [items], by simp [items]⟩
  | cons p ps ih =>
    have apart : ∀ j ∈ (items false ps).head?, j.gap = false → p.Separate j.piece := by
      intro j first close
      exact (List.isChain_cons.mp cut.separate).1 _ (piece_of_head_items first close)
    have proper := cut.proper p (by simp)
    cases p with
    | word run => exact (ih false cut.tail).cons proper rfl apart
    | other c =>
      by_cases blank : isBlank c
      · simpa [items, blank] using ih true cut.tail
      · simpa [items, blank] using (ih false cut.tail).cons
          (i := ⟨.other c, gap⟩) proper (by simpa [Piece.blank] using blank) apart

theorem items_blank (gap : Bool) {blank : Text} (all : ∀ c ∈ blank, isBlank c)
    (ps : List Piece) :
    items gap (blank.map Piece.other ++ ps) = items (gap || !blank.isEmpty) ps := by
  induction blank generalizing gap with
  | nil => simp
  | cons c blank ih =>
    have first : isBlank c := all c (by simp)
    simp only [List.map_cons, List.cons_append, items, first, if_true]
    rw [ih true fun d inRest => all d (List.mem_cons_of_mem c inRest)]
    simp

theorem items_visible (gap : Bool) {p : Piece} (visible : p.blank = false) (ps : List Piece) :
    items gap (p :: ps) = ⟨p, gap⟩ :: items false ps := by
  cases p with
  | word run => rfl
  | other c =>
    have notBlank : isBlank c = false := visible
    simp [items, notBlank]

def gapAfter (gap : Bool) : List Piece → Bool
  | [] => gap
  | p :: ps => gapAfter p.blank ps

theorem gapAfter_concat (gap : Bool) (ps : List Piece) (p : Piece) :
    gapAfter gap (ps ++ [p]) = p.blank := by
  induction ps generalizing gap with
  | nil => rfl
  | cons q ps ih => exact ih q.blank

theorem items_append (gap : Bool) (ps qs : List Piece) :
    items gap (ps ++ qs) = items gap ps ++ items (gapAfter gap ps) qs := by
  induction ps generalizing gap with
  | nil => rfl
  | cons p ps ih =>
    cases p with
    | word run => simp [items, gapAfter, Piece.blank, ih]
    | other c =>
      by_cases blank : isBlank c
      · simp [items, gapAfter, Piece.blank, blank, ih]
      · simp [items, gapAfter, Piece.blank, blank, ih]

end Layout

end QueryTidy
