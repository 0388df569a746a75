import QueryTidy.Proofs.Layout.Gaps
import Mathlib.Data.List.TakeWhile

/-!
The last pass. Where the blanks before a piece have a line end among them a new line begins, and
elsewhere they are the space that the layout puts there or none, so the lines that are not blank are
the lines of the layout, and all that is left to do is to indent them.
-/

set_option autoImplicit false
set_option relaxedAutoImplicit false

namespace QueryTidy.Layout

open Text

section Trimming

private theorem trim_blank_cons {c : Char} (blank : isBlank c) (t : Text) :
    trim (c :: t) = trim t := by
  rw [trim, trim, trimStart, List.dropWhile_cons_of_pos blank]
  rfl

private theorem trim_append_blank {c : Char} (blank : isBlank c) (t : Text) :
    trim (t ++ [c]) = trim t := by
  simp only [trim, trimStart, List.dropWhile_append]
  split
  · rename_i none
    rw [List.isEmpty_iff.mp none, List.dropWhile_cons_of_pos blank]
    rfl
  · rw [trimEnd, List.reverse_append, List.reverse_singleton, List.singleton_append,
      List.dropWhile_cons_of_pos blank]
    rfl

private theorem trim_dropReturn (t : Text) : trim (dropReturn t) = trim t := by
  unfold dropReturn
  split
  · rename_i returns
    obtain ⟨front, rfl⟩ := List.getLast?_eq_some_iff.mp returns
    rw [List.dropLast_concat, trim_append_blank rfl]
  · rfl

private theorem trim_of_nonblank {t : Text} (visible : ∀ c ∈ t.head?, isBlank c = false) :
    trim t = trimEnd t := by
  have start : t.dropWhile isBlank = t := dropWhile_run (List.forall_mem_nil _) visible
  rw [trim, trimStart, start]

private theorem trimEnd_append {t : Text} (some : trimEnd t ≠ []) (s : Text) :
    trimEnd (s ++ t) = s ++ trimEnd t := by
  have some : (t.reverse.dropWhile isBlank).isEmpty = false := by simpa [trimEnd] using some
  rw [trimEnd, List.reverse_append, List.dropWhile_append, some]
  simp [trimEnd]

end Trimming

def visibleLines (t : Text) : List Text :=
  ((splitAt '\n' t).map trim).filter (!·.isEmpty)

theorem tidyLines_eq (t : Text) :
    tidyLines t = trim (joinWith ['\n'] ((visibleLines t).map indented)) := by
  have same : (Text.lines t).map trim = (splitAt '\n' t).map trim := by
    rw [Text.lines, List.map_map]
    apply List.map_congr_left
    intro line _
    exact trim_dropReturn line
  rw [tidyLines, same, visibleLines]

section Lines

variable {s gap rest : Text}

private theorem visibleLines_blank_append (blank : ∀ c ∈ gap, isBlank c) (rest : Text) :
    visibleLines (gap ++ rest) = visibleLines rest := by
  induction gap with
  | nil => rfl
  | cons c gap ih =>
    rw [← ih fun e inRest => blank e (List.mem_cons_of_mem c inRest), List.cons_append,
      visibleLines, visibleLines, splitAt]
    split
    · rfl
    · obtain ⟨line, lines, parts⟩ := List.exists_cons_of_ne_nil (splitAt_ne_nil '\n' (gap ++ rest))
      simp only [parts, List.map_cons, trim_blank_cons (blank c (by simp))]

private theorem visibleLines_break (dense : Dense s) (blank : ∀ c ∈ gap, isBlank c)
    (breaks : '\n' ∈ gap) (rest : Text) :
    visibleLines (s ++ (gap ++ rest)) = s :: visibleLines rest := by
  obtain ⟨front, back, rfl, absent⟩ := List.eq_append_cons_of_mem breaks
  have text : s ++ ((front ++ '\n' :: back) ++ rest) = (s ++ front) ++ '\n' :: (back ++ rest) := by
    simp
  have whole : '\n' ∉ s ++ front := by
    rw [List.mem_append, not_or]
    exact ⟨dense.compact.newline_not_mem, absent⟩
  have line : trim (s ++ front) = s := by
    apply dense.compact.toSolid.trim_between (List.forall_mem_nil _)
    intro c inFront
    exact blank c (by simp [inFront])
  have below : visibleLines (back ++ rest) = visibleLines rest := by
    apply visibleLines_blank_append
    intro c inBack
    exact blank c (by simp [inBack])
  rw [← below, text, visibleLines, splitAt_append whole, List.map_cons, line,
    List.filter_cons_of_pos (by simp [dense.1])]
  rfl

private theorem visibleLines_end (dense : Dense s) (blank : ∀ c ∈ gap, isBlank c) :
    visibleLines (s ++ gap) = [s] := by
  by_cases breaks : '\n' ∈ gap
  · have whole := visibleLines_break dense blank breaks []
    rw [List.append_nil] at whole
    exact whole
  · have whole : '\n' ∉ s ++ gap := by
      rw [List.mem_append, not_or]
      exact ⟨dense.compact.newline_not_mem, breaks⟩
    have line : trim (s ++ gap) = s :=
      dense.compact.toSolid.trim_between (List.forall_mem_nil _) blank
    rw [visibleLines, splitAt_of_not_mem whole, List.map_singleton, line]
    simp [dense.1]

private theorem splitAt_append_of_not_mem {line : Text} {lines : List Text} (absent : '\n' ∉ s)
    (parts : splitAt '\n' rest = line :: lines) :
    splitAt '\n' (s ++ rest) = (s ++ line) :: lines := by
  induction s with
  | nil => exact parts
  | cons c s ih =>
    obtain ⟨differs, absent⟩ := not_or.mp (mt List.mem_cons.mpr absent)
    rw [List.cons_append, splitAt, if_neg (Ne.symm differs), ih absent]
    rfl

private theorem visibleLines_join (dense : Dense s) (known : gap = [] ∨ gap = [' ']) {next : Text}
    (dense' : Dense next) {line : Text} {lines : List Text}
    (below : visibleLines (next ++ rest) = line :: lines) :
    visibleLines (s ++ (gap ++ (next ++ rest))) = (s ++ (gap ++ line)) :: lines := by
  obtain ⟨part, parts, split⟩ := List.exists_cons_of_ne_nil (splitAt_ne_nil '\n' rest)
  have own := splitAt_append_of_not_mem dense'.compact.newline_not_mem split
  have absent : '\n' ∉ s ++ gap := by
    rw [List.mem_append, not_or]
    refine ⟨dense.compact.newline_not_mem, ?_⟩
    rcases known with rfl | rfl <;> simp
  have whole := splitAt_append_of_not_mem absent own
  have some : trimEnd (next ++ part) ≠ [] := by
    intro none
    obtain ⟨c, next, rfl⟩ := List.exists_cons_of_ne_nil dense'.1
    have blank := List.dropWhile_eq_nil_iff.mp (List.reverse_eq_nil_iff.mp none) c (by simp)
    rw [dense'.2 c (by simp)] at blank
    contradiction
  have trimmed : trim (next ++ part) = trimEnd (next ++ part) :=
    trim_of_nonblank (dense'.nonblank part)
  rw [visibleLines, own, List.map_cons, trimmed, List.filter_cons_of_pos (by simp [some])] at below
  obtain ⟨rfl, rfl⟩ := List.cons.inj below
  have longer : trim ((s ++ gap) ++ (next ++ part)) = s ++ (gap ++ trimEnd (next ++ part)) := by
    rw [trim_of_nonblank, trimEnd_append some, List.append_assoc]
    rw [List.append_assoc]
    exact dense.nonblank _
  rw [← List.append_assoc, visibleLines, whole, List.map_cons, longer,
    List.filter_cons_of_pos (by simp [dense.1])]

end Lines

/-- Whether a piece with the blanks before it is what the layout makes of a cell. -/
structure Prints (q : Placed) (c : Cell) : Prop where
  text : q.piece.text = c.text
  dense : Dense c.text
  blank : ∀ e ∈ q.gap, isBlank e
  breaks : c.starts → '\n' ∈ q.gap
  joins : c.starts = false → q.gap = c.space

private theorem visibleLines_cut {c : Cell} (dense : Dense c.text) {qs : List Placed}
    {cs : List Cell} (prints : List.Forall₂ Prints qs cs) {last : Text}
    (ended : ∀ e ∈ last, isBlank e) :
    visibleLines (c.text ++ spread qs last) = (cut (c :: cs)).map lineText := by
  induction prints generalizing c with
  | nil =>
    have only : (cut [c]).map lineText = [c.text] := by simp [cut, lineText]
    rw [only, ← visibleLines_end dense ended]
    rfl
  | @cons q d qs cs first _ ih =>
    obtain ⟨line, lines, below, whole⟩ := map_lineText_cut c d cs
    have next := ih first.dense
    rw [below] at next
    rw [whole, spread_cons, first.text]
    cases starts : d.starts with
    | true =>
      rw [visibleLines_break dense first.blank (first.breaks starts), next]
      rfl
    | false =>
      have known : d.space = [] ∨ d.space = [' '] := by
        unfold Cell.space
        split
        · exact Or.inr rfl
        · exact Or.inl rfl
      rw [first.joins starts, visibleLines_join dense known first.dense next]
      rfl

theorem visibleLines_spread {qs : List Placed} {cs : List Cell}
    (prints : List.Forall₂ Prints qs cs) {last : Text} (ended : ∀ e ∈ last, isBlank e) :
    visibleLines (spread qs last) = (cut cs).map lineText := by
  cases prints with
  | nil =>
    have none := visibleLines_blank_append ended []
    rw [List.append_nil] at none
    exact none
  | cons first rest =>
    rw [spread_cons, visibleLines_blank_append first.blank, first.text]
    exact visibleLines_cut first.dense rest ended

private theorem joinWith_indented (first : Text) (rest : List Text) :
    joinWith ['\n'] ((first :: rest).map indented) =
      indented first ++ rest.flatMap fun line => '\n' :: indented line := by
  induction rest generalizing first with
  | nil => simp [joinWith]
  | cons line rest ih =>
    rw [List.map_cons, List.map_cons, joinWith, ← List.map_cons, ih]
    · simp
    · simp

private theorem solid_render {first : Text} {rest : List Text}
    (compact : ∀ line ∈ first :: rest, Compact line) : Solid (render (first :: rest)) := by
  induction rest generalizing first with
  | nil =>
    have only : render [first] = first := by simp [render]
    rw [only]
    exact (compact first (by simp)).toSolid
  | cons line rest ih =>
    obtain ⟨n, text⟩ := exists_indent line
    have below : render (first :: line :: rest) =
        first ++ (('\n' :: List.replicate n ' ') ++ render (line :: rest)) := by
      simp [render, text]
    have later := ih fun other inRest => compact other (List.mem_cons_of_mem first inRest)
    rw [below]
    exact (compact first (by simp)).toSolid.enclose later _

private theorem trim_joinWith_indented {ls : List Text} (compact : ∀ line ∈ ls, Compact line) :
    trim (joinWith ['\n'] (ls.map indented)) = render ls := by
  cases ls with
  | nil => rfl
  | cons first rest =>
    obtain ⟨n, text⟩ := exists_indent first
    have blank : ∀ c ∈ List.replicate n ' ', isBlank c := by
      intro c inIndent
      rw [List.eq_of_mem_replicate inIndent]
      rfl
    have whole := (solid_render compact).trim_between blank (List.forall_mem_nil _)
    rw [List.append_nil] at whole
    rw [joinWith_indented, text, List.append_assoc]
    exact whole

/-- The last pass makes of cells the lines of the layout. -/
theorem tidyLines_spread {qs : List Placed} {cs : List Cell} (prints : List.Forall₂ Prints qs cs)
    {last : Text} (ended : ∀ e ∈ last, isBlank e) :
    tidyLines (spread qs last) = render ((cut cs).map lineText) := by
  have dense : ∀ c ∈ cs, Dense c.text := by
    clear ended
    induction prints with
    | nil => exact List.forall_mem_nil _
    | cons first _ ih => exact List.forall_mem_cons.mpr ⟨first.dense, ih⟩
  rw [tidyLines_eq, visibleLines_spread prints ended, trim_joinWith_indented]
  cases cs with
  | nil => simp [cut]
  | cons c cs => exact compact_cut c dense

end QueryTidy.Layout
