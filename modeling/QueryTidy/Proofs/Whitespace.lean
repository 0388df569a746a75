import QueryTidy.Proofs.Acceptance
import QueryTidy.Proofs.KeywordLines
import QueryTidy.Proofs.Layout.Lines
import Mathlib.Data.List.TakeWhile

/-!
The blanks of a formatted query. Whatever blanks a query has, the formatted one has single spaces,
line ends and indents of two spaces, and none of them at an end of the text or of a line. There is
nothing to format exactly where there is nothing to see, since a dictionary has no correction
without a visible character.
-/

set_option autoImplicit false
set_option relaxedAutoImplicit false

namespace QueryTidy

open Text Layout

namespace Text

/-- Whether the blanks of a text are those of a layout. -/
structure Neat (t : Text) : Prop where
  /-- Blanks are spaces and line ends. -/
  blanks : ∀ c ∈ t, isBlank c → c = ' ' ∨ c = '\n'
  /-- The text begins with no blank. -/
  first : ∀ c ∈ t.head?, isBlank c = false
  /-- The text ends with no blank. -/
  last : ∀ c ∈ t.getLast?, isBlank c = false
  /-- No line is empty or blank. -/
  filled : t ≠ [] → ∀ line ∈ splitAt '\n' t, ∃ c ∈ line, isBlank c = false
  /-- No line ends with a blank. -/
  ended : ∀ line ∈ splitAt '\n' t, ∀ c ∈ line.getLast?, isBlank c = false
  /-- Two spaces stand next to each other at the start of a line only. -/
  single : ∀ before after, t = before ++ ' ' :: ' ' :: after → EndsLine before
  /-- A line begins with no blank, or it begins with two spaces and goes on with `AND` or `OR`. -/
  indent : ∀ line ∈ splitAt '\n' t, line.takeWhile isBlank = [] ∨
    line.takeWhile isBlank = [' ', ' '] ∧ isLogical (line.dropWhile isBlank)

theorem endsLine_of_last {above : Text} (start : ∀ c ∈ above.getLast?, c = '\n') :
    EndsLine above := by
  rcases List.eq_nil_or_concat above with rfl | ⟨front, c, rfl⟩
  · exact Or.inl rfl
  · rw [start c (by simp)]
    exact Or.inr ⟨front, List.concat_eq_append⟩

theorem exists_line (before : Text) {middle : Text} (absent : '\n' ∉ middle) (after : Text) :
    ∃ above left right below, before = above ++ left ∧ after = right ++ below ∧ EndsLine above ∧
      left ++ (middle ++ right) ∈ splitAt '\n' (before ++ (middle ++ after)) := by
  obtain ⟨above, left, rfl, inLeft, start⟩ := exists_trailing (· != '\n') before
  obtain ⟨right, below, rfl, inRight, ended⟩ := exists_leading (· != '\n') after
  have start' : ∀ c ∈ above.getLast?, c = '\n' := by simpa using start
  have whole : '\n' ∉ left ++ (middle ++ right) := by
    simp only [List.mem_append, not_or]
    exact ⟨fun found => absurd (inLeft _ found) (by decide), absent,
      fun found => absurd (inRight _ found) (by decide)⟩
  refine ⟨above, left, right, below, rfl, rfl, endsLine_of_last start', mem_splitAt_iff.mpr ?_⟩
  exact ⟨whole, above, below, by simp, start', by simpa using ended⟩

/-- Whether a line is compact, apart from an indent of two spaces before `AND` or `OR`. -/
def Kept (line : Text) : Prop :=
  ∃ body, Compact body ∧ (line = body ∨ line = ' ' :: ' ' :: body ∧ isLogical body)

namespace Kept

variable {line : Text}

theorem exists_visible (kept : Kept line) : ∃ c ∈ line, isBlank c = false := by
  obtain ⟨body, compact, shape⟩ := kept
  obtain ⟨c, rest, rfl⟩ := List.exists_cons_of_ne_nil compact.some
  refine ⟨c, ?_, compact.first c rfl⟩
  rcases shape with rfl | ⟨rfl, -⟩ <;> simp

theorem last (kept : Kept line) : ∀ c ∈ line.getLast?, isBlank c = false := by
  obtain ⟨body, compact, rfl | ⟨rfl, -⟩⟩ := kept
  · exact compact.last
  · have same : (' ' :: ' ' :: body).getLast? = body.getLast? :=
      List.getLast?_append_of_ne_nil [' ', ' '] compact.some
    rw [same]
    exact compact.last

theorem blanks (kept : Kept line) : ∀ c ∈ line, isBlank c → c = ' ' := by
  obtain ⟨body, compact, rfl | ⟨rfl, -⟩⟩ := kept
  · exact compact.spaces
  · intro c inLine blank
    simp only [List.mem_cons] at inLine
    rcases inLine with rfl | rfl | inBody
    · rfl
    · rfl
    · exact compact.spaces c inBody blank

theorem eq_nil_of_double {before after : Text} (kept : Kept line)
    (double : line = before ++ ' ' :: ' ' :: after) : before = [] := by
  obtain ⟨body, compact, rfl | ⟨rfl, -⟩⟩ := kept
  · exact absurd double compact.not_double
  · -- the first two spaces are the indent, and no others can follow them or overlap with them
    match before with
    | [] => rfl
    | [_] =>
      obtain ⟨-, -, rfl⟩ : ' ' = _ ∧ ' ' = ' ' ∧ body = ' ' :: after := by simpa using double
      exact absurd (compact.first ' ' rfl) (by decide)
    | _ :: _ :: before =>
      obtain ⟨-, -, shape⟩ : ' ' = _ ∧ ' ' = _ ∧ body = before ++ ' ' :: ' ' :: after := by
        simpa using double
      exact absurd shape compact.not_double

theorem indent (kept : Kept line) : line.takeWhile isBlank = [] ∨
    line.takeWhile isBlank = [' ', ' '] ∧ isLogical (line.dropWhile isBlank) := by
  obtain ⟨body, compact, shape⟩ := kept
  obtain ⟨c, rest, rfl⟩ := List.exists_cons_of_ne_nil compact.some
  have visible : isBlank c = false := compact.first c rfl
  have space : isBlank ' ' = true := rfl
  rcases shape with rfl | ⟨rfl, logical⟩
  · exact Or.inl (by simp [visible])
  · exact Or.inr ⟨by simp [visible, space], by simpa [visible, space] using logical⟩

end Kept

theorem neat_nil : Neat [] where
  blanks := by simp
  first := by simp
  last := by simp
  filled some := absurd rfl some
  ended := by simp [splitAt]
  single := by simp
  indent := by simp [splitAt]

theorem neat_of_kept {t : Text} (kept : ∀ line ∈ splitAt '\n' t, Kept line)
    (first : ∀ c ∈ t.head?, isBlank c = false) : Neat t where
  blanks c inText blank := by
    by_cases newline : c = '\n'
    · exact Or.inr newline
    · obtain ⟨before, after, rfl⟩ := List.append_of_mem inText
      have absent : '\n' ∉ [c] := by simpa using Ne.symm newline
      obtain ⟨_, left, right, _, -, -, -, found⟩ := exists_line before absent after
      exact Or.inl ((kept _ found).blanks c (by simp) blank)
  first := first
  last := by
    -- what the text ends with ends its last line, which is not empty
    have absent : '\n' ∉ ([] : Text) := by simp
    obtain ⟨above, left, right, below, split, nothing, -, found⟩ := exists_line t absent []
    obtain ⟨rfl, rfl⟩ := List.append_eq_nil_iff.mp nothing.symm
    simp only [List.append_nil] at found
    obtain ⟨c, inLine, -⟩ := (kept left found).exists_visible
    rw [split, List.getLast?_append_of_ne_nil above (List.ne_nil_of_mem inLine)]
    exact (kept left found).last
  filled _ line found := (kept line found).exists_visible
  ended line found := (kept line found).last
  single before after split := by
    subst split
    have absent : '\n' ∉ [' ', ' '] := by decide
    obtain ⟨above, left, right, below, rfl, rfl, line, found⟩ := exists_line before absent after
    rw [(kept _ found).eq_nil_of_double rfl, List.append_nil]
    exact line
  indent line found := (kept line found).indent

theorem tokens_eq_nil_iff {t : Text} : tokens t = [] ↔ ∀ c ∈ t, isBlank c := by
  constructor
  · intro none c inText
    rw [← text_pieces t] at inText
    obtain ⟨p, inPieces, inPiece⟩ := List.mem_flatMap.mp inText
    have blank : p.blank = true := by simpa using List.filter_eq_nil_iff.mp none p inPieces
    cases p with
    | word run => simp [Piece.blank] at blank
    | other e =>
      rw [List.mem_singleton.mp inPiece]
      exact blank
  · intro all
    have alone := tokens_blank_append all []
    rwa [List.append_nil] at alone

end Text

theorem neat_format (d : Dictionary) (t : Text) : Neat (format d t) := by
  by_cases empty : format d t = []
  · rw [empty]
    exact neat_nil
  · obtain ⟨first, rest, compact, below, lines⟩ := exists_lines_format empty
    apply neat_of_kept
    · intro line found
      rw [lines] at found
      rcases List.mem_cons.mp found with rfl | inRest
      · exact ⟨line, compact, Or.inl rfl⟩
      · obtain ⟨body, inBelow, rfl⟩ := List.mem_map.mp inRest
        refine ⟨body, below body inBelow, ?_⟩
        unfold indented
        split
        · exact Or.inr ⟨rfl, by assumption⟩
        · exact Or.inl rfl
    · -- the text begins as its first line does, and the first line has no indent
      obtain ⟨after, split⟩ := exists_append_of_splitAt lines
      rw [split, List.head?_append_of_ne_nil first compact.some]
      exact compact.first

theorem format_eq_nil_iff_tokens {d : Dictionary} {t : Text} :
    format d t = [] ↔ tokens (d.correctText t) = [] := by
  rw [tokens_correctText, List.map_eq_nil_iff]
  constructor
  · intro empty
    have none : tokens (format d t) = [] := by rw [empty]; rfl
    rwa [tokens_format, List.map_eq_nil_iff] at none
  · intro none
    rw [format_eq_laid, none]
    rfl

namespace Dictionary

def Visible (d : Dictionary) : Prop :=
  ∀ entry ∈ d.entries, ∃ c ∈ entry.2, isBlank c = false

theorem Visible.exists_in_correctPiece {d : Dictionary} (visible : d.Visible) {run : Text}
    (word : IsWord run) : ∃ c ∈ d.correctPiece (.word run), isBlank c = false := by
  cases known : d.correct? run with
  | some v =>
    rw [correctPiece_of_some known]
    exact visible _ (mem_of_lookup known)
  | none =>
    rw [correctPiece_of_none known]
    obtain ⟨c, rest, rfl⟩ := List.exists_cons_of_ne_nil word.1
    exact ⟨c, by simp, isBlank_of_isWordChar (word.2 c (by simp))⟩

theorem correctText_of_blank (d : Dictionary) {t : Text} (all : ∀ c ∈ t, isBlank c) :
    d.correctText t = t := by
  have others : ∀ c ∈ t, isWordChar c = false :=
    fun c inText => isWordChar_of_isBlank (all c inText)
  rw [correctText, pieces_of_others others, d.flatMap_correctPiece_other]

theorem Visible.blank_correctText {d : Dictionary} (visible : d.Visible) {t : Text} :
    (∀ c ∈ d.correctText t, isBlank c) ↔ ∀ c ∈ t, isBlank c := by
  constructor
  · intro all c inText
    rw [← text_pieces t] at inText
    obtain ⟨p, inPieces, inPiece⟩ := List.mem_flatMap.mp inText
    have own : ∀ e ∈ d.correctPiece p, isBlank e :=
      fun e found => all e (List.mem_flatMap.mpr ⟨p, inPieces, found⟩)
    cases p with
    | word run =>
      obtain ⟨e, found, seen⟩ := visible.exists_in_correctPiece ((cut_pieces t).proper _ inPieces)
      rw [own e found] at seen
      contradiction
    | other e => exact own c inPiece
  · intro all
    rwa [d.correctText_of_blank all]

theorem Visible.format_eq_nil_iff {d : Dictionary} (visible : d.Visible) {t : Text} :
    format d t = [] ↔ ∀ c ∈ t, isBlank c := by
  rw [format_eq_nil_iff_tokens, tokens_eq_nil_iff, visible.blank_correctText]

theorem mem_registrations {extra : List Entry} {entry : Entry}
    (registered : entry ∈ (withExtra extra).entries) : entry ∈ registrations extra := by
  have found : (registrations extra).reverse.lookup entry.1 = some entry.2 := by
    rw [← lookup_of_mem (nodup_keys extra) registered, lookup_withExtra]
    rfl
  exact List.mem_reverse.mp (mem_of_lookup found)

theorem exists_visible_of_trim {t : Text} (some : trim t ≠ []) :
    ∃ c ∈ trim t, isBlank c = false := by
  by_contra none
  have blank : ∀ c ∈ trim t, isBlank c := by
    intro c found
    by_contra seen
    exact none ⟨c, found, Bool.eq_false_iff.mpr seen⟩
  obtain ⟨front, back, split, inFront, inBack⟩ := exists_trim t
  have all : ∀ c ∈ t, isBlank c := by
    rw [split]
    intro c found
    rcases List.mem_append.mp found with found | found
    · exact inFront c found
    · exact (List.mem_append.mp found).elim (blank c) (inBack c)
  apply some
  rw [trim, trimStart, List.dropWhile_eq_nil_iff.mpr all]
  rfl

theorem visible_withExtra (extra : List Entry) : (withExtra extra).Visible := by
  have seen : builtinEntries.all fun entry => entry.2.any (!isBlank ·) := by decide +kernel
  have builtin : ∀ entry ∈ builtinEntries, ∃ c ∈ entry.2, isBlank c = false := by
    simpa only [List.all_eq_true, List.any_eq_true, Bool.not_eq_true'] using seen
  intro entry registered
  rcases List.mem_append.mp (mem_registrations registered) with known | accepted
  · exact builtin entry known
  · obtain ⟨inNormalized, accepts⟩ := List.mem_filter.mp accepted
    obtain ⟨pair, -, rfl⟩ := List.mem_map.mp inNormalized
    have some : trim pair.2 ≠ [] := mt upper_eq_nil_iff.mpr (acceptable_iff.mp accepts).2
    obtain ⟨c, inTrimmed, seen⟩ := exists_visible_of_trim some
    obtain ⟨e, rest, capitals⟩ := List.exists_cons_of_ne_nil (upperChar_ne_nil c)
    have inCapitals : e ∈ upperChar c := by simp [capitals]
    exact ⟨e, List.mem_flatMap.mpr ⟨c, inTrimmed, inCapitals⟩,
      isBlank_of_mem_upperChar seen inCapitals⟩

end Dictionary

/-- A formatted query has no blanks but those of its layout, with every dictionary; and with every
dictionary that can be built it is empty exactly if the query is blank. -/
theorem format_neat :
    (∀ (d : Dictionary) (t : Text), Neat (format d t)) ∧
      ∀ (extra : List Entry) (t : Text),
        format (.withExtra extra) t = [] ↔ ∀ c ∈ t, isBlank c :=
  ⟨neat_format, fun extra _ => (Dictionary.visible_withExtra extra).format_eq_nil_iff⟩

end QueryTidy
