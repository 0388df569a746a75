import QueryTidy.Proofs.Check.Patterns
import QueryTidy.Proofs.WordRows

/-!
The structural checks on a formatted query. The closing semicolon and the balance of parentheses are
read off the characters that stand in no word, which formatting keeps in their places. The patterns
of the other checks are rows of words, and a row of words stays one; only its blanks change, and a
pattern that asks for one space finds it where no line can begin.
-/

set_option autoImplicit false
set_option relaxedAutoImplicit false

namespace QueryTidy

open Text Layout

namespace Text

def Piece.mark? : Piece → Option Char
  | .word _ => none
  | .other c => some c

/-- The visible characters of a text that stand in no word, in order, and the places of its words
among them. -/
def marks (t : Text) : List (Option Char) :=
  (tokens t).map Piece.mark?

private theorem count_flatMap_text {c : Char} (other : isWordChar c = false)
    (visible : isBlank c = false) {ps : List Piece} (proper : ∀ p ∈ ps, p.Proper) :
    (ps.flatMap Piece.text).count c =
      ((ps.filter fun p => !p.blank).map Piece.mark?).count (some c) := by
  induction ps with
  | nil => rfl
  | cons p ps ih =>
    have rest := ih fun q inRest => proper q (List.mem_cons_of_mem p inRest)
    cases p with
    | word run =>
      have isWord : IsWord run := proper (.word run) (by simp)
      have none : run.count c = 0 := by
        rw [List.count_eq_zero]
        intro inRun
        rw [isWord.2 c inRun] at other
        contradiction
      simp [Piece.blank, Piece.text, Piece.mark?, none, rest]
    | other e =>
      by_cases blank : isBlank e
      · have differ : e ≠ c := by
          rintro rfl
          rw [blank] at visible
          contradiction
        simp [Piece.blank, Piece.text, blank, differ, rest]
      · simp [Piece.blank, Piece.text, Piece.mark?, blank, List.count_cons, rest]

theorem count_eq_count_marks {c : Char} (other : isWordChar c = false)
    (visible : isBlank c = false) (t : Text) : t.count c = (marks t).count (some c) := by
  have whole := count_flatMap_text other visible (cut_pieces t).proper
  rwa [text_pieces] at whole

private theorem getLast?_marks {c : Char} (visible : isBlank c = false) (front : Text)
    {blank : Text} (all : ∀ e ∈ blank, isBlank e) :
    (marks (front ++ c :: blank)).getLast? = some (if isWordChar c then none else some c) := by
  have split : front ++ c :: blank = (front ++ [c]) ++ blank := by simp
  rw [marks, split, tokens_append_blank _ all]
  by_cases inWord : isWordChar c
  · have word : IsWord [c] := ⟨by simp, by simpa using inWord⟩
    obtain ⟨a, x, -, occurs⟩ := exists_occurs_of_breaks word front (b := []) (by simp [Breaks])
    rw [List.append_nil] at occurs
    rw [occurs.tokens_eq rfl]
    simp [inWord, Piece.mark?, tokens, pieces]
  · have occurs := occurs_other (rfl : front ++ [c] = _) (Bool.eq_false_iff.mpr inWord)
    rw [occurs.tokens_eq visible]
    simp [inWord, Piece.mark?, tokens, pieces]

private theorem getLast?_trim {c : Char} (visible : isBlank c = false) (front : Text)
    {blank : Text} (all : ∀ e ∈ blank, isBlank e) :
    (trim (front ++ c :: blank)).getLast? = some c := by
  have start : ∃ front', trimStart (front ++ c :: blank) = front' ++ c :: blank := by
    rw [trimStart, List.dropWhile_append]
    split
    · exact ⟨[], List.dropWhile_cons_of_neg (by simp [visible])⟩
    · exact ⟨_, rfl⟩
  obtain ⟨front', shape⟩ := start
  have reversed : ∀ e ∈ blank.reverse, isBlank e := by simpa using all
  rw [trim, shape, trimEnd, List.reverse_append, List.reverse_cons, List.append_assoc,
    List.dropWhile_append_of_pos reversed, List.singleton_append,
    List.dropWhile_cons_of_neg (by simp [visible])]
  simp

end Text

namespace Check

theorem lacksSemicolon_iff {t : Text} :
    lacksSemicolon t ↔ ∃ m ∈ (marks t).getLast?, m ≠ some ';' := by
  obtain ⟨front, blank, rfl, all, last⟩ := exists_trailing isBlank t
  rcases List.eq_nil_or_concat front with rfl | ⟨front, c, rfl⟩
  · have nothing : trim blank = [] := by
      rw [← List.append_nil blank, trim, trimStart, List.dropWhile_append_of_pos all]
      rfl
    have noMarks : marks blank = [] := by
      rw [marks, ← List.nil_append blank, tokens_append_blank [] all]
      rfl
    simp [lacksSemicolon, nothing, noMarks]
  · have visible : isBlank c = false := last c (by simp)
    have split : front.concat c ++ blank = front ++ c :: blank := by simp
    rw [split, getLast?_marks visible front all, lacksSemicolon, getLast?_trim visible front all]
    by_cases inWord : isWordChar c
    · have notMark : c ≠ ';' := by
        rintro rfl
        exact absurd inWord (by decide)
      simp [inWord, notMark]
    · simp [inWord]

end Check

theorem mark?_respell (role : Role) (p : Piece) : (respell role p).mark? = p.mark? := by
  unfold respell
  split
  · rfl
  · cases p <;> rfl

theorem Dictionary.mark?_respelled (d : Dictionary) (p : Piece) :
    (d.respelled p).mark? = p.mark? := by
  cases p <;> rfl

theorem Dictionary.WordForWord.marks_format {d : Dictionary} (single : d.WordForWord) (t : Text) :
    marks (format d t) = marks t := by
  calc marks (format d t)
      = (ranked (formatItems d t)).map fun x => (respell x.2 x.1.piece).mark? := by
        rw [marks, tokens_format, List.map_map]
        rfl
    _ = ((ranked (formatItems d t)).map Prod.fst).map fun i => i.piece.mark? := by
        simp only [mark?_respell, List.map_map, Function.comp_def]
    _ = (items false (pieces t)).map fun i => i.piece.mark? := by
        rw [map_fst_ranked, single.formatItems_eq, List.map_map]
        simp only [Function.comp_def, Item.rewrite, Dictionary.mark?_respelled]
    _ = marks t := by
        rw [marks, tokens, ← map_piece_items false, List.map_map]
        rfl

/-- A word that begins with a phrase which is neither corrected nor begins a line stands after one
space and begins with the phrase again. -/
theorem Dictionary.Typeset.second {d : Dictionary} {phrase gap s y : Text} {x : Text × Text}
    (typeset : d.Typeset (gap, s ++ y) x) (foreign : d.Foreign phrase)
    (apart : ∀ w ∈ starters, ¬ phrase <+: w) (same : sameWord phrase s) :
    ∃ s' y', x = ([' '], s' ++ y') ∧ sameWord phrase s' ∧ y'.map foldChar = y.map foldChar := by
  have keeps : d.Keeps (s ++ y) := foreign.keeps (occursIn_iff.mpr ⟨[], s, y, same, rfl⟩)
  have folded := keeps.respelt typeset.word
  rw [List.map_append] at folded
  obtain ⟨s', y', split, inS, inY⟩ := List.map_eq_append_iff.mp folded
  have noStarter : starters.holds (d.respelled (.word (s ++ y))) = false := by
    rw [Bool.eq_false_iff]
    intro held
    obtain ⟨w, known, spelt⟩ := List.any_eq_true.mp held
    rw [keeps, sameWord_iff, List.map_append, sameWord_iff.mp same] at spelt
    exact apart w known ⟨_, spelt⟩
  refine ⟨s', y', ?_, sameWord_iff.mpr (inS.trans (sameWord_iff.mp same)), inY⟩
  rw [← typeset.space noStarter, ← split]

namespace Check

theorem creates_format {t : Text} (creates : anySuffix startsCreateTable t) :
    anySuffix startsCreateTable (format .builtin t) := by
  obtain ⟨a, b, rfl, starts⟩ := anySuffix_iff.mp creates
  obtain ⟨s, gap, w, rest, same, isGap, isWord, rfl⟩ := startsCreateTable_iff.mp starts
  have phrase : sameWord ("CREATE".toList ++ ' ' :: "TABLE".toList) s := same
  obtain ⟨create, table, rfl, isCreate, isTable⟩ := sameWord_space_iff.mp phrase
  obtain ⟨y, rest, rfl, inY, ended⟩ := exists_leading isWordChar rest
  have foreign : Dictionary.builtin.Foreign "TABLE".toList := by decide +kernel
  have isRow : IsRow [([' '], table ++ []), (gap, w ++ y)] :=
    .cons isGap_space
      ((isWord_of_sameWord foreign.2.1 foreign.1 isTable).append (by simp))
      (.cons isGap (isWord.append inY) (by simp [IsRow]))
  obtain ⟨a', create', row', rest', text, isCreate', related, -⟩ :=
    format_row_of_foreign Dictionary.builtin_wordForWord (by decide +kernel) isCreate a isRow ended
  obtain ⟨_, _, second, more, rfl⟩ := List.forall₂_cons_left_iff.mp related
  obtain ⟨⟨gap', w'⟩, _, third, none, rfl⟩ := List.forall₂_cons_left_iff.mp more
  obtain rfl := List.forall₂_nil_left_iff.mp none
  obtain ⟨table', y', rfl, isTable', nothing⟩ := second.second foreign (by decide) isTable
  obtain rfl : y' = [] := by simpa using nothing
  have phrase' : sameWord "CREATE TABLE".toList (create' ++ ' ' :: table') :=
    sameWord_space_iff.mpr ⟨create', table', rfl, isCreate', isTable'⟩
  have source : a ++ (create ++ ' ' :: table ++ (gap ++ (w ++ (y ++ rest)))) =
      a ++ (create ++ (rowText [([' '], table ++ []), (gap, w ++ y)] ++ rest)) := by simp [rowText]
  refine anySuffix_iff.mpr ⟨a', _, ?_, startsCreateTable_iff.mpr
    ⟨create' ++ ' ' :: table', gap', w', rest', phrase', third.gap, third.word.1, rfl⟩⟩
  rw [source, text]
  simp [rowText]

theorem groupsSelection_format {t : Text} (groups : groupsSelection t) :
    groupsSelection (format .builtin t) := by
  obtain ⟨a, g, b, same, rfl, selects⟩ := groupsSelection_iff.mp groups
  have phrase : sameWord ("GROUP".toList ++ ' ' :: "BY".toList) g := same
  obtain ⟨group, key, rfl, isGroup, isKey⟩ := sameWord_space_iff.mp phrase
  obtain ⟨y, rest, rfl, inY, ended⟩ := exists_leading isWordChar b
  have foreign : Dictionary.builtin.Foreign "BY".toList := by decide +kernel
  have isRow : IsRow [([' '], key ++ y)] :=
    .cons isGap_space ((isWord_of_sameWord foreign.2.1 foreign.1 isKey).append inY)
      (by simp [IsRow])
  obtain ⟨a', group', row', rest', text, isGroup', related, kept⟩ :=
    format_row_of_foreign Dictionary.builtin_wordForWord (by decide +kernel) isGroup a isRow ended
  obtain ⟨_, _, second, none, rfl⟩ := List.forall₂_cons_left_iff.mp related
  obtain rfl := List.forall₂_nil_left_iff.mp none
  obtain ⟨key', y', rfl, isKey', -⟩ := second.second foreign (by decide) isKey
  have phrase' : sameWord "GROUP BY".toList (group' ++ ' ' :: key') :=
    sameWord_space_iff.mpr ⟨group', key', rfl, isGroup', isKey'⟩
  have source : a ++ (group ++ ' ' :: key ++ (y ++ rest)) =
      a ++ (group ++ (rowText [([' '], key ++ y)] ++ rest)) := by simp [rowText]
  refine groupsSelection_iff.mpr ⟨a', group' ++ ' ' :: key', y' ++ rest', phrase', ?_,
    kept _ (by decide +kernel) selects⟩
  rw [source, text]
  simp [rowText]

theorem joins_format {t : Text} (joins : anySuffix startsPlainJoin t) :
    anySuffix startsPlainJoin (format .builtin t) := by
  obtain ⟨a, b, rfl, starts⟩ := anySuffix_iff.mp joins
  obtain ⟨f, s₁, w₁, s₂, j, s₃, w₂, rest, isFrom, isJoin, ⟨gap₁, gap₂, gap₃⟩, ⟨word₁, word₂⟩,
    rfl⟩ := startsPlainJoin_iff.mp starts
  obtain ⟨y, rest, rfl, inY, ended⟩ := exists_leading isWordChar rest
  have capitals : "JOIN".toList.all isPlainCapital := by decide
  have isRow : IsRow [(s₁, w₁), (s₂, j), (s₃, w₂ ++ y)] :=
    .cons gap₁ word₁ (.cons gap₂ (isWord_of_sameWord capitals (by decide) isJoin)
      (.cons gap₃ (word₂.append inY) (by simp [IsRow])))
  obtain ⟨a', f', row', rest', text, isFrom', related, -⟩ :=
    format_row_of_foreign Dictionary.builtin_wordForWord (by decide +kernel) isFrom a isRow ended
  obtain ⟨⟨s₁', w₁'⟩, _, first, more, rfl⟩ := List.forall₂_cons_left_iff.mp related
  obtain ⟨⟨s₂', j'⟩, _, second, last, rfl⟩ := List.forall₂_cons_left_iff.mp more
  obtain ⟨⟨s₃', w₂'⟩, _, third, none, rfl⟩ := List.forall₂_cons_left_iff.mp last
  obtain rfl := List.forall₂_nil_left_iff.mp none
  have unlisted : ∀ entry ∈ Dictionary.builtin.entries, entry.1 ≠ upper j := by
    rw [upper_of_sameWord capitals isJoin]
    decide +kernel
  have isJoin' : sameWord "JOIN".toList j' := by
    have folded := (Dictionary.keeps_of_unlisted unlisted).respelt second.word
    exact sameWord_iff.mpr (folded.trans (sameWord_iff.mp isJoin))
  have source : a ++ (f ++ (s₁ ++ (w₁ ++ (s₂ ++ (j ++ (s₃ ++ (w₂ ++ (y ++ rest)))))))) =
      a ++ (f ++ (rowText [(s₁, w₁), (s₂, j), (s₃, w₂ ++ y)] ++ rest)) := by simp [rowText]
  refine anySuffix_iff.mpr ⟨a', _, ?_, startsPlainJoin_iff.mpr ⟨f', s₁', w₁', s₂', j', s₃', w₂',
    rest', isFrom', isJoin', ⟨first.gap, second.gap, third.gap⟩, ⟨first.word.1, third.word.1⟩, rfl⟩⟩
  rw [source, text]
  simp [rowText]

/-- Whether a rule has something to report about a text. -/
def Reports (d : Dictionary) (rule : Rule) (t : Text) : Prop :=
  run d rule t ≠ []

instance (d : Dictionary) (rule : Rule) (t : Text) : Decidable (Reports d rule t) :=
  inferInstanceAs (Decidable (_ ≠ []))

theorem flag_ne_nil_iff {violated : Bool} {rule : Rule} {message suggestion : String} :
    flag violated rule message suggestion ≠ [] ↔ violated := by
  cases violated <;> simp [flag]

theorem reports_semicolon_iff {d : Dictionary} {t : Text} :
    Reports d .missingSemicolon t ↔ ∃ m ∈ (marks t).getLast?, m ≠ some ';' :=
  flag_ne_nil_iff.trans lacksSemicolon_iff

theorem reports_parentheses_iff {d : Dictionary} {t : Text} :
    Reports d .unmatchedParentheses t ↔
      (marks t).count (some '(') ≠ (marks t).count (some ')') := by
  rw [← count_eq_count_marks rfl rfl, ← count_eq_count_marks rfl rfl]
  exact flag_ne_nil_iff.trans (by simp [unbalanced])

theorem reports_table_iff {d : Dictionary} {t : Text} :
    Reports d .incompleteCreateTable t ↔
      (marks t).count (some '(') = 0 ∧ anySuffix startsCreateTable t := by
  rw [← count_eq_count_marks rfl rfl]
  exact flag_ne_nil_iff.trans (by simp [lacksColumns, List.count_eq_zero])

theorem reports_grouping_iff {d : Dictionary} {t : Text} :
    Reports d .groupByWithoutSelect t ↔ occursIn "GROUP BY".toList t ∧ ¬ groupsSelection t := by
  refine flag_ne_nil_iff.trans ?_
  rw [groupsAlone, Bool.and_eq_true, Bool.not_eq_true', Bool.not_eq_true]

theorem reports_join_iff {d : Dictionary} {t : Text} :
    Reports d .incorrectJoin t ↔ occursIn "JOIN".toList t ∧ ¬ anySuffix startsPlainJoin t := by
  refine flag_ne_nil_iff.trans ?_
  rw [joinsOddly, Bool.and_eq_true, Bool.not_eq_true', Bool.not_eq_true]

end Check

open Check

/-- Formatting makes no structural check worse. -/
theorem format_keeps_structure (t : Text) :
    (Reports .builtin .missingSemicolon (format .builtin t) ↔
      Reports .builtin .missingSemicolon t) ∧
    (Reports .builtin .unmatchedParentheses (format .builtin t) ↔
      Reports .builtin .unmatchedParentheses t) ∧
    (Reports .builtin .incompleteCreateTable t →
      Reports .builtin .incompleteCreateTable (format .builtin t)) ∧
    (occursIn "GROUP BY".toList t → ¬ Reports .builtin .groupByWithoutSelect t →
      ¬ Reports .builtin .groupByWithoutSelect (format .builtin t)) ∧
    (occursIn "JOIN".toList t → ¬ Reports .builtin .incorrectJoin t →
      ¬ Reports .builtin .incorrectJoin (format .builtin t)) := by
  have kept := Dictionary.builtin_wordForWord.marks_format t
  refine ⟨?_, ?_, ?_, ?_, ?_⟩
  · rw [reports_semicolon_iff, reports_semicolon_iff, kept]
  · rw [reports_parentheses_iff, reports_parentheses_iff, kept]
  · rw [reports_table_iff, reports_table_iff, kept]
    rintro ⟨closed, creates⟩
    exact ⟨closed, creates_format creates⟩
  · rw [reports_grouping_iff, reports_grouping_iff]
    rintro groups silent ⟨-, alone⟩
    have selection : groupsSelection t := by
      by_contra none
      exact silent ⟨groups, none⟩
    exact alone (groupsSelection_format selection)
  · rw [reports_join_iff, reports_join_iff]
    rintro joins silent ⟨-, oddly⟩
    have plain : anySuffix startsPlainJoin t := by
      by_contra none
      exact silent ⟨joins, none⟩
    exact oddly (joins_format plain)

theorem format_keeps_structure_report :
    let t := "create table x as\tſelect a from FRM join b group by c".toList
    format .builtin t =
      "create table x as\nSELECT a\nFROM\nFROM\nJOIN b\nGROUP BY c".toList ∧
    Reports .builtin .incompleteCreateTable t ∧ occursIn "GROUP BY".toList t ∧
    ¬ Reports .builtin .groupByWithoutSelect t ∧ occursIn "JOIN".toList t ∧
    ¬ Reports .builtin .incorrectJoin t ∧
    Reports .builtin .incompleteCreateTable (format .builtin t) ∧
    ¬ Reports .builtin .groupByWithoutSelect (format .builtin t) ∧
    ¬ Reports .builtin .incorrectJoin (format .builtin t) := by
  intro t
  have creates : Reports .builtin .incompleteCreateTable t := by decide +kernel
  have groups : occursIn "GROUP BY".toList t := by decide +kernel
  have grouped : ¬ Reports .builtin .groupByWithoutSelect t := by decide +kernel
  have joins : occursIn "JOIN".toList t := by decide +kernel
  have joined : ¬ Reports .builtin .incorrectJoin t := by decide +kernel
  obtain ⟨-, -, table, grouping, join⟩ := format_keeps_structure t
  exact ⟨by decide +kernel, creates, groups, grouped, joins, joined, table creates,
    grouping groups grouped, join joins joined⟩

end QueryTidy
