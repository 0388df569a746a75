import QueryTidy.Proofs.Check.Misspellings
import QueryTidy.Proofs.Check.Structure

/-!
The checks do not see the blanks at the ends of a text. What they look for begins and ends with a
visible character, so wherever it stands, it stands within the trimmed text.
-/

set_option autoImplicit false
set_option relaxedAutoImplicit false

namespace QueryTidy

namespace Text

theorem exists_trim (t : Text) : ∃ front back, t = front ++ (trim t ++ back) ∧
    (∀ c ∈ front, isBlank c) ∧ ∀ c ∈ back, isBlank c := by
  refine ⟨t.takeWhile isBlank, ((trimStart t).reverse.takeWhile isBlank).reverse, ?_,
    List.all_eq_true.mp List.all_takeWhile, ?_⟩
  · have whole : trim t ++ ((trimStart t).reverse.takeWhile isBlank).reverse = trimStart t := by
      rw [trim, trimEnd, ← List.reverse_append, List.takeWhile_append_dropWhile,
        List.reverse_reverse]
    rw [whole, trimStart, List.takeWhile_append_dropWhile]
  · intro c found
    exact List.all_eq_true.mp List.all_takeWhile c (List.mem_reverse.mp found)

/-- Whether a text begins and ends with a visible character. -/
structure Solid (s : Text) : Prop where
  some : s ≠ []
  first : ∀ c ∈ s.head?, isBlank c = false
  last : ∀ c ∈ s.getLast?, isBlank c = false

theorem Solid.trim_between {s front back : Text} (solid : Solid s)
    (allFront : ∀ c ∈ front, isBlank c) (allBack : ∀ c ∈ back, isBlank c) :
    trim (front ++ (s ++ back)) = s := by
  have start : trimStart (front ++ (s ++ back)) = s ++ back := by
    obtain ⟨c, s, rfl⟩ := List.exists_cons_of_ne_nil solid.some
    have visible : isBlank c = false := solid.first c rfl
    rw [trimStart, List.dropWhile_append_of_pos allFront]
    exact List.dropWhile_cons_of_neg (by simp [visible])
  obtain ⟨s, c, rfl⟩ := (List.eq_nil_or_concat s).resolve_left solid.some
  have visible : isBlank c = false := solid.last c (by simp)
  have reversed : ∀ e ∈ back.reverse, isBlank e := by simpa using allBack
  rw [trim, start, trimEnd, List.reverse_append, List.dropWhile_append_of_pos reversed,
    List.concat_eq_append, List.reverse_concat, List.dropWhile_cons_of_neg (by simp [visible])]
  simp

theorem IsWord.solid {w : Text} (word : IsWord w) : Solid w where
  some := word.1
  first c first := isBlank_of_isWordChar (word.2 c (List.mem_of_mem_head? first))
  last c last := isBlank_of_isWordChar (word.2 c (List.mem_of_mem_getLast? last))

theorem Solid.enclose {x y : Text} (left : Solid x) (right : Solid y) (m : Text) :
    Solid (x ++ (m ++ y)) where
  some := by simp [left.some]
  first := by
    obtain ⟨c, x, rfl⟩ := List.exists_cons_of_ne_nil left.some
    exact left.first
  last := by
    obtain ⟨y, c, rfl⟩ := (List.eq_nil_or_concat y).resolve_left right.some
    simpa using right.last

def isCapitalised (phrase : Text) : Bool :=
  phrase.head?.any isPlainCapital && phrase.getLast?.any isPlainCapital

theorem solid_of_sameWord {phrase s : Text} (capitalised : isCapitalised phrase)
    (same : sameWord phrase s) : Solid s := by
  obtain rfl := sameWord_iff.mp same
  obtain ⟨first, last⟩ := Bool.and_eq_true_iff.mp capitalised
  refine ⟨?_, fun c isFirst => ?_, fun c isLast => ?_⟩
  · rintro rfl
    exact absurd first (by simp)
  · apply isBlank_of_isWordChar
    apply isWordChar_of_foldChar
    simpa [Option.mem_def.mp isFirst] using first
  · apply isBlank_of_isWordChar
    apply isWordChar_of_foldChar
    simpa [Option.mem_def.mp isLast] using last

private theorem Solid.behind {s front t a b : Text} (solid : Solid s)
    (all : ∀ c ∈ front, isBlank c) (split : front ++ t = a ++ (s ++ b)) :
    ∃ a', t = a' ++ (s ++ b) := by
  rcases List.append_eq_append_iff.mp split with ⟨m, rfl, rest⟩ | ⟨m, rfl, rest⟩
  · exact ⟨m, rest⟩
  · cases m with
    | nil => exact ⟨[], by simpa using rest.symm⟩
    | cons c m =>
      obtain ⟨e, s, rfl⟩ := List.exists_cons_of_ne_nil solid.some
      obtain ⟨rfl, -⟩ := List.cons.inj rest
      have visible := solid.first e rfl
      rw [all e (by simp)] at visible
      contradiction

private theorem Solid.reverse {s : Text} (solid : Solid s) : Solid s.reverse where
  some := by simpa using solid.some
  first := by simpa using solid.last
  last := by simpa using solid.first

theorem Solid.between {s front t back a b : Text} (solid : Solid s)
    (allFront : ∀ c ∈ front, isBlank c) (allBack : ∀ c ∈ back, isBlank c)
    (split : front ++ (t ++ back) = a ++ (s ++ b)) : ∃ a' b', t = a' ++ (s ++ b') := by
  obtain ⟨a', behind⟩ := solid.behind allFront split
  have reversed : back.reverse ++ t.reverse = b.reverse ++ (s.reverse ++ a'.reverse) := by
    rw [← List.reverse_append, behind]
    simp
  obtain ⟨b', before⟩ := solid.reverse.behind (by simpa using allBack) reversed
  refine ⟨a', b'.reverse, ?_⟩
  rw [← List.reverse_reverse t, before]
  simp

theorem exists_in_trim_iff {P : Text → Prop} (solid : ∀ s, P s → Solid s) (t : Text) :
    (∃ a s b, P s ∧ trim t = a ++ (s ++ b)) ↔ ∃ a s b, P s ∧ t = a ++ (s ++ b) := by
  obtain ⟨front, back, whole, allFront, allBack⟩ := exists_trim t
  constructor
  · rintro ⟨a, s, b, holds, split⟩
    refine ⟨front ++ a, s, b ++ back, holds, ?_⟩
    rw [split] at whole
    simpa using whole
  · rintro ⟨a, s, b, holds, split⟩
    obtain ⟨a', b', inner⟩ := (solid s holds).between allFront allBack (whole.symm.trans split)
    exact ⟨a', s, b', holds, inner⟩

theorem tokens_trim (t : Text) : tokens (trim t) = tokens t := by
  obtain ⟨front, back, whole, allFront, allBack⟩ := exists_trim t
  conv_rhs => rw [whole, tokens_blank_append allFront, tokens_append_blank _ allBack]

theorem words_eq_filterMap_tokens (t : Text) : words t = (tokens t).filterMap Piece.word? := by
  rw [words, tokens, List.filterMap_filter]
  apply List.filterMap_congr
  intro p _
  cases p with
  | word run => rfl
  | other c => simp [Piece.word?]

theorem occursIn_trim {phrase : Text} (capitalised : isCapitalised phrase) (t : Text) :
    occursIn phrase (trim t) ↔ occursIn phrase t := by
  rw [occursIn_iff, occursIn_iff]
  exact exists_in_trim_iff (fun s same => solid_of_sameWord capitalised same) t

end Text

namespace Check

open Text

def CreatesTable (s : Text) : Prop :=
  ∃ k gap w, sameWord "CREATE TABLE".toList k ∧ IsGap gap ∧ IsWord w ∧ s = k ++ (gap ++ w)

def GroupsSelection (s : Text) : Prop :=
  ∃ k m g, sameWord "SELECT".toList k ∧ sameWord "GROUP BY".toList g ∧ s = k ++ (m ++ g)

def JoinsPlainly (s : Text) : Prop :=
  ∃ f s₁ w₁ s₂ j s₃ w₂, sameWord "FROM".toList f ∧ sameWord "JOIN".toList j ∧
    (IsGap s₁ ∧ IsGap s₂ ∧ IsGap s₃) ∧ (IsWord w₁ ∧ IsWord w₂) ∧
    s = f ++ ((s₁ ++ (w₁ ++ (s₂ ++ (j ++ s₃)))) ++ w₂)

theorem creates_iff {t : Text} :
    anySuffix startsCreateTable t ↔ ∃ a s b, CreatesTable s ∧ t = a ++ (s ++ b) := by
  simp only [anySuffix_iff, startsCreateTable_iff]
  constructor
  · rintro ⟨a, b, rfl, k, gap, w, rest, same, isGap, isWord, rfl⟩
    exact ⟨a, k ++ (gap ++ w), rest, ⟨k, gap, w, same, isGap, isWord, rfl⟩, by simp⟩
  · rintro ⟨a, _, b, ⟨k, gap, w, same, isGap, isWord, rfl⟩, rfl⟩
    exact ⟨a, _, rfl, k, gap, w, b, same, isGap, isWord, by simp⟩

theorem groups_iff {t : Text} :
    groupsSelection t ↔ ∃ a s b, GroupsSelection s ∧ t = a ++ (s ++ b) := by
  simp only [groupsSelection_iff, occursIn_iff]
  constructor
  · rintro ⟨_, g, b, isGroup, rfl, a, k, m, isSelect, rfl⟩
    exact ⟨a, k ++ (m ++ g), b, ⟨k, m, g, isSelect, isGroup, rfl⟩, by simp⟩
  · rintro ⟨a, _, b, ⟨k, m, g, isSelect, isGroup, rfl⟩, rfl⟩
    exact ⟨a ++ (k ++ m), g, b, isGroup, by simp, a, k, m, isSelect, rfl⟩

theorem joins_iff {t : Text} :
    anySuffix startsPlainJoin t ↔ ∃ a s b, JoinsPlainly s ∧ t = a ++ (s ++ b) := by
  simp only [anySuffix_iff, startsPlainJoin_iff]
  constructor
  · rintro ⟨a, _, rfl, f, s₁, w₁, s₂, j, s₃, w₂, rest, isFrom, isJoin, gaps, words, rfl⟩
    exact ⟨a, _, rest, ⟨f, s₁, w₁, s₂, j, s₃, w₂, isFrom, isJoin, gaps, words, rfl⟩, by simp⟩
  · rintro ⟨a, _, b, ⟨f, s₁, w₁, s₂, j, s₃, w₂, isFrom, isJoin, gaps, words, rfl⟩, rfl⟩
    exact ⟨a, _, rfl, f, s₁, w₁, s₂, j, s₃, w₂, b, isFrom, isJoin, gaps, words, by simp⟩

theorem CreatesTable.solid {s : Text} : CreatesTable s → Solid s := by
  rintro ⟨k, gap, w, same, -, word, rfl⟩
  exact (solid_of_sameWord (by decide) same).enclose word.solid gap

theorem GroupsSelection.solid {s : Text} : GroupsSelection s → Solid s := by
  rintro ⟨k, m, g, isSelect, isGroup, rfl⟩
  have left := solid_of_sameWord (by decide) isSelect
  exact left.enclose (solid_of_sameWord (by decide) isGroup) m

theorem JoinsPlainly.solid {s : Text} : JoinsPlainly s → Solid s := by
  rintro ⟨f, s₁, w₁, s₂, j, s₃, w₂, isFrom, -, -, ⟨-, word⟩, rfl⟩
  exact (solid_of_sameWord (by decide) isFrom).enclose word.solid _

theorem exists_flag {rule : Rule} (structural : rule ≠ .misspelledKeyword) :
    ∃ (violated : Text → Bool) (message suggestion : String),
      ∀ d t, run d rule t = flag (violated t) rule message suggestion := by
  cases rule with
  | misspelledKeyword => exact absurd rfl structural
  | missingSemicolon => exact ⟨lacksSemicolon, _, _, fun _ _ => rfl⟩
  | incompleteCreateTable => exact ⟨lacksColumns, _, _, fun _ _ => rfl⟩
  | unmatchedParentheses => exact ⟨unbalanced, _, _, fun _ _ => rfl⟩
  | groupByWithoutSelect => exact ⟨groupsAlone, _, _, fun _ _ => rfl⟩
  | incorrectJoin => exact ⟨joinsOddly, _, _, fun _ _ => rfl⟩

theorem run_congr {d : Dictionary} {rule : Rule} (structural : rule ≠ .misspelledKeyword)
    {t u : Text} (same : Reports d rule t ↔ Reports d rule u) : run d rule t = run d rule u := by
  obtain ⟨violated, message, suggestion, flagged⟩ := exists_flag structural
  unfold Reports at same
  rw [flagged, flagged, flag_ne_nil_iff, flag_ne_nil_iff, ← Bool.eq_iff_iff] at same
  rw [flagged, flagged, same]

/-- Every check finds the same in a text and in the trimmed text. -/
theorem run_trim (d : Dictionary) (rule : Rule) (t : Text) :
    run d rule (trim t) = run d rule t := by
  have marked : marks (trim t) = marks t := by rw [marks, marks, tokens_trim]
  cases rule with
  | misspelledKeyword =>
    change (words (trim t)).filterMap _ = (words t).filterMap _
    rw [words_eq_filterMap_tokens, words_eq_filterMap_tokens, tokens_trim]
  | missingSemicolon =>
    apply run_congr (by decide)
    rw [reports_semicolon_iff, reports_semicolon_iff, marked]
  | incompleteCreateTable =>
    apply run_congr (by decide)
    rw [reports_table_iff, reports_table_iff, marked, creates_iff, creates_iff,
      exists_in_trim_iff fun _ => CreatesTable.solid]
  | unmatchedParentheses =>
    apply run_congr (by decide)
    rw [reports_parentheses_iff, reports_parentheses_iff, marked]
  | groupByWithoutSelect =>
    apply run_congr (by decide)
    rw [reports_grouping_iff, reports_grouping_iff, groups_iff, groups_iff,
      occursIn_trim (by decide),
      exists_in_trim_iff fun _ => GroupsSelection.solid]
  | incorrectJoin =>
    apply run_congr (by decide)
    rw [reports_join_iff, reports_join_iff, joins_iff, joins_iff,
      occursIn_trim (by decide),
      exists_in_trim_iff fun _ => JoinsPlainly.solid]

end Check

end QueryTidy
