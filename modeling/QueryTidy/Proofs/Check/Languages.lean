import QueryTidy.Proofs.Check.Trimming
import Mathlib.Computability.Language

/-!
The shapes of text that the checks search for, as languages. A shape is found in a text wherever one
of its texts stands, and no choice of where to begin or of how far a run goes is part of that. The
checks go through a text once, take every run as far as it goes and leave the columns of a table
out, and they report exactly what the shapes say.
-/

set_option autoImplicit false
set_option relaxedAutoImplicit false

namespace QueryTidy

open scoped Computability

namespace Text

def spellings (phrase : Text) : Language Char :=
  {s | sameWord phrase s}

def oneOf (inClass : Char → Bool) : Language Char :=
  {s | ∃ c, inClass c ∧ s = [c]}

def someOf (inClass : Char → Bool) : Language Char :=
  oneOf inClass * (oneOf inClass)∗

/-- Whether one of some texts stands anywhere in a text. -/
def FoundIn (shape : Language Char) (t : Text) : Prop :=
  ∃ s ∈ shape, s <:+: t

theorem mem_spellings {phrase s : Text} : s ∈ spellings phrase ↔ sameWord phrase s :=
  Iff.rfl

theorem mem_kstar_oneOf {inClass : Char → Bool} {s : Text} :
    s ∈ (oneOf inClass)∗ ↔ ∀ c ∈ s, inClass c := by
  constructor
  · rintro ⟨parts, rfl, each⟩ c found
    obtain ⟨u, inParts, inPart⟩ := List.mem_flatten.mp found
    obtain ⟨e, member, rfl⟩ := each u inParts
    rwa [List.mem_singleton.mp inPart]
  · intro all
    refine ⟨s.map fun c => [c], (List.flatMap_def.symm.trans (List.flatMap_singleton' s)).symm, ?_⟩
    intro u inParts
    obtain ⟨c, found, rfl⟩ := List.mem_map.mp inParts
    exact ⟨c, all c found, rfl⟩

theorem mem_someOf {inClass : Char → Bool} {s : Text} :
    s ∈ someOf inClass ↔ s ≠ [] ∧ ∀ c ∈ s, inClass c := by
  simp only [someOf, Language.mem_mul, mem_kstar_oneOf]
  constructor
  · rintro ⟨_, ⟨c, first, rfl⟩, rest, more, rfl⟩
    exact ⟨by simp, by simpa [first] using more⟩
  · rintro ⟨some, all⟩
    obtain ⟨c, rest, rfl⟩ := List.exists_cons_of_ne_nil some
    refine ⟨[c], ⟨c, all c (by simp), rfl⟩, rest, ?_, rfl⟩
    exact fun e found => all e (List.mem_cons_of_mem c found)

/-- Whether a phrase, up to case, stands in a text after so many characters. -/
def StandsAt (phrase t : Text) (n : Nat) : Prop :=
  ∃ a s b, a.length = n ∧ sameWord phrase s ∧ t = a ++ (s ++ b)

theorem length_of_sameWord {phrase s : Text} (same : sameWord phrase s) :
    s.length = phrase.length := by
  rw [← sameWord_iff.mp same, List.length_map]

theorem occursIn_iff_standsAt {phrase t : Text} :
    occursIn phrase t ↔ ∃ n, StandsAt phrase t n := by
  rw [occursIn_iff]
  constructor
  · rintro ⟨a, s, b, same, split⟩
    exact ⟨a.length, a, s, b, rfl, same, split⟩
  · rintro ⟨_, a, s, b, -, same, split⟩
    exact ⟨a, s, b, same, split⟩

theorem exists_factor_iff {P : Text → Prop} {t : Text} :
    (∃ a s b, P s ∧ t = a ++ (s ++ b)) ↔ ∃ s, P s ∧ s <:+: t := by
  constructor
  · rintro ⟨a, s, b, holds, rfl⟩
    exact ⟨s, holds, a, b, by simp⟩
  · rintro ⟨s, holds, a, b, rfl⟩
    exact ⟨a, s, b, holds, by simp⟩

end Text

namespace Check

open Text

/-- A list of columns, all in one line. -/
def columnList : Language Char :=
  (oneOf isBlank)∗ * (oneOf (· == '(') * ((oneOf (· != '\n'))∗ * oneOf (· == ')')))

/-- `CREATE TABLE` with the name of the table, and with its columns if they come next. -/
def tableCreation : Language Char :=
  spellings "CREATE TABLE".toList * (someOf isBlank * (someOf isWordChar * (1 + columnList)))

/-- `SELECT` with `GROUP BY` anywhere after it. -/
def groupedSelection : Language Char :=
  spellings "SELECT".toList * ((oneOf fun _ => true)∗ * spellings "GROUP BY".toList)

/-- `FROM` and `JOIN` with one word after each. -/
def plainJoin : Language Char :=
  spellings "FROM".toList * (someOf isBlank * (someOf isWordChar * (someOf isBlank *
    (spellings "JOIN".toList * (someOf isBlank * someOf isWordChar)))))

theorem foundIn_tableCreation {t : Text} :
    FoundIn tableCreation t ↔ ∃ s, CreatesTable s ∧ s <:+: t := by
  simp only [FoundIn, tableCreation, Language.mem_mul, Language.mem_add, Language.mem_one,
    mem_spellings, mem_someOf]
  constructor
  · rintro ⟨_, ⟨k, same, _, ⟨gap, isGap, _, ⟨w, isWord, columns, -, rfl⟩, rfl⟩, rfl⟩, found⟩
    refine ⟨k ++ (gap ++ w), ⟨k, gap, w, same, isGap, isWord, rfl⟩, ?_⟩
    exact List.IsInfix.trans ⟨[], columns, by simp⟩ found
  · rintro ⟨_, ⟨k, gap, w, same, isGap, isWord, rfl⟩, found⟩
    refine ⟨k ++ (gap ++ (w ++ [])), ?_, by simpa using found⟩
    exact ⟨k, same, _, ⟨gap, isGap, _, ⟨w, isWord, [], Or.inl rfl, rfl⟩, rfl⟩, rfl⟩

theorem mem_groupedSelection {s : Text} : s ∈ groupedSelection ↔ GroupsSelection s := by
  simp only [groupedSelection, Language.mem_mul, mem_spellings, mem_kstar_oneOf]
  constructor
  · rintro ⟨k, isSelect, _, ⟨m, -, g, isGroup, rfl⟩, rfl⟩
    exact ⟨k, m, g, isSelect, isGroup, rfl⟩
  · rintro ⟨k, m, g, isSelect, isGroup, rfl⟩
    exact ⟨k, isSelect, _, ⟨m, by simp, g, isGroup, rfl⟩, rfl⟩

theorem mem_plainJoin {s : Text} : s ∈ plainJoin ↔ JoinsPlainly s := by
  simp only [plainJoin, Language.mem_mul, mem_spellings, mem_someOf]
  constructor
  · rintro ⟨f, isFrom, _, ⟨s₁, gap₁, _, ⟨w₁, word₁, _, ⟨s₂, gap₂, _, ⟨j, isJoin, _,
      ⟨s₃, gap₃, w₂, word₂, rfl⟩, rfl⟩, rfl⟩, rfl⟩, rfl⟩, rfl⟩
    exact ⟨f, s₁, w₁, s₂, j, s₃, w₂, isFrom, isJoin, ⟨gap₁, gap₂, gap₃⟩, ⟨word₁, word₂⟩, by simp⟩
  · rintro ⟨f, s₁, w₁, s₂, j, s₃, w₂, isFrom, isJoin, ⟨gap₁, gap₂, gap₃⟩, ⟨word₁, word₂⟩, rfl⟩
    refine ⟨f, isFrom, _, ⟨s₁, gap₁, _, ⟨w₁, word₁, _, ⟨s₂, gap₂, _, ⟨j, isJoin, _,
      ⟨s₃, gap₃, w₂, word₂, rfl⟩, rfl⟩, rfl⟩, rfl⟩, rfl⟩, ?_⟩
    simp

theorem exists_groupsSelection_iff {t : Text} :
    (∃ s, GroupsSelection s ∧ s <:+: t) ↔
      ∃ m n, StandsAt "SELECT".toList t m ∧ StandsAt "GROUP BY".toList t n ∧ m + 6 ≤ n := by
  constructor
  · rintro ⟨_, ⟨k, mid, g, isSelect, isGroup, rfl⟩, a, b, rfl⟩
    refine ⟨a.length, (a ++ (k ++ mid)).length, ⟨a, k, mid ++ (g ++ b), rfl, isSelect, by simp⟩,
      ⟨a ++ (k ++ mid), g, b, rfl, isGroup, by simp⟩, ?_⟩
    have size : k.length = 6 := length_of_sameWord isSelect
    simp only [List.length_append]
    omega
  · rintro ⟨_, _, ⟨a, k, b, rfl, isSelect, rfl⟩, ⟨a', g, b', rfl, isGroup, split⟩, apart⟩
    have size : k.length = 6 := length_of_sameWord isSelect
    -- what comes before `GROUP BY` is long enough to contain what goes up to the end of `SELECT`
    have left : a ++ k <+: a ++ (k ++ b) := ⟨b, by simp⟩
    have left' : a' <+: a ++ (k ++ b) := ⟨g ++ b', split.symm⟩
    have shorter : (a ++ k).length ≤ a'.length := by
      rw [List.length_append]
      omega
    obtain ⟨mid, rfl⟩ := List.prefix_of_prefix_length_le left left' shorter
    exact ⟨k ++ (mid ++ g), ⟨k, mid, g, isSelect, isGroup, rfl⟩, a, b', by simp [split]⟩

/-- What the checks that search for shapes of text report, in terms of what stands in the text; and
the patterns of these shapes, which mean the same. Columns after the name of a table change
nothing. -/
theorem reports_by_pattern (d : Dictionary) (t : Text) :
    (Reports d .incompleteCreateTable t ↔ '(' ∉ t ∧ ∃ s, CreatesTable s ∧ s <:+: t) ∧
    (Reports d .groupByWithoutSelect t ↔ (∃ n, StandsAt "GROUP BY".toList t n) ∧
      ¬∃ m n, StandsAt "SELECT".toList t m ∧ StandsAt "GROUP BY".toList t n ∧ m + 6 ≤ n) ∧
    (Reports d .incorrectJoin t ↔ (∃ n, StandsAt "JOIN".toList t n) ∧
      ¬∃ s, JoinsPlainly s ∧ s <:+: t) ∧
    (FoundIn tableCreation t ↔ ∃ s, CreatesTable s ∧ s <:+: t) ∧
    (FoundIn groupedSelection t ↔
      ∃ m n, StandsAt "SELECT".toList t m ∧ StandsAt "GROUP BY".toList t n ∧ m + 6 ≤ n) ∧
    (FoundIn plainJoin t ↔ ∃ s, JoinsPlainly s ∧ s <:+: t) := by
  refine ⟨?_, ?_, ?_, foundIn_tableCreation, ?_, ?_⟩
  · rw [reports_table_iff, ← count_eq_count_marks rfl rfl, List.count_eq_zero, creates_iff,
      exists_factor_iff]
  · rw [reports_grouping_iff, occursIn_iff_standsAt, groups_iff, exists_factor_iff,
      exists_groupsSelection_iff]
  · rw [reports_join_iff, occursIn_iff_standsAt, joins_iff, exists_factor_iff]
  · rw [← exists_groupsSelection_iff]
    simp only [FoundIn, mem_groupedSelection]
  · simp only [FoundIn, mem_plainJoin]

end Check

end QueryTidy
