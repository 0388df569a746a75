import QueryTidy.Check
import QueryTidy.Proofs.Text.Search

/-!
The patterns of the checks as cuts of a text into phrases, runs of blanks and words.
-/

set_option autoImplicit false
set_option relaxedAutoImplicit false

namespace QueryTidy.Check

open Text

theorem exists_of_afterWord? {t rest : Text} (found : afterWord? t = some rest) :
    ∃ w, IsWord w ∧ t = w ++ rest := by
  cases t with
  | nil => simp [afterWord?] at found
  | cons c t =>
    rw [afterWord?] at found
    split at found
    · rename_i first
      obtain rfl := Option.some.inj found
      exact exists_run first t
    · contradiction

theorem afterWord?_append {w rest : Text} (word : IsWord w) (breaks : Breaks rest) :
    afterWord? (w ++ rest) = some rest := by
  obtain ⟨c, w, rfl⟩ := List.exists_cons_of_ne_nil word.1
  rw [List.cons_append, afterWord?, if_pos (word.2 c (by simp)),
    dropWhile_run (fun e inWord => word.2 e (List.mem_cons_of_mem c inWord)) breaks]

theorem isSome_afterWord? {w : Text} (word : IsWord w) (rest : Text) :
    (afterWord? (w ++ rest)).isSome := by
  obtain ⟨c, w, rfl⟩ := List.exists_cons_of_ne_nil word.1
  rw [List.cons_append, afterWord?, if_pos (word.2 c (by simp))]
  rfl

theorem startsCreateTable_iff {t : Text} :
    startsCreateTable t ↔ ∃ s gap w rest, sameWord "CREATE TABLE".toList s ∧ IsGap gap ∧ IsWord w ∧
      t = s ++ (gap ++ (w ++ rest)) := by
  constructor
  · intro starts
    rw [startsCreateTable, Option.isSome_iff_exists] at starts
    obtain ⟨rest, found⟩ := starts
    simp only [Option.bind_eq_some_iff] at found
    obtain ⟨t₂, ⟨t₁, phrase, blanks⟩, word⟩ := found
    obtain ⟨s, same, rfl⟩ := afterPhrase?_eq_some_iff.mp phrase
    obtain ⟨gap, isGap, rfl⟩ := exists_of_afterBlanks? blanks
    obtain ⟨w, isWord, rfl⟩ := exists_of_afterWord? word
    exact ⟨s, gap, w, rest, same, isGap, isWord, rfl⟩
  · rintro ⟨s, gap, w, rest, same, isGap, isWord, rfl⟩
    rw [startsCreateTable, afterPhrase?_eq_some_iff.mpr ⟨s, same, rfl⟩, Option.bind_some,
      afterBlanks?_append isGap (isWord.nonblank rest), Option.bind_some]
    exact isSome_afterWord? isWord rest

theorem startsPlainJoin_iff {t : Text} :
    startsPlainJoin t ↔ ∃ f s₁ w₁ s₂ j s₃ w₂ rest, sameWord "FROM".toList f ∧
      sameWord "JOIN".toList j ∧ (IsGap s₁ ∧ IsGap s₂ ∧ IsGap s₃) ∧ (IsWord w₁ ∧ IsWord w₂) ∧
      t = f ++ (s₁ ++ (w₁ ++ (s₂ ++ (j ++ (s₃ ++ (w₂ ++ rest)))))) := by
  constructor
  · intro starts
    rw [startsPlainJoin, Option.isSome_iff_exists] at starts
    obtain ⟨rest, found⟩ := starts
    simp only [Option.bind_eq_some_iff] at found
    obtain ⟨t₆, ⟨t₅, ⟨t₄, ⟨t₃, ⟨t₂, ⟨t₁, start, blanks⟩, word⟩, blanks'⟩, join⟩, blanks''⟩,
      word'⟩ := found
    obtain ⟨f, isFrom, rfl⟩ := afterPhrase?_eq_some_iff.mp start
    obtain ⟨s₁, gap₁, rfl⟩ := exists_of_afterBlanks? blanks
    obtain ⟨w₁, word₁, rfl⟩ := exists_of_afterWord? word
    obtain ⟨s₂, gap₂, rfl⟩ := exists_of_afterBlanks? blanks'
    obtain ⟨j, isJoin, rfl⟩ := afterPhrase?_eq_some_iff.mp join
    obtain ⟨s₃, gap₃, rfl⟩ := exists_of_afterBlanks? blanks''
    obtain ⟨w₂, word₂, rfl⟩ := exists_of_afterWord? word'
    exact ⟨f, s₁, w₁, s₂, j, s₃, w₂, rest, isFrom, isJoin, ⟨gap₁, gap₂, gap₃⟩, ⟨word₁, word₂⟩, rfl⟩
  · rintro ⟨f, s₁, w₁, s₂, j, s₃, w₂, rest, isFrom, isJoin, ⟨gap₁, gap₂, gap₃⟩, ⟨word₁, word₂⟩, rfl⟩
    have word : IsWord j := isWord_of_sameWord (by decide) (by decide) isJoin
    rw [startsPlainJoin, afterPhrase?_eq_some_iff.mpr ⟨f, isFrom, rfl⟩, Option.bind_some,
      afterBlanks?_append gap₁ (word₁.nonblank _), Option.bind_some,
      afterWord?_append word₁ (gap₂.breaks _), Option.bind_some,
      afterBlanks?_append gap₂ (word.nonblank _), Option.bind_some,
      afterPhrase?_eq_some_iff.mpr ⟨j, isJoin, rfl⟩, Option.bind_some,
      afterBlanks?_append gap₃ (word₂.nonblank _), Option.bind_some]
    exact isSome_afterWord? word₂ rest

theorem groupsSelection_iff {t : Text} :
    groupsSelection t ↔ ∃ a g b, sameWord "GROUP BY".toList g ∧ t = a ++ (g ++ b) ∧
      occursIn "SELECT".toList a := by
  constructor
  · intro groups
    rw [groupsSelection, Option.isSome_iff_exists] at groups
    obtain ⟨b, found⟩ := groups
    obtain ⟨rest, select, group⟩ := Option.bind_eq_some_iff.mp found
    obtain ⟨a, s, isSelect, rfl⟩ := exists_of_afterFirst? select
    obtain ⟨a', g, isGroup, rfl⟩ := exists_of_afterFirst? group
    exact ⟨a ++ (s ++ a'), g, b, isGroup, by simp, occursIn_iff.mpr ⟨a, s, a', isSelect, rfl⟩⟩
  · rintro ⟨a, g, b, isGroup, rfl, selects⟩
    obtain ⟨a, s, a', isSelect, rfl⟩ := occursIn_iff.mp selects
    obtain ⟨skipped, select⟩ := exists_afterFirst? isSelect a (a' ++ (g ++ b))
    obtain ⟨skipped', group⟩ := exists_afterFirst? isGroup (skipped ++ a') b
    have split : a ++ (s ++ a') ++ (g ++ b) = a ++ (s ++ (a' ++ (g ++ b))) := by simp
    rw [groupsSelection, split, select, Option.bind_some, ← List.append_assoc, group]
    rfl

end QueryTidy.Check
