import QueryTidy.Text.Basic
import Mathlib.Tactic.Common

/-!
The stretches of a text between the occurrences of a separator, and induction on the lines of a
text. A line is a stretch without a line end that a line end, or nothing, precedes and follows.
-/

set_option autoImplicit false
set_option relaxedAutoImplicit false

namespace QueryTidy.Text

variable {separator : Char} {t : Text}

theorem splitAt_of_not_mem (absent : separator ∉ t) : splitAt separator t = [t] := by
  induction t with
  | nil => rfl
  | cons c t ih =>
    obtain ⟨differs, absent⟩ := not_or.mp (mt List.mem_cons.mpr absent)
    rw [splitAt, if_neg (Ne.symm differs), ih absent]

theorem splitAt_ne_nil (separator : Char) (t : Text) : splitAt separator t ≠ [] := by
  cases t with
  | nil => exact List.cons_ne_nil _ _
  | cons c t =>
    rw [splitAt]
    split
    · exact List.cons_ne_nil _ _
    · split <;> exact List.cons_ne_nil _ _

theorem splitAt_append_cons (t rest : Text) :
    splitAt separator (t ++ separator :: rest) = splitAt separator t ++ splitAt separator rest := by
  induction t with
  | nil => exact if_pos rfl
  | cons c t ih =>
    rw [List.cons_append, splitAt, splitAt, ih]
    split
    · rfl
    · cases parts : splitAt separator t with
      | nil => exact absurd parts (splitAt_ne_nil separator t)
      | cons part parts => rfl

theorem splitAt_append (absent : separator ∉ t) (rest : Text) :
    splitAt separator (t ++ separator :: rest) = t :: splitAt separator rest := by
  rw [splitAt_append_cons, splitAt_of_not_mem absent]
  rfl

theorem exists_append_of_splitAt {line : Text} {rest : List Text}
    (lines : splitAt separator t = line :: rest) : ∃ below, t = line ++ below := by
  by_cases some : separator ∈ t
  · obtain ⟨u, v, rfl, absent⟩ := List.eq_append_cons_of_mem some
    rw [splitAt_append absent] at lines
    obtain ⟨rfl, -⟩ := List.cons.inj lines
    exact ⟨separator :: v, rfl⟩
  · rw [splitAt_of_not_mem some] at lines
    obtain ⟨rfl, -⟩ := List.cons.inj lines
    exact ⟨[], by simp⟩

theorem line_induction {holds : Text → Prop} (last : ∀ t, '\n' ∉ t → holds t)
    (line : ∀ u v, '\n' ∉ u → holds v → holds (u ++ '\n' :: v)) (t : Text) : holds t := by
  induction size : t.length using Nat.strongRecOn generalizing t with
  | _ n ih =>
    by_cases some : '\n' ∈ t
    · obtain ⟨u, v, rfl, absent⟩ := List.eq_append_cons_of_mem some
      apply line u v absent
      apply ih v.length _ v rfl
      rw [← size, List.length_append, List.length_cons]
      omega
    · exact last t some

private theorem exists_of_mem_splitAt {line : Text} (found : line ∈ splitAt '\n' t) :
    '\n' ∉ line ∧ ∃ above below, t = above ++ (line ++ below) ∧
      (∀ c ∈ above.getLast?, c = '\n') ∧ ∀ c ∈ below.head?, c = '\n' := by
  induction t using line_induction with
  | last t absent =>
    rw [splitAt_of_not_mem absent, List.mem_singleton] at found
    subst found
    exact ⟨absent, [], [], by simp, by simp, by simp⟩
  | line u v absent ih =>
    rw [splitAt_append absent, List.mem_cons] at found
    rcases found with rfl | inRest
    · exact ⟨absent, [], '\n' :: v, rfl, by simp, by simp⟩
    · obtain ⟨whole, above, below, rfl, start, ended⟩ := ih inRest
      refine ⟨whole, u ++ '\n' :: above, below, by simp, ?_, ended⟩
      intro c last
      rcases List.eq_nil_or_concat above with rfl | ⟨front, e, rfl⟩
      · simpa using last.symm
      · have split : u ++ '\n' :: front.concat e = (u ++ '\n' :: front) ++ [e] := by simp
        rw [split, List.getLast?_concat] at last
        obtain rfl : e = c := Option.some.inj last
        exact start e (by simp)

theorem mem_splitAt_iff {line : Text} :
    line ∈ splitAt '\n' t ↔ '\n' ∉ line ∧ ∃ above below, t = above ++ (line ++ below) ∧
      (∀ c ∈ above.getLast?, c = '\n') ∧ ∀ c ∈ below.head?, c = '\n' := by
  refine ⟨exists_of_mem_splitAt, ?_⟩
  rintro ⟨whole, above, below, rfl, start, ended⟩
  have first : line ∈ splitAt '\n' (line ++ below) := by
    cases below with
    | nil => simp [splitAt_of_not_mem whole]
    | cons c below =>
      obtain rfl : c = '\n' := ended c rfl
      simp [splitAt_append whole]
  rcases List.eq_nil_or_concat above with rfl | ⟨front, c, rfl⟩
  · exact first
  · obtain rfl : c = '\n' := start c (by simp)
    rw [List.concat_eq_append, List.append_assoc, List.singleton_append, splitAt_append_cons]
    exact List.mem_append_right _ first

end QueryTidy.Text
