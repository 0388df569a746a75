import QueryTidy.Text.Blank
import QueryTidy.Text.Fold
import QueryTidy.Text.Uppercase
import QueryTidy.Text.WordChar
import Mathlib.Tactic.Common

/-!
How the classes of characters lie to each other: no blank stands in a word, and a character that
stands for a capital letter up to case has that letter as its capital form. The kelvin sign is the
one exception: it stands for K and is its own capital.
-/

set_option autoImplicit false
set_option relaxedAutoImplicit false

namespace QueryTidy.Text

def apart (left right : List CodeRange) : Bool :=
  left.all fun r => right.all fun s => r.last < s.first || s.last < r.first

theorem within_eq_false_of_apart {left right : List CodeRange} {c : Char}
    (disjoint : apart left right) (found : within left c) : within right c = false := by
  obtain ⟨r, inLeft, holds⟩ := List.any_eq_true.mp found
  rw [Bool.eq_false_iff]
  intro again
  obtain ⟨s, inRight, holds'⟩ := List.any_eq_true.mp again
  have separate := List.all_eq_true.mp (List.all_eq_true.mp disjoint r inLeft) s inRight
  simp only [CodeRange.contains, Bool.and_eq_true, decide_eq_true_eq] at holds holds'
  simp only [Bool.or_eq_true, decide_eq_true_eq] at separate
  omega

private theorem toNat_le_of_isBlank {c : Char} (ascii : c.toNat < 128) (blank : isBlank c) :
    c.toNat ≤ 32 := by
  obtain ⟨r, inTable, holds⟩ := List.any_eq_true.mp blank
  simp only [CodeRange.contains, Bool.and_eq_true, decide_eq_true_eq] at holds
  simp only [blankRanges, List.mem_cons, List.not_mem_nil, or_false] at inTable
  rcases inTable with rfl | rfl | rfl | rfl | rfl | rfl | rfl | rfl | rfl | rfl <;>
    simp only at holds <;> omega

private theorem isAlphanum_iff (c : Char) :
    c.isAlphanum ↔ ((65 ≤ c.toNat ∧ c.toNat ≤ 90) ∨ (97 ≤ c.toNat ∧ c.toNat ≤ 122)) ∨
      (48 ≤ c.toNat ∧ c.toNat ≤ 57) := by
  change ((decide (c.val ≥ 'A'.val ∧ c.val ≤ 'Z'.val) || (c.val ≥ 'a'.val && c.val ≤ 'z'.val)) ||
    (c.val ≥ '0'.val && c.val ≤ '9'.val)) = true ↔ _
  simp only [Bool.or_eq_true, Bool.and_eq_true, decide_eq_true_eq, UInt32.le_iff_toNat_le,
    ge_iff_le]
  rfl

theorem isWordChar_of_isBlank {c : Char} (blank : isBlank c) : isWordChar c = false := by
  unfold isWordChar
  split
  · rename_i ascii
    have low := toNat_le_of_isBlank ascii blank
    rw [Bool.eq_false_iff]
    intro found
    rcases Bool.or_eq_true _ _ ▸ found with letter | line
    · have high := (isAlphanum_iff c).mp letter
      omega
    · have code : c.toNat = 95 := by rw [beq_iff_eq.mp line]; rfl
      omega
  · have alphabetic : within alphabeticRanges c = false :=
      within_eq_false_of_apart (by decide +kernel) blank
    have mark : within markRanges c = false := within_eq_false_of_apart (by decide +kernel) blank
    have decimal : within decimalRanges c = false :=
      within_eq_false_of_apart (by decide +kernel) blank
    have connector : within connectorRanges c = false :=
      within_eq_false_of_apart (by decide +kernel) blank
    have joiner : within joinerRanges c = false :=
      within_eq_false_of_apart (by decide +kernel) blank
    simp [isAlphabetic, isMark, isDecimal, alphabetic, mark, decimal, connector, joiner]

theorem isBlank_of_isWordChar {c : Char} (inWord : isWordChar c) : isBlank c = false := by
  rw [Bool.eq_false_iff]
  intro blank
  rw [isWordChar_of_isBlank blank] at inWord
  contradiction

theorem toUpper_cases (c : Char) :
    (97 ≤ c.toNat ∧ c.toNat ≤ 122 ∧ c.toUpper.toNat = c.toNat - 32) ∨
      (¬(97 ≤ c.toNat ∧ c.toNat ≤ 122) ∧ c.toUpper = c) := by
  have lower : ('a'.val ≤ c.val ∧ c.val ≤ 'z'.val) ↔ 97 ≤ c.toNat ∧ c.toNat ≤ 122 := by
    simp only [UInt32.le_iff_toNat_le]
    rfl
  by_cases small : 97 ≤ c.toNat ∧ c.toNat ≤ 122
  · left
    refine ⟨small.1, small.2, ?_⟩
    have capital : c.toUpper.val = c.val + ('A'.val - 'a'.val) := by
      have shifted : c.toUpper = _ := dif_pos (lower.mpr small)
      rw [shifted]
    have offset : ('A'.val - 'a'.val).toNat = 4294967264 := by decide
    change c.toUpper.val.toNat = _
    rw [capital, UInt32.toNat_add, offset]
    change (c.toNat + 4294967264) % 2 ^ 32 = c.toNat - 32
    omega
  · right
    exact ⟨small, dif_neg (mt lower.mp small)⟩

theorem foldChar_foldChar (c : Char) : foldChar (foldChar c) = foldChar c := by
  unfold foldChar
  by_cases longS : c = '\u017f'
  · subst longS; decide
  by_cases kelvin : c = '\u212a'
  · subst kelvin; decide
  simp only [longS, kelvin, if_false]
  rcases toUpper_cases c with ⟨low, high, code⟩ | ⟨_, same⟩
  · have ascii : c.toUpper.toNat ≤ 90 := by omega
    have notLongS : c.toUpper ≠ '\u017f' := fun h => absurd (h ▸ ascii) (by decide)
    have notKelvin : c.toUpper ≠ '\u212a' := fun h => absurd (h ▸ ascii) (by decide)
    rw [if_neg notLongS, if_neg notKelvin]
    rcases toUpper_cases c.toUpper with ⟨low', _, _⟩ | ⟨_, same⟩
    · omega
    · exact same
  · simp [same, longS, kelvin]

/-- Whether a character is an ASCII capital other than K, which the kelvin sign folds to. -/
def isPlainCapital (c : Char) : Bool :=
  65 ≤ c.toNat && c.toNat ≤ 90 && c != 'K'

theorem upperChar_of_foldChar {c : Char} (capital : isPlainCapital (foldChar c)) :
    upperChar c = [foldChar c] := by
  simp only [isPlainCapital, Bool.and_eq_true, decide_eq_true_eq, bne_iff_ne] at capital
  obtain ⟨⟨low, high⟩, notK⟩ := capital
  unfold foldChar at low high notK ⊢
  by_cases longS : c = '\u017f'
  · subst longS; decide +kernel
  by_cases kelvin : c = '\u212a'
  · subst kelvin; exact absurd rfl notK
  simp only [longS, kelvin, if_false] at low high notK ⊢
  have ascii : c.toNat < 128 := by
    rcases toUpper_cases c with ⟨_, above, _⟩ | ⟨_, same⟩
    · omega
    · rw [same] at high
      omega
  exact if_pos ascii

theorem upper_of_map_foldChar {w : Text} (capitals : (w.map foldChar).all isPlainCapital) :
    upper w = w.map foldChar := by
  induction w with
  | nil => rfl
  | cons c w ih =>
    simp only [List.map_cons, List.all_cons, Bool.and_eq_true] at capitals
    have rest : w.flatMap upperChar = w.map foldChar := ih capitals.2
    simp only [upper, List.flatMap_cons, List.map_cons, upperChar_of_foldChar capitals.1, rest,
      List.singleton_append]

theorem sameWord_iff {phrase s : Text} : sameWord phrase s ↔ s.map foldChar = phrase := by
  simp [sameWord]

theorem upper_of_sameWord {phrase s : Text} (capitals : phrase.all isPlainCapital)
    (same : sameWord phrase s) : upper s = phrase := by
  rw [sameWord_iff] at same
  subst same
  exact upper_of_map_foldChar capitals

theorem isWordChar_of_isPlainCapital {c : Char} (capital : isPlainCapital c) : isWordChar c := by
  simp only [isPlainCapital, Bool.and_eq_true, decide_eq_true_eq] at capital
  have ascii : c.toNat < 128 := by omega
  have letter : c.isAlphanum := (isAlphanum_iff c).mpr (Or.inl (Or.inl capital.1))
  simp [isWordChar, ascii, letter]

theorem isWordChar_of_foldChar {c : Char} (capital : isPlainCapital (foldChar c)) :
    isWordChar c := by
  have letter := isWordChar_of_isPlainCapital capital
  unfold foldChar at letter
  split at letter
  · rename_i longS
    subst longS
    decide +kernel
  split at letter
  · rename_i kelvin
    subst kelvin
    decide +kernel
  rcases toUpper_cases c with ⟨low, high, -⟩ | ⟨-, same⟩
  · have ascii : c.toNat < 128 := by omega
    have alphanum : c.isAlphanum := (isAlphanum_iff c).mpr (Or.inl (Or.inr ⟨low, high⟩))
    simp [isWordChar, ascii, alphanum]
  · exact same ▸ letter

theorem eq_space_of_foldChar {c : Char} (same : foldChar c = ' ') : c = ' ' := by
  unfold foldChar at same
  split at same
  · contradiction
  split at same
  · contradiction
  rcases toUpper_cases c with ⟨low, high, code⟩ | ⟨-, unchanged⟩
  · rw [same] at code
    change 32 = c.toNat - 32 at code
    omega
  · exact unchanged.symm.trans same

end QueryTidy.Text
