import QueryTidy.Proofs.Text.Pieces

/-!
The two classes of characters that words are made of, compared. They differ beyond ASCII alone, and
only in characters that are not alphabetic: marks, connectors and joiners stand in words and are no
letters or numerals, while fractions and other numerals without a place value, and the most recent
letters, stand in no word.
-/

set_option autoImplicit false
set_option relaxedAutoImplicit false

namespace QueryTidy.Text

def Ascending (ranges : List CodeRange) : Prop :=
  (ranges.map CodeRange.first).IsChain (· ≤ ·)

instance (ranges : List CodeRange) : Decidable (Ascending ranges) :=
  inferInstanceAs (Decidable (List.IsChain _ _))

/-- Whether no range of one list meets one of the other. Both lists are in ascending order, and one
pass over them is enough. -/
def clear : List CodeRange → List CodeRange → Bool
  | [], _ => true
  | r :: left, right =>
    let rest := right.dropWhile (·.last < r.first)
    rest.head?.all (r.last < ·.first) && clear left rest

theorem Ascending.pairwise {ranges : List CodeRange} (up : Ascending ranges) :
    ranges.Pairwise fun r s => r.first ≤ s.first :=
  List.pairwise_map.mp (List.isChain_iff_pairwise.mp up)

theorem apart_iff {left right : List CodeRange} :
    apart left right ↔ ∀ r ∈ left, ∀ s ∈ right, r.last < s.first ∨ s.last < r.first := by
  simp [apart]

theorem apart_of_clear {left right : List CodeRange} (up : Ascending left) (up' : Ascending right)
    (free : clear left right) : apart left right := by
  replace up := up.pairwise
  replace up' := up'.pairwise
  rw [apart_iff]
  induction left generalizing right with
  | nil => simp
  | cons r left ih =>
    obtain ⟨next, free⟩ := Bool.and_eq_true_iff.mp free
    obtain ⟨least, up⟩ := List.pairwise_cons.mp up
    have rest : (right.dropWhile (·.last < r.first)).Pairwise fun r s => r.first ≤ s.first :=
      up'.sublist (List.dropWhile_sublist _)
    intro r' inLeft s inRight
    rw [← List.takeWhile_append_dropWhile (p := (·.last < r.first)) (l := right)] at inRight
    rcases List.mem_append.mp inRight with passed | ahead
    · -- what lies below the first range lies below every later one
      have below : s.last < r.first := by
        simpa using List.all_eq_true.mp List.all_takeWhile s passed
      right
      rcases List.mem_cons.mp inLeft with rfl | inRest
      · exact below
      · exact below.trans_le (least r' inRest)
    · rcases List.mem_cons.mp inLeft with rfl | inRest
      · left
        cases later : right.dropWhile (·.last < r'.first) with
        | nil => simp [later] at ahead
        | cons s' more =>
          rw [later] at next ahead rest
          have above : r'.last < s'.first := by simpa using next
          rcases List.mem_cons.mp ahead with rfl | inMore
          · exact above
          · exact above.trans_le ((List.pairwise_cons.mp rest).1 s inMore)
      · exact ih free up rest r' inRest s ahead

theorem apart_flatten {left right : List (List CodeRange)}
    (up : ∀ ranges ∈ left ++ right, Ascending ranges)
    (free : ∀ l ∈ left, ∀ r ∈ right, clear l r) : apart left.flatten right.flatten := by
  rw [apart_iff]
  intro r inLeft s inRight
  obtain ⟨ranges, known, inRanges⟩ := List.mem_flatten.mp inLeft
  obtain ⟨ranges', known', inRanges'⟩ := List.mem_flatten.mp inRight
  have separate := apart_of_clear (up ranges (List.mem_append_left _ known))
    (up ranges' (List.mem_append_right _ known')) (free ranges known ranges' known')
  exact apart_iff.mp separate r inRanges s inRanges'

def isNameChar (c : Char) : Bool :=
  isAlphanumeric c || c == '_'

def IsName (t : Text) : Prop :=
  t ≠ [] ∧ ∀ c ∈ t, isNameChar c

instance (t : Text) : Decidable (IsName t) :=
  decidable_of_iff (t ≠ [] ∧ t.all isNameChar) (by simp [IsName])

def linkRanges : List CodeRange :=
  [markRanges, connectorRanges, joinerRanges].flatten

/-- Code points of letters and numerals that stand in no word unless they are alphabetic. -/
def wordlessRanges : List CodeRange :=
  [numeralRanges, recentRanges].flatten

/-- Whether a character belongs to one of the two classes and not to the other. -/
def Disputed (c : Char) : Prop :=
  isAlphabetic c = false ∧ c ≠ '_' ∧ (within linkRanges c ∨ within wordlessRanges c)

instance (c : Char) : Decidable (Disputed c) :=
  inferInstanceAs (Decidable (_ ∧ _))

private theorem apart_link_wordless : apart linkRanges wordlessRanges :=
  apart_flatten (by decide +kernel) (by decide +kernel)

private theorem apart_decimal_link : apart decimalRanges linkRanges := by
  rw [← List.flatten_singleton (l := decimalRanges)]
  exact apart_flatten (by decide +kernel) (by decide +kernel)

private theorem apart_decimal_wordless : apart decimalRanges wordlessRanges := by
  rw [← List.flatten_singleton (l := decimalRanges)]
  exact apart_flatten (by decide +kernel) (by decide +kernel)

private theorem not_disputed_of_ascii {c : Char} (ascii : c.toNat < 128) : ¬Disputed c := by
  rintro ⟨-, notLine, found⟩
  have code : c.toNat ≠ 95 := fun same => notLine (Char.toNat_inj.mp same)
  have low : within [⟨0, 94⟩, ⟨96, 127⟩] c := by
    simp only [within, CodeRange.contains, List.any_cons, List.any_nil, Bool.or_false,
      Bool.or_eq_true, Bool.and_eq_true, decide_eq_true_eq]
    omega
  have noLink : within linkRanges c = false := within_eq_false_of_apart (by decide +kernel) low
  have noNumeral : within wordlessRanges c = false :=
    within_eq_false_of_apart (by decide +kernel) low
  simp [noLink, noNumeral] at found

theorem within_append (left right : List CodeRange) (c : Char) :
    within (left ++ right) c = (within left c || within right c) :=
  List.any_append

theorem disputed_iff {c : Char} : Disputed c ↔ isNameChar c ≠ isWordChar c := by
  by_cases ascii : c.toNat < 128
  · have same : isNameChar c = isWordChar c := by
      simp [isNameChar, isAlphanumeric, isWordChar, ascii]
    simp [not_disputed_of_ascii ascii, same]
  have notLine : c ≠ '_' := by
    rintro rfl
    exact ascii (by decide)
  have name : isNameChar c = (isAlphabetic c || (isDecimal c || within wordlessRanges c)) := by
    have line : (c == '_') = false := beq_eq_false_iff_ne.mpr notLine
    simp [isNameChar, isAlphanumeric, ascii, line, isNumeral, isRecent, wordlessRanges,
      within_append, Bool.or_assoc]
  have word : isWordChar c = (isAlphabetic c || (isDecimal c || within linkRanges c)) := by
    simp [isWordChar, ascii, isMark, linkRanges, within_append, Bool.or_assoc, Bool.or_left_comm,
      Bool.or_comm]
  rw [Disputed, name, word]
  cases alphabetic : isAlphabetic c with
  | true => simp
  | false =>
    cases decimal : isDecimal c with
    | true =>
      have noLink := within_eq_false_of_apart apart_decimal_link decimal
      have noNumeral := within_eq_false_of_apart apart_decimal_wordless decimal
      simp [noLink, noNumeral]
    | false =>
      -- no character is of both kinds, so one of the two classes has it if it is of either
      cases link : within linkRanges c with
      | true =>
        have noNumeral := within_eq_false_of_apart apart_link_wordless link
        simp [notLine, noNumeral]
      | false => cases within wordlessRanges c <;> simp [notLine]

theorem isName_iff_isWord {t : Text} (settled : ∀ c ∈ t, ¬Disputed c) : IsName t ↔ IsWord t := by
  have same : ∀ c ∈ t, isNameChar c = isWordChar c := by
    intro c inText
    by_contra differ
    exact settled c inText (disputed_iff.mpr differ)
  unfold IsName IsWord
  refine and_congr_right fun _ => forall₂_congr fun c inText => ?_
  rw [same c inText]

theorem IsName.not_isWord {t : Text} (name : IsName t) {c : Char} (inText : c ∈ t)
    (disputed : Disputed c) : ¬IsWord t := by
  intro word
  apply disputed_iff.mp disputed
  rw [name.2 c inText, word.2 c inText]

end QueryTidy.Text
