import QueryTidy.Proofs.Text.Pieces
import QueryTidy.Text.Blank
import QueryTidy.Text.Fold

/-!
Searching a text for a phrase. A search that goes through a text from the left finds a phrase
exactly where the text can be cut so that the phrase stands in the middle. What it finds depends on
the text up to case only, and a phrase that is a word is found within one piece of the text.
-/

set_option autoImplicit false
set_option relaxedAutoImplicit false

namespace QueryTidy.Text

theorem afterPhrase?_eq_some_iff {phrase t rest : Text} :
    afterPhrase? phrase t = some rest ↔ ∃ s, sameWord phrase s ∧ t = s ++ rest := by
  induction phrase generalizing t with
  | nil => simp [afterPhrase?, sameWord]
  | cons p phrase ih =>
    cases t with
    | nil => simp [afterPhrase?, sameWord]
    | cons c t =>
      rw [afterPhrase?]
      constructor
      · intro found
        split at found
        · rename_i first
          obtain ⟨s, same, rfl⟩ := ih.mp found
          exact ⟨c :: s, by simpa [sameWord, first] using same, rfl⟩
        · contradiction
      · rintro ⟨s, same, split⟩
        rw [sameWord_iff, List.map_eq_cons_iff] at same
        obtain ⟨c', s, rfl, first, rest'⟩ := same
        obtain ⟨rfl, rfl⟩ := List.cons.inj split
        rw [if_pos first]
        exact ih.mpr ⟨s, sameWord_iff.mpr rest', rfl⟩

theorem exists_run {test : Char → Bool} {c : Char} (first : test c) (t : Text) :
    ∃ run, (run ≠ [] ∧ ∀ e ∈ run, test e) ∧ c :: t = run ++ t.dropWhile test := by
  refine ⟨c :: t.takeWhile test, ⟨by simp, ?_⟩, ?_⟩
  · intro e inRun
    rcases List.mem_cons.mp inRun with rfl | inRest
    · exact first
    · exact List.all_eq_true.mp List.all_takeWhile e inRest
  · rw [List.cons_append, List.takeWhile_append_dropWhile]

theorem exists_of_afterBlanks? {t rest : Text} (found : afterBlanks? t = some rest) :
    ∃ gap, IsGap gap ∧ t = gap ++ rest := by
  cases t with
  | nil => simp [afterBlanks?] at found
  | cons c t =>
    rw [afterBlanks?] at found
    split at found
    · rename_i first
      obtain rfl := Option.some.inj found
      exact exists_run first t
    · contradiction

theorem afterBlanks?_append {gap rest : Text} (isGap : IsGap gap)
    (ended : ∀ c ∈ rest.head?, isBlank c = false) : afterBlanks? (gap ++ rest) = some rest := by
  obtain ⟨c, gap, rfl⟩ := List.exists_cons_of_ne_nil isGap.1
  rw [List.cons_append, afterBlanks?, if_pos (isGap.2 c (by simp)),
    dropWhile_run (fun e inGap => isGap.2 e (List.mem_cons_of_mem c inGap)) ended]

theorem afterBlanks?_of_nonblank {t : Text} (visible : ∀ c ∈ t.head?, isBlank c = false) :
    afterBlanks? t = none := by
  cases t with
  | nil => rfl
  | cons c t => simp [afterBlanks?, visible c rfl]

theorem anySuffix_iff {test : Text → Bool} {t : Text} :
    anySuffix test t ↔ ∃ a b, t = a ++ b ∧ test b := by
  induction t with
  | nil => simp [anySuffix]
  | cons c t ih =>
    rw [anySuffix, Bool.or_eq_true, ih]
    constructor
    · rintro (whole | ⟨a, b, rfl, passed⟩)
      · exact ⟨[], c :: t, rfl, whole⟩
      · exact ⟨c :: a, b, rfl, passed⟩
    · rintro ⟨a, b, split, passed⟩
      cases a with
      | nil =>
        rw [List.nil_append] at split
        exact Or.inl (split ▸ passed)
      | cons e a =>
        obtain ⟨rfl, rfl⟩ := List.cons.inj split
        exact Or.inr ⟨a, b, rfl, passed⟩

theorem exists_of_afterFirst? {phrase t rest : Text} (found : afterFirst? phrase t = some rest) :
    ∃ a s, sameWord phrase s ∧ t = a ++ (s ++ rest) := by
  induction t with
  | nil =>
    obtain ⟨s, same, split⟩ := afterPhrase?_eq_some_iff.mp found
    exact ⟨[], s, same, split⟩
  | cons c t ih =>
    rw [afterFirst?] at found
    split at found
    · rename_i rest' here
      obtain rfl : rest' = rest := Option.some.inj found
      obtain ⟨s, same, split⟩ := afterPhrase?_eq_some_iff.mp here
      exact ⟨[], s, same, split⟩
    · obtain ⟨a, s, same, rfl⟩ := ih found
      exact ⟨c :: a, s, same, rfl⟩

theorem exists_afterFirst? {phrase s : Text} (same : sameWord phrase s) (a b : Text) :
    ∃ skipped, afterFirst? phrase (a ++ (s ++ b)) = some (skipped ++ b) := by
  induction a with
  | nil =>
    have here : afterPhrase? phrase (s ++ b) = some b := afterPhrase?_eq_some_iff.mpr ⟨s, same, rfl⟩
    refine ⟨[], ?_⟩
    rw [List.nil_append, List.nil_append]
    generalize s ++ b = t at here
    cases t with
    | nil => exact here
    | cons c t => rw [afterFirst?, here]
  | cons c a ih =>
    rw [List.cons_append, afterFirst?]
    split
    · rename_i rest here
      -- an earlier place leaves more text behind it, since the phrase is as long everywhere
      obtain ⟨s', same', split⟩ := afterPhrase?_eq_some_iff.mp here
      have length : s'.length = s.length := by
        simpa using congrArg List.length
          ((sameWord_iff.mp same').trans (sameWord_iff.mp same).symm)
      have behind : b <:+ c :: (a ++ (s ++ b)) := ⟨c :: (a ++ s), by simp⟩
      have behind' : rest <:+ c :: (a ++ (s ++ b)) := ⟨s', split.symm⟩
      have shorter : b.length ≤ rest.length := by
        have lengths := congrArg List.length split
        simp only [List.length_cons, List.length_append] at lengths
        omega
      obtain ⟨skipped, rfl⟩ := List.suffix_of_suffix_length_le behind behind' shorter
      exact ⟨skipped, rfl⟩
    · exact ih

theorem occursIn_iff {phrase t : Text} :
    occursIn phrase t ↔ ∃ a s b, sameWord phrase s ∧ t = a ++ (s ++ b) := by
  rw [occursIn, Option.isSome_iff_exists]
  constructor
  · rintro ⟨b, found⟩
    obtain ⟨a, s, same, split⟩ := exists_of_afterFirst? found
    exact ⟨a, s, b, same, split⟩
  · rintro ⟨a, s, b, same, rfl⟩
    obtain ⟨skipped, found⟩ := exists_afterFirst? same a b
    exact ⟨_, found⟩

theorem occursIn_within {phrase t : Text} (found : occursIn phrase t) (a b : Text) :
    occursIn phrase (a ++ (t ++ b)) := by
  obtain ⟨a', s, b', same, rfl⟩ := occursIn_iff.mp found
  exact occursIn_iff.mpr ⟨a ++ a', s, b' ++ b, same, by simp⟩

theorem occursIn_of_map_foldChar {phrase t u : Text} (same : t.map foldChar = u.map foldChar)
    (found : occursIn phrase t) : occursIn phrase u := by
  obtain ⟨a, s, b, spelt, rfl⟩ := occursIn_iff.mp found
  rw [List.map_append, List.map_append] at same
  obtain ⟨a', rest, rfl, -, split⟩ := List.map_eq_append_iff.mp same.symm
  obtain ⟨s', b', rfl, spelt', -⟩ := List.map_eq_append_iff.mp split
  exact occursIn_iff.mpr
    ⟨a', s', b', sameWord_iff.mpr (spelt'.trans (sameWord_iff.mp spelt)), rfl⟩

theorem isWord_of_sameWord {phrase s : Text} (capitals : phrase.all isPlainCapital)
    (some : phrase ≠ []) (same : sameWord phrase s) : IsWord s := by
  rw [sameWord_iff] at same
  subst same
  refine ⟨by simpa using some, fun c inWord => ?_⟩
  exact isWordChar_of_foldChar (List.all_eq_true.mp capitals _ (List.mem_map_of_mem inWord))

theorem sameWord_space_iff {first second s : Text} :
    sameWord (first ++ ' ' :: second) s ↔
      ∃ f g, s = f ++ ' ' :: g ∧ sameWord first f ∧ sameWord second g := by
  simp only [sameWord_iff]
  constructor
  · intro same
    obtain ⟨f, rest, rfl, isFirst, split⟩ := List.map_eq_append_iff.mp same
    obtain ⟨c, g, rfl, space, isSecond⟩ := List.map_eq_cons_iff.mp split
    rw [eq_space_of_foldChar space]
    exact ⟨f, g, rfl, isFirst, isSecond⟩
  · rintro ⟨f, g, rfl, rfl, rfl⟩
    rw [List.map_append, List.map_cons]
    rfl

theorem exists_append_of_mem_pieces {w t : Text} (found : .word w ∈ pieces t) :
    ∃ a b, t = a ++ (w ++ b) := by
  obtain ⟨front, rest, split⟩ := List.append_of_mem found
  refine ⟨front.flatMap Piece.text, rest.flatMap Piece.text, ?_⟩
  rw [← text_pieces t, split, List.flatMap_append, List.flatMap_cons]
  rfl

end QueryTidy.Text
