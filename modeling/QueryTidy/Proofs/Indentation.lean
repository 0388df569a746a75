import QueryTidy.Proofs.Whitespace

/-!
The indent of the lines that begin with `AND` or `OR`. A line is begun before these words where no
word character follows, and it is indented where no letter, numeral or low line follows. So a line
below the first is indented exactly if it begins with the whole word, unless a character of one of
the two classes only comes right after it; and there it is just the other way round.
-/

set_option autoImplicit false
set_option relaxedAutoImplicit false

namespace QueryTidy

open Text Layout

def logicalWords : Slot :=
  slot ["AND", "OR"]

namespace Text

/-- Whether a text that follows no word character begins with one of some words as a whole, up to
case. -/
def BeginsWith (words : Slot) (t : Text) : Prop :=
  ∃ word ∈ words, ∃ run rest, sameWord word run ∧ t = run ++ rest ∧ Breaks rest

theorem beginsWith_iff {words : Slot} {t : Text} :
    BeginsWith words t ↔ words.any fun word =>
      (afterPhrase? word t).any fun rest => rest.head?.all (!isWordChar ·) := by
  simp only [List.any_eq_true, Option.any_eq_true, afterPhrase?_eq_some_iff, Option.all_eq_true,
    Bool.not_eq_true']
  constructor
  · rintro ⟨word, known, run, rest, same, split, breaks⟩
    exact ⟨word, known, rest, ⟨run, same, split⟩, breaks⟩
  · rintro ⟨word, known, rest, ⟨run, same, split⟩, breaks⟩
    exact ⟨word, known, run, rest, same, split, breaks⟩

instance (words : Slot) (t : Text) : Decidable (BeginsWith words t) :=
  decidable_of_iff _ beginsWith_iff.symm

/-- Whether a text begins with `AND` or `OR`, in capitals, and no character of some class right
after it. -/
def BeginsLogical (inClass : Char → Bool) (t : Text) : Prop :=
  ∃ word ∈ logicalWords, ∃ rest, t = word ++ rest ∧ ∀ c ∈ rest.head?, inClass c = false

def BeginsDisputed (t : Text) : Prop :=
  ∃ word ∈ logicalWords, ∃ c rest, t = word ++ c :: rest ∧ Disputed c

theorem append_unique_of_logical {word word' rest rest' : Text} (known : word ∈ logicalWords)
    (known' : word' ∈ logicalWords) (same : word ++ rest = word' ++ rest') : rest = rest' := by
  have words : ∀ w ∈ logicalWords, w = "AND".toList ∨ w = "OR".toList := by decide
  rcases words word known with rfl | rfl <;> rcases words word' known' with rfl | rfl <;>
    simp_all

theorem beginsLogical_append {inClass : Char → Bool} {word rest : Text}
    (known : word ∈ logicalWords) :
    BeginsLogical inClass (word ++ rest) ↔ ∀ c ∈ rest.head?, inClass c = false := by
  constructor
  · rintro ⟨word', known', rest', split, ended⟩
    rwa [append_unique_of_logical known known' split]
  · intro ended
    exact ⟨word, known, rest, rfl, ended⟩

theorem beginsDisputed_append {word rest : Text} (known : word ∈ logicalWords) :
    BeginsDisputed (word ++ rest) ↔ ∃ c ∈ rest.head?, Disputed c := by
  constructor
  · rintro ⟨word', known', c, rest', split, disputed⟩
    rw [append_unique_of_logical known known' split]
    exact ⟨c, rfl, disputed⟩
  · rintro ⟨c, first, disputed⟩
    obtain ⟨rest, rfl⟩ := List.head?_eq_some_iff.mp first
    exact ⟨word, known, c, rest, rfl, disputed⟩

theorem beginsLogical_iff (t : Text) :
    (¬BeginsDisputed t → (BeginsLogical isNameChar t ↔ BeginsLogical isWordChar t)) ∧
      (BeginsDisputed t → (BeginsLogical isNameChar t ↔ ¬BeginsLogical isWordChar t)) := by
  by_cases begins : ∃ word ∈ logicalWords, ∃ rest, t = word ++ rest
  · obtain ⟨word, known, rest, rfl⟩ := begins
    rw [beginsDisputed_append known, beginsLogical_append known, beginsLogical_append known]
    cases rest with
    | nil => simp
    | cons c rest =>
      simp only [List.head?_cons, Option.mem_some_iff, forall_eq', exists_eq_left', disputed_iff]
      cases isNameChar c <;> cases isWordChar c <;> simp
  · have name : ¬BeginsLogical isNameChar t :=
      fun ⟨word, known, rest, split, _⟩ => begins ⟨word, known, rest, split⟩
    have word : ¬BeginsLogical isWordChar t :=
      fun ⟨word, known, rest, split, _⟩ => begins ⟨word, known, rest, split⟩
    have disputed : ¬BeginsDisputed t :=
      fun ⟨word, known, c, rest, split, _⟩ => begins ⟨word, known, c :: rest, split⟩
    simp [name, word, disputed]

end Text

theorem Layout.isLogical_iff {t : Text} : isLogical t ↔ BeginsLogical isNameChar t := by
  have letters : logicalWords.all (·.all isNameChar) := by decide
  have names : ∀ word ∈ logicalWords, ∀ c ∈ word, isNameChar c := by
    simpa only [List.all_eq_true] using letters
  have first : isLogical t ↔ t.takeWhile isNameChar ∈ logicalWords := by
    change (t.takeWhile isNameChar == "AND".toList || t.takeWhile isNameChar == "OR".toList) ↔ _
    simp [logicalWords, slot]
  rw [first]
  constructor
  · intro known
    refine ⟨_, known, t.dropWhile isNameChar, List.takeWhile_append_dropWhile.symm, ?_⟩
    intro c isFirst
    simpa [Option.mem_def.mp isFirst] using List.head?_dropWhile_not isNameChar t
  · rintro ⟨word, known, rest, rfl, ended⟩
    rwa [takeWhile_run (names word known) ended]

theorem exists_body {d : Dictionary} {t line : Text}
    (found : line ∈ (splitAt '\n' (format d t)).tail) :
    ∃ body, Compact body ∧ line = indented body := by
  by_cases empty : format d t = []
  · simp [empty, splitAt] at found
  · obtain ⟨first, rest, -, below, lines⟩ := exists_lines_format empty
    rw [lines] at found
    obtain ⟨body, inRest, rfl⟩ := List.mem_map.mp found
    exact ⟨body, below body inRest, rfl⟩

namespace Text.Compact

variable {body : Text}

theorem exists_first (compact : Compact body) : ∃ c rest, body = c :: rest ∧ c ≠ ' ' := by
  obtain ⟨c, rest, rfl⟩ := List.exists_cons_of_ne_nil compact.some
  refine ⟨c, rest, rfl, ?_⟩
  rintro rfl
  exact absurd (compact.first ' ' rfl) (by decide)

theorem dropWhile_indented (compact : Compact body) :
    (indented body).dropWhile (· == ' ') = body := by
  obtain ⟨n, blanks⟩ := exists_indent body
  obtain ⟨c, rest, rfl, visible⟩ := compact.exists_first
  rw [blanks, List.dropWhile_append_of_pos (by simp)]
  exact List.dropWhile_cons_of_neg (by simpa using visible)

theorem two_spaces_iff (compact : Compact body) :
    [' ', ' '] <+: indented body ↔ isLogical body := by
  obtain ⟨c, rest, rfl, visible⟩ := compact.exists_first
  unfold indented
  split
  · rename_i logical
    simp [logical]
  · rename_i plain
    simp [plain, Ne.symm visible]

end Text.Compact

/-- Where a line of a formatted query goes on with one of these words after its blanks, up to case,
the word is an occurrence of a keyword that begins a line, and so it is in capitals. -/
theorem beginsWith_iff_beginsLogical {d : Dictionary} {t body : Text} {n : Nat}
    (found : List.replicate n ' ' ++ body ∈ splitAt '\n' (format d t)) :
    BeginsWith logicalWords body ↔ BeginsLogical isWordChar body := by
  have leading : ∀ word ∈ logicalWords, word ∈ leadingWords := by decide
  have letters : ∀ word ∈ logicalWords, word.all isPlainCapital ∧ word ≠ [] := by decide
  have own : ∀ word ∈ logicalWords, sameWord word word := by decide
  constructor
  · rintro ⟨word, known, run, rest, same, rfl, breaks⟩
    obtain ⟨-, above, below, text, start, ended⟩ := mem_splitAt_iff.mp found
    have leads : Leads (above ++ List.replicate n ' ') := ⟨above, n, endsLine_of_last start, rfl⟩
    -- where the line ends with the word, the end of the line is the break
    have stops : Breaks (rest ++ below) := by
      intro c first
      cases rest with
      | nil =>
        rw [ended c first]
        rfl
      | cons e rest => exact breaks c first
    have occurs : Occurs (format d t) (above ++ List.replicate n ' ') (.word run)
        (rest ++ below) := by
      obtain ⟨capitals, some⟩ := letters word known
      refine ⟨?_, isWord_of_sameWord capitals some same, fun _ => leads.ends, fun _ => stops⟩
      rw [text]
      simp [Piece.text]
    obtain ⟨rfl, -⟩ := format_opener occurs (leading word known) same
    exact ⟨run, known, rest, rfl, breaks⟩
  · rintro ⟨word, known, rest, rfl, breaks⟩
    exact ⟨word, known, word, rest, own word known, rfl, breaks⟩

/-- A line below the first is indented exactly if it goes on with `AND` or `OR` and no letter,
numeral or low line right after it. Unless a disputed character comes right after it, this means
that the line begins with one of these words as a whole; and where one does, it means that it does
not. -/
theorem indented_by_name (d : Dictionary) (t : Text) :
    ∀ line ∈ (splitAt '\n' (format d t)).tail,
      let body := line.dropWhile (· == ' ')
      ([' ', ' '] <+: line ↔ BeginsLogical isNameChar body) ∧
        (¬BeginsDisputed body → ([' ', ' '] <+: line ↔ BeginsWith logicalWords body)) ∧
        (BeginsDisputed body → ([' ', ' '] <+: line ↔ ¬BeginsWith logicalWords body)) := by
  intro line found
  obtain ⟨body, compact, rfl⟩ := exists_body found
  obtain ⟨n, blanks⟩ := exists_indent body
  have inText : List.replicate n ' ' ++ body ∈ splitAt '\n' (format d t) := by
    rw [← blanks]
    exact List.mem_of_mem_tail found
  obtain ⟨settled, disputed⟩ := beginsLogical_iff body
  rw [compact.dropWhile_indented]
  dsimp only
  rw [compact.two_spaces_iff, isLogical_iff, beginsWith_iff_beginsLogical inText]
  exact ⟨Iff.rfl, settled, disputed⟩

theorem indented_by_name_mixed :
    let t := "a and b or½)AND\u0301 c".toList
    let d : Dictionary := .builtin
    let plain := "  AND b".toList
    let fraction := "OR½)".toList
    let accent := "  AND\u0301 c".toList
    (splitAt '\n' (format d t)).tail = [plain, fraction, accent] ∧
      (¬BeginsDisputed "AND b".toList ∧
        ([' ', ' '] <+: plain ↔ BeginsWith logicalWords "AND b".toList)) ∧
      (BeginsDisputed fraction ∧
        ([' ', ' '] <+: fraction ↔ ¬BeginsWith logicalWords fraction)) ∧
      BeginsDisputed "AND\u0301 c".toList ∧
        ([' ', ' '] <+: accent ↔ ¬BeginsWith logicalWords "AND\u0301 c".toList) := by
  -- a fraction right after `OR` and a combining accent right after `AND`, below a plain `AND`
  intro t d plain fraction accent
  have lines : (splitAt '\n' (format d t)).tail = [plain, fraction, accent] := by decide +kernel
  have each := indented_by_name d t
  have settled : ¬BeginsDisputed "AND b".toList := by
    change ¬BeginsDisputed ("AND".toList ++ " b".toList)
    rw [beginsDisputed_append (by decide)]
    rintro ⟨c, first, disputed⟩
    obtain rfl : ' ' = c := Option.some.inj first
    exact absurd disputed (by decide +kernel)
  have disputed : BeginsDisputed fraction :=
    ⟨"OR".toList, by decide, '½', [')'], rfl, by decide +kernel⟩
  have disputed' : BeginsDisputed "AND\u0301 c".toList :=
    ⟨"AND".toList, by decide, '\u0301', " c".toList, rfl, by decide +kernel⟩
  rw [lines] at each
  refine ⟨lines, ⟨settled, ?_⟩, ⟨disputed, ?_⟩, disputed', ?_⟩
  · exact (each plain (by simp)).2.1 settled
  · exact (each fraction (by simp)).2.2 disputed
  · exact (each accent (by simp)).2.2 disputed'

/-- A line that begins with `AND` and a fraction has no indent, though the whole word comes first;
one that begins with `AND` and a combining accent has one, though it does not. -/
theorem indent_misses_words :
    splitAt '\n' (format .builtin "a and½".toList) = ["a".toList, "AND½".toList] ∧
      BeginsWith logicalWords "AND½".toList ∧
      splitAt '\n' (format .builtin ")AND\u0301".toList) =
        [")".toList, "  AND\u0301".toList] ∧
      ¬BeginsWith logicalWords "AND\u0301".toList := by
  decide +kernel

end QueryTidy
