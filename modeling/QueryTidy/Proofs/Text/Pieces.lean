import QueryTidy.Proofs.Text.Letters
import QueryTidy.Text.Piece
import Mathlib.Data.List.Chain

/-!
Cutting a text into pieces is exact: the pieces written one after the other give the text back, and
a sequence of pieces in which no two words touch is what its own text is cut into. So a text whose
words are rewritten one by one is cut where its rewritten words are cut.
-/

set_option autoImplicit false
set_option relaxedAutoImplicit false

namespace QueryTidy.Text

def IsWord (w : Text) : Prop :=
  w ≠ [] ∧ ∀ c ∈ w, isWordChar c

instance (w : Text) : Decidable (IsWord w) :=
  decidable_of_iff (w ≠ [] ∧ w.all isWordChar) (by simp [IsWord])

def IsGap (blank : Text) : Prop :=
  blank ≠ [] ∧ ∀ c ∈ blank, isBlank c

/-- Whether a text keeps what stands before it apart from what stands after it: it has no word
characters, and is not empty. -/
def IsSeparator (s : Text) : Prop :=
  s ≠ [] ∧ ∀ c ∈ s, isWordChar c = false

instance (s : Text) : Decidable (IsSeparator s) :=
  decidable_of_iff (s ≠ [] ∧ s.all (!isWordChar ·)) (by simp [IsSeparator])

def Breaks (t : Text) : Prop :=
  ∀ c ∈ t.head?, isWordChar c = false

def Piece.Proper : Piece → Prop
  | .word run => IsWord run
  | .other c => isWordChar c = false

/-- Whether two pieces stay apart when one is written right after the other. -/
def Piece.Separate (p q : Piece) : Prop :=
  p.word? = none ∨ q.word? = none

/-- Whether a sequence of pieces is a text cut in every place where it can be cut. -/
structure Cut (ps : List Piece) : Prop where
  proper : ∀ p ∈ ps, p.Proper
  separate : ps.IsChain Piece.Separate

theorem Breaks.left {s t : Text} (breaks : Breaks (s ++ t)) : Breaks s := by
  cases s with
  | nil => simp [Breaks]
  | cons c s => exact breaks

theorem isGap_space : IsGap [' '] := by
  refine ⟨by simp, fun c only => ?_⟩
  rw [List.mem_singleton.mp only]
  rfl

theorem IsSeparator.breaks {s : Text} (separator : IsSeparator s) (t : Text) : Breaks (s ++ t) := by
  obtain ⟨c, s, rfl⟩ := List.exists_cons_of_ne_nil separator.1
  simpa [Breaks] using separator.2 c (by simp)

theorem IsGap.isSeparator {blank : Text} (gap : IsGap blank) : IsSeparator blank :=
  ⟨gap.1, fun c inBlank => isWordChar_of_isBlank (gap.2 c inBlank)⟩

theorem IsGap.breaks {blank : Text} (gap : IsGap blank) (t : Text) : Breaks (blank ++ t) :=
  gap.isSeparator.breaks t

theorem IsWord.nonblank {w : Text} (word : IsWord w) (t : Text) :
    ∀ c ∈ (w ++ t).head?, isBlank c = false := by
  obtain ⟨c, w, rfl⟩ := List.exists_cons_of_ne_nil word.1
  simpa using isBlank_of_isWordChar (word.2 c (by simp))

theorem exists_leading (test : Char → Bool) (t : Text) : ∃ run rest, t = run ++ rest ∧
    (∀ c ∈ run, test c) ∧ ∀ c ∈ rest.head?, test c = false := by
  refine ⟨t.takeWhile test, t.dropWhile test, List.takeWhile_append_dropWhile.symm,
    List.all_eq_true.mp List.all_takeWhile, fun c first => ?_⟩
  simpa [Option.mem_def.mp first] using List.head?_dropWhile_not test t

theorem exists_trailing (test : Char → Bool) (t : Text) : ∃ front run, t = front ++ run ∧
    (∀ c ∈ run, test c) ∧ ∀ c ∈ front.getLast?, test c = false := by
  obtain ⟨run, front, split, all, ended⟩ := exists_leading test t.reverse
  refine ⟨front.reverse, run.reverse, ?_, by simpa using all, by simpa using ended⟩
  rw [← List.reverse_append, ← split, List.reverse_reverse]

theorem pieces_cons_other {c : Char} (other : isWordChar c = false) (t : Text) :
    pieces (c :: t) = .other c :: pieces t := by
  change Piece.cons c (pieces t) = _
  simp [Piece.cons, other]

theorem pieces_cons_word {c : Char} (inWord : isWordChar c) {t : Text} (breaks : Breaks t) :
    pieces (c :: t) = .word [c] :: pieces t := by
  change Piece.cons c (pieces t) = _
  cases t with
  | nil => simp [Piece.cons, inWord, pieces]
  | cons d t =>
    rw [pieces_cons_other (breaks d rfl)]
    simp [Piece.cons, inWord]

theorem pieces_of_isWord {w : Text} (word : IsWord w) : pieces w = [.word w] := by
  obtain ⟨some, letters⟩ := word
  induction w with
  | nil => exact absurd rfl some
  | cons c w ih =>
    change Piece.cons c (pieces w) = _
    have first : isWordChar c := letters c (by simp)
    cases w with
    | nil => simp [Piece.cons, first, pieces]
    | cons d w =>
      rw [ih (by simp) fun e inRest => letters e (List.mem_cons_of_mem c inRest)]
      simp [Piece.cons, first]

private theorem cons_append {c : Char} {ps qs : List Piece} (some : ps ≠ []) :
    Piece.cons c (ps ++ qs) = Piece.cons c ps ++ qs := by
  cases ps with
  | nil => exact absurd rfl some
  | cons p ps =>
    unfold Piece.cons
    split
    · cases p <;> rfl
    · rfl

private theorem cons_ne_nil (c : Char) (ps : List Piece) : Piece.cons c ps ≠ [] := by
  unfold Piece.cons
  split
  · split <;> simp
  · simp

theorem pieces_append (s : Text) {t : Text} (breaks : Breaks t) :
    pieces (s ++ t) = pieces s ++ pieces t := by
  induction s with
  | nil => rfl
  | cons c s ih =>
    cases s with
    | nil =>
      by_cases inWord : isWordChar c
      · have single : pieces [c] = [.word [c]] :=
          pieces_of_isWord ⟨by simp, by simpa using inWord⟩
        rw [single]
        exact pieces_cons_word inWord breaks
      · have other : isWordChar c = false := Bool.eq_false_iff.mpr inWord
        rw [List.singleton_append, pieces_cons_other other, pieces_cons_other other]
        rfl
    | cons d s =>
      change Piece.cons c (pieces (d :: s ++ t)) = Piece.cons c (pieces (d :: s)) ++ pieces t
      rw [ih]
      exact cons_append (cons_ne_nil d _)

theorem pieces_append_of_ends {s : Text} (ends : ∀ c ∈ s.getLast?, isWordChar c = false)
    (t : Text) : pieces (s ++ t) = pieces s ++ pieces t := by
  rcases List.eq_nil_or_concat s with rfl | ⟨s, c, rfl⟩
  · rfl
  · have other : isWordChar c = false := ends c (by simp)
    have breaks : ∀ u, Breaks (c :: u) := fun u => by simpa [Breaks] using other
    rw [List.concat_eq_append, List.append_assoc, List.singleton_append, pieces_append s (breaks t),
      pieces_append s (breaks []), pieces_cons_other other, pieces_cons_other other,
      List.append_assoc]
    rfl

theorem pieces_text {p : Piece} (proper : p.Proper) : pieces p.text = [p] := by
  cases p with
  | word run => exact pieces_of_isWord proper
  | other c => exact pieces_cons_other proper []

theorem pieces_piece_append {p : Piece} (proper : p.Proper) {t : Text}
    (breaks : p.word? ≠ none → Breaks t) : pieces (p.text ++ t) = p :: pieces t := by
  cases p with
  | word run =>
    have apart : Breaks t := breaks (by simp [Piece.word?])
    rw [pieces_append _ apart, pieces_text proper]
    rfl
  | other c => exact pieces_cons_other proper t

theorem pieces_others_append {s : Text} (others : ∀ c ∈ s, isWordChar c = false) (t : Text) :
    pieces (s ++ t) = s.map Piece.other ++ pieces t := by
  induction s with
  | nil => rfl
  | cons c s ih =>
    rw [List.cons_append, pieces_cons_other (others c (by simp)),
      ih fun d inRest => others d (List.mem_cons_of_mem c inRest)]
    rfl

theorem pieces_of_others {s : Text} (others : ∀ c ∈ s, isWordChar c = false) :
    pieces s = s.map Piece.other := by
  simpa [pieces] using pieces_others_append others []

theorem pieces_blank_append {blank : Text} (all : ∀ c ∈ blank, isBlank c) (t : Text) :
    pieces (blank ++ t) = blank.map Piece.other ++ pieces t :=
  pieces_others_append (fun c inBlank => isWordChar_of_isBlank (all c inBlank)) t

theorem pieces_append_blank (t : Text) {blank : Text} (all : ∀ c ∈ blank, isBlank c) :
    pieces (t ++ blank) = pieces t ++ blank.map Piece.other := by
  have others : ∀ c ∈ blank, isWordChar c = false :=
    fun c inBlank => isWordChar_of_isBlank (all c inBlank)
  have breaks : Breaks blank := fun c first => others c (List.mem_of_mem_head? first)
  rw [pieces_append t breaks, pieces_of_others others]

theorem Cut.cons {p : Piece} {ps : List Piece} (proper : p.Proper)
    (separate : ∀ q ∈ ps.head?, p.Separate q) (cut : Cut ps) : Cut (p :: ps) := by
  refine ⟨?_, List.isChain_cons.mpr ⟨separate, cut.separate⟩⟩
  intro q inCut
  rcases List.mem_cons.mp inCut with rfl | inRest
  · exact proper
  · exact cut.proper q inRest

theorem Cut.tail {p : Piece} {ps : List Piece} (cut : Cut (p :: ps)) : Cut ps :=
  ⟨fun q inRest => cut.proper q (List.mem_cons_of_mem p inRest),
    (List.isChain_cons.mp cut.separate).2⟩

theorem Cut.after_word {run : Text} {ps : List Piece} (cut : Cut (.word run :: ps)) :
    ∀ q ∈ ps.head?, q.word? = none := by
  intro q first
  have separate := (List.isChain_cons.mp cut.separate).1 q first
  exact separate.resolve_left (by simp [Piece.word?])

private theorem cut_cons (c : Char) {ps : List Piece} (cut : Cut ps) : Cut (Piece.cons c ps) := by
  by_cases inWord : isWordChar c
  · have single : (Piece.word [c]).Proper := ⟨by simp, by simpa using inWord⟩
    cases ps with
    | nil => simpa [Piece.cons, inWord] using cut.cons single (by simp)
    | cons p rest =>
      cases p with
      | other d =>
        simpa [Piece.cons, inWord] using cut.cons single (by simp [Piece.Separate, Piece.word?])
      | word run =>
        have known : IsWord run := cut.proper (.word run) (by simp)
        have longer : (Piece.word (c :: run)).Proper := by
          refine ⟨by simp, fun d inRun => ?_⟩
          rcases List.mem_cons.mp inRun with rfl | inRun
          · exact inWord
          · exact known.2 d inRun
        simpa [Piece.cons, inWord] using
          cut.tail.cons longer fun q first => Or.inr (cut.after_word q first)
  · have other : (Piece.other c).Proper := Bool.eq_false_iff.mpr inWord
    simpa [Piece.cons, inWord] using cut.cons other fun q _ => Or.inl rfl

theorem cut_pieces (t : Text) : Cut (pieces t) := by
  induction t with
  | nil => exact ⟨by simp [pieces], by simp [pieces]⟩
  | cons c t ih => exact cut_cons c ih

theorem text_cons (c : Char) (ps : List Piece) :
    (Piece.cons c ps).flatMap Piece.text = c :: ps.flatMap Piece.text := by
  unfold Piece.cons
  split
  · split <;> simp [Piece.text]
  · simp [Piece.text]

theorem text_pieces (t : Text) : (pieces t).flatMap Piece.text = t := by
  induction t with
  | nil => rfl
  | cons c t ih =>
    change (Piece.cons c (pieces t)).flatMap Piece.text = _
    rw [text_cons, ih]

theorem pieces_injective : Function.Injective pieces := by
  intro s t same
  rw [← text_pieces s, same, text_pieces]

theorem Cut.breaks {run : Text} {ps : List Piece} (cut : Cut (.word run :: ps))
    {rewrite : Piece → Text} (keeps : ∀ c, rewrite (.other c) = [c]) :
    Breaks (ps.flatMap rewrite) := by
  cases ps with
  | nil => simp [Breaks]
  | cons q ps =>
    have next := cut.after_word q rfl
    cases q with
    | word run => simp [Piece.word?] at next
    | other c =>
      have other : isWordChar c = false := cut.proper (.other c) (by simp)
      simpa [Breaks, keeps] using other

/-- Rewriting the words of a cut sequence leaves every other character where it stands, so the
result is cut word by word. -/
theorem pieces_flatMap {ps : List Piece} (cut : Cut ps) {rewrite : Piece → Text}
    (keeps : ∀ c, rewrite (.other c) = [c]) :
    pieces (ps.flatMap rewrite) = ps.flatMap fun p => pieces (rewrite p) := by
  induction ps with
  | nil => rfl
  | cons p ps ih =>
    rw [List.flatMap_cons, List.flatMap_cons, ← ih cut.tail]
    cases p with
    | other c =>
      have other : isWordChar c = false := cut.proper (.other c) (by simp)
      rw [keeps, List.singleton_append, pieces_cons_other other, pieces_cons_other other]
      rfl
    | word run => exact pieces_append _ (cut.breaks keeps)

private theorem countP_flatMap_le {ps : List Piece} {f g : Piece → Text} {test : Char → Bool}
    (le : ∀ p ∈ ps, (f p).countP test ≤ (g p).countP test) :
    (ps.flatMap f).countP test ≤ (ps.flatMap g).countP test := by
  induction ps with
  | nil => simp
  | cons p ps ih =>
    have first := le p (by simp)
    have rest := ih fun q inRest => le q (List.mem_cons_of_mem p inRest)
    simp only [List.flatMap_cons, List.countP_append]
    omega

private theorem countP_eq_of_flatMap {ps : List Piece} {f g : Piece → Text} {test : Char → Bool}
    (le : ∀ p ∈ ps, (f p).countP test ≤ (g p).countP test) (same : ps.flatMap g = ps.flatMap f) :
    ∀ p ∈ ps, (g p).countP test = (f p).countP test := by
  have total : (ps.flatMap g).countP test ≤ (ps.flatMap f).countP test := by rw [same]
  clear same
  induction ps with
  | nil => simp
  | cons p ps ih =>
    simp only [List.flatMap_cons, List.countP_append] at total
    have first := le p (by simp)
    have rest : ∀ q ∈ ps, (f q).countP test ≤ (g q).countP test :=
      fun q inRest => le q (List.mem_cons_of_mem p inRest)
    have sums := countP_flatMap_le rest
    intro q inPs
    rcases List.mem_cons.mp inPs with rfl | inRest
    · omega
    · exact ih rest (by omega) q inRest

private theorem countP_word {run : Text} (word : IsWord run) :
    run.countP (fun c => !isWordChar c) = 0 := by
  rw [List.countP_eq_zero]
  intro c inRun
  simp [word.2 c inRun]

private theorem letters_of_flatMap_eq {ps : List Piece} (cut : Cut ps) {rewrite : Piece → Text}
    (keeps : ∀ c, rewrite (.other c) = [c])
    (fixed : ps.flatMap rewrite = ps.flatMap Piece.text) {run : Text} (inCut : .word run ∈ ps) :
    ∀ c ∈ rewrite (.word run), isWordChar c := by
  -- a result of the same length has no room for further characters of another kind
  let others : Text → Nat := List.countP fun c => !isWordChar c
  have le : ∀ p ∈ ps, others p.text ≤ others (rewrite p) := by
    intro p inPs
    cases p with
    | word run =>
      have none : others run = 0 := countP_word (cut.proper _ inPs)
      simp [Piece.text, none]
    | other c => simp [Piece.text, keeps]
  have same : others (rewrite (.word run)) = others run := countP_eq_of_flatMap le fixed _ inCut
  have none : others run = 0 := countP_word (cut.proper _ inCut)
  intro c inRewritten
  have clear := List.countP_eq_zero.mp (same.trans none) c inRewritten
  simpa using clear

theorem takeWhile_run {test : Char → Bool} {run rest : Text} (all : ∀ c ∈ run, test c)
    (ended : ∀ c ∈ rest.head?, test c = false) : (run ++ rest).takeWhile test = run := by
  rw [List.takeWhile_append_of_pos all]
  cases rest with
  | nil => simp
  | cons c rest => simp [ended c rfl]

theorem dropWhile_run {test : Char → Bool} {run rest : Text} (all : ∀ c ∈ run, test c)
    (ended : ∀ c ∈ rest.head?, test c = false) : (run ++ rest).dropWhile test = rest := by
  rw [List.dropWhile_append_of_pos all]
  cases rest with
  | nil => rfl
  | cons c rest => exact List.dropWhile_cons_of_neg (by simp [ended c rfl])

theorem rewrite_eq_text {ps : List Piece} (cut : Cut ps) {rewrite : Piece → Text}
    (keeps : ∀ c, rewrite (.other c) = [c])
    (fixed : ps.flatMap rewrite = ps.flatMap Piece.text) : ∀ p ∈ ps, rewrite p = p.text := by
  have letters : ∀ run, .word run ∈ ps → ∀ c ∈ rewrite (.word run), isWordChar c :=
    fun run inPs => letters_of_flatMap_eq cut keeps fixed inPs
  induction ps with
  | nil => simp
  | cons p ps ih =>
    rw [List.flatMap_cons, List.flatMap_cons] at fixed
    have first : rewrite p = p.text := by
      cases p with
      | other c => exact keeps c
      | word run =>
        have known : IsWord run := cut.proper (.word run) (by simp)
        have run' := takeWhile_run (letters run (by simp)) (cut.breaks keeps)
        rw [fixed] at run'
        rw [← run']
        exact takeWhile_run known.2 (cut.breaks fun _ => rfl)
    rw [first, List.append_cancel_left_eq] at fixed
    intro q inPs
    rcases List.mem_cons.mp inPs with rfl | inRest
    · exact first
    · exact ih cut.tail fixed (fun run inRest => letters run (List.mem_cons_of_mem p inRest)) q
        inRest

end QueryTidy.Text
