import QueryTidy.Layout.Passes
import QueryTidy.Proofs.Layout.Lines

/-!
A text as pieces with the blanks before them, and what the passes over blanks and punctuation make
of it. These passes leave every piece as it is; each of them decides what stands before a piece from
what stood there, from the piece and from the one before it.
-/

set_option autoImplicit false
set_option relaxedAutoImplicit false

namespace QueryTidy.Layout

open Text

section Scanning

variable {sub : Substitution} {inWord : Bool} {seg rest : Text}

def wordAfter (inWord : Bool) (t : Text) : Bool :=
  t.foldl (fun _ c => isWordChar c) inWord

theorem wordAfter_append (inWord : Bool) (s t : Text) :
    wordAfter inWord (s ++ t) = wordAfter (wordAfter inWord s) t :=
  List.foldl_append

private theorem replaceFrom_taken (sub : Substitution) (inWord : Bool) (seg rest : Text) :
    replaceFrom sub seg.length inWord (seg ++ rest) =
      replaceFrom sub 0 (wordAfter inWord seg) rest := by
  induction seg generalizing inWord with
  | nil => rfl
  | cons c seg ih => exact ih (isWordChar c)

theorem replaceFrom_found {put : Text} (some : seg ≠ [])
    (found : sub inWord (seg ++ rest) = .some (seg.length, put)) :
    replaceFrom sub 0 inWord (seg ++ rest) =
      put ++ replaceFrom sub 0 (wordAfter inWord seg) rest := by
  obtain ⟨c, seg, rfl⟩ := List.exists_cons_of_ne_nil some
  rw [List.cons_append] at found
  rw [List.cons_append, replaceFrom, found]
  change put ++ replaceFrom sub seg.length (isWordChar c) (seg ++ rest) = _
  rw [replaceFrom_taken]
  rfl

theorem replaceFrom_passed
    (nothing : ∀ a b, seg = a ++ b → b ≠ [] → sub (wordAfter inWord a) (b ++ rest) = none) :
    replaceFrom sub 0 inWord (seg ++ rest) =
      seg ++ replaceFrom sub 0 (wordAfter inWord seg) rest := by
  induction seg generalizing inWord with
  | nil => rfl
  | cons c seg ih =>
    have here : sub inWord (c :: (seg ++ rest)) = none := nothing [] (c :: seg) rfl (by simp)
    rw [List.cons_append, replaceFrom, here, ih]
    · rfl
    · intro a b split
      exact nothing (c :: a) b (by rw [split, List.cons_append])

end Scanning

structure Placed where
  gap : Text
  piece : Piece

def spread (ps : List Placed) (last : Text) : Text :=
  ps.flatMap (fun p => p.gap ++ p.piece.text) ++ last

theorem spread_cons (p : Placed) (ps : List Placed) (last : Text) :
    spread (p :: ps) last = p.gap ++ (p.piece.text ++ spread ps last) := by
  simp [spread]

theorem spread_append (ps qs : List Placed) (last : Text) :
    spread (ps ++ qs) last = spread ps [] ++ spread qs last := by
  simp [spread]

structure Legible (ps : List Placed) (last : Text) : Prop where
  gaps : ∀ p ∈ ps, ∀ c ∈ p.gap, isBlank c
  ended : ∀ c ∈ last, isBlank c
  proper : ∀ p ∈ ps, p.piece.Proper
  visible : ∀ p ∈ ps, p.piece.blank = false

/-- Whether, besides, pieces with no blank between them are no two words. -/
structure Fair (ps : List Placed) (last : Text) : Prop extends Legible ps last where
  separate : ps.IsChain fun p q => q.gap = [] → p.piece.Separate q.piece

variable {p : Placed} {ps : List Placed} {last : Text}

theorem Legible.tail (legible : Legible (p :: ps) last) : Legible ps last :=
  ⟨fun q inRest => legible.gaps q (List.mem_cons_of_mem p inRest), legible.ended,
    fun q inRest => legible.proper q (List.mem_cons_of_mem p inRest),
    fun q inRest => legible.visible q (List.mem_cons_of_mem p inRest)⟩

theorem Legible.dense (legible : Legible (p :: ps) last) : Dense p.piece.text :=
  Piece.dense_text (legible.proper p (by simp)) (legible.visible p (by simp))

theorem Fair.tail (fair : Fair (p :: ps) last) : Fair ps last :=
  ⟨fair.toLegible.tail, (List.isChain_cons.mp fair.separate).2⟩

theorem Fair.cons (gap : ∀ c ∈ p.gap, isBlank c) (proper : p.piece.Proper)
    (visible : p.piece.blank = false)
    (apart : ∀ q ∈ ps.head?, q.gap = [] → p.piece.Separate q.piece) (fair : Fair ps last) :
    Fair (p :: ps) last where
  gaps := List.forall_mem_cons.mpr ⟨gap, fair.gaps⟩
  ended := fair.ended
  proper := List.forall_mem_cons.mpr ⟨proper, fair.proper⟩
  visible := List.forall_mem_cons.mpr ⟨visible, fair.visible⟩
  separate := List.isChain_cons.mpr ⟨apart, fair.separate⟩

theorem Fair.drop (fair : Fair ps last) (n : Nat) : Fair (ps.drop n) last := by
  induction n generalizing ps with
  | zero => exact fair
  | succ n ih =>
    cases ps with
    | nil => exact fair
    | cons p ps => exact ih fair.tail

theorem Legible.left {qs : List Placed} (legible : Legible (ps ++ qs) last) {last' : Text}
    (ended : ∀ c ∈ last', isBlank c) : Legible ps last' :=
  ⟨fun p inLeft => legible.gaps p (List.mem_append_left qs inLeft), ended,
    fun p inLeft => legible.proper p (List.mem_append_left qs inLeft),
    fun p inLeft => legible.visible p (List.mem_append_left qs inLeft)⟩

def Placed.item (p : Placed) : Item :=
  ⟨p.piece, !p.gap.isEmpty⟩

private theorem exists_placed_of_cut (gap : Text) (blank : ∀ c ∈ gap, isBlank c)
    (pieces : List Piece) :
    ∃ ps last, spread ps last = gap ++ pieces.flatMap Piece.text ∧
      ps.map Placed.item = items (!gap.isEmpty) pieces ∧
      (∀ p ∈ ps, ∀ c ∈ p.gap, isBlank c) ∧ ∀ c ∈ last, isBlank c := by
  induction pieces generalizing gap with
  | nil => exact ⟨[], gap, by simp [spread], rfl, by simp, blank⟩
  | cons piece pieces ih =>
    by_cases hidden : piece.blank
    · cases piece with
      | word run => simp [Piece.blank] at hidden
      | other c =>
        have isBlank : isBlank c := hidden
        obtain ⟨ps, last, text, same, gaps, ended⟩ := ih (gap ++ [c]) (by
          intro e found
          rcases List.mem_append.mp found with inGap | isLast
          · exact blank e inGap
          · rw [List.mem_singleton.mp isLast]
            exact isBlank)
        refine ⟨ps, last, ?_, ?_, gaps, ended⟩
        · simpa [Piece.text] using text
        · have some : (gap ++ [c]).isEmpty = false := by simp
          rw [some] at same
          simpa [items, isBlank] using same
    · have visible : piece.blank = false := Bool.eq_false_iff.mpr hidden
      obtain ⟨ps, last, text, same, gaps, ended⟩ := ih [] (by simp)
      refine ⟨⟨gap, piece⟩ :: ps, last, ?_, ?_, ?_, ended⟩
      · rw [spread_cons, text]
        simp
      · rw [items_visible _ visible, List.map_cons, same]
        rfl
      · intro p inList
        rcases List.mem_cons.mp inList with rfl | inRest
        · exact blank
        · exact gaps p inRest

theorem fair_of_sound (gaps : ∀ p ∈ ps, ∀ c ∈ p.gap, isBlank c) (ended : ∀ c ∈ last, isBlank c)
    (sound : Sound (ps.map Placed.item)) : Fair ps last where
  gaps := gaps
  ended := ended
  proper p inList := sound.proper p.item (List.mem_map_of_mem inList)
  visible p inList := sound.visible p.item (List.mem_map_of_mem inList)
  separate := by
    have chain := (List.isChain_map Placed.item).mp sound.separate
    refine chain.imp fun p q apart close => apart ?_
    simp [Placed.item, close]

/-- Every text is made of pieces with blanks before and behind them. -/
theorem exists_placed (t : Text) :
    ∃ ps last, spread ps last = t ∧ Fair ps last ∧
      ps.map Placed.item = items false (pieces t) := by
  obtain ⟨ps, last, text, same, gaps, ended⟩ := exists_placed_of_cut [] (by simp) (pieces t)
  rw [text_pieces] at text
  refine ⟨ps, last, text, fair_of_sound gaps ended ?_, same⟩
  rw [same]
  exact sound_items _ (cut_pieces t)

/-- Pieces with other blanks before them, which may depend on the piece before. -/
def regap (f : Option Piece → Placed → Text) (before : Option Piece) : List Placed → List Placed
  | [] => []
  | p :: ps => ⟨f before p, p.piece⟩ :: regap f (some p.piece) ps

theorem regap_regap (f g : Option Piece → Placed → Text) (before : Option Piece)
    (ps : List Placed) :
    regap g before (regap f before ps) =
      regap (fun before p => g before ⟨f before p, p.piece⟩) before ps := by
  induction ps generalizing before with
  | nil => rfl
  | cons p ps ih => simp only [regap, ih]

theorem map_piece_regap (f : Option Piece → Placed → Text) (before : Option Piece)
    (ps : List Placed) : (regap f before ps).map Placed.piece = ps.map Placed.piece := by
  induction ps generalizing before with
  | nil => rfl
  | cons p ps ih => simp only [regap, List.map_cons, ih]

theorem Legible.regap {f : Option Piece → Placed → Text} (legible : Legible ps last)
    (blank : ∀ before, ∀ p ∈ ps, ∀ c ∈ f before p, isBlank c) {last' : Text}
    (ended : ∀ c ∈ last', isBlank c) (before : Option Piece) :
    Legible (Layout.regap f before ps) last' := by
  have inner : ∀ q ∈ Layout.regap f before ps,
      ∃ before', ∃ p ∈ ps, q = ⟨f before' p, p.piece⟩ := by
    clear legible blank
    induction ps generalizing before with
    | nil => simp [Layout.regap]
    | cons p ps ih =>
      intro q inList
      rcases List.mem_cons.mp inList with rfl | inRest
      · exact ⟨before, p, by simp, rfl⟩
      · obtain ⟨before', p', inPs, same⟩ := ih (some p.piece) q inRest
        exact ⟨before', p', List.mem_cons_of_mem p inPs, same⟩
  refine ⟨?_, ended, ?_, ?_⟩
  · intro q inList
    obtain ⟨before', p, inPs, rfl⟩ := inner q inList
    exact blank before' p inPs
  · intro q inList
    obtain ⟨before', p, inPs, rfl⟩ := inner q inList
    exact legible.proper p inPs
  · intro q inList
    obtain ⟨before', p, inPs, rfl⟩ := inner q inList
    exact legible.visible p inPs

section Blanks

def squeezed (gap : Text) : Text :=
  if gap = [] then [] else [' ']

private theorem blankRun_append {gap rest : Text} (blank : ∀ c ∈ gap, isBlank c)
    (ended : ∀ c ∈ rest.head?, isBlank c = false) (inWord : Bool) :
    replaceFrom blankRun 0 inWord (gap ++ rest) =
      squeezed gap ++ replaceFrom blankRun 0 (wordAfter inWord gap) rest := by
  cases gap with
  | nil => rfl
  | cons c gap =>
    have found : blankRun inWord (c :: gap ++ rest) = some ((c :: gap).length, [' ']) := by
      unfold blankRun
      rw [takeWhile_run blank ended]
    rw [replaceFrom_found (by simp) found]
    rfl

private theorem blankRun_dense {t : Text} (dense : Dense t) (rest : Text) (inWord : Bool) :
    replaceFrom blankRun 0 inWord (t ++ rest) =
      t ++ replaceFrom blankRun 0 (wordAfter inWord t) rest := by
  apply replaceFrom_passed
  rintro a b rfl some
  have none : (b ++ rest).takeWhile isBlank = [] :=
    takeWhile_run (List.forall_mem_nil _) ((dense.right some).nonblank rest)
  unfold blankRun
  rw [none]

private theorem replaceFrom_blankRun (legible : Legible ps last) (inWord : Bool)
    (before : Option Piece) :
    replaceFrom blankRun 0 inWord (spread ps last) =
      spread (regap (fun _ p => squeezed p.gap) before ps) (squeezed last) := by
  induction ps generalizing inWord before with
  | nil =>
    have text : spread [] last = last ++ [] := by simp [spread]
    rw [text, blankRun_append legible.ended (by simp)]
    simp [regap, spread, replaceFrom]
  | cons p ps ih =>
    rw [spread_cons, blankRun_append (legible.gaps p (by simp)) (legible.dense.nonblank _),
      blankRun_dense legible.dense, ih legible.tail _ (some p.piece), regap, spread_cons]

theorem collapseBlanks_spread (legible : Legible ps last) :
    collapseBlanks (spread ps last) =
      spread (regap (fun _ p => squeezed p.gap) none ps) (squeezed last) :=
  replaceFrom_blankRun legible false none

end Blanks

section Punctuation

def isSpaced : Piece → Bool
  | .word _ => false
  | .other c => isPunctuation c

def spacedGap (before : Option Piece) (p : Placed) : Text :=
  if before.any isSpaced then [' '] else if isSpaced p.piece then [] else p.gap

private theorem punctuation_eq {gap : Text} (blank : ∀ c ∈ gap, isBlank c) {c : Char}
    (visible : isBlank c = false) (rest : Text) (inWord : Bool) :
    punctuation inWord (gap ++ c :: rest) =
      if isPunctuation c then
        some (gap.length + 1 + (rest.takeWhile isBlank).length, [c, ' '])
      else none := by
  have ended : ∀ e ∈ (c :: rest).head?, isBlank e = false := by simpa using visible
  unfold punctuation
  rw [dropWhile_run blank ended, takeWhile_run blank ended]

private theorem isWordChar_of_isPunctuation {c : Char} (mark : isPunctuation c) :
    isWordChar c = false := by
  have known : c = ',' ∨ c = '(' ∨ c = ')' := by simpa [isPunctuation, or_assoc] using mark
  rcases known with rfl | rfl | rfl <;> rfl

private theorem punctuation_blanks {gap : Text} (blank : ∀ c ∈ gap, isBlank c)
    {rest : Text} (ended : ∀ c ∈ rest.head?, isBlank c = false ∧ isPunctuation c = false)
    (inWord : Bool) :
    replaceFrom punctuation 0 inWord (gap ++ rest) =
      gap ++ replaceFrom punctuation 0 (wordAfter inWord gap) rest := by
  apply replaceFrom_passed
  rintro a b rfl -
  have inside : ∀ c ∈ b, isBlank c := fun c inRight => blank c (List.mem_append_right a inRight)
  cases rest with
  | nil =>
    have none : (b ++ []).dropWhile isBlank = [] := dropWhile_run inside (by simp)
    unfold punctuation
    rw [none]
  | cons c rest =>
    obtain ⟨visible, unmarked⟩ := ended c rfl
    rw [punctuation_eq inside visible, unmarked]
    rfl

private theorem punctuation_dense {t : Text} (dense : Dense t)
    (unmarked : ∀ c ∈ t, isPunctuation c = false) (rest : Text) (inWord : Bool) :
    replaceFrom punctuation 0 inWord (t ++ rest) =
      t ++ replaceFrom punctuation 0 (wordAfter inWord t) rest := by
  apply replaceFrom_passed
  rintro a b rfl some
  obtain ⟨c, b, rfl⟩ := List.exists_cons_of_ne_nil some
  have here := punctuation_eq (List.forall_mem_nil _) ((dense.right some).2 c (by simp)) (b ++ rest)
  rw [unmarked c (by simp)] at here
  exact here _

private theorem unmarked_of_not_isSpaced {piece : Piece} (proper : piece.Proper)
    (plain : isSpaced piece = false) : ∀ c ∈ piece.text, isPunctuation c = false := by
  intro c inText
  cases piece with
  | word run =>
    have word : IsWord run := proper
    apply Bool.eq_false_iff.mpr
    intro mark
    have other := isWordChar_of_isPunctuation mark
    rw [word.2 c inText] at other
    contradiction
  | other e =>
    rw [List.mem_singleton.mp inText]
    exact plain

private theorem punctuation_found {piece : Piece} (visible : piece.blank = false)
    (spaced : isSpaced piece) {gap gap' rest : Text} (blank : ∀ c ∈ gap, isBlank c)
    (blank' : ∀ c ∈ gap', isBlank c) (ended : ∀ c ∈ rest.head?, isBlank c = false)
    (inWord : Bool) :
    ∃ inWord', replaceFrom punctuation 0 inWord (gap ++ (piece.text ++ (gap' ++ rest))) =
      piece.text ++ ' ' :: replaceFrom punctuation 0 inWord' rest := by
  cases piece with
  | word run => contradiction
  | other c =>
    have mark : isPunctuation c := spaced
    have found := punctuation_eq blank visible (gap' ++ rest) inWord
    rw [if_pos mark, takeWhile_run blank' ended] at found
    have text : gap ++ ((Piece.other c).text ++ (gap' ++ rest)) = (gap ++ c :: gap') ++ rest := by
      simp [Piece.text]
    have size : gap.length + 1 + gap'.length = (gap ++ c :: gap').length := by
      simp only [List.length_append, List.length_cons]
      omega
    have whole : gap ++ c :: (gap' ++ rest) = (gap ++ c :: gap') ++ rest := by simp
    rw [size, whole] at found
    refine ⟨wordAfter inWord (gap ++ c :: gap'), ?_⟩
    rw [text, replaceFrom_found (by simp) found]
    rfl

private theorem punctuation_piece {piece : Piece} (proper : piece.Proper)
    (visible : piece.blank = false) {rest rest' : Text}
    (later : ∀ inWord, (if isSpaced piece then
        ' ' :: replaceFrom punctuation 0 inWord (rest.dropWhile isBlank)
      else replaceFrom punctuation 0 inWord rest) = rest')
    {gap : Text} (blank : ∀ c ∈ gap, isBlank c) (inWord : Bool) :
    replaceFrom punctuation 0 inWord (gap ++ (piece.text ++ rest)) =
      (if isSpaced piece then [] else gap) ++ (piece.text ++ rest') := by
  have dense := Piece.dense_text proper visible
  by_cases spaced : isSpaced piece
  · have whole : rest = rest.takeWhile isBlank ++ rest.dropWhile isBlank :=
      List.takeWhile_append_dropWhile.symm
    have ended : ∀ c ∈ (rest.dropWhile isBlank).head?, isBlank c = false := by
      intro c first
      simpa [Option.mem_def.mp first] using List.head?_dropWhile_not isBlank rest
    obtain ⟨inWord', found⟩ := punctuation_found visible spaced blank
      (List.all_eq_true.mp List.all_takeWhile) ended inWord
    have next := later inWord'
    rw [← whole] at found
    rw [if_pos spaced] at next
    rw [found, next, if_pos spaced]
    rfl
  · have unmarked := unmarked_of_not_isSpaced proper (Bool.eq_false_iff.mpr spaced)
    have ended : ∀ c ∈ (piece.text ++ rest).head?, isBlank c = false ∧ isPunctuation c = false := by
      obtain ⟨c, t, text⟩ := List.exists_cons_of_ne_nil dense.1
      rw [text]
      intro e first
      obtain rfl : c = e := Option.some.inj first
      exact ⟨dense.2 c (by simp [text]), unmarked c (by simp [text])⟩
    have next := later (wordAfter (wordAfter inWord gap) piece.text)
    rw [if_neg spaced] at next
    rw [punctuation_blanks blank ended, punctuation_dense dense unmarked, next, if_neg spaced]

private theorem replaceFrom_punctuation (legible : Legible ps last) (before : Option Piece) :
    ∃ last', (∀ c ∈ last', isBlank c) ∧ ∀ inWord,
      (if before.any isSpaced then
        ' ' :: replaceFrom punctuation 0 inWord ((spread ps last).dropWhile isBlank)
      else replaceFrom punctuation 0 inWord (spread ps last)) =
        spread (regap spacedGap before ps) last' := by
  -- the blanks behind a spaced piece are taken with it, so the search goes on without them and one
  -- space is already written
  induction ps generalizing before with
  | nil =>
    have text : spread [] last = last ++ [] := by simp [spread]
    have none : (last ++ []).dropWhile isBlank = [] := dropWhile_run legible.ended (by simp)
    rw [text, none]
    by_cases spaced : before.any isSpaced
    · refine ⟨[' '], isGap_space.2, fun inWord => ?_⟩
      rw [if_pos spaced]
      rfl
    · refine ⟨last, legible.ended, fun inWord => ?_⟩
      rw [if_neg spaced, punctuation_blanks legible.ended (by simp)]
      simp [replaceFrom, regap, spread]
  | cons p ps ih =>
    obtain ⟨last', blank', later⟩ := ih legible.tail (some p.piece)
    have blank := legible.gaps p (by simp)
    have step {gap : Text} (blank : ∀ c ∈ gap, isBlank c) (inWord : Bool) :=
      punctuation_piece (legible.proper p (by simp)) (legible.visible p (by simp)) later blank inWord
    refine ⟨last', blank', fun inWord => ?_⟩
    rw [spread_cons, regap, spread_cons, spacedGap]
    by_cases spaced : before.any isSpaced
    · have bare : (p.gap ++ (p.piece.text ++ spread ps last)).dropWhile isBlank =
          p.piece.text ++ spread ps last := dropWhile_run blank (legible.dense.nonblank _)
      have here := step (List.forall_mem_nil _) inWord
      rw [List.nil_append, ite_self, List.nil_append] at here
      rw [if_pos spaced, if_pos spaced, bare, here]
      rfl
    · rw [if_neg spaced, if_neg spaced, step blank]

theorem spacePunctuation_spread (legible : Legible ps last) :
    ∃ last', (∀ c ∈ last', isBlank c) ∧
      spacePunctuation (spread ps last) = spread (regap spacedGap none ps) last' := by
  obtain ⟨last', blank, text⟩ := replaceFrom_punctuation legible none
  exact ⟨last', blank, text false⟩

end Punctuation

section Parentheses

def brokenGap (before : Option Piece) (p : Placed) : Text :=
  (if before = some (.other ')') then ['\n'] else []) ++
    (p.gap ++ if p.piece = .other '(' then ['\n'] else [])

private def breakChar (c : Char) : Text :=
  if c = '(' then "\n(".toList else if c = ')' then ")\n".toList else [c]

private theorem breakParentheses_eq (t : Text) : breakParentheses t = t.flatMap breakChar := by
  unfold breakParentheses
  rw [List.flatMap_assoc]
  congr 1
  funext c
  unfold breakChar
  split
  · rfl
  · simp

private theorem flatMap_breakChar {t : Text} (plain : ∀ c ∈ t, c ≠ '(' ∧ c ≠ ')') :
    t.flatMap breakChar = t := by
  induction t with
  | nil => rfl
  | cons c t ih =>
    obtain ⟨notOpen, notClose⟩ := plain c (by simp)
    rw [List.flatMap_cons, ih fun e inRest => plain e (List.mem_cons_of_mem c inRest), breakChar,
      if_neg notOpen, if_neg notClose]
    rfl

private theorem flatMap_breakChar_blank {t : Text} (blank : ∀ c ∈ t, isBlank c) :
    t.flatMap breakChar = t := by
  apply flatMap_breakChar
  intro c inText
  constructor
  · rintro rfl
    exact absurd (blank _ inText) (by decide)
  · rintro rfl
    exact absurd (blank _ inText) (by decide)

private theorem flatMap_breakChar_piece {piece : Piece} (proper : piece.Proper) :
    piece.text.flatMap breakChar =
      (if piece = .other '(' then ['\n'] else []) ++
        (piece.text ++ if piece = .other ')' then ['\n'] else []) := by
  cases piece with
  | word run =>
    have word : IsWord run := proper
    have plain : ∀ c ∈ run, c ≠ '(' ∧ c ≠ ')' := by
      intro c inRun
      constructor
      · rintro rfl
        exact absurd (word.2 _ inRun) (by decide)
      · rintro rfl
        exact absurd (word.2 _ inRun) (by decide)
    simpa [Piece.text] using flatMap_breakChar plain
  | other c =>
    by_cases isOpen : c = '('
    · subst isOpen
      rfl
    · by_cases isClose : c = ')'
      · subst isClose
        rfl
      · simp [Piece.text, breakChar, isOpen, isClose]

private theorem flatMap_spread (legible : Legible ps last) (before : Option Piece) :
    ∃ last', (∀ c ∈ last', isBlank c) ∧
      (if before = some (.other ')') then ['\n'] else []) ++ (spread ps last).flatMap breakChar =
        spread (regap brokenGap before ps) last' := by
  induction ps generalizing before with
  | nil =>
    refine ⟨(if before = some (.other ')') then ['\n'] else []) ++ last, ?_, ?_⟩
    · intro c found
      rcases List.mem_append.mp found with inBreak | inLast
      · split at inBreak
        · rw [List.mem_singleton.mp inBreak]
          rfl
        · simp at inBreak
      · exact legible.ended c inLast
    · simp [spread, regap, flatMap_breakChar_blank legible.ended]
  | cons p ps ih =>
    obtain ⟨last', blank, rest⟩ := ih legible.tail (some p.piece)
    simp only [Option.some.injEq] at rest
    refine ⟨last', blank, ?_⟩
    rw [spread_cons, List.flatMap_append, List.flatMap_append,
      flatMap_breakChar_blank (legible.gaps p (by simp)),
      flatMap_breakChar_piece (legible.proper p (by simp)), regap, spread_cons, ← rest]
    simp [brokenGap]

theorem breakParentheses_spread (legible : Legible ps last) :
    ∃ last', (∀ c ∈ last', isBlank c) ∧
      breakParentheses (spread ps last) = spread (regap brokenGap none ps) last' := by
  obtain ⟨last', blank, text⟩ := flatMap_spread legible none
  refine ⟨last', blank, ?_⟩
  rw [breakParentheses_eq]
  simpa using text

end Parentheses

end QueryTidy.Layout
