import QueryTidy.Proofs.Layout.Families
import QueryTidy.Proofs.Layout.Gaps
import QueryTidy.Proofs.Text.Search

/-!
The passes that put phrases on lines of their own. A substitution that looks for a phrase in a text
finds it where the pieces of the text fill its slots, so going through the text replaces exactly the
pieces that have a role in the phrases of the pass: they are written in capitals with single spaces
between them, and a line end comes before the first of them.
-/

set_option autoImplicit false
set_option relaxedAutoImplicit false

namespace QueryTidy.Layout

open Text

variable {p : Placed} {ps : List Placed} {last : Text} {forms : List (List Slot)}

def Keyed (forms : List (List Slot)) : Prop :=
  ∀ form ∈ forms, form ≠ [] ∧ ∀ s ∈ form, ∀ word ∈ s, word ∈ keywords

instance (forms : List (List Slot)) : Decidable (Keyed forms) :=
  inferInstanceAs (Decidable (∀ form ∈ forms, form ≠ [] ∧ ∀ s ∈ form, ∀ word ∈ s, word ∈ keywords))

theorem Fair.breaks (fair : Fair (p :: ps) last) (word : p.piece.word? ≠ none) :
    Breaks (spread ps last) := by
  intro c first
  cases ps with
  | nil =>
    have inLast : c ∈ last := by simpa [spread] using List.mem_of_mem_head? first
    exact isWordChar_of_isBlank (fair.ended c inLast)
  | cons q ps =>
    rw [spread_cons] at first
    cases gap : q.gap with
    | cons e rest =>
      obtain rfl : e = c := by simpa [gap] using first
      exact isWordChar_of_isBlank (fair.gaps q (by simp) e (by simp [gap]))
    | nil =>
      have apart := (List.isChain_cons.mp fair.separate).1 q rfl gap
      have proper := fair.proper q (by simp)
      cases shape : q.piece with
      | word run =>
        rw [shape] at apart
        exact absurd (apart.resolve_left word) (by simp [Piece.word?])
      | other e =>
        obtain rfl : e = c := by simpa [gap, shape, Piece.text] using first
        rw [shape] at proper
        exact proper

section Matching

private theorem not_breaks_cons {c : Char} (letter : isWordChar c) (t : Text) :
    ¬Breaks (c :: t) := by
  intro breaks
  have other : isWordChar c = false := breaks c rfl
  rw [letter] at other
  contradiction

private theorem afterPhrase?_of_breaks {word t : Text} (keyword : word ∈ keywords)
    (breaks : Breaks t) : afterPhrase? word t = none := by
  obtain ⟨some, capitals⟩ := keywords_capital word keyword
  cases found : afterPhrase? word t with
  | none => rfl
  | some rest =>
    obtain ⟨s, same, rfl⟩ := afterPhrase?_eq_some_iff.mp found
    have isWord := isWord_of_sameWord capitals some same
    obtain ⟨c, s, rfl⟩ := List.exists_cons_of_ne_nil isWord.1
    exact absurd breaks (not_breaks_cons (isWord.2 c (by simp)) _)

private theorem bind_afterPhrase? {word run t : Text} (keyword : word ∈ keywords)
    (isWord : IsWord run) (breaks : Breaks t) {next : Text → Option Text}
    (stops : ∀ rest : Text, ¬Breaks rest → next rest = none) :
    (afterPhrase? word (run ++ t)).bind next =
      if run.map foldChar = word then next t else none := by
  obtain ⟨some, capitals⟩ := keywords_capital word keyword
  split
  · rename_i same
    have found : afterPhrase? word (run ++ t) = .some t :=
      afterPhrase?_eq_some_iff.mpr ⟨run, sameWord_iff.mpr same, rfl⟩
    rw [found]
    rfl
  · rename_i differ
    cases found : afterPhrase? word (run ++ t) with
    | none => rfl
    | some rest =>
      obtain ⟨s, same, split⟩ := afterPhrase?_eq_some_iff.mp found
      have isWord' := isWord_of_sameWord capitals some same
      apply stops
      intro ended
      rcases List.append_eq_append_iff.mp split with ⟨m, rfl, rfl⟩ | ⟨m, rfl, rfl⟩
      · cases m with
        | nil => exact differ (by simpa using sameWord_iff.mp same)
        | cons c m => exact not_breaks_cons (isWord'.2 c (by simp)) _ breaks
      · cases m with
        | nil => exact differ (by simpa using sameWord_iff.mp same)
        | cons c m => exact not_breaks_cons (isWord.2 c (by simp)) _ ended

private theorem findSome?_slot {s : Slot} {word : Text} {found : Option Text}
    {test : Text → Option Text} (tests : ∀ w ∈ s, test w = if word = w then found else none) :
    s.findSome? test = if word ∈ s then found else none := by
  induction s with
  | nil => rfl
  | cons w s ih =>
    have rest := ih fun w' inSlot => tests w' (List.mem_cons_of_mem w inSlot)
    rw [List.findSome?_cons, tests w (by simp), rest]
    by_cases here : word = w
    · subst here
      cases found <;> simp
    · simp [here]

private theorem afterSlots?_of_breaks {form : List Slot} (some : form ≠ [])
    (keyed : ∀ s ∈ form, ∀ word ∈ s, word ∈ keywords) {t : Text} (breaks : Breaks t) :
    afterSlots? form t = none := by
  obtain ⟨s, form, rfl⟩ := List.exists_cons_of_ne_nil some
  rw [afterSlots?, List.findSome?_eq_none_iff]
  intro word inSlot
  rw [afterPhrase?_of_breaks (keyed s (by simp) word inSlot) breaks]
  rfl

private def goesOn (form : List Slot) (rest : Text) : Option Text :=
  if form.isEmpty then afterSlots? form rest else (afterBlanks? rest).bind (afterSlots? form)

private theorem goesOn_of_not_breaks (form : List Slot) {rest : Text} (open_ : ¬Breaks rest) :
    goesOn form rest = none := by
  have first : ∃ c t, rest = c :: t ∧ isWordChar c := by
    cases rest with
    | nil => simp [Breaks] at open_
    | cons c t => exact ⟨c, t, rfl, by simpa [Breaks] using open_⟩
  obtain ⟨c, t, rfl, letter⟩ := first
  unfold goesOn
  cases form with
  | nil => simp [afterSlots?, letter]
  | cons s form => simp [afterBlanks?, isBlank_of_isWordChar letter]

private theorem afterSlots?_word {s : Slot} {form : List Slot}
    (keyed : ∀ word ∈ s, word ∈ keywords) {run t : Text} (isWord : IsWord run)
    (breaks : Breaks t) :
    afterSlots? (s :: form) (run ++ t) =
      if run.map foldChar ∈ s then goesOn form t else none := by
  rw [afterSlots?]
  apply findSome?_slot
  intro word inSlot
  exact bind_afterPhrase? (keyed word inSlot) isWord breaks fun rest => goesOn_of_not_breaks form

private theorem bind_afterBlanks?_blank {s : Slot} {form : List Slot}
    (keyed : ∀ t ∈ s :: form, ∀ word ∈ t, word ∈ keywords) {blank : Text}
    (all : ∀ c ∈ blank, isBlank c) :
    (afterBlanks? blank).bind (afterSlots? (s :: form)) = none := by
  cases found : afterBlanks? blank with
  | none => rfl
  | some rest =>
    obtain ⟨gap, -, rfl⟩ := exists_of_afterBlanks? found
    apply afterSlots?_of_breaks (by simp) keyed
    intro c first
    exact isWordChar_of_isBlank (all c (List.mem_append_right gap (List.mem_of_mem_head? first)))

private theorem goesOn_spread {form : List Slot} (keyed : ∀ s ∈ form, ∀ word ∈ s, word ∈ keywords)
    (fair : Fair (p :: ps) last) (word : p.piece.word? ≠ none)
    (next : ∀ q qs, ps = q :: qs → form ≠ [] →
      afterSlots? form (q.piece.text ++ spread qs last) =
        if filled form (ps.map Placed.piece) then some (spread (qs.drop (form.length - 1)) last)
        else none) :
    goesOn form (spread ps last) =
      if filled form (ps.map Placed.piece) then some (spread (ps.drop form.length) last)
      else none := by
  cases form with
  | nil =>
    have breaks := fair.breaks word
    have ended : (spread ps last).head?.any isWordChar = false := by
      cases shape : (spread ps last).head? with
      | none => rfl
      | some c => exact breaks c shape
    simp [goesOn, afterSlots?, filled, ended]
  | cons s form =>
    change (afterBlanks? (spread ps last)).bind (afterSlots? (s :: form)) = _
    cases ps with
    | nil =>
      have blank : ∀ c ∈ spread [] last, isBlank c := by simpa [spread] using fair.ended
      exact bind_afterBlanks?_blank keyed blank
    | cons q ps =>
      have dense := fair.tail.toLegible.dense
      rw [spread_cons]
      by_cases close : q.gap = []
      · -- the next piece is no word, and so fills no slot
        have apart := (List.isChain_cons.mp fair.separate).1 q rfl close
        rw [close, List.nil_append, afterBlanks?_of_nonblank (dense.nonblank _)]
        cases shape : q.piece with
        | word run => exact absurd (apart.resolve_left word) (by simp [shape, Piece.word?])
        | other c => simp [filled, Slot.holds, shape]
      · have isGap : IsGap q.gap := ⟨close, fair.gaps q (by simp)⟩
        rw [afterBlanks?_append isGap (dense.nonblank _), Option.bind_some,
          next q ps rfl (by simp)]
        rfl

private theorem afterSlots?_spread {form : List Slot} (some : form ≠ [])
    (keyed : ∀ s ∈ form, ∀ word ∈ s, word ∈ keywords) (fair : Fair (p :: ps) last) :
    afterSlots? form (p.piece.text ++ spread ps last) =
      if filled form (p.piece :: ps.map Placed.piece) then
        .some (spread (ps.drop (form.length - 1)) last)
      else none := by
  induction form generalizing p ps with
  | nil => exact absurd rfl some
  | cons s form ih =>
    have proper := fair.proper p (by simp)
    cases shape : p.piece with
    | other c =>
      rw [shape] at proper
      have breaks : Breaks ((Piece.other c).text ++ spread ps last) := by
        have other : isWordChar c = false := proper
        simpa [Breaks, Piece.text] using other
      rw [afterSlots?_of_breaks some keyed breaks]
      simp [filled, Slot.holds]
    | word run =>
      rw [shape] at proper
      have word : p.piece.word? ≠ none := by simp [shape, Piece.word?]
      have first : afterSlots? (s :: form) (run ++ spread ps last) =
          if run.map foldChar ∈ s then goesOn form (spread ps last) else none :=
        afterSlots?_word (keyed s (by simp)) proper (fair.breaks word)
      have keyed' : ∀ t ∈ form, ∀ word ∈ t, word ∈ keywords :=
        fun t inForm => keyed t (List.mem_cons_of_mem s inForm)
      have later := goesOn_spread keyed' fair word fun q qs split some => by
        subst split
        exact ih some keyed' fair.tail
      change afterSlots? (s :: form) (run ++ spread ps last) = _
      rw [first, later, filled, holds_word]
      by_cases inSlot : run.map foldChar ∈ s
      · simp [inSlot]
      · simp [inSlot]

private theorem findSome?_eq_map_find? {α β : Type} {l : List α} {f : α → Option β}
    {test : α → Bool} {g : α → β} (tests : ∀ a ∈ l, f a = if test a then some (g a) else none) :
    l.findSome? f = (l.find? test).map g := by
  induction l with
  | nil => rfl
  | cons a l ih =>
    have rest := ih fun b inList => tests b (List.mem_cons_of_mem a inList)
    rw [List.findSome?_cons, List.find?_cons, tests a (by simp)]
    cases test a with
    | true => rfl
    | false => exact rest

/-- The phrase that is found at a piece is the one that the pieces from there on begin with. -/
theorem findSome?_afterSlots? (keyed : Keyed forms) (fair : Fair (p :: ps) last) :
    forms.findSome? (afterSlots? · (p.piece.text ++ spread ps last)) =
      match lengthIn forms (p.piece :: ps.map Placed.piece) with
      | 0 => none
      | further + 1 => some (spread (ps.drop further) last) := by
  have tests : ∀ form ∈ forms, afterSlots? form (p.piece.text ++ spread ps last) =
      if filled form (p.piece :: ps.map Placed.piece) then
        some (spread (ps.drop (form.length - 1)) last)
      else none :=
    fun form inForms => afterSlots?_spread (keyed form inForms).1 (keyed form inForms).2 fair
  rw [findSome?_eq_map_find? tests, lengthIn]
  cases found : forms.find? (filled · (p.piece :: ps.map Placed.piece)) with
  | none => rfl
  | some form =>
    obtain ⟨s, slots, rfl⟩ :=
      List.exists_cons_of_ne_nil (keyed form (List.mem_of_find?_eq_some found)).1
    rfl

theorem findSome?_afterSlots?_of_breaks (keyed : Keyed forms) {t : Text} (breaks : Breaks t) :
    forms.findSome? (afterSlots? · t) = none := by
  rw [List.findSome?_eq_none_iff]
  intro form inForms
  exact afterSlots?_of_breaks (keyed form inForms).1 (keyed form inForms).2 breaks

end Matching

section Rows

structure Row (p : Placed) (qs : List Placed) : Prop where
  first : keywords.holds p.piece
  words : ∀ q ∈ qs, keywords.holds q.piece
  gaps : ∀ q ∈ qs, IsGap q.gap

theorem Row.tail {q : Placed} {qs : List Placed} (row : Row p (q :: qs)) : Row q qs :=
  ⟨row.words q (by simp), fun r inRest => row.words r (List.mem_cons_of_mem q inRest),
    fun r inRest => row.gaps r (List.mem_cons_of_mem q inRest)⟩

def capitals (p : Placed) (qs : List Placed) : Text :=
  (fold p.piece).text ++ spread (qs.map fun q => ⟨[' '], fold q.piece⟩) []

private theorem visibleRuns_blank_append {blank : Text} (all : ∀ c ∈ blank, isBlank c) (t : Text) :
    visibleRuns (blank ++ t) = visibleRuns t := by
  induction blank with
  | nil => rfl
  | cons c blank ih =>
    rw [← ih fun e inRest => all e (List.mem_cons_of_mem c inRest)]
    simp [visibleRuns, splitAt, all c (by simp)]

private theorem map_visible {t : Text} (dense : Dense t) :
    t.map (fun c => if isBlank c then ' ' else c) = t := by
  conv_rhs => rw [← List.map_id t]
  apply List.map_congr_left
  intro c inText
  rw [dense.2 c inText]
  rfl

private theorem space_not_mem {t : Text} (dense : Dense t) : ' ' ∉ t := by
  intro inText
  exact absurd (dense.2 ' ' inText) (by decide)

private theorem visibleRuns_gap {t gap : Text} (dense : Dense t) (isGap : IsGap gap) (rest : Text) :
    visibleRuns (t ++ (gap ++ rest)) = t :: visibleRuns rest := by
  obtain ⟨c, gap, rfl⟩ := List.exists_cons_of_ne_nil isGap.1
  rw [← visibleRuns_blank_append (fun e inGap => isGap.2 e (List.mem_cons_of_mem c inGap)) rest]
  unfold visibleRuns
  rw [List.map_append, map_visible dense, List.cons_append, List.map_cons,
    if_pos (isGap.2 c (by simp)), splitAt_append (space_not_mem dense),
    List.filter_cons_of_pos (by simp [dense.1])]

private theorem visibleRuns_append_blank {t blank : Text} (dense : Dense t)
    (all : ∀ c ∈ blank, isBlank c) : visibleRuns (t ++ blank) = [t] := by
  cases blank with
  | nil =>
    unfold visibleRuns
    rw [List.append_nil, map_visible dense, splitAt_of_not_mem (space_not_mem dense),
      List.filter_cons_of_pos (by simp [dense.1])]
    rfl
  | cons c blank =>
    have gap := visibleRuns_gap dense ⟨by simp, all⟩ []
    rw [List.append_nil] at gap
    exact gap

private theorem upper_keyword {piece : Piece} (keyword : keywords.holds piece) :
    upper piece.text = (fold piece).text := by
  obtain ⟨run, rfl, known⟩ := exists_word_of_holds keyword
  exact upper_of_map_foldChar (keywords_capital _ known).2

private theorem visibleRuns_row {qs : List Placed} (gaps : ∀ q ∈ qs, IsGap q.gap)
    (legible : Legible (p :: qs) last) :
    visibleRuns (p.piece.text ++ spread qs last) =
      p.piece.text :: qs.map fun q => q.piece.text := by
  induction qs generalizing p with
  | nil =>
    have blank : ∀ c ∈ spread [] last, isBlank c := by simpa [spread] using legible.ended
    exact visibleRuns_append_blank legible.dense blank
  | cons q qs ih =>
    have rest := ih (fun r inRest => gaps r (List.mem_cons_of_mem q inRest)) legible.tail
    rw [spread_cons, visibleRuns_gap legible.dense (gaps q (by simp)), rest]
    rfl

theorem normalized_row {qs : List Placed} (row : Row p qs)
    (legible : Legible (p :: qs) last) :
    normalized (p.piece.text ++ spread qs last) = capitals p qs := by
  rw [normalized, visibleRuns_row row.gaps legible, List.map_cons, upper_keyword row.first]
  clear legible
  induction qs generalizing p with
  | nil => simp [joinWith, capitals, spread]
  | cons q qs ih =>
    have rest := ih row.tail
    rw [List.map_cons, List.map_cons, upper_keyword (row.words q (by simp)), joinWith, rest]
    · simp [capitals, spread_cons]
    · simp

theorem row_of_filled {form : List Slot} (keyed : ∀ s ∈ form, ∀ word ∈ s, word ∈ keywords)
    (fair : Fair (p :: ps) last) (fills : filled form (p.piece :: ps.map Placed.piece))
    {further : Nat} (size : form.length = further + 1) :
    Row p (ps.take further) ∧ further ≤ ps.length := by
  induction form generalizing p ps further with
  | nil => simp at size
  | cons s form ih =>
    obtain ⟨held, rest⟩ : s.holds p.piece ∧ filled form (ps.map Placed.piece) := by
      simpa [filled] using fills
    have first : keywords.holds p.piece := holds_of_subset (keyed s (by simp)) held
    obtain rfl : form.length = further := by simpa using size
    cases form with
    | nil => exact ⟨⟨first, by simp, by simp⟩, by simp⟩
    | cons s' form =>
      cases ps with
      | nil => simp [filled] at rest
      | cons q ps =>
        obtain ⟨row, enough⟩ := ih (fun t inForm => keyed t (List.mem_cons_of_mem s inForm))
          fair.tail rest rfl
        have isGap : IsGap q.gap := by
          refine ⟨fun close => ?_, fair.gaps q (by simp)⟩
          have apart := (List.isChain_cons.mp fair.separate).1 q rfl close
          exact word?_of_holds row.first (apart.resolve_left (word?_of_holds first))
        refine ⟨⟨first, ?_, ?_⟩, by simpa using enough⟩
        · exact List.forall_mem_cons.mpr ⟨row.first, row.words⟩
        · exact List.forall_mem_cons.mpr ⟨isGap, row.gaps⟩

private theorem filled_take {form : List Slot} {pieces : List Piece} (fills : filled form pieces) :
    filled form (pieces.take form.length) := by
  induction form generalizing pieces with
  | nil => rfl
  | cons s form ih =>
    cases pieces with
    | nil => exact fills
    | cons piece pieces =>
      obtain ⟨held, rest⟩ : s.holds piece ∧ filled form pieces := by simpa [filled] using fills
      simp [filled, held, ih rest]

def Fills (forms : List (List Slot)) (ps : List Placed) : Prop :=
  ∃ form ∈ forms, form.length = ps.length ∧ filled form (ps.map Placed.piece)

structure Found (forms : List (List Slot)) (p : Placed) (qs others : List Placed) (last : Text) :
    Prop where
  row : Row p qs
  fills : Fills forms (p :: qs)
  rest : forms.findSome? (afterSlots? · ((p.piece.text ++ spread qs []) ++ spread others last)) =
    some (spread others last)

theorem found_of_lengthIn (keyed : Keyed forms) (fair : Fair (p :: ps) last) {further : Nat}
    (size : lengthIn forms (p.piece :: ps.map Placed.piece) = further + 1) :
    ∃ qs others, ps = qs ++ others ∧ qs.length = further ∧ Found forms p qs others last := by
  have rest := findSome?_afterSlots? keyed fair
  rw [size] at rest
  unfold lengthIn at size
  cases found : forms.find? (filled · (p.piece :: ps.map Placed.piece)) with
  | none => simp [found] at size
  | some form =>
    rw [found] at size
    replace size : form.length = further + 1 := size
    have inForms := List.mem_of_find?_eq_some found
    have fills := List.find?_some found
    obtain ⟨row, enough⟩ := row_of_filled (keyed form inForms).2 fair fills size
    have length : (ps.take further).length = further := List.length_take_of_le enough
    refine ⟨ps.take further, ps.drop further, (List.take_append_drop further ps).symm, length, row,
      ⟨form, inForms, by rw [List.length_cons, length, size], ?_⟩, ?_⟩
    · have own := filled_take fills
      rw [size, List.take_succ_cons, ← List.map_take] at own
      exact own
    · rw [List.append_assoc, ← spread_append, List.take_append_drop]
      exact rest

end Rows

section Replacing

theorem wordAfter_gap {gap : Text} (isGap : IsGap gap) (inWord : Bool) :
    wordAfter inWord gap = false := by
  obtain ⟨front, c, rfl⟩ := (List.eq_nil_or_concat gap).resolve_left isGap.1
  rw [List.concat_eq_append, wordAfter_append]
  exact isWordChar_of_isBlank (isGap.2 c (by simp))

theorem wordAfter_piece {piece : Piece} (proper : piece.Proper) (inWord : Bool) :
    wordAfter inWord piece.text = piece.word?.isSome := by
  cases piece with
  | other c => exact proper
  | word run =>
    have isWord : IsWord run := proper
    obtain ⟨front, c, rfl⟩ := (List.eq_nil_or_concat run).resolve_left isWord.1
    have letter : isWordChar c := isWord.2 c (by simp)
    change wordAfter inWord (front.concat c) = true
    rw [List.concat_eq_append, wordAfter_append]
    exact letter

/-- Whether what is looked for next begins no word that has begun before. -/
def Clear (inWord : Bool) (ps : List Placed) : Prop :=
  ∀ q ∈ ps.head?, inWord → q.gap = [] → q.piece.word? = none

theorem Fair.clear (fair : Fair (p :: ps) last) : Clear p.piece.word?.isSome ps := by
  intro q first word close
  have apart := (List.isChain_cons.mp fair.separate).1 q first close
  exact apart.resolve_left (Option.isSome_iff_ne_none.mp word)

theorem Clear.wordAfter_gap {inWord : Bool} (clear : Clear inWord (p :: ps))
    (fair : Fair (p :: ps) last) (word : p.piece.word? ≠ none) :
    wordAfter inWord p.gap = false := by
  by_cases close : p.gap = []
  · rw [close]
    apply Bool.eq_false_iff.mpr
    intro begun
    exact word (clear p rfl begun close)
  · exact Layout.wordAfter_gap ⟨close, fair.gaps p (by simp)⟩ inWord

/-- What a pass makes of the pieces of a text that have a role in its phrases: the first one begins
with a line end, the further ones have one space before them, and all are in capitals. -/
def recast (opened : Text → Text) (p : Placed) : Role → Placed
  | .plain => p
  | .lead => ⟨opened p.gap, fold p.piece⟩
  | .inside => ⟨[' '], fold p.piece⟩

private theorem zipWith_recast_inside (opened : Text → Text) (qs ps : List Placed)
    (roles : List Role) :
    List.zipWith (recast opened) (qs ++ ps) (List.replicate qs.length .inside ++ roles) =
      (qs.map fun q => ⟨[' '], fold q.piece⟩) ++ List.zipWith (recast opened) ps roles := by
  induction qs with
  | nil => rfl
  | cons q qs ih =>
    rw [List.length_cons, List.replicate_succ, List.cons_append, List.cons_append,
      List.zipWith_cons_cons, ih]
    rfl

theorem Row.clear {qs others : List Placed} (row : Row p qs)
    (fair : Fair (p :: (qs ++ others)) last) (inWord : Bool) : Clear inWord others := by
  induction qs generalizing p with
  | nil =>
    intro q first _ close
    exact fair.clear q first (Option.isSome_iff_ne_none.mpr (word?_of_holds row.first)) close
  | cons q qs ih =>
    exact ih row.tail fair.tail

/-- Whether a substitution replaces the phrases that pieces begin with, and nothing else. -/
structure Replaces (sub : Substitution) (forms : List (List Slot)) (opened : Text → Text) :
    Prop where
  keyed : Keyed forms
  hit : ∀ {p qs others last inWord}, Fair (p :: (qs ++ others)) last →
    Clear inWord (p :: (qs ++ others)) → Found forms p qs others last →
    ∃ inWord', replaceFrom sub 0 inWord
        (p.gap ++ ((p.piece.text ++ spread qs []) ++ spread others last)) =
      (opened p.gap ++ capitals p qs) ++ replaceFrom sub 0 inWord' (spread others last)
  miss : ∀ {p ps last inWord}, Fair (p :: ps) last →
    forms.findSome? (afterSlots? · (p.piece.text ++ spread ps last)) = none →
    replaceFrom sub 0 inWord (p.gap ++ (p.piece.text ++ spread ps last)) =
      p.gap ++ (p.piece.text ++ replaceFrom sub 0 p.piece.word?.isSome (spread ps last))
  blank : ∀ {last : Text}, (∀ c ∈ last, isBlank c) → ∀ inWord, replaceFrom sub 0 inWord last = last

private theorem Replaces.replaceFrom_eq {sub : Substitution} {opened : Text → Text}
    (replaces : Replaces sub forms opened) (fair : Fair ps last) {inWord : Bool}
    (clear : Clear inWord ps) :
    replaceFrom sub 0 inWord (spread ps last) =
      spread (List.zipWith (recast opened) ps (rolesIn forms 0 (ps.map Placed.piece))) last := by
  induction size : ps.length using Nat.strongRecOn generalizing ps inWord with
  | _ n ih =>
    cases ps with
    | nil => simpa [spread] using replaces.blank fair.ended inWord
    | cons p ps =>
      rw [List.length_cons] at size
      rw [List.map_cons, rolesIn, spread_cons]
      cases length : lengthIn forms (p.piece :: ps.map Placed.piece) with
      | zero =>
        have nothing := findSome?_afterSlots? replaces.keyed fair
        rw [length] at nothing
        rw [replaces.miss fair nothing, ih ps.length (by omega) fair.tail fair.clear rfl]
        simp only [List.zipWith_cons_cons, spread_cons, recast]
      | succ further =>
        obtain ⟨qs, others, rfl, rfl, found⟩ := found_of_lengthIn replaces.keyed fair length
        obtain ⟨inWord', text⟩ := replaces.hit fair clear found
        have fair' := fair.tail.drop qs.length
        rw [List.drop_left] at fair'
        rw [List.length_append] at size
        have pending : rolesIn forms qs.length ((qs ++ others).map Placed.piece) =
            List.replicate qs.length .inside ++ rolesIn forms 0 (others.map Placed.piece) := by
          rw [rolesIn_pending _ _ _ (by simp), List.map_append, List.drop_left' (by simp)]
        change _ = spread (List.zipWith (recast opened) (p :: (qs ++ others))
          (.lead :: rolesIn forms qs.length ((qs ++ others).map Placed.piece))) last
        rw [spread_append, ← List.append_assoc p.piece.text, text,
          ih others.length (by omega) fair' (found.row.clear fair inWord') rfl, pending,
          List.zipWith_cons_cons, zipWith_recast_inside, spread_cons, spread_append, recast,
          capitals, List.append_assoc, List.append_assoc]

theorem Replaces.replaceAll_spread {sub : Substitution} {opened : Text → Text}
    (replaces : Replaces sub forms opened) (fair : Fair ps last) :
    replaceAll sub (spread ps last) =
      spread (List.zipWith (recast opened) ps (rolesIn forms 0 (ps.map Placed.piece))) last :=
  replaces.replaceFrom_eq fair fun _ _ begun => absurd begun Bool.false_ne_true

private theorem phrase_of_breaks (keyed : Keyed forms) (put : Text → Text) (inWord : Bool)
    {t : Text} (breaks : Breaks t) : phrase forms put inWord t = none := by
  unfold phrase
  rw [findSome?_afterSlots?_of_breaks keyed breaks]
  cases inWord <;> rfl

private theorem phrase_blank (keyed : Keyed forms) (put : Text → Text) {gap : Text}
    (blank : ∀ c ∈ gap, isBlank c) (rest : Text) (inWord : Bool) :
    replaceFrom (phrase forms put) 0 inWord (gap ++ rest) =
      gap ++ replaceFrom (phrase forms put) 0 (wordAfter inWord gap) rest := by
  apply replaceFrom_passed
  rintro a b rfl some
  obtain ⟨c, b, rfl⟩ := List.exists_cons_of_ne_nil some
  apply phrase_of_breaks keyed
  have other := isWordChar_of_isBlank (blank c (by simp))
  simpa [Breaks] using other

private theorem wordAfter_left {piece : Piece} (proper : piece.Proper) {a b : Text}
    (split : piece.text = a ++ b) (some : a ≠ []) (some' : b ≠ []) (inWord : Bool) :
    wordAfter inWord a = true := by
  cases piece with
  | other c =>
    have lengths := congrArg List.length split
    have long := List.length_pos_iff.mpr some
    have long' := List.length_pos_iff.mpr some'
    simp only [Piece.text, List.length_singleton, List.length_append] at lengths
    omega
  | word run =>
    have isWord : IsWord run := proper
    have own : (Piece.word a).Proper := by
      refine ⟨some, fun c inLeft => isWord.2 c ?_⟩
      change run = a ++ b at split
      rw [split]
      exact List.mem_append_left b inLeft
    exact wordAfter_piece own inWord

private theorem length_append_sub (taken rest : Text) :
    (taken ++ rest).length - rest.length = taken.length := by
  rw [List.length_append, Nat.add_sub_cancel]

theorem replaces_phrase (keyed : Keyed forms) {put : Text → Text} {opening : Text}
    (spells : ∀ p qs, Row p qs → Legible (p :: qs) [] → Fills forms (p :: qs) →
      put (p.piece.text ++ spread qs []) = opening ++ capitals p qs) :
    Replaces (phrase forms put) forms (· ++ opening) where
  keyed := keyed
  hit := by
    intro p qs others last inWord fair clear found
    have begins := clear.wordAfter_gap fair (word?_of_holds found.row.first)
    have here : phrase forms put false ((p.piece.text ++ spread qs []) ++ spread others last) =
        some ((p.piece.text ++ spread qs []).length, opening ++ capitals p qs) := by
      rw [phrase, found.rest, ← spells p qs found.row (fair.left (List.forall_mem_nil _))
        found.fills]
      simp only [Bool.false_eq_true, if_false, Option.map_some, length_append_sub, List.take_left]
    refine ⟨wordAfter false (p.piece.text ++ spread qs []), ?_⟩
    rw [phrase_blank keyed put (fair.gaps p (by simp)), begins,
      replaceFrom_found (by simp [fair.dense.1]) here]
    simp
  miss := by
    intro p ps last inWord fair nothing
    have proper := fair.proper p (by simp)
    rw [phrase_blank keyed put (fair.gaps p (by simp)), replaceFrom_passed, wordAfter_piece proper]
    intro a b split some
    by_cases start : a = []
    · subst start
      rw [List.nil_append] at split
      rw [← split, phrase, nothing]
      exact ite_self _
    · rw [wordAfter_left proper split start some]
      rfl
  blank := by
    intro last blank inWord
    have whole := phrase_blank keyed put blank [] inWord
    simpa [replaceFrom] using whole

theorem replaces_clauses :
    Replaces (phrase clauses fun taken => '\n' :: normalized taken) clauses (· ++ ['\n']) := by
  apply replaces_phrase (by decide)
  intro p qs row legible _
  rw [normalized_row row legible]
  rfl

private theorem upper_of_mem {words : Slot} (keyed : Keyed [[words]]) {run : Text}
    (known : run.map foldChar ∈ words) : upper run = run.map foldChar := by
  have keyword := (keyed [words] (by simp)).2 words (by simp) _ known
  exact upper_of_map_foldChar (keywords_capital _ keyword).2

private theorem replaces_word {words : Slot} (keyed : Keyed [[words]]) {put : Text → Text}
    {opening : Text}
    (spells : ∀ run, run.map foldChar ∈ words → put run = opening ++ run.map foldChar) :
    Replaces (phrase [[words]] put) [[words]] (· ++ opening) := by
  apply replaces_phrase keyed
  rintro p qs - - ⟨form, known, length, fills⟩
  obtain rfl := List.mem_singleton.mp known
  obtain rfl : qs = [] := by simpa using length.symm
  have held : words.holds p.piece := by simpa [filled] using fills
  obtain ⟨run, word, inSlot⟩ := exists_word_of_holds held
  simp only [capitals, spread, word, List.map_nil, List.flatMap_nil, List.append_nil]
  exact spells run inSlot

theorem replaces_logical :
    Replaces (phrase [[slot ["AND", "OR"]]] fun taken => "\n  ".toList ++ upper taken)
      [[slot ["AND", "OR"]]] (· ++ "\n  ".toList) := by
  have keyed : Keyed [[slot ["AND", "OR"]]] := by decide
  apply replaces_word keyed
  intro run known
  rw [upper_of_mem keyed known]

theorem replaces_changes :
    Replaces (phrase [[slot ["INSERT", "UPDATE", "DELETE"]]] fun taken => '\n' :: upper taken)
      [[slot ["INSERT", "UPDATE", "DELETE"]]] (· ++ ['\n']) := by
  have keyed : Keyed [[slot ["INSERT", "UPDATE", "DELETE"]]] := by decide
  apply replaces_word keyed
  intro run known
  rw [upper_of_mem keyed known]
  rfl

theorem replaces_set :
    Replaces (phrase [[slot ["SET"]]] fun _ => "\nSET".toList) [[slot ["SET"]]] (· ++ ['\n']) := by
  apply replaces_word (by decide)
  intro run known
  rw [show run.map foldChar = "SET".toList from List.mem_singleton.mp known]
  rfl

end Replacing

section Joins

private theorem filled_append {front back : List Slot} {ps qs : List Piece}
    (length : front.length = ps.length) :
    filled (front ++ back) (ps ++ qs) = (filled front ps && filled back qs) := by
  induction front generalizing ps with
  | nil =>
    obtain rfl : ps = [] := by simpa using length.symm
    rfl
  | cons s front ih =>
    cases ps with
    | nil => simp at length
    | cons p ps =>
      simp only [List.cons_append, filled, ih (by simpa using length), Bool.and_assoc]

private theorem fold_join {qs : List Placed} {q : Placed} (fills : Fills joinForms (qs ++ [q])) :
    ∃ run, q.piece = .word run ∧ run.map foldChar = "JOIN".toList := by
  obtain ⟨form, known, length, fills⟩ := fills
  have ends : ∀ form ∈ joinForms, form.dropLast ++ [joins] = form := by decide
  rw [← ends form known] at length fills
  rw [List.map_append, filled_append (by simpa using length)] at fills
  have held : joins.holds q.piece := by simpa [filled] using (Bool.and_eq_true_iff.mp fills).2
  obtain ⟨run, word, inSlot⟩ := exists_word_of_holds held
  exact ⟨run, word, List.mem_singleton.mp inSlot⟩

private theorem capitals_concat (p : Placed) (qs : List Placed) (q : Placed) :
    capitals p (qs ++ [q]) = capitals p qs ++ ' ' :: (fold q.piece).text := by
  simp [capitals, spread]

private theorem joinLine_append {run : Text} (spelled : run.map foldChar = "JOIN".toList)
    (qualifiers : Text) :
    joinLine (qualifiers ++ run) =
      if (normalized qualifiers).isEmpty then "\nJOIN".toList
      else '\n' :: normalized qualifiers ++ " JOIN".toList := by
  have length : run.length = 4 := by simpa using congrArg List.length spelled
  rw [joinLine, List.length_append, length, Nat.add_sub_cancel, List.take_left]

private theorem isEmpty_capitals {qs : List Placed} (row : Row p qs)
    (legible : Legible (p :: qs) last) : (capitals p qs).isEmpty = false := by
  obtain ⟨run, word, -⟩ := exists_word_of_holds row.first
  have some : run ≠ [] := by simpa [word, Piece.text] using legible.dense.1
  simp [capitals, word, fold, Piece.text, some]

theorem joinLine_row {qs : List Placed} (row : Row p qs) (legible : Legible (p :: qs) [])
    (fills : Fills joinForms (p :: qs)) :
    joinLine (p.piece.text ++ spread qs []) = '\n' :: capitals p qs := by
  rcases List.eq_nil_or_concat qs with rfl | ⟨qs, q, rfl⟩
  · obtain ⟨run, word, spelled⟩ := fold_join (List.nil_append [p] ▸ fills)
    have whole := joinLine_append spelled []
    rw [List.nil_append] at whole
    simp only [word, capitals, spread, Piece.text, fold, spelled, List.map_nil, List.flatMap_nil,
      List.append_nil, whole]
    rfl
  · rw [List.concat_eq_append] at *
    rw [← List.cons_append] at fills legible
    obtain ⟨run, word, spelled⟩ := fold_join fills
    have before : Row p qs :=
      ⟨row.first, fun r inRow => row.words r (List.mem_append_left _ inRow),
        fun r inRow => row.gaps r (List.mem_append_left _ inRow)⟩
    have legible' : Legible (p :: qs) q.gap := legible.left (legible.gaps q (by simp))
    have text : p.piece.text ++ spread (qs ++ [q]) [] =
        (p.piece.text ++ spread qs q.gap) ++ run := by
      simp [spread, word, Piece.text]
    rw [text, joinLine_append spelled, normalized_row before legible',
      isEmpty_capitals before legible', capitals_concat, word]
    simp [Piece.text, fold, spelled]

private theorem join_append {gap body : Text} (blank : ∀ c ∈ gap, isBlank c)
    (visible : ∀ c ∈ body.head?, isBlank c = false) (inWord : Bool) :
    join inWord (gap ++ body) =
      if inWord && gap.isEmpty then none
      else
        (joinForms.findSome? (afterSlots? · body)).map fun rest =>
          ((gap ++ body).length - rest.length,
            joinLine (body.take (body.length - rest.length))) := by
  have bare : (gap ++ body).dropWhile isBlank = body := dropWhile_run blank visible
  have same : (body.length == (gap ++ body).length) = gap.isEmpty := by
    cases gap with
    | nil => simp
    | cons c gap =>
      simp only [List.length_append, List.length_cons, List.isEmpty_cons, beq_eq_false_iff_ne]
      omega
  unfold join
  simp only [bare, same]

private theorem join_eq_none {gap body : Text} (blank : ∀ c ∈ gap, isBlank c)
    (visible : ∀ c ∈ body.head?, isBlank c = false)
    (nothing : joinForms.findSome? (afterSlots? · body) = none) (inWord : Bool) :
    join inWord (gap ++ body) = none := by
  rw [join_append blank visible, nothing]
  exact ite_self _

theorem replaces_join : Replaces join joinForms fun _ => ['\n'] where
  keyed := by decide
  hit := by
    intro p qs others last inWord fair clear found
    have begins : (inWord && p.gap.isEmpty) = false := by
      rw [Bool.and_eq_false_imp]
      intro begun
      by_contra close
      exact word?_of_holds found.row.first (clear p rfl begun (by simpa using close))
    have visible : ∀ c ∈ ((p.piece.text ++ spread qs []) ++ spread others last).head?,
        isBlank c = false := by
      rw [List.append_assoc]
      exact fair.dense.nonblank _
    have here : join inWord ((p.gap ++ (p.piece.text ++ spread qs [])) ++ spread others last) =
        some ((p.gap ++ (p.piece.text ++ spread qs [])).length, '\n' :: capitals p qs) := by
      rw [List.append_assoc, join_append (fair.gaps p (by simp)) visible, begins, found.rest,
        ← List.append_assoc,
        ← joinLine_row found.row (fair.left (List.forall_mem_nil _)) found.fills]
      simp only [Bool.false_eq_true, if_false, Option.map_some, length_append_sub, List.take_left]
    refine ⟨wordAfter inWord (p.gap ++ (p.piece.text ++ spread qs [])), ?_⟩
    rw [← List.append_assoc p.gap, replaceFrom_found (by simp [fair.dense.1]) here]
    rfl
  miss := by
    intro p ps last inWord fair nothing
    have proper := fair.proper p (by simp)
    have blank := fair.gaps p (by simp)
    have dense := fair.dense
    rw [replaceFrom_passed, replaceFrom_passed, wordAfter_piece proper]
    · intro a b split some
      by_cases start : a = []
      · subst start
        rw [List.nil_append] at split
        rw [← split]
        exact join_eq_none (List.forall_mem_nil _) (dense.nonblank _) nothing _
      · rw [split] at dense
        rw [wordAfter_left proper split start some]
        exact join_append (List.forall_mem_nil _) ((dense.right some).nonblank _) true
    · rintro a b split -
      apply join_eq_none ?_ (dense.nonblank _) nothing
      intro c inRight
      exact blank c (split ▸ List.mem_append_right a inRight)
  blank := by
    intro last blank inWord
    have passed : replaceFrom join 0 inWord (last ++ []) =
        last ++ replaceFrom join 0 (wordAfter inWord last) [] := by
      apply replaceFrom_passed
      rintro a b rfl -
      apply join_eq_none (fun c inRight => blank c (List.mem_append_right a inRight)) (by simp)
      exact findSome?_afterSlots?_of_breaks (by decide) (by simp [Breaks])
    simpa [replaceFrom] using passed

end Joins

end QueryTidy.Layout
