import QueryTidy.Proofs.Placement

/-!
The keyword-aligned layout as it is seen in the text of a formatted query, without regard to how it
came about: which words and characters begin a line, which end one, and what follows a comma.
-/

set_option autoImplicit false
set_option relaxedAutoImplicit false

namespace QueryTidy

open Text Layout

/-- The keywords that begin a line wherever they stand. -/
def leadingWords : Slot :=
  slot ["SELECT", "FROM", "WHERE", "HAVING", "VALUES", "INSERT", "UPDATE", "DELETE", "SET", "AND",
    "OR"]

def Text.OnNextLine (t : Text) : Prop :=
  ∀ c ∈ t.head?, c = '\n'

/-- Whether a text is laid out by its keywords. -/
structure Aligned (t : Text) : Prop where
  /-- A keyword that begins a line is in capitals and does so. -/
  opener : ∀ before run after, Occurs t before (.word run) after →
    ∀ keyword ∈ leadingWords, sameWord keyword run → run = keyword ∧ Leads before
  /-- `GROUP BY` and `ORDER BY` are in capitals, one space apart, and begin a line. -/
  sorter : ∀ before first blank second after,
    Occurs t before (.word first) (blank ++ (second ++ after)) →
    Occurs t (before ++ (first ++ blank)) (.word second) after → (∀ c ∈ blank, isBlank c) →
    ∀ keyword ∈ slot ["GROUP", "ORDER"], sameWord keyword first → sameWord "BY".toList second →
      first = keyword ∧ blank = [' '] ∧ second = "BY".toList ∧ Leads before
  /-- A join is in capitals, and its line begins with the qualifiers that the tokens before it end
  with, all of them, and nothing else. -/
  join : ∀ before run after, Occurs t before (.word run) after → sameWord "JOIN".toList run →
    run = "JOIN".toList ∧ ∃ start chain, Leads start ∧
      before = start ++ (chain.flatMap fun p => p.text ++ [' ']) ∧
      Longest chain (tokens before) ∧ ∀ p ∈ chain, fold p = p
  /-- An opening parenthesis begins its line. -/
  opened : ∀ before after, t = before ++ '(' :: after → EndsLine before
  /-- A closing parenthesis ends its line. -/
  closed : ∀ before after, t = before ++ ')' :: after → OnNextLine after
  /-- After a comma or an opening parenthesis the line is over or goes on after one space. -/
  spaced : ∀ before c after, t = before ++ c :: after → c = ',' ∨ c = '(' →
    OnNextLine after ∨ ∃ e rest, after = ' ' :: e :: rest ∧ isBlank e = false

theorem roles_tokens_format (d : Dictionary) (t : Text) :
    roles 0 (tokens (format d t)) = (ranked (formatItems d t)).map Prod.snd := by
  rw [map_snd_ranked]
  apply roles_congr
  conv_rhs => rw [← map_fst_ranked (formatItems d t)]
  rw [tokens_format, List.map_map, List.map_map, List.map_map]
  apply List.map_congr_left
  rintro ⟨i, role⟩ -
  exact fold_respell role i.piece

private theorem ranked_phrase {d : Dictionary} {t : Text} {front inner rest : List Piece}
    {first : Piece} (split : tokens (format d t) = front ++ (first :: (inner ++ rest)))
    (apart : ∀ p, lastOf none front = some p → ¬ Linked p first)
    (phrase : roles 0 (first :: (inner ++ rest)) =
      .lead :: (List.replicate inner.length .inside ++ roles 0 rest)) :
    ∃ front' i inner' rest', ranked (formatItems d t) = front' ++ (i, .lead) :: (inner' ++ rest') ∧
      (front'.map fun x => respell x.2 x.1.piece) = front ∧ respell .lead i.piece = first ∧
      (inner'.map fun x => respell x.2 x.1.piece) = inner ∧ ∀ x ∈ inner', x.2 = .inside := by
  have given := roles_tokens_format d t
  obtain ⟨roles', length, split'⟩ := roles_append front (first :: (inner ++ rest))
    (by simpa using apart)
  rw [split, split', phrase] at given
  rw [tokens_format, List.map_eq_append_iff] at split
  obtain ⟨front', found, shape, inFront, inFound⟩ := split
  obtain ⟨⟨i, role⟩, found, rfl, isFirst, inFound⟩ := List.map_eq_cons_iff.mp inFound
  obtain ⟨inner', rest', rfl, inInner, -⟩ := List.map_eq_append_iff.mp inFound
  rw [shape, List.map_append, List.map_cons, List.map_append] at given
  have lengthFront : roles'.length = (front'.map Prod.snd).length := by
    rw [length, ← inFront, List.length_map, List.length_map]
  obtain ⟨-, given⟩ := List.append_inj given lengthFront
  obtain ⟨lead, given⟩ := List.cons.inj given
  have lengthInner : (List.replicate inner.length Role.inside).length =
      (inner'.map Prod.snd).length := by
    rw [List.length_replicate, ← inInner, List.length_map, List.length_map]
  obtain ⟨inside, -⟩ := List.append_inj given lengthInner
  obtain rfl : .lead = role := lead
  refine ⟨front', i, inner', rest', shape, inFront, isFirst, inInner, ?_⟩
  intro x found
  have inRoles : x.2 ∈ inner'.map Prod.snd := List.mem_map_of_mem found
  rw [← inside] at inRoles
  exact List.eq_of_mem_replicate inRoles

private theorem fold_respell_of_ne {role : Role} (inPhrase : role ≠ .plain) (p : Piece) :
    fold (respell role p) = respell role p := by
  rw [respell, if_neg inPhrase, fold_fold]

/-- A phrase among the tokens of a formatted query stands at the start of a line, in capitals, its
words one space apart. -/
theorem format_phrase_of_tokens {d : Dictionary} {t : Text} {front rest : List Piece}
    (first : Piece) (inner : List Piece)
    (split : tokens (format d t) = front ++ (first :: (inner ++ rest)))
    (apart : ∀ p, lastOf none front = some p → ¬ Linked p first)
    (phrase : roles 0 (first :: (inner ++ rest)) =
      .lead :: (List.replicate inner.length .inside ++ roles 0 rest)) :
    ∃ start after, Leads start ∧ Breaks after ∧ tokens start = front ∧
      (∀ p ∈ first :: inner, fold p = p) ∧
      format d t = start ++ (first.text ++ ((inner.flatMap fun p => ' ' :: p.text) ++ after)) := by
  obtain ⟨front', i, inner', rest', shape, rfl, rfl, rfl, inside⟩ :=
    ranked_phrase split apart phrase
  obtain ⟨start, after, leads, breaks, inStart, text⟩ := format_phrase shape inside
  refine ⟨start, after, leads, breaks, inStart, ?_, ?_⟩
  · intro p inPhrase
    rcases List.mem_cons.mp inPhrase with rfl | inInner
    · exact fold_respell_of_ne (by simp) _
    · obtain ⟨x, found, rfl⟩ := List.mem_map.mp inInner
      exact fold_respell_of_ne (by simp [inside x found]) _
  · rw [text, List.flatMap_map]

private theorem holds_of_sameWord {s : Slot} {word run : Text} (known : word ∈ s)
    (same : sameWord word run) : s.holds (.word run) :=
  List.any_eq_true.mpr ⟨word, known, same⟩

private theorem eq_of_fold_eq {word run : Text} (capitals : fold (.word run) = .word run)
    (same : sameWord word run) : run = word := by
  have folded : run.map foldChar = run := by simpa using capitals
  exact folded.symm.trans (sameWord_iff.mp same)

theorem format_opener {d : Dictionary} {t before run after : Text}
    (occurs : Occurs (format d t) before (.word run) after) {keyword : Text}
    (known : keyword ∈ leadingWords) (same : sameWord keyword run) :
    run = keyword ∧ Leads before := by
  have held : openers.holds (.word run) := by
    have subset : ∀ w ∈ leadingWords, w ∈ openers := by decide
    exact holds_of_sameWord (subset keyword known) same
  have split := occurs.tokens_eq rfl
  obtain ⟨start, after', leads, breaks, inStart, capitals, text⟩ :=
    format_phrase_of_tokens (.word run) [] split
      (fun p _ => not_linked_of_disjoint held (by decide) p) (roles_opener held _)
  have there : Occurs (format d t) start (.word run) after' :=
    ⟨text, occurs.proper, fun _ => leads.ends, fun _ => breaks⟩
  obtain ⟨rfl, -, -⟩ := occurs.unique there rfl rfl (by rw [inStart])
  exact ⟨eq_of_fold_eq (capitals _ (by simp)) same, leads⟩

private theorem eq_space_of_append {blank word word' after after' : Text}
    (all : ∀ c ∈ blank, isBlank c) (isWord : IsWord word) (isWord' : IsWord word')
    (same : blank ++ (word ++ after) = ' ' :: (word' ++ after')) : blank = [' '] := by
  cases blank with
  | nil =>
    obtain ⟨c, word, rfl⟩ := List.exists_cons_of_ne_nil isWord.1
    obtain ⟨rfl, -⟩ := List.cons.inj same
    have inWord := isWord.2 ' ' (by simp)
    exact absurd inWord (by decide)
  | cons b blank =>
    obtain ⟨rfl, rest⟩ := List.cons.inj same
    cases blank with
    | nil => rfl
    | cons b blank =>
      obtain ⟨c, word', rfl⟩ := List.exists_cons_of_ne_nil isWord'.1
      obtain ⟨rfl, -⟩ := List.cons.inj rest
      have visible := isBlank_of_isWordChar (isWord'.2 b (by simp))
      rw [all b (by simp)] at visible
      contradiction

theorem format_sorter {d : Dictionary} {t before first blank second after : Text}
    (occurs : Occurs (format d t) before (.word first) (blank ++ (second ++ after)))
    (occurs' : Occurs (format d t) (before ++ (first ++ blank)) (.word second) after)
    (all : ∀ c ∈ blank, isBlank c) {keyword : Text} (known : keyword ∈ slot ["GROUP", "ORDER"])
    (same : sameWord keyword first) (same' : sameWord "BY".toList second) :
    first = keyword ∧ blank = [' '] ∧ second = "BY".toList ∧ Leads before := by
  have held : sorters.holds (.word first) := holds_of_sameWord known same
  have held' : (slot ["BY"]).holds (.word second) := holds_of_sameWord (by simp [slot]) same'
  have rest : tokens (blank ++ (second ++ after)) = .word second :: tokens after := by
    rw [tokens_blank_append all]
    exact tokens_piece_append (p := .word second) occurs'.proper rfl occurs'.right
  have split := occurs.tokens_eq rfl
  rw [rest] at split
  obtain ⟨start, after', leads, breaks, inStart, capitals, text⟩ :=
    format_phrase_of_tokens (.word first) [.word second] split
      (fun p _ => not_linked_of_disjoint held (by decide) p) (roles_sorter held held' _)
  have there : Occurs (format d t) start (.word first) (' ' :: (second ++ after')) := by
    exact ⟨by simpa [Piece.text] using text, occurs.proper, fun _ => leads.ends,
      fun _ => isGap_space.breaks _⟩
  obtain ⟨rfl, -, ends⟩ := occurs.unique there rfl rfl (by rw [inStart])
  exact ⟨eq_of_fold_eq (capitals _ (by simp)) same,
    eq_space_of_append all occurs'.proper occurs'.proper ends,
    eq_of_fold_eq (capitals _ (by simp)) same', leads⟩

private theorem spread_eq {chain inner : List Piece} {first last : Piece}
    (same : chain ++ [last] = first :: inner) :
    first.text ++ (inner.flatMap fun p => ' ' :: p.text) =
      (chain.flatMap fun p => p.text ++ [' ']) ++ last.text := by
  induction chain generalizing first inner with
  | nil =>
    obtain ⟨rfl, rfl⟩ := List.cons.inj same
    simp
  | cons c chain ih =>
    rw [List.cons_append] at same
    obtain ⟨rfl, rfl⟩ := List.cons.inj same
    obtain ⟨next, inner, shape⟩ := List.exists_cons_of_ne_nil (List.concat_ne_nil last chain)
    simp only [shape, List.flatMap_cons, List.cons_append, List.append_assoc, List.nil_append,
      ih shape]

private theorem tokens_spread {chain : List Piece} (proper : ∀ p ∈ chain, p.Proper)
    (word : ∀ p ∈ chain, p.word? ≠ none) :
    tokens (chain.flatMap fun p => p.text ++ [' ']) = chain := by
  induction chain with
  | nil => rfl
  | cons p chain ih =>
    have visible : p.blank = false := by
      cases p with
      | word run => rfl
      | other c => simp [Piece.word?] at word
    rw [List.flatMap_cons, List.append_assoc,
      tokens_piece_append (proper p (by simp)) visible fun _ => isGap_space.breaks _,
      tokens_blank_append isGap_space.2,
      ih (fun q found => proper q (List.mem_cons_of_mem _ found))
        fun q found => word q (List.mem_cons_of_mem _ found)]

private theorem ends_spread {start : Text} (leads : Leads start) (chain : List Piece) :
    ∀ c ∈ (start ++ chain.flatMap fun p => p.text ++ [' ']).getLast?, isWordChar c = false := by
  rcases List.eq_nil_or_concat chain with rfl | ⟨chain, p, rfl⟩
  · simpa using leads.ends
  · intro c last
    obtain rfl : ' ' = c := by simpa [← List.append_assoc] using last
    rfl

theorem format_join {d : Dictionary} {t before run after : Text}
    (occurs : Occurs (format d t) before (.word run) after) (same : sameWord "JOIN".toList run) :
    run = "JOIN".toList ∧ ∃ start chain, Leads start ∧
      before = start ++ (chain.flatMap fun p => p.text ++ [' ']) ∧
      Longest chain (tokens before) ∧ ∀ p ∈ chain, fold p = p := by
  have held : joins.holds (.word run) := holds_of_sameWord (by simp [joins, slot]) same
  obtain ⟨chain, longest⟩ := exists_longest (tokens before)
  obtain ⟨front, cut⟩ := longest.suffix
  obtain ⟨first, inner, shape⟩ :=
    List.exists_cons_of_ne_nil (List.concat_ne_nil (Piece.word run) chain)
  have phrase : chain ++ .word run :: tokens after = first :: (inner ++ tokens after) := by
    rw [← List.cons_append, ← shape]
    simp
  have length : chain.length = inner.length := by
    simpa using congrArg List.length shape
  have split := occurs.tokens_eq rfl
  rw [← cut, List.append_assoc, phrase] at split
  have begins := roles_join longest.qualifies held (tokens after)
  rw [phrase, length] at begins
  have apart : ∀ p, lastOf none front = some p → ¬ Linked p first := by
    intro p last
    rw [← cut] at longest
    exact longest.not_linked held last (by rw [shape]; rfl)
  obtain ⟨start, after', leads, breaks, inStart, capitals, text⟩ :=
    format_phrase_of_tokens first inner split apart begins
  rw [← List.append_assoc, ← List.append_assoc, List.append_assoc start, spread_eq shape] at text
  have there : Occurs (format d t) (start ++ chain.flatMap fun p => p.text ++ [' ']) (.word run)
      after' :=
    ⟨by rw [text]; simp, occurs.proper, fun _ => ends_spread leads chain, fun _ => breaks⟩
  have proper : ∀ p ∈ chain, p.Proper := by
    intro p inChain
    have inTokens : p ∈ tokens before := cut ▸ List.mem_append_right front inChain
    exact (cut_pieces before).proper p (List.mem_of_mem_filter inTokens)
  have inThere : tokens (start ++ chain.flatMap fun p => p.text ++ [' ']) = tokens before := by
    rw [tokens_append_of_ends leads.ends, inStart, tokens_spread proper longest.qualifies.word, cut]
  obtain ⟨rfl, -, -⟩ := occurs.unique there rfl rfl (by rw [inThere])
  rw [← shape] at capitals
  exact ⟨eq_of_fold_eq (capitals _ (by simp)) same, start, chain, leads, rfl, longest,
    fun p inChain => capitals p (List.mem_append_left _ inChain)⟩

private theorem eq_other_of_respell {role : Role} {p : Piece} {c : Char}
    (same : respell role p = .other c) : p = .other c := by
  cases p with
  | word run =>
    have word : (Piece.word run).word? = none := word?_respell.mp (by rw [same]; rfl)
    simp [Piece.word?] at word
  | other e =>
    unfold respell at same
    split at same <;> simpa using same

theorem format_opened {d : Dictionary} {t before after : Text}
    (text : format d t = before ++ '(' :: after) : EndsLine before := by
  obtain ⟨front, i, role, rest, -, written, -, u, first, text'⟩ :=
    format_locate (occurs_other text rfl) rfl
  have piece := eq_other_of_respell written
  have starts : ∀ p, startsLine role (some p) i.piece := by simp [startsLine, piece]
  obtain ⟨above, spaces, shape, line, all⟩ := endsLine_separator starts first ('(' :: after)
  have none : spaces = [] := all.elim id id
  rw [text']
  change EndsLine (u ++ separator _ role i ('(' :: after))
  rw [shape, none, List.append_nil]
  exact line

theorem format_closed {d : Dictionary} {t before after : Text}
    (text : format d t = before ++ ')' :: after) : OnNextLine after := by
  obtain ⟨front, i, role, rest, -, written, rfl, -⟩ := format_locate (occurs_other text rfl) rfl
  rw [eq_other_of_respell written]
  cases rest with
  | nil => simp [laid, OnNextLine]
  | cons next rest => simp [laid, separator, startsLine, OnNextLine]

private theorem exists_head_text {p : Piece} (proper : p.Proper) (visible : p.blank = false) :
    ∃ e rest, p.text = e :: rest ∧ isBlank e = false := by
  cases p with
  | other c => exact ⟨c, [], rfl, visible⟩
  | word run =>
    have isWord : IsWord run := proper
    obtain ⟨e, rest, rfl⟩ := List.exists_cons_of_ne_nil isWord.1
    exact ⟨e, rest, rfl, isBlank_of_isWordChar (isWord.2 e (by simp))⟩

theorem format_spaced {d : Dictionary} {t before after : Text} {c : Char}
    (text : format d t = before ++ c :: after) (known : c = ',' ∨ c = '(') :
    OnNextLine after ∨ ∃ e rest, after = ' ' :: e :: rest ∧ isBlank e = false := by
  have other : isWordChar c = false := by rcases known with rfl | rfl <;> rfl
  have visible : (Piece.other c).blank = false := by rcases known with rfl | rfl <;> rfl
  obtain ⟨front, i, role, rest, shape, written, rfl, -⟩ :=
    format_locate (occurs_other text other) visible
  rw [eq_other_of_respell written]
  cases rest with
  | nil => exact Or.inl (by simp [laid, OnNextLine])
  | cons next rest =>
    obtain ⟨j, role'⟩ := next
    have sound := sound_ranked d t
    have marked := marked_ranked (formatItems d t)
    rw [shape] at sound marked
    rw [List.map_append] at sound
    have sound' := sound.right.tail
    have marked' := marked.right.tail
    have proper : (respell role' j.piece).Proper :=
      proper_respell (sound'.proper j (by simp)) (marked' j role' (by simp))
    have visible' : (respell role' j.piece).blank = false :=
      (blank_respell role' j.piece).trans (sound'.visible j (by simp))
    obtain ⟨e, rest', head, nonblank⟩ := exists_head_text proper visible'
    have spaced : spacedAfter (some (.other c)) j = true := by
      rcases known with rfl | rfl <;> simp [spacedAfter]
    rw [laid, marked'.written_eq, head, separator]
    cases startsLine role' (some (.other c)) j.piece with
    | true => exact Or.inl (by simp [OnNextLine])
    | false =>
      rw [if_neg Bool.false_ne_true, if_pos spaced]
      exact Or.inr ⟨e, _, rfl, nonblank⟩

/-- Every formatted query is laid out by its keywords. -/
theorem format_aligned (d : Dictionary) (t : Text) : Aligned (format d t) where
  opener := fun _ _ _ occurs _ known same => format_opener occurs known same
  sorter := fun _ _ _ _ _ occurs occurs' all _ known same same' =>
    format_sorter occurs occurs' all known same same'
  join := fun _ _ _ occurs same => format_join occurs same
  opened := fun _ _ text => format_opened text
  closed := fun _ _ text => format_closed text
  spaced := fun _ _ _ text known => format_spaced text known

theorem format_aligned_left_outer :
    let t := "select a,(b) from x left left  outer join y".toList
    let before := "SELECT a,\n( b)\nFROM x left\nLEFT OUTER ".toList
    Occurs (format .builtin t) before (.word "JOIN".toList) " y".toList ∧
      ∃ start chain, Leads start ∧ before = start ++ (chain.flatMap fun p => p.text ++ [' ']) ∧
        Longest chain (tokens before) := by
  -- of three qualifiers before a join the first stays in the line above
  intro t before
  have occurs : Occurs (format .builtin t) before (.word "JOIN".toList) " y".toList := by
    refine ⟨by decide +kernel, isWord_of_mem_keywords (by decide), ?_,
      fun _ => isGap_space.breaks ['y']⟩
    rintro - c last
    obtain rfl : ' ' = c := by simpa [before] using last
    rfl
  obtain ⟨-, start, chain, leads, split, longest, -⟩ :=
    (format_aligned .builtin t).join before _ _ occurs (by decide)
  exact ⟨occurs, start, chain, leads, split, longest⟩

end QueryTidy
