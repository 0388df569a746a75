import QueryTidy.Format
import QueryTidy.Proofs.Layout.PhrasePasses
import QueryTidy.Proofs.Layout.Tidying

/-!
The passes together. Those over blanks and punctuation give every piece the blanks that the layout
has before it. Each pass over phrases changes the pieces that have a role in its own phrases, and
leaves all roles as they are. So what the last pass gets are the cells of the layout, and going
through the passes one after another comes to the same as laying the query out in one go.
-/

set_option autoImplicit false
set_option relaxedAutoImplicit false

namespace QueryTidy.Layout

open Text

variable {p : Placed} {ps : List Placed} {last : Text}

section Blanks

/-- The blanks before a piece when they are down to single spaces, punctuation is spaced and line
ends are around parentheses. -/
def laidGap (before : Option Piece) (p : Placed) : Text :=
  brokenGap before ⟨spacedGap before ⟨squeezed p.gap, p.piece⟩, p.piece⟩

private theorem blank_squeezed (gap : Text) : ∀ c ∈ squeezed gap, isBlank c := by
  unfold squeezed
  split
  · exact List.forall_mem_nil _
  · exact isGap_space.2

private theorem blank_spacedGap (before : Option Piece) (blank : ∀ c ∈ p.gap, isBlank c) :
    ∀ c ∈ spacedGap before p, isBlank c := by
  unfold spacedGap
  split
  · exact isGap_space.2
  · split
    · exact List.forall_mem_nil _
    · exact blank

private theorem blank_newline : ∀ c ∈ ['\n'], isBlank c :=
  List.forall_mem_singleton.mpr rfl

private theorem blank_brokenGap (before : Option Piece) (blank : ∀ c ∈ p.gap, isBlank c) :
    ∀ c ∈ brokenGap before p, isBlank c := by
  unfold brokenGap
  intro c found
  simp only [List.mem_append] at found
  rcases found with inFront | inGap | inBack
  · split at inFront
    · exact blank_newline c inFront
    · simp at inFront
  · exact blank c inGap
  · split at inBack
    · exact blank_newline c inBack
    · simp at inBack

private theorem blank_laidGap (before : Option Piece) (p : Placed) :
    ∀ c ∈ laidGap before p, isBlank c :=
  blank_brokenGap before (blank_spacedGap before (blank_squeezed p.gap))

theorem breakParentheses_passes (legible : Legible ps last) :
    ∃ last', (∀ c ∈ last', isBlank c) ∧
      breakParentheses (spacePunctuation (collapseBlanks (spread ps last))) =
        spread (regap laidGap none ps) last' := by
  have squeezes := legible.regap (fun _ p _ => blank_squeezed p.gap) (blank_squeezed last) none
  obtain ⟨last₁, ended₁, spaces⟩ := spacePunctuation_spread squeezes
  have spaced := squeezes.regap
    (fun before p inList => blank_spacedGap before (squeezes.gaps p inList)) ended₁ none
  obtain ⟨last₂, ended₂, breaks⟩ := breakParentheses_spread spaced
  refine ⟨last₂, ended₂, ?_⟩
  rw [collapseBlanks_spread legible, spaces, breaks, regap_regap, regap_regap]
  rfl

private theorem startsLine_plain {before : Option Piece} {piece : Piece} :
    startsLine .plain before piece ↔ piece = .other '(' ∨ before = some (.other ')') := by
  simp [startsLine]

theorem newline_mem_laidGap {before : Option Piece} (starts : startsLine .plain before p.piece) :
    '\n' ∈ laidGap before p := by
  unfold laidGap brokenGap
  rcases startsLine_plain.mp starts with isOpen | isClosed
  · simp [isOpen]
  · simp [isClosed]

private theorem isSpaced_iff {piece : Piece} :
    isSpaced piece ↔ piece = .other ',' ∨ piece = .other '(' ∨ piece = .other ')' := by
  cases piece with
  | word run => simp [isSpaced]
  | other c => simp [isSpaced, isPunctuation, or_assoc]

theorem laidGap_of_not_starts {before : Option Piece}
    (inLine : startsLine .plain before p.piece = false) :
    laidGap before p = if spacedAfter before p.item then [' '] else [] := by
  obtain ⟨notOpen, notClosed⟩ : p.piece ≠ .other '(' ∧ before ≠ some (.other ')') := by
    rw [← not_or, ← startsLine_plain, inLine]
    exact Bool.false_ne_true
  have plain : laidGap before p = spacedGap before ⟨squeezed p.gap, p.piece⟩ := by
    simp [laidGap, brokenGap, notOpen, notClosed]
  rw [plain, spacedGap]
  by_cases marked : before.any isSpaced
  · have spaced : spacedAfter before p.item := by
      cases before with
      | none => simp at marked
      | some piece =>
        rcases isSpaced_iff.mp marked with rfl | rfl | rfl
        · rfl
        · rfl
        · exact absurd rfl notClosed
    rw [if_pos marked, if_pos spaced]
  · obtain ⟨comma, paren⟩ : before ≠ some (.other ',') ∧ before ≠ some (.other '(') := by
      constructor
      · rintro rfl
        exact marked rfl
      · rintro rfl
        exact marked rfl
    by_cases isMark : isSpaced p.piece
    · have close : spacedAfter before p.item = false := by
        rcases isSpaced_iff.mp isMark with mark | mark | mark
        · simp [spacedAfter, Placed.item, comma, paren, mark]
        · exact absurd mark notOpen
        · simp [spacedAfter, Placed.item, comma, paren, mark]
      rw [if_neg marked, if_pos isMark, close]
      rfl
    · have unmarked := mt isSpaced_iff.mpr isMark
      obtain ⟨notComma, -, notClose⟩ := by simpa only [not_or] using unmarked
      have same : spacedAfter before p.item = !p.gap.isEmpty := by
        simp only [spacedAfter, Placed.item, beq_eq_false_iff_ne.mpr comma,
          beq_eq_false_iff_ne.mpr paren, bne_iff_ne.mpr notComma, bne_iff_ne.mpr notClose,
          Bool.false_or, Bool.and_true]
      rw [if_neg marked, if_neg isMark, same, squeezed]
      cases p.gap <;> rfl

private theorem Fair.regap_laidGap (fair : Fair ps last) {last' : Text}
    (ended : ∀ c ∈ last', isBlank c) (before : Option Piece) :
    Fair (regap laidGap before ps) last' where
  toLegible := fair.toLegible.regap (fun before p _ => blank_laidGap before p) ended before
  separate := by
    induction ps generalizing before with
    | nil => exact .nil
    | cons p ps ih =>
      rw [regap, List.isChain_cons]
      refine ⟨?_, ih fair.tail (some p.piece)⟩
      cases ps with
      | nil => simp [regap]
      | cons q ps =>
        intro r first close
        obtain rfl : ⟨laidGap (some p.piece) q, q.piece⟩ = r := Option.some.inj first
        have inLine : startsLine .plain (some p.piece) q.piece = false := by
          apply Bool.eq_false_iff.mpr
          intro starts
          have breaks := newline_mem_laidGap starts
          rw [show laidGap (some p.piece) q = [] from close] at breaks
          simp at breaks
        have unspaced : spacedAfter (some p.piece) q.item = false := by
          apply Bool.eq_false_iff.mpr
          intro spaced
          have gap := laidGap_of_not_starts inLine
          rw [if_pos spaced, show laidGap (some p.piece) q = [] from close] at gap
          simp at gap
        apply separate_of_unspaced (j := q.item) _ unspaced
        intro none
        apply (List.isChain_cons.mp fair.separate).1 q rfl
        simpa [Placed.item] using none

end Blanks

section Layers

/-- A pass over phrases, with the words of its phrases and what becomes of the blanks before one. -/
structure Layer where
  pass : Text → Text
  words : Slot
  opened : Text → Text

def Layer.placed (l : Layer) (role : Role) (p : Placed) : Placed :=
  recast l.opened p (restrict l.words p.piece role)

structure Layer.Sound (l : Layer) : Prop where
  run : ∀ {ps last}, Fair ps last → l.pass (spread ps last) =
    spread (List.zipWith (fun p role => l.placed role p) ps (roles 0 (ps.map Placed.piece))) last
  breaks : ∀ gap, '\n' ∈ l.opened gap
  blank : ∀ {gap}, (∀ c ∈ gap, isBlank c) → ∀ c ∈ l.opened gap, isBlank c

variable {l : Layer} {rs : List Role}

private theorem zipWith_recast_restrict (words : Slot) (opened : Text → Text) (ps : List Placed)
    (rs : List Role) :
    List.zipWith (recast opened) ps
        (List.zipWith (restrict words) (ps.map Placed.piece) rs) =
      List.zipWith (fun p role => recast opened p (restrict words p.piece role)) ps rs := by
  induction ps generalizing rs with
  | nil => rfl
  | cons p ps ih =>
    cases rs with
    | nil => rfl
    | cons role rs => simp only [List.map_cons, List.zipWith_cons_cons, ih]

private theorem sound_of_replaces {sub : Substitution} {forms : List (List Slot)} {words : Slot}
    {opened : Text → Text} (replaces : Replaces sub forms opened) (family : Family forms words)
    (breaks : ∀ gap, '\n' ∈ opened gap)
    (blank : ∀ {gap : Text}, (∀ c ∈ gap, isBlank c) → ∀ c ∈ opened gap, isBlank c) :
    (Layer.mk (replaceAll sub) words opened).Sound where
  run fair := by
    change replaceAll sub _ = _
    rw [replaces.replaceAll_spread fair, family.rolesIn_eq, zipWith_recast_restrict]
    rfl
  breaks := breaks
  blank := blank

def layers : List Layer :=
  [⟨breakClauses, clauseWords, (· ++ ['\n'])⟩, ⟨breakJoins, joinWords, fun _ => ['\n']⟩,
   ⟨breakLogical, slot ["AND", "OR"], (· ++ "\n  ".toList)⟩,
   ⟨breakChanges, slot ["INSERT", "UPDATE", "DELETE"], (· ++ ['\n'])⟩,
   ⟨breakSet, slot ["SET"], (· ++ ['\n'])⟩]

private theorem blank_append {opening : Text} (isGap : ∀ c ∈ opening, isBlank c) {gap : Text}
    (blank : ∀ c ∈ gap, isBlank c) : ∀ c ∈ gap ++ opening, isBlank c :=
  List.forall_mem_append.mpr ⟨blank, isGap⟩

theorem sound_layers : ∀ l ∈ layers, l.Sound := by
  have indent : ∀ c ∈ "\n  ".toList, isBlank c :=
    List.forall_mem_cons.mpr ⟨rfl, blank_append isGap_space.2 isGap_space.2⟩
  simp only [layers, List.forall_mem_cons]
  refine ⟨?_, ?_, ?_, ?_, ?_, List.forall_mem_nil _⟩
  · exact sound_of_replaces replaces_clauses family_clauses (by simp) (blank_append blank_newline)
  · exact sound_of_replaces replaces_join family_joinForms (by simp) fun _ => blank_newline
  · exact sound_of_replaces replaces_logical family_logical (by simp) (blank_append indent)
  · exact sound_of_replaces replaces_changes family_changes (by simp) (blank_append blank_newline)
  · exact sound_of_replaces replaces_set family_set (by simp) (blank_append blank_newline)

private theorem piece_placed (l : Layer) (role : Role) (p : Placed) :
    (l.placed role p).piece = respell (restrict l.words p.piece role) p.piece := by
  unfold Layer.placed
  cases restrict l.words p.piece role <;> rfl

private theorem ne_plain_of_restrict {words : Slot} {piece : Piece} {role : Role}
    (inPhrase : restrict words piece role ≠ .plain) : role ≠ .plain := by
  rintro rfl
  exact inPhrase (ite_self _)

private theorem map_fold_placed (l : Layer) (length : rs.length = ps.length) :
    ((List.zipWith (fun p role => l.placed role p) ps rs).map Placed.piece).map fold =
      (ps.map Placed.piece).map fold := by
  induction ps generalizing rs with
  | nil => simp
  | cons p ps ih =>
    cases rs with
    | nil => simp at length
    | cons role rs =>
      simp only [List.zipWith_cons_cons, List.map_cons, piece_placed, fold_respell,
        ih (by simpa using length)]

private theorem Layer.Sound.blank_placed (sound : l.Sound) (role : Role)
    (blank : ∀ c ∈ p.gap, isBlank c) : ∀ c ∈ (l.placed role p).gap, isBlank c := by
  unfold Layer.placed
  cases restrict l.words p.piece role with
  | plain => exact blank
  | lead => exact sound.blank blank
  | inside => exact isGap_space.2

private theorem Layer.Sound.gap_of_placed (sound : l.Sound) {role : Role}
    (close : (l.placed role p).gap = []) : p.gap = [] := by
  unfold Layer.placed at close
  cases known : restrict l.words p.piece role with
  | plain => simpa [known, recast] using close
  | lead =>
    have breaks := sound.breaks p.gap
    rw [known] at close
    rw [show l.opened p.gap = [] from close] at breaks
    simp at breaks
  | inside => simp [known, recast] at close

private theorem Layer.Sound.fair (sound : l.Sound) (fair : Fair ps last)
    (marked : List.Forall₂ (fun p role => role ≠ .plain → keywords.holds p.piece) ps rs) :
    Fair (List.zipWith (fun p role => l.placed role p) ps rs) last := by
  induction marked with
  | nil => exact fair
  | @cons p role ps rs keyword rest ih =>
    apply Fair.cons _ _ _ _ (ih fair.tail)
    · exact sound.blank_placed role (fair.gaps p (by simp))
    · rw [piece_placed]
      apply proper_respell (fair.proper p (by simp))
      exact fun inPhrase => keyword (ne_plain_of_restrict inPhrase)
    · rw [piece_placed, blank_respell]
      exact fair.visible p (by simp)
    · intro q first close
      cases rest with
      | nil => simp at first
      | @cons p' role' ps rs _ _ =>
        obtain rfl : l.placed role' p' = q := Option.some.inj first
        have apart := (List.isChain_cons.mp fair.separate).1 p' rfl (sound.gap_of_placed close)
        simpa only [Piece.Separate, piece_placed, word?_respell] using apart

private theorem zipWith_placed_placed (f g : Role → Placed → Placed) (ps : List Placed)
    (rs : List Role) :
    List.zipWith (fun p role => g role p) (List.zipWith (fun p role => f role p) ps rs) rs =
      List.zipWith (fun p role => g role (f role p)) ps rs := by
  induction ps generalizing rs with
  | nil => rfl
  | cons p ps ih =>
    cases rs with
    | nil => rfl
    | cons role rs => simp only [List.zipWith_cons_cons, ih]

private theorem zipWith_same (length : rs.length = ps.length) :
    List.zipWith (fun (p : Placed) (_ : Role) => p) ps rs = ps := by
  induction ps generalizing rs with
  | nil => rfl
  | cons p ps ih =>
    cases rs with
    | nil => simp at length
    | cons role rs => rw [List.zipWith_cons_cons, ih (by simpa using length)]

private theorem length_roles (ps : List Placed) :
    (roles 0 (ps.map Placed.piece)).length = ps.length := by
  rw [← (forall₂_holds_roles (ps.map Placed.piece)).length_eq, List.length_map]

/-- Roles do not change from one pass to the next, so passes one after another change each piece on
its own. -/
theorem foldl_layers (fair : Fair ps last) {ls : List Layer} (sound : ∀ l ∈ ls, l.Sound) :
    ls.foldl (fun t l => l.pass t) (spread ps last) =
      spread (List.zipWith (fun p role => ls.foldl (fun q l => l.placed role q) p) ps
        (roles 0 (ps.map Placed.piece))) last := by
  induction ls generalizing ps with
  | nil =>
    simp only [List.foldl_nil]
    rw [zipWith_same (length_roles ps)]
  | cons l ls ih =>
    obtain ⟨own, others⟩ := List.forall_mem_cons.mp sound
    have marked := List.forall₂_map_left_iff.mp (forall₂_holds_roles (ps.map Placed.piece))
    have same := roles_congr (map_fold_placed l (length_roles ps)) 0
    rw [List.foldl_cons, own.run fair, ih (own.fair fair marked) others, same,
      zipWith_placed_placed]
    rfl

end Layers

section Cells

def Opened (gap gap' : Text) : Role → Prop
  | .plain => gap' = gap
  | .lead => '\n' ∈ gap'
  | .inside => gap' = [' ']

/-- Whether a piece with a role is as all the passes over phrases leave it. -/
structure Settled (role : Role) (p q : Placed) : Prop where
  piece : q.piece = respell role p.piece
  blank : ∀ c ∈ q.gap, isBlank c
  gap : Opened p.gap q.gap role

variable {l : Layer} {role : Role} {q : Placed}

private theorem settled_recast (sound : l.Sound) (blank : ∀ c ∈ q.gap, isBlank c)
    (same : fold q.piece = fold p.piece)
    (plain : role = .plain → q.piece = p.piece ∧ q.gap = p.gap) :
    Settled role p (recast l.opened q role) := by
  cases role with
  | plain => exact ⟨(plain rfl).1, blank, (plain rfl).2⟩
  | lead => exact ⟨same, sound.blank blank, sound.breaks q.gap⟩
  | inside => exact ⟨same, isGap_space.2, rfl⟩

private theorem placed_of_holds (held : l.words.holds p.piece) :
    l.placed role p = recast l.opened p role := by
  rw [Layer.placed, restrict, if_pos held]

private theorem placed_of_not_holds (free : ¬l.words.holds p.piece) : l.placed role p = p := by
  rw [Layer.placed, restrict, if_neg free]
  rfl

private theorem Settled.placed (settled : Settled role p q) (sound : l.Sound) :
    Settled role p (l.placed role q) := by
  by_cases held : l.words.holds q.piece
  · rw [placed_of_holds held]
    apply settled_recast sound settled.blank
    · rw [settled.piece, fold_respell]
    · rintro rfl
      exact ⟨settled.piece, settled.gap⟩
  · rw [placed_of_not_holds held]
    exact settled

private theorem Settled.foldl_placed (settled : Settled role p q) {ls : List Layer}
    (sound : ∀ l ∈ ls, l.Sound) : Settled role p (ls.foldl (fun q l => l.placed role q) q) := by
  induction ls generalizing q with
  | nil => exact settled
  | cons l ls ih =>
    obtain ⟨own, others⟩ := List.forall_mem_cons.mp sound
    exact ih (settled.placed own) others

private theorem settled_foldl {ls : List Layer} (sound : ∀ l ∈ ls, l.Sound)
    (blank : ∀ c ∈ p.gap, isBlank c) (known : role ≠ .plain → ∃ l ∈ ls, l.words.holds p.piece) :
    Settled role p (ls.foldl (fun q l => l.placed role q) p) := by
  -- the pass that has the word of a piece settles it, and later passes leave it so
  induction ls with
  | nil =>
    obtain rfl : role = .plain := by
      by_contra inPhrase
      simpa using known inPhrase
    exact ⟨rfl, blank, rfl⟩
  | cons l ls ih =>
    obtain ⟨own, others⟩ := List.forall_mem_cons.mp sound
    by_cases held : l.words.holds p.piece
    · rw [List.foldl_cons, placed_of_holds held]
      exact (settled_recast own blank rfl fun _ => ⟨rfl, rfl⟩).foldl_placed others
    · rw [List.foldl_cons, placed_of_not_holds held]
      refine ih others fun inPhrase => ?_
      obtain ⟨other, inLayers, holds⟩ := known inPhrase
      rcases List.mem_cons.mp inLayers with rfl | inRest
      · exact absurd holds held
      · exact ⟨other, inRest, holds⟩

private theorem holds_layers {piece : Piece} (keyword : keywords.holds piece) :
    ∃ l ∈ layers, l.words.holds piece := by
  obtain ⟨run, rfl, known⟩ := exists_word_of_holds keyword
  have all : ∀ word ∈ keywords, ∃ l ∈ layers, word ∈ l.words := by decide
  obtain ⟨l, inLayers, inWords⟩ := all _ known
  refine ⟨l, inLayers, ?_⟩
  rw [holds_word, decide_eq_true_iff]
  exact inWords

private theorem inLine_of_words {b : Piece} (keyword : keywords.holds b)
    (keyword' : keywords.holds p.piece) (gap : p.gap ≠ []) :
    startsLine .inside (some b) p.piece = false ∧ spacedAfter (some b) p.item := by
  obtain ⟨run, rfl, -⟩ := exists_word_of_holds keyword
  obtain ⟨run', word, -⟩ := exists_word_of_holds keyword'
  simp [startsLine, spacedAfter, Placed.item, word, gap]

private theorem prints_cell {before : Option Piece} (proper : p.piece.Proper)
    (visible : p.piece.blank = false) (keyword : role ≠ .plain → keywords.holds p.piece)
    (continues : role = .inside → ∃ b, before = some b ∧ keywords.holds b ∧ p.gap ≠ []) :
    Prints (layers.foldl (fun q l => l.placed role q) ⟨laidGap before p, p.piece⟩)
      ⟨written role p.piece, startsLine role before p.piece, spacedAfter before p.item⟩ := by
  have settled := settled_foldl sound_layers (p := ⟨laidGap before p, p.piece⟩)
    (blank_laidGap before p) fun inPhrase => holds_layers (keyword inPhrase)
  have spelt : written role p.piece = (respell role p.piece).text := by
    apply written_eq_text
    intro inPhrase
    obtain ⟨run, word, -⟩ := exists_word_of_holds (keyword inPhrase)
    exact ⟨run, word⟩
  refine ⟨?_, ?_, settled.blank, ?_, ?_⟩
  · rw [settled.piece, spelt]
  · change Dense (written role p.piece)
    rw [spelt]
    apply Piece.dense_text (proper_respell proper keyword)
    exact (blank_respell role p.piece).trans visible
  · change startsLine role before p.piece → _
    intro starts
    cases role with
    | plain =>
      rw [show _ = laidGap before p from settled.gap]
      exact newline_mem_laidGap starts
    | lead => exact settled.gap
    | inside =>
      obtain ⟨b, rfl, keyword', gap⟩ := continues rfl
      rw [(inLine_of_words keyword' (keyword (by decide)) gap).1] at starts
      contradiction
  · change startsLine role before p.piece = false → _
    intro inLine
    cases role with
    | plain =>
      rw [show _ = laidGap before p from settled.gap]
      exact laidGap_of_not_starts inLine
    | lead => exact absurd inLine (by simp [startsLine])
    | inside =>
      obtain ⟨b, rfl, keyword', gap⟩ := continues rfl
      have spaced := (inLine_of_words keyword' (keyword (by decide)) gap).2
      rw [show _ = [' '] from settled.gap, Cell.space, if_pos spaced]

private theorem exists_role (pending : Nat) (piece : Piece) (pieces : List Piece) :
    ∃ role pending', roles pending (piece :: pieces) = role :: roles pending' pieces ∧
      (role = .inside → 0 < pending) ∧ (0 < pending' → role ≠ .plain) := by
  cases pending with
  | succ pending => exact ⟨.inside, pending, rfl, fun _ => Nat.succ_pos pending, fun _ => by decide⟩
  | zero =>
    rw [roles]
    cases phraseLength (piece :: pieces) with
    | zero => exact ⟨.plain, 0, rfl, by decide, fun more => absurd more (lt_irrefl 0)⟩
    | succ further => exact ⟨.lead, further, rfl, by decide, fun _ => by decide⟩

theorem prints_cells (fair : Fair ps last) (before : Option Piece) {pending : Nat}
    (apart : ∀ b ∈ before, ∀ p ∈ ps.head?, p.gap = [] → b.Separate p.piece)
    (begun : 0 < pending → ∃ b, before = some b ∧ keywords.holds b)
    (marked : List.Forall₂ (fun p role => role ≠ .plain → keywords.holds p.piece) ps
      (roles pending (ps.map Placed.piece))) :
    List.Forall₂ Prints
      (List.zipWith (fun p role => layers.foldl (fun q l => l.placed role q) p)
        (regap laidGap before ps) (roles pending (ps.map Placed.piece)))
      (cells before ((ps.map Placed.item).zip (roles pending (ps.map Placed.piece)))) := by
  -- as long as any of a phrase is pending, a word of it comes just before
  induction ps generalizing before pending with
  | nil => simp [regap, cells]
  | cons p ps ih =>
    obtain ⟨role, pending', same, inside, more⟩ := exists_role pending p.piece (ps.map Placed.piece)
    rw [List.map_cons, same] at marked ⊢
    obtain ⟨keyword, rest⟩ := List.forall₂_cons.mp marked
    refine .cons (prints_cell (fair.proper p (by simp)) (fair.visible p (by simp)) keyword ?_) ?_
    · rintro rfl
      obtain ⟨b, rfl, known⟩ := begun (inside rfl)
      refine ⟨b, rfl, known, fun close => ?_⟩
      have separate := apart b rfl p rfl close
      exact word?_of_holds (keyword (by decide)) (separate.resolve_left (word?_of_holds known))
    · apply ih fair.tail (some p.piece) _ _ rest
      · intro b last q first close
        obtain rfl : p.piece = b := Option.some.inj last
        exact (List.isChain_cons.mp fair.separate).1 q first close
      · intro goesOn
        exact ⟨p.piece, rfl, keyword (more goesOn)⟩

end Cells

private theorem passedThrough_eq (d : Dictionary) (t : Text) :
    passedThrough d t = tidyLines (layers.foldl (fun t l => l.pass t)
      (breakParentheses (spacePunctuation (collapseBlanks (d.correctText t))))) := by
  simp only [passedThrough, passes, layers, List.foldl_cons, List.foldl_nil]

private theorem tidyLines_passes (t : Text) :
    tidyLines (layers.foldl (fun t l => l.pass t)
      (breakParentheses (spacePunctuation (collapseBlanks t)))) = render (lines (pieces t)) := by
  obtain ⟨ps, last, text, fair, same⟩ := exists_placed t
  obtain ⟨last', ended, blanks⟩ := breakParentheses_passes fair.toLegible
  have laid := foldl_layers (fair.regap_laidGap ended none) sound_layers
  rw [map_piece_regap] at laid
  have marked := List.forall₂_map_left_iff.mp (forall₂_holds_roles (ps.map Placed.piece))
  have prints := prints_cells fair none (by simp) (fun none => absurd none (lt_irrefl 0)) marked
  have sameCells : cells none ((ps.map Placed.item).zip (roles 0 (ps.map Placed.piece))) =
      cells none (ranked (items false (pieces t))) := by
    rw [ranked, ← same, List.map_map]
    rfl
  rw [← text, blanks, laid, tidyLines_spread prints ended, text, sameCells]
  rfl

/-- Going through the passes one after another comes to the same as laying the query out in one
go. -/
theorem passedThrough_eq_format (d : Dictionary) (t : Text) : passedThrough d t = format d t := by
  rw [passedThrough_eq, tidyLines_passes, format]

end QueryTidy.Layout
