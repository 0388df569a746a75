import QueryTidy.Proofs.Layout.Keywords
import Mathlib.Data.Nat.Find

/-!
Where phrases begin. Phrases are searched for from the left, but the role of a piece can be read off
next to it: a phrase that has begun reaches a piece only if the piece before fills the slot before,
and different slots hold different words.
-/

set_option autoImplicit false
set_option relaxedAutoImplicit false

namespace QueryTidy.Layout

open Text

/-- The slots that follow each other in a phrase. -/
def links : List (Slot × Slot) :=
  [(sides, kinds), (sides, joins), (kinds, joins), (sorters, slot ["BY"])]

def Linked (p q : Piece) : Prop :=
  ∃ link ∈ links, link.1.holds p ∧ link.2.holds q

def lastOf (before : Option Piece) : List Piece → Option Piece
  | [] => before
  | p :: ps => lastOf (some p) ps

theorem lastOf_append (before : Option Piece) (ps qs : List Piece) :
    lastOf before (ps ++ qs) = lastOf (lastOf before ps) qs := by
  induction ps generalizing before with
  | nil => rfl
  | cons p ps ih => exact ih (some p)

theorem exists_lastOf (p : Piece) (ps : List Piece) : ∃ q, lastOf (some p) ps = some q := by
  induction ps generalizing p with
  | nil => exact ⟨p, rfl⟩
  | cons q ps ih => exact ih q

theorem eq_concat_of_lastOf {ps : List Piece} {p : Piece} (last : lastOf none ps = some p) :
    ∃ front, ps = front ++ [p] := by
  rcases List.eq_nil_or_concat ps with rfl | ⟨front, q, rfl⟩
  · simp [lastOf] at last
  · rw [List.concat_eq_append, lastOf_append] at last
    obtain rfl : q = p := by simpa [lastOf] using last
    exact ⟨front, List.concat_eq_append⟩

theorem holds_eq_false_of_disjoint {s s' : Slot} {p : Piece} (apart : ∀ w ∈ s, w ∉ s')
    (held : s.holds p) : s'.holds p = false := by
  cases p with
  | other c => rfl
  | word run =>
    rw [Bool.eq_false_iff]
    intro again
    obtain ⟨w, inSlot, same⟩ := List.any_eq_true.mp held
    obtain ⟨w', inSlot', same'⟩ := List.any_eq_true.mp again
    have spelt : w = w' := (sameWord_iff.mp same).symm.trans (sameWord_iff.mp same')
    exact apart w inSlot (spelt ▸ inSlot')

/-- Whether pieces begin with words for the slots that come next in a phrase after a piece. -/
private structure Awaits (before : Option Piece) (slots : List Slot) (ps : List Piece) : Prop where
  filled : filled slots ps
  chain : slots.IsChain fun s s' => (s, s') ∈ links
  linked : ∀ s' ∈ slots.head?, ∃ p ∈ before, ∃ s : Slot, s.holds p ∧ (s, s') ∈ links

private theorem awaits_nil (before : Option Piece) (ps : List Piece) : Awaits before [] ps :=
  ⟨rfl, by simp, by simp⟩

private theorem awaits_of_chain {s : Slot} {slots : List Slot} {p : Piece} {ps : List Piece}
    (whole : Layout.filled (s :: slots) (p :: ps))
    (chain : (s :: slots).IsChain fun s s' => (s, s') ∈ links) : Awaits (some p) slots ps := by
  have both : s.holds p ∧ Layout.filled slots ps := by simpa [Layout.filled] using whole
  obtain ⟨first, rest⟩ := List.isChain_cons.mp chain
  exact ⟨both.2, rest, fun s' next => ⟨p, rfl, s, both.1, first s' next⟩⟩

private theorem Awaits.tail {before : Option Piece} {s : Slot} {slots : List Slot} {p : Piece}
    {ps : List Piece} (awaits : Awaits before (s :: slots) (p :: ps)) : Awaits (some p) slots ps :=
  awaits_of_chain awaits.filled awaits.chain

private theorem Awaits.reach {before : Option Piece} {s : Slot} {slots : List Slot}
    {ps : List Piece} (awaits : Awaits before (s :: slots) ps) :
    ∃ p ∈ before, ∃ q ∈ ps.head?, Linked p q := by
  obtain ⟨p, isBefore, first, held, link⟩ := awaits.linked s rfl
  have whole := awaits.filled
  cases ps with
  | nil => simp [Layout.filled] at whole
  | cons q ps =>
    have held' : s.holds q ∧ Layout.filled slots ps := by simpa [Layout.filled] using whole
    exact ⟨p, isBefore, q, rfl, (first, s), link, held, held'.1⟩

private theorem phrases_chain : ∀ phrase ∈ phrases,
    phrase ≠ [] ∧ phrase.IsChain fun s s' => (s, s') ∈ links := by
  decide

private theorem Awaits.step {before : Option Piece} {slots : List Slot} {p : Piece}
    {ps : List Piece} (awaits : Awaits before slots (p :: ps)) :
    ∃ role slots', roles slots.length (p :: ps) = role :: roles slots'.length ps ∧
      Awaits (some p) slots' ps := by
  cases slots with
  | cons s slots => exact ⟨.inside, slots, rfl, awaits.tail⟩
  | nil =>
    simp only [List.length_nil, roles, phraseLength]
    cases search : phrases.find? (Layout.filled · (p :: ps)) with
    | none => exact ⟨.plain, [], rfl, awaits_nil _ _⟩
    | some phrase =>
      have whole := List.find?_some search
      obtain ⟨some, chain⟩ := phrases_chain phrase (List.mem_of_find?_eq_some search)
      cases phrase with
      | nil => exact absurd rfl some
      | cons s slots => exact ⟨.lead, slots, rfl, awaits_of_chain whole chain⟩

private theorem Awaits.roles_append {before : Option Piece} {slots : List Slot}
    (front : List Piece) {rest : List Piece} (awaits : Awaits before slots (front ++ rest)) :
    ∃ given slots', given.length = front.length ∧
      roles slots.length (front ++ rest) = given ++ roles slots'.length rest ∧
      Awaits (lastOf before front) slots' rest := by
  induction front generalizing before slots with
  | nil => exact ⟨[], slots, rfl, rfl, awaits⟩
  | cons p front ih =>
    rw [List.cons_append] at awaits ⊢
    obtain ⟨role, slots', first, next⟩ := awaits.step
    obtain ⟨given, slots'', length, split, final⟩ := ih next
    refine ⟨role :: given, slots'', by simp [length], ?_, final⟩
    rw [first, split]
    rfl

/-- The search starts anew at a piece that is not linked to the piece before. -/
theorem roles_append (front rest : List Piece)
    (apart : ∀ p ∈ lastOf none front, ∀ q ∈ rest.head?, ¬ Linked p q) :
    ∃ given, given.length = front.length ∧ roles 0 (front ++ rest) = given ++ roles 0 rest := by
  obtain ⟨given, slots, length, split, awaits⟩ :=
    (awaits_nil none (front ++ rest)).roles_append front
  cases slots with
  | nil => exact ⟨given, length, split⟩
  | cons s slots =>
    obtain ⟨p, isLast, q, isFirst, linked⟩ := awaits.reach
    exact absurd linked (apart p isLast q isFirst)

theorem not_linked_of_disjoint {s : Slot} {q : Piece} (held : s.holds q)
    (apart : ∀ link ∈ links, ∀ w ∈ s, w ∉ link.2) (p : Piece) : ¬ Linked p q := by
  rintro ⟨link, known, -, again⟩
  rw [holds_eq_false_of_disjoint (apart link known) held] at again
  contradiction

theorem roles_opener {p : Piece} (held : openers.holds p) (rest : List Piece) :
    roles 0 (p :: rest) = .lead :: roles 0 rest := by
  have side : sides.holds p = false := holds_eq_false_of_disjoint (by decide) held
  have kind : kinds.holds p = false := holds_eq_false_of_disjoint (by decide) held
  have join : joins.holds p = false := holds_eq_false_of_disjoint (by decide) held
  have sorter : sorters.holds p = false := holds_eq_false_of_disjoint (by decide) held
  have length : phraseLength (p :: rest) = 1 := by
    simp [phraseLength, phrases, filled, side, kind, join, sorter, held]
  simp only [roles, length]

theorem roles_sorter {p q : Piece} (held : sorters.holds p) (held' : (slot ["BY"]).holds q)
    (rest : List Piece) : roles 0 (p :: q :: rest) = .lead :: .inside :: roles 0 rest := by
  have side : sides.holds p = false := holds_eq_false_of_disjoint (by decide) held
  have kind : kinds.holds p = false := holds_eq_false_of_disjoint (by decide) held
  have join : joins.holds p = false := holds_eq_false_of_disjoint (by decide) held
  have length : phraseLength (p :: q :: rest) = 2 := by
    simp [phraseLength, phrases, filled, side, kind, join, held, held']
  simp only [roles, length]

/-- Whether pieces can stand together before a join: a side, a kind, or a side and a kind. -/
def Qualifies (chain : List Piece) : Prop :=
  ∃ slots ∈ [[], [slot ["LEFT", "RIGHT", "FULL"]], [slot ["INNER", "OUTER", "CROSS"]],
      [slot ["LEFT", "RIGHT", "FULL"], slot ["INNER", "OUTER", "CROSS"]]],
    List.Forall₂ (fun s p => Slot.holds s p = true) slots chain

theorem Qualifies.word {chain : List Piece} (qualifies : Qualifies chain) :
    ∀ p ∈ chain, p.word? ≠ none := by
  obtain ⟨slots, -, fills⟩ := qualifies
  induction fills with
  | nil => simp
  | @cons s p slots chain held fills ih =>
    intro q found
    rcases List.mem_cons.mp found with rfl | inRest
    · exact word?_of_holds held
    · exact ih q inRest

theorem Qualifies.cases {chain : List Piece} (qualifies : Qualifies chain) :
    chain = [] ∨ (∃ s, sides.holds s ∧ chain = [s]) ∨ (∃ k, kinds.holds k ∧ chain = [k]) ∨
      ∃ s k, sides.holds s ∧ kinds.holds k ∧ chain = [s, k] := by
  obtain ⟨slots, known, fills⟩ := qualifies
  simp only [List.mem_cons, List.not_mem_nil, or_false] at known
  rcases known with rfl | rfl | rfl | rfl
  · exact Or.inl (List.forall₂_nil_left_iff.mp fills)
  · obtain ⟨s, _, held, rest, rfl⟩ := List.forall₂_cons_left_iff.mp fills
    obtain rfl := List.forall₂_nil_left_iff.mp rest
    exact Or.inr (Or.inl ⟨s, held, rfl⟩)
  · obtain ⟨k, _, held, rest, rfl⟩ := List.forall₂_cons_left_iff.mp fills
    obtain rfl := List.forall₂_nil_left_iff.mp rest
    exact Or.inr (Or.inr (Or.inl ⟨k, held, rfl⟩))
  · obtain ⟨s, _, held, rest, rfl⟩ := List.forall₂_cons_left_iff.mp fills
    obtain ⟨k, _, held', rest', rfl⟩ := List.forall₂_cons_left_iff.mp rest
    obtain rfl := List.forall₂_nil_left_iff.mp rest'
    exact Or.inr (Or.inr (Or.inr ⟨s, k, held, held', rfl⟩))

theorem roles_join {chain : List Piece} (qualifies : Qualifies chain) {j : Piece}
    (held : joins.holds j) (rest : List Piece) :
    roles 0 (chain ++ j :: rest) =
      .lead :: (List.replicate chain.length .inside ++ roles 0 rest) := by
  have side : sides.holds j = false := holds_eq_false_of_disjoint (by decide) held
  have kind : kinds.holds j = false := holds_eq_false_of_disjoint (by decide) held
  have length : phraseLength (chain ++ j :: rest) = chain.length + 1 := by
    rcases qualifies.cases with
      rfl | ⟨s, isSide, rfl⟩ | ⟨k, isKind, rfl⟩ | ⟨s, k, isSide, isKind, rfl⟩
    · simp [phraseLength, phrases, filled, side, kind, held]
    · simp [phraseLength, phrases, filled, kind, held, isSide]
    · have notSide : sides.holds k = false := holds_eq_false_of_disjoint (by decide) isKind
      simp [phraseLength, phrases, filled, held, isKind, notSide]
    · simp [phraseLength, phrases, filled, held, isSide, isKind]
  rcases qualifies.cases with rfl | ⟨s, -, rfl⟩ | ⟨k, -, rfl⟩ | ⟨s, k, -, -, rfl⟩ <;>
    simp only [List.nil_append, List.cons_append, roles] at length ⊢ <;>
    simp [length, roles]

/-- Whether qualifiers at the end of some pieces are all the qualifiers there. -/
structure Longest (chain ps : List Piece) : Prop where
  qualifies : Qualifies chain
  suffix : chain <:+ ps
  longest : ∀ other, Qualifies other → other <:+ ps → other.length ≤ chain.length

theorem exists_longest (ps : List Piece) : ∃ chain, Longest chain ps := by
  classical
  let found (n : Nat) : Prop := ∃ chain, Qualifies chain ∧ chain <:+ ps ∧ chain.length = n
  have start : found 0 := ⟨[], ⟨[], by simp, .nil⟩, List.nil_suffix, rfl⟩
  obtain ⟨chain, qualifies, suffix, length⟩ :=
    Nat.findGreatest_spec (P := found) (Nat.zero_le ps.length) start
  refine ⟨chain, qualifies, suffix, fun other qualifies' suffix' => ?_⟩
  rw [length]
  exact Nat.le_findGreatest suffix'.length_le ⟨other, qualifies', suffix', rfl⟩

private theorem holds_of_linked {s : Slot} {p q : Piece} (held : s.holds q) (linked : Linked p q) :
    ∃ link ∈ links, ¬ (∀ w ∈ s, w ∉ link.2) ∧ link.1.holds p := by
  obtain ⟨link, known, first, second⟩ := linked
  refine ⟨link, known, fun apart => ?_, first⟩
  rw [holds_eq_false_of_disjoint apart held] at second
  contradiction

private theorem qualifies_of_linked_join {p j : Piece} (held : joins.holds j)
    (linked : Linked p j) : Qualifies [p] := by
  have table : ∀ link ∈ links, ¬ (∀ w ∈ joins, w ∉ link.2) → link.1 = sides ∨ link.1 = kinds := by
    decide
  obtain ⟨link, known, meets, isBefore⟩ := holds_of_linked held linked
  rcases table link known meets with side | kind
  · exact ⟨[sides], by decide, .cons (side ▸ isBefore) .nil⟩
  · exact ⟨[kinds], by decide, .cons (kind ▸ isBefore) .nil⟩

private theorem qualifies_of_linked_kind {p k : Piece} (held : kinds.holds k)
    (linked : Linked p k) : Qualifies [p, k] := by
  have table : ∀ link ∈ links, ¬ (∀ w ∈ kinds, w ∉ link.2) → link.1 = sides := by decide
  obtain ⟨link, known, meets, isBefore⟩ := holds_of_linked held linked
  have side := table link known meets
  exact ⟨[sides, kinds], by decide, .cons (side ▸ isBefore) (.cons held .nil)⟩

theorem Longest.not_linked {chain front : List Piece} (longest : Longest chain (front ++ chain))
    {j : Piece} (held : joins.holds j) {p q : Piece} (last : lastOf none front = some p)
    (first : q ∈ (chain ++ [j]).head?) : ¬ Linked p q := by
  obtain ⟨front, rfl⟩ := eq_concat_of_lastOf last
  have noLonger : ¬ Qualifies (p :: chain) := by
    intro qualifies
    have length := longest.longest (p :: chain) qualifies ⟨front, by simp⟩
    rw [List.length_cons] at length
    omega
  intro linked
  rcases longest.qualifies.cases with
    rfl | ⟨s, isSide, rfl⟩ | ⟨k, isKind, rfl⟩ | ⟨s, k, isSide, -, rfl⟩
  · obtain rfl : j = q := by simpa using first
    exact noLonger (qualifies_of_linked_join held linked)
  · obtain rfl : s = q := by simpa using first
    exact not_linked_of_disjoint isSide (by decide) p linked
  · obtain rfl : k = q := by simpa using first
    exact noLonger (qualifies_of_linked_kind isKind linked)
  · obtain rfl : s = q := by simpa using first
    exact not_linked_of_disjoint isSide (by decide) p linked

def starters : Slot :=
  slot ["LEFT", "RIGHT", "FULL", "INNER", "OUTER", "CROSS", "JOIN", "GROUP", "ORDER", "SELECT",
    "FROM", "WHERE", "HAVING", "VALUES", "AND", "OR", "INSERT", "UPDATE", "DELETE", "SET"]

theorem forall₂_starters_roles (pending : Nat) (ps : List Piece) :
    List.Forall₂ (fun p role => role = .lead → starters.holds p) ps (roles pending ps) := by
  have heads : ∀ phrase ∈ phrases, ∀ s ∈ phrase.head?, s ⊆ starters := by decide
  induction ps generalizing pending with
  | nil => simp [roles]
  | cons p ps ih =>
    cases pending with
    | succ pending => exact .cons (by simp) (ih pending)
    | zero =>
      simp only [roles, phraseLength]
      cases search : phrases.find? (filled · (p :: ps)) with
      | none => exact .cons (by simp) (ih 0)
      | some phrase =>
        have whole := List.find?_some search
        cases phrase with
        | nil => exact .cons (by simp) (ih 0)
        | cons s slots =>
          have both : s.holds p ∧ filled slots ps := by simpa [filled] using whole
          refine .cons (fun _ => ?_) (ih slots.length)
          exact holds_of_subset (heads _ (List.mem_of_find?_eq_some search) s rfl) both.1

end QueryTidy.Layout
