import QueryTidy.Layout.Passes
import QueryTidy.Proofs.Layout.Rendering

/-!
Families of phrases. The phrases that the layout knows fall into families with no word in common,
one for each pass. So a piece has the same role among the phrases of its own family as among all
phrases, and none among those of the other families.
-/

set_option autoImplicit false
set_option relaxedAutoImplicit false

namespace QueryTidy.Layout

open Text

def lengthIn (forms : List (List Slot)) (ps : List Piece) : Nat :=
  match forms.find? (filled · ps) with
  | some phrase => phrase.length
  | none => 0

def rolesIn (forms : List (List Slot)) : Nat → List Piece → List Role
  | _, [] => []
  | pending + 1, _ :: ps => .inside :: rolesIn forms pending ps
  | 0, p :: ps =>
    match lengthIn forms (p :: ps) with
    | 0 => .plain :: rolesIn forms 0 ps
    | further + 1 => .lead :: rolesIn forms further ps

theorem rolesIn_phrases (pending : Nat) (ps : List Piece) :
    rolesIn phrases pending ps = roles pending ps := by
  induction ps generalizing pending with
  | nil => cases pending <;> rfl
  | cons p ps ih =>
    cases pending with
    | succ pending => simp only [rolesIn, roles, ih]
    | zero =>
      have same : lengthIn phrases (p :: ps) = phraseLength (p :: ps) := rfl
      rw [rolesIn, roles, same]
      cases phraseLength (p :: ps) <;> simp only [ih]

theorem rolesIn_pending (forms : List (List Slot)) (pending : Nat) (ps : List Piece)
    (enough : pending ≤ ps.length) :
    rolesIn forms pending ps =
      List.replicate pending .inside ++ rolesIn forms 0 (ps.drop pending) := by
  induction pending generalizing ps with
  | zero => rfl
  | succ pending ih =>
    cases ps with
    | nil => simp at enough
    | cons p ps =>
      rw [rolesIn, ih ps (by simpa using enough)]
      rfl

/-- What is left of the phrases whose first slot a word fills. -/
def continuations (word : Text) : List (List Slot) → List (List Slot)
  | [] => []
  | [] :: forms => continuations word forms
  | (s :: slots) :: forms =>
    if word ∈ s then slots :: continuations word forms else continuations word forms

theorem find?_filled {forms : List (List Slot)} (some : ∀ form ∈ forms, form ≠ []) (run : Text)
    (ps : List Piece) :
    (forms.find? (filled · (.word run :: ps))).map List.tail =
      (continuations (run.map foldChar) forms).find? (filled · ps) := by
  induction forms with
  | nil => rfl
  | cons form forms ih =>
    have ih := ih fun other inForms => some other (List.mem_cons_of_mem form inForms)
    cases form with
    | nil => exact absurd rfl (some [] (by simp))
    | cons s slots =>
      rw [continuations, List.find?_cons]
      simp only [filled, holds_word]
      by_cases inSlot : run.map foldChar ∈ s
      · rw [if_pos inSlot, List.find?_cons]
        simp only [inSlot, decide_true, Bool.true_and]
        cases filled slots ps with
        | true => rfl
        | false => exact ih
      · rw [if_neg inSlot]
        simp only [inSlot, decide_false, Bool.false_and]
        exact ih

theorem find?_filled_other {forms : List (List Slot)} (some : ∀ form ∈ forms, form ≠ [])
    (c : Char) (ps : List Piece) : forms.find? (filled · (.other c :: ps)) = none := by
  rw [List.find?_eq_none]
  intro form inForms
  obtain ⟨s, slots, rfl⟩ := List.exists_cons_of_ne_nil (some form inForms)
  simp [filled, Slot.holds]

theorem lengthIn_word {forms : List (List Slot)} (some : ∀ form ∈ forms, form ≠ []) (run : Text)
    (ps : List Piece) :
    lengthIn forms (.word run :: ps) =
      match (continuations (run.map foldChar) forms).find? (filled · ps) with
      | .some slots => slots.length + 1
      | none => 0 := by
  rw [← find?_filled some, lengthIn]
  cases found : forms.find? (filled · (.word run :: ps)) with
  | none => rfl
  | some form =>
    have inForms := List.mem_of_find?_eq_some found
    obtain ⟨s, slots, rfl⟩ := List.exists_cons_of_ne_nil (some form inForms)
    rfl

theorem lengthIn_other {forms : List (List Slot)} (some : ∀ form ∈ forms, form ≠ []) (c : Char)
    (ps : List Piece) : lengthIn forms (.other c :: ps) = 0 := by
  rw [lengthIn, find?_filled_other some]

theorem continuations_eq_nil {word : Text} {forms : List (List Slot)}
    (never : ∀ form ∈ forms, ∀ s ∈ form.head?, word ∉ s) : continuations word forms = [] := by
  induction forms with
  | nil => rfl
  | cons form forms ih =>
    have rest := ih fun other inForms => never other (List.mem_cons_of_mem form inForms)
    cases form with
    | nil => exact rest
    | cons s slots => rw [continuations, if_neg (never (s :: slots) (by simp) s rfl), rest]

/-- Whether some of the phrases are all those with certain words, and no other phrase has any of
these words. -/
structure Family (forms : List (List Slot)) (words : Slot) : Prop where
  some : ∀ form ∈ forms, form ≠ []
  firsts : ∀ form ∈ forms, ∀ s ∈ form.head?, ∀ word ∈ s, word ∈ words
  same : ∀ word ∈ words, continuations word forms = continuations word phrases
  own : ∀ word ∈ words, ∀ slots ∈ continuations word phrases, ∀ s ∈ slots, ∀ w ∈ s, w ∈ words
  foreign : ∀ word ∈ keywords, word ∉ words →
    ∀ slots ∈ continuations word phrases, ∀ s ∈ slots, ∀ w ∈ s, w ∉ words

private theorem phrases_ne_nil : ∀ phrase ∈ phrases, phrase ≠ [] := by
  decide

private theorem phrases_firsts :
    ∀ phrase ∈ phrases, ∀ s ∈ phrase.head?, ∀ word ∈ s, word ∈ keywords := by
  decide

variable {forms : List (List Slot)} {words : Slot}

theorem Family.lengthIn_of_mem (family : Family forms words) {run : Text}
    (known : run.map foldChar ∈ words) (ps : List Piece) :
    lengthIn forms (.word run :: ps) = lengthIn phrases (.word run :: ps) := by
  rw [lengthIn_word family.some, lengthIn_word phrases_ne_nil, family.same _ known]

theorem Family.lengthIn_of_not_holds (family : Family forms words) {p : Piece}
    (unknown : words.holds p = false) (ps : List Piece) : lengthIn forms (p :: ps) = 0 := by
  cases p with
  | other c => exact lengthIn_other family.some c ps
  | word run =>
    rw [holds_word, decide_eq_false_iff_not] at unknown
    have none : continuations (run.map foldChar) forms = [] :=
      continuations_eq_nil fun form inForms s first inSlot =>
        unknown (family.firsts form inForms s first _ inSlot)
    rw [lengthIn_word family.some, none]
    rfl

/-- A role among the phrases with certain words. -/
def restrict (words : Slot) (p : Piece) (role : Role) : Role :=
  if words.holds p then role else .plain

private theorem Family.lengthIn_cases (family : Family forms words) (p : Piece) (ps : List Piece) :
    (lengthIn phrases (p :: ps) = 0 ∧ lengthIn forms (p :: ps) = 0) ∨
      ∃ slots, filled slots ps ∧ lengthIn phrases (p :: ps) = slots.length + 1 ∧
        (words.holds p ∧ lengthIn forms (p :: ps) = slots.length + 1 ∧
            (∀ s ∈ slots, ∀ w ∈ s, w ∈ words) ∨
          words.holds p = false ∧ lengthIn forms (p :: ps) = 0 ∧
            ∀ s ∈ slots, ∀ w ∈ s, w ∉ words) := by
  cases p with
  | other c => exact Or.inl ⟨lengthIn_other phrases_ne_nil c ps, lengthIn_other family.some c ps⟩
  | word run =>
    simp only [holds_word, decide_eq_true_iff, decide_eq_false_iff_not]
    have unknown (free : run.map foldChar ∉ words) : lengthIn forms (.word run :: ps) = 0 := by
      apply family.lengthIn_of_not_holds
      rw [holds_word, decide_eq_false_iff_not]
      exact free
    have whole := lengthIn_word phrases_ne_nil run ps
    cases found : (continuations (run.map foldChar) phrases).find? (filled · ps) with
    | none =>
      rw [found] at whole
      refine Or.inl ⟨whole, ?_⟩
      by_cases known : run.map foldChar ∈ words
      · rw [family.lengthIn_of_mem known, whole]
      · exact unknown known
    | some slots =>
      rw [found] at whole
      have continues := List.mem_of_find?_eq_some found
      have fills := List.find?_some found
      refine Or.inr ⟨slots, fills, whole, ?_⟩
      by_cases known : run.map foldChar ∈ words
      · exact Or.inl ⟨known, (family.lengthIn_of_mem known ps).trans whole,
          family.own _ known slots continues⟩
      · have keyword : run.map foldChar ∈ keywords := by
          by_contra other
          have none : continuations (run.map foldChar) phrases = [] :=
            continuations_eq_nil fun phrase inPhrases s first inSlot =>
              other (phrases_firsts phrase inPhrases s first _ inSlot)
          simp [none] at continues
        exact Or.inr ⟨known, unknown known, family.foreign _ keyword known slots continues⟩

private theorem Family.rolesIn_filled (family : Family forms words) (slots : List Slot)
    (ps : List Piece) (fills : filled slots ps) :
    ((∀ s ∈ slots, ∀ w ∈ s, w ∈ words) → rolesIn forms slots.length ps =
        List.zipWith (restrict words) ps (rolesIn phrases slots.length ps)) ∧
      ((∀ s ∈ slots, ∀ w ∈ s, w ∉ words) → rolesIn forms 0 ps =
        List.zipWith (restrict words) ps (rolesIn phrases slots.length ps)) := by
  -- the phrase that has begun is carried along as the slots that are still to be filled; it is one
  -- of the family, or has no word of it
  induction ps generalizing slots with
  | nil => cases slots <;> simp [rolesIn]
  | cons p ps ih =>
    cases slots with
    | nil =>
      have fresh : rolesIn forms 0 (p :: ps) =
          List.zipWith (restrict words) (p :: ps) (rolesIn phrases 0 (p :: ps)) := by
        rcases family.lengthIn_cases p ps with ⟨none, none'⟩ |
          ⟨slots, fills, further, ⟨held, further', own⟩ | ⟨free, none, foreign⟩⟩
        · have later := (ih [] rfl).1 (by simp)
          rw [List.length_nil] at later
          simp only [rolesIn, none, none', List.zipWith_cons_cons, restrict, ite_self, later]
        · simp only [rolesIn, further, further', List.zipWith_cons_cons, restrict, held, if_true,
            (ih slots fills).1 own]
        · simp only [rolesIn, further, none, List.zipWith_cons_cons, restrict, free,
            Bool.false_eq_true, if_false, (ih slots fills).2 foreign]
      exact ⟨fun _ => fresh, fun _ => fresh⟩
    | cons s slots =>
      obtain ⟨held, rest⟩ : s.holds p ∧ filled slots ps := by simpa [filled] using fills
      constructor
      · intro own
        obtain ⟨here, later⟩ := List.forall_mem_cons.mp own
        have known : words.holds p := holds_of_subset here held
        simp only [List.length_cons, rolesIn, List.zipWith_cons_cons, restrict, known, if_true,
          (ih slots rest).1 later]
      · intro foreign
        obtain ⟨here, later⟩ := List.forall_mem_cons.mp foreign
        have unknown : words.holds p = false := by
          obtain ⟨run, rfl, inSlot⟩ := exists_word_of_holds held
          rw [holds_word, decide_eq_false_iff_not]
          exact here _ inSlot
        simp only [List.length_cons, rolesIn, family.lengthIn_of_not_holds unknown,
          List.zipWith_cons_cons, restrict, unknown, Bool.false_eq_true, if_false,
          (ih slots rest).2 later]

/-- Among the phrases of a family a piece has the role that it has among all phrases if it is a word
of the family, and none otherwise. -/
theorem Family.rolesIn_eq (family : Family forms words) (ps : List Piece) :
    rolesIn forms 0 ps = List.zipWith (restrict words) ps (roles 0 ps) := by
  rw [← rolesIn_phrases]
  exact (family.rolesIn_filled [] ps rfl).1 (by simp)

def clauseWords : Slot :=
  slot ["SELECT", "FROM", "WHERE", "GROUP", "ORDER", "BY", "HAVING", "VALUES"]

def joinWords : Slot :=
  slot ["LEFT", "RIGHT", "FULL", "INNER", "OUTER", "CROSS", "JOIN"]

theorem family_clauses : Family clauses clauseWords := by
  constructor <;> decide

theorem family_joinForms : Family joinForms joinWords := by
  constructor <;> decide

theorem family_logical : Family [[slot ["AND", "OR"]]] (slot ["AND", "OR"]) := by
  constructor <;> decide

theorem family_changes :
    Family [[slot ["INSERT", "UPDATE", "DELETE"]]] (slot ["INSERT", "UPDATE", "DELETE"]) := by
  constructor <;> decide

theorem family_set : Family [[slot ["SET"]]] (slot ["SET"]) := by
  constructor <;> decide

end QueryTidy.Layout
