import QueryTidy.Toml.Tree
import Mathlib.Data.Char
import Mathlib.Data.List.Induction
import Mathlib.Data.List.Lex

/-!
Members placed by their keys. Members with different keys can be placed in either order, the last
one placed under a key is the one that is found, and what distinct members make when they are placed
one after the other is their arrangement in ascending order of the keys.
-/

set_option autoImplicit false
set_option relaxedAutoImplicit false

namespace QueryTidy.Toml

variable {α β : Type}

def Ascending (members : List (Text × α)) : Prop :=
  members.Pairwise fun a b => a.1 < b.1

section Cases

variable {key k : Text} {member m : α} {rest : List (Text × α)}

theorem place_cons_self : place key member ((key, m) :: rest) = (key, member) :: rest :=
  if_pos rfl

theorem place_cons_of_lt (before : key < k) :
    place key member ((k, m) :: rest) = (key, member) :: (k, m) :: rest := by
  rw [place, if_neg before.ne, if_pos before]

theorem place_cons_of_gt (after : k < key) :
    place key member ((k, m) :: rest) = (k, m) :: place key member rest := by
  rw [place, if_neg after.ne', if_neg after.asymm]

end Cases

@[simp]
theorem lookup_place_self (key : Text) (member : α) (members : List (Text × α)) :
    (place key member members).lookup key = some member := by
  induction members with
  | nil => simp [place]
  | cons first rest ih =>
    obtain ⟨k, m⟩ := first
    rcases lt_trichotomy key k with before | rfl | after
    · rw [place_cons_of_lt before, List.lookup_cons_self]
    · rw [place_cons_self, List.lookup_cons_self]
    · rw [place_cons_of_gt after, List.lookup_cons, beq_eq_false_iff_ne.mpr after.ne']
      exact ih

theorem lookup_place_of_ne {key other : Text} (differ : other ≠ key) (member : α)
    (members : List (Text × α)) :
    (place key member members).lookup other = members.lookup other := by
  have skip : (other == key) = false := beq_eq_false_iff_ne.mpr differ
  induction members with
  | nil => rw [place, List.lookup_cons, skip]
  | cons first rest ih =>
    obtain ⟨k, m⟩ := first
    rcases lt_trichotomy key k with before | rfl | after
    · rw [place_cons_of_lt before, List.lookup_cons, skip]
    · rw [place_cons_self, List.lookup_cons, List.lookup_cons, skip]
    · rw [place_cons_of_gt after, List.lookup_cons, List.lookup_cons, ih]

theorem place_place (key : Text) (old new : α) (members : List (Text × α)) :
    place key new (place key old members) = place key new members := by
  induction members with
  | nil => exact place_cons_self
  | cons first rest ih =>
    obtain ⟨k, m⟩ := first
    rcases lt_trichotomy key k with before | rfl | after
    · rw [place_cons_of_lt before, place_cons_of_lt before, place_cons_self]
    · rw [place_cons_self, place_cons_self, place_cons_self]
    · rw [place_cons_of_gt after, place_cons_of_gt after, place_cons_of_gt after, ih]

private theorem place_comm_of_lt {key other : Text} (order : key < other) (a b : α)
    (members : List (Text × α)) :
    place key a (place other b members) = place other b (place key a members) := by
  induction members with
  | nil => rw [place, place, place_cons_of_lt order, place_cons_of_gt order, place]
  | cons first rest ih =>
    obtain ⟨k, m⟩ := first
    rcases lt_trichotomy key k with before | rfl | after
    · rw [place_cons_of_lt before, place_cons_of_gt order]
      rcases lt_trichotomy other k with before' | rfl | after'
      · rw [place_cons_of_lt before', place_cons_of_lt order]
      · rw [place_cons_self, place_cons_of_lt order]
      · rw [place_cons_of_gt after', place_cons_of_lt before]
    · rw [place_cons_self, place_cons_of_gt order, place_cons_of_gt order, place_cons_self]
    · rw [place_cons_of_gt after, place_cons_of_gt (after.trans order),
        place_cons_of_gt (after.trans order), place_cons_of_gt after, ih]

theorem place_comm {key other : Text} (differ : key ≠ other) (a b : α)
    (members : List (Text × α)) :
    place key a (place other b members) = place other b (place key a members) := by
  rcases lt_or_gt_of_ne differ with before | after
  · exact place_comm_of_lt before a b members
  · exact (place_comm_of_lt after b a members).symm

theorem map_place (f : α → β) (key : Text) (member : α) (members : List (Text × α)) :
    (place key member members).map (fun m => (m.1, f m.2)) =
      place key (f member) (members.map fun m => (m.1, f m.2)) := by
  induction members with
  | nil => rfl
  | cons first rest ih =>
    obtain ⟨k, m⟩ := first
    rcases lt_trichotomy key k with before | rfl | after
    · rw [place_cons_of_lt before]
      exact (place_cons_of_lt before).symm
    · rw [place_cons_self]
      exact place_cons_self.symm
    · rw [place_cons_of_gt after, List.map_cons, ih]
      exact (place_cons_of_gt after).symm

theorem filter_place (selected : Text → Bool) {key : Text} (unselected : selected key = false)
    (member : α) (members : List (Text × α)) :
    (place key member members).filter (fun m => selected m.1) =
      members.filter fun m => selected m.1 := by
  have drop : ∀ (value : α) (rest : List (Text × α)),
      ((key, value) :: rest).filter (fun m => selected m.1) =
        rest.filter fun m => selected m.1 :=
    fun value rest => List.filter_cons_of_neg (by simp [unselected])
  induction members with
  | nil => exact drop member []
  | cons first rest ih =>
    obtain ⟨k, m⟩ := first
    rcases lt_trichotomy key k with before | rfl | after
    · rw [place_cons_of_lt before, drop]
    · rw [place_cons_self, drop, drop]
    · rw [place_cons_of_gt after, List.filter_cons, List.filter_cons, ih]

theorem place_perm {key : Text} {members : List (Text × α)}
    (fresh : key ∉ members.map Prod.fst) (member : α) :
    (place key member members).Perm ((key, member) :: members) := by
  induction members with
  | nil => exact List.Perm.refl _
  | cons first rest ih =>
    obtain ⟨k, m⟩ := first
    obtain ⟨differ, fresh⟩ : key ≠ k ∧ key ∉ rest.map Prod.fst := by simpa using fresh
    rcases lt_or_gt_of_ne differ with before | after
    · rw [place_cons_of_lt before]
    · rw [place_cons_of_gt after]
      exact ((ih fresh).cons (k, m)).trans (List.Perm.swap (key, member) (k, m) rest)

theorem Ascending.place {members : List (Text × α)} (ascending : Ascending members) {key : Text}
    (fresh : key ∉ members.map Prod.fst) (member : α) : Ascending (place key member members) := by
  induction members with
  | nil => exact List.pairwise_singleton _ _
  | cons first rest ih =>
    obtain ⟨k, m⟩ := first
    obtain ⟨differ, fresh⟩ : key ≠ k ∧ key ∉ rest.map Prod.fst := by simpa using fresh
    obtain ⟨least, inRest⟩ := List.pairwise_cons.mp ascending
    rcases lt_or_gt_of_ne differ with before | after
    · rw [place_cons_of_lt before]
      refine List.pairwise_cons.mpr ⟨fun other found => ?_, ascending⟩
      rcases List.mem_cons.mp found with rfl | found
      · exact before
      · exact before.trans (least other found)
    · rw [place_cons_of_gt after]
      refine List.pairwise_cons.mpr ⟨fun other found => ?_, ih inRest fresh⟩
      rcases List.mem_cons.mp ((place_perm fresh member).subset found) with rfl | found
      · exact after
      · exact least other found

def arranged (members : List (Text × α)) : List (Text × α) :=
  members.foldl (fun placed m => place m.1 m.2 placed) []

theorem arranged_append (members : List (Text × α)) (m : Text × α) :
    arranged (members ++ [m]) = place m.1 m.2 (arranged members) := by
  simp only [arranged, List.foldl_append, List.foldl_cons, List.foldl_nil]

theorem nodup_keys_of_append {members : List (Text × α)} {m : Text × α}
    (distinct : ((members ++ [m]).map Prod.fst).Nodup) : (members.map Prod.fst).Nodup := by
  rw [List.map_append] at distinct
  exact (List.nodup_append.mp distinct).1

theorem fresh_of_perm {members placed : List (Text × α)} {m : Text × α}
    (perm : placed.Perm members) (distinct : ((members ++ [m]).map Prod.fst).Nodup) :
    m.1 ∉ placed.map Prod.fst := by
  rw [List.map_append, List.map_singleton, List.nodup_append] at distinct
  obtain ⟨-, -, apart⟩ := distinct
  intro found
  have known := (perm.map Prod.fst).subset found
  exact apart _ known _ (List.mem_singleton_self _) rfl

/-- Members with distinct keys are put into ascending order. -/
theorem arranged_spec (members : List (Text × α)) (distinct : (members.map Prod.fst).Nodup) :
    (arranged members).Perm members ∧ Ascending (arranged members) := by
  induction members using List.reverseRecOn with
  | nil => exact ⟨List.Perm.refl _, List.Pairwise.nil⟩
  | append_singleton members m ih =>
    obtain ⟨perm, ascending⟩ := ih (nodup_keys_of_append distinct)
    have fresh : m.1 ∉ (arranged members).map Prod.fst := fresh_of_perm perm distinct
    rw [arranged_append]
    constructor
    · calc (place m.1 m.2 (arranged members)).Perm (m :: arranged members) := place_perm fresh m.2
        _ |>.Perm (m :: members) := perm.cons m
        _ |>.Perm (members ++ [m]) := (List.perm_append_singleton m members).symm
    · exact ascending.place fresh m.2

theorem closeMembers_eq_map (members : Members) :
    closeMembers members = members.map fun m => (m.1, m.2.close) := by
  induction members with
  | nil => simp [closeMembers]
  | cons first rest ih =>
    obtain ⟨key, node⟩ := first
    rw [closeMembers, ih, List.map_cons]

end QueryTidy.Toml
