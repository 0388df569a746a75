import QueryTidy.Text.Basic
import Mathlib.Tactic.Common

/-!
Lists of values under texts as keys: when nothing is found under a key, and when two such lists are
the same.
-/

set_option autoImplicit false
set_option relaxedAutoImplicit false

namespace QueryTidy.Text

variable {α : Type}

theorem lookup_cons_eq_ite (key : Text) (entry : Text × α) (rest : List (Text × α)) :
    (entry :: rest).lookup key = if key = entry.1 then some entry.2 else rest.lookup key := by
  obtain ⟨known, value⟩ := entry
  by_cases same : key = known
  · subst same
    rw [List.lookup_cons_self, if_pos rfl]
  · rw [List.lookup_cons, beq_eq_false_iff_ne.mpr same, if_neg same]

theorem lookup_eq_none_of_fresh {key : Text} {entries : List (Text × α)}
    (fresh : key ∉ entries.map Prod.fst) : entries.lookup key = none := by
  refine List.lookup_eq_none_iff.mpr fun entry inEntries => bne_iff_ne.mpr ?_
  rintro rfl
  exact fresh (List.mem_map_of_mem inEntries)

theorem lookup_of_mem {entries : List (Text × α)} (distinct : (entries.map Prod.fst).Nodup)
    {entry : Text × α} (found : entry ∈ entries) : entries.lookup entry.1 = some entry.2 := by
  induction entries with
  | nil => contradiction
  | cons first rest ih =>
    obtain ⟨fresh, distinct⟩ := List.nodup_cons.mp distinct
    rw [lookup_cons_eq_ite]
    rcases List.mem_cons.mp found with rfl | inRest
    · rw [if_pos rfl]
    · have other : entry.1 ≠ first.1 := by
        intro same
        exact fresh (same ▸ List.mem_map_of_mem inRest)
      rw [if_neg other, ih distinct inRest]

theorem eq_of_keys_of_lookup {entries entries' : List (Text × α)}
    (keys : entries.map Prod.fst = entries'.map Prod.fst) (distinct : (entries.map Prod.fst).Nodup)
    (lookup : ∀ key, entries.lookup key = entries'.lookup key) : entries = entries' := by
  induction entries generalizing entries' with
  | nil => exact (List.map_eq_nil_iff.mp keys.symm).symm
  | cons entry rest ih =>
    cases entries' with
    | nil => simp at keys
    | cons entry' rest' =>
      obtain ⟨same, keys⟩ : entry.1 = entry'.1 ∧ rest.map Prod.fst = rest'.map Prod.fst := by
        rw [List.map_cons, List.map_cons] at keys
        exact List.cons.inj keys
      obtain ⟨fresh, distinct⟩ := List.nodup_cons.mp distinct
      have value : entry.2 = entry'.2 := by
        have first := lookup entry.1
        rw [lookup_cons_eq_ite, if_pos rfl, lookup_cons_eq_ite, if_pos same] at first
        exact Option.some.inj first
      have others : rest = rest' := by
        refine ih keys distinct fun key => ?_
        by_cases here : key = entry.1
        · -- behind the first entry its key does not come again
          rw [here, lookup_eq_none_of_fresh fresh, lookup_eq_none_of_fresh (keys ▸ fresh)]
        · have whole := lookup key
          rw [lookup_cons_eq_ite, if_neg here, lookup_cons_eq_ite, if_neg (same ▸ here)] at whole
          exact whole
      rw [Prod.ext same value, others]

end QueryTidy.Text
