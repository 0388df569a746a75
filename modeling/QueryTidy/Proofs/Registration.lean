import QueryTidy.Dictionary
import QueryTidy.Proofs.Text.Keyed
import Mathlib.Data.List.Dedup
import Mathlib.Data.List.Induction

/-!
What a sequence of registrations leads to. The misspellings stand in the order in which each was
registered first, and each has the correction with which it was registered last; so two sequences
lead to the same entries exactly if they agree in both respects.
-/

set_option autoImplicit false
set_option relaxedAutoImplicit false

namespace QueryTidy.Dictionary

open Text

def firstOnes (keys : List Text) : List Text :=
  keys.reverse.dedup.reverse

def last? (entries : List Entry) (key : Text) : Option Text :=
  entries.reverse.lookup key

theorem mem_firstOnes {keys : List Text} {key : Text} : key ∈ firstOnes keys ↔ key ∈ keys := by
  simp [firstOnes]

theorem nodup_firstOnes (keys : List Text) : (firstOnes keys).Nodup :=
  List.nodup_reverse.mpr (List.nodup_dedup _)

theorem firstOnes_append (keys : List Text) (key : Text) :
    firstOnes (keys ++ [key]) =
      if key ∈ keys then firstOnes keys else firstOnes keys ++ [key] := by
  unfold firstOnes
  rw [List.reverse_append, List.reverse_singleton, List.singleton_append]
  split
  · rename_i known
    rw [List.dedup_cons_of_mem (List.mem_reverse.mpr known)]
  · rename_i fresh
    rw [List.dedup_cons_of_notMem (fun found => fresh (List.mem_reverse.mp found)),
      List.reverse_cons]

theorem keys_register (entries : List Entry) (entry : Entry) :
    (register entries entry).map Prod.fst =
      if entry.1 ∈ entries.map Prod.fst then entries.map Prod.fst
      else entries.map Prod.fst ++ [entry.1] := by
  induction entries with
  | nil => rfl
  | cons known rest ih =>
    rw [register]
    by_cases same : known.1 = entry.1
    · simp [same]
    · rw [if_neg same, List.map_cons, ih]
      by_cases later : entry.1 ∈ rest.map Prod.fst
      · rw [if_pos later, List.map_cons, if_pos (List.mem_cons_of_mem _ later)]
      · have fresh : entry.1 ∉ (known :: rest).map Prod.fst := by
          rw [List.map_cons, List.mem_cons]
          rintro (here | later')
          · exact same here.symm
          · exact later later'
        rw [if_neg later, if_neg fresh, List.map_cons, List.cons_append]

theorem lookup_register (entries : List Entry) (entry : Entry) (key : Text) :
    (register entries entry).lookup key =
      if key = entry.1 then some entry.2 else entries.lookup key := by
  induction entries with
  | nil => exact lookup_cons_eq_ite key entry []
  | cons known rest ih =>
    rw [register]
    by_cases here : known.1 = entry.1
    · rw [if_pos here, lookup_cons_eq_ite, lookup_cons_eq_ite, here]
      split <;> rfl
    · rw [if_neg here, lookup_cons_eq_ite, lookup_cons_eq_ite, ih]
      by_cases same : key = entry.1
      · rw [if_pos same, if_neg (same ▸ Ne.symm here), if_pos same]
      · rw [if_neg same, if_neg same]

theorem keys_registered (entries : List Entry) :
    (entries.foldl register []).map Prod.fst = firstOnes (entries.map Prod.fst) := by
  induction entries using List.reverseRecOn with
  | nil => rfl
  | append_singleton entries entry ih =>
    rw [List.foldl_append, List.foldl_cons, List.foldl_nil, keys_register, ih, List.map_append,
      List.map_singleton, firstOnes_append]
    simp only [mem_firstOnes]

theorem lookup_registered (entries : List Entry) (key : Text) :
    (entries.foldl register []).lookup key = last? entries key := by
  induction entries using List.reverseRecOn with
  | nil => rfl
  | append_singleton entries entry ih =>
    rw [List.foldl_append, List.foldl_cons, List.foldl_nil, lookup_register, ih, last?, last?,
      List.reverse_append, List.reverse_singleton, List.singleton_append, lookup_cons_eq_ite]

def registrations (extra : List Entry) : List Entry :=
  builtinEntries ++ accepted extra

/-- Whether two lists of pairs register the misspellings in the same order for the first time, and
with the same corrections for the last time. -/
structure SameRegistration (extra extra' : List Entry) : Prop where
  first : firstOnes ((registrations extra).map Prod.fst) =
    firstOnes ((registrations extra').map Prod.fst)
  last : ∀ key, last? (registrations extra) key = last? (registrations extra') key

theorem withExtra_eq (extra : List Entry) :
    withExtra extra = ⟨(registrations extra).foldl register []⟩ :=
  rfl

theorem keys_withExtra (extra : List Entry) :
    (withExtra extra).entries.map Prod.fst = firstOnes ((registrations extra).map Prod.fst) := by
  rw [withExtra_eq, keys_registered]

theorem lookup_withExtra (extra : List Entry) (key : Text) :
    (withExtra extra).entries.lookup key = last? (registrations extra) key := by
  rw [withExtra_eq]
  dsimp only
  rw [lookup_registered]

/-- The order of the misspellings and their latest corrections make the dictionary. -/
theorem withExtra_eq_iff {extra extra' : List Entry} :
    withExtra extra = withExtra extra' ↔ SameRegistration extra extra' := by
  rw [withExtra_eq, withExtra_eq, Dictionary.mk.injEq]
  constructor
  · intro entries
    constructor
    · rw [← keys_registered, ← keys_registered, entries]
    · intro key
      rw [← lookup_registered, ← lookup_registered, entries]
  · intro same
    apply eq_of_keys_of_lookup
    · rw [keys_registered, keys_registered, same.first]
    · rw [keys_registered]
      exact nodup_firstOnes _
    · intro key
      rw [lookup_registered, lookup_registered, same.last]

end QueryTidy.Dictionary
