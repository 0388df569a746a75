import QueryTidy.Proofs.Text.Letters
import Mathlib.Data.List.Dedup

/-!
The capital form of a text is in capitals: nothing changes when it is capitalized again. For the
characters with a capital of several characters the table is looked through; for the runs it is
enough that no capital of one run is listed in another, which is seen from their bounds and, where
capitals and small letters alternate, from their parity. What can be seen is still seen in capitals.
-/

set_option autoImplicit false
set_option relaxedAutoImplicit false

namespace QueryTidy.Text

def isCapital (n : Nat) : Bool :=
  upperChar (Char.ofNat n) == [Char.ofNat n]

private theorem isCapital_of_expansion {n code : Nat} {codes : List Nat}
    (entry : capitalExpansions.lookup n = some codes) (found : code ∈ codes) :
    isCapital code := by
  have table : ∀ code ∈ (capitalExpansions.flatMap Prod.snd).dedup, isCapital code := by
    decide +kernel
  obtain ⟨before, after, split, -⟩ := List.lookup_eq_some_iff.mp entry
  apply table
  rw [List.mem_dedup, split]
  exact List.mem_flatMap.mpr ⟨(n, codes), by simp, found⟩

namespace CapitalRun

/-- Whether no capital of a run is seen to be listed in another run. -/
def misses (r s : CapitalRun) : Bool :=
  s.last.blt r.capital || (r.capital + (r.last - r.first)).blt s.first ||
    ((r.stride == 2 || r.first == r.last) && s.stride == 2 && r.capital % 2 != s.first % 2)

theorem contains_eq_false_of_misses {r s : CapitalRun} {n : Nat} (misses : r.misses s)
    (listed : r.contains n) : s.contains (r.capital + (n - r.first)) = false := by
  rw [Bool.eq_false_iff]
  intro again
  simp only [contains, Bool.and_eq_true, decide_eq_true_eq, beq_iff_eq] at listed again
  obtain ⟨⟨low, high⟩, step⟩ := listed
  obtain ⟨⟨low', high'⟩, step'⟩ := again
  simp only [CapitalRun.misses, Bool.or_eq_true, Bool.and_eq_true, Nat.blt_eq, beq_iff_eq,
    bne_iff_ne] at misses
  rcases misses with (below | above) | ⟨⟨alternating, double⟩, parity⟩
  · omega
  · omega
  · rw [double] at step'
    rcases alternating with double' | single
    · rw [double'] at step
      omega
    · omega

end CapitalRun

private def keyRun (entry : Nat × List Nat) : CapitalRun :=
  ⟨entry.1, entry.1, 2, 0⟩

private theorem capitalCodes_of_run {r : CapitalRun} (known : r ∈ capitalRuns) {n : Nat}
    (listed : r.contains n) :
    capitalCodes (r.capital + (n - r.first)) = [r.capital + (n - r.first)] := by
  have keys : capitalRuns.all fun r => capitalExpansions.all fun e => r.misses (keyRun e) := by
    decide +kernel
  have runs : capitalRuns.all fun r => capitalRuns.all fun s => r.misses s := by
    decide +kernel
  have noKey : capitalExpansions.lookup (r.capital + (n - r.first)) = none := by
    rw [List.lookup_eq_none_iff]
    intro entry inTable
    have misses := List.all_eq_true.mp (List.all_eq_true.mp keys r known) entry inTable
    have apart := CapitalRun.contains_eq_false_of_misses misses listed
    rw [bne_iff_ne]
    intro same
    simp [CapitalRun.contains, keyRun, same] at apart
  have noRun : capitalRuns.find? (·.contains (r.capital + (n - r.first))) = none := by
    rw [List.find?_eq_none]
    intro s inTable
    have misses := List.all_eq_true.mp (List.all_eq_true.mp runs r known) s inTable
    simp [CapitalRun.contains_eq_false_of_misses misses listed]
  simp [capitalCodes, noKey, noRun]

private theorem toNat_ofNat {n : Nat} (valid : n.isValidChar) : (Char.ofNat n).toNat = n := by
  have whole : Char.ofNat n = Char.ofNatAux n valid := dif_pos valid
  rw [whole]
  rfl

private theorem isCapital_of_run {r : CapitalRun} (known : r ∈ capitalRuns) {n : Nat}
    (listed : r.contains n) : isCapital (r.capital + (n - r.first)) := by
  have bounds : ∀ r ∈ capitalRuns,
      (128 ≤ r.capital ∧ r.capital + (r.last - r.first) < 0xD800) ∨
        (0xE000 ≤ r.capital ∧ r.capital + (r.last - r.first) < 0x110000) ∨
        (r.first = r.last ∧ isCapital r.capital) := by
    decide +kernel
  have codes := capitalCodes_of_run known listed
  simp only [CapitalRun.contains, Bool.and_eq_true, decide_eq_true_eq] at listed
  have beyond : ∀ m, 128 ≤ m → m.isValidChar → capitalCodes m = [m] → isCapital m := by
    intro m high valid own
    have large : ¬ m < 128 := by omega
    simp [isCapital, upperChar, toNat_ofNat valid, large, own]
  rcases bounds r known with ⟨low, high⟩ | ⟨low, high⟩ | ⟨single, capital⟩
  · exact beyond _ (by omega) (Or.inl (by omega)) codes
  · exact beyond _ (by omega) (Or.inr ⟨by omega, by omega⟩) codes
  · have first : n - r.first = 0 := by omega
    rw [first]
    exact capital

private theorem isCapital_of_mem_capitalCodes {c : Char} (beyond : ¬ c.toNat < 128) {code : Nat}
    (found : code ∈ capitalCodes c.toNat) : isCapital code := by
  cases entry : capitalExpansions.lookup c.toNat with
  | some codes =>
    have inTable : code ∈ codes := by simpa [capitalCodes, entry] using found
    exact isCapital_of_expansion entry inTable
  | none =>
    cases run : capitalRuns.find? (·.contains c.toNat) with
    | some r =>
      have same : code = r.capital + (c.toNat - r.first) := by
        simpa [capitalCodes, entry, run] using found
      have listed := List.find?_some run
      exact same ▸ isCapital_of_run (List.mem_of_find?_eq_some run) listed
    | none =>
      have same : code = c.toNat := by simpa [capitalCodes, entry, run] using found
      have own : capitalCodes c.toNat = [c.toNat] := by simp [capitalCodes, entry, run]
      simp [same, isCapital, upperChar, beyond, own]

theorem upper_upperChar (c : Char) : upper (upperChar c) = upperChar c := by
  by_cases ascii : c.toNat < 128
  · have form : upperChar c = [c.toUpper] := if_pos ascii
    have again : c.toUpper.toUpper = c.toUpper ∧ c.toUpper.toNat < 128 := by
      rcases toUpper_cases c with ⟨low, high, code⟩ | ⟨_, same⟩
      · rcases toUpper_cases c.toUpper with ⟨low', _, _⟩ | ⟨_, same⟩
        · omega
        · exact ⟨same, by omega⟩
      · rw [same]
        exact ⟨same, ascii⟩
    rw [form]
    simp [upper, upperChar, again.1, again.2]
  · have form : upperChar c = (capitalCodes c.toNat).map Char.ofNat := if_neg ascii
    have own : ∀ code ∈ capitalCodes c.toNat, upperChar (Char.ofNat code) = [Char.ofNat code] := by
      intro code found
      have capital := isCapital_of_mem_capitalCodes ascii found
      simpa [isCapital] using capital
    rw [form, upper, List.flatMap_map, List.flatMap_congr own, List.map_eq_flatMap]

theorem upperChar_ne_nil (c : Char) : upperChar c ≠ [] := by
  have table : ∀ entry ∈ capitalExpansions, entry.2 ≠ [] := by decide +kernel
  unfold upperChar
  split
  · simp
  · rw [Ne, List.map_eq_nil_iff, capitalCodes]
    split
    · rename_i codes entry
      obtain ⟨before, after, inTable, -⟩ := List.lookup_eq_some_iff.mp entry
      exact table (c.toNat, codes) (by rw [inTable]; simp)
    · split <;> simp

private def CapitalRun.capitals (r : CapitalRun) : CodeRange :=
  ⟨r.capital, r.capital + (r.last - r.first)⟩

private theorem isBlank_of_run {r : CapitalRun} (known : r ∈ capitalRuns) {n : Nat}
    (listed : r.contains n) : isBlank (Char.ofNat (r.capital + (n - r.first))) = false := by
  have table : apart (capitalRuns.map CapitalRun.capitals) blankRanges := by decide +kernel
  by_cases valid : (r.capital + (n - r.first)).isValidChar
  · apply within_eq_false_of_apart table
    apply List.any_eq_true.mpr
    refine ⟨r.capitals, List.mem_map_of_mem known, ?_⟩
    simp only [CapitalRun.contains, Bool.and_eq_true, decide_eq_true_eq] at listed
    simp only [toNat_ofNat valid, CodeRange.contains, CapitalRun.capitals, Bool.and_eq_true,
      decide_eq_true_eq]
    omega
  · have absent : Char.ofNat (r.capital + (n - r.first)) = '\x00' := dif_neg valid
    rw [absent]
    rfl

private theorem isBlank_of_mem_capitalCodes {c : Char} (visible : isBlank c = false) {code : Nat}
    (found : code ∈ capitalCodes c.toNat) : isBlank (Char.ofNat code) = false := by
  have table : ∀ entry ∈ capitalExpansions, ∀ code ∈ entry.2,
      isBlank (Char.ofNat code) = false := by
    decide +kernel
  unfold capitalCodes at found
  split at found
  · rename_i codes entry
    obtain ⟨before, after, split, -⟩ := List.lookup_eq_some_iff.mp entry
    exact table (c.toNat, codes) (by rw [split]; simp) code found
  · split at found
    · rename_i r run
      rw [List.mem_singleton.mp found]
      have listed := List.find?_some run
      exact isBlank_of_run (List.mem_of_find?_eq_some run) listed
    · rw [List.mem_singleton.mp found, Char.ofNat_toNat]
      exact visible

theorem isBlank_of_mem_upperChar {c e : Char} (visible : isBlank c = false)
    (found : e ∈ upperChar c) : isBlank e = false := by
  unfold upperChar at found
  split at found
  · rw [List.mem_singleton.mp found]
    rcases toUpper_cases c with ⟨low, high, code⟩ | ⟨-, same⟩
    · have letter : within [⟨65, 90⟩] c.toUpper := by
        simp only [within, CodeRange.contains, List.any_cons, List.any_nil, Bool.or_false,
          Bool.and_eq_true, decide_eq_true_eq]
        omega
      exact within_eq_false_of_apart (by decide) letter
    · rw [same]
      exact visible
  · obtain ⟨code, inCodes, rfl⟩ := List.mem_map.mp found
    exact isBlank_of_mem_capitalCodes visible inCodes

theorem upper_eq_nil_iff {t : Text} : upper t = [] ↔ t = [] := by
  cases t with
  | nil => simp [upper]
  | cons c t => simp [upper, upperChar_ne_nil]

theorem upper_append (s t : Text) : upper (s ++ t) = upper s ++ upper t :=
  List.flatMap_append

theorem upper_upper (t : Text) : upper (upper t) = upper t := by
  induction t with
  | nil => rfl
  | cons c t ih =>
    have split : upper (c :: t) = upperChar c ++ upper t := List.flatMap_cons
    rw [split, upper_append, upper_upperChar, ih]

end QueryTidy.Text
