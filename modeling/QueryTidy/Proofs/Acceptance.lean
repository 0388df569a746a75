import QueryTidy.Proofs.Check.Corrections
import QueryTidy.Proofs.Check.Trimming
import QueryTidy.Proofs.Registration
import QueryTidy.Proofs.Text.Classes

/-!
Which pairs are registered, and which registered misspellings can be met in a query. A misspelling
is accepted if it is made of letters, numerals and low lines, and it is met as a whole if it is made
of word characters. The two conditions agree on every misspelling without disputed characters; one
with a disputed character is not both accepted and met.
-/

set_option autoImplicit false
set_option relaxedAutoImplicit false

namespace QueryTidy.Dictionary

open Text

variable {extra : List Entry}

def Registers (d : Dictionary) (key : Text) : Prop :=
  key ∈ d.entries.map Prod.fst

instance (d : Dictionary) (key : Text) : Decidable (d.Registers key) :=
  inferInstanceAs (Decidable (_ ∈ _))

theorem acceptable_iff {entry : Entry} : acceptable entry ↔ IsName entry.1 ∧ entry.2 ≠ [] := by
  rw [acceptable, IsName]
  change (!entry.1.isEmpty && !entry.2.isEmpty && entry.1.all isNameChar) = true ↔ _
  simp only [Bool.and_eq_true, Bool.not_eq_true', List.isEmpty_eq_false_iff, List.all_eq_true]
  tauto

theorem registers_iff {key : Text} :
    (withExtra extra).Registers key ↔
      key ∈ builtinEntries.map Prod.fst ∨ ∃ pair ∈ extra, acceptable (normalize pair) ∧
        (normalize pair).1 = key := by
  rw [Registers, keys_withExtra, mem_firstOnes, registrations, List.map_append,
    List.mem_append]
  refine or_congr_right ?_
  constructor
  · intro found
    obtain ⟨entry, inAccepted, rfl⟩ := List.mem_map.mp found
    obtain ⟨inNormalized, accepts⟩ := List.mem_filter.mp inAccepted
    obtain ⟨pair, listed, rfl⟩ := List.mem_map.mp inNormalized
    exact ⟨pair, listed, accepts, rfl⟩
  · rintro ⟨pair, listed, accepts, rfl⟩
    exact List.mem_map_of_mem (List.mem_filter.mpr ⟨List.mem_map_of_mem listed, accepts⟩)

theorem isName_of_builtin {key : Text} (known : key ∈ builtinEntries.map Prod.fst) :
    IsName key := by
  have all : ∀ key ∈ builtinEntries.map Prod.fst, IsName key := by decide +kernel
  exact all key known

theorem upper_trim_ne_nil {t : Text} (visible : ∃ c ∈ t, isBlank c = false) :
    upper (trim t) ≠ [] := by
  rw [Ne, upper_eq_nil_iff]
  intro bare
  obtain ⟨front, back, split, blank, blank'⟩ := exists_trim t
  obtain ⟨c, inText, notBlank⟩ := visible
  rw [split, bare, List.nil_append] at inText
  have isBlank : isBlank c := (List.mem_append.mp inText).elim (blank c) (blank' c)
  rw [isBlank] at notBlank
  contradiction

theorem registers_iff_isName {pair : Entry} (listed : pair ∈ extra)
    (visible : ∃ c ∈ pair.2, isBlank c = false) :
    (withExtra extra).Registers (upper (trim pair.1)) ↔ IsName (upper (trim pair.1)) := by
  rw [registers_iff]
  constructor
  · rintro (known | ⟨other, -, accepts, same⟩)
    · exact isName_of_builtin known
    · rw [← same]
      exact (acceptable_iff.mp accepts).1
  · intro name
    refine Or.inr ⟨pair, listed, ?_, rfl⟩
    exact acceptable_iff.mpr ⟨name, upper_trim_ne_nil visible⟩

theorem nodup_keys (extra : List Entry) : ((withExtra extra).entries.map Prod.fst).Nodup := by
  rw [keys_withExtra]
  exact nodup_firstOnes _

theorem upper_key {key : Text} (registered : (withExtra extra).Registers key) :
    upper key = key := by
  have builtin : ∀ key ∈ builtinEntries.map Prod.fst, upper key = key := by decide +kernel
  rcases registers_iff.mp registered with known | ⟨pair, -, -, rfl⟩
  · exact builtin key known
  · exact upper_upper _

theorem correct?_key {entry : Entry} (registered : entry ∈ (withExtra extra).entries) :
    (withExtra extra).correct? entry.1 = some entry.2 := by
  rw [correct?, upper_key (List.mem_map_of_mem registered)]
  exact lookup_of_mem (nodup_keys extra) registered

theorem isWord_of_named {d : Dictionary} {key v : Text} (capitals : upper key = key)
    (found : Check.misspellingOf key v ∈ Check.run d .misspelledKeyword key) : IsWord key := by
  obtain ⟨w, inWords, reported⟩ := List.mem_filterMap.mp found
  obtain ⟨fixed, -, same⟩ := Option.map_eq_some_iff.mp reported
  have named : upper w = key := List.append_cancel_left (congrArg Finding.message same)
  have inPieces := mem_words.mp inWords
  obtain ⟨a, b, whole⟩ := exists_append_of_mem_pieces inPieces
  -- the capitals of the word are the whole text, so those around it leave nothing over
  have size : (upper a).length + ((upper w).length + (upper b).length) = (upper w).length := by
    have parts := congrArg upper whole
    rw [capitals, upper_append, upper_append] at parts
    rw [← List.length_append, ← List.length_append, ← parts, named]
  have left : a = [] := upper_eq_nil_iff.mp (List.length_eq_zero_iff.mp (by omega))
  have right : b = [] := upper_eq_nil_iff.mp (List.length_eq_zero_iff.mp (by omega))
  rw [left, right, List.nil_append, List.append_nil] at whole
  rw [whole]
  exact (cut_pieces key).proper _ inPieces

theorem run_key {entry : Entry} (registered : entry ∈ (withExtra extra).entries)
    (word : IsWord entry.1) :
    Check.run (withExtra extra) .misspelledKeyword entry.1 =
      [Check.misspellingOf entry.1 entry.2] := by
  have own : words entry.1 = [entry.1] := by rw [words, pieces_of_isWord word]; rfl
  change (words entry.1).filterMap (Check.misspelling? _) = _
  rw [own, List.filterMap_cons, misspelling?_eq, slip?_word (correct?_key registered),
    Option.map_some, Slip.finding, upper_key (List.mem_map_of_mem registered)]
  rfl

theorem correctText_key {entry : Entry} (registered : entry ∈ (withExtra extra).entries)
    (word : IsWord entry.1) : (withExtra extra).correctText entry.1 = entry.2 :=
  correctText_of_isWord word (correct?_key registered)

/-- A pair with a visible correction is registered exactly if its misspelling, in capitals and
without blanks at its ends, is made of letters, numerals and low lines. Without disputed characters
this means that the misspelling is one word, and with some it never does. A registered misspelling
is corrected and reported as a whole exactly if it is one word. -/
theorem registered_by_name (extra : List Entry) :
    (∀ pair ∈ extra, (∃ c ∈ pair.2, isBlank c = false) →
      ((withExtra extra).Registers (upper (trim pair.1)) ↔ IsName (upper (trim pair.1))) ∧
      ((∀ c ∈ upper (trim pair.1), ¬Disputed c) →
        ((withExtra extra).Registers (upper (trim pair.1)) ↔ IsWord (upper (trim pair.1)))) ∧
      ((∃ c ∈ upper (trim pair.1), Disputed c) →
        ¬((withExtra extra).Registers (upper (trim pair.1)) ∧ IsWord (upper (trim pair.1))))) ∧
    ∀ entry ∈ (withExtra extra).entries,
      (IsWord entry.1 → (withExtra extra).correctText entry.1 = entry.2) ∧
      (IsWord entry.1 ↔ Check.run (withExtra extra) .misspelledKeyword entry.1 =
        [Check.misspellingOf entry.1 entry.2]) := by
  refine ⟨fun pair listed visible => ?_, fun entry registered => ?_⟩
  · have accepted := registers_iff_isName listed visible
    refine ⟨accepted, fun settled => accepted.trans (isName_iff_isWord settled), ?_⟩
    rintro ⟨c, inKey, disputed⟩ ⟨registered, word⟩
    exact (accepted.mp registered).not_isWord inKey disputed word
  · refine ⟨correctText_key registered, run_key registered, fun alone => ?_⟩
    apply isWord_of_named (upper_key (List.mem_map_of_mem registered))
    rw [alone]
    exact List.mem_singleton_self _

theorem registered_by_name_strasse :
    let padded := (" straße_2".toList, " street ".toList)
    let fraction := (['½'], "half".toList)
    let d := withExtra [padded, fraction]
    upper (trim padded.1) = "STRASSE_2".toList ∧
      (d.Registers "STRASSE_2".toList ↔ IsWord "STRASSE_2".toList) ∧
      d.Registers "STRASSE_2".toList ∧
      d.correctText "STRASSE_2".toList = "STREET".toList ∧
      Check.run d .misspelledKeyword "STRASSE_2".toList =
        [Check.misspellingOf "STRASSE_2".toList "STREET".toList] ∧
      (d.Registers ['½'] ↔ IsName ['½']) ∧ ¬(d.Registers ['½'] ∧ IsWord ['½']) := by
  -- a padded misspelling whose capitals are longer than itself, beside a fraction
  intro padded fraction d
  have key : upper (trim padded.1) = "STRASSE_2".toList := by decide +kernel
  have alone : upper (trim fraction.1) = ['½'] := by decide +kernel
  have plain : "STRASSE_2".toList.all (¬Disputed ·) := by decide +kernel
  have settled : ∀ c ∈ "STRASSE_2".toList, ¬Disputed c := by
    simpa only [List.all_eq_true, decide_eq_true_eq] using plain
  have disputed : ∃ c ∈ ['½'], Disputed c := ⟨'½', by simp, by decide +kernel⟩
  have word : IsWord "STRASSE_2".toList := by decide +kernel
  have entry : ("STRASSE_2".toList, "STREET".toList) ∈ d.entries := by decide +kernel
  obtain ⟨pairs, entries⟩ := registered_by_name [padded, fraction]
  have first := (pairs padded (by simp) ⟨'s', by decide, by decide⟩).2.1
  have second := pairs fraction (by simp) ⟨'h', by decide, by decide⟩
  rw [key] at first
  rw [alone] at second
  obtain ⟨corrected, reported⟩ := entries _ entry
  exact ⟨key, first settled, (first settled).mpr word, corrected word, reported.mp word, second.1,
    second.2.2 disputed⟩

/-- A fraction is registered though it is no word, and never met; a word with a combining accent is
not registered. -/
theorem registration_misses_words :
    let d := withExtra [(['½'], "half".toList), ("cafe\u0301".toList, "coffee".toList)]
    upper (trim ['½']) = ['½'] ∧ d.Registers ['½'] ∧ ¬IsWord ['½'] ∧
      (['½'], "HALF".toList) ∈ d.entries ∧ d.correctText ['½'] = ['½'] ∧
      Check.run d .misspelledKeyword ['½'] = [] ∧
      upper (trim "cafe\u0301".toList) = "CAFE\u0301".toList ∧ IsWord "CAFE\u0301".toList ∧
      ¬d.Registers "CAFE\u0301".toList := by
  decide +kernel

end QueryTidy.Dictionary
