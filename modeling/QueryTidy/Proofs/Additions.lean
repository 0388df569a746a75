import QueryTidy.Proofs.Acceptance

/-!
What further pairs make of the built-in dictionary, pair by pair. A pair that is not accepted
changes nothing, an accepted one replaces the correction of a known misspelling in its place or adds
a misspelling at the end. So the misspellings stand in the order in which they were accepted first,
and each has the correction that was accepted last.
-/

set_option autoImplicit false
set_option relaxedAutoImplicit false

namespace QueryTidy.Dictionary

open Text

/-- Whether a pair is accepted for a misspelling: this is its own one, trimmed and in capitals, it
is made of letters, numerals and low lines, and the correction is not blank. -/
def AcceptedAs (key : Text) (pair : Entry) : Prop :=
  upper (trim pair.1) = key ∧ IsName key ∧ trim pair.2 ≠ []

instance (key : Text) (pair : Entry) : Decidable (AcceptedAs key pair) :=
  inferInstanceAs (Decidable (_ ∧ _ ∧ _))

/-- How many pairs come before the first one that is accepted for a misspelling. -/
def firstAcceptance (extra : List Entry) (key : Text) : Nat :=
  extra.findIdx (AcceptedAs key ·)

/-- Whether a correction is that of the last pair which is accepted for a misspelling. -/
def LastAccepted (extra : List Entry) (key v : Text) : Prop :=
  ∃ before pair after, extra = before ++ pair :: after ∧ AcceptedAs key pair ∧
    (∀ later ∈ after, ¬AcceptedAs key later) ∧ v = upper (trim pair.2)

theorem acceptedAs_iff {key : Text} {pair : Entry} :
    AcceptedAs key pair ↔ acceptable (normalize pair) ∧ (normalize pair).1 = key := by
  rw [acceptable_iff, AcceptedAs, normalize, Ne, Ne, upper_eq_nil_iff]
  constructor
  · rintro ⟨rfl, name, some⟩
    exact ⟨⟨name, some⟩, rfl⟩
  · rintro ⟨⟨name, some⟩, rfl⟩
    exact ⟨rfl, name, some⟩

theorem registrations_concat (extra : List Entry) (pair : Entry) :
    registrations (extra ++ [pair]) =
      registrations extra ++ if acceptable (normalize pair) then [normalize pair] else [] := by
  by_cases accepts : acceptable (normalize pair) <;> simp [registrations, accepted, accepts]

theorem entries_concat (extra : List Entry) (pair : Entry) :
    (withExtra (extra ++ [pair])).entries =
      if acceptable (normalize pair) then register (withExtra extra).entries (normalize pair)
      else (withExtra extra).entries := by
  rw [withExtra_eq, withExtra_eq, registrations_concat]
  dsimp only
  rw [List.foldl_append]
  split
  · rw [List.foldl_cons, List.foldl_nil]
  · rw [List.foldl_nil]

theorem keys_concat (extra : List Entry) (pair : Entry) :
    (withExtra (extra ++ [pair])).entries.map Prod.fst =
      (withExtra extra).entries.map Prod.fst ++
        if acceptable (normalize pair) ∧ ¬(withExtra extra).Registers (normalize pair).1
        then [(normalize pair).1] else [] := by
  rw [entries_concat]
  unfold Registers
  by_cases accepts : acceptable (normalize pair)
  · rw [if_pos accepts, keys_register]
    by_cases known : (normalize pair).1 ∈ (withExtra extra).entries.map Prod.fst
    · rw [if_pos known, if_neg fun fresh => fresh.2 known, List.append_nil]
    · rw [if_neg known, if_pos ⟨accepts, known⟩]
  · rw [if_neg accepts, if_neg fun fresh => accepts fresh.1, List.append_nil]

theorem lookup_concat (extra : List Entry) (pair : Entry) (key : Text) :
    (withExtra (extra ++ [pair])).entries.lookup key =
      if AcceptedAs key pair then some (upper (trim pair.2))
      else (withExtra extra).entries.lookup key := by
  rw [entries_concat]
  by_cases accepts : acceptable (normalize pair)
  · rw [if_pos accepts, lookup_register]
    simp only [acceptedAs_iff, accepts, true_and, eq_comm]
    rfl
  · rw [if_neg accepts, if_neg fun found => accepts (acceptedAs_iff.mp found).1]

theorem entries_nil : (withExtra []).entries = builtinEntries := by
  decide +kernel

theorem registers_iff_acceptedAs {extra : List Entry} {key : Text} :
    (withExtra extra).Registers key ↔
      key ∈ builtinEntries.map Prod.fst ∨ ∃ pair ∈ extra, AcceptedAs key pair := by
  simp only [registers_iff, acceptedAs_iff]

section FirstAcceptance

variable {extra : List Entry} {key : Text}

theorem firstAcceptance_lt_iff :
    firstAcceptance extra key < extra.length ↔ ∃ pair ∈ extra, AcceptedAs key pair := by
  simp [firstAcceptance, List.findIdx_lt_length]

theorem firstAcceptance_concat_of_known (known : ∃ pair ∈ extra, AcceptedAs key pair)
    (pair : Entry) : firstAcceptance (extra ++ [pair]) key = firstAcceptance extra key := by
  rw [firstAcceptance, List.findIdx_append]
  exact if_pos (firstAcceptance_lt_iff.mpr known)

theorem firstAcceptance_concat_of_fresh (fresh : ¬∃ pair ∈ extra, AcceptedAs key pair)
    {pair : Entry} (accepts : AcceptedAs key pair) :
    firstAcceptance (extra ++ [pair]) key = extra.length := by
  rw [firstAcceptance, List.findIdx_append]
  refine (if_neg (mt firstAcceptance_lt_iff.mp fresh)).trans ?_
  simp [accepts]

end FirstAcceptance

/-- What is added to the built-in misspellings stands in the order of its first acceptances. -/
theorem exists_added (extra : List Entry) :
    ∃ added, (withExtra extra).entries.map Prod.fst = builtinEntries.map Prod.fst ++ added ∧
      (∀ key ∈ added, ∃ pair ∈ extra, AcceptedAs key pair) ∧
      added.Pairwise fun key key' => firstAcceptance extra key < firstAcceptance extra key' := by
  induction extra using List.reverseRecOn with
  | nil => exact ⟨[], by simp [entries_nil], by simp, List.Pairwise.nil⟩
  | append_singleton extra pair ih =>
    obtain ⟨added, keys, accepted, ordered⟩ := ih
    -- what was accepted before has its first acceptance where it was
    have kept : added.Pairwise fun key key' =>
        firstAcceptance (extra ++ [pair]) key < firstAcceptance (extra ++ [pair]) key' := by
      refine ordered.imp_of_mem fun inAdded inAdded' less => ?_
      rwa [firstAcceptance_concat_of_known (accepted _ inAdded),
        firstAcceptance_concat_of_known (accepted _ inAdded')]
    have accepted' : ∀ key ∈ added, ∃ other ∈ extra ++ [pair], AcceptedAs key other := by
      intro key inAdded
      obtain ⟨other, listed, accepts⟩ := accepted key inAdded
      exact ⟨other, List.mem_append_left _ listed, accepts⟩
    rw [keys_concat, keys]
    split
    · rename_i isNew
      obtain ⟨accepts, unknown⟩ := isNew
      -- an unknown misspelling was not accepted before, so its first acceptance is the last pair
      have here : AcceptedAs (normalize pair).1 pair := acceptedAs_iff.mpr ⟨accepts, rfl⟩
      have fresh : ¬∃ other ∈ extra, AcceptedAs (normalize pair).1 other :=
        fun found => unknown (registers_iff_acceptedAs.mpr (Or.inr found))
      refine ⟨added ++ [(normalize pair).1], List.append_assoc _ _ _, ?_, ?_⟩
      · intro key found
        rcases List.mem_append.mp found with inAdded | last
        · exact accepted' key inAdded
        · rw [List.mem_singleton.mp last]
          exact ⟨pair, by simp, here⟩
      · refine List.pairwise_append.mpr ⟨kept, List.pairwise_singleton _ _, ?_⟩
        intro key inAdded key' last
        rw [List.mem_singleton.mp last, firstAcceptance_concat_of_fresh fresh here,
          firstAcceptance_concat_of_known (accepted key inAdded)]
        exact firstAcceptance_lt_iff.mpr (accepted key inAdded)
    · exact ⟨added, List.append_nil _, accepted', kept⟩

theorem mem_added_iff {extra : List Entry} {added : List Text} {key : Text}
    (keys : (withExtra extra).entries.map Prod.fst = builtinEntries.map Prod.fst ++ added) :
    key ∈ added ↔
      key ∉ builtinEntries.map Prod.fst ∧ ∃ pair ∈ extra, AcceptedAs key pair := by
  have distinct := nodup_keys extra
  have registered : key ∈ builtinEntries.map Prod.fst ∨ key ∈ added ↔
      key ∈ builtinEntries.map Prod.fst ∨ ∃ pair ∈ extra, AcceptedAs key pair := by
    rw [← registers_iff_acceptedAs, Registers, keys, List.mem_append]
  rw [keys] at distinct
  have apart : key ∈ added → key ∉ builtinEntries.map Prod.fst :=
    fun found known => (List.nodup_append'.mp distinct).2.2 known found
  constructor
  · intro found
    exact ⟨apart found, (registered.mp (Or.inr found)).resolve_left (apart found)⟩
  · rintro ⟨unknown, accepted⟩
    exact (registered.mpr (Or.inr accepted)).resolve_left unknown

private theorem cut_concat {extra before after : List Entry} {pair other : Entry}
    (split : extra ++ [pair] = before ++ other :: after) :
    after = [] ∧ other = pair ∨
      ∃ after', after = after' ++ [pair] ∧ extra = before ++ other :: after' := by
  rcases List.eq_nil_or_concat after with rfl | ⟨after', last, rfl⟩
  · obtain ⟨-, same⟩ := List.append_inj' split rfl
    exact Or.inl ⟨rfl, (List.cons.inj same).1.symm⟩
  · rw [List.concat_eq_append, ← List.cons_append, ← List.append_assoc] at split
    obtain ⟨rest, same⟩ := List.append_inj' split rfl
    exact Or.inr ⟨after', by rw [List.concat_eq_append, same], rest⟩

section LastAccepted

variable {extra : List Entry} {pair : Entry} {key v : Text}

theorem lastAccepted_concat_of_accepted (accepts : AcceptedAs key pair) :
    LastAccepted (extra ++ [pair]) key v ↔ v = upper (trim pair.2) := by
  constructor
  · rintro ⟨before, other, after, split, -, none, rfl⟩
    rcases cut_concat split with ⟨-, rfl⟩ | ⟨after, rfl, -⟩
    · rfl
    · exact absurd accepts (none pair (by simp))
  · rintro rfl
    exact ⟨extra, pair, [], rfl, accepts, by simp, rfl⟩

theorem lastAccepted_concat_of_not (refused : ¬AcceptedAs key pair) :
    LastAccepted (extra ++ [pair]) key v ↔ LastAccepted extra key v := by
  constructor
  · rintro ⟨before, other, after, split, accepts, none, value⟩
    rcases cut_concat split with ⟨-, rfl⟩ | ⟨after, rfl, rfl⟩
    · contradiction
    · refine ⟨before, other, after, rfl, accepts, ?_, value⟩
      exact fun later inAfter => none later (by simp [inAfter])
  · rintro ⟨before, other, after, rfl, accepts, none, value⟩
    refine ⟨before, other, after ++ [pair], by simp, accepts, ?_, value⟩
    intro later found
    rcases List.mem_append.mp found with inAfter | last
    · exact none later inAfter
    · rwa [List.mem_singleton.mp last]

end LastAccepted

theorem lookup_eq_some_iff {extra : List Entry} {key v : Text} :
    (withExtra extra).entries.lookup key = some v ↔
      LastAccepted extra key v ∨
        (¬∃ pair ∈ extra, AcceptedAs key pair) ∧ (key, v) ∈ builtinEntries := by
  induction extra using List.reverseRecOn with
  | nil =>
    have distinct : (builtinEntries.map Prod.fst).Nodup := entries_nil ▸ nodup_keys []
    have none : ¬LastAccepted [] key v := by
      rintro ⟨before, pair, after, split, -⟩
      simp at split
    rw [entries_nil]
    simp only [none, List.not_mem_nil, false_and, exists_false, not_false_eq_true, true_and,
      false_or]
    exact ⟨mem_of_lookup, lookup_of_mem distinct⟩
  | append_singleton extra pair ih =>
    rw [lookup_concat]
    by_cases accepts : AcceptedAs key pair
    · rw [if_pos accepts, lastAccepted_concat_of_accepted accepts, Option.some.injEq, eq_comm]
      have known : ∃ other ∈ extra ++ [pair], AcceptedAs key other := ⟨pair, by simp, accepts⟩
      simp only [known, not_true_eq_false, false_and, or_false]
    · rw [if_neg accepts, lastAccepted_concat_of_not accepts, ih]
      simp [accepts, or_and_right, exists_or]

theorem ne_nil_of_registers {extra : List Entry} {key : Text}
    (registered : (withExtra extra).Registers key) : key ≠ [] := by
  rcases registers_iff_acceptedAs.mp registered with known | ⟨pair, -, -, name, -⟩
  · exact (isName_of_builtin known).1
  · exact name.1

/-- The misspellings of a dictionary are distinct and in capitals, first the built-in ones and then
the others in the order in which each was accepted first. A token has the correction of the pair
that was accepted last for its capitals, and if there is none, the built-in one. -/
theorem entries_withExtra (extra : List Entry) :
    let d := withExtra extra
    let keys := d.entries.map Prod.fst
    (keys.Nodup ∧ ∀ key ∈ keys, key ≠ [] ∧ upper key = key) ∧
    (keys.take 18 = builtinEntries.map Prod.fst ∧
      (∀ key, key ∈ keys.drop 18 ↔
        key ∉ builtinEntries.map Prod.fst ∧ ∃ pair ∈ extra, AcceptedAs key pair) ∧
      (keys.drop 18).Pairwise fun key key' =>
        firstAcceptance extra key < firstAcceptance extra key') ∧
    ∀ token v, d.correct? token = some v ↔ LastAccepted extra (upper token) v ∨
      (¬∃ pair ∈ extra, AcceptedAs (upper token) pair) ∧ (upper token, v) ∈ builtinEntries := by
  intro d keys
  obtain ⟨added, split, -, ordered⟩ := exists_added extra
  have first : keys.take 18 = builtinEntries.map Prod.fst :=
    (congrArg (List.take 18) split).trans (List.take_left' rfl)
  have rest : keys.drop 18 = added :=
    (congrArg (List.drop 18) split).trans (List.drop_left' rfl)
  rw [rest]
  refine ⟨⟨nodup_keys extra, fun key found => ?_⟩, ⟨first, fun key => mem_added_iff split, ordered⟩,
    fun token v => lookup_eq_some_iff⟩
  exact ⟨ne_nil_of_registers found, upper_key found⟩

theorem entries_withExtra_strasse :
    let extra := [(" straße".toList, "street".toList), ("x y".toList, "z".toList),
      ("selct".toList, "pick".toList), ("STRASSE ".toList, "road".toList),
      ("foo".toList, "bar".toList)]
    let d := withExtra extra
    let keys := d.entries.map Prod.fst
    keys.drop 18 = ["STRASSE".toList, "FOO".toList] ∧
      ("STRASSE".toList ∈ keys ∧ upper "STRASSE".toList = "STRASSE".toList) ∧
      firstAcceptance extra "STRASSE".toList < firstAcceptance extra "FOO".toList ∧
      d.correct? "Straße".toList = some "ROAD".toList ∧
      d.correct? "selct".toList = some "PICK".toList ∧
      d.correct? "selec".toList = some "SELECT".toList := by
  intro extra d keys
  have added : keys.drop 18 = ["STRASSE".toList, "FOO".toList] := by decide +kernel
  have member : "STRASSE".toList ∈ keys := by decide +kernel
  obtain ⟨⟨-, normal⟩, ⟨-, -, ordered⟩, found⟩ := entries_withExtra extra
  rw [added] at ordered
  refine ⟨added, ⟨member, (normal _ member).2⟩, ?_, (found _ _).mpr (Or.inl ?_),
    (found _ _).mpr (Or.inl ?_), (found _ _).mpr (Or.inr ?_)⟩
  · exact List.rel_of_pairwise_cons ordered (by simp)
  · exact ⟨extra.take 3, extra[3], extra.drop 4, rfl, by decide +kernel⟩
  · exact ⟨extra.take 2, extra[2], extra.drop 3, rfl, by decide +kernel⟩
  · decide +kernel

end QueryTidy.Dictionary
