import QueryTidy.Config.Basic
import QueryTidy.Proofs.Registration
import QueryTidy.Proofs.Toml.Sections
import QueryTidy.Proofs.Toml.Writing

/-!
The further misspellings of a configuration file. They are registered in ascending order of their
keys, whatever the order in which the file writes them; so of keys that differ in case alone the
greatest one decides, and not the one that is written last.
-/

set_option autoImplicit false
set_option relaxedAutoImplicit false

namespace QueryTidy.Config

open Toml

def keywordsSection : Text :=
  "keywords".toList

def extraTable : Text :=
  "extra".toList

def extraValue (pairs : List Entry) : Value :=
  .table [(extraTable, .table (pairs.map fun p => (p.1, .string p.2)))]

theorem extra?_extraValue (pairs : List Entry) : extra? (extraValue pairs) = some pairs := by
  have table : stringTable? (.table (pairs.map fun p => (p.1, .string p.2))) = some pairs := by
    rw [stringTable?]
    induction pairs with
    | nil => rfl
    | cons p pairs ih =>
      rw [List.map_cons, List.mapM_cons, ih]
      rfl
  have settings : settings? ["extra"] (extraValue pairs) =
      some [(extraTable, .table (pairs.map fun p => (p.1, .string p.2)))] := rfl
  have found : setting? stringTable? [] "extra"
      [(extraTable, .table (pairs.map fun p => (p.1, .string p.2)))] =
      stringTable? (.table (pairs.map fun p => (p.1, .string p.2))) := rfl
  rw [extra?, settings]
  exact found.trans table

theorem settings?_place {names : List String} {key : Text} (known : key ∈ names.map String.toList)
    (v : Value) (members : List (Text × Value)) :
    settings? names (.table (place key v members)) =
      (settings? names (.table members)).map (place key v) := by
  have unselected : (!(names.map String.toList).contains key) = false := by simpa using known
  have unknown := filter_place (fun k => !(names.map String.toList).contains k) unselected v members
  change (if membersInRange ((place key v members).filter _) then _ else _) = _
  rw [unknown]
  change _ = (if membersInRange (members.filter _) then _ else _ : Option _).map _
  split <;> rfl

theorem setting?_place_self {α : Type} (read : Value → Option α) (default : α) (name : String)
    (v : Value) (members : List (Text × Value)) :
    setting? read default name (place name.toList v members) = read v := by
  rw [setting?, lookup_place_self]

theorem setting?_place_of_ne {α : Type} {key : Text} {name : String} (differ : name.toList ≠ key)
    (read : Value → Option α) (default : α) (v : Value) (members : List (Text × Value)) :
    setting? read default name (place key v members) = setting? read default name members := by
  rw [setting?, lookup_place_of_ne differ, setting?]

/-- The section about keywords adds its pairs to what the rest of a document configures. -/
theorem ofTable?_place {members : List (Text × Value)} {c : Config}
    (others : ofTable? members = some c) (pairs : List Entry) :
    ofTable? (place keywordsSection (extraValue pairs) members) =
      some { c with extra := pairs } := by
  obtain ⟨sections, read, others⟩ := Option.bind_eq_some_iff.mp others
  obtain ⟨rules, readRules, others⟩ := Option.bind_eq_some_iff.mp others
  obtain ⟨debounce, readDebounce, others⟩ := Option.bind_eq_some_iff.mp others
  obtain ⟨extra, -, config⟩ := Option.bind_eq_some_iff.mp others
  obtain rfl := Option.some.inj config
  have readExtra := (setting?_place_self extra? [] "keywords" (extraValue pairs) sections).trans
    (extra?_extraValue pairs)
  rw [ofTable?, settings?_place (by decide), read]
  simp only [Option.map_some, Option.bind_eq_bind, Option.bind_some]
  rw [setting?_place_of_ne (by decide), readRules, Option.bind_some,
    setting?_place_of_ne (by decide), readDebounce, Option.bind_some]
  change (setting? extra? [] "keywords" (place "keywords".toList _ sections)).bind _ = _
  rw [readExtra]
  rfl

/-- Whether a text writes pairs, in their order, as the table of further misspellings under a header
of its own, and configures something else besides. -/
def WritesExtra (t : Text) (pairs : List Entry) (others : Config) : Prop :=
  ∃ before after,
    expressionsOf? t = some (before ++ stringTable keywordsSection extraTable pairs ++ after) ∧
      Avoids keywordsSection [] before ∧
      Avoids keywordsSection [keywordsSection, extraTable] after ∧
      (tableOf? (before ++ after)).bind ofTable? = some others

theorem WritesExtra.parse? {t : Text} {pairs : List Entry} {others : Config}
    (writes : WritesExtra t pairs others) (distinct : (pairs.map Prod.fst).Nodup) :
    parse? t = some { others with extra := arranged pairs } := by
  obtain ⟨before, after, found, avoidsBefore, avoidsAfter, rest⟩ := writes
  obtain ⟨members, table, config⟩ := Option.bind_eq_some_iff.mp rest
  rw [Config.parse?, Toml.parse?, found, Option.bind_some,
    tableOf?_stringTable distinct avoidsBefore avoidsAfter table, Option.bind_some]
  exact ofTable?_place config (arranged pairs)

def writeExtra (pairs : List Entry) : Text :=
  "[keywords.extra]\n".toList ++ pairs.flatMap writeLine

theorem expression?_header (rest : Text) :
    expression? ("[keywords.extra]\n".toList ++ rest) =
      some (.header [keywordsSection, extraTable], '\n' :: rest) :=
  rfl

theorem expressionsOf?_writeExtra (pairs : List Entry) :
    expressionsOf? (writeExtra pairs) = some (stringTable keywordsSection extraTable pairs) := by
  have enough : pairs.length < (writeExtra pairs).length := length_lt_writeLines (by decide) pairs
  have start : skipTrivia? false (writeExtra pairs) = some (writeExtra pairs) := rfl
  have lineEnd : ∀ rest, endOfLine? false ('\n' :: rest) = some rest := fun _ => rfl
  have first : expression? (writeExtra pairs) = _ := expression?_header (pairs.flatMap writeLine)
  have filled : ∃ t, writeExtra pairs = '[' :: t := ⟨_, rfl⟩
  obtain ⟨t, written⟩ := filled
  rw [written] at first start enough ⊢
  change expressions? (('[' :: t).length + 1) ('[' :: t) = _
  rw [expressions?, start]
  simp only [first, Option.bind_eq_bind, Option.bind_some, lineEnd,
    expressions?_writeLines pairs enough, Option.map_some, stringTable]

theorem writesExtra_writeExtra (pairs : List Entry) : WritesExtra (writeExtra pairs) pairs {} := by
  refine ⟨[], [], ?_, trivial, trivial, rfl⟩
  rw [expressionsOf?_writeExtra, List.nil_append, List.append_nil]

/-- Pairs with distinct keys that a text writes as the table of further misspellings, and every such
list of pairs can be written, are registered in ascending order of their keys. This leads to the
dictionary of the written order exactly if both orders register the misspellings alike. -/
theorem extra_registered_by_key (pairs : List Entry) (distinct : (pairs.map Prod.fst).Nodup) :
    ∃ ordered : List Entry, ordered.Perm pairs ∧ (ordered.Pairwise fun a b => a.1 < b.1) ∧
      WritesExtra (writeExtra pairs) pairs {} ∧
      ∀ t others, WritesExtra t pairs others →
        ∃ c, parse? t = some c ∧ c = { others with extra := ordered } ∧
          c.dictionary = Dictionary.withExtra ordered ∧
          (c.dictionary = Dictionary.withExtra pairs ↔
            Dictionary.SameRegistration ordered pairs) := by
  obtain ⟨perm, ascending⟩ := arranged_spec pairs distinct
  refine ⟨arranged pairs, perm, ascending, writesExtra_writeExtra pairs, fun t others writes => ?_⟩
  exact ⟨_, writes.parse? distinct, rfl, rfl, Dictionary.withExtra_eq_iff⟩

theorem extra_registered_by_key_beside_rules :
    let t := "[keywords.extra]\nab = 'x'\n\"AB\" = \"y\" # z\n[rules]\ndisabled = ['z']\n".toList
    let pairs := [("ab".toList, "x".toList), ("AB".toList, "y".toList)]
    let others : Config := { rules := ⟨[['z']], []⟩ }
    (pairs.map Prod.fst).Nodup ∧ WritesExtra t pairs others ∧
      ∃ c, parse? t = some c ∧ c = { others with extra := pairs.reverse } ∧
        c.dictionary.correct? "Ab".toList = some "X".toList ∧
        (c.dictionary = Dictionary.withExtra pairs ↔
          Dictionary.SameRegistration pairs.reverse pairs) := by
  -- two keys that differ in case alone, spelt in different quotes, before another section
  intro t pairs others
  have distinct : (pairs.map Prod.fst).Nodup := by decide
  have found : expressionsOf?
      "[keywords.extra]\nab = 'x'\n\"AB\" = \"y\" # z\n[rules]\ndisabled = ['z']\n".toList =
      some ([] ++ stringTable "keywords".toList "extra".toList
        [("ab".toList, "x".toList), ("AB".toList, "y".toList)] ++
        [.header ["rules".toList], .assignment ["disabled".toList] (.array [.string ['z']])]) := by
    with_unfolding_all rfl
  have writes : WritesExtra t pairs others := ⟨_, _, found, by decide, by decide, by decide +kernel⟩
  have read : parse? t = some { others with extra := pairs.reverse } := by decide +kernel
  obtain ⟨ordered, -, -, -, all⟩ := extra_registered_by_key pairs distinct
  obtain ⟨c, parsed, config, -, alike⟩ := all t others writes
  obtain rfl : c = { others with extra := pairs.reverse } :=
    Option.some.inj (parsed.symm.trans read)
  obtain rfl : pairs.reverse = ordered := congrArg Config.extra config
  exact ⟨distinct, writes, _, read, rfl, by decide +kernel, alike⟩

/-- The key that is written last does not decide over one that differs from it in case alone. -/
theorem extra_order_of_file_lost :
    let t := "[keywords.extra]\n\"foo\" = \"bar\"\n\"FOO\" = \"baz\"\n".toList
    let pairs := [("foo".toList, "bar".toList), ("FOO".toList, "baz".toList)]
    (pairs.map Prod.fst).Nodup ∧ WritesExtra t pairs {} ∧
      ∃ c, parse? t = some c ∧ c.dictionary ≠ Dictionary.withExtra pairs ∧
        c.dictionary.correct? "foo".toList = some "BAR".toList ∧
        (Dictionary.withExtra pairs).correct? "foo".toList = some "BAZ".toList := by
  intro t pairs
  have written : writeExtra pairs = t := by decide +kernel
  have writes : WritesExtra t pairs {} := written ▸ writesExtra_writeExtra pairs
  exact ⟨by decide, writes, { extra := pairs.reverse }, by decide +kernel, by decide +kernel,
    by decide +kernel, by decide +kernel⟩

end QueryTidy.Config
