import QueryTidy.Proofs.Text.Keyed
import QueryTidy.Proofs.Toml.Place
import QueryTidy.Toml.Document

/-!
Sections of a document. Every expression looks at one member of the document and places that member
anew, so what a document says outside a section neither sees that section nor touches it. A section
that holds a table of strings is read as that table in ascending order of its keys.
-/

set_option autoImplicit false
set_option relaxedAutoImplicit false

namespace QueryTidy.Toml

/-- Whether two attempts to change members fail together, or place the same member under a key. -/
def SameMember (key : Text) (members members' : Members) (changed changed' : Option Members) :
    Prop :=
  (changed = none ∧ changed' = none) ∨
    ∃ node, changed = some (place key node members) ∧ changed' = some (place key node members')

/-- Whether a change of members looks at the member under one key, and places that member anew or
fails. -/
def ActsOn (key : Text) (change : Members → Option Members) : Prop :=
  ∀ members members', members.lookup key = members'.lookup key →
    SameMember key members members' (change members) (change members')

namespace Members

private theorem sameMember_map (key : Text) (members members' : Members)
    (inside : Option Members) (wrap : Members → Node) :
    SameMember key members members' (inside.map fun inner => place key (wrap inner) members)
      (inside.map fun inner => place key (wrap inner) members') := by
  cases inside with
  | none => exact Or.inl ⟨rfl, rfl⟩
  | some inner => exact Or.inr ⟨wrap inner, rfl, rfl⟩

theorem update_actsOn (dotted : Bool) (change : Origin → Members → Option Members) (key : Text)
    (path : List Text) (origin : Origin) :
    ActsOn key (update dotted change (key :: path) origin) := by
  intro members members' same
  rw [update, update, ← same]
  cases members.lookup key with
  | none => exact sameMember_map key members members' _ _
  | some found =>
    cases found with
    | value v => exact Or.inl ⟨rfl, rfl⟩
    | table known inner =>
      dsimp only
      split
      · exact Or.inl ⟨rfl, rfl⟩
      · exact sameMember_map key members members' _ _
    | tables items =>
      dsimp only
      cases items.getLast? with
      | none => exact Or.inl ⟨rfl, rfl⟩
      | some last => exact sameMember_map key members members' _ _

theorem add_actsOn (key : Text) (node : Node) : ActsOn key (add key node) := by
  intro members members' same
  rw [add, add, ← same]
  split
  · exact Or.inl ⟨rfl, rfl⟩
  · exact Or.inr ⟨node, rfl, rfl⟩

theorem assign_actsOn (key : Text) (keys : List Text) (v : Value) :
    ActsOn key (assign (key :: keys) v) := by
  cases keys with
  | nil => exact add_actsOn key (.value v)
  | cons second keys => exact update_actsOn true _ key (second :: keys).dropLast .header

theorem openTable_actsOn (key : Text) (keys : List Text) :
    ActsOn key (openTable (key :: keys)) := by
  cases keys with
  | nil =>
    intro members members' same
    simp only [openTable, List.getLast?_singleton, List.dropLast_singleton, update, ← same]
    split
    · exact Or.inr ⟨_, rfl, rfl⟩
    · exact Or.inr ⟨_, rfl, rfl⟩
    · exact Or.inl ⟨rfl, rfl⟩
  | cons second keys => exact update_actsOn false _ key (second :: keys).dropLast .header

theorem openItem_actsOn (key : Text) (keys : List Text) : ActsOn key (openItem (key :: keys)) := by
  cases keys with
  | nil =>
    intro members members' same
    simp only [openItem, List.getLast?_singleton, List.dropLast_singleton, update, ← same]
    split
    · exact Or.inr ⟨_, rfl, rfl⟩
    · exact Or.inr ⟨_, rfl, rfl⟩
    · exact Or.inl ⟨rfl, rfl⟩
  | cons second keys => exact update_actsOn false _ key (second :: keys).dropLast .header

end Members

def Expression.topic? (location : List Text) : Expression → Option Text
  | .assignment keys _ => (location ++ keys).head?
  | .header keys | .arrayHeader keys => keys.head?

def Expression.behind (location : List Text) : Expression → List Text
  | .assignment .. => location
  | .header keys | .arrayHeader keys => keys

/-- Whether expressions behind a header say nothing about a section. -/
def Avoids (name : Text) : List Text → List Expression → Prop
  | _, [] => True
  | location, e :: rest => e.topic? location ≠ some name ∧ Avoids name (e.behind location) rest

instance decidableAvoids (name : Text) :
    ∀ location found, Decidable (Avoids name location found)
  | _, [] => isTrue trivial
  | location, e :: rest =>
    have := decidableAvoids name (e.behind location) rest
    inferInstanceAs (Decidable (_ ∧ _))

def Expression.change (location : List Text) : Expression → Members → Option Members
  | .assignment keys v => Members.update false (fun _ inner => inner.assign keys v) location .header
  | .header keys => Members.openTable keys
  | .arrayHeader keys => Members.openItem keys

theorem Reading.apply_eq (members : Members) (location : List Text) (e : Expression) :
    Reading.apply ⟨members, location⟩ e =
      (e.change location members).map fun members => ⟨members, e.behind location⟩ := by
  cases e <;> rfl

theorem Expression.change_cases (location : List Text) (e : Expression) :
    (∃ key, e.topic? location = some key ∧ ActsOn key (e.change location)) ∨
      ∀ members, e.change location members = none := by
  cases e with
  | assignment keys v =>
    cases location with
    | nil =>
      cases keys with
      | nil => exact Or.inr fun _ => rfl
      | cons key keys => exact Or.inl ⟨key, rfl, Members.assign_actsOn key keys v⟩
    | cons key path => exact Or.inl ⟨key, rfl, Members.update_actsOn false _ key path .header⟩
  | header keys =>
    cases keys with
    | nil => exact Or.inr fun _ => rfl
    | cons key keys => exact Or.inl ⟨key, rfl, Members.openTable_actsOn key keys⟩
  | arrayHeader keys =>
    cases keys with
    | nil => exact Or.inr fun _ => rfl
    | cons key keys => exact Or.inl ⟨key, rfl, Members.openItem_actsOn key keys⟩

variable {name : Text} {node : Node} {location : List Text} {e : Expression}
  {found : List Expression} {members : Members}

theorem Expression.change_place (elsewhere : e.topic? location ≠ some name) (node : Node)
    (members : Members) :
    e.change location (place name node members) =
      (e.change location members).map (place name node) := by
  rcases e.change_cases location with ⟨key, about, acts⟩ | fails
  · have differ : key ≠ name := by
      rintro rfl
      exact elsewhere about
    rcases acts _ members (lookup_place_of_ne differ node members) with
      ⟨failed, failed'⟩ | ⟨placed, done, done'⟩
    · rw [failed, failed']
      rfl
    · rw [done, done', place_comm differ]
      rfl
  · rw [fails, fails]
    rfl

theorem Expression.lookup_change (elsewhere : e.topic? location ≠ some name) {changed : Members}
    (done : e.change location members = some changed) :
    changed.lookup name = members.lookup name := by
  rcases e.change_cases location with ⟨key, about, acts⟩ | fails
  · have differ : name ≠ key := by
      rintro rfl
      exact elsewhere about
    rcases acts members members rfl with ⟨failed, -⟩ | ⟨placed, done', -⟩
    · rw [failed] at done
      contradiction
    · rw [done'] at done
      rw [← Option.some.inj done, lookup_place_of_ne differ]
  · rw [fails] at done
    contradiction

theorem Reading.run_cons (members : Members) (location : List Text) (e : Expression)
    (found : List Expression) :
    Reading.run ⟨members, location⟩ (e :: found) =
      (e.change location members).bind fun members =>
        Reading.run ⟨members, e.behind location⟩ found := by
  rw [run, List.foldlM_cons, apply_eq]
  cases e.change location members <;> rfl

theorem Reading.run_append (r : Reading) (found later : List Expression) :
    r.run (found ++ later) = (r.run found).bind fun r => r.run later := by
  rw [run, List.foldlM_append]
  rfl

def Reading.place (name : Text) (node : Node) (r : Reading) : Reading :=
  { r with members := Toml.place name node r.members }

theorem Reading.run_place (avoids : Avoids name location found) (node : Node) (members : Members) :
    Reading.run ⟨Toml.place name node members, location⟩ found =
      (Reading.run ⟨members, location⟩ found).map (Reading.place name node) := by
  induction found generalizing location members with
  | nil => rfl
  | cons e found ih =>
    obtain ⟨elsewhere, rest⟩ := avoids
    rw [run_cons, run_cons, Expression.change_place elsewhere]
    cases e.change location members with
    | none => rfl
    | some changed => exact ih rest changed

theorem Reading.lookup_run (avoids : Avoids name location found) {r : Reading}
    (done : Reading.run ⟨members, location⟩ found = some r) :
    r.members.lookup name = members.lookup name := by
  induction found generalizing location members with
  | nil =>
    obtain rfl := Option.some.inj done
    rfl
  | cons e found ih =>
    obtain ⟨elsewhere, rest⟩ := avoids
    rw [run_cons] at done
    obtain ⟨changed, first, later⟩ := Option.bind_eq_some_iff.mp done
    rw [ih rest later, Expression.lookup_change elsewhere first]

/-- Behind the header of a section, expressions that avoid that section begin with a header of their
own, so it does not matter which header came before them. -/
theorem Reading.run_relocated {path : List Text} (avoids : Avoids name (name :: path) found)
    (members : Members) (location : List Text) :
    (Reading.run ⟨members, name :: path⟩ found).map Reading.members =
      (Reading.run ⟨members, location⟩ found).map Reading.members := by
  cases found with
  | nil => rfl
  | cons e found =>
    cases e with
    | assignment keys v => exact absurd rfl avoids.1
    | header keys => rfl
    | arrayHeader keys => rfl

def stringTable (name key : Text) (pairs : List (Text × Text)) : List Expression :=
  .header [name, key] :: pairs.map fun p => .assignment [p.1] (.string p.2)

def stringSection (key : Text) (pairs : List (Text × Text)) : Node :=
  .table .passage [(key, .table .header (pairs.map fun p => (p.1, .value (.string p.2))))]

private theorem change_header (key : Text) (absent : members.lookup name = none) :
    Expression.change location (.header [name, key]) members =
      some (place name (stringSection key []) members) := by
  change Members.update false _ [name] .header members = _
  rw [Members.update, absent]
  rfl

private theorem change_assignment {key k v : Text} {pairs : List (Text × Text)}
    (fresh : k ∉ pairs.map Prod.fst) (members : Members) :
    Expression.change [name, key] (.assignment [k] (.string v))
        (place name (stringSection key pairs) members) =
      some (place name (stringSection key (place k v pairs)) members) := by
  have unknown : (pairs.map fun p => (p.1, Node.value (.string p.2))).lookup k = none := by
    apply Text.lookup_eq_none_of_fresh
    rw [List.map_map]
    exact fresh
  have placed := map_place (fun v => Node.value (.string v)) k v pairs
  simp only [Expression.change, Members.update, lookup_place_self, stringSection,
    List.lookup_cons_self, Members.assign, Members.add, List.getLast?_singleton, unknown,
    place_place, place_cons_self, placed]
  rfl

theorem Reading.run_stringTable {key : Text} (pairs : List (Text × Text))
    (distinct : (pairs.map Prod.fst).Nodup) (absent : members.lookup name = none)
    (location : List Text) :
    Reading.run ⟨members, location⟩ (stringTable name key pairs) =
      some ⟨Toml.place name (stringSection key (arranged pairs)) members, [name, key]⟩ := by
  induction pairs using List.reverseRecOn with
  | nil =>
    rw [stringTable, List.map_nil, run_cons, change_header key absent]
    rfl
  | append_singleton pairs p ih =>
    have before : (pairs.map Prod.fst).Nodup := nodup_keys_of_append distinct
    have fresh : p.1 ∉ (arranged pairs).map Prod.fst :=
      fresh_of_perm (arranged_spec pairs before).1 distinct
    have split : stringTable name key (pairs ++ [p]) =
        stringTable name key pairs ++ [.assignment [p.1] (.string p.2)] := by
      simp only [stringTable, List.map_append, List.map_singleton, List.cons_append]
    rw [split, run_append, ih before, Option.bind_some, run_cons, change_assignment fresh,
      arranged_append]
    rfl

/-- A table of strings in a section that nothing else speaks of is found under the names of section
and table, and everything else is as it is without that section. -/
theorem tableOf?_stringTable {key : Text} {pairs : List (Text × Text)}
    {before after : List Expression} {others : List (Text × Value)}
    (distinct : (pairs.map Prod.fst).Nodup) (avoidsBefore : Avoids name [] before)
    (avoidsAfter : Avoids name [name, key] after)
    (rest : tableOf? (before ++ after) = some others) :
    tableOf? (before ++ stringTable name key pairs ++ after) =
      some (place name
        (.table [(key, .table ((arranged pairs).map fun p => (p.1, .string p.2)))]) others) := by
  obtain ⟨r, run, rfl⟩ := Option.map_eq_some_iff.mp rest
  rw [Reading.run_append] at run
  obtain ⟨⟨members, location⟩, first, second⟩ := Option.bind_eq_some_iff.mp run
  have absent : members.lookup name = none := Reading.lookup_run avoidsBefore first
  have relocated := Reading.run_relocated avoidsAfter members location
  rw [second] at relocated
  obtain ⟨r', later, same⟩ := Option.map_eq_some_iff.mp relocated
  rw [tableOf?, List.append_assoc, Reading.run_append, first, Option.bind_some, Reading.run_append,
    Reading.run_stringTable pairs distinct absent, Option.bind_some, Reading.run_place avoidsAfter,
    later, Option.map_some, Option.map_some]
  change some (closeMembers (place name _ r'.members)) = _
  rw [same, closeMembers_eq_map, map_place, closeMembers_eq_map]
  simp only [stringSection, Node.close, closeMembers_eq_map, List.map_cons, List.map_nil,
    List.map_map, Function.comp_def]

end QueryTidy.Toml
