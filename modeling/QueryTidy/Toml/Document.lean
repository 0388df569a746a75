import QueryTidy.Toml.Expression

/-!
Whole documents: the expressions of a text, applied one after the other. Assignments go to the table
under the last header.
-/

set_option autoImplicit false
set_option relaxedAutoImplicit false

namespace QueryTidy.Toml

/-- The tables read so far, and the keys of the last header. -/
structure Reading where
  members : Members
  location : List Text

def Reading.apply (r : Reading) : Expression → Option Reading
  | .assignment keys v =>
    (r.members.update false (fun _ inner => inner.assign keys v) r.location .header).map
      fun members => { r with members }
  | .header keys => (r.members.openTable keys).map fun members => ⟨members, keys⟩
  | .arrayHeader keys => (r.members.openItem keys).map fun members => ⟨members, keys⟩

def Reading.run (r : Reading) (found : List Expression) : Option Reading :=
  found.foldlM Reading.apply r

def tableOf? (found : List Expression) : Option (List (Text × Value)) :=
  (Reading.run ⟨[], []⟩ found).map fun r => closeMembers r.members

/-- The expressions of a text; a byte order mark at its start is skipped. -/
def expressionsOf? (t : Text) : Option (List Expression) :=
  let t := if t.head? = some '\ufeff' then t.drop 1 else t
  expressions? (t.length + 1) t

def parse? (t : Text) : Option (List (Text × Value)) :=
  (expressionsOf? t).bind tableOf?

end QueryTidy.Toml
