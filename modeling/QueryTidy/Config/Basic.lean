import QueryTidy.Analyzer
import QueryTidy.Text.Digits
import QueryTidy.Toml.Document
import QueryTidy.Toml.Range

/-!
The configuration, and how it is read from TOML. Each section may be a table of its settings or an
array of them in order; a setting that is missing takes its default. Members of a table that are not
known are ignored, except that their numbers must be in range.
-/

set_option autoImplicit false
set_option relaxedAutoImplicit false

namespace QueryTidy

/-- The settings of a run: the rules, the quiet period in milliseconds, and misspellings beyond the
built-in ones. -/
structure Config where
  rules : RuleSettings := {}
  debounce : Nat := 500
  extra : List Entry := []
deriving DecidableEq

namespace Config

open Toml

def dictionary (c : Config) : Dictionary :=
  Dictionary.withExtra c.extra

def analyzer (c : Config) : Analyzer :=
  ⟨c.rules, c.dictionary⟩

/-- The name under which a date is filed when a table is expected. -/
def dateKey : Text :=
  "$__toml_private_datetime".toList

def string? : Value → Option Text
  | .string t => some t
  | _ => none

def strings? : Value → Option (List Text)
  | .array items => items.mapM string?
  | _ => none

/-- Reads a table of strings; a date counts as a table with one member. -/
def stringTable? : Value → Option (List (Text × Text))
  | .table members => members.mapM fun (key, v) => (string? v).map (key, ·)
  | .date t => some [(dateKey, t)]
  | _ => none

def number? : Value → Option Nat
  | .integer n => if 0 ≤ n ∧ n.toNat < UInt64.size then some n.toNat else none
  | _ => none

/-- The settings of a section by their names, in which order an array gives them. -/
def settings? (names : List String) : Value → Option (List (Text × Value))
  | .table members =>
    let unknown := members.filter fun (key, _) => !(names.map String.toList).contains key
    if membersInRange unknown then some members else none
  | .array items => some ((names.map String.toList).zip items)
  | .date _ => some []
  | _ => none

def setting? {α : Type} (read : Value → Option α) (default : α) (name : String)
    (settings : List (Text × Value)) : Option α :=
  match settings.lookup name.toList with
  | some v => read v
  | none => some default

def rules? (v : Value) : Option RuleSettings := do
  let settings ← settings? ["disabled", "severity"] v
  let disabled ← setting? strings? [] "disabled" settings
  let severity ← setting? stringTable? [] "severity" settings
  some { disabled, severity }

def debounce? (v : Value) : Option Nat := do
  let settings ← settings? ["debounce_ms"] v
  setting? number? 500 "debounce_ms" settings

def extra? (v : Value) : Option (List Entry) := do
  let settings ← settings? ["extra"] v
  setting? stringTable? [] "extra" settings

def ofTable? (members : List (Text × Value)) : Option Config := do
  let sections ← settings? ["rules", "editor", "keywords"] (.table members)
  let rules ← setting? rules? {} "rules" sections
  let debounce ← setting? debounce? 500 "editor" sections
  let extra ← setting? extra? [] "keywords" sections
  some { rules, debounce, extra }

def parse? (t : Text) : Option Config :=
  (Toml.parse? t).bind ofTable?

/-- A configuration with the quiet period that a text outside it asks for; a text that is no number
changes nothing. -/
def withDebounce (c : Config) (t : Text) : Config :=
  match Text.readNumber (Text.trim t) with
  | .ok n => { c with debounce := n }
  | .error _ => c

end Config

end QueryTidy
