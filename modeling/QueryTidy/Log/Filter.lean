import QueryTidy.Log.Event
import QueryTidy.Text.Digits
import QueryTidy.Text.WordChar

/-!
Which events are shown. A filter is a list of directives, each of which sets how much detail is
shown of the areas whose names begin with its text; the longest such text decides.
-/

set_option autoImplicit false
set_option relaxedAutoImplicit false

namespace QueryTidy.Log

/-- Shows events up to some detail of the areas that begin with a text; without one, of all. -/
structure Directive where
  area : Option Text
  detail : Nat
deriving DecidableEq

/-- Directives; of those for the same areas the last one counts. -/
abbrev Filter := List Directive

def lowerAscii (t : Text) : Text :=
  t.map Char.toLower

def detail? (t : Text) : Option Nat :=
  match (Text.readNumber t).toOption.filter (· ≤ Level.trace.detail) with
  | some n => some n
  | none =>
    if lowerAscii t = "off".toList then some 0
    else (Level.all.find? fun l => lowerAscii l.label == lowerAscii t).map Level.detail

def opensDirective (c : Char) : Bool :=
  c ∈ ['-', ':', '_', '['] || Text.isAlphanumeric c

namespace Directive

/-- Reads a directive: a detail, an area, or both with an equals sign between them. Blanks belong to
what they stand beside, and no blank stands in front of an area with a detail. -/
def parse? (t : Text) : Option Directive :=
  if !((Text.trim t).head?.any opensDirective) then none
  else
    let name := t.takeWhile (· != '=')
    match t.dropWhile (· != '=') with
    | [] =>
      match detail? name with
      | some detail => some ⟨none, detail⟩
      | none => some ⟨some name, Level.trace.detail⟩
    | _ :: value =>
      if t.head?.any Text.isBlank then none
      else if value.isEmpty then some ⟨some name, Level.trace.detail⟩
      else (detail? value).map (⟨some name, ·⟩)

def covers (d : Directive) (area : Text) : Bool :=
  match d.area with
  | some start => start.isPrefixOf area
  | none => true

def weight (d : Directive) : Nat :=
  match d.area with
  | some start => start.length + 1
  | none => 0

end Directive

namespace Filter

def verbosityText (verbosity : Nat) : Text :=
  match verbosity with
  | 0 => "sql_query_helper=warn".toList
  | 1 => "sql_query_helper=debug".toList
  | _ => "sql_query_helper=trace".toList

/-- Reads a filter; without any directive only errors are shown. -/
def parse? (t : Text) : Option Filter := do
  let directives ← ((Text.splitAt ',' t).filter (!·.isEmpty)).mapM Directive.parse?
  return if directives.isEmpty then [⟨none, Level.error.detail⟩] else directives

/-- The narrower of two directives, or the second one if they are equally narrow. -/
def narrower (best : Option Directive) (d : Directive) : Option Directive :=
  match best with
  | some b => if d.weight < b.weight then some b else some d
  | none => some d

def deciding? (f : Filter) (area : Text) : Option Directive :=
  (f.filter (·.covers area)).foldl narrower none

def shows (f : Filter) (e : Event) : Bool :=
  match f.deciding? e.area with
  | some d => e.level.detail ≤ d.detail
  | none => false

def choose (asked : Option Text) (verbosity : Nat) : Filter :=
  ((asked.bind parse?).orElse fun _ => parse? (verbosityText verbosity)).getD []

end Filter

end QueryTidy.Log
