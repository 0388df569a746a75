import QueryTidy.Command.Input
import QueryTidy.Config.Basic
import QueryTidy.Report.Render

/-!
The command that checks queries and reports what it finds. The inputs may be read in any order; the
reports are in the order in which the inputs are named.
-/

set_option autoImplicit false
set_option relaxedAutoImplicit false

namespace QueryTidy.Command

structure Output where
  exitCode : Nat
  stdout : Option Text
deriving DecidableEq

def report (a : Analyzer) (input : Text × Text) : Report :=
  ⟨sourceName input.1, a.analyze input.2⟩

def output (config : Config) (terminal : Bool) (options : Report.Options)
    (inputs : List (Text × Text)) : Output :=
  let reports := inputs.map (report config.analyzer)
  ⟨Report.exitCode reports, some (Report.render terminal options reports)⟩

/-- An order in which the places of a list are gone through, each of them once. -/
structure ReadingOrder (n : Nat) where
  places : List (Fin n)
  complete : places.Perm (List.finRange n)

namespace ReadingOrder

variable {n : Nat}

def forward (n : Nat) : ReadingOrder n :=
  ⟨List.finRange n, .refl _⟩

/-- Puts what was found at the places, one after the other, back to where it belongs. -/
def arrange {α : Type} (order : ReadingOrder n) (found : List α) : List α :=
  (List.finRange n).filterMap fun place => (order.places.zip found).lookup place

end ReadingOrder

/-- How checking the named inputs ends when they are read in an order: with what it prints or with a
failure, and with what can be read then. -/
def checkEnding (w : World) (config : Config) (terminal : Bool) (options : Report.Options)
    (names : List Text) (order : ReadingOrder names.length) : Except Failure Output × World :=
  let (read, later) := w.texts (order.places.map names.get)
  (read.map fun found => output config terminal options (names.zip (order.arrange found)), later)

def check (w : World) (config : Config) (terminal : Bool) (options : Report.Options)
    (names : List Text) : Except Failure Output :=
  (checkEnding w config terminal options names (.forward names.length)).1

end QueryTidy.Command
