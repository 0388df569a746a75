import QueryTidy.Editor.Debounce
import QueryTidy.Rule
import QueryTidy.Text.Blank
import QueryTidy.Text.Control

/-!
What is worth telling about a run: each event has a level, the area it comes from, and some text,
which is one line unless a detail has line ends in it.
-/

set_option autoImplicit false
set_option relaxedAutoImplicit false

namespace QueryTidy.Log

inductive Level
  | error
  | warn
  | info
  | debug
  | trace
deriving DecidableEq

namespace Level

def all : List Level :=
  [error, warn, info, debug, trace]

/-- The place of a level in the order of detail; zero is left for showing nothing. -/
def detail : Level → Nat
  | error => 1
  | warn => 2
  | info => 3
  | debug => 4
  | trace => 5

def label : Level → Text
  | error => "ERROR".toList
  | warn => "WARN".toList
  | info => "INFO".toList
  | debug => "DEBUG".toList
  | trace => "TRACE".toList

end Level

/-- A time span in seconds or, below one second, in milliseconds. -/
def duration (t : Editor.Millis) : Text :=
  if t = 0 then "0ns".toList
  else if t < 1000 then Text.ofNat t ++ "ms".toList
  else
    let fraction := (Text.ofNat (1000 + t % 1000)).tail.reverse.dropWhile (· = '0')
    Text.ofNat (t / 1000) ++ (if fraction.isEmpty then [] else '.' :: fraction.reverse) ++ ['s']

inductive Event
  | entriesAdded (count : Nat)
  | unreadableSeverity (rule : Rule) (value : Text)
  | analyzed (size findings : Nat)
  | configRead (name : Text)
  | debounceIgnored (value : Text)
  | formatted (input output : Nat)
  | rescheduling
  | scheduled (quiet : Editor.Millis)
  | rendering (findings : Nat)
  | checked (inputs : Nat)
  | fileReplaced (name : Text)
deriving DecidableEq

namespace Event

def level : Event → Level
  | unreadableSeverity .. | debounceIgnored _ => .warn
  | fileReplaced _ => .info
  | entriesAdded _ | analyzed .. | configRead _ | rendering _ | checked _ => .debug
  | formatted .. | rescheduling | scheduled _ => .trace

def area : Event → Text
  | entriesAdded _ => "sql_query_helper::keywords".toList
  | unreadableSeverity .. | analyzed .. => "sql_query_helper::rules".toList
  | configRead _ | debounceIgnored _ => "sql_query_helper::config".toList
  | formatted .. => "sql_query_helper::format".toList
  | rescheduling | scheduled _ | rendering _ => "sql_query_helper::editor".toList
  | checked _ | fileReplaced _ => "sql_query_helper::app::run".toList

def message : Event → Text
  | entriesAdded _ => "registering extra keyword corrections".toList
  | unreadableSeverity .. => "ignoring unknown severity".toList
  | analyzed .. => "analysis finished".toList
  | configRead _ => "loaded config file".toList
  | debounceIgnored _ => "ignoring SQL_HELPER_DEBOUNCE_MS, expected milliseconds".toList
  | formatted .. => "formatted query".toList
  | rescheduling => "rescheduling pending analysis".toList
  | scheduled _ => "analysis scheduled".toList
  | rendering _ => "rendering findings".toList
  | checked _ => "check finished".toList
  | fileReplaced _ => "formatted file in place".toList

def details : Event → List (String × Text)
  | entriesAdded count => [("count", Text.ofNat count)]
  | unreadableSeverity rule value => [("check", '"' :: rule.id ++ ['"']), ("value", value)]
  | analyzed size findings => [("chars", Text.ofNat size), ("findings", Text.ofNat findings)]
  | configRead name => [("path", name)]
  | debounceIgnored value => [("value", value)]
  | formatted input output => [("input", Text.ofNat input), ("output", Text.ofNat output)]
  | rescheduling => []
  | scheduled quiet => [("quiet", duration quiet)]
  | rendering findings => [("findings", Text.ofNat findings)]
  | checked inputs => [("inputs", Text.ofNat inputs)]
  | fileReplaced name => [("path", name)]

def text (e : Event) : Text :=
  Text.joinWith [' ']
    (e.level.label :: e.message :: e.details.map fun (name, value) => name.toList ++ '=' :: value)

/-- The lines of an event, without colours, and the first one without blanks at its end. -/
def lines (e : Event) : List Text :=
  match Text.lines (Text.withoutColours e.text) with
  | [] => []
  | first :: more => Text.trimEnd first :: more

end Event

end QueryTidy.Log
