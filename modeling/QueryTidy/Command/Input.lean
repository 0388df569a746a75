import QueryTidy.Failure

/-!
The inputs that commands read: files, and the standard input under the name of a dash.
-/

set_option autoImplicit false
set_option relaxedAutoImplicit false

namespace QueryTidy.Command

def isStdin (name : Text) : Bool :=
  name == ['-']

def sourceName (name : Text) : Text :=
  if isStdin name then "<stdin>".toList else name

/-- What can be read: files, and the bytes that the standard input still holds. -/
structure World where
  files : Files
  stdin : List UInt8 := []
deriving DecidableEq

def World.textOf (w : World) (name : Text) : Except Failure Text :=
  if isStdin name then
    match Bytes.decode w.stdin with
    | .ok t => .ok t
    | .error _ => .error (.unreadableFile "stdin".toList .notText)
  else
    match w.files.textOf name with
    | .ok t => .ok t
    | .error fault => .error (.unreadableFile name fault)

/-- What can still be read after an input: the standard input is read to its end at once. -/
def World.after (w : World) (name : Text) : World :=
  if isStdin name then { w with stdin := [] } else w

/-- Reads inputs in order, up to the first one that cannot be read. What can be read afterwards is
told too. -/
def World.texts (w : World) : List Text → Except Failure (List Text) × World
  | [] => (.ok [], w)
  | name :: names =>
    match w.textOf name with
    | .error failure => (.error failure, w.after name)
    | .ok t =>
      let (rest, later) := (w.after name).texts names
      (rest.map (t :: ·), later)

end QueryTidy.Command
