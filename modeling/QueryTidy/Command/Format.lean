import QueryTidy.Command.Check
import QueryTidy.Format

/-!
The command that formats a query, to print it or to replace the file it came from.
-/

set_option autoImplicit false
set_option relaxedAutoImplicit false

namespace QueryTidy.Command

def formatted (w : World) (config : Config) (name : Text) : Except Failure Text :=
  (w.textOf name).map (QueryTidy.format config.dictionary)

/-- Something done to files that can fail on the way; what has been done by then stays done. -/
abbrev Action := ExceptT Failure (StateM Files)

def save (refusal : Refusal) (name t : Text) : Action Unit := do
  match (← get).write name t refusal with
  | .ok files => set files
  | .error fault => throw (.unwritableFile name fault)

/-- Formats an input. To replace a file, a line feed is added at its end. -/
def formatting (refusal : Refusal) (stdin : List UInt8) (config : Config) (name : Text)
    (replace : Bool) : Action Output := do
  if replace ∧ isStdin name then
    throw (.usage "--write cannot be used when reading from stdin".toList)
  let t ← formatted ⟨← get, stdin⟩ config name
  if replace then
    save refusal name (t ++ ['\n'])
    return ⟨0, none⟩
  else
    return ⟨0, some t⟩

/-- How the command ends: with what it prints or with a failure, and with the files as they are
then. -/
def formatEnding (w : World) (config : Config) (name : Text) (replace : Bool)
    (refusal : Refusal := fun _ _ => none) : Except Failure Output × Files :=
  (formatting refusal w.stdin config name replace).run w.files

def format (w : World) (config : Config) (name : Text) (replace : Bool)
    (refusal : Refusal := fun _ _ => none) : Except Failure (Output × Files) :=
  match formatEnding w config name replace refusal with
  | (.ok out, files) => .ok (out, files)
  | (.error failure, _) => .error failure

end QueryTidy.Command
