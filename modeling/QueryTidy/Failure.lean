import QueryTidy.Files

/-!
Why a command fails. What happened is kept apart from its wording, and a failure is either the
user's to mend or internal.
-/

set_option autoImplicit false
set_option relaxedAutoImplicit false

namespace QueryTidy

inductive Failure
  | unreadableFile (name : Text) (fault : FileFault)
  | unwritableFile (name : Text) (fault : FileFault)
  | unreadableConfig (fault : FileFault)
  | invalidConfig (reason : Text := [])
  | config (message : Text)
  | usage (message : Text)
  | rendering (format message : Text)
deriving DecidableEq

/-- Who can mend a failure. -/
inductive FailureKind
  | badRequest
  | internal
deriving DecidableEq

namespace Failure

def kind : Failure → FailureKind
  | unreadableFile .. | unwritableFile .. | rendering .. => .internal
  | unreadableConfig _ | invalidConfig _ | config _ | usage _ => .badRequest

def message : Failure → Text
  | unreadableFile name fault =>
    "Failed to read file '".toList ++ name ++ "': ".toList ++ fault.message
  | unwritableFile name fault =>
    "Failed to write file '".toList ++ name ++ "': ".toList ++ fault.message
  | unreadableConfig fault => "Failed to read config file: ".toList ++ fault.message
  | invalidConfig reason => "Invalid config file: ".toList ++ reason
  | config message => message
  | usage message => message
  | rendering format message =>
    "Failed to render ".toList ++ format ++ " output: ".toList ++ message

/-- The wording of a failure for the user of a command, which gives its kind alone. -/
def display (f : Failure) : Text :=
  match f.kind with
  | .badRequest => "Bad request".toList
  | .internal => "Internal server error".toList

end Failure

end QueryTidy
