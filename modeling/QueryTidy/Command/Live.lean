import QueryTidy.Config.Basic
import QueryTidy.Failure
import QueryTidy.Live

/-!
The command that follows an input as it is typed.
-/

set_option autoImplicit false
set_option relaxedAutoImplicit false

namespace QueryTidy.Command

open Editor

/-- The session in which a live run begins: an empty document, and the quiet period that is asked
for or configured. -/
def liveSession (config : Config) (quiet : Option Millis) : Session :=
  Session.start config.analyzer config.dictionary (quiet.getD config.debounce) []

def live (config : Config) (quiet : Option Millis) (coloured : Bool) (chunks : List Live.Chunk) :
    Live.Outcome :=
  Live.run (liveSession config quiet) coloured chunks

def liveFailure (fault : Bytes.Fault) : Failure :=
  .unreadableFile "stdin".toList (.line fault)

end QueryTidy.Command
