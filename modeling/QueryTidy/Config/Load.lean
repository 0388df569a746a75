import QueryTidy.Config.Basic
import QueryTidy.Failure

/-!
Where the configuration comes from. A file in the home directory is read first and one in the
working directory replaces it as a whole; the environment has the last word on the quiet period.
-/

set_option autoImplicit false
set_option relaxedAutoImplicit false

namespace QueryTidy

abbrev Environment := List (Text × Text)

namespace Config

def debounceVariable : Text :=
  "SQL_HELPER_DEBOUNCE_MS".toList

def localFile : Text :=
  ".sql-helper.toml".toList

def below (directory name : Text) : Text :=
  if directory.isEmpty ∨ directory.getLast? = some '/' then directory ++ name
  else directory ++ '/' :: name

def homeFile (home : Text) : Text :=
  below home ".config/sql-helper/config.toml".toList

/-- The files that are read, in order: those of the usual places that exist. -/
def usualFiles (files : Files) (env : Environment) : List Text :=
  (((env.lookup "HOME".toList).map homeFile).toList ++ [localFile]).filter files.holds

/-- Reads a configuration file. How a text that is no configuration is described is left open. -/
def readFile (files : Files) (name : Text) (describe : Text → Text := fun _ => []) :
    Except Failure Config :=
  match files.textOf name with
  | .error fault => .error (.unreadableConfig fault)
  | .ok t =>
    match parse? t with
    | some c => .ok c
    | none => .error (.invalidConfig (describe t))

/-- Reads configuration files, of which the last one counts; every one must be valid. -/
def readFiles (files : Files) (names : List Text) (describe : Text → Text) :
    Except Failure Config :=
  names.foldlM (fun _ name => readFile files name describe) {}

def withEnvironment (env : Environment) (c : Config) : Config :=
  match env.lookup debounceVariable with
  | some t => c.withDebounce t
  | none => c

/-- The files that a run reads: the one that is named, or those of the usual places. -/
def filesToRead (files : Files) (env : Environment) : Option Text → List Text
  | some name => [name]
  | none => usualFiles files env

def load (files : Files) (env : Environment) (name : Option Text)
    (describe : Text → Text := fun _ => []) : Except Failure Config :=
  (readFiles files (filesToRead files env name) describe).map (withEnvironment env)

end Config

end QueryTidy
