import QueryTidy.Program

/-!
The command line program: it fetches what a run asks for, and prints and writes what the run comes
to. A live run is followed line by line in real time.
-/

set_option autoImplicit false
set_option relaxedAutoImplicit false

namespace QueryTidy.Main

open CommandLine Editor

def print (t : Text) : IO Unit := do
  let out ← IO.getStdout
  out.putStr (String.ofList t)
  out.flush

def printErrors (lines : List Text) : IO Unit :=
  lines.forM fun line => IO.eprintln (String.ofList line)

def environment : IO Environment :=
  Program.variablesAsked.filterMapM fun name => do
    return (← IO.getEnv (String.ofList name)).map fun value => (name, value.toList)

/-- What a name leads to; what exists and cannot be read counts as a folder. -/
def fetch (name : Text) : IO (Option Node) := do
  try
    return some (.file (← IO.FS.readBinFile (String.ofList name)).toList)
  catch
    | .noFileOrDirectory .. => return none
    | _ => return some .folder

def gather (names : List Text) : IO Files :=
  names.foldlM (fun files name => do
    return match ← fetch name with
      | some node => files.place name node
      | none => files) ⟨[]⟩

/-- Reads the standard input to its end. -/
partial def readAll (input : IO.FS.Stream) (read : ByteArray) : IO ByteArray := do
  let bytes ← input.read 65536
  if bytes.isEmpty then return read else readAll input (read ++ bytes)

/-- Reads a line with its line feed; it is empty at the end. -/
partial def readLine (input : IO.FS.Stream) (line : List UInt8) : IO (List UInt8) := do
  let bytes ← input.read 1
  match bytes.toList with
  | [] => return line.reverse
  | b :: _ => if b = 10 then return (b :: line).reverse else readLine input (b :: line)

structure Display where
  filter : Log.Filter
  coloured : Bool

def renderNow (d : Display) (s : Session) : IO Session := do
  printErrors (Program.logLines d.filter (Log.ofRendering s))
  print (Live.reportText d.coloured s.findings)
  return s.render

/-- Follows the standard input until it ends or is not valid text. -/
partial def follow (d : Display) (input : IO.FS.Stream)
    (coming : Task (Except IO.Error (List UInt8))) (s : Session) :
    IO (Session × Option Bytes.Fault) := do
  if ← IO.hasFinished coming then
    let bytes ← IO.ofExcept coming.get
    if bytes.isEmpty then return (s, none)
    match Bytes.decode (Live.chomp bytes) with
    | .error fault => return (s, some fault)
    | .ok line =>
      let edit := Live.editOf line
      printErrors (Program.logLines d.filter (Log.ofEdit s edit))
      follow d input (← IO.asTask (readLine input [])) (s.perform edit (← IO.monoMsNow))
  else if s.debounce.isDue (← IO.monoMsNow) then
    follow d input coming (← renderNow d s)
  else
    IO.sleep 1
    follow d input coming s

def runLive (d : Display) (config : Config) (quiet : Option Millis) (printDocument : Bool) :
    IO UInt32 := do
  let input ← IO.getStdin
  printErrors (Program.logLines d.filter (Log.ofAnalyzer config))
  let (s, fault) ← follow d input (← IO.asTask (readLine input []))
    (Command.liveSession config quiet)
  let s ← if s.debounce.deadline.isSome then renderNow d s else pure s
  match fault with
  | some fault =>
    printErrors [Program.failureLine (Command.liveFailure fault)]
    return 1
  | none =>
    print (Program.documentText printDocument s.document)
    return 0

def save (names : List Text) (before after : Files) : IO Unit :=
  names.forM fun name => do
    match after.bytesOf name with
    | .ok bytes =>
      if (before.bytesOf name).toOption != some bytes then
        IO.FS.writeBinFile (String.ofList name) ⟨bytes.toArray⟩
    | .error _ => pure ()

/-- Writes the files that a run changes and prints its result. A write that fails is one that the
run was refused. -/
def finish (names : List Text) (s : Program.Setting) : IO UInt32 := do
  let r ← try
    let r := Program.run s
    save names s.files r.files
    pure r
  catch e =>
    pure (Program.run s fun _ _ => some (.other e.toString.toList))
  printErrors r.stderr
  print r.stdout
  return r.exitCode.toUInt32

def runAll (arguments : List Text) : IO UInt32 := do
  let env ← environment
  let terminal ← (← IO.getStdout).isTty
  let s : Program.Setting := { arguments, environment := env, terminal }
  match Program.invocation s with
  | .error _ => finish [] s
  | .ok i =>
    let names := Program.filesAsked env i
    let s := { s with files := ← gather names }
    match i.command, Config.load s.files env i.config with
    | .live quiet printDocument noColor, .ok config =>
      let d : Display := ⟨Program.filter env i.verbose, !noColor && s.showsColour⟩
      printErrors (Program.logLines d.filter (Log.ofLoad s.files env i.config))
      runLive d config quiet printDocument
    | command, _ =>
      let stdin ← if Program.readsStdin command then readAll (← IO.getStdin) .empty else pure .empty
      finish names { s with stdin := stdin.toList }

end QueryTidy.Main

def main (arguments : List String) : IO UInt32 :=
  QueryTidy.Main.runAll (arguments.map String.toList)
