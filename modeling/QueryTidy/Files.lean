import QueryTidy.Bytes.Utf8

/-!
The files that a command works on, as a value: names below the working directory with what they
hold. Names are resolved step by step, so a name that leads through a file or through nothing fails
in its own way.
-/

set_option autoImplicit false
set_option relaxedAutoImplicit false

namespace QueryTidy

/-- The steps of a name that has been resolved from the working directory. -/
abbrev Path := List Text

inductive Node
  | file (bytes : List UInt8)
  | folder
deriving DecidableEq

/-- The names that are known, with what they lead to; the folders on the way to a name exist too. -/
structure Files where
  nodes : List (Path × Node)
deriving DecidableEq

inductive FileFault
  | missing
  | notFolder
  | isFolder
  | notText
  | nullInName
  | longName
  | line (fault : Bytes.Fault)
  | other (description : Text)
deriving DecidableEq

def FileFault.message : FileFault → Text
  | missing => "No such file or directory (os error 2)".toList
  | notFolder => "Not a directory (os error 20)".toList
  | isFolder => "Is a directory (os error 21)".toList
  | notText => "stream did not contain valid UTF-8".toList
  | nullInName => "file name contained an unexpected NUL byte".toList
  | longName => "File name too long (os error 36)".toList
  | line fault => fault.message
  | other description => description

/-- Why the bytes that are to stand at a path are refused, if they are: the file or its disk may be
closed to writing, or the disk may be full. -/
abbrev Refusal := Path → List UInt8 → Option FileFault

namespace Files

/-- Where a name starts: at the root, which is a step of its own, or in the working directory. -/
def origin (name : Text) : Path :=
  if name.head? = some '/' then [['/']] else []

/-- The path behind a step: two dots lead back, out of the working directory if need be, but not
beyond the root. -/
def advance (reached : Path) (step : Text) : Path :=
  if step = [] ∨ step = ".".toList then reached
  else if step = "..".toList then
    if reached = [['/']] then reached
    else if reached.all (· = "..".toList) then reached ++ [step]
    else reached.dropLast
  else reached ++ [step]

/-- The path of the null device, which is empty whatever is written to it. -/
def nullDevice : Path :=
  [['/'], "dev".toList, "null".toList]

/-- Whether a path leads to a folder wherever the program runs: the working directory, a folder
around it, or one on the way from the root to the null device. -/
def isAround (path : Path) : Bool :=
  path.all (· = "..".toList) || path.isPrefixOf nullDevice

def node? (fs : Files) (path : Path) : Option Node :=
  match fs.nodes.lookup path with
  | some n => some n
  | none =>
    if path = nullDevice then some (.file [])
    else if isAround path ∨ fs.nodes.any (fun entry => path.isPrefixOf entry.1) then some .folder
    else none

def maxStep : Nat :=
  255

def maxName : Nat :=
  4095

def follow (fs : Files) (reached : Path) : List Text → Except FileFault Path
  | [] => .ok reached
  | step :: steps =>
    match fs.node? reached with
    | none => .error .missing
    | some (.file _) => .error .notFolder
    | some .folder =>
      let next := advance reached step
      if maxStep < Text.byteLength step then .error .longName
      else if (fs.node? next).isNone then .error .missing
      else fs.follow next steps

def resolve (fs : Files) (name : Text) : Except FileFault Path :=
  if name.contains '\x00' then .error .nullInName
  else if name.isEmpty then .error .missing
  else if maxName < Text.byteLength name then .error .longName
  else fs.follow (origin name) (Text.splitAt '/' name)

def trail (reached : Path) : List Text → List Path
  | [] => [reached]
  | step :: steps => reached :: trail (advance reached step) steps

/-- Files with one more name, and with the folders on the way to it. -/
def place (fs : Files) (name : Text) (node : Node) : Files :=
  let passed := trail (origin name) (Text.splitAt '/' name)
  ⟨fs.nodes ++ passed.dropLast.map (·, .folder) ++ passed.getLast?.toList.map (·, node)⟩

def holds (fs : Files) (name : Text) : Bool :=
  (fs.resolve name).toOption.isSome

def bytesOf (fs : Files) (name : Text) : Except FileFault (List UInt8) :=
  (fs.resolve name).bind fun path =>
    match fs.node? path with
    | some (.file bytes) => .ok bytes
    | some .folder => .error .isFolder
    | none => .error .missing

def textOf (fs : Files) (name : Text) : Except FileFault Text :=
  (fs.bytesOf name).bind fun bytes =>
    match Bytes.decode bytes with
    | .ok t => .ok t
    | .error _ => .error .notText

def replace (fs : Files) (path : Path) (bytes : List UInt8) : Files :=
  ⟨fs.nodes.map fun entry => if entry.1 = path then (path, .file bytes) else entry⟩

/-- Writes a text to a file that exists. A write that is not refused is carried out in full. -/
def write (fs : Files) (name : Text) (t : Text) (refusal : Refusal := fun _ _ => none) :
    Except FileFault Files :=
  (fs.resolve name).bind fun path =>
    match fs.node? path with
    | some (.file _) =>
      match refusal path (Bytes.encode t) with
      | some fault => .error fault
      | none => .ok (fs.replace path (Bytes.encode t))
    | some .folder => .error .isFolder
    | none => .error .missing

end Files

end QueryTidy
