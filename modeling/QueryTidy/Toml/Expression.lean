import QueryTidy.Toml.Quoted
import QueryTidy.Toml.Scalar
import QueryTidy.Toml.Tree

/-!
The expressions that a document consists of, one on a line: an assignment to a key, the header of a
table, or the header of one more table of an array. Keys have at most eighty parts. Arrays and
inline tables nest, at most eighty deep, and their reading is bounded by a number of steps for which
twice the length of the text is enough.
-/

set_option autoImplicit false
set_option relaxedAutoImplicit false

namespace QueryTidy.Toml

inductive Expression
  | assignment (keys : List Text) (value : Value)
  | header (keys : List Text)
  | arrayHeader (keys : List Text)

def isBareKey (c : Char) : Bool :=
  c.isAlphanum || c == '_' || c == '-'

def skipSpaces (t : Text) : Text :=
  t.dropWhile fun c => c == ' ' || c == '\t'

/-- A text without the spaces, line ends and comments at its start; none if one of them is
malformed. `inComment` tells whether a comment has begun. -/
def skipTrivia? (inComment : Bool) : Text → Option Text
  | [] => some []
  | c :: t =>
    if atLineEnd (c :: t) then skipTrivia? false t
    else if inComment then if isPermitted c then skipTrivia? true t else none
    else if c = ' ' ∨ c = '\t' then skipTrivia? false t
    else if c = '#' then skipTrivia? true t
    else some (c :: t)

/-- The rest of a text behind the end of its first line, on which only spaces and a comment may
stand. -/
def endOfLine? (inComment : Bool) : Text → Option Text
  | [] => some []
  | c :: t =>
    if atLineEnd (c :: t) then some (dropLineEnd (c :: t))
    else if inComment then if isPermitted c then endOfLine? true t else none
    else if c = ' ' ∨ c = '\t' then endOfLine? false t
    else if c = '#' then endOfLine? true t
    else none

def simpleKey? (t : Text) : Option (Text × Text) :=
  match quoted? t with
  | some found => some found
  | none =>
    let key := t.takeWhile isBareKey
    if key.isEmpty then none else some (key, t.dropWhile isBareKey)

/-- How many parts a key may have, and how deep arrays and inline tables may nest. -/
def maxDepth : Nat :=
  80

/-- Reads up to some number of parts of a key, which are divided by dots, and the spaces behind
them. -/
def parts? : Nat → Text → Option (List Text × Text)
  | 0, _ => none
  | count + 1, t => do
    let (first, t) ← simpleKey? (skipSpaces t)
    match skipSpaces t with
    | '.' :: t => (parts? count t).map fun (more, t) => (first :: more, t)
    | t => some ([first], t)

def key? (t : Text) : Option (List Text × Text) :=
  parts? maxDepth t

mutual

/-- Reads a value inside `depth` open arrays and inline tables. -/
def value? (depth : Nat) : Nat → Text → Option (Value × Text)
  | 0, _ => none
  | steps + 1, t =>
    match t with
    | '[' :: t =>
      if depth < maxDepth then (items? (depth + 1) steps t).map fun (vs, t) => (.array vs, t)
      else none
    | '\x7b' :: t =>
      if depth < maxDepth then
        (members? (depth + 1) steps t).bind fun (assignments, t) =>
          (inlineTable? assignments).map fun v => (v, t)
      else none
    | '"' :: _ | '\'' :: _ => (string? t).map fun (s, t) => (.string s, t)
    | _ => scalar? t

def items? (depth : Nat) : Nat → Text → Option (List Value × Text)
  | 0, _ => none
  | steps + 1, t =>
    match skipTrivia? false t with
    | none => none
    | some (']' :: t) => some ([], t)
    | some t =>
      match value? depth steps t with
      | none => none
      | some (v, t) =>
        match skipTrivia? false t with
        | some (',' :: t) => (items? depth steps t).map fun (vs, t) => (v :: vs, t)
        | some (']' :: t) => some ([v], t)
        | _ => none

def members? (depth : Nat) : Nat → Text → Option (List (List Text × Value) × Text)
  | 0, _ => none
  | steps + 1, t =>
    match skipTrivia? false t with
    | none => none
    | some ('\x7d' :: t) => some ([], t)
    | some t =>
      match member? depth steps t with
      | none => none
      | some (member, t) =>
        match skipTrivia? false t with
        | some (',' :: t) => (members? depth steps t).map fun (more, t) => (member :: more, t)
        | some ('\x7d' :: t) => some ([member], t)
        | _ => none

/-- Reads one assignment of an inline table. Lines may end on both sides of its equals sign. -/
def member? (depth : Nat) : Nat → Text → Option ((List Text × Value) × Text)
  | 0, _ => none
  | steps + 1, t =>
    match key? t with
    | none => none
    | some (keys, t) =>
      match skipTrivia? false t with
      | some ('=' :: t) =>
        match skipTrivia? false t with
        | none => none
        | some t => (value? depth steps t).map fun (v, t) => ((keys, v), t)
      | _ => none

end

def expression? (t : Text) : Option (Expression × Text) :=
  match t with
  | '[' :: '[' :: t => do
    let (keys, t) ← key? t
    let t ← char? ']' t
    let t ← char? ']' t
    some (.arrayHeader keys, t)
  | '[' :: t => do
    let (keys, t) ← key? t
    let t ← char? ']' t
    some (.header keys, t)
  | t => do
    let (keys, t) ← key? t
    let t ← char? '=' t
    let (v, t) ← value? 0 (2 * t.length + 1) (skipSpaces t)
    some (.assignment keys v, t)

def expressions? : Nat → Text → Option (List Expression)
  | 0, _ => none
  | steps + 1, t =>
    match skipTrivia? false t with
    | none => none
    | some [] => some []
    | some t => do
      let (e, t) ← expression? t
      let t ← endOfLine? false t
      (expressions? steps t).map (e :: ·)

end QueryTidy.Toml
