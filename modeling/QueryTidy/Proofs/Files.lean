import QueryTidy.Files
import QueryTidy.Proofs.Bytes.Utf8

/-!
Writing to a file. The bytes of one file are replaced, every name leads where it led before, and
whatever lies elsewhere stays as it was.
-/

set_option autoImplicit false
set_option relaxedAutoImplicit false

namespace QueryTidy.Files

variable {fs fs' : Files} {path : Path} {bytes : List UInt8}

private theorem lookup_replaced (nodes : List (Path × Node)) (path p : Path) (node : Node) :
    (nodes.map fun entry => if entry.1 = path then (path, node) else entry).lookup p =
      if p = path then (nodes.lookup p).map fun _ => node else nodes.lookup p := by
  induction nodes with
  | nil => simp
  | cons entry nodes ih =>
    obtain ⟨key, old⟩ := entry
    rw [List.map_cons]
    by_cases here : p = key
    · subst here
      by_cases isPath : p = path <;> simp [isPath]
    · have skipped : (p == key) = false := beq_eq_false_iff_ne.mpr here
      by_cases isPath : key = path
      · subst isPath
        rw [if_pos rfl, List.lookup_cons, List.lookup_cons, skipped, ih]
      · rw [if_neg isPath, List.lookup_cons, List.lookup_cons, skipped, ih]

theorem lookup_replace (fs : Files) (path p : Path) (bytes : List UInt8) :
    (fs.replace path bytes).nodes.lookup p =
      if p = path then (fs.nodes.lookup p).map fun _ => .file bytes else fs.nodes.lookup p :=
  lookup_replaced fs.nodes path p (.file bytes)

theorem any_replace (fs : Files) (path : Path) (bytes : List UInt8) (test : Path → Bool) :
    ((fs.replace path bytes).nodes.any fun entry => test entry.1) =
      fs.nodes.any fun entry => test entry.1 := by
  have keys : ∀ entry : Path × Node,
      (if entry.1 = path then (path, Node.file bytes) else entry).1 = entry.1 := by
    intro entry
    split
    · rename_i same
      exact same.symm
    · rfl
  rw [replace, List.any_map]
  simp only [Function.comp_def, keys]

/-- Whether a path is one of those that are kept, rather than one that is known by itself. -/
def Stored (fs : Files) (path : Path) : Prop :=
  fs.nodes.lookup path ≠ none

theorem node?_replace_of_stored (stored : fs.Stored path) (bytes : List UInt8) :
    (fs.replace path bytes).node? path = some (.file bytes) := by
  obtain ⟨old, found⟩ := Option.ne_none_iff_exists'.mp stored
  simp [node?, lookup_replace, found]

theorem node?_replace_of_ne {p : Path} (other : p ≠ path) (bytes : List UInt8) :
    (fs.replace path bytes).node? p = fs.node? p := by
  unfold node?
  rw [lookup_replace, if_neg other, any_replace fs path bytes (p.isPrefixOf ·)]

theorem replace_of_not_stored (absent : ¬fs.Stored path) (bytes : List UInt8) :
    fs.replace path bytes = fs := by
  have unknown : fs.nodes.lookup path = none := not_not.mp absent
  have keep : ∀ entry ∈ fs.nodes,
      (if entry.1 = path then (path, Node.file bytes) else entry) = entry := by
    intro entry inNodes
    have differ := List.lookup_eq_none_iff.mp unknown entry inNodes
    rw [if_neg]
    rintro rfl
    simp at differ
  rw [replace, List.map_congr_left keep, List.map_id']

theorem replace_replace (fs : Files) (path : Path) (bytes bytes' : List UInt8) :
    (fs.replace path bytes).replace path bytes' = fs.replace path bytes' := by
  simp only [replace, List.map_map]
  congr 1
  apply List.map_congr_left
  intro entry _
  by_cases here : entry.1 = path <;> simp [here]

theorem eq_nullDevice_of_not_stored (isFile : fs.node? path = some (.file bytes))
    (absent : ¬fs.Stored path) : path = nullDevice := by
  have unknown : fs.nodes.lookup path = none := not_not.mp absent
  by_contra differ
  simp only [node?, unknown, if_neg differ] at isFile
  split at isFile
  · simp at isFile
  · contradiction

structure SameShape (fs fs' : Files) : Prop where
  none : ∀ p, fs.node? p = none ↔ fs'.node? p = none
  folder : ∀ p, fs.node? p = some .folder ↔ fs'.node? p = some .folder

theorem SameShape.follow_eq (shape : SameShape fs fs') (reached : Path) (steps : List Text) :
    fs.follow reached steps = fs'.follow reached steps := by
  induction steps generalizing reached with
  | nil => rfl
  | cons step steps ih =>
    have open_ : (fs.node? (advance reached step)).isNone =
        (fs'.node? (advance reached step)).isNone := by
      rw [Bool.eq_iff_iff, Option.isNone_iff_eq_none, Option.isNone_iff_eq_none, shape.none]
    have absent := shape.none reached
    have folder := shape.folder reached
    unfold follow
    cases before : fs.node? reached with
    | none => simp [absent.mp before]
    | some node =>
      cases after : fs'.node? reached with
      | none => simp [absent.mpr after] at before
      | some node' =>
        rw [before, after] at folder
        cases node with
        | folder =>
          obtain rfl : node' = .folder := by simpa using folder
          simp only [open_, ih]
        | file bytes =>
          cases node' with
          | folder => simp at folder
          | file bytes' => rfl

theorem SameShape.resolve_eq (shape : SameShape fs fs') (name : Text) :
    fs.resolve name = fs'.resolve name := by
  simp only [resolve, shape.follow_eq]

theorem sameShape_replace (isFile : fs.node? path = some (.file bytes)) (bytes' : List UInt8) :
    SameShape (fs.replace path bytes') fs := by
  have file : ∃ now, (fs.replace path bytes').node? path = some (.file now) := by
    by_cases stored : fs.Stored path
    · exact ⟨bytes', node?_replace_of_stored stored bytes'⟩
    · rw [replace_of_not_stored stored]
      exact ⟨bytes, isFile⟩
  obtain ⟨now, isFile'⟩ := file
  constructor
  · intro p
    by_cases here : p = path
    · subst here
      simp [isFile, isFile']
    · rw [node?_replace_of_ne here]
  · intro p
    by_cases here : p = path
    · subst here
      simp [isFile, isFile']
    · rw [node?_replace_of_ne here]

theorem bytesOf_eq_ok_iff {name : Text} :
    fs.bytesOf name = .ok bytes ↔
      ∃ path, fs.resolve name = .ok path ∧ fs.node? path = some (.file bytes) := by
  unfold bytesOf
  cases resolved : fs.resolve name with
  | error fault => simp [Except.bind]
  | ok path =>
    cases found : fs.node? path with
    | none => simp [Except.bind, found]
    | some node => cases node <;> simp [Except.bind, found]

theorem textOf_eq_ok_iff {name t : Text} :
    fs.textOf name = .ok t ↔ ∃ bytes, fs.bytesOf name = .ok bytes ∧ Bytes.decode bytes = .ok t := by
  unfold textOf
  cases read : fs.bytesOf name with
  | error fault => simp [Except.bind]
  | ok bytes => cases decoded : Bytes.decode bytes <;> simp [Except.bind, decoded]

theorem write_of_file {name : Text} (resolved : fs.resolve name = .ok path)
    (isFile : fs.node? path = some (.file bytes)) (t : Text) (refusal : Refusal) :
    fs.write name t refusal =
      match refusal path (Bytes.encode t) with
      | some fault => .error fault
      | none => .ok (fs.replace path (Bytes.encode t)) := by
  cases refused : refusal path (Bytes.encode t) <;>
    simp [write, resolved, Except.bind, isFile, refused]

theorem bytesOf_replace {name : Text} (resolved : fs.resolve name = .ok path)
    (isFile : fs.node? path = some (.file bytes)) (stored : fs.Stored path)
    (bytes' : List UInt8) : (fs.replace path bytes').bytesOf name = .ok bytes' := by
  refine bytesOf_eq_ok_iff.mpr ⟨path, ?_, node?_replace_of_stored stored bytes'⟩
  rw [(sameShape_replace isFile bytes').resolve_eq, resolved]

/-- Whether files are the same as before, except that one of them has a new content. The null
device takes every content and keeps none. -/
structure Rewritten (fs : Files) (name t : Text) (fs' : Files) : Prop where
  content : fs.resolve name ≠ .ok nullDevice → fs'.bytesOf name = .ok (Bytes.encode t)
  others : ∀ path, fs.resolve name ≠ .ok path → fs'.node? path = fs.node? path
  names : ∀ other, fs'.resolve other = fs.resolve other

theorem rewritten_replace {name : Text} (resolved : fs.resolve name = .ok path)
    (isFile : fs.node? path = some (.file bytes)) (t : Text) :
    fs.Rewritten name t (fs.replace path (Bytes.encode t)) where
  content kept := by
    apply bytesOf_replace resolved isFile
    by_contra absent
    rw [eq_nullDevice_of_not_stored isFile absent] at resolved
    exact kept resolved
  others p other := by
    apply node?_replace_of_ne
    rintro rfl
    exact other resolved
  names := (sameShape_replace isFile _).resolve_eq

end QueryTidy.Files
