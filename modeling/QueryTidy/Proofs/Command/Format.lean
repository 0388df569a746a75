import QueryTidy.Command.Format
import QueryTidy.Proofs.Files
import QueryTidy.Proofs.Spacing

/-!
The format command and the files. A failing run and a run that prints leave every file as it is; a
run that replaces a file puts into it what would be printed, with a line feed behind, and touches
nothing else. With a stable dictionary a second run changes nothing any more, since the line feed is
blank and a formatted query is formatted to itself.
-/

set_option autoImplicit false
set_option relaxedAutoImplicit false

namespace QueryTidy.Command

variable {w : World} {config : Config} {name t : Text} {replace : Bool} {refusal : Refusal}

theorem formatEnding_of_stdin (barred : replace ∧ isStdin name) :
    formatEnding w config name replace refusal =
      (.error (.usage "--write cannot be used when reading from stdin".toList), w.files) := by
  unfold formatEnding formatting
  rw [if_pos barred]
  rfl

private theorem formatEnding_reads (reads : ¬(replace ∧ isStdin name)) :
    formatEnding w config name replace refusal = (do
      let t ← formatted w config name
      if replace then
        save refusal name (t ++ ['\n'])
        return ⟨0, none⟩
      else return ⟨0, some t⟩ : Action Output).run w.files := by
  unfold formatEnding formatting
  rw [if_neg reads]
  rfl

theorem formatEnding_failed {failure : Failure} (reads : ¬(replace ∧ isStdin name))
    (failed : formatted w config name = .error failure) :
    formatEnding w config name replace refusal = (.error failure, w.files) := by
  rw [formatEnding_reads reads, failed]
  rfl

theorem formatEnding_prints :
    formatEnding w config name false refusal =
      ((formatted w config name).map fun t => ⟨0, some t⟩, w.files) := by
  rw [formatEnding_reads (by simp)]
  cases formatted w config name <;> rfl

theorem formatEnding_written {path : Path} {bytes : List UInt8} (isFile : isStdin name = false)
    (made : formatted w config name = .ok t) (resolved : w.files.resolve name = .ok path)
    (found : w.files.node? path = some (.file bytes)) :
    formatEnding w config name true refusal =
      match refusal path (Bytes.encode (t ++ ['\n'])) with
      | some fault => (.error (.unwritableFile name fault), w.files)
      | none => (.ok ⟨0, none⟩, w.files.replace path (Bytes.encode (t ++ ['\n']))) := by
  rw [formatEnding_reads (by simp [isFile]), made]
  have current : StateT.run (ExceptT.run (get : Action Files)) w.files =
      (.ok w.files, w.files) := rfl
  change StateT.run (ExceptT.run
    (save refusal name (t ++ ['\n']) >>= fun _ => pure ⟨0, none⟩ : Action Output)) w.files = _
  simp only [save, bind_assoc, ExceptT.run_bind, StateT.run_bind, current]
  change StateT.run (ExceptT.run _) w.files = _
  rw [Files.write_of_file resolved found]
  cases refusal path (Bytes.encode (t ++ ['\n'])) <;> rfl

theorem textOf_of_file (isFile : isStdin name = false) :
    w.textOf name = .ok t ↔ w.files.textOf name = .ok t := by
  unfold World.textOf
  rw [isFile]
  cases w.files.textOf name <;> simp

theorem formatted_eq_ok_iff :
    formatted w config name = .ok t ↔
      ∃ source, w.textOf name = .ok source ∧ QueryTidy.format config.dictionary source = t :=
  Bytes.map_eq_ok_iff

theorem exists_file_of_formatted (isFile : isStdin name = false)
    (made : formatted w config name = .ok t) :
    ∃ source path bytes, QueryTidy.format config.dictionary source = t ∧
      w.files.resolve name = .ok path ∧ w.files.node? path = some (.file bytes) := by
  obtain ⟨source, read, rfl⟩ := formatted_eq_ok_iff.mp made
  obtain ⟨bytes, readBytes, -⟩ := Files.textOf_eq_ok_iff.mp ((textOf_of_file isFile).mp read)
  obtain ⟨path, resolved, found⟩ := Files.bytesOf_eq_ok_iff.mp readBytes
  exact ⟨source, path, bytes, rfl, resolved, found⟩

theorem formatEnding_stdin (files : Files) (stdin stdin' : List UInt8) :
    formatEnding ⟨files, stdin⟩ config name true refusal =
      formatEnding ⟨files, stdin'⟩ config name true refusal := by
  by_cases isStdin : isStdin name
  · rw [formatEnding_of_stdin ⟨rfl, isStdin⟩, formatEnding_of_stdin ⟨rfl, isStdin⟩]
  · have reads : ¬(true ∧ Command.isStdin name) := fun barred => isStdin barred.2
    have same : formatted ⟨files, stdin⟩ config name = formatted ⟨files, stdin'⟩ config name := by
      simp only [formatted, World.textOf, isStdin]
      rfl
    rw [formatEnding_reads reads, formatEnding_reads reads, same]

/-- How a run that is to replace a file can end: with a failure before the file is written, with a
refusal, or with the formatted text in the place of the file's own. -/
theorem formatEnding_cases (w : World) (config : Config) (name : Text) (refusal : Refusal) :
    (∃ failure, formatEnding w config name true refusal = (.error failure, w.files) ∧
        (isStdin name ∨ formatted w config name = .error failure)) ∨
      ∃ source path bytes, isStdin name = false ∧
        formatted w config name = .ok (QueryTidy.format config.dictionary source) ∧
        w.files.resolve name = .ok path ∧ w.files.node? path = some (.file bytes) ∧
        let content := Bytes.encode (QueryTidy.format config.dictionary source ++ ['\n'])
        ((∃ fault, refusal path content = some fault ∧
          formatEnding w config name true refusal =
            (.error (.unwritableFile name fault), w.files)) ∨
        refusal path content = none ∧
          formatEnding w config name true refusal =
            (.ok ⟨0, none⟩, w.files.replace path content)) := by
  by_cases stdin : isStdin name
  · exact Or.inl ⟨_, formatEnding_of_stdin ⟨rfl, stdin⟩, Or.inl stdin⟩
  have isFile := Bool.eq_false_iff.mpr stdin
  cases made : formatted w config name with
  | error failure => exact Or.inl ⟨failure, formatEnding_failed (by simp [isFile]) made, Or.inr rfl⟩
  | ok t =>
    right
    obtain ⟨source, path, bytes, rfl, resolved, found⟩ := exists_file_of_formatted isFile made
    refine ⟨source, path, bytes, isFile, rfl, resolved, found, ?_⟩
    rw [formatEnding_written isFile made resolved found]
    cases answer : refusal path
        (Bytes.encode (QueryTidy.format config.dictionary source ++ ['\n'])) with
    | some fault => exact Or.inl ⟨fault, answer, rfl⟩
    | none => exact Or.inr ⟨answer, rfl⟩

theorem format_saved {d : Dictionary} (stable : d.Stable) (source : Text) :
    QueryTidy.format d (QueryTidy.format d source ++ ['\n']) = QueryTidy.format d source := by
  have bare := format_drop_blank d (a := QueryTidy.format d source) (b := '\n') (c := [])
    (by decide) (Or.inr (by simp))
  rw [bare, List.append_nil, stable.format_format]

theorem formatted_saved (stable : config.dictionary.Stable) {source : Text} {path : Path}
    {bytes : List UInt8} (isFile : isStdin name = false)
    (made : formatted w config name = .ok (QueryTidy.format config.dictionary source))
    (resolved : w.files.resolve name = .ok path)
    (found : w.files.node? path = some (.file bytes)) (stdin : List UInt8) :
    let content := Bytes.encode (QueryTidy.format config.dictionary source ++ ['\n'])
    let after := w.files.replace path content
    formatted ⟨after, stdin⟩ config name = .ok (QueryTidy.format config.dictionary source) ∧
      after.resolve name = .ok path ∧ (∃ bytes', after.node? path = some (.file bytes')) ∧
      after.replace path content = after := by
  intro content after
  by_cases stored : w.files.Stored path
  · have readBytes : after.bytesOf name = .ok content :=
      Files.bytesOf_replace resolved found stored content
    refine ⟨?_, ?_, ⟨content, Files.node?_replace_of_stored stored content⟩,
      Files.replace_replace _ _ _ _⟩
    · refine formatted_eq_ok_iff.mpr ⟨_, (textOf_of_file isFile).mpr ?_, format_saved stable source⟩
      exact Files.textOf_eq_ok_iff.mpr ⟨_, readBytes, Bytes.decode_encode _⟩
    · rw [(Files.sameShape_replace found content).resolve_eq, resolved]
  · -- the null device keeps nothing, so the files are as they were
    have unchanged : after = w.files := Files.replace_of_not_stored stored content
    rw [unchanged]
    refine ⟨?_, resolved, ⟨bytes, found⟩, unchanged⟩
    obtain ⟨original, read, same⟩ := formatted_eq_ok_iff.mp made
    have readFile := (textOf_of_file isFile).mp read
    exact formatted_eq_ok_iff.mpr ⟨original, (textOf_of_file isFile).mpr readFile, same⟩

theorem formatEnding_again (stable : config.dictionary.Stable) (stdin : List UInt8) :
    let first := formatEnding w config name true refusal
    formatEnding ⟨first.2, stdin⟩ config name true refusal = first ∧
      ∀ out, first.1 = .ok out → ∀ refusal',
        (formatEnding ⟨first.2, stdin⟩ config name true refusal').2 = first.2 := by
  intro first
  have afterFailure {failure : Failure} (failed : first = (.error failure, w.files)) :
      formatEnding ⟨first.2, stdin⟩ config name true refusal = first ∧
        ∀ out, first.1 = .ok out → ∀ refusal',
          (formatEnding ⟨first.2, stdin⟩ config name true refusal').2 = first.2 := by
    constructor
    · have unchanged : first.2 = w.files := by rw [failed]
      rw [unchanged]
      exact formatEnding_stdin w.files stdin w.stdin
    · intro out succeeds
      rw [failed] at succeeds
      contradiction
  rcases formatEnding_cases w config name refusal with ⟨failure, ending, -⟩ |
    ⟨source, path, bytes, isFile, made, resolved, found, ⟨fault, -, ending⟩ | ⟨accepted, ending⟩⟩
  · exact afterFailure ending
  · exact afterFailure ending
  · obtain ⟨made', resolved', ⟨bytes', found'⟩, same⟩ :=
      formatted_saved stable isFile made resolved found stdin
    have saved : first = _ := ending
    rw [saved]
    constructor
    · rw [formatEnding_written isFile made' resolved' found', accepted, same]
    · intro out _ refusal'
      rw [formatEnding_written isFile made' resolved' found', same]
      split <;> rfl

theorem files_of_failure {failure : Failure}
    (failed : (formatEnding w config name true refusal).1 = .error failure) :
    (formatEnding w config name true refusal).2 = w.files := by
  rcases formatEnding_cases w config name refusal with ⟨_, ending, -⟩ |
    ⟨_, _, _, -, -, -, -, ⟨_, -, ending⟩ | ⟨-, ending⟩⟩
  · exact congrArg Prod.snd ending
  · exact congrArg Prod.snd ending
  · have succeeded := congrArg Prod.fst ending
    rw [failed] at succeeded
    contradiction

theorem fails_of_prints_fails {failure : Failure} (isFile : isStdin name = false)
    (failed : (formatEnding w config name false refusal).1 = .error failure) :
    (formatEnding w config name true refusal).1 = .error failure := by
  rw [formatEnding_prints] at failed
  cases made : formatted w config name with
  | error cause =>
    rw [made] at failed
    rw [formatEnding_failed (by simp [isFile]) made]
    exact failed
  | ok t =>
    rw [made] at failed
    contradiction

theorem formatted_of_prints
    (printed : (formatEnding w config name false refusal).1 = .ok ⟨0, some t⟩) :
    formatted w config name = .ok t := by
  rw [formatEnding_prints] at printed
  obtain ⟨t', made, same⟩ := Bytes.map_eq_ok_iff.mp printed
  simpa [made] using same

theorem rewritten_of_saves {out : Output}
    (succeeds : (formatEnding w config name true refusal).1 = .ok out) :
    isStdin name = false ∧
      ∃ t, (formatEnding w config name false refusal).1 = .ok ⟨0, some t⟩ ∧
        w.files.Rewritten name (t ++ ['\n']) (formatEnding w config name true refusal).2 := by
  rcases formatEnding_cases w config name refusal with ⟨_, ending, -⟩ |
    ⟨source, path, bytes, isFile, made, resolved, found, ⟨_, -, ending⟩ | ⟨-, ending⟩⟩
  · exact absurd (succeeds.symm.trans (congrArg Prod.fst ending)) (by simp)
  · exact absurd (succeeds.symm.trans (congrArg Prod.fst ending)) (by simp)
  · refine ⟨isFile, QueryTidy.format config.dictionary source, ?_, ?_⟩
    · rw [formatEnding_prints, made]
      rfl
    · rw [ending]
      exact Files.rewritten_replace resolved found _

/-- The format command is safe on files, whatever the system refuses to write. No file changes in a
run that fails or prints. A run that is to replace a file fails where a printing run does or where
the write is refused; else it changes that file alone, to what would be printed and a line feed.
With a dictionary that does not correct its own corrections, the same run once more changes nothing.
-/
theorem format_safe (w : World) (config : Config) (name : Text) (refusal : Refusal) :
    let prints := formatEnding w config name false refusal
    let saves := formatEnding w config name true refusal
    prints.2 = w.files ∧
    (∀ failure, saves.1 = .error failure → saves.2 = w.files) ∧
    (isStdin name = false →
      (∀ failure, prints.1 = .error failure → saves.1 = .error failure) ∧
      ∀ t, prints.1 = .ok ⟨0, some t⟩ → ∃ path, w.files.resolve name = .ok path ∧
        saves.1 =
          match refusal path (Bytes.encode (t ++ ['\n'])) with
          | some fault => .error (.unwritableFile name fault)
          | none => .ok ⟨0, none⟩) ∧
    (∀ out, saves.1 = .ok out → isStdin name = false ∧
      ∃ t, prints.1 = .ok ⟨0, some t⟩ ∧ w.files.Rewritten name (t ++ ['\n']) saves.2) ∧
    ((∀ entry ∈ config.dictionary.entries, config.dictionary.correctText entry.2 = entry.2) →
      ∀ stdin, formatEnding ⟨saves.2, stdin⟩ config name true refusal = saves ∧
        ∀ out, saves.1 = .ok out → ∀ refusal',
          (formatEnding ⟨saves.2, stdin⟩ config name true refusal').2 = saves.2) := by
  intro prints saves
  refine ⟨?_, fun _ => files_of_failure, fun isFile => ⟨fun _ => fails_of_prints_fails isFile, ?_⟩,
    fun _ => rewritten_of_saves, fun fixed stdin =>
      formatEnding_again (Dictionary.stable_of_entries fixed) stdin⟩
  · exact congrArg Prod.snd formatEnding_prints
  · intro t printed
    have made := formatted_of_prints printed
    obtain ⟨source, path, bytes, -, resolved, found⟩ := exists_file_of_formatted isFile made
    refine ⟨path, resolved, ?_⟩
    have saving : saves = _ := formatEnding_written isFile made resolved found
    rw [saving]
    split <;> rfl

theorem format_safe_detour :
    let config : Config := { extra := [("slect".toList, "select distinct".toList)] }
    let query : Path := ["q".toList, "a.sql".toList]
    let other : Path := ["b.sql".toList]
    let w : World := ⟨⟨[(query, .file (Bytes.encode "slect é,(b)\tfrm t ".toList)),
      (other, .file [0xFF])]⟩, []⟩
    let name := "./q/../q/a.sql".toList
    let open_ : Refusal := fun _ _ => none
    let denied : FileFault := .other "Permission denied (os error 13)".toList
    let readOnly : Refusal := fun path _ => if path = query then some denied else none
    let saved := formatEnding w config name true open_
    (∀ entry ∈ config.dictionary.entries, config.dictionary.correctText entry.2 = entry.2) ∧
      saved.1.toOption = some ⟨0, none⟩ ∧
      saved.2 = ⟨[(query, .file (Bytes.encode "SELECT DISTINCT é,\n( b)\nFROM t\n".toList)),
        (other, .file [0xFF])]⟩ ∧
      (formatEnding w config "b.sql".toList true open_).2 = w.files ∧
      formatEnding ⟨saved.2, []⟩ config name true open_ = saved ∧
      (formatEnding ⟨saved.2, []⟩ config name true readOnly).2 = saved.2 ∧
      formatEnding w config name true readOnly =
        (.error (.unwritableFile name denied), w.files) := by
  -- a file in a folder, named by a detour, beside one that is not text; it is written twice, and
  -- refused where it is read-only
  intro config query other w name open_ denied readOnly saved
  have fixed : ∀ entry ∈ config.dictionary.entries,
      config.dictionary.correctText entry.2 = entry.2 := by decide +kernel
  have unreadable : (formatEnding w config "b.sql".toList true open_).1 =
      .error (.unreadableFile "b.sql".toList .notText) := rfl
  have succeeded : saved.1 = .ok ⟨0, none⟩ := by decide +kernel
  have refused : (formatEnding w config name true readOnly).1 =
      .error (.unwritableFile name denied) := by decide +kernel
  obtain ⟨-, failing, -⟩ := format_safe w config "b.sql".toList open_
  obtain ⟨-, -, -, -, again⟩ := format_safe w config name open_
  obtain ⟨-, unchanged, -⟩ := format_safe w config name readOnly
  refine ⟨fixed, by decide +kernel, by decide +kernel, failing _ unreadable, (again fixed []).1,
    (again fixed []).2 _ succeeded readOnly, ?_⟩
  exact Prod.ext refused (unchanged _ refused)

end QueryTidy.Command
