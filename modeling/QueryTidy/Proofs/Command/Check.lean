import QueryTidy.Command.Check
import QueryTidy.Proofs.Files
import Mathlib.Data.List.FinRange
import Mathlib.Data.List.Forall2

/-!
The check command on several inputs. As long as the standard input is named once at most, no input
takes anything away from another one, so each is read as it would be read alone, whatever the order
of reading. What is printed then follows the order of the names, and the exit code is the worst one.
-/

set_option autoImplicit false
set_option relaxedAutoImplicit false

namespace QueryTidy

namespace Report

theorem foldl_rank (findings : List Finding) (worst : Nat) :
    findings.foldl (fun worst f => max worst f.severity.rank) worst =
      max worst (findings.foldl (fun worst f => max worst f.severity.rank) 0) := by
  induction findings generalizing worst with
  | nil => simp
  | cons f findings ih =>
    rw [List.foldl_cons, List.foldl_cons, ih, ih (max 0 _)]
    omega

theorem exitCode_eq_foldr (reports : List Report) :
    exitCode reports = (reports.map fun r => exitCode [r]).foldr max 0 := by
  induction reports with
  | nil => rfl
  | cons r reports ih =>
    rw [List.map_cons, List.foldr_cons, ← ih]
    simp only [exitCode, List.flatMap_cons, List.flatMap_nil, List.append_nil, List.foldl_append]
    exact foldl_rank _ _

end Report

namespace Command

section Lists

variable {α β : Type} {R : α → β → Prop}

private theorem exists_lookup_zip [BEq α] [LawfulBEq α] {places : List α} {found : List β}
    (each : List.Forall₂ R places found) {place : α} (named : place ∈ places) :
    ∃ b, (places.zip found).lookup place = some b ∧ R place b := by
  induction each with
  | nil => contradiction
  | @cons first b places found related _ ih =>
    rw [List.zip_cons_cons, List.lookup_cons]
    by_cases here : place = first
    · subst here
      exact ⟨b, by rw [beq_self_eq_true], related⟩
    · rw [beq_eq_false_iff_ne.mpr here]
      exact ih (List.mem_of_ne_of_mem here named)

private theorem forall₂_filterMap {f : α → Option β} {places : List α}
    (each : ∀ a ∈ places, ∃ b, f a = some b ∧ R a b) :
    List.Forall₂ R places (places.filterMap f) := by
  induction places with
  | nil => exact .nil
  | cons a places ih =>
    obtain ⟨b, found, related⟩ := each a (by simp)
    rw [List.filterMap_cons, found]
    exact .cons related (ih fun a' later => each a' (List.mem_cons_of_mem a later))

end Lists

theorem ReadingOrder.forall₂_arrange {n : Nat} {α : Type} {R : Fin n → α → Prop} {found : List α}
    (order : ReadingOrder n) (each : List.Forall₂ R order.places found) :
    List.Forall₂ R (List.finRange n) (order.arrange found) := by
  refine forall₂_filterMap fun place _ => exists_lookup_zip each ?_
  exact order.complete.mem_iff.mpr (List.mem_finRange place)

variable {w : World} {config : Config} {terminal : Bool} {options : Report.Options}
  {names : List Text} {name t : Text} {fault : FileFault} {r : Report}

def failureName (name : Text) : Text :=
  if isStdin name then "stdin".toList else name

namespace World

/-- Whether a name leads to bytes: those of the standard input or of a file. -/
def Holds (w : World) (name : Text) (bytes : List UInt8) : Prop :=
  if isStdin name then w.stdin = bytes else w.files.bytesOf name = .ok bytes

/-- Whether a name leads to no text, and why: there is no file of that name, or what it leads to is
not UTF-8. -/
def Unreadable (w : World) (name : Text) (fault : FileFault) : Prop :=
  (isStdin name = false ∧ w.files.bytesOf name = .error fault) ∨
    (fault = .notText ∧ ∃ bytes, w.Holds name bytes ∧ ∀ t, bytes ≠ Bytes.encode t)

theorem textOf_eq_ok_iff : w.textOf name = .ok t ↔ w.Holds name (Bytes.encode t) := by
  unfold textOf Holds
  by_cases stdin : isStdin name
  · rw [if_pos stdin, if_pos stdin, ← Bytes.decode_eq_ok_iff]
    cases Bytes.decode w.stdin <;> simp
  · rw [if_neg stdin, if_neg stdin]
    have read : w.files.textOf name = .ok t ↔ w.files.bytesOf name = .ok (Bytes.encode t) := by
      simp only [Files.textOf_eq_ok_iff, Bytes.decode_eq_ok_iff]
      exact ⟨fun ⟨bytes, read, same⟩ => same ▸ read, fun read => ⟨_, read, rfl⟩⟩
    rw [← read]
    cases w.files.textOf name <;> simp

private theorem exists_fault_iff (bytes : List UInt8) :
    (∀ t, bytes ≠ Bytes.encode t) ↔ ∃ fault, Bytes.decode bytes = .error fault := by
  simp only [ne_eq, ← Bytes.decode_eq_ok_iff]
  cases Bytes.decode bytes <;> simp

theorem textOf_eq_error_iff {failure : Failure} :
    w.textOf name = .error failure ↔
      ∃ fault, w.Unreadable name fault ∧ failure = .unreadableFile (failureName name) fault := by
  unfold textOf Unreadable Holds failureName
  simp only [exists_fault_iff]
  by_cases stdin : isStdin name
  · cases decoded : Bytes.decode w.stdin <;> simp [stdin, decoded, eq_comm (b := failure)]
  · simp only [stdin, Files.textOf]
    cases w.files.bytesOf name with
    | error fault => simp [Except.bind, eq_comm (b := failure)]
    | ok bytes =>
      cases decoded : Bytes.decode bytes <;> simp [Except.bind, decoded, eq_comm (b := failure)]

theorem Unreadable.unique {fault' : FileFault} (unreadable : w.Unreadable name fault)
    (unreadable' : w.Unreadable name fault') : fault = fault' := by
  have failed := textOf_eq_error_iff.mpr ⟨fault, unreadable, rfl⟩
  rw [textOf_eq_error_iff.mpr ⟨fault', unreadable', rfl⟩] at failed
  injection failed with same
  injection same with _ same
  exact same.symm

theorem textOf_after {other : Text} (apart : isStdin other → isStdin name = false) :
    (w.after other).textOf name = w.textOf name := by
  unfold after
  split
  · rename_i stdin
    unfold textOf
    simp [apart stdin]
  · rfl

theorem files_after : (w.after name).files = w.files := by
  unfold after
  split <;> rfl

theorem files_texts (w : World) (names : List Text) : (w.texts names).2.files = w.files := by
  induction names generalizing w with
  | nil => rfl
  | cons name names ih =>
    unfold texts
    split
    · exact files_after
    · exact (ih _).trans files_after

theorem texts_cases (w : World) (names : List Text) (once : names.count ['-'] ≤ 1) :
    (∃ found, (w.texts names).1 = .ok found ∧
        List.Forall₂ (fun name t => w.textOf name = .ok t) names found) ∨
      ∃ name ∈ names, ∃ failure, w.textOf name = .error failure ∧
        (w.texts names).1 = .error failure := by
  induction names generalizing w with
  | nil => exact Or.inl ⟨[], rfl, .nil⟩
  | cons name names ih =>
    have fewer : names.count ['-'] ≤ 1 := by
      rw [List.count_cons] at once
      omega
    have same : ∀ other ∈ names, (w.after name).textOf other = w.textOf other := by
      intro other later
      apply textOf_after
      intro stdin
      by_contra stdin'
      have here : name = ['-'] := by simpa [isStdin] using stdin
      have there : other = ['-'] := by simpa [isStdin] using stdin'
      have again : 0 < names.count ['-'] := List.count_pos_iff.mpr (there ▸ later)
      rw [here, List.count_cons_self] at once
      omega
    cases read : w.textOf name with
    | error failure => exact Or.inr ⟨name, by simp, failure, read, by simp [texts, read]⟩
    | ok t =>
      rcases ih (w.after name) fewer with ⟨found, rest, each⟩ | ⟨other, later, failure, fails, rest⟩
      · refine Or.inl ⟨t :: found, by simp [texts, read, rest, Except.map], .cons read ?_⟩
        refine ((List.forall₂_and_left _ _).mpr ⟨same, each⟩).imp ?_
        rintro other t ⟨unchanged, found⟩
        rw [← unchanged, found]
      · refine Or.inr ⟨other, List.mem_cons_of_mem name later, failure, ?_, ?_⟩
        · rw [← same other later, fails]
        · simp [texts, read, rest, Except.map]

end World

/-- Whether a report is the one on an input: it has the name of the input and what is found in the
text that the name leads to. -/
def Reported (w : World) (config : Config) (name : Text) (r : Report) : Prop :=
  ∃ t, w.Holds name (Bytes.encode t) ∧ r = ⟨sourceName name, config.analyzer.analyze t⟩

theorem Reported.not_unreadable (reported : Reported w config name r) :
    ¬w.Unreadable name fault := by
  intro unreadable
  obtain ⟨t, held, -⟩ := reported
  have failed := World.textOf_eq_error_iff.mpr ⟨fault, unreadable, rfl⟩
  rw [World.textOf_eq_ok_iff.mpr held] at failed
  contradiction

theorem Reported.unique {r' : Report} (reported : Reported w config name r)
    (reported' : Reported w config name r') : r = r' := by
  obtain ⟨t, held, rfl⟩ := reported
  obtain ⟨t', held', rfl⟩ := reported'
  have read := (World.textOf_eq_ok_iff.mpr held).symm.trans (World.textOf_eq_ok_iff.mpr held')
  rw [Except.ok.inj read]

theorem forall₂_reported {found : List Text}
    (each : List.Forall₂ (fun name t => w.textOf name = .ok t) names found) :
    List.Forall₂ (Reported w config) names ((names.zip found).map (report config.analyzer)) := by
  induction each with
  | nil => exact .nil
  | cons read _ ih => exact .cons ⟨_, World.textOf_eq_ok_iff.mp read, rfl⟩ ih

theorem outcome_checkEnding (order : ReadingOrder names.length) :
    (checkEnding w config terminal options names order).1 =
      (w.texts (order.places.map names.get)).1.map fun found =>
        output config terminal options (names.zip (order.arrange found)) := rfl

/-- In every order of reading, the inputs are reported in the order of their names, or one of them
cannot be read and the command fails for that reason. -/
theorem checkEnding_cases (w : World) (config : Config) (terminal : Bool)
    (options : Report.Options) (names : List Text) (order : ReadingOrder names.length)
    (once : names.count ['-'] ≤ 1) :
    (∃ reports, List.Forall₂ (Reported w config) names reports ∧
        (checkEnding w config terminal options names order).1 =
          .ok ⟨Report.exitCode reports, some (Report.render terminal options reports)⟩) ∨
      ∃ name ∈ names, ∃ fault, w.Unreadable name fault ∧
        (checkEnding w config terminal options names order).1 =
          .error (.unreadableFile (failureName name) fault) := by
  have whole : (List.finRange names.length).map names.get = names := List.map_get_finRange names
  have same : (order.places.map names.get).Perm names := by
    have moved := order.complete.map names.get
    rwa [whole] at moved
  rw [outcome_checkEnding]
  rcases w.texts_cases (order.places.map names.get) (by rwa [same.count_eq]) with
    ⟨found, read, each⟩ | ⟨name, named, failure, failed, read⟩
  · left
    have arranged := order.forall₂_arrange (List.forall₂_map_left_iff.mp each)
    have inOrder : List.Forall₂ (fun name t => w.textOf name = .ok t)
        ((List.finRange names.length).map names.get) (order.arrange found) :=
      List.forall₂_map_left_iff.mpr arranged
    rw [whole] at inOrder
    refine ⟨_, forall₂_reported inOrder, ?_⟩
    rw [read]
    rfl
  · right
    obtain ⟨fault, unreadable, rfl⟩ := World.textOf_eq_error_iff.mp failed
    refine ⟨name, same.mem_iff.mp named, fault, unreadable, ?_⟩
    rw [read]
    rfl

theorem readable_of_reported {reports : List Report}
    (each : List.Forall₂ (Reported w config) names reports) :
    ∀ name ∈ names, ∀ fault, ¬w.Unreadable name fault := by
  have both : List.Forall₂ (fun name r => (∀ fault, ¬w.Unreadable name fault) ∧
      Reported w config name r) names reports :=
    each.imp fun _ _ reported => ⟨fun _ => reported.not_unreadable, reported⟩
  exact ((List.forall₂_and_left _ _).mp both).1

theorem outcome_of_reported {reports : List Report} (order : ReadingOrder names.length)
    (once : names.count ['-'] ≤ 1) (each : List.Forall₂ (Reported w config) names reports) :
    (checkEnding w config terminal options names order).1 =
      .ok ⟨Report.exitCode reports, some (Report.render terminal options reports)⟩ := by
  rcases checkEnding_cases w config terminal options names order once with
    ⟨reports', each', ending⟩ | ⟨name, named, fault, unreadable, -⟩
  · have unique : Relator.RightUnique (Reported w config) := fun _ _ _ => Reported.unique
    obtain rfl := List.right_unique_forall₂' unique each each'
    exact ending
  · exact absurd unreadable (readable_of_reported each name named fault)

theorem outcome_of_unreadable (order : ReadingOrder names.length) (once : names.count ['-'] ≤ 1)
    (single : ∀ a ∈ names, ∀ b ∈ names, ∀ f g, w.Unreadable a f → w.Unreadable b g → a = b)
    (named : name ∈ names) (unreadable : w.Unreadable name fault) :
    (checkEnding w config terminal options names order).1 =
      .error (.unreadableFile (failureName name) fault) := by
  rcases checkEnding_cases w config terminal options names order once with
    ⟨reports, each, -⟩ | ⟨name', named', fault', unreadable', ending⟩
  · exact absurd unreadable (readable_of_reported each name named fault)
  · obtain rfl := single name named name' named' fault fault' unreadable unreadable'
    obtain rfl := unreadable.unique unreadable'
    exact ending

theorem check_of_reported (reported : Reported w config name r) :
    check w config terminal options [name] =
      .ok ⟨Report.exitCode [r], some (Report.render terminal options [r])⟩ :=
  outcome_of_reported _ List.count_le_length (.cons reported .nil)

theorem check_of_unreadable (unreadable : w.Unreadable name fault) :
    check w config terminal options [name] =
      .error (.unreadableFile (failureName name) fault) := by
  apply outcome_of_unreadable _ List.count_le_length _ (List.mem_singleton_self name) unreadable
  intro a isName b isName' f g _ _
  exact (List.mem_singleton.mp isName).trans (List.mem_singleton.mp isName').symm

theorem exists_singles {reports : List Report} (terminal : Bool) (options : Report.Options)
    (each : List.Forall₂ (Reported w config) names reports) :
    ∃ singles, List.Forall₂ (fun name single =>
        check w config terminal options [name] = .ok single) names singles ∧
      Report.exitCode reports = (singles.map Output.exitCode).foldr max 0 ∧
      (options.format = .text → ∃ texts, singles.map Output.stdout = texts.map some ∧
        some (Report.render terminal options reports) = some (Text.joinWith ['\n'] texts)) := by
  refine ⟨reports.map fun r => ⟨Report.exitCode [r], some (Report.render terminal options [r])⟩,
    ?_, ?_, fun isText => ?_⟩
  · exact List.forall₂_map_right_iff.mpr (each.imp fun _ _ => check_of_reported)
  · rw [List.map_map]
    exact Report.exitCode_eq_foldr reports
  · refine ⟨reports.map (Report.plain (options.coloured && terminal)), ?_, ?_⟩
    · simp [Report.render, isText, Report.plainAll, Text.joinWith]
    · simp [Report.render, isText, Report.plainAll]

/-- Checking several inputs is checking each of them, in whatever order they are read: it fails
exactly if one of them cannot be read, as that one does alone, and otherwise the reports are in the
order of the names and the exit code is the worst one. No file changes. -/
theorem check_composes (w : World) (config : Config) (terminal : Bool) (options : Report.Options)
    (names : List Text) (order : ReadingOrder names.length) (once : names.count ['-'] ≤ 1)
    (single : ∀ a ∈ names, ∀ b ∈ names, ∀ f g, w.Unreadable a f → w.Unreadable b g → a = b) :
    let ending := checkEnding w config terminal options names order
    (∀ failure, ending.1 = .error failure ↔
      ∃ name ∈ names, ∃ fault, w.Unreadable name fault ∧
        failure = .unreadableFile (failureName name) fault ∧
        check w config terminal options [name] = .error failure) ∧
    ((∀ name ∈ names, ∀ fault, ¬w.Unreadable name fault) →
      ∃ out reports singles, ending.1 = .ok out ∧
        List.Forall₂ (Reported w config) names reports ∧
        out.stdout = some (Report.render terminal options reports) ∧
        List.Forall₂ (fun name single => check w config terminal options [name] = .ok single)
          names singles ∧
        out.exitCode = (singles.map Output.exitCode).foldr max 0 ∧
        (options.format = .text → ∃ texts, singles.map Output.stdout = texts.map some ∧
          out.stdout = some (Text.joinWith ['\n'] texts))) ∧
    ending.1 = check w config terminal options names ∧
    ending.2.files = w.files := by
  intro ending
  rcases checkEnding_cases w config terminal options names order once with
    ⟨reports, each, -⟩ | ⟨name, named, fault, unreadable, -⟩
  · have readable := readable_of_reported each
    have printed : ending.1 = _ := outcome_of_reported order once each
    refine ⟨fun failure => ?_, fun _ => ?_, ?_, World.files_texts w _⟩
    · rw [printed]
      constructor
      · intro failed
        contradiction
      · rintro ⟨name, named, fault, unreadable, -⟩
        exact absurd unreadable (readable name named fault)
    · obtain ⟨singles, alone, worst, joined⟩ := exists_singles terminal options each
      exact ⟨_, reports, singles, printed, each, rfl, alone, worst, joined⟩
    · exact printed.trans (outcome_of_reported _ once each).symm
  · have fails : ending.1 = _ := outcome_of_unreadable order once single named unreadable
    refine ⟨fun failure => ?_, fun readable => ?_, ?_, World.files_texts w _⟩
    · constructor
      · intro failed
        obtain rfl := Except.error.inj (fails.symm.trans failed)
        exact ⟨name, named, fault, unreadable, rfl, check_of_unreadable unreadable⟩
      · rintro ⟨name', named', fault', unreadable', rfl, -⟩
        exact outcome_of_unreadable order once single named' unreadable'
    · exact absurd unreadable (readable name named fault)
    · exact fails.trans (outcome_of_unreadable _ once single named unreadable).symm

theorem check_composes_mixed :
    let w : World := ⟨⟨[(["a.sql".toList], .file (Bytes.encode "SELECT é;".toList)),
      (["b.sql".toList], .file (Bytes.encode "SELECT 1".toList)),
      (["c.sql".toList], .file [0xFF])]⟩, Bytes.encode "frm;".toList⟩
    let config : Config := { rules := ⟨[], [("sql002".toList, "warning".toList)]⟩ }
    let names := ["b.sql".toList, ['-'], "a.sql".toList]
    let ending := checkEnding w config false {} names ⟨[2, 0, 1], by decide⟩
    names.count ['-'] ≤ 1 ∧ (∀ name ∈ names, ∀ fault, ¬w.Unreadable name fault) ∧
      ending.1 = check w config false {} names ∧
      (check w config false {} names).toOption = some ⟨2, some ("b.sql:\n  ".toList ++
        "WARN [SQL002] Missing semicolon at the end of the query - ".toList ++
        "Ensure your query ends with a ';'\n\n".toList ++
        "<stdin>:\n  ERROR [SQL001] Misspelled keyword: FRM - Did you mean: FROM?\n\n".toList ++
        "a.sql: No issues found!\n".toList)⟩ ∧
      w.Unreadable "c.sql".toList .notText ∧
      (checkEnding w config false {} ["a.sql".toList, "c.sql".toList] ⟨[1, 0], by decide⟩).1 =
        .error (.unreadableFile "c.sql".toList .notText) := by
  -- a warning in the first file, an error in the standard input and nothing in the last file,
  -- which is read first; and a file that is not text, beside one that is
  intro w config names ending
  have readable : ∀ name ∈ names, ∀ fault, ¬w.Unreadable name fault := by
    have read : ∀ name ∈ names, (w.textOf name).toOption.isSome := by decide +kernel
    intro name named fault unreadable
    have some := read name named
    rw [World.textOf_eq_error_iff.mpr ⟨fault, unreadable, rfl⟩] at some
    contradiction
  have broken : w.Unreadable "c.sql".toList .notText := by
    obtain ⟨fault, unreadable, same⟩ := World.textOf_eq_error_iff.mp
      (show w.textOf "c.sql".toList = .error (.unreadableFile "c.sql".toList .notText) from rfl)
    injection same with _ same
    exact same ▸ unreadable
  have all := check_composes w config false {} names ⟨[2, 0, 1], by decide⟩ (by decide)
    fun a named _ _ f _ unreadable _ => absurd unreadable (readable a named f)
  have mixed := check_composes w config false {} ["a.sql".toList, "c.sql".toList]
    ⟨[1, 0], by decide⟩ (by decide) ?_
  · refine ⟨by decide, readable, all.2.2.1, by decide +kernel, broken, (mixed.1 _).mpr ?_⟩
    exact ⟨_, by simp, _, broken, rfl, check_of_unreadable broken⟩
  · have only : ∀ a ∈ ["a.sql".toList, "c.sql".toList], ∀ f, w.Unreadable a f →
        a = "c.sql".toList := by
      intro a named f unreadable
      rcases List.mem_cons.mp named with rfl | named
      · exact absurd unreadable (readable _ (by simp [names]) f)
      · exact List.mem_singleton.mp named
    intro a namedA b namedB f g unreadable unreadable'
    rw [only a namedA f unreadable, only b namedB g unreadable']

end Command

end QueryTidy
