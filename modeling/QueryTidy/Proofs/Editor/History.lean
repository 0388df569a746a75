import QueryTidy.Editor.Session
import Mathlib.Data.List.Induction
import Mathlib.Tactic.Common

/-!
Sessions along a history of calls. Each call is a change, an analysis that runs, or nothing at all;
from this follows what is pending and what is on display after every history, at whatever times its
calls are made.
-/

set_option autoImplicit false
set_option relaxedAutoImplicit false

namespace QueryTidy.Editor

def Edit.applied (d : Dictionary) (document : Text) : Edit → Text
  | .insert t => document ++ t
  | .line t => endLine document ++ t ++ ['\n']
  | .replace t => t
  | .format => QueryTidy.format d document

/-- Whether an edit is a change; formatting is one if it alters the document. -/
def Edit.changes (d : Dictionary) (document : Text) : Edit → Bool
  | .insert _ | .line _ | .replace _ => true
  | .format => QueryTidy.format d document != document

def Step.applied (d : Dictionary) (document : Text) : Step → Text
  | .edit e _ => e.applied d document
  | .formatDocument _ => Edit.format.applied d document
  | .change _ | .poll _ | .flush => document

theorem Edit.applied_of_not_changes {d : Dictionary} {document : Text} {e : Edit}
    (idle : e.changes d document = false) : e.applied d document = document := by
  cases e with
  | insert t => simp [changes] at idle
  | line t => simp [changes] at idle
  | replace t => simp [changes] at idle
  | format => simpa [changes, applied] using idle

namespace Session

theorem perform_of_changes {s : Session} {e : Edit} (changes : e.changes s.dictionary s.document)
    (now : Millis) : s.perform e now = s.write (e.applied s.dictionary s.document) now := by
  cases e with
  | insert t => rfl
  | line t => rfl
  | replace t => rfl
  | format =>
    have altered : QueryTidy.format s.dictionary s.document ≠ s.document := by
      simpa [Edit.changes] using changes
    exact if_neg altered

theorem perform_of_not_changes {s : Session} {e : Edit}
    (idle : e.changes s.dictionary s.document = false) (now : Millis) : s.perform e now = s := by
  cases e with
  | insert t => simp [Edit.changes] at idle
  | line t => simp [Edit.changes] at idle
  | replace t => simp [Edit.changes] at idle
  | format =>
    have same : QueryTidy.format s.dictionary s.document = s.document := by
      simpa [Edit.changes] using idle
    exact if_pos same

theorem document_perform (s : Session) (e : Edit) (now : Millis) :
    (s.perform e now).document = e.applied s.dictionary s.document := by
  by_cases changes : e.changes s.dictionary s.document
  · rw [perform_of_changes changes]
    rfl
  · have idle : e.changes s.dictionary s.document = false := Bool.eq_false_iff.mpr changes
    rw [perform_of_not_changes idle, Edit.applied_of_not_changes idle]

theorem poll_eq (s : Session) (now : Millis) :
    s.poll now = if s.debounce.isDue now then (true, s.render) else (false, s) := by
  unfold poll Debounce.fire
  by_cases due : s.debounce.isDue now
  · rw [if_pos due, if_pos due]
    rfl
  · rw [if_neg due, if_neg due]
    rfl

/-- The time at which a call changes the session, if it does; formatting does if the document after
it is not the one before it. -/
def changedAt? (s : Session) : Step → Option Millis
  | .edit (.insert _) now | .edit (.line _) now | .edit (.replace _) now | .change now => some now
  | .edit .format now =>
    if (s.step (.edit .format now)).2.document = s.document then none else some now
  | .formatDocument now =>
    if (s.step (.formatDocument now)).2.document = s.document then none else some now
  | .poll _ | .flush => none

theorem changedAt?_edit (s : Session) (e : Edit) (now : Millis) :
    s.changedAt? (.edit e now) = if e.changes s.dictionary s.document then some now else none := by
  cases e with
  | insert t => rfl
  | line t => rfl
  | replace t => rfl
  | format =>
    change (if (s.perform .format now).document = s.document then none else some now) = _
    rw [document_perform]
    by_cases same : Edit.format.applied s.dictionary s.document = s.document
    · rw [if_pos same, if_neg]
      simpa [Edit.changes, Edit.applied] using same
    · rw [if_neg same, if_pos]
      simpa [Edit.changes, Edit.applied] using same

def ran (s : Session) (call : Step) : Bool :=
  (s.step call).1 == some true

/-- Everything that a call can do: note a change, run the analysis, or leave the session alone. -/
theorem step_cases (s : Session) (call : Step) :
    (∃ now document writes, s.changedAt? call = some now ∧ s.ran call = false ∧
        (s.step call).2 = change { s with document, writes } now) ∨
      (s.changedAt? call = none ∧ s.ran call = true ∧ (s.step call).2 = s.render) ∨
      (s.changedAt? call = none ∧ s.ran call = false ∧ (s.step call).2 = s) := by
  have edits : ∀ (e : Edit) (now : Millis),
      (∃ document writes, s.changedAt? (.edit e now) = some now ∧
        s.perform e now = change { s with document, writes } now) ∨
      (s.changedAt? (.edit e now) = none ∧ s.perform e now = s) := by
    intro e now
    rw [changedAt?_edit]
    by_cases changes : e.changes s.dictionary s.document
    · exact Or.inl ⟨_, _, if_pos changes, perform_of_changes changes now⟩
    · exact Or.inr ⟨if_neg changes, perform_of_not_changes (Bool.eq_false_iff.mpr changes) now⟩
  cases call with
  | edit e now =>
    rcases edits e now with ⟨document, writes, changed, after⟩ | ⟨idle, after⟩
    · exact Or.inl ⟨now, document, writes, changed, rfl, after⟩
    · exact Or.inr (Or.inr ⟨idle, rfl, after⟩)
  | change now =>
    left
    exact ⟨now, s.document, s.writes, rfl, rfl, rfl⟩
  | formatDocument now =>
    rcases edits .format now with ⟨document, writes, changed, after⟩ | ⟨idle, after⟩
    · exact Or.inl ⟨now, document, writes, changed, rfl, after⟩
    · exact Or.inr (Or.inr ⟨idle, rfl, after⟩)
  | poll now =>
    by_cases due : s.debounce.isDue now
    · right; left
      exact ⟨rfl, by simp [ran, step, poll_eq, due], by simp [step, poll_eq, due]⟩
    · right; right
      exact ⟨rfl, by simp [ran, step, poll_eq, due], by simp [step, poll_eq, due]⟩
  | flush =>
    by_cases pending : s.debounce.deadline.isSome
    · right; left
      exact ⟨rfl, by simp [ran, step, flush, pending], by simp [step, flush, pending]⟩
    · right; right
      exact ⟨rfl, by simp [ran, step, flush, pending], by simp [step, flush, pending]⟩

theorem document_step (s : Session) (call : Step) :
    (s.step call).2.document = call.applied s.dictionary s.document := by
  cases call with
  | edit e now => exact s.document_perform e now
  | change now => rfl
  | formatDocument now => exact s.document_perform .format now
  | poll now =>
    change (s.poll now).2.document = s.document
    rw [poll_eq]
    split <;> rfl
  | flush =>
    change s.flush.2.document = s.document
    unfold flush
    split <;> rfl

theorem run_append (s : Session) (history : List Step) (call : Step) :
    s.run (history ++ [call]) = ((s.run history).step call).2 := by
  simp only [run, List.foldl_append, List.foldl_cons, List.foldl_nil]

/-- Whether the call at a place of a history has a property, in the session it is made on. -/
def CallAt (s : Session) (history : List Step) (place : Nat) (holds : Session → Step → Prop) :
    Prop :=
  ∃ call, history[place]? = some call ∧ holds (s.run (history.take place)) call

def ChangesAt (s : Session) (history : List Step) (place : Nat) (time : Millis) : Prop :=
  s.CallAt history place fun s call => s.changedAt? call = some time

def RunsAt (s : Session) (history : List Step) (place : Nat) : Prop :=
  s.CallAt history place fun s call => s.ran call

/-- Whether an analysis falls due at a time after a history: the latest change is a quiet period
before it, and no analysis has run since. -/
def Awaits (s : Session) (history : List Step) (due : Millis) : Prop :=
  ∃ place time, s.ChangesAt history place time ∧ due = time + s.debounce.quiet ∧
    ∀ later, place < later → (∀ time, ¬s.ChangesAt history later time) ∧ ¬s.RunsAt history later

variable {s : Session} {history : List Step} {call : Step}

theorem CallAt.lt_length {place : Nat} {holds : Session → Step → Prop}
    (made : s.CallAt history place holds) : place < history.length := by
  obtain ⟨call, found, -⟩ := made
  exact (List.getElem?_eq_some_iff.mp found).1

private theorem CallAt.le_length {place : Nat} {holds : Session → Step → Prop}
    (made : s.CallAt (history ++ [call]) place holds) : place ≤ history.length := by
  have bound := made.lt_length
  rw [List.length_append, List.length_singleton] at bound
  exact Nat.lt_succ_iff.mp bound

theorem callAt_append {place : Nat} {holds : Session → Step → Prop} :
    s.CallAt (history ++ [call]) place holds ↔
      s.CallAt history place holds ∨ place = history.length ∧ holds (s.run history) call := by
  rcases Nat.lt_trichotomy place history.length with inside | rfl | beyond
  · have same : s.CallAt (history ++ [call]) place holds ↔ s.CallAt history place holds := by
      unfold CallAt
      rw [List.getElem?_append_left inside, List.take_append_of_le_length (Nat.le_of_lt inside)]
    rw [same]
    constructor
    · exact Or.inl
    · rintro (old | ⟨rfl, -⟩)
      · exact old
      · exact absurd inside (Nat.lt_irrefl _)
  · constructor
    · rintro ⟨last, found, yes⟩
      rw [List.getElem?_concat_length] at found
      obtain rfl := Option.some.inj found
      rw [List.take_left] at yes
      exact Or.inr ⟨rfl, yes⟩
    · rintro (old | ⟨-, yes⟩)
      · exact absurd old.lt_length (Nat.lt_irrefl _)
      · refine ⟨call, List.getElem?_concat_length, ?_⟩
        rw [List.take_left]
        exact yes
  · constructor
    · intro new
      exact absurd new.le_length (Nat.not_le.mpr beyond)
    · rintro (old | ⟨rfl, -⟩)
      · exact absurd (Nat.lt_trans old.lt_length beyond) (Nat.lt_irrefl _)
      · exact absurd beyond (Nat.lt_irrefl _)

theorem awaits_append_of_change {now : Millis}
    (change : (s.run history).changedAt? call = some now) (due : Millis) :
    s.Awaits (history ++ [call]) due ↔ due = now + s.debounce.quiet := by
  constructor
  · rintro ⟨place, time, changes, rfl, latest⟩
    rcases callAt_append.mp changes with old | ⟨-, new⟩
    · have none := (latest history.length old.lt_length).1 now
      exact absurd (callAt_append.mpr (Or.inr ⟨rfl, change⟩)) none
    · rw [change] at new
      rw [Option.some.inj new]
  · rintro rfl
    refine ⟨history.length, now, callAt_append.mpr (Or.inr ⟨rfl, change⟩), rfl, ?_⟩
    intro later after
    constructor
    · intro time changes
      exact absurd changes.le_length (Nat.not_le.mpr after)
    · intro runs
      exact absurd runs.le_length (Nat.not_le.mpr after)

theorem not_awaits_append_of_ran (idle : (s.run history).changedAt? call = none)
    (runs : (s.run history).ran call) (due : Millis) : ¬s.Awaits (history ++ [call]) due := by
  rintro ⟨place, time, changes, -, latest⟩
  rcases callAt_append.mp changes with old | ⟨-, new⟩
  · have notRun := (latest history.length old.lt_length).2
    exact notRun (callAt_append.mpr (Or.inr ⟨rfl, runs⟩))
  · rw [idle] at new
    contradiction

theorem awaits_append_of_idle (idle : (s.run history).changedAt? call = none)
    (rests : (s.run history).ran call = false) (due : Millis) :
    s.Awaits (history ++ [call]) due ↔ s.Awaits history due := by
  have changesSame : ∀ place time,
      s.ChangesAt (history ++ [call]) place time ↔ s.ChangesAt history place time := by
    intro place time
    refine callAt_append.trans (or_iff_left ?_)
    rintro ⟨-, new⟩
    rw [idle] at new
    contradiction
  have runsSame : ∀ place, s.RunsAt (history ++ [call]) place ↔ s.RunsAt history place := by
    intro place
    refine callAt_append.trans (or_iff_left ?_)
    rintro ⟨-, runs⟩
    rw [rests] at runs
    contradiction
  simp only [Awaits, changesSame, runsSame]

structure SameTools (s r : Session) : Prop where
  analyzer : s.analyzer = r.analyzer
  dictionary : s.dictionary = r.dictionary
  quiet : s.debounce.quiet = r.debounce.quiet

theorem step_sameTools (s : Session) (call : Step) : (s.step call).2.SameTools s := by
  rcases step_cases s call with ⟨now, document, writes, -, -, after⟩ | ⟨-, -, after⟩ | ⟨-, -, after⟩
  · rw [after]
    exact ⟨rfl, rfl, rfl⟩
  · rw [after]
    exact ⟨rfl, rfl, rfl⟩
  · rw [after]
    exact ⟨rfl, rfl, rfl⟩

theorem run_sameTools (s : Session) (history : List Step) : (s.run history).SameTools s := by
  induction history using List.reverseRecOn with
  | nil => exact ⟨rfl, rfl, rfl⟩
  | append_singleton history call ih =>
    rw [run_append]
    have last := (s.run history).step_sameTools call
    exact ⟨last.analyzer.trans ih.analyzer, last.dictionary.trans ih.dictionary,
      last.quiet.trans ih.quiet⟩

theorem document_run (s : Session) (history : List Step) :
    (s.run history).document = history.foldl (Step.applied s.dictionary) s.document := by
  induction history using List.reverseRecOn with
  | nil => rfl
  | append_singleton history call ih =>
    rw [run_append, document_step, (s.run_sameTools history).dictionary, ih, List.foldl_append]
    rfl

theorem deadline_run (fresh : s.debounce.deadline = none) (history : List Step)
    (due : Millis) : (s.run history).debounce.deadline = some due ↔ s.Awaits history due := by
  induction history using List.reverseRecOn with
  | nil =>
    constructor
    · intro pending
      change s.debounce.deadline = some due at pending
      rw [fresh] at pending
      contradiction
    · rintro ⟨place, time, changes, -⟩
      exact absurd changes.lt_length (Nat.not_lt_zero place)
  | append_singleton history call ih =>
    rw [run_append]
    rcases step_cases (s.run history) call with ⟨now, document, writes, changed, -, after⟩ |
      ⟨idle, runs, after⟩ | ⟨idle, rests, after⟩
    · rw [awaits_append_of_change changed, after]
      change some (now + (s.run history).debounce.quiet) = some due ↔ _
      rw [(s.run_sameTools history).quiet, Option.some.injEq, eq_comm]
    · rw [after]
      constructor
      · intro pending
        change none = some due at pending
        contradiction
      · intro awaits
        exact absurd awaits (not_awaits_append_of_ran idle runs due)
    · rw [awaits_append_of_idle idle rests, after]
      exact ih

theorem rendered_step (s : Session) (call : Step) :
    (s.step call).2.rendered = s.rendered ++ if s.ran call then [s.findings] else [] := by
  rcases step_cases s call with ⟨now, document, writes, -, rests, after⟩ | ⟨-, runs, after⟩ |
    ⟨-, rests, after⟩
  · rw [after, rests]
    exact (List.append_nil _).symm
  · rw [after, runs]
    rfl
  · rw [after, rests]
    exact (List.append_nil _).symm

theorem newest_run (history : List Step)
    (settled : (s.run history).debounce.deadline = none)
    (changed : ∃ place time, s.ChangesAt history place time) :
    (s.run history).rendered.getLast? = some (s.run history).findings := by
  induction history using List.reverseRecOn with
  | nil =>
    obtain ⟨place, time, changes⟩ := changed
    exact absurd changes.lt_length (Nat.not_lt_zero place)
  | append_singleton history call ih =>
    rw [run_append] at settled ⊢
    rcases step_cases (s.run history) call with ⟨now, document, writes, -, -, after⟩ |
      ⟨-, -, after⟩ | ⟨idle, -, after⟩
    · rw [after] at settled
      change some _ = none at settled
      contradiction
    · rw [after]
      exact List.getLast?_concat
    · rw [after] at settled ⊢
      obtain ⟨place, time, changes⟩ := changed
      rcases callAt_append.mp changes with old | ⟨-, new⟩
      · exact ih settled ⟨place, time, old⟩
      · rw [idle] at new
        contradiction

theorem poll_eq_true_iff (s : Session) (now : Millis) :
    (s.poll now).1 = true ↔ ∃ due, s.debounce.deadline = some due ∧ due ≤ now := by
  rw [poll_eq]
  unfold Debounce.isDue
  cases s.debounce.deadline with
  | none => simp
  | some due => by_cases reached : due ≤ now <;> simp [reached]

theorem flush_eq_true_iff (s : Session) :
    s.flush.1 = true ↔ ∃ due, s.debounce.deadline = some due := by
  unfold flush
  cases s.debounce.deadline with
  | none => simp
  | some due => simp

/-- After every history of calls the document is the one that the calls leave one after another, and
the pending deadline, the answers of the next calls and the findings on display are those that its
changes ask for. -/
theorem analysis_follows_changes (analyzer : Analyzer) (dictionary : Dictionary) (quiet : Millis)
    (document : Text) (history : List Step) :
    let first := start analyzer dictionary quiet document
    let s := first.run history
    s.document = history.foldl (Step.applied dictionary) document ∧
      (∀ due, s.debounce.deadline = some due ↔ first.Awaits history due) ∧
      (∀ now, (s.poll now).1 = true ↔ ∃ due, first.Awaits history due ∧ due ≤ now) ∧
      (s.flush.1 = true ↔ ∃ due, first.Awaits history due) ∧
      (∀ call, (s.step call).2.rendered =
        s.rendered ++ if (s.step call).1 = some true then [analyzer.analyze s.document] else []) ∧
      ((∀ due, ¬first.Awaits history due) → (∃ place time, first.ChangesAt history place time) →
        s.rendered.getLast? = some (analyzer.analyze s.document)) := by
  intro first s
  have deadline : ∀ due, s.debounce.deadline = some due ↔ first.Awaits history due :=
    deadline_run rfl history
  have findings : s.findings = analyzer.analyze s.document := by
    unfold Session.findings
    rw [(first.run_sameTools history).analyzer]
    rfl
  refine ⟨first.document_run history, deadline, fun now => ?_, ?_, fun call => ?_,
    fun quietNow changed => ?_⟩
  · rw [poll_eq_true_iff]
    simp only [deadline]
  · rw [flush_eq_true_iff]
    simp only [deadline]
  · rw [rendered_step, findings]
    simp only [ran, beq_iff_eq]
  · rw [← findings]
    apply newest_run history _ changed
    rw [Option.eq_none_iff_forall_ne_some]
    intro due pending
    exact quietNow due ((deadline due).mp pending)

theorem analysis_follows_changes_formats :
    let first := start .default .builtin 500 "select a".toList
    let history : List Step :=
  -- the first format alters the document and asks for the analysis anew; the second one finds it
  -- formatted and does not put the analysis off
      [.edit (.insert " frm t".toList) 0, .poll 100, .edit .format 200, .formatDocument 600]
    let s := first.run history
    s.document = "SELECT a\nFROM t".toList ∧
      first.ChangesAt history 2 200 ∧ (∀ time, ¬first.ChangesAt history 3 time) ∧
      first.Awaits history 700 ∧ (s.poll 699).1 = false ∧ s.flush.1 = true ∧
      (s.step (.poll 700)).2.rendered = [Analyzer.default.analyze "SELECT a\nFROM t".toList] := by
  intro first history s
  obtain ⟨edited, deadline, -, flush, rendered, -⟩ :=
    analysis_follows_changes .default .builtin 500 "select a".toList history
  have document : s.document = "SELECT a\nFROM t".toList := edited.trans (by decide +kernel)
  have awaits : first.Awaits history 700 := (deadline 700).mp (by decide +kernel)
  have nothing : s.rendered = [] := by decide +kernel
  have ran : (s.step (.poll 700)).1 = some true := by decide +kernel
  have batch : (s.step (.poll 700)).2.rendered =
      s.rendered ++ [Analyzer.default.analyze s.document] := by
    rw [rendered, if_pos ran]
  rw [nothing, document] at batch
  refine ⟨document, ⟨.edit .format 200, rfl, by decide +kernel⟩, ?_, awaits, by decide +kernel,
    flush.mpr ⟨700, awaits⟩, batch⟩
  rintro time ⟨call, found, changes⟩
  obtain rfl : .formatDocument 600 = call := Option.some.inj found
  have idle : (first.run (history.take 3)).changedAt? (.formatDocument 600) = none := by
    decide +kernel
  exact Option.some_ne_none time (changes.symm.trans idle)

end Session

end QueryTidy.Editor
