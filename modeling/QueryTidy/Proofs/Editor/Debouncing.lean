import QueryTidy.Editor.Timeline
import QueryTidy.Proofs.Editor.History
import Mathlib.Data.List.FinRange

/-!
Which analyses run while edits arrive over time. An arrival settles if it changes the document and
no change follows within the quiet period. Each arrival that settles leads to one analysis, at the
end of its quiet period or when the input closes, and there is no other analysis.
-/

set_option autoImplicit false
set_option relaxedAutoImplicit false

namespace QueryTidy.Editor

def edited (d : Dictionary) (document : Text) (edits : List Edit) : Text :=
  edits.foldl (fun document e => e.applied d document) document

/-- Whether an arrival changes the document that the arrivals before it leave. -/
def Effective (d : Dictionary) (document : Text) (as : List Arrival) (i : Fin as.length) : Prop :=
  (as.get i).edit.changes d (edited d document ((as.take i).map Arrival.edit))

/-- Whether an arrival changes the document and no change follows within the quiet period. -/
def Settles (d : Dictionary) (document : Text) (quiet : Millis) (as : List Arrival)
    (i : Fin as.length) : Prop :=
  Effective d document as i ∧
    ∀ j, i < j → Effective d document as j → (as.get i).time + quiet < (as.get j).time

instance decidableEffective (d : Dictionary) (document : Text) (as : List Arrival) :
    DecidablePred (Effective d document as) :=
  fun _ => inferInstanceAs (Decidable (_ = true))

instance decidableSettles (d : Dictionary) (document : Text) (quiet : Millis) (as : List Arrival) :
    DecidablePred (Settles d document quiet as) :=
  fun _ => inferInstanceAs (Decidable (_ ∧ _))

def batchAt (analyzer : Analyzer) (d : Dictionary) (document : Text) (as : List Arrival)
    (time : Millis) : Batch :=
  ⟨time, analyzer.analyze
    (edited d document ((as.filter fun a => a.time ≤ time).map Arrival.edit))⟩

/-- The analysis that an arrival leads to: a quiet period later, or when the input closes. -/
def batchOf (analyzer : Analyzer) (d : Dictionary) (document : Text) (quiet closing : Millis)
    (as : List Arrival) (i : Fin as.length) : Batch :=
  batchAt analyzer d document as (min ((as.get i).time + quiet) closing)

def expected (analyzer : Analyzer) (d : Dictionary) (document : Text) (quiet closing : Millis)
    (as : List Arrival) : List Batch :=
  ((List.finRange as.length).filter fun i => Settles d document quiet as i).map
    (batchOf analyzer d document quiet closing as)

structure Ordered (as : List Arrival) (closing : Millis) : Prop where
  sorted : as.Pairwise fun a b => a.time ≤ b.time
  closed : ∀ a ∈ as, a.time ≤ closing

def Calm (d : Dictionary) (document : Text) (as : List Arrival) (time : Millis) : Prop :=
  ∀ j, Effective d document as j → time < (as.get j).time

instance decidableCalm (d : Dictionary) (document : Text) (as : List Arrival) (time : Millis) :
    Decidable (Calm d document as time) :=
  inferInstanceAs (Decidable (∀ _, _ → _))

section Arrivals

variable {analyzer : Analyzer} {d : Dictionary} {document : Text} {quiet closing time : Millis}
  {a : Arrival} {as : List Arrival}

theorem Ordered.tail (ordered : Ordered (a :: as) closing) : Ordered as closing :=
  ⟨(List.pairwise_cons.mp ordered.sorted).2,
    fun b inRest => ordered.closed b (List.mem_cons_of_mem a inRest)⟩

theorem Ordered.head_le (ordered : Ordered (a :: as) closing) : ∀ b ∈ as, a.time ≤ b.time :=
  (List.pairwise_cons.mp ordered.sorted).1

theorem effective_succ {j : Fin as.length} :
    Effective d document (a :: as) j.succ ↔ Effective d (a.edit.applied d document) as j :=
  Iff.rfl

theorem settles_succ {j : Fin as.length} :
    Settles d document quiet (a :: as) j.succ ↔
      Settles d (a.edit.applied d document) quiet as j := by
  unfold Settles
  rw [effective_succ]
  constructor
  · rintro ⟨changes, last⟩
    exact ⟨changes, fun k after => last k.succ (Fin.succ_lt_succ_iff.mpr after)⟩
  · rintro ⟨changes, last⟩
    refine ⟨changes, fun k after => ?_⟩
    cases k using Fin.cases with
    | zero => exact absurd after (Fin.not_lt_zero _)
    | succ k => exact last k (Fin.succ_lt_succ_iff.mp after)

theorem settles_zero :
    Settles d document quiet (a :: as) ⟨0, Nat.zero_lt_succ _⟩ ↔
      a.edit.changes d document ∧ Calm d (a.edit.applied d document) as (a.time + quiet) := by
  constructor
  · rintro ⟨changes, last⟩
    exact ⟨changes, fun j => last j.succ (Fin.succ_pos j)⟩
  · rintro ⟨changes, calm⟩
    refine ⟨changes, fun k after => ?_⟩
    cases k using Fin.cases with
    | zero => exact absurd after (Nat.lt_irrefl _)
    | succ k => exact calm k

theorem calm_cons :
    Calm d document (a :: as) time ↔
      (a.edit.changes d document → time < a.time) ∧ Calm d (a.edit.applied d document) as time := by
  constructor
  · intro calm
    exact ⟨calm ⟨0, Nat.zero_lt_succ _⟩, fun j => calm j.succ⟩
  · rintro ⟨first, rest⟩ k
    cases k using Fin.cases with
    | zero => exact first
    | succ k => exact rest k

theorem edited_cons (d : Dictionary) (document : Text) (e : Edit) (edits : List Edit) :
    edited d document (e :: edits) = edited d (e.applied d document) edits :=
  rfl

theorem edited_of_calm (sorted : as.Pairwise fun a b => a.time ≤ b.time)
    (calm : Calm d document as time) :
    edited d document ((as.filter fun a => a.time ≤ time).map Arrival.edit) = document := by
  induction as generalizing document with
  | nil => rfl
  | cons a as ih =>
    obtain ⟨first, rest⟩ := calm_cons.mp calm
    obtain ⟨before, sorted⟩ := List.pairwise_cons.mp sorted
    by_cases early : a.time ≤ time
    · have idle : a.edit.changes d document = false := by
        rw [Bool.eq_false_iff]
        intro changes
        exact absurd (first changes) (Nat.not_lt.mpr early)
      have same := Edit.applied_of_not_changes idle
      rw [same] at rest
      rw [List.filter_cons_of_pos (by simpa using early), List.map_cons, edited_cons, same]
      exact ih sorted rest
    · have none : (a :: as).filter (fun b => b.time ≤ time) = [] := by
        rw [List.filter_eq_nil_iff]
        intro b inList
        rcases List.mem_cons.mp inList with rfl | inRest
        · simpa using early
        · have later : ¬b.time ≤ time := fun within => early (Nat.le_trans (before b inRest) within)
          simpa using later
      rw [none]
      rfl

theorem batchAt_cons (early : a.time ≤ time) :
    batchAt analyzer d document (a :: as) time =
      batchAt analyzer d (a.edit.applied d document) as time := by
  unfold batchAt
  rw [List.filter_cons_of_pos (by simpa using early), List.map_cons, edited_cons]

theorem batchAt_of_calm (sorted : as.Pairwise fun a b => a.time ≤ b.time)
    (calm : Calm d document as time) :
    batchAt analyzer d document as time = ⟨time, analyzer.analyze document⟩ := by
  unfold batchAt
  rw [edited_of_calm sorted calm]

theorem batchOf_succ (ordered : Ordered (a :: as) closing) (j : Fin as.length) :
    batchOf analyzer d document quiet closing (a :: as) j.succ =
      batchOf analyzer d (a.edit.applied d document) quiet closing as j := by
  have first := ordered.head_le _ (List.get_mem as j)
  have closed := ordered.closed a (by simp)
  apply batchAt_cons
  exact Nat.le_min.mpr ⟨Nat.le_trans first (Nat.le_add_right _ _), closed⟩

theorem batchOf_zero (ordered : Ordered (a :: as) closing)
    (calm : Calm d (a.edit.applied d document) as (a.time + quiet)) :
    batchOf analyzer d document quiet closing (a :: as) ⟨0, Nat.zero_lt_succ _⟩ =
      ⟨min (a.time + quiet) closing, analyzer.analyze (a.edit.applied d document)⟩ := by
  have early : a.time ≤ min (a.time + quiet) closing :=
    Nat.le_min.mpr ⟨Nat.le_add_right _ _, ordered.closed a (by simp)⟩
  have sooner : Calm d (a.edit.applied d document) as (min (a.time + quiet) closing) :=
    fun j changes => Nat.lt_of_le_of_lt (Nat.min_le_left _ _) (calm j changes)
  exact (batchAt_cons early).trans (batchAt_of_calm ordered.tail.sorted sooner)

theorem expected_cons (ordered : Ordered (a :: as) closing) :
    expected analyzer d document quiet closing (a :: as) =
      (if a.edit.changes d document ∧ Calm d (a.edit.applied d document) as (a.time + quiet) then
        [⟨min (a.time + quiet) closing, analyzer.analyze (a.edit.applied d document)⟩] else []) ++
      expected analyzer d (a.edit.applied d document) quiet closing as := by
  have later : ((List.finRange as.length).map Fin.succ).filter
      (fun i => Settles d document quiet (a :: as) i) =
      ((List.finRange as.length).filter
        fun i => Settles d (a.edit.applied d document) quiet as i).map Fin.succ := by
    rw [List.filter_map]
    congr 1
    apply List.filter_congr
    intro j _
    simp only [Function.comp_apply, settles_succ]
  have batches : ((List.finRange as.length).filter
        fun i => Settles d (a.edit.applied d document) quiet as i).map
        (batchOf analyzer d document quiet closing (a :: as) ∘ Fin.succ) =
      expected analyzer d (a.edit.applied d document) quiet closing as := by
    apply List.map_congr_left
    intro j _
    exact batchOf_succ ordered j
  have places : List.finRange (a :: as).length =
      ⟨0, Nat.zero_lt_succ _⟩ :: (List.finRange as.length).map Fin.succ := List.finRange_succ
  rw [expected, places]
  by_cases settles : Settles d document quiet (a :: as) ⟨0, Nat.zero_lt_succ _⟩
  · have cause := settles_zero.mp settles
    rw [List.filter_cons, if_pos (decide_eq_true settles), later, List.map_cons, List.map_map,
      batches, if_pos cause]
    exact congrArg (· :: _) (batchOf_zero ordered cause.2)
  · rw [List.filter_cons, if_neg (mt of_decide_eq_true settles), later, List.map_map, batches,
      if_neg (mt settles_zero.mpr settles)]
    rfl

end Arrivals

namespace Session

variable {s : Session} {closing : Millis} {a : Arrival} {as : List Arrival}

theorem catchUp_cases (s : Session) (now : Millis) :
    (∃ due, s.debounce.deadline = some due ∧ due < now ∧
        s.catchUp now = ([⟨due, s.findings⟩], s.render)) ∨
      ((∀ due, s.debounce.deadline = some due → now ≤ due) ∧ s.catchUp now = ([], s)) := by
  unfold catchUp
  cases pending : s.debounce.deadline with
  | none => exact Or.inr ⟨by simp, rfl⟩
  | some due =>
    by_cases passed : due < now
    · exact Or.inl ⟨due, rfl, passed, if_pos passed⟩
    · refine Or.inr ⟨fun other same => ?_, if_neg passed⟩
      rw [← Option.some.inj same]
      exact Nat.not_lt.mp passed

theorem finish_cases (s : Session) (now : Millis) :
    (∃ due, s.debounce.deadline = some due ∧ s.finish now = ([⟨now, s.findings⟩], s.render)) ∨
      (s.debounce.deadline = none ∧ s.finish now = ([], s)) := by
  unfold finish
  cases s.debounce.deadline with
  | none => exact Or.inr ⟨rfl, rfl⟩
  | some due => exact Or.inl ⟨due, rfl, rfl⟩

theorem play_nil (s : Session) (closing : Millis) :
    s.play closing [] =
      ((s.catchUp closing).1 ++ ((s.catchUp closing).2.finish closing).1,
        ((s.catchUp closing).2.finish closing).2) :=
  rfl

theorem play_cons (s : Session) (closing : Millis) (a : Arrival) (as : List Arrival) :
    s.play closing (a :: as) =
      ((s.catchUp a.time).1 ++ (((s.catchUp a.time).2.perform a.edit a.time).play closing as).1,
        (((s.catchUp a.time).2.perform a.edit a.time).play closing as).2) :=
  rfl

/-- The pending analysis, if it comes to run before a change. -/
def outstanding (s : Session) (closing : Millis) (as : List Arrival) : List Batch :=
  match s.debounce.deadline with
  | none => []
  | some due => if Calm s.dictionary s.document as due then [⟨min due closing, s.findings⟩] else []

theorem outstanding_of_none (settled : s.debounce.deadline = none) (closing : Millis)
    (as : List Arrival) : s.outstanding closing as = [] := by
  simp only [outstanding, settled]

theorem outstanding_of_some {due : Millis} (pending : s.debounce.deadline = some due)
    (closing : Millis) (as : List Arrival) :
    s.outstanding closing as =
      if Calm s.dictionary s.document as due then [⟨min due closing, s.findings⟩] else [] := by
  simp only [outstanding, pending]

private theorem outstanding_of_passed {due : Millis} (ordered : Ordered (a :: as) closing)
    (pending : s.debounce.deadline = some due) (passed : due < a.time) :
    s.outstanding closing (a :: as) = [⟨due, s.findings⟩] := by
  have calm : Calm s.dictionary s.document (a :: as) due := by
    intro j _
    cases j using Fin.cases with
    | zero => exact passed
    | succ j => exact Nat.lt_of_lt_of_le passed (ordered.head_le _ (List.get_mem as j))
  have early : due ≤ closing :=
    Nat.le_trans (Nat.le_of_lt passed) (ordered.closed a (by simp))
  rw [outstanding_of_some pending, if_pos calm, Nat.min_eq_left early]

private theorem catchUp_outstanding_of_changes (ordered : Ordered (a :: as) closing)
    (changes : a.edit.changes s.dictionary s.document) :
    (s.catchUp a.time).1 = s.outstanding closing (a :: as) := by
  rcases s.catchUp_cases a.time with ⟨due, pending, passed, caught⟩ | ⟨open_, caught⟩
  · rw [caught, outstanding_of_passed ordered pending passed]
  · rw [caught]
    cases pending : s.debounce.deadline with
    | none => rw [outstanding_of_none pending]
    | some due =>
      have stirred : ¬Calm s.dictionary s.document (a :: as) due := by
        intro calm
        have later := (calm_cons.mp calm).1 changes
        exact absurd (open_ due pending) (Nat.not_le.mpr later)
      rw [outstanding_of_some pending, if_neg stirred]

private theorem catchUp_outstanding_of_idle (ordered : Ordered (a :: as) closing)
    (idle : a.edit.changes s.dictionary s.document = false) :
    (s.catchUp a.time).1 ++ (s.catchUp a.time).2.outstanding closing as =
      s.outstanding closing (a :: as) := by
  rcases s.catchUp_cases a.time with ⟨due, pending, passed, caught⟩ | ⟨-, caught⟩
  · have settled : s.render.debounce.deadline = none := rfl
    rw [caught, outstanding_of_none settled, outstanding_of_passed ordered pending passed]
    rfl
  · rw [caught]
    cases pending : s.debounce.deadline with
    | none => rw [outstanding_of_none pending, outstanding_of_none pending]; rfl
    | some due =>
      have calm : Calm s.dictionary s.document (a :: as) due ↔
          Calm s.dictionary s.document as due := by
        rw [calm_cons, Edit.applied_of_not_changes idle]
        simp [idle]
      rw [outstanding_of_some pending, outstanding_of_some pending, List.nil_append]
      simp only [calm]

structure Agrees (s r : Session) : Prop extends SameTools s r where
  document : s.document = r.document
  writes : s.writes = r.writes

/-- Whether a session went on by running the analysis once, or not at all. -/
def Advances (s : Session) (result : List Batch × Session) : Prop :=
  (∃ time, result = ([⟨time, s.findings⟩], s.render)) ∨ result = ([], s)

theorem Advances.agrees {result : List Batch × Session} (advances : s.Advances result) :
    result.2.Agrees s := by
  rcases advances with ⟨time, rfl⟩ | rfl
  · exact ⟨⟨rfl, rfl, rfl⟩, rfl, rfl⟩
  · exact ⟨⟨rfl, rfl, rfl⟩, rfl, rfl⟩

theorem Advances.rendered {result : List Batch × Session} (advances : s.Advances result) :
    result.2.rendered = s.rendered ++ result.1.map Batch.findings := by
  rcases advances with ⟨time, rfl⟩ | rfl
  · rfl
  · exact (List.append_nil _).symm

theorem advances_catchUp (s : Session) (now : Millis) : s.Advances (s.catchUp now) := by
  rcases s.catchUp_cases now with ⟨due, -, -, caught⟩ | ⟨-, caught⟩
  · exact Or.inl ⟨due, caught⟩
  · exact Or.inr caught

theorem advances_finish (s : Session) (now : Millis) : s.Advances (s.finish now) := by
  rcases s.finish_cases now with ⟨due, -, finished⟩ | ⟨-, finished⟩
  · exact Or.inl ⟨now, finished⟩
  · exact Or.inr finished

private theorem play_nil_batches (s : Session) (closing : Millis) :
    (s.play closing []).1 = s.outstanding closing [] := by
  have calm : ∀ due, Calm s.dictionary s.document [] due := fun due j => j.elim0
  rw [play_nil]
  rcases s.catchUp_cases closing with ⟨due, pending, passed, caught⟩ | ⟨open_, caught⟩
  · have settled : s.render.finish closing = ([], s.render) := rfl
    rw [caught, settled, outstanding_of_some pending, if_pos (calm due),
      Nat.min_eq_left (Nat.le_of_lt passed)]
    rfl
  · rw [caught]
    rcases s.finish_cases closing with ⟨due, pending, finished⟩ | ⟨settled, finished⟩
    · rw [finished, outstanding_of_some pending, if_pos (calm due),
        Nat.min_eq_right (open_ due pending)]
      rfl
    · rw [finished, outstanding_of_none settled]
      rfl

/-- A run renders the outstanding analysis and those of the arrivals that settle. -/
theorem play_batches (ordered : Ordered as closing) :
    (s.play closing as).1 = s.outstanding closing as ++
      expected s.analyzer s.dictionary s.document s.debounce.quiet closing as := by
  induction as generalizing s with
  | nil =>
    rw [play_nil_batches]
    exact (List.append_nil _).symm
  | cons a as ih =>
    have frame := (s.advances_catchUp a.time).agrees
    rw [play_cons, expected_cons ordered]
    by_cases changes : a.edit.changes s.dictionary s.document
    · -- the change replaces what was pending by its own deadline
      have changes' : a.edit.changes (s.catchUp a.time).2.dictionary
          (s.catchUp a.time).2.document := by
        rw [frame.dictionary, frame.document]
        exact changes
      have pending : ((s.catchUp a.time).2.write
          (a.edit.applied (s.catchUp a.time).2.dictionary (s.catchUp a.time).2.document)
          a.time).debounce.deadline = some (a.time + s.debounce.quiet) := by
        rw [← frame.quiet]
        rfl
      simp only [perform_of_changes changes']
      rw [ih ordered.tail, outstanding_of_some pending,
        catchUp_outstanding_of_changes ordered changes]
      simp only [write, change, findings, Debounce.schedule, frame.analyzer, frame.dictionary,
        frame.document, frame.quiet, changes, true_and]
    · have idle := Bool.eq_false_iff.mpr changes
      have idle' : a.edit.changes (s.catchUp a.time).2.dictionary
          (s.catchUp a.time).2.document = false := by
        rw [frame.dictionary, frame.document]
        exact idle
      simp only [perform_of_not_changes idle']
      rw [ih ordered.tail, ← List.append_assoc, catchUp_outstanding_of_idle ordered idle,
        frame.analyzer, frame.dictionary, frame.document, frame.quiet,
        Edit.applied_of_not_changes idle]
      simp [changes]

theorem perform_frame (s : Session) (e : Edit) (now : Millis) :
    (s.perform e now).SameTools s ∧ (s.perform e now).rendered = s.rendered ∧
      (s.perform e now).document = e.applied s.dictionary s.document ∧
      (s.perform e now).writes = s.writes + (e.changes s.dictionary s.document).toNat := by
  by_cases changes : e.changes s.dictionary s.document
  · rw [perform_of_changes changes, changes]
    exact ⟨⟨rfl, rfl, rfl⟩, rfl, rfl, rfl⟩
  · have idle := Bool.eq_false_iff.mpr changes
    rw [perform_of_not_changes idle, Edit.applied_of_not_changes idle, idle]
    exact ⟨⟨rfl, rfl, rfl⟩, rfl, rfl, rfl⟩

theorem play_rendered (s : Session) (closing : Millis) (as : List Arrival) :
    (s.play closing as).2.rendered = s.rendered ++ (s.play closing as).1.map Batch.findings := by
  induction as generalizing s with
  | nil =>
    rw [play_nil, (advances_finish _ closing).rendered, (s.advances_catchUp closing).rendered,
      List.append_assoc, List.map_append]
  | cons a as ih =>
    obtain ⟨-, rendered, -, -⟩ := perform_frame (s.catchUp a.time).2 a.edit a.time
    rw [play_cons, ih, rendered, (s.advances_catchUp a.time).rendered, List.append_assoc,
      List.map_append]

theorem play_document (s : Session) (closing : Millis) (as : List Arrival) :
    (s.play closing as).2.document = edited s.dictionary s.document (as.map Arrival.edit) := by
  induction as generalizing s with
  | nil =>
    rw [play_nil, (advances_finish _ closing).agrees.document,
      (s.advances_catchUp closing).agrees.document]
    rfl
  | cons a as ih =>
    have frame := (s.advances_catchUp a.time).agrees
    obtain ⟨tools, -, document, -⟩ := perform_frame (s.catchUp a.time).2 a.edit a.time
    rw [play_cons, ih, document, tools.dictionary, frame.dictionary, frame.document, List.map_cons,
      edited_cons]

/-- Whether the newest findings are those on the document, or an analysis is pending. -/
def Current (s : Session) : Prop :=
  s.debounce.deadline = none → s.rendered.getLast? = some s.findings

theorem Advances.current {result : List Batch × Session} (advances : s.Advances result)
    (current : s.Current) : result.2.Current := by
  rcases advances with ⟨time, rfl⟩ | rfl
  · intro _
    exact List.getLast?_concat
  · exact current

theorem current_perform {e : Edit} (cause : s.Current ∨ e.changes s.dictionary s.document)
    (now : Millis) : (s.perform e now).Current := by
  by_cases changes : e.changes s.dictionary s.document
  · rw [perform_of_changes changes]
    intro settled
    change some _ = none at settled
    contradiction
  · rw [perform_of_not_changes (Bool.eq_false_iff.mpr changes)]
    exact cause.resolve_right changes

theorem finish_newest (current : s.Current) (now : Millis) :
    (s.finish now).2.rendered.getLast? = some s.findings := by
  rcases s.finish_cases now with ⟨due, -, finished⟩ | ⟨settled, finished⟩
  · rw [finished]
    exact List.getLast?_concat
  · rw [finished]
    exact current settled

theorem play_newest (s : Session) (closing : Millis) (as : List Arrival)
    (cause : s.Current ∨ ∃ before e after, as.map Arrival.edit = before ++ e :: after ∧
      e.changes s.dictionary (edited s.dictionary s.document before)) :
    (s.play closing as).2.rendered.getLast? =
      some (s.analyzer.analyze (s.play closing as).2.document) := by
  induction as generalizing s with
  | nil =>
    have current : s.Current := by
      rcases cause with current | ⟨before, e, after, none, -⟩
      · exact current
      · exact absurd none (by simp)
    have advances := s.advances_catchUp closing
    rw [play_nil, finish_newest (advances.current current), findings,
      (advances_finish _ closing).agrees.document, advances.agrees.analyzer]
  | cons a as ih =>
    have advances := s.advances_catchUp a.time
    have frame := advances.agrees
    obtain ⟨tools, -, document, -⟩ := perform_frame (s.catchUp a.time).2 a.edit a.time
    have later := ih ((s.catchUp a.time).2.perform a.edit a.time) ?_
    · rw [play_cons, later, tools.analyzer, frame.analyzer]
    · -- a change that comes first leaves an analysis pending, a later one is still to come
      rcases cause with current | ⟨before, e, after, split, changes⟩
      · exact Or.inl (current_perform (Or.inl (advances.current current)) a.time)
      cases before with
      | nil =>
        obtain ⟨rfl, -⟩ := List.cons.inj split
        refine Or.inl (current_perform (Or.inr ?_) a.time)
        rw [frame.dictionary, frame.document]
        exact changes
      | cons first before =>
        obtain ⟨rfl, rest⟩ := List.cons.inj split
        refine Or.inr ⟨before, e, after, rest, ?_⟩
        rw [document, tools.dictionary, frame.dictionary, frame.document]
        exact changes

private theorem countP_effective_cons (d : Dictionary) (document : Text) (a : Arrival)
    (as : List Arrival) :
    (List.finRange (a :: as).length).countP (fun i => Effective d document (a :: as) i) =
      (a.edit.changes d document).toNat +
        (List.finRange as.length).countP fun i => Effective d (a.edit.applied d document) as i := by
  have places : List.finRange (a :: as).length =
      ⟨0, Nat.zero_lt_succ _⟩ :: (List.finRange as.length).map Fin.succ := List.finRange_succ
  have first : Effective d document (a :: as) ⟨0, Nat.zero_lt_succ _⟩ ↔
      a.edit.changes d document = true := Iff.rfl
  rw [places, List.countP_cons, List.countP_map, Nat.add_comm]
  congr 1
  cases changes : a.edit.changes d document with
  | true => rw [if_pos (decide_eq_true (first.mpr changes))]; rfl
  | false =>
    have idle : ¬Effective d document (a :: as) ⟨0, Nat.zero_lt_succ _⟩ := by
      rw [first, changes]
      simp
    rw [if_neg (mt of_decide_eq_true idle)]
    rfl

theorem play_writes (s : Session) (closing : Millis) (as : List Arrival) :
    (s.play closing as).2.writes = s.writes +
      (List.finRange as.length).countP fun i => Effective s.dictionary s.document as i := by
  induction as generalizing s with
  | nil =>
    rw [play_nil, (advances_finish _ closing).agrees.writes,
      (s.advances_catchUp closing).agrees.writes]
    rfl
  | cons a as ih =>
    have frame := (s.advances_catchUp a.time).agrees
    obtain ⟨tools, -, document, writes⟩ := perform_frame (s.catchUp a.time).2 a.edit a.time
    rw [play_cons, ih, writes, document, tools.dictionary, frame.dictionary, frame.document,
      frame.writes, countP_effective_cons, Nat.add_assoc]

/-- Edits that arrive over time are analyzed once after each pause, and nothing else is; the
document and its writes do not depend on the times. -/
theorem play_debounces (analyzer : Analyzer) (d : Dictionary) (quiet closing : Millis)
    (document : Text) (as : List Arrival) :
    let played := (start analyzer d quiet document).play closing as
    (Ordered as closing →
        played.1 = ((List.finRange as.length).filter fun i => Settles d document quiet as i).map
          (batchOf analyzer d document quiet closing as)) ∧
      played.2.rendered = played.1.map Batch.findings ∧
      played.2.document = edited d document (as.map Arrival.edit) ∧
      played.2.writes = (List.finRange as.length).countP fun i => Effective d document as i := by
  intro played
  refine ⟨fun ordered => ?_, ?_, ?_, ?_⟩
  · have settled : (start analyzer d quiet document).debounce.deadline = none := rfl
    have batches : played.1 = _ := play_batches ordered
    rw [outstanding_of_none settled] at batches
    exact batches
  · exact play_rendered _ closing as
  · exact play_document _ closing as
  · have writes : played.2.writes = _ := play_writes _ closing as
    exact writes.trans (Nat.zero_add _)

theorem play_debounces_burst :
    let as : List Arrival := [⟨0, .replace "SELECT 1".toList⟩, ⟨300, .insert ";".toList⟩,
      ⟨600, .format⟩, ⟨1000, .insert " x".toList⟩]
    let played := (start .default .builtin 500 []).play 1200 as
    Ordered as 1200 ∧
      played.1 = ((List.finRange as.length).filter fun i => Settles .builtin [] 500 as i).map
        (batchOf .default .builtin [] 500 1200 as) ∧
      played.1.map Batch.time = [800, 1200] := by
  intro as played
  have ordered : Ordered as 1200 := ⟨by decide, by decide⟩
  exact ⟨ordered, (play_debounces .default .builtin 500 1200 [] as).1 ordered, by decide +kernel⟩

end Session

end QueryTidy.Editor
