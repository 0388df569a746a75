import QueryTidy.Proofs.Editor.Debouncing
import QueryTidy.Proofs.Formatting

/-!
Formatting a document that is formatted. With a stable dictionary the second of two formats in a row
leaves the session as it is, whatever is analyzed between them; so it can be left out of what the
sender of edits does, and the same analyses run at the same times.
-/

set_option autoImplicit false
set_option relaxedAutoImplicit false

namespace QueryTidy.Editor

/-- Whether a call leaves the text to the document and the formatter: every call does but the edits
that insert, add a line or replace. -/
def Step.BringsNoText : Step → Prop
  | .edit e _ => e = .format
  | .change _ | .formatDocument _ | .poll _ | .flush => True

instance : DecidablePred Step.BringsNoText
  | .edit e _ => inferInstanceAs (Decidable (e = .format))
  | .change _ | .formatDocument _ | .poll _ | .flush => isTrue trivial

def Cue.BringsNoText : Cue → Prop
  | .send e => e = .format
  | .sleep _ => True

instance : DecidablePred Cue.BringsNoText
  | .send e => inferInstanceAs (Decidable (e = .format))
  | .sleep _ => isTrue trivial

namespace Session

variable {s : Session}

/-- Whether the document is as the formatter leaves it. -/
def Tidy (s : Session) : Prop :=
  QueryTidy.format s.dictionary s.document = s.document

theorem Tidy.formatDocument (tidy : s.Tidy) (now : Millis) : s.formatDocument now = s :=
  if_pos tidy

theorem tidy_formatDocument (stable : s.dictionary.Stable) (now : Millis) :
    (s.formatDocument now).Tidy := by
  by_cases same : QueryTidy.format s.dictionary s.document = s.document
  · have kept : s.formatDocument now = s := if_pos same
    rw [kept]
    exact same
  · have written : s.formatDocument now =
        s.write (QueryTidy.format s.dictionary s.document) now := if_neg same
    rw [written]
    exact stable.format_format s.document

theorem Tidy.step (tidy : s.Tidy) {call : Step} (noText : call.BringsNoText) :
    (s.step call).2.Tidy := by
  cases call with
  | edit e now =>
    obtain rfl : e = .format := noText
    change (s.formatDocument now).Tidy
    rw [tidy.formatDocument]
    exact tidy
  | change now => exact tidy
  | formatDocument now =>
    change (s.formatDocument now).Tidy
    rw [tidy.formatDocument]
    exact tidy
  | poll now =>
    change (s.poll now).2.Tidy
    rw [poll_eq]
    split <;> exact tidy
  | flush =>
    change s.flush.2.Tidy
    unfold Session.flush
    split <;> exact tidy

theorem Tidy.run (tidy : s.Tidy) {calls : List Step}
    (noText : ∀ call ∈ calls, call.BringsNoText) : (s.run calls).Tidy := by
  induction calls using List.reverseRecOn with
  | nil => exact tidy
  | append_singleton calls call ih =>
    rw [run_append]
    have before := ih fun c inCalls => noText c (List.mem_append_left _ inCalls)
    exact before.step (noText call (by simp))

theorem Agrees.tidy {r : Session} (agrees : r.Agrees s) (tidy : s.Tidy) : r.Tidy := by
  unfold Tidy
  rw [agrees.dictionary, agrees.document]
  exact tidy

def playCues (s : Session) (now : Millis) (cues : List Cue) : List Batch × Session :=
  s.play (arrivals now cues).2 (arrivals now cues).1

theorem playCues_send (s : Session) (now : Millis) (e : Edit) (cues : List Cue) :
    s.playCues now (.send e :: cues) =
      ((s.catchUp now).1 ++ (((s.catchUp now).2.perform e now).playCues now cues).1,
        (((s.catchUp now).2.perform e now).playCues now cues).2) :=
  rfl

theorem playCues_sleep (s : Session) (now duration : Millis) (cues : List Cue) :
    s.playCues now (.sleep duration :: cues) = s.playCues (now + duration) cues :=
  rfl

theorem catchUp_catchUp (s : Session) {now later : Millis} (order : now ≤ later) :
    s.catchUp later =
      ((s.catchUp now).1 ++ ((s.catchUp now).2.catchUp later).1,
        ((s.catchUp now).2.catchUp later).2) := by
  rcases s.catchUp_cases now with ⟨due, pending, passed, caught⟩ | ⟨-, caught⟩
  · have settled : s.render.catchUp later = ([], s.render) := rfl
    have met : s.catchUp later = ([⟨due, s.findings⟩], s.render) := by
      simp only [catchUp, pending, if_pos (Nat.lt_of_lt_of_le passed order)]
    rw [caught, settled, met]
    rfl
  · rw [caught]
    rfl

theorem playCues_catchUp (s : Session) {now later : Millis} (order : now ≤ later)
    (cues : List Cue) :
    s.playCues later cues =
      ((s.catchUp now).1 ++ ((s.catchUp now).2.playCues later cues).1,
        ((s.catchUp now).2.playCues later cues).2) := by
  induction cues generalizing later with
  | nil =>
    change s.play later [] = (_ ++ ((s.catchUp now).2.play later []).1, _)
    rw [play_nil, s.catchUp_catchUp order, List.append_assoc]
    rfl
  | cons cue cues ih =>
    cases cue with
    | send e =>
      rw [playCues_send, s.catchUp_catchUp order, List.append_assoc]
      rfl
    | sleep duration =>
      rw [playCues_sleep]
      exact ih (Nat.le_trans order (Nat.le_add_right later duration))

/-- A format that is sent when the document is formatted is as good as not sent. -/
theorem Tidy.playCues_send_format (tidy : s.Tidy) (now : Millis) (cues : List Cue) :
    s.playCues now (.send .format :: cues) = s.playCues now cues := by
  have caught : (s.catchUp now).2.Tidy := (s.advances_catchUp now).agrees.tidy tidy
  have same : (s.catchUp now).2.perform .format now = (s.catchUp now).2 :=
    caught.formatDocument now
  rw [playCues_send, same, ← playCues_catchUp s (Nat.le_refl now)]

theorem Tidy.playCues_drop_format (tidy : s.Tidy) (now : Millis) {pause : List Cue}
    (noText : ∀ cue ∈ pause, cue.BringsNoText) (after : List Cue) :
    s.playCues now (pause ++ .send .format :: after) = s.playCues now (pause ++ after) := by
  induction pause generalizing now with
  | nil => exact tidy.playCues_send_format now after
  | cons cue pause ih =>
    have rest := fun now => ih now fun c inPause => noText c (List.mem_cons_of_mem cue inPause)
    cases cue with
    | send e =>
      obtain rfl : e = .format := noText (.send e) List.mem_cons_self
      rw [List.cons_append, List.cons_append, tidy.playCues_send_format,
        tidy.playCues_send_format, rest]
    | sleep duration =>
      rw [List.cons_append, List.cons_append, playCues_sleep, playCues_sleep, rest]

theorem perform_catchUp_dictionary (s : Session) (e : Edit) (now : Millis) :
    ((s.catchUp now).2.perform e now).dictionary = s.dictionary := by
  obtain ⟨tools, -⟩ := perform_frame (s.catchUp now).2 e now
  exact tools.dictionary.trans (s.advances_catchUp now).agrees.dictionary

theorem playCues_append_congr {d : Dictionary} {cues cues' : List Cue}
    (same : ∀ (r : Session) (now : Millis), r.dictionary = d →
      r.playCues now cues = r.playCues now cues')
    (spelling : s.dictionary = d) (now : Millis) (before : List Cue) :
    s.playCues now (before ++ cues) = s.playCues now (before ++ cues') := by
  induction before generalizing s now with
  | nil => exact same s now spelling
  | cons cue before ih =>
    cases cue with
    | send e =>
      have kept := (s.perform_catchUp_dictionary e now).trans spelling
      rw [List.cons_append, List.cons_append, playCues_send, playCues_send, ih kept]
    | sleep duration =>
      rw [List.cons_append, List.cons_append, playCues_sleep, playCues_sleep, ih spelling]

/-- Of two formats with no text brought in between, the second one leaves every session as it is,
and leaving it out of a script changes neither the analyses with their times nor the session at the
end. -/
theorem format_again_invisible (analyzer : Analyzer) (d : Dictionary) (stable : d.Stable)
    (quiet : Millis) (document : Text) (history : List Step) :
    let s := (start analyzer d quiet document).run history
    (∀ (first second : Millis) (between : List Step), (∀ call ∈ between, call.BringsNoText) →
      (s.run (.edit .format first :: between)).step (.edit .format second) =
        (none, s.run (.edit .format first :: between))) ∧
      ∀ (now : Millis) (before pause after : List Cue), (∀ cue ∈ pause, cue.BringsNoText) →
        s.playCues now (before ++ .send .format :: (pause ++ .send .format :: after)) =
          s.playCues now (before ++ .send .format :: (pause ++ after)) := by
  intro s
  have spelling : s.dictionary = d := (run_sameTools _ history).dictionary
  constructor
  · intro first second between noText
    have formatted : (s.formatDocument first).Tidy := tidy_formatDocument (spelling ▸ stable) first
    have tidy : (s.run (.edit .format first :: between)).Tidy := formatted.run noText
    exact congrArg (Prod.mk none) (tidy.formatDocument second)
  · intro now before pause after noText
    refine playCues_append_congr (fun r now spelling => ?_) spelling now before
    have stable' : (r.catchUp now).2.dictionary.Stable := by
      rw [(r.advances_catchUp now).agrees.dictionary, spelling]
      exact stable
    have tidy : ((r.catchUp now).2.perform .format now).Tidy := tidy_formatDocument stable' now
    rw [playCues_send, playCues_send, tidy.playCues_drop_format now noText]

theorem format_again_invisible_pending :
    let d := Dictionary.withExtra [("slect".toList, "select distinct".toList)]
    let s := (start ⟨{}, d⟩ d 500 "slect a".toList).run [.edit (.insert " frm t".toList) 0]
    let formatted := s.run [.edit .format 100, .poll 300]
    let before : List Cue := [.send (.insert " wher b".toList), .sleep 200]
    let after : List Cue := [.sleep 300, .send (.line ";".toList)]
    d.Stable ∧
      formatted.document = "SELECT DISTINCT a\nFROM t".toList ∧
      (formatted.writes, formatted.debounce.deadline) = (2, some 600) ∧
      formatted.step (.edit .format 400) = (none, formatted) ∧
      s.playCues 0 (before ++ .send .format :: ([.sleep 400] ++ .send .format :: after)) =
        s.playCues 0 (before ++ .send .format :: ([.sleep 400] ++ after)) ∧
      (s.playCues 0 (before ++ .send .format :: ([.sleep 400] ++ after))).1.map Batch.time =
        [700, 900] := by
  -- the second format comes while the analysis of the first one is pending
  intro d s formatted before after
  have stable : d.Stable := Dictionary.stable_of_entries (by decide +kernel)
  obtain ⟨calls, scripts⟩ := format_again_invisible ⟨{}, d⟩ d stable 500 "slect a".toList
    [.edit (.insert " frm t".toList) 0]
  exact ⟨stable, by decide +kernel, by decide +kernel, calls 100 400 [.poll 300] (by decide),
    scripts 0 before [.sleep 400] after (by decide), by decide +kernel⟩

end Session

end QueryTidy.Editor
