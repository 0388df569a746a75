import QueryTidy.Command.Live
import QueryTidy.Proofs.Editor.Debouncing
import QueryTidy.Proofs.Live.Lines

/-!
What a live run makes of its input. Of a text it reads the lines, whatever the chunks and the delays
in which its bytes arrive, and the last report is on the document that these lines leave. A line
that is no text ends the run as the end of the input at that moment would.
-/

set_option autoImplicit false
set_option relaxedAutoImplicit false

namespace QueryTidy

open Editor

namespace Live

/-- A text with a line feed for each carriage return that a line feed follows. -/
def joinReturns : Text → Text
  | '\r' :: '\n' :: t => '\n' :: joinReturns t
  | c :: t => c :: joinReturns t
  | [] => []

theorem joinReturns_feed (t : Text) : joinReturns ('\n' :: t) = '\n' :: joinReturns t := by
  simp [joinReturns]

theorem joinReturns_cons {c d : Char} (differs : d ≠ '\n') (t : Text) :
    joinReturns (c :: d :: t) = c :: joinReturns (d :: t) := by
  rw [joinReturns]
  simp [differs]

theorem joinReturns_of_not_mem {t : Text} (absent : '\n' ∉ t) : joinReturns t = t := by
  induction t with
  | nil => rfl
  | cons c t ih =>
    have rest := ih fun inRest => absent (List.mem_cons_of_mem c inRest)
    cases t with
    | nil => simp [joinReturns]
    | cons d t =>
      have differs : d ≠ '\n' := by
        rintro rfl
        simp at absent
      rw [joinReturns_cons differs, rest]

theorem joinReturns_append {u : Text} (absent : '\n' ∉ u) (v : Text) :
    joinReturns (u ++ '\n' :: v) = Text.dropReturn u ++ '\n' :: joinReturns v := by
  induction u with
  | nil => exact joinReturns_feed v
  | cons c u ih =>
    have rest := ih fun inRest => absent (List.mem_cons_of_mem c inRest)
    cases u with
    | nil =>
      by_cases return_ : c = '\r'
      · subst return_
        rfl
      · have kept : Text.dropReturn [c] = [c] := by simp [Text.dropReturn, return_]
        have single : joinReturns (c :: '\n' :: v) = c :: joinReturns ('\n' :: v) := by
          rw [joinReturns]
          simp [return_]
        rw [kept, List.singleton_append, single, joinReturns_feed]
        rfl
    | cons d u =>
      have differs : d ≠ '\n' := by
        rintro rfl
        simp at absent
      have kept : Text.dropReturn (c :: d :: u) = c :: Text.dropReturn (d :: u) := by
        unfold Text.dropReturn
        rw [List.getLast?_cons_cons]
        split <;> rfl
      rw [List.cons_append, List.cons_append, joinReturns_cons differs, ← List.cons_append, rest,
        kept, List.cons_append]

theorem edited_typed (d : Dictionary) (t : Text)
    (plain : ∀ line ∈ typed t, editOf line = .line line) (document : Text)
    (complete : endLine document = document) :
    edited d document ((typed t).map editOf) = document ++ endLine (joinReturns t) := by
  induction t using Text.line_induction generalizing document with
  | last t absent =>
    rw [typed_of_not_mem absent] at plain ⊢
    rw [joinReturns_of_not_mem absent]
    by_cases empty : t = []
    · subst empty
      exact (List.append_nil document).symm
    · rw [if_neg empty] at plain ⊢
      rw [endLine_of_not_mem absent empty, List.map_singleton, plain t (List.mem_singleton_self t)]
      change endLine document ++ t ++ ['\n'] = _
      rw [complete, List.append_assoc]
  | line u v absent ih =>
    -- the document is complete after every line, so the next one needs no line feed in front
    rw [typed_append absent] at plain ⊢
    have first := plain _ List.mem_cons_self
    have rest := ih fun line inRest => plain line (List.mem_cons_of_mem _ inRest)
    have longer : endLine (document ++ Text.dropReturn u ++ ['\n']) =
        document ++ Text.dropReturn u ++ ['\n'] := endLine_append _ []
    rw [List.map_cons, first, edited_cons]
    change edited d (endLine document ++ Text.dropReturn u ++ ['\n']) _ = _
    rw [complete, rest _ longer, joinReturns_append absent, endLine_append]
    simp only [List.append_assoc, List.singleton_append]

theorem editOf_plain {line : Text} (noFormat : Text.trim line ≠ "\\format".toList)
    (noClear : Text.trim line ≠ "\\clear".toList) : editOf line = .line line := by
  unfold editOf
  rw [if_neg noFormat, if_neg noClear]

theorem changes_editOf {d : Dictionary} {document line : Text}
    (effective : ¬(Text.trim line = "\\format".toList ∧ QueryTidy.format d document = document)) :
    (editOf line).changes d document := by
  unfold editOf
  by_cases command : Text.trim line = "\\format".toList
  · have differs : QueryTidy.format d document ≠ document := fun same => effective ⟨command, same⟩
    rw [if_pos command]
    simpa [Edit.changes] using differs
  · rw [if_neg command]
    split <;> rfl

theorem map_snd_stamped (now : Millis) (chunks : List Chunk) :
    (stamped now chunks).map Prod.snd = chunks.flatMap Chunk.bytes := by
  induction chunks generalizing now with
  | nil => rfl
  | cons chunk chunks ih =>
    rw [stamped, List.map_append, ih, List.flatMap_cons, List.map_map]
    congr 1
    exact List.map_id _

theorem read_text {chunks : List Chunk} {t : Text}
    (bytes : Bytes.decode (chunks.flatMap Chunk.bytes) = .ok t) :
    ∃ arrivals, read chunks = ⟨arrivals, ending chunks, none⟩ ∧
      arrivals.map Arrival.edit = (typed t).map editOf := by
  apply feed_text
  rw [map_snd_stamped]
  exact Bytes.decode_eq_ok_iff.mp bytes

theorem getLast?_outputs {s : Session} {coloured : Bool} {chunks : List Chunk}
    {findings : List Finding} (fresh : s.rendered = [])
    (newest : (run s coloured chunks).session.rendered.getLast? = some findings) :
    (run s coloured chunks).outputs.getLast?.map Prod.snd =
      some (reportText coloured findings) := by
  have rendered : (run s coloured chunks).session.rendered = _ :=
    s.play_rendered (read chunks).closing (read chunks).arrivals
  rw [rendered, fresh, List.nil_append, List.getLast?_map] at newest
  obtain ⟨batch, last, rfl⟩ := Option.map_eq_some_iff.mp newest
  change (List.map _ (s.play (read chunks).closing (read chunks).arrivals).1).getLast?.map
    Prod.snd = _
  rw [List.getLast?_map, last]
  rfl

section Cutting

variable {now closing : Millis} {stamps : List (Millis × UInt8)}

/-- An input in which bytes arrive at given times, and which ends at a given time. -/
def replay (now closing : Millis) : List (Millis × UInt8) → List Chunk
  | [] => [⟨closing - now, []⟩]
  | (time, b) :: rest => ⟨time - now, [b]⟩ :: replay time closing rest

theorem stamped_replay (rising : (now :: stamps.map Prod.fst).Pairwise (· ≤ ·)) :
    stamped now (replay now closing stamps) = stamps := by
  induction stamps generalizing now with
  | nil => rfl
  | cons stamp stamps ih =>
    obtain ⟨first, rising⟩ := List.pairwise_cons.mp rising
    have early : now + (stamp.1 - now) = stamp.1 :=
      Nat.add_sub_cancel' (first stamp.1 List.mem_cons_self)
    rw [replay, stamped, early, ih rising]
    rfl

theorem ending_replay (rising : (now :: (stamps.map Prod.fst ++ [closing])).Pairwise (· ≤ ·)) :
    now + ending (replay now closing stamps) = closing := by
  induction stamps generalizing now with
  | nil =>
    obtain ⟨first, -⟩ := List.pairwise_cons.mp rising
    exact Nat.add_sub_cancel' (first closing List.mem_cons_self)
  | cons stamp stamps ih =>
    obtain ⟨first, rising⟩ := List.pairwise_cons.mp rising
    have early := first stamp.1 List.mem_cons_self
    have later := ih rising
    change now + ((stamp.1 - now) + ending (replay stamp.1 closing stamps)) = closing
    rw [← Nat.add_assoc, Nat.add_sub_cancel' early, later]

theorem stamped_rising (now : Millis) (chunks : List Chunk) :
    (now :: ((stamped now chunks).map Prod.fst ++ [now + ending chunks])).Pairwise (· ≤ ·) := by
  induction chunks generalizing now with
  | nil => simp [stamped, ending]
  | cons chunk chunks ih =>
    have total : now + ending (chunk :: chunks) = now + chunk.after + ending chunks :=
      (Nat.add_assoc _ _ _).symm
    obtain ⟨first, rising⟩ := List.pairwise_cons.mp (ih (now + chunk.after))
    have same : (chunk.bytes.map (now + chunk.after, ·)).map Prod.fst =
        List.replicate chunk.bytes.length (now + chunk.after) := by
      rw [List.map_map]
      exact List.map_const'
    rw [total, stamped, List.map_append, same, List.append_assoc, List.pairwise_cons,
      List.pairwise_append]
    refine ⟨?_, List.pairwise_replicate.mpr (Or.inr (Nat.le_refl _)), rising, ?_⟩
    · intro time inList
      rcases List.mem_append.mp inList with inChunk | inRest
      · rw [List.eq_of_mem_replicate inChunk]
        exact Nat.le_add_right _ _
      · exact Nat.le_trans (Nat.le_add_right _ _) (first time inRest)
    · intro time inChunk later inRest
      rw [List.eq_of_mem_replicate inChunk]
      exact first later inRest

end Cutting

/-- Where an input first is no text: lines that are a text come first, and the line behind them is
not the bytes of a text. It is complete with its line feed, or when the input ends. -/
structure FirstFault (chunks : List Chunk) (front line rest : List (Millis × UInt8))
    (time : Millis) : Prop where
  input : stamped 0 chunks = front ++ (line ++ rest)
  front_lines : ∀ stamp, front.getLast? = some stamp → stamp.2 = 10
  front_valid : Bytes.Valid (front.map Prod.snd)
  complete : (∃ begun, line = begun ++ [(time, 10)] ∧ 10 ∉ begun.map Prod.snd) ∨
    (10 ∉ line.map Prod.snd ∧ rest = [] ∧ time = ending chunks)
  line_faulty : ¬Bytes.Valid (line.map Prod.snd)

namespace FirstFault

variable {chunks : List Chunk} {front line rest : List (Millis × UInt8)} {time : Millis}

theorem rising (faulty : FirstFault chunks front line rest time) :
    (0 :: (front.map Prod.fst ++ [time])).Pairwise (· ≤ ·) := by
  have whole := stamped_rising 0 chunks
  rw [faulty.input, Nat.zero_add] at whole
  refine whole.sublist (List.Sublist.cons_cons 0 ?_)
  rw [List.map_append, List.append_assoc]
  apply List.Sublist.append_left
  rw [List.singleton_sublist, List.mem_append]
  rcases faulty.complete with ⟨begun, rfl, -⟩ | ⟨-, -, rfl⟩
  · left
    simp
  · right
    exact List.mem_singleton_self _

theorem feed_line (faulty : FirstFault chunks front line rest time) :
    ∃ fault, Bytes.decode (chomp (line.map Prod.snd)) = .error fault ∧
      feed (ending chunks) (rawLines (ending chunks) (line ++ rest)) = ⟨[], time, some fault⟩ := by
  have notValid := faulty.line_faulty
  rcases faulty.complete with ⟨begun, rfl, absent⟩ | ⟨absent, rfl, rfl⟩
  · have bytes : (begun ++ [(time, 10)]).map Prod.snd = begun.map Prod.snd ++ [10] := by simp
    rw [bytes] at notValid ⊢
    rw [List.append_assoc, List.singleton_append, rawLines_append absent]
    exact feed_of_not_valid notValid _ _ _
  · have some : line ≠ [] := by
      rintro rfl
      exact notValid ⟨[], rfl⟩
    rw [List.append_nil, rawLines_of_not_mem absent some]
    exact feed_of_not_valid notValid _ _ _

theorem front_complete (faulty : FirstFault chunks front line rest time) {t : Text}
    (bytes : front.map Prod.snd = Bytes.encode t) : endLine t = t := by
  cases last : (front.map Prod.snd).getLast? with
  | none =>
    rw [List.getLast?_eq_none_iff, bytes] at last
    rw [Bytes.eq_nil_of_encode_eq_nil last]
    rfl
  | some b =>
    obtain ⟨stamp, last', rfl⟩ := Option.map_eq_some_iff.mp (List.getLast?_map.symm.trans last)
    rw [bytes, faulty.front_lines stamp last'] at last
    rw [endLine, Bytes.getLast?_of_encode (by decide) last]
    rfl

/-- What is read up to the faulty line is what is read from an input that ends there. -/
theorem read_cut (faulty : FirstFault chunks front line rest time) {cut : List Chunk}
    (before : stamped 0 cut = front) (closed : ending cut = time) :
    ∃ arrivals fault, Bytes.decode (chomp (line.map Prod.snd)) = .error fault ∧
      read chunks = ⟨arrivals, time, some fault⟩ ∧ read cut = ⟨arrivals, time, none⟩ := by
  obtain ⟨t, decoded⟩ := faulty.front_valid
  have bytes := Bytes.decode_eq_ok_iff.mp decoded
  -- complete lines are read alike before the faulty line and before the end of the input
  obtain ⟨earlier, follows⟩ := feed_complete t (faulty.front_complete bytes) bytes
  obtain ⟨fault, error, stopped⟩ := faulty.feed_line
  have cutShort := follows time []
  refine ⟨earlier, fault, error, ?_, ?_⟩
  · rw [read, faulty.input, follows, stopped]
    simp [Feed.after]
  · rw [List.append_nil] at cutShort
    rw [read, before, closed, cutShort]
    simp [Feed.after, rawLines, feed]

end FirstFault

end Live

namespace Command

open Live

variable {chunks : List Chunk} {t : Text}

theorem live_document (config : Config) (quiet : Option Millis) (coloured : Bool)
    (text : Bytes.decode (chunks.flatMap Chunk.bytes) = .ok t) :
    (live config quiet coloured chunks).fault = none ∧
      (live config quiet coloured chunks).session.document =
        edited config.dictionary [] ((typed t).map editOf) := by
  obtain ⟨arrivals, input, edits⟩ := read_text text
  constructor
  · exact congrArg Feed.fault input
  · have document := (liveSession config quiet).play_document (read chunks).closing
      (read chunks).arrivals
    rw [input, edits] at document
    change ((liveSession config quiet).play (read chunks).closing (read chunks).arrivals).2.document
      = _
    rw [input]
    exact document

theorem live_last_report (config : Config) (quiet : Option Millis) (coloured : Bool)
    (text : Bytes.decode (chunks.flatMap Chunk.bytes) = .ok t) {before after : List Text}
    {line : Text} (split : typed t = before ++ line :: after)
    (changes : (editOf line).changes config.dictionary
      (edited config.dictionary [] (before.map editOf))) :
    (live config quiet coloured chunks).outputs.getLast?.map Prod.snd =
      some (reportText coloured
        (config.analyzer.analyze (live config quiet coloured chunks).session.document)) := by
  obtain ⟨arrivals, input, edits⟩ := read_text text
  apply getLast?_outputs rfl
  apply Session.play_newest
  right
  refine ⟨before.map editOf, editOf line, after.map editOf, ?_, changes⟩
  rw [input, edits, split, List.map_append, List.map_cons]

/-- A live run depends on the bytes of its input only: chunks, delays and the quiet period do not
matter for the document, and the last report is on this document if a line changed it. -/
theorem live_depends_on_bytes (config : Config) (quiet otherQuiet : Option Millis)
    (coloured otherColoured : Bool) {others : List Chunk}
    (text : Bytes.decode (chunks.flatMap Chunk.bytes) = .ok t)
    (same : others.flatMap Chunk.bytes = chunks.flatMap Chunk.bytes) :
    let outcome := live config quiet coloured chunks
    let other := live config otherQuiet otherColoured others
    let documentAfter := fun lines : List Text =>
      edited config.dictionary [] (lines.map editOf)
    outcome.fault = none ∧ other.fault = none ∧
      other.session.document = outcome.session.document ∧
      outcome.session.document = documentAfter (typed t) ∧
      (∀ before line after, typed t = before ++ line :: after →
        ¬(Text.trim line = "\\format".toList ∧
          QueryTidy.format config.dictionary (documentAfter before) = documentAfter before) →
        outcome.outputs.getLast?.map Prod.snd =
          some (Report.plain coloured
            ⟨"<live>".toList, config.analyzer.analyze outcome.session.document⟩)) ∧
      ((∀ line ∈ typed t, Text.trim line ≠ "\\format".toList ∧
          Text.trim line ≠ "\\clear".toList) →
        outcome.session.document = endLine (joinReturns t)) := by
  intro outcome other documentAfter
  obtain ⟨sound, document⟩ := live_document config quiet coloured text
  obtain ⟨otherSound, otherDocument⟩ :=
    live_document config otherQuiet otherColoured ((congrArg Bytes.decode same).trans text)
  refine ⟨sound, otherSound, otherDocument.trans document.symm, document, ?_, ?_⟩
  · intro before line after split effective
    exact live_last_report config quiet coloured text split (changes_editOf effective)
  · intro noCommand
    have plain : ∀ line ∈ typed t, editOf line = .line line :=
      fun line inText => editOf_plain (noCommand line inText).1 (noCommand line inText).2
    exact document.trans (edited_typed config.dictionary t plain [] rfl)

theorem live_depends_on_bytes_cut :
    let chunks : List Chunk := [⟨0, [0x78, 0xC3]⟩, ⟨700, [0xA9, 0x0D]⟩, ⟨10, [0x0A, 0x79]⟩]
    let whole : List Chunk := [⟨3, [0x78, 0xC3, 0xA9, 0x0D, 0x0A, 0x79]⟩]
    let document := ['x', 'é', '\n', 'y', '\n']
    (live {} (some 20) true whole).session.document = document ∧
      (live {} none false chunks).session.document = document ∧
      (live {} none false chunks).outputs.getLast?.map Prod.snd = some (Report.plain false
        ⟨"<live>".toList, ({} : Config).analyzer.analyze document⟩) := by
  intro chunks whole document
  have text : Bytes.decode (chunks.flatMap Chunk.bytes) = .ok ['x', 'é', '\r', '\n', 'y'] := rfl
  have same : whole.flatMap Chunk.bytes = chunks.flatMap Chunk.bytes := rfl
  have lines : typed ['x', 'é', '\r', '\n', 'y'] = [['x', 'é'], ['y']] := by decide
  have joined : endLine (joinReturns ['x', 'é', '\r', '\n', 'y']) = document := by decide
  obtain ⟨-, -, alike, -, report, plain⟩ :=
    live_depends_on_bytes {} none (some 20) false true text same
  have final := (plain (by decide +kernel)).trans joined
  have last := report [] ['x', 'é'] [['y']] lines (by decide +kernel)
  rw [final] at alike last
  exact ⟨alike, final, last⟩

/-- A line that is no text ends a live run with an error, and apart from the error the run is the
one on the input that ends before this line, at the moment at which the line is complete. -/
theorem live_keeps_lines_before_fault (config : Config) (quiet : Option Millis) (coloured : Bool)
    {front line rest : List (Millis × UInt8)} {time : Millis}
    (faulty : FirstFault chunks front line rest time) :
    (∃ fault, Bytes.decode (chomp (line.map Prod.snd)) = .error fault ∧
        (live config quiet coloured chunks).fault = some fault) ∧
      (∃ cut, stamped 0 cut = front ∧ ending cut = time) ∧
      ∀ cut, stamped 0 cut = front → ending cut = time →
        (live config quiet coloured cut).fault = none ∧
          (live config quiet coloured chunks).outputs =
            (live config quiet coloured cut).outputs ∧
          (live config quiet coloured chunks).session =
            (live config quiet coloured cut).session := by
  have replayed : stamped 0 (replay 0 time front) = front := by
    apply stamped_replay
    exact faulty.rising.sublist (List.Sublist.cons_cons 0 (List.sublist_append_left _ _))
  have closed : ending (replay 0 time front) = time :=
    (Nat.zero_add _).symm.trans (ending_replay faulty.rising)
  refine ⟨?_, ⟨_, replayed, closed⟩, ?_⟩
  · obtain ⟨arrivals, fault, error, input, -⟩ := faulty.read_cut replayed closed
    exact ⟨fault, error, congrArg Feed.fault input⟩
  · intro cut before atTime
    obtain ⟨arrivals, fault, -, input, inputCut⟩ := faulty.read_cut before atTime
    refine ⟨congrArg Feed.fault inputCut, ?_, ?_⟩
    · unfold live run
      rw [input, inputCut]
    · unfold live run
      rw [input, inputCut]

theorem live_keeps_lines_before_fault_late :
    let chunks : List Chunk := [⟨0, [0x78, 0x0A, 0x79, 0x0A]⟩, ⟨900, [0xFF]⟩, ⟨5, [0x0A, 0x7A]⟩]
    let cut : List Chunk := [⟨0, [0x78, 0x0A, 0x79, 0x0A]⟩, ⟨905, []⟩]
    let report := "<live>:\n  ERROR [SQL002] Missing semicolon at the end of the query" ++
      " - Ensure your query ends with a ';'\n"
    (∃ fault, (live {} none false chunks).fault = some fault) ∧
      (live {} none false chunks).outputs = (live {} none false cut).outputs ∧
      (live {} none false chunks).outputs = [(500, report.toList)] ∧
      (live {} none false chunks).session.document = "x\ny\n".toList := by
  -- the line that is no text comes after the pause that follows the first two, on which a report
  -- is written at the end of their quiet period
  intro chunks cut report
  have faulty : FirstFault chunks [(0, 0x78), (0, 0x0A), (0, 0x79), (0, 0x0A)]
      [(900, 0xFF), (905, 0x0A)] [(905, 0x7A)] 905 := by
    refine ⟨rfl, by decide, ⟨"x\ny\n".toList, by decide⟩, ?_, ?_⟩
    · exact Or.inl ⟨[(900, 0xFF)], rfl, by decide⟩
    · rintro ⟨t, decoded⟩
      exact nomatch decoded
  obtain ⟨⟨fault, -, stopped⟩, -, kept⟩ := live_keeps_lines_before_fault {} none false faulty
  obtain ⟨-, outputs, session⟩ := kept cut rfl rfl
  have written : (live {} none false cut).outputs = [(500, report.toList)] := by decide +kernel
  have document : (live {} none false cut).session.document = "x\ny\n".toList := by decide +kernel
  exact ⟨⟨fault, stopped⟩, outputs, outputs.trans written, session ▸ document⟩

end Command

end QueryTidy
