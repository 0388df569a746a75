import QueryTidy.Live
import QueryTidy.Proofs.Bytes.Utf8
import QueryTidy.Proofs.Text.Lines

/-!
What is read from bytes that arrive over time, in terms of the text whose bytes they are. A line
feed is a byte of no other character, so the lines of the bytes are the bytes of the lines, wherever
the chunks are cut.
-/

set_option autoImplicit false
set_option relaxedAutoImplicit false

namespace QueryTidy

namespace Live

open Editor

/-- The lines of a text: each ends with a line feed, and a carriage return just before it does not
count; what follows the last line feed is a line of its own, as it is, unless it is empty. -/
def typed (t : Text) : List Text :=
  let parts := Text.splitAt '\n' t
  parts.dropLast.map Text.dropReturn ++ parts.getLast?.toList.filter fun part => !part.isEmpty

theorem typed_of_not_mem {t : Text} (absent : '\n' ∉ t) :
    typed t = if t = [] then [] else [t] := by
  rw [typed, Text.splitAt_of_not_mem absent]
  cases t with
  | nil => rfl
  | cons c t => rfl

theorem typed_append {u : Text} (absent : '\n' ∉ u) (v : Text) :
    typed (u ++ '\n' :: v) = Text.dropReturn u :: typed v := by
  have more := Text.splitAt_ne_nil '\n' v
  rw [typed, typed, Text.splitAt_append absent]
  cases parts : Text.splitAt '\n' v with
  | nil => exact absurd parts more
  | cons part parts => rfl

section Bytes

open Bytes

theorem encode_line (u v : Text) : encode (u ++ '\n' :: v) = encode u ++ 10 :: encode v :=
  encode_append u ('\n' :: v)

theorem lineFeed_not_mem_encode {t : Text} (absent : '\n' ∉ t) : (10 : UInt8) ∉ encode t :=
  fun inBytes => absent (mem_of_mem_encode (by decide) inBytes)

theorem chomp_of_not_mem {bytes : List UInt8} (absent : 10 ∉ bytes) : chomp bytes = bytes := by
  have noFeed : ∀ rest, bytes.reverse ≠ 10 :: rest := by
    intro rest reversed
    apply absent
    rw [← List.mem_reverse, reversed]
    exact List.mem_cons_self
  unfold chomp
  split
  · exact absurd ‹_› (noFeed _)
  · exact absurd ‹_› (noFeed _)
  · rfl

theorem chomp_return (bytes : List UInt8) : chomp (bytes ++ [13, 10]) = bytes := by
  simp [chomp]

theorem chomp_feed {bytes : List UInt8} (noReturn : bytes.getLast? ≠ some 13) :
    chomp (bytes ++ [10]) = bytes := by
  have reversed : (bytes ++ [10]).reverse = 10 :: bytes.reverse := by simp
  rw [← List.head?_reverse] at noReturn
  unfold chomp
  rw [reversed]
  split
  · rename_i rest same
    rw [(List.cons.inj same).2] at noReturn
    exact absurd rfl noReturn
  · rename_i rest _ same
    rw [← (List.cons.inj same).2, List.reverse_reverse]
  · rename_i other
    exact absurd rfl (other _)

theorem chomp_encode (u : Text) : chomp (encode u ++ [10]) = encode (Text.dropReturn u) := by
  unfold Text.dropReturn
  split
  · rename_i last
    obtain ⟨v, rfl⟩ := List.getLast?_eq_some_iff.mp last
    rw [encode_append, List.append_assoc, List.dropLast_concat]
    exact chomp_return (encode v)
  · rename_i noReturn
    exact chomp_feed (mt (getLast?_of_encode (by decide)) noReturn)

theorem chomp_cases (bytes : List UInt8) :
    bytes = chomp bytes ++ [13, 10] ∨ bytes = chomp bytes ++ [10] ∨ bytes = chomp bytes := by
  unfold chomp
  split
  · rename_i rest reversed
    left
    rw [← List.reverse_reverse bytes, reversed]
    simp
  · rename_i rest _ reversed
    right; left
    rw [← List.reverse_reverse bytes, reversed]
    simp
  · right; right
    rfl

theorem valid_of_valid_chomp {bytes : List UInt8} (valid : Valid (chomp bytes)) : Valid bytes := by
  obtain ⟨t, decoded⟩ := valid
  have chomped := decode_eq_ok_iff.mp decoded
  rcases chomp_cases bytes with whole | whole | whole
  · rw [whole, chomped]
    exact ⟨t ++ ['\r', '\n'], decode_eq_ok_iff.mpr (encode_append t ['\r', '\n']).symm⟩
  · rw [whole, chomped]
    exact ⟨t ++ ['\n'], decode_eq_ok_iff.mpr (encode_append t ['\n']).symm⟩
  · rw [whole]
    exact ⟨t, decoded⟩

end Bytes

section Lines

variable {stamps : List (Millis × UInt8)} {closing : Millis}

theorem rawLines_append (absent : 10 ∉ stamps.map Prod.snd) (time : Millis)
    (rest : List (Millis × UInt8)) :
    rawLines closing (stamps ++ (time, 10) :: rest) =
      ⟨time, stamps.map Prod.snd ++ [10]⟩ :: rawLines closing rest := by
  induction stamps with
  | nil => exact if_pos rfl
  | cons stamp stamps ih =>
    obtain ⟨differs, absent⟩ := not_or.mp (mt List.mem_cons.mpr absent)
    rw [List.cons_append, rawLines, if_neg (Ne.symm differs), ih absent]
    rfl

theorem rawLines_of_not_mem (absent : 10 ∉ stamps.map Prod.snd) (some : stamps ≠ []) :
    rawLines closing stamps = [⟨closing, stamps.map Prod.snd⟩] := by
  induction stamps with
  | nil => exact absurd rfl some
  | cons stamp stamps ih =>
    obtain ⟨differs, absent⟩ := not_or.mp (mt List.mem_cons.mpr absent)
    rw [rawLines, if_neg (Ne.symm differs)]
    cases stamps with
    | nil => rfl
    | cons next stamps => rw [ih absent (List.cons_ne_nil _ _)]; rfl

end Lines

def Feed.after (input : Feed) (earlier : List Arrival) : Feed :=
  { input with arrivals := earlier ++ input.arrivals }

theorem feed_of_decode {bytes : List UInt8} {t : Text}
    (decoded : Bytes.decode (chomp bytes) = .ok t) (time closing : Millis) (lines : List RawLine) :
    feed closing (⟨time, bytes⟩ :: lines) = (feed closing lines).after [⟨time, editOf t⟩] := by
  rw [feed, decoded]
  rfl

theorem feed_of_not_valid {bytes : List UInt8} (faulty : ¬Bytes.Valid bytes)
    (time closing : Millis) (lines : List RawLine) :
    ∃ fault, Bytes.decode (chomp bytes) = .error fault ∧
      feed closing (⟨time, bytes⟩ :: lines) = ⟨[], time, some fault⟩ := by
  cases decoded : Bytes.decode (chomp bytes) with
  | ok t => exact absurd (valid_of_valid_chomp ⟨t, decoded⟩) faulty
  | error fault =>
    refine ⟨fault, rfl, ?_⟩
    rw [feed, decoded]

theorem feed_line {u v : Text} (absent : '\n' ∉ u) {stamps : List (Millis × UInt8)}
    (bytes : stamps.map Prod.snd = Bytes.encode (u ++ '\n' :: v)) :
    ∃ time later, later.map Prod.snd = Bytes.encode v ∧ ∀ closing rest,
      feed closing (rawLines closing (stamps ++ rest)) =
        (feed closing (rawLines closing (later ++ rest))).after
          [⟨time, editOf (Text.dropReturn u)⟩] := by
  rw [encode_line] at bytes
  obtain ⟨line, remaining, rfl, lineBytes, remainingBytes⟩ := List.map_eq_append_iff.mp bytes
  obtain ⟨⟨time, b⟩, later, rfl, rfl, laterBytes⟩ := List.map_eq_cons_iff.mp remainingBytes
  refine ⟨time, later, laterBytes, fun closing rest => ?_⟩
  have free : 10 ∉ line.map Prod.snd := by
    rw [lineBytes]
    exact lineFeed_not_mem_encode absent
  have decoded : Bytes.decode (chomp (line.map Prod.snd ++ [10])) =
      .ok (Text.dropReturn u) := by
    rw [lineBytes, chomp_encode, Bytes.decode_encode]
  rw [List.append_assoc, List.cons_append, rawLines_append free, feed_of_decode decoded]

/-- A text is read to its end, and each of its lines is one edit. -/
theorem feed_text (t : Text) {stamps : List (Millis × UInt8)}
    (bytes : stamps.map Prod.snd = Bytes.encode t) (closing : Millis) :
    ∃ arrivals, feed closing (rawLines closing stamps) = ⟨arrivals, closing, none⟩ ∧
      arrivals.map Arrival.edit = (typed t).map editOf := by
  induction t using Text.line_induction generalizing stamps with
  | last t absent =>
    rw [typed_of_not_mem absent]
    by_cases empty : t = []
    · subst empty
      obtain rfl := List.map_eq_nil_iff.mp bytes
      exact ⟨[], rfl, rfl⟩
    · have free : 10 ∉ stamps.map Prod.snd := by
        rw [bytes]
        exact lineFeed_not_mem_encode absent
      have some : stamps ≠ [] := by
        rintro rfl
        exact empty (Bytes.eq_nil_of_encode_eq_nil bytes.symm)
      have decoded : Bytes.decode (chomp (stamps.map Prod.snd)) = .ok t := by
        rw [chomp_of_not_mem free, bytes, Bytes.decode_encode]
      rw [if_neg empty, rawLines_of_not_mem free some, feed_of_decode decoded]
      exact ⟨_, rfl, rfl⟩
  | line u v absent ih =>
    obtain ⟨time, later, laterBytes, first⟩ := feed_line absent bytes
    obtain ⟨arrivals, read, edits⟩ := ih laterBytes
    have whole := first closing []
    rw [List.append_nil, List.append_nil, read] at whole
    refine ⟨_, whole, ?_⟩
    rw [typed_append absent, List.map_cons, ← edits]
    rfl

theorem endLine_append (u v : Text) : endLine (u ++ '\n' :: v) = u ++ '\n' :: endLine v := by
  unfold endLine
  cases v using List.reverseRecOn with
  | nil => simp
  | append_singleton v c =>
    rw [← List.cons_append, ← List.append_assoc, List.getLast?_concat, List.getLast?_concat]
    by_cases feed : c = '\n'
    · simp [feed]
    · simp [feed]

theorem endLine_of_not_mem {t : Text} (absent : '\n' ∉ t) (some : t ≠ []) :
    endLine t = t ++ ['\n'] := by
  cases t using List.reverseRecOn with
  | nil => exact absurd rfl some
  | append_singleton t c =>
    have differs : c ≠ '\n' := by
      rintro rfl
      simp at absent
    rw [endLine, List.getLast?_concat]
    exact if_neg differs

theorem feed_complete (t : Text) (complete : endLine t = t) {stamps : List (Millis × UInt8)}
    (bytes : stamps.map Prod.snd = Bytes.encode t) :
    ∃ earlier, ∀ closing rest, feed closing (rawLines closing (stamps ++ rest)) =
      (feed closing (rawLines closing rest)).after earlier := by
  induction t using Text.line_induction generalizing stamps with
  | last t absent =>
    have empty : t = [] := by
      by_contra some
      rw [endLine_of_not_mem absent some] at complete
      simp at complete
    subst empty
    obtain rfl := List.map_eq_nil_iff.mp bytes
    exact ⟨[], fun _ _ => rfl⟩
  | line u v absent ih =>
    rw [endLine_append] at complete
    have rest := List.cons.inj (List.append_cancel_left complete)
    obtain ⟨time, later, laterBytes, first⟩ := feed_line absent bytes
    obtain ⟨earlier, read⟩ := ih rest.2 laterBytes
    refine ⟨⟨time, editOf (Text.dropReturn u)⟩ :: earlier, fun closing rest => ?_⟩
    rw [first, read]
    rfl

end Live

end QueryTidy
