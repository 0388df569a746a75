import QueryTidy.Proofs.Text.Numerals
import QueryTidy.Toml.Expression

/-!
Writing assignments of strings, one on a line, and reading them back. Both sides stand in double
quotes, and the characters that cannot stand there as they are become escapes; so every text can be
written, and is read as it was.
-/

set_option autoImplicit false
set_option relaxedAutoImplicit false

namespace QueryTidy.Toml

open Text

def isPlain (c : Char) : Bool :=
  isPermitted c && c != '"' && c != '\\'

def writeChar (c : Char) : Text :=
  if isPlain c then [c]
  else "\\u00".toList ++ [Nat.digitChar (c.toNat / 16), Nat.digitChar (c.toNat % 16)]

def writeString (t : Text) : Text :=
  '"' :: (t.flatMap writeChar ++ ['"'])

def writeLine (p : Text × Text) : Text :=
  writeString p.1 ++ " = ".toList ++ writeString p.2 ++ ['\n']

theorem toNat_lt_of_not_isPlain {c : Char} (special : isPlain c = false) : c.toNat < 128 := by
  by_contra large
  have above : 128 ≤ c.toNat := Nat.not_lt.mp large
  have apart : ∀ d : Char, d.toNat < 128 → c ≠ d := by
    rintro d small rfl
    exact large small
  have blank : ' ' ≤ c := by
    change ' '.toNat ≤ c.toNat
    exact Nat.le_trans (by decide) above
  simp [isPlain, isPermitted, blank, apart '"' (by decide), apart '\\' (by decide),
    apart '\x7f' (by decide)] at special

theorem charOfCode?_toNat {c : Char} (small : c.toNat < 128) : charOfCode? c.toNat = some c := by
  rw [charOfCode?, if_pos (Or.inl (Nat.lt_trans small (by decide)))]
  exact congrArg some (Char.ofNat_toNat c)

theorem escaped_writeChar (c : Char) (rest : Text) :
    escaped false .any (writeChar c ++ rest) = prepend [c] (escaped false .any rest) := by
  unfold writeChar
  split
  · rename_i plain
    obtain ⟨⟨permitted, noQuote⟩, noEscape⟩ : (isPermitted c ∧ c ≠ '"') ∧ c ≠ '\\' := by
      simpa [isPlain] using plain
    simp [escaped, permitted, noQuote, noEscape]
  · rename_i special
    have small := toNat_lt_of_not_isPlain (Bool.eq_false_iff.mpr special)
    have high : c.toNat / 16 < 16 := by omega
    have low : c.toNat % 16 < 16 := Nat.mod_lt _ (by decide)
    have code : c.toNat / 16 * 16 + c.toNat % 16 = c.toNat := Nat.div_add_mod' _ _
    have read : ∀ digits : Text, escaped false .any ("\\u00".toList ++ digits) =
        escaped false (.hex 2 0) digits := fun _ => rfl
    rw [List.append_assoc, read]
    simp [escaped, digit?_digitChar (by decide) high, digit?_digitChar (by decide) low, code,
      charOfCode?_toNat small]

theorem escaped_flatMap_writeChar (t rest : Text) :
    escaped false .any (t.flatMap writeChar ++ '"' :: rest) = some (t, rest) := by
  induction t with
  | nil => rfl
  | cons c t ih =>
    rw [List.flatMap_cons, List.append_assoc, escaped_writeChar, ih]
    rfl

theorem quoted?_writeString (t rest : Text) : quoted? (writeString t ++ rest) = some (t, rest) := by
  rw [writeString, List.cons_append, List.append_assoc]
  exact escaped_flatMap_writeChar t rest

theorem exists_writeChar (c : Char) : ∃ first rest, writeChar c = first :: rest ∧ first ≠ '"' := by
  unfold writeChar
  split
  · rename_i plain
    refine ⟨c, [], rfl, ?_⟩
    rintro rfl
    contradiction
  · exact ⟨'\\', _, rfl, by decide⟩

theorem string?_writeString (t rest : Text) (next : rest.head? ≠ some '"') :
    string? (writeString t ++ rest) = some (t, rest) := by
  rw [← quoted?_writeString t rest]
  unfold string?
  split
  · rename_i more three
    exfalso
    cases t with
    | nil => simp_all [writeString]
    | cons c t =>
      obtain ⟨first, others, written, noQuote⟩ := exists_writeChar c
      simp_all [writeString]
  · rename_i three
    simp [writeString] at three
  · rfl

theorem key?_writeString (t rest : Text) :
    key? (writeString t ++ " = ".toList ++ rest) = some ([t], '=' :: ' ' :: rest) := by
  have start : skipSpaces (writeString t ++ " = ".toList ++ rest) =
      writeString t ++ (" = ".toList ++ rest) := by
    rw [List.append_assoc]
    rfl
  have behind : skipSpaces (" = ".toList ++ rest) = '=' :: ' ' :: rest := rfl
  have part : simpleKey? (writeString t ++ (" = ".toList ++ rest)) =
      some (t, " = ".toList ++ rest) := by
    rw [simpleKey?, quoted?_writeString]
  rw [key?, maxDepth, parts?, start, part]
  simp only [Option.bind_eq_bind, Option.bind_some, behind]
  rfl

theorem value?_writeString (t rest : Text) (next : rest.head? ≠ some '"') (depth steps : Nat) :
    value? depth (steps + 1) (writeString t ++ rest) = some (.string t, rest) := by
  have read := string?_writeString t rest next
  rw [writeString, List.cons_append] at read ⊢
  rw [value?]
  simp only [read]
  rfl

private theorem expression?_quote (t : Text) :
    expression? ('"' :: t) = (key? ('"' :: t)).bind fun (keys, t) =>
      (char? '=' t).bind fun t => (value? 0 (2 * t.length + 1) (skipSpaces t)).bind fun (v, t) =>
        some (.assignment keys v, t) :=
  rfl

theorem expression?_writeLine (p : Text × Text) (rest : Text) :
    expression? (writeLine p ++ rest) = some (.assignment [p.1] (.string p.2), '\n' :: rest) := by
  have line : writeLine p ++ rest =
      writeString p.1 ++ " = ".toList ++ (writeString p.2 ++ '\n' :: rest) := by
    simp only [writeLine, List.append_assoc, List.singleton_append]
  have start : ∃ t, writeLine p ++ rest = '"' :: t := ⟨_, rfl⟩
  have sign : ∀ t, char? '=' ('=' :: t) = some t := fun _ => rfl
  have spaces : skipSpaces (' ' :: (writeString p.2 ++ '\n' :: rest)) =
      writeString p.2 ++ '\n' :: rest := rfl
  obtain ⟨t, quote⟩ := start
  rw [quote, expression?_quote, ← quote, line, key?_writeString]
  simp only [Option.bind_some, sign, spaces, value?_writeString p.2 ('\n' :: rest) (by simp)]

theorem skipTrivia?_writeLine (p : Text × Text) (rest : Text) :
    skipTrivia? false (writeLine p ++ rest) = some (writeLine p ++ rest) :=
  rfl

theorem expressions?_writeLines (pairs : List (Text × Text)) {steps : Nat}
    (enough : pairs.length < steps) :
    expressions? steps (pairs.flatMap writeLine) =
      some (pairs.map fun p => .assignment [p.1] (.string p.2)) := by
  -- every line takes one step, and the last step sees that nothing follows
  induction pairs generalizing steps with
  | nil =>
    obtain ⟨steps, rfl⟩ := Nat.exists_eq_succ_of_ne_zero (Nat.ne_of_gt enough)
    rfl
  | cons p pairs ih =>
    obtain ⟨steps, rfl⟩ := Nat.exists_eq_succ_of_ne_zero (Nat.ne_of_gt (Nat.zero_lt_of_lt enough))
    have lineEnd : ∀ rest, endOfLine? false ('\n' :: rest) = some rest := fun _ => rfl
    have filled : ∃ c t, writeLine p ++ pairs.flatMap writeLine = c :: t := ⟨_, _, rfl⟩
    obtain ⟨c, t, written⟩ := filled
    have first := expression?_writeLine p (pairs.flatMap writeLine)
    have trivia := skipTrivia?_writeLine p (pairs.flatMap writeLine)
    rw [written] at first trivia
    rw [List.flatMap_cons, written, expressions?, trivia]
    simp only [first, Option.bind_eq_bind, Option.bind_some, lineEnd,
      ih (Nat.lt_of_succ_lt_succ enough), Option.map_some, List.map_cons]

theorem length_le_writeLines (pairs : List (Text × Text)) :
    pairs.length ≤ (pairs.flatMap writeLine).length := by
  induction pairs with
  | nil => exact Nat.le_refl 0
  | cons p pairs ih =>
    rw [List.flatMap_cons, List.length_append, List.length_cons, Nat.add_comm]
    exact Nat.add_le_add (Nat.succ_le_of_lt (Nat.zero_lt_succ _)) ih

theorem length_lt_writeLines {header : Text} (filled : header ≠ []) (pairs : List (Text × Text)) :
    pairs.length < (header ++ pairs.flatMap writeLine).length := by
  rw [List.length_append]
  exact Nat.lt_of_le_of_lt (length_le_writeLines pairs)
    (Nat.lt_add_of_pos_left (List.length_pos_iff.mpr filled))

end QueryTidy.Toml
