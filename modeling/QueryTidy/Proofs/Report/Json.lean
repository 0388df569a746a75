import QueryTidy.Proofs.Json.Unambiguity
import QueryTidy.Report.Render
import Mathlib.Data.List.Forall2

/-!
Reports as JSON lose nothing. What is written about reports is a JSON text, and by the grammar it
stands for these reports and no others.
-/

set_option autoImplicit false
set_option relaxedAutoImplicit false

namespace QueryTidy

namespace Json

open Grammar

theorem letter_escape (c : Char) : Letter (escape c) c := by
  unfold escape
  split_ifs with quote slash back tab feed page ret control
  -- seven characters have a letter of their own
  iterate 7
    · subst c
      exact .escaped (.short (by decide))
  · have code : ∀ n < 0x20, Text.digits? 16
        ['0', '0', hexDigit (n / 16), hexDigit (n % 16)] = some n := by decide
    exact .escaped (.code ⟨rfl, code c.toNat control⟩)
  · exact .plain (by omega) quote slash

theorem letters_escape (t : Text) : Letters (t.flatMap escape) t := by
  induction t with
  | nil => exact .nil
  | cons c t ih => exact .cons (letter_escape c) ih

theorem quoted_quote (t : Text) : Quoted (quote t) t :=
  .mk (letters_escape t)

theorem isSpace_nil : IsSpace [] :=
  List.forall_mem_nil _

theorem isSpace_newLine (level : Nat) : IsSpace (newLine level) := by
  intro c inLine
  rcases List.mem_cons.mp inLine with rfl | indent
  · decide
  · obtain rfl := List.eq_of_mem_replicate indent
    decide

section Rows

variable {α : Type} {P : Text → α → Prop} {a : α} {as : List α} {s t u : Text} {ts : List Text}

theorem further_of_row (row : Row P t (a :: as)) : Further P (',' :: t) (a :: as) := by
  cases row with
  | some padded further => exact .cons padded further

theorem row_of_forall₂ (space : IsSpace s) (space' : IsSpace u) (first : P t a)
    (rest : List.Forall₂ P ts as) :
    Row P (s ++ t ++ ts.flatMap (',' :: s ++ ·) ++ u) (a :: as) := by
  induction rest generalizing t a with
  | nil =>
    have alone := Row.some (.mk space first space') (.nil : Further P [] [])
    simpa using alone
  | @cons t' a' ts as next _ ih =>
    have row := Row.some (.mk space first isSpace_nil) (further_of_row (ih next))
    simpa using row

end Rows

/-- Whether a value is written as a text that spells something, at every level. -/
def Writes (v : Json) (d : Datum) : Prop :=
  ∀ level, Value (write level v) d

theorem writeItems_eq (level : Nat) (items : List Json) :
    writeItems level items = (items.map (write level)).flatMap (',' :: newLine level ++ ·) := by
  induction items with
  | nil => rfl
  | cons item items ih => simp [writeItems, ih]

theorem writeMembers_eq (level : Nat) (members : List (Text × Json)) :
    writeMembers level members =
      (members.map (writeMember level)).flatMap (',' :: newLine level ++ ·) := by
  induction members with
  | nil => rfl
  | cons m members ih => simp [writeMembers, ih]

theorem writes_string (t : Text) : Writes (.string t) (.string t) :=
  fun _ => .string (quoted_quote t)

theorem writes_array {items : List Json} {data : List Datum}
    (each : List.Forall₂ Writes items data) : Writes (.array items) (.array data) := by
  intro level
  cases each with
  | nil => exact .array (.none isSpace_nil)
  | @cons item d items data first rest =>
    have row := row_of_forall₂ (isSpace_newLine (level + 1)) (isSpace_newLine level)
      (first (level + 1)) (List.forall₂_map_left_iff.mpr (rest.imp fun _ _ => (· (level + 1))))
    rw [← writeItems_eq] at row
    have value := Value.array row
    simpa [write] using value

theorem writes_map {α : Type} {f : α → Json} {g : α → Datum} (each : ∀ a, Writes (f a) (g a))
    (as : List α) : Writes (.array (as.map f)) (.array (as.map g)) := by
  apply writes_array
  rw [List.forall₂_map_left_iff, List.forall₂_map_right_iff, List.forall₂_same]
  exact fun a _ => each a

theorem writes_object {members : List (Text × Json)} {data : List (Text × Datum)}
    (each : List.Forall₂ (fun m d => m.1 = d.1 ∧ Writes m.2 d.2) members data) :
    Writes (.object members) (.object data) := by
  have member {m : Text × Json} {d : Text × Datum} (level : Nat)
      (written : m.1 = d.1 ∧ Writes m.2 d.2) : Member (writeMember level m) d := by
    obtain ⟨name, v⟩ := m
    obtain ⟨name', d⟩ := d
    obtain ⟨rfl, value⟩ := written
    have blank : IsSpace [' '] := by simp [IsSpace, spaces]
    have spelt := Member.mk (quoted_quote name) isSpace_nil blank (value level)
    simpa [writeMember] using spelt
  intro level
  cases each with
  | nil => exact .object (.none isSpace_nil)
  | @cons m d members data first rest =>
    have row := row_of_forall₂ (isSpace_newLine (level + 1)) (isSpace_newLine level)
      (member (level + 1) first)
      (List.forall₂_map_left_iff.mpr (rest.imp fun _ _ => member (level + 1)))
    rw [← writeMembers_eq] at row
    have value := Value.object row
    simpa [write] using value

end Json

theorem Rule.id_injective : Function.Injective Rule.id := by
  intro a b
  cases a <;> cases b <;> decide

theorem Severity.name_injective : Function.Injective Severity.name := by
  intro a b
  cases a <;> cases b <;> decide

namespace Report

open Json Grammar

def findingDatum (f : Finding) : Datum :=
  .object
    [("rule_id".toList, .string f.rule.id), ("message".toList, .string f.message),
     ("suggestion".toList, .string f.suggestion), ("severity".toList, .string f.severity.name)]

def datum (r : Report) : Datum :=
  .object
    [("source".toList, .string r.source), ("findings".toList, .array (r.findings.map findingDatum))]

theorem writes_finding (f : Finding) : Writes (findingValue f) (findingDatum f) :=
  writes_object
    (.cons ⟨rfl, writes_string _⟩ (.cons ⟨rfl, writes_string _⟩ (.cons ⟨rfl, writes_string _⟩
      (.cons ⟨rfl, writes_string _⟩ .nil))))

theorem writes_report (r : Report) : Writes r.value r.datum :=
  writes_object
    (.cons ⟨rfl, writes_string _⟩ (.cons ⟨rfl, writes_map writes_finding r.findings⟩ .nil))

theorem document_json (reports : List Report) :
    Document (json reports) (.array (reports.map datum)) := by
  have padded := Padded.mk isSpace_nil (writes_map writes_report reports 0) isSpace_nil
  rwa [List.nil_append, List.append_nil] at padded

theorem findingDatum_injective : Function.Injective findingDatum := by
  rintro ⟨rule, message, suggestion, severity⟩ ⟨rule', message', suggestion', severity'⟩ same
  simp only [findingDatum, Datum.object.injEq, List.cons.injEq, Prod.mk.injEq, Datum.string.injEq,
    true_and, and_true] at same
  obtain ⟨rules, rfl, rfl, grades⟩ := same
  rw [Rule.id_injective rules, Severity.name_injective grades]

theorem datum_injective : Function.Injective datum := by
  rintro ⟨source, findings⟩ ⟨source', findings'⟩ same
  simp only [datum, Datum.object.injEq, List.cons.injEq, Prod.mk.injEq, Datum.string.injEq,
    Datum.array.injEq, true_and, and_true] at same
  obtain ⟨rfl, equal⟩ := same
  rw [findingDatum_injective.list_map equal]

/-- Reports as JSON lose nothing: the text is a JSON text, the only value that it stands for is the
array of the reports with their findings in order, and no other reports have the same text. -/
theorem json_lossless (terminal coloured : Bool) (reports : List Report) :
    (∀ v, Document (render terminal ⟨.json, coloured⟩ reports) v ↔
      v = .array (reports.map fun r => .object
        [("source".toList, .string r.source),
         ("findings".toList, .array (r.findings.map fun f => .object
           [("rule_id".toList, .string f.rule.id), ("message".toList, .string f.message),
            ("suggestion".toList, .string f.suggestion),
            ("severity".toList, .string f.severity.name)]))])) ∧
      ∀ terminal' coloured' reports', render terminal' ⟨.json, coloured'⟩ reports' =
        render terminal ⟨.json, coloured⟩ reports → reports' = reports := by
  have written := document_json reports
  refine ⟨fun v => ⟨fun document => document.unique written, ?_⟩, ?_⟩
  · rintro rfl
    exact written
  · intro _ _ reports' same
    have written' := document_json reports'
    rw [show json reports' = json reports from same] at written'
    exact datum_injective.list_map (Datum.array.inj (written'.unique written))

end Report

end QueryTidy
