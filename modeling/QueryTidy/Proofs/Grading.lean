import QueryTidy.Proofs.Analysis
import QueryTidy.Report.Basic

/-!
Whether the order of the table of grades matters. A rule is looked up by its first entry, and
entries whose names differ in case alone name the same rule. The order can be seen, in the findings
as well as in the exit code, exactly if the entries for some enabled rule do not all give it the
same grade.
-/

set_option autoImplicit false
set_option relaxedAutoImplicit false

namespace QueryTidy

open Text

namespace RuleSettings

variable {s s' : RuleSettings} {rule : Rule}

def gradeOf (rule : Rule) (written : Text) : Severity :=
  (Severity.ofName? written).getD rule.severity

/-- Whether all entries for a rule give it the same grade. -/
def Unambiguous (s : RuleSettings) (rule : Rule) : Prop :=
  ∀ a ∈ s.severity, ∀ b ∈ s.severity, SameUpToCase a.1 rule.id → SameUpToCase b.1 rule.id →
    gradeOf rule a.2 = gradeOf rule b.2

structure Reordered (s s' : RuleSettings) : Prop where
  disabled : s.disabled = s'.disabled
  severity : s.severity.Perm s'.severity

theorem severityOf_of_unnamed (unnamed : ∀ a ∈ s.severity, ¬SameUpToCase a.1 rule.id) :
    s.severityOf rule = rule.severity := by
  have absent : s.severity.find? (fun a => rule.namedBy a.1) = none :=
    List.find?_eq_none.mpr fun a inTable names => unnamed a inTable (Rule.namedBy_iff.mp names)
  rw [severityOf, written?, absent]
  rfl

theorem exists_severityOf (named : ∃ a ∈ s.severity, SameUpToCase a.1 rule.id) :
    ∃ a ∈ s.severity, SameUpToCase a.1 rule.id ∧ s.severityOf rule = gradeOf rule a.2 := by
  obtain ⟨a, inTable, names⟩ := named
  have present : (s.severity.find? fun a => rule.namedBy a.1).isSome :=
    List.find?_isSome.mpr ⟨a, inTable, Rule.namedBy_iff.mpr names⟩
  obtain ⟨first, found⟩ := Option.isSome_iff_exists.mp present
  have firstNames : rule.namedBy first.1 := by simpa using List.find?_some found
  refine ⟨first, List.mem_of_find?_eq_some found, Rule.namedBy_iff.mp firstNames, ?_⟩
  rw [severityOf, written?, found]
  rfl

theorem severityOf_cons {a : Text × Text} (names : SameUpToCase a.1 rule.id)
    (disabled : List Text) (rest : List (Text × Text)) :
    severityOf ⟨disabled, a :: rest⟩ rule = gradeOf rule a.2 := by
  have first : (a :: rest).find? (fun a => rule.namedBy a.1) = some a :=
    List.find?_cons_of_pos (Rule.namedBy_iff.mpr names)
  rw [severityOf, written?, first]
  rfl

theorem Unambiguous.severityOf_eq (clear : s.Unambiguous rule) (reordered : s.Reordered s') :
    s'.severityOf rule = s.severityOf rule := by
  have members : ∀ a, a ∈ s'.severity ↔ a ∈ s.severity := fun a => reordered.severity.mem_iff.symm
  by_cases named : ∃ a ∈ s.severity, SameUpToCase a.1 rule.id
  · obtain ⟨a, inTable, names, grade⟩ := exists_severityOf named
    have named' : ∃ a ∈ s'.severity, SameUpToCase a.1 rule.id := ⟨a, (members a).mpr inTable, names⟩
    obtain ⟨b, inTable', names', grade'⟩ := exists_severityOf named'
    rw [grade, grade']
    exact clear b ((members b).mp inTable') a inTable names' names
  · have unnamed : ∀ a ∈ s.severity, ¬SameUpToCase a.1 rule.id :=
      fun a inTable names => named ⟨a, inTable, names⟩
    rw [severityOf_of_unnamed unnamed,
      severityOf_of_unnamed fun a inTable => unnamed a ((members a).mp inTable)]

theorem Reordered.disables_iff (reordered : s.Reordered s') :
    s'.Disables rule ↔ s.Disables rule := by
  rw [Disables, Disables, reordered.disabled]

end RuleSettings

theorem Severity.rank_injective : Function.Injective rank := by
  intro a b
  cases a <;> cases b <;> decide

theorem Report.exitCode_singleton (source : Text) (f : Finding) :
    exitCode [⟨source, [f]⟩] = f.severity.rank := by
  simp [exitCode]

namespace Analyzer

open RuleSettings

variable {s s' : RuleSettings}

theorem analyze_reordered (reordered : s.Reordered s')
    (clear : ∀ rule, ¬s.Disables rule → s.Unambiguous rule) (d : Dictionary) (t : Text) :
    analyze ⟨s', d⟩ t = analyze ⟨s, d⟩ t := by
  rw [analyze_eq_flatMap, analyze_eq_flatMap]
  simp only [reordered.disables_iff]
  apply List.flatMap_congr
  intro rule enabled
  have isOn : ¬s.Disables rule := by simpa using (List.mem_filter.mp enabled).2
  simp only [reported, (clear rule isOn).severityOf_eq reordered]

/-- A query that violates a given rule and no other one. -/
def sample : Rule → Text
  | .misspelledKeyword => "frm;".toList
  | .missingSemicolon => "x".toList
  | .incompleteCreateTable => "CREATE TABLE x;".toList
  | .unmatchedParentheses => "(;".toList
  | .groupByWithoutSelect => "GROUP BY x;".toList
  | .incorrectJoin => "JOIN;".toList

theorem length_run_sample (rule other : Rule) :
    (Check.run .builtin other (sample rule)).length = if other = rule then 1 else 0 := by
  have all : ∀ rule ∈ Rule.all, ∀ other ∈ Rule.all,
      (Check.run .builtin other (sample rule)).length = if other = rule then 1 else 0 := by
    decide +kernel
  exact all rule rule.mem_all other other.mem_all

theorem exists_analyze_sample {rule : Rule} (isOn : ¬s.Disables rule) :
    ∃ f : Finding, analyze ⟨s, .builtin⟩ (sample rule) = [f] ∧ f.severity = s.severityOf rule := by
  have about : ∀ f ∈ analyze ⟨s, .builtin⟩ (sample rule), f.rule = rule := by
    intro f found
    rw [analyze_eq_flatMap] at found
    obtain ⟨other, -, reported⟩ := List.mem_flatMap.mp found
    obtain ⟨g, inRun, rfl⟩ := List.mem_map.mp reported
    by_contra differs
    have another : other ≠ rule := by
      rintro rfl
      have same : g.rule = other := Check.rule_of_mem_run inRun
      exact differs same
    have empty := length_run_sample rule other
    rw [if_neg another, List.length_eq_zero_iff] at empty
    rw [empty] at inRun
    contradiction
  have whole : rule.among (analyze ⟨s, .builtin⟩ (sample rule)) =
      analyze ⟨s, .builtin⟩ (sample rule) := by
    unfold Rule.among
    rw [List.filter_eq_self]
    intro f found
    simpa using about f found
  have once := length_run_sample rule rule
  rw [if_pos rfl] at once
  obtain ⟨g, only⟩ := List.length_eq_one_iff.mp once
  refine ⟨{ g with severity := s.severityOf rule }, ?_, rfl⟩
  rw [← whole, among_analyze, if_neg isOn, reported, only]
  rfl

def reports (a : Analyzer) (queries : List (Text × Text)) : List Report :=
  queries.map fun query => ⟨query.1, a.analyze query.2⟩

theorem exitCode_sample {rule : Rule} {a : Text × Text} (isOn : ¬s.Disables rule)
    (names : SameUpToCase a.1 rule.id) (rest : List (Text × Text)) :
    Report.exitCode (reports ⟨⟨s.disabled, a :: rest⟩, .builtin⟩ [([], sample rule)]) =
      (gradeOf rule a.2).rank := by
  obtain ⟨f, findings, grade⟩ := exists_analyze_sample (s := ⟨s.disabled, a :: rest⟩) isOn
  rw [reports, List.map_singleton, findings, Report.exitCode_singleton,
    grade, severityOf_cons names]

/-- The table of grades acts as a set exactly if all entries for each enabled rule give it the same
grade: then every order of the table leads to the same findings and exit codes, and otherwise there
are an order and a query that show in the exit code. -/
theorem grades_unordered_iff (s : RuleSettings) :
    ((∀ rule, ¬s.Disables rule → s.Unambiguous rule) ↔
        ∀ s', s.Reordered s' → ∀ d t, analyze ⟨s', d⟩ t = analyze ⟨s, d⟩ t) ∧
      ((∀ rule, ¬s.Disables rule → s.Unambiguous rule) ↔
        ∀ s', s.Reordered s' → ∀ d queries,
          Report.exitCode (reports ⟨s', d⟩ queries) = Report.exitCode (reports ⟨s, d⟩ queries)) := by
  have findings (clear : ∀ rule, ¬s.Disables rule → s.Unambiguous rule) :
      ∀ s', s.Reordered s' → ∀ d t, analyze ⟨s', d⟩ t = analyze ⟨s, d⟩ t :=
    fun _ reordered d t => analyze_reordered reordered clear d t
  have codes (same : ∀ s', s.Reordered s' → ∀ d t, analyze ⟨s', d⟩ t = analyze ⟨s, d⟩ t) :
      ∀ s', s.Reordered s' → ∀ d queries,
        Report.exitCode (reports ⟨s', d⟩ queries) = Report.exitCode (reports ⟨s, d⟩ queries) := by
    intro s' reordered d queries
    simp only [reports, same s' reordered d]
  have clear (same : ∀ s', s.Reordered s' → ∀ d queries,
      Report.exitCode (reports ⟨s', d⟩ queries) = Report.exitCode (reports ⟨s, d⟩ queries)) :
      ∀ rule, ¬s.Disables rule → s.Unambiguous rule := by
    intro rule isOn a inA b inB namesA namesB
    -- each of the two entries may come first, and then decides the exit code on the sample
    have first : ∀ entry ∈ s.severity, s.Reordered ⟨s.disabled, entry :: s.severity.erase entry⟩ :=
      fun entry inTable => ⟨rfl, List.perm_cons_erase inTable⟩
    have codeA := same _ (first a inA) .builtin [([], sample rule)]
    have codeB := same _ (first b inB) .builtin [([], sample rule)]
    rw [exitCode_sample isOn namesA] at codeA
    rw [exitCode_sample isOn namesB] at codeB
    exact Severity.rank_injective (codeA.trans codeB.symm)
  exact ⟨⟨findings, fun same => clear (codes same)⟩, ⟨fun ok => codes (findings ok), clear⟩⟩

/-- Two entries that name one rule in different case, with different grades: their order decides
over the finding and the exit code. -/
theorem grades_depend_on_order :
    let upper := ("SQL002".toList, "info".toList)
    let lower := ("sql002".toList, "warning".toList)
    let s : RuleSettings := ⟨[], [upper, lower]⟩
    let s' : RuleSettings := ⟨[], [lower, upper]⟩
    let queries := [("a.sql".toList, "SELECT 1".toList)]
    (s.severity.map Prod.fst).Nodup ∧ s.Reordered s' ∧
      analyze ⟨s, .builtin⟩ "SELECT 1".toList ≠ analyze ⟨s', .builtin⟩ "SELECT 1".toList ∧
      Report.exitCode (reports ⟨s, .builtin⟩ queries) = 0 ∧
      Report.exitCode (reports ⟨s', .builtin⟩ queries) = 1 := by
  intro upper lower s s' queries
  exact ⟨by decide, ⟨rfl, List.Perm.swap lower upper []⟩, by decide +kernel, by decide +kernel,
    by decide +kernel⟩

end Analyzer

end QueryTidy
