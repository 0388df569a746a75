import QueryTidy.Analyzer
import QueryTidy.Proofs.Check.Trimming

/-!
The analyzer is its checks: the findings of an analysis are those of the enabled rules one after the
other, each made on the text as it stands and reported at the grade that is written for its rule.
What is configured for one rule does not touch another one.
-/

set_option autoImplicit false
set_option relaxedAutoImplicit false

namespace QueryTidy

open Text

def Text.SameUpToCase (t u : Text) : Prop :=
  t.map Char.toUpper = u.map Char.toUpper

instance (t u : Text) : Decidable (SameUpToCase t u) :=
  inferInstanceAs (Decidable (_ = _))

theorem Rule.namedBy_iff {rule : Rule} {t : Text} :
    rule.namedBy t ↔ SameUpToCase t rule.id := by
  have capitals : rule.id.map Char.toUpper = rule.id := by
    cases rule <;> decide
  rw [namedBy, beq_iff_eq, SameUpToCase, capitals]

theorem Rule.mem_all (rule : Rule) : rule ∈ all := by
  cases rule <;> decide

theorem Rule.nodup_all : all.Nodup := by
  decide

namespace RuleSettings

def Disables (s : RuleSettings) (rule : Rule) : Prop :=
  ∃ off ∈ s.disabled, SameUpToCase off rule.id

instance (s : RuleSettings) (rule : Rule) : Decidable (s.Disables rule) :=
  inferInstanceAs (Decidable (∃ off ∈ _, _))

/-- Whether violations of a rule are to be reported at a grade: the one that is written for the
rule, or an error if none is written or what is written is no grade. -/
def Grades (s : RuleSettings) (rule : Rule) (severity : Severity) : Prop :=
  (∃ entry ∈ s.severity, SameUpToCase entry.1 rule.id ∧ Severity.ofName? entry.2 = some severity) ∨
    severity = .error ∧
      ∀ entry ∈ s.severity, SameUpToCase entry.1 rule.id → Severity.ofName? entry.2 = none

/-- Whether no two grades are written for one name. -/
def Distinct (s : RuleSettings) : Prop :=
  s.severity.Pairwise fun a b => ¬SameUpToCase a.1 b.1

instance (s : RuleSettings) : Decidable s.Distinct :=
  inferInstanceAs (Decidable (List.Pairwise _ _))

/-- Whether two settings say the same about a rule. -/
structure AgreeOn (s s' : RuleSettings) (rule : Rule) : Prop where
  disabled : ∀ off, SameUpToCase off rule.id → (off ∈ s.disabled ↔ off ∈ s'.disabled)
  severity : ∀ entry : Text × Text, SameUpToCase entry.1 rule.id →
    (entry ∈ s.severity ↔ entry ∈ s'.severity)

variable {s s' : RuleSettings} {rule : Rule}

theorem enables_iff : s.enables rule ↔ ¬s.Disables rule := by
  rw [enables, Bool.not_eq_true', Bool.eq_false_iff, ne_eq, List.any_eq_true]
  simp only [Rule.namedBy_iff]
  rfl

theorem Distinct.entry_unique (distinct : s.Distinct) {a b : Text × Text} (inA : a ∈ s.severity)
    (inB : b ∈ s.severity) (namesA : SameUpToCase a.1 rule.id) (namesB : SameUpToCase b.1 rule.id) :
    a = b := by
  by_contra differ
  have symmetric : Std.Symm fun a b : Text × Text => ¬SameUpToCase a.1 b.1 :=
    ⟨fun _ _ apart same => apart same.symm⟩
  have apart := distinct.forall inA inB differ
  exact apart (namesA.trans namesB.symm)

theorem Distinct.severityOf_eq_iff (distinct : s.Distinct) {severity : Severity} :
    s.severityOf rule = severity ↔ s.Grades rule severity := by
  unfold severityOf written? Grades
  cases found : s.severity.find? fun entry => rule.namedBy entry.1 with
  | none =>
    have unnamed : ∀ entry ∈ s.severity, ¬SameUpToCase entry.1 rule.id := by
      intro entry inTable names
      exact List.find?_eq_none.mp found entry inTable (Rule.namedBy_iff.mpr names)
    constructor
    · rintro rfl
      exact Or.inr ⟨rfl, fun entry inTable names => absurd names (unnamed entry inTable)⟩
    · rintro (⟨entry, inTable, names, -⟩ | ⟨rfl, -⟩)
      · exact absurd names (unnamed entry inTable)
      · rfl
  | some entry =>
    have inTable := List.mem_of_find?_eq_some found
    have named : rule.namedBy entry.1 := by simpa using List.find?_some found
    have names := Rule.namedBy_iff.mp named
    have only : ∀ other ∈ s.severity, SameUpToCase other.1 rule.id → other = entry :=
      fun other inTable' names' => distinct.entry_unique inTable' inTable names' names
    simp only [Option.map_some, Option.bind_some]
    cases read : Severity.ofName? entry.2 with
    | none =>
      constructor
      · rintro rfl
        refine Or.inr ⟨rfl, fun other inTable' names' => ?_⟩
        rw [only other inTable' names', read]
      · rintro (⟨other, inTable', names', read'⟩ | ⟨rfl, -⟩)
        · rw [only other inTable' names', read] at read'
          contradiction
        · rfl
    | some grade =>
      constructor
      · rintro rfl
        exact Or.inl ⟨entry, inTable, names, read⟩
      · rintro (⟨other, inTable', names', read'⟩ | ⟨-, unreadable⟩)
        · rw [only other inTable' names', read] at read'
          exact Option.some.inj read'
        · rw [unreadable entry inTable names] at read
          contradiction

theorem AgreeOn.disables_iff (agree : s.AgreeOn s' rule) : s.Disables rule ↔ s'.Disables rule := by
  constructor
  · rintro ⟨off, inList, names⟩
    exact ⟨off, (agree.disabled off names).mp inList, names⟩
  · rintro ⟨off, inList, names⟩
    exact ⟨off, (agree.disabled off names).mpr inList, names⟩

theorem AgreeOn.grades_iff (agree : s.AgreeOn s' rule) (severity : Severity) :
    s.Grades rule severity ↔ s'.Grades rule severity := by
  unfold Grades
  refine or_congr (exists_congr fun entry => ?_) (and_congr_right fun _ =>
    forall_congr' fun entry => ?_)
  · constructor
    · rintro ⟨inTable, names, read⟩
      exact ⟨(agree.severity entry names).mp inTable, names, read⟩
    · rintro ⟨inTable, names, read⟩
      exact ⟨(agree.severity entry names).mpr inTable, names, read⟩
  · constructor
    · intro unreadable inTable names
      exact unreadable ((agree.severity entry names).mpr inTable) names
    · intro unreadable inTable names
      exact unreadable ((agree.severity entry names).mp inTable) names

end RuleSettings

theorem Check.rule_of_mem_run {d : Dictionary} {rule : Rule} {t : Text} {f : Finding}
    (found : f ∈ run d rule t) : f.rule = rule := by
  by_cases spelling : rule = .misspelledKeyword
  · subst spelling
    obtain ⟨word, -, known⟩ := List.mem_filterMap.mp found
    obtain ⟨fixed, -, rfl⟩ := Option.map_eq_some_iff.mp known
    rfl
  · obtain ⟨violated, message, suggestion, flagged⟩ := exists_flag spelling
    rw [flagged, flag] at found
    split at found
    · rw [List.mem_singleton.mp found]
      rfl
    · contradiction

theorem Check.length_run_le {rule : Rule} (structural : rule ≠ .misspelledKeyword) (d : Dictionary)
    (t : Text) : (run d rule t).length ≤ 1 := by
  obtain ⟨violated, message, suggestion, flagged⟩ := exists_flag structural
  rw [flagged, flag]
  split <;> simp

def Rule.among (rule : Rule) (findings : List Finding) : List Finding :=
  findings.filter fun f => f.rule = rule

namespace Analyzer

/-- What an analyzer reports for a rule that is checked. -/
def reported (a : Analyzer) (t : Text) (rule : Rule) : List Finding :=
  (Check.run a.dictionary rule t).map fun f => { f with severity := a.settings.severityOf rule }

theorem analyze_eq_flatMap (a : Analyzer) (t : Text) :
    a.analyze t =
      (Rule.all.filter fun rule => ¬a.settings.Disables rule).flatMap (a.reported t) := by
  have enabled : a.rules = Rule.all.filter fun rule => ¬a.settings.Disables rule := by
    apply List.filter_congr
    intro rule _
    rw [Bool.eq_iff_iff, RuleSettings.enables_iff, decide_eq_true_iff]
  rw [analyze, List.map_flatMap, enabled]
  apply List.flatMap_congr
  intro rule _
  rw [reported, Check.run_trim]
  apply List.map_congr_left
  intro f found
  rw [Check.rule_of_mem_run found]

theorem among_reported (a : Analyzer) (t : Text) (rule other : Rule) :
    rule.among (a.reported t other) = if other = rule then a.reported t rule else [] := by
  have about : ∀ f ∈ a.reported t other, f.rule = other := by
    intro f found
    obtain ⟨g, inRun, rfl⟩ := List.mem_map.mp found
    change g.rule = other
    exact Check.rule_of_mem_run inRun
  unfold Rule.among
  split
  · rename_i same
    subst same
    rw [List.filter_eq_self]
    intro f found
    simpa using about f found
  · rename_i differ
    rw [List.filter_eq_nil_iff]
    intro f found
    rw [about f found]
    simpa using differ

private theorem flatMap_ite_eq {rules : List Rule} (nodup : rules.Nodup) (rule : Rule)
    (findings : List Finding) :
    (rules.flatMap fun other => if other = rule then findings else []) =
      if rule ∈ rules then findings else [] := by
  induction rules with
  | nil => rfl
  | cons first rules ih =>
    obtain ⟨absent, nodup⟩ := List.nodup_cons.mp nodup
    rw [List.flatMap_cons, ih nodup]
    by_cases same : first = rule
    · subst same
      simp [absent]
    · simp [same, Ne.symm same]

theorem among_analyze (a : Analyzer) (t : Text) (rule : Rule) :
    rule.among (a.analyze t) =
      if a.settings.Disables rule then [] else a.reported t rule := by
  have parts : rule.among (a.analyze t) =
      (Rule.all.filter fun rule => ¬a.settings.Disables rule).flatMap fun other =>
        if other = rule then a.reported t rule else [] := by
    rw [analyze_eq_flatMap, Rule.among, List.filter_flatMap]
    apply List.flatMap_congr
    intro other _
    exact a.among_reported t rule other
  rw [parts, flatMap_ite_eq (Rule.nodup_all.filter _)]
  simp [Rule.mem_all]

/-- An analysis reports what the enabled checks find on the text as it stands, in their order and at
the grades written for them. Settings that agree on a rule lead to the same findings about it, and
only spelling can be reported more than once. -/
theorem analyze_eq_checks (s : RuleSettings) (d : Dictionary) (distinct : s.Distinct) (t : Text) :
    (∃ grade : Rule → Severity, (∀ rule severity, grade rule = severity ↔ s.Grades rule severity) ∧
      analyze ⟨s, d⟩ t = (Rule.all.filter fun rule => ¬s.Disables rule).flatMap fun rule =>
        (Check.run d rule t).map fun f => { f with severity := grade rule }) ∧
    (∀ s' : RuleSettings, s'.Distinct → ∀ rule, s.AgreeOn s' rule →
      rule.among (analyze ⟨s, d⟩ t) = rule.among (analyze ⟨s', d⟩ t)) ∧
    ∀ rule : Rule, rule ≠ .misspelledKeyword → (rule.among (analyze ⟨s, d⟩ t)).length ≤ 1 := by
  have grades : ∀ rule severity, s.severityOf rule = severity ↔ s.Grades rule severity :=
    fun _ _ => distinct.severityOf_eq_iff
  refine ⟨⟨s.severityOf, grades, analyze_eq_flatMap ⟨s, d⟩ t⟩, ?_, ?_⟩
  · intro s' distinct' rule agree
    have grade : s.severityOf rule = s'.severityOf rule := by
      rw [distinct.severityOf_eq_iff, agree.grades_iff, ← distinct'.severityOf_eq_iff]
    have same : reported ⟨s, d⟩ t rule = reported ⟨s', d⟩ t rule := by
      simp only [reported, grade]
    rw [among_analyze, among_analyze, same]
    simp only [agree.disables_iff]
  · intro rule structural
    rw [among_analyze]
    split
    · exact Nat.zero_le 1
    · rw [reported, List.length_map]
      exact Check.length_run_le structural d t

theorem analyze_eq_checks_mixed :
    let s : RuleSettings := ⟨["sql002".toList, "SQL999".toList],
      [("Sql006".toList, "Warn".toList), ("SQL001".toList, "fatal".toList)]⟩
    let t := "\n\u00a0selct a from b left join c\u3000\r\n".toList
    s.Distinct ∧
      (analyze ⟨s, .builtin⟩ t).map (fun f => (f.rule, f.severity)) =
        [(.misspelledKeyword, .error), (.incorrectJoin, .warning)] ∧
      ∃ grade : Rule → Severity, grade .misspelledKeyword = .error ∧
        grade .incorrectJoin = .warning ∧
        analyze ⟨s, .builtin⟩ t = (Rule.all.filter fun rule => ¬s.Disables rule).flatMap fun rule =>
          (Check.run .builtin rule t).map fun f => { f with severity := grade rule } := by
  intro s t
  have distinct : s.Distinct := by decide
  obtain ⟨⟨grade, grades, findings⟩, -, -⟩ := analyze_eq_checks s .builtin distinct t
  refine ⟨distinct, by decide +kernel, grade, ?_, ?_, findings⟩
  · exact (grades _ _).mpr (Or.inr ⟨rfl, by decide⟩)
  · exact (grades _ _).mpr (Or.inl ⟨("Sql006".toList, "Warn".toList), by decide⟩)

end Analyzer

end QueryTidy
