import QueryTidy.Program
import QueryTidy.Proofs.Check.Trimming
import QueryTidy.Proofs.Text.Numerals

/-!
The quiet period that the environment asks for is read twice: by the configuration, and by a live
run that is not told one on its command line. Both readings want a numeral and come to the same
number, but only the configuration allows blanks around it. So the value that only the configuration
takes is a numeral between blanks, and a live run is refused on its account.
-/

set_option autoImplicit false
set_option relaxedAutoImplicit false

namespace QueryTidy

open Text

namespace Text

/-- Whether a text writes a number below 2^64, perhaps between blanks. -/
def PaddedNumeral (t : Text) (n : Nat) : Prop :=
  ∃ front body back, t = front ++ (body ++ back) ∧ (∀ c ∈ front, isBlank c) ∧
    (∀ c ∈ back, isBlank c) ∧ Numeral body n

variable {t : Text} {n : Nat}

private theorem isBlank_of_isDigit {c : Char} (digit : c.isDigit) : isBlank c = false := by
  have ascii : c.toNat < 128 := by
    obtain ⟨-, high⟩ := Bool.and_eq_true_iff.mp digit
    have bound : c.toNat ≤ 57 := UInt32.le_iff_toNat_le.mp (decide_eq_true_eq.mp high)
    omega
  apply isBlank_of_isWordChar
  rw [isWordChar, if_pos ascii, Char.isAlphanum, digit, Bool.or_true, Bool.true_or]

theorem Numeral.isBlank_eq_false (numeral : Numeral t n) : ∀ c ∈ t, isBlank c = false := by
  obtain ⟨-, digits, written, rfl | rfl⟩ := numeral
  · exact fun c found => isBlank_of_isDigit (written.isDigit c found)
  · intro c found
    rcases List.mem_cons.mp found with rfl | found
    · rfl
    · exact isBlank_of_isDigit (written.isDigit c found)

theorem Numeral.solid (numeral : Numeral t n) : Solid t where
  some := by
    rintro rfl
    exact nomatch numeral.readNumber
  first c first := numeral.isBlank_eq_false c (List.mem_of_mem_head? first)
  last c last := numeral.isBlank_eq_false c (List.mem_of_mem_getLast? last)

theorem Numeral.padded (numeral : Numeral t n) : PaddedNumeral t n :=
  ⟨[], t, [], by simp, by simp, by simp, numeral⟩

theorem numeral_trim_iff : Numeral (trim t) n ↔ PaddedNumeral t n := by
  constructor
  · intro numeral
    obtain ⟨front, back, whole, allFront, allBack⟩ := exists_trim t
    exact ⟨front, trim t, back, whole, allFront, allBack, numeral⟩
  · rintro ⟨front, body, back, rfl, allFront, allBack, numeral⟩
    rwa [numeral.solid.trim_between allFront allBack]

theorem Numeral.trim_eq (numeral : Numeral t n) : trim t = t := by
  have between : trim ([] ++ (t ++ [])) = t := numeral.solid.trim_between (by simp) (by simp)
  rwa [List.nil_append, List.append_nil] at between

end Text

namespace Config

variable {env : Environment} {t : Text} {n : Nat}

/-- Whether the environment sets the quiet period to a number, whatever is configured, and leaves
all else as it is. -/
def SetsQuiet (env : Environment) (n : Nat) : Prop :=
  ∀ c, withEnvironment env c = { c with debounce := n }

theorem withEnvironment_of_some (given : env.lookup debounceVariable = some t) (c : Config) :
    withEnvironment env c = c.withDebounce t := by
  rw [withEnvironment, given]

theorem withDebounce_of_ok (read : readNumber (trim t) = .ok n) (c : Config) :
    c.withDebounce t = { c with debounce := n } := by
  rw [withDebounce, read]

theorem withDebounce_of_error {fault : NumberFault} (unread : readNumber (trim t) = .error fault)
    (c : Config) : c.withDebounce t = c := by
  rw [withDebounce, unread]

theorem setsQuiet_iff (given : env.lookup debounceVariable = some t) :
    SetsQuiet env n ↔ PaddedNumeral t n := by
  rw [← numeral_trim_iff, ← readNumber_eq_ok_iff]
  constructor
  · intro sets
    -- a configuration with another quiet period tells what is set from what was there
    have changed := (withEnvironment_of_some given { debounce := n + 1 }).symm.trans (sets _)
    cases read : readNumber (trim t) with
    | ok m =>
      rw [withDebounce_of_ok read] at changed
      rw [show m = n from congrArg Config.debounce changed]
    | error fault =>
      rw [withDebounce_of_error read] at changed
      exact absurd (congrArg Config.debounce changed) (Nat.succ_ne_self n)
  · intro read c
    rw [withEnvironment_of_some given, withDebounce_of_ok read]

theorem withEnvironment_cases (given : env.lookup debounceVariable = some t) :
    (∃ n, SetsQuiet env n) ∨ ∀ c, withEnvironment env c = c := by
  cases read : readNumber (trim t) with
  | ok n =>
    exact Or.inl ⟨n, fun c => (withEnvironment_of_some given c).trans (withDebounce_of_ok read c)⟩
  | error fault =>
    exact Or.inr fun c => (withEnvironment_of_some given c).trans (withDebounce_of_error read c)

end Config

namespace CommandLine

variable {arguments : List Text} {live : Option Nat → Invocation} {t : Text}

/-- Whether arguments ask for a live run and leave its quiet period open; `live` is the run that
they describe for each quiet period. -/
def LeavesQuiet (arguments : List Text) (live : Option Nat → Invocation) : Prop :=
  parse none arguments = .ok (live none) ∧
    ∃ file verbose print noColor, live = fun quiet => ⟨file, verbose, .live quiet print noColor⟩

private theorem exists_of_bind_eq_ok {α β : Type} {x : Except UsageFault α}
    {f : α → Except UsageFault β} {b : β} (done : x >>= f = .ok b) :
    ∃ a, x = .ok a ∧ f a = .ok b := by
  cases x with
  | error fault => contradiction
  | ok a => exact ⟨a, rfl, done⟩

theorem withDefault_none (v : Verb) (g : Given) : withDefault v none g = .ok g := by
  unfold withDefault
  split
  · contradiction
  · rfl

theorem command_eq_live {v : Verb} {g : Given} {print noColor : Bool}
    (found : command v g = .ok (.live none print noColor)) :
    v = .live ∧ g.debounce = none ∧ g.printDocument = print ∧ g.noColor = noColor := by
  unfold command at found
  split at found <;> simp_all

theorem exists_of_parse_none {i : Invocation} (read : parse none arguments = .ok i) :
    ∃ before v rest scanned behind settled,
      scanProgram false {} arguments = .ok (before, some (v, rest)) ∧
      scanVerb v false {} rest = .ok scanned ∧ scanned.settle (.verb v) = .ok behind ∧
      command v behind = .ok i.command ∧ before.settle .program = .ok settled ∧
      i.config = (behind.config <|> settled.config) ∧
      i.verbose = (behind.verbose <|> settled.verbose).getD 0 := by
  obtain ⟨⟨before, found⟩, first, read⟩ := exists_of_bind_eq_ok read
  cases found with
  | none =>
    obtain ⟨settled, -, read⟩ := exists_of_bind_eq_ok read
    contradiction
  | some found =>
    obtain ⟨v, rest⟩ := found
    obtain ⟨scanned, scan, read⟩ := exists_of_bind_eq_ok read
    obtain ⟨behind, settle, read⟩ := exists_of_bind_eq_ok read
    obtain ⟨filled, same, read⟩ := exists_of_bind_eq_ok read
    obtain rfl : behind = filled := Except.ok.inj ((withDefault_none v behind).symm.trans same)
    obtain ⟨c, described, read⟩ := exists_of_bind_eq_ok read
    obtain ⟨settled, settle', read⟩ := exists_of_bind_eq_ok read
    obtain rfl := Except.ok.inj read
    exact ⟨before, v, rest, scanned, behind, settled, first, scan, settle, described, settle', rfl,
      rfl⟩

/-- A live run that leaves its quiet period open takes the one from outside the command line, and
nothing else about it changes. -/
theorem LeavesQuiet.parse_eq (silent : LeavesQuiet arguments live) (t : Text) :
    parse (some t) arguments = (readDebounce t).map fun n => live (some n) := by
  obtain ⟨read, file, verbose, print, noColor, rfl⟩ := silent
  obtain ⟨before, v, rest, scanned, behind, settled, first, scan, settle, described, settle', rfl,
    rfl⟩ := exists_of_parse_none read
  obtain ⟨rfl, unset, rfl, rfl⟩ := command_eq_live described
  have filled : withDefault .live (some t) behind =
      (readDebounce t).map fun n => { behind with debounce := some n } := by
    simp only [withDefault, unset]
    cases readDebounce t <;> rfl
  simp only [parse, bind, Except.bind, first, scan, settle, filled]
  cases readDebounce t with
  | error fault => rfl
  | ok n =>
    simp only [Except.map, command, settle']
    rfl

theorem LeavesQuiet.injective (silent : LeavesQuiet arguments live) : Function.Injective live := by
  obtain ⟨-, file, verbose, print, noColor, rfl⟩ := silent
  intro quiet quiet' same
  have commands := congrArg Invocation.command same
  exact (Command.live.inj commands).1

theorem LeavesQuiet.parse_eq_ok_iff (silent : LeavesQuiet arguments live) {n : Nat} :
    parse (some t) arguments = .ok (live (some n)) ↔ Numeral t n := by
  rw [silent.parse_eq, readDebounce, ← readNumber_eq_ok_iff]
  cases readNumber t with
  | error fault => simp [Except.map]
  | ok m => simp [Except.map, silent.injective.eq_iff]

theorem LeavesQuiet.parse_eq_error (silent : LeavesQuiet arguments live)
    (none : ∀ n, ¬Numeral t n) :
    ∃ fault, parse (some t) arguments = .error (.invalidNumber t Flag.debounce.label fault) := by
  rw [silent.parse_eq, readDebounce]
  cases read : readNumber t with
  | error fault => exact ⟨fault, rfl⟩
  | ok n => exact absurd (readNumber_eq_ok_iff.mp read) (none n)

end CommandLine

namespace Program

open Config CommandLine

/-- A live run takes its quiet period from the environment exactly if the value there is a numeral,
and is refused otherwise; the configuration also takes a numeral between blanks. What the live run
takes, the configuration takes as the same number, so the two agree on a value exactly if it has no
blanks at its ends or the configuration does not take it either. A value that the configuration
does not take changes nothing, and no value changes anything but the quiet period. -/
theorem quiet_period_readings {s : Setting} {live : Option Nat → Invocation} {t : Text}
    (given : s.environment.lookup debounceVariable = some t)
    (silent : LeavesQuiet s.arguments live) :
    (∀ n, invocation s = .ok (live (some n)) ↔ Numeral t n) ∧
      ((∀ n, ¬Numeral t n) →
        ∃ fault, invocation s = .error (.invalidNumber t Flag.debounce.label fault)) ∧
      (∀ n, SetsQuiet s.environment n ↔ PaddedNumeral t n) ∧
      (∀ n, invocation s = .ok (live (some n)) → SetsQuiet s.environment n) ∧
      ((∀ n, SetsQuiet s.environment n ↔ invocation s = .ok (live (some n))) ↔
        trim t = t ∨ ∀ n, ¬SetsQuiet s.environment n) ∧
      ((∀ n, ¬SetsQuiet s.environment n) → ∀ c, withEnvironment s.environment c = c) ∧
      ∀ c, ∃ n, withEnvironment s.environment c = { c with debounce := n } := by
  have runs : ∀ n, invocation s = .ok (live (some n)) ↔ Numeral t n := by
    intro n
    rw [invocation, given, silent.parse_eq_ok_iff]
  have sets : ∀ n, SetsQuiet s.environment n ↔ PaddedNumeral t n := fun _ => setsQuiet_iff given
  have both : ∀ n, invocation s = .ok (live (some n)) → SetsQuiet s.environment n :=
    fun n run => (sets n).mpr ((runs n).mp run).padded
  refine ⟨runs, fun none => ?_, sets, both, ⟨fun agree => ?_, ?_⟩, fun none => ?_, fun c => ?_⟩
  · rw [invocation, given]
    exact silent.parse_eq_error none
  · by_contra apart
    obtain ⟨padded, taken⟩ := not_or.mp apart
    apply taken
    intro n set
    exact padded ((runs n).mp ((agree n).mp set)).trim_eq
  · rintro (trimmed | none) n
    · rw [sets, ← numeral_trim_iff, trimmed, runs]
    · exact ⟨fun set => absurd set (none n), both n⟩
  · exact (withEnvironment_cases given).resolve_left fun ⟨n, set⟩ => none n set
  · rcases withEnvironment_cases given with ⟨n, set⟩ | same
    · exact ⟨n, set c⟩
    · exact ⟨c.debounce, same c⟩

theorem quiet_period_readings_padded :
    let s : Setting :=
  -- a signed numeral with a leading zero between a tab and a line end
      { arguments := ["-v".toList, "live".toList, "--no-color".toList]
        environment := [("HOME".toList, "home".toList), (debounceVariable, "\t+0120\n".toList)] }
    let live : Option Nat → Invocation := fun quiet => ⟨none, 1, .live quiet false true⟩
    s.environment.lookup debounceVariable = some "\t+0120\n".toList ∧
      LeavesQuiet s.arguments live ∧ SetsQuiet s.environment 120 ∧
      (∃ fault, invocation s =
        .error (.invalidNumber "\t+0120\n".toList Flag.debounce.label fault)) ∧
      ¬∀ n, SetsQuiet s.environment n ↔ invocation s = .ok (live (some n)) := by
  intro s live
  have given : s.environment.lookup debounceVariable = some "\t+0120\n".toList := by decide
  have silent : LeavesQuiet s.arguments live := ⟨by decide +kernel, none, 1, false, true, rfl⟩
  obtain ⟨-, refused, sets, -, agree, -, -⟩ := quiet_period_readings given silent
  have numeral : Numeral "+0120".toList 120 := by decide
  have set : SetsQuiet s.environment 120 := (sets 120).mpr
    ⟨['\t'], "+0120".toList, ['\n'], rfl, List.forall_mem_singleton.mpr rfl,
      List.forall_mem_singleton.mpr rfl, numeral⟩
  have padded : trim "\t+0120\n".toList ≠ "\t+0120\n".toList := by decide
  refine ⟨given, silent, set, refused fun n numeral => padded numeral.trim_eq, fun same => ?_⟩
  exact (agree.mp same).elim padded fun none => none 120 set

/-- A number between blanks is configured, and the live run that it is meant for is refused. -/
theorem padded_quiet_period_refused :
    let s : Setting :=
      { arguments := ["live".toList], environment := [(debounceVariable, " 120 ".toList)] }
    let live : Option Nat → Invocation := fun quiet => ⟨none, 0, .live quiet false false⟩
    LeavesQuiet s.arguments live ∧ SetsQuiet s.environment 120 ∧
      (∀ n, invocation s ≠ .ok (live (some n))) ∧
      run s = ⟨2, [], ["error: invalid value ' 120 ' for '--debounce-ms <DEBOUNCE_MS>': ".toList ++
        NumberFault.invalidDigit.message], s.files⟩ := by
  intro s live
  have given : s.environment.lookup debounceVariable = some " 120 ".toList := by decide
  have read : readNumber (trim " 120 ".toList) = .ok 120 := by decide
  have refused : invocation s =
      .error (.invalidNumber " 120 ".toList Flag.debounce.label .invalidDigit) := by
    decide +kernel
  refine ⟨⟨by decide +kernel, none, 0, false, false, rfl⟩, fun c => ?_, fun n => ?_,
    by decide +kernel⟩
  · rw [withEnvironment_of_some given, withDebounce_of_ok read]
  · rw [refused]
    simp

end Program

end QueryTidy
