import QueryTidy.Config.Load
import Mathlib.Tactic.Common

/-!
What a configuration file in the home directory does to a run that has one in the working directory.
The local file decides alone as long as the home file can be read. A home file that cannot be read
ends the loading first, and then the run learns of it.
-/

set_option autoImplicit false
set_option relaxedAutoImplicit false

namespace QueryTidy.Config

variable {files files' : Files} {env env' : Environment} {f : Failure} {describe : Text → Text}

/-- Whether there is a configuration file in the home directory that cannot be loaded, and why. -/
def HomeFails (files : Files) (env : Environment) (describe : Text → Text) (f : Failure) : Prop :=
  ∃ home, env.lookup "HOME".toList = some home ∧ files.holds (homeFile home) ∧
    readFile files (homeFile home) describe = .error f

def loadLocal (files : Files) (env : Environment) (describe : Text → Text) :
    Except Failure Config :=
  (readFile files localFile describe).map (withEnvironment env)

/-- Whether two surroundings have the same local file, and the same quiet period in the environment.
Their home directories may differ in any way. -/
structure SameLocal (files files' : Files) (env env' : Environment) : Prop where
  held : files.holds localFile
  held' : files'.holds localFile
  content : files.textOf localFile = files'.textOf localFile
  debounce : env.lookup debounceVariable = env'.lookup debounceVariable

theorem readFile_of_invalid {name t : Text} (read : files.textOf name = .ok t)
    (invalid : parse? t = none) :
    readFile files name describe = .error (.invalidConfig (describe t)) := by
  simp only [readFile, read, invalid]

theorem usualFiles_of_home {home : Text} (variable_ : env.lookup "HOME".toList = some home)
    (present : files.holds (homeFile home)) :
    usualFiles files env = homeFile home :: [localFile].filter files.holds := by
  rw [usualFiles, variable_]
  exact List.filter_cons_of_pos present

theorem usualFiles_of_no_home (held : files.holds localFile)
    (absent : ∀ home, env.lookup "HOME".toList = some home → ¬files.holds (homeFile home)) :
    usualFiles files env = [localFile] := by
  cases variable_ : env.lookup "HOME".toList with
  | none =>
    rw [usualFiles, variable_]
    exact List.filter_cons_of_pos held
  | some home =>
    rw [usualFiles, variable_]
    exact (List.filter_cons_of_neg (absent home variable_)).trans (List.filter_cons_of_pos held)

theorem HomeFails.load_eq (fails : HomeFails files env describe f) :
    load files env none describe = .error f := by
  obtain ⟨home, variable_, present, unread⟩ := fails
  rw [load, filesToRead, usualFiles_of_home variable_ present, readFiles, List.foldlM_cons, unread]
  rfl

theorem load_eq_loadLocal (held : files.holds localFile)
    (reads : ∀ f, ¬HomeFails files env describe f) :
    load files env none describe = loadLocal files env describe := by
  by_cases home : ∃ home, env.lookup "HOME".toList = some home ∧ files.holds (homeFile home)
  · obtain ⟨home, variable_, present⟩ := home
    cases read : readFile files (homeFile home) describe with
    | error f => exact absurd ⟨home, variable_, present, read⟩ (reads f)
    | ok c =>
      -- what the home file says is given up for the local file
      rw [load, filesToRead, usualFiles_of_home variable_ present, readFiles, List.foldlM_cons,
        read, List.filter_cons_of_pos held]
      change (readFiles files [localFile] describe).map _ = _
      rw [readFiles, List.foldlM_cons, loadLocal]
      cases readFile files localFile describe <;> rfl
  · have absent : ∀ home, env.lookup "HOME".toList = some home →
        ¬files.holds (homeFile home) :=
      fun found variable_ present => home ⟨found, variable_, present⟩
    rw [load, filesToRead, usualFiles_of_no_home held absent, readFiles, List.foldlM_cons,
      loadLocal]
    cases readFile files localFile describe <;> rfl

theorem SameLocal.loadLocal_eq (same : SameLocal files files' env env') :
    loadLocal files env describe = loadLocal files' env' describe := by
  have read : readFile files localFile describe = readFile files' localFile describe := by
    simp only [readFile, same.content]
  have adjusted : withEnvironment env = withEnvironment env' := by
    funext c
    simp only [withEnvironment, same.debounce]
  rw [loadLocal, loadLocal, read, adjusted]

/-- Whether a home file cannot be told from none: it is absent, it can be read, or it fails just as
the local file does, for a cause that is described in the same words. -/
def HomeHidden (files : Files) (env : Environment) (describe : Text → Text) : Prop :=
  ∀ f, HomeFails files env describe f → readFile files localFile describe = .error f

theorem homeHidden_iff (held : files.holds localFile) :
    HomeHidden files env describe ↔
      load files env none describe = loadLocal files env describe := by
  by_cases fails : ∃ f, HomeFails files env describe f
  · obtain ⟨f, fails⟩ := fails
    rw [fails.load_eq]
    constructor
    · intro hidden
      rw [loadLocal, hidden f fails]
      rfl
    · intro same other fails'
      obtain rfl : f = other := by
        have both := fails.load_eq.symm.trans fails'.load_eq
        exact Except.error.inj both
      cases read : readFile files localFile describe with
      | error reason =>
        rw [loadLocal, read] at same
        exact same.symm
      | ok c =>
        rw [loadLocal, read] at same
        contradiction
  · have reads : ∀ f, ¬HomeFails files env describe f := fun f fails' => fails ⟨f, fails'⟩
    constructor
    · intro _
      exact load_eq_loadLocal held reads
    · intro _ f fails'
      exact absurd fails' (reads f)

/-- With a local file, two home directories lead to the same configuration or the same failure
whenever each of their files is absent, can be read, or fails as the local file does; and in these
cases only is the outcome that of the local file. -/
theorem load_ignores_hidden_home (same : SameLocal files files' env env')
    (describe : Text → Text) :
    (HomeHidden files env describe → HomeHidden files' env' describe →
        load files env none describe = load files' env' none describe) ∧
      (HomeHidden files env describe ↔ load files env none describe =
        (readFile files localFile describe).map (withEnvironment env)) ∧
      ∀ f, HomeFails files env describe f → load files env none describe = .error f := by
  refine ⟨fun hidden hidden' => ?_, homeHidden_iff same.held, fun f fails => fails.load_eq⟩
  calc load files env none describe = loadLocal files env describe :=
        (homeHidden_iff same.held).mp hidden
    _ = loadLocal files' env' describe := same.loadLocal_eq
    _ = load files' env' none describe := ((homeHidden_iff same.held').mp hidden').symm

theorem load_ignores_hidden_home_detour :
    let home := ("HOME".toList, "home".toList)
    let quiet := (debounceVariable, " 120 ".toList)
    let here : Files := (⟨[]⟩ : Files).place localFile
      (.file (Bytes.encode "[rules]\ndisabled = ['sql002']".toList))
    let files := here.place (homeFile "home".toList)
      (.file (Bytes.encode "[keywords.extra]\nslect = 'select'".toList))
    let broken : Files := ((⟨[]⟩ : Files).place localFile (.file (Bytes.encode "[".toList))).place
      (homeFile "home".toList) (.file (Bytes.encode "]".toList))
    SameLocal files here [home, quiet] [quiet] ∧ HomeHidden files [home, quiet] id ∧
      HomeHidden here [quiet] id ∧
      load files [home, quiet] none id = load here [quiet] none id ∧
      load here [quiet] none id = .ok { rules := ⟨["sql002".toList], []⟩, debounce := 120 } ∧
      ¬HomeHidden broken [home] id ∧
      load broken [home] none id = .error (.invalidConfig "]".toList) := by
  -- one home file says what the local file does not repeat, the second run has no home, and the
  -- third one has a home file that fails otherwise than the local file
  intro home quiet here files broken
  have same : SameLocal files here [home, quiet] [quiet] :=
    ⟨by decide +kernel, by decide +kernel, by decide +kernel, rfl⟩
  have hidden : HomeHidden files [home, quiet] id := by
    rintro f ⟨_, variable_, -, fails⟩
    obtain rfl := Option.some.inj variable_
    have read : readFile files (homeFile "home".toList) id =
      .ok { extra := [("slect".toList, "select".toList)] } := by decide +kernel
    rw [read] at fails
    contradiction
  have hidden' : HomeHidden here [quiet] id := by
    rintro f ⟨_, variable_, -⟩
    contradiction
  have itself : SameLocal broken broken [home] [home] :=
    ⟨by decide +kernel, by decide +kernel, rfl, rfl⟩
  obtain ⟨-, exactly, ends⟩ := load_ignores_hidden_home itself id
  have fails : HomeFails broken [home] id (.invalidConfig "]".toList) :=
    ⟨"home".toList, rfl, by decide +kernel, by decide +kernel⟩
  refine ⟨same, hidden, hidden', (load_ignores_hidden_home same id).1 hidden hidden',
    by decide +kernel, fun unseen => ?_, ends _ fails⟩
  have differ : load broken [home] none id ≠
      (readFile broken localFile id).map (withEnvironment [home]) := by decide +kernel
  exact differ (exactly.mp unseen)

/-- A local file does not replace a home file that is no configuration, however the cause is
described. -/
theorem load_depends_on_broken_home : ¬∃ describe : Text → Text,
    ∀ (files files' : Files) (env env' : Environment), SameLocal files files' env env' →
      load files env none describe = load files' env' none describe := by
  rintro ⟨describe, independent⟩
  let here : Files := (⟨[]⟩ : Files).place localFile (.file [])
  let files := here.place (homeFile "home".toList) (.file (Bytes.encode "[".toList))
  let env : Environment := [("HOME".toList, "home".toList)]
  have same : SameLocal files here env env :=
    ⟨by decide +kernel, by decide +kernel, by decide +kernel, rfl⟩
  have broken : HomeFails files env describe (.invalidConfig (describe "[".toList)) :=
    ⟨"home".toList, rfl, by decide +kernel,
      readFile_of_invalid (by decide +kernel) (by decide +kernel)⟩
  have sound : load here env none describe = .ok {} := rfl
  have equal := independent files here env env same
  rw [broken.load_eq, sound] at equal
  contradiction

end QueryTidy.Config
