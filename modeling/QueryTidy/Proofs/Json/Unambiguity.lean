import QueryTidy.Proofs.Json.Grammar
import Mathlib.Tactic.Common

/-!
A JSON text stands for one value. The kind of a value shows in its first character, and where it
ends shows in the character behind it, so a text that begins with a value begins with one value
only. This is carried from shorter texts to longer ones, through the rows of items and members.
-/

set_option autoImplicit false
set_option relaxedAutoImplicit false

namespace QueryTidy.Json.Grammar

variable {α : Type} {P : Text → α → Prop} {a a' : α} {as as' : List α}
  {r r' s s' t t' u : Text} {c c' z z' : Char} {n : Nat} {v v' : Datum}

private theorem append_unique {chars : List Char} (all : ∀ c ∈ s, c ∈ chars)
    (all' : ∀ c ∈ s', c ∈ chars) (stops : ∀ c ∈ r.head?, c ∉ chars)
    (stops' : ∀ c ∈ r'.head?, c ∉ chars) (same : s ++ r = s' ++ r') : s = s' ∧ r = r' := by
  induction s generalizing s' with
  | nil =>
    cases s' with
    | nil => exact ⟨rfl, same⟩
    | cons c s' =>
      subst same
      exact absurd (all' c (by simp)) (stops c rfl)
  | cons c s ih =>
    cases s' with
    | nil =>
      subst same
      exact absurd (all c (by simp)) (stops' c rfl)
    | cons c' s' =>
      obtain ⟨rfl, rest⟩ := List.cons.inj same
      obtain ⟨rfl, rfl⟩ := ih (fun c inS => all c (List.mem_cons_of_mem _ inS))
        (fun c inS => all' c (List.mem_cons_of_mem _ inS)) rest
      exact ⟨rfl, rfl⟩

theorem IsCode.unique {m n : Nat} (code : IsCode t m) (code' : IsCode t' n)
    (same : t ++ r = t' ++ r') : t = t' ∧ m = n := by
  obtain ⟨rfl, -⟩ := List.append_inj same (code.1.trans code'.1.symm)
  exact ⟨rfl, Option.some.inj (code.2.symm.trans code'.2)⟩

private theorem shortEscapes_unique {e : Char} (known : (e, c) ∈ shortEscapes)
    (known' : (e, c') ∈ shortEscapes) : c = c' := by
  have distinct : ∀ x ∈ shortEscapes, ∀ y ∈ shortEscapes, x.1 = y.1 → x.2 = y.2 := by decide
  exact distinct _ known _ known' rfl

private theorem ne_u_of_short {e : Char} (known : (e, c) ∈ shortEscapes) : e ≠ 'u' := by
  have others : ∀ x ∈ shortEscapes, x.1 ≠ 'u' := by decide
  exact others _ known

private theorem toNat_ne_surrogate (c : Char) {high : Nat} (bound : high < 0x400) :
    c.toNat ≠ 0xD800 + high := by
  have valid : c.toNat < 0xD800 ∨ 0xDFFF < c.toNat ∧ c.toNat < 0x110000 := c.valid
  omega

theorem Escape.unique (escape : Escape t c) (escape' : Escape t' c') (same : t ++ r = t' ++ r') :
    t = t' ∧ c = c' := by
  cases escape with
  | short known =>
    cases escape' with
    | short known' =>
      obtain ⟨rfl, -⟩ := List.cons.inj same
      exact ⟨rfl, shortEscapes_unique known known'⟩
    | code _ => exact absurd (List.cons.inj same).1 (ne_u_of_short known)
    | pair _ _ _ _ _ => exact absurd (List.cons.inj same).1 (ne_u_of_short known)
  | code code =>
    cases escape' with
    | short known' => exact absurd (List.cons.inj same).1.symm (ne_u_of_short known')
    | code code' =>
      obtain ⟨rfl, equal⟩ := code.unique code' (List.cons.inj same).2
      exact ⟨rfl, Char.toNat_inj.mp equal⟩
    | pair high' _ bound' _ _ =>
      simp only [List.cons_append, List.append_assoc, List.cons.injEq, true_and] at same
      exact absurd (code.unique high' same).2 (toNat_ne_surrogate c bound')
  | pair high low bound _ sum =>
    simp only [List.cons_append, List.append_assoc] at same
    cases escape' with
    | short known' => exact absurd (List.cons.inj same).1.symm (ne_u_of_short known')
    | code code' =>
      exact absurd (high.unique code' (List.cons.inj same).2).2.symm (toNat_ne_surrogate c' bound)
    | pair high' low' _ _ sum' =>
      simp only [List.cons_append, List.append_assoc, List.cons.injEq, true_and] at same
      obtain ⟨rfl, equal⟩ := high.unique high' same
      have rest := List.append_cancel_left same
      simp only [List.cons.injEq, true_and] at rest
      obtain ⟨rfl, equal'⟩ := low.unique low' rest
      exact ⟨rfl, Char.toNat_inj.mp (by omega)⟩

theorem Letter.unique (letter : Letter t c) (letter' : Letter t' c') (same : t ++ r = t' ++ r') :
    t = t' ∧ c = c' := by
  cases letter with
  | plain _ _ bare =>
    cases letter' with
    | plain _ _ _ =>
      obtain ⟨rfl, -⟩ := List.cons.inj same
      exact ⟨rfl, rfl⟩
    | escaped _ => exact absurd (List.cons.inj same).1 bare
  | escaped escape =>
    cases letter' with
    | plain _ _ bare => exact absurd (List.cons.inj same).1.symm bare
    | escaped escape' =>
      obtain ⟨rfl, rfl⟩ := escape.unique escape' (List.cons.inj same).2
      exact ⟨rfl, rfl⟩

theorem Letter.ne_quote (letter : Letter t c) : ∃ z u, t = z :: u ∧ z ≠ '"' := by
  cases letter with
  | plain _ other _ => exact ⟨c, [], rfl, other⟩
  | escaped _ => exact ⟨'\\', _, rfl, by decide⟩

theorem Letters.unique (letters : Letters t s) (letters' : Letters t' s')
    (same : t ++ '"' :: r = t' ++ '"' :: r') : t = t' ∧ s = s' := by
  induction letters generalizing t' s' with
  | nil =>
    cases letters' with
    | nil => exact ⟨rfl, rfl⟩
    | cons letter' _ =>
      obtain ⟨z, u, rfl, other⟩ := letter'.ne_quote
      exact absurd (List.cons.inj same).1.symm other
  | cons letter _ ih =>
    cases letters' with
    | nil =>
      obtain ⟨z, u, rfl, other⟩ := letter.ne_quote
      exact absurd (List.cons.inj same).1 other
    | cons letter' letters' =>
      rw [List.append_assoc, List.append_assoc] at same
      obtain ⟨rfl, rfl⟩ := letter.unique letter' same
      obtain ⟨rfl, rfl⟩ := ih letters' (List.append_cancel_left same)
      exact ⟨rfl, rfl⟩

theorem Quoted.unique (quoted : Quoted t s) (quoted' : Quoted t' s') (same : t ++ r = t' ++ r') :
    t = t' ∧ s = s' := by
  obtain ⟨letters⟩ := quoted
  obtain ⟨letters'⟩ := quoted'
  simp only [List.cons_append, List.append_assoc, List.cons.injEq, true_and] at same
  obtain ⟨rfl, rfl⟩ := letters.unique letters' same
  exact ⟨rfl, rfl⟩

def closers : List Char :=
  [',', ']', '\x7d']

/-- Whether a value ends where a text begins. -/
def Closes (r : Text) : Prop :=
  ∀ c ∈ r.head?, c ∈ spaces ++ closers

/-- Whether the spellings of some length can be told apart by what they begin with. -/
structure Delimited (P : Text → α → Prop) (n : Nat) : Prop where
  solid {t : Text} {a : α} : P t a → ∃ c u, t = c :: u ∧ c ∉ spaces ++ closers
  unique {t t' r r' : Text} {a a' : α} : t.length < n → P t a → P t' a' → t ++ r = t' ++ r' →
    Closes r → Closes r' → t = t' ∧ a = a'

theorem Delimited.not_space (delimited : Delimited P n) (known : P t a) :
    ∀ c ∈ (t ++ r).head?, c ∉ spaces := by
  obtain ⟨c, u, rfl, other⟩ := delimited.solid known
  intro c' first space
  obtain rfl := Option.some.inj first
  exact other (List.mem_append_left closers space)

theorem closes_space (space : IsSpace s) (ends : ∀ c ∈ r.head?, c ∈ closers) : Closes (s ++ r) := by
  cases s with
  | nil => exact fun c first => List.mem_append_right spaces (ends c first)
  | cons c s =>
    intro c' first
    obtain rfl := Option.some.inj first
    exact List.mem_append_left closers (space c (by simp))

theorem not_space_of_closer : ∀ c ∈ closers, c ∉ spaces := by
  simp [closers, spaces]

theorem Padded.unique (delimited : Delimited P n) (padded : Padded P t a)
    (padded' : Padded P t' a') (short : t.length < n) (ends : ∀ c ∈ r.head?, c ∈ closers)
    (ends' : ∀ c ∈ r'.head?, c ∈ closers) (same : t ++ r = t' ++ r') : t = t' ∧ a = a' := by
  obtain ⟨before, known, after⟩ := padded
  obtain ⟨before', known', after'⟩ := padded'
  have stops {r : Text} (ends : ∀ c ∈ r.head?, c ∈ closers) : ∀ c ∈ r.head?, c ∉ spaces :=
    fun c first => not_space_of_closer c (ends c first)
  simp only [List.append_assoc] at same
  obtain ⟨rfl, rest⟩ := append_unique before before' (delimited.not_space known)
    (delimited.not_space known') same
  simp only [List.length_append] at short
  obtain ⟨rfl, rfl⟩ := delimited.unique (by omega) known known' rest (closes_space after ends)
    (closes_space after' ends')
  obtain ⟨rfl, -⟩ := append_unique after after' (stops ends) (stops ends')
    (List.append_cancel_left rest)
  exact ⟨rfl, rfl⟩

theorem Further.ends (further : Further P t as) (closer : z ∈ closers) :
    ∀ c ∈ (t ++ z :: r).head?, c ∈ closers := by
  cases further with
  | nil =>
    intro c first
    obtain rfl := Option.some.inj first
    exact closer
  | cons _ _ =>
    intro c first
    obtain rfl := Option.some.inj first
    decide

theorem Further.unique (delimited : Delimited P n) (further : Further P t as)
    (further' : Further P t' as') (short : t.length < n) (closer : z ∈ closers) (last : z ≠ ',')
    (same : t ++ z :: r = t' ++ z :: r') : t = t' ∧ as = as' := by
  induction further generalizing t' as' with
  | nil =>
    cases further' with
    | nil => exact ⟨rfl, rfl⟩
    | cons _ _ => exact absurd (List.cons.inj same).1 last
  | cons padded further ih =>
    cases further' with
    | nil => exact absurd (List.cons.inj same).1.symm last
    | cons padded' further' =>
      simp only [List.cons_append, List.append_assoc, List.cons.injEq, true_and] at same
      simp only [List.length_append, List.length_cons] at short
      obtain ⟨rfl, rfl⟩ := padded.unique delimited padded' (by omega) (further.ends closer)
        (further'.ends closer) same
      obtain ⟨rfl, rfl⟩ := ih further' (by omega) (List.append_cancel_left same)
      exact ⟨rfl, rfl⟩

theorem Row.unique (delimited : Delimited P n) (row : Row P t as) (row' : Row P t' as')
    (short : t.length < n) (closer : z ∈ closers) (last : z ≠ ',')
    (same : t ++ z :: r = t' ++ z :: r') : t = t' ∧ as = as' := by
  have stops {r : Text} : ∀ c ∈ (z :: r).head?, c ∉ spaces := by
    simpa using not_space_of_closer z closer
  -- an empty row has the closing bracket where another one has its first thing
  have differ {s t u r r' : Text} {a : α} (space : IsSpace s) (padded : Padded P t a)
      (same : s ++ z :: r = t ++ (u ++ z :: r')) : False := by
    obtain ⟨before, known, -⟩ := padded
    obtain ⟨c, v, rfl, other⟩ := delimited.solid known
    rw [List.mem_append, not_or] at other
    simp only [List.cons_append, List.append_assoc] at same
    obtain ⟨-, rest⟩ := append_unique space before stops (by simpa using other.1) same
    obtain ⟨rfl, -⟩ := List.cons.inj rest
    exact other.2 closer
  cases row with
  | none space =>
    cases row' with
    | none space' =>
      obtain ⟨rfl, -⟩ := append_unique space space' stops stops same
      exact ⟨rfl, rfl⟩
    | some padded' _ =>
      rw [List.append_assoc] at same
      exact (differ space padded' same).elim
  | some padded further =>
    cases row' with
    | none space' =>
      rw [List.append_assoc] at same
      exact (differ space' padded same.symm).elim
    | some padded' further' =>
      rw [List.append_assoc, List.append_assoc] at same
      rw [List.length_append] at short
      obtain ⟨rfl, rfl⟩ := padded.unique delimited padded' (by omega) (further.ends closer)
        (further'.ends closer) same
      obtain ⟨rfl, rfl⟩ := further.unique delimited further' (by omega) closer last
        (List.append_cancel_left same)
      exact ⟨rfl, rfl⟩

def numerals : List Char :=
  ['+', '-', '.', 'e', 'E'] ++ digits

theorem IsDigits.numeral (isDigits : IsDigits t) : ∀ c ∈ t, c ∈ numerals :=
  fun c inT => List.mem_append_right _ (isDigits.2 c inT)

theorem IsNumber.numeral (number : IsNumber t) : ∀ c ∈ t, c ∈ numerals := by
  obtain ⟨sign, whole, fraction, exponent, rfl, signed, counted, broken, scaled⟩ := number
  simp only [List.forall_mem_append]
  refine ⟨⟨⟨?_, ?_⟩, ?_⟩, ?_⟩
  · rcases signed with rfl | rfl <;> simp [numerals]
  · rcases counted with rfl | ⟨isDigits, -⟩
    · simp [numerals, digits]
    · exact isDigits.numeral
  · rcases broken with rfl | ⟨ds, isDigits, rfl⟩
    · simp
    · exact List.forall_mem_cons.mpr ⟨by decide, isDigits.numeral⟩
  · rcases scaled with rfl | ⟨e, sign, ds, mark, signed, isDigits, rfl⟩
    · simp
    · refine List.forall_mem_append.mpr ⟨List.forall_mem_cons.mpr ⟨?_, ?_⟩, isDigits.numeral⟩
      · rcases mark with rfl | rfl <;> decide
      · rcases signed with rfl | rfl | rfl <;> simp [numerals]

theorem IsNumber.first (number : IsNumber t) : ∃ c u, t = c :: u ∧ c ∈ '-' :: digits := by
  obtain ⟨sign, whole, fraction, exponent, rfl, rfl | rfl, counted, -, -⟩ := number
  · rcases counted with rfl | ⟨⟨some, isDigits⟩, -⟩
    · exact ⟨'0', _, rfl, by decide⟩
    · obtain ⟨c, u, rfl⟩ := List.exists_cons_of_ne_nil some
      exact ⟨c, _, rfl, List.mem_cons_of_mem _ (isDigits c (by simp))⟩
  · exact ⟨'-', _, rfl, by decide⟩

def kind : Datum → Char
  | .null => 'n'
  | .bool b => if b then 't' else 'f'
  | .number _ => '0'
  | .string _ => '"'
  | .array _ => '['
  | .object _ => '\x7b'

def kindOf (c : Char) : Char :=
  if c ∈ '-' :: digits then '0' else c

theorem Value.first (value : Value t v) : ∃ c u, t = c :: u ∧ kind v = kindOf c := by
  cases value with
  | null => exact ⟨'n', _, rfl, rfl⟩
  | true => exact ⟨'t', _, rfl, rfl⟩
  | false => exact ⟨'f', _, rfl, rfl⟩
  | number number =>
    obtain ⟨c, u, rfl, first⟩ := number.first
    exact ⟨c, u, rfl, (if_pos first).symm⟩
  | string quoted =>
    obtain ⟨letters⟩ := quoted
    exact ⟨'"', _, rfl, rfl⟩
  | array row => exact ⟨'[', _, rfl, rfl⟩
  | object row => exact ⟨'\x7b', _, rfl, rfl⟩

theorem Value.kind_eq (value : Value t v) (value' : Value t' v') (same : t ++ r = t' ++ r') :
    kind v = kind v' := by
  obtain ⟨c, u, rfl, first⟩ := value.first
  obtain ⟨c', u', rfl, first'⟩ := value'.first
  obtain ⟨rfl, -⟩ := List.cons.inj same
  rw [first, first']

theorem Value.solid (value : Value t v) : ∃ c u, t = c :: u ∧ c ∉ spaces ++ closers := by
  obtain ⟨c, u, rfl, first⟩ := value.first
  refine ⟨c, u, rfl, fun boundary => ?_⟩
  have kept : ∀ c ∈ spaces ++ closers, kindOf c ∈ spaces ++ closers := by
    simp [spaces, closers, kindOf, digits]
  have other : ∀ v, kind v ∉ spaces ++ closers := by
    rintro (_ | (_ | _) | _ | _ | _ | _) <;> simp only [kind] <;> decide
  exact other v (first ▸ kept c boundary)

theorem Closes.not_numeral (closes : Closes r) : ∀ c ∈ r.head?, c ∉ numerals := by
  have others : ∀ c ∈ spaces ++ closers, c ∉ numerals := by
    simp [spaces, closers, numerals, digits]
  exact fun c first => others c (closes c first)

theorem Delimited.member (values : Delimited Value n) : Delimited Member n := by
  constructor
  · rintro t ⟨name, v⟩ ⟨⟨letters⟩, -, -, -⟩
    exact ⟨'"', _, rfl, by decide⟩
  · rintro t t' r r' ⟨name, v⟩ ⟨name', v'⟩ short ⟨quoted, before, after, value⟩
      ⟨quoted', before', after', value'⟩ same closes closes'
    simp only [List.cons_append, List.append_assoc] at same
    obtain ⟨rfl, rfl⟩ := quoted.unique quoted' same
    have colon {r : Text} : ∀ c ∈ (':' :: r).head?, c ∉ spaces := by
      simpa using (by decide : ':' ∉ spaces)
    obtain ⟨rfl, rest⟩ := append_unique before before' colon colon (List.append_cancel_left same)
    obtain ⟨rfl, behind⟩ := append_unique after after' (values.not_space value)
      (values.not_space value') (List.cons.inj rest).2
    simp only [List.length_append, List.length_cons] at short
    obtain ⟨rfl, rfl⟩ := values.unique (by omega) value value' behind closes closes'
    exact ⟨rfl, rfl⟩

theorem Delimited.value (shorter : Delimited Value n) : Delimited Value (n + 1) := by
  refine ⟨Value.solid, ?_⟩
  intro t t' r r' v v' short value value' same closes closes'
  have kinds := value.kind_eq value' same
  cases value with
  | null =>
    cases value' with
    | null => exact ⟨rfl, rfl⟩
    | _ => simp [kind] at kinds
  | true =>
    cases value' with
    | true => exact ⟨rfl, rfl⟩
    | _ => simp [kind] at kinds
  | false =>
    cases value' with
    | false => exact ⟨rfl, rfl⟩
    | _ => simp [kind] at kinds
  | number number =>
    cases value' with
    | number number' =>
      obtain ⟨rfl, -⟩ := append_unique number.numeral number'.numeral closes.not_numeral
        closes'.not_numeral same
      exact ⟨rfl, rfl⟩
    | _ => simp [kind] at kinds
  | string quoted =>
    cases value' with
    | string quoted' =>
      obtain ⟨rfl, rfl⟩ := quoted.unique quoted' same
      exact ⟨rfl, rfl⟩
    | _ => simp [kind] at kinds
  | array row =>
    cases value' with
    | array row' =>
      simp only [List.cons_append, List.append_assoc, List.cons.injEq, true_and] at same
      simp only [List.length_append, List.length_cons] at short
      obtain ⟨rfl, rfl⟩ := row.unique shorter row' (by omega) (by decide) (by decide) same
      exact ⟨rfl, rfl⟩
    | _ => simp [kind] at kinds
  | object row =>
    cases value' with
    | object row' =>
      simp only [List.cons_append, List.append_assoc, List.cons.injEq, true_and] at same
      simp only [List.length_append, List.length_cons] at short
      obtain ⟨rfl, rfl⟩ := row.unique shorter.member row' (by omega) (by decide) (by decide) same
      exact ⟨rfl, rfl⟩
    | _ => simp [kind] at kinds

theorem delimited_value (n : Nat) : Delimited Value n := by
  induction n with
  | zero => exact ⟨Value.solid, fun short => absurd short (Nat.not_lt_zero _)⟩
  | succ n shorter => exact shorter.value

/-- A JSON text stands for one value. -/
theorem Document.unique (document : Document t v) (document' : Document t v') : v = v' := by
  have nothing : ∀ c ∈ ([] : Text).head?, c ∈ closers := by simp
  exact (Padded.unique (delimited_value (t.length + 1)) document document' (Nat.lt_succ_self _)
    nothing nothing rfl).2

end QueryTidy.Json.Grammar
