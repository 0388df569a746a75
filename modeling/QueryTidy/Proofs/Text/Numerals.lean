import QueryTidy.Text.Digits
import Mathlib.Tactic.Common

/-!
What is read as a number. A numeral is the decimal digits of a number below 2^64, with any number of
zeros and perhaps a plus sign in front of them. These texts can be read and no others.
-/

set_option autoImplicit false
set_option relaxedAutoImplicit false

namespace QueryTidy.Text

def Digits (t : Text) (n : Nat) : Prop :=
  ∃ zeros, t = List.replicate zeros '0' ++ ofNat n

/-- Whether a text writes a number below 2^64, perhaps with a plus sign. -/
def Numeral (t : Text) (n : Nat) : Prop :=
  n < UInt64.size ∧ ∃ digits, Digits digits n ∧ (t = digits ∨ t = '+' :: digits)

variable {m n d : Nat} {c : Char} {t : Text}

theorem ofNat_of_lt_ten (small : n < 10) : ofNat n = [n.digitChar] :=
  Nat.toDigits_of_lt_base small

theorem ofNat_mul_add (positive : 0 < m) (small : d < 10) :
    ofNat (m * 10 + d) = ofNat m ++ [d.digitChar] := by
  have longer := Nat.toDigits_append_toDigits (by decide : 1 < 10) positive small
  rw [Nat.toDigits_of_lt_base small, Nat.mul_comm 10 m] at longer
  exact longer.symm

theorem digit?_digitChar {base : Nat} (known : base ≤ 16) (small : d < base) :
    digit? base d.digitChar = some d := by
  have all : ∀ base ≤ 16, ∀ d < base, digit? base d.digitChar = some d := by decide
  exact all base known d small

theorem eq_digitChar_of_digit? (found : digit? 10 c = some d) : d < 10 ∧ c = d.digitChar := by
  have bounds : ∀ a : Char, a ≤ c ↔ a.toNat ≤ c.toNat := fun _ => UInt32.le_iff_toNat_le
  have bounds' : ∀ a : Char, c ≤ a ↔ c.toNat ≤ a.toNat := fun _ => UInt32.le_iff_toNat_le
  have zero : '0'.toNat = 48 := rfl
  have nine : '9'.toNat = 57 := rfl
  have small : d < 10 ∧ c.toNat = 48 + d := by
    have a : 'a'.toNat = 97 := rfl
    have capitalA : 'A'.toNat = 65 := rfl
    simp only [digit?, bounds, bounds', zero, nine, a, capitalA, Option.ite_none_right_eq_some,
      Option.some.injEq] at found
    split at found
    · omega
    · split at found
      · omega
      · split at found <;> omega
  refine ⟨small.1, Char.toNat_inj.mp ?_⟩
  rw [small.2, Nat.toNat_digitChar_of_lt_ten small.1]

theorem readDigits_cons_eq_ok (read : readDigits m (c :: t) = .ok n) :
    ∃ d < 10, c = d.digitChar ∧ m * 10 + d < UInt64.size ∧ readDigits (m * 10 + d) t = .ok n := by
  rw [readDigits] at read
  split at read
  · contradiction
  · rename_i d found
    obtain ⟨small, rfl⟩ := eq_digitChar_of_digit? found
    split at read
    · rename_i fits
      exact ⟨d, small, rfl, fits, read⟩
    · contradiction

theorem readDigits_lt (fits : m < UInt64.size) (read : readDigits m t = .ok n) :
    n < UInt64.size := by
  induction t generalizing m with
  | nil =>
    obtain rfl := Except.ok.inj read
    exact fits
  | cons c t ih =>
    obtain ⟨d, -, -, fits, read⟩ := readDigits_cons_eq_ok read
    exact ih fits read

theorem ofNat_append_of_readDigits (positive : 0 < m) (read : readDigits m t = .ok n) :
    ofNat m ++ t = ofNat n := by
  induction t generalizing m with
  | nil =>
    obtain rfl := Except.ok.inj read
    exact List.append_nil _
  | cons c t ih =>
    obtain ⟨d, small, rfl, -, read⟩ := readDigits_cons_eq_ok read
    calc ofNat m ++ d.digitChar :: t = ofNat (m * 10 + d) ++ t := by
          rw [ofNat_mul_add positive small, List.append_assoc, List.singleton_append]
      _ = ofNat n := ih (by omega) read

theorem digits_of_readDigits (some : t ≠ []) (read : readDigits 0 t = .ok n) : Digits t n := by
  induction t with
  | nil => exact absurd rfl some
  | cons c t ih =>
    obtain ⟨d, small, rfl, -, read⟩ := readDigits_cons_eq_ok read
    rw [Nat.zero_mul, Nat.zero_add] at read
    rcases Nat.eq_zero_or_pos d with rfl | positive
    · -- a zero in front of other digits says nothing, and alone it is the number zero
      cases t with
      | nil =>
        obtain rfl := Except.ok.inj read
        exact ⟨0, rfl⟩
      | cons c t =>
        obtain ⟨zeros, rest⟩ := ih (by simp) read
        exact ⟨zeros + 1, by rw [rest]; rfl⟩
    · have whole := ofNat_append_of_readDigits positive read
      rw [ofNat_of_lt_ten small] at whole
      exact ⟨0, whole⟩

theorem readDigits_append {s : Text} (read : readDigits m s = .ok n) :
    readDigits m (s ++ t) = readDigits n t := by
  induction s generalizing m with
  | nil =>
    obtain rfl := Except.ok.inj read
    rfl
  | cons c s ih =>
    obtain ⟨d, small, rfl, fits, read⟩ := readDigits_cons_eq_ok read
    rw [List.cons_append, readDigits, digit?_digitChar (by decide) small]
    simp only [if_pos fits, ih read]

theorem readDigits_digitChar (small : d < 10) (fits : m * 10 + d < UInt64.size) :
    readDigits m [d.digitChar] = .ok (m * 10 + d) := by
  simp only [readDigits, digit?_digitChar (by decide) small, if_pos fits]

theorem readDigits_ofNat (fits : n < UInt64.size) : readDigits 0 (ofNat n) = .ok n := by
  induction n using Nat.strongRecOn with
  | ind n ih =>
    by_cases small : n < 10
    · rw [ofNat_of_lt_ten small, readDigits_digitChar small (by omega), Nat.zero_mul, Nat.zero_add]
    · have last : n % 10 < 10 := Nat.mod_lt n (by decide)
      have split : n / 10 * 10 + n % 10 = n := by omega
      have front := ih (n / 10) (by omega) (by omega)
      calc readDigits 0 (ofNat n)
          = readDigits 0 (ofNat (n / 10) ++ [(n % 10).digitChar]) := by
            rw [← ofNat_mul_add (by omega) last, split]
        _ = .ok (n / 10 * 10 + n % 10) := by
            rw [readDigits_append front, readDigits_digitChar last (by omega)]
        _ = .ok n := by rw [split]

theorem Digits.readDigits (digits : Digits t n) (fits : n < UInt64.size) :
    readDigits 0 t = .ok n := by
  obtain ⟨zeros, rfl⟩ := digits
  have skipped : ∀ k, Text.readDigits 0 (List.replicate k '0') = .ok 0 := by
    intro k
    induction k with
    | zero => rfl
    | succ k ih => exact ih
  rw [readDigits_append (skipped zeros), readDigits_ofNat fits]

theorem Digits.isDigit (digits : Digits t n) : ∀ c ∈ t, c.isDigit := by
  obtain ⟨zeros, rfl⟩ := digits
  intro c found
  rcases List.mem_append.mp found with zero | digit
  · rw [List.eq_of_mem_replicate zero]
    rfl
  · exact Nat.isDigit_of_mem_toDigits (by decide) (by decide) digit

theorem Digits.ne_nil (digits : Digits t n) : t ≠ [] := by
  obtain ⟨zeros, rfl⟩ := digits
  exact List.append_ne_nil_of_right_ne_nil _ Nat.toDigits_ne_nil

theorem readNumber_plus (some : t ≠ []) : readNumber ('+' :: t) = readDigits 0 t := by
  obtain ⟨c, t, rfl⟩ := List.exists_cons_of_ne_nil some
  rfl

theorem readNumber_of_ne_plus (other : c ≠ '+') : readNumber (c :: t) = readDigits 0 (c :: t) := by
  rw [readNumber] <;> simp [other]

theorem numeral_of_readNumber (read : readNumber t = .ok n) : Numeral t n := by
  have zero : 0 < UInt64.size := by decide
  cases t with
  | nil => contradiction
  | cons c t =>
    by_cases plus : c = '+'
    · subst plus
      cases t with
      | nil => contradiction
      | cons c t =>
        rw [readNumber_plus (by simp)] at read
        exact ⟨readDigits_lt zero read, _, digits_of_readDigits (by simp) read, Or.inr rfl⟩
    · rw [readNumber_of_ne_plus plus] at read
      exact ⟨readDigits_lt zero read, _, digits_of_readDigits (by simp) read, Or.inl rfl⟩

theorem Numeral.readNumber (numeral : Numeral t n) : readNumber t = .ok n := by
  obtain ⟨fits, digits, written, rfl | rfl⟩ := numeral
  · obtain ⟨c, rest, split⟩ := List.exists_cons_of_ne_nil written.ne_nil
    have isDigit : c.isDigit := written.isDigit c (by simp [split])
    have other : c ≠ '+' := by
      rintro rfl
      contradiction
    rw [split, readNumber_of_ne_plus other, ← split, written.readDigits fits]
  · rw [readNumber_plus written.ne_nil, written.readDigits fits]

theorem readNumber_eq_ok_iff : readNumber t = .ok n ↔ Numeral t n :=
  ⟨numeral_of_readNumber, Numeral.readNumber⟩

instance (t : Text) (n : Nat) : Decidable (Numeral t n) :=
  decidable_of_iff (readNumber t = .ok n) readNumber_eq_ok_iff

example : Numeral "+007".toList 7 ∧ ¬Numeral "-0".toList 0 ∧
    ¬Numeral "18446744073709551616".toList UInt64.size := by
  decide

end QueryTidy.Text
