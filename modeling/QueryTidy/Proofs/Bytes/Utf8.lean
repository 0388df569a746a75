import QueryTidy.Bytes.Utf8
import Mathlib.Data.List.Basic
import Mathlib.Data.List.Induction
import Mathlib.Tactic.Common

/-!
Decoding and encoding are inverse to each other: bytes are decoded to a text exactly if they are the
bytes of that text. So whatever is said of well-formed bytes can be said of texts.
-/

set_option autoImplicit false
set_option relaxedAutoImplicit false

namespace QueryTidy.Bytes

theorem map_eq_ok_iff {ε α β : Type} {f : α → β} {x : Except ε α} {b : β} :
    x.map f = .ok b ↔ ∃ a, x = .ok a ∧ f a = b := by
  cases x with
  | error e => simp [Except.map]
  | ok a => simp [Except.map]

theorem val_toNat_lt (c : Char) : c.val.toNat < 0x110000 := by
  have valid : c.val.toNat.isValidChar := c.valid
  unfold Nat.isValidChar at valid
  omega

theorem toNat_uint8_ofNat {n : Nat} (small : n < 256) : (UInt8.ofNat n).toNat = n := by
  simpa using Nat.mod_eq_of_lt small

section Encoding

variable {v index : Nat}

private theorem lead?_two (lower : 0x80 ≤ v) (upper : v < 0x800) :
    lead? (v / 64 + 192) = some ⟨1, 0x80, 0xBF, v / 64, 1⟩ := by
  have range : 0xC2 ≤ v / 64 + 192 ∧ v / 64 + 192 ≤ 0xDF := by omega
  rw [lead?, if_pos range, Nat.add_sub_cancel]

private theorem lead?_three (lower : 0x800 ≤ v) (upper : v < 0x10000) (valid : v.isValidChar) :
    ∃ low high, lead? (v / 4096 + 224) = some ⟨2, low, high, v / 4096, 1⟩ ∧
      low ≤ v / 64 % 64 + 128 ∧ v / 64 % 64 + 128 ≤ high := by
  unfold Nat.isValidChar at valid
  -- the second byte is bounded below for the shortest form, and above by the surrogates
  by_cases least : v / 4096 = 0
  · exact ⟨0xA0, 0xBF, by simp [lead?, least], by omega, by omega⟩
  by_cases beforeSurrogates : v / 4096 = 13
  · exact ⟨0x80, 0x9F, by simp [lead?, beforeSurrogates], by omega, by omega⟩
  · refine ⟨0x80, 0xBF, ?_, by omega, by omega⟩
    have range : 0xE1 ≤ v / 4096 + 224 ∧ v / 4096 + 224 ≤ 0xEF := by omega
    rw [lead?, if_neg (by omega), if_neg (by omega), if_neg (by omega), if_pos range,
      Nat.add_sub_cancel]

private theorem lead?_four (lower : 0x10000 ≤ v) (upper : v < 0x110000) :
    ∃ low high, lead? (v / 262144 + 240) = some ⟨3, low, high, v / 262144, 1⟩ ∧
      low ≤ v / 4096 % 64 + 128 ∧ v / 4096 % 64 + 128 ≤ high := by
  by_cases least : v / 262144 = 0
  · exact ⟨0x90, 0xBF, by simp [lead?, least], by omega, by omega⟩
  by_cases greatest : v / 262144 = 4
  · exact ⟨0x80, 0x8F, by simp [lead?, greatest], by omega, by omega⟩
  · refine ⟨0x80, 0xBF, ?_, by omega, by omega⟩
    have range : 0xF1 ≤ v / 262144 + 240 ∧ v / 262144 + 240 ≤ 0xF3 := by omega
    rw [lead?, if_neg (by omega), if_neg (by omega), if_neg (by omega), if_neg (by omega),
      if_neg (by omega), if_pos range, Nat.add_sub_cancel]

private theorem decodeFrom_lead {n : Nat} {p : Unfinished} (beyond : 0x80 ≤ n) (small : n < 256)
    (announced : lead? n = some p) (rest : List UInt8) :
    decodeFrom index none (UInt8.ofNat n :: rest) = decodeFrom index (some p) rest := by
  rw [decodeFrom, toNat_uint8_ofNat small, if_neg (Nat.not_lt.mpr beyond), announced]

private theorem decodeFrom_next {owed low high bits read n : Nat} (above : low ≤ n + 128)
    (below : n + 128 ≤ high) (small : n < 64) (rest : List UInt8) :
    decodeFrom index (some ⟨owed + 2, low, high, bits, read⟩) (UInt8.ofNat (n + 128) :: rest) =
      decodeFrom index (some ⟨owed + 1, 0x80, 0xBF, bits * 64 + n, read + 1⟩) rest := by
  have value := toNat_uint8_ofNat (n := n + 128) (by omega)
  have more : ¬owed + 2 ≤ 1 := by omega
  rw [decodeFrom, value, if_pos ⟨above, below⟩, if_neg more, Nat.add_sub_cancel]
  rfl

private theorem decodeFrom_last {bits read n : Nat} (small : n < 64) (rest : List UInt8) :
    decodeFrom index (some ⟨1, 0x80, 0xBF, bits, read⟩) (UInt8.ofNat (n + 128) :: rest) =
      (decodeFrom (index + read + 1) none rest).map (Char.ofNat (bits * 64 + n) :: ·) := by
  have value := toNat_uint8_ofNat (n := n + 128) (by omega)
  have range : 0x80 ≤ n + 128 ∧ n + 128 ≤ 0xBF := by omega
  rw [decodeFrom, value, if_pos range, if_pos (Nat.le_refl 1), Nat.add_sub_cancel]

theorem decodeFrom_encodeChar (c : Char) (index : Nat) (rest : List UInt8) :
    ∃ next, decodeFrom index none (String.utf8EncodeChar c ++ rest) =
      (decodeFrom next none rest).map (c :: ·) := by
  have valid : c.val.toNat.isValidChar := c.valid
  have bound := val_toNat_lt c
  have spelt : Char.ofNat c.val.toNat = c := Char.ofNat_toNat c
  unfold String.utf8EncodeChar
  generalize c.val.toNat = v at valid bound spelt
  by_cases one : v ≤ 127
  · refine ⟨index + 1, ?_⟩
    rw [if_pos one, List.singleton_append, decodeFrom, toNat_uint8_ofNat (by omega),
      if_pos (by omega), spelt]
  by_cases two : v ≤ 2047
  · have lead : v / 64 % 32 = v / 64 := by omega
    have whole : v / 64 * 64 + v % 64 = v := by omega
    refine ⟨index + 1 + 1, ?_⟩
    simp only [if_neg one, if_pos two, List.cons_append, List.nil_append, lead]
    rw [decodeFrom_lead (by omega) (by omega) (lead?_two (by omega) (by omega)),
      decodeFrom_last (by omega), whole, spelt]
  by_cases three : v ≤ 65535
  · have lead : v / 4096 % 16 = v / 4096 := by omega
    have whole : (v / 4096 * 64 + v / 64 % 64) * 64 + v % 64 = v := by omega
    obtain ⟨low, high, announced, above, below⟩ := lead?_three (v := v) (by omega) (by omega) valid
    refine ⟨index + 2 + 1, ?_⟩
    simp only [if_neg one, if_neg two, if_pos three, List.cons_append, List.nil_append, lead]
    rw [decodeFrom_lead (by omega) (by omega) announced,
      decodeFrom_next above below (by omega), decodeFrom_last (by omega), whole, spelt]
  · have lead : v / 262144 % 8 = v / 262144 := by omega
    have whole : ((v / 262144 * 64 + v / 4096 % 64) * 64 + v / 64 % 64) * 64 + v % 64 = v := by
      omega
    obtain ⟨low, high, announced, above, below⟩ := lead?_four (v := v) (by omega) bound
    refine ⟨index + 3 + 1, ?_⟩
    simp only [if_neg one, if_neg two, if_neg three, List.cons_append, List.nil_append, lead]
    rw [decodeFrom_lead (by omega) (by omega) announced,
      decodeFrom_next above below (by omega),
      decodeFrom_next (Nat.le_add_left 128 _) (by omega) (by omega),
      decodeFrom_last (by omega), whole, spelt]

end Encoding

theorem decode_encode (t : Text) : decode (encode t) = .ok t := by
  have anywhere : ∀ index, decodeFrom index none (encode t) = .ok t := by
    induction t with
    | nil => exact fun _ => rfl
    | cons c t ih =>
      intro index
      obtain ⟨next, first⟩ := decodeFrom_encodeChar c index (encode t)
      change decodeFrom index none (String.utf8EncodeChar c ++ encode t) = .ok (c :: t)
      rw [first, ih next]
      rfl
  exact anywhere 0

section Decoding

/-- What the first byte of a character of several bytes says of the bytes to come. -/
private inductive Announces (n : Nat) : Unfinished → Prop
  | two : 0xC2 ≤ n → n ≤ 0xDF → Announces n ⟨1, 0x80, 0xBF, n - 0xC0, 1⟩
  | three {low high : Nat} : 0xE0 ≤ n → n ≤ 0xEF → 0x80 ≤ low → high ≤ 0xBF →
      (n = 0xE0 → 0xA0 ≤ low) → (n = 0xED → high ≤ 0x9F) → Announces n ⟨2, low, high, n - 0xE0, 1⟩
  | four {low high : Nat} : 0xF0 ≤ n → n ≤ 0xF4 → 0x80 ≤ low → high ≤ 0xBF →
      (n = 0xF0 → 0x90 ≤ low) → (n = 0xF4 → high ≤ 0x8F) → Announces n ⟨3, low, high, n - 0xF0, 1⟩

private theorem announces_of_lead? {n : Nat} {p : Unfinished} (announced : lead? n = some p) :
    Announces n p := by
  unfold lead? at announced
  split_ifs at announced with two e0 ed three f0 four f4 <;> obtain rfl := Option.some.inj announced
  · exact .two two.1 two.2
  · subst e0
    exact .three (by omega) (by omega) (by omega) (by omega) (by omega) (by omega)
  · subst ed
    exact .three (by omega) (by omega) (by omega) (by omega) (by omega) (by omega)
  · exact .three (by omega) (by omega) (by omega) (by omega) (by omega) (by omega)
  · subst f0
    exact .four (by omega) (by omega) (by omega) (by omega) (by omega) (by omega)
  · exact .four (by omega) (by omega) (by omega) (by omega) (by omega) (by omega)
  · subst f4
    exact .four (by omega) (by omega) (by omega) (by omega) (by omega) (by omega)

variable {index owed low high bits read : Nat} {bytes : List UInt8} {t : Text}

private theorem exists_next
    (decoded : decodeFrom index (some ⟨owed + 2, low, high, bits, read⟩) bytes = .ok t) :
    ∃ b rest, bytes = b :: rest ∧ low ≤ b.toNat ∧ b.toNat ≤ high ∧ decodeFrom index
      (some ⟨owed + 1, 0x80, 0xBF, bits * 64 + (b.toNat - 0x80), read + 1⟩) rest = .ok t := by
  cases bytes with
  | nil => simp [decodeFrom] at decoded
  | cons b rest =>
    rw [decodeFrom] at decoded
    split at decoded
    · rename_i range
      exact ⟨b, rest, rfl, range.1, range.2, decoded⟩
    · contradiction

private theorem exists_last
    (decoded : decodeFrom index (some ⟨1, low, high, bits, read⟩) bytes = .ok t) :
    ∃ b rest u, bytes = b :: rest ∧ low ≤ b.toNat ∧ b.toNat ≤ high ∧
      decodeFrom (index + read + 1) none rest = .ok u ∧
      t = Char.ofNat (bits * 64 + (b.toNat - 0x80)) :: u := by
  cases bytes with
  | nil => simp [decodeFrom] at decoded
  | cons b rest =>
    rw [decodeFrom] at decoded
    split at decoded
    · rename_i range
      rw [if_pos (Nat.le_refl 1)] at decoded
      obtain ⟨u, after, rfl⟩ := map_eq_ok_iff.mp decoded
      exact ⟨b, rest, u, rfl, range.1, range.2, after, rfl⟩
    · contradiction

private theorem toNat_val_ofNat {v : Nat} (valid : v.isValidChar) :
    (Char.ofNat v).val.toNat = v := by
  rw [Char.ofNat, dif_pos valid]
  rfl

private theorem uint8_eq {b : UInt8} {n : Nat} (value : n = b.toNat) : UInt8.ofNat n = b := by
  rw [value]
  exact UInt8.ofNat_toNat

private theorem exists_character {b : UInt8} {p : Unfinished} (announces : Announces b.toNat p)
    (decoded : decodeFrom index (some p) bytes = .ok t) :
    ∃ c rest u next, b :: bytes = String.utf8EncodeChar c ++ rest ∧ t = c :: u ∧
      decodeFrom next none rest = .ok u := by
  have limit := b.toNat_lt
  cases announces with
  | two lower upper =>
    obtain ⟨b₁, rest, u, rfl, above, below, after, rfl⟩ := exists_last decoded
    refine ⟨_, rest, u, _, ?_, rfl, after⟩
    have valid : ((b.toNat - 0xC0) * 64 + (b₁.toNat - 0x80)).isValidChar := by
      unfold Nat.isValidChar
      omega
    rw [String.utf8EncodeChar, toNat_val_ofNat valid, if_neg (by omega), if_pos (by omega),
      uint8_eq (b := b) (by omega), uint8_eq (b := b₁) (by omega)]
    rfl
  | three lower upper lowest highest shortest surrogates =>
    obtain ⟨b₁, rest, rfl, above, below, decoded⟩ := exists_next decoded
    obtain ⟨b₂, rest, u, rfl, above', below', after, rfl⟩ := exists_last decoded
    refine ⟨_, rest, u, _, ?_, rfl, after⟩
    have valid : (((b.toNat - 0xE0) * 64 + (b₁.toNat - 0x80)) * 64 +
        (b₂.toNat - 0x80)).isValidChar := by
      unfold Nat.isValidChar
      omega
    rw [String.utf8EncodeChar, toNat_val_ofNat valid, if_neg (by omega), if_neg (by omega),
      if_pos (by omega), uint8_eq (b := b) (by omega), uint8_eq (b := b₁) (by omega),
      uint8_eq (b := b₂) (by omega)]
    rfl
  | four lower upper lowest highest shortest greatest =>
    obtain ⟨b₁, rest, rfl, above, below, decoded⟩ := exists_next decoded
    obtain ⟨b₂, rest, rfl, above', below', decoded⟩ := exists_next decoded
    obtain ⟨b₃, rest, u, rfl, above'', below'', after, rfl⟩ := exists_last decoded
    refine ⟨_, rest, u, _, ?_, rfl, after⟩
    have valid : ((((b.toNat - 0xF0) * 64 + (b₁.toNat - 0x80)) * 64 + (b₂.toNat - 0x80)) * 64 +
        (b₃.toNat - 0x80)).isValidChar := by
      unfold Nat.isValidChar
      omega
    rw [String.utf8EncodeChar, toNat_val_ofNat valid, if_neg (by omega), if_neg (by omega),
      if_neg (by omega), uint8_eq (b := b) (by omega), uint8_eq (b := b₁) (by omega),
      uint8_eq (b := b₂) (by omega), uint8_eq (b := b₃) (by omega)]
    rfl

private theorem eq_encode_of_decodeFrom (size : Nat) (short : bytes.length ≤ size)
    (decoded : decodeFrom index none bytes = .ok t) : bytes = encode t := by
  induction size generalizing index bytes t with
  | zero =>
    obtain rfl := List.length_eq_zero_iff.mp (Nat.le_zero.mp short)
    obtain rfl := Except.ok.inj decoded
    rfl
  | succ size ih =>
    cases bytes with
    | nil =>
      obtain rfl := Except.ok.inj decoded
      rfl
    | cons b bytes =>
      rw [List.length_cons] at short
      by_cases ascii : b.toNat < 0x80
      · rw [decodeFrom, if_pos ascii] at decoded
        obtain ⟨u, after, rfl⟩ := map_eq_ok_iff.mp decoded
        have valid : b.toNat.isValidChar := Or.inl (by omega)
        have single : String.utf8EncodeChar (Char.ofNat b.toNat) = [b] := by
          rw [String.utf8EncodeChar, toNat_val_ofNat valid, if_pos (by omega), uint8_eq rfl]
        rw [ih (by omega) after, encode, encode, List.flatMap_cons, single]
        rfl
      · cases announced : lead? b.toNat with
        | none => simp [decodeFrom, ascii, announced] at decoded
        | some p =>
          have begun : decodeFrom index (some p) bytes = .ok t := by
            simpa [decodeFrom, ascii, announced] using decoded
          obtain ⟨c, rest, u, next, split, rfl, after⟩ :=
            exists_character (announces_of_lead? announced) begun
          have shorter : rest.length ≤ size := by
            have lengths := congrArg List.length split
            have some := String.length_utf8EncodeChar c
            have positive := Char.utf8Size_pos c
            simp only [List.length_cons, List.length_append] at lengths
            omega
          rw [split, ih shorter after, encode, encode, List.flatMap_cons]

end Decoding

/-- Bytes are decoded exactly to the text whose bytes they are. -/
theorem decode_eq_ok_iff {bytes : List UInt8} {t : Text} :
    decode bytes = .ok t ↔ bytes = encode t := by
  constructor
  · exact eq_encode_of_decodeFrom bytes.length (Nat.le_refl _)
  · rintro rfl
    exact decode_encode t

def Valid (bytes : List UInt8) : Prop :=
  ∃ t, decode bytes = .ok t

theorem encode_append (t u : Text) : encode (t ++ u) = encode t ++ encode u :=
  List.flatMap_append

theorem eq_of_mem_utf8EncodeChar {c : Char} {b : UInt8} (ascii : b.toNat < 0x80)
    (inBytes : b ∈ String.utf8EncodeChar c) : c = Char.ofNat b.toNat := by
  have spelt : Char.ofNat c.val.toNat = c := Char.ofNat_toNat c
  have bound := val_toNat_lt c
  unfold String.utf8EncodeChar at inBytes
  generalize c.val.toNat = v at inBytes spelt bound
  have large : ∀ n, 0x80 ≤ n → n < 256 → b ≠ UInt8.ofNat n := by
    rintro n lower upper rfl
    rw [toNat_uint8_ofNat upper] at ascii
    omega
  by_cases one : v ≤ 127
  · rw [if_pos one, List.mem_singleton] at inBytes
    rw [inBytes, toNat_uint8_ofNat (by omega)]
    exact spelt.symm
  · exfalso
    simp only [if_neg one] at inBytes
    split_ifs at inBytes <;> simp only [List.mem_cons, List.not_mem_nil, or_false] at inBytes
    · rcases inBytes with is | is <;> exact large _ (by omega) (by omega) is
    · rcases inBytes with is | is | is <;> exact large _ (by omega) (by omega) is
    · rcases inBytes with is | is | is | is <;> exact large _ (by omega) (by omega) is

theorem mem_of_mem_encode {t : Text} {b : UInt8} (ascii : b.toNat < 0x80)
    (inBytes : b ∈ encode t) : Char.ofNat b.toNat ∈ t := by
  obtain ⟨c, inText, inChar⟩ := List.mem_flatMap.mp inBytes
  rw [← eq_of_mem_utf8EncodeChar ascii inChar]
  exact inText

theorem eq_nil_of_encode_eq_nil {t : Text} (none : encode t = []) : t = [] := by
  have same := decode_encode t
  rw [none] at same
  exact (Except.ok.inj same).symm

theorem getLast?_of_encode {t : Text} {b : UInt8} (ascii : b.toNat < 0x80)
    (last : (encode t).getLast? = some b) : t.getLast? = some (Char.ofNat b.toNat) := by
  cases t using List.reverseRecOn with
  | nil => exact absurd last (by simp [encode])
  | append_singleton t c =>
    have single : encode [c] = String.utf8EncodeChar c := List.flatMap_singleton _ _
    have some : encode [c] ≠ [] := fun none => List.cons_ne_nil c [] (eq_nil_of_encode_eq_nil none)
    rw [encode_append, List.getLast?_append_of_ne_nil _ some, single] at last
    rw [List.getLast?_concat, eq_of_mem_utf8EncodeChar ascii (List.mem_of_getLast? last)]

end QueryTidy.Bytes
