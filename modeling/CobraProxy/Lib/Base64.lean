import Mathlib
import CobraProxy.Lib.Text

/-! The base64 codings of RFC 4648: the standard alphabet with padding, decoded strictly (full
quanta, canonical padding, zero trailing bits), and the URL-safe alphabet without padding. -/

namespace Base64

open Text

def letters : List Char :=
  "ABCDEFGHIJKLMNOPQRSTUVWXYZabcdefghijklmnopqrstuvwxyz0123456789".toList

def standard : List Char := letters ++ ['+', '/']

def urlSafe : List Char := letters ++ ['-', '_']

def digit (alphabet : List Char) (n : ℕ) : Char := alphabet.getD n '='

/-- The padding of a quantum that is `k` characters short. -/
def padding (padded : Bool) (k : ℕ) : Str := if padded then List.replicate k '=' else []

def encode (alphabet : List Char) (padded : Bool) : Bytes → Str
  | a :: b :: c :: rest =>
    let n := a.toNat * 65536 + b.toNat * 256 + c.toNat
    digit alphabet (n / 262144) :: digit alphabet (n / 4096 % 64) :: digit alphabet (n / 64 % 64) ::
      digit alphabet (n % 64) :: encode alphabet padded rest
  | [a, b] =>
    let n := a.toNat * 256 + b.toNat
    [digit alphabet (n / 1024), digit alphabet (n / 16 % 64), digit alphabet (n % 16 * 4)] ++
      padding padded 1
  | [a] => [digit alphabet (a.toNat / 4), digit alphabet (a.toNat % 4 * 16)] ++ padding padded 2
  | [] => []

def value (alphabet : List Char) (c : Char) : Option ℕ :=
  if c ∈ alphabet then some (alphabet.idxOf c) else none

/-- Strict decoding of padded text. -/
def decode (alphabet : List Char) : Str → Option Bytes
  | [] => some []
  | [w, x, '=', '='] => do
    let w ← value alphabet w
    let x ← value alphabet x
    if x % 16 = 0 then some [UInt8.ofNat (w * 4 + x / 16)] else none
  | [w, x, y, '='] => do
    let w ← value alphabet w
    let x ← value alphabet x
    let y ← value alphabet y
    if y % 4 = 0 then
      some [UInt8.ofNat (w * 4 + x / 16), UInt8.ofNat (x % 16 * 16 + y / 4)]
    else none
  | w :: x :: y :: z :: rest => do
    let w ← value alphabet w
    let x ← value alphabet x
    let y ← value alphabet y
    let z ← value alphabet z
    let bytes ← decode alphabet rest
    some (UInt8.ofNat (w * 4 + x / 16) :: UInt8.ofNat (x % 16 * 16 + y / 4) ::
      UInt8.ofNat (y % 4 * 64 + z) :: bytes)
  | _ => none

theorem digit_mem {alphabet : List Char} (hl : alphabet.length = 64) {n : ℕ} (hn : n < 64) :
    digit alphabet n ∈ alphabet := by
  have h : n < alphabet.length := by omega
  rw [digit, List.getD_eq_getElem alphabet '=' h]
  exact List.getElem_mem h

theorem value_digit {alphabet : List Char} (hl : alphabet.length = 64) (hd : alphabet.Nodup)
    {n : ℕ} (hn : n < 64) : value alphabet (digit alphabet n) = some n := by
  have h : n < alphabet.length := by omega
  rw [value, if_pos (digit_mem hl hn), digit, List.getD_eq_getElem alphabet '=' h, hd.idxOf_getElem]

theorem mem_padding {padded : Bool} {k : ℕ} {c : Char} (h : c ∈ padding padded k) : padded = true ∧ c = '=' := by
  unfold padding at h
  split_ifs at h with hpadded
  · exact ⟨hpadded, List.eq_of_mem_replicate h⟩
  · cases h

/-- Encoded text holds characters of the alphabet and the padding only. -/
theorem encode_mem {alphabet : List Char} (hl : alphabet.length = 64) (padded : Bool) :
    ∀ (bytes : Bytes), ∀ c ∈ encode alphabet padded bytes, c ∈ alphabet ∨ padded = true ∧ c = '='
  | [], c, hc => by simp [encode] at hc
  | [a], c, hc => by
    have := a.toNat_lt
    simp only [encode, List.mem_append, List.mem_cons, List.not_mem_nil, or_false] at hc
    rcases hc with (rfl | rfl) | hc
    · exact .inl (digit_mem hl (by omega))
    · exact .inl (digit_mem hl (by omega))
    · exact .inr (mem_padding hc)
  | [a, b], c, hc => by
    have := a.toNat_lt
    have := b.toNat_lt
    simp only [encode, List.mem_append, List.mem_cons, List.not_mem_nil, or_false] at hc
    rcases hc with (rfl | rfl | rfl) | hc
    · exact .inl (digit_mem hl (by omega))
    · exact .inl (digit_mem hl (by omega))
    · exact .inl (digit_mem hl (by omega))
    · exact .inr (mem_padding hc)
  | a :: b :: d :: rest, c, hc => by
    have := a.toNat_lt
    have := b.toNat_lt
    have := d.toNat_lt
    simp only [encode, List.mem_cons] at hc
    rcases hc with rfl | rfl | rfl | rfl | hc
    · exact .inl (digit_mem hl (by omega))
    · exact .inl (digit_mem hl (by omega))
    · exact .inl (digit_mem hl (by omega))
    · exact .inl (digit_mem hl (by omega))
    · exact encode_mem hl padded rest c hc

theorem encode_unpadded_mem {alphabet : List Char} (hl : alphabet.length = 64) (bytes : Bytes) :
    ∀ c ∈ encode alphabet false bytes, c ∈ alphabet :=
  fun c hc => (encode_mem hl false bytes c hc).resolve_right (by simp)

theorem encode_unpadded_length (alphabet : List Char) :
    ∀ bytes : Bytes, (encode alphabet false bytes).length = (bytes.length * 4 + 2) / 3
  | [] => rfl
  | [_] => by simp [encode, padding]
  | [_, _] => by simp [encode, padding]
  | a :: b :: c :: rest => by
    have ih := encode_unpadded_length alphabet rest
    simp only [encode, List.length_cons, ih]
    omega

/-- Padded text has four characters for every three bytes begun. -/
theorem encode_padded_length (alphabet : List Char) :
    ∀ bytes : Bytes, (encode alphabet true bytes).length = (bytes.length + 2) / 3 * 4
  | [] => rfl
  | [_] => by simp [encode, padding]
  | [_, _] => by simp [encode, padding]
  | a :: b :: c :: rest => by
    have ih := encode_padded_length alphabet rest
    simp only [encode, List.length_cons, ih]
    omega

theorem urlSafe_length : urlSafe.length = 64 := by decide

theorem standard_length : standard.length = 64 := by decide

theorem standard_nodup : standard.Nodup := by decide

theorem byte_eq_ofNat (a : UInt8) {n : ℕ} (h : n = a.toNat) : UInt8.ofNat n = a := by
  rw [h, UInt8.ofNat_toNat]

/-- A quantum without padding is decoded digit by digit. -/
theorem decode_quantum {w x y z : ℕ} (hw : w < 64) (hx : x < 64) (hy : y < 64) (hz : z < 64)
    (rest : Str) : decode standard (digit standard w :: digit standard x :: digit standard y ::
        digit standard z :: rest) =
      (decode standard rest).map fun bytes => UInt8.ofNat (w * 4 + x / 16) ::
        UInt8.ofNat (x % 16 * 16 + y / 4) :: UInt8.ofNat (y % 4 * 64 + z) :: bytes := by
  have hv : ∀ {n : ℕ}, n < 64 → value standard (digit standard n) = some n :=
    value_digit standard_length standard_nodup
  have hne : digit standard z ≠ '=' := by
    intro h
    have := digit_mem standard_length hz
    rw [h] at this
    exact absurd this (by decide)
  rw [decode.eq_4 _ _ _ _ _ _ (by grind) (by grind)]
  simp only [hv hw, hv hx, hv hy, hv hz, Option.bind_eq_bind, Option.bind_some]
  cases decode standard rest <;> rfl

theorem decode_encode : ∀ bytes : Bytes, decode standard (encode standard true bytes) = some bytes
  | [] => rfl
  | [a] => by
    have ha := a.toNat_lt
    simp only [encode, padding, if_true, List.replicate, List.cons_append, List.nil_append, decode,
      value_digit standard_length standard_nodup (show a.toNat / 4 < 64 by omega),
      value_digit standard_length standard_nodup (show a.toNat % 4 * 16 < 64 by omega),
      Option.bind_eq_bind, Option.bind_some]
    rw [if_pos (by omega), byte_eq_ofNat a (by omega)]
  | [a, b] => by
    have ha := a.toNat_lt
    have hb := b.toNat_lt
    set n := a.toNat * 256 + b.toNat with hn
    have hne : digit standard (n % 16 * 4) ≠ '=' := by
      intro h
      have := digit_mem standard_length (show n % 16 * 4 < 64 by omega)
      rw [h] at this
      exact absurd this (by decide)
    simp only [encode, padding, if_true, List.replicate, List.cons_append, List.nil_append, ← hn]
    rw [decode.eq_3 _ _ _ _ (by simpa using hne)]
    simp only [value_digit standard_length standard_nodup (show n / 1024 < 64 by omega),
      value_digit standard_length standard_nodup (show n / 16 % 64 < 64 by omega),
      value_digit standard_length standard_nodup (show n % 16 * 4 < 64 by omega),
      Option.bind_eq_bind, Option.bind_some]
    rw [if_pos (by omega), byte_eq_ofNat a (by omega), byte_eq_ofNat b (by omega)]
  | a :: b :: c :: rest => by
    have ha := a.toNat_lt
    have hb := b.toNat_lt
    have hc := c.toNat_lt
    simp only [encode]
    rw [decode_quantum (by omega) (by omega) (by omega) (by omega), decode_encode rest,
      Option.map_some, byte_eq_ofNat a (by omega), byte_eq_ofNat b (by omega),
      byte_eq_ofNat c (by omega)]

theorem digit_of_value {alphabet : List Char} {c : Char} {n : ℕ} (h : value alphabet c = some n) :
    n < alphabet.length ∧ digit alphabet n = c := by
  unfold value at h
  split_ifs at h with hc
  cases h
  have hlt := List.idxOf_lt_length_iff.2 hc
  refine ⟨hlt, ?_⟩
  rw [digit, List.getD_eq_getElem alphabet '=' hlt, List.getElem_idxOf]

theorem toNat_byte {n : ℕ} (h : n < 256) : (UInt8.ofNat n).toNat = n := UInt8.toNat_ofNat_of_lt' h

/-- Strict decoding accepts the text that the bytes are encoded to, and no other. -/
theorem encode_decode {s : Str} {bytes : Bytes} (h : decode standard s = some bytes) :
    encode standard true bytes = s := by
  have hvalue : ∀ {c : Char} {n : ℕ}, value standard c = some n → n < 64 ∧ digit standard n = c :=
    fun hc => standard_length ▸ digit_of_value hc
  induction s using decode.induct generalizing bytes with
  | case1 =>
    cases h
    rfl
  | case2 w x =>
    simp only [decode, Option.bind_eq_bind, Option.bind_eq_some_iff] at h
    obtain ⟨m, hm, n, hn, h⟩ := h
    split_ifs at h with hzero
    cases h
    obtain ⟨hm, rfl⟩ := hvalue hm
    obtain ⟨hn, rfl⟩ := hvalue hn
    have hbyte := toNat_byte (show m * 4 + n / 16 < 256 by omega)
    simp only [encode, padding, if_true, List.replicate, List.cons_append, List.nil_append, hbyte]
    rw [show (m * 4 + n / 16) / 4 = m by omega, show (m * 4 + n / 16) % 4 * 16 = n by omega]
  | case3 w x y hy =>
    rw [decode.eq_3 _ _ _ _ hy] at h
    simp only [Option.bind_eq_bind, Option.bind_eq_some_iff] at h
    obtain ⟨m, hm, n, hn, k, hk, h⟩ := h
    split_ifs at h with hzero
    cases h
    obtain ⟨hm, rfl⟩ := hvalue hm
    obtain ⟨hn, rfl⟩ := hvalue hn
    obtain ⟨hk, rfl⟩ := hvalue hk
    have hfirst := toNat_byte (show m * 4 + n / 16 < 256 by omega)
    have hsecond := toNat_byte (show n % 16 * 16 + k / 4 < 256 by omega)
    simp only [encode, padding, if_true, List.replicate, List.cons_append, List.nil_append, hfirst, hsecond]
    rw [show ((m * 4 + n / 16) * 256 + (n % 16 * 16 + k / 4)) / 1024 = m by omega,
      show ((m * 4 + n / 16) * 256 + (n % 16 * 16 + k / 4)) / 16 % 64 = n by omega,
      show ((m * 4 + n / 16) * 256 + (n % 16 * 16 + k / 4)) % 16 * 4 = k by omega]
  | case4 w x y z rest h₁ h₂ ih =>
    rw [decode.eq_4 _ _ _ _ _ _ h₁ h₂] at h
    simp only [Option.bind_eq_bind, Option.bind_eq_some_iff, Option.some.injEq] at h
    obtain ⟨m, hm, n, hn, k, hk, l, hl, bytes', hrest, rfl⟩ := h
    obtain ⟨hm, rfl⟩ := hvalue hm
    obtain ⟨hn, rfl⟩ := hvalue hn
    obtain ⟨hk, rfl⟩ := hvalue hk
    obtain ⟨hl, rfl⟩ := hvalue hl
    have hfirst := toNat_byte (show m * 4 + n / 16 < 256 by omega)
    have hsecond := toNat_byte (show n % 16 * 16 + k / 4 < 256 by omega)
    have hthird := toNat_byte (show k % 4 * 64 + l < 256 by omega)
    simp only [encode, hfirst, hsecond, hthird, ih hrest]
    set b := (m * 4 + n / 16) * 65536 + (n % 16 * 16 + k / 4) * 256 + (k % 4 * 64 + l) with hb
    rw [show b / 262144 = m by omega, show b / 4096 % 64 = n by omega, show b / 64 % 64 = k by omega,
      show b % 64 = l by omega]
  | case5 s h₁ h₂ h₃ h₄ =>
    rw [decode.eq_5 _ _ h₁ h₂ h₃ h₄] at h
    cases h

theorem decode_eq_some {s : Str} {bytes : Bytes} :
    decode standard s = some bytes ↔ s = encode standard true bytes :=
  ⟨fun h => (encode_decode h).symm, fun h => h ▸ decode_encode bytes⟩

end Base64
