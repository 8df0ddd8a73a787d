import Mathlib

/-! Strings as lists of Unicode scalar values, with the operations of Rust's `str` that later
modules use, and their UTF-8 bytes. -/

namespace Text

abbrev Str := List Char

abbrev Bytes := List UInt8

/-- A Rust array `[u8; n]`. -/
abbrev ByteVec (n : ℕ) := {bytes : Bytes // bytes.length = n}

def ByteVec.replicate (n : ℕ) (b : UInt8) : ByteVec n := ⟨List.replicate n b, List.length_replicate⟩

def utf8 (s : Str) : Bytes := s.flatMap String.utf8EncodeChar

/-- `str::from_utf8`. -/
def fromUtf8 (b : Bytes) : Option Str := b.toByteArray.utf8Decode?.map Array.toList

/-- `str::len`, which counts bytes. -/
def byteLen (s : Str) : ℕ := (utf8 s).length

/-- The property `White_Space`, which `str::trim` goes by. -/
def isWhiteSpace (c : Char) : Bool :=
  let n := c.toNat
  (9 ≤ n && n ≤ 13) || n == 0x20 || n == 0x85 || n == 0xa0 || n == 0x1680 ||
    (0x2000 ≤ n && n ≤ 0x200a) || n == 0x2028 || n == 0x2029 || n == 0x202f || n == 0x205f ||
    n == 0x3000

/-- `char::is_ascii_whitespace`: vertical tab is not one of them. -/
def isAsciiWhitespace (c : Char) : Bool :=
  c.toNat == 0x20 || c.toNat == 9 || c.toNat == 10 || c.toNat == 12 || c.toNat == 13

/-- `char::is_control`. -/
def isControl (c : Char) : Bool := c.toNat < 0x20 || (0x7f ≤ c.toNat && c.toNat ≤ 0x9f)

def isAscii (c : Char) : Bool := c.toNat < 0x80

def trimStart (p : Char → Bool) (s : Str) : Str := s.dropWhile p

def trimEnd (p : Char → Bool) (s : Str) : Str := s.rdropWhile p

def trim (s : Str) : Str := trimEnd isWhiteSpace (trimStart isWhiteSpace s)

def toAsciiLowercase (s : Str) : Str := s.map Char.toLower

def eqIgnoreAsciiCase (a b : Str) : Bool := toAsciiLowercase a == toAsciiLowercase b

/-- `str::split_once` at a character. -/
def splitOnce (c : Char) : Str → Option (Str × Str)
  | [] => none
  | d :: s => if d = c then some ([], s) else (splitOnce c s).map fun p => (d :: p.1, p.2)

/-- `str::split_once` at a text. -/
def splitOnceAt (separator : Str) : Str → Option (Str × Str)
  | [] => if separator.isEmpty then some ([], []) else none
  | c :: s =>
    if separator.isPrefixOf (c :: s) then some ([], (c :: s).drop separator.length)
    else (splitOnceAt separator s).map fun p => (c :: p.1, p.2)

/-- `str::parse::<u64>`: digits, after a plus sign or not. -/
def parseU64 (s : Str) : Option ℕ :=
  let digits := if s.head? = some '+' then s.tail else s
  if digits.isEmpty || !digits.all Char.isDigit then none
  else (some (Nat.ofDigitChars 10 digits 0)).filter (· < 2 ^ 64)

/-- `str::split_ascii_whitespace`: the nonempty pieces between runs of whitespace. -/
def splitAsciiWhitespace (s : Str) : List Str :=
  (s.splitOnP isAsciiWhitespace).filter (fun piece => !piece.isEmpty)

theorem utf8EncodeChar_of_ascii {c : Char} (h : isAscii c = true) :
    String.utf8EncodeChar c = [UInt8.ofNat c.toNat] := by
  have hc : c.val.toNat ≤ 0x7f := by
    simp only [isAscii, decide_eq_true_eq] at h
    exact Nat.le_of_lt_succ h
  unfold String.utf8EncodeChar
  rw [if_pos hc]
  rfl

theorem utf8_of_ascii {s : Str} (h : ∀ c ∈ s, isAscii c = true) : utf8 s = s.map fun c => UInt8.ofNat c.toNat := by
  induction s with
  | nil => rfl
  | cons c s ih =>
    have hs := ih fun d hd => h d (List.mem_cons_of_mem _ hd)
    rw [utf8, List.flatMap_cons, utf8EncodeChar_of_ascii (h c (List.mem_cons_self ..)), List.map_cons, ← hs]
    rfl

/-- A text of ASCII characters has as many bytes as characters. -/
theorem byteLen_of_ascii {s : Str} (h : ∀ c ∈ s, isAscii c) : byteLen s = s.length := by
  rw [byteLen, utf8_of_ascii h, List.length_map]

/-- A text without white space is its own trim. -/
theorem trim_of_noWhiteSpace {s : Str} (h : ∀ c ∈ s, isWhiteSpace c = false) : trim s = s := by
  have hstart : trimStart isWhiteSpace s = s := by
    cases s with
    | nil => rfl
    | cons c s => simp [trimStart, h c (List.mem_cons_self ..)]
  rw [trim, hstart, trimEnd, List.rdropWhile_eq_self_iff]
  intro hne
  simp [h _ (List.getLast_mem hne)]

theorem toNat_toLower (c : Char) :
    c.toLower.toNat = if 65 ≤ c.toNat ∧ c.toNat ≤ 90 then c.toNat + 32 else c.toNat := by
  have hupper : (c.val ≥ 'A'.val ∧ c.val ≤ 'Z'.val) ↔ 65 ≤ c.toNat ∧ c.toNat ≤ 90 := Iff.rfl
  unfold Char.toLower
  split_ifs with h h' h'
  · show (c.val + ('a'.val - 'A'.val)).toNat = c.val.toNat + 32
    rw [UInt32.toNat_add]
    have hhigh : c.val.toNat ≤ 90 := h'.2
    exact Nat.mod_eq_of_lt (by show c.val.toNat + 32 < _; omega)
  · exact absurd (hupper.1 h) h'
  · exact absurd (hupper.2 h') h
  · rfl

/-- Lowering a letter gives a letter, so any other character of the result was there before. -/
theorem eq_of_toLower_eq {c d : Char} (h : c.toLower = d) (hd : d.isLower = false) : c = d := by
  subst h
  have hnat := toNat_toLower c
  split_ifs at hnat with hupper
  · have hlower : c.toLower.isLower = true := by
      simp only [Char.isLower, ge_iff_le, Bool.and_eq_true, decide_eq_true_eq, UInt32.le_iff_toNat_le]
      show 97 ≤ c.toLower.toNat ∧ c.toLower.toNat ≤ 122
      omega
    rw [hlower] at hd
    cases hd
  · exact Char.toNat_inj.1 hnat.symm

theorem toLower_toLower (c : Char) : c.toLower.toLower = c.toLower := by
  apply Char.toNat_inj.1
  have hlowered := toNat_toLower c
  rw [toNat_toLower, if_neg]
  split_ifs at hlowered <;> omega

theorem toAsciiLowercase_idem (s : Str) : toAsciiLowercase (toAsciiLowercase s) = toAsciiLowercase s := by
  rw [toAsciiLowercase, toAsciiLowercase, List.map_map]
  exact List.map_congr_left fun c _ => toLower_toLower c

/-- A character that is no letter stands where it stood before. -/
theorem toLower_beq {d : Char} (hd : d.isLower = false) (hd' : d.toLower = d) (c : Char) : (c.toLower == d) = (c == d) := by
  rw [Bool.eq_iff_iff, beq_iff_eq, beq_iff_eq]
  constructor
  · exact fun h => eq_of_toLower_eq h hd
  · rintro rfl
    exact hd'

theorem mem_toAsciiLowercase {d : Char} (hd : d.isLower = false) (hd' : d.toLower = d) {s : Str} :
    d ∈ toAsciiLowercase s ↔ d ∈ s := by
  constructor
  · intro hmem
    obtain ⟨c, hc, heq⟩ := List.mem_map.1 hmem
    rwa [← eq_of_toLower_eq heq hd]
  · exact fun hmem => List.mem_map.2 ⟨d, hmem, hd'⟩

theorem trimEnd_toAsciiLowercase {d : Char} (hd : d.isLower = false) (hd' : d.toLower = d) (s : Str) :
    trimEnd (· == d) (toAsciiLowercase s) = toAsciiLowercase (trimEnd (· == d) s) := by
  have hcomp : ((· == d) ∘ Char.toLower) = (· == d) := funext (toLower_beq hd hd')
  simp only [trimEnd, List.rdropWhile, toAsciiLowercase, ← List.map_reverse, List.dropWhile_map, hcomp]

theorem trimEnd_of_getLast? {p : Char → Bool} {s : Str} (h : ∀ c, s.getLast? = some c → p c = false) :
    trimEnd p s = s := by
  rw [trimEnd, List.rdropWhile_eq_self_iff]
  intro hne
  simp [h _ (List.getLast?_eq_some_getLast hne)]

theorem trimEnd_of_notMem {d : Char} {s : Str} (h : d ∉ s) : trimEnd (· == d) s = s :=
  trimEnd_of_getLast? fun c hc => by
    have hne : c ≠ d := fun h' => h (h' ▸ List.mem_of_getLast? hc)
    simp [hne]

theorem trimStart_of_notMem {d : Char} {s : Str} (h : d ∉ s) : trimStart (· == d) s = s := by
  cases s with
  | nil => rfl
  | cons c s =>
    have hc : c ≠ d := fun hc => h (hc ▸ List.mem_cons_self ..)
    simp [trimStart, hc]

/-- What is not a separator is in one of the pieces. -/
theorem exists_mem_splitOn {a c : Char} {s : Str} (hc : c ∈ s) (hne : c ≠ a) : ∃ piece ∈ s.splitOn a, c ∈ piece := by
  induction s with
  | nil => cases hc
  | cons d s ih =>
    rw [List.splitOn_cons_eq_if_modifyHead]
    rcases List.mem_cons.1 hc with rfl | hc
    · rw [if_neg (by simpa using hne)]
      cases hpieces : s.splitOn a with
      | nil => exact absurd hpieces (List.splitOn_ne_nil a s)
      | cons piece pieces => exact ⟨c :: piece, by simp, by simp⟩
    · obtain ⟨piece, hpiece, hmem⟩ := ih hc
      split_ifs
      · exact ⟨piece, List.mem_cons_of_mem _ hpiece, hmem⟩
      · cases hpieces : s.splitOn a with
        | nil => exact absurd hpieces (List.splitOn_ne_nil a s)
        | cons first pieces =>
          rw [hpieces] at hpiece
          rcases List.mem_cons.1 hpiece with rfl | hpiece
          · exact ⟨d :: piece, by simp, by simp [hmem]⟩
          · exact ⟨piece, by simp [hpiece], hmem⟩

theorem suffix_of_splitOnceAt {separator s a b : Str} (h : splitOnceAt separator s = some (a, b)) :
    b <:+ s := by
  induction s generalizing a with
  | nil =>
    unfold splitOnceAt at h
    split_ifs at h
    cases h
    exact List.suffix_refl _
  | cons c s ih =>
    unfold splitOnceAt at h
    split_ifs at h
    · cases h
      exact List.drop_suffix _ _
    · obtain ⟨⟨a', b'⟩, hsplit, heq⟩ := Option.map_eq_some_iff.1 h
      cases heq
      exact (ih hsplit).trans (List.suffix_cons _ _)

theorem fromUtf8_utf8 (s : Str) : fromUtf8 (utf8 s) = some s := by
  show (List.utf8Encode s).utf8Decode?.map Array.toList = some s
  rw [List.utf8Decode?_utf8Encode]
  rfl

theorem fromUtf8_eq_some {b : Bytes} {s : Str} : fromUtf8 b = some s ↔ utf8 s = b := by
  constructor
  · intro h
    obtain ⟨a, ha, rfl⟩ := Option.map_eq_some_iff.1 h
    have hsome : b.toByteArray.utf8Decode?.isSome := by rw [ha]; rfl
    have henc : (utf8 (b.toByteArray.utf8Decode?.get hsome).toList).toByteArray = b.toByteArray :=
      ByteArray.utf8Encode_get_utf8Decode?
    rw [Option.get_of_eq_some hsome ha] at henc
    simpa using congrArg (fun x => x.data.toList) henc
  · rintro rfl
    exact fromUtf8_utf8 s

theorem utf8_injective : Function.Injective utf8 := fun a b h =>
  Option.some.inj (by rw [← fromUtf8_utf8 a, h, fromUtf8_utf8])

/-- No byte of a UTF-8 text is `0xff`. -/
theorem ff_notMem_utf8 (s : Str) : 0xff ∉ utf8 s := by
  rw [utf8, List.mem_flatMap]
  rintro ⟨c, -, hc⟩
  have key : ∀ n : ℕ, n < 0xff → UInt8.ofNat n ≠ 0xff := by
    intro n hn h
    have := congrArg UInt8.toNat h
    simp at this
    omega
  unfold String.utf8EncodeChar at hc
  dsimp only at hc
  split_ifs at hc <;> simp only [List.mem_cons, List.not_mem_nil, or_false] at hc
  · exact key _ (by omega) hc.symm
  · rcases hc with h | h <;> exact key _ (by omega) h.symm
  · rcases hc with h | h | h <;> exact key _ (by omega) h.symm
  · rcases hc with h | h | h | h <;> exact key _ (by omega) h.symm

theorem splitOnce_eq_some {c : Char} {s a b : Str} :
    splitOnce c s = some (a, b) ↔ c ∉ a ∧ s = a ++ c :: b := by
  induction s generalizing a with
  | nil => simp [splitOnce]
  | cons d s ih =>
    unfold splitOnce
    split_ifs with h
    · subst h
      cases a with
      | nil => simp
      | cons e a => simp only [Option.some.injEq, Prod.mk.injEq, List.cons_append, List.cons.injEq]; grind
    · cases a with
      | nil => simp [h]
      | cons e a =>
        simp only [Option.map_eq_some_iff, Prod.mk.injEq, List.cons.injEq, Prod.exists]
        grind

end Text
