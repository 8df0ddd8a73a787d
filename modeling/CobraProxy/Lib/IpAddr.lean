import CobraProxy.Lib.Text

/-! IP addresses and the textual forms that the parser of Rust's `core::net` accepts. A reader
returns what it read and the rest of the text, or `none` with nothing consumed. -/

inductive IpAddr
  | v4 (octets : List ℕ)
  | v6 (segments : List ℕ)
  deriving DecidableEq

namespace IpAddr

open Text

/-- `char::to_digit`. -/
def digit? (radix : ℕ) (c : Char) : Option ℕ :=
  let value :=
    if c.isDigit then some (c.toNat - '0'.toNat)
    else if 'a' ≤ c ∧ c ≤ 'z' then some (c.toNat - 'a'.toNat + 10)
    else if 'A' ≤ c ∧ c ≤ 'Z' then some (c.toNat - 'A'.toNat + 10)
    else none
  value.filter (· < radix)

/-- A run of digits, at most `maxDigits` of them, whose value is below `bound`. -/
def readNumber (radix maxDigits bound : ℕ) (allowZeroPrefix : Bool) (s : Str) : Option (ℕ × Str) :=
  let run := s.takeWhile fun c => (digit? radix c).isSome
  let value := (run.filterMap (digit? radix)).foldl (fun n d => n * radix + d) 0
  if maxDigits < run.length ∨ run.isEmpty ∨ (!allowZeroPrefix ∧ run.head? = some '0' ∧ 1 < run.length) ∨
      bound ≤ value then none
  else some (value, s.drop run.length)

/-- A separator stands before every item but the first. -/
def readSeparator {α : Type} (separator : Char) (first : Bool) (read : Str → Option (α × Str)) (s : Str) :
    Option (α × Str) :=
  if first then read s
  else
    match s with
    | c :: s => if c = separator then read s else none
    | [] => none

def readIpv4 (s : Str) : Option (List ℕ × Str) := do
  let octet := fun first => readSeparator '.' first (readNumber 10 3 256 false)
  let (a, s) ← octet true s
  let (b, s) ← octet false s
  let (c, s) ← octet false s
  let (d, s) ← octet false s
  return ([a, b, c, d], s)

/-- The groups of one side of an IPv6 address, at most `limit` of them, the last two of which may be
written as an IPv4 address. The flag says whether they were. -/
def readGroups (first : Bool) : (limit : ℕ) → Str → List ℕ × Bool × Str
  | 0, s => ([], false, s)
  | limit + 1, s =>
    match if 0 < limit then readSeparator ':' first readIpv4 s else none with
    | some (octets, s) =>
      ([octets.getD 0 0 * 256 + octets.getD 1 0, octets.getD 2 0 * 256 + octets.getD 3 0], true, s)
    | none =>
      match readSeparator ':' first (readNumber 16 4 65536 true) s with
      | some (group, s) =>
        let (groups, embedded, s) := readGroups false limit s
        (group :: groups, embedded, s)
      | none => ([], false, s)

def readIpv6 (s : Str) : Option (List ℕ × Str) :=
  let (head, embedded, s) := readGroups true 8 s
  if head.length = 8 then some (head, s)
  else if embedded then none
  else
    match s with
    | ':' :: ':' :: s =>
      let (tail, _, s) := readGroups true (7 - head.length) s
      some (head ++ List.replicate (8 - head.length - tail.length) 0 ++ tail, s)
    | _ => none

/-- `str::parse::<IpAddr>`: nothing may follow the address. -/
def parse (s : Str) : Option IpAddr :=
  match readIpv4 s with
  | some (octets, rest) => if rest.isEmpty then some (.v4 octets) else none
  | none =>
    match readIpv6 s with
    | some (segments, rest) => if rest.isEmpty then some (.v6 segments) else none
    | none => none

example : parse "192.168.0.1".toList = some (.v4 [192, 168, 0, 1]) := by decide +kernel

example : parse "2001:db8::1.2.3.4".toList = some (.v6 [0x2001, 0xdb8, 0, 0, 0, 0, 0x0102, 0x0304]) := by
  decide +kernel

example : parse "1.2.3.04".toList = none := by decide +kernel

/-! ### The letter case of the text does not matter -/

theorem digit?_eq (radix : ℕ) (c : Char) : digit? radix c =
    (if 48 ≤ c.toNat ∧ c.toNat ≤ 57 then some (c.toNat - 48)
      else if 97 ≤ c.toNat ∧ c.toNat ≤ 122 then some (c.toNat - 97 + 10)
      else if 65 ≤ c.toNat ∧ c.toNat ≤ 90 then some (c.toNat - 65 + 10)
      else none).filter (· < radix) := by
  have hdigit : c.isDigit = true ↔ 48 ≤ c.toNat ∧ c.toNat ≤ 57 := by
    simp only [Char.isDigit, ge_iff_le, Bool.and_eq_true, decide_eq_true_eq, UInt32.le_iff_toNat_le]
    rfl
  unfold digit?
  simp only [hdigit]
  rfl

@[simp] theorem digit?_toLower (radix : ℕ) (c : Char) : digit? radix c.toLower = digit? radix c := by
  rw [digit?_eq, digit?_eq, toNat_toLower]
  by_cases hupper : 65 ≤ c.toNat ∧ c.toNat ≤ 90
  · have hdigit : ¬ (48 ≤ c.toNat ∧ c.toNat ≤ 57) := by omega
    have hlower : ¬ (97 ≤ c.toNat ∧ c.toNat ≤ 122) := by omega
    have hdigit' : ¬ (48 ≤ c.toNat + 32 ∧ c.toNat + 32 ≤ 57) := by omega
    have hlower' : 97 ≤ c.toNat + 32 ∧ c.toNat + 32 ≤ 122 := by omega
    rw [if_pos hupper, if_neg hdigit', if_pos hlower', if_neg hdigit, if_neg hlower, if_pos hupper]
    congr 2
  · rw [if_neg hupper]

/-- The reader finds the same in a text and in the text in lower case. -/
def CaseBlind {α : Type} (read : Str → Option (α × Str)) : Prop :=
  ∀ s, read (toAsciiLowercase s) = (read s).map fun r => (r.1, toAsciiLowercase r.2)

theorem readNumber_caseBlind (radix maxDigits bound : ℕ) (allowZeroPrefix : Bool) :
    CaseBlind (readNumber radix maxDigits bound allowZeroPrefix) := by
  intro s
  have hrun : (toAsciiLowercase s).takeWhile (fun c => (digit? radix c).isSome) =
      (s.takeWhile fun c => (digit? radix c).isSome).map Char.toLower := by
    rw [toAsciiLowercase, List.takeWhile_map]
    congr 1
    congr 1
    funext c
    simp
  have hhead : ∀ run : Str, (run.map Char.toLower).head? = some '0' ↔ run.head? = some '0' := by
    intro run
    cases run with
    | nil => simp
    | cons c run =>
      simp only [List.map_cons, List.head?_cons, Option.some.injEq]
      exact ⟨fun h => eq_of_toLower_eq h rfl, fun h => by rw [h]; rfl⟩
  have hdigits : digit? radix ∘ Char.toLower = digit? radix := funext fun c => digit?_toLower radix c
  unfold readNumber
  dsimp only
  rw [hrun, List.filterMap_map, List.length_map, List.isEmpty_map, hdigits]
  simp only [hhead]
  split_ifs
  · rfl
  · rw [Option.map_some, toAsciiLowercase, toAsciiLowercase, List.map_drop]

theorem readSeparator_caseBlind {α : Type} (separator : Char) (first : Bool) {read : Str → Option (α × Str)}
    (hseparator : separator.isLower = false) (hlower : separator.toLower = separator) (h : CaseBlind read) :
    CaseBlind (readSeparator separator first read) := by
  intro s
  unfold readSeparator
  split_ifs
  · exact h s
  · cases s with
    | nil => rfl
    | cons c s =>
      show (if c.toLower = separator then read (toAsciiLowercase s) else none) =
        (if c = separator then read s else none).map _
      have hsame : c.toLower = separator ↔ c = separator :=
        ⟨fun hc => eq_of_toLower_eq hc hseparator, fun hc => hc ▸ hlower⟩
      simp only [hsame, h s]
      split_ifs <;> rfl

theorem readIpv4_caseBlind : CaseBlind readIpv4 := by
  have hoctet : ∀ first, CaseBlind (readSeparator '.' first (readNumber 10 3 256 false)) :=
    fun first => readSeparator_caseBlind '.' first rfl rfl (readNumber_caseBlind 10 3 256 false)
  intro s
  unfold readIpv4
  dsimp only
  rw [hoctet true s]
  cases readSeparator '.' true (readNumber 10 3 256 false) s with
  | none => rfl
  | some r₁ =>
    simp only [Option.map_some, Option.bind_eq_bind, Option.bind_some]
    rw [hoctet false r₁.2]
    cases readSeparator '.' false (readNumber 10 3 256 false) r₁.2 with
    | none => rfl
    | some r₂ =>
      simp only [Option.map_some, Option.bind_some]
      rw [hoctet false r₂.2]
      cases readSeparator '.' false (readNumber 10 3 256 false) r₂.2 with
      | none => rfl
      | some r₃ =>
        simp only [Option.map_some, Option.bind_some]
        rw [hoctet false r₃.2]
        cases readSeparator '.' false (readNumber 10 3 256 false) r₃.2 <;> rfl

theorem readGroups_toAsciiLowercase (first : Bool) (limit : ℕ) (s : Str) :
    readGroups first limit (toAsciiLowercase s) =
      ((readGroups first limit s).1, (readGroups first limit s).2.1, toAsciiLowercase (readGroups first limit s).2.2) := by
  induction limit generalizing first s with
  | zero => rfl
  | succ limit ih =>
    have hipv4 : (if 0 < limit then readSeparator ':' first readIpv4 (toAsciiLowercase s) else none) =
        (if 0 < limit then readSeparator ':' first readIpv4 s else none).map
          fun r => (r.1, toAsciiLowercase r.2) := by
      rw [readSeparator_caseBlind ':' first rfl rfl readIpv4_caseBlind s]
      split_ifs <;> rfl
    have hgroup := readSeparator_caseBlind ':' first rfl rfl (readNumber_caseBlind 16 4 65536 true) s
    unfold readGroups
    rw [hipv4]
    cases (if 0 < limit then readSeparator ':' first readIpv4 s else none) with
    | some r => rfl
    | none =>
      rw [Option.map_none, hgroup]
      cases readSeparator ':' first (readNumber 16 4 65536 true) s with
      | none => rfl
      | some r => simp only [Option.map_some, ih]

theorem readIpv6_caseBlind : CaseBlind readIpv6 := by
  intro s
  unfold readIpv6
  rw [readGroups_toAsciiLowercase]
  rcases readGroups true 8 s with ⟨head, embedded, rest⟩
  dsimp only
  split_ifs
  · rfl
  · rfl
  · rcases rest with _ | ⟨c, _ | ⟨d, rest⟩⟩
    · rfl
    · simp [toAsciiLowercase]
    · by_cases hcolons : c = ':' ∧ d = ':'
      · obtain ⟨rfl, rfl⟩ := hcolons
        have hrest := readGroups_toAsciiLowercase true (7 - head.length) rest
        simp only [toAsciiLowercase] at hrest
        show some _ = some _
        rw [hrest]
        rfl
      · have hlowered : ¬ (c.toLower = ':' ∧ d.toLower = ':') :=
          fun h => hcolons ⟨eq_of_toLower_eq h.1 rfl, eq_of_toLower_eq h.2 rfl⟩
        simp only [toAsciiLowercase, List.map_cons]
        split
        · rename_i heq
          obtain ⟨hc, hd, -⟩ := And.imp_right List.cons.inj (List.cons.inj heq)
          exact absurd ⟨hc, hd⟩ hlowered
        · split
          · rename_i heq
            cases heq
            exact absurd ⟨rfl, rfl⟩ hcolons
          · rfl

theorem parse_toAsciiLowercase (s : Str) : parse (toAsciiLowercase s) = parse s := by
  unfold parse
  rw [readIpv4_caseBlind s, readIpv6_caseBlind s]
  cases readIpv4 s with
  | some r => simp [toAsciiLowercase]
  | none =>
    cases readIpv6 s with
    | some r => simp [toAsciiLowercase]
    | none => rfl

/-! ### The characters of an address -/

/-- Hexadecimal digits and the two separators. -/
def isAddressChar (c : Char) : Prop := (digit? 16 c).isSome ∨ c = ':' ∨ c = '.'

/-- The text of an address or of a part of one: it does not end in a dot. -/
structure AddressText (s : Str) : Prop where
  chars : ∀ c ∈ s, isAddressChar c
  last : s.getLast? ≠ some '.'

theorem AddressText.append {s t : Str} (hs : AddressText s) (ht : AddressText t) : AddressText (s ++ t) where
  chars := fun c hc => (List.mem_append.1 hc).elim (hs.chars c) (ht.chars c)
  last := by
    rw [List.getLast?_append]
    intro h
    rcases Option.or_eq_some_iff.1 h with h | ⟨-, h⟩
    · exact ht.last h
    · exact hs.last h

theorem AddressText.nil : AddressText [] := ⟨fun _ hc => absurd hc List.not_mem_nil, by simp⟩

theorem AddressText.colon : AddressText [':'] :=
  ⟨fun c hc => .inr (.inl (List.mem_singleton.1 hc)), by decide⟩

/-- A separator in front of a nonempty text. -/
theorem AddressText.cons {c : Char} {s : Str} (hc : isAddressChar c) (hs : AddressText s) (hne : s ≠ []) :
    AddressText (c :: s) where
  chars := by
    intro d hd
    rcases List.mem_cons.1 hd with rfl | hd
    · exact hc
    · exact hs.chars d hd
  last := by rw [List.getLast?_cons_of_ne_nil hne]; exact hs.last

/-- The reader takes a nonempty part of an address off the text. -/
def Takes {α : Type} (read : Str → Option (α × Str)) : Prop :=
  ∀ s value rest, read s = some (value, rest) → ∃ taken, s = taken ++ rest ∧ AddressText taken ∧ taken ≠ []

theorem digit?_mono {radix radix' : ℕ} (h : radix ≤ radix') {c : Char} (hc : (digit? radix c).isSome) :
    (digit? radix' c).isSome := by
  obtain ⟨value, hvalue⟩ := Option.isSome_iff_exists.1 hc
  rw [digit?_eq] at hvalue
  obtain ⟨hread, hlt⟩ := Option.filter_eq_some_iff.1 hvalue
  rw [digit?_eq, hread]
  simp only [decide_eq_true_eq] at hlt
  simp [Option.filter, hlt.trans_le h]

theorem readNumber_takes {radix maxDigits bound : ℕ} {allowZeroPrefix : Bool} (hradix : radix ≤ 16) :
    Takes (readNumber radix maxDigits bound allowZeroPrefix) := by
  intro s value rest h
  unfold readNumber at h
  dsimp only at h
  split_ifs at h with hbad
  obtain ⟨-, rfl⟩ := Prod.mk.inj (Option.some.inj h)
  have hne : (s.takeWhile fun c => (digit? radix c).isSome) ≠ [] :=
    fun hnil => hbad (.inr (.inl (by rw [hnil]; rfl)))
  have hdigits : ∀ c ∈ s.takeWhile (fun c => (digit? radix c).isSome), (digit? 16 c).isSome :=
    fun c hc =>
      digit?_mono hradix (List.mem_takeWhile_imp (p := fun c => (digit? radix c).isSome) hc)
  refine ⟨_, ?_, ⟨fun c hc => .inl (hdigits c hc), ?_⟩, hne⟩
  · exact List.prefix_iff_eq_append.1 (List.takeWhile_prefix _) |>.symm
  · intro hlast
    exact absurd (hdigits _ (List.mem_of_getLast? hlast)) (by decide)

theorem readSeparator_takes {α : Type} {separator : Char} (hseparator : isAddressChar separator) (first : Bool)
    {read : Str → Option (α × Str)} (h : Takes read) : Takes (readSeparator separator first read) := by
  intro s value rest hread
  unfold readSeparator at hread
  split_ifs at hread
  · exact h s value rest hread
  · cases s with
    | nil => cases hread
    | cons c s =>
      dsimp only at hread
      split_ifs at hread with hc
      obtain ⟨taken, rfl, htext, hne⟩ := h s value rest hread
      exact ⟨c :: taken, rfl, htext.cons (hc ▸ hseparator) hne, by simp⟩

theorem readIpv4_takes : Takes readIpv4 := by
  have hoctet : ∀ first, Takes (readSeparator '.' first (readNumber 10 3 256 false)) :=
    fun first => readSeparator_takes (.inr (.inr rfl)) first (readNumber_takes (by decide))
  intro s value rest h
  simp only [readIpv4, Option.bind_eq_bind, Option.bind_eq_some_iff, Prod.exists, Option.pure_def,
    Option.some.injEq, Prod.mk.injEq] at h
  obtain ⟨a, s₁, h₁, b, s₂, h₂, c, s₃, h₃, d, s₄, h₄, -, rfl⟩ := h
  obtain ⟨t₁, rfl, ht₁, hne⟩ := hoctet _ _ _ _ h₁
  obtain ⟨t₂, rfl, ht₂, -⟩ := hoctet _ _ _ _ h₂
  obtain ⟨t₃, rfl, ht₃, -⟩ := hoctet _ _ _ _ h₃
  obtain ⟨t₄, rfl, ht₄, -⟩ := hoctet _ _ _ _ h₄
  exact ⟨t₁ ++ (t₂ ++ (t₃ ++ t₄)), by simp, ht₁.append (ht₂.append (ht₃.append ht₄)), by simp [hne]⟩

theorem readGroups_takes (first : Bool) (limit : ℕ) (s : Str) :
    ∃ taken, s = taken ++ (readGroups first limit s).2.2 ∧ AddressText taken := by
  have hcolon : isAddressChar ':' := .inr (.inl rfl)
  induction limit generalizing first s with
  | zero => exact ⟨[], rfl, .nil⟩
  | succ limit ih =>
    unfold readGroups
    split
    · rename_i octets rest hread
      split_ifs at hread
      obtain ⟨taken, rfl, htext, -⟩ := readSeparator_takes hcolon first readIpv4_takes _ _ _ hread
      exact ⟨taken, rfl, htext⟩
    · split
      · rename_i group rest hread
        obtain ⟨taken, rfl, htext, -⟩ :=
          readSeparator_takes hcolon first (readNumber_takes (by decide)) _ _ _ hread
        obtain ⟨more, hmore, htext'⟩ := ih false rest
        refine ⟨taken ++ more, ?_, htext.append htext'⟩
        rw [List.append_assoc, ← hmore]
      · exact ⟨[], rfl, .nil⟩

theorem readIpv6_takes {s rest : Str} {segments : List ℕ} (h : readIpv6 s = some (segments, rest)) :
    ∃ taken, s = taken ++ rest ∧ AddressText taken := by
  obtain ⟨taken, hs, htext⟩ := readGroups_takes true 8 s
  unfold readIpv6 at h
  dsimp only at h
  split_ifs at h
  · cases h
    exact ⟨taken, hs, htext⟩
  · split at h
    · rename_i rest' hrest
      obtain ⟨more, hmore, htext'⟩ := readGroups_takes true (7 - (readGroups true 8 s).1.length) rest'
      obtain ⟨-, rfl⟩ := Prod.mk.inj (Option.some.inj h)
      refine ⟨taken ++ ([':'] ++ ([':'] ++ more)), ?_, htext.append (.append .colon (.append .colon htext'))⟩
      have hwhole : s = taken ++ ':' :: ':' :: rest' := by rw [← hrest]; exact hs
      rw [List.append_assoc, List.append_assoc, List.append_assoc, ← hmore]
      exact hwhole
    · cases h

/-- A text that parses as an address is made of the characters of one. -/
theorem addressText_of_parse {s : Str} {address : IpAddr} (h : parse s = some address) : AddressText s := by
  unfold parse at h
  split at h
  · rename_i octets rest hread
    split_ifs at h with hrest
    obtain ⟨taken, rfl, htext, -⟩ := readIpv4_takes _ _ _ hread
    rw [List.isEmpty_iff.1 hrest, List.append_nil]
    exact htext
  · split at h
    · rename_i segments rest hread
      split_ifs at h with hrest
      obtain ⟨taken, rfl, htext⟩ := readIpv6_takes hread
      rw [List.isEmpty_iff.1 hrest, List.append_nil]
      exact htext
    · cases h

/-! ### The predicates of `Ipv4Addr` and `Ipv6Addr` -/

section V4

variable (octets : List ℕ)

def octet (i : ℕ) : ℕ := octets.getD i 0

def isPrivate : Bool :=
  octet octets 0 == 10 || (octet octets 0 == 172 && 16 ≤ octet octets 1 && octet octets 1 ≤ 31) ||
    (octet octets 0 == 192 && octet octets 1 == 168)

def isLoopback4 : Bool := octet octets 0 == 127

def isLinkLocal : Bool := octet octets 0 == 169 && octet octets 1 == 254

def isBroadcast : Bool := octets == [255, 255, 255, 255]

def isUnspecified4 : Bool := octets == [0, 0, 0, 0]

def isMulticast4 : Bool := 224 ≤ octet octets 0 && octet octets 0 ≤ 239

end V4

section V6

variable (segments : List ℕ)

def segment (i : ℕ) : ℕ := segments.getD i 0

def isLoopback6 : Bool := segments == [0, 0, 0, 0, 0, 0, 0, 1]

def isUnspecified6 : Bool := segments == [0, 0, 0, 0, 0, 0, 0, 0]

def isMulticast6 : Bool := segment segments 0 / 256 == 0xff

/-- `fc00::/7`. -/
def isUniqueLocal : Bool := segment segments 0 / 512 == 0xfc00 / 512

/-- `fe80::/10`. -/
def isUnicastLinkLocal : Bool := segment segments 0 / 64 == 0xfe80 / 64

/-- `Ipv6Addr::to_ipv4`: `::a.b.c.d` and `::ffff:a.b.c.d`. -/
def toIpv4 : Option (List ℕ) :=
  if segments.take 5 = [0, 0, 0, 0, 0] ∧ (segment segments 5 = 0 ∨ segment segments 5 = 0xffff) then
    some [segment segments 6 / 256, segment segments 6 % 256, segment segments 7 / 256,
      segment segments 7 % 256]
  else none

end V6

end IpAddr
