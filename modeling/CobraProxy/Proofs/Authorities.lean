import CobraProxy.Lib.Fallible
import CobraProxy.Proofs.Destination
import CobraProxy.Spec.Cache

/-! What the destination policy makes of the spellings of an address, and the cache policy of the spellings
of a port. -/

namespace Cobra

open Text IpAddr

/-- The number that a text writes in decimal, after a plus sign or not. -/
def parseDecimal (s : Str) : Option ℕ :=
  let digits := if s.head? = some '+' then s.tail else s
  if digits.isEmpty || !digits.all Char.isDigit then none else some (Nat.ofDigitChars 10 digits 0)

/-- `str::parse::<u16>`. -/
def parseU16 (s : Str) : Option UInt16 := ((parseDecimal s).filter (· < 2 ^ 16)).map UInt16.ofNat

/-- A parser that cuts the text at its last colon, for the examples below. -/
def cutAuthority : ParseAuthority := fun text =>
  match splitOnce ':' text.reverse with
  | some (port, host) => .ok ⟨host.reverse, parseU16 port.reverse⟩
  | none => .ok ⟨text, none⟩

/-! ### Spellings of an address -/

theorem bracket_notMem {s : Str} (h : AddressText s) {c : Char} (hc : c = '[' ∨ c = ']') : c ∉ s := by
  intro hmem
  have hchar := h.chars c hmem
  rcases hc with rfl | rfl
  · rcases hchar with hdigit | hcolon | hdot
    · exact absurd hdigit (by decide)
    · exact absurd hcolon (by decide)
    · exact absurd hdot (by decide)
  · rcases hchar with hdigit | hcolon | hdot
    · exact absurd hdigit (by decide)
    · exact absurd hcolon (by decide)
    · exact absurd hdot (by decide)

/-- Without brackets, only trailing dots are trimmed off. -/
theorem normalizedHost_plain {s : Str} (hopen : '[' ∉ s) (hclose : ']' ∉ s) :
    normalizedHost s = toAsciiLowercase (trimEnd (· == '.') s) := by
  rw [normalizedHost, trimStart_of_notMem hopen, trimEnd_of_notMem hclose]

theorem normalizedHost_literal {s : Str} (hopen : '[' ∉ s) (hclose : ']' ∉ s) :
    normalizedHost ('[' :: s ++ [']']) = toAsciiLowercase (trimEnd (· == '.') s) := by
  have hstart : trimStart (· == '[') ('[' :: s ++ [']']) = s ++ [']'] :=
    trimStart_of_notMem (by simp [hopen] : '[' ∉ s ++ [']'])
  have hend : trimEnd (· == ']') (s ++ [']']) = trimEnd (· == ']') s := by
    simp [trimEnd, List.rdropWhile_concat_pos]
  rw [normalizedHost, hstart, hend, trimEnd_of_notMem hclose]

theorem trimEnd_address {s : Str} (h : AddressText s) : trimEnd (· == '.') s = s :=
  trimEnd_of_getLast? fun c hc => by
    have hne : c ≠ '.' := fun h' => h.last (h' ▸ hc)
    simp [hne]

/-- The characters of an address are not trimmed off. -/
theorem normalizedHost_address {s : Str} (h : AddressText s) : normalizedHost s = toAsciiLowercase s := by
  rw [normalizedHost_plain (bracket_notMem h (.inl rfl)) (bracket_notMem h (.inr rfl)), trimEnd_address h]

theorem normalizedHost_bracketed {s : Str} (h : AddressText s) :
    normalizedHost ('[' :: s ++ [']']) = toAsciiLowercase s := by
  rw [normalizedHost_literal (bracket_notMem h (.inl rfl)) (bracket_notMem h (.inr rfl)), trimEnd_address h]

/-- No local name is spelled like an address. -/
theorem isLocalName_address {s : Str} (h : AddressText s) : isLocalName (toAsciiLowercase s) = false := by
  have hletter : ∀ c : Char, c = 'l' ∨ c = 'h' → c ∉ toAsciiLowercase s := by
    intro c hc hmem
    obtain ⟨d, hd, rfl⟩ := List.mem_map.1 hmem
    have hdigit := digit?_toLower 16 d
    rcases h.chars d hd with hchar | rfl | rfl
    · rw [← hdigit] at hchar
      rcases hc with hc | hc
      · rw [hc] at hchar
        exact absurd hchar (by decide)
      · rw [hc] at hchar
        exact absurd hchar (by decide)
    · exact absurd hc (by decide)
    · exact absurd hc (by decide)
  have hsuffix : ∀ t : Str, 'l' ∈ t ∨ 'h' ∈ t → t.isSuffixOf (toAsciiLowercase s) = false := by
    intro t ht
    rw [Bool.eq_false_iff, ne_eq, List.isSuffixOf_iff_suffix]
    intro hsuf
    rcases ht with ht | ht
    · exact hletter _ (.inl rfl) (hsuf.subset ht)
    · exact hletter _ (.inr rfl) (hsuf.subset ht)
  have hlocalhost : (toAsciiLowercase s == "localhost".toList) = false := by
    rw [beq_eq_false_iff_ne]
    intro heq
    exact hletter 'l' (.inl rfl) (by rw [heq]; decide)
  simp only [isLocalName, hlocalhost, hsuffix _ (.inl (show 'l' ∈ ".localhost".toList by decide)),
    hsuffix _ (.inl (show 'l' ∈ ".local".toList by decide)),
    hsuffix _ (.inl (show 'l' ∈ ".internal".toList by decide)),
    hsuffix _ (.inr (show 'h' ∈ ".home".toList by decide)),
    hsuffix _ (.inl (show 'l' ∈ ".lan".toList by decide)), Bool.or_self]

variable {parseAuthority : ParseAuthority}

/-- The address decides about a destination whose host is the text of one. -/
theorem connectDestinationAllowed_address {destination s : Str} {authority : Authority} {address : IpAddr}
    (hauthority : parseAuthority destination = .ok authority)
    (hhost : normalizedHost authority.host = toAsciiLowercase s) (h : IpAddr.parse s = some address) :
    connectDestinationAllowed parseAuthority destination = .ok (addressAllowed address) := by
  unfold connectDestinationAllowed
  rw [hauthority]
  simp only [Except.mapError, Fallible.ok_bind, hhost, isLocalName_address (addressText_of_parse h),
    Bool.false_eq_true, if_false, parse_toAsciiLowercase, h]
  rfl

/-- Of the blocked IPv4 addresses only `0.0.0.0` is blocked as an IPv6 address too: the predicates of IPv6
do not look at an embedded address, and `::1` embeds `0.0.0.1`, which is not blocked. -/
theorem addressAllowed_embedded {octets segments : List ℕ} (hembeds : toIpv4 segments = some octets)
    (hblocked : addressAllowed (.v4 octets) = false) :
    addressAllowed (.v6 segments) = false ↔ segments = List.replicate 8 0 := by
  unfold toIpv4 at hembeds
  split_ifs at hembeds with hzero
  have hfirst : IpAddr.segment segments 0 = 0 := by
    have hget := congrArg (fun l => l.getD 0 0) hzero.1
    simpa [IpAddr.segment, List.getD_eq_getElem?_getD, List.getElem?_take] using hget
  have hloopback : isLoopback6 segments = false := by
    rw [isLoopback6, beq_eq_false_iff_ne]
    rintro rfl
    cases hembeds
    exact absurd hblocked (by decide)
  have hunspecified : isUnspecified6 segments = true ↔ segments = List.replicate 8 0 := beq_iff_eq
  simp only [addressAllowed, hloopback, isMulticast6, isUniqueLocal, isUnicastLinkLocal, hfirst]
  rw [← hunspecified]
  cases isUnspecified6 segments <;> simp

/-- The text is an authority with this host before a colon and the number of a port. -/
def ReadsHost (parseAuthority : ParseAuthority) (host : Str) (port : UInt16) : Prop :=
  parseAuthority (host ++ ':' :: Nat.toDigits 10 port.toNat) = .ok ⟨host, some port⟩

/-- Where an IPv4 address is blocked, an IPv6 literal that embeds it is blocked too exactly when it is a
spelling of the unspecified address `::`. -/
theorem embedded_address_blocked_iff {address literal : Str} {octets segments : List ℕ} {port : UInt16}
    (haddress : IpAddr.parse address = some (.v4 octets)) (hliteral : IpAddr.parse literal = some (.v6 segments))
    (hembeds : toIpv4 segments = some octets) (hreads : ReadsHost parseAuthority address port)
    (hreads' : ReadsHost parseAuthority ('[' :: literal ++ [']']) port)
    (hblocked : connectDestinationAllowed parseAuthority (address ++ ':' :: Nat.toDigits 10 port.toNat) =
      .ok false) :
    connectDestinationAllowed parseAuthority
        ('[' :: literal ++ [']'] ++ ':' :: Nat.toDigits 10 port.toNat) = .ok false ↔
      segments = List.replicate 8 0 := by
  have hplain := connectDestinationAllowed_address hreads
    (normalizedHost_address (addressText_of_parse haddress)) haddress
  have hbracketed := connectDestinationAllowed_address hreads'
    (normalizedHost_bracketed (addressText_of_parse hliteral)) hliteral
  rw [hplain, Except.ok.injEq] at hblocked
  rw [hbracketed, Except.ok.injEq]
  exact addressAllowed_embedded hembeds hblocked

theorem embedded_address_blocked_iff_unspecified :
    connectDestinationAllowed cutAuthority "[0::0.0.0.0]:80".toList = .ok false ↔
      [0, 0, 0, 0, 0, 0, 0, 0] = List.replicate 8 0 :=
  @embedded_address_blocked_iff cutAuthority "0.0.0.0".toList "0::0.0.0.0".toList [0, 0, 0, 0]
    [0, 0, 0, 0, 0, 0, 0, 0] 80 (by decide +kernel) (by decide +kernel) (by decide +kernel)
    (Fallible.toOption_eq_some.1 (by decide +kernel)) (Fallible.toOption_eq_some.1 (by decide +kernel))
    (Fallible.toOption_eq_some.1 (by decide +kernel))

/-- `10.0.0.1` is blocked and `::ffff:10.0.0.1` is not. -/
theorem mapped_private_address_is_allowed :
    ¬ ∀ (parseAuthority : ParseAuthority) (address literal : Str) (octets segments : List ℕ) (port : UInt16),
      IpAddr.parse address = some (.v4 octets) → IpAddr.parse literal = some (.v6 segments) →
      toIpv4 segments = some octets → ReadsHost parseAuthority address port →
      ReadsHost parseAuthority ('[' :: literal ++ [']']) port →
      connectDestinationAllowed parseAuthority (address ++ ':' :: Nat.toDigits 10 port.toNat) = .ok false →
      connectDestinationAllowed parseAuthority
        ('[' :: literal ++ [']'] ++ ':' :: Nat.toDigits 10 port.toNat) = .ok false := by
  intro hclaim
  have hblocked := hclaim cutAuthority "10.0.0.1".toList "::ffff:10.0.0.1".toList [10, 0, 0, 1]
    [0, 0, 0, 0, 0, 0xffff, 0x0a00, 0x0001] 80 (by decide +kernel) (by decide +kernel) (by decide +kernel)
    (Fallible.toOption_eq_some.1 (by decide +kernel)) (Fallible.toOption_eq_some.1 (by decide +kernel))
    (Fallible.toOption_eq_some.1 (by decide +kernel))
  have hallowed : connectDestinationAllowed cutAuthority "[::ffff:10.0.0.1]:80".toList = .ok true :=
    Fallible.toOption_eq_some.1 (by decide +kernel)
  cases hallowed.symm.trans hblocked

/-! ### Spellings of a port -/

/-- The text is an authority in which a colon and the text of a port follow the host. The library reads that
text as a `u16`, or as no port at all. -/
structure WritesPort (parseAuthority : ParseAuthority) (text port : Str) (authority : Authority) : Prop where
  parse : parseAuthority text = .ok authority
  follows : ∃ userinfo, text = userinfo ++ authority.host ++ ':' :: port
  nonempty : port ≠ []
  noColon : ':' ∉ port
  portU16 : authority.portU16 = parseU16 port

/-- The origin has the port whose number is written. -/
def HonoursPort (port origin : Str) : Prop :=
  ∃ scheme host number, (scheme = "http".toList ∨ scheme = "https".toList) ∧
    parseDecimal port = some (UInt16.toNat number) ∧ origin = formatCanonicalOrigin scheme host number

/-- The text is a number that a port can have, zero included. -/
def FitsPort (port : Str) : Prop := ∃ number, parseDecimal port = some number ∧ number < 2 ^ 16

theorem parseU16_eq_some {s : Str} {n : UInt16} : parseU16 s = some n ↔ parseDecimal s = some n.toNat := by
  unfold parseU16
  constructor
  · intro h
    obtain ⟨m, hm, rfl⟩ := Option.map_eq_some_iff.1 h
    obtain ⟨hread, hlt⟩ := Option.filter_eq_some_iff.1 hm
    have hlt : m < 2 ^ 16 := by simpa using hlt
    rw [hread, UInt16.toNat_ofNat_of_lt' hlt]
  · intro h
    have hlt := UInt16.toNat_lt n
    rw [h, Option.filter, if_pos (by simpa using hlt)]
    simp

/-- An origin that was written with the port of a normal form has the number of the port text exactly when the
library could read it: otherwise it has the port of the scheme. -/
theorem honoursPort_iff {text port scheme host : Str} {authority : Authority}
    (h : WritesPort parseAuthority text port authority)
    (hscheme : scheme = "http".toList ∨ scheme = "https".toList) :
    HonoursPort port (formatCanonicalOrigin scheme host (normalizedAuthority authority scheme).2) ↔
      FitsPort port := by
  constructor
  · rintro ⟨-, -, number, -, hnumber, -⟩
    exact ⟨_, hnumber, UInt16.toNat_lt number⟩
  · rintro ⟨number, hnumber, hlt⟩
    have hread : parseU16 port = some (UInt16.ofNat number) := by
      rw [parseU16_eq_some, UInt16.toNat_ofNat_of_lt' hlt, hnumber]
    refine ⟨scheme, host, UInt16.ofNat number, hscheme, parseU16_eq_some.1 hread, ?_⟩
    rw [normalizedAuthority, h.portU16, hread]
    rfl

/-- What a successful `canonical_configured_http_origin` has read from the entry, and checked. -/
theorem canonicalConfiguredHttpOrigin_spec {entry origin : Str}
    (h : canonicalConfiguredHttpOrigin parseAuthority entry = .ok origin) :
    ∃ scheme text authority, splitOnceAt "://".toList entry = some (scheme, text) ∧
      parseAuthority text = .ok authority ∧ (normalizedAuthority authority "http".toList).2 ≠ 0 ∧
      cacheOriginHostAllowed (normalizedAuthority authority "http".toList).1 = true ∧
      origin = formatCanonicalOrigin "http".toList (normalizedAuthority authority "http".toList).1
        (normalizedAuthority authority "http".toList).2 := by
  unfold canonicalConfiguredHttpOrigin at h
  split at h
  · rename_i scheme text hsplit
    simp only [Fallible.throw_eq_error, Fallible.error_bind, Fallible.bind_eq_ok, Fallible.mapError_eq_ok,
      Fallible.ite_error_eq_ok, Fallible.pure_eq_ok, Except.ok.injEq] at h
    obtain ⟨-, -, -, authority, hauthority, hvalid, hallowed, rfl⟩ := h
    exact ⟨scheme, text, authority, hsplit, hauthority, fun hport => hvalid (.inr hport), by simpa using hallowed, rfl⟩
  · simp at h

/-- A port that is written in an allowlist entry, in a Host header or in an absolute-form URI is honoured
exactly when it is a decimal number that fits a port: what does not fit is replaced by the scheme's port. -/
theorem explicit_port_honoured_iff {text port : Str} {authority : Authority}
    (hport : WritesPort parseAuthority text port authority) :
    (∀ entry scheme origin, splitOnceAt "://".toList entry = some (scheme, text) →
      canonicalConfiguredHttpOrigin parseAuthority entry = .ok origin →
      (HonoursPort port origin ↔ FitsPort port)) ∧
    ∀ request origin path,
      (request.get "host").bind RequestHeader.toStr = some text ∨ request.uri.authority = some authority →
      canonicalCacheKeyParts parseAuthority request = .ok (origin, path) →
      (HonoursPort port origin ↔ FitsPort port) := by
  refine ⟨?_, ?_⟩
  · intro entry scheme origin hentry h
    obtain ⟨scheme', text', authority', hsplit, hauthority, -, -, rfl⟩ := canonicalConfiguredHttpOrigin_spec h
    cases hentry.symm.trans hsplit
    cases hport.parse.symm.trans hauthority
    exact honoursPort_iff hport (.inl rfl)
  · intro request origin path hwritten h
    obtain ⟨text', authority', htext', hauthority', hscheme, -, rfl, -, hagrees⟩ := canonicalCacheKeyParts_spec h
    rcases hwritten with htext | huri
    · cases htext.symm.trans htext'
      cases hport.parse.symm.trans hauthority'
      exact honoursPort_iff hport hscheme
    · -- the port of the Host header is the one of the URI
      rw [← hagrees authority huri]
      exact honoursPort_iff hport hscheme

theorem site_writes_port : WritesPort cutAuthority "example.com:8080".toList "8080".toList
    ⟨"example.com".toList, some 8080⟩ where
  parse := Fallible.toOption_eq_some.1 (by decide +kernel)
  follows := ⟨[], by decide⟩
  nonempty := by decide
  noColon := by decide
  portU16 := by decide +kernel

theorem explicit_port_honoured_iff_site :
    HonoursPort "8080".toList "http://example.com:8080".toList ↔ FitsPort "8080".toList := by
  refine (explicit_port_honoured_iff site_writes_port).1 "http://example.com:8080".toList "http".toList _
    (by decide +kernel) ?_
  exact Fallible.toOption_eq_some.1 (by decide +kernel)

/-- The allowlist entry `http://example.com:99999` is taken for port 80. -/
theorem overflowing_port_is_default :
    ¬ ∀ (parseAuthority : ParseAuthority) (text port : Str) (authority : Authority),
      WritesPort parseAuthority text port authority → ∀ entry scheme origin,
      splitOnceAt "://".toList entry = some (scheme, text) →
      canonicalConfiguredHttpOrigin parseAuthority entry = .ok origin → HonoursPort port origin := by
  intro hclaim
  have hwrites : WritesPort cutAuthority "example.com:99999".toList "99999".toList
      ⟨"example.com".toList, none⟩ := by
    refine ⟨Fallible.toOption_eq_some.1 (by decide +kernel), ⟨[], by decide⟩, by decide, by decide, ?_⟩
    decide +kernel
  obtain ⟨-, -, number, -, hnumber, -⟩ := hclaim _ _ _ _ hwrites "http://example.com:99999".toList "http".toList
    "http://example.com:80".toList (by decide +kernel) (Fallible.toOption_eq_some.1 (by decide +kernel))
  have hwritten : parseDecimal "99999".toList = some 99999 := by decide +kernel
  have hlt := UInt16.toNat_lt number
  have heq := Option.some.inj (hwritten.symm.trans hnumber)
  omega

end Cobra
