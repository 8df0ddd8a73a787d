import CobraProxy.Proofs.Authorities

/-! The filters on destinations agree: what shares a canonical key shares the verdict, and what the cache may hold a
tunnel may reach. -/

namespace Cobra

open Text IpAddr

variable {parseAuthority : ParseAuthority}

/-! ### Keys -/

theorem canonicalConnectDestinationKey_eq_ok {destination key : Str}
    (h : canonicalConnectDestinationKey parseAuthority destination = .ok key) :
    ∃ authority port, parseAuthority destination = .ok authority ∧ authority.portU16 = some port ∧ port ≠ 0 ∧
      key = formatHostPort (normalizedHost authority.host) port := by
  unfold canonicalConnectDestinationKey at h
  obtain ⟨authority, hauthority, h⟩ := Fallible.bind_eq_ok.1 h
  rw [Fallible.mapError_eq_ok] at hauthority
  split at h
  · rename_i port hport
    obtain ⟨hport, hzero⟩ := Option.filter_eq_some_iff.1 hport
    cases h
    exact ⟨authority, port, hauthority, hport, by simpa using hzero, rfl⟩
  · cases h

/-- The policy sees the normal form of the host and nothing else. -/
theorem connectDestinationAllowed_of_parse {destination : Str} {authority : Authority}
    (h : parseAuthority destination = .ok authority) :
    connectDestinationAllowed parseAuthority destination =
      .ok (!isLocalName (normalizedHost authority.host) &&
        (IpAddr.parse (normalizedHost authority.host)).elim true addressAllowed) := by
  unfold connectDestinationAllowed
  rw [h]
  simp only [Except.mapError, Fallible.ok_bind]
  cases isLocalName (normalizedHost authority.host) with
  | true => rfl
  | false => cases IpAddr.parse (normalizedHost authority.host) <;> rfl

/-- A host as authorities have them: a literal in brackets, or a name or address without any. -/
def HostForm (host : Str) : Prop :=
  ('[' ∉ host ∧ ']' ∉ host) ∨ ∃ literal, host = '[' :: literal ++ [']'] ∧ '[' ∉ literal ∧ ']' ∉ literal

/-- The hosts are the same but for the case of letters and for trailing dots. -/
def SameHost (host host' : Str) : Prop :=
  toAsciiLowercase (trimEnd (· == '.') host) = toAsciiLowercase (trimEnd (· == '.') host')

theorem mem_of_mem_trimEnd {p : Char → Bool} {s : Str} {c : Char} (h : c ∈ trimEnd p s) : c ∈ s :=
  (List.rdropWhile_prefix p s).subset h

theorem trimEnd_literal (s : Str) : trimEnd (· == '.') ('[' :: s ++ [']']) = '[' :: s ++ [']'] :=
  trimEnd_of_getLast? fun c hc => by
    rw [List.getLast?_concat, Option.some.injEq] at hc
    simp [← hc]

/-- Dots after a literal are no part of it, and inside the brackets they are trimmed off as behind a name. -/
theorem sameHost_literal {literal host : Str} (h : SameHost ('[' :: literal ++ [']']) host) : '[' ∈ host := by
  rw [SameHost, trimEnd_literal] at h
  have hmem : '[' ∈ toAsciiLowercase (trimEnd (· == '.') host) := by
    rw [← h, mem_toAsciiLowercase (by decide) (by decide)]
    simp
  rw [mem_toAsciiLowercase (by decide) (by decide)] at hmem
  exact mem_of_mem_trimEnd hmem

theorem normalizedHost_congr {host host' : Str} (hform : HostForm host) (hform' : HostForm host')
    (hsame : SameHost host host') : normalizedHost host = normalizedHost host' := by
  rcases hform with ⟨hopen, hclose⟩ | ⟨literal, rfl, hopen, hclose⟩
  · rcases hform' with ⟨hopen', hclose'⟩ | ⟨literal', rfl, -, -⟩
    · rw [normalizedHost_plain hopen hclose, normalizedHost_plain hopen' hclose', hsame]
    · exact absurd (sameHost_literal hsame.symm) hopen
  · rcases hform' with ⟨hopen', -⟩ | ⟨literal', rfl, hopen', hclose'⟩
    · exact absurd (sameHost_literal hsame) hopen'
    · rw [SameHost, trimEnd_literal, trimEnd_literal] at hsame
      have hlower : toAsciiLowercase literal = toAsciiLowercase literal' := by
        simpa [toAsciiLowercase] using hsame
      rw [normalizedHost_literal hopen hclose, normalizedHost_literal hopen' hclose',
        ← trimEnd_toAsciiLowercase (by decide) (by decide), ← trimEnd_toAsciiLowercase (by decide) (by decide), hlower]

theorem canonicalConnectDestinationKey_of_port {destination : Str} {authority : Authority} {port : UInt16}
    (h : parseAuthority destination = .ok authority) (hport : authority.portU16 = some port) (hzero : port ≠ 0) :
    canonicalConnectDestinationKey parseAuthority destination =
      .ok (formatHostPort (normalizedHost authority.host) port) := by
  unfold canonicalConnectDestinationKey
  rw [h]
  simp [Except.mapError, Fallible.ok_bind, hport, Option.filter, hzero]

/-- Destinations with equal keys have equal ports, equal normal forms of their hosts, and one verdict; and spellings of
a host that differ in the case of letters, in trailing dots or in the userinfo before it have one key, where the port is
usable. -/
theorem destination_key_determines_verdict (parseAuthority : ParseAuthority) :
    (∀ d₁ d₂ key, canonicalConnectDestinationKey parseAuthority d₁ = .ok key →
      canonicalConnectDestinationKey parseAuthority d₂ = .ok key →
      ∃ a₁ a₂, parseAuthority d₁ = .ok a₁ ∧ parseAuthority d₂ = .ok a₂ ∧ a₁.portU16 = a₂.portU16 ∧
        normalizedHost a₁.host = normalizedHost a₂.host ∧
        connectDestinationAllowed parseAuthority d₁ = connectDestinationAllowed parseAuthority d₂) ∧
    ∀ d₁ d₂ port a₁ a₂, WritesPort parseAuthority d₁ port a₁ → WritesPort parseAuthority d₂ port a₂ →
      HostForm a₁.host → HostForm a₂.host → SameHost a₁.host a₂.host →
      canonicalConnectDestinationKey parseAuthority d₁ = canonicalConnectDestinationKey parseAuthority d₂ ∧
        ∀ n, a₁.portU16 = some n → n ≠ 0 → ∃ key, canonicalConnectDestinationKey parseAuthority d₁ = .ok key ∧
          canonicalConnectDestinationKey parseAuthority d₂ = .ok key := by
  refine ⟨?_, ?_⟩
  · intro d₁ d₂ key h₁ h₂
    obtain ⟨a₁, port₁, hparse₁, hport₁, -, rfl⟩ := canonicalConnectDestinationKey_eq_ok h₁
    obtain ⟨a₂, port₂, hparse₂, hport₂, -, hkey⟩ := canonicalConnectDestinationKey_eq_ok h₂
    obtain ⟨hhost, rfl⟩ := formatHostPort_inj hkey
    refine ⟨a₁, a₂, hparse₁, hparse₂, hport₁.trans hport₂.symm, hhost, ?_⟩
    rw [connectDestinationAllowed_of_parse hparse₁, connectDestinationAllowed_of_parse hparse₂, hhost]
  · intro d₁ d₂ port a₁ a₂ h₁ h₂ hform₁ hform₂ hsame
    have hequal : canonicalConnectDestinationKey parseAuthority d₁ = canonicalConnectDestinationKey parseAuthority d₂ := by
      unfold canonicalConnectDestinationKey
      rw [h₁.parse, h₂.parse]
      simp only [Except.mapError, Fallible.ok_bind, h₁.portU16, h₂.portU16, normalizedHost_congr hform₁ hform₂ hsame]
    refine ⟨hequal, fun n hn hzero => ?_⟩
    have hkey := canonicalConnectDestinationKey_of_port h₁.parse hn hzero
    exact ⟨_, hkey, hequal.symm.trans hkey⟩

theorem destination_key_determines_verdict_site :
    ∃ key, canonicalConnectDestinationKey cutAuthority "Example.com.:8080".toList = .ok key ∧
      canonicalConnectDestinationKey cutAuthority "example.com:8080".toList = .ok key := by
  have hwrites : WritesPort cutAuthority "Example.com.:8080".toList "8080".toList
      ⟨"Example.com.".toList, some 8080⟩ := by
    refine ⟨Fallible.toOption_eq_some.1 (by decide +kernel), ⟨[], by decide⟩, by decide, by decide, ?_⟩
    decide +kernel
  exact ((destination_key_determines_verdict cutAuthority).2 _ _ _ _ _ hwrites site_writes_port
    (.inl (by decide +kernel)) (.inl (by decide +kernel)) (by unfold SameHost; decide +kernel)).2 8080
    (by decide +kernel) (by decide)

/-! ### Origins -/

theorem addressAllowed_of_cacheAddressAllowed {address : IpAddr} (h : cacheAddressAllowed address = true) :
    addressAllowed address = true := by
  cases address with
  | v4 octets =>
    have hbroadcast : isBroadcast octets = true → octet octets 0 = 255 := by
      rw [isBroadcast, beq_iff_eq]
      rintro rfl
      rfl
    have hunspecified : isUnspecified4 octets = true → octet octets 0 = 0 := by
      rw [isUnspecified4, beq_iff_eq]
      rintro rfl
      rfl
    simp only [cacheAddressAllowed, addressAllowed, isPrivate, isLoopback4, isLinkLocal, isMulticast4,
      Bool.not_eq_true', ← Bool.not_eq_true, Bool.or_eq_true, Bool.and_eq_true, beq_iff_eq, decide_eq_true_eq] at h ⊢
    obtain ⟨h, hhigh⟩ := not_or.1 h
    simp only [not_or] at h
    obtain ⟨⟨⟨⟨⟨⟨⟨⟨⟨⟨⟨hzero, hten⟩, hloopback⟩, -⟩, hlinkLocal⟩, hprivate⟩, -⟩, -⟩, hprivate'⟩, -⟩, -⟩, -⟩ := h
    refine ⟨⟨⟨⟨⟨?_, hloopback⟩, hlinkLocal⟩, fun h' => ?_⟩, fun h' => hzero (hunspecified h')⟩, fun h' => hhigh h'.1⟩
    · rintro ((h' | h') | h')
      · exact hten h'
      · exact hprivate h'
      · exact hprivate' h'
    · have := hbroadcast h'
      omega
  | v6 segments =>
    simp only [cacheAddressAllowed, Bool.and_eq_true] at h
    obtain ⟨⟨⟨⟨⟨⟨⟨-, hloopback⟩, hunspecified⟩, hmulticast⟩, hunique⟩, hlink⟩, -⟩, -⟩ := h
    simp only [addressAllowed, hloopback, hunspecified, hmulticast, hunique, hlink, Bool.and_self]

theorem isLocalName_of_cacheOriginHostAllowed {host : Str} (h : cacheOriginHostAllowed host = true) :
    isLocalName host = false := by
  rw [← Bool.not_eq_true]
  intro hlocal
  rw [cacheOriginHostAllowed, if_pos hlocal] at h
  cases h

/-- A host that the cache allows is an address or made of nonempty labels, so nothing is left to trim off. -/
theorem allowed_host_trimmed {host : Str} (h : cacheOriginHostAllowed host = true) :
    '[' ∉ host ∧ ']' ∉ host ∧ trimEnd (· == '.') host = host := by
  have hlocal := isLocalName_of_cacheOriginHostAllowed h
  unfold cacheOriginHostAllowed at h
  rw [if_neg (by simp [hlocal])] at h
  cases haddress : IpAddr.parse host with
  | some address =>
    have htext := addressText_of_parse haddress
    exact ⟨bracket_notMem htext (.inl rfl), bracket_notMem htext (.inr rfl), trimEnd_address htext⟩
  | none =>
    rw [haddress] at h
    dsimp only at h
    split_ifs at h
    rw [Bool.and_eq_true, List.all_eq_true] at h
    have hlabel : ∀ label ∈ host.splitOn '.', label ≠ [] ∧ ∀ c ∈ label, c.isAlphanum = true ∨ c = '-' := by
      intro label hlabel
      have hvalid := h.2 label hlabel
      simp only [isHostLabel, Bool.and_eq_true, List.all_eq_true, Bool.or_eq_true, beq_iff_eq, Bool.not_eq_true',
        List.isEmpty_eq_false_iff] at hvalid
      exact ⟨hvalid.1.1.1.1, hvalid.2⟩
    have hnotMem : ∀ c : Char, c ≠ '.' → c.isAlphanum = false → c ≠ '-' → c ∉ host := by
      intro c hdot halphanum hhyphen hmem
      obtain ⟨label, hpiece, hc⟩ := exists_mem_splitOn hmem hdot
      rcases (hlabel label hpiece).2 c hc with hchar | hchar
      · rw [halphanum] at hchar
        cases hchar
      · exact hhyphen hchar
    refine ⟨hnotMem '[' (by decide) (by decide) (by decide), hnotMem ']' (by decide) (by decide) (by decide),
      trimEnd_of_getLast? fun c hlast => ?_⟩
    rw [beq_eq_false_iff_ne]
    rintro rfl
    obtain ⟨init, rfl⟩ := List.getLast?_eq_some_iff.1 hlast
    have hsplit := List.splitOn_append_cons_self (a := '.') init []
    exact (hlabel [] (by rw [hsplit]; simp)).1 rfl

/-- What the cache allows, a tunnel may reach. -/
theorem connectDestinationAllowed_of_cacheOriginHostAllowed {destination : Str} {authority : Authority}
    (hparse : parseAuthority destination = .ok authority)
    (h : cacheOriginHostAllowed (normalizedHost authority.host) = true) :
    connectDestinationAllowed parseAuthority destination = .ok true := by
  have hlocal := isLocalName_of_cacheOriginHostAllowed h
  rw [connectDestinationAllowed_of_parse hparse]
  unfold cacheOriginHostAllowed at h
  rw [if_neg (by simp [hlocal])] at h
  cases haddress : IpAddr.parse (normalizedHost authority.host) with
  | none => simp [hlocal]
  | some address =>
    rw [haddress] at h
    simp [hlocal, addressAllowed_of_cacheAddressAllowed h]

/-- A host as it stands in an authority. -/
def hostText (host : Str) : Str := if ':' ∈ host then '[' :: host ++ [']'] else host

/-- The canonical text of a host that the cache allows, with a port, is an authority of that host and port. -/
def ReadsAllowedHosts (parseAuthority : ParseAuthority) : Prop :=
  ∀ host port, cacheOriginHostAllowed host = true → port ≠ 0 → ReadsHost parseAuthority (hostText host) port

theorem normalizedHost_hostText {host : Str} (hlower : toAsciiLowercase host = host)
    (h : cacheOriginHostAllowed host = true) : normalizedHost (hostText host) = host := by
  obtain ⟨hopen, hclose, htrim⟩ := allowed_host_trimmed h
  unfold hostText
  split_ifs
  · rw [normalizedHost_literal hopen hclose, htrim, hlower]
  · rw [normalizedHost_plain hopen hclose, htrim, hlower]

/-- Cutting at the last colon reads every host back. -/
theorem cutAuthority_readsAllowedHosts : ReadsAllowedHosts cutAuthority := by
  intro host port _ _
  have hport : parseU16 (Nat.toDigits 10 port.toNat) = some port := by
    rw [parseU16_eq_some]
    have hdigits : ∀ c ∈ Nat.toDigits 10 port.toNat, c.isDigit = true := fun c hc =>
      Nat.isDigit_of_mem_toDigits (by decide) (by decide) hc
    have hplus : (Nat.toDigits 10 port.toNat).head? ≠ some '+' := fun h =>
      absurd (hdigits _ (List.mem_of_head? h)) (by decide)
    have hempty : (Nat.toDigits 10 port.toNat).isEmpty = false := by
      rw [List.isEmpty_eq_false_iff]
      exact Nat.toDigits_ne_nil
    simp [parseDecimal, hplus, hempty, List.all_eq_true.2 hdigits]
  have hcut : splitOnce ':' (hostText host ++ ':' :: Nat.toDigits 10 port.toNat).reverse =
      some ((Nat.toDigits 10 port.toNat).reverse, (hostText host).reverse) := by
    rw [splitOnce_eq_some]
    refine ⟨fun hmem => colon_notMem_digits _ _ (List.mem_reverse.1 hmem) rfl, ?_⟩
    simp
  rw [ReadsHost, cutAuthority, hcut]
  simp [hport]

/-- Whatever the operator may configure is reachable: the filter of the cache is as strict as that of the tunnels at
least, and an accepted origin names the destination of its host and port. -/
theorem cacheable_origin_is_reachable (hreads : ReadsAllowedHosts parseAuthority) :
    (∀ destination authority, parseAuthority destination = .ok authority →
      cacheOriginHostAllowed (normalizedHost authority.host) = true →
      connectDestinationAllowed parseAuthority destination = .ok true) ∧
    ∀ text origin, canonicalConfiguredHttpOrigin parseAuthority text = .ok origin →
      ∃ scheme rest authority host port, splitOnceAt "://".toList text = some (scheme, rest) ∧
        parseAuthority rest = .ok authority ∧ normalizedAuthority authority "http".toList = (host, port) ∧
        connectDestinationAllowed parseAuthority (formatHostPort host port) = .ok true ∧
        ∃ key, canonicalConnectDestinationKey parseAuthority (formatHostPort host port) = .ok key ∧
          origin = "http://".toList ++ key := by
  refine ⟨fun _ _ => connectDestinationAllowed_of_cacheOriginHostAllowed, fun text origin h => ?_⟩
  obtain ⟨scheme, rest, authority, hsplit, hparse, hport, hallowed, rfl⟩ := canonicalConfiguredHttpOrigin_spec h
  have hlower : toAsciiLowercase (normalizedHost authority.host) = normalizedHost authority.host :=
    toAsciiLowercase_idem _
  have hhost : normalizedHost (hostText (normalizedAuthority authority "http".toList).1) =
      (normalizedAuthority authority "http".toList).1 := normalizedHost_hostText hlower hallowed
  have hauthority := hreads _ _ hallowed hport
  have hkey := canonicalConnectDestinationKey_of_parse hauthority hport
  refine ⟨scheme, rest, authority, _, _, hsplit, hparse, rfl, ?_, _, hkey, ?_⟩
  · exact connectDestinationAllowed_of_cacheOriginHostAllowed hauthority (hhost.symm ▸ hallowed)
  · exact congrArg (fun host => formatCanonicalOrigin "http".toList host _) hhost.symm

theorem cacheable_origin_is_reachable_site : ∃ host port key,
    connectDestinationAllowed cutAuthority (formatHostPort host port) = .ok true ∧
      canonicalConnectDestinationKey cutAuthority (formatHostPort host port) = .ok key ∧
      "http://[2606:4700::1111]:80".toList = "http://".toList ++ key := by
  have haccepted : canonicalConfiguredHttpOrigin cutAuthority "HTTP://[2606:4700::1111]:80".toList =
      .ok "http://[2606:4700::1111]:80".toList := Fallible.toOption_eq_some.1 (by decide +kernel)
  obtain ⟨-, -, -, host, port, -, -, -, hallowed, key, hkey, horigin⟩ :=
    (cacheable_origin_is_reachable cutAuthority_readsAllowedHosts).2 _ _ haccepted
  exact ⟨host, port, key, hallowed, hkey, horigin⟩

end Cobra
