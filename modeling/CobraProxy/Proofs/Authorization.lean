import CobraProxy.Lib.Fallible
import CobraProxy.Proofs.Credentials

/-! The grammar of a proxy authorization: what `extract_proxy_auth_api_key` accepts, and that it accepts every key
that is generated. -/

namespace Cobra

open Text

/-- A key of the form `pxy_<public id>.<secret>`. -/
def IsApiKey (publicId key : Str) : Prop :=
  ∃ secret, key = apiKeyMarker ++ publicId ++ '.' :: secret ∧ publicId.length = 16 ∧ secret.length = 43 ∧
    (∀ c ∈ publicId, isBase64UrlByte c = true) ∧ ∀ c ∈ secret, isBase64UrlByte c = true

/-- A header value of two words, `Basic` in any case and the base64 text of the key and a colon. -/
def IsAuthorization (header key : Str) : Prop :=
  byteLen header ≤ MAX_PROXY_AUTHORIZATION_BYTES ∧ ∃ scheme,
    splitAsciiWhitespace header = [scheme, Base64.encode Base64.standard true (utf8 (key ++ [':']))] ∧
    eqIgnoreAsciiCase scheme "Basic".toList = true ∧ ∃ publicId, IsApiKey publicId key

theorem isAscii_of_isBase64UrlByte {c : Char} (h : isBase64UrlByte c = true) : isAscii c = true := by
  simp only [isBase64UrlByte, Char.isAlphanum, Char.isAlpha, Char.isUpper, Char.isLower, Char.isDigit, ge_iff_le,
    Bool.or_eq_true, Bool.and_eq_true, decide_eq_true_eq, UInt32.le_iff_toNat_le, beq_iff_eq] at h
  simp only [isAscii, decide_eq_true_eq]
  rcases h with ((((⟨-, h⟩ | ⟨-, h⟩) | ⟨-, h⟩) | rfl) | rfl)
  · exact lt_of_le_of_lt h (by decide)
  · exact lt_of_le_of_lt h (by decide)
  · exact lt_of_le_of_lt h (by decide)
  · decide
  · decide

theorem byteLen_of_base64Url {s : Str} (h : ∀ c ∈ s, isBase64UrlByte c = true) : byteLen s = s.length :=
  byteLen_of_ascii fun c hc => isAscii_of_isBase64UrlByte (h c hc)

theorem notMem_base64Url {s : Str} (h : ∀ c ∈ s, isBase64UrlByte c = true) {c : Char}
    (hc : isBase64UrlByte c = false) : c ∉ s := by
  intro hmem
  rw [h c hmem] at hc
  cases hc

theorem parseApiKeyPublicId_eq_ok {key publicId : Str} :
    parseApiKeyPublicId key = .ok publicId ↔ IsApiKey publicId key := by
  constructor
  · intro h
    unfold parseApiKeyPublicId at h
    split at h
    · rename_i body hbody
      split at h
      · rename_i p secret hsplit
        simp only [Fallible.throw_eq_error, Fallible.error_bind, Fallible.ite_error_eq_ok, Fallible.pure_eq_ok,
          Except.ok.injEq, not_or, not_not, Bool.not_eq_true', Bool.not_eq_false] at h
        obtain ⟨⟨hplen, hslen, -, hpall, hsall⟩, rfl⟩ := h
        obtain ⟨-, rfl⟩ := splitOnce_eq_some.1 hsplit
        obtain ⟨marker, rfl, hmarker⟩ := List.dropPrefix?_eq_some_iff.1 hbody
        have hp := List.all_eq_true.1 hpall
        have hs := List.all_eq_true.1 hsall
        refine ⟨secret, ?_, ?_, ?_, hp, hs⟩
        · rw [eq_of_beq hmarker, List.append_assoc]
        · rw [← byteLen_of_base64Url hp, hplen]
        · rw [← byteLen_of_base64Url hs, hslen]
      · cases h
    · cases h
  · rintro ⟨secret, rfl, hplen, hslen, hp, hs⟩
    have hbody : (apiKeyMarker ++ publicId ++ '.' :: secret).dropPrefix? apiKeyMarker =
        some (publicId ++ '.' :: secret) := by
      rw [List.dropPrefix?_eq_some_iff]
      exact ⟨apiKeyMarker, List.append_assoc .., beq_self_eq_true _⟩
    have hsplit : splitOnce '.' (publicId ++ '.' :: secret) = some (publicId, secret) :=
      splitOnce_eq_some.2 ⟨notMem_base64Url hp (by decide), rfl⟩
    have hdot : '.' ∉ secret := notMem_base64Url hs (by decide)
    simp only [parseApiKeyPublicId, hbody, hsplit, byteLen_of_base64Url hp, byteLen_of_base64Url hs, hplen, hslen,
      List.all_eq_true.2 hp, List.all_eq_true.2 hs, hdot]
    rfl

theorem colon_notMem_apiKey {publicId key : Str} (h : IsApiKey publicId key) : ':' ∉ key := by
  obtain ⟨secret, rfl, -, -, hp, hs⟩ := h
  have hp := notMem_base64Url hp (c := ':') (by decide)
  have hs := notMem_base64Url hs (c := ':') (by decide)
  have hmarker : ':' ∉ apiKeyMarker := by decide
  simp [hp, hs, hmarker]

/-- A header value is accepted exactly when it is an authorization, and with its key. -/
theorem extractProxyAuthApiKey_eq_ok {header key : Str} :
    extractProxyAuthApiKey header = .ok key ↔ IsAuthorization header key := by
  constructor
  · intro h
    simp only [extractProxyAuthApiKey, Fallible.throw_eq_error, Fallible.error_bind,
      Fallible.ite_error_eq_ok] at h
    obtain ⟨hlen, h⟩ := h
    split at h
    · rename_i scheme encoded hsplit
      rw [Fallible.ite_error_eq_ok] at h
      obtain ⟨hbasic, h⟩ := h
      split at h
      · rename_i decoded hdecoded
        split at h
        · rename_i text htext
          split at h
          · rename_i apiKey password hcut
            simp only [Fallible.ite_error_eq_ok, Fallible.bind_eq_ok, Fallible.pure_eq_ok, Except.ok.injEq] at h
            obtain ⟨hpassword, publicId, hkey, rfl⟩ := h
            obtain ⟨-, rfl⟩ := splitOnce_eq_some.1 hcut
            obtain rfl : password = [] := by simpa using hpassword
            rw [Base64.decode_eq_some, ← fromUtf8_eq_some.1 htext] at hdecoded
            refine ⟨by omega, scheme, by rw [hsplit, hdecoded], by simpa using hbasic, publicId, ?_⟩
            exact parseApiKeyPublicId_eq_ok.1 hkey
          · cases h
        · cases h
      · cases h
    · cases h
  · rintro ⟨hlen, scheme, hsplit, hbasic, publicId, hkey⟩
    have hcut : splitOnce ':' (key ++ [':']) = some (key, []) :=
      splitOnce_eq_some.2 ⟨colon_notMem_apiKey hkey, rfl⟩
    have hlen : ¬ MAX_PROXY_AUTHORIZATION_BYTES < byteLen header := by omega
    simp only [extractProxyAuthApiKey, if_neg hlen, hsplit, hbasic, Base64.decode_encode, fromUtf8_utf8, hcut,
      parseApiKeyPublicId_eq_ok.2 hkey]
    rfl

/-! ### Generated keys -/

/-- The header value that a client sends for a key. -/
def authorizationOf (key : Str) : Str :=
  "Basic ".toList ++ Base64.encode Base64.standard true (utf8 (key ++ [':']))

theorem byteLen_apiKey {publicId key : Str} (h : IsApiKey publicId key) : (utf8 (key ++ [':'])).length = 65 := by
  obtain ⟨secret, rfl, hplen, hslen, hp, hs⟩ := h
  have hascii : ∀ c ∈ apiKeyMarker ++ publicId ++ '.' :: secret ++ [':'], isAscii c = true := by
    intro c hc
    simp only [List.mem_append, List.mem_cons, List.not_mem_nil, or_false] at hc
    rcases hc with ((hc | hc) | (rfl | hc)) | rfl
    · exact List.all_eq_true.1 (show apiKeyMarker.all isAscii = true by decide) c hc
    · exact isAscii_of_isBase64UrlByte (hp c hc)
    · decide
    · exact isAscii_of_isBase64UrlByte (hs c hc)
    · decide
  have hmarker : apiKeyMarker.length = 4 := by decide
  rw [show (utf8 _).length = byteLen _ from rfl, byteLen_of_ascii hascii]
  simp [hplen, hslen, hmarker]

theorem encoded_char {bytes : Bytes} {c : Char} (h : c ∈ Base64.encode Base64.standard true bytes) :
    isAscii c = true ∧ isAsciiWhitespace c = false := by
  have hall : (Base64.standard ++ ['=']).all (fun c => isAscii c && !isAsciiWhitespace c) = true := by decide
  have hmem : c ∈ Base64.standard ++ ['='] := by
    rcases Base64.encode_mem Base64.standard_length true bytes c h with hc | ⟨-, rfl⟩
    · exact List.mem_append_left _ hc
    · simp
  simpa using List.all_eq_true.1 hall c hmem

/-- The header value of a well-formed key is an authorization: it has 94 bytes and two words. -/
theorem isAuthorization_of_isApiKey {publicId key : Str} (h : IsApiKey publicId key) :
    IsAuthorization (authorizationOf key) key := by
  set encoded := Base64.encode Base64.standard true (utf8 (key ++ [':'])) with hencoded
  have hlength : encoded.length = 88 := by
    rw [hencoded, Base64.encode_padded_length, byteLen_apiKey h]
  have hascii : ∀ c ∈ authorizationOf key, isAscii c = true := by
    intro c hc
    rcases List.mem_append.1 hc with hc | hc
    · exact List.all_eq_true.1 (show "Basic ".toList.all isAscii = true by decide) c hc
    · exact (encoded_char hc).1
  have hlen : byteLen (authorizationOf key) = 94 := by
    rw [byteLen_of_ascii hascii, authorizationOf, List.length_append, ← hencoded, hlength]
    rfl
  have hsplit : splitAsciiWhitespace (authorizationOf key) = ["Basic".toList, encoded] := by
    have hbasic : ∀ c ∈ "Basic".toList, isAsciiWhitespace c = false := by
      have hall : "Basic".toList.all (fun c => !isAsciiWhitespace c) = true := by decide
      exact fun c hc => by simpa using List.all_eq_true.1 hall c hc
    have hwords : (authorizationOf key).splitOnP isAsciiWhitespace = ["Basic".toList, encoded] := by
      show ("Basic".toList ++ ' ' :: encoded).splitOnP isAsciiWhitespace = _
      rw [List.splitOnP_append_cons_of_forall_mem hbasic ' ' (by decide),
        List.splitOnP_eq_singleton fun c hc => (encoded_char hc).2]
    have hne : encoded ≠ [] := by
      intro hnil
      rw [hnil] at hlength
      cases hlength
    rw [splitAsciiWhitespace, hwords]
    simp [hne]
  refine ⟨by rw [hlen]; decide, "Basic".toList, hsplit, by decide, publicId, h⟩

/-- Proxy authorization accepts exactly its grammar, and every generated key in it. -/
theorem authorization_accepts_grammar :
    (∀ header key, extractProxyAuthApiKey header = .ok key ↔ IsAuthorization header key) ∧
    ∀ (hasher : ApiKeyHasher) (draw : KeyDraw), ∃ generated,
      GeneratedApiKey.generate hasher (some draw) = .ok generated ∧
      extractProxyAuthApiKey (authorizationOf generated.secret) = .ok generated.secret ∧
      parseApiKeyPublicId generated.secret = .ok generated.publicId := by
  refine ⟨fun header key => extractProxyAuthApiKey_eq_ok, fun hasher draw => ?_⟩
  obtain ⟨generated, hgenerated⟩ : ∃ generated, GeneratedApiKey.generate hasher (some draw) = .ok generated :=
    ⟨_, rfl⟩
  have hparse := (generate_spec hgenerated).1
  have hkey := parseApiKeyPublicId_eq_ok.1 hparse
  exact ⟨generated, hgenerated, extractProxyAuthApiKey_eq_ok.2 (isAuthorization_of_isApiKey hkey), hparse⟩

end Cobra
