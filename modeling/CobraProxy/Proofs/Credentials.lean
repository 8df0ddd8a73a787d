import CobraProxy.Proofs.Accounts

/-! Authentication. Key rows and the keys handed out correspond in every reachable state, and so do
device rows and the certificates registered; `authenticate` is then a function of the one key row
with the presented public id and the one device row with the presented fingerprint. -/

namespace Cobra

open Text

/-! ### Generated keys parse -/

theorem urlSafe_ascii : ∀ c ∈ Base64.urlSafe, isAscii c := List.all_eq_true.1 (by decide)

theorem urlSafe_byte : ∀ c ∈ Base64.urlSafe, isBase64UrlByte c := List.all_eq_true.1 (by decide)

theorem dot_notMem_urlSafe : '.' ∉ Base64.urlSafe := by decide

/-- What `GeneratedApiKey::generate` guarantees of the key it returns. -/
theorem generate_spec {hasher : ApiKeyHasher} {draw : KeyDraw} {generated : GeneratedApiKey}
    (h : GeneratedApiKey.generate hasher (some draw) = .ok generated) :
    parseApiKeyPublicId generated.secret = .ok generated.publicId ∧
      generated.digest = hasher.digest generated.secret := by
  obtain ⟨publicBytes, secretBytes⟩ := draw
  obtain rfl := Except.ok.inj h
  refine ⟨?_, rfl⟩
  set publicId := Base64.encode Base64.urlSafe false publicBytes.1 with hp
  set secret := Base64.encode Base64.urlSafe false secretBytes.1 with hs
  have hpmem : ∀ c ∈ publicId, c ∈ Base64.urlSafe :=
    Base64.encode_unpadded_mem Base64.urlSafe_length publicBytes.1
  have hsmem : ∀ c ∈ secret, c ∈ Base64.urlSafe :=
    Base64.encode_unpadded_mem Base64.urlSafe_length secretBytes.1
  have hplen : byteLen publicId = 16 := by
    rw [byteLen_of_ascii fun c hc => urlSafe_ascii c (hpmem c hc), hp, Base64.encode_unpadded_length,
      publicBytes.2]
  have hslen : byteLen secret = 43 := by
    rw [byteLen_of_ascii fun c hc => urlSafe_ascii c (hsmem c hc), hs, Base64.encode_unpadded_length,
      secretBytes.2]
  have hbody : (apiKeyMarker ++ publicId ++ '.' :: secret).dropPrefix? apiKeyMarker =
      some (publicId ++ '.' :: secret) := by
    rw [List.dropPrefix?_eq_some_iff]
    exact ⟨apiKeyMarker, List.append_assoc .., beq_self_eq_true _⟩
  have hsplit : splitOnce '.' (publicId ++ '.' :: secret) = some (publicId, secret) :=
    splitOnce_eq_some.2 ⟨fun hc => dot_notMem_urlSafe (hpmem _ hc), rfl⟩
  have hpall : publicId.all isBase64UrlByte :=
    List.all_eq_true.2 fun c hc => urlSafe_byte c (hpmem c hc)
  have hsall : secret.all isBase64UrlByte :=
    List.all_eq_true.2 fun c hc => urlSafe_byte c (hsmem c hc)
  have hdot : '.' ∉ secret := fun hc => dot_notMem_urlSafe (hsmem _ hc)
  simp only [parseApiKeyPublicId, hbody, hsplit, hplen, hslen, hpall, hsall, hdot]
  rfl

theorem parse_of_extract {header key : Str} (h : extractProxyAuthApiKey header = .ok key) :
    ∃ publicId, parseApiKeyPublicId key = .ok publicId := by
  simp only [extractProxyAuthApiKey, Fallible.throw_eq_error, Fallible.error_bind,
    Fallible.ite_error_eq_ok] at h
  obtain ⟨-, h⟩ := h
  split at h
  · rw [Fallible.ite_error_eq_ok] at h
    obtain ⟨-, h⟩ := h
    split at h
    · split at h
      · split at h
        · simp only [Fallible.ite_error_eq_ok, Fallible.bind_eq_ok, Fallible.pure_eq_ok,
            Except.ok.injEq] at h
          obtain ⟨-, publicId, hp, rfl⟩ := h
          exact ⟨publicId, hp⟩
        · cases h
      · cases h
    · cases h
  · cases h

/-! ### The database and the credentials handed out -/

namespace ManagerSystem

structure Linked (hasher : ApiKeyHasher) (s : ManagerSystem) : Prop where
  valid : s.database.Valid
  issued : ∀ key ∈ s.issued, ∃ row, s.database.apiKeys.get key.id.raw = some row ∧
    row.publicId = key.publicId ∧ row.keyHash = (hasher.digest key.secret).1 ∧
    parseApiKeyPublicId key.secret = .ok key.publicId
  keyRows : ∀ id row, s.database.apiKeys.get id = some row → ∃ key ∈ s.issued, key.id.raw = id
  registered : ∀ device ∈ s.registered, ∃ row,
    s.database.deviceCredentials.get device.1.raw = some row ∧ row.certificateFingerprint = device.2.1
  deviceRows : ∀ id row, s.database.deviceCredentials.get id = some row →
    ∃ device ∈ s.registered, device.1.raw = id

variable {hasher : ApiKeyHasher} {s s' : ManagerSystem}

theorem Linked.empty : Linked hasher empty :=
  ⟨Database.Valid.empty, by simp [ManagerSystem.empty],
    by simp [ManagerSystem.empty, Database.empty], by simp [ManagerSystem.empty],
    by simp [ManagerSystem.empty, Database.empty]⟩

/-- An update creates no key row and no device row. -/
theorem updates_keep_credentials {db db' : Database} (h : db.Updates db') :
    (∀ id row', db'.apiKeys.get id = some row' → ∃ row, db.apiKeys.get id = some row) ∧
      ∀ id row', db'.deviceCredentials.get id = some row' →
        ∃ row, db.deviceCredentials.get id = some row := by
  induction h with
  | refl => exact ⟨fun _ row h => ⟨row, h⟩, fun _ row h => ⟨row, h⟩⟩
  | tail _ hu ih =>
    cases hu with
    | revokeApiKey id now =>
      refine ⟨fun i row' h => ?_, ih.2⟩
      obtain ⟨old, hold, -⟩ := Database.get_update_cases h
      exact ih.1 i old hold
    | revokeDevice id now =>
      refine ⟨ih.1, fun i row' h => ?_⟩
      obtain ⟨old, hold, -⟩ := Database.get_update_cases h
      exact ih.2 i old hold
    | _ => exact ih

theorem Linked.issued_of_grows (h : Linked hasher s) {db : Database} (hg : s.database.Grows db) :
    ∀ key ∈ s.issued, ∃ row, db.apiKeys.get key.id.raw = some row ∧
      row.publicId = key.publicId ∧ row.keyHash = (hasher.digest key.secret).1 ∧
      parseApiKeyPublicId key.secret = .ok key.publicId := by
  intro key hkey
  obtain ⟨row, hrow, hp, hh, hparse⟩ := h.issued key hkey
  obtain ⟨row', hrow', hp', hh', -⟩ := hg.apiKeys _ row hrow
  exact ⟨row', hrow', hp'.trans hp, hh'.trans hh, hparse⟩

theorem Linked.registered_of_grows (h : Linked hasher s) {db : Database} (hg : s.database.Grows db) :
    ∀ device ∈ s.registered, ∃ row, db.deviceCredentials.get device.1.raw = some row ∧
      row.certificateFingerprint = device.2.1 := by
  intro device hdev
  obtain ⟨row, hrow, hf⟩ := h.registered device hdev
  obtain ⟨row', hrow', hf', -⟩ := hg.devices _ row hrow
  exact ⟨row', hrow', hf'.trans hf⟩

theorem Linked.effect (h : Linked hasher s) (he : Effect hasher s s') : Linked hasher s' := by
  have hvalid := h.valid.changes he.changes
  have hg := he.changes.grows
  cases he with
  | updates hu =>
    obtain ⟨hkeys, hdevs⟩ := updates_keep_credentials hu
    refine ⟨hvalid, h.issued_of_grows hg, fun id row hr => ?_, h.registered_of_grows hg, fun id row hr => ?_⟩
    · obtain ⟨old, hold⟩ := hkeys id row hr
      exact h.keyRows id old hold
    · obtain ⟨old, hold⟩ := hdevs id row hr
      exact h.deviceRows id old hold
  | @issued draw generated id accountId workspaceId label now db₁ db hgen hins hu =>
    obtain ⟨hparse, hdigest⟩ := generate_spec hgen
    obtain ⟨apiKeys, ht, rfl, -⟩ := Database.insertApiKeyRow_eq_ok hins
    obtain ⟨hkeys, hdevs⟩ := updates_keep_credentials hu
    refine ⟨hvalid, ?_, fun i row hr => ?_, h.registered_of_grows hg, fun i row hr => ?_⟩
    · intro key hkey
      rcases List.mem_cons.1 hkey with rfl | hkey
      · obtain ⟨-, -, -, hget⟩ := Table.insert_spec ht
        have hnew := (hget id.raw).trans (if_pos rfl)
        obtain ⟨row', hrow', hp', hh', -⟩ := hu.changes.grows.apiKeys _ _ hnew
        exact ⟨row', hrow', hp', hh'.trans (congrArg Subtype.val hdigest), hparse⟩
      · exact h.issued_of_grows hg key hkey
    · obtain ⟨row₁, hrow₁⟩ := hkeys i row hr
      rcases Database.get_insert_cases ht hrow₁ with ⟨rfl, -⟩ | hold
      · exact ⟨_, List.mem_cons_self .., rfl⟩
      · obtain ⟨key, hkey, hid⟩ := h.keyRows i row₁ hold
        exact ⟨key, List.mem_cons_of_mem _ hkey, hid⟩
    · obtain ⟨old, hold⟩ := hdevs i row hr
      exact h.deviceRows i old hold
  | @registered id fingerprint row db hrow hactive hins =>
    obtain ⟨devices, ht, rfl, -⟩ := Database.insertDeviceCredentialRow_eq_ok hins
    refine ⟨hvalid, h.issued_of_grows hg, h.keyRows, ?_, fun i r hr => ?_⟩
    · intro device hdev
      rcases List.mem_cons.1 hdev with rfl | hdev
      · obtain ⟨-, -, -, hget⟩ := Table.insert_spec ht
        exact ⟨row, (hget id.raw).trans (if_pos rfl), hrow⟩
      · exact h.registered_of_grows hg device hdev
    · rcases Database.get_insert_cases ht hr with ⟨rfl, -⟩ | hold
      · exact ⟨_, List.mem_cons_self .., rfl⟩
      · obtain ⟨device, hdev, hid⟩ := h.deviceRows i r hold
        exact ⟨device, List.mem_cons_of_mem _ hdev, hid⟩

theorem Linked.usage (h : Linked hasher s) (call : UsageCall) :
    Linked hasher { s with database := (call.perform s.database).2 } := by
  have hchanges := call.perform_changes s.database
  have hcredentials : (call.perform s.database).2.apiKeys = s.database.apiKeys ∧
      (call.perform s.database).2.deviceCredentials = s.database.deviceCredentials := by
    rcases call.perform_cases s.database with hcall | ⟨snapshot, db, hcall, hrec⟩
    · rw [hcall]
      exact ⟨rfl, rfl⟩
    · rw [hcall, hrec.stored]
      exact ⟨rfl, rfl⟩
  refine ⟨h.valid.changes hchanges, h.issued_of_grows hchanges.grows, fun id row hr => ?_,
    h.registered_of_grows hchanges.grows, fun id row hr => ?_⟩
  · exact h.keyRows id row (hcredentials.1 ▸ hr)
  · exact h.deviceRows id row (hcredentials.2 ▸ hr)

theorem Reachable.linked (h : Reachable hasher s) : Linked hasher s := by
  obtain ⟨tr, hrun⟩ := h
  refine hrun.invariant Linked.empty ?_
  rintro s act _ hs rfl
  cases h : act.usageCall with
  | none => exact hs.effect (step_effect hasher s h)
  | some call =>
    rw [step_usage hasher s h]
    exact hs.usage call

end ManagerSystem

/-! ### The verdict of `authenticate` -/

namespace Database

variable {db : Database}

theorem credentialStatus_cases {status : String} (h : status ∈ credentialStatuses) :
    (status = "active" ∧ CredentialStatus.fromDatabase status = .ok .active) ∨
      (status = "revoked" ∧ CredentialStatus.fromDatabase status = .ok .revoked) := by
  simp only [credentialStatuses, List.mem_cons, List.not_mem_nil, or_false] at h
  rcases h with rfl | rfl
  · exact .inl ⟨rfl, rfl⟩
  · exact .inr ⟨rfl, rfl⟩

theorem accountStatus_ok {status : String} (h : status ∈ lifecycleStatuses) :
    ∃ decoded, AccountStatus.fromDatabase status = .ok decoded ∧ (decoded = .active ↔ status = "active") := by
  simp only [lifecycleStatuses, List.mem_cons, List.not_mem_nil, or_false] at h
  rcases h with rfl | rfl | rfl
  · exact ⟨.active, rfl, by simp⟩
  · exact ⟨.suspended, rfl, by decide⟩
  · exact ⟨.closed, rfl, by decide⟩

theorem workspaceStatus_ok {status : String} (h : status ∈ lifecycleStatuses) :
    ∃ decoded, WorkspaceStatus.fromDatabase status = .ok decoded ∧
      (decoded = .active ↔ status = "active") := by
  simp only [lifecycleStatuses, List.mem_cons, List.not_mem_nil, or_false] at h
  rcases h with rfl | rfl | rfl
  · exact ⟨.active, rfl, by simp⟩
  · exact ⟨.suspended, rfl, by decide⟩
  · exact ⟨.closed, rfl, by decide⟩

theorem credentialStatus_ok {status : String} (h : status ∈ credentialStatuses) :
    ∃ decoded, CredentialStatus.fromDatabase status = .ok decoded ∧
      (decoded = .active ↔ status = "active") := by
  rcases credentialStatus_cases h with ⟨rfl, hd⟩ | ⟨rfl, hd⟩
  · exact ⟨.active, hd, by simp⟩
  · exact ⟨.revoked, hd, by decide⟩

theorem credentialLookup_eq_none {publicId : Str}
    (h : ∀ id k, db.apiKeys.get id = some k → k.publicId ≠ publicId) :
    db.credentialLookup publicId = none := by
  have hsel : (db.apiKeys.select fun _ k => k.publicId == publicId) = [] := by
    rw [← List.isEmpty_iff, select_isEmpty_iff]
    intro i r hr
    simpa using h i r hr
  rw [credentialLookup, hsel]
  rfl

/-- The rows that the join finds for a key row of a valid database. -/
structure Joined (db : Database) (k : ApiKeyRow) (a : AccountRow) (w : WorkspaceRow)
    (limits : AccountLimits) (values : DatabaseLimitValues) : Prop where
  account : db.accounts.get k.accountId = some a
  workspace : db.workspaces.get k.workspaceId = some w
  scope : w.accountId = k.accountId
  encoded : limits.databaseValues = .ok values
  stored : db.accountLimits.lookup k.accountId = some values

theorem Valid.joined (h : Valid db) {id : ℕ} {k : ApiKeyRow} (hk : db.apiKeys.get id = some k) :
    ∃ a w limits values, Joined db k a w limits values := by
  obtain ⟨-, -, -, ha, hw⟩ := h.apiKeys id k hk
  obtain ⟨a, ha⟩ := Option.isSome_iff_exists.1 ha
  obtain ⟨w, hw, hscope⟩ := workspaceInAccount_iff.1 hw
  obtain ⟨limits, values, hvalues, hstored⟩ := h.accountLimits _ a ha
  exact ⟨a, w, limits, values, ha, hw, hscope, hvalues, hstored⟩

theorem Joined.credentialLookup (h : Valid db) {id : ℕ} {k : ApiKeyRow} {a : AccountRow}
    {w : WorkspaceRow} {limits : AccountLimits} {values : DatabaseLimitValues}
    (hk : db.apiKeys.get id = some k) (hj : Joined db k a w limits values) :
    db.credentialLookup k.publicId = some ⟨id, k.publicId, k.accountId, k.workspaceId,
      k.keyHashVersion, k.keyHash, k.status, a.status, w.status, values⟩ := by
  have hsel : (db.apiKeys.select fun _ r => r.publicId == k.publicId) = [(id, k)] :=
    Table.select_eq_singleton hk (beq_self_eq_true _) fun i r hr hp =>
      h.apiKeys_unique i id r k hr hk (by simpa using hp)
  simp [Database.credentialLookup, hsel, hj.account, hj.workspace, hj.scope, hj.stored]

theorem deviceLookup_eq_some (h : Valid db) {fingerprint : CertificateFingerprint} {id : ℕ}
    {d : DeviceCredentialRow} : db.deviceLookup fingerprint = some (id, d) ↔
      db.deviceCredentials.get id = some d ∧ d.certificateFingerprint = fingerprint.1 := by
  constructor
  · intro hl
    have hmem := List.mem_of_mem_head? (show (id, d) ∈ _ from hl)
    obtain ⟨hget, hp⟩ := Table.mem_select.1 hmem
    exact ⟨hget, by simpa using hp⟩
  · rintro ⟨hget, hf⟩
    have hsel : (db.deviceCredentials.select fun _ r => r.certificateFingerprint == fingerprint.1) =
        [(id, d)] :=
      Table.select_eq_singleton hget (by simpa using hf) fun i r hr hp =>
        h.devices_unique i id r d hr hget (by rw [hf]; simpa using hp)
    rw [deviceLookup, hsel]
    rfl

/-- On a valid database the checks come down to comparisons of stored columns, in this order. -/
theorem Joined.authenticate (h : Valid db) {k : ApiKeyRow} {a : AccountRow} {w : WorkspaceRow}
    {limits : AccountLimits} {values : DatabaseLimitValues} {apiKeyId : ApiKeyId}
    {accountId : AccountId} {workspaceId : WorkspaceId} (hk : db.apiKeys.get apiKeyId.raw = some k)
    (hj : Joined db k a w limits values) (haccount : accountId.raw = k.accountId)
    (hworkspace : workspaceId.raw = k.workspaceId) (digest : ByteVec 32)
    (fingerprint : CertificateFingerprint) :
    db.authenticate k.publicId digest fingerprint =
      if k.keyHash ≠ digest.1 then .error .invalidApiKey
      else if k.status ≠ "active" then .error .apiKeyRevoked
      else if a.status ≠ "active" then .error .accountInactive
      else if w.status ≠ "active" then .error .workspaceInactive
      else match db.deviceLookup fingerprint with
        | none => .error .unknownDevice
        | some (deviceId, d) =>
          if d.status ≠ "active" then .error .deviceRevoked
          else if d.accountId ≠ k.accountId ∨ d.workspaceId ≠ k.workspaceId then
            .error .credentialScopeMismatch
          else (orStorage (PrivateIdentifier.fromDatabase .deviceCredential deviceId)).map
            fun deviceCredentialId => ⟨accountId, workspaceId, apiKeyId, deviceCredentialId, limits⟩ := by
  obtain ⟨hversion, hhash, hstatus, -, -⟩ := h.apiKeys _ k hk
  obtain ⟨ks, hks, hksa⟩ := credentialStatus_ok hstatus
  obtain ⟨as, has, hasa⟩ := accountStatus_ok (h.accountStatus _ a hj.account)
  obtain ⟨ws, hws, hwsa⟩ := workspaceStatus_ok (h.workspaces _ w hj.workspace).1
  have hlimits := AccountLimits.fromDatabase_databaseValues hj.encoded
  have haid := fromDatabase_eq_ok.2 haccount
  have hwid := fromDatabase_eq_ok.2 hworkspace
  have hkid : PrivateIdentifier.fromDatabase .apiKey apiKeyId.raw = .ok apiKeyId :=
    fromDatabase_eq_ok.2 rfl
  simp only [Database.authenticate, hj.credentialLookup h hk, hversion, hhash, orStorage, hks, has, hws,
    hlimits, haid, hwid, hkid, ne_eq, not_true_eq_false, or_self, if_false, Except.mapError,
    Fallible.throw_eq_error, Fallible.error_bind, Fallible.ok_bind, hksa, hasa, hwsa]
  congr 4
  cases hl : db.deviceLookup fingerprint with
  | none => rfl
  | some found =>
    obtain ⟨deviceId, d⟩ := found
    obtain ⟨hd, -⟩ := (deviceLookup_eq_some h).1 hl
    obtain ⟨ds, hds, hdsa⟩ := credentialStatus_ok (h.devices _ d hd).1
    simp only [hds, Fallible.ok_bind, hdsa]
    congr 2

end Database

end Cobra
