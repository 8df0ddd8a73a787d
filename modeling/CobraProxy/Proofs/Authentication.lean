import CobraProxy.Proofs.Credentials

/-! What `authenticate_ingress` decides in a reachable state, and that revocation is permanent. -/

namespace Cobra

open Text

namespace Database

variable {db : Database}

/-- `account` reads back the columns of an account row of a valid database. -/
theorem Valid.account (h : Valid db) {accountId : AccountId} {a : AccountRow} {limits : AccountLimits}
    {values : DatabaseLimitValues} (ha : db.accounts.get accountId.raw = some a)
    (hvalues : limits.databaseValues = .ok values)
    (hstored : db.accountLimits.lookup accountId.raw = some values) :
    ∃ status, AccountStatus.fromDatabase a.status = .ok status ∧ (status = .active ↔ a.status = "active") ∧
      db.account accountId = .ok ⟨accountId, a.email, a.stripeCustomerId,
        ⟨a.plan, h.accountPlan _ a ha⟩, status, limits⟩ := by
  obtain ⟨status, hstatus, hactive⟩ := accountStatus_ok (h.accountStatus _ a ha)
  refine ⟨status, hstatus, hactive, ?_⟩
  simp only [Database.account, ha, hstored, Option.bind_eq_bind, Option.bind_some, Option.pure_def,
    planCode_new_of (h.accountPlan _ a ha), hstatus, AccountLimits.fromDatabase_databaseValues hvalues]
  rfl

theorem Valid.account_exists (h : Valid db) {accountId : AccountId} {record : AccountRecord}
    (hr : db.account accountId = .ok record) : ∃ a values, db.accounts.get accountId.raw = some a ∧
      record.limits.databaseValues = .ok values ∧ db.accountLimits.lookup accountId.raw = some values ∧
      (record.status = .active ↔ a.status = "active") := by
  cases ha : db.accounts.get accountId.raw with
  | none => simp [Database.account, ha] at hr
  | some a =>
    obtain ⟨limits, values, hvalues, hstored⟩ := h.accountLimits _ a ha
    obtain ⟨status, -, hactive, heq⟩ := h.account ha hvalues hstored
    rw [heq] at hr
    obtain rfl := Except.ok.inj hr
    exact ⟨a, values, rfl, hvalues, hstored, hactive⟩

theorem Valid.workspace_eq_ok (h : Valid db) {workspaceId : WorkspaceId} {accountId : AccountId} :
    (∃ record, db.workspace workspaceId = .ok record ∧ record.status = .active ∧
      record.accountId = accountId) ↔
    ∃ w, db.workspaces.get workspaceId.raw = some w ∧ w.status = "active" ∧
      w.accountId = accountId.raw := by
  cases hw : db.workspaces.get workspaceId.raw with
  | none => simp [Database.workspace, hw]
  | some w =>
    obtain ⟨hstatus, hacc⟩ := h.workspaces _ w hw
    obtain ⟨status, hs, hactive⟩ := workspaceStatus_ok hstatus
    obtain ⟨a, ha⟩ := Option.isSome_iff_exists.1 hacc
    obtain ⟨hpos, hlt⟩ := Table.get_bounds ha
    have hid : PrivateIdentifier.fromDatabase .account w.accountId = .ok ⟨w.accountId, hpos, hlt⟩ :=
      fromDatabase_eq_ok.2 rfl
    have heq : db.workspace workspaceId = .ok ⟨workspaceId, ⟨w.accountId, hpos, hlt⟩, w.name, status⟩ := by
      simp only [Database.workspace, hw, hid, hs]
      rfl
    simp only [heq, Except.ok.injEq, exists_eq_left', Option.some.injEq, hactive,
      PrivateIdentifier.ext_iff]

end Database

/-- The string is a key that was handed out, and the key, its account, its workspace and the device
are active and belong together. -/
structure Authenticates (s : ManagerSystem) (proxyAuthorization : Str)
    (fingerprint : CertificateFingerprint) (identity : IngressIdentity) : Prop where
  key : ∃ key ∈ s.issued, key.id = identity.apiKeyId ∧
    extractProxyAuthApiKey proxyAuthorization = .ok key.secret
  keyRow : ∃ row, s.database.apiKeys.get identity.apiKeyId.raw = some row ∧ row.status = "active" ∧
    row.accountId = identity.accountId.raw ∧ row.workspaceId = identity.workspaceId.raw
  account : ∃ record, s.database.account identity.accountId = .ok record ∧ record.status = .active ∧
    record.limits = identity.limits
  workspace : ∃ record, s.database.workspace identity.workspaceId = .ok record ∧
    record.status = .active ∧ record.accountId = identity.accountId
  device : (identity.deviceCredentialId, fingerprint) ∈ s.registered ∧ ∃ row,
    s.database.deviceCredentials.get identity.deviceCredentialId.raw = some row ∧
    row.status = "active" ∧ row.accountId = identity.accountId.raw ∧
    row.workspaceId = identity.workspaceId.raw

namespace ManagerSystem

variable {hasher : ApiKeyHasher} {s : ManagerSystem}

/-- The key row that a public id of a reachable state stands for, as the verdict needs it. -/
theorem Linked.authenticate_of_row (h : Linked hasher s) {id : ℕ} {k : ApiKeyRow}
    (hk : s.database.apiKeys.get id = some k) : ∃ (apiKeyId : ApiKeyId) (accountId : AccountId)
      (workspaceId : WorkspaceId) (a : AccountRow) (w : WorkspaceRow) (limits : AccountLimits)
      (values : DatabaseLimitValues), apiKeyId.raw = id ∧ accountId.raw = k.accountId ∧
      workspaceId.raw = k.workspaceId ∧ s.database.Joined k a w limits values := by
  obtain ⟨a, w, limits, values, hj⟩ := h.valid.joined hk
  obtain ⟨hkp, hkl⟩ := Table.get_bounds hk
  obtain ⟨hap, hal⟩ := Table.get_bounds hj.account
  obtain ⟨hwp, hwl⟩ := Table.get_bounds hj.workspace
  exact ⟨⟨id, hkp, hkl⟩, ⟨_, hap, hal⟩, ⟨_, hwp, hwl⟩, a, w, limits, values, rfl, rfl, rfl, hj⟩

theorem Linked.authenticates_of_ok (h : Linked hasher s) {header : Str}
    {fingerprint : CertificateFingerprint} {identity : IngressIdentity}
    (hcoll : ∀ presented, extractProxyAuthApiKey header = .ok presented → ∀ key ∈ s.issued,
      hasher.digest presented = hasher.digest key.secret → presented = key.secret)
    (hok : s.database.authenticateIngress hasher header fingerprint = .ok identity) :
    Authenticates s header fingerprint identity := by
  simp only [Database.authenticateIngress, Fallible.bind_eq_ok, Fallible.mapError_eq_ok] at hok
  obtain ⟨presented, hext, publicId, hparse, hauth⟩ := hok
  by_cases hrow : ∃ id k, s.database.apiKeys.get id = some k ∧ k.publicId = publicId
  · obtain ⟨_, k, hk, rfl⟩ := hrow
    obtain ⟨apiKeyId, accountId, workspaceId, a, w, limits, values, rfl, hacc, hws, hj⟩ :=
      h.authenticate_of_row hk
    rw [hj.authenticate h.valid hk hacc hws] at hauth
    simp only [Fallible.ite_error_eq_ok, ne_eq, not_not] at hauth
    obtain ⟨hhash, hkactive, haactive, hwactive, hdev⟩ := hauth
    split at hdev
    · cases hdev
    · rename_i deviceId d hl
      simp only [Fallible.ite_error_eq_ok, not_not, not_or, Fallible.map_eq_ok,
        Database.orStorage, Fallible.mapError_eq_ok] at hdev
      obtain ⟨hdactive, ⟨hdacc, hdws⟩, deviceCredentialId, hdid, rfl⟩ := hdev
      rw [Database.fromDatabase_eq_ok] at hdid
      subst hdid
      obtain ⟨hd, hf⟩ := (Database.deviceLookup_eq_some h.valid).1 hl
      obtain ⟨key, hkey, hkid⟩ := h.keyRows _ k hk
      obtain ⟨row, hrow, -, hkhash, -⟩ := h.issued key hkey
      rw [hkid, hk, Option.some.injEq] at hrow
      subst hrow
      have hsecret : presented = key.secret :=
        hcoll presented hext key hkey (Subtype.ext (hhash.symm.trans hkhash))
      obtain ⟨device, hdevice, hdeviceId⟩ := h.deviceRows _ d hd
      obtain ⟨row, hrow, hfp⟩ := h.registered device hdevice
      rw [hdeviceId, hd, Option.some.injEq] at hrow
      subst hrow
      obtain ⟨status, -, hactive, hrecord⟩ := h.valid.account (hacc ▸ hj.account) hj.encoded (hacc ▸ hj.stored)
      refine ⟨⟨key, hkey, PrivateIdentifier.ext hkid, hsecret ▸ hext⟩,
        ⟨k, hk, hkactive, hacc.symm, hws.symm⟩, ⟨_, hrecord, hactive.2 haactive, rfl⟩,
        h.valid.workspace_eq_ok.2 ⟨w, hws ▸ hj.workspace, hwactive, hj.scope.trans hacc.symm⟩,
        ?_, d, hd, hdactive, hdacc.trans hacc.symm, hdws.trans hws.symm⟩
      have hpair : device = (deviceCredentialId, fingerprint) :=
        Prod.ext (PrivateIdentifier.ext hdeviceId) (Subtype.ext (hfp.symm.trans hf))
      exact hpair ▸ hdevice
  · have hnone : s.database.credentialLookup publicId = none :=
      Database.credentialLookup_eq_none fun id k hk hp => hrow ⟨id, k, hk, hp⟩
    simp [Database.authenticate, hnone] at hauth

theorem Linked.ok_of_authenticates (h : Linked hasher s) {header : Str}
    {fingerprint : CertificateFingerprint} {identity : IngressIdentity}
    (ha : Authenticates s header fingerprint identity) :
    s.database.authenticateIngress hasher header fingerprint = .ok identity := by
  obtain ⟨key, hkey, hkid, hext⟩ := ha.key
  obtain ⟨k, hk, hkactive, hkacc, hkws⟩ := ha.keyRow
  obtain ⟨record, hrecord, hractive, hlimits⟩ := ha.account
  obtain ⟨hdevice, d, hd, hdactive, hdacc, hdws⟩ := ha.device
  obtain ⟨w, hw, hwactive, hwacc⟩ := h.valid.workspace_eq_ok.1 ha.workspace
  obtain ⟨a, values, hacc, hvalues, hstored, hactive⟩ := h.valid.account_exists hrecord
  obtain ⟨row, hrow, hpublic, hhash, hparse⟩ := h.issued key hkey
  rw [hkid, hk, Option.some.injEq] at hrow
  subst hrow
  obtain ⟨row, hrow, hfp⟩ := h.registered _ hdevice
  rw [hd, Option.some.injEq] at hrow
  subst hrow
  have hj : s.database.Joined k a w record.limits values :=
    ⟨hkacc ▸ hacc, hkws ▸ hw, hwacc.trans hkacc.symm, hvalues, hkacc ▸ hstored⟩
  have hl : s.database.deviceLookup fingerprint = some (identity.deviceCredentialId.raw, d) :=
    (Database.deviceLookup_eq_some h.valid).2 ⟨hd, hfp⟩
  have hid : PrivateIdentifier.fromDatabase .deviceCredential identity.deviceCredentialId.raw =
      .ok identity.deviceCredentialId := Database.fromDatabase_eq_ok.2 rfl
  have hauth := hj.authenticate h.valid hk hkacc.symm hkws.symm (hasher.digest key.secret) fingerprint
  rw [hl] at hauth
  simp only [hhash, hkactive, hactive.1 hractive, hwactive, hdactive, hdacc, hdws, hkacc, hkws,
    ne_eq, not_true_eq_false, or_self, if_false, hlimits, Database.orStorage, hid] at hauth
  simp only [Database.authenticateIngress, hext, hparse, Except.mapError, Fallible.ok_bind, ← hpublic]
  exact hauth

/-- A digest that no row stores for the public id is refused before anything else is looked at. -/
theorem Linked.invalidApiKey (h : Linked hasher s) {header presented publicId : Str}
    (fingerprint : CertificateFingerprint) (hext : extractProxyAuthApiKey header = .ok presented)
    (hparse : parseApiKeyPublicId presented = .ok publicId)
    (hrow : ∀ id k, s.database.apiKeys.get id = some k → k.publicId = publicId →
      k.keyHash ≠ (hasher.digest presented).1) :
    s.database.authenticateIngress hasher header fingerprint = .error .invalidApiKey := by
  simp only [Database.authenticateIngress, hext, hparse, Except.mapError, Fallible.ok_bind]
  by_cases hex : ∃ id k, s.database.apiKeys.get id = some k ∧ k.publicId = publicId
  · obtain ⟨_, k, hk, rfl⟩ := hex
    obtain ⟨apiKeyId, accountId, workspaceId, a, w, limits, values, rfl, hacc, hws, hj⟩ :=
      h.authenticate_of_row hk
    rw [hj.authenticate h.valid hk hacc hws, if_pos (hrow _ k hk rfl)]
  · have hnone : s.database.credentialLookup publicId = none :=
      Database.credentialLookup_eq_none fun id k hk hp => hex ⟨id, k, hk, hp⟩
    simp [Database.authenticate, hnone]

theorem Linked.ne_storage (h : Linked hasher s) (header : Str) (fingerprint : CertificateFingerprint)
    (e : AccountManagementError) :
    s.database.authenticateIngress hasher header fingerprint ≠ .error (.storage e) := by
  cases hext : extractProxyAuthApiKey header with
  | error e' => simp [Database.authenticateIngress, hext, Except.mapError]
  | ok presented =>
    obtain ⟨publicId, hparse⟩ := parse_of_extract hext
    simp only [Database.authenticateIngress, hext, hparse, Except.mapError, Fallible.ok_bind]
    by_cases hex : ∃ id k, s.database.apiKeys.get id = some k ∧ k.publicId = publicId
    · obtain ⟨_, k, hk, rfl⟩ := hex
      obtain ⟨apiKeyId, accountId, workspaceId, a, w, limits, values, rfl, hacc, hws, hj⟩ :=
        h.authenticate_of_row hk
      rw [hj.authenticate h.valid hk hacc hws]
      split_ifs <;> try simp
      split
      · simp
      · rename_i deviceId d hl
        obtain ⟨hd, -⟩ := (Database.deviceLookup_eq_some h.valid).1 hl
        obtain ⟨hpos, hlt⟩ := Table.get_bounds hd
        have hid : PrivateIdentifier.fromDatabase .deviceCredential deviceId = .ok ⟨deviceId, hpos, hlt⟩ :=
          Database.fromDatabase_eq_ok.2 rfl
        split_ifs <;> simp [Database.orStorage, hid, Except.mapError, Except.map]
    · have hnone : s.database.credentialLookup publicId = none :=
        Database.credentialLookup_eq_none fun id k hk hp => hex ⟨id, k, hk, hp⟩
      simp [Database.authenticate, hnone]

end ManagerSystem

/-- In a reachable state a string authenticates exactly when it is a key that was handed out and
every part of its scope is active; a digest that is not the stored one is an invalid key whatever
the statuses and the fingerprint; stored data never fails to decode. The hypothesis is that the
keyed digest tells the presented key from the keys handed out. -/
theorem authenticate_ingress_decides {hasher : ApiKeyHasher} {s : ManagerSystem}
    (h : s.Reachable hasher) (header : Str) (fingerprint : CertificateFingerprint)
    (hcoll : ∀ presented, extractProxyAuthApiKey header = .ok presented → ∀ key ∈ s.issued,
      hasher.digest presented = hasher.digest key.secret → presented = key.secret) :
    (∀ identity, s.database.authenticateIngress hasher header fingerprint = .ok identity ↔
      Authenticates s header fingerprint identity) ∧
    (∀ presented publicId, extractProxyAuthApiKey header = .ok presented →
      parseApiKeyPublicId presented = .ok publicId →
      (∀ id k, s.database.apiKeys.get id = some k → k.publicId = publicId →
        k.keyHash ≠ (hasher.digest presented).1) →
      ∀ fingerprint', s.database.authenticateIngress hasher header fingerprint' = .error .invalidApiKey) ∧
    ∀ e, s.database.authenticateIngress hasher header fingerprint ≠ .error (.storage e) := by
  have hl := h.linked
  refine ⟨fun identity => ⟨hl.authenticates_of_ok hcoll, hl.ok_of_authenticates⟩, ?_,
    hl.ne_storage header fingerprint⟩
  intro presented publicId hext hparse hrow fingerprint'
  exact hl.invalidApiKey fingerprint' hext hparse hrow

/-! A tenant with one account, one workspace, one key and one device. -/

/-- Stands in for keyed BLAKE3: the secret part of the key, which follows 46 fixed and public bytes. -/
def secretHasher : ApiKeyHasher := ⟨fun bytes => ⟨(bytes.drop 46 ++ List.replicate 32 0).take 32, by simp⟩⟩

def basicLimits : AccountLimits := ⟨.ofNat 10, .ofNat 10, .ofNat 10, none, none⟩

def zeroDraw : KeyDraw := (.replicate 12 0, .replicate 32 0)

def zeroFingerprint : CertificateFingerprint := ByteVec.replicate 32 0

def tenantActs : List ManagerAct :=
  [.createAccount "a@b".toList none .basic basicLimits,
    .createWorkspace (.ofNat 1) "main".toList,
    .issueApiKey (.ofNat 1) (.ofNat 1) "key".toList .epoch fun _ => some zeroDraw,
    .registerDeviceCredential (.ofNat 1) (.ofNat 1) zeroFingerprint "device".toList .epoch]

def tenant : ManagerSystem := tenantActs.foldl (ManagerSystem.step secretHasher) .empty

theorem tenant_reachable : tenant.Reachable secretHasher :=
  Runs.Run.of_foldl (ManagerSystem.step secretHasher) tenantActs .empty

def tenantSecret : Str := "pxy_AAAAAAAAAAAAAAAA.AAAAAAAAAAAAAAAAAAAAAAAAAAAAAAAAAAAAAAAAAAA".toList

def tenantHeader : Str :=
  "Basic ".toList ++ Base64.encode Base64.standard true (utf8 (tenantSecret ++ [':']))

theorem extract_tenantHeader : extractProxyAuthApiKey tenantHeader = .ok tenantSecret :=
  Fallible.toOption_eq_some.1 (by decide +kernel)

theorem tenant_issued : tenant.issued = [⟨.ofNat 1, "AAAAAAAAAAAAAAAA".toList, tenantSecret⟩] := by
  decide +kernel

theorem authenticate_ingress_decides_tenant : tenant.Reachable secretHasher ∧
    Authenticates tenant tenantHeader zeroFingerprint ⟨.ofNat 1, .ofNat 1, .ofNat 1, .ofNat 1, basicLimits⟩ := by
  have hcoll : ∀ presented, extractProxyAuthApiKey tenantHeader = .ok presented →
      ∀ key ∈ tenant.issued, secretHasher.digest presented = secretHasher.digest key.secret →
        presented = key.secret := by
    intro presented hext key hkey _
    rw [extract_tenantHeader] at hext
    rw [tenant_issued, List.mem_singleton] at hkey
    rw [hkey, ← Except.ok.inj hext]
  refine ⟨tenant_reachable, ?_⟩
  have hdecides := authenticate_ingress_decides tenant_reachable tenantHeader zeroFingerprint hcoll
  exact (hdecides.1 _).1 (Fallible.toOption_eq_some.1 (by decide +kernel))

end Cobra
