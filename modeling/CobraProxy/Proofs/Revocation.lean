import CobraProxy.Proofs.Authentication

/-! Revocation is permanent: a revoked row stays revoked in every later state, and the UNIQUE
columns leave no other row that the same key or certificate could be looked up by. -/

namespace Cobra

open Text Runs

namespace Database

variable {db : Database}

/-- A credential update that does not report `NotFound` found a row. -/
theorem exists_of_updateOrMissing {ρ : Type} {table : Table ρ} {id : ℕ} {p : ρ → Bool} {f : ρ → ρ}
    {entity : EntityKind} {changed : Bool}
    (h : (updateOrMissing table id p f entity).1 = .ok changed) : ∃ row, table.get id = some row := by
  unfold updateOrMissing at h
  dsimp only at h
  split_ifs at h with hpos hex
  · obtain ⟨row, hrow, -⟩ := Table.changed_pos_iff.1 hpos
    exact ⟨row, hrow⟩
  · obtain ⟨row, hrow⟩ := Option.isSome_iff_exists.1 hex
    obtain ⟨old, hold, -⟩ := get_update_cases hrow
    exact ⟨old, hold⟩

theorem revoked_of_ne_active {status : String} (h : status ∈ credentialStatuses)
    (hne : status ≠ "active") : status = "revoked" := by
  rcases credentialStatus_cases h with ⟨ha, -⟩ | ⟨hr, -⟩
  · exact absurd ha hne
  · exact hr

theorem Valid.get_setRevoked (h : Valid db) {id : ℕ} {row : ApiKeyRow} (hrow : db.apiKeys.get id = some row)
    (now : UnixTimestamp) :
    ∃ row', (db.apiKeys.update id (fun r => r.status == "active") (setRevoked now)).get id = some row' ∧
      row'.status = "revoked" := by
  rw [Table.get_update, if_pos rfl, hrow]
  refine ⟨_, rfl, ?_⟩
  by_cases ha : row.status = "active"
  · simp [ha, setRevoked]
  · simpa [ha] using revoked_of_ne_active (h.apiKeys id row hrow).2.2.1 ha

theorem Valid.get_setDeviceRevoked (h : Valid db) {id : ℕ} {row : DeviceCredentialRow}
    (hrow : db.deviceCredentials.get id = some row) (now : UnixTimestamp) :
    ∃ row', (db.deviceCredentials.update id (fun r => r.status == "active")
      (setDeviceRevoked now)).get id = some row' ∧ row'.status = "revoked" := by
  rw [Table.get_update, if_pos rfl, hrow]
  refine ⟨_, rfl, ?_⟩
  by_cases ha : row.status = "active"
  · simp [ha, setDeviceRevoked]
  · simpa [ha] using revoked_of_ne_active (h.devices id row hrow).1 ha

/-- The row of a key exists and is revoked. -/
def KeyRevoked (db : Database) (id : ApiKeyId) : Prop :=
  ∃ row, db.apiKeys.get id.raw = some row ∧ row.status = "revoked"

def DeviceRevoked (db : Database) (id : DeviceCredentialId) : Prop :=
  ∃ row, db.deviceCredentials.get id.raw = some row ∧ row.status = "revoked"

theorem KeyRevoked.grows {db' : Database} {id : ApiKeyId} (h : KeyRevoked db id) (hg : Grows db db') :
    KeyRevoked db' id := by
  obtain ⟨row, hrow, hr⟩ := h
  obtain ⟨row', hrow', -, -, hr'⟩ := hg.apiKeys _ row hrow
  exact ⟨row', hrow', hr' hr⟩

theorem DeviceRevoked.grows {db' : Database} {id : DeviceCredentialId} (h : DeviceRevoked db id)
    (hg : Grows db db') : DeviceRevoked db' id := by
  obtain ⟨row, hrow, hr⟩ := h
  obtain ⟨row', hrow', -, hr'⟩ := hg.devices _ row hrow
  exact ⟨row', hrow', hr' hr⟩

end Database

namespace ManagerSystem

variable {hasher : ApiKeyHasher} {s s' : ManagerSystem} {tr : List (ManagerSystem × ManagerAct)}

/-- Rows only grow older along a run. -/
theorem grows_of_run (h : Run (Step hasher) s tr s') : s.database.Grows s'.database := by
  refine h.invariant (I := fun t => s.database.Grows t.database) (Database.Grows.refl _) ?_
  rintro t act _ ht rfl
  exact ht.trans (step_changes hasher t act).grows

theorem Reachable.after {act : ManagerAct} (h : Reachable hasher s)
    (hrun : Run (Step hasher) (s.step hasher act) tr s') : Reachable hasher s' := by
  obtain ⟨tr₀, h₀⟩ := h
  exact ⟨_, (h₀.snoc rfl).append hrun⟩

/-- No authorization string that carries the key's secret authenticates. -/
def KeyRejected (hasher : ApiKeyHasher) (s : ManagerSystem) (id : ApiKeyId) : Prop :=
  ∀ key ∈ s.issued, key.id = id → ∀ header fingerprint identity,
    extractProxyAuthApiKey header = .ok key.secret →
    s.database.authenticateIngress hasher header fingerprint ≠ .ok identity

/-- No authorization string authenticates with the device's certificate. -/
def DeviceRejected (hasher : ApiKeyHasher) (s : ManagerSystem) (id : DeviceCredentialId) : Prop :=
  ∀ fingerprint, (id, fingerprint) ∈ s.registered → ∀ header identity,
    s.database.authenticateIngress hasher header fingerprint ≠ .ok identity

theorem Linked.keyRejected (h : Linked hasher s) {id : ApiKeyId} (hrev : s.database.KeyRevoked id) :
    KeyRejected hasher s id := by
  rintro key hkey rfl header fingerprint identity hext hok
  obtain ⟨k, hk, hstatus⟩ := hrev
  obtain ⟨row, hrow, hpublic, -, hparse⟩ := h.issued key hkey
  rw [hk, Option.some.injEq] at hrow
  subst hrow
  obtain ⟨apiKeyId, accountId, workspaceId, a, w, limits, values, hid, hacc, hws, hj⟩ :=
    h.authenticate_of_row hk
  simp only [Database.authenticateIngress, hext, hparse, Except.mapError, Fallible.ok_bind,
    ← hpublic, hj.authenticate h.valid (hid ▸ hk) hacc hws, Fallible.ite_error_eq_ok, ne_eq, not_not,
    hstatus] at hok
  exact absurd hok.2.1 (by decide)

theorem Linked.deviceRejected (h : Linked hasher s) {id : DeviceCredentialId}
    (hrev : s.database.DeviceRevoked id) : DeviceRejected hasher s id := by
  intro fingerprint hreg header identity hok
  obtain ⟨d, hd, hstatus⟩ := hrev
  obtain ⟨row, hrow, hfp⟩ := h.registered _ hreg
  rw [hd, Option.some.injEq] at hrow
  subst hrow
  have hl : s.database.deviceLookup fingerprint = some (id.raw, d) :=
    (Database.deviceLookup_eq_some h.valid).2 ⟨hd, hfp⟩
  simp only [Database.authenticateIngress, Fallible.bind_eq_ok, Fallible.mapError_eq_ok] at hok
  obtain ⟨presented, -, publicId, -, hauth⟩ := hok
  by_cases hrow : ∃ id k, s.database.apiKeys.get id = some k ∧ k.publicId = publicId
  · obtain ⟨_, k, hk, rfl⟩ := hrow
    obtain ⟨apiKeyId, accountId, workspaceId, a, w, limits, values, rfl, hacc, hws, hj⟩ :=
      h.authenticate_of_row hk
    rw [hj.authenticate h.valid hk hacc hws, hl] at hauth
    simp only [Fallible.ite_error_eq_ok, ne_eq, not_not, hstatus] at hauth
    exact absurd hauth.2.2.2.2.1 (by decide)
  · have hnone : s.database.credentialLookup publicId = none :=
      Database.credentialLookup_eq_none fun id k hk hp => hrow ⟨id, k, hk, hp⟩
    simp [Database.authenticate, hnone] at hauth

theorem Linked.revokeApiKey (h : Linked hasher s) {id : ApiKeyId} {now : UnixTimestamp} {changed : Bool}
    (hok : (s.database.revokeApiKey id now).1 = .ok changed) :
    (s.step hasher (.revokeApiKey id now)).database.KeyRevoked id := by
  obtain ⟨row, hrow⟩ := Database.exists_of_updateOrMissing hok
  simp only [step, Database.revokeApiKey_database]
  exact h.valid.get_setRevoked hrow now

theorem Linked.rotateApiKey (h : Linked hasher s) {id : ApiKeyId} {now : UnixTimestamp}
    {draws : ℕ → Option KeyDraw} {issued : IssuedApiKey}
    (hok : (s.database.rotateIssuedApiKey hasher id now draws).1 = .ok issued) :
    (s.step hasher (.rotateApiKey id now draws)).database.KeyRevoked id := by
  rcases Database.rotateIssuedApiKey_cases hasher s.database id now draws with
    ⟨e, he⟩ | ⟨draw, generated, newId, db', -, ⟨old, db₁, hold, -, hins, rfl⟩, heq⟩
  · rw [he] at hok
    cases hok
  · have hchange := Database.insertApiKeyRow_change hins
    obtain ⟨row, hrow, -⟩ := hchange.grows.apiKeys _ old hold
    simp only [step, heq, withIssued]
    exact (h.valid.change hchange).get_setRevoked hrow now

theorem Linked.revokeDeviceCredential (h : Linked hasher s) {id : DeviceCredentialId}
    {now : UnixTimestamp} {changed : Bool}
    (hok : (s.database.revokeDeviceCredential id now).1 = .ok changed) :
    (s.step hasher (.revokeDeviceCredential id now)).database.DeviceRevoked id := by
  obtain ⟨row, hrow⟩ := Database.exists_of_updateOrMissing hok
  simp only [step, Database.revokeDeviceCredential_database]
  exact h.valid.get_setDeviceRevoked hrow now

end ManagerSystem

open ManagerSystem

/-- Once a revocation or a rotation has succeeded, no later run of management operations, with any
draws, reaches a state in which the key or the certificate authenticates. -/
theorem revocation_is_permanent {hasher : ApiKeyHasher} {s : ManagerSystem} (h : s.Reachable hasher) :
    (∀ id now changed, (s.database.revokeApiKey id now).1 = .ok changed → ∀ tr s',
      Run (Step hasher) (s.step hasher (.revokeApiKey id now)) tr s' → KeyRejected hasher s' id) ∧
    (∀ id now draws issued, (s.database.rotateIssuedApiKey hasher id now draws).1 = .ok issued →
      ∀ tr s', Run (Step hasher) (s.step hasher (.rotateApiKey id now draws)) tr s' →
        KeyRejected hasher s' id) ∧
    ∀ id now changed, (s.database.revokeDeviceCredential id now).1 = .ok changed → ∀ tr s',
      Run (Step hasher) (s.step hasher (.revokeDeviceCredential id now)) tr s' →
        DeviceRejected hasher s' id := by
  refine ⟨?_, ?_, ?_⟩
  · intro id now changed hok tr s' hrun
    exact (h.after hrun).linked.keyRejected ((h.linked.revokeApiKey hok).grows (grows_of_run hrun))
  · intro id now draws issued hok tr s' hrun
    exact (h.after hrun).linked.keyRejected ((h.linked.rotateApiKey hok).grows (grows_of_run hrun))
  · intro id now changed hok tr s' hrun
    exact (h.after hrun).linked.deviceRejected
      ((h.linked.revokeDeviceCredential hok).grows (grows_of_run hrun))

/-! The tenant that tries to get the key and the device back. -/

/-- Each attempt draws a public id of its own, and the first of them is that of the tenant's key. -/
def countedDraws (attempt : ℕ) : Option KeyDraw := some (.replicate 12 (UInt8.ofNat attempt), zeroDraw.2)

/-- The certificate is registered again and a key is issued with the draws of the old one. -/
def regained (act : ManagerAct) : ManagerSystem :=
  [.registerDeviceCredential (.ofNat 1) (.ofNat 1) zeroFingerprint "again".toList .epoch,
    .issueApiKey (.ofNat 1) (.ofNat 1) "again".toList .epoch countedDraws].foldl
    (ManagerSystem.step secretHasher) (tenant.step secretHasher act)

theorem regained_run (act : ManagerAct) :
    ∃ tr, Run (Step secretHasher) (tenant.step secretHasher act) tr (regained act) :=
  Run.of_foldl (ManagerSystem.step secretHasher) _ _

/-- A new key is issued under another public id, no device is added, and what was revoked stays out. -/
theorem revocation_is_permanent_tenant : tenant.Reachable secretHasher ∧
    KeyRejected secretHasher (regained (.revokeApiKey (.ofNat 1) .epoch)) (.ofNat 1) ∧
    KeyRejected secretHasher (regained (.rotateApiKey (.ofNat 1) .epoch countedDraws)) (.ofNat 1) ∧
    DeviceRejected secretHasher (regained (.revokeDeviceCredential (.ofNat 1) .epoch)) (.ofNat 1) ∧
    (regained (.rotateApiKey (.ofNat 1) .epoch countedDraws)).issued.map IssuedApiKey.id =
      [.ofNat 3, .ofNat 2, .ofNat 1] ∧
    (regained (.revokeDeviceCredential (.ofNat 1) .epoch)).registered = [(.ofNat 1, zeroFingerprint)] := by
  obtain ⟨hkey, hrotate, hdevice⟩ := revocation_is_permanent tenant_reachable
  have hrevoked : (tenant.database.revokeApiKey (.ofNat 1) .epoch).1 = .ok true := by decide +kernel
  -- the first draw clashes with the public id that is already stored
  have hrotated : (tenant.database.rotateIssuedApiKey secretHasher (.ofNat 1) .epoch countedDraws).1 =
      .ok ⟨.ofNat 2, "AQEBAQEBAQEBAQEB".toList,
        "pxy_AQEBAQEBAQEBAQEB.AAAAAAAAAAAAAAAAAAAAAAAAAAAAAAAAAAAAAAAAAAA".toList⟩ := by
    decide +kernel
  have hdev : (tenant.database.revokeDeviceCredential (.ofNat 1) .epoch).1 = .ok true := by
    decide +kernel
  obtain ⟨_, hrevokeRun⟩ := regained_run (.revokeApiKey (.ofNat 1) .epoch)
  obtain ⟨_, hrotateRun⟩ := regained_run (.rotateApiKey (.ofNat 1) .epoch countedDraws)
  obtain ⟨_, hdeviceRun⟩ := regained_run (.revokeDeviceCredential (.ofNat 1) .epoch)
  exact ⟨tenant_reachable, hkey _ _ _ hrevoked _ _ hrevokeRun, hrotate _ _ _ _ hrotated _ _ hrotateRun,
    hdevice _ _ _ hdev _ _ hdeviceRun, by decide +kernel, by decide +kernel⟩

end Cobra
