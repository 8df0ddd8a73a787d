import Mathlib
import CobraProxy.Lib.Fallible
import CobraProxy.Spec.Usage

/-! What the methods of the account database can do to it: every method is a sequence of the
changes listed here, and a method that fails leaves the database as it was. -/

namespace Cobra

open Text

namespace Database

/-- `requests_used`, `bytes_to_tor` and `bytes_from_tor` of a row, zeros where there is none. -/
def counters (db : Database) (key : UsageKey) : ℤ × ℤ × ℤ :=
  (db.usagePeriods.lookup key).elim 0 fun row => (row.requestsUsed, row.bytesToTor, row.bytesFromTor)

/-- A delta was added to the row of the identity, and the snapshot has the counters of the new row. -/
structure Recorded (db : Database) (identity : IngressIdentity) (periodStart : UnixTimestamp) (delta : ℤ × ℤ × ℤ)
    (snapshot : UsageSnapshot) (db' : Database) : Prop where
  scope : db.requireWorkspaceScope identity.accountId identity.workspaceId = .ok ()
  names : snapshot.accountId = identity.accountId ∧ snapshot.workspaceId = identity.workspaceId ∧
    snapshot.periodStart = periodStart
  added : ((snapshot.requestsUsed, snapshot.bytesToTor, snapshot.bytesFromTor) : ℤ × ℤ × ℤ) =
    db.counters (usageKey identity periodStart) + delta
  bounded : snapshot.requestsUsed < 2 ^ 63 ∧ snapshot.bytesToTor < 2 ^ 63 ∧ snapshot.bytesFromTor < 2 ^ 63
  stored : db' = { db with
    usagePeriods := db.usagePeriods.insert (usageKey identity periodStart)
      ⟨snapshot.requestsUsed, snapshot.bytesToTor, snapshot.bytesFromTor⟩ }

/-- The changes that create no credential and record no usage. -/
inductive Update (db : Database) : Database → Prop
  | newAccount {row : AccountRow} {id : ℕ} {accounts : Table AccountRow} {limits : AccountLimits}
      {values : DatabaseLimitValues} (hins : db.accounts.insert row = some (id, accounts))
      (hstatus : row.status = "active") (hplan : isPlanText row.plan)
      (hvalues : limits.databaseValues = .ok values) :
      Update db { db with accounts, accountLimits := db.accountLimits.insert id values }
  | account (id : ℕ) (p : AccountRow → Bool) (f : AccountRow → AccountRow)
      (hstatus : ∀ r, (f r).status = r.status ∨ (f r).status ∈ lifecycleStatuses)
      (hplan : ∀ r, (f r).plan = r.plan ∨ isPlanText (f r).plan) :
      Update db { db with accounts := db.accounts.update id p f }
  | limits {id : ℕ} {limits : AccountLimits} {values : DatabaseLimitValues}
      (hvalues : limits.databaseValues = .ok values) :
      Update db { db with accountLimits := db.accountLimits.insert id values }
  | newWorkspace {row : WorkspaceRow} {id : ℕ} {workspaces : Table WorkspaceRow}
      (hins : db.workspaces.insert row = some (id, workspaces)) (hstatus : row.status = "active")
      (haccount : (db.accounts.get row.accountId).isSome) : Update db { db with workspaces }
  | workspaceStatus (id : ℕ) (p : WorkspaceRow → Bool) (status : WorkspaceStatus) :
      Update db { db with
        workspaces := db.workspaces.update id p (fun r => { r with status := status.asDatabaseValue }) }
  | revokeApiKey (id : ℕ) (now : UnixTimestamp) :
      Update db { db with
        apiKeys := db.apiKeys.update id (fun r => r.status == "active") (setRevoked now) }
  | revokeDevice (id : ℕ) (now : UnixTimestamp) :
      Update db { db with
        deviceCredentials :=
          db.deviceCredentials.update id (fun r => r.status == "active") (setDeviceRevoked now) }

inductive Change (db : Database) : Database → Prop
  | update {db' : Database} (h : Update db db') : Change db db'
  | usage {db' : Database} {identity : IngressIdentity} {periodStart : UnixTimestamp} {delta : ℤ × ℤ × ℤ}
      {snapshot : UsageSnapshot} (h : Recorded db identity periodStart delta snapshot db') : Change db db'
  | newApiKey {row : ApiKeyRow} {id : ℕ} {apiKeys : Table ApiKeyRow}
      (hins : db.apiKeys.insert row = some (id, apiKeys)) (hstatus : row.status = "active")
      (hversion : row.keyHashVersion = API_KEY_HASH_VERSION) (hhash : row.keyHash.length = 32)
      (hunique : ∀ i r, db.apiKeys.get i = some r → r.publicId ≠ row.publicId)
      (haccount : (db.accounts.get row.accountId).isSome)
      (hworkspace : db.workspaceInAccount row.workspaceId row.accountId) : Change db { db with apiKeys }
  | newDevice {row : DeviceCredentialRow} {id : ℕ} {deviceCredentials : Table DeviceCredentialRow}
      (hins : db.deviceCredentials.insert row = some (id, deviceCredentials))
      (hstatus : row.status = "active")
      (hunique : ∀ i r, db.deviceCredentials.get i = some r →
        r.certificateFingerprint ≠ row.certificateFingerprint)
      (haccount : (db.accounts.get row.accountId).isSome)
      (hworkspace : db.workspaceInAccount row.workspaceId row.accountId) :
      Change db { db with deviceCredentials }

abbrev Updates : Database → Database → Prop := Relation.ReflTransGen Update

abbrev Changes : Database → Database → Prop := Relation.ReflTransGen Change

variable {db db' : Database}

theorem Updates.changes (h : Updates db db') : Changes db db' := by
  induction h with
  | refl => exact .refl
  | tail _ hu ih => exact ih.tail (.update hu)

theorem Updates.usagePeriods (h : Updates db db') : db'.usagePeriods = db.usagePeriods := by
  induction h with
  | refl => rfl
  | tail _ hu ih =>
    rw [← ih]
    cases hu <;> rfl

/-- A transaction either commits what its body computed or rolls back. -/
theorem transaction_cases {ε α : Type} (db : Database) (body : Except ε (α × Database)) :
    (∃ value db', body = .ok (value, db') ∧ db.transaction body = (.ok value, db')) ∨
      ∃ e, body = .error e ∧ db.transaction body = (.error e, db) := by
  cases body with
  | ok r => exact Or.inl ⟨r.1, r.2, rfl, rfl⟩
  | error e => exact Or.inr ⟨e, rfl, rfl⟩

theorem select_isEmpty_iff {ρ : Type} {t : Table ρ} {p : ℕ → ρ → Bool} :
    (t.select p).isEmpty ↔ ∀ i r, t.get i = some r → ¬ p i r := by
  rw [List.isEmpty_iff, List.eq_nil_iff_forall_not_mem]
  constructor
  · exact fun h i r hr hp => h (i, r) (Table.mem_select.2 ⟨hr, hp⟩)
  · exact fun h x hx => h x.1 x.2 (Table.mem_select.1 hx).1 (Table.mem_select.1 hx).2

theorem insertRow_eq_ok {ρ : Type} {t : Table ρ} {row : ρ} {c : Bool} {r : ℕ × Table ρ} :
    insertRow t row c = .ok r ↔ t.insert row = some r ∧ c = true := by
  unfold insertRow
  cases t.insert row with
  | none => simp
  | some x => cases c <;> simp

theorem fromDatabase_eq_ok {kind : EntityKind} {n : ℕ} {id : PrivateIdentifier kind} :
    PrivateIdentifier.fromDatabase kind n = .ok id ↔ id.raw = n := by
  unfold PrivateIdentifier.fromDatabase
  constructor
  · intro h
    split_ifs at h
    cases h
    rfl
  · rintro rfl
    rw [dif_pos ⟨id.pos, id.lt⟩]

/-- What an INSERT that succeeds has done and checked. -/
theorem insertApiKeyRow_eq_ok {row : ApiKeyRow} {id : ℕ} (h : db.insertApiKeyRow row = .ok (id, db')) :
    ∃ apiKeys, db.apiKeys.insert row = some (id, apiKeys) ∧ db' = { db with apiKeys } ∧
      (∀ i r, db.apiKeys.get i = some r → r.publicId ≠ row.publicId) ∧ row.keyHash.length = 32 ∧
      (db.accounts.get row.accountId).isSome ∧ db.workspaceInAccount row.workspaceId row.accountId := by
  simp only [insertApiKeyRow, Fallible.map_eq_ok, insertRow_eq_ok, Bool.and_eq_true,
    select_isEmpty_iff, beq_iff_eq, decide_eq_true_eq, Prod.exists, Prod.mk.injEq] at h
  obtain ⟨_, apiKeys, ⟨hins, ⟨⟨⟨⟨⟨⟨hu, hl⟩, -⟩, -⟩, -⟩, ha⟩, hw⟩⟩, rfl, rfl⟩ := h
  exact ⟨apiKeys, hins, rfl, hu, hl, ha, hw⟩

theorem insertDeviceCredentialRow_eq_ok {row : DeviceCredentialRow} {id : ℕ}
    (h : db.insertDeviceCredentialRow row = .ok (id, db')) :
    ∃ deviceCredentials, db.deviceCredentials.insert row = some (id, deviceCredentials) ∧
      db' = { db with deviceCredentials } ∧
      (∀ i r, db.deviceCredentials.get i = some r →
        r.certificateFingerprint ≠ row.certificateFingerprint) ∧
      (db.accounts.get row.accountId).isSome ∧ db.workspaceInAccount row.workspaceId row.accountId := by
  simp only [insertDeviceCredentialRow, Fallible.map_eq_ok, insertRow_eq_ok, Bool.and_eq_true,
    select_isEmpty_iff, beq_iff_eq, decide_eq_true_eq, Prod.exists, Prod.mk.injEq] at h
  obtain ⟨_, devices, ⟨hins, ⟨⟨⟨⟨⟨⟨hu, -⟩, -⟩, -⟩, -⟩, ha⟩, hw⟩⟩, rfl, rfl⟩ := h
  exact ⟨devices, hins, rfl, hu, ha, hw⟩

/-! ### One lemma per method -/

theorem createAccount_updates (db : Database) (email : Str) (stripe : Option Str) (plan : PlanCode)
    (limits : AccountLimits) : Updates db (db.createAccount email stripe plan limits).2 := by
  unfold createAccount
  rcases transaction_cases db _ with ⟨record, db', hbody, htr⟩ | ⟨e, -, htr⟩
  · rw [htr]
    simp only [Fallible.bind_eq_ok, Fallible.mapError_eq_ok, Prod.exists, Fallible.pure_eq_ok,
      Except.ok.injEq, Prod.mk.injEq] at hbody
    obtain ⟨email', -, stripe', -, values, hvalues, id, db₁, hins, accountId, hid, db₂, hlim, -, rfl⟩ := hbody
    simp only [insertAccountRow, Fallible.map_eq_ok, insertRow_eq_ok, Prod.exists, Prod.mk.injEq] at hins
    obtain ⟨_, accounts, ⟨hins, -⟩, rfl, rfl⟩ := hins
    rw [fromDatabase_eq_ok] at hid
    simp only [insertLimitsRow, Fallible.ite_else_error_eq_ok, Except.ok.injEq] at hlim
    obtain ⟨-, rfl⟩ := hlim
    rw [hid]
    exact .single (.newAccount hins rfl plan.valid hvalues)
  · rw [htr]

theorem setAccountStatus_updates (db : Database) (accountId : AccountId) (status : AccountStatus) :
    Updates db (db.setAccountStatus accountId status).2 := by
  have hstatus : status.asDatabaseValue ∈ lifecycleStatuses := by cases status <;> decide
  have hdb : (db.setAccountStatus accountId status).2 = { db with
      accounts := db.accounts.update accountId.raw (fun r => r.status != status.asDatabaseValue)
        (fun r => { r with status := status.asDatabaseValue }) } := by
    unfold setAccountStatus updateOrMissing
    dsimp only
    split_ifs <;> rfl
  rw [hdb]
  exact .single (.account _ _ _ (fun _ => .inr hstatus) fun _ => .inl rfl)

theorem updateAccountPlanAndLimits_updates (db : Database) (accountId : AccountId) (plan : PlanCode)
    (limits : AccountLimits) : Updates db (db.updateAccountPlanAndLimits accountId plan limits).2 := by
  unfold updateAccountPlanAndLimits
  rcases transaction_cases db _ with ⟨_, db', hbody, htr⟩ | ⟨e, -, htr⟩
  · rw [htr]
    simp at hbody
    obtain ⟨values, hvalues, -, -, rfl⟩ := hbody
    refine Relation.ReflTransGen.trans (.single (.account accountId.raw (fun _ => true)
      (fun r => { r with plan := plan.text }) (fun _ => .inl rfl) fun _ => .inr plan.valid))
      (.single (.limits hvalues))
  · rw [htr]

theorem setStripeCustomerId_updates (db : Database) (accountId : AccountId) (stripe : Option Str) :
    Updates db (db.setStripeCustomerId accountId stripe).2 := by
  unfold setStripeCustomerId
  split
  · exact .refl
  · split_ifs
    · exact .refl
    · exact .single (.account _ _ _ (fun _ => .inl rfl) fun _ => .inl rfl)
    · exact .refl

theorem createWorkspace_updates (db : Database) (accountId : AccountId) (name : Str) :
    Updates db (db.createWorkspace accountId name).2 := by
  unfold createWorkspace
  split
  · exact .refl
  · split_ifs
    · split
      · rename_i id db' hins
        simp only [insertWorkspaceRow, Fallible.map_eq_ok, insertRow_eq_ok, Bool.and_eq_true,
          Prod.exists, Prod.mk.injEq] at hins
        obtain ⟨_, workspaces, ⟨hins, -, haccount⟩, rfl, rfl⟩ := hins
        exact .single (.newWorkspace hins rfl haccount)
      · exact .refl
    · exact .refl

theorem setWorkspaceStatus_updates (db : Database) (workspaceId : WorkspaceId)
    (status : WorkspaceStatus) : Updates db (db.setWorkspaceStatus workspaceId status).2 := by
  have hdb : (db.setWorkspaceStatus workspaceId status).2 = { db with
      workspaces := db.workspaces.update workspaceId.raw (fun r => r.status != status.asDatabaseValue)
        (fun r => { r with status := status.asDatabaseValue }) } := by
    unfold setWorkspaceStatus updateOrMissing
    dsimp only
    split_ifs <;> rfl
  rw [hdb]
  exact .single (.workspaceStatus _ _ _)

/-! ### Keys -/

theorem insertApiKeyRow_change {generated : GeneratedApiKey} {accountId workspaceId id : ℕ} {label : Str}
    {now : UnixTimestamp}
    (h : db.insertApiKeyRow (newApiKeyRow generated accountId workspaceId label now) = .ok (id, db')) :
    Change db db' := by
  obtain ⟨apiKeys, hins, rfl, hunique, hhash, haccount, hworkspace⟩ := insertApiKeyRow_eq_ok h
  exact .newApiKey hins rfl rfl hhash hunique haccount hworkspace

theorem insertApiKey_cases (db : Database) (accountId : AccountId) (workspaceId : WorkspaceId)
    (label : Str) (generated : GeneratedApiKey) (now : UnixTimestamp) :
    (∃ e, db.insertApiKey accountId workspaceId label generated now = (.error e, db)) ∨
      ∃ id label' db', db.insertApiKeyRow
          (newApiKeyRow generated accountId.raw workspaceId.raw label' now) = .ok (id.raw, db') ∧
        db.insertApiKey accountId workspaceId label generated now = (.ok id, db') := by
  unfold insertApiKey
  split
  · exact .inl ⟨_, rfl⟩
  · rename_i label' _
    split
    · exact .inl ⟨_, rfl⟩
    · split
      · exact .inl ⟨_, rfl⟩
      · rename_i id db' hins
        obtain ⟨_, ht, -⟩ := insertApiKeyRow_eq_ok hins
        obtain ⟨-, hpos, hlt, -⟩ := Table.insert_spec ht
        have hid : PrivateIdentifier.fromDatabase .apiKey id = .ok ⟨id, hpos, hlt⟩ :=
          fromDatabase_eq_ok.2 rfl
        exact .inr ⟨⟨id, hpos, hlt⟩, label', db', hins, by rw [hid]⟩

theorem rotateApiKey_cases (db : Database) (oldApiKeyId : ApiKeyId) (generated : GeneratedApiKey)
    (now : UnixTimestamp) :
    (∃ e, db.rotateApiKey oldApiKeyId generated now = (.error e, db)) ∨
      ∃ id old db', db.apiKeys.get oldApiKeyId.raw = some old ∧ old.status = "active" ∧
        db.insertApiKeyRow (newApiKeyRow generated old.accountId old.workspaceId old.label now) =
          .ok (id.raw, db') ∧
        db.rotateApiKey oldApiKeyId generated now = (.ok id, { db' with
          apiKeys := db'.apiKeys.update oldApiKeyId.raw (fun r => r.status == "active")
            (setRevoked now) }) := by
  unfold rotateApiKey
  rcases transaction_cases db _ with ⟨id, db', hbody, htr⟩ | ⟨e, -, htr⟩
  · rw [htr]
    split at hbody
    · rename_i old hold
      simp at hbody
      obtain ⟨hstatus, n, db₁, hins, hid, -, rfl⟩ := hbody
      rw [fromDatabase_eq_ok] at hid
      subst hid
      have hactive : old.status = "active" := by
        unfold CredentialStatus.fromDatabase at hstatus
        split at hstatus <;> simp_all
      exact .inr ⟨id, old, db₁, hold, hactive, hins, rfl⟩
    · cases hbody
  · exact .inl ⟨e, htr⟩

/-- The retry loop fails without a trace or ends in one successful insertion. -/
theorem allocateApiKey_cases {hasher : ApiKeyHasher}
    {insert : GeneratedApiKey → Database → Except AccountManagementError ApiKeyId × Database}
    {P : GeneratedApiKey → Database → ApiKeyId → Database → Prop}
    (hinsert : ∀ generated db, (∃ e, insert generated db = (.error e, db)) ∨
      ∃ id db', insert generated db = (.ok id, db') ∧ P generated db id db')
    (attempts : ℕ) (draws : ℕ → Option KeyDraw) (db : Database) :
    (∃ e, allocateApiKey hasher insert attempts draws db = (.error e, db)) ∨
      ∃ draw generated id db', GeneratedApiKey.generate hasher (some draw) = .ok generated ∧
        P generated db id db' ∧ allocateApiKey hasher insert attempts draws db =
          (.ok ⟨id, generated.publicId, generated.secret⟩, db') := by
  induction attempts generalizing draws with
  | zero => exact .inl ⟨_, rfl⟩
  | succ attempts ih =>
    unfold allocateApiKey
    split
    · exact .inl ⟨_, rfl⟩
    · rename_i generated hgen
      rcases hinsert generated db with ⟨e, he⟩ | ⟨id, db', hok, hP⟩
      · rw [he]
        cases e with
        | database e =>
          dsimp only
          split_ifs
          · exact ih _
          · exact .inl ⟨_, rfl⟩
        | _ => exact .inl ⟨_, rfl⟩
      · rw [hok]
        cases hd : draws 0 with
        | none => rw [hd] at hgen; cases hgen
        | some draw =>
          rw [hd] at hgen
          exact .inr ⟨draw, generated, id, db', hgen, hP, rfl⟩

theorem issueApiKey_cases (hasher : ApiKeyHasher) (db : Database) (accountId : AccountId)
    (workspaceId : WorkspaceId) (label : Str) (now : UnixTimestamp) (draws : ℕ → Option KeyDraw) :
    (∃ e, db.issueApiKey hasher accountId workspaceId label now draws = (.error e, db)) ∨
      ∃ draw generated id db', GeneratedApiKey.generate hasher (some draw) = .ok generated ∧
        (∃ label', db.insertApiKeyRow
          (newApiKeyRow generated accountId.raw workspaceId.raw label' now) = .ok (id.raw, db')) ∧
        db.issueApiKey hasher accountId workspaceId label now draws =
          (.ok ⟨id, generated.publicId, generated.secret⟩, db') :=
  allocateApiKey_cases (P := fun generated db id db' => ∃ label', db.insertApiKeyRow
      (newApiKeyRow generated accountId.raw workspaceId.raw label' now) = .ok (id.raw, db'))
    (fun generated db => (insertApiKey_cases db accountId workspaceId label generated now).imp id
      fun ⟨id, label', db', hins, hok⟩ => ⟨id, db', hok, label', hins⟩) _ draws db

theorem rotateIssuedApiKey_cases (hasher : ApiKeyHasher) (db : Database) (oldApiKeyId : ApiKeyId)
    (now : UnixTimestamp) (draws : ℕ → Option KeyDraw) :
    (∃ e, db.rotateIssuedApiKey hasher oldApiKeyId now draws = (.error e, db)) ∨
      ∃ draw generated id db', GeneratedApiKey.generate hasher (some draw) = .ok generated ∧
        (∃ old db₁, db.apiKeys.get oldApiKeyId.raw = some old ∧ old.status = "active" ∧
          db.insertApiKeyRow (newApiKeyRow generated old.accountId old.workspaceId old.label now) =
            .ok (id.raw, db₁) ∧
          db' = { db₁ with
            apiKeys := db₁.apiKeys.update oldApiKeyId.raw (fun r => r.status == "active")
              (setRevoked now) }) ∧
        db.rotateIssuedApiKey hasher oldApiKeyId now draws =
          (.ok ⟨id, generated.publicId, generated.secret⟩, db') :=
  allocateApiKey_cases (P := fun generated db id db' => ∃ old db₁,
      db.apiKeys.get oldApiKeyId.raw = some old ∧ old.status = "active" ∧
      db.insertApiKeyRow (newApiKeyRow generated old.accountId old.workspaceId old.label now) =
        .ok (id.raw, db₁) ∧
      db' = { db₁ with
        apiKeys := db₁.apiKeys.update oldApiKeyId.raw (fun r => r.status == "active") (setRevoked now) })
    (fun generated db => (rotateApiKey_cases db oldApiKeyId generated now).imp id
      fun ⟨id, old, db₁, hold, hactive, hins, hok⟩ => ⟨id, _, hok, old, db₁, hold, hactive, hins, rfl⟩)
    _ draws db

theorem revokeApiKey_database (db : Database) (apiKeyId : ApiKeyId) (now : UnixTimestamp) :
    (db.revokeApiKey apiKeyId now).2 = { db with
      apiKeys := db.apiKeys.update apiKeyId.raw (fun r => r.status == "active") (setRevoked now) } := by
  unfold revokeApiKey updateOrMissing
  dsimp only
  split_ifs <;> rfl

/-! ### Devices -/

theorem registerDeviceCredential_cases (db : Database) (accountId : AccountId)
    (workspaceId : WorkspaceId) (fingerprint : CertificateFingerprint) (label : Str)
    (now : UnixTimestamp) :
    (∃ e, db.registerDeviceCredential accountId workspaceId fingerprint label now = (.error e, db)) ∨
      ∃ device row db', db.registerDeviceCredential accountId workspaceId fingerprint label now =
          (.ok device, db') ∧ row.certificateFingerprint = fingerprint.1 ∧ row.status = "active" ∧
        db.insertDeviceCredentialRow row = .ok (device.id.raw, db') := by
  unfold registerDeviceCredential
  split
  · exact .inl ⟨_, rfl⟩
  · rename_i label' _
    split
    · exact .inl ⟨_, rfl⟩
    · split
      · rename_i id db' hins
        obtain ⟨_, ht, -⟩ := insertDeviceCredentialRow_eq_ok hins
        obtain ⟨-, hpos, hlt, -⟩ := Table.insert_spec ht
        have hid : PrivateIdentifier.fromDatabase .deviceCredential id = .ok ⟨id, hpos, hlt⟩ :=
          fromDatabase_eq_ok.2 rfl
        exact .inr ⟨⟨⟨id, hpos, hlt⟩, label', .active, now, none⟩, _, db', by rw [hid]; rfl, rfl, rfl, hins⟩
      · exact .inl ⟨_, rfl⟩

theorem revokeDeviceCredential_database (db : Database) (deviceCredentialId : DeviceCredentialId)
    (now : UnixTimestamp) :
    (db.revokeDeviceCredential deviceCredentialId now).2 = { db with
      deviceCredentials := db.deviceCredentials.update deviceCredentialId.raw
        (fun r => r.status == "active") (setDeviceRevoked now) } := by
  unfold revokeDeviceCredential updateOrMissing
  dsimp only
  split_ifs <;> rfl

/-! ### Usage -/

theorem checkedDatabaseCounter_eq_ok {n : ℕ} {z : ℤ} :
    checkedDatabaseCounter n = .ok z ↔ z = n ∧ n < 2 ^ 63 := by
  unfold checkedDatabaseCounter
  rw [Fallible.ite_else_error_eq_ok, Except.ok.injEq, and_comm, eq_comm]

theorem checkedUsageAdd_eq_ok {a b c : ℕ} :
    checkedUsageAdd a b = .ok c ↔ c = a + b ∧ a + b < 2 ^ 63 := by
  unfold checkedUsageAdd checkedAdd
  by_cases h' : a + b < 2 ^ 64
  · rw [if_pos h']
    simp only [Fallible.map_eq_ok, checkedDatabaseCounter_eq_ok]
    constructor
    · rintro ⟨_, h, hc⟩
      exact ⟨hc.symm, h.2⟩
    · rintro ⟨hc, hlt⟩
      exact ⟨_, ⟨rfl, hlt⟩, hc.symm⟩
  · rw [if_neg h']
    simp only [reduceCtorEq, false_iff, not_and]
    omega

/-- What a usage write that succeeds has stored: the counters read before plus the delta. -/
theorem addUsage_eq_ok {identity : IngressIdentity} {periodStart : UnixTimestamp}
    {current : ℕ × ℕ × ℕ} {delta : UsageDelta} {snapshot : UsageSnapshot}
    (h : db.addUsage identity periodStart current delta = .ok (snapshot, db')) :
    db' = { db with
        usagePeriods := db.usagePeriods.insert (usageKey identity periodStart)
          ⟨current.1 + delta.requests, current.2.1 + delta.bytesToTor,
            current.2.2 + delta.bytesFromTor⟩ } ∧
      current.1 + delta.requests < 2 ^ 63 ∧ current.2.1 + delta.bytesToTor < 2 ^ 63 ∧
      current.2.2 + delta.bytesFromTor < 2 ^ 63 ∧
      snapshot = ⟨identity.accountId, identity.workspaceId, periodStart, current.1 + delta.requests,
        current.2.1 + delta.bytesToTor, current.2.2 + delta.bytesFromTor⟩ := by
  simp only [addUsage, Fallible.bind_eq_ok, Fallible.mapError_eq_ok, Fallible.pure_eq_ok,
    checkedUsageAdd_eq_ok, checkedDatabaseCounter_eq_ok, upsertUsageRow,
    Fallible.ite_else_error_eq_ok, Except.ok.injEq, Prod.mk.injEq] at h
  obtain ⟨_, ⟨rfl, h1⟩, _, ⟨rfl, h2⟩, _, ⟨rfl, h3⟩, _, ⟨rfl, -⟩, _, ⟨rfl, -⟩, _, ⟨rfl, -⟩, _,
    ⟨-, rfl⟩, rfl, rfl⟩ := h
  exact ⟨by simp, h1, h2, h3, rfl⟩

theorem requireWorkspaceScope_eq_ok {accountId : AccountId} {workspaceId : WorkspaceId} :
    db.requireWorkspaceScope accountId workspaceId = .ok () ↔
      db.workspaceInAccount workspaceId.raw accountId.raw := by
  unfold requireWorkspaceScope
  rw [Fallible.ite_else_error_eq_ok, and_iff_left rfl]

theorem usageValues_eq_ok {key : UsageKey} {current : ℕ × ℕ × ℕ} (h : db.usageValues key = .ok current) :
    ((current.1, current.2.1, current.2.2) : ℤ × ℤ × ℤ) = db.counters key := by
  simp only [usageValues, nonnegativeU64FromDatabase, Fallible.bind_eq_ok, Fallible.ite_else_error_eq_ok,
    Except.ok.injEq, Fallible.pure_eq_ok] at h
  obtain ⟨_, ⟨hr, rfl⟩, _, ⟨ht, rfl⟩, _, ⟨hf, rfl⟩, rfl⟩ := h
  rw [Int.toNat_of_nonneg hr, Int.toNat_of_nonneg ht, Int.toNat_of_nonneg hf, counters]
  cases db.usagePeriods.lookup key <;> rfl

theorem recorded_of_addUsage {identity : IngressIdentity} {periodStart : UnixTimestamp} {current : ℕ × ℕ × ℕ}
    {delta : UsageDelta} {snapshot : UsageSnapshot}
    (hscope : db.requireWorkspaceScope identity.accountId identity.workspaceId = .ok ())
    (hcurrent : db.usageValues (usageKey identity periodStart) = .ok current)
    (hadd : db.addUsage identity periodStart current delta = .ok (snapshot, db')) :
    Recorded db identity periodStart (delta.requests, delta.bytesToTor, delta.bytesFromTor) snapshot db' := by
  obtain ⟨rfl, hr, ht, hf, rfl⟩ := addUsage_eq_ok hadd
  refine ⟨hscope, ⟨rfl, rfl, rfl⟩, ?_, ⟨hr, ht, hf⟩, by simp⟩
  rw [← usageValues_eq_ok hcurrent]
  simp

theorem recordUsage_cases (db : Database) (identity : IngressIdentity) (periodStart : UnixTimestamp)
    (delta : UsageDelta) :
    (∃ e, db.recordUsage identity periodStart delta = (.error e, db)) ∨
    ∃ snapshot db', db.recordUsage identity periodStart delta = (.ok snapshot, db') ∧
      Recorded db identity periodStart (delta.requests, delta.bytesToTor, delta.bytesFromTor) snapshot db' := by
  unfold recordUsage
  rcases transaction_cases db _ with ⟨snapshot, db', hbody, htr⟩ | ⟨e, -, htr⟩
  · rw [htr]
    simp only [Fallible.bind_eq_ok] at hbody
    obtain ⟨_, hscope, current, hcurrent, hadd⟩ := hbody
    exact .inr ⟨snapshot, db', rfl, recorded_of_addUsage hscope hcurrent hadd⟩
  · rw [htr]
    exact .inl ⟨e, rfl⟩

theorem recordUsageIfAllowed_cases (db : Database) (identity : IngressIdentity) (periodStart : UnixTimestamp)
    (delta : UsageDelta) :
    (∃ e, db.recordUsageIfAllowed identity periodStart delta = (.error e, db)) ∨
    ∃ snapshot db', db.recordUsageIfAllowed identity periodStart delta = (.ok snapshot, db') ∧
      Recorded db identity periodStart (delta.requests, delta.bytesToTor, delta.bytesFromTor) snapshot db' := by
  unfold recordUsageIfAllowed
  rcases transaction_cases db _ with ⟨snapshot, db', hbody, htr⟩ | ⟨e, -, htr⟩
  · rw [htr]
    simp only [Fallible.bind_eq_ok, Fallible.mapError_eq_ok] at hbody
    obtain ⟨_, hscope, current, hcurrent, _, -, hadd⟩ := hbody
    exact .inr ⟨snapshot, db', rfl, recorded_of_addUsage hscope hcurrent hadd⟩
  · rw [htr]
    exact .inl ⟨e, rfl⟩

end Database

/-- A usage call returns an error and changes nothing, or records its delta. -/
theorem UsageCall.perform_cases (call : UsageCall) (db : Database) :
    call.perform db = (none, db) ∨
    ∃ snapshot db', call.perform db = (some snapshot, db') ∧
      db.Recorded call.identity call.periodStart call.delta snapshot db' := by
  cases call with
  | recordUsage identity periodStart delta =>
    rcases db.recordUsage_cases identity periodStart delta with ⟨e, h⟩ | ⟨snapshot, db', h, hrec⟩
    · exact .inl (by simp only [perform, h]; rfl)
    · exact .inr ⟨snapshot, db', by simp only [perform, h]; rfl, hrec⟩
  | recordUsageIfAllowed identity periodStart delta =>
    rcases db.recordUsageIfAllowed_cases identity periodStart delta with ⟨e, h⟩ | ⟨snapshot, db', h, hrec⟩
    · exact .inl (by simp only [perform, h]; rfl)
    · exact .inr ⟨snapshot, db', by simp only [perform, h]; rfl, hrec⟩
  | admitRequest identity periodStart =>
    have hadmit : db.admitRequest identity periodStart =
      db.recordUsageIfAllowed identity periodStart ⟨1, 0, 0, by decide, by decide, by decide⟩ := rfl
    rcases db.recordUsageIfAllowed_cases identity periodStart ⟨1, 0, 0, by decide, by decide, by decide⟩ with
      ⟨e, h⟩ | ⟨snapshot, db', h, hrec⟩
    · exact .inl (by simp only [perform, hadmit, h]; rfl)
    · exact .inr ⟨snapshot, db', by simp only [perform, hadmit, h]; rfl, hrec⟩

theorem UsageCall.perform_changes (call : UsageCall) (db : Database) : db.Changes (call.perform db).2 := by
  rcases call.perform_cases db with h | ⟨snapshot, db', h, hrec⟩
  · rw [h]
  · rw [h]
    exact .single (.usage hrec)

namespace ManagerSystem

/-- What one operation other than a usage call does: it updates rows, hands out one new key (and may then revoke
another), or registers one certificate. -/
inductive Effect (hasher : ApiKeyHasher) (s : ManagerSystem) : ManagerSystem → Prop
  | updates {db : Database} (h : s.database.Updates db) : Effect hasher s { s with database := db }
  | issued {draw : KeyDraw} {generated : GeneratedApiKey} {id : ApiKeyId} {accountId workspaceId : ℕ}
      {label : Str} {now : UnixTimestamp} {db₁ db : Database}
      (hgen : GeneratedApiKey.generate hasher (some draw) = .ok generated)
      (hins : s.database.insertApiKeyRow
        (Database.newApiKeyRow generated accountId workspaceId label now) = .ok (id.raw, db₁))
      (hdb : db₁.Updates db) :
      Effect hasher s { s with
        database := db, issued := ⟨id, generated.publicId, generated.secret⟩ :: s.issued }
  | registered {id : DeviceCredentialId} {fingerprint : CertificateFingerprint}
      {row : DeviceCredentialRow} {db : Database} (hrow : row.certificateFingerprint = fingerprint.1)
      (hactive : row.status = "active")
      (hins : s.database.insertDeviceCredentialRow row = .ok (id.raw, db)) :
      Effect hasher s { s with database := db, registered := (id, fingerprint) :: s.registered }

theorem step_effect (hasher : ApiKeyHasher) (s : ManagerSystem) {act : ManagerAct} (h : act.usageCall = none) :
    Effect hasher s (s.step hasher act) := by
  cases act with
  | createAccount email stripe plan limits =>
    exact .updates (Database.createAccount_updates _ email stripe plan limits)
  | setAccountStatus accountId status => exact .updates (Database.setAccountStatus_updates _ accountId status)
  | updateAccountPlanAndLimits accountId plan limits =>
    exact .updates (Database.updateAccountPlanAndLimits_updates _ accountId plan limits)
  | setStripeCustomerId accountId stripe =>
    exact .updates (Database.setStripeCustomerId_updates _ accountId stripe)
  | createWorkspace accountId name => exact .updates (Database.createWorkspace_updates _ accountId name)
  | setWorkspaceStatus workspaceId status =>
    exact .updates (Database.setWorkspaceStatus_updates _ workspaceId status)
  | issueApiKey accountId workspaceId label now draws =>
    simp only [step]
    rcases Database.issueApiKey_cases hasher s.database accountId workspaceId label now draws with
      ⟨e, he⟩ | ⟨draw, generated, id, db', hgen, ⟨label', hins⟩, hok⟩
    · rw [he]
      exact .updates .refl
    · rw [hok]
      exact .issued hgen hins .refl
  | rotateApiKey oldApiKeyId now draws =>
    simp only [step]
    rcases Database.rotateIssuedApiKey_cases hasher s.database oldApiKeyId now draws with
      ⟨e, he⟩ | ⟨draw, generated, id, db', hgen, ⟨old, db₁, -, -, hins, rfl⟩, hok⟩
    · rw [he]
      exact .updates .refl
    · rw [hok]
      exact .issued hgen hins (.single (.revokeApiKey _ now))
  | revokeApiKey apiKeyId now =>
    simp only [step]
    rw [Database.revokeApiKey_database]
    exact .updates (.single (.revokeApiKey _ now))
  | registerDeviceCredential accountId workspaceId fingerprint label now =>
    simp only [step]
    rcases Database.registerDeviceCredential_cases s.database accountId workspaceId fingerprint label now with
      ⟨e, he⟩ | ⟨device, row, db', hok, hrow, hactive, hins⟩
    · rw [he]
      exact .updates .refl
    · rw [hok]
      exact .registered hrow hactive hins
  | revokeDeviceCredential deviceCredentialId now =>
    simp only [step]
    rw [Database.revokeDeviceCredential_database]
    exact .updates (.single (.revokeDevice _ now))
  | recordUsage => cases h
  | recordUsageIfAllowed => cases h
  | admitRequest => cases h

theorem step_usage (hasher : ApiKeyHasher) (s : ManagerSystem) {act : ManagerAct} {call : UsageCall}
    (h : act.usageCall = some call) : s.step hasher act = { s with database := (call.perform s.database).2 } := by
  cases act with
  | recordUsage => cases h; rfl
  | recordUsageIfAllowed => cases h; rfl
  | admitRequest => cases h; rfl
  | _ => cases h

theorem Effect.changes {hasher : ApiKeyHasher} {s s' : ManagerSystem} (h : Effect hasher s s') :
    s.database.Changes s'.database := by
  cases h with
  | updates h => exact h.changes
  | issued _ hins hdb =>
    exact Relation.ReflTransGen.head (Database.insertApiKeyRow_change hins) hdb.changes
  | registered _ hactive hins =>
    obtain ⟨devices, ht, rfl, hunique, haccount, hworkspace⟩ :=
      Database.insertDeviceCredentialRow_eq_ok hins
    exact .single (.newDevice ht hactive hunique haccount hworkspace)

theorem Effect.usagePeriods {hasher : ApiKeyHasher} {s s' : ManagerSystem} (h : Effect hasher s s') :
    s'.database.usagePeriods = s.database.usagePeriods := by
  cases h with
  | updates h => exact h.usagePeriods
  | issued _ hins hdb =>
    obtain ⟨apiKeys, -, rfl, -⟩ := Database.insertApiKeyRow_eq_ok hins
    exact hdb.usagePeriods
  | registered _ _ hins =>
    obtain ⟨devices, -, rfl, -⟩ := Database.insertDeviceCredentialRow_eq_ok hins
    rfl

theorem step_changes (hasher : ApiKeyHasher) (s : ManagerSystem) (act : ManagerAct) :
    s.database.Changes (s.step hasher act).database := by
  cases h : act.usageCall with
  | none => exact (step_effect hasher s h).changes
  | some call =>
    rw [step_usage hasher s h]
    exact call.perform_changes s.database

end ManagerSystem

end Cobra
