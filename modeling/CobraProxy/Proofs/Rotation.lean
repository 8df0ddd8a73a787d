import CobraProxy.Proofs.Accounts

/-! The rotation of an API key happens as a whole or not at all: a draw that collides rolls its transaction back,
and so do all that the retry loop makes. -/

namespace Cobra

open Text

namespace Database

variable {hasher : ApiKeyHasher} {db db' : Database}

/-- The number of active keys of a workspace. -/
def activeKeys (db : Database) (workspaceId : ℕ) : ℕ :=
  (db.apiKeys.select fun _ key => key.workspaceId == workspaceId && key.status == "active").length

/-- The draw gives a public id that a row already has. -/
def Collides (hasher : ApiKeyHasher) (db : Database) (draw : Option KeyDraw) : Prop :=
  ∃ generated, GeneratedApiKey.generate hasher draw = .ok generated ∧
    ∃ id key, db.apiKeys.get id = some key ∧ key.publicId = generated.publicId

/-- The draw gives a public id that no row has. -/
def Free (hasher : ApiKeyHasher) (db : Database) (draw : Option KeyDraw) : Prop :=
  ∃ generated, GeneratedApiKey.generate hasher draw = .ok generated ∧
    ∀ id key, db.apiKeys.get id = some key → key.publicId ≠ generated.publicId

/-- The databases differ in the rows of `api_keys` under these ids and nowhere else. -/
def DifferAt (db db' : Database) (ids : List ℕ) : Prop :=
  (∃ apiKeys, db' = { db with apiKeys }) ∧ ∀ id, db'.apiKeys.get id ≠ db.apiKeys.get id ↔ id ∈ ids

/-- A new active row for the key that was handed out. -/
structure Added (db db' : Database) (accountId workspaceId : ℕ) (label : Str) (issued : IssuedApiKey) : Prop where
  fresh : db.apiKeys.get issued.id.raw = none
  row : ∃ key, db'.apiKeys.get issued.id.raw = some key ∧ key.status = "active" ∧ key.accountId = accountId ∧
    key.workspaceId = workspaceId ∧ key.label = label ∧ key.publicId = issued.publicId

/-- The active key `oldApiKeyId` is revoked, and a key with its scope and its label is added. -/
structure Rotated (db db' : Database) (oldApiKeyId : ApiKeyId) (now : UnixTimestamp) (old : ApiKeyRow)
    (issued : IssuedApiKey) : Prop where
  active : db.apiKeys.get oldApiKeyId.raw = some old ∧ old.status = "active"
  revoked : db'.apiKeys.get oldApiKeyId.raw = some { old with status := "revoked", revokedAt := some now.seconds }
  added : Added db db' old.accountId old.workspaceId old.label issued
  differ : DifferAt db db' [oldApiKeyId.raw, issued.id.raw]

theorem insertApiKeyRow_added {row : ApiKeyRow} (issued : IssuedApiKey)
    (h : db.insertApiKeyRow row = .ok (issued.id.raw, db')) (hactive : row.status = "active")
    (hpublic : row.publicId = issued.publicId) :
    Added db db' row.accountId row.workspaceId row.label issued ∧ DifferAt db db' [issued.id.raw] := by
  obtain ⟨apiKeys, hins, rfl, -⟩ := insertApiKeyRow_eq_ok h
  obtain ⟨hfresh, -, -, hget⟩ := Table.insert_spec hins
  have hrow : apiKeys.get issued.id.raw = some row := by rw [hget, if_pos rfl]
  refine ⟨⟨hfresh, row, hrow, hactive, rfl, rfl, rfl, hpublic⟩, ⟨apiKeys, rfl⟩, fun id => ?_⟩
  rw [List.mem_singleton]
  show apiKeys.get id ≠ db.apiKeys.get id ↔ id = issued.id.raw
  rw [hget]
  split_ifs with hid
  · rw [hid, hfresh]
    simp
  · simp [hid]

/-- The key that is issued is added and nothing else changes, or nothing changes. -/
theorem issueApiKey_adds (accountId : AccountId) (workspaceId : WorkspaceId) (label : Str) (now : UnixTimestamp)
    (draws : ℕ → Option KeyDraw) :
    (∃ e, db.issueApiKey hasher accountId workspaceId label now draws = (.error e, db)) ∨
      ∃ issued db' label', db.issueApiKey hasher accountId workspaceId label now draws = (.ok issued, db') ∧
        Added db db' accountId.raw workspaceId.raw label' issued ∧ DifferAt db db' [issued.id.raw] := by
  rcases db.issueApiKey_cases hasher accountId workspaceId label now draws with
    he | ⟨draw, generated, id, db', -, ⟨label', hins⟩, hok⟩
  · exact .inl he
  · have hadded := insertApiKeyRow_added ⟨id, generated.publicId, generated.secret⟩ hins rfl rfl
    exact .inr ⟨_, db', label', hok, hadded⟩

/-- The rows that a successful rotation writes. -/
theorem rotateIssuedApiKey_rotates (hasher : ApiKeyHasher) (db : Database) (oldApiKeyId : ApiKeyId)
    (now : UnixTimestamp) (draws : ℕ → Option KeyDraw) :
    (∃ e, db.rotateIssuedApiKey hasher oldApiKeyId now draws = (.error e, db)) ∨
      ∃ issued db' old, db.rotateIssuedApiKey hasher oldApiKeyId now draws = (.ok issued, db') ∧
        Rotated db db' oldApiKeyId now old issued ∧ ∀ w, db'.activeKeys w = db.activeKeys w := by
  rcases db.rotateIssuedApiKey_cases hasher oldApiKeyId now draws with
    he | ⟨draw, generated, id, _, -, ⟨old, db₁, hold, hactive, hins, rfl⟩, hok⟩
  · exact .inl he
  · obtain ⟨hadded, hdiffer⟩ := insertApiKeyRow_added ⟨id, generated.publicId, generated.secret⟩ hins rfl rfl
    obtain ⟨apiKeys, htable, rfl, -⟩ := insertApiKeyRow_eq_ok hins
    have hne : oldApiKeyId.raw ≠ id.raw := by
      intro heq
      have hfresh := hadded.fresh
      rw [← heq, hold] at hfresh
      cases hfresh
    have hkept : apiKeys.get oldApiKeyId.raw = some old := by
      rw [(Table.insert_spec htable).2.2.2, if_neg hne, hold]
    have hget := Table.get_update apiKeys oldApiKeyId.raw (fun r => r.status == "active") (setRevoked now)
    have hrevoked : (apiKeys.update oldApiKeyId.raw (fun r => r.status == "active") (setRevoked now)).get
        oldApiKeyId.raw = some (setRevoked now old) := by
      rw [hget, if_pos rfl, hkept]
      simp [hactive]
    refine .inr ⟨_, _, old, hok, ⟨⟨hold, hactive⟩, hrevoked, ⟨hadded.fresh, ?_⟩, ⟨_, rfl⟩, fun i => ?_⟩, fun w => ?_⟩
    · obtain ⟨key, hkey, hrow⟩ := hadded.row
      exact ⟨key, by rw [hget, if_neg hne.symm]; exact hkey, hrow⟩
    · rw [List.mem_cons, ← hdiffer.2]
      by_cases hi : i = oldApiKeyId.raw
      · subst hi
        refine iff_of_true ?_ (.inl rfl)
        rw [hrevoked, hold]
        intro heq
        have hstatus := congrArg ApiKeyRow.status (Option.some.inj heq)
        rw [hactive] at hstatus
        exact absurd (show "revoked" = "active" from hstatus) (by decide)
      · rw [hget, if_neg hi, or_iff_right hi]
    · -- the new row comes in and the old one goes out
      have hinsert := Table.length_select_insert (q := fun _ key => key.workspaceId == w && key.status == "active")
        htable
      have hupdate := Table.length_select_update (q := fun _ key => key.workspaceId == w && key.status == "active")
        (p := fun r => r.status == "active") (setRevoked now) hkept (by simp [hactive])
      have hgone : ((setRevoked now old).workspaceId == w && (setRevoked now old).status == "active") = false := by
        simp [setRevoked]
      rw [hgone, hactive] at hupdate
      rw [hinsert] at hupdate
      exact Nat.add_right_cancel hupdate

theorem rotateApiKey_error {oldApiKeyId : ApiKeyId} {now : UnixTimestamp} {generated : GeneratedApiKey}
    (h : db.apiKeys.get oldApiKeyId.raw = none ∨
      ∃ key, db.apiKeys.get oldApiKeyId.raw = some key ∧ key.status = "revoked") :
    ∃ e, db.rotateApiKey oldApiKeyId generated now = (.error e, db) := by
  rcases db.rotateApiKey_cases oldApiKeyId generated now with he | ⟨id, old, db', hold, hactive, -, -⟩
  · exact he
  · rcases h with hnone | ⟨key, hkey, hrevoked⟩
    · rw [hnone] at hold
      cases hold
    · cases hkey.symm.trans hold
      exact absurd (hactive.symm.trans hrevoked) (by decide)

/-- A transaction whose public id is taken fails, whatever the key. -/
theorem rotateApiKey_collision {oldApiKeyId : ApiKeyId} {now : UnixTimestamp} {generated : GeneratedApiKey}
    {id : ℕ} {key : ApiKeyRow} (hkey : db.apiKeys.get id = some key) (hpublic : key.publicId = generated.publicId) :
    ∃ e, db.rotateApiKey oldApiKeyId generated now = (.error e, db) := by
  rcases db.rotateApiKey_cases oldApiKeyId generated now with he | ⟨_, old, db', -, -, hins, -⟩
  · exact he
  · obtain ⟨-, -, -, hunique, -⟩ := insertApiKeyRow_eq_ok hins
    exact absurd hpublic (hunique id key hkey)

/-- The loop fails where every insertion that it may try does. -/
theorem allocateApiKey_error
    {insert : GeneratedApiKey → Database → Except AccountManagementError ApiKeyId × Database} {attempts : ℕ}
    {draws : ℕ → Option KeyDraw} (h : ∀ n < attempts, ∀ generated,
      GeneratedApiKey.generate hasher (draws n) = .ok generated → ∃ e, insert generated db = (.error e, db)) :
    ∃ e, allocateApiKey hasher insert attempts draws db = (.error e, db) := by
  induction attempts generalizing draws with
  | zero => exact ⟨_, rfl⟩
  | succ attempts ih =>
    unfold allocateApiKey
    cases hgen : GeneratedApiKey.generate hasher (draws 0) with
    | error e => exact ⟨e, rfl⟩
    | ok generated =>
      obtain ⟨e, he⟩ := h 0 (Nat.succ_pos _) generated hgen
      dsimp only
      rw [he]
      cases e with
      | database e =>
        dsimp only
        split_ifs
        · exact ih fun n hn => h (n + 1) (by omega)
        · exact ⟨_, rfl⟩
      | _ => exact ⟨_, rfl⟩

/-- The key of a rotation goes in where its public id is free, and violates a constraint where it is taken. -/
theorem Valid.insertRotated (h : Valid db) (hroom : db.apiKeys.seq + 1 < 2 ^ 63) {id : ℕ} {old : ApiKeyRow}
    (hold : db.apiKeys.get id = some old) (generated : GeneratedApiKey) (now : UnixTimestamp) :
    ((∀ i key, db.apiKeys.get i = some key → key.publicId ≠ generated.publicId) →
      ∃ apiKeys, db.apiKeys.insert (newApiKeyRow generated old.accountId old.workspaceId old.label now) =
          some (db.apiKeys.seq + 1, apiKeys) ∧
        db.insertApiKeyRow (newApiKeyRow generated old.accountId old.workspaceId old.label now) =
          .ok (db.apiKeys.seq + 1, { db with apiKeys })) ∧
    ((∃ i key, db.apiKeys.get i = some key ∧ key.publicId = generated.publicId) →
      db.insertApiKeyRow (newApiKeyRow generated old.accountId old.workspaceId old.label now) =
        .error .constraintViolation) := by
  obtain ⟨-, -, -, haccount, hworkspace⟩ := h.apiKeys id old hold
  obtain ⟨apiKeys, hinsert, -, -⟩ := db.apiKeys.insert_of_room
    (newApiKeyRow generated old.accountId old.workspaceId old.label now) hroom
  refine ⟨fun hfree => ⟨apiKeys, hinsert, ?_⟩, fun ⟨i, key, hkey, hpublic⟩ => ?_⟩
  · have hunique : (db.apiKeys.select fun _ r => r.publicId == generated.publicId).isEmpty = true :=
      select_isEmpty_iff.2 fun i key hkey => by simpa using hfree i key hkey
    unfold insertApiKeyRow insertRow
    rw [hinsert]
    simp [newApiKeyRow, hunique, generated.digest.2, haccount, hworkspace, credentialStatuses, now.nonneg, Except.map]
  · have htaken : (db.apiKeys.select fun _ r => r.publicId == generated.publicId).isEmpty = false := by
      rw [← Bool.not_eq_true, select_isEmpty_iff]
      exact fun hfree => hfree i key hkey (by simpa using hpublic)
    unfold insertApiKeyRow insertRow
    rw [hinsert]
    simp [newApiKeyRow, htaken, Except.map]

/-- While there are keys left, the transaction on an active key succeeds or finds its public id taken. -/
theorem Valid.rotateApiKey (h : Valid db) (hroom : db.apiKeys.seq + 1 < 2 ^ 63) {oldApiKeyId : ApiKeyId}
    {old : ApiKeyRow} (hold : db.apiKeys.get oldApiKeyId.raw = some old) (hactive : old.status = "active")
    (generated : GeneratedApiKey) (now : UnixTimestamp) :
    ((∀ i key, db.apiKeys.get i = some key → key.publicId ≠ generated.publicId) →
      ∃ id db', db.rotateApiKey oldApiKeyId generated now = (.ok id, db')) ∧
    ((∃ i key, db.apiKeys.get i = some key ∧ key.publicId = generated.publicId) →
      db.rotateApiKey oldApiKeyId generated now = (.error (.database .constraintViolation), db)) := by
  obtain ⟨hfree, htaken⟩ := h.insertRotated hroom hold generated now
  have hstatus : CredentialStatus.fromDatabase old.status = .ok .active := by rw [hactive]; rfl
  refine ⟨fun h => ?_, fun h => ?_⟩
  · obtain ⟨apiKeys, hinsert, hrow⟩ := hfree h
    have hkept : apiKeys.get oldApiKeyId.raw = some old := get_insert_of_isSome hinsert hold
    have hone : apiKeys.changed oldApiKeyId.raw (fun r => r.status == "active") = 1 :=
      Table.changed_eq_one hkept (by simp [hactive])
    have hid : PrivateIdentifier.fromDatabase .apiKey (db.apiKeys.seq + 1) =
        .ok ⟨db.apiKeys.seq + 1, Nat.succ_pos _, hroom⟩ := fromDatabase_eq_ok.2 rfl
    unfold Database.rotateApiKey
    simp only [hold, Fallible.ok_bind, hstatus, hrow, Except.mapError, hid, hone]
    exact ⟨_, _, rfl⟩
  · unfold Database.rotateApiKey
    simp only [hold, Fallible.ok_bind, hstatus, htaken h, Except.mapError]
    rfl

/-- The first free draw that the loop reaches rotates the key, where the draws before it collide. -/
theorem Valid.rotateIssuedApiKey (h : Valid db) (hroom : db.apiKeys.seq + 1 < 2 ^ 63) {oldApiKeyId : ApiKeyId}
    {old : ApiKeyRow} (hold : db.apiKeys.get oldApiKeyId.raw = some old) (hactive : old.status = "active")
    (now : UnixTimestamp) {draws : ℕ → Option KeyDraw} {attempts n : ℕ} (hn : n < attempts)
    (hcollide : ∀ i < n, Collides hasher db (draws i)) (hfree : Free hasher db (draws n)) :
    ∃ issued db', allocateApiKey hasher (fun generated db => db.rotateApiKey oldApiKeyId generated now) attempts draws
      db = (.ok issued, db') := by
  induction attempts generalizing draws n with
  | zero => exact absurd hn (Nat.not_lt_zero n)
  | succ attempts ih =>
    unfold allocateApiKey
    cases n with
    | zero =>
      obtain ⟨generated, hgen, hpublic⟩ := hfree
      obtain ⟨id, db', hok⟩ := (h.rotateApiKey hroom hold hactive generated now).1 hpublic
      simp only [hgen, hok]
      exact ⟨_, _, rfl⟩
    | succ n =>
      obtain ⟨generated, hgen, htaken⟩ := hcollide 0 (Nat.succ_pos n)
      simp only [hgen, (h.rotateApiKey hroom hold hactive generated now).2 htaken, isConstraintViolation, if_true]
      exact ih (by omega) (fun i hi => hcollide (i + 1) (by omega)) hfree

/-- Key rotation is all or nothing, for every database, key, time and sequence of draws. It fails where the key
is unknown or revoked or where all draws of the loop collide, it succeeds on an active key of a database that calls can
build where the loop reaches a free draw and keys are left, and it leaves every workspace as many active keys as it had.
The issue of a key adds one active row in its scope or nothing. -/
theorem rotation_is_all_or_nothing (hasher : ApiKeyHasher) (db : Database) (now : UnixTimestamp)
    (draws : ℕ → Option KeyDraw) :
    (∀ oldApiKeyId, ((∃ e, db.rotateIssuedApiKey hasher oldApiKeyId now draws = (.error e, db)) ∨
        ∃ issued db' old, db.rotateIssuedApiKey hasher oldApiKeyId now draws = (.ok issued, db') ∧
          Rotated db db' oldApiKeyId now old issued) ∧
      (db.apiKeys.get oldApiKeyId.raw = none ∨
        (∃ key, db.apiKeys.get oldApiKeyId.raw = some key ∧ key.status = "revoked") ∨
        (∀ n < API_KEY_GENERATION_ATTEMPTS, Collides hasher db (draws n)) →
        ∃ e, db.rotateIssuedApiKey hasher oldApiKeyId now draws = (.error e, db)) ∧
      (db.Valid → db.apiKeys.seq + 1 < 2 ^ 63 →
        (∃ old, db.apiKeys.get oldApiKeyId.raw = some old ∧ old.status = "active") →
        (∃ n < API_KEY_GENERATION_ATTEMPTS, (∀ i < n, Collides hasher db (draws i)) ∧ Free hasher db (draws n)) →
        ∃ issued db', db.rotateIssuedApiKey hasher oldApiKeyId now draws = (.ok issued, db')) ∧
      ∀ w, (db.rotateIssuedApiKey hasher oldApiKeyId now draws).2.activeKeys w = db.activeKeys w) ∧
    ∀ accountId workspaceId label,
      (∃ e, db.issueApiKey hasher accountId workspaceId label now draws = (.error e, db)) ∨
      ∃ issued db' label', db.issueApiKey hasher accountId workspaceId label now draws = (.ok issued, db') ∧
        Added db db' accountId.raw workspaceId.raw label' issued ∧ DifferAt db db' [issued.id.raw] := by
  refine ⟨fun oldApiKeyId => ⟨?_, ?_, ?_, ?_⟩, fun accountId workspaceId label => issueApiKey_adds _ _ _ _ _⟩
  · rcases rotateIssuedApiKey_rotates hasher db oldApiKeyId now draws with
      he | ⟨issued, db', old, hok, hrotated, -⟩
    · exact .inl he
    · exact .inr ⟨issued, db', old, hok, hrotated⟩
  · intro hfails
    refine allocateApiKey_error fun n hn generated hgen => ?_
    rcases hfails with hnone | hrevoked | hcollide
    · exact rotateApiKey_error (.inl hnone)
    · exact rotateApiKey_error (.inr hrevoked)
    · obtain ⟨generated', hgen', id, key, hkey, hpublic⟩ := hcollide n hn
      cases hgen.symm.trans hgen'
      exact rotateApiKey_collision hkey hpublic
  · rintro hvalid hroom ⟨old, hold, hactive⟩ ⟨n, hn, hcollide, hfree⟩
    exact hvalid.rotateIssuedApiKey hroom hold hactive now hn hcollide hfree
  · intro w
    rcases rotateIssuedApiKey_rotates hasher db oldApiKeyId now draws with
      ⟨e, he⟩ | ⟨issued, db', old, hok, -, hcount⟩
    · rw [he]
    · rw [hok]
      exact hcount w

end Database

end Cobra
