import CobraProxy.Proofs.Changes

/-! Invariants of the account tables: stored texts decode, references point at rows, the UNIQUE
columns are unique, every account has a limits row, and rows only grow older. -/

namespace Cobra

open Text

/-! ### Limits survive storage -/

theorem optionalNonzeroLimit_eq_ok {limit : NonZeroU64} (h : limit.1 < 2 ^ 63) (description : String) :
    optionalNonzeroLimit (some (UInt64.ofNat limit.1)) description = .ok (some limit) := by
  have hn : (UInt64.ofNat limit.1).toNat = limit.1 := UInt64.toNat_ofNat_of_lt' limit.2.2
  unfold optionalNonzeroLimit checkedDatabaseCounter NonZeroU64.new
  simp only [hn, h, limit.2.1, if_true, dite_true]

/-- A stored period limit reads back as the value it was written from. -/
theorem optionalLimit_roundtrip {limit : Option NonZeroU64} {stored : Option ℤ} (description : String)
    (h : optionalLimitToDatabase limit = .ok stored) :
    ∃ raw, optionalU64FromDatabase stored description = .ok raw ∧
      ∀ d, optionalNonzeroLimit raw d = .ok limit := by
  cases limit with
  | none =>
    obtain rfl : none = stored := by simpa [optionalLimitToDatabase] using h
    exact ⟨none, rfl, fun _ => rfl⟩
  | some limit =>
    simp only [optionalLimitToDatabase, Fallible.map_eq_ok, Database.checkedDatabaseCounter_eq_ok] at h
    obtain ⟨_, ⟨rfl, hlt⟩, rfl⟩ := h
    have hpos := limit.2.1
    have hraw : optionalU64FromDatabase (some (limit.1 : ℤ)) description =
        .ok (some (UInt64.ofNat limit.1)) := by
      simp only [optionalU64FromDatabase]
      rw [if_neg (by omega), Int.toNat_natCast]
    exact ⟨_, hraw, optionalNonzeroLimit_eq_ok hlt⟩

theorem positiveU32FromDatabase_of (limit : NonZeroU32) (description : String) :
    positiveU32FromDatabase limit.1 description = .ok (UInt32.ofNat limit.1) := by
  have hpos := limit.2.1
  have hlt := limit.2.2
  unfold positiveU32FromDatabase
  rw [if_pos ⟨by omega, by exact_mod_cast hlt⟩, if_neg (by omega), Int.toNat_natCast]

theorem nonZeroU32_new_of (limit : NonZeroU32) : NonZeroU32.new (UInt32.ofNat limit.1) = some limit := by
  have hn : (UInt32.ofNat limit.1).toNat = limit.1 := UInt32.toNat_ofNat_of_lt' limit.2.2
  unfold NonZeroU32.new
  simp only [hn, limit.2.1, dite_true]

theorem AccountLimits.fromDatabase_databaseValues {limits : AccountLimits} {values : DatabaseLimitValues}
    (h : limits.databaseValues = .ok values) : AccountLimits.fromDatabase values = .ok limits := by
  simp only [databaseValues, Fallible.bind_eq_ok, Fallible.pure_eq_ok, Except.ok.injEq] at h
  obtain ⟨requestLimit, hr, byteLimit, hb, rfl⟩ := h
  obtain ⟨rawR, hr1, hr2⟩ := optionalLimit_roundtrip "period request limit" hr
  obtain ⟨rawB, hb1, hb2⟩ := optionalLimit_roundtrip "period byte limit" hb
  simp only [fromDatabase, positiveU32FromDatabase_of, hr1, hb1, Fallible.ok_bind,
    Fallible.mapError_eq_ok, AccountLimits.new, nonZeroU32_new_of, hr2, hb2, Fallible.pure_eq_ok]

/-- A period limit that was checked fits a column. -/
theorem optionalLimitToDatabase_of_checked {value : Option UInt64} {description : String} {limit : Option NonZeroU64}
    (h : optionalNonzeroLimit value description = .ok limit) : ∃ stored, optionalLimitToDatabase limit = .ok stored := by
  cases value with
  | none =>
    cases h
    exact ⟨none, rfl⟩
  | some value =>
    unfold optionalNonzeroLimit at h
    dsimp only at h
    cases hcounter : checkedDatabaseCounter value.toNat with
    | error e =>
      rw [hcounter] at h
      cases h
    | ok stored =>
      rw [hcounter] at h
      by_cases hpos : 0 < value.toNat
      · simp only [NonZeroU64.new, hpos, dite_true] at h
        cases h
        exact ⟨some stored, congrArg (Except.map some) hcounter⟩
      · simp [NonZeroU64.new, hpos] at h

/-- The limits that `new` builds can be stored. -/
theorem AccountLimits.databaseValues_of_new {requestsPerSecond requestBurst maxConcurrentTunnels : UInt32}
    {periodRequestLimit periodByteLimit : Option UInt64} {limits : AccountLimits}
    (h : AccountLimits.new requestsPerSecond requestBurst maxConcurrentTunnels periodRequestLimit periodByteLimit =
      .ok limits) : ∃ values, limits.databaseValues = .ok values := by
  unfold AccountLimits.new at h
  split at h
  · split at h
    · split at h
      · obtain ⟨requestLimit, hrequest, h⟩ := Fallible.bind_eq_ok.1 h
        obtain ⟨byteLimit, hbyte, h⟩ := Fallible.bind_eq_ok.1 h
        cases h
        obtain ⟨storedRequest, hstoredRequest⟩ := optionalLimitToDatabase_of_checked hrequest
        obtain ⟨storedByte, hstoredByte⟩ := optionalLimitToDatabase_of_checked hbyte
        unfold databaseValues
        rw [hstoredRequest, hstoredByte]
        exact ⟨_, rfl⟩
      · cases h
    · cases h
  · cases h

namespace Database

/-! ### Plan codes survive storage -/

theorem not_isWhiteSpace_of_isAlphanum {c : Char} (h : c.isAlphanum) : isWhiteSpace c = false := by
  have hrange : 0x30 ≤ c.toNat ∧ c.toNat ≤ 0x7a := by
    simp only [Char.isAlphanum, Char.isAlpha, Char.isUpper, Char.isLower, Char.isDigit,
      Bool.or_eq_true, Bool.and_eq_true, decide_eq_true_eq, ge_iff_le, UInt32.le_iff_toNat_le] at h
    have hc : c.val.toNat = c.toNat := rfl
    rw [hc] at h
    simp at h
    omega
  simp only [isWhiteSpace, Bool.or_eq_false_iff, Bool.and_eq_false_iff, decide_eq_false_iff_not,
    beq_eq_false_iff_ne]
  omega

theorem trim_planText {text : Str} (h : isPlanText text) : trim text = text := by
  apply trim_of_noWhiteSpace
  intro c hc
  simp only [isPlanText, Bool.and_eq_true, List.all_eq_true] at h
  have hchar := h.2 c hc
  simp only [Bool.or_eq_true, beq_iff_eq] at hchar
  rcases hchar with ((halnum | rfl) | rfl) | rfl
  · exact not_isWhiteSpace_of_isAlphanum halnum
  · decide
  · decide
  · decide

theorem planCode_new_of {text : Str} (h : isPlanText text) : PlanCode.new text = .ok ⟨text, h⟩ := by
  have htrim := trim_planText h
  unfold PlanCode.new
  rw [dif_pos (by rwa [htrim])]
  simp only [htrim]

/-! ### What changes keep -/

/-- Rows stay, with the columns that identify them, and a revoked credential stays revoked. -/
structure Grows (db db' : Database) : Prop where
  accounts : ∀ id, (db.accounts.get id).isSome → (db'.accounts.get id).isSome
  workspaces : ∀ w a, db.workspaceInAccount w a → db'.workspaceInAccount w a
  apiKeys : ∀ id k, db.apiKeys.get id = some k → ∃ k', db'.apiKeys.get id = some k' ∧
    k'.publicId = k.publicId ∧ k'.keyHash = k.keyHash ∧ (k.status = "revoked" → k'.status = "revoked")
  devices : ∀ id d, db.deviceCredentials.get id = some d → ∃ d', db'.deviceCredentials.get id = some d' ∧
    d'.certificateFingerprint = d.certificateFingerprint ∧ (d.status = "revoked" → d'.status = "revoked")

variable {db db' db'' : Database}

theorem Grows.refl (db : Database) : Grows db db :=
  ⟨fun _ h => h, fun _ _ h => h, fun _ k h => ⟨k, h, rfl, rfl, fun h => h⟩, fun _ d h => ⟨d, h, rfl, fun h => h⟩⟩

theorem Grows.trans (h : Grows db db') (h' : Grows db' db'') : Grows db db'' where
  accounts id hid := h'.accounts id (h.accounts id hid)
  workspaces w a hw := h'.workspaces w a (h.workspaces w a hw)
  apiKeys id k hk := by
    obtain ⟨k₁, h1, hp, hh, hr⟩ := h.apiKeys id k hk
    obtain ⟨k₂, h2, hp', hh', hr'⟩ := h'.apiKeys id k₁ h1
    exact ⟨k₂, h2, hp'.trans hp, hh'.trans hh, fun h => hr' (hr h)⟩
  devices id d hd := by
    obtain ⟨d₁, h1, hf, hr⟩ := h.devices id d hd
    obtain ⟨d₂, h2, hf', hr'⟩ := h'.devices id d₁ h1
    exact ⟨d₂, h2, hf'.trans hf, fun h => hr' (hr h)⟩

theorem get_insert_of_isSome {ρ : Type} {t t' : Table ρ} {row r : ρ} {id i : ℕ}
    (hins : t.insert row = some (id, t')) (h : t.get i = some r) : t'.get i = some r := by
  obtain ⟨hfresh, -, -, hget⟩ := Table.insert_spec hins
  rw [hget, if_neg, h]
  rintro rfl
  rw [hfresh] at h
  cases h

theorem get_update_of_isSome {ρ : Type} {t : Table ρ} {r : ρ} {id i : ℕ} (p : ρ → Bool) (f : ρ → ρ)
    (h : t.get i = some r) : ∃ r', (t.update id p f).get i = some r' ∧ (r' = r ∨ r' = f r) := by
  rw [Table.get_update, h]
  by_cases hi : i = id
  · by_cases hp : p r <;> simp [hi, hp]
  · simp [hi]

theorem workspaceInAccount_iff {w a : ℕ} :
    db.workspaceInAccount w a ↔ ∃ row, db.workspaces.get w = some row ∧ row.accountId = a := by
  simp [workspaceInAccount, Option.any_eq_true]

theorem Update.grows (h : Update db db') : Grows db db' := by
  have base := Grows.refl db
  cases h with
  | newAccount hins =>
    refine { base with accounts := fun i hi => ?_ }
    obtain ⟨r, hr⟩ := Option.isSome_iff_exists.1 hi
    exact Option.isSome_iff_exists.2 ⟨r, get_insert_of_isSome hins hr⟩
  | account id p f =>
    refine { base with accounts := fun i hi => ?_ }
    obtain ⟨r, hr⟩ := Option.isSome_iff_exists.1 hi
    obtain ⟨r', hr', -⟩ := get_update_of_isSome p f hr
    exact Option.isSome_iff_exists.2 ⟨r', hr'⟩
  | limits => exact { base with }
  | newWorkspace hins =>
    refine { base with workspaces := fun w a hw => ?_ }
    obtain ⟨row, hrow, ha⟩ := workspaceInAccount_iff.1 hw
    exact workspaceInAccount_iff.2 ⟨row, get_insert_of_isSome hins hrow, ha⟩
  | workspaceStatus id p status =>
    refine { base with workspaces := fun w a hw => ?_ }
    obtain ⟨row, hrow, ha⟩ := workspaceInAccount_iff.1 hw
    obtain ⟨row', hrow', rfl | rfl⟩ := get_update_of_isSome p _ hrow
    · exact workspaceInAccount_iff.2 ⟨_, hrow', ha⟩
    · exact workspaceInAccount_iff.2 ⟨_, hrow', ha⟩
  | revokeApiKey id now =>
    refine { base with apiKeys := fun i k hk => ?_ }
    obtain ⟨k', hk', rfl | rfl⟩ := get_update_of_isSome (fun r => r.status == "active") (setRevoked now) hk
    · exact ⟨_, hk', rfl, rfl, fun h => h⟩
    · exact ⟨_, hk', rfl, rfl, fun _ => rfl⟩
  | revokeDevice id now =>
    refine { base with devices := fun i d hd => ?_ }
    obtain ⟨d', hd', rfl | rfl⟩ :=
      get_update_of_isSome (fun r => r.status == "active") (setDeviceRevoked now) hd
    · exact ⟨_, hd', rfl, fun h => h⟩
    · exact ⟨_, hd', rfl, fun _ => rfl⟩

theorem Change.grows (h : Change db db') : Grows db db' := by
  have base := Grows.refl db
  cases h with
  | update h => exact h.grows
  | usage h =>
    rw [h.stored]
    exact { base with }
  | newApiKey hins =>
    exact { base with apiKeys := fun i k hk => ⟨k, get_insert_of_isSome hins hk, rfl, rfl, fun h => h⟩ }
  | newDevice hins =>
    exact { base with devices := fun i d hd => ⟨d, get_insert_of_isSome hins hd, rfl, fun h => h⟩ }

theorem Changes.grows (h : Changes db db') : Grows db db' := by
  induction h with
  | refl => exact Grows.refl db
  | tail _ hc ih => exact ih.trans hc.grows

structure Valid (db : Database) : Prop where
  accountStatus : ∀ id a, db.accounts.get id = some a → a.status ∈ lifecycleStatuses
  accountPlan : ∀ id a, db.accounts.get id = some a → isPlanText a.plan
  accountLimits : ∀ id a, db.accounts.get id = some a → ∃ (limits : AccountLimits) (values : _),
    limits.databaseValues = .ok values ∧ db.accountLimits.lookup id = some values
  workspaces : ∀ id w, db.workspaces.get id = some w →
    w.status ∈ lifecycleStatuses ∧ (db.accounts.get w.accountId).isSome
  apiKeys : ∀ id k, db.apiKeys.get id = some k →
    k.keyHashVersion = API_KEY_HASH_VERSION ∧ k.keyHash.length = 32 ∧ k.status ∈ credentialStatuses ∧
      (db.accounts.get k.accountId).isSome ∧ db.workspaceInAccount k.workspaceId k.accountId
  apiKeys_unique : ∀ i j k l, db.apiKeys.get i = some k → db.apiKeys.get j = some l →
    k.publicId = l.publicId → i = j
  devices : ∀ id d, db.deviceCredentials.get id = some d → d.status ∈ credentialStatuses ∧
    (db.accounts.get d.accountId).isSome ∧ db.workspaceInAccount d.workspaceId d.accountId
  devices_unique : ∀ i j d e, db.deviceCredentials.get i = some d → db.deviceCredentials.get j = some e →
    d.certificateFingerprint = e.certificateFingerprint → i = j
  usage : ∀ key row, db.usagePeriods.lookup key = some row →
    0 ≤ row.requestsUsed ∧ 0 ≤ row.bytesToTor ∧ 0 ≤ row.bytesFromTor

theorem Valid.empty : Valid Database.empty := by
  constructor <;> simp [Database.empty]

/-- After an INSERT a row is the new one or an old one. -/
theorem get_insert_cases {ρ : Type} {t t' : Table ρ} {row r : ρ} {id i : ℕ}
    (hins : t.insert row = some (id, t')) (h : t'.get i = some r) :
    (i = id ∧ r = row) ∨ t.get i = some r := by
  obtain ⟨-, -, -, hget⟩ := Table.insert_spec hins
  rw [hget] at h
  split_ifs at h with hi
  · exact .inl ⟨hi, (Option.some.inj h).symm⟩
  · exact .inr h

/-- After an UPDATE a row is the image of an old one or that old one. -/
theorem get_update_cases {ρ : Type} {t : Table ρ} {r : ρ} {id i : ℕ} {p : ρ → Bool} {f : ρ → ρ}
    (h : (t.update id p f).get i = some r) :
    ∃ old, t.get i = some old ∧ (r = old ∨ r = f old) := by
  rw [Table.get_update] at h
  split_ifs at h
  · obtain ⟨old, hold, rfl⟩ := Option.map_eq_some_iff.1 h
    refine ⟨old, hold, ?_⟩
    split_ifs
    · exact .inr rfl
    · exact .inl rfl
  · exact ⟨r, h, .inl rfl⟩

theorem insert_unique {ρ α : Type} {t t' : Table ρ} {row : ρ} {id : ℕ} {col : ρ → α}
    (hins : t.insert row = some (id, t')) (hnew : ∀ i r, t.get i = some r → col r ≠ col row)
    (hold : ∀ i j k l, t.get i = some k → t.get j = some l → col k = col l → i = j) :
    ∀ i j k l, t'.get i = some k → t'.get j = some l → col k = col l → i = j := by
  intro i j k l hi hj hkl
  rcases get_insert_cases hins hi with ⟨rfl, rfl⟩ | hi <;> rcases get_insert_cases hins hj with ⟨rfl, rfl⟩ | hj
  · rfl
  · exact absurd hkl.symm (hnew j l hj)
  · exact absurd hkl (hnew i k hi)
  · exact hold i j k l hi hj hkl

theorem update_unique {ρ α : Type} {t : Table ρ} {id : ℕ} {p : ρ → Bool} {f : ρ → ρ} {col : ρ → α}
    (hf : ∀ r, col (f r) = col r)
    (hold : ∀ i j k l, t.get i = some k → t.get j = some l → col k = col l → i = j) :
    ∀ i j k l, (t.update id p f).get i = some k → (t.update id p f).get j = some l →
      col k = col l → i = j := by
  intro i j k l hi hj hkl
  obtain ⟨k', hi', hk⟩ := get_update_cases hi
  obtain ⟨l', hj', hl⟩ := get_update_cases hj
  have hck : col k = col k' := by rcases hk with rfl | rfl <;> simp [hf]
  have hcl : col l = col l' := by rcases hl with rfl | rfl <;> simp [hf]
  exact hold i j k' l' hi' hj' (by rw [← hck, ← hcl, hkl])

theorem active_mem_lifecycle : "active" ∈ lifecycleStatuses := by decide

theorem active_mem_credential : "active" ∈ credentialStatuses := by decide

theorem revoked_mem_credential : "revoked" ∈ credentialStatuses := by decide

theorem Valid.update (h : Valid db) (hc : Update db db') : Valid db' := by
  have hg := hc.grows
  cases hc with
  | @newAccount row id accounts limits values hins hstatus hplan hvalues =>
    refine { h with
      accountStatus := ?_, accountPlan := ?_, accountLimits := ?_, workspaces := ?_, apiKeys := ?_, devices := ?_ }
    · intro i a ha
      rcases get_insert_cases hins ha with ⟨-, rfl⟩ | ha
      · rw [hstatus]; exact active_mem_lifecycle
      · exact h.accountStatus i a ha
    · intro i a ha
      rcases get_insert_cases hins ha with ⟨-, rfl⟩ | ha
      · exact hplan
      · exact h.accountPlan i a ha
    · intro i a ha
      dsimp only
      rcases get_insert_cases hins ha with ⟨rfl, -⟩ | hold
      · exact ⟨limits, values, hvalues, Finmap.lookup_insert _⟩
      · obtain ⟨limits', values', hv, hl⟩ := h.accountLimits i a hold
        have hne : i ≠ id := by
          rintro rfl
          rw [(Table.insert_spec hins).1] at hold
          cases hold
        exact ⟨limits', values', hv, by rw [Finmap.lookup_insert_of_ne _ hne, hl]⟩
    · exact fun i w hw => ⟨(h.workspaces i w hw).1, hg.accounts _ (h.workspaces i w hw).2⟩
    · intro i k hk
      obtain ⟨h1, h2, h3, h4, h5⟩ := h.apiKeys i k hk
      exact ⟨h1, h2, h3, hg.accounts _ h4, h5⟩
    · intro i d hd
      obtain ⟨h1, h2, h3⟩ := h.devices i d hd
      exact ⟨h1, hg.accounts _ h2, h3⟩
  | account id p f hstatus hplan =>
    refine { h with
      accountStatus := ?_, accountPlan := ?_, accountLimits := ?_, workspaces := ?_, apiKeys := ?_, devices := ?_ }
    · intro i a ha
      obtain ⟨old, hold, rfl | rfl⟩ := get_update_cases ha
      · exact h.accountStatus i a hold
      · rcases hstatus old with heq | hmem
        · rw [heq]; exact h.accountStatus i old hold
        · exact hmem
    · intro i a ha
      obtain ⟨old, hold, rfl | rfl⟩ := get_update_cases ha
      · exact h.accountPlan i a hold
      · rcases hplan old with heq | hvalid
        · rw [heq]; exact h.accountPlan i old hold
        · exact hvalid
    · intro i a ha
      obtain ⟨old, hold, -⟩ := get_update_cases ha
      exact h.accountLimits i old hold
    · exact fun i w hw => ⟨(h.workspaces i w hw).1, hg.accounts _ (h.workspaces i w hw).2⟩
    · intro i k hk
      obtain ⟨h1, h2, h3, h4, h5⟩ := h.apiKeys i k hk
      exact ⟨h1, h2, h3, hg.accounts _ h4, h5⟩
    · intro i d hd
      obtain ⟨h1, h2, h3⟩ := h.devices i d hd
      exact ⟨h1, hg.accounts _ h2, h3⟩
  | @limits id limits values hvalues =>
    refine { h with accountLimits := ?_ }
    intro i a ha
    by_cases hi : i = id
    · subst hi
      exact ⟨limits, values, hvalues, Finmap.lookup_insert _⟩
    · obtain ⟨limits', values', hv, hl⟩ := h.accountLimits i a ha
      exact ⟨limits', values', hv, by rw [← hl]; exact Finmap.lookup_insert_of_ne _ hi⟩
  | newWorkspace hins hstatus haccount =>
    refine { h with workspaces := ?_, apiKeys := ?_, devices := ?_ }
    · intro i w hw
      rcases get_insert_cases hins hw with ⟨-, rfl⟩ | hw
      · rw [hstatus]; exact ⟨active_mem_lifecycle, haccount⟩
      · exact h.workspaces i w hw
    · intro i k hk
      obtain ⟨h1, h2, h3, h4, h5⟩ := h.apiKeys i k hk
      exact ⟨h1, h2, h3, h4, hg.workspaces _ _ h5⟩
    · intro i d hd
      obtain ⟨h1, h2, h3⟩ := h.devices i d hd
      exact ⟨h1, h2, hg.workspaces _ _ h3⟩
  | workspaceStatus id p status =>
    refine { h with workspaces := ?_, apiKeys := ?_, devices := ?_ }
    · intro i w hw
      obtain ⟨old, hold, rfl | rfl⟩ := get_update_cases hw
      · exact h.workspaces i w hold
      · have hstatus : status.asDatabaseValue ∈ lifecycleStatuses := by cases status <;> decide
        exact ⟨hstatus, (h.workspaces i old hold).2⟩
    · intro i k hk
      obtain ⟨h1, h2, h3, h4, h5⟩ := h.apiKeys i k hk
      exact ⟨h1, h2, h3, h4, hg.workspaces _ _ h5⟩
    · intro i d hd
      obtain ⟨h1, h2, h3⟩ := h.devices i d hd
      exact ⟨h1, h2, hg.workspaces _ _ h3⟩
  | revokeApiKey id now =>
    refine { h with apiKeys := ?_, apiKeys_unique := update_unique (fun _ => rfl) h.apiKeys_unique }
    intro i k hk
    obtain ⟨old, hold, rfl | rfl⟩ := get_update_cases hk
    · exact h.apiKeys i k hold
    · obtain ⟨h1, h2, -, h4, h5⟩ := h.apiKeys i old hold
      exact ⟨h1, h2, revoked_mem_credential, h4, h5⟩
  | revokeDevice id now =>
    refine { h with devices := ?_, devices_unique := update_unique (fun _ => rfl) h.devices_unique }
    intro i d hd
    obtain ⟨old, hold, rfl | rfl⟩ := get_update_cases hd
    · exact h.devices i d hold
    · exact ⟨revoked_mem_credential, (h.devices i old hold).2⟩

theorem Valid.change (h : Valid db) (hc : Change db db') : Valid db' := by
  cases hc with
  | update hc => exact h.update hc
  | @usage _ identity periodStart delta snapshot hrec =>
    rw [hrec.stored]
    refine { h with usage := fun key row hl => ?_ }
    by_cases hk : key = usageKey identity periodStart
    · subst hk
      cases Option.some.inj ((Finmap.lookup_insert _).symm.trans hl)
      exact ⟨Int.natCast_nonneg _, Int.natCast_nonneg _, Int.natCast_nonneg _⟩
    · exact h.usage key row ((Finmap.lookup_insert_of_ne _ hk).symm.trans hl)
  | newApiKey hins hstatus hversion hhash hunique haccount hworkspace =>
    refine { h with apiKeys := ?_, apiKeys_unique := insert_unique hins hunique h.apiKeys_unique }
    intro i k hk
    rcases get_insert_cases hins hk with ⟨-, rfl⟩ | hk
    · exact ⟨hversion, hhash, by rw [hstatus]; exact active_mem_credential, haccount, hworkspace⟩
    · exact h.apiKeys i k hk
  | newDevice hins hstatus hunique haccount hworkspace =>
    refine { h with devices := ?_, devices_unique := insert_unique hins hunique h.devices_unique }
    intro i d hd
    rcases get_insert_cases hins hd with ⟨-, rfl⟩ | hd
    · exact ⟨by rw [hstatus]; exact active_mem_credential, haccount, hworkspace⟩
    · exact h.devices i d hd

theorem Valid.changes (h : Valid db) (hc : Changes db db') : Valid db' := by
  induction hc with
  | refl => exact h
  | tail _ hc ih => exact ih.change hc

end Database

end Cobra
