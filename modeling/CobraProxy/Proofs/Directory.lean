import CobraProxy.Proofs.Accounts
import CobraProxy.Spec.Directory

/-! The account tables refine the map of accounts: a call replies what the map says and leaves the tables in a state
that stands for the map after it, and the queries read the map. -/

namespace Cobra

open Text

/-- The row of an account, under its key. -/
def AccountRecord.row (r : AccountRecord) : ℕ × AccountRow :=
  (r.id.raw, { email := r.email, stripeCustomerId := r.stripeCustomerId, plan := r.plan.text,
               status := r.status.asDatabaseValue })

theorem AccountStatus.fromDatabase_asDatabaseValue (status : AccountStatus) :
    AccountStatus.fromDatabase status.asDatabaseValue = .ok status := by cases status <;> rfl

theorem AccountStatus.asDatabaseValue_inj {a b : AccountStatus} :
    a.asDatabaseValue = b.asDatabaseValue ↔ a = b := by
  constructor
  · intro h
    have hread := fromDatabase_asDatabaseValue a
    rw [h, fromDatabase_asDatabaseValue] at hread
    exact (Except.ok.inj hread).symm
  · exact fun h => h ▸ rfl

theorem normalizeEmail_lower {value email : Str} (h : normalizeEmail value = .ok email) :
    toAsciiLowercase email = email := by
  unfold normalizeEmail at h
  dsimp only at h
  split_ifs at h
  cases h
  exact toAsciiLowercase_idem _

/-- The tables stand for the map. -/
structure Represents (db : Database) (d : Directory) : Prop where
  rows : db.accounts.rows = d.map AccountRecord.row
  seq : db.accounts.seq = d.length
  /-- Every account has a limits row, and every limits row an account. -/
  limits : ∀ r ∈ d, ∃ values, r.limits.databaseValues = .ok values ∧ db.accountLimits.lookup r.id.raw = some values
  owners : ∀ id ∈ db.accountLimits, ∃ r ∈ d, r.id.raw = id
  lower : ∀ r ∈ d, toAsciiLowercase r.email = r.email
  emails : d.Pairwise fun a b => a.email ≠ b.email
  stripeIds : d.Pairwise fun a b => a.stripeCustomerId = none ∨ a.stripeCustomerId ≠ b.stripeCustomerId

namespace Represents

variable {db : Database} {d : Directory}

theorem empty : Represents Database.empty [] :=
  ⟨rfl, rfl, by simp, fun id h => absurd h Finmap.notMem_empty, by simp, .nil, .nil⟩

/-- Ids are unique and increase. -/
theorem sorted (h : Represents db d) : d.Pairwise fun a b => a.id.raw < b.id.raw := by
  have hsorted := db.accounts.sorted
  rw [h.rows, List.map_map, List.pairwise_map] at hsorted
  exact hsorted

theorem get (h : Represents db d) (accountId : AccountId) :
    db.accounts.get accountId.raw = (d.find accountId).map fun r => r.row.2 := by
  unfold Table.get Directory.find
  rw [h.rows]
  clear h
  induction d with
  | nil => rfl
  | cons r d ih =>
    rw [List.map_cons, List.lookup_cons, List.find?_cons]
    by_cases hr : r.id = accountId
    · simp [AccountRecord.row, hr]
    · have hne : (accountId.raw == r.id.raw) = false :=
        beq_eq_false_iff_ne.2 fun heq => hr (PrivateIdentifier.ext heq.symm)
      simp only [AccountRecord.row, hne, hr, decide_false]
      exact ih

theorem mem_of_find {accountId : AccountId} {r : AccountRecord} (h : d.find accountId = some r) :
    r ∈ d ∧ r.id = accountId := by
  refine ⟨List.mem_of_find?_eq_some h, ?_⟩
  simpa using List.find?_some h

theorem find_of_mem (h : Represents db d) {r : AccountRecord} (hr : r ∈ d) : d.find r.id = some r := by
  have hids : (d.map AccountRecord.id).Nodup := by
    rw [List.Nodup, List.pairwise_map]
    exact h.sorted.imp fun hlt heq => absurd (congrArg PrivateIdentifier.raw heq) (Nat.ne_of_lt hlt)
  cases hfind : d.find r.id with
  | none =>
    have hnone := List.find?_eq_none.1 hfind r hr
    simp at hnone
  | some r' =>
    obtain ⟨hr', hid⟩ := mem_of_find hfind
    rw [List.inj_on_of_nodup_map hids hr' hr hid]

theorem select (h : Represents db d) (p : ℕ → AccountRow → Bool) :
    db.accounts.select p = (d.filter fun r => p r.row.1 r.row.2).map AccountRecord.row := by
  rw [Table.select, h.rows, List.filter_map]
  rfl

/-- A row of the join reads back as the record it was written from. -/
theorem accountRecordFromRaw (h : Represents db d) {r : AccountRecord} (hr : r ∈ d)
    {values : DatabaseLimitValues} (hvalues : db.accountLimits.lookup r.id.raw = some values) :
    Database.accountRecordFromRaw r.row.1 r.row.2 values = .ok r := by
  obtain ⟨values', hread, hvalues'⟩ := h.limits r hr
  cases hvalues.symm.trans hvalues'
  have hid : PrivateIdentifier.fromDatabase .account r.id.raw = .ok r.id := Database.fromDatabase_eq_ok.2 rfl
  simp only [Database.accountRecordFromRaw, AccountRecord.row, hid, Database.planCode_new_of r.plan.valid,
    AccountStatus.fromDatabase_asDatabaseValue, AccountLimits.fromDatabase_databaseValues hread]
  rfl

theorem account (h : Represents db d) (accountId : AccountId) :
    db.account accountId = (d.find accountId).elim (.error (.notFound .account)) .ok := by
  cases hfind : d.find accountId with
  | none => simp [Database.account, h.get, hfind]
  | some r =>
    obtain ⟨hr, rfl⟩ := mem_of_find hfind
    obtain ⟨values, hread, hvalues⟩ := h.limits r hr
    simp only [Database.account, h.get, hfind, hvalues, Option.map_some, Option.bind_eq_bind, Option.bind_some,
      Option.pure_def, AccountRecord.row, Database.planCode_new_of r.plan.valid,
      AccountStatus.fromDatabase_asDatabaseValue, AccountLimits.fromDatabase_databaseValues hread]
    rfl

theorem listAccounts (h : Represents db d) : db.listAccounts = .ok d := by
  have hread : ∀ l : Directory, (∀ r ∈ l, r ∈ d) →
      ((l.map AccountRecord.row).filterMap fun row =>
        (db.accountLimits.lookup row.1).map fun values => (row.1, row.2, values)).mapM
        (fun row => Database.accountRecordFromRaw row.1 row.2.1 row.2.2) = .ok l := by
    intro l hl
    induction l with
    | nil => rfl
    | cons r l ih =>
      obtain ⟨values, -, hvalues⟩ := h.limits r (hl r (List.mem_cons_self ..))
      have hlookup : db.accountLimits.lookup r.row.1 = some values := hvalues
      rw [List.map_cons, List.filterMap_cons]
      simp only [hlookup, Option.map_some, List.mapM_cons]
      rw [h.accountRecordFromRaw (hl r (List.mem_cons_self ..)) hvalues, Fallible.ok_bind,
        ih fun r hr => hl r (List.mem_cons_of_mem _ hr)]
      rfl
  unfold Database.listAccounts
  rw [h.select, List.filter_true]
  exact hread d fun _ hr => hr

/-- A query for ids finds the account of its first row. -/
theorem accountOfFirst (h : Represents db d) (p : ℕ → AccountRow → Bool) :
    db.accountOfFirst (db.accounts.select p) =
      (d.find? fun r => p r.row.1 r.row.2).elim (.error (.notFound .account)) .ok := by
  unfold Database.accountOfFirst
  rw [h.select, List.head?_map, List.head?_filter]
  cases hfind : d.find? fun r => p r.row.1 r.row.2 with
  | none => rfl
  | some r =>
    have hid : PrivateIdentifier.fromDatabase .account r.id.raw = .ok r.id := Database.fromDatabase_eq_ok.2 rfl
    have haccount := h.account r.id
    rw [h.find_of_mem (List.mem_of_find?_eq_some hfind)] at haccount
    simp only [Option.map_some, AccountRecord.row, hid, Fallible.ok_bind, haccount, Option.elim_some]

theorem accountByEmail (h : Represents db d) (email : Str) : db.accountByEmail email =
    (do
      let email ← normalizeEmail email
      (d.find? fun r => r.email = email).elim (.error (.notFound .account)) .ok) := by
  unfold Database.accountByEmail
  cases hemail : normalizeEmail email with
  | error e => rfl
  | ok email =>
    have hsame : ∀ r ∈ d, eqIgnoreAsciiCase r.row.2.email email = decide (r.email = email) := by
      intro r hr
      rw [eqIgnoreAsciiCase, normalizeEmail_lower hemail]
      show (toAsciiLowercase r.email == email) = _
      rw [h.lower r hr, beq_eq_decide]
    rw [Fallible.ok_bind, Fallible.ok_bind, h.accountOfFirst, List.find?_congr hsame]

theorem accountByStripeCustomerId (h : Represents db d) (stripeCustomerId : Str) :
    db.accountByStripeCustomerId stripeCustomerId =
    (do
      let stripeCustomerId ← normalizeStripeCustomerId (some stripeCustomerId)
      (d.find? fun r => r.stripeCustomerId = stripeCustomerId).elim (.error (.notFound .account)) .ok) := by
  unfold Database.accountByStripeCustomerId normalizeStripeCustomerId
  dsimp only
  split_ifs
  · rfl
  · simp only [Fallible.ok_bind]
    rw [h.accountOfFirst]
    simp only [beq_eq_decide]
    rfl

/-! ### Calls -/

/-- A call that the map refuses leaves the tables as they are; any other replies as the map says. -/
def Simulates (db : Database) (result : Except AccountManagementError AccountReply × Database) :
    Except AccountManagementError (AccountReply × Directory) → Prop
  | .ok (reply, d') => result.1 = .ok reply ∧ Represents result.2 d'
  | .error e => result = (.error e, db)

/-- A row that is updated is the row of a record that is set. -/
theorem update_rows (h : Represents db d) {accountId : AccountId} {p : AccountRow → Bool} {f : AccountRow → AccountRow}
    {g : AccountRecord → AccountRecord}
    (hg : ∀ r ∈ d, r.id = accountId → (g r).row = (r.row.1, if p r.row.2 then f r.row.2 else r.row.2)) :
    (db.accounts.update accountId.raw p f).rows = (d.set accountId g).map AccountRecord.row := by
  show db.accounts.rows.map _ = _
  rw [h.rows, List.map_map, Directory.set, List.map_map]
  refine List.map_congr_left fun r hr => ?_
  by_cases hid : r.id = accountId
  · have hraw : r.row.1 = accountId.raw := congrArg PrivateIdentifier.raw hid
    simp only [Function.comp_apply, hid, if_true, hg r hr hid, hraw, true_and]
    split_ifs
    · rfl
    · rw [← hraw]
  · have hraw : r.row.1 ≠ accountId.raw := fun heq => hid (PrivateIdentifier.ext heq)
    simp [hid, hraw]

theorem databaseValues_pos {limits : AccountLimits} {values : DatabaseLimitValues}
    (h : limits.databaseValues = .ok values) : 0 < values.requestsPerSecond ∧ 0 < values.requestBurst ∧
      0 < values.maxConcurrentTunnels ∧ values.periodRequestLimit.all (fun n => decide (0 < n)) ∧
      values.periodByteLimit.all (fun n => decide (0 < n)) := by
  have hoptional : ∀ {limit : Option NonZeroU64} {stored : Option ℤ}, optionalLimitToDatabase limit = .ok stored →
      stored.all (fun n => decide (0 < n)) = true := by
    intro limit stored hstored
    cases limit with
    | none =>
      cases hstored
      rfl
    | some limit =>
      simp only [optionalLimitToDatabase, Fallible.map_eq_ok, Database.checkedDatabaseCounter_eq_ok] at hstored
      obtain ⟨_, ⟨rfl, -⟩, rfl⟩ := hstored
      have := limit.2.1
      simpa using this
  simp only [AccountLimits.databaseValues, Fallible.bind_eq_ok, Fallible.pure_eq_ok, Except.ok.injEq] at h
  obtain ⟨requestLimit, hrequests, byteLimit, hbytes, rfl⟩ := h
  have h₁ := limits.requestsPerSecond.2.1
  have h₂ := limits.requestBurst.2.1
  have h₃ := limits.maxConcurrentTunnels.2.1
  exact ⟨by simpa using h₁, by simpa using h₂, by simpa using h₃, hoptional hrequests, hoptional hbytes⟩

theorem isEmpty_select (h : Represents db d) (p : ℕ → AccountRow → Bool) :
    (db.accounts.select p).isEmpty = !(d.any fun r => p r.row.1 r.row.2) := by
  rw [h.select, List.isEmpty_map, Bool.eq_iff_iff]
  simp [List.isEmpty_iff, List.filter_eq_nil_iff]

/-- The UNIQUE constraints of a new row are what the map asks of a new account. -/
theorem constraints (h : Represents db d) {email : Str} (hemail : toAsciiLowercase email = email)
    (stripeCustomerId : Option Str) :
    ((db.accounts.select fun _ r => eqIgnoreAsciiCase r.email email).isEmpty &&
      (db.accounts.select fun _ r =>
        stripeCustomerId.isSome && r.stripeCustomerId == stripeCustomerId).isEmpty &&
      decide ("active" ∈ Database.lifecycleStatuses)) =
    !(d.any fun r => r.email = email ∨ (stripeCustomerId.isSome ∧ r.stripeCustomerId = stripeCustomerId)) := by
  have hactive : decide ("active" ∈ Database.lifecycleStatuses) = true := by decide
  have hsame : ∀ r ∈ d, (eqIgnoreAsciiCase r.row.2.email email = true ↔ r.email = email) := by
    intro r hr
    rw [eqIgnoreAsciiCase, hemail, beq_iff_eq]
    show toAsciiLowercase r.email = email ↔ _
    rw [h.lower r hr]
  rw [hactive, Bool.and_true, h.isEmpty_select, h.isEmpty_select, ← Bool.not_or]
  congr 1
  rw [Bool.eq_iff_iff]
  simp only [Bool.or_eq_true, List.any_eq_true, decide_eq_true_eq, Bool.and_eq_true, beq_iff_eq]
  constructor
  · rintro (⟨r, hr, heq⟩ | ⟨r, hr, heq⟩)
    · exact ⟨r, hr, .inl ((hsame r hr).1 heq)⟩
    · exact ⟨r, hr, .inr heq⟩
  · rintro ⟨r, hr, heq | heq⟩
    · exact .inl ⟨r, hr, (hsame r hr).2 heq⟩
    · exact .inr ⟨r, hr, heq⟩

/-- The tables after an account has been added. -/
theorem append (h : Represents db d) {r : AccountRecord} {accounts : Table AccountRow}
    {values : DatabaseLimitValues} (hid : r.id.raw = d.length + 1)
    (hrows : accounts.rows = db.accounts.rows ++ [r.row]) (hseq : accounts.seq = db.accounts.seq + 1)
    (hvalues : r.limits.databaseValues = .ok values) (hlower : toAsciiLowercase r.email = r.email)
    (hnew : ∀ r' ∈ d, r'.email ≠ r.email ∧
      (r.stripeCustomerId.isSome = true → r'.stripeCustomerId ≠ r.stripeCustomerId)) :
    Represents { db with accounts, accountLimits := db.accountLimits.insert r.id.raw values } (d ++ [r]) := by
  have hfresh : ∀ r' ∈ d, r'.id.raw ≠ r.id.raw := by
    intro r' hr'
    have hmem : r'.row ∈ db.accounts.rows := by
      rw [h.rows]
      exact List.mem_map_of_mem hr'
    have hle : r'.id.raw ≤ db.accounts.seq := (db.accounts.bounded _ hmem).2
    rw [h.seq] at hle
    omega
  refine ⟨?_, ?_, fun r' hr' => ?_, fun id hid => ?_, fun r' hr' => ?_, ?_, ?_⟩
  · rw [hrows, h.rows, List.map_append, List.map_singleton]
  · rw [hseq, h.seq, List.length_append, List.length_singleton]
  · rcases List.mem_append.1 hr' with hr' | hr'
    · obtain ⟨values', hread, hlookup⟩ := h.limits r' hr'
      exact ⟨values', hread, by rw [Finmap.lookup_insert_of_ne _ (hfresh r' hr'), hlookup]⟩
    · rw [List.mem_singleton.1 hr']
      exact ⟨values, hvalues, Finmap.lookup_insert _⟩
  · rcases Finmap.mem_insert.1 hid with rfl | hid
    · exact ⟨r, by simp, rfl⟩
    · obtain ⟨r', hr', heq⟩ := h.owners id hid
      exact ⟨r', List.mem_append_left _ hr', heq⟩
  · rcases List.mem_append.1 hr' with hr' | hr'
    · exact h.lower r' hr'
    · rw [List.mem_singleton.1 hr']
      exact hlower
  · refine List.pairwise_append.2 ⟨h.emails, List.pairwise_singleton _ _, fun r' hr' x hx => ?_⟩
    rw [List.mem_singleton.1 hx]
    exact (hnew r' hr').1
  · refine List.pairwise_append.2 ⟨h.stripeIds, List.pairwise_singleton _ _, fun r' hr' x hx => ?_⟩
    rw [List.mem_singleton.1 hx]
    cases hs : r'.stripeCustomerId with
    | none => exact .inl rfl
    | some stripeCustomerId =>
      refine .inr fun heq => (hnew r' hr').2 ?_ (hs.trans heq)
      rw [← heq]
      rfl

theorem createAccount (h : Represents db d) (email : Str) (stripeCustomerId : Option Str) (plan : PlanCode)
    (limits : AccountLimits) :
    Simulates db (AccountCall.perform db (.createAccount email stripeCustomerId plan limits))
      (d.apply (.createAccount email stripeCustomerId plan limits)) := by
  simp only [AccountCall.perform, Directory.apply, Database.createAccount]
  cases hemail : normalizeEmail email with
  | error e => rfl
  | ok email =>
    cases hstripe : normalizeStripeCustomerId stripeCustomerId with
    | error e => rfl
    | ok stripeCustomerId =>
      cases hvalues : limits.databaseValues with
      | error e => rfl
      | ok values =>
        have hlower := normalizeEmail_lower hemail
        have hconstraints := h.constraints hlower stripeCustomerId
        simp only [Fallible.ok_bind, Database.insertAccountRow, Database.insertRow]
        by_cases hroom : d.length + 1 < 2 ^ 63
        · obtain ⟨accounts, hins, hrows, hseq⟩ := Table.insert_of_room (t := db.accounts)
            { email, stripeCustomerId, plan := plan.text, status := "active" } (by rwa [h.seq])
          have hfrom : PrivateIdentifier.fromDatabase .account (db.accounts.seq + 1) =
              .ok ⟨d.length + 1, Nat.succ_pos _, hroom⟩ :=
            Database.fromDatabase_eq_ok.2 (by rw [h.seq])
          rw [hins, Directory.nextId, dif_pos hroom]
          simp only [Fallible.ok_bind]
          rw [hconstraints]
          cases hany : d.any fun r => r.email = email ∨ (stripeCustomerId.isSome ∧ r.stripeCustomerId = stripeCustomerId) with
          | true => rfl
          | false =>
            have hlimits : Database.insertLimitsRow { db with accounts } (d.length + 1) values =
                .ok { db with accounts, accountLimits := db.accountLimits.insert (d.length + 1) values } := by
              obtain ⟨h₁, h₂, h₃, h₄, h₅⟩ := databaseValues_pos hvalues
              have hrow := (Table.insert_spec hins).2.2.2 (d.length + 1)
              rw [h.seq, if_pos rfl] at hrow
              unfold Database.insertLimitsRow
              rw [if_pos]
              refine ⟨fun hmem => ?_, by dsimp only; rw [hrow]; rfl, h₁, h₂, h₃, h₄, h₅⟩
              obtain ⟨r, hr, heq⟩ := h.owners _ hmem
              have hle := (db.accounts.bounded r.row (by rw [h.rows]; exact List.mem_map_of_mem hr)).2
              rw [h.seq] at hle
              have : r.row.1 = d.length + 1 := heq
              omega
            simp only [Bool.not_false, if_true, Except.map, Except.mapError, Fallible.ok_bind, hfrom, hlimits,
              Bool.false_eq_true, if_false]
            refine ⟨rfl, ?_⟩
            refine h.append (r := ⟨⟨d.length + 1, Nat.succ_pos _, hroom⟩, email, stripeCustomerId, plan, .active, limits⟩)
              rfl ?_ hseq hvalues hlower fun r hr => ?_
            · rw [hrows, h.seq]
              rfl
            · have hfree := List.any_eq_false.1 hany r hr
              simp only [decide_eq_true_eq, not_or, not_and] at hfree
              exact hfree
        · rw [Table.insert_of_full _ (by rwa [h.seq]), Directory.nextId, dif_neg hroom]
          rfl

/-- The tables after a record has been set. -/
theorem set (h : Represents db d) {accountId : AccountId} {g : AccountRecord → AccountRecord}
    {accounts : Table AccountRow} {accountLimits : Finmap fun _ : ℕ => DatabaseLimitValues}
    (hid : ∀ r, (g r).id = r.id) (hemail : ∀ r, (g r).email = r.email)
    (hrows : accounts.rows = (d.set accountId g).map AccountRecord.row) (hseq : accounts.seq = db.accounts.seq)
    (hlimits : ∀ r ∈ d, ∃ values, (if r.id = accountId then g r else r).limits.databaseValues = .ok values ∧
      accountLimits.lookup r.id.raw = some values)
    (howners : ∀ id ∈ accountLimits, id ∈ db.accountLimits)
    (hstripe : (d.set accountId g).Pairwise fun a b =>
      a.stripeCustomerId = none ∨ a.stripeCustomerId ≠ b.stripeCustomerId) :
    Represents { db with accounts, accountLimits } (d.set accountId g) := by
  have hid' : ∀ r : AccountRecord, (if r.id = accountId then g r else r).id = r.id := by
    intro r
    split_ifs
    · exact hid r
    · rfl
  have hemail' : ∀ r : AccountRecord, (if r.id = accountId then g r else r).email = r.email := by
    intro r
    split_ifs
    · exact hemail r
    · rfl
  refine ⟨hrows, ?_, fun r' hr' => ?_, fun id hmem => ?_, fun r' hr' => ?_, ?_, hstripe⟩
  · rw [hseq, h.seq, Directory.set, List.length_map]
  · obtain ⟨r, hr, rfl⟩ := List.mem_map.1 hr'
    rw [hid']
    exact hlimits r hr
  · obtain ⟨r, hr, heq⟩ := h.owners id (howners id hmem)
    exact ⟨_, List.mem_map_of_mem hr, by rw [hid', heq]⟩
  · obtain ⟨r, hr, rfl⟩ := List.mem_map.1 hr'
    rw [hemail']
    exact h.lower r hr
  · refine List.pairwise_map.2 (h.emails.imp fun hne => ?_)
    rwa [hemail', hemail']

theorem changed_eq_zero_iff (h : Represents db d) (accountId : AccountId) :
    db.accounts.changed accountId.raw (fun _ => true) = 0 ↔ d.find accountId = none := by
  have hpos := @Table.changed_pos_iff _ db.accounts accountId.raw fun _ => true
  rw [h.get] at hpos
  constructor
  · intro hzero
    cases hfind : d.find accountId with
    | none => rfl
    | some r =>
      rw [hfind] at hpos
      have := hpos.2 ⟨_, rfl, rfl⟩
      omega
  · intro hnone
    rw [hnone] at hpos
    by_contra hne
    obtain ⟨r, hr, -⟩ := hpos.1 (Nat.pos_of_ne_zero hne)
    cases hr

/-- A record that keeps its customer id keeps the ids apart. -/
theorem stripeIds_set (h : Represents db d) (accountId : AccountId) {g : AccountRecord → AccountRecord}
    (hg : ∀ r, (g r).stripeCustomerId = r.stripeCustomerId) :
    (d.set accountId g).Pairwise fun a b =>
      a.stripeCustomerId = none ∨ a.stripeCustomerId ≠ b.stripeCustomerId := by
  have hkept : ∀ r : AccountRecord,
      (if r.id = accountId then g r else r).stripeCustomerId = r.stripeCustomerId := by
    intro r
    split_ifs
    · exact hg r
    · rfl
  refine List.pairwise_map.2 (h.stripeIds.imp fun hne => ?_)
  rwa [hkept, hkept]

/-- A customer id that no other record has keeps the ids apart. -/
theorem stripeIds_set_of_free (h : Represents db d) (accountId : AccountId) {stripeCustomerId : Option Str}
    (hfree : ∀ r ∈ d, r.id ≠ accountId → stripeCustomerId.isSome = true → r.stripeCustomerId ≠ stripeCustomerId) :
    (d.set accountId fun r => { r with stripeCustomerId }).Pairwise fun a b =>
      a.stripeCustomerId = none ∨ a.stripeCustomerId ≠ b.stripeCustomerId := by
  refine List.pairwise_map.2 ((h.stripeIds.and h.sorted).imp_of_mem fun {a b} ha hb hab => ?_)
  obtain ⟨hapart, hlt⟩ := hab
  by_cases haid : a.id = accountId
  · have hbid : b.id ≠ accountId := by
      rintro hbid
      rw [haid, hbid] at hlt
      exact lt_irrefl _ hlt
    rw [if_pos haid, if_neg hbid]
    cases hs : stripeCustomerId with
    | none => exact .inl rfl
    | some _ => exact .inr fun heq => hfree b hb hbid (by rw [hs]; rfl) (by rw [hs, ← heq])
  · rw [if_neg haid]
    split_ifs
    · cases hs : a.stripeCustomerId with
      | none => exact .inl rfl
      | some _ =>
        refine .inr fun heq => hfree a ha haid ?_ (hs.trans heq)
        have heq : some _ = stripeCustomerId := heq
        rw [← heq]
        rfl
    · exact hapart

theorem setAccountStatus (h : Represents db d) (accountId : AccountId) (status : AccountStatus) :
    Simulates db (AccountCall.perform db (.setAccountStatus accountId status))
      (d.apply (.setAccountStatus accountId status)) := by
  have hrows := h.update_rows (p := fun r => r.status != status.asDatabaseValue)
    (f := fun r => { r with status := status.asDatabaseValue }) (g := fun r => { r with status })
    (fun r _ (_ : r.id = accountId) => by
      by_cases hs : r.status = status
      · simp [AccountRecord.row, hs]
      · have hne : (r.status.asDatabaseValue != status.asDatabaseValue) = true :=
          bne_iff_ne.2 fun heq => hs (AccountStatus.asDatabaseValue_inj.1 heq)
        simp [AccountRecord.row, hne])
  have hpos := @Table.changed_pos_iff _ db.accounts accountId.raw
    fun r => r.status != status.asDatabaseValue
  have hget := Table.get_update db.accounts accountId.raw (fun r => r.status != status.asDatabaseValue)
    (fun r => { r with status := status.asDatabaseValue }) accountId.raw
  rw [if_pos rfl] at hget
  simp only [AccountCall.perform, Directory.apply, Database.setAccountStatus, Database.updateOrMissing,
    Database.recordExists, hget]
  rw [h.get] at hpos ⊢
  cases hfind : d.find accountId with
  | none =>
    have hzero : db.accounts.changed accountId.raw (fun r => r.status != status.asDatabaseValue) = 0 := by
      by_contra hne
      rw [hfind] at hpos
      obtain ⟨r, hr, -⟩ := hpos.1 (Nat.pos_of_ne_zero hne)
      cases hr
    rw [Table.update_of_changed_eq_zero _ hzero, hzero]
    rfl
  | some r =>
    have hchanged : 0 < db.accounts.changed accountId.raw (fun r => r.status != status.asDatabaseValue) ↔
        r.status ≠ status := by
      rw [hpos, hfind]
      simp [AccountRecord.row, AccountStatus.asDatabaseValue_inj]
    set accounts := db.accounts.update accountId.raw (fun r => r.status != status.asDatabaseValue)
      fun r => { r with status := status.asDatabaseValue }
    have hset : Represents { db with accounts } (d.set accountId fun r => { r with status }) := by
      refine h.set (fun _ => rfl) (fun _ => rfl) hrows rfl (fun r hr => ?_) (fun _ hid => hid)
        (h.stripeIds_set accountId fun _ => rfl)
      obtain ⟨values, hread, hlookup⟩ := h.limits r hr
      exact ⟨values, by split_ifs <;> exact hread, hlookup⟩
    refine ⟨?_, ?_⟩
    · by_cases hs : r.status ≠ status
      · rw [if_pos (hchanged.2 hs)]
        simp [hs, Except.map]
      · rw [if_neg fun hpos => hs (hchanged.1 hpos)]
        simp [hs, Except.map]
    · by_cases hs : r.status ≠ status
      · rw [if_pos (hchanged.2 hs)]
        exact hset
      · rw [if_neg fun hpos => hs (hchanged.1 hpos)]
        exact hset

theorem updateAccountPlanAndLimits (h : Represents db d) (accountId : AccountId) (plan : PlanCode)
    (limits : AccountLimits) :
    Simulates db (AccountCall.perform db (.updateAccountPlanAndLimits accountId plan limits))
      (d.apply (.updateAccountPlanAndLimits accountId plan limits)) := by
  simp only [AccountCall.perform, Directory.apply, Database.updateAccountPlanAndLimits]
  cases hvalues : limits.databaseValues with
  | error e => rfl
  | ok values =>
    simp only [Fallible.ok_bind]
    cases hfind : d.find accountId with
    | none =>
      rw [if_pos ((h.changed_eq_zero_iff accountId).2 hfind)]
      rfl
    | some r =>
      obtain ⟨hr, hid⟩ := mem_of_find hfind
      obtain ⟨values', -, hlookup⟩ := h.limits r hr
      have hmem : accountId.raw ∈ db.accountLimits := by
        rw [← hid]
        exact Finmap.mem_iff.2 ⟨values', hlookup⟩
      have hchanged : ¬ db.accounts.changed accountId.raw (fun _ => true) = 0 := by
        rw [h.changed_eq_zero_iff, hfind]
        simp
      rw [if_neg hchanged, if_neg (not_not.2 hmem)]
      refine ⟨rfl, h.set (fun _ => rfl) (fun _ => rfl) (h.update_rows fun r _ _ => rfl) rfl (fun r hr => ?_)
        (fun id hid' => ?_) (h.stripeIds_set accountId fun _ => rfl)⟩
      · obtain ⟨values'', hread, hlookup'⟩ := h.limits r hr
        by_cases hsame : r.id = accountId
        · rw [if_pos hsame, hsame]
          exact ⟨values, hvalues, Finmap.lookup_insert _⟩
        · have hne : r.id.raw ≠ accountId.raw := fun heq => hsame (PrivateIdentifier.ext heq)
          rw [if_neg hsame, Finmap.lookup_insert_of_ne _ hne]
          exact ⟨values'', hread, hlookup'⟩
      · rcases Finmap.mem_insert.1 hid' with rfl | hid'
        · exact hmem
        · exact hid'

/-- An update to limits that `new` built is refused for an unknown account only, and the account reads it back. -/
theorem updateAccountPlanAndLimits_of_new (h : Represents db d) {accountId : AccountId} {r : AccountRecord}
    (hfind : d.find accountId = some r) (plan : PlanCode) {requestsPerSecond requestBurst maxConcurrentTunnels : UInt32}
    {periodRequestLimit periodByteLimit : Option UInt64} {limits : AccountLimits}
    (hnew : AccountLimits.new requestsPerSecond requestBurst maxConcurrentTunnels periodRequestLimit periodByteLimit =
      .ok limits) :
    (db.updateAccountPlanAndLimits accountId plan limits).1 = .ok () ∧
      (db.updateAccountPlanAndLimits accountId plan limits).2.account accountId = .ok { r with plan, limits } := by
  obtain ⟨values, hvalues⟩ := AccountLimits.databaseValues_of_new hnew
  have hsimulates := h.updateAccountPlanAndLimits accountId plan limits
  simp only [Directory.apply, hvalues, Fallible.ok_bind, hfind, AccountCall.perform] at hsimulates
  obtain ⟨hreply, hafter⟩ := hsimulates
  obtain ⟨hr, rfl⟩ := mem_of_find hfind
  have hmem : { r with plan, limits } ∈ d.set r.id fun r => { r with plan, limits } :=
    List.mem_map.2 ⟨r, hr, if_pos rfl⟩
  refine ⟨?_, ?_⟩
  · obtain ⟨_, hdone, -⟩ := Fallible.map_eq_ok.1 hreply
    exact hdone
  · exact (hafter.account r.id).trans (by rw [hafter.find_of_mem hmem]; rfl)

theorem setStripeCustomerId (h : Represents db d) (accountId : AccountId) (stripeCustomerId : Option Str) :
    Simulates db (AccountCall.perform db (.setStripeCustomerId accountId stripeCustomerId))
      (d.apply (.setStripeCustomerId accountId stripeCustomerId)) := by
  simp only [AccountCall.perform, Directory.apply, Database.setStripeCustomerId]
  cases hstripe : normalizeStripeCustomerId stripeCustomerId with
  | error e => rfl
  | ok stripeCustomerId =>
    simp only [Fallible.ok_bind]
    cases hfind : d.find accountId with
    | none =>
      rw [if_pos ((h.changed_eq_zero_iff accountId).2 hfind)]
      rfl
    | some r =>
      have hchanged : ¬ db.accounts.changed accountId.raw (fun _ => true) = 0 := by
        rw [h.changed_eq_zero_iff, hfind]
        simp
      have hfree : (db.accounts.select fun id r => id != accountId.raw && stripeCustomerId.isSome &&
          r.stripeCustomerId == stripeCustomerId).isEmpty =
          !(d.any fun r => r.id ≠ accountId ∧ stripeCustomerId.isSome ∧ r.stripeCustomerId = stripeCustomerId) := by
        rw [h.isEmpty_select]
        congr 2
        funext r
        have hraw : r.row.1 = accountId.raw ↔ r.id = accountId :=
          ⟨fun heq => PrivateIdentifier.ext heq, fun heq => congrArg PrivateIdentifier.raw heq⟩
        rw [Bool.eq_iff_iff]
        simp only [Bool.and_eq_true, bne_iff_ne, beq_iff_eq, decide_eq_true_eq, ne_eq, hraw, and_assoc]
        rfl
      rw [if_neg hchanged, hfree]
      cases hany : d.any fun r => r.id ≠ accountId ∧ stripeCustomerId.isSome ∧ r.stripeCustomerId = stripeCustomerId with
      | true => rfl
      | false =>
        refine ⟨rfl, h.set (fun _ => rfl) (fun _ => rfl) (h.update_rows fun r _ _ => rfl) rfl (fun r hr => ?_)
          (fun _ hid => hid) ?_⟩
        · obtain ⟨values, hread, hlookup⟩ := h.limits r hr
          exact ⟨values, by split_ifs <;> exact hread, hlookup⟩
        · refine h.stripeIds_set_of_free accountId fun r hr hid hsome heq => ?_
          have hnot := List.any_eq_false.1 hany r hr
          simp only [decide_eq_true_eq] at hnot
          exact hnot ⟨hid, hsome, heq⟩

theorem call (h : Represents db d) (call : AccountCall) : Simulates db (call.perform db) (d.apply call) := by
  cases call with
  | createAccount email stripeCustomerId plan limits => exact h.createAccount email stripeCustomerId plan limits
  | setAccountStatus accountId status => exact h.setAccountStatus accountId status
  | updateAccountPlanAndLimits accountId plan limits => exact h.updateAccountPlanAndLimits accountId plan limits
  | setStripeCustomerId accountId stripeCustomerId => exact h.setStripeCustomerId accountId stripeCustomerId

/-- Every sequence of calls replies as the map says and ends in tables that stand for the map. -/
theorem performs (h : Represents db d) (calls : List AccountCall) :
    (performAll calls db).1 = (applyAll calls d).1 ∧ Represents (performAll calls db).2 (applyAll calls d).2 := by
  induction calls generalizing db d with
  | nil => exact ⟨rfl, h⟩
  | cons call calls ih =>
    have hcall := h.call call
    unfold performAll applyAll Directory.after
    cases happly : d.apply call with
    | error e =>
      rw [happly] at hcall
      have hcall : call.perform db = (.error e, db) := hcall
      rw [hcall]
      obtain ⟨hreplies, hend⟩ := ih h
      exact ⟨congrArg (Except.error e :: ·) hreplies, hend⟩
    | ok result =>
      obtain ⟨reply, d'⟩ := result
      rw [happly] at hcall
      obtain ⟨hreply, hafter⟩ := hcall
      obtain ⟨hreplies, hend⟩ := ih hafter
      dsimp only
      refine ⟨?_, hend⟩
      rw [hreply]
      exact congrArg (Except.ok reply :: ·) hreplies

end Represents

/-- What can be seen of the account tables, as the map of accounts has it. -/
structure Refines (db : Database) (d : Directory) : Prop where
  account : ∀ accountId, db.account accountId = (d.find accountId).elim (.error (.notFound .account)) .ok
  accountByEmail : ∀ email, db.accountByEmail email =
    (do
      let email ← normalizeEmail email
      (d.find? fun r => r.email = email).elim (.error (.notFound .account)) .ok)
  accountByStripeCustomerId : ∀ stripeCustomerId, db.accountByStripeCustomerId stripeCustomerId =
    (do
      let stripeCustomerId ← normalizeStripeCustomerId (some stripeCustomerId)
      (d.find? fun r => r.stripeCustomerId = stripeCustomerId).elim (.error (.notFound .account)) .ok)
  listAccounts : db.listAccounts = .ok d
  increasing : d.Pairwise fun a b => a.id.raw < b.id.raw
  emails : d.Pairwise fun a b => a.email ≠ b.email
  stripeIds : d.Pairwise fun a b => a.stripeCustomerId = none ∨ a.stripeCustomerId ≠ b.stripeCustomerId
  /-- There is one limits row under the key of each account and under no other key. -/
  limitsRows : ∀ id, id ∈ db.accountLimits ↔ (db.accounts.get id).isSome = true
  /-- A call that fails changes nothing. -/
  refused : ∀ (call : AccountCall) e, (call.perform db).1 = .error e → (call.perform db).2 = db

theorem Represents.refines {db : Database} {d : Directory} (h : Represents db d) : Refines db d where
  account := h.account
  accountByEmail := h.accountByEmail
  accountByStripeCustomerId := h.accountByStripeCustomerId
  listAccounts := h.listAccounts
  increasing := h.sorted
  emails := h.emails
  stripeIds := h.stripeIds
  limitsRows := by
    intro id
    have hrow : (db.accounts.get id).isSome = true ↔ ∃ r ∈ d, r.id.raw = id := by
      rw [Option.isSome_iff_exists]
      simp only [Table.get_eq_some_iff, h.rows, List.mem_map]
      constructor
      · rintro ⟨row, r, hr, heq⟩
        exact ⟨r, hr, congrArg Prod.fst heq⟩
      · rintro ⟨r, hr, rfl⟩
        exact ⟨r.row.2, r, hr, rfl⟩
    rw [hrow]
    constructor
    · exact h.owners id
    · rintro ⟨r, hr, rfl⟩
      obtain ⟨values, -, hlookup⟩ := h.limits r hr
      exact Finmap.mem_iff.2 ⟨values, hlookup⟩
  refused := by
    intro call e herror
    have hcall := h.call call
    cases happly : d.apply call with
    | error e' =>
      rw [happly] at hcall
      have hcall : call.perform db = (.error e', db) := hcall
      rw [hcall]
    | ok result =>
      rw [happly] at hcall
      rw [hcall.1] at herror
      cases herror

/-- The account tables refine the map of accounts, for every sequence of calls from the empty schema. -/
theorem account_tables_refine_map (calls : List AccountCall) :
    (performAll calls .empty).1 = (applyAll calls []).1 ∧
      Refines (performAll calls .empty).2 (applyAll calls []).2 := by
  obtain ⟨hreplies, hend⟩ := Represents.empty.performs calls
  exact ⟨hreplies, hend.refines⟩

end Cobra
