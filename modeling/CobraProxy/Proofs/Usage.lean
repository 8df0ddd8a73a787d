import CobraProxy.Proofs.Quota

/-! Usage rows as ledgers. A call that is accepted adds its delta to one row and a call that is refused changes
nothing, so a row is the sum of what was accepted for its key. -/

namespace Cobra

open Runs

namespace Database

variable {db db' : Database} {identity : IngressIdentity} {periodStart : UnixTimestamp} {delta : ℤ × ℤ × ℤ}
  {snapshot : UsageSnapshot} {key : UsageKey}

theorem counters_of_lookup {row : UsageRow} (h : db.usagePeriods.lookup key = some row) :
    db.counters key = (row.requestsUsed, row.bytesToTor, row.bytesFromTor) := by
  rw [counters, h]
  rfl

theorem Recorded.counters (h : Recorded db identity periodStart delta snapshot db') (key : UsageKey) :
    db'.counters key = db.counters key + if usageKey identity periodStart = key then delta else 0 := by
  rw [h.stored]
  split_ifs with hkey
  · subst hkey
    rw [← h.added, Database.counters, Finmap.lookup_insert]
    rfl
  · rw [add_zero, Database.counters, Finmap.lookup_insert_of_ne _ (Ne.symm hkey)]
    rfl

theorem Recorded.lookup_of_ne (h : Recorded db identity periodStart delta snapshot db')
    (hkey : key ≠ usageKey identity periodStart) : db'.usagePeriods.lookup key = db.usagePeriods.lookup key := by
  rw [h.stored]
  exact Finmap.lookup_insert_of_ne _ hkey

theorem Recorded.mem_iff (h : Recorded db identity periodStart delta snapshot db') :
    key ∈ db'.usagePeriods ↔ key = usageKey identity periodStart ∨ key ∈ db.usagePeriods := by
  rw [h.stored]
  exact Finmap.mem_insert

/-- Every row is under the key of a workspace of its account, and its counters fit the columns. -/
structure Booked (db : Database) : Prop where
  scopes : ∀ key ∈ db.usagePeriods, ∃ (accountId : AccountId) (workspaceId : WorkspaceId),
    key.accountId = accountId.raw ∧ key.workspaceId = workspaceId.raw ∧
      db.workspaceInAccount workspaceId.raw accountId.raw
  bounded : ∀ key row, db.usagePeriods.lookup key = some row →
    (0 ≤ row.requestsUsed ∧ row.requestsUsed < 2 ^ 63) ∧ (0 ≤ row.bytesToTor ∧ row.bytesToTor < 2 ^ 63) ∧
      0 ≤ row.bytesFromTor ∧ row.bytesFromTor < 2 ^ 63

theorem Booked.empty : Booked Database.empty :=
  ⟨fun key hkey => absurd hkey (Finmap.notMem_empty), fun key row h => by
    rw [show Database.empty.usagePeriods.lookup key = none from Finmap.lookup_empty key] at h
    cases h⟩

/-- The rows of a ledger depend on the workspaces only through their accounts, which are never given up. -/
theorem Booked.grows (h : Booked db) (hrows : db'.usagePeriods = db.usagePeriods) (hg : db.Grows db') :
    Booked db' := by
  refine ⟨fun key hkey => ?_, fun key row hrow => h.bounded key row (hrows ▸ hrow)⟩
  obtain ⟨accountId, workspaceId, ha, hw, hscope⟩ := h.scopes key (hrows ▸ hkey)
  exact ⟨accountId, workspaceId, ha, hw, hg.workspaces _ _ hscope⟩

theorem Booked.recorded (h : Booked db) (hrec : Recorded db identity periodStart delta snapshot db') :
    Booked db' := by
  have hworkspaces : db'.workspaces = db.workspaces := by rw [hrec.stored]
  refine ⟨fun key hkey => ?_, fun key row hrow => ?_⟩
  · unfold workspaceInAccount
    rw [hworkspaces]
    rcases hrec.mem_iff.1 hkey with rfl | hkey
    · exact ⟨identity.accountId, identity.workspaceId, rfl, rfl, requireWorkspaceScope_eq_ok.1 hrec.scope⟩
    · exact h.scopes key hkey
  · by_cases hkey : key = usageKey identity periodStart
    · rw [hrec.stored, hkey] at hrow
      cases Option.some.inj ((Finmap.lookup_insert _).symm.trans hrow)
      obtain ⟨hr, ht, hf⟩ := hrec.bounded
      dsimp only
      omega
    · rw [hrec.lookup_of_ne hkey] at hrow
      exact h.bounded key row hrow

end Database

/-! ### Queries -/

namespace Database

variable {db : Database} {accountId : AccountId} {workspaceId : WorkspaceId} {periodStart : UnixTimestamp}

/-- The counters of a scope as a snapshot. -/
def snapshotOf (db : Database) (accountId : AccountId) (workspaceId : WorkspaceId) (periodStart : UnixTimestamp) :
    UsageSnapshot :=
  let counters := db.counters ⟨accountId.raw, workspaceId.raw, periodStart.seconds⟩
  ⟨accountId, workspaceId, periodStart, counters.1.toNat, counters.2.1.toNat, counters.2.2.toNat⟩

theorem Booked.usageForScope (h : Booked db) (hscope : db.workspaceInAccount workspaceId.raw accountId.raw) :
    db.usageForScope accountId workspaceId periodStart = .ok (db.snapshotOf accountId workspaceId periodStart) := by
  simp only [Database.usageForScope, usageValues, requireWorkspaceScope_eq_ok.2 hscope, nonnegativeU64FromDatabase,
    snapshotOf, counters]
  cases hrow : db.usagePeriods.lookup ⟨accountId.raw, workspaceId.raw, periodStart.seconds⟩ with
  | none => rfl
  | some row =>
    obtain ⟨⟨hr, -⟩, ⟨ht, -⟩, hf, -⟩ := h.bounded _ row hrow
    simp [hr, ht, hf]

theorem mem_usageRows {key : UsageKey} {row : UsageRow} :
    (key, row) ∈ db.usageRows periodStart ↔
      db.usagePeriods.lookup key = some row ∧ key.periodStart = periodStart.seconds := by
  simp only [usageRows, List.mem_filterMap, Finset.mem_sort, Finset.mem_image, Finset.mem_filter, Finmap.mem_keys]
  constructor
  · rintro ⟨_, ⟨other, ⟨-, hperiod⟩, rfl⟩, hrow⟩
    obtain ⟨row', hrow', heq⟩ := Option.map_eq_some_iff.1 hrow
    cases heq
    exact ⟨hrow', rfl⟩
  · rintro ⟨hrow, hperiod⟩
    refine ⟨_, ⟨key, ⟨Finmap.mem_iff.2 ⟨row, hrow⟩, hperiod⟩, rfl⟩, ?_⟩
    obtain ⟨accountId, workspaceId, seconds⟩ := key
    cases hperiod
    simp [hrow]

/-- Account and workspace of a row, in the order of the listing. -/
theorem usageRows_pairwise (db : Database) (periodStart : UnixTimestamp) :
    (db.usageRows periodStart).Pairwise fun e e' =>
      toLex (e.1.accountId, e.1.workspaceId) < toLex (e'.1.accountId, e'.1.workspaceId) := by
  refine List.Pairwise.filterMap _ (fun scope scope' hlt e he e' he' => ?_) (Finset.sortedLT_sort _).pairwise
  obtain ⟨row, -, rfl⟩ := Option.map_eq_some_iff.1 he
  obtain ⟨row', -, rfl⟩ := Option.map_eq_some_iff.1 he'
  exact hlt

/-- A row of the listing has the counters that the query of its scope returns. -/
theorem Booked.usageSnapshotFromRow (h : Booked db) {key : UsageKey} {row : UsageRow}
    (hmem : (key, row) ∈ db.usageRows periodStart) : ∃ (accountId : AccountId) (workspaceId : WorkspaceId),
      key = ⟨accountId.raw, workspaceId.raw, periodStart.seconds⟩ ∧
      db.workspaceInAccount workspaceId.raw accountId.raw ∧
      Database.usageSnapshotFromRow periodStart (key, row) =
        .ok (db.snapshotOf accountId workspaceId periodStart) := by
  obtain ⟨hrow, hperiod⟩ := mem_usageRows.1 hmem
  obtain ⟨accountId, workspaceId, haccount, hworkspace, hscope⟩ := h.scopes key (Finmap.mem_iff.2 ⟨row, hrow⟩)
  obtain ⟨⟨hr, -⟩, ⟨ht, -⟩, hf, -⟩ := h.bounded key row hrow
  obtain rfl : key = ⟨accountId.raw, workspaceId.raw, periodStart.seconds⟩ := by
    cases key
    cases haccount
    cases hworkspace
    cases hperiod
    rfl
  refine ⟨accountId, workspaceId, rfl, hscope, ?_⟩
  have haccountId : PrivateIdentifier.fromDatabase .account accountId.raw = .ok accountId :=
    fromDatabase_eq_ok.2 rfl
  have hworkspaceId : PrivateIdentifier.fromDatabase .workspace workspaceId.raw = .ok workspaceId :=
    fromDatabase_eq_ok.2 rfl
  simp [Database.usageSnapshotFromRow, haccountId, hworkspaceId, nonnegativeU64FromDatabase, hr, ht, hf, snapshotOf,
    counters_of_lookup hrow]

theorem names_of_usageSnapshotFromRow {e : UsageKey × UsageRow} {snapshot : UsageSnapshot}
    (h : usageSnapshotFromRow periodStart e = .ok snapshot) :
    e.1.accountId = snapshot.accountId.raw ∧ e.1.workspaceId = snapshot.workspaceId.raw := by
  simp only [Database.usageSnapshotFromRow, Fallible.bind_eq_ok, fromDatabase_eq_ok, Fallible.pure_eq_ok,
    Except.ok.injEq] at h
  obtain ⟨accountId, haccount, workspaceId, hworkspace, _, -, _, -, _, -, rfl⟩ := h
  exact ⟨haccount.symm, hworkspace.symm⟩

/-- The listing of a period has one snapshot for each row of the period, in the order of accounts and workspaces. -/
theorem Booked.listUsageForPeriod (h : Booked db) (periodStart : UnixTimestamp) :
    ∃ list, db.listUsageForPeriod periodStart = .ok list ∧
      (list.Pairwise fun x y =>
        toLex (x.accountId.raw, x.workspaceId.raw) < toLex (y.accountId.raw, y.workspaceId.raw)) ∧
      ∀ snapshot, snapshot ∈ list ↔
        (⟨snapshot.accountId.raw, snapshot.workspaceId.raw, periodStart.seconds⟩ : UsageKey) ∈ db.usagePeriods ∧
          db.usageForScope snapshot.accountId snapshot.workspaceId periodStart = .ok snapshot := by
  obtain ⟨list, hlist⟩ := Fallible.exists_mapM (f := Database.usageSnapshotFromRow periodStart)
    (l := db.usageRows periodStart) fun e he => by
      obtain ⟨accountId, workspaceId, -, -, hsnapshot⟩ := h.usageSnapshotFromRow he
      exact ⟨_, hsnapshot⟩
  refine ⟨list, hlist, ?_, fun snapshot => ?_⟩
  · have hnames : (db.usageRows periodStart).map (fun e => toLex (e.1.accountId, e.1.workspaceId)) =
        list.map fun x => toLex (x.accountId.raw, x.workspaceId.raw) := by
      have hall : List.Forall₂ (fun a b => a = b)
          ((db.usageRows periodStart).map fun e => toLex (e.1.accountId, e.1.workspaceId))
          (list.map fun x => toLex (x.accountId.raw, x.workspaceId.raw)) := by
        refine List.forall₂_map_left_iff.2 (List.forall₂_map_right_iff.2 ?_)
        refine (Fallible.forall₂_of_mapM hlist).imp fun e x hx => ?_
        obtain ⟨haccount, hworkspace⟩ := names_of_usageSnapshotFromRow hx
        rw [haccount, hworkspace]
      rwa [List.forall₂_eq_eq_eq] at hall
    have hrows := db.usageRows_pairwise periodStart
    rw [← List.pairwise_map] at hrows ⊢
    exact hnames ▸ hrows
  · rw [Fallible.mem_mapM hlist]
    constructor
    · rintro ⟨⟨key, row⟩, hmem, hsnapshot⟩
      obtain ⟨accountId, workspaceId, rfl, hscope, heq⟩ := h.usageSnapshotFromRow hmem
      cases hsnapshot.symm.trans heq
      exact ⟨Finmap.mem_iff.2 ⟨row, (mem_usageRows.1 hmem).1⟩, h.usageForScope hscope⟩
    · rintro ⟨hkey, hquery⟩
      obtain ⟨row, hrow⟩ := Finmap.mem_iff.1 hkey
      have hmem := mem_usageRows.2 ⟨hrow, rfl⟩
      obtain ⟨accountId, workspaceId, hnames, hscope, heq⟩ := h.usageSnapshotFromRow hmem
      refine ⟨_, hmem, ?_⟩
      obtain ⟨haccount, hworkspace⟩ := names_of_usageSnapshotFromRow heq
      obtain rfl : snapshot.accountId = accountId := PrivateIdentifier.ext haccount
      obtain rfl : snapshot.workspaceId = workspaceId := PrivateIdentifier.ext hworkspace
      rw [heq, ← h.usageForScope hscope, hquery]

end Database

/-! ### Calls -/

namespace UsageCall

variable {db db' db₀ : Database} {tr : List (Database × UsageCall)}

/-- What a call of a run adds to the row of a key: its delta, if it is for the key and returned `Ok`. -/
def accepted (key : UsageKey) (p : Database × UsageCall) : ℤ × ℤ × ℤ :=
  if p.2.key = key ∧ (p.2.perform p.1).1.isSome then p.2.delta else 0

theorem counters_perform (call : UsageCall) (db : Database) (key : UsageKey) :
    (call.perform db).2.counters key = db.counters key + accepted key (db, call) := by
  unfold accepted
  rcases call.perform_cases db with h | ⟨snapshot, db', h, hrec⟩
  · simp [h]
  · simp only [h, hrec.counters key, Option.isSome_some, and_true]
    rfl

theorem counters_run (h : Run Step db₀ tr db) (key : UsageKey) :
    db.counters key = db₀.counters key + (tr.map (accepted key)).sum := by
  induction h with
  | nil => simp
  | @snoc tr db db' call _ hs ih =>
    subst hs
    rw [counters_perform, ih, List.map_append, List.sum_append, List.map_singleton, List.sum_singleton, add_assoc]

theorem booked_perform (h : db.Booked) (call : UsageCall) : (call.perform db).2.Booked := by
  rcases call.perform_cases db with hcall | ⟨snapshot, db', hcall, hrec⟩
  · rw [hcall]
    exact h
  · rw [hcall]
    exact h.recorded hrec

theorem booked_of_run (h : Run Step db₀ tr db) (hbooked : db₀.Booked) : db.Booked := by
  refine h.invariant hbooked ?_
  rintro db call _ hdb rfl
  exact booked_perform hdb call

/-- The call returned `Ok`. -/
def Succeeds (p : Database × UsageCall) : Prop := (p.2.perform p.1).1.isSome

instance : DecidablePred Succeeds := fun p => inferInstanceAs (Decidable ((p.2.perform p.1).1.isSome = true))

theorem accepted_of_succeeds {p : Database × UsageCall} (h : Succeeds p) (key : UsageKey) :
    accepted key p = if p.2.key = key then p.2.delta else 0 := by
  simp only [accepted, show (p.2.perform p.1).1.isSome from h, and_true]

/-- What a run of successful calls leaves: the rows there were and those of the calls, and all other tables. -/
theorem tables_of_run (h : Run Step db₀ tr db) (hok : ∀ p ∈ tr, Succeeds p) :
    db = { db₀ with usagePeriods := db.usagePeriods } ∧
      ∀ key, key ∈ db.usagePeriods ↔ key ∈ db₀.usagePeriods ∨ key ∈ (tr.map Prod.snd).map UsageCall.key := by
  induction h with
  | nil => exact ⟨rfl, by simp⟩
  | @snoc tr db db' call _ hs ih =>
    obtain ⟨htables, hkeys⟩ := ih fun p hp => hok p (List.mem_append_left _ hp)
    have hsucceeds : Succeeds (db, call) := hok _ (List.mem_append_right _ (List.mem_singleton_self _))
    subst hs
    rcases call.perform_cases db with hcall | ⟨snapshot, db', hcall, hrec⟩
    · rw [Succeeds, hcall] at hsucceeds
      cases hsucceeds
    · rw [hcall]
      refine ⟨?_, fun key => ?_⟩
      · rw [hrec.stored, htables]
      · rw [hrec.mem_iff, hkeys]
        simp only [List.map_append, List.mem_append, List.map_singleton, List.mem_singleton]
        exact or_rotate.trans Iff.rfl

/-- A row is determined by its presence and its counters. -/
theorem usagePeriods_ext {db db' : Database} (hmem : ∀ key, key ∈ db.usagePeriods ↔ key ∈ db'.usagePeriods)
    (hcounters : ∀ key, db.counters key = db'.counters key) : db.usagePeriods = db'.usagePeriods := by
  refine Finmap.ext_lookup fun key => ?_
  cases hrow : db.usagePeriods.lookup key with
  | none =>
    have hnot : key ∉ db'.usagePeriods := fun hkey => Finmap.lookup_eq_none.1 hrow ((hmem key).2 hkey)
    exact (Finmap.lookup_eq_none.2 hnot).symm
  | some row =>
    obtain ⟨row', hrow'⟩ := Finmap.mem_iff.1 ((hmem key).1 (Finmap.mem_iff.2 ⟨row, hrow⟩))
    have heq := hcounters key
    rw [Database.counters_of_lookup hrow, Database.counters_of_lookup hrow'] at heq
    cases row
    cases row'
    cases heq
    exact hrow'.symm

/-- The order of calls that all succeed does not matter. -/
theorem eq_of_perm {tr' : List (Database × UsageCall)} (h : Run Step db₀ tr db) (h' : Run Step db₀ tr' db')
    (hperm : (tr.map Prod.snd).Perm (tr'.map Prod.snd)) (hok : ∀ p ∈ tr, Succeeds p)
    (hok' : ∀ p ∈ tr', Succeeds p) : db = db' := by
  have hsum : ∀ {tr : List (Database × UsageCall)}, (∀ p ∈ tr, Succeeds p) → ∀ key,
      tr.map (accepted key) = (tr.map Prod.snd).map fun call => if call.key = key then call.delta else 0 := by
    intro tr hok key
    rw [List.map_map]
    exact List.map_congr_left fun p hp => accepted_of_succeeds (hok p hp) key
  obtain ⟨htables, hkeys⟩ := tables_of_run h hok
  obtain ⟨htables', hkeys'⟩ := tables_of_run h' hok'
  have hrows : db.usagePeriods = db'.usagePeriods := by
    refine usagePeriods_ext (fun key => ?_) fun key => ?_
    · rw [hkeys, hkeys', (hperm.map UsageCall.key).mem_iff]
    · rw [counters_run h, counters_run h', hsum hok, hsum hok', (hperm.map _).sum_eq]
  rw [htables, htables', hrows]

/-- The snapshot is that of the call's scope, and what both queries return for it. -/
def Agrees (call : UsageCall) (snapshot : UsageSnapshot) (db : Database) : Prop :=
  snapshot.accountId = call.identity.accountId ∧ snapshot.workspaceId = call.identity.workspaceId ∧
    db.usageForScope call.identity.accountId call.identity.workspaceId call.periodStart = .ok snapshot ∧
    ∃ list, db.listUsageForPeriod call.periodStart = .ok list ∧ snapshot ∈ list ∧
      ∀ x ∈ list, x.accountId = snapshot.accountId → x.workspaceId = snapshot.workspaceId → x = snapshot

theorem agrees_of_recorded {call : UsageCall} {snapshot : UsageSnapshot} (h : db.Booked)
    (hrec : db.Recorded call.identity call.periodStart call.delta snapshot db') : call.Agrees snapshot db' := by
  obtain ⟨haccount, hworkspace, hperiod⟩ := hrec.names
  have hbooked := h.recorded hrec
  have hscope : db'.workspaceInAccount call.identity.workspaceId.raw call.identity.accountId.raw := by
    rw [hrec.stored]
    exact Database.requireWorkspaceScope_eq_ok.1 hrec.scope
  have hrow : db'.counters call.key = (↑snapshot.requestsUsed, ↑snapshot.bytesToTor, ↑snapshot.bytesFromTor) := by
    rw [hrec.added, hrec.counters, if_pos (show Database.usageKey call.identity call.periodStart = call.key from rfl)]
    rfl
  have hquery : db'.usageForScope call.identity.accountId call.identity.workspaceId call.periodStart =
      .ok snapshot := by
    rw [hbooked.usageForScope hscope, Database.snapshotOf]
    rw [show (⟨_, _, _⟩ : UsageKey) = call.key from rfl, hrow, ← haccount, ← hworkspace, ← hperiod]
    rfl
  obtain ⟨list, hlist, -, hmem⟩ := hbooked.listUsageForPeriod call.periodStart
  refine ⟨haccount, hworkspace, hquery, list, hlist, (hmem snapshot).2 ?_, fun x hx hxa hxw => ?_⟩
  · rw [haccount, hworkspace]
    exact ⟨hrec.mem_iff.2 (.inl rfl), hquery⟩
  · have hxquery := ((hmem x).1 hx).2
    rw [hxa, hxw, haccount, hworkspace, hquery] at hxquery
    exact (Except.ok.inj hxquery).symm

end UsageCall

namespace ManagerSystem

variable {hasher : ApiKeyHasher} {s : ManagerSystem} {tr : List (ManagerSystem × ManagerAct)}

/-- What an operation of the manager adds to the row of a key. -/
def recorded (key : UsageKey) (p : ManagerSystem × ManagerAct) : ℤ × ℤ × ℤ :=
  p.2.usageCall.elim 0 fun call => UsageCall.accepted key (p.1.database, call)

theorem counters_of_run (h : Run (Step hasher) empty tr s) (key : UsageKey) :
    s.database.counters key = (tr.map (recorded key)).sum := by
  induction h with
  | nil => simp [empty, Database.empty, Database.counters]
  | @snoc tr s s' act _ hs ih =>
    subst hs
    rw [List.map_append, List.sum_append, List.map_singleton, List.sum_singleton, ← ih]
    unfold recorded
    cases h : act.usageCall with
    | none =>
      have hrows := (step_effect hasher s h).usagePeriods
      rw [Option.elim_none, add_zero, Database.counters, Database.counters, hrows]
    | some call =>
      rw [step_usage hasher s h]
      exact call.counters_perform s.database key

theorem booked_of_run (h : Run (Step hasher) empty tr s) : s.database.Booked := by
  refine h.invariant (I := fun s => s.database.Booked) Database.Booked.empty ?_
  rintro s act _ hs rfl
  cases h : act.usageCall with
  | none => exact hs.grows (step_effect hasher s h).usagePeriods (step_effect hasher s h).changes.grows
  | some call =>
    rw [step_usage hasher s h]
    exact call.booked_perform hs

end ManagerSystem

open UsageCall

/-- After any operations from the empty schema and then any usage calls, every row is the sum of the deltas that
were accepted for its key and fits its columns; a further call that is refused changes nothing, one that is
accepted changes its own row only and returns what the queries then return; and calls that all succeed can be
made in any order. -/
theorem usage_rows_are_ledgers {hasher : ApiKeyHasher} {past : List (ManagerSystem × ManagerAct)} {s : ManagerSystem}
    (h : Run (ManagerSystem.Step hasher) .empty past s) {tr : List (Database × UsageCall)} {db : Database}
    (hrun : Run UsageCall.Step s.database tr db) :
    (∀ key, db.counters key = (past.map (ManagerSystem.recorded key)).sum + (tr.map (accepted key)).sum) ∧
    (∀ key row, db.usagePeriods.lookup key = some row →
      (0 ≤ row.requestsUsed ∧ row.requestsUsed < 2 ^ 63) ∧ (0 ≤ row.bytesToTor ∧ row.bytesToTor < 2 ^ 63) ∧
        0 ≤ row.bytesFromTor ∧ row.bytesFromTor < 2 ^ 63) ∧
    (∀ call : UsageCall,
      ((call.perform db).1 = none → (call.perform db).2 = db) ∧
      (∀ key, key ≠ call.key → (call.perform db).2.usagePeriods.lookup key = db.usagePeriods.lookup key) ∧
      ∀ snapshot, (call.perform db).1 = some snapshot → call.Agrees snapshot (call.perform db).2) ∧
    ∀ tr' db', Run UsageCall.Step s.database tr' db' → (tr.map Prod.snd).Perm (tr'.map Prod.snd) →
      (∀ p ∈ tr, Succeeds p) → (∀ p ∈ tr', Succeeds p) → db = db' := by
  have hbooked := UsageCall.booked_of_run hrun (ManagerSystem.booked_of_run h)
  refine ⟨fun key => ?_, hbooked.bounded, fun call => ?_, fun tr' db' hrun' hperm hok hok' => ?_⟩
  · rw [counters_run hrun, ManagerSystem.counters_of_run h]
  · rcases call.perform_cases db with hcall | ⟨snapshot, db', hcall, hrec⟩
    · rw [hcall]
      exact ⟨fun _ => rfl, fun _ _ => rfl, fun _ hnone => (by cases hnone)⟩
    · rw [hcall]
      refine ⟨fun hnone => (by cases hnone), fun key hkey => hrec.lookup_of_ne hkey, fun snapshot' hsome => ?_⟩
      cases hsome
      exact agrees_of_recorded hbooked hrec
  · exact eq_of_perm hrun hrun' hperm hok hok'

/-- One of the two workspaces makes its request and then transfers some bytes. -/
theorem usage_rows_are_ledgers_single : ∃ past tr db, Run (ManagerSystem.Step zeroHasher) .empty past twoWorkspaces ∧
    Run UsageCall.Step twoWorkspaces.database tr db ∧ tr.length = 2 ∧ (∀ p ∈ tr, Succeeds p) ∧
    db.counters ⟨1, 1, 0⟩ = (1, 5, 7) ∧ (past.map (ManagerSystem.recorded ⟨1, 1, 0⟩)).sum +
      (tr.map (accepted ⟨1, 1, 0⟩)).sum = (1, 5, 7) := by
  obtain ⟨past, hpast⟩ := twoWorkspaces_reachable
  have hstart : Run UsageCall.Step twoWorkspaces.database [] twoWorkspaces.database := .nil
  have hadmit := hstart.snoc (a := .admitRequest (callFrom (.ofNat 1)).identity .epoch) rfl
  have hrecord := hadmit.snoc
    (a := .recordUsage (callFrom (.ofNat 1)).identity .epoch ⟨0, 5, 7, by decide, by decide, by decide⟩) rfl
  refine ⟨past, _, _, hpast, hrecord, rfl, by decide +kernel, by decide +kernel, ?_⟩
  rw [← (usage_rows_are_ledgers hpast hrecord).1]
  decide +kernel

end Cobra
