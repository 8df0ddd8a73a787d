import CobraProxy.Lib.Fallible
import CobraProxy.Lib.Fresh
import CobraProxy.Lib.Run
import CobraProxy.Spec.Isolation

/-! Requests that obtain the same token or the same group key are in session mode and agree in
account, workspace, destination and sub-identity. Every token and group key is in use for one entry of
the store or for one strict request, and the name of an entry determines what was hashed into it. -/

namespace Cobra

open Text

/-! ### What the store hands out -/

namespace IsolationStore

variable {s s' : IsolationStore} {identity : Str} {now : ℕ} {material : IsolationMaterial}

/-- Every entry afterwards was there with the same material, or is the new one for `identity`. -/
def Extends (s s' : IsolationStore) (identity : Str) (material : IsolationMaterial) : Prop :=
  ∀ k entry, s'.entries.lookup k = some entry →
    (∃ old, s.entries.lookup k = some old ∧ old.material = entry.material) ∨
      k = identity ∧ entry.material = material

theorem lookup_retain {k : Str} {entry : IsolationEntry}
    (h : (s.retain now).entries.lookup k = some entry) : s.entries.lookup k = some entry :=
  (Finmap.lookup_retain.1 h).1

theorem entries_makeRoom (s : IsolationStore) (oldest : Option Str) :
    (s.makeRoom oldest).entries = s.entries.makeRoom s.capacity oldest := by
  unfold makeRoom Finmap.makeRoom
  split_ifs
  · cases oldest <;> rfl
  · rfl

theorem lookup_makeRoom {oldest : Option Str} {k : Str} {entry : IsolationEntry}
    (h : (s.makeRoom oldest).entries.lookup k = some entry) : s.entries.lookup k = some entry := by
  rw [entries_makeRoom] at h
  exact Finmap.lookup_makeRoom h

theorem extends_insert {ttl : ℕ}
    (hsub : ∀ k entry, s'.entries.lookup k = some entry → s.entries.lookup k = some entry) :
    Extends s (s'.insert identity material now ttl) identity material := by
  intro k entry hk
  by_cases hkey : k = identity
  · subst hkey
    rw [insert, Finmap.lookup_insert] at hk
    cases hk
    exact .inr ⟨rfl, rfl⟩
  · rw [insert, Finmap.lookup_insert_of_ne _ hkey] at hk
    exact .inl ⟨entry, hsub k entry hk, rfl⟩

/-- The counters after a draw, and the material that was drawn. -/
def Drawn (s s' : IsolationStore) (material : IsolationMaterial) : Prop :=
  material = ⟨s.nextToken, UInt64.ofNat s.groupCounter⟩ ∧ s'.nextToken = s.nextToken + 1 ∧
    s'.groupCounter = s.groupCounter + 1

def Kept (s s' : IsolationStore) : Prop := s'.nextToken = s.nextToken ∧ s'.groupCounter = s.groupCounter

theorem kept_makeRoom (s : IsolationStore) (oldest : Option Str) : Kept s (s.makeRoom oldest) := by
  unfold makeRoom
  split_ifs
  · cases oldest <;> exact ⟨rfl, rfl⟩
  · exact ⟨rfl, rfl⟩

/-- A lookup returns the material of the identity's entry, or draws one for it. -/
theorem materialForAt_spec (s : IsolationStore) (identity : Str) (now : ℕ) (oldest : Option Str) :
    Extends s (s.materialForAt identity now oldest).2 identity (s.materialForAt identity now oldest).1 ∧
      ((Kept s (s.materialForAt identity now oldest).2 ∧ ∃ entry, s.entries.lookup identity = some entry ∧
          entry.material = (s.materialForAt identity now oldest).1) ∨
        Drawn s (s.materialForAt identity now oldest).2 (s.materialForAt identity now oldest).1) := by
  unfold materialForAt
  dsimp only
  split
  · rename_i entry hentry
    exact ⟨extends_insert fun _ _ => lookup_retain, .inl ⟨⟨rfl, rfl⟩, entry, lookup_retain hentry, rfl⟩⟩
  · have hcounters := kept_makeRoom (s.retain now) oldest
    refine ⟨extends_insert fun _ _ h => lookup_retain (lookup_makeRoom h), .inr ?_⟩
    simp only [draw, insert, Drawn, hcounters.1, hcounters.2]
    exact ⟨rfl, rfl, rfl⟩

theorem rotate_spec (s : IsolationStore) (identity : Str) (now : ℕ) :
    Extends s (s.rotate identity now).2 identity (s.rotate identity now).1 ∧
      Drawn s (s.rotate identity now).2 (s.rotate identity now).1 :=
  ⟨extends_insert fun _ _ h => (lookup_retain h : s.draw.2.entries.lookup _ = _), rfl, rfl, rfl⟩

end IsolationStore

/-! ### Who uses a token or a group key -/

/-- An entry of the store, under its identity, or one strict request. -/
inductive IsolationOwner
  | session (identity : Str)
  | strict (id : ℕ)

def IsolationOperation.owner (operation : IsolationOperation) : IsolationOwner :=
  if operation.resolved.strict then .strict operation.id else .session operation.resolved.identity

/-- A number is in use where a request has obtained it or an entry has it. -/
def Uses (log : List (IsolationOperation × ℕ)) (store : IsolationStore) (number : IsolationMaterial → ℕ)
    (n : ℕ) (owner : IsolationOwner) : Prop :=
  (∃ operation, (operation, n) ∈ log ∧ operation.owner = owner) ∨
    ∃ k entry, store.entries.lookup k = some entry ∧ number entry.material = n ∧ owner = .session k

theorem Uses.mono {log log' : List (IsolationOperation × ℕ)} {store store' : IsolationStore}
    {number : IsolationMaterial → ℕ} {n : ℕ} {owner : IsolationOwner} (h : Uses log' store' number n owner)
    (hlog : ∀ x ∈ log', x ∈ log)
    (hstore : ∀ k entry, store'.entries.lookup k = some entry → store.entries.lookup k = some entry) :
    Uses log store number n owner := by
  rcases h with ⟨op, hop, ho⟩ | ⟨k, entry, hk, hn, ho⟩
  · exact .inl ⟨op, hlog _ hop, ho⟩
  · exact .inr ⟨k, entry, hstore k entry hk, hn, ho⟩

/-- What is in use after `operation` obtained `material`, which may now be in the store too. -/
theorem Uses.obtain {log : List (IsolationOperation × ℕ)} {store store' : IsolationStore}
    (number : IsolationMaterial → ℕ) {operation : IsolationOperation} {material : IsolationMaterial}
    (hstore : ∀ k entry, store'.entries.lookup k = some entry →
      (∃ old, store.entries.lookup k = some old ∧ old.material = entry.material) ∨
        operation.owner = .session k ∧ entry.material = material)
    {n : ℕ} {owner : IsolationOwner}
    (h : Uses ((operation, number material) :: log) store' number n owner) :
    Uses log store number n owner ∨ n = number material ∧ owner = operation.owner := by
  rcases h with ⟨op, hop, ho⟩ | ⟨k, entry, hk, hn, ho⟩
  · rcases List.mem_cons.1 hop with heq | hop
    · cases heq
      exact .inr ⟨rfl, ho.symm⟩
    · exact .inl (.inl ⟨op, hop, ho⟩)
  · rcases hstore k entry hk with ⟨old, hold, heq⟩ | ⟨hown, heq⟩
    · exact .inl (.inr ⟨k, old, hold, heq ▸ hn, ho⟩)
    · exact .inr ⟨heq ▸ hn.symm, ho.trans hown.symm⟩

namespace IsolationSystem

variable {s s' : IsolationSystem} {hash : KeyedHash} {parseAuthority : ParseAuthority} {act : IsolationAct}

def groupLog (s : IsolationSystem) : List (IsolationOperation × ℕ) := s.groupKeys.map fun x => (x.1, x.2.toNat)

def tokenUses (s : IsolationSystem) : ℕ → IsolationOwner → Prop := Uses s.tokens s.store IsolationMaterial.token

def groupUses (s : IsolationSystem) : ℕ → IsolationOwner → Prop :=
  Uses s.groupLog s.store fun m => m.groupKey.toNat

/-- The name of a request is the digest of its own stream. -/
def Named (hash : KeyedHash) (s : IsolationSystem) (operation : IsolationOperation) : Prop :=
  ∃ nonce, isolationPreimage operation.identity operation.destination operation.request.identity nonce ∈ s.hashed ∧
    (operation.request.strict = false → nonce = none) ∧
    operation.resolved = ⟨Encoding.hex (hash (isolationPreimage operation.identity operation.destination
      operation.request.identity nonce)).1, operation.request.strict⟩

structure Separated (hash : KeyedHash) (s : IsolationSystem) : Prop where
  tokens : Fresh s.tokenUses s.store.nextToken
  groups : s.store.groupCounter ≤ 2 ^ 64 → Fresh s.groupUses s.store.groupCounter
  named : ∀ op ∈ s.operations, Named hash s op
  ids : ∀ op ∈ s.operations, op.id < s.operations.length
  distinct : ∀ a ∈ s.operations, ∀ b ∈ s.operations, a.id = b.id → a = b
  obtained : (∀ x ∈ s.tokens, x.1 ∈ s.operations) ∧ ∀ x ∈ s.groupKeys, x.1 ∈ s.operations
  bridged : ∀ x ∈ s.connections, x.1 ∈ s.operations ∧ x.2.strict = x.1.resolved.strict ∧
    (x.2.strict = false → x.2.identity = x.1.resolved.identity)

/-- Steps that hand out nothing. -/
theorem Separated.keep (h : Separated hash s) (hops : s'.operations = s.operations) (hhashed : s'.hashed = s.hashed)
    (hcounters : IsolationStore.Kept s.store s'.store)
    (hstore : ∀ k entry, s'.store.entries.lookup k = some entry → s.store.entries.lookup k = some entry)
    (htokens : ∀ x ∈ s'.tokens, x ∈ s.tokens) (hgroups : ∀ x ∈ s'.groupKeys, x ∈ s.groupKeys)
    (hbridged : ∀ x ∈ s'.connections, x.1 ∈ s.operations ∧ x.2.strict = x.1.resolved.strict ∧
      (x.2.strict = false → x.2.identity = x.1.resolved.identity)) : Separated hash s' := by
  refine ⟨?_, fun hle => ?_, fun op hop => ?_, ?_, ?_, ⟨fun x hx => ?_, fun x hx => ?_⟩, ?_⟩
  · rw [hcounters.1]
    exact h.tokens.mono fun n o hu => hu.mono htokens hstore
  · rw [hcounters.2] at hle ⊢
    refine (h.groups hle).mono fun n o hu => hu.mono (fun x hx => ?_) hstore
    obtain ⟨y, hy, rfl⟩ := List.mem_map.1 hx
    exact List.mem_map.2 ⟨y, hgroups y hy, rfl⟩
  · unfold Named
    rw [hhashed]
    exact h.named op (hops ▸ hop)
  · rw [hops]
    exact h.ids
  · rw [hops]
    exact h.distinct
  · rw [hops]
    exact h.obtained.1 x (htokens x hx)
  · rw [hops]
    exact h.obtained.2 x (hgroups x hx)
  · rw [hops]
    exact hbridged

/-- A request obtains the material of its own entry, or material that was just drawn for it. -/
theorem Separated.obtain (h : Separated hash s) {operation : IsolationOperation} {store : IsolationStore}
    {material : IsolationMaterial} (hop : operation ∈ s.operations)
    (hstore : ∀ k entry, store.entries.lookup k = some entry →
      (∃ old, s.store.entries.lookup k = some old ∧ old.material = entry.material) ∨
        operation.owner = .session k ∧ entry.material = material)
    (hmaterial : (IsolationStore.Kept s.store store ∧ ∃ k entry, s.store.entries.lookup k = some entry ∧
        entry.material = material ∧ operation.owner = .session k) ∨
      IsolationStore.Drawn s.store store material) :
    Separated hash { s with
      store
      tokens := (operation, material.token) :: s.tokens
      groupKeys := (operation, material.groupKey) :: s.groupKeys } := by
  refine ⟨?_, fun hle => ?_, h.named, h.ids, h.distinct, ⟨fun x hx => ?_, fun x hx => ?_⟩, h.bridged⟩
  · rcases hmaterial with ⟨hkept, k, entry, hk, rfl, hown⟩ | ⟨rfl, hnext, -⟩
    · show Fresh _ store.nextToken
      rw [hkept.1]
      refine h.tokens.mono fun n o hu => ?_
      rcases Uses.obtain IsolationMaterial.token hstore hu with hu | ⟨rfl, rfl⟩
      · exact hu
      · exact .inr ⟨k, entry, hk, rfl, hown⟩
    · show Fresh _ store.nextToken
      rw [hnext]
      exact h.tokens.draw operation.owner fun n o hu => Uses.obtain IsolationMaterial.token hstore hu
  · replace hle : store.groupCounter ≤ 2 ^ 64 := hle
    show Fresh _ store.groupCounter
    rcases hmaterial with ⟨hkept, k, entry, hk, rfl, hown⟩ | ⟨rfl, -, hnext⟩
    · rw [hkept.2] at hle ⊢
      refine (h.groups hle).mono fun n o hu => ?_
      rcases Uses.obtain (fun m => m.groupKey.toNat) hstore hu with hu | ⟨rfl, rfl⟩
      · exact hu
      · exact .inr ⟨k, entry, hk, rfl, hown⟩
    · rw [hnext] at hle ⊢
      refine (h.groups (by omega)).draw operation.owner fun n o hu => ?_
      have := Uses.obtain (fun m => m.groupKey.toNat) hstore hu
      rwa [UInt64.toNat_ofNat_of_lt' (show s.store.groupCounter < 2 ^ 64 by omega)] at this
  · rcases List.mem_cons.1 hx with rfl | hx
    · exact hop
    · exact h.obtained.1 x hx
  · rcases List.mem_cons.1 hx with rfl | hx
    · exact hop
    · exact h.obtained.2 x hx

theorem owner_session {operation : IsolationOperation} (h : operation.resolved.strict = false) :
    operation.owner = .session operation.resolved.identity := by
  rw [IsolationOperation.owner, if_neg (by simp [h])]

theorem Separated.lookup (h : Separated hash s) {operation : IsolationOperation} (oldest : Option Str)
    (hop : operation ∈ s.operations) (hsession : operation.resolved.strict = false) :
    let found := s.store.materialForAt operation.resolved.identity s.now oldest
    Separated hash { s with
      store := found.2
      tokens := (operation, found.1.token) :: s.tokens
      groupKeys := (operation, found.1.groupKey) :: s.groupKeys } := by
  obtain ⟨hext, hmaterial⟩ := s.store.materialForAt_spec operation.resolved.identity s.now oldest
  refine h.obtain hop (fun k entry hk => ?_) ?_
  · rcases hext k entry hk with hold | ⟨rfl, heq⟩
    · exact .inl hold
    · exact .inr ⟨owner_session hsession, heq⟩
  · rcases hmaterial with ⟨hkept, entry, hentry, heq⟩ | hdrawn
    · exact .inl ⟨hkept, _, entry, hentry, heq, owner_session hsession⟩
    · exact .inr hdrawn

theorem Separated.resolve (h : Separated hash s) (path : RequestPath) (identity : IngressIdentity)
    (destination : Str) (request : IsolationRequest) :
    Separated hash (s.resolve hash path identity destination request) := by
  have hnamed : ∀ op ∈ s.operations, Named hash (s.resolve hash path identity destination request) op := by
    intro op hop
    obtain ⟨nonce, hmem, hsession, hname⟩ := h.named op hop
    exact ⟨nonce, List.mem_cons_of_mem _ hmem, hsession, hname⟩
  refine ⟨h.tokens, h.groups, fun op hop => ?_, fun op hop => ?_, fun a ha b hb hid => ?_,
    ⟨fun x hx => List.mem_cons_of_mem _ (h.obtained.1 x hx), fun x hx => List.mem_cons_of_mem _ (h.obtained.2 x hx)⟩,
    fun x hx => ⟨List.mem_cons_of_mem _ (h.bridged x hx).1, (h.bridged x hx).2⟩⟩
  · rcases List.mem_cons.1 hop with rfl | hop
    · refine ⟨if request.strict then some s.idCounter else none, List.mem_cons_self .., fun hstrict => ?_, rfl⟩
      exact if_neg (by simpa using hstrict)
    · exact hnamed op hop
  · show op.id < (_ :: s.operations).length
    rw [List.length_cons]
    rcases List.mem_cons.1 hop with rfl | hop
    · exact Nat.lt_succ_self _
    · exact Nat.lt_succ_of_lt (h.ids op hop)
  · rcases List.mem_cons.1 ha with rfl | ha <;> rcases List.mem_cons.1 hb with rfl | hb
    · rfl
    · exact absurd (h.ids b hb) (hid ▸ Nat.lt_irrefl _)
    · exact absurd (h.ids a ha) (hid ▸ Nat.lt_irrefl _)
    · exact h.distinct a ha b hb hid

theorem Separated.step (h : Separated hash s) (hs : Step parseAuthority hash s act s') : Separated hash s' := by
  cases hs with
  | wait => exact h.keep rfl rfl ⟨rfl, rfl⟩ (fun _ _ hk => hk) (fun _ hx => hx) (fun _ hx => hx) h.bridged
  | connect identity target destination request => exact h.resolve ..
  | http identity header destination pathAndQuery request => exact h.resolve ..
  | material operation oldest hmem =>
    unfold obtainMaterial
    by_cases hstrict : operation.resolved.strict = true
    · rw [if_pos hstrict]
      exact h.obtain hmem (fun k entry hk => .inl ⟨entry, hk, rfl⟩) (.inr ⟨rfl, rfl, rfl⟩)
    · rw [if_neg hstrict]
      exact h.lookup oldest hmem (by simpa using hstrict)
  | bridge operation hmem =>
    refine h.keep rfl rfl ⟨rfl, rfl⟩ (fun _ _ hk => hk) (fun _ hx => hx) (fun _ hx => hx) fun x hx => ?_
    rcases List.mem_cons.1 hx with rfl | hx
    · refine ⟨hmem, ?_⟩
      cases operation.path with
      | connect => exact ⟨rfl, fun _ => rfl⟩
      | http =>
        unfold resolveIsolation
        dsimp only
        split_ifs with hstrict
        · exact ⟨hstrict.symm, by simp⟩
        · exact ⟨by simpa using Ne.symm hstrict, fun _ => rfl⟩
    · exact h.bridged x hx
  | stream operation isolation oldest hmem =>
    obtain ⟨hop, hstrict, hname⟩ := h.bridged _ hmem
    unfold openStream
    split_ifs with his
    · exact h
    · have hsession : isolation.strict = false := by simpa using his
      rw [hname hsession]
      exact (h.lookup oldest hop (hstrict ▸ hsession)).keep rfl rfl ⟨rfl, rfl⟩ (fun _ _ hk => hk)
        (fun _ hx => hx) (fun x hx => List.mem_cons_of_mem _ hx) h.bridged
  | rotate operation isolation hmem =>
    obtain ⟨hop, hstrict, hname⟩ := h.bridged _ hmem
    unfold IsolationSystem.rotate
    split_ifs with his
    · exact h
    · have hsession : isolation.strict = false := by simpa using his
      obtain ⟨hext, hdrawn⟩ := s.store.rotate_spec isolation.identity s.now
      have howner : operation.owner = .session isolation.identity :=
        hname hsession ▸ owner_session (hstrict ▸ hsession)
      have hobtain := h.obtain hop (fun k entry hk => (hext k entry hk).imp_right fun ⟨hk, heq⟩ =>
        ⟨hk ▸ howner, heq⟩) (.inr hdrawn)
      exact hobtain.keep rfl rfl ⟨rfl, rfl⟩ (fun _ _ hk => hk)
        (fun x hx => List.mem_cons_of_mem _ hx) (fun x hx => List.mem_cons_of_mem _ hx) h.bridged
  | len =>
    exact h.keep rfl rfl ⟨rfl, rfl⟩ (fun _ _ => IsolationStore.lookup_retain) (fun _ hx => hx)
      (fun _ hx => hx) h.bridged

end IsolationSystem

theorem PrivateIdentifier.word_append_inj {kind : EntityKind} {x y : PrivateIdentifier kind} {rest rest' : Bytes}
    (h : Encoding.word x.raw ++ rest = Encoding.word y.raw ++ rest') : x = y ∧ rest = rest' := by
  obtain ⟨hraw, hrest⟩ := Encoding.word_append_inj (x.lt.trans (by decide)) (y.lt.trans (by decide)) h
  exact ⟨PrivateIdentifier.ext hraw, hrest⟩

/-- The stream of a session-mode request can be read back. -/
theorem isolationPreimage_inj {identity identity' : IngressIdentity} {destination destination' : Str}
    {sub sub' : Option Str} {nonce nonce' : Option ℕ}
    (h : isolationPreimage identity destination sub nonce = isolationPreimage identity' destination' sub' nonce') :
    identity.accountId = identity'.accountId ∧ identity.workspaceId = identity'.workspaceId ∧
      destination = destination' ∧ sub = sub' := by
  obtain ⟨haccount, h⟩ := PrivateIdentifier.word_append_inj (List.append_cancel_left h)
  obtain ⟨hworkspace, h⟩ := PrivateIdentifier.word_append_inj h
  obtain ⟨hdestination, h⟩ := Encoding.text_append_inj h
  obtain ⟨hsub, -⟩ := Encoding.option_append_inj
    (fun x y rest rest' _ _ heq => Encoding.text_append_inj heq) h
  exact ⟨haccount, hworkspace, hdestination, hsub⟩

open IsolationSystem

theorem separated_init (hash : KeyedHash) (capacity ttl now : ℕ) : Separated hash (init capacity ttl now) := by
  have hnone : ∀ number n owner, ¬ Uses [] (IsolationStore.new capacity ttl) number n owner := by
    rintro number n owner (⟨op, hop, -⟩ | ⟨k, entry, hk, -⟩)
    · cases hop
    · rw [IsolationStore.new, Finmap.lookup_empty] at hk
      cases hk
  refine ⟨⟨fun n o hu => absurd hu (hnone _ n o), fun n o o' hu => absurd hu (hnone _ n o)⟩,
    fun _ => ⟨fun n o hu => absurd hu (hnone _ n o), fun n o o' hu => absurd hu (hnone _ n o)⟩, ?_, ?_, ?_, ?_, ?_⟩
  all_goals simp [init]

/-- Two requests that ever obtained the same isolation token or the same pool group key are in session
mode and agree in account, workspace, canonical destination and sub-identity. -/
theorem shared_isolation_is_one_tenant (parseAuthority : ParseAuthority) (hash : KeyedHash)
    {capacity ttl now : ℕ} {tr : List (IsolationSystem × IsolationAct)} {s : IsolationSystem}
    (h : Runs.Run (Step parseAuthority hash) (init capacity ttl now) tr s) (hhash : CollisionFreeOn hash s.hashed)
    (hcounter : s.store.groupCounter ≤ 2 ^ 64) {a b : IsolationOperation} (hne : a ≠ b)
    (hshared : (∃ token, (a, token) ∈ s.tokens ∧ (b, token) ∈ s.tokens) ∨
      ∃ groupKey, (a, groupKey) ∈ s.groupKeys ∧ (b, groupKey) ∈ s.groupKeys) :
    a.request.strict = false ∧ b.request.strict = false ∧
      a.identity.accountId = b.identity.accountId ∧ a.identity.workspaceId = b.identity.workspaceId ∧
      a.destination = b.destination ∧ a.request.identity = b.request.identity := by
  have hsep : Separated hash s := h.invariant (separated_init hash capacity ttl now)
    fun s act s' hI hs => hI.step hs
  have hmem : a ∈ s.operations ∧ b ∈ s.operations ∧ a.owner = b.owner := by
    rcases hshared with ⟨token, ha, hb⟩ | ⟨groupKey, ha, hb⟩
    · exact ⟨hsep.obtained.1 _ ha, hsep.obtained.1 _ hb,
        hsep.tokens.unique token _ _ (.inl ⟨a, ha, rfl⟩) (.inl ⟨b, hb, rfl⟩)⟩
    · exact ⟨hsep.obtained.2 _ ha, hsep.obtained.2 _ hb,
        (hsep.groups hcounter).unique groupKey.toNat _ _
          (.inl ⟨a, List.mem_map.2 ⟨_, ha, rfl⟩, rfl⟩) (.inl ⟨b, List.mem_map.2 ⟨_, hb, rfl⟩, rfl⟩)⟩
  obtain ⟨ha, hb, howner⟩ := hmem
  obtain ⟨nonce, hpre, -, hname⟩ := hsep.named a ha
  obtain ⟨nonce', hpre', -, hname'⟩ := hsep.named b hb
  unfold IsolationOperation.owner at howner
  rw [hname, hname'] at howner
  -- a strict request shares with nobody, and in session mode the owner is the digest
  split_ifs at howner with hs hs' hs'
  · exact absurd (hsep.distinct a ha b hb (by simpa using howner)) hne
  · simp only [IsolationOwner.session.injEq] at howner
    have hdigest := hhash _ hpre _ hpre' (Subtype.ext (Encoding.hex_injective howner))
    exact ⟨by simpa using hs, by simpa using hs', isolationPreimage_inj hdigest⟩

/-! Two CONNECT requests of one tenant to one destination. -/

def tenantLimits : AccountLimits where
  requestsPerSecond := .ofNat 10
  requestBurst := .ofNat 10
  maxConcurrentTunnels := .ofNat 10
  periodRequestLimit := none
  periodByteLimit := none

def tenantIdentity : IngressIdentity := ⟨.ofNat 1, .ofNat 1, .ofNat 1, .ofNat 1, tenantLimits⟩

def exampleAuthority : ParseAuthority := fun text =>
  if text = "Example.com:443".toList then .ok ⟨"Example.com".toList, some 443⟩ else .error "invalid authority"

/-- A stand-in for the digest that tells streams apart by the fields behind the domain prefix. -/
def fieldHash : KeyedHash := fun stream => ⟨(stream.drop 26 ++ List.replicate 32 0).take 32, by simp⟩

def sessionRequest : IsolationRequest := ⟨some "alice".toList, false⟩

def tenantOperation (id : ℕ) : IsolationOperation :=
  ⟨id, .connect, tenantIdentity, "example.com:443".toList, sessionRequest,
    (TenantIsolationHasher.resolve fieldHash tenantIdentity "example.com:443".toList sessionRequest 1).1⟩

def pairResolved : IsolationSystem :=
  ((init 4 60 0).resolve fieldHash .connect tenantIdentity "example.com:443".toList sessionRequest).resolve
    fieldHash .connect tenantIdentity "example.com:443".toList sessionRequest

def pairBridged : IsolationSystem := (pairResolved.bridge (tenantOperation 0)).bridge (tenantOperation 1)

def pairStreamed : IsolationSystem :=
  (pairBridged.openStream (tenantOperation 0) (tenantOperation 0).resolved none).openStream
    (tenantOperation 1) (tenantOperation 1).resolved (some (tenantOperation 0).resolved.identity)

theorem pairStreamed_run : ∃ tr, Runs.Run (Step exampleAuthority fieldHash) (init 4 60 0) tr pairStreamed := by
  have hkey : canonicalConnectDestinationKey exampleAuthority "Example.com:443".toList =
      .ok "example.com:443".toList := Fallible.toOption_eq_some.1 (by decide +kernel)
  have hstart : Runs.Run (Step exampleAuthority fieldHash) (init 4 60 0) [] (init 4 60 0) := .nil
  have hconnect := (hstart.snoc (Step.connect tenantIdentity _ _ sessionRequest hkey)).snoc
    (Step.connect tenantIdentity _ _ sessionRequest hkey)
  have hbridge := (hconnect.snoc (Step.bridge (tenantOperation 0) (by decide +kernel))).snoc
    (Step.bridge (tenantOperation 1) (by decide +kernel))
  have hfirst := hbridge.snoc (Step.stream (tenantOperation 0) (tenantOperation 0).resolved none
    (by decide +kernel) (by decide +kernel))
  exact ⟨_, hfirst.snoc (Step.stream (tenantOperation 1) (tenantOperation 1).resolved
    (some (tenantOperation 0).resolved.identity) (by decide +kernel) (by decide +kernel))⟩

theorem shared_isolation_is_one_tenant_pair :
    tenantOperation 0 ≠ tenantOperation 1 ∧ (tenantOperation 0, 1) ∈ pairStreamed.tokens ∧
      (tenantOperation 1, 1) ∈ pairStreamed.tokens ∧
      (tenantOperation 0).request.strict = false ∧ (tenantOperation 1).request.strict = false ∧
      (tenantOperation 0).identity.accountId = (tenantOperation 1).identity.accountId ∧
      (tenantOperation 0).identity.workspaceId = (tenantOperation 1).identity.workspaceId ∧
      (tenantOperation 0).destination = (tenantOperation 1).destination ∧
      (tenantOperation 0).request.identity = (tenantOperation 1).request.identity := by
  have hne : tenantOperation 0 ≠ tenantOperation 1 := by decide +kernel
  have hfirst : (tenantOperation 0, 1) ∈ pairStreamed.tokens := by decide +kernel
  have hsecond : (tenantOperation 1, 1) ∈ pairStreamed.tokens := by decide +kernel
  obtain ⟨tr, hrun⟩ := pairStreamed_run
  have hfree : CollisionFreeOn fieldHash pairStreamed.hashed := by
    intro x hx y hy _
    have hall : ∀ x ∈ pairStreamed.hashed, ∀ y ∈ pairStreamed.hashed, x = y := by decide +kernel
    exact hall x hx y hy
  exact ⟨hne, hfirst, hsecond, shared_isolation_is_one_tenant exampleAuthority fieldHash hrun hfree
    (by decide +kernel) hne (.inl ⟨1, hfirst, hsecond⟩)⟩

end Cobra
