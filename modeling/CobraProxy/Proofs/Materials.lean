import CobraProxy.Proofs.Isolation

/-! Runs of calls on one store. Lookups and `put` keep it within its capacity; `rotate` inserts without
making room, so it does so only for an identity that is still stored, or below the capacity. The materials
that lookups and rotations return are stable for an identity and never used for another one. -/

namespace Cobra

open Text Runs

/-! ### Capacity -/

namespace IsolationStore

variable {s : IsolationStore} {identity : Str} {now ttl : ℕ} {material : IsolationMaterial}

theorem card_retain_le (s : IsolationStore) (now : ℕ) :
    (s.retain now).entries.keys.card ≤ s.entries.keys.card := Finmap.card_retain_le _ _

theorem isMinBy_of_isOldest {oldest : Option Str} (h : s.IsOldest oldest) :
    s.entries.IsMinBy IsolationEntry.lastUsed oldest := by
  cases oldest <;> exact h

theorem card_makeRoom_lt {oldest : Option Str} (hcapacity : 0 < s.capacity)
    (hroom : s.entries.keys.card ≤ s.capacity) (holdest : s.IsOldest oldest) :
    (s.makeRoom oldest).entries.keys.card < s.capacity := by
  rw [entries_makeRoom]
  exact Finmap.card_makeRoom_lt hcapacity hroom (isMinBy_of_isOldest holdest)

theorem capacity_makeRoom (s : IsolationStore) (oldest : Option Str) :
    (s.makeRoom oldest).capacity = s.capacity ∧ (s.makeRoom oldest).ttl = s.ttl := by
  unfold makeRoom
  split_ifs
  · cases oldest <;> exact ⟨rfl, rfl⟩
  · exact ⟨rfl, rfl⟩

theorem card_insert_of_mem (h : identity ∈ s.entries) :
    (s.insert identity material now ttl).entries.keys.card = s.entries.keys.card :=
  Finmap.card_insert_of_mem _ h

theorem card_insert_of_notMem (h : identity ∉ s.entries) :
    (s.insert identity material now ttl).entries.keys.card = s.entries.keys.card + 1 :=
  Finmap.card_insert_of_notMem _ h

theorem card_materialForAt_le {oldest : Option Str} (hcapacity : 0 < s.capacity)
    (hroom : s.entries.keys.card ≤ s.capacity) (holdest : (s.retain now).IsOldest oldest) :
    (s.materialForAt identity now oldest).2.entries.keys.card ≤ s.capacity := by
  have hretain := (s.card_retain_le now).trans hroom
  unfold materialForAt
  dsimp only
  split
  · rename_i entry hentry
    rw [card_insert_of_mem (Finmap.mem_iff.2 ⟨entry, hentry⟩)]
    exact hretain
  · exact Finmap.card_insert_le _ (card_makeRoom_lt (s := s.retain now) hcapacity hretain holdest)

theorem card_put_le {token : ℕ} {ttl : Option ℕ} {oldest : Option Str} (hcapacity : 0 < s.capacity)
    (hroom : s.entries.keys.card ≤ s.capacity) (holdest : (s.retain now).IsOldest oldest) :
    (s.put identity token ttl now oldest).entries.keys.card ≤ s.capacity := by
  have hretain := (s.card_retain_le now).trans hroom
  unfold put
  dsimp only
  by_cases hmem : identity ∈ (s.retain now).entries
  · rw [if_pos hmem]
    obtain ⟨entry, hentry⟩ := Finmap.mem_iff.1 hmem
    rw [hentry]
    rw [card_insert_of_mem hmem]
    exact hretain
  · rw [if_neg hmem]
    have hlt := card_makeRoom_lt (s := s.retain now) hcapacity hretain holdest
    split <;> exact Finmap.card_insert_le _ hlt

/-- A rotation stays within the capacity exactly when it replaces an entry or there is room for one. -/
theorem card_rotate_le_iff (s : IsolationStore) (identity : Str) (now : ℕ)
    (hroom : s.entries.keys.card ≤ s.capacity) :
    (s.rotate identity now).2.entries.keys.card ≤ s.capacity ↔
      identity ∈ (s.retain now).entries ∨ (s.retain now).entries.keys.card < s.capacity := by
  have hretain := (s.card_retain_le now).trans hroom
  have hentries : (s.draw.2.retain now).entries = (s.retain now).entries := rfl
  unfold rotate
  dsimp only
  by_cases hmem : identity ∈ (s.retain now).entries
  · rw [card_insert_of_mem (hentries ▸ hmem), hentries]
    exact ⟨fun _ => .inl hmem, fun _ => hretain⟩
  · rw [card_insert_of_notMem (hentries ▸ hmem), hentries]
    exact ⟨.inr, fun h => h.resolve_left hmem⟩

theorem frame_perform (s : IsolationStore) (now : ℕ) (oldest : Option Str) (call : StoreCall) :
    (s.perform now oldest call).2.capacity = s.capacity ∧ (s.perform now oldest call).2.ttl = s.ttl := by
  have hroom := (s.retain now).capacity_makeRoom oldest
  cases call with
  | materialForAt identity =>
    unfold perform materialForAt
    dsimp only
    split
    · exact ⟨rfl, rfl⟩
    · exact hroom
  | put identity token ttl =>
    unfold perform put
    dsimp only
    split <;> split_ifs <;> first | exact ⟨rfl, rfl⟩ | exact hroom
  | rotate identity => exact ⟨rfl, rfl⟩
  | len => exact ⟨rfl, rfl⟩
  | strict => exact ⟨rfl, rfl⟩

end IsolationStore

namespace TimedStore

variable {s s' : TimedStore} {e : StoreEvent}

/-- A rotated identity is still stored, or the store has room for it. -/
def RotatesWithRoom (s : TimedStore) (e : StoreEvent) : Prop :=
  ∀ identity, e.call = .rotate identity →
    identity ∈ (s.store.retain e.time).entries ∨ (s.store.retain e.time).entries.keys.card < s.store.capacity

/-- The store has its capacity and time to live from the start. -/
def Configured (capacity ttl : ℕ) (s : TimedStore) : Prop := s.store.capacity = capacity ∧ s.store.ttl = ttl

theorem Configured.step {capacity ttl : ℕ} (h : Configured capacity ttl s) (hs : Step s e s') :
    Configured capacity ttl s' := by
  cases hs with
  | call call time oldest =>
    obtain ⟨hcapacity, httl⟩ := s.store.frame_perform time oldest call
    exact ⟨hcapacity.trans h.1, httl.trans h.2⟩

/-- A call within the capacity stays within it, rotations apart. -/
theorem within_step {capacity ttl : ℕ} (hcapacity : 0 < capacity)
    (h : Configured capacity ttl s ∧ s.store.entries.keys.card ≤ capacity) (hs : Step s e s') :
    RotatesWithRoom s e ↔ Configured capacity ttl s' ∧ s'.store.entries.keys.card ≤ capacity := by
  obtain ⟨hconf, hroom⟩ := h
  obtain ⟨rfl, rfl⟩ := hconf
  have hconf' := Configured.step ⟨rfl, rfl⟩ hs
  rw [and_iff_right hconf']
  cases hs with
  | call call time oldest htime holdest =>
    cases call with
    | rotate identity =>
      refine Iff.trans ?_ (s.store.card_rotate_le_iff identity time hroom).symm
      simp [RotatesWithRoom]
    | materialForAt identity =>
      refine iff_of_true (by simp [RotatesWithRoom]) ?_
      exact IsolationStore.card_materialForAt_le hcapacity hroom holdest
    | put identity token ttl =>
      refine iff_of_true (by simp [RotatesWithRoom]) ?_
      exact IsolationStore.card_put_le hcapacity hroom holdest
    | len =>
      refine iff_of_true (by simp [RotatesWithRoom]) ?_
      exact (s.store.card_retain_le time).trans hroom
    | strict => exact iff_of_true (by simp [RotatesWithRoom]) hroom

end TimedStore

open TimedStore in
/-- The runs in which the store never has more entries than its capacity are those in which every rotated
identity is still stored, or finds room, once what has expired is gone. -/
theorem isolation_store_within_capacity {capacity ttl now : ℕ} (hcapacity : 0 < capacity)
    {tr : List (TimedStore × StoreEvent)} {s : TimedStore} (h : Run Step (init capacity ttl now) tr s) :
    (∀ p ∈ tr, RotatesWithRoom p.1 p.2) ↔ ∀ t ∈ reached tr s, t.store.entries.keys.card ≤ capacity := by
  have h0 : Configured capacity ttl (init capacity ttl now) := ⟨rfl, rfl⟩
  obtain ⟨hlast, htrace⟩ := h.invariant_of (C := fun _ _ => True) h0
    (fun s e s' hI _ hs => hI.step hs) (by simp)
  have hconf : ∀ t ∈ reached tr s, Configured capacity ttl t := by
    intro t ht
    rcases mem_reached.1 ht with ⟨e, he⟩ | rfl
    · exact htrace _ he
    · exact hlast
  refine (h.guard_iff (I := fun t => Configured capacity ttl t ∧ t.store.entries.keys.card ≤ capacity)
    ⟨h0, Nat.zero_le _⟩ (fun s e s' hI hs => within_step hcapacity hI hs)).trans ?_
  exact ⟨fun hI t ht => (hI t ht).2, fun hI t ht => ⟨hconf t ht, hI t ht⟩⟩

open TimedStore in
/-- A rotation in place, in a store with room for one entry. -/
theorem isolation_store_within_capacity_single : ∃ tr s, Run Step (init 1 60 0) tr s ∧
    s.store.entries.keys = {"a".toList} ∧
    ((∀ p ∈ tr, RotatesWithRoom p.1 p.2) ↔ ∀ t ∈ reached tr s, t.store.entries.keys.card ≤ 1) := by
  have hstart : Run Step (init 1 60 0) [] (init 1 60 0) := .nil
  have hfirst := hstart.snoc (.call (.materialForAt "a".toList) 0 none (by decide) (by decide +kernel))
  have hrotated := hfirst.snoc (.call (.rotate "a".toList) 1 (some "a".toList) (by decide) (by decide +kernel))
  exact ⟨_, _, hrotated, by decide +kernel, isolation_store_within_capacity (by decide) hrotated⟩

open TimedStore in
/-- The entry of the first identity is evicted for the second while its connect attempt is under way, and the
rotation after the attempt has failed puts it back beside the second. -/
theorem rotate_exceeds_capacity :
    ¬ ∀ (capacity ttl now : ℕ) (tr : List (TimedStore × StoreEvent)) (s : TimedStore), 0 < capacity →
      Run Step (init capacity ttl now) tr s → ∀ t ∈ reached tr s, t.store.entries.keys.card ≤ capacity := by
  intro hclaim
  have hstart : Run Step (init 1 60 0) [] (init 1 60 0) := .nil
  have hfirst := hstart.snoc (.call (.materialForAt "a".toList) 0 none (by decide) (by decide +kernel))
  have hsecond := hfirst.snoc
    (.call (.materialForAt "b".toList) 1 (some "a".toList) (by decide) (by decide +kernel))
  have hrotated := hsecond.snoc (.call (.rotate "a".toList) 2 (some "b".toList) (by decide) (by decide +kernel))
  exact absurd (hclaim 1 60 0 _ _ (by decide) hrotated _ (mem_reached.2 (.inr rfl))) (by decide +kernel)

/-! ### Stability and freshness -/

/-- A call with the states before and after it. -/
abbrev StoreTransition := TimedStore × StoreEvent × TimedStore

/-- An entry of the identity that had not expired is gone after the call. -/
def evicts (identity : Str) (x : StoreTransition) : Bool :=
  ((x.1.store.retain x.2.1.time).entries.lookup identity).isSome && (x.2.2.store.entries.lookup identity).isNone

/-- The material is not among those returned. -/
def NeverReturned (history : List StoreTransition) (material : IsolationMaterial) : Prop :=
  ∀ x ∈ history, ∀ m, x.2.1.returned = some m → m.token ≠ material.token ∧ m.groupKey ≠ material.groupKey

/-- Two calls that returned the same token or the same group key were for one identity, and returned the
same material. -/
def Separate (x y : StoreTransition) : Prop :=
  ∀ m m', x.2.1.returned = some m → y.2.1.returned = some m' →
    m.token = m'.token ∨ m.groupKey = m'.groupKey →
    (∃ identity, x.2.1.call.identity = some identity ∧ y.2.1.call.identity = some identity) ∧ m = m'

/-- The time and the result of the last call for the identity, unless the entry was evicted since. -/
def current (identity : Str) (history : List StoreTransition) : Option (ℕ × IsolationMaterial) :=
  history.foldl (fun last x =>
    if x.2.1.call.identity = some identity then x.2.1.returned.map fun m => (x.2.1.time, m)
    else if evicts identity x then none else last) none

variable {identity : Str} {history : List StoreTransition} {x : StoreTransition}

theorem current_snoc : current identity (history ++ [x]) =
    if x.2.1.call.identity = some identity then x.2.1.returned.map fun m => (x.2.1.time, m)
    else if evicts identity x then none else current identity history := by
  rw [current, List.foldl_append]
  rfl

theorem current_eq_none (h : ∀ y ∈ history, y.2.1.call.identity ≠ some identity) :
    current identity history = none := by
  induction history using List.reverseRecOn with
  | nil => rfl
  | append_singleton history x ih =>
    rw [current_snoc, if_neg (h x (by simp)), ih fun y hy => h y (List.mem_append_left _ hy), ite_self]

/-- What is current after the last call for the identity. -/
theorem current_of_last {mid : List StoreTransition} (hx : x.2.1.call.identity = some identity)
    (hmid : ∀ y ∈ mid, y.2.1.call.identity ≠ some identity) :
    current identity (history ++ x :: mid) =
      if mid.any (evicts identity) then none else x.2.1.returned.map fun m => (x.2.1.time, m) := by
  induction mid using List.reverseRecOn with
  | nil => rw [current_snoc, if_pos hx]; rfl
  | append_singleton mid y ih =>
    rw [← List.cons_append, ← List.append_assoc, current_snoc, if_neg (hmid y (by simp)),
      ih fun z hz => hmid z (List.mem_append_left _ hz), List.any_append, List.any_cons, List.any_nil,
      Bool.or_false]
    cases evicts identity y <;> cases mid.any (evicts identity) <;> rfl

/-- The material that is current was returned for the identity. -/
theorem returned_of_current {t : ℕ} {m : IsolationMaterial} (h : current identity history = some (t, m)) :
    ∃ y ∈ history, y.2.1.call.identity = some identity ∧ y.2.1.returned = some m := by
  induction history using List.reverseRecOn with
  | nil => cases h
  | append_singleton history x ih =>
    rw [current_snoc] at h
    split_ifs at h with hid hev
    · obtain ⟨m', hm', heq⟩ := Option.map_eq_some_iff.1 h
      cases heq
      exact ⟨x, by simp, hid, hm'⟩
    · obtain ⟨y, hy, hyid, hret⟩ := ih h
      exact ⟨y, List.mem_append_left _ hy, hyid, hret⟩

/-- The entry of the identity is what its last call left, for as long as it has not expired. -/
structure Tracked (ttl : ℕ) (history : List StoreTransition) (s : TimedStore) (identity : Str) : Prop where
  entry : ∀ entry, s.store.entries.lookup identity = some entry →
    current identity history = some (entry.lastUsed, entry.material) ∧ entry.expiresAt = entry.lastUsed + ttl
  live : ∀ t m, current identity history = some (t, m) → s.now < t + ttl →
    s.store.entries.lookup identity = some ⟨m, t, t + ttl⟩

variable {ttl time : ℕ} {s s' : TimedStore} {e : StoreEvent}

/-- A call for the identity that stored its result. -/
theorem Tracked.own {m : IsolationMaterial} (hid : e.call.identity = some identity)
    (hret : e.returned = some m)
    (hentry : s'.store.entries.lookup identity = some ⟨m, e.time, e.time + ttl⟩) :
    Tracked ttl (history ++ [(s, e, s')]) s' identity := by
  have hcur : current identity (history ++ [(s, e, s')]) = some (e.time, m) := by
    rw [current_snoc, if_pos hid, hret]
    rfl
  refine ⟨fun entry h => ?_, fun t m' h _ => ?_⟩
  · cases hentry.symm.trans h
    exact ⟨hcur, rfl⟩
  · cases hcur.symm.trans h
    exact hentry

/-- A call for another identity that stored nothing new under this one. -/
theorem Tracked.other (h : Tracked ttl history s identity) (hid : e.call.identity ≠ some identity)
    (htime : s.now ≤ e.time) (hnow : s'.now = e.time)
    (hsub : ∀ entry, s'.store.entries.lookup identity = some entry → s.store.entries.lookup identity = some entry) :
    Tracked ttl (history ++ [(s, e, s')]) s' identity := by
  have hcur : current identity (history ++ [(s, e, s')]) =
      if evicts identity (s, e, s') then none else current identity history := by
    rw [current_snoc, if_neg hid]
  refine ⟨fun entry hentry => ?_, fun t m hm hlive => ?_⟩
  · have hkept : evicts identity (s, e, s') = false := by simp [evicts, hentry]
    rw [hcur, if_neg (by simp [hkept])]
    exact h.entry entry (hsub entry hentry)
  · rw [hcur] at hm
    split_ifs at hm with hev
    have hold := h.live t m hm (htime.trans_lt (hnow ▸ hlive))
    -- the entry has not expired, so it is there before the call and was not evicted
    have hretained : (s.store.retain e.time).entries.lookup identity = some ⟨m, t, t + ttl⟩ :=
      Finmap.lookup_retain.2 ⟨hold, by simpa using hnow ▸ hlive⟩
    cases hafter : s'.store.entries.lookup identity with
    | none => simp [evicts, hretained, hafter] at hev
    | some entry => rw [← hold, hsub entry hafter]

/-- Which entry a call at a later time finds. -/
theorem Tracked.lookup_retain (h : Tracked ttl history s identity) (htime : s.now ≤ time)
    (entry : IsolationEntry) : (s.store.retain time).entries.lookup identity = some entry ↔
      current identity history = some (entry.lastUsed, entry.material) ∧ time < entry.lastUsed + ttl ∧
        entry.expiresAt = entry.lastUsed + ttl := by
  constructor
  · intro hentry
    obtain ⟨hstored, hlive⟩ := Finmap.lookup_retain.1 hentry
    obtain ⟨hcur, hexp⟩ := h.entry entry hstored
    exact ⟨hcur, hexp ▸ of_decide_eq_true hlive, hexp⟩
  · rintro ⟨hcur, hlive, hexp⟩
    have hstored := h.live _ _ hcur (htime.trans_lt hlive)
    rw [← hexp] at hstored hlive
    exact Finmap.lookup_retain.2 ⟨hstored, by simpa using hlive⟩

/-- A call that stores its result for one identity and at most removes others. -/
theorem tracked_insert {material : IsolationMaterial} (base : Finmap fun _ : Str => IsolationEntry)
    (h : ∀ k, Tracked ttl history s k) (hid : e.call.identity = some identity)
    (hret : e.returned = some material) (htime : s.now ≤ e.time) (hnow : s'.now = e.time)
    (hstore : s'.store.entries = base.insert identity ⟨material, e.time, e.time + ttl⟩)
    (hsub : ∀ k entry, base.lookup k = some entry → s.store.entries.lookup k = some entry) (k : Str) :
    Tracked ttl (history ++ [(s, e, s')]) s' k := by
  by_cases hk : k = identity
  · subst hk
    exact Tracked.own hid hret (by rw [hstore, Finmap.lookup_insert])
  · refine (h k).other (fun heq => hk (Option.some.inj (heq.symm.trans hid))) htime hnow fun entry hentry => ?_
    rw [hstore, Finmap.lookup_insert_of_ne _ hk] at hentry
    exact hsub k entry hentry

/-- Every material returned so far is below the counters, and no two calls share one but for one
identity. -/
structure Issued (history : List StoreTransition) (s : IsolationStore) : Prop where
  bounded : ∀ x ∈ history, ∀ m, x.2.1.returned = some m →
    m.token < s.nextToken ∧ m.groupKey.toNat < s.groupCounter
  separate : history.Pairwise Separate

instance : Std.Symm Separate := by
  refine ⟨fun x y h m m' hm hm' hshared => ?_⟩
  obtain ⟨⟨identity, hx, hy⟩, heq⟩ := h m' m hm' hm (hshared.imp Eq.symm Eq.symm)
  exact ⟨⟨identity, hy, hx⟩, heq.symm⟩

theorem Issued.silent {store : IsolationStore} (h : Issued history store) (hret : e.returned = none)
    (hkept : IsolationStore.Kept store s'.store) : Issued (history ++ [(s, e, s')]) s'.store := by
  refine ⟨fun x hx m hm => ?_, List.pairwise_append.2 ⟨h.separate, List.pairwise_singleton .., ?_⟩⟩
  · rcases List.mem_append.1 hx with hx | hx
    · rw [hkept.1, hkept.2]
      exact h.bounded x hx m hm
    · rw [List.mem_singleton.1 hx, hret] at hm
      cases hm
  · intro x hx y hy m m' hm hm'
    rw [List.mem_singleton.1 hy, hret] at hm'
    cases hm'

/-- A call that returns what an earlier call for the identity returned. -/
theorem Issued.again {store : IsolationStore} {t : ℕ} {material : IsolationMaterial} (h : Issued history store)
    (hid : e.call.identity = some identity) (hret : e.returned = some material)
    (hcur : current identity history = some (t, material)) (hkept : IsolationStore.Kept store s'.store) :
    Issued (history ++ [(s, e, s')]) s'.store := by
  obtain ⟨y, hy, hyid, hyret⟩ := returned_of_current hcur
  refine ⟨fun x hx m hm => ?_, List.pairwise_append.2 ⟨h.separate, List.pairwise_singleton .., ?_⟩⟩
  · rw [hkept.1, hkept.2]
    rcases List.mem_append.1 hx with hx | hx
    · exact h.bounded x hx m hm
    · rw [List.mem_singleton.1 hx, hret] at hm
      cases hm
      exact h.bounded y hy material hyret
  · intro x hx z hz m m' hm hm' hshared
    rw [List.mem_singleton.1 hz] at hm' ⊢
    cases hret.symm.trans hm'
    by_cases hxy : x = y
    · subst hxy
      cases hyret.symm.trans hm
      exact ⟨⟨identity, hyid, hid⟩, rfl⟩
    · have hsep := h.separate.forall hx hy hxy
      obtain ⟨⟨identity', hxid, hyid'⟩, rfl⟩ := hsep m material hm hyret hshared
      cases hyid.symm.trans hyid'
      exact ⟨⟨identity, hxid, hid⟩, rfl⟩

/-- What the counters hand out next was never returned. -/
theorem Issued.never {store : IsolationStore} (h : Issued history store) (hcounter : store.groupCounter < 2 ^ 64) :
    NeverReturned history ⟨store.nextToken, UInt64.ofNat store.groupCounter⟩ := by
  intro x hx m hm
  obtain ⟨hlt, hlt'⟩ := h.bounded x hx m hm
  refine ⟨hlt.ne, fun heq => ?_⟩
  rw [heq, UInt64.toNat_ofNat_of_lt' hcounter] at hlt'
  exact lt_irrefl _ hlt'

/-- A call that draws its material. -/
theorem Issued.drawn {store : IsolationStore} {material : IsolationMaterial} (h : Issued history store)
    (hret : e.returned = some material) (hdrawn : IsolationStore.Drawn store s'.store material)
    (hcounter : store.groupCounter < 2 ^ 64) : Issued (history ++ [(s, e, s')]) s'.store := by
  obtain ⟨rfl, htoken, hgroup⟩ := hdrawn
  refine ⟨fun x hx m hm => ?_, List.pairwise_append.2 ⟨h.separate, List.pairwise_singleton .., ?_⟩⟩
  · rw [htoken, hgroup]
    rcases List.mem_append.1 hx with hx | hx
    · obtain ⟨hlt, hlt'⟩ := h.bounded x hx m hm
      exact ⟨Nat.lt_succ_of_lt hlt, Nat.lt_succ_of_lt hlt'⟩
    · rw [List.mem_singleton.1 hx, hret] at hm
      cases hm
      exact ⟨Nat.lt_succ_self _, (UInt64.toNat_ofNat_of_lt' hcounter).trans_lt (Nat.lt_succ_self _)⟩
  · intro x hx z hz m m' hm hm' hshared
    rw [List.mem_singleton.1 hz] at hm'
    cases hret.symm.trans hm'
    obtain ⟨hne, hne'⟩ := h.never hcounter x hx m hm
    exact (hshared.elim hne hne').elim

namespace IsolationStore

variable {store : IsolationStore} {now : ℕ} (oldest : Option Str)

/-- A lookup that finds an entry returns its material and renews it. -/
theorem materialForAt_found {entry : IsolationEntry} (h : (store.retain now).entries.lookup identity = some entry) :
    store.materialForAt identity now oldest =
      (entry.material, (store.retain now).insert identity entry.material now store.ttl) := by
  unfold materialForAt
  dsimp only
  rw [h]
  rfl

/-- A lookup that finds no entry draws new material, after it made room. -/
theorem materialForAt_missing (h : (store.retain now).entries.lookup identity = none) :
    Drawn store (store.materialForAt identity now oldest).2 (store.materialForAt identity now oldest).1 ∧
      (store.materialForAt identity now oldest).2.entries =
        ((store.retain now).makeRoom oldest).entries.insert identity
          ⟨(store.materialForAt identity now oldest).1, now, now + store.ttl⟩ := by
  have hkept := kept_makeRoom (store.retain now) oldest
  have httl := ((store.retain now).capacity_makeRoom oldest).2
  unfold materialForAt
  dsimp only
  rw [h]
  dsimp only
  refine ⟨?_, ?_⟩
  · simp only [draw, insert, Drawn, hkept.1, hkept.2]
    exact ⟨rfl, rfl, rfl⟩
  · simp only [draw, insert, httl]
    rfl

end IsolationStore

/-- What a lookup answers: the material of the identity's last call while that has not expired and was not
evicted, and otherwise one that was never returned. -/
def Answers (ttl : ℕ) (history : List StoreTransition) (e : StoreEvent) : Prop :=
  ∀ identity m, e.call = .materialForAt identity → e.returned = some m →
    (∃ t, current identity history = some (t, m) ∧ e.time < t + ttl) ∨
      (∀ t m', current identity history = some (t, m') → t + ttl ≤ e.time) ∧ NeverReturned history m

structure Chronicle (ttl : ℕ) (history : List StoreTransition) (s : TimedStore) : Prop where
  tracked : ∀ identity, Tracked ttl history s identity
  issued : Issued history s.store
  returns : ∀ x ∈ history, x.2.1.call.identity ≠ none → ∃ m, x.2.1.returned = some m
  answers : ∀ pre x post, history = pre ++ x :: post → Answers ttl pre x.2.1

theorem Chronicle.snoc (h : Chronicle ttl history s) (htracked : ∀ k, Tracked ttl (history ++ [(s, e, s')]) s' k)
    (hissued : Issued (history ++ [(s, e, s')]) s'.store)
    (hreturns : e.call.identity ≠ none → ∃ m, e.returned = some m) (hanswers : Answers ttl history e) :
    Chronicle ttl (history ++ [(s, e, s')]) s' := by
  refine ⟨htracked, hissued, fun x hx hid => ?_, fun pre x post heq => ?_⟩
  · rcases List.mem_append.1 hx with hx | hx
    · exact h.returns x hx hid
    · rw [List.mem_singleton.1 hx] at hid ⊢
      exact hreturns hid
  · rcases List.eq_nil_or_concat post with rfl | ⟨post', y, rfl⟩
    · obtain ⟨rfl, hx⟩ := List.append_inj' heq rfl
      rw [← List.singleton_inj.1 hx]
      exact hanswers
    · rw [List.concat_eq_append, ← List.cons_append, ← List.append_assoc] at heq
      exact h.answers pre x post' (List.append_inj' heq rfl).1

theorem lt_of_drawn {store store' : IsolationStore} {material : IsolationMaterial}
    (h : IsolationStore.Drawn store store' material) (hcounter : store'.groupCounter ≤ 2 ^ 64) :
    store.groupCounter < 2 ^ 64 := by
  rw [h.2.2] at hcounter
  exact hcounter

theorem Chronicle.step (h : Chronicle ttl history s) (httl : s.store.ttl = ttl) (hs : TimedStore.Step s e s')
    (hput : ∀ identity token ttl, e.call ≠ .put identity token ttl) (hcounter : s'.store.groupCounter ≤ 2 ^ 64) :
    Chronicle ttl (history ++ [(s, e, s')]) s' := by
  cases hs with
  | call call time oldest htime =>
    cases call with
    | materialForAt identity =>
      cases hfound : (s.store.retain time).entries.lookup identity with
      | some entry =>
        obtain ⟨hcur, hlive, -⟩ := ((h.tracked identity).lookup_retain htime entry).1 hfound
        have heq := IsolationStore.materialForAt_found oldest hfound
        have hret : (s.store.perform time oldest (.materialForAt identity)).1 = some entry.material := by
          rw [IsolationStore.perform, heq]
        refine h.snoc (fun k => ?_) ?_ (fun _ => ⟨_, hret⟩) fun k m hk hm => ?_
        · refine tracked_insert (s.store.retain time).entries h.tracked rfl hret htime rfl ?_
            (fun _ _ => IsolationStore.lookup_retain) k
          rw [IsolationStore.perform, heq, ← httl]
          rfl
        · exact h.issued.again rfl hret hcur (by rw [IsolationStore.perform, heq]; exact ⟨rfl, rfl⟩)
        · cases hk
          cases hret.symm.trans hm
          exact .inl ⟨_, hcur, hlive⟩
      | none =>
        obtain ⟨hdrawn, hentries⟩ := IsolationStore.materialForAt_missing oldest hfound
        have hlt := lt_of_drawn hdrawn hcounter
        refine h.snoc (fun k => ?_) (h.issued.drawn rfl hdrawn hlt) (fun _ => ⟨_, rfl⟩) fun k m hk hm => ?_
        · refine tracked_insert _ h.tracked rfl rfl htime rfl (httl ▸ hentries) (fun k entry hk => ?_) k
          exact IsolationStore.lookup_retain (IsolationStore.lookup_makeRoom hk)
        · cases hk
          cases hm
          refine .inr ⟨fun t m' hcur => ?_, hdrawn.1 ▸ h.issued.never hlt⟩
          by_contra hlive
          have hentry := ((h.tracked identity).lookup_retain htime ⟨m', t, t + ttl⟩).2
            ⟨hcur, not_le.1 hlive, rfl⟩
          rw [hfound] at hentry
          cases hentry
    | put identity token ttl => exact absurd rfl (hput identity token ttl)
    | rotate identity =>
      have hdrawn := (s.store.rotate_spec identity time).2
      refine h.snoc (fun k => ?_) (h.issued.drawn rfl hdrawn (lt_of_drawn hdrawn hcounter)) (fun _ => ⟨_, rfl⟩)
        fun k m hk => by cases hk
      refine tracked_insert _ h.tracked rfl rfl htime rfl (by rw [← httl]; rfl) (fun _ _ hk => ?_) k
      exact IsolationStore.lookup_retain hk
    | len =>
      refine h.snoc (fun k => ?_) (h.issued.silent rfl ⟨rfl, rfl⟩) (by simp [StoreCall.identity])
        fun k m hk => by cases hk
      exact (h.tracked k).other (by simp [StoreCall.identity]) htime rfl fun _ => IsolationStore.lookup_retain
    | strict =>
      refine h.snoc (fun k => ?_) (h.issued.drawn rfl ⟨rfl, rfl, rfl⟩ hcounter) (fun _ => ⟨_, rfl⟩)
        fun k m hk => by cases hk
      exact (h.tracked k).other (by simp [StoreCall.identity]) htime rfl fun _ hk => hk

/-- A call draws at most one group key. -/
theorem groupCounter_step (hs : TimedStore.Step s e s')
    (hput : ∀ identity token ttl, e.call ≠ .put identity token ttl) :
    s.store.groupCounter ≤ s'.store.groupCounter ∧ s'.store.groupCounter ≤ s.store.groupCounter + 1 := by
  have hdrawn : ∀ {store store' : IsolationStore} {material : IsolationMaterial},
      IsolationStore.Drawn store store' material →
      store.groupCounter ≤ store'.groupCounter ∧ store'.groupCounter ≤ store.groupCounter + 1 := by
    intro store store' material h
    rw [h.2.2]
    exact ⟨Nat.le_succ _, le_rfl⟩
  cases hs with
  | call call time oldest =>
    cases call with
    | materialForAt identity =>
      rcases (s.store.materialForAt_spec identity time oldest).2 with ⟨hkept, -⟩ | h
      · exact ⟨hkept.2.ge, hkept.2.le.trans (Nat.le_succ _)⟩
      · exact hdrawn h
    | put identity token ttl => exact absurd rfl (hput identity token ttl)
    | rotate identity => exact hdrawn (s.store.rotate_spec identity time).2
    | len => exact ⟨le_rfl, Nat.le_succ _⟩
    | strict => exact ⟨Nat.le_succ _, le_rfl⟩

theorem chronicle_of_run {capacity ttl now : ℕ} {tr : List (TimedStore × StoreEvent)}
    (h : Run TimedStore.Step (.init capacity ttl now) tr s)
    (hput : ∀ p ∈ tr, ∀ identity token ttl, p.2.call ≠ .put identity token ttl)
    (hcounter : s.store.groupCounter ≤ 2 ^ 64) : Chronicle ttl (transitions tr s) s := by
  induction h with
  | nil =>
    have hempty : ∀ identity, (TimedStore.init capacity ttl now).store.entries.lookup identity = none :=
      fun _ => Finmap.lookup_empty _
    exact ⟨fun identity => ⟨by simp [hempty], by simp [current]⟩, ⟨by simp, by simp⟩, by simp, by simp⟩
  | snoc h hs ih =>
    have hlast := hput _ (List.mem_append_right _ (List.mem_singleton_self _))
    have hchronicle := ih (fun p hp => hput p (List.mem_append_left _ hp))
      ((groupCounter_step hs hlast).1.trans hcounter)
    have hconf := h.invariant (I := TimedStore.Configured capacity ttl) ⟨rfl, rfl⟩ fun s e s' hI hs => hI.step hs
    rw [transitions_snoc]
    exact hchronicle.step hconf.2 hs hlast hcounter

/-- Nothing happened to the identity since its last call `y`: that has not expired when `x` is made, and no
call in between evicted it. -/
def Lasts (ttl : ℕ) (identity : Str) (y : StoreTransition) (mid : List StoreTransition) (x : StoreTransition) : Prop :=
  x.2.1.time < y.2.1.time + ttl ∧ ∀ z ∈ mid, evicts identity z = false

/-- Any two calls that returned the same token or the same group key were for one identity and returned the
same material; and a lookup returns what the previous call for its identity returned if and only if that
lasts, and otherwise material that was never returned before. -/
theorem isolation_materials_stable {capacity ttl now : ℕ} {tr : List (TimedStore × StoreEvent)} {s : TimedStore}
    (h : Run TimedStore.Step (.init capacity ttl now) tr s)
    (hput : ∀ p ∈ tr, ∀ identity token ttl, p.2.call ≠ .put identity token ttl)
    (hcounter : s.store.groupCounter ≤ 2 ^ 64) :
    (transitions tr s).Pairwise Separate ∧
    ∀ pre x post identity material, transitions tr s = pre ++ x :: post →
      x.2.1.call = .materialForAt identity → x.2.1.returned = some material →
      ((∀ y ∈ pre, y.2.1.call.identity ≠ some identity) → NeverReturned pre material) ∧
      ∀ before y mid, pre = before ++ y :: mid → y.2.1.call.identity = some identity →
        (∀ z ∈ mid, z.2.1.call.identity ≠ some identity) →
        (y.2.1.returned = some material ↔ Lasts ttl identity y mid x) ∧
          (¬ Lasts ttl identity y mid x → NeverReturned pre material) := by
  have hchronicle := chronicle_of_run h hput hcounter
  refine ⟨hchronicle.issued.separate, fun pre x post identity material heq hcall hret => ⟨fun hnone => ?_, ?_⟩⟩
  · rcases hchronicle.answers pre x post heq identity material hcall hret with ⟨t, hcur, -⟩ | ⟨-, hnever⟩
    · rw [current_eq_none hnone] at hcur
      cases hcur
    · exact hnever
  · rintro before y mid rfl hy hmid
    have hymem : y ∈ before ++ y :: mid := by simp
    obtain ⟨m, hm⟩ := hchronicle.returns y (heq ▸ List.mem_append_left _ hymem) (by simp [hy])
    have hcurrent : current identity (before ++ y :: mid) = _ := current_of_last hy hmid
    rw [hm, Option.map_some] at hcurrent
    have hlasts : (∀ z ∈ mid, evicts identity z = false) ↔ mid.any (evicts identity) = false := by
      simp
    rcases hchronicle.answers _ x post heq identity material hcall hret with
      ⟨t, hcur, hlive⟩ | ⟨hexpired, hnever⟩
    · -- the lookup found the entry
      rw [hcurrent] at hcur
      split_ifs at hcur with hany
      cases hcur
      have hlast : Lasts ttl identity y mid x := ⟨hlive, hlasts.2 (by simpa using hany)⟩
      exact ⟨iff_of_true hm hlast, fun hnot => absurd hlast hnot⟩
    · have hnot : ¬ Lasts ttl identity y mid x := by
        rintro ⟨hlive, hkept⟩
        rw [hlasts.1 hkept, if_neg (by simp)] at hcurrent
        exact absurd (hexpired _ _ hcurrent) (not_le.2 hlive)
      refine ⟨iff_of_false (fun hsame => ?_) hnot, fun _ => hnever⟩
      exact (hnever y hymem material hsame).1 rfl

/-- Two lookups of one identity, a strict request between them and a lookup after the time to live. -/
theorem isolation_materials_stable_single : ∃ tr s, Run TimedStore.Step (.init 2 60 0) tr s ∧
    tr.map (fun p => p.2.returned) = [some ⟨1, 1⟩, some ⟨2, 2⟩, some ⟨1, 1⟩, some ⟨3, 3⟩] ∧
    (transitions tr s).Pairwise Separate := by
  have hstart : Run TimedStore.Step (.init 2 60 0) [] (.init 2 60 0) := .nil
  have hfirst := hstart.snoc (.call (.materialForAt "a".toList) 0 none (by decide) (by decide +kernel))
  have hstrict := hfirst.snoc (.call .strict 10 (some "a".toList) (by decide) (by decide +kernel))
  have hsecond := hstrict.snoc
    (.call (.materialForAt "a".toList) 30 (some "a".toList) (by decide) (by decide +kernel))
  have hexpired := hsecond.snoc (.call (.materialForAt "a".toList) 90 none (by decide) (by decide +kernel))
  exact ⟨_, _, hexpired, by decide +kernel,
    (isolation_materials_stable hexpired (by simp) (by decide +kernel)).1⟩

end Cobra
