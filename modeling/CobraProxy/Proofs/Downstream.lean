import CobraProxy.Lib.FiniteMap
import CobraProxy.Lib.Run
import CobraProxy.Spec.Registries

/-! Ownership of downstream contexts. As long as no `register` call names an address that already
has an entry, the entries of the store are exactly those of the live guards. A call that does name
one replaces the entry before it fails, and the entry it leaves belongs to no guard. -/

namespace Cobra

open Runs

/-- The entries and the live guards name the same addresses and generations, each guard's address
is served the context that guard registered, and no entry is left over. -/
structure GuardsOwnEntries (s : DownstreamSystem) : Prop where
  entry_iff : ∀ address generation,
    (∃ entry, s.store.entries.lookup address = some entry ∧ entry.generation = generation) ↔
      ∃ p ∈ s.live, p.1.address = address ∧ p.1.generation = generation
  context_eq : ∀ p ∈ s.live, s.store.context p.1.address = some p.2
  card_eq : s.store.entries.keys.card = s.live.length

def FreshAddress (s : DownstreamSystem) : DownstreamAct → Prop
  | .register address _ => address ∉ s.store.entries
  | .drop _ _ => True

def ErrorKeepsEntries (s : DownstreamSystem) : DownstreamAct → Prop
  | .register address context => ∀ e store,
      s.store.register address context = (.error e, store) → store.entries = s.store.entries
  | .drop _ _ => True

/-- `register` at an address without an entry: refused at capacity, else the entry is added. -/
theorem register_fresh (store : AuthenticatedDownstreamStore) {address : SocketAddr}
    (context : AuthenticatedRequestContext) (h : address ∉ store.entries) :
    store.register address context =
      if store.capacity ≤ store.entries.keys.card then
        (.error "authenticated downstream store capacity reached",
          { store with sequence := (store.sequence + 1) % 2 ^ 64 })
      else (.ok ⟨address, store.sequence⟩,
        { store with
          sequence := (store.sequence + 1) % 2 ^ 64
          entries := store.entries.insert address ⟨store.sequence, context⟩ }) := by
  have hl : store.entries.lookup address = none := Finmap.lookup_eq_none.2 h
  unfold AuthenticatedDownstreamStore.register
  split_ifs <;> simp_all

namespace GuardsOwnEntries

variable {s : DownstreamSystem}

theorem mem_entries_iff (h : GuardsOwnEntries s) (address : SocketAddr) :
    address ∈ s.store.entries ↔ address ∈ s.live.map (·.1.address) := by
  rw [Finmap.mem_iff, List.mem_map]
  constructor
  · rintro ⟨entry, he⟩
    obtain ⟨p, hp, ha, -⟩ := (h.entry_iff address entry.generation).1 ⟨entry, he, rfl⟩
    exact ⟨p, hp, ha⟩
  · rintro ⟨p, hp, ha⟩
    obtain ⟨entry, he, -⟩ := (h.entry_iff address p.1.generation).2 ⟨p, hp, ha, rfl⟩
    exact ⟨entry, he⟩

/-- No two live guards share an address: there are as many entries as guards. -/
theorem addresses_nodup (h : GuardsOwnEntries s) : (s.live.map (·.1.address)).Nodup := by
  have hk : s.store.entries.keys = (s.live.map (·.1.address)).toFinset := by
    ext address
    rw [Finmap.mem_keys, List.mem_toFinset, h.mem_entries_iff]
  have hc := h.card_eq
  rw [hk] at hc
  refine Multiset.coe_nodup.1 (Multiset.toFinset_card_eq_card_iff_nodup.1 ?_)
  simpa using hc

theorem new (capacity : ℕ) : GuardsOwnEntries (.new capacity) := by
  constructor <;> simp [DownstreamSystem.new, AuthenticatedDownstreamStore.new]

theorem register (h : GuardsOwnEntries s) {address : SocketAddr}
    (context : AuthenticatedRequestContext) (hf : address ∉ s.store.entries) :
    GuardsOwnEntries (s.register address context) := by
  have hlive : ∀ p ∈ s.live, p.1.address ≠ address := fun p hp ha =>
    hf ((h.mem_entries_iff address).2 (List.mem_map.2 ⟨p, hp, ha⟩))
  unfold DownstreamSystem.register
  rw [register_fresh _ _ hf]
  split_ifs with hcap
  · exact ⟨h.entry_iff, h.context_eq, h.card_eq⟩
  · refine ⟨fun a g => ?_, fun p hp => ?_, ?_⟩
    · by_cases ha : a = address
      · subst ha
        constructor
        · rintro ⟨entry, he, rfl⟩
          simp only [Finmap.lookup_insert, Option.some.injEq] at he
          exact ⟨_, List.mem_cons_self, rfl, by rw [← he]⟩
        · rintro ⟨p, hp, ha, hg⟩
          rcases List.mem_cons.1 hp with rfl | hp
          · exact ⟨_, Finmap.lookup_insert _, hg⟩
          · exact absurd ha (hlive p hp)
      · simp only [Finmap.lookup_insert_of_ne _ ha, h.entry_iff, List.mem_cons, exists_eq_or_imp]
        constructor
        · exact Or.inr
        · rintro (⟨h1, -⟩ | h2)
          · exact absurd h1.symm ha
          · exact h2
    · rcases List.mem_cons.1 hp with rfl | hp
      · simp [AuthenticatedDownstreamStore.context]
      · have := h.context_eq p hp
        simpa [AuthenticatedDownstreamStore.context, Finmap.lookup_insert_of_ne _ (hlive p hp)] using this
    · simp only [Finmap.card_insert_of_notMem _ hf, h.card_eq, List.length_cons]

theorem drop (h : GuardsOwnEntries s) {guard : AuthenticatedDownstreamGuard}
    {context : AuthenticatedRequestContext} (hm : (guard, context) ∈ s.live) :
    GuardsOwnEntries (s.drop guard context) := by
  obtain ⟨entry, he, hg⟩ := (h.entry_iff guard.address guard.generation).2 ⟨_, hm, rfl, rfl⟩
  have hrm : s.store.remove guard.address guard.generation =
      { s.store with entries := s.store.entries.erase guard.address } := by
    simp [AuthenticatedDownstreamStore.remove, he, hg]
  -- the other guards have other addresses, so erasing this one leaves their entries alone
  have hnd := h.addresses_nodup
  have hother : ∀ p ∈ s.live.erase (guard, context), p.1.address ≠ guard.address := by
    intro p hp ha
    have hperm := (List.perm_cons_erase hm).map (·.1.address)
    rw [hperm.nodup_iff, List.map_cons, List.nodup_cons] at hnd
    exact hnd.1 (List.mem_map.2 ⟨p, hp, ha⟩)
  refine ⟨fun a g => ?_, fun p hp => ?_, ?_⟩
  · simp only [DownstreamSystem.drop, hrm]
    by_cases ha : a = guard.address
    · subst ha
      constructor
      · rintro ⟨e, he', -⟩; simp at he'
      · rintro ⟨p, hp, hpa, -⟩; exact absurd hpa (hother p hp)
    · rw [Finmap.lookup_erase_ne ha, h.entry_iff]
      constructor
      · rintro ⟨p, hp, hpa, hpg⟩
        refine ⟨p, (List.mem_erase_of_ne ?_).2 hp, hpa, hpg⟩
        rintro rfl
        exact ha hpa.symm
      · rintro ⟨p, hp, hpa⟩; exact ⟨p, List.mem_of_mem_erase hp, hpa⟩
  · have := h.context_eq p (List.mem_of_mem_erase hp)
    simp only [DownstreamSystem.drop, hrm, AuthenticatedDownstreamStore.context] at this ⊢
    rwa [Finmap.lookup_erase_ne (hother p hp)]
  · simp only [DownstreamSystem.drop, hrm]
    rw [Finmap.card_erase_of_mem (Finmap.mem_of_lookup_eq_some he), h.card_eq,
      List.length_erase_of_mem hm]

theorem step {act : DownstreamAct} {s' : DownstreamSystem} (h : GuardsOwnEntries s)
    (hf : FreshAddress s act) (hs : s.Step act s') : GuardsOwnEntries s' := by
  cases act with
  | register address context => subst hs; exact h.register context hf
  | drop guard context => obtain ⟨hm, rfl⟩ := hs; exact h.drop hm

end GuardsOwnEntries

theorem errorKeepsEntries_of_fresh {s : DownstreamSystem} {act : DownstreamAct}
    (hf : FreshAddress s act) : ErrorKeepsEntries s act := by
  cases act with
  | register address context =>
    intro e store he
    rw [register_fresh _ _ hf] at he
    split_ifs at he with hcap
    · obtain ⟨-, rfl⟩ := Prod.mk.inj he; rfl
    · cases (Prod.mk.inj he).1
  | drop guard context => trivial

/-- In a run whose `register` calls all name addresses without an entry, the entries are those of
the live guards in every state, and no failed call has changed an entry. -/
theorem live_guards_own_entries {capacity : ℕ} {tr : List (DownstreamSystem × DownstreamAct)}
    {s : DownstreamSystem} (hrun : Run DownstreamSystem.Step (.new capacity) tr s)
    (hfresh : ∀ p ∈ tr, FreshAddress p.1 p.2) :
    (∀ t ∈ reached tr s, GuardsOwnEntries t) ∧ ∀ p ∈ tr, ErrorKeepsEntries p.1 p.2 := by
  obtain ⟨hlast, htr⟩ := hrun.invariant_of (GuardsOwnEntries.new capacity)
    (fun _ _ _ h hc hs => h.step hc hs) hfresh
  refine ⟨fun t ht => ?_, fun p hp => errorKeepsEntries_of_fresh (hfresh p hp)⟩
  rcases mem_reached.1 ht with ⟨a, ha⟩ | rfl
  · exact htr _ ha
  · exact hlast

/-! ### A duplicate address -/

namespace DuplicateAddress

def limits : AccountLimits :=
  ⟨.ofNat 1, .ofNat 1, .ofNat 1, none, none⟩

/-- The context of a request of account `n`. -/
def contextOf (n : ℕ) : AuthenticatedRequestContext :=
  ⟨⟨⟨.ofNat n, .ofNat n, .ofNat n, .ofNat n, limits⟩, .epoch⟩, ⟨none, false⟩⟩

def address : SocketAddr := ⟨[127, 0, 0, 1], 40000⟩

def first : AuthenticatedRequestContext := contextOf 1

def second : AuthenticatedRequestContext := contextOf 2

def s₀ : DownstreamSystem := .new 2

def s₁ : DownstreamSystem := s₀.register address first

def s₂ : DownstreamSystem := s₁.register address second

end DuplicateAddress

open DuplicateAddress in
/-- The second call fails, but its context is served at the address, whose only live guard
registered the first one; and dropping that guard does not remove the entry. -/
theorem duplicate_register_takes_entry :
    Run DownstreamSystem.Step s₀ [(s₀, .register address first), (s₁, .register address second)] s₂ ∧
      ¬ GuardsOwnEntries s₂ ∧ ¬ ErrorKeepsEntries s₁ (.register address second) ∧
      s₂.live = [(⟨address, 1⟩, first)] ∧ s₂.store.context address = some second ∧
      (s₂.drop ⟨address, 1⟩ first).store.context address = some second := by
  refine ⟨(Run.nil.snoc rfl).snoc rfl, fun h => ?_, fun h => ?_, by decide, by decide, by decide⟩
  · exact absurd (h.context_eq (⟨address, 1⟩, first) (by decide)) (by decide)
  · have := h _ _ rfl
    exact absurd (congrArg (Finmap.lookup address) this) (by decide)

/-! ### An address that is used again -/

namespace ReusedAddress

open DuplicateAddress

def other : SocketAddr := ⟨[127, 0, 0, 1], 40001⟩

def both : DownstreamSystem := s₁.register other second

def dropped : DownstreamSystem := both.drop ⟨address, 1⟩ first

def again : DownstreamSystem := dropped.register address (contextOf 3)

def acts : List (DownstreamSystem × DownstreamAct) :=
  [(s₀, .register address first), (s₁, .register other second), (both, .drop ⟨address, 1⟩ first),
    (dropped, .register address (contextOf 3))]

end ReusedAddress

open DuplicateAddress ReusedAddress in
/-- Two clients connect, the first goes and its address comes back with another context. -/
theorem live_guards_own_entries_reused : (∀ t ∈ reached acts again, GuardsOwnEntries t) ∧
    again.live = [(⟨address, 3⟩, contextOf 3), (⟨other, 2⟩, second)] := by
  have hrun : Run DownstreamSystem.Step (.new 2) acts again :=
    (((Run.nil.snoc rfl).snoc rfl).snoc ⟨by decide, rfl⟩).snoc rfl
  have hfresh : ∀ p ∈ acts, FreshAddress p.1 p.2 := by
    intro p hp
    simp only [acts, List.mem_cons, List.not_mem_nil, or_false] at hp
    rcases hp with rfl | rfl | rfl | rfl
    · exact Finmap.notMem_empty
    · show other ∉ s₁.store.entries
      decide
    · trivial
    · show address ∉ dropped.store.entries
      decide
  exact ⟨(live_guards_own_entries hrun hfresh).1, by decide⟩

end Cobra
