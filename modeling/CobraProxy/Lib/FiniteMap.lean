import Mathlib

/-! Key sets, sizes and sums of finite maps under `insert`, `erase` and `retain`. -/

namespace Finmap

variable {κ : Type*} {β : κ → Type*} [DecidableEq κ]

@[simp] theorem keys_insert (a : κ) (b : β a) (m : Finmap β) :
    (m.insert a b).keys = Insert.insert a m.keys := by
  ext k
  simp [mem_keys]

theorem card_insert_of_notMem {a : κ} {m : Finmap β} (b : β a) (h : a ∉ m) :
    (m.insert a b).keys.card = m.keys.card + 1 := by
  rw [keys_insert, Finset.card_insert_of_notMem (by rwa [mem_keys])]

theorem card_insert_of_mem {a : κ} {m : Finmap β} (b : β a) (h : a ∈ m) :
    (m.insert a b).keys.card = m.keys.card := by
  rw [keys_insert, Finset.insert_eq_self.2 (mem_keys.2 h)]

theorem card_erase_of_mem {a : κ} {m : Finmap β} (h : a ∈ m) :
    (m.erase a).keys.card = m.keys.card - 1 := by
  rw [keys_erase, Finset.card_erase_of_mem (mem_keys.2 h)]

/-- Storing what is already there changes nothing. -/
theorem insert_eq_self {a : κ} {b : β a} {m : Finmap β} (h : m.lookup a = some b) :
    m.insert a b = m := by
  apply ext_lookup
  intro k
  by_cases hk : k = a
  · subst hk; rw [lookup_insert, h]
  · rw [lookup_insert_of_ne _ hk]

/-- `HashMap::retain`. -/
def retain (m : Finmap β) (p : (k : κ) → β k → Bool) : Finmap β where
  entries := m.entries.filter fun e => p e.1 e.2
  nodupKeys := by
    obtain ⟨entries, hnd⟩ := m
    induction entries using Quotient.inductionOn with
    | _ l => exact List.NodupKeys.sublist List.filter_sublist hnd

theorem lookup_retain {m : Finmap β} {p : (k : κ) → β k → Bool} {k : κ} {b : β k} :
    (m.retain p).lookup k = some b ↔ m.lookup k = some b ∧ p k b := by
  rw [lookup_eq_some_iff, lookup_eq_some_iff, retain, Multiset.mem_filter]

theorem card_retain_le (m : Finmap β) (p : (k : κ) → β k → Bool) :
    (m.retain p).keys.card ≤ m.keys.card := by
  refine Finset.card_le_card fun k hk => ?_
  rw [mem_keys, mem_iff] at hk ⊢
  obtain ⟨b, hb⟩ := hk
  exact ⟨b, (lookup_retain.1 hb).1⟩

section Eviction

variable {β : Type*}

/-- `min_by_key`: any key whose value is least, or `none` in an empty map. -/
def IsMinBy (m : Finmap fun _ : κ => β) (f : β → ℕ) : Option κ → Prop
  | none => m.keys = ∅
  | some k => ∃ b, m.lookup k = some b ∧ ∀ k' b', m.lookup k' = some b' → f b ≤ f b'

instance (m : Finmap fun _ : κ => β) (f : β → ℕ) : (k : Option κ) → Decidable (m.IsMinBy f k)
  | none => inferInstanceAs (Decidable (m.keys = ∅))
  | some k => decidable_of_iff (∃ b ∈ m.lookup k, ∀ k' ∈ m.keys, ∀ b' ∈ m.lookup k', f b ≤ f b')
      ⟨fun ⟨b, hb, h⟩ => ⟨b, hb, fun k' b' hk => h k' (mem_keys.2 (mem_iff.2 ⟨b', hk⟩)) b' hk⟩,
        fun ⟨b, hb, h⟩ => ⟨b, hb, fun k' _ b' hk => h k' b' hk⟩⟩

/-- A full map gives up an entry. -/
def makeRoom (m : Finmap fun _ : κ => β) (capacity : ℕ) (victim : Option κ) : Finmap fun _ : κ => β :=
  if capacity ≤ m.keys.card then
    match victim with
    | some k => m.erase k
    | none => m
  else m

variable {m : Finmap fun _ : κ => β} {f : β → ℕ} {capacity : ℕ} {victim : Option κ}

theorem lookup_makeRoom {k : κ} {b : β} (h : (m.makeRoom capacity victim).lookup k = some b) :
    m.lookup k = some b := by
  unfold makeRoom at h
  split_ifs at h
  · cases victim with
    | none => exact h
    | some k' =>
      by_cases hk : k = k'
      · subst hk
        rw [lookup_erase] at h
        cases h
      · rwa [lookup_erase_ne hk] at h
  · exact h

/-- The entry that a full map gives up leaves room for one. -/
theorem card_makeRoom_lt (hcapacity : 0 < capacity) (hroom : m.keys.card ≤ capacity)
    (hvictim : m.IsMinBy f victim) : (m.makeRoom capacity victim).keys.card < capacity := by
  unfold makeRoom
  split_ifs with hfull
  · cases victim with
    | none =>
      rw [hvictim, Finset.card_empty] at hfull
      omega
    | some k =>
      obtain ⟨b, hk, -⟩ := hvictim
      have hmem : k ∈ m := mem_iff.2 ⟨b, hk⟩
      have hpos : 0 < m.keys.card := Finset.card_pos.2 ⟨k, mem_keys.2 hmem⟩
      rw [card_erase_of_mem hmem]
      omega
  · omega

/-- An insertion stays within a bound that has room for one more entry. -/
theorem card_insert_le {n : ℕ} {k : κ} (b : β) (h : m.keys.card < n) : (m.insert k b).keys.card ≤ n := by
  rw [keys_insert]
  exact (Finset.card_insert_le _ _).trans h

end Eviction

section Total

variable {β M : Type*} [AddCommMonoid M]

/-- The sum of a column over the entries whose key satisfies `p`. -/
def total (m : Finmap fun _ : κ => β) (p : κ → Prop) [DecidablePred p] (f : β → M) : M :=
  ∑ k ∈ m.keys with p k, (m.lookup k).elim 0 f

variable {m : Finmap fun _ : κ => β} {p : κ → Prop} [DecidablePred p] {f : β → M}

/-- Absent keys add nothing. -/
theorem total_eq_sum {s : Finset κ} (h : m.keys ⊆ s) :
    m.total p f = ∑ k ∈ s with p k, (m.lookup k).elim 0 f := by
  refine Finset.sum_subset (Finset.filter_subset_filter _ h) fun k hk hnot => ?_
  have hk : k ∉ m := fun hm => hnot (by
    rw [Finset.mem_filter] at hk ⊢
    exact ⟨mem_keys.2 hm, hk.2⟩)
  rw [lookup_eq_none.2 hk]
  rfl

/-- Storing a value moves the sum from the value it replaces to the new one. -/
theorem total_insert (k : κ) (v : β) : (m.insert k v).total p f + (if p k then (m.lookup k).elim 0 f else 0) =
    m.total p f + (if p k then f v else 0) := by
  have hsub : m.keys ⊆ Insert.insert k m.keys := Finset.subset_insert _ _
  rw [total_eq_sum hsub, total_eq_sum (m := m.insert k v) (by rw [keys_insert])]
  have hrest : ∑ j ∈ (Finset.filter p (Insert.insert k m.keys)).erase k, ((m.insert k v).lookup j).elim 0 f =
      ∑ j ∈ (Finset.filter p (Insert.insert k m.keys)).erase k, (m.lookup j).elim 0 f := by
    refine Finset.sum_congr rfl fun j hj => ?_
    rw [lookup_insert_of_ne _ (Finset.ne_of_mem_erase hj)]
  by_cases hp : p k
  · have hmem : k ∈ Finset.filter p (Insert.insert k m.keys) := by simp [hp]
    rw [← Finset.add_sum_erase _ _ hmem, ← Finset.add_sum_erase _ _ hmem, hrest, lookup_insert,
      if_pos hp, if_pos hp, Option.elim_some]
    ac_rfl
  · have hnot : k ∉ Finset.filter p (Insert.insert k m.keys) := by simp [hp]
    rw [Finset.erase_eq_of_notMem hnot] at hrest
    rw [hrest, if_neg hp, if_neg hp]

end Total

end Finmap
