import CobraProxy.Lib.FiniteMap

/-! A bounded map of reference-counted cells. An `Arc` is a pointer, `Arc::new` takes a fresh one,
and a holder is a clone that lives outside the map, written as the key it was obtained under and its
pointer. An entry may be evicted only while the map has its one reference. -/

structure ArcCache (κ ν : Type*) where
  entries : Finmap fun _ : κ => ℕ
  cells : ℕ → ν
  next : ℕ

namespace ArcCache

section Cells

variable {κ ν : Type*}

/-- A map without entries; the cells are not allocated yet. -/
def empty (cell : ν) : ArcCache κ ν := ⟨∅, fun _ => cell, 0⟩

def size (c : ArcCache κ ν) : ℕ := c.entries.keys.card

def modify (c : ArcCache κ ν) (ptr : ℕ) (f : ν → ν) : ArcCache κ ν :=
  { c with cells := Function.update c.cells ptr (f (c.cells ptr)) }

/-- `Arc::strong_count` of a pointer that the map holds. -/
def strongCount (holders : List (κ × ℕ)) (ptr : ℕ) : ℕ := 1 + holders.countP fun h => h.2 = ptr

variable {c : ArcCache κ ν} {holders : List (κ × ℕ)} {ptr : ℕ}

@[simp] theorem next_modify (f : ν → ν) : (c.modify ptr f).next = c.next := rfl

@[simp] theorem size_modify (f : ν → ν) : (c.modify ptr f).size = c.size := rfl

theorem cells_modify (f : ν → ν) (q : ℕ) :
    (c.modify ptr f).cells q = if q = ptr then f (c.cells ptr) else c.cells q := by
  unfold modify
  by_cases h : q = ptr
  · subst h; simp
  · simp [h]

/-- The map's own reference is the only one exactly when nobody holds the pointer. -/
theorem strongCount_eq_one : strongCount holders ptr = 1 ↔ ∀ h ∈ holders, h.2 ≠ ptr := by
  simp [strongCount]

end Cells

variable {κ ν : Type*} [DecidableEq κ]

def find (c : ArcCache κ ν) (k : κ) : Option ℕ := c.entries.lookup k

def create (c : ArcCache κ ν) (k : κ) (cell : ν) : ArcCache κ ν where
  entries := c.entries.insert k c.next
  cells := Function.update c.cells c.next cell
  next := c.next + 1

def remove (c : ArcCache κ ν) (k : κ) : ArcCache κ ν := { c with entries := c.entries.erase k }

/-- The result of `filter(eligible).min_by_key(last_used)`: any least entry, since the order of
iteration decides between equal ones. -/
def LeastUsed (c : ArcCache κ ν) (eligible : ℕ → Prop) (lastUsed : ν → ℕ) : Option κ → Prop
  | none => ∀ k ptr, c.find k = some ptr → ¬ eligible ptr
  | some victim => ∃ ptr, c.find victim = some ptr ∧ eligible ptr ∧
      ∀ k ptr', c.find k = some ptr' → eligible ptr' → lastUsed (c.cells ptr) ≤ lastUsed (c.cells ptr')

instance (c : ArcCache κ ν) (eligible : ℕ → Prop) [DecidablePred eligible] (lastUsed : ν → ℕ) :
    (victim : Option κ) → Decidable (c.LeastUsed eligible lastUsed victim)
  | none => decidable_of_iff (∀ k ∈ c.entries.keys, ∀ ptr ∈ c.find k, ¬ eligible ptr)
      ⟨fun h k ptr hk => h k (Finmap.mem_keys.2 (Finmap.mem_iff.2 ⟨ptr, hk⟩)) ptr hk,
        fun h k _ ptr hk => h k ptr hk⟩
  | some victim => decidable_of_iff
      (∃ ptr ∈ c.find victim, eligible ptr ∧ ∀ k ∈ c.entries.keys, ∀ ptr' ∈ c.find k,
        eligible ptr' → lastUsed (c.cells ptr) ≤ lastUsed (c.cells ptr'))
      ⟨fun ⟨ptr, hv, he, h⟩ => ⟨ptr, hv, he, fun k ptr' hk =>
          h k (Finmap.mem_keys.2 (Finmap.mem_iff.2 ⟨ptr', hk⟩)) ptr' hk⟩,
        fun ⟨ptr, hv, he, h⟩ => ⟨ptr, hv, he, fun k _ ptr' hk => h k ptr' hk⟩⟩

/-- Every clone outside the map is the entry of its key, and every pointer is used by one key. -/
structure Coherent (c : ArcCache κ ν) (holders : List (κ × ℕ)) : Prop where
  held : ∀ h ∈ holders, c.find h.1 = some h.2
  inj : ∀ k k' ptr, c.find k = some ptr → c.find k' = some ptr → k = k'
  fresh : ∀ k ptr, c.find k = some ptr → ptr < c.next

variable {c : ArcCache κ ν} {holders holders' : List (κ × ℕ)} {k k' : κ} {ptr : ℕ} {cell : ν}

@[simp] theorem find_empty (cell : ν) : (empty cell : ArcCache κ ν).find k = none := Finmap.lookup_empty _

theorem find_create : (c.create k cell).find k' = if k' = k then some c.next else c.find k' := by
  unfold find create
  split_ifs with h
  · subst h; exact Finmap.lookup_insert _
  · exact Finmap.lookup_insert_of_ne _ h

theorem find_remove : (c.remove k).find k' = if k' = k then none else c.find k' := by
  unfold find remove
  split_ifs with h
  · subst h; exact Finmap.lookup_erase _ _
  · exact Finmap.lookup_erase_ne h

@[simp] theorem find_modify (f : ν → ν) : (c.modify ptr f).find k = c.find k := rfl

theorem cells_create (q : ℕ) : (c.create k cell).cells q = if q = c.next then cell else c.cells q := by
  unfold create
  by_cases h : q = c.next
  · subst h; simp
  · simp [h]

theorem size_create (h : c.find k = none) : (c.create k cell).size = c.size + 1 :=
  Finmap.card_insert_of_notMem _ (Finmap.lookup_eq_none.1 h)

theorem size_remove (h : c.find k = some ptr) : (c.remove k).size = c.size - 1 :=
  Finmap.card_erase_of_mem (Finmap.mem_iff.2 ⟨ptr, h⟩)

theorem size_remove_le (c : ArcCache κ ν) (k : κ) : (c.remove k).size ≤ c.size := by
  rw [size, remove, Finmap.keys_erase]
  exact Finset.card_le_card (Finset.erase_subset ..)

theorem size_pos (h : c.find k = some ptr) : 0 < c.size :=
  Finset.card_pos.2 ⟨k, Finmap.mem_keys.2 (Finmap.mem_iff.2 ⟨ptr, h⟩)⟩

theorem Coherent.empty (cell : ν) : Coherent (empty cell : ArcCache κ ν) [] :=
  ⟨by simp, by simp, by simp⟩

theorem Coherent.mono (h : Coherent c holders) (hsub : ∀ x ∈ holders', x ∈ holders) :
    Coherent c holders' :=
  ⟨fun x hx => h.held x (hsub x hx), h.inj, h.fresh⟩

theorem Coherent.modify (h : Coherent c holders) (ptr : ℕ) (f : ν → ν) :
    Coherent (c.modify ptr f) holders :=
  ⟨h.held, h.inj, h.fresh⟩

/-- A clone of an entry of the map is a new holder. -/
theorem Coherent.clone (h : Coherent c holders) (hk : c.find k = some ptr) :
    Coherent c ((k, ptr) :: holders) := by
  refine ⟨fun x hx => ?_, h.inj, h.fresh⟩
  rcases List.mem_cons.1 hx with rfl | hx
  · exact hk
  · exact h.held x hx

/-- An entry that nobody holds can go. -/
theorem Coherent.remove (h : Coherent c holders) (hk : c.find k = some ptr)
    (hidle : ∀ x ∈ holders, x.2 ≠ ptr) : Coherent (c.remove k) holders := by
  refine ⟨fun x hx => ?_, fun a b p ha hb => ?_, fun a p ha => ?_⟩
  · rw [find_remove, if_neg, h.held x hx]
    rintro rfl
    exact hidle x hx (Option.some.inj ((h.held x hx).symm.trans hk))
  · rw [find_remove] at ha hb
    split_ifs at ha hb
    exact h.inj a b p ha hb
  · rw [find_remove] at ha
    split_ifs at ha
    exact h.fresh a p ha

theorem Coherent.create (h : Coherent c holders) (hk : c.find k = none) (cell : ν) :
    Coherent (c.create k cell) holders := by
  refine ⟨fun x hx => ?_, fun a b p ha hb => ?_, fun a p ha => ?_⟩
  · rw [find_create, if_neg, h.held x hx]
    rintro rfl
    rw [h.held x hx] at hk
    cases hk
  · rw [find_create] at ha hb
    split_ifs at ha hb with hak hbk hbk
    · rw [hak, hbk]
    · cases ha
      exact absurd (h.fresh b _ hb) (lt_irrefl _)
    · cases hb
      exact absurd (h.fresh a _ ha) (lt_irrefl _)
    · exact h.inj a b p ha hb
  · rw [find_create] at ha
    show p < c.next + 1
    split_ifs at ha
    · cases ha
      exact Nat.lt_succ_self _
    · exact Nat.lt_succ_of_lt (h.fresh a p ha)

end ArcCache
