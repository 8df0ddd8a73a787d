import Mathlib

/-! SQL tables with an `INTEGER PRIMARY KEY AUTOINCREMENT` column: rows in the order of their
keys, and the highest key ever given out. Rows are never deleted. -/

structure Table (ρ : Type*) where
  rows : List (ℕ × ρ)
  seq : ℕ
  sorted : (rows.map Prod.fst).Pairwise (· < ·)
  bounded : ∀ r ∈ rows, 0 < r.1 ∧ r.1 ≤ seq
  seq_lt : seq < 2 ^ 63

namespace Table

variable {ρ : Type*}

def empty : Table ρ := ⟨[], 0, by simp, by simp, by decide⟩

/-- INSERT of one row, with the key it gets; `none` once the last key is used. -/
def insert (t : Table ρ) (row : ρ) : Option (ℕ × Table ρ) :=
  if h : t.seq + 1 < 2 ^ 63 then
    some (t.seq + 1,
      { rows := t.rows ++ [(t.seq + 1, row)]
        seq := t.seq + 1
        sorted := by
          rw [List.map_append, List.pairwise_append]
          refine ⟨t.sorted, by simp, ?_⟩
          intro a ha b hb
          obtain ⟨r, hr, rfl⟩ := List.mem_map.1 ha
          have := (t.bounded r hr).2
          simp at hb
          omega
        bounded := by
          intro r hr
          rcases List.mem_append.1 hr with hr | hr
          · have := t.bounded r hr
            omega
          · rw [List.mem_singleton.1 hr]
            exact ⟨Nat.succ_pos _, le_rfl⟩
        seq_lt := h })
  else none

/-- The row under a key. -/
def get (t : Table ρ) (id : ℕ) : Option ρ := t.rows.lookup id

/-- UPDATE of the row under a key where it satisfies `p`. -/
def update (t : Table ρ) (id : ℕ) (p : ρ → Bool) (f : ρ → ρ) : Table ρ where
  rows := t.rows.map fun r => if r.1 = id ∧ p r.2 then (r.1, f r.2) else r
  seq := t.seq
  sorted := by
    rw [List.map_map]
    convert t.sorted using 2
    funext r
    simp only [Function.comp_apply]
    split <;> rfl
  bounded := by
    intro r hr
    obtain ⟨r', hr', rfl⟩ := List.mem_map.1 hr
    have := t.bounded r' hr'
    split <;> exact this
  seq_lt := t.seq_lt

/-- How many rows that UPDATE changes. -/
def changed (t : Table ρ) (id : ℕ) (p : ρ → Bool) : ℕ :=
  (t.rows.filter fun r => r.1 = id ∧ p r.2).length

/-- The rows of `SELECT .. WHERE p .. ORDER BY id`. -/
def select (t : Table ρ) (p : ℕ → ρ → Bool) : List (ℕ × ρ) := t.rows.filter fun r => p r.1 r.2

variable {t t' : Table ρ} {id i : ℕ} {row r : ρ}

theorem keys_nodup (t : Table ρ) : (t.rows.map Prod.fst).Nodup :=
  t.sorted.imp Nat.ne_of_lt

theorem get_eq_some_iff : t.get id = some row ↔ (id, row) ∈ t.rows := by
  have key : ∀ l : List (ℕ × ρ), (l.map Prod.fst).Nodup →
      (l.lookup id = some row ↔ (id, row) ∈ l) := by
    intro l hl
    induction l with
    | nil => simp
    | cons a l ih =>
      obtain ⟨k, v⟩ := a
      rw [List.map_cons, List.nodup_cons] at hl
      by_cases hk : id = k
      · subst hk
        have hnot : (id, row) ∉ l := fun hm => hl.1 (List.mem_map.2 ⟨_, hm, rfl⟩)
        simp [hnot, eq_comm]
      · have : (id == k) = false := by simpa using hk
        rw [List.lookup_cons, this]
        simp only [List.mem_cons, Prod.mk.injEq, hk, false_and, false_or]
        exact ih hl.2
  exact key t.rows t.keys_nodup

theorem get_eq_none_iff : t.get id = none ↔ ∀ row, (id, row) ∉ t.rows := by
  rw [Option.eq_none_iff_forall_ne_some]
  exact forall_congr' fun row => not_congr get_eq_some_iff

theorem get_bounds (h : t.get id = some row) : 0 < id ∧ id < 2 ^ 63 := by
  have hb := t.bounded _ (get_eq_some_iff.1 h)
  exact ⟨hb.1, lt_of_le_of_lt hb.2 t.seq_lt⟩

@[simp] theorem get_empty : (empty : Table ρ).get id = none := rfl

theorem insert_of_full (row : ρ) (h : ¬ t.seq + 1 < 2 ^ 63) : t.insert row = none := dif_neg h

theorem insert_of_room (row : ρ) (h : t.seq + 1 < 2 ^ 63) : ∃ t', t.insert row = some (t.seq + 1, t') ∧
    t'.rows = t.rows ++ [(t.seq + 1, row)] ∧ t'.seq = t.seq + 1 :=
  ⟨_, dif_pos h, rfl, rfl⟩

theorem insert_spec (h : t.insert row = some (id, t')) :
    t.get id = none ∧ 0 < id ∧ id < 2 ^ 63 ∧ ∀ i, t'.get i = if i = id then some row else t.get i := by
  unfold insert at h
  split at h
  · rename_i hlt
    obtain ⟨rfl, rfl⟩ := Prod.mk.inj (Option.some.inj h)
    have hfresh : ∀ row', (t.seq + 1, row') ∉ t.rows := fun row' hm => by
      have := (t.bounded _ hm).2
      omega
    refine ⟨get_eq_none_iff.2 hfresh, Nat.succ_pos _, hlt, fun i => Option.ext fun x => ?_⟩
    rw [get_eq_some_iff]
    split_ifs with hi
    · subst hi
      have := hfresh x
      simp only [List.mem_append, this, List.mem_singleton, Prod.mk.injEq, true_and, false_or,
        Option.some.injEq]
      exact eq_comm
    · simp [hi, get_eq_some_iff]
  · cases h

theorem get_update (t : Table ρ) (id : ℕ) (p : ρ → Bool) (f : ρ → ρ) (i : ℕ) :
    (t.update id p f).get i =
      if i = id then (t.get i).map fun r => if p r then f r else r else t.get i := by
  have key : ∀ l : List (ℕ × ρ),
      (l.map fun r => if r.1 = id ∧ p r.2 then (r.1, f r.2) else r).lookup i =
        if i = id then (l.lookup i).map fun r => if p r then f r else r else l.lookup i := by
    intro l
    induction l with
    | nil => simp
    | cons a l ih =>
      obtain ⟨k, v⟩ := a
      rw [List.map_cons, List.lookup_cons, List.lookup_cons, ih]
      by_cases hik : i = k
      · subst hik
        by_cases hid : i = id
        · subst hid
          by_cases hp : p v <;> simp [hp]
        · simp [hid]
      · have hne : (i == k) = false := by simpa using hik
        by_cases hid : k = id ∧ p v
        · rw [if_pos hid]; simp [hne]
        · rw [if_neg hid]; simp [hne]
  exact key t.rows

theorem changed_pos_iff {p : ρ → Bool} : 0 < t.changed id p ↔ ∃ r, t.get id = some r ∧ p r := by
  simp only [changed, List.length_pos_iff_exists_mem, List.mem_filter, decide_eq_true_eq, Prod.exists,
    get_eq_some_iff]
  constructor
  · rintro ⟨_, r, hm, rfl, hp⟩; exact ⟨r, hm, hp⟩
  · rintro ⟨r, hm, hp⟩; exact ⟨id, r, hm, rfl, hp⟩

/-- An UPDATE that no row qualifies for leaves the table as it is. -/
theorem update_of_changed_eq_zero {p : ρ → Bool} (f : ρ → ρ) (h : t.changed id p = 0) :
    t.update id p f = t := by
  have hrows : (t.update id p f).rows = t.rows := by
    refine (List.map_congr_left fun r hr => ?_).trans (List.map_id _)
    rw [changed, List.length_eq_zero_iff, List.filter_eq_nil_iff] at h
    rw [if_neg (by simpa using h r hr)]
    rfl
  cases t
  simp only [update] at hrows ⊢
  simp only [hrows]

theorem mem_select {p : ℕ → ρ → Bool} {x : ℕ × ρ} :
    x ∈ t.select p ↔ t.get x.1 = some x.2 ∧ p x.1 x.2 := by
  rw [get_eq_some_iff]
  exact List.mem_filter

/-- An INSERT adds its row to the queries that it satisfies. -/
theorem length_select_insert {q : ℕ → ρ → Bool} (h : t.insert row = some (id, t')) :
    (t'.select q).length = (t.select q).length + if q id row then 1 else 0 := by
  unfold insert at h
  split at h
  · obtain ⟨rfl, rfl⟩ := Prod.mk.inj (Option.some.inj h)
    simp only [select, List.filter_append, List.length_append, List.filter_cons, List.filter_nil]
    split_ifs <;> rfl
  · cases h

/-- An UPDATE takes the old row from the queries that it satisfied and adds the new one to its own. -/
theorem length_select_update {p : ρ → Bool} {q : ℕ → ρ → Bool} (f : ρ → ρ) (h : t.get id = some row) (hp : p row) :
    ((t.update id p f).select q).length + (if q id row then 1 else 0) =
      (t.select q).length + if q id (f row) then 1 else 0 := by
  have key : ∀ l : List (ℕ × ρ), (l.map Prod.fst).Nodup → (id, row) ∈ l →
      ((l.map fun r => if r.1 = id ∧ p r.2 then (r.1, f r.2) else r).filter fun r => q r.1 r.2).length +
        (if q id row then 1 else 0) =
      (l.filter fun r => q r.1 r.2).length + if q id (f row) then 1 else 0 := by
    intro l hl hmem
    induction l with
    | nil => cases hmem
    | cons a l ih =>
      rw [List.map_cons, List.nodup_cons] at hl
      rcases List.mem_cons.1 hmem with rfl | hmem
      · have htail : (l.map fun r => if r.1 = id ∧ p r.2 then (r.1, f r.2) else r) = l := by
          refine (List.map_congr_left fun r hr => ?_).trans (List.map_id _)
          have hne : ¬ (r.1 = id ∧ p r.2) := fun hc => hl.1 (List.mem_map.2 ⟨r, hr, hc.1⟩)
          rw [if_neg hne]
          rfl
        rw [List.map_cons, htail, if_pos ⟨rfl, hp⟩, List.filter_cons, List.filter_cons]
        split_ifs <;> simp only [List.length_cons]
      · have hne : a.1 ≠ id := fun ha => hl.1 (ha ▸ List.mem_map_of_mem hmem)
        have hrest := ih hl.2 hmem
        have hnot : ¬ (a.1 = id ∧ p a.2) := fun hc => hne hc.1
        rw [List.map_cons, if_neg hnot, List.filter_cons, List.filter_cons]
        by_cases hq : q a.1 a.2
        · rw [if_pos hq, if_pos hq, List.length_cons, List.length_cons]
          omega
        · rw [if_neg hq, if_neg hq]
          exact hrest
  exact key t.rows t.keys_nodup (get_eq_some_iff.1 h)

/-- A query by a value that at most one row has returns that row. -/
theorem select_eq_singleton {p : ℕ → ρ → Bool} (h : t.get id = some row) (hp : p id row)
    (huniq : ∀ i r, t.get i = some r → p i r → i = id) : t.select p = [(id, row)] := by
  have hsub : ∀ x ∈ t.select p, x = (id, row) := by
    intro x hx
    obtain ⟨hget, hpx⟩ := mem_select.1 hx
    obtain rfl := huniq x.1 x.2 hget hpx
    exact Prod.ext rfl (Option.some.inj (hget.symm.trans h))
  have hnd : (t.select p).Nodup := (List.Nodup.of_map _ t.keys_nodup).filter _
  have hmem : (id, row) ∈ t.select p := mem_select.2 ⟨h, hp⟩
  cases hs : t.select p with
  | nil => rw [hs] at hmem; cases hmem
  | cons x l =>
    rw [hs] at hsub hnd
    obtain rfl := hsub x (List.mem_cons_self ..)
    cases l with
    | nil => rfl
    | cons y l =>
      obtain rfl := hsub y (by simp)
      simp at hnd

/-- An UPDATE of one row by its key changes that row alone. -/
theorem changed_eq_one {p : ρ → Bool} (h : t.get id = some row) (hp : p row) : t.changed id p = 1 := by
  have hone : t.select (fun i r => i = id ∧ p r) = [(id, row)] :=
    select_eq_singleton h (by simp [hp]) fun i r _ hq => by simpa using (of_decide_eq_true hq).1
  exact congrArg List.length hone

end Table
