import CobraProxy.Lib.Fallible
import CobraProxy.Lib.Run
import CobraProxy.Spec.DataLimiter

/-! Sessions and calls in progress hold the counter that the map has for their account and period. -/

namespace Cobra

namespace CustomerDataLimiter

variable {l : CustomerDataLimiter}

theorem makeRoom_cases (l : CustomerDataLimiter) (candidate : Option PeriodKey) :
    l.makeRoom candidate = l ∨
      ∃ victim, candidate = some victim ∧ l.makeRoom candidate = { l with states := l.states.remove victim } := by
  unfold makeRoom
  split_ifs
  · cases candidate with
    | none => exact .inl rfl
    | some victim => exact .inr ⟨victim, rfl, rfl⟩
  · exact .inl rfl

/-- Making room takes at most an entry from the map. -/
theorem find_makeRoom {candidate : Option PeriodKey} {key : PeriodKey} {state : ℕ}
    (h : (l.makeRoom candidate).states.find key = some state) : l.states.find key = some state := by
  rcases l.makeRoom_cases candidate with heq | ⟨victim, -, heq⟩
  · rwa [heq] at h
  · rw [heq, ArcCache.find_remove] at h
    split_ifs at h
    exact h

theorem makeRoom_frame (l : CustomerDataLimiter) (candidate : Option PeriodKey) :
    (l.makeRoom candidate).policy = l.policy ∧
      (l.makeRoom candidate).states.cells = l.states.cells ∧
      (l.makeRoom candidate).states.next = l.states.next := by
  rcases l.makeRoom_cases candidate with heq | ⟨victim, -, heq⟩ <;> rw [heq] <;> exact ⟨rfl, rfl, rfl⟩

/-- What the section under the lock can do: clone the counter of the key, refuse after it made room,
or create a counter from what the database has. -/
theorem stateFor_cases (l : CustomerDataLimiter) (db : Database) (identity : IngressIdentity)
    (periodStart : UnixTimestamp) (sequence : ℕ) (candidate : Option PeriodKey) :
    (∃ state, l.states.find (identity.accountId, periodStart) = some state ∧
      l.stateFor db identity periodStart sequence candidate = (.ok state, { l with
        states := l.states.modify state fun u => { u with lastUsed := sequence } })) ∨
    (l.states.find (identity.accountId, periodStart) = none ∧
      ((∃ e, l.stateFor db identity periodStart sequence candidate = (.error e, l.makeRoom candidate)) ∨
        ∃ bytes, db.persistedBytes identity.accountId periodStart = .ok bytes ∧
          bytes < l.policy.periodByteLimit.1 ∧
          l.stateFor db identity periodStart sequence candidate =
            (.ok l.states.next, { l.makeRoom candidate with
              states := (l.makeRoom candidate).states.create (identity.accountId, periodStart)
                ⟨bytes, sequence⟩ }))) := by
  have hframe := l.makeRoom_frame candidate
  unfold stateFor
  dsimp only
  split
  · rename_i state hstate
    exact .inl ⟨state, hstate, rfl⟩
  · rename_i hnone
    refine .inr ⟨hnone, ?_⟩
    split_ifs
    · exact .inl ⟨_, rfl⟩
    · split
      · exact .inl ⟨_, rfl⟩
      · rename_i bytes hbytes
        split_ifs with hlimit
        · exact .inl ⟨_, rfl⟩
        · refine .inr ⟨bytes, hbytes, ?_, ?_⟩
          · rw [← hframe.1]
            omega
          · rw [hframe.2.2]

end CustomerDataLimiter

namespace DataSystem

variable {s s' : DataSystem} {act : DataAct} {t t' : Tunnel}

/-- The counters that calls and sessions hold are the entries of the map. -/
def Held (s : DataSystem) : Prop := s.limiter.states.Coherent s.holders

theorem mem_holders {h : PeriodKey × ℕ} :
    h ∈ s.holders ↔ (∃ c ∈ s.calls, c.holder = some h) ∨
      ∃ t ∈ s.tunnels, (t.session.key, t.session.state) = h := by
  simp [holders]

theorem held_of_tunnel (h : Held s) (ht : t ∈ s.tunnels) :
    s.limiter.states.find t.session.key = some t.session.state :=
  h.held _ (mem_holders.2 (.inr ⟨t, ht, rfl⟩))

/-- What a step of a tunnel leaves alone. -/
structure Frame (s s' : DataSystem) (t t' : Tunnel) : Prop where
  key : t'.session.key = t.session.key
  state : t'.session.state = t.session.state
  limit : t'.session.limit = t.session.limit
  calls : s'.calls = s.calls
  policy : s'.limiter.policy = s.limiter.policy
  find : ∀ k, s'.limiter.states.find k = s.limiter.states.find k
  next : s'.limiter.states.next = s.limiter.states.next

theorem TunnelStep.frame (h : TunnelStep s t s' t') : Frame s s' t t' := by
  cases h with
  | record d => cases d <;> exact ⟨rfl, rfl, rfl, rfl, rfl, fun _ => rfl, rfl⟩
  | _ => exact ⟨rfl, rfl, rfl, rfl, rfl, fun _ => rfl, rfl⟩

/-- Entries and pointers as they were, and no holder that was not there. -/
theorem Held.of_frame (h : Held s) (hfind : ∀ k, s'.limiter.states.find k = s.limiter.states.find k)
    (hnext : s'.limiter.states.next = s.limiter.states.next) (hsub : ∀ x ∈ s'.holders, x ∈ s.holders) :
    Held s' := by
  refine ⟨fun x hx => ?_, fun a b p ha hb => ?_, fun a p ha => ?_⟩
  · rw [hfind]
    exact h.held x (hsub x hx)
  · rw [hfind] at ha hb
    exact h.inj a b p ha hb
  · rw [hfind] at ha
    rw [hnext]
    exact h.fresh a p ha

theorem Held.makeRoom (h : Held s) {candidate : Option PeriodKey} (hc : s.isCandidate candidate) :
    (s.limiter.makeRoom candidate).states.Coherent s.holders := by
  rcases s.limiter.makeRoom_cases candidate with heq | ⟨victim, rfl, heq⟩
  · rw [heq]
    exact h
  · obtain ⟨ptr, hptr, hcount, -⟩ := hc
    rw [heq]
    exact ArcCache.Coherent.remove h hptr (ArcCache.strongCount_eq_one.1 hcount)

theorem Held.lockSection (h : Held s) {kind : DataCallKind} {identity : IngressIdentity}
    {periodStart : UnixTimestamp} {sequence : ℕ} {candidate : Option PeriodKey} {rest : List DataCall}
    (hrest : ∀ c ∈ rest, c ∈ s.calls) (hc : s.isCandidate candidate) :
    Held (s.lockSection kind identity periodStart sequence candidate rest) := by
  have hsub : ∀ limiter, ∀ x ∈ ({ s with limiter, calls := rest } : DataSystem).holders, x ∈ s.holders := by
    intro limiter x hx
    rcases mem_holders.1 hx with ⟨c, hc, he⟩ | ht
    · exact mem_holders.2 (.inl ⟨c, hrest c hc, he⟩)
    · exact mem_holders.2 (.inr ht)
  have hstart : ∀ (limiter : CustomerDataLimiter) (state : ℕ), limiter.states.Coherent s.holders →
      limiter.states.find (identity.accountId, periodStart) = some state →
      Held { s with limiter, calls := .check kind identity periodStart state :: rest } := by
    intro limiter state hco hfind
    refine ArcCache.Coherent.mono (hco.clone hfind) fun x hx => ?_
    rcases mem_holders.1 hx with ⟨c, hc, he⟩ | ht
    · rcases List.mem_cons.1 hc with rfl | hc
      · cases he
        exact List.mem_cons_self ..
      · exact List.mem_cons_of_mem _ (mem_holders.2 (.inl ⟨c, hrest c hc, he⟩))
    · exact List.mem_cons_of_mem _ (mem_holders.2 (.inr ht))
  unfold DataSystem.lockSection
  rcases s.limiter.stateFor_cases s.database identity periodStart sequence candidate with
    ⟨state, hfind, heq⟩ | ⟨hnone, ⟨e, heq⟩ | ⟨bytes, -, -, heq⟩⟩
  · rw [heq]
    refine hstart _ state ?_ hfind
    dsimp only
    exact h.modify _ _
  · rw [heq]
    exact (h.makeRoom hc).mono (hsub _)
  · rw [heq]
    have hnone' : (s.limiter.makeRoom candidate).states.find (identity.accountId, periodStart) = none := by
      cases hf : (s.limiter.makeRoom candidate).states.find (identity.accountId, periodStart) with
      | none => rfl
      | some state => rw [CustomerDataLimiter.find_makeRoom hf] at hnone; cases hnone
    refine hstart _ _ ((h.makeRoom hc).create hnone' _) ?_
    rw [ArcCache.find_create, if_pos rfl, (s.limiter.makeRoom_frame candidate).2.2]

theorem Held.checkSection (h : Held s) {kind : DataCallKind} {identity : IngressIdentity}
    {periodStart : UnixTimestamp} {state : ℕ} {rest : List DataCall} (hrest : ∀ c ∈ rest, c ∈ s.calls)
    (hmem : .check kind identity periodStart state ∈ s.calls) :
    Held (s.checkSection kind identity periodStart state rest) := by
  unfold DataSystem.checkSection
  split
  · refine h.of_frame (fun _ => rfl) rfl fun x hx => ?_
    rcases mem_holders.1 hx with ⟨c, hc, he⟩ | ⟨t, ht, he⟩
    · exact mem_holders.2 (.inl ⟨c, hrest c hc, he⟩)
    · rcases List.mem_cons.1 ht with rfl | ht
      · exact mem_holders.2 (.inl ⟨_, hmem, congrArg some he⟩)
      · exact mem_holders.2 (.inr ⟨t, ht, he⟩)
  · refine h.of_frame (fun _ => rfl) rfl fun x hx => ?_
    rcases mem_holders.1 hx with ⟨c, hc, he⟩ | ht
    · exact mem_holders.2 (.inl ⟨c, hrest c hc, he⟩)
    · exact mem_holders.2 (.inr ht)

/-- The calls and tunnels beside the one that takes the step were there before it. -/
theorem mem_of_mem_others {α : Type} {x y : α} {pre post : List α} (h : y ∈ pre ++ post) : y ∈ pre ++ x :: post :=
  ((List.sublist_cons_self x post).append_left pre).subset h

/-- After it there are also the same ones and its own. -/
theorem eq_or_mem_of_mem_step {α : Type} {x x' y : α} {pre post : List α} (h : y ∈ pre ++ x' :: post) :
    y = x' ∨ y ∈ pre ++ x :: post := by
  rcases List.mem_append.1 h with h | h
  · exact .inr (List.mem_append_left _ h)
  · exact (List.mem_cons.1 h).imp_right fun h => mem_of_mem_others (List.mem_append_right _ h)

theorem Held.step (h : Held s) (hs : Step s act s') : Held s' := by
  cases hs with
  | begin kind identity periodStart =>
    refine h.of_frame (fun _ => rfl) rfl fun x hx => ?_
    rcases mem_holders.1 hx with ⟨c, hc, he⟩ | ht
    · rcases List.mem_cons.1 hc with rfl | hc
      · cases he
      · exact mem_holders.2 (.inl ⟨c, hc, he⟩)
    · exact mem_holders.2 (.inr ht)
  | lock kind identity periodStart sequence candidate pre post hcalls hc =>
    exact h.lockSection (fun c hc => hcalls ▸ mem_of_mem_others hc) hc
  | check kind identity periodStart state pre post hcalls =>
    exact h.checkSection (fun c hc => hcalls ▸ mem_of_mem_others hc) (hcalls ▸ by simp)
  | @tunnel t t' s₁ pre post htunnels ht =>
    have hf := ht.frame
    refine h.of_frame hf.find hf.next fun x hx => ?_
    rcases mem_holders.1 hx with ⟨c, hc, he⟩ | ⟨u, hu, he⟩
    · exact mem_holders.2 (.inl ⟨c, hf.calls ▸ hc, he⟩)
    · rcases eq_or_mem_of_mem_step hu with rfl | hu
      · exact mem_holders.2 (.inr ⟨t, htunnels ▸ by simp, by rw [← hf.key, ← hf.state, he]⟩)
      · exact mem_holders.2 (.inr ⟨u, htunnels ▸ hu, he⟩)
  | finish pre post htunnels =>
    refine h.of_frame (fun _ => rfl) rfl fun x hx => ?_
    rcases mem_holders.1 hx with hc | ⟨u, hu, he⟩
    · exact mem_holders.2 (.inl hc)
    · exact mem_holders.2 (.inr ⟨u, htunnels ▸ mem_of_mem_others hu, he⟩)
  | admitRequest => exact h

end DataSystem

end Cobra
