import CobraProxy.Lib.Run
import CobraProxy.Spec.Admission

/-! Calls in progress and live guards hold the state that the map has for their account, whatever
the interleaving: an entry is evicted only while nobody holds it. -/

namespace Cobra

namespace AccountAdmissionController

variable {c : AccountAdmissionController}

theorem find_updateLimits (state : ℕ) (limits : AccountLimits) (a : AccountId) :
    (c.updateLimits state limits).states.find a = c.states.find a := by
  unfold updateLimits
  split_ifs <;> rfl

theorem coherent_updateLimits {holders : List (AccountId × ℕ)} (h : c.states.Coherent holders)
    (state : ℕ) (limits : AccountLimits) : (c.updateLimits state limits).states.Coherent holders := by
  unfold updateLimits
  split_ifs
  · exact h
  · dsimp only
    exact h.modify _ _

theorem states_createState (a : AccountId) (limits : AccountLimits) (sequence : ℕ) :
    (c.createState a limits sequence).states =
      c.states.create a ⟨limits, c.nextLimiter, 0, sequence⟩ := rfl

/-- What the section under the lock can do: clone the entry of the account, refuse, or create an
entry, after it removed another one if the map was full. -/
theorem stateFor_cases (c : AccountAdmissionController) (a : AccountId) (limits : AccountLimits)
    (sequence : ℕ) (candidate : Option AccountId) :
    (∃ state, c.states.find a = some state ∧ c.stateFor a limits sequence candidate =
      (.ok state, { c.updateLimits state limits with
        states := (c.updateLimits state limits).states.modify state
          fun st => { st with lastUsed := sequence } })) ∨
    (∃ e, c.stateFor a limits sequence candidate = (.error e, c)) ∨
    (c.states.find a = none ∧ ∃ states, (states = c.states ∧ c.states.size < c.maxCachedAccounts ∨
        ∃ victim, candidate = some victim ∧ states = c.states.remove victim ∧
          c.maxCachedAccounts ≤ c.states.size) ∧
      c.stateFor a limits sequence candidate =
        (.ok c.states.next, ({ c with states } : AccountAdmissionController).createState a limits sequence)) := by
  unfold stateFor
  split
  · rename_i state hstate
    exact .inl ⟨state, hstate, rfl⟩
  · rename_i hnone
    split_ifs with hfull
    · cases candidate with
      | none => exact .inr (.inl ⟨_, rfl⟩)
      | some victim => exact .inr (.inr ⟨hnone, _, .inr ⟨victim, rfl, rfl, hfull⟩, rfl⟩)
    · exact .inr (.inr ⟨hnone, _, .inl ⟨rfl, by omega⟩, rfl⟩)

end AccountAdmissionController

namespace AdmissionSystem

variable {s s' : AdmissionSystem} {act : AdmissionAct} {th next : AdmissionThread}

/-- The states that calls and guards hold are the entries of the map. -/
def Held (s : AdmissionSystem) : Prop := s.controller.states.Coherent s.holders

theorem mem_holders {h : AccountId × ℕ} :
    h ∈ s.holders ↔ (∃ th ∈ s.threads, th.holder = some h) ∨ h ∈ s.guards := by
  simp [holders]

theorem mem_holders_finish {h : AccountId × ℕ} (hh : h ∈ (s.finish th).holders) : h ∈ s.holders := by
  rw [mem_holders] at hh ⊢
  exact hh.imp_left fun ⟨x, hx, he⟩ => ⟨x, List.mem_of_mem_erase hx, he⟩

theorem mem_holders_moveOn {h : AccountId × ℕ} (hh : h ∈ (s.moveOn th next).holders) :
    next.holder = some h ∨ h ∈ s.holders := by
  rw [mem_holders] at hh
  rcases hh with ⟨x, hx, he⟩ | hg
  · rcases List.mem_cons.1 hx with rfl | hx
    · exact .inl he
    · exact .inr (mem_holders.2 (.inl ⟨x, List.mem_of_mem_erase hx, he⟩))
  · exact .inr (mem_holders.2 (.inr hg))

theorem mem_holders_of_mem {h : AccountId × ℕ} (hmem : th ∈ s.threads) (hh : th.holder = some h) :
    h ∈ s.holders := mem_holders.2 (.inl ⟨th, hmem, hh⟩)

theorem holder_start (a : AccountId) (state : ℕ) (call : AdmissionCall) :
    (AdmissionThread.start a state call).holder = some (a, state) := by
  cases call <;> rfl

theorem Held.finish (h : Held s) : Held (s.finish th) := h.mono fun _ => mem_holders_finish

/-- A thread that keeps its clone keeps the invariant. -/
theorem Held.moveOn (h : Held s) (hmem : th ∈ s.threads) (hnext : next.holder = th.holder) :
    Held (s.moveOn th next) := by
  refine h.mono fun x hx => ?_
  rcases mem_holders_moveOn hx with hn | hx
  · exact mem_holders_of_mem hmem (hnext ▸ hn)
  · exact hx

theorem Held.modifyState (h : Held s) (state : ℕ) (f : AccountAdmissionState → AccountAdmissionState) :
    Held (s.modifyState state f) := ArcCache.Coherent.modify h state f

theorem Held.checkLimiter (h : Held s) (a : AccountId) (limiter : ℕ) : Held (s.checkLimiter a limiter) := by
  unfold AdmissionSystem.checkLimiter
  split <;> exact h

theorem Held.threadStep (h : Held s) (hmem : th ∈ s.threads) (hs : ThreadStep s th s') : Held s' := by
  cases hs with
  | rate => exact h.moveOn hmem rfl
  | limited a p limiter => exact (h.checkLimiter a limiter).finish
  | load => exact h.moveOn hmem rfl
  | refuse => exact h.finish
  | below => exact h.moveOn hmem rfl
  | acquire a p current limit hcur =>
    refine ArcCache.Coherent.mono ((h.modifyState p _).clone (h.held _ (mem_holders_of_mem hmem rfl)))
      fun x hx => ?_
    rcases mem_holders.1 hx with ⟨y, hy, he⟩ | hg
    · exact List.mem_cons_of_mem _ (mem_holders.2 (.inl ⟨y, List.mem_of_mem_erase hy, he⟩))
    · rcases List.mem_cons.1 hg with rfl | hg
      · exact List.mem_cons_self ..
      · exact List.mem_cons_of_mem _ (mem_holders.2 (.inr hg))
  | retry => exact h.moveOn hmem rfl
  | count => exact h.finish

/-- The candidate for eviction is an entry that nobody holds. -/
theorem Held.remove (h : Held s) {victim : AccountId} (hc : s.isCandidate (some victim)) :
    (s.controller.states.remove victim).Coherent s.holders := by
  obtain ⟨ptr, hptr, ⟨-, hcount⟩, -⟩ := hc
  exact ArcCache.Coherent.remove h hptr (ArcCache.strongCount_eq_one.1 hcount)

theorem Held.lockSection (h : Held s) {call : AdmissionCall} {a : AccountId} {limits : AccountLimits}
    {sequence : ℕ} {candidate : Option AccountId} (hc : s.isCandidate candidate) :
    Held (s.lockSection call a limits sequence candidate) := by
  have hstart : ∀ (controller : AccountAdmissionController) (state : ℕ),
      controller.states.Coherent s.holders → controller.states.find a = some state →
      Held (({ s with controller } : AdmissionSystem).moveOn (.enter call a limits sequence)
        (.start a state call)) := by
    intro controller state hco hfind
    refine ArcCache.Coherent.mono (hco.clone hfind) fun x hx => ?_
    rcases mem_holders_moveOn hx with hn | hx
    · rw [holder_start, Option.some.injEq] at hn
      exact hn ▸ List.mem_cons_self ..
    · exact List.mem_cons_of_mem _ hx
  unfold AdmissionSystem.lockSection
  rcases s.controller.stateFor_cases a limits sequence candidate with
    ⟨state, hfind, heq⟩ | ⟨e, heq⟩ | ⟨hnone, states, hstates, heq⟩
  · rw [heq]
    refine hstart _ state ?_ ?_
    · dsimp only
      exact (AccountAdmissionController.coherent_updateLimits h _ _).modify _ _
    · rw [ArcCache.find_modify, AccountAdmissionController.find_updateLimits, hfind]
  · rw [heq]
    exact Held.finish h
  · rw [heq]
    have hco : states.Coherent s.holders := by
      rcases hstates with ⟨rfl, -⟩ | ⟨victim, rfl, rfl, -⟩
      · exact h
      · exact h.remove hc
    have hfree : states.find a = none ∧ states.next = s.controller.states.next := by
      rcases hstates with ⟨rfl, -⟩ | ⟨victim, rfl, rfl, -⟩
      · exact ⟨hnone, rfl⟩
      · exact ⟨by rw [ArcCache.find_remove, hnone, ite_self], rfl⟩
    refine hstart _ _ (hco.create hfree.1 _) ?_
    exact (ArcCache.find_create).trans ((if_pos rfl).trans (congrArg some hfree.2))

theorem Held.step (h : Held s) (hs : Step s act s') : Held s' := by
  cases hs with
  | wait => exact h
  | begin call a limits =>
    refine ArcCache.Coherent.mono h fun x hx => ?_
    rcases mem_holders.1 hx with ⟨y, hy, he⟩ | hg
    · rcases List.mem_cons.1 hy with rfl | hy
      · cases he
      · exact mem_holders_of_mem hy he
    · exact mem_holders.2 (.inr hg)
  | lock call a limits sequence candidate hmem hc => exact h.lockSection hc
  | thread hmem ht => exact h.threadStep hmem ht
  | drop a p hmem =>
    refine ArcCache.Coherent.mono (h.modifyState p _) fun x hx => ?_
    rcases mem_holders.1 hx with ⟨y, hy, he⟩ | hg
    · exact mem_holders.2 (.inl ⟨y, hy, he⟩)
    · exact mem_holders.2 (.inr (List.mem_of_mem_erase hg))

end AdmissionSystem

end Cobra
