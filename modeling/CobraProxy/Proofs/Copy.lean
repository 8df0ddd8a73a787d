import CobraProxy.Spec.Copy

/-! The copy of one direction moves each chunk it was granted as a whole, and counts it once the writer has flushed it.
Every round either ends the copy or moves one chunk. -/

namespace Cobra

open Text

theorem CustomerPeriodUsage.allowance_of_project {requested limit current projected : ℕ}
    {allowance : CustomerDataAllowance} (h : project requested limit current = .ok (projected, allowance)) :
    allowance.bytes ≤ requested ∧ (allowance.exhausted = false → allowance.bytes = requested) := by
  unfold project checkedAdd at h
  split_ifs at h with hlimit
  dsimp only at h
  split at h
  · cases h
  · rename_i projected hadd
    split_ifs at hadd with hfits
    cases hadd
    cases h
    refine ⟨Nat.min_le_left _ _, fun hexhausted => ?_⟩
    have hne : current + min requested (limit - current) ≠ limit := by simpa using hexhausted
    change min requested (limit - current) = requested
    omega

theorem CustomerDataSession.allowance_of_allow {session : CustomerDataSession} {requested current : ℕ}
    {allowance : CustomerDataAllowance} (h : session.allow requested current = .ok allowance) :
    allowance.bytes ≤ requested ∧ (allowance.exhausted = false → allowance.bytes = requested) := by
  unfold CustomerDataSession.allow at h
  cases hproject : CustomerPeriodUsage.project requested session.limit current with
  | error e => rw [hproject] at h; cases h
  | ok granted =>
    rw [hproject] at h
    cases h
    exact CustomerPeriodUsage.allowance_of_project hproject

theorem saturatingAdd_assoc (a b c : ℕ) : saturatingAdd (saturatingAdd a b) c = saturatingAdd a (b + c) := by
  unfold saturatingAdd
  omega

/-! ### What the events say -/

namespace CopyEvent

def bytesRead : CopyEvent → Bytes
  | .read data => data
  | _ => []

/-- What was written as a whole and flushed. -/
def bytesFlushed : CopyEvent → Bytes
  | .send _ data .flushed => data
  | _ => []

/-- What `allow` reserved in the shared counter. -/
def reserved : CopyEvent → ℕ
  | .allow (.ok allowance) => allowance.bytes
  | _ => 0

/-- The events that make the copy report the customer's limit. -/
def limits : CopyEvent → Prop
  | .allow (.error (.limitReached _)) => True
  | .send allowance _ .flushed => allowance.exhausted = true
  | _ => False

end CopyEvent

def bytesRead (events : List CopyEvent) : Bytes := events.flatMap CopyEvent.bytesRead

def bytesFlushed (events : List CopyEvent) : Bytes := events.flatMap CopyEvent.bytesFlushed

def reservedBytes (events : List CopyEvent) : ℕ := (events.map CopyEvent.reserved).sum

/-- The granted chunk, as a list of events, with the call that granted it where there is a session. -/
def chunkEvents (session : Option CustomerDataSession) (data : Bytes) (allowance : CustomerDataAllowance)
    (fate : ChunkFate) : List CopyEvent :=
  match session with
  | some _ => [.read data, .allow (.ok allowance), .send allowance (data.take allowance.bytes) fate]
  | none => [.read data, .send allowance (data.take allowance.bytes) fate]

/-- What `allow` gave for a chunk at some value of the counter. Without a session everything is granted. -/
def ChunkGranted (session : Option CustomerDataSession) (data : Bytes) (allowance : CustomerDataAllowance) : Prop :=
  0 < data.length ∧
    match session with
    | some session => ∃ current, session.allow data.length current = .ok allowance
    | none => allowance = ⟨data.length, false⟩

def ChunkRefused (session : Option CustomerDataSession) (data : Bytes) (e : CustomerDataAdmissionError) : Prop :=
  0 < data.length ∧ ∃ current, ∃ session' ∈ session, session'.allow data.length current = .error e

theorem ChunkGranted.bytes {session : Option CustomerDataSession} {data : Bytes} {allowance : CustomerDataAllowance}
    (h : ChunkGranted session data allowance) :
    allowance.bytes ≤ data.length ∧ (allowance.exhausted = false → allowance.bytes = data.length) := by
  obtain ⟨-, h⟩ := h
  cases session with
  | some session => exact CustomerDataSession.allowance_of_allow h.choose_spec
  | none =>
    cases h
    exact ⟨le_rfl, fun _ => rfl⟩

/-- What a copy can come to: a round ends it, or moves one chunk and leaves it to the rest. -/
inductive Copied (direction : CustomerDataDirection) :
    ℕ → CopyCounters → CopyExit × CopyCounters × List CopyEvent → Prop
  /-- The reader has ended, has failed or is not waited for, and nothing was read. -/
  | ended {bytesCopied : ℕ} {counters : CopyCounters} {exit : CopyExit}
      (hexit : exit = .dropped ∨ exit = .returned (.ok bytesCopied) ∨ ∃ kind, exit = .returned (.error (.io kind))) :
      Copied direction bytesCopied counters (exit, counters, [])
  | refused {bytesCopied : ℕ} {counters : CopyCounters} {exit : CopyExit} {data : Bytes} {limit : ℕ}
      (hrefused : ChunkRefused counters.dataSession data (.limitReached limit))
      (hexit : exit = .dropped ∨ exit = .returned (.error .customerDataLimit)) :
      Copied direction bytesCopied counters (exit, counters, [.read data, .allow (.error (.limitReached limit))])
  | unavailable {bytesCopied : ℕ} {counters : CopyCounters} {exit : CopyExit} {data : Bytes}
      {e : CustomerDataAdmissionError} (hrefused : ChunkRefused counters.dataSession data e)
      (he : ∀ limit, e ≠ .limitReached limit)
      (hexit : exit = .dropped ∨ exit = .returned (.error .customerDataLimiterUnavailable)) :
      Copied direction bytesCopied counters (exit, counters, [.read data, .allow (.error e)])
  | unsent {bytesCopied : ℕ} {counters : CopyCounters} {exit : CopyExit} {data : Bytes}
      {allowance : CustomerDataAllowance} {fate : ChunkFate} (hgranted : ChunkGranted counters.dataSession data allowance)
      (hfate : fate ≠ .flushed)
      (hexit : fate = .dropped ∧ exit = .dropped ∨ fate = .failed ∧ ∃ kind, exit = .returned (.error (.io kind))) :
      Copied direction bytesCopied counters
        (exit, counters, chunkEvents counters.dataSession data allowance fate)
  | exhausted {bytesCopied : ℕ} {counters : CopyCounters} {exit : CopyExit} {data : Bytes}
      {allowance : CustomerDataAllowance} (hgranted : ChunkGranted counters.dataSession data allowance)
      (hexhausted : allowance.exhausted = true)
      (hexit : exit = .dropped ∨ exit = .returned (.error .customerDataLimit)) :
      Copied direction bytesCopied counters
        (exit, counters.transfer direction allowance.bytes, chunkEvents counters.dataSession data allowance .flushed)
  | moved {bytesCopied : ℕ} {counters left : CopyCounters} {exit : CopyExit} {data : Bytes}
      {allowance : CustomerDataAllowance} {events : List CopyEvent}
      (hgranted : ChunkGranted counters.dataSession data allowance) (hexhausted : allowance.exhausted = false)
      (hrest : Copied direction (saturatingAdd bytesCopied allowance.bytes)
        (counters.transfer direction allowance.bytes) (exit, left, events)) :
      Copied direction bytesCopied counters
        (exit, left, chunkEvents counters.dataSession data allowance .flushed ++ events)

theorem finishCopy_cases (shutdown : Awaited Unit) (bytesCopied : ℕ) :
    finishCopy shutdown bytesCopied = .dropped ∨ finishCopy shutdown bytesCopied = .returned (.ok bytesCopied) ∨
      ∃ kind, finishCopy shutdown bytesCopied = .returned (.error (.io kind)) := by
  unfold finishCopy
  rcases shutdownCopyWriter shutdown with _ | kind | _
  · exact Or.inl rfl
  · exact Or.inr (Or.inr ⟨kind, rfl⟩)
  · exact Or.inr (Or.inl rfl)

theorem abandonCopy_cases (shutdown : Awaited Unit) (error : CopyError) :
    abandonCopy shutdown error = .dropped ∨ abandonCopy shutdown error = .returned (.error error) := by
  unfold abandonCopy
  rcases shutdownCopyWriter shutdown with _ | _
  · exact Or.inl rfl
  · exact Or.inr rfl

theorem allowance_cases (counters : CopyCounters) {data : Bytes} (current : ℕ) (hdata : 0 < data.length) :
    (∃ allowance, (counters.allowance data.length current).1 = .ok allowance ∧
      ChunkGranted counters.dataSession data allowance ∧
      ∀ fate, .read data :: (counters.allowance data.length current).2 ++
        [.send allowance (data.take allowance.bytes) fate] = chunkEvents counters.dataSession data allowance fate) ∨
    ∃ e, (counters.allowance data.length current).1 = .error e ∧ ChunkRefused counters.dataSession data e ∧
      (counters.allowance data.length current).2 = [.allow (.error e)] := by
  unfold CopyCounters.allowance chunkEvents
  cases counters.dataSession with
  | none => exact Or.inl ⟨⟨data.length, false⟩, rfl, ⟨hdata, rfl⟩, fun _ => rfl⟩
  | some session =>
    dsimp only
    cases hallow : session.allow data.length current with
    | error e => exact Or.inr ⟨e, rfl, ⟨hdata, current, session, rfl, hallow⟩, rfl⟩
    | ok allowance => exact Or.inl ⟨allowance, rfl, ⟨hdata, current, hallow⟩, fun _ => rfl⟩

theorem copied (direction : CustomerDataDirection) (rounds : List CopyRound) (bytesCopied : ℕ)
    (counters : CopyCounters) :
    Copied direction bytesCopied counters (copyOneDirectionWithCustomerData direction rounds bytesCopied counters) := by
  induction rounds generalizing bytesCopied counters with
  | nil => exact .ended (Or.inl rfl)
  | cons round rounds ih =>
    unfold copyOneDirectionWithCustomerData
    rcases round.read with _ | kind | data
    · exact .ended (Or.inl rfl)
    · cases kind with
      | notConnected => exact .ended (finishCopy_cases _ _)
      | connectionReset => exact .ended (Or.inr (Or.inr ⟨_, rfl⟩))
      | other => exact .ended (Or.inr (Or.inr ⟨_, rfl⟩))
    · dsimp only
      by_cases hempty : data.length = 0
      · rw [if_pos hempty]
        exact .ended (finishCopy_cases _ _)
      · rw [if_neg hempty]
        rcases allowance_cases counters round.current (Nat.pos_of_ne_zero hempty) with
          ⟨allowance, hallow, hgranted, hevents⟩ | ⟨e, hallow, hrefused, hevents⟩
        · simp only [hallow, hevents]
          rcases round.write with _ | kind | _
          · exact .unsent hgranted (by decide) (Or.inl ⟨rfl, rfl⟩)
          · exact .unsent hgranted (by decide) (Or.inr ⟨rfl, _, rfl⟩)
          · rcases round.flush with _ | kind | _
            · exact .unsent hgranted (by decide) (Or.inl ⟨rfl, rfl⟩)
            · exact .unsent hgranted (by decide) (Or.inr ⟨rfl, _, rfl⟩)
            · dsimp only
              cases hexhausted : allowance.exhausted with
              | true =>
                rw [if_pos rfl]
                exact .exhausted hgranted hexhausted (abandonCopy_cases _ _)
              | false =>
                rw [if_neg Bool.false_ne_true]
                exact .moved hgranted hexhausted (ih _ _)
        · rw [hallow, hevents]
          cases e with
          | limitReached limit => exact .refused hrefused (abandonCopy_cases _ _)
          | tierConfigurationMismatch _ _ => exact .unavailable hrefused (by simp) (abandonCopy_cases _ _)
          | stateCapacityReached => exact .unavailable hrefused (by simp) (abandonCopy_cases _ _)
          | counterOverflow => exact .unavailable hrefused (by simp) (abandonCopy_cases _ _)
          | storage _ => exact .unavailable hrefused (by simp) (abandonCopy_cases _ _)

/-! ### What the rounds say -/

/-- The chunk that a round reads. -/
def CopyRound.chunk (round : CopyRound) : Option Bytes :=
  match round.read with
  | some (.ok data) => if data.length = 0 then none else some data
  | _ => none

/-- What the write and the flush of a round come to. -/
def CopyRound.fate (round : CopyRound) : ChunkFate :=
  match round.write with
  | none => .dropped
  | some (.error _) => .failed
  | some (.ok ()) =>
    match round.flush with
    | none => .dropped
    | some (.error _) => .failed
    | some (.ok ()) => .flushed

namespace CopyEvent

def chunk : CopyEvent → Option Bytes
  | .read data => some data
  | _ => none

def fate : CopyEvent → Option ChunkFate
  | .send _ _ fate => some fate
  | _ => none

end CopyEvent

/-- The chunks of the events are those of the first rounds, and each granted chunk has the fate of its round. All were
granted but for the last, where the events have a refusal. -/
def FollowsRounds (rounds : List CopyRound) (events : List CopyEvent) : Prop :=
  ∃ read granted, read ≤ rounds.length ∧
    (rounds.take read).map CopyRound.chunk = (events.filterMap CopyEvent.chunk).map some ∧
    (rounds.take granted).map CopyRound.fate = events.filterMap CopyEvent.fate ∧
    (read = granted ∨ read = granted + 1 ∧ ∃ e, CopyEvent.allow (.error e) ∈ events)

namespace FollowsRounds

variable {round : CopyRound} {rounds : List CopyRound} {events : List CopyEvent} {data : Bytes}

theorem nil : FollowsRounds rounds [] := ⟨0, 0, Nat.zero_le _, rfl, rfl, .inl rfl⟩

theorem refused (hchunk : round.chunk = some data) (e : CustomerDataAdmissionError) :
    FollowsRounds (round :: rounds) [.read data, .allow (.error e)] :=
  ⟨1, 0, by simp, by simp [hchunk, CopyEvent.chunk], by simp [CopyEvent.fate], .inr ⟨rfl, e, by simp⟩⟩

theorem granted (hchunk : round.chunk = some data) (session : Option CustomerDataSession)
    (allowance : CustomerDataAllowance) (h : FollowsRounds rounds events) :
    FollowsRounds (round :: rounds) (chunkEvents session data allowance round.fate ++ events) := by
  obtain ⟨read, granted, hread, hchunks, hfates, hrefused⟩ := h
  refine ⟨read + 1, granted + 1, by simpa using hread, ?_, ?_, ?_⟩
  · rw [List.take_succ_cons, List.map_cons, hchunk, hchunks, List.filterMap_append]
    cases session <;> rfl
  · rw [List.take_succ_cons, List.map_cons, hfates, List.filterMap_append]
    cases session <;> rfl
  · rcases hrefused with rfl | ⟨rfl, e, he⟩
    · exact .inl rfl
    · exact .inr ⟨rfl, e, List.mem_append_right _ he⟩

theorem last (hchunk : round.chunk = some data) (session : Option CustomerDataSession)
    (allowance : CustomerDataAllowance) :
    FollowsRounds (round :: rounds) (chunkEvents session data allowance round.fate) := by
  simpa using granted hchunk session allowance nil

end FollowsRounds

theorem copy_followsRounds (direction : CustomerDataDirection) (rounds : List CopyRound) (bytesCopied : ℕ)
    (counters : CopyCounters) :
    FollowsRounds rounds (copyOneDirectionWithCustomerData direction rounds bytesCopied counters).2.2 := by
  induction rounds generalizing bytesCopied counters with
  | nil => exact .nil
  | cons round rounds ih =>
    unfold copyOneDirectionWithCustomerData
    cases hread : round.read with
    | none => exact .nil
    | some outcome =>
      rcases outcome with kind | data
      · cases kind <;> exact .nil
      · dsimp only
        by_cases hempty : data.length = 0
        · rw [if_pos hempty]
          exact .nil
        · have hchunk : round.chunk = some data := by
            rw [CopyRound.chunk, hread]
            exact if_neg hempty
          rw [if_neg hempty]
          rcases allowance_cases counters round.current (Nat.pos_of_ne_zero hempty) with
            ⟨allowance, hallow, -, hevents⟩ | ⟨e, hallow, -, hevents⟩
          · have hlast : FollowsRounds (round :: rounds) (chunkEvents counters.dataSession data allowance round.fate) :=
              .last hchunk counters.dataSession allowance
            simp only [hallow, hevents]
            unfold CopyRound.fate at hlast
            rcases hwrite : round.write with _ | kind | _ <;> rw [hwrite] at hlast
            · exact hlast
            · exact hlast
            · rcases hflush : round.flush with _ | kind | _ <;> rw [hflush] at hlast
              · exact hlast
              · exact hlast
              · dsimp only
                cases hexhausted : allowance.exhausted with
                | true =>
                  rw [if_pos rfl]
                  exact hlast
                | false =>
                  have hfate : round.fate = .flushed := by rw [CopyRound.fate, hwrite, hflush]
                  rw [if_neg Bool.false_ne_true, ← hfate]
                  exact (ih _ _).granted hchunk counters.dataSession allowance
          · rw [hallow, hevents]
            cases e <;> exact .refused hchunk _

section Facts

variable {direction : CustomerDataDirection} {bytesCopied : ℕ} {counters : CopyCounters}
  {result : CopyExit × CopyCounters × List CopyEvent}

@[simp] theorem bytesRead_append (events events' : List CopyEvent) :
    bytesRead (events ++ events') = bytesRead events ++ bytesRead events' := List.flatMap_append

@[simp] theorem bytesFlushed_append (events events' : List CopyEvent) :
    bytesFlushed (events ++ events') = bytesFlushed events ++ bytesFlushed events' := List.flatMap_append

@[simp] theorem bytesRead_chunkEvents (session : Option CustomerDataSession) (data : Bytes)
    (allowance : CustomerDataAllowance) (fate : ChunkFate) :
    bytesRead (chunkEvents session data allowance fate) = data := by
  cases session <;> simp [chunkEvents, bytesRead, CopyEvent.bytesRead]

@[simp] theorem bytesFlushed_chunkEvents (session : Option CustomerDataSession) (data : Bytes)
    (allowance : CustomerDataAllowance) (fate : ChunkFate) :
    bytesFlushed (chunkEvents session data allowance fate) =
      if fate = .flushed then data.take allowance.bytes else [] := by
  cases session <;> cases fate <;> simp [chunkEvents, bytesFlushed, CopyEvent.bytesFlushed]

theorem Copied.isPrefix (h : Copied direction bytesCopied counters result) :
    bytesFlushed result.2.2 <+: bytesRead result.2.2 := by
  induction h with
  | ended _ => exact List.prefix_rfl
  | refused _ _ => exact List.nil_prefix
  | unavailable _ _ _ => exact List.nil_prefix
  | unsent _ hfate _ => simp [hfate]
  | exhausted _ _ _ => simpa using List.take_prefix _ _
  | moved hgranted hexhausted _ ih => simpa [hgranted.bytes.2 hexhausted] using ih

theorem Copied.all_of_ok (h : Copied direction bytesCopied counters result) (hcopied : bytesCopied < 2 ^ 64) {n : ℕ}
    (hok : result.1 = .returned (.ok n)) :
    bytesFlushed result.2.2 = bytesRead result.2.2 ∧
      n = saturatingAdd bytesCopied (bytesFlushed result.2.2).length := by
  induction h with
  | ended hexit =>
    rcases hexit with rfl | rfl | ⟨kind, rfl⟩
    · cases hok
    · cases hok
      refine ⟨rfl, ?_⟩
      simp only [bytesFlushed, List.flatMap_nil, List.length_nil, saturatingAdd]
      omega
    · cases hok
  | refused _ hexit => rcases hexit with rfl | rfl <;> cases hok
  | unavailable _ _ hexit => rcases hexit with rfl | rfl <;> cases hok
  | unsent _ _ hexit => rcases hexit with ⟨-, rfl⟩ | ⟨-, kind, rfl⟩ <;> cases hok
  | exhausted _ _ hexit => rcases hexit with rfl | rfl <;> cases hok
  | moved hgranted hexhausted _ ih =>
    have hbytes := hgranted.bytes.2 hexhausted
    obtain ⟨hall, hn⟩ := ih (by unfold saturatingAdd; omega) hok
    refine ⟨by simpa [hbytes] using hall, ?_⟩
    simp only [bytesFlushed_append, bytesFlushed_chunkEvents, if_true, hbytes, List.take_length, List.length_append]
    rw [hn, saturatingAdd_assoc, hbytes]

/-- The session of a copy in `direction`, with `bytes` recorded as transferred. -/
def CustomerDataSession.withTransferred (session : CustomerDataSession) (direction : CustomerDataDirection)
    (bytes : ℕ) : CustomerDataSession :=
  match direction with
  | .toTor => { session with bytesToTor := bytes }
  | .fromTor => { session with bytesFromTor := bytes }

def CustomerDataSession.transferred (session : CustomerDataSession) : CustomerDataDirection → ℕ
  | .toTor => session.bytesToTor
  | .fromTor => session.bytesFromTor

theorem CustomerDataSession.recordTransferred_eq (session : CustomerDataSession) (direction : CustomerDataDirection)
    (bytes : ℕ) : session.recordTransferred direction bytes =
      session.withTransferred direction ((session.transferred direction + bytes) % 2 ^ 64) := by
  cases direction <;> rfl

@[simp] theorem CustomerDataSession.withTransferred_withTransferred (session : CustomerDataSession)
    (direction : CustomerDataDirection) (bytes bytes' : ℕ) :
    (session.withTransferred direction bytes).withTransferred direction bytes' =
      session.withTransferred direction bytes' := by
  cases direction <;> rfl

@[simp] theorem CustomerDataSession.transferred_withTransferred (session : CustomerDataSession)
    (direction : CustomerDataDirection) (bytes : ℕ) :
    (session.withTransferred direction bytes).transferred direction = bytes := by
  cases direction <;> rfl

/-- The counters after `bytes` more bytes of `direction`. A session's counter is one of 64 bits. -/
structure Counted (direction : CustomerDataDirection) (bytes : ℕ) (counters left : CopyCounters) : Prop where
  byteCounter : left.byteCounter = counters.byteCounter.map (· + UInt64.ofNat bytes)
  secondaryByteCounter : left.secondaryByteCounter = counters.secondaryByteCounter.map (· + UInt64.ofNat bytes)
  noSession : counters.dataSession = none → left.dataSession = none
  session : ∀ session, counters.dataSession = some session → ∃ transferred,
    left.dataSession = some (session.withTransferred direction transferred) ∧
      transferred ≡ session.transferred direction + bytes [MOD 2 ^ 64]

theorem counted_zero (direction : CustomerDataDirection) (counters : CopyCounters) :
    Counted direction 0 counters counters where
  byteCounter := by simp
  secondaryByteCounter := by simp
  noSession := id
  session := fun session h => ⟨session.transferred direction, by cases direction <;> exact h, rfl⟩

theorem counted_transfer (direction : CustomerDataDirection) (bytes : ℕ) (counters : CopyCounters) :
    Counted direction bytes counters (counters.transfer direction bytes) where
  byteCounter := rfl
  secondaryByteCounter := rfl
  noSession := fun h => by simp [CopyCounters.transfer, h]
  session := fun session h => ⟨(session.transferred direction + bytes) % 2 ^ 64,
    by simp [CopyCounters.transfer, h, CustomerDataSession.recordTransferred_eq], Nat.mod_modEq _ _⟩

theorem Counted.trans {bytes bytes' : ℕ} {between left : CopyCounters} (h : Counted direction bytes counters between)
    (h' : Counted direction bytes' between left) : Counted direction (bytes + bytes') counters left where
  byteCounter := by
    rw [h'.byteCounter, h.byteCounter, Option.map_map]
    congr 1
    funext counter
    simp [UInt64.add_assoc]
  secondaryByteCounter := by
    rw [h'.secondaryByteCounter, h.secondaryByteCounter, Option.map_map]
    congr 1
    funext counter
    simp [UInt64.add_assoc]
  noSession := fun hnone => h'.noSession (h.noSession hnone)
  session := fun session hsession => by
    obtain ⟨transferred, hbetween, hmod⟩ := h.session session hsession
    obtain ⟨transferred', hleft, hmod'⟩ := h'.session _ hbetween
    rw [CustomerDataSession.withTransferred_withTransferred] at hleft
    rw [CustomerDataSession.transferred_withTransferred] at hmod'
    exact ⟨transferred', hleft, by rw [← add_assoc]; exact hmod'.trans (hmod.add_right bytes')⟩

theorem Copied.counted (h : Copied direction bytesCopied counters result) :
    Counted direction (bytesFlushed result.2.2).length counters result.2.1 := by
  induction h with
  | ended _ => exact counted_zero _ _
  | refused _ _ => exact counted_zero _ _
  | unavailable _ _ _ => exact counted_zero _ _
  | unsent _ hfate _ => simpa [hfate] using counted_zero _ _
  | exhausted hgranted _ _ => simpa [hgranted.bytes.1] using counted_transfer _ _ _
  | moved hgranted hexhausted _ ih =>
    have hbytes := hgranted.bytes.2 hexhausted
    rw [bytesFlushed_append, bytesFlushed_chunkEvents, if_pos rfl, List.length_append, List.length_take,
      Nat.min_eq_left hbytes.le]
    exact (counted_transfer _ _ _).trans ih

theorem reservedBytes_append (events events' : List CopyEvent) :
    reservedBytes (events ++ events') = reservedBytes events + reservedBytes events' := by
  simp [reservedBytes]

theorem reservedBytes_chunkEvents (session : CustomerDataSession) (data : Bytes) (allowance : CustomerDataAllowance)
    (fate : ChunkFate) : reservedBytes (chunkEvents (some session) data allowance fate) = allowance.bytes := by
  simp [chunkEvents, reservedBytes, CopyEvent.reserved]

/-- A chunk is in flight at the end: it was reserved, and its write or flush failed or was not waited for. -/
def InFlight (exit : CopyExit) (events : List CopyEvent) (chunk : Bytes) (allowance : CustomerDataAllowance) : Prop :=
  allowance.bytes ≤ chunk.length ∧ ∃ before fate, events = before ++
    [.read chunk, .allow (.ok allowance), .send allowance (chunk.take allowance.bytes) fate] ∧
    (fate = .dropped ∧ exit = .dropped ∨ fate = .failed ∧ ∃ kind, exit = .returned (.error (.io kind)))

theorem Copied.reserved_of_session (h : Copied direction bytesCopied counters result)
    (hsession : counters.dataSession.isSome = true) :
    reservedBytes result.2.2 = (bytesFlushed result.2.2).length ∨
      ∃ chunk allowance, InFlight result.1 result.2.2 chunk allowance ∧
        reservedBytes result.2.2 = (bytesFlushed result.2.2).length + allowance.bytes := by
  induction h with
  | ended _ => exact Or.inl rfl
  | refused _ _ => exact Or.inl rfl
  | unavailable _ _ _ => exact Or.inl rfl
  | unsent hgranted hfate hexit =>
    have hbytes := hgranted.bytes.1
    obtain ⟨session, hsession⟩ := Option.isSome_iff_exists.1 hsession
    refine Or.inr ⟨_, _, ⟨hbytes, [], _, ?_, hexit⟩, ?_⟩
    · rw [hsession]
      rfl
    · rw [hsession, reservedBytes_chunkEvents, bytesFlushed_chunkEvents, if_neg hfate]
      simp
  | exhausted hgranted _ _ =>
    have hbytes := hgranted.bytes.1
    obtain ⟨session, hsession⟩ := Option.isSome_iff_exists.1 hsession
    rw [hsession, reservedBytes_chunkEvents, bytesFlushed_chunkEvents, if_pos rfl, List.length_take,
      Nat.min_eq_left hbytes]
    exact Or.inl rfl
  | @moved bytesCopied counters left exit data allowance events hgranted hexhausted hrest ih =>
    have hbytes := hgranted.bytes.2 hexhausted
    have hsome : (counters.transfer direction allowance.bytes).dataSession.isSome = true := by
      simpa [CopyCounters.transfer] using hsession
    obtain ⟨session, hsession⟩ := Option.isSome_iff_exists.1 hsession
    rw [hsession, reservedBytes_append, bytesFlushed_append, reservedBytes_chunkEvents, bytesFlushed_chunkEvents,
      if_pos rfl, List.length_append, List.length_take, Nat.min_eq_left hbytes.le]
    rcases ih hsome with ih | ⟨chunk, allowance', ⟨hle, before, fate, hevents, hexit⟩, ih⟩
    · exact Or.inl (by rw [ih])
    · have hevents : events = _ := hevents
      refine Or.inr ⟨chunk, allowance', ⟨hle, chunkEvents (some session) data allowance .flushed ++ before, fate, ?_,
        hexit⟩, ?_⟩
      · rw [hevents, List.append_assoc]
      · rw [ih, add_assoc]

theorem Copied.reserved_of_no_session (h : Copied direction bytesCopied counters result)
    (hsession : counters.dataSession = none) : reservedBytes result.2.2 = 0 := by
  induction h with
  | ended _ => rfl
  | refused _ _ => rfl
  | unavailable _ _ _ => rfl
  | unsent _ _ _ => rw [hsession]; rfl
  | exhausted _ _ _ => rw [hsession]; rfl
  | moved _ _ _ ih =>
    rw [hsession, reservedBytes_append, ih (by simp [CopyCounters.transfer, hsession])]
    rfl

theorem limits_chunkEvents (session : Option CustomerDataSession) (data : Bytes) (allowance : CustomerDataAllowance)
    (fate : ChunkFate) : (∃ event ∈ chunkEvents session data allowance fate, event.limits) ↔
      fate = .flushed ∧ allowance.exhausted = true := by
  cases session <;> cases fate <;> simp [chunkEvents, CopyEvent.limits]

/-- Unless it is dropped, the copy reports the limit exactly when something in it says so. -/
theorem Copied.limit_iff (h : Copied direction bytesCopied counters result) (hreturned : result.1 ≠ .dropped) :
    result.1 = .returned (.error .customerDataLimit) ↔ ∃ event ∈ result.2.2, event.limits := by
  induction h with
  | ended hexit => rcases hexit with rfl | rfl | ⟨kind, rfl⟩ <;> simp
  | refused _ hexit =>
    rcases hexit with rfl | rfl
    · exact absurd rfl hreturned
    · simp [CopyEvent.limits]
  | @unavailable _ _ _ data e _ he hexit =>
    rcases hexit with rfl | rfl
    · exact absurd rfl hreturned
    · have hread : ¬ CopyEvent.limits (.read data) := id
      have hallow : ¬ CopyEvent.limits (.allow (.error e)) := by
        cases e with
        | limitReached limit => exact absurd rfl (he limit)
        | _ => exact id
      simp [hread, hallow]
  | unsent _ hfate hexit =>
    rw [limits_chunkEvents]
    rcases hexit with ⟨-, rfl⟩ | ⟨-, kind, rfl⟩
    · exact absurd rfl hreturned
    · simp [hfate]
  | exhausted _ hexhausted hexit =>
    rw [limits_chunkEvents]
    rcases hexit with rfl | rfl
    · exact absurd rfl hreturned
    · simp [hexhausted]
  | @moved _ counters _ _ data allowance _ _ hexhausted _ ih =>
    have hnone := (limits_chunkEvents counters.dataSession data allowance .flushed).not
    rw [hexhausted] at hnone
    rw [ih hreturned]
    constructor
    · rintro ⟨event, hevent, hlimits⟩
      exact ⟨event, List.mem_append_right _ hevent, hlimits⟩
    · rintro ⟨event, hevent, hlimits⟩
      rcases List.mem_append.1 hevent with hevent | hevent
      · exact absurd ⟨event, hevent, hlimits⟩ (hnone.2 (by simp))
      · exact ⟨event, hevent, hlimits⟩

end Facts

/-- The copy from the start: what it reads, writes and counts is what its rounds bring. The `n` it returns is counted up
to the largest `u64`; a session's counter and the two others go round there. -/
theorem copy_one_direction_is_faithful (direction : CustomerDataDirection) (rounds : List CopyRound)
    (counters : CopyCounters) :
    let (exit, left, events) := copyOneDirectionWithCustomerData direction rounds 0 counters
    bytesFlushed events <+: bytesRead events ∧
      (∀ n, exit = .returned (.ok n) →
        bytesFlushed events = bytesRead events ∧ n = min (bytesFlushed events).length (2 ^ 64 - 1)) ∧
      Counted direction (bytesFlushed events).length counters left ∧
      (counters.dataSession.isSome = true → reservedBytes events = (bytesFlushed events).length ∨
        ∃ chunk allowance, InFlight exit events chunk allowance ∧
          reservedBytes events = (bytesFlushed events).length + allowance.bytes) ∧
      (counters.dataSession = none → reservedBytes events = 0) ∧
      (exit ≠ .dropped → (exit = .returned (.error .customerDataLimit) ↔ ∃ event ∈ events, event.limits)) ∧
      FollowsRounds rounds events := by
  have h := copied direction rounds 0 counters
  refine ⟨h.isPrefix, fun n hn => ?_, h.counted, h.reserved_of_session, h.reserved_of_no_session, h.limit_iff,
    copy_followsRounds direction rounds 0 counters⟩
  obtain ⟨hall, hlen⟩ := h.all_of_ok (by decide) hn
  exact ⟨hall, by rw [hlen, saturatingAdd, Nat.zero_add]⟩

/-! ### A copy dropped after its last byte, and one longer than `u64` -/

def limitedSession : CustomerDataSession :=
  ⟨⟨.ofNat 1, .ofNat 1, .ofNat 1, .ofNat 1, ⟨.ofNat 1, .ofNat 1, .ofNat 1, none, none⟩⟩, .epoch, 5, 0, 0, 0, 0, 0⟩

/-- The limit is reached and the future is dropped while the writer shuts down. -/
def limitRound : CopyRound := ⟨some (.ok (List.replicate 8 97)), 0, some (.ok ()), some (.ok ()), none⟩

/-- Reads all of the buffer. -/
def fullRound : CopyRound := ⟨some (.ok (List.replicate 16384 0)), 0, some (.ok ()), some (.ok ()), none⟩

def endRound : CopyRound := ⟨some (.ok []), 0, none, none, some (.ok ())⟩

theorem copy_fullRound (rounds : List CopyRound) (bytesCopied : ℕ) {counters : CopyCounters}
    (hsession : counters.dataSession = none) :
    copyOneDirectionWithCustomerData .toTor (fullRound :: rounds) bytesCopied counters =
      let rest := copyOneDirectionWithCustomerData .toTor rounds (saturatingAdd bytesCopied 16384)
        (counters.transfer .toTor 16384)
      (rest.1, rest.2.1, .read (List.replicate 16384 0) ::
        .send ⟨16384, false⟩ ((List.replicate 16384 0).take 16384) .flushed :: rest.2.2) := by
  have hallow : counters.allowance 16384 0 = (.ok ⟨16384, false⟩, []) := by
    unfold CopyCounters.allowance
    rw [hsession]
  rw [copyOneDirectionWithCustomerData]
  dsimp only [fullRound]
  rw [List.length_replicate, if_neg (by decide), hallow]
  rfl

theorem copy_fullRounds (k bytesCopied : ℕ) {counters : CopyCounters} (hsession : counters.dataSession = none) :
    ∃ n, (copyOneDirectionWithCustomerData .toTor (List.replicate k fullRound ++ [endRound]) bytesCopied counters).1 =
        .returned (.ok n) ∧
      (bytesRead (copyOneDirectionWithCustomerData .toTor (List.replicate k fullRound ++ [endRound]) bytesCopied
        counters).2.2).length = k * 16384 := by
  induction k generalizing bytesCopied counters with
  | zero => exact ⟨bytesCopied, rfl, rfl⟩
  | succ k ih =>
    have hnone : (counters.transfer .toTor 16384).dataSession = none := by simp [CopyCounters.transfer, hsession]
    obtain ⟨n, hn, hlen⟩ := ih (saturatingAdd bytesCopied 16384) hnone
    rw [List.replicate_succ, List.cons_append, copy_fullRound _ _ hsession]
    refine ⟨n, hn, ?_⟩
    simp only [bytesRead, List.flatMap_cons, CopyEvent.bytesRead, List.length_append, List.length_replicate] at hlen ⊢
    simp only [List.length_nil, Nat.zero_add, hlen]
    ring

/-- The copy of a session with five bytes left. -/
def limitCopy : CopyExit × CopyCounters × List CopyEvent :=
  copyOneDirectionWithCustomerData .toTor [limitRound] 0 ⟨none, none, some limitedSession, 0⟩

/-- The copy of `chunks` full chunks, without a session. -/
def longCopy (chunks : ℕ) : CopyExit × CopyCounters × List CopyEvent :=
  copyOneDirectionWithCustomerData .toTor (List.replicate chunks fullRound ++ [endRound]) 0 ⟨none, none, none, 0⟩

theorem longCopy_exact (chunks : ℕ) :
    (longCopy chunks).1 = .returned (.ok (min (chunks * 16384) (2 ^ 64 - 1))) ∧
      (bytesFlushed (longCopy chunks).2.2).length = chunks * 16384 := by
  obtain ⟨n, hn, hlen⟩ := copy_fullRounds chunks 0 (rfl : (⟨none, none, none, 0⟩ : CopyCounters).dataSession = none)
  obtain ⟨hall, hcopied⟩ := (copied _ _ _ _).all_of_ok (by decide) hn
  have hflushed := congrArg List.length hall
  rw [hlen] at hflushed
  rw [hflushed, saturatingAdd, Nat.zero_add] at hcopied
  exact ⟨hcopied ▸ hn, hflushed⟩

/-- A copy that is dropped after an exhausted grant was flushed reports nothing; and the `n` of one that moves `2 ^ 64`
bytes is one too small. -/
theorem copy_is_not_always_exact :
    ¬ (limitCopy.1 = .returned (.error .customerDataLimit) ↔ ∃ event ∈ limitCopy.2.2, event.limits) ∧
      (longCopy (2 ^ 50)).1 = .returned (.ok (2 ^ 64 - 1)) ∧ (bytesFlushed (longCopy (2 ^ 50)).2.2).length = 2 ^ 64 := by
  constructor
  · intro h
    have hexit : limitCopy.1 = .returned (.error .customerDataLimit) :=
      h.2 ⟨.send ⟨5, true⟩ (List.replicate 5 97) .flushed, by decide +kernel, rfl⟩
    have hdropped : limitCopy.1 = .dropped := by rfl
    rw [hdropped] at hexit
    cases hexit
  · have hbytes : 2 ^ 50 * 16384 = 2 ^ 64 := by norm_num
    obtain ⟨hexit, hlen⟩ := longCopy_exact (2 ^ 50)
    rw [hbytes] at hlen hexit
    exact ⟨hexit, hlen⟩

end Cobra
