import CobraProxy.Spec.Breaker
import CobraProxy.Spec.DataLimiter

/-! The copy of one direction of a tunnel. Each round says how its awaits end: with a result, or with the future dropped
there. When there are no more rounds, the reader is never ready again, and the future is dropped in the end. -/

namespace Cobra

open Text

/-- The kinds of `io::Error` that the copy tells apart. -/
inductive IoErrorKind
  | notConnected | connectionReset | other
  deriving DecidableEq

abbrev Awaited (α : Type) := Option (Except IoErrorKind α)

inductive CopyError
  | io (kind : IoErrorKind)
  | customerDataLimit
  | customerDataLimiterUnavailable
  deriving DecidableEq

inductive CopyExit
  | returned (result : Except CopyError ℕ)
  | dropped
  deriving DecidableEq

/-- `current` is what `allow` finds in the shared counter. What the copy does not get to is not looked at. -/
structure CopyRound where
  read : Awaited Bytes
  current : ℕ
  write : Awaited Unit
  flush : Awaited Unit
  shutdown : Awaited Unit

/-- What the copy was lent. -/
structure CopyCounters where
  byteCounter : Option UInt64
  secondaryByteCounter : Option UInt64
  dataSession : Option CustomerDataSession
  activity : UInt64

/-- What became of a chunk that was granted. -/
inductive ChunkFate
  | flushed | failed | dropped
  deriving DecidableEq

inductive CopyEvent
  | read (data : Bytes)
  | allow (result : Except CustomerDataAdmissionError CustomerDataAllowance)
  | send (allowance : CustomerDataAllowance) (data : Bytes) (fate : ChunkFate)
  deriving DecidableEq

def CustomerDataSession.allow (session : CustomerDataSession) (requested current : ℕ) :
    Except CustomerDataAdmissionError CustomerDataAllowance :=
  (CustomerPeriodUsage.project requested session.limit current).map Prod.snd

/-- An already closed stream or circuit is clean here. -/
def shutdownCopyWriter : Awaited Unit → Awaited Unit
  | some (.error .notConnected) => some (.ok ())
  | some (.error .connectionReset) => some (.ok ())
  | outcome => outcome

/-- `shutdown_copy_writer(..).await?; return Ok(bytes_copied)`. -/
def finishCopy (shutdown : Awaited Unit) (bytesCopied : ℕ) : CopyExit :=
  match shutdownCopyWriter shutdown with
  | none => .dropped
  | some (.error kind) => .returned (.error (.io kind))
  | some (.ok ()) => .returned (.ok bytesCopied)

/-- `let _ = shutdown_copy_writer(..).await; return Err(error)`. -/
def abandonCopy (shutdown : Awaited Unit) (error : CopyError) : CopyExit :=
  match shutdownCopyWriter shutdown with
  | none => .dropped
  | some _ => .returned (.error error)

/-- The allowance of a chunk, with the call that gave it. -/
def CopyCounters.allowance (counters : CopyCounters) (read current : ℕ) :
    Except CustomerDataAdmissionError CustomerDataAllowance × List CopyEvent :=
  match counters.dataSession with
  | some session => (session.allow read current, [.allow (session.allow read current)])
  | none => (.ok ⟨read, false⟩, [])

/-- What follows a flush up to the next await. -/
def CopyCounters.transfer (counters : CopyCounters) (direction : CustomerDataDirection) (transferred : ℕ) :
    CopyCounters where
  byteCounter := counters.byteCounter.map (· + UInt64.ofNat transferred)
  secondaryByteCounter := counters.secondaryByteCounter.map (· + UInt64.ofNat transferred)
  dataSession := counters.dataSession.map (·.recordTransferred direction transferred)
  activity := counters.activity + 1

/-- With what was copied before. The events of the copy are listed with its exit and the counters. -/
def copyOneDirectionWithCustomerData (direction : CustomerDataDirection) :
    List CopyRound → ℕ → CopyCounters → CopyExit × CopyCounters × List CopyEvent
  | [], _, counters => (.dropped, counters, [])
  | round :: rounds, bytesCopied, counters =>
    match round.read with
    | none => (.dropped, counters, [])
    | some (.error .notConnected) => (finishCopy round.shutdown bytesCopied, counters, [])
    | some (.error kind) => (.returned (.error (.io kind)), counters, [])
    | some (.ok data) =>
      if data.length = 0 then (finishCopy round.shutdown bytesCopied, counters, [])
      else
        let asked := counters.allowance data.length round.current
        match asked.1 with
        | .error (.limitReached _) =>
          (abandonCopy round.shutdown .customerDataLimit, counters, .read data :: asked.2)
        | .error _ =>
          (abandonCopy round.shutdown .customerDataLimiterUnavailable, counters, .read data :: asked.2)
        | .ok allowance =>
          let sent (fate : ChunkFate) : List CopyEvent :=
            .read data :: asked.2 ++ [.send allowance (data.take allowance.bytes) fate]
          match round.write with
          | none => (.dropped, counters, sent .dropped)
          | some (.error kind) => (.returned (.error (.io kind)), counters, sent .failed)
          | some (.ok ()) =>
            match round.flush with
            | none => (.dropped, counters, sent .dropped)
            | some (.error kind) => (.returned (.error (.io kind)), counters, sent .failed)
            | some (.ok ()) =>
              let counters := counters.transfer direction allowance.bytes
              if allowance.exhausted then
                (abandonCopy round.shutdown .customerDataLimit, counters, sent .flushed)
              else
                let rest := copyOneDirectionWithCustomerData direction rounds
                  (saturatingAdd bytesCopied allowance.bytes) counters
                (rest.1, rest.2.1, sent .flushed ++ rest.2.2)

/-- Without a session. -/
def copyOneDirection (rounds : List CopyRound) (byteCounter secondaryByteCounter : Option UInt64) (activity : UInt64) :
    CopyExit × CopyCounters × List CopyEvent :=
  copyOneDirectionWithCustomerData .toTor rounds 0 ⟨byteCounter, secondaryByteCounter, none, activity⟩

end Cobra
