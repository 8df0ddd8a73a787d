import CobraProxy.Lib.Program
import CobraProxy.Spec.Hop

/-! `connect_with_retry`: one attempt with half of the time there is, and one more with the rest of it, on a rotated
token. Instants and durations are nanoseconds. -/

namespace Cobra

open Program Prog Text

/-- The kinds of Arti errors that are told apart. -/
inductive ArtiErrorKind
  | remoteNetworkTimeout | exitTimeout | remoteConnectionRefused | remoteHostNotFound | exitPolicyRejected
  | torAccessFailed | bootstrapRequired | directoryExpired | remoteStreamError | remoteStreamReset
  | remoteNetworkFailed | other
  deriving DecidableEq

def artiErrorClass : ArtiErrorKind → String
  | .remoteNetworkTimeout | .exitTimeout => "timeout"
  | .remoteConnectionRefused => "connection_refused"
  | .remoteHostNotFound => "dns"
  | .exitPolicyRejected => "exit_policy"
  | .torAccessFailed | .bootstrapRequired | .directoryExpired => "tor_health"
  | .remoteStreamError | .remoteStreamReset | .remoteNetworkFailed => "stream"
  | .other => "other"

inductive RetryFailure
  | timeout
  | tor (kind : ArtiErrorKind)
  deriving DecidableEq

def RetryFailure.retryable : RetryFailure → Bool
  | .timeout => true
  | .tor kind =>
    [.remoteNetworkTimeout, .exitTimeout, .remoteStreamError, .remoteStreamReset, .remoteNetworkFailed].contains kind

def TOR_CONNECT_TIMEOUT : ℕ := 45 * 10 ^ 9

def RETRY_BACKOFF_MIN_MS : ℕ := 50

def RETRY_BACKOFF_JITTER_MS : ℕ := 100

inductive RetryCall
  | now
  | materialFor (identity : Str)
  | connectWithPrefs (target : TorAddr) (isolation : StreamIsolation) (timeout : ℕ)
  | recordBuildLatency
  | connectTimeouts
  | recordArtiFailure (failure : String)
  | retries
  | rotate (identity : Str)
  | sleep (backoff : ℕ)

/-- `tokio::time::timeout` elapses, or Arti answers. -/
abbrev RetryCall.Result : RetryCall → Type
  | .now | .retries => ℕ
  | .materialFor _ => IsolationMaterial
  | .connectWithPrefs .. => Option (Except ArtiErrorKind Unit)
  | .recordBuildLatency | .connectTimeouts | .recordArtiFailure _ | .rotate _ | .sleep _ => Unit

/-- The end of the loop is marked as unreachable. -/
inductive RetryError
  | failed (failure : RetryFailure)
  | unreachable
  deriving DecidableEq

abbrev Retry := Prog RetryCall.Result RetryError

abbrev RetryEvent := Event RetryCall.Result

/-- The isolation of an attempt. -/
def attemptIsolation (isolation : ResolvedIsolation) : Retry StreamIsolation :=
  if isolation.strict then pure .everyStream
  else do pure (.token (← perform (RetryCall.materialFor isolation.identity)).token)

/-- What a connection that was tried comes to, with what is counted for it. -/
def connectFailure : Option (Except ArtiErrorKind Unit) → Retry (Option RetryFailure)
  | some (.ok ()) => pure none
  | some (.error kind) => do
    perform (RetryCall.recordArtiFailure (artiErrorClass kind))
    pure (some (.tor kind))
  | none => do
    perform RetryCall.connectTimeouts
    perform (RetryCall.recordArtiFailure "timeout")
    pure (some .timeout)

/-- What comes between a failure that may pass and the next attempt. -/
def prepareRetry (isolation : ResolvedIsolation) (deadline : ℕ) (failure : RetryFailure) : Retry Unit := do
  let retryNumber ← perform RetryCall.retries
  if isolation.strict then pure () else perform (RetryCall.rotate isolation.identity)
  let backoff := (RETRY_BACKOFF_MIN_MS + retryNumber % RETRY_BACKOFF_JITTER_MS) * 10 ^ 6
  if deadline - (← perform RetryCall.now) ≤ backoff then Prog.fail (.failed failure)
  else perform (RetryCall.sleep backoff)

/-- The loop over the attempts that are left. -/
def connectAttempts (target : TorAddr) (isolation : ResolvedIsolation) (deadline : ℕ) : List ℕ → Retry Unit
  | [] => Prog.fail .unreachable
  | attempt :: attempts => do
    let prefs ← attemptIsolation isolation
    let remaining := deadline - (← perform RetryCall.now)
    if remaining = 0 then do
      perform RetryCall.connectTimeouts
      perform (RetryCall.recordArtiFailure "timeout")
      Prog.fail (.failed .timeout)
    else do
      let attemptTimeout := if attempt = 0 then remaining / 2 else remaining
      let connectResult ← perform (RetryCall.connectWithPrefs target prefs attemptTimeout)
      perform RetryCall.recordBuildLatency
      match ← connectFailure connectResult with
      | none => pure ()
      | some failure =>
        if attempt = 1 || !failure.retryable then Prog.fail (.failed failure)
        else do
          prepareRetry isolation deadline failure
          connectAttempts target isolation deadline attempts

def connectWithRetry (target : TorAddr) (isolation : ResolvedIsolation) : Retry Unit := do
  let deadline := (← perform RetryCall.now) + TOR_CONNECT_TIMEOUT
  connectAttempts target isolation deadline [0, 1]

end Cobra
