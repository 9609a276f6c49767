import Relayvia.Library.Merge
import Relayvia.Models

/-!
# The Runner row

Registration, heartbeat and the administration of one Runner, each as a function of the
row that it has loaded.
-/

namespace Relayvia

/-- What the Runner service takes from outside the model besides `Env`. -/
structure RunnerEnv extends Env where
  /-- `hashlib.sha256(token.encode("utf-8")).hexdigest()` -/
  tokenHash : String → String
  /-- `==` of two numbers of which one is a float -/
  floatEqual : Json → Json → Bool

inductive RunnerStatus where
  | online | offline | disabled
  deriving DecidableEq

structure RunnerRow where
  id : String
  name : String
  hostname : String
  platform : Option String
  status : RunnerStatus := .offline
  authTokenHash : Option String
  capabilities : List String
  lastSeenAt : Option Time := none
  metadata : Dict
  deriving DecidableEq

def runnerAuthFailed : RelayviaError where
  code := "RUNNER_AUTH_FAILED"
  message := "Runner authentication failed"
  statusCode := 401

def runnerDisabled : RelayviaError where
  code := "RUNNER_DISABLED"
  message := "Runner is disabled"
  statusCode := 409

/-- `authenticate_runner` on the row of the Runner. -/
def authenticateRunner (env : RunnerEnv) (runnerToken : Option String) (runner : RunnerRow) :
    Except RelayviaError Unit :=
  match runnerToken.filter (· ≠ ""), runner.authTokenHash.filter (· ≠ "") with
  | some token, some expected =>
      if env.tokenHash token = expected then return () else throw runnerAuthFailed
  | _, _ => throw runnerAuthFailed

/-- What a machine says about itself. -/
structure RunnerReport where
  hostname : String
  platform : Option String := none
  capabilities : List String := []
  metadata : Dict := []

/-- `register_runner` without a `runner_id`: a new row. -/
def enrollRunner (env : RunnerEnv) (now : Time) (id name enrollmentToken : String)
    (report : RunnerReport) : RunnerRow where
  id := id
  name := name
  hostname := report.hostname
  platform := report.platform
  status := .online
  authTokenHash := some (env.tokenHash enrollmentToken)
  capabilities := report.capabilities
  lastSeenAt := some now
  metadata := report.metadata

/-- The columns that a registration and a heartbeat overwrite. -/
def RunnerRow.report (now : Time) (report : RunnerReport) (runner : RunnerRow) : RunnerRow :=
  { runner with
    hostname := report.hostname
    platform := report.platform
    capabilities := report.capabilities
    metadata := report.metadata
    status := .online
    lastSeenAt := some now }

/-- `register_runner` with a `runner_id`. -/
def registerRunner (env : RunnerEnv) (now : Time) (name : String) (report : RunnerReport)
    (runnerToken : Option String) (runner : RunnerRow) : Except RelayviaError RunnerRow := do
  authenticateRunner env runnerToken runner
  if runner.status = .disabled then throw runnerDisabled
  return { runner.report now report with name := name }

/-- The heartbeat route: `authenticate_runner`, then `heartbeat_runner` on the same row. -/
def heartbeatRunner (env : RunnerEnv) (now : Time) (report : RunnerReport)
    (runnerToken : Option String) (runner : RunnerRow) : Except RelayviaError RunnerRow := do
  authenticateRunner env runnerToken runner
  if runner.status = .disabled then throw runnerDisabled
  return runner.report now report

def setRunnerEnabled (env : RunnerEnv) (now : Time) (enabled : Bool) (runner : RunnerRow) :
    RunnerRow :=
  { runner with
    status := if enabled then .offline else .disabled
    metadata := Dict.merge runner.metadata [("enabled_changed_at", .str (env.isoformat now))] }

def rotateRunnerToken (env : RunnerEnv) (now : Time) (token : String) (runner : RunnerRow) :
    RunnerRow :=
  { runner with
    authTokenHash := some (env.tokenHash token)
    metadata := Dict.merge runner.metadata [("token_rotated_at", .str (env.isoformat now))] }

def revokeRunner (env : RunnerEnv) (now : Time) (token : String) (runner : RunnerRow) :
    RunnerRow :=
  { runner with
    authTokenHash := some (env.tokenHash token)
    status := .disabled
    metadata := Dict.merge runner.metadata [("revoked_at", .str (env.isoformat now))] }

/-- Write back the changed columns of a row that was loaded as `base`.  A JSON column is
unchanged when the values are equal. -/
def RunnerRow.merge (env : RunnerEnv) (base new current : RunnerRow) : RunnerRow where
  id := current.id
  name := Merge.column base.name new.name current.name
  hostname := Merge.column base.hostname new.hostname current.hostname
  platform := Merge.column base.platform new.platform current.platform
  status := Merge.column base.status new.status current.status
  authTokenHash := Merge.column base.authTokenHash new.authTokenHash current.authTokenHash
  capabilities := Merge.column base.capabilities new.capabilities current.capabilities
  lastSeenAt := Merge.column base.lastSeenAt new.lastSeenAt current.lastSeenAt
  metadata :=
    if Python.equal env.floatEqual (.obj new.metadata) (.obj base.metadata) then current.metadata
    else new.metadata

end Relayvia
