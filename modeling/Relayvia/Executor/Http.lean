import Relayvia.Output.Text
import Relayvia.Worker.Process

/-!
# HTTP invocations

`invoke_http` and what the connectors make of its result.  The transport is a parameter: it says
which chunks of the body arrive and what ends them.
-/

namespace Relayvia

structure ExecutionError where
  code : String
  message : String
  retryable : Bool := false
  details : Dict := []

def ExecutionError.toDict (error : ExecutionError) : Dict :=
  [("code", .str error.code), ("message", .str error.message), ("retryable", .bool error.retryable),
    ("details", .obj error.details)]

/-- An ExecutionError, or any other exception with its text. -/
inductive ExecutorException where
  | executionError (error : ExecutionError)
  | other (text : String)

inductive CredentialType where
  | apiKey | bearerToken | basicAuth
  deriving DecidableEq

/-- A row of `credentials`, with what its payload decrypts to. -/
structure Credential where
  type : CredentialType
  payload : Except RelayviaError Dict

structure HTTPInvocationConfig where
  url : String
  method : String
  timeoutSeconds : ℤ
  headers : List (String × String) := []
  credential : Option Credential := none
  jsonBody : Json := .null
  query : Dict := []
  retryOnStatus : List ℤ := [408, 429, 500, 502, 503, 504]

/-- What the client sends. -/
structure HTTPRequest where
  method : String
  url : String
  timeoutSeconds : ℤ
  headers : List (String × String)
  auth : Option (String × String)
  params : Option Dict
  json : Json

/-- `httpx.TimeoutException`, another `httpx.RequestError`, or another exception. -/
inductive TransportFault where
  | timeout
  | requestError
  | other (text : String)

/-- The exchange breaks down before the status line, or a status arrives and then the chunks of
the body up to its end or a fault. -/
inductive Transport where
  | fault (fault : TransportFault)
  | response (status : ℕ) (chunks : List (List UInt8)) (fault : Option TransportFault)

/-- `json.loads`: a value, a ValueError, or another exception. -/
inductive JsonText where
  | value (json : Json)
  | malformed
  | raises (text : String)

/-- What the executor takes from outside the model besides `Env`. -/
structure ExecutorEnv extends Env where
  /-- the value without its last slashes, or the error, for a URL and its field -/
  validateHttpUrl : String → String → Except RelayviaError String
  normalizeActionPath : String → Except RelayviaError String
  /-- `urljoin(base, url)`, or the text of its ValueError -/
  urljoin : String → String → Except String String
  jsonLoads : String → JsonText
  /-- the text of the exception that `int(value)` raises -/
  intText : Json → String
  /-- `is`, for two operands of a Condition -/
  same : Json → Json → Bool
  /-- `db.get(Credential, id)` -/
  credential : String → Option Credential
  transport : HTTPRequest → Transport

structure HTTPInvocationResult where
  ok : Bool
  statusCode : Option ℕ := none
  output : Option Dict := none
  retryable : Bool := false
  errorCode : Option String := none
  message : Option String := none

/-- `dict[key] = value`. -/
def setHeader (key value : String) (headers : List (String × String)) : List (String × String) :=
  if headers.any (·.1 = key) then headers.map fun h ↦ if h.1 = key then (key, value) else h
  else headers ++ [(key, value)]

/-- `str(payload[key])`. -/
def payloadText (env : ExecutorEnv) (payload : Dict) (key : String) :
    Except ExecutorException String :=
  match Dict.get? payload key with
  | some value => .ok (env.str value)
  | none => .error (.other (Python.repr key))

/-- `_authentication`: the headers and the basic authentication. -/
def authentication (env : ExecutorEnv) (config : HTTPInvocationConfig) :
    Except ExecutorException (List (String × String) × Option (String × String)) :=
  match config.credential with
  | none => .ok (config.headers, none)
  | some credential =>
      match credential.payload with
      | .error error => .error (.other error.message)
      | .ok payload =>
          match credential.type with
          | .apiKey => do
              let value ← payloadText env payload "value"
              return (setHeader "X-API-Key" value config.headers, none)
          | .bearerToken => do
              let value ← payloadText env payload "value"
              return (setHeader "Authorization" ("Bearer " ++ value) config.headers, none)
          | .basicAuth => do
              let username ← payloadText env payload "username"
              let password ← payloadText env payload "password"
              return (config.headers, some (username, password))

def maxResponseBytes : ℕ := 1000000

def responseTooLarge (status : ℕ) : HTTPInvocationResult where
  ok := false
  statusCode := some status
  errorCode := some "RESPONSE_TOO_LARGE"
  message := some ("HTTP response exceeded " ++ toString maxResponseBytes ++ " bytes")

def faultResult : TransportFault → Except ExecutorException HTTPInvocationResult
  | .timeout =>
      .ok
        { ok := false, retryable := true, errorCode := some "HTTP_TIMEOUT"
          message := some "HTTP invocation timed out" }
  | .requestError =>
      .ok
        { ok := false, retryable := true, errorCode := some "HTTP_REQUEST_FAILED"
          message := some "Unable to reach the configured HTTP endpoint" }
  | .other text => .error (.other text)

/-- The result of a complete body. -/
def bodyResult (env : ExecutorEnv) (status : ℕ) (content : List UInt8) :
    Except ExecutorException HTTPInvocationResult :=
  let text := String.ofList (Python.decodeUtf8 content)
  let ok (output : Dict) : Except ExecutorException HTTPInvocationResult :=
    .ok { ok := true, statusCode := some status, output := some output }
  match env.jsonLoads text with
  | .value (.obj fields) => ok fields
  | .value payload => ok [("result", payload)]
  | .malformed => ok [("body", .str text)]
  | .raises text => .error (.other text)

/-- The loop over the chunks; `content` is what has arrived. -/
def readChunks (env : ExecutorEnv) (status : ℕ) (fault : Option TransportFault)
    (content : List UInt8) : List (List UInt8) → Except ExecutorException HTTPInvocationResult
  | [] =>
      match fault with
      | some fault => faultResult fault
      | none => bodyResult env status content
  | chunk :: chunks =>
      if maxResponseBytes < (content ++ chunk).length then .ok (responseTooLarge status)
      else readChunks env status fault (content ++ chunk) chunks

/-- What a response is turned into. -/
def responseResult (env : ExecutorEnv) (retryOnStatus : List ℤ) :
    Transport → Except ExecutorException HTTPInvocationResult
  | .fault fault => faultResult fault
  | .response status chunks fault =>
      if ¬(200 ≤ status ∧ status < 300) then
        .ok
          { ok := false
            statusCode := some status
            retryable := (status : ℤ) ∈ retryOnStatus
            errorCode := some ("HTTP_" ++ toString status)
            message := some ("HTTP endpoint returned status " ++ toString status) }
      else readChunks env status fault [] chunks

def invokeHttp (env : ExecutorEnv) (config : HTTPInvocationConfig) :
    Except ExecutorException HTTPInvocationResult :=
  match env.validateHttpUrl config.url "url" with
  | .error error =>
      .ok
        { ok := false, errorCode := some error.code
          message := some "Configured URL is blocked by the URL policy" }
  | .ok _ => do
      let (headers, auth) ← authentication env config
      responseResult env config.retryOnStatus (env.transport
        { method := config.method
          url := config.url
          timeoutSeconds := config.timeoutSeconds
          headers := headers
          auth := auth
          params := if config.query = [] then none else some config.query
          json := config.jsonBody })

/-! ## Chunks -/

variable {env : ExecutorEnv} {status : ℕ} {fault : Option TransportFault}

/-- The loop looks at the bytes only: the body is too large as a whole or it is read as a whole. -/
theorem readChunks_eq (content : List UInt8) (chunks : List (List UInt8))
    (hcontent : content.length ≤ maxResponseBytes) :
    readChunks env status fault content chunks =
      if maxResponseBytes < (content ++ chunks.flatten).length then .ok (responseTooLarge status)
      else match fault with
        | some fault => faultResult fault
        | none => bodyResult env status (content ++ chunks.flatten) := by
  induction chunks generalizing content with
  | nil =>
      rw [List.flatten_nil, List.append_nil, if_neg (Nat.not_lt.mpr hcontent)]
      rfl
  | cons chunk chunks ih =>
      rw [readChunks, List.flatten_cons, ← List.append_assoc]
      by_cases hlarge : maxResponseBytes < (content ++ chunk).length
      · have htotal : maxResponseBytes < (content ++ chunk ++ chunks.flatten).length := by
          rw [List.length_append]
          omega
        rw [if_pos hlarge, if_pos htotal]
      · rw [if_neg hlarge]
        exact ih (content ++ chunk) (Nat.not_lt.mp hlarge)

/-- Two transports deliver the same bytes and end alike. -/
inductive SameBytes : Transport → Transport → Prop
  | fault (fault : TransportFault) : SameBytes (.fault fault) (.fault fault)
  | response {status : ℕ} {chunks chunks' : List (List UInt8)} {fault : Option TransportFault}
      (h : chunks.flatten = chunks'.flatten) :
      SameBytes (.response status chunks fault) (.response status chunks' fault)

theorem responseResult_eq {retryOnStatus : List ℤ} {x y : Transport} (h : SameBytes x y) :
    responseResult env retryOnStatus x = responseResult env retryOnStatus y := by
  cases h with
  | fault => rfl
  | response h =>
      unfold responseResult
      dsimp only
      rw [readChunks_eq [] _ (Nat.zero_le _), readChunks_eq [] _ (Nat.zero_le _), h]

end Relayvia
