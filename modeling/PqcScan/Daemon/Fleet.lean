import PqcScan.Store.Ingest

/-!
# The collector's endpoints

Enrollment and ingest of `daemon/fleet.py`, and the administrator's commands.
The handlers are cut into the pieces between two transactions, so that the
sequential handlers here and the interleaved ones share every piece.  The hash
of tokens is a parameter, the rate limiter's answer, the minted token and the
readings of the clock are drawn from outside.
-/

namespace PqcScan
namespace Daemon

open Library Python PqcScan.Core Store Repo

/-- `MAX_ENROLL_BYTES`. -/
def maxEnrollBytes : Nat := 64 * 1024

/-- `INGEST_BURST`. -/
def ingestBurst : Nat := 10

/-- `_TERMINAL_STATUSES`. -/
def terminalStatuses : List String := ["done", "failed", "interrupted"]

/-- Settings of a running collector. -/
structure Settings where
  py : Runtime
  /-- `hash_token`. -/
  hashToken : String → String
  enrollToken : Option String
  keepScansPerHost : Nat

/-- What one request draws from outside: the readings of the clock, the token
`secrets` would mint, and the answer of the rate limiter. -/
structure Draws where
  now : Nat → DateTime
  sweepTime : DateTime
  token : String
  admitted : Bool

/-- A request body: the declared length, 0 when none is declared, and the
chunks that arrive. -/
structure Body where
  declared : Int
  chunks : List Bytes
  deriving DecidableEq

/-- An `HTTPException`. -/
structure Refusal where
  status : Nat
  detail : String
  deriving DecidableEq, Repr

/-- What a handler answers.  The answer to a raced ingest has no drift field;
`failed` is an exception the handler does not catch. -/
inductive Response
  | refused (refusal : Refusal)
  | enrolled (hostId : Nat) (agentToken : String)
  | ingested (scanId storedFindings storedViews : Nat) (duplicate : Bool)
      (drift : Option Nat)
  | revoked
  | unrevoked
  | failed
  deriving DecidableEq, Repr

/-! ## Reading a request -/

/-- The loop of `_read_capped` over the chunks. -/
def readChunks (cap : Nat) : Nat → List Bytes → Option Bytes
  | _, [] => some []
  | size, chunk :: rest =>
      let size := size + chunk.length
      if size > cap then none
      else (readChunks cap size rest).map (chunk ++ ·)

/-- `_read_capped`. -/
def readCapped (body : Body) (cap : Nat) : Except Refusal Bytes :=
  let tooLong : Refusal := ⟨413, s!"body over {cap} bytes"⟩
  if body.declared > cap then .error tooLong
  else
    match readChunks cap 0 body.chunks with
    | some data => .ok data
    | none => .error tooLong

/-- The token of an authorization header. -/
def bearerToken (authorization : String) : Option String :=
  let chars := authorization.toList
  if (chars.take 7).map Char.toLower = "bearer ".toList then
    some (String.ofList (strip (chars.drop 7)))
  else none

/-- `_agent_host`. -/
def agentHost (settings : Settings) (db : Database) (authorization : String) :
    Except Refusal Host :=
  match bearerToken authorization with
  | none => .error ⟨401, "agent token required"⟩
  | some token =>
      match getHostByTokenHash db (settings.hashToken token) with
      | none => .error ⟨401, "unknown or revoked agent token"⟩
      | some host =>
          if host.revoked then .error ⟨401, "unknown or revoked agent token"⟩
          else .ok host

/-! ## Enrollment -/

/-- `{str(k): str(v) for k, v in labels.items()}`. -/
def labelTexts (py : Runtime) (labels : JsonObject) : JsonObject :=
  labels.map fun entry => (entry.1, .str (entry.2.toStr py.toText))

/-- Labels that pass the check. -/
def checkedLabels (py : Runtime) (labels : JsonObject) :
    Except Refusal (Dict String String) :=
  match checkLabels (labelTexts py labels) with
  | .error error => .error ⟨400, error.message⟩
  | .ok () => .ok (labelStrings (labelTexts py labels))

/-- The labels an enrollment states. -/
def enrollLabels (py : Runtime) (host : JsonObject) :
    Except Refusal (Dict String String) :=
  match host.get? "labels" with
  | none => checkedLabels py []
  | some value =>
      if value.truthy then
        match value with
        | .object labels => checkedLabels py labels
        | _ => .error ⟨400, "host.labels must be an object"⟩
      else checkedLabels py []

/-- The identity an enrollment states for its host. -/
def enrollIdentity (py : Runtime) (host : JsonObject) :
    Except Refusal HostIdentity :=
  match host.get? "machine_id" with
  | none => .error ⟨400, "host.machine_id required"⟩
  | some machineId =>
      if machineId.truthy then do
        let labels ← enrollLabels py host
        .ok
          { machineId := machineId.toStr py.toText
            hostname := strOr py host "hostname" ""
            os := strOr py host "os" ""
            labels
            agentVersion := strOr py host "agent_version" "" }
      else .error ⟨400, "host.machine_id required"⟩

/-- `str(body.get("enroll_token") or "")`. -/
def presentedToken (py : Runtime) (body : JsonObject) : String :=
  match body.get? "enroll_token" with
  | some value => if value.truthy then value.toStr py.toText else ""
  | none => ""

/-- `enroll` up to the lookup of the host. -/
def readEnroll (settings : Settings) (body : Body) :
    Except Refusal HostIdentity :=
  let py := settings.py
  match settings.enrollToken with
  | none => disabled
  | some "" => disabled
  | some enrollToken => do
      let raw ← readCapped body maxEnrollBytes
      match py.jsonLoads raw with
      | .error _ => .error ⟨400, "body must be JSON"⟩
      | .ok (.object members) =>
          if presentedToken py members ≠ enrollToken then
            .error ⟨403, "bad enrollment token"⟩
          else
            match JsonObject.get? members "host" with
            | some (.object host) => enrollIdentity py host
            | _ => .error ⟨400, "host.machine_id required"⟩
      | .ok _ => .error ⟨400, "body must be a JSON object"⟩
where
  disabled : Except Refusal HostIdentity :=
    .error ⟨503, "enrollment disabled: daemon started without --enroll-token"⟩

/-- The lookup of the prior host row: a revoked host is refused. -/
def checkPrior (db : Database) (identity : HostIdentity) : Except Refusal Unit :=
  match getHostByMachineId db identity.machineId with
  | some prior =>
      if prior.revoked then
        .error
          ⟨403, s!"host is revoked; an operator must run `pqcscan agents unrevoke {prior.id}`"⟩
      else .ok ()
  | none => .ok ()

/-- Mint a token and store its hash. -/
def mintToken (settings : Settings) (draws : Draws) (db : Database)
    (identity : HostIdentity) : Database × Response :=
  match upsertHost (draws.now 0) db identity
      (some (settings.hashToken draws.token)) with
  | some (after, host) => (after, .enrolled host.id draws.token)
  | none => (db, .failed)

/-- `enroll`. -/
def enroll (settings : Settings) (draws : Draws) (db : Database) (body : Body) :
    Database × Response :=
  match readEnroll settings body with
  | .error refusal => (db, .refused refusal)
  | .ok identity =>
      match checkPrior db identity with
      | .error refusal => (db, .refused refusal)
      | .ok () => mintToken settings draws db identity

/-! ## Ingest -/

/-- `status in _TERMINAL_STATUSES`. -/
def isTerminal (status : Option Json) : Bool :=
  match status with
  | some (.str value) => terminalStatuses.contains value
  | _ => false

/-- `ingest` between the authentication and the store: rate limit, body, parse
and checks against the authenticated host. -/
def acceptBundle (settings : Settings) (draws : Draws) (host : Host)
    (body : Body) : Except Refusal ScanBundle :=
  if !draws.admitted then
    .error ⟨429, s!"ingest rate limit: {ingestBurst} bundles, then one per 60 s per host"⟩
  else do
    let data ← readCapped body maxGzipBytes
    match loadBundle settings.py data with
    | .error (.tooLarge message) => .error ⟨413, message⟩
    | .error (.invalid message) => .error ⟨400, message⟩
    | .ok bundle =>
        if bundle.host.machineId ≠ host.machineId then
          .error ⟨403, "bundle machine_id does not match the agent token"⟩
        else
          let status := bundle.scan.get? "status"
          if isTerminal status then .ok bundle
          else
            .error
              ⟨400, s!"scan status {(status.getD .null).repr settings.py.toText} " ++
                "is not terminal; expected one of ('done', 'failed', 'interrupted')"⟩

/-- The answer to content the store cannot coerce. -/
def invalidContent (error : PyError) : Response :=
  .refused ⟨400, s!"invalid bundle content: {error.message}"⟩

/-- The answer to a violated constraint: the loser of a race
is taken for a duplicate. -/
def recoverRace (db : Database) (bundle : ScanBundle) : Response :=
  match getScanIdByUuid db bundle.scanUuid with
  | none => .refused ⟨400, "bundle violates a store constraint"⟩
  | some existing => .ingested existing 0 0 true none

/-- The answer to a stored or repeated bundle. -/
def ingestAnswer (result : IngestResult) : Response :=
  .ingested result.scanId result.storedFindings result.storedViews
    result.duplicate (some result.drift)

/-- The retention after a stored bundle.  A failing prune
ends it and is only logged. -/
def trim (settings : Settings) (draws : Draws) (db : Database) (hostId : Nat) :
    Database :=
  match pruneHost db hostId settings.keepScansPerHost with
  | .error _ => db
  | .ok (after, _) => (deleteStaleRollups draws.sweepTime after).1

/-- An ingest request. -/
structure IngestRequest where
  authorization : String
  body : Body
  deriving DecidableEq

/-- `ingest`. -/
def ingest (settings : Settings) (draws : Draws) (db : Database)
    (request : IngestRequest) : Database × Response :=
  match agentHost settings db request.authorization with
  | .error refusal => (db, .refused refusal)
  | .ok host =>
      match acceptBundle settings draws host request.body with
      | .error refusal => (db, .refused refusal)
      | .ok bundle =>
          match ingestBundle settings.py draws.now db bundle host.id with
          | (after, .error (.python error)) => (after, invalidContent error)
          | (after, .error .integrity) => (after, recoverRace after bundle)
          | (after, .ok result) =>
              (if result.duplicate then after
                else trim settings draws after host.id,
                ingestAnswer result)

/-! ## All requests -/

/-- A request to the collector, or a command of its administrator. -/
inductive Request
  | enroll (body : Body)
  | ingest (request : IngestRequest)
  | revoke (hostId : Nat)
  | unrevoke (hostId : Nat)
  deriving DecidableEq

/-- `revoke`. -/
def revoke (db : Database) (hostId : Nat) : Database × Response :=
  match revokeHost db hostId with
  | (after, true) => (after, .revoked)
  | (after, false) => (after, .refused ⟨404, "host not found"⟩)

/-- `pqcscan agents unrevoke`. -/
def unrevoke (db : Database) (hostId : Nat) : Database × Response :=
  match unrevokeHost db hostId with
  | (after, true) => (after, .unrevoked)
  | (after, false) => (after, .refused ⟨404, "host not found"⟩)

/-- One request, handled without interruption. -/
def handle (settings : Settings) (draws : Draws) (db : Database) :
    Request → Database × Response
  | .enroll body => enroll settings draws db body
  | .ingest request => ingest settings draws db request
  | .revoke hostId => revoke db hostId
  | .unrevoke hostId => unrevoke db hostId

/-- A handled request with all it drew and its answer. -/
structure Exchange where
  request : Request
  draws : Draws
  response : Response

/-- The collector serves the exchange. -/
def Serves (settings : Settings) (before : Database) (exchange : Exchange)
    (after : Database) : Prop :=
  handle settings exchange.draws before exchange.request =
    (after, exchange.response)

/-- Serve a list of requests in turn. -/
def serveAll (settings : Settings) :
    Database → List (Request × Draws) → Database × List Exchange
  | db, [] => (db, [])
  | db, (request, draws) :: rest =>
      let (after, response) := handle settings draws db request
      let (finish, exchanges) := serveAll settings after rest
      (finish, ⟨request, draws, response⟩ :: exchanges)

/-! ## A collector for given documents -/

/-- SHA-256 of the tokens `t1` and `t2`; no other token is hashed. -/
def sampleHash : String → String
  | "t1" => "628b49d96dcde97a430dd4f597705899e09a968f793491e4b704cae33a40dc02"
  | "t2" => "c44474038d459e40e4714afefa7bf8dae9f9834b22f5e8ec1dd434ecb62b512e"
  | token => token

/-- A collector that reads the given documents and whose
enrollment token is `secret`. -/
def sampleSettings (documents : List Document) (keep : Nat) : Settings where
  py := Runtime.ofDocuments documents
  hashToken := sampleHash
  enrollToken := some "secret"
  keepScansPerHost := keep

/-- An admitted request that would mint the given token. -/
def sampleDraws (token : String) : Draws where
  now _ := 0
  sweepTime := 0
  token := token
  admitted := true

/-- An enrollment of a machine with the given labels. -/
def enrollDocument (machineId : String) (labels : JsonObject) : Document where
  value := .object
    [("enroll_token", .str "secret"),
      ("host", .object [("machine_id", .str machineId),
        ("labels", .object labels)])]
  crc := []

/-- A finished scan without findings. -/
def scanDocument (machineId uuid : String) (crc : Bytes) : Document where
  value := .object
    [("schema_version", .int 1), ("scan_uuid", .str uuid),
      ("host", .object [("machine_id", .str machineId)]),
      ("scan", .object [("status", .str "done")])]
  crc := crc

/-- The request that sends an enrollment in one chunk. -/
def enrollRequest (document : Document) : Request :=
  .enroll ⟨0, [document.raw]⟩

/-- The request that sends a bundle in one chunk. -/
def ingestRequest (token : String) (document : Document) : IngestRequest where
  authorization := "Bearer " ++ token
  body := ⟨0, [document.data]⟩

end Daemon
end PqcScan
