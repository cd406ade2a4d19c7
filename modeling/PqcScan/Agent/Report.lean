import PqcScan.Daemon.Fleet
import PqcScan.Library.Outbox
import PqcScan.Library.Program
import Mathlib.Data.List.Sort

/-!
# The agent's reports

`cli/_report.py`: enroll once, flush the spool, post the bundle, spool it on
failure.  A bundle is a value of any type, the network and the file system are
an environment of any type, and every answer and every failure is drawn from
it.  The directory `spool/` is the queue of an outbox and `spool/rejected/` its
dead entries.
-/

namespace PqcScan
namespace Agent

open Library Python Store

/-! ## Errors -/

/-- `ReportError`, its subclass `PermanentRejectError`, an `OSError`, and any
other exception. -/
inductive AgentError
  | report (status : Nat) (detail : String)
  | permanentReject (status : Nat) (detail : String)
  | os (message : String)
  | other (message : String)
  deriving DecidableEq, Repr

namespace AgentError

/-- `str(error)`. -/
def message : AgentError → String
  | .report status detail => s!"{status}: {detail}"
  | .permanentReject status detail => s!"{status}: {detail}"
  | .os message => message
  | .other message => message

/-- The status of a `ReportError`. -/
def status? : AgentError → Option Nat
  | .report status _ => some status
  | .permanentReject status _ => some status
  | _ => none

end AgentError

/-- `PERMANENT_REJECTS`. -/
def permanentRejects : List Nat := [400, 403, 413]

/-! ## The environment -/

/-- A request to the collector. -/
inductive Request (δ : Type)
  | enroll (server enrollToken : String) (identity : HostIdentity)
  | ingest (server token : String) (data : δ)

/-- An HTTP response: its status, its text, and its body as JSON or
the error of parsing it. -/
structure HttpResponse where
  status : Nat
  text : String
  json : Except String Json

/-- What `client.post` gives: a response, an `httpx.HTTPError` or
`httpx.InvalidURL`, or another exception. -/
inductive Reply
  | response (response : HttpResponse)
  | failed (message : String)
  | raised (error : AgentError)

/-- The name of a spooled file: twenty digits of nanoseconds and a random
hexadecimal number.  Names sort by their time first. -/
structure SpoolName where
  timeNs : Nat
  hex : String
  deriving DecidableEq, Repr

/-- `sorted` on names. -/
def SpoolName.le (left right : SpoolName) : Bool :=
  left.timeNs < right.timeNs ||
    left.timeNs == right.timeNs && decide (left.hex ≤ right.hex)

/-- What the agent asks of its own machine. -/
inductive LocalOp
  | readToken
  | writeToken
  | unlinkToken
  | onReenroll
  | readSpool (name : SpoolName)
  | writeSpool (name : SpoolName)
  | unlinkSpool (name : SpoolName)
  | quarantine (name : SpoolName)

/-- The collector, the network between, and the agent's machine. -/
structure Environment (δ ε : Type) where
  transmit : ε → Request δ → ε × Reply
  /-- The exception of a failed operation. -/
  perform : ε → LocalOp → ε × Option AgentError
  drawName : ε → ε × SpoolName
  /-- What a failed write leaves in the token file. -/
  tornToken : ε → Option String
  /-- What a failed write leaves in the spool. -/
  tornBundle : ε → Option δ

/-! ## The state -/

/-- `flush_spool` counts what it sent, kept and moved to `rejected/`. -/
structure Tally where
  sent : Nat
  kept : Nat
  rejected : Nat
  deriving DecidableEq, Repr

/-- What the agent did. -/
inductive Action (δ : Type)
  | dumped (data : δ)
  | posted (request : Request δ) (reply : Reply)
  | spooled (name : SpoolName)
  | unlinked (name : SpoolName)
  | quarantined (name : SpoolName)
  | flushed (tally : Tally)
  /-- `PermanentRejectError` reaches the caller. -/
  | refused (data : δ)

/-- A file of the spool. -/
abbrev SpoolFile (δ : Type) := Entry SpoolName δ

/-- The spool, what was put aside, and what was acknowledged and refused. -/
abbrev Spool (δ : Type) := Outbox SpoolName δ

/-- A point of a run: what was done last and what is there now. -/
structure Point (δ ε : Type) where
  action : Action δ
  box : Spool δ
  env : ε

/-- The state directory, the environment, and all points so far. -/
structure World (δ ε : Type) where
  env : ε
  token : Option String
  box : Spool δ
  trace : List (Point δ ε)

/-- An agent that has done nothing. -/
def World.initial (env : ε) : World δ ε := ⟨env, none, Outbox.empty, []⟩

/-- Record what was done. -/
def World.record (world : World δ ε) (action : Action δ) (box : Spool δ) :
    World δ ε :=
  { world with box, trace := world.trace ++ [⟨action, box, world.env⟩] }

/-- A program of the agent: it changes the world and may raise. -/
abbrev Program (δ ε : Type) := Library.Program (World δ ε) AgentError

section Programs

variable {δ ε : Type} (site : Environment δ ε)

/-! ## What the agent asks of its environment -/

/-- An operation on the agent's machine. -/
def perform (op : LocalOp) : Program δ ε Unit := do
  let failure ← Program.update fun world =>
    let (env, failure) := site.perform world.env op
    (failure, { world with env })
  match failure with
  | none => pure ()
  | some error => throw error

/-- `httpx.Response.is_success`. -/
def Reply.isSuccess : Reply → Bool
  | .response answer => answer.status / 100 == 2
  | _ => false

/-- A bundle is acknowledged by a 2xx response. -/
def acknowledge (request : Request δ) (reply : Reply) (box : Spool δ) : Spool δ :=
  match request with
  | .enroll _ _ _ => box
  | .ingest _ _ data => if reply.isSuccess then box.confirm data else box

/-- `client.post`. -/
def transmit (request : Request δ) : Program δ ε Reply :=
  Program.update fun world =>
    let (env, reply) := site.transmit world.env request
    (reply, { world with env }.record (.posted request reply)
      (acknowledge request reply world.box))

/-- Do something to the spool. -/
def recordBox (action : Action δ) (change : Spool δ → Spool δ) : Program δ ε Unit :=
  Program.update fun world => ((), world.record action (change world.box))

/-! ## Configuration -/

/-- The arguments of a report. -/
structure AgentConfig where
  text : Text
  server : String
  enrollToken : Option String
  agentToken : Option String
  identity : HostIdentity
  stateDir : String

/-- A missing or empty string counts as absent. -/
def given : Option String → Option String
  | some "" => none
  | value => value

/-- The path of the token file. -/
def AgentConfig.tokenPath (config : AgentConfig) : String :=
  config.stateDir ++ "/agent.token"

/-! ## Tokens -/

/-- `_raise_for`. -/
def raiseFor (config : AgentConfig) (response : HttpResponse) : Program δ ε Unit :=
  if response.status / 100 ≠ 2 then
    let detail :=
      match response.json with
      | .ok (.object members) =>
          match JsonObject.get? members "detail" with
          | some detail => detail.toStr config.text
          | none => response.text
      | _ => response.text
    throw (.report response.status detail)
  else pure ()

/-- The token in the token file. -/
def storedToken : Program δ ε (Option String) := do
  let content ← Program.update fun world => (world.token, world)
  match content with
  | none => pure none
  | some content =>
      perform site .readToken
      pure (given (some (String.ofList (strip content.toList))))

/-- `_write_private` of the token file. -/
def writeToken (token : String) : Program δ ε Unit := do
  match ← Program.attempt (perform site .writeToken) with
  | .ok () => Program.update fun world => ((), { world with token := some token })
  | .error error =>
      Program.update fun world =>
        ((), { world with token := site.tornToken world.env })
      throw error

/-- `token_path.unlink(missing_ok=True)`. -/
def unlinkToken : Program δ ε Unit := do
  perform site .unlinkToken
  Program.update fun world => ((), { world with token := none })

/-- `type(error).__name__` and `str(error)`. -/
def describe : PyError → String
  | .valueError message => "ValueError: " ++ message
  | .keyError key => "KeyError: '" ++ key ++ "'"
  | .typeError message => "TypeError: " ++ message

/-- `str(r.json()["agent_token"])`. -/
def mintedToken (config : AgentConfig) (response : HttpResponse) :
    Except String String :=
  match response.json with
  | .error cause => .error cause
  | .ok body =>
      match body.subscript "agent_token" with
      | .error error => .error (describe error)
      | .ok token => .ok (token.toStr config.text)

/-- `ensure_agent_token`. -/
def ensureAgentToken (config : AgentConfig) : Program δ ε String := do
  match ← storedToken site with
  | some token => pure token
  | none =>
      match given config.enrollToken with
      | none =>
          throw (.report 0
            s!"no agent token at {config.tokenPath} and no --enroll-token given")
      | some enrollToken =>
          match ← transmit site (.enroll config.server enrollToken config.identity) with
          | .failed message => throw (.report 0 s!"enroll failed: {message}")
          | .raised error => throw error
          | .response response =>
              raiseFor config response
              match mintedToken config response with
              | .error cause =>
                  throw (.report 0 s!"enroll: malformed response ({cause})")
              | .ok "" => throw (.report 0 "enroll: empty agent token in response")
              | .ok token =>
                  match ← Program.attempt (writeToken site token) with
                  | .ok () => pure token
                  | .error (.os message) =>
                      throw (.report 0
                        s!"cannot write token file {config.tokenPath}: {message}")
                  | .error error => throw error

/-! ## Posting and spooling -/

/-- `post_bundle`. -/
def postBundle (config : AgentConfig) (token : String) (data : δ) :
    Program δ ε Json := do
  match ← transmit site (.ingest config.server token data) with
  | .failed message => throw (.report 0 s!"ingest failed: {message}")
  | .raised error => throw error
  | .response response =>
      raiseFor config response
      match response.json with
      | .ok (.object members) => pure (.object members)
      | .ok other =>
          throw (.report 0
            ("ingest: malformed response (TypeError: expected a JSON object, " ++
              s!"got {other.typeName})"))
      | .error cause => throw (.report 0 s!"ingest: malformed response ({cause})")

/-- `spool_bundle`. -/
def spoolBundle (data : δ) : Program δ ε Unit := do
  let name ← Program.update fun world =>
    let (env, name) := site.drawName world.env
    (name, { world with env })
  match ← Program.attempt (perform site (.writeSpool name)) with
  | .ok () => recordBox (.spooled name) fun box => box.enqueue ⟨name, data⟩
  | .error error =>
      Program.update fun world =>
        match site.tornBundle world.env with
        | none => ((), world)
        | some left =>
            ((), world.record (.spooled name) (world.box.enqueue ⟨name, left⟩))
      throw error

/-- `_quarantine`. -/
def quarantine (name : SpoolName) : Program δ ε Unit := do
  perform site (.quarantine name)
  recordBox (.quarantined name) fun box => box.bury name

/-- `p.unlink(missing_ok=True)`. -/
def unlinkSpool (name : SpoolName) : Program δ ε Unit := do
  perform site (.unlinkSpool name)
  recordBox (.unlinked name) fun box => box.remove name

/-! ## Flushing -/

/-- A status at which `flush_spool` stops its pass. -/
def stopsPass (status : Nat) : Bool :=
  [0, 401, 429].contains status || decide (500 ≤ status)

/-- The body of the loop of `flush_spool`: the new counts, and
whether the loop goes on. -/
def flushFile (config : AgentConfig) (token : String) (file : SpoolFile δ)
    (tally : Tally) : Program δ ε (Tally × Bool) := do
  let posted ← Program.attempt do
    perform site (.readSpool file.name)
    let _ ← postBundle site config token file.data
  match posted with
  | .ok () =>
      match ← Program.attempt (unlinkSpool site file.name) with
      | .ok () => pure ({ tally with sent := tally.sent + 1 }, true)
      | .error (.os _) => pure ({ tally with sent := tally.sent + 1 }, true)
      | .error error => throw error
  | .error (.os _) => pure ({ tally with kept := tally.kept + 1 }, true)
  | .error error =>
      match error.status? with
      | none => throw error
      | some status =>
          if permanentRejects.contains status then
            match ← Program.attempt (quarantine site file.name) with
            | .ok () => pure ({ tally with rejected := tally.rejected + 1 }, true)
            | .error (.os _) => pure ({ tally with kept := tally.kept + 1 }, true)
            | .error error => throw error
          else pure ({ tally with kept := tally.kept + 1 }, !stopsPass status)

/-- The loop of `flush_spool`. -/
def flushFiles (config : AgentConfig) (token : String) :
    List (SpoolFile δ) → Tally → Program δ ε Tally
  | [], tally => pure tally
  | file :: rest, tally => do
      let (tally, goesOn) ← flushFile site config token file tally
      if goesOn then flushFiles config token rest tally else pure tally

/-- `sorted(spool.glob("*.bundle.gz"))`. -/
def sortedFiles (box : Spool δ) : List (SpoolFile δ) :=
  box.queue.insertionSort fun left right => left.name.le right.name = true

/-- `flush_spool`. -/
def flushSpool (config : AgentConfig) (token : String) : Program δ ε Tally := do
  let files ← Program.update fun world => (sortedFiles world.box, world)
  let tally ← flushFiles site config token files ⟨0, 0, 0⟩
  recordBox (.flushed tally) id
  pure tally

/-! ## Reporting -/

/-- `send` of `report_scan`. -/
def send (config : AgentConfig) (data : δ) : Program δ ε Json := do
  let token ←
    match given config.agentToken with
    | some token => pure token
    | none => ensureAgentToken site config
  let _ ← flushSpool site config token
  match ← Program.attempt (postBundle site config token data) with
  | .ok body => pure body
  | .error (.report status detail) =>
      if permanentRejects.contains status then
        throw (.permanentReject status s!"{detail} (permanent rejection)")
      else throw (.report status detail)
  | .error error => throw error

/-- Send, and once more under a fresh token when a stored one is rejected. -/
def sendOrReenroll (config : AgentConfig) (data : δ) : Program δ ε Json := do
  match ← Program.attempt (send site config data) with
  | .ok body => pure body
  | .error error =>
      if error.status? = some 401 ∧ given config.agentToken = none then
        match given config.enrollToken with
        | none =>
            throw (.report 401
              s!"agent token rejected; re-run with --enroll-token or delete {config.tokenPath}")
        | some _ =>
            unlinkToken site
            perform site .onReenroll
            send site config data
      else throw error

/-- `report_scan`.  `prepared` is what the check of the server's scheme, the
host identity and `dump_bundle` give. -/
def reportScan (config : AgentConfig) (prepared : Except AgentError δ) :
    Program δ ε (Option Json) := do
  match prepared with
  | .error error => throw error
  | .ok data =>
      recordBox (.dumped data) id
      match ← Program.attempt (sendOrReenroll site config data) with
      | .ok body => pure (some body)
      | .error (.permanentReject status detail) =>
          recordBox (.refused data) fun box => box.refuse data
          throw (.permanentReject status detail)
      | .error error =>
          match ← Program.attempt (spoolBundle site data) with
          | .ok () => pure none
          | .error spoolError =>
              throw (.report 0
                s!"{error.message}; cannot spool to {config.stateDir}: {spoolError.message}")

/-- What a flush tick reports. -/
structure FlushResult where
  reported : Bool
  spooled : Bool
  sent : Nat
  deriving DecidableEq, Repr

/-- `flush_only`.  `prepared` is what the check of the server's scheme and the
host identity give. -/
def flushOnly (config : AgentConfig) (prepared : Except AgentError Unit) :
    Program δ ε FlushResult := do
  let flushed ← Program.attempt do
    match prepared with
    | .error error => throw error
    | .ok () =>
        let token ← ensureAgentToken site config
        flushSpool site config token
  match flushed with
  | .ok tally => pure ⟨tally.kept == 0, decide (0 < tally.kept), tally.sent⟩
  | .error error =>
      match error.status? with
      | some _ => pure ⟨false, true, 0⟩
      | none => throw error

/-! ## Sequences of calls -/

/-- A call of the agent. -/
inductive Call (δ : Type)
  | report (config : AgentConfig) (prepared : Except AgentError δ)
  | flush (config : AgentConfig) (token : String)
  | tick (config : AgentConfig) (prepared : Except AgentError Unit)

/-- The bundle a call dumps. -/
def Call.dumps : Call δ → Option δ
  | .report _ (.ok data) => some data
  | _ => none

/-- Make a call and drop its result. -/
def Call.program : Call δ → Program δ ε Unit
  | .report config prepared => do let _ ← reportScan site config prepared
  | .flush config token => do let _ ← flushSpool site config token
  | .tick config prepared => do let _ ← flushOnly site config prepared

/-- The world after a sequence of calls; an exception ends only its call. -/
def runCalls (world : World δ ε) (calls : List (Call δ)) : World δ ε :=
  calls.foldl (fun world call => ((call.program site).execute world).2) world

end Programs

end Agent
end PqcScan
