import PqcScan.Agent.Conservation
import Mathlib.Algebra.Order.Field.Rat
import Mathlib.Tactic.Positivity
import Mathlib.Tactic.NormNum

/-!
# The loop of the agent

`pqcscan agent` scans on a schedule and, between two scans, retries the spool on
a back-off.  A pass of the loop is a scan cycle or a flush tick, by the clock;
after it the loop sleeps until the next scan or, while the retry counter is not
zero, at most for the back-off.
-/

namespace PqcScan
namespace Agent

open Library Python Program

/-! ## One cycle -/

/-- What a cycle reports. -/
structure CycleResult where
  reported : Bool
  spooled : Bool
  deriving DecidableEq, Repr

section Loop

variable {δ ε : Type} (site : Environment δ ε)

/-- `agent_cycle`.  `prepared` is what the scan, the check of the server's scheme,
the host identity and `dump_bundle` give, `trimmed` what trimming the local
database gives. -/
def agentCycle (config : AgentConfig) (prepared : Except AgentError δ)
    (trimmed : Except AgentError Unit) : Program δ ε CycleResult := do
  match ← Program.attempt (reportScan site config prepared) with
  | .ok report =>
      let _ ← (match trimmed with
        | .ok () => pure ()
        | .error error => throw error : Program δ ε Unit)
      pure ⟨report.isSome, report.isNone⟩
  | .error (.permanentReject _ _) =>
      let _ ← (match trimmed with
        | .ok () => pure ()
        | .error error => throw error : Program δ ε Unit)
      pure ⟨false, false⟩
  | .error error => throw error

/-! ## The schedule -/

/-- `next_delay`, with the number `random.uniform` draws. -/
def nextDelay (base drawn : ℚ) (failures : Nat) : ℚ :=
  if 0 < failures then min (60 * 2 ^ min (failures - 1) 16) 3600 else base + drawn

/-- The state of the loop. -/
structure LoopState (δ ε : Type) where
  world : World δ ε
  failures : Nat
  retries : Nat
  rejected : Bool
  nextScan : ℚ
  /-- What the loop waits after its last pass. -/
  wait : ℚ

/-- What a pass draws from its surroundings: three readings of the clock, the
jitter, and what the parts give that do not touch the spool. -/
structure Pass (δ : Type) where
  started : ℚ
  ended : ℚ
  slept : ℚ
  drawn : ℚ
  scanned : Except AgentError δ
  trimmed : Except AgentError Unit
  identified : Except AgentError Unit
  /-- Only `report_scan` itself raises a `PermanentRejectError`. -/
  plain : ∀ status detail, scanned ≠ .error (.permanentReject status detail)

/-- The scan branch of a pass. -/
def scanPass (config : AgentConfig) (base : ℚ) (pass : Pass δ) (state : LoopState δ ε) :
    LoopState δ ε :=
  let (outcome, world) :=
    (agentCycle site config pass.scanned pass.trimmed).execute state.world
  let state := match outcome with
    | .ok result =>
        { state with
          world
          failures := 0
          retries := if result.spooled then 1 else 0
          rejected := !(result.reported || result.spooled) }
    | .error _ =>
        { state with
          world
          failures := state.failures + 1
          retries := 0
          rejected := false }
  { state with nextScan := pass.ended + nextDelay base pass.drawn state.failures }

/-- The flush branch of a pass. -/
def flushPass (config : AgentConfig) (pass : Pass δ) (state : LoopState δ ε) :
    LoopState δ ε :=
  let (outcome, world) := (flushOnly site config pass.identified).execute state.world
  let tick := match outcome with
    | .ok tick => tick
    | .error _ => ⟨false, true, 0⟩
  { state with
    world
    retries := if tick.reported then 0 else if tick.sent ≠ 0 then 1
      else state.retries + 1 }

/-- The loop scans when the clock has reached the next scan. -/
def scans (pass : Pass δ) (state : LoopState δ ε) : Bool :=
  decide (state.nextScan ≤ pass.started)

/-- One pass of the loop, up to the sleep. -/
def loopPass (config : AgentConfig) (base : ℚ) (pass : Pass δ) (state : LoopState δ ε) :
    LoopState δ ε :=
  let state :=
    if scans pass state then scanPass site config base pass state
    else flushPass site config pass state
  let wait := state.nextScan - pass.slept
  let wait := if state.retries ≠ 0 then min wait (nextDelay base pass.drawn state.retries)
    else wait
  { state with wait := max wait 0 }

/-- The states in which the loop sleeps. -/
def sleeps (config : AgentConfig) (base : ℚ) :
    LoopState δ ε → List (Pass δ) → List (LoopState δ ε)
  | _, [] => []
  | state, pass :: rest =>
      let state := loopPass site config base pass state
      state :: sleeps config base state rest

/-- A loop that has just started, whatever an earlier one left in the spool. -/
def LoopState.initial (world : World δ ε) : LoopState δ ε :=
  ⟨world, 0, 0, false, 0, 0⟩

end Loop

/-! ## The environment -/

variable {δ ε : Type}

/-- The exceptions of the machine and of the HTTP client are no `ReportError`, and a
file that was sent can be removed. -/
structure Ordinary (site : Environment δ ε) : Prop where
  performs : ∀ env op error, (site.perform env op).2 = some error → error.status? = none
  transmits : ∀ env request error,
    (site.transmit env request).2 = .raised error → error.status? = none
  removes : ∀ env name, (site.perform env (.unlinkSpool name)).2 = none

/-- The collector takes the bundle for good, or refuses it for good. -/
def Reply.settles : Reply → Bool
  | .response answer =>
      (answer.status / 100 == 2 && match answer.json with
        | .ok (.object _) => true
        | _ => false) || permanentRejects.contains answer.status
  | _ => false

/-- Whenever the collector settled the bundle that a cycle posted after a flush, the
flush had kept no file. -/
def PostedAfterDrain (before after : List (Point δ ε)) : Prop :=
  ∀ front tally box env posted back server token data reply,
    after = before ++ front ++ ⟨.flushed tally, box, env⟩ :: posted :: back →
      posted.action = .posted (.ingest server token data) reply →
        reply.settles = true → tally.kept = 0

/-! ## Programs that do not raise a permanent rejection -/

section Plain

variable {site : Environment δ ε} {allowed invariant : World δ ε → Prop}

/-- A condition that no later state can repair. -/
structure Past (allowed : World δ ε → Prop) : Prop where
  env : ∀ world env, allowed { world with env } → allowed world
  token : ∀ world token, allowed { world with token } → allowed world
  record : ∀ world action box, allowed (world.record action box) → allowed world

/-- A condition on the queue and the recorded points that a request cannot break. -/
structure Lasting (invariant : World δ ε → Prop) : Prop where
  env : ∀ world env, invariant world → invariant { world with env }
  token : ∀ world token, invariant world → invariant { world with token }
  posted : ∀ world request reply box, box.queue = world.box.queue → invariant world →
    invariant (world.record (.posted request reply) box)

/-- The outcome is no `PermanentReject`. -/
def NotPermanent (outcome : Except AgentError α) : Prop :=
  ∀ status detail, outcome ≠ .error (.permanentReject status detail)

theorem notPermanent_ok (value : α) : NotPermanent (.ok value : Except AgentError α) :=
  nofun

theorem notPermanent_of_status {error : AgentError} (foreign : error.status? = none) :
    NotPermanent (.error error : Except AgentError α) := by
  rintro status detail ⟨⟩
  cases foreign

theorem notPermanent_report (status : Nat) (detail : String) :
    NotPermanent (.error (.report status detail) : Except AgentError α) :=
  nofun

theorem NotPermanent.cast {error : AgentError}
    (plain : NotPermanent (.error error : Except AgentError α)) :
    NotPermanent (.error error : Except AgentError β) := by
  rintro status detail ⟨⟩
  exact plain status detail rfl

/-- The program keeps an invariant and raises no permanent rejection. -/
def Plain (allowed invariant : World δ ε → Prop) (program : Program δ ε α) : Prop :=
  Ensures allowed invariant program fun outcome world =>
    invariant world ∧ NotPermanent outcome

theorem plain_pure (value : α) : Plain allowed invariant (pure value : Program δ ε α) :=
  ensures_pure fun _ _ meets => ⟨meets, notPermanent_ok value⟩

theorem plain_throw {error : AgentError}
    (plain : NotPermanent (.error error : Except AgentError α)) :
    Plain allowed invariant (throw error : Program δ ε α) :=
  ensures_throw fun _ _ meets => ⟨meets, plain⟩

theorem Plain.bind {program : Program δ ε α} {next : α → Program δ ε β}
    (first : Plain allowed invariant program)
    (rest : ∀ value, Plain allowed invariant (next value)) :
    Plain allowed invariant (program >>= next) :=
  Ensures.bind first (fun value => (rest value).assume fun _ meets => meets.1)
    fun _ _ _ meets => ⟨meets.1, meets.2.cast⟩

/-- What follows a caught program starts from its outcome. -/
theorem Plain.attempt_bind {program : Program δ ε α}
    {next : Except AgentError α → Program δ ε β} (first : Plain allowed invariant program)
    (rest : ∀ outcome, Ensures allowed
      (fun world => invariant world ∧ NotPermanent outcome) (next outcome)
      fun outcome world => invariant world ∧ NotPermanent outcome) :
    Plain allowed invariant (Program.attempt program >>= next) :=
  Ensures.attempt_bind first rest

/-- An error that was caught is raised again. -/
theorem ensures_rethrow {error : AgentError} :
    Ensures allowed (fun world => invariant world ∧
      NotPermanent (.error error : Except AgentError α))
      (throw error : Program δ ε β)
      fun outcome world => invariant world ∧ NotPermanent outcome :=
  ensures_throw fun _ _ meets => ⟨meets.1, meets.2.cast⟩

theorem plain_raiseFor (config : AgentConfig) (response : HttpResponse) :
    Plain allowed invariant (raiseFor config response : Program δ ε Unit) := by
  unfold raiseFor
  split
  · exact plain_throw (notPermanent_report _ _)
  · exact plain_pure ()

variable (past : Past allowed) (ordinary : Ordinary site) (lasting : Lasting invariant)

include past ordinary lasting

theorem plain_perform (op : LocalOp) : Plain allowed invariant (perform site op) := by
  unfold perform
  refine Ensures.update_bind
    (fun failure world => invariant world ∧ ∃ env, failure = (site.perform env op).2)
    (fun world good => past.env _ _ good)
    (fun world meets => ⟨lasting.env _ _ meets, world.env, rfl⟩) fun failure => ?_
  cases failure with
  | none => exact ensures_pure fun _ _ meets => ⟨meets.1, notPermanent_ok ()⟩
  | some error =>
      refine ensures_throw fun _ _ meets => ⟨meets.1, ?_⟩
      obtain ⟨env, same⟩ := meets.2
      exact notPermanent_of_status (ordinary.performs env op error same.symm)

/-- A request keeps the queue and raises nothing; what the client raised is no
`ReportError`. -/
theorem transmit_answers (request : Request δ) :
    Ensures allowed invariant (transmit site request) fun outcome world =>
      invariant world ∧ ∃ reply, outcome = .ok reply ∧
        ∀ error, reply = .raised error → error.status? = none := by
  refine ensures_update (fun world good => past.env _ _ (past.record _ _ _ good))
    fun world _ meets => ⟨?_, _, rfl, ?_⟩
  · apply lasting.posted _ request _ _ _ (lasting.env _ _ meets)
    rcases acknowledge_eq request (site.transmit world.env request).2 world.box with
      same | ⟨data, same⟩
    · rw [same]
    · rw [same]
      rfl
  · intro error raised
    exact ordinary.transmits _ _ _ raised

/-! ### Tokens -/

theorem plain_storedToken : Plain allowed invariant (storedToken site) := by
  unfold storedToken
  refine Ensures.update_bind (fun _ => invariant) (fun _ good => good)
    (fun _ meets => meets) fun content => ?_
  cases content with
  | none => exact plain_pure none
  | some content =>
      exact (plain_perform past ordinary lasting _).bind fun _ => plain_pure _

theorem plain_writeToken (token : String) :
    Plain allowed invariant (writeToken site token) := by
  unfold writeToken
  refine (plain_perform past ordinary lasting _).attempt_bind fun outcome => ?_
  cases outcome with
  | ok =>
      exact ensures_update (fun _ good => past.token _ _ good) fun _ _ meets =>
        ⟨lasting.token _ _ meets.1, notPermanent_ok _⟩
  | error error =>
      exact Ensures.update_bind (fun _ world => invariant world ∧
        NotPermanent (.error error : Except AgentError Unit))
        (fun _ good => past.token _ _ good)
        (fun _ meets => ⟨lasting.token _ _ meets.1, meets.2⟩) fun _ => ensures_rethrow

theorem plain_unlinkToken : Plain allowed invariant (unlinkToken site) := by
  unfold unlinkToken
  refine (plain_perform past ordinary lasting _).bind fun _ => ?_
  exact ensures_update (fun _ good => past.token _ _ good) fun _ _ meets =>
    ⟨lasting.token _ _ meets, notPermanent_ok _⟩

/-- The token of an enrolment is stored. -/
theorem plain_minted (config : AgentConfig) (response : HttpResponse) :
    Plain allowed invariant (do
      raiseFor config response
      match mintedToken config response with
      | .error cause =>
          throw (.report 0 s!"enroll: malformed response ({cause})")
      | .ok "" => throw (.report 0 "enroll: empty agent token in response")
      | .ok token =>
          match ← Program.attempt (writeToken site token) with
          | .ok () => pure token
          | .error (.os message) =>
              throw (.report 0
                s!"cannot write token file {config.tokenPath}: {message}")
          | .error error => throw error) := by
  refine (plain_raiseFor config response).bind fun _ => ?_
  split
  · exact plain_throw (notPermanent_report _ _)
  · exact plain_throw (notPermanent_report _ _)
  · refine (plain_writeToken past ordinary lasting _).attempt_bind fun written => ?_
    split
    · exact (plain_pure _).assume fun _ meets => meets.1
    · exact (plain_throw (notPermanent_report _ _)).assume fun _ meets => meets.1
    · exact ensures_rethrow

theorem plain_ensureAgentToken (config : AgentConfig) :
    Plain allowed invariant (ensureAgentToken site config) := by
  unfold ensureAgentToken
  refine (plain_storedToken past ordinary lasting).bind fun stored => ?_
  cases stored with
  | some token => exact plain_pure token
  | none =>
  dsimp only
  split
  · exact plain_throw (notPermanent_report _ _)
  · refine (transmit_answers past ordinary lasting _).bind (fun reply => ?_) ?_
    · cases reply with
      | failed message =>
          exact (plain_throw (notPermanent_report _ _)).assume fun _ meets => meets.1
      | raised error =>
          refine ensures_throw fun _ _ meets => ⟨meets.1, ?_⟩
          obtain ⟨_, same, foreign⟩ := meets.2
          cases same
          exact notPermanent_of_status (foreign error rfl)
      | response response =>
          have minted : Plain allowed invariant _ :=
            plain_minted past ordinary lasting config response
          exact minted.assume fun _ meets => meets.1
    · rintro error world _ ⟨_, _, ⟨⟩, _⟩

end Plain

/-! ## Posting -/

/-- What `post_bundle` makes of a reply. -/
def bundleAnswer (config : AgentConfig) : Reply → Except AgentError Json
  | .failed message => .error (.report 0 s!"ingest failed: {message}")
  | .raised error => .error error
  | .response answer =>
      if answer.status / 100 ≠ 2 then
        let detail :=
          match answer.json with
          | .ok (.object members) =>
              match JsonObject.get? members "detail" with
              | some detail => detail.toStr config.text
              | none => answer.text
          | _ => answer.text
        .error (.report answer.status detail)
      else
        match answer.json with
        | .ok (.object members) => .ok (.object members)
        | .ok other =>
            .error (.report 0
              ("ingest: malformed response (TypeError: expected a JSON object, " ++
                s!"got {other.typeName})"))
        | .error cause => .error (.report 0 s!"ingest: malformed response ({cause})")

/-- The world after a request. -/
def afterPost (site : Environment δ ε) (request : Request δ) (world : World δ ε) :
    World δ ε :=
  { world with env := (site.transmit world.env request).1 }.record
    (.posted request (site.transmit world.env request).2)
    (acknowledge request (site.transmit world.env request).2 world.box)

theorem execute_postBundle (site : Environment δ ε) (config : AgentConfig)
    (token : String) (data : δ) (world : World δ ε) :
    (postBundle site config token data).execute world =
      (bundleAnswer config (site.transmit world.env (.ingest config.server token data)).2,
        afterPost site (.ingest config.server token data) world) := by
  have sent : (transmit site (.ingest config.server token data)).execute world =
      (.ok (site.transmit world.env (.ingest config.server token data)).2,
        afterPost site (.ingest config.server token data) world) := rfl
  unfold postBundle
  rw [execute_bind, sent]
  generalize (site.transmit world.env (.ingest config.server token data)).2 = reply
  cases reply with
  | failed message => rfl
  | raised error => rfl
  | response answer =>
      dsimp only
      rw [execute_bind, raiseFor, bundleAnswer]
      by_cases failed : answer.status / 100 ≠ 2
      · rw [if_pos failed, if_pos failed]
        rfl
      · rw [if_neg failed, if_neg failed, execute_pure]
        dsimp only
        generalize answer.json = parsed
        cases parsed with
        | error cause => rfl
        | ok body => cases body <;> rfl

theorem queue_afterPost (site : Environment δ ε) (request : Request δ)
    (world : World δ ε) :
    (afterPost site request world).box.queue = world.box.queue := by
  change (acknowledge _ _ world.box).queue = _
  rcases acknowledge_eq request (site.transmit world.env request).2 world.box with
    same | ⟨data, same⟩
  · rw [same]
  · rw [same]
    rfl

/-- The caller of `post_bundle` takes the bundle for settled. -/
def Settled (outcome : Except AgentError Json) : Prop :=
  (∃ body, outcome = .ok body) ∨ ∃ status detail,
    outcome = .error (.report status detail) ∧ permanentRejects.contains status = true

/-- A body or a permanent status comes from a settling reply. -/
theorem settles_of_answer {config : AgentConfig} {reply : Reply}
    (foreign : ∀ error, reply = .raised error → error.status? = none)
    (settled : Settled (bundleAnswer config reply)) : reply.settles = true := by
  cases reply with
  | failed message =>
      rcases settled with ⟨_, ⟨⟩⟩ | ⟨_, _, ⟨⟩, permanent⟩
      cases permanent
  | raised error =>
      have status := foreign error rfl
      rcases settled with ⟨_, ⟨⟩⟩ | ⟨_, _, ⟨⟩, _⟩
      cases status
  | response answer =>
      rw [bundleAnswer] at settled
      rw [Reply.settles]
      by_cases failed : answer.status / 100 ≠ 2
      · rw [if_pos failed] at settled
        rcases settled with ⟨_, ⟨⟩⟩ | ⟨_, _, ⟨⟩, permanent⟩
        rw [permanent, Bool.or_true]
      · rw [if_neg failed] at settled
        have success : (answer.status / 100 == 2) = true := by simpa using failed
        rw [success]
        split at settled
        · next parsed => rw [parsed]; rfl
        · rcases settled with ⟨_, ⟨⟩⟩ | ⟨_, _, ⟨⟩, permanent⟩
          cases permanent
        · rcases settled with ⟨_, ⟨⟩⟩ | ⟨_, _, ⟨⟩, permanent⟩
          cases permanent

theorem notPermanent_answer {config : AgentConfig} {reply : Reply}
    (foreign : ∀ error, reply = .raised error → error.status? = none) :
    NotPermanent (bundleAnswer config reply) := by
  cases reply with
  | failed message => exact notPermanent_report _ _
  | raised error => exact notPermanent_of_status (foreign error rfl)
  | response answer =>
      rw [bundleAnswer]
      split
      · exact notPermanent_report _ _
      · split
        · exact notPermanent_ok _
        · exact notPermanent_report _ _
        · exact notPermanent_report _ _

/-! ## Flushing -/

section Flush

variable {site : Environment δ ε} {allowed : World δ ε → Prop}
  {base : List (Point δ ε)} {named : SpoolName → Prop}

/-- Points were only added, and the files in the spool have such names. -/
def Waiting (base : List (Point δ ε)) (named : SpoolName → Prop) (world : World δ ε) :
    Prop :=
  (∃ points, world.trace = base ++ points) ∧ ∀ file ∈ world.box.queue, named file.name

theorem Waiting.record {world : World δ ε} {action : Action δ} {box : Spool δ}
    {other : SpoolName → Prop} (waiting : Waiting base named world)
    (queue : ∀ file ∈ box.queue, other file.name) :
    Waiting base other (world.record action box) := by
  obtain ⟨points, same⟩ := waiting.1
  refine ⟨⟨points ++ [⟨action, box, world.env⟩], ?_⟩, queue⟩
  rw [← List.append_assoc, ← same]
  rfl

theorem lasting_waiting : Lasting (Waiting (ε := ε) (δ := δ) base named) := by
  constructor
  · exact fun _ _ waiting => waiting
  · exact fun _ _ waiting => waiting
  · intro world request reply box queue waiting
    apply waiting.record
    rw [queue]
    exact waiting.2

/-- Taking a file out of the spool, under an action of its own. -/
theorem recordBox_leaves {action : Action δ} {change : Spool δ → Spool δ}
    {name : SpoolName}
    (past : Past allowed)
    (removes : ∀ box, (change box).queue = box.queue.filter (·.name != name)) :
    Ensures allowed (Waiting base named) (recordBox action change : Program δ ε Unit)
      fun outcome world => outcome = .ok () ∧
        Waiting base (fun other => named other ∧ other ≠ name) world := by
  refine ensures_update (fun _ good => past.record _ _ _ good) fun world _ waiting =>
    ⟨rfl, waiting.record ?_⟩
  intro file member
  rw [removes] at member
  obtain ⟨here, apart⟩ := List.mem_filter.mp member
  exact ⟨waiting.2 file here, by simpa using apart⟩

theorem unlinkSpool_leaves (past : Past allowed) (ordinary : Ordinary site)
    (name : SpoolName) :
    Ensures allowed (Waiting base named) (unlinkSpool site name)
      fun outcome world => outcome = .ok () ∧
        Waiting base (fun other => named other ∧ other ≠ name) world := by
  have removed : Ensures allowed (Waiting base named) (perform site (.unlinkSpool name))
      fun outcome world => outcome = .ok () ∧ Waiting base named world := by
    constructor
    · intro world good
      rw [execute_perform] at good
      exact past.env _ _ good
    · intro world _ waiting
      rw [execute_perform, ordinary.removes]
      exact ⟨rfl, waiting⟩
  refine removed.bind (fun _ => ?_) ?_
  · exact (recordBox_leaves past fun _ => rfl).assume fun _ meets => meets.2
  · rintro error world _ ⟨⟨⟩, _⟩

theorem quarantine_leaves (past : Past allowed) (ordinary : Ordinary site)
    (name : SpoolName) :
    Ensures allowed (Waiting base named) (quarantine site name)
      fun outcome world => Waiting base named world ∧ NotPermanent outcome ∧
        (outcome = .ok () →
          Waiting base (fun other => named other ∧ other ≠ name) world) := by
  refine Ensures.bind (plain_perform past ordinary lasting_waiting (.quarantine name))
    (fun _ => ?_) ?_
  · refine (recordBox_leaves past fun _ => rfl).weaken (fun _ meets => meets.1) ?_
    rintro outcome world ⟨rfl, waiting⟩
    refine ⟨⟨waiting.1, fun file member => (waiting.2 file member).1⟩,
      notPermanent_ok _, ?_⟩
    exact fun _ => waiting
  · exact fun _ _ _ meets => ⟨meets.1, meets.2.cast, nofun⟩

/-- Reading and posting a spooled file. -/
theorem plain_postFile (past : Past allowed) (ordinary : Ordinary site)
    {invariant : World δ ε → Prop} (lasting : Lasting invariant) (config : AgentConfig)
    (token : String) (file : SpoolFile δ) :
    Plain allowed invariant (do
      perform site (.readSpool file.name)
      let _ ← postBundle site config token file.data) := by
  have posts : Plain allowed invariant (postBundle site config token file.data) := by
    constructor
    · intro world good
      rw [execute_postBundle] at good
      exact past.env _ _ (past.record _ _ _ good)
    · intro world _ meets
      rw [execute_postBundle]
      refine ⟨?_, notPermanent_answer fun error => ordinary.transmits _ _ error⟩
      exact lasting.posted _ _ _ _
        (queue_afterPost site (.ingest config.server token file.data) world)
        (lasting.env _ _ meets)
  exact (plain_perform past ordinary lasting _).bind fun _ => posts.bind fun _ =>
    plain_pure ()

/-- What a round of the loop leaves: a file that was not kept is gone. -/
def RoundLeaves (base : List (Point δ ε)) (named : SpoolName → Prop) (file : SpoolFile δ)
    (tally : Tally) (outcome : Except AgentError (Tally × Bool)) (world : World δ ε) :
    Prop :=
  Waiting base named world ∧ NotPermanent outcome ∧ ∀ counts goesOn,
    outcome = .ok (counts, goesOn) → tally.kept ≤ counts.kept ∧
      (counts.kept = tally.kept → goesOn = true ∧
        Waiting base (fun other => named other ∧ other ≠ file.name) world)

section Rounds

variable {file : SpoolFile δ} {tally : Tally} {world : World δ ε}

theorem Waiting.forget {name : SpoolName}
    (waiting : Waiting base (fun other => named other ∧ other ≠ name) world) :
    Waiting base named world :=
  ⟨waiting.1, fun file member => (waiting.2 file member).1⟩

theorem RoundLeaves.kept (waiting : Waiting base named world) (goesOn : Bool) :
    RoundLeaves base named file tally
      (.ok ({ tally with kept := tally.kept + 1 }, goesOn)) world := by
  refine ⟨waiting, notPermanent_ok _, ?_⟩
  rintro _ _ ⟨⟩
  exact ⟨Nat.le_succ _, fun same => absurd same (Nat.succ_ne_self _)⟩

theorem RoundLeaves.left {counts : Tally} (same : counts.kept = tally.kept)
    (waiting : Waiting base (fun other => named other ∧ other ≠ file.name) world) :
    RoundLeaves base named file tally (.ok (counts, true)) world := by
  refine ⟨waiting.forget, notPermanent_ok _, ?_⟩
  rintro _ _ ⟨⟩
  exact ⟨same.ge, fun _ => ⟨rfl, waiting⟩⟩

theorem RoundLeaves.raised {error : AgentError} (waiting : Waiting base named world)
    (plain : NotPermanent (.error error : Except AgentError (Tally × Bool))) :
    RoundLeaves base named file tally (.error error) world :=
  ⟨waiting, plain, nofun⟩

end Rounds

theorem flushFile_leaves (past : Past allowed) (ordinary : Ordinary site)
    (config : AgentConfig) (token : String) (file : SpoolFile δ) (tally : Tally) :
    Ensures allowed (Waiting base named) (flushFile site config token file tally)
      (RoundLeaves base named file tally) := by
  unfold flushFile
  refine Ensures.attempt_bind
    (plain_postFile past ordinary lasting_waiting config token file) fun posted => ?_
  split
  · refine ((unlinkSpool_leaves past ordinary file.name).assume
      fun _ meets => meets.1).attempt_bind fun unlinked => ?_
    split
    · exact ensures_pure fun _ _ meets => .left rfl meets.2
    · exact ensures_pure fun _ _ meets => nomatch meets.1
    · exact ensures_throw fun _ _ meets => nomatch meets.1
  · exact ensures_pure fun _ _ meets => .kept meets.1 true
  · next error _ =>
      cases error.status? with
      | none => exact ensures_throw fun _ _ meets => .raised meets.1 meets.2.cast
      | some status =>
      dsimp only
      split
      · refine ((quarantine_leaves past ordinary file.name).assume
          fun _ meets => meets.1).attempt_bind fun moved => ?_
        split
        · exact ensures_pure fun _ _ meets => .left rfl (meets.2.2 rfl)
        · exact ensures_pure fun _ _ meets => .kept meets.1 true
        · exact ensures_throw fun _ _ meets => .raised meets.1 meets.2.1.cast
      · exact ensures_pure fun _ _ meets => .kept meets.1 _

/-- A flush that keeps no file leaves none of its files in the spool. -/
theorem flushFiles_leaves (past : Past allowed) (ordinary : Ordinary site)
    (config : AgentConfig) (token : String) (files : List (SpoolFile δ)) (tally : Tally) :
    Ensures allowed (Waiting base named) (flushFiles site config token files tally)
      fun outcome world => Waiting base named world ∧ NotPermanent outcome ∧
        ∀ counts, outcome = .ok counts → tally.kept ≤ counts.kept ∧
          (counts.kept = tally.kept →
            Waiting base (fun other => named other ∧ ∀ file ∈ files, other ≠ file.name)
              world) := by
  induction files generalizing tally named with
  | nil =>
      refine ensures_pure fun world _ waiting => ⟨waiting, notPermanent_ok _, ?_⟩
      rintro _ ⟨⟩
      exact ⟨le_rfl, fun _ =>
        ⟨waiting.1, fun file member => ⟨waiting.2 file member, nofun⟩⟩⟩
  | cons file rest inductionHypothesis =>
      refine (flushFile_leaves past ordinary config token file tally).bind ?_
        fun _ _ _ meets => ⟨meets.1, meets.2.1.cast, nofun⟩
      rintro ⟨counts, goesOn⟩
      cases goesOn with
      | false =>
          refine ensures_pure fun world _ meets => ⟨meets.1, notPermanent_ok _, ?_⟩
          rintro _ ⟨⟩
          obtain ⟨more, goes⟩ := meets.2.2 counts false rfl
          exact ⟨more, fun same => absurd (goes same).1 Bool.false_ne_true⟩
      | true =>
          by_cases same : counts.kept = tally.kept
          · refine (inductionHypothesis counts).weaken
              (fun _ meets => ((meets.2.2 counts true rfl).2 same).2) ?_
            rintro outcome world ⟨waiting, plain, done⟩
            refine ⟨waiting.forget, plain, fun last finished => ?_⟩
            obtain ⟨more, drained⟩ := done last finished
            refine ⟨same ▸ more, fun kept => ?_⟩
            have left := drained (kept.trans same.symm)
            refine ⟨left.1, fun other member => ?_⟩
            obtain ⟨⟨known, apart⟩, others⟩ := left.2 other member
            exact ⟨known, List.forall_mem_cons.mpr ⟨apart, others⟩⟩
          · refine ⟨(@inductionHypothesis named counts).earlier,
              fun world good meets => ?_⟩
            obtain ⟨waiting, plain, done⟩ :=
              (@inductionHypothesis named counts).holds world good meets.1
            refine ⟨waiting, plain, fun last finished => ?_⟩
            have rises := (meets.2.2 counts true rfl).1
            have further := (done last finished).1
            exact ⟨rises.trans further, fun kept => by omega⟩

/-- The trace ends with a flush, and one that kept no file has emptied the spool. -/
def JustFlushed (base : List (Point δ ε)) (tally : Tally) (world : World δ ε) : Prop :=
  (∃ points box env, world.trace = base ++ points ++ [⟨.flushed tally, box, env⟩]) ∧
    (tally.kept = 0 → world.box.queue = [])

/-- A flush that keeps no file leaves the spool empty. -/
theorem flushSpool_leaves (past : Past allowed) (ordinary : Ordinary site)
    (config : AgentConfig) (token : String) :
    Ensures allowed (Waiting base fun _ => True) (flushSpool site config token)
      fun outcome world => (Waiting base (fun _ => True) world ∧ NotPermanent outcome) ∧
        ∀ tally, outcome = .ok tally → JustFlushed base tally world := by
  unfold flushSpool
  refine Ensures.update_bind (fun files world =>
      Waiting base (fun name => ∃ file ∈ files, name = file.name) world)
    (fun _ good => good) (fun world waiting => ?_) fun files => ?_
  · refine ⟨waiting.1, fun file member => ⟨file, ?_, rfl⟩⟩
    exact (List.perm_insertionSort _ _).mem_iff.mpr member
  · refine (flushFiles_leaves past ordinary config token files ⟨0, 0, 0⟩).bind
      (fun tally => ?_) ?_
    · refine Ensures.update_bind (fun _ world => JustFlushed base tally world)
        (fun _ good => past.record _ _ _ good) (fun world meets => ?_) fun _ => ?_
      · obtain ⟨⟨points, same⟩, -⟩ := meets.1
        refine ⟨⟨points, world.box, world.env, ?_⟩, fun none => ?_⟩
        · rw [← same]
          rfl
        · obtain ⟨-, drained⟩ := (meets.2.2 tally rfl).2 none
          apply List.eq_nil_iff_forall_not_mem.mpr
          intro file member
          obtain ⟨⟨other, known, same⟩, apart⟩ := drained file member
          exact apart other known same
      · refine ensures_pure fun world _ flushed => ⟨⟨⟨?_, fun _ _ => trivial⟩,
          notPermanent_ok _⟩, ?_⟩
        · obtain ⟨points, box, env, same⟩ := flushed.1
          exact ⟨points ++ [⟨.flushed tally, box, env⟩], by rw [same, List.append_assoc]⟩
        · rintro _ ⟨⟩
          exact flushed
    · exact fun _ world _ meets =>
        ⟨⟨⟨meets.1.1, fun _ _ => trivial⟩, meets.2.1.cast⟩, nofun⟩

end Flush

/-! ## Reporting -/

section Report

variable {site : Environment δ ε} {base : List (Point δ ε)}

theorem past_postedAfterDrain :
    Past fun world : World δ ε => PostedAfterDrain base world.trace := by
  constructor
  · exact fun _ _ good => good
  · exact fun _ _ good => good
  · intro world action box good front tally before env posted back server token
      data reply same
    apply good front tally before env posted (back ++ [⟨action, box, world.env⟩])
    change world.trace ++ [_] = _
    rw [same]
    simp

/-- After a flush the posted bundle is settled only with an empty spool. -/
theorem postBundle_drained (ordinary : Ordinary site) (config : AgentConfig)
    (token : String) (data : δ) (tally : Tally) :
    Ensures (fun world => PostedAfterDrain base world.trace) (JustFlushed base tally)
      (postBundle site config token data) fun outcome world =>
        Waiting base (fun _ => True) world ∧ NotPermanent outcome ∧
          (Settled outcome → world.box.queue = []) := by
  have past := @past_postedAfterDrain δ ε base
  constructor
  · intro world good
    rw [execute_postBundle] at good
    exact past.env _ _ (past.record _ _ _ good)
  · intro world good flushed
    rw [execute_postBundle] at good ⊢
    obtain ⟨⟨points, box, env, same⟩, empty⟩ := flushed
    have foreign : ∀ error, (site.transmit world.env
        (.ingest config.server token data)).2 = .raised error → error.status? = none :=
      fun error => ordinary.transmits _ _ error
    have waiting : Waiting base (fun _ => True) world :=
      ⟨⟨points ++ [⟨.flushed tally, box, env⟩], by rw [same, List.append_assoc]⟩,
        fun _ _ => trivial⟩
    refine ⟨?_, notPermanent_answer foreign, fun settled => ?_⟩
    · exact lasting_waiting.posted _ _ _ _
        (queue_afterPost site (.ingest config.server token data) world)
        (lasting_waiting.env _ _ waiting)
    · change (afterPost _ _ _).box.queue = []
      rw [queue_afterPost]
      apply empty
      let sent : Request δ := .ingest config.server token data
      apply good points tally box env ⟨.posted sent (site.transmit world.env sent).2,
        (afterPost site sent world).box, (afterPost site sent world).env⟩ []
        config.server token data _ ?_ rfl (settles_of_answer foreign settled)
      change world.trace ++ [_] = _
      rw [same, List.append_assoc _ [_] [_]]
      rfl

/-- The bundle of a report was taken or refused for good. -/
def Finished (outcome : Except AgentError α) : Prop :=
  (∃ value, outcome = .ok value) ∨ ∃ status detail,
    outcome = .error (.permanentReject status detail)

theorem NotPermanent.unfinished {error : AgentError}
    (plain : NotPermanent (.error error : Except AgentError α)) :
    ¬ Finished (.error error : Except AgentError β) := by
  rintro (⟨_, ⟨⟩⟩ | ⟨status, detail, ⟨⟩⟩)
  exact plain status detail rfl

theorem send_drained (ordinary : Ordinary site) (config : AgentConfig) (data : δ) :
    Ensures (fun world => PostedAfterDrain base world.trace)
      (Waiting base fun _ => True) (send site config data) fun outcome world =>
        Waiting base (fun _ => True) world ∧
        (Finished outcome → world.box.queue = []) := by
  have past := @past_postedAfterDrain δ ε base
  unfold send
  extract_lets posting
  have posts : ∀ token, Ensures (fun world => PostedAfterDrain base world.trace)
      (Waiting base fun _ => True) (posting token) fun outcome world =>
        Waiting base (fun _ => True) world ∧
          (Finished outcome → world.box.queue = []) := by
    intro token
    refine (flushSpool_leaves past ordinary config token).bind
      (fun tally => ?_) fun _ _ _ meets =>
        ⟨meets.1.1, fun finished => absurd finished meets.1.2.unfinished⟩
    refine ((postBundle_drained ordinary config token data tally).assume
      fun _ meets => meets.2 tally rfl).attempt_bind fun posted => ?_
    split
    · exact ensures_pure fun _ _ meets => ⟨meets.1, fun _ => meets.2.2 (.inl ⟨_, rfl⟩)⟩
    · next status detail =>
      split
      · next permanent =>
        refine ensures_throw fun _ _ meets => ⟨meets.1, fun _ => ?_⟩
        exact meets.2.2 (.inr ⟨status, detail, rfl, permanent⟩)
      · refine ensures_throw fun _ _ meets => ⟨meets.1, ?_⟩
        rintro (⟨_, ⟨⟩⟩ | ⟨_, _, ⟨⟩⟩)
    · exact ensures_throw fun _ _ meets =>
        ⟨meets.1, fun finished => absurd finished meets.2.1.unfinished⟩
  have withToken : ∀ program : Program δ ε String,
      Plain (fun world => PostedAfterDrain base world.trace)
        (Waiting base fun _ => True) program →
      Ensures (fun world => PostedAfterDrain base world.trace)
        (Waiting base fun _ => True) (program >>= posting) fun outcome world =>
          Waiting base (fun _ => True) world ∧
            (Finished outcome → world.box.queue = []) := by
    intro program plain
    exact Ensures.bind plain (fun token => (posts token).assume fun _ meets => meets.1)
      fun _ _ _ meets => ⟨meets.1, fun finished => absurd finished meets.2.unfinished⟩
  split
  · exact withToken _ (plain_pure _)
  · exact withToken _ (plain_ensureAgentToken past ordinary lasting_waiting config)

theorem sendOrReenroll_drained (ordinary : Ordinary site) (config : AgentConfig)
    (data : δ) :
    Ensures (fun world => PostedAfterDrain base world.trace)
      (Waiting base fun _ => True) (sendOrReenroll site config data) fun outcome world =>
        Finished outcome → world.box.queue = [] := by
  have past := @past_postedAfterDrain δ ε base
  have sends := @send_drained _ _ _ base ordinary config data
  unfold sendOrReenroll
  refine sends.attempt_bind fun outcome => ?_
  split
  · exact ensures_pure fun _ _ meets _ => meets.2 (.inl ⟨_, rfl⟩)
  · next error =>
    split
    · split
      · refine ensures_throw fun _ _ _ => ?_
        rintro (⟨_, ⟨⟩⟩ | ⟨_, _, ⟨⟩⟩)
      · refine Ensures.bind ((plain_unlinkToken past ordinary lasting_waiting).assume
          fun _ meets => meets.1) (fun _ => ?_)
          fun _ _ _ meets finished => absurd finished meets.2.unfinished
        refine Ensures.bind ((plain_perform past ordinary lasting_waiting _).assume
          fun _ meets => meets.1) (fun _ => ?_)
          fun _ _ _ meets finished => absurd finished meets.2.unfinished
        exact sends.weaken (fun _ meets => meets.1) fun _ _ meets => meets.2
    · refine ensures_throw fun _ _ meets finished => meets.2 ?_
      rcases finished with ⟨_, ⟨⟩⟩ | ⟨status, detail, ⟨⟩⟩
      exact .inr ⟨status, detail, rfl⟩

theorem ensures_spoolBundle {allowed pre : World δ ε → Prop} (past : Past allowed)
    (data : δ) : Ensures allowed pre (spoolBundle site data) fun _ _ => True := by
  unfold spoolBundle
  refine Ensures.update_bind (fun _ _ => True) (fun _ good => past.env _ _ good)
    (fun _ _ => trivial) fun name => ?_
  have written : Ensures allowed (fun _ => True) (perform site (.writeSpool name))
      fun _ _ => True := by
    constructor
    · intro world good
      rw [execute_perform] at good
      exact past.env _ _ good
    · exact fun _ _ _ => trivial
  refine written.attempt_bind fun outcome => ?_
  split
  · exact ensures_update (fun _ good => past.record _ _ _ good) fun _ _ _ => trivial
  · refine Ensures.update_bind (fun _ _ => True) (fun world good => ?_)
      (fun _ _ => trivial) fun _ => ensures_throw fun _ _ _ => trivial
    split at good
    · exact good
    · exact past.record _ _ _ good

/-- A report that is taken or refused for good leaves the spool empty. -/
theorem reportScan_drained (ordinary : Ordinary site) (config : AgentConfig)
    {prepared : Except AgentError δ} (plain : NotPermanent prepared) :
    Ensures (fun world => PostedAfterDrain base world.trace)
      (Waiting base fun _ => True) (reportScan site config prepared) fun outcome world =>
        ((∃ body, outcome = .ok (some body)) ∨
          ∃ status detail, outcome = .error (.permanentReject status detail)) →
            world.box.queue = [] := by
  have past := @past_postedAfterDrain δ ε base
  unfold reportScan
  cases prepared with
  | error error =>
      refine ensures_throw fun _ _ _ => ?_
      rintro (⟨_, ⟨⟩⟩ | ⟨status, detail, ⟨⟩⟩)
      exact absurd rfl (plain status detail)
  | ok data =>
  refine Ensures.update_bind (fun _ => Waiting base fun _ => True)
    (fun _ good => past.record _ _ _ good)
    (fun _ waiting => waiting.record fun _ _ => trivial) fun _ => ?_
  refine (sendOrReenroll_drained ordinary config data).attempt_bind fun outcome => ?_
  split
  · exact ensures_pure fun _ _ meets _ => meets (.inl ⟨_, rfl⟩)
  · refine Ensures.update_bind (fun _ world => world.box.queue = [])
      (fun _ good => past.record _ _ _ good)
      (fun _ meets => meets (.inr ⟨_, _, rfl⟩)) fun _ => ?_
    exact ensures_throw fun _ _ empty _ => empty
  · refine (ensures_spoolBundle past data).attempt_bind fun spooled => ?_
    split
    · refine ensures_pure fun _ _ _ => ?_
      rintro (⟨_, ⟨⟩⟩ | ⟨_, _, ⟨⟩⟩)
    · refine ensures_throw fun _ _ _ => ?_
      rintro (⟨_, ⟨⟩⟩ | ⟨_, _, ⟨⟩⟩)

/-- A cycle that returns without having spooled its bundle leaves the spool empty. -/
theorem agentCycle_drained (ordinary : Ordinary site) (config : AgentConfig)
    {prepared : Except AgentError δ} (plain : NotPermanent prepared)
    (trimmed : Except AgentError Unit) :
    Ensures (fun world => PostedAfterDrain base world.trace)
      (Waiting base fun _ => True) (agentCycle site config prepared trimmed)
      fun outcome world => ∀ result, outcome = .ok result → result.spooled = false →
        world.box.queue = [] := by
  unfold agentCycle
  refine (reportScan_drained ordinary config plain).attempt_bind fun outcome => ?_
  have trims : ∀ (result : CycleResult) (pre : World δ ε → Prop),
      (∀ world, pre world → result.spooled = false → world.box.queue = []) →
      Ensures (fun world => PostedAfterDrain base world.trace) pre
        (do
          let _ ← (match trimmed with
            | .ok () => pure ()
            | .error error => throw error : Program δ ε Unit)
          pure result)
        fun outcome world => ∀ result, outcome = .ok result → result.spooled = false →
          world.box.queue = [] := by
    intro result pre drained
    cases trimmed with
    | error error => exact ensures_throw fun _ _ _ => nofun
    | ok =>
        refine ensures_pure fun world _ meets => ?_
        rintro _ ⟨⟩
        exact drained world meets
  split
  · next report =>
    apply trims
    intro world meets fresh
    cases report with
    | none => cases fresh
    | some body => exact meets (.inl ⟨body, rfl⟩)
  · apply trims
    exact fun world meets _ => meets (.inr ⟨_, _, rfl⟩)
  · exact ensures_throw fun _ _ _ => nofun

theorem flushes_drained (ordinary : Ordinary site) (config : AgentConfig)
    (prepared : Except AgentError Unit) :
    Ensures (fun _ => True) (Waiting base fun _ => True)
      (match prepared with
        | .error error => throw error
        | .ok () => do
            let token ← ensureAgentToken site config
            flushSpool site config token) fun outcome world =>
        ∀ tally, outcome = .ok tally → tally.kept = 0 → world.box.queue = [] := by
  have past : Past fun _ : World δ ε => True :=
    ⟨fun _ _ _ => trivial, fun _ _ _ => trivial, fun _ _ _ _ => trivial⟩
  cases prepared with
  | error error => exact ensures_throw fun _ _ _ _ raised => by cases raised
  | ok =>
      refine Ensures.bind (plain_ensureAgentToken past ordinary lasting_waiting config)
        (fun token => ?_) fun _ _ _ _ _ raised => by cases raised
      refine (flushSpool_leaves past ordinary config token).weaken
        (fun _ meets => meets.1) fun _ _ meets tally done => ?_
      exact (meets.2 tally done).2

/-- A tick that reports leaves the spool empty. -/
theorem flushOnly_drained (ordinary : Ordinary site) (config : AgentConfig)
    (prepared : Except AgentError Unit) :
    Ensures (fun _ => True) (Waiting base fun _ => True) (flushOnly site config prepared)
      fun outcome world => ∀ tick, outcome = .ok tick → tick.reported = true →
        world.box.queue = [] := by
  unfold flushOnly
  have flushes := @flushes_drained _ _ site base ordinary config prepared
  refine flushes.attempt_bind fun flushed => ?_
  split
  · refine ensures_pure fun world _ meets => ?_
    rintro _ ⟨⟩ reported
    exact meets _ rfl (by simpa using reported)
  · next error =>
    cases error.status? with
    | none => exact ensures_throw fun _ _ _ _ raised => by cases raised
    | some status =>
        refine ensures_pure fun _ _ _ => ?_
        rintro _ ⟨⟩ ⟨⟩

end Report

/-! ## The loop -/

section Runs

variable {site : Environment δ ε} {config : AgentConfig} {base : ℚ}

/-- The pass crashed in its scan branch. -/
def Crashes (site : Environment δ ε) (config : AgentConfig) (pass : Pass δ)
    (state : LoopState δ ε) : Prop :=
  scans pass state = true ∧ ∃ error,
    ((agentCycle site config pass.scanned pass.trimmed).execute state.world).1 =
      .error error

/-- In a scan pass, a bundle that was settled was posted after a
flush that kept no file. -/
def PassDrains (site : Environment δ ε) (config : AgentConfig) (pass : Pass δ)
    (state : LoopState δ ε) : Prop :=
  scans pass state = true → PostedAfterDrain state.world.trace
    ((agentCycle site config pass.scanned pass.trimmed).execute state.world).2.trace

/-- Each pass of the run meets a condition on the state it starts from. -/
def EachPass (site : Environment δ ε) (config : AgentConfig) (base : ℚ)
    (meets : Pass δ → LoopState δ ε → Prop) : LoopState δ ε → List (Pass δ) → Prop
  | _, [] => True
  | state, pass :: rest =>
      meets pass state ∧
        EachPass site config base meets (loopPass site config base pass state) rest

/-- The loop is about to retry what waits in the spool. -/
def Retries (state : LoopState δ ε) : Prop :=
  state.world.box.queue ≠ [] → 1 ≤ state.retries ∧
    state.wait ≤ nextDelay 0 0 state.retries

theorem nextDelay_retry (base drawn : ℚ) {failures : Nat} (some : 0 < failures) :
    nextDelay base drawn failures = nextDelay 0 0 failures := by
  unfold nextDelay
  rw [if_pos some, if_pos some]

theorem nextDelay_pos {failures : Nat} (some : 0 < failures) :
    0 < nextDelay 0 0 failures := by
  unfold nextDelay
  rw [if_pos some]
  apply lt_min
  · positivity
  · norm_num

/-- With a retry due, the sleep is at most the back-off. -/
theorem loopPass_wait {pass : Pass δ} {state : LoopState δ ε}
    (due : 1 ≤ (loopPass site config base pass state).retries) :
    (loopPass site config base pass state).wait ≤
      nextDelay 0 0 (loopPass site config base pass state).retries := by
  unfold loopPass at due ⊢
  change max _ 0 ≤ nextDelay 0 0 _
  apply max_le
  · rw [if_pos (Nat.pos_iff_ne_zero.mp due), nextDelay_retry base pass.drawn due]
    exact min_le_right _ _
  · exact (nextDelay_pos due).le

/-- A cycle that settles its bundle only after a clean flush
spools or empties the spool. -/
theorem scanPass_retries (ordinary : Ordinary site) {pass : Pass δ}
    {state : LoopState δ ε} (scanned : scans pass state = true)
    (noCrash : ¬ Crashes site config pass state)
    (drains : PassDrains site config pass state)
    (waiting : (scanPass site config base pass state).world.box.queue ≠ []) :
    1 ≤ (scanPass site config base pass state).retries := by
  have drained := (@agentCycle_drained _ _ site state.world.trace ordinary config
    pass.scanned pass.plain pass.trimmed).holds state.world (drains scanned)
    ⟨⟨[], by simp⟩, by simp⟩
  unfold Crashes at noCrash
  unfold scanPass at waiting ⊢
  revert noCrash waiting drained
  generalize (agentCycle site config pass.scanned pass.trimmed).execute state.world = ran
  obtain ⟨outcome, world⟩ := ran
  intro noCrash waiting drained
  cases outcome with
  | error error => exact absurd ⟨scanned, error, rfl⟩ noCrash
  | ok result =>
      change 1 ≤ if result.spooled then 1 else 0
      cases spooled : result.spooled with
      | true => exact le_rfl
      | false => exact absurd (drained result rfl spooled) waiting

/-- A tick retries until the spool is empty. -/
theorem flushPass_retries (ordinary : Ordinary site) {pass : Pass δ}
    {state : LoopState δ ε}
    (waiting : (flushPass site config pass state).world.box.queue ≠ []) :
    1 ≤ (flushPass site config pass state).retries := by
  have drained := (@flushOnly_drained _ _ site state.world.trace ordinary config
    pass.identified).holds state.world trivial ⟨⟨[], by simp⟩, by simp⟩
  unfold flushPass at waiting ⊢
  revert waiting drained
  generalize (flushOnly site config pass.identified).execute state.world = ran
  obtain ⟨outcome, world⟩ := ran
  intro waiting drained
  have counted : ∀ tick : FlushResult, (tick.reported = true → world.box.queue = []) →
      1 ≤ if tick.reported then 0 else if tick.sent ≠ 0 then 1
        else state.retries + 1 := by
    intro tick empty
    split
    · next reported => exact absurd (empty reported) waiting
    · split <;> omega
  cases outcome with
  | error error => exact counted ⟨false, true, 0⟩ nofun
  | ok tick => exact counted tick (drained tick rfl)

theorem loopPass_retries (ordinary : Ordinary site) {pass : Pass δ}
    {state : LoopState δ ε}
    (noCrash : ¬ Crashes site config pass state)
    (drains : PassDrains site config pass state) :
    Retries (loopPass site config base pass state) := by
  intro waiting
  have due : 1 ≤ (loopPass site config base pass state).retries := by
    unfold loopPass at waiting ⊢
    by_cases scanned : scans pass state = true
    · rw [if_pos scanned] at waiting ⊢
      exact @scanPass_retries _ _ _ _ base ordinary _ _ scanned noCrash drains waiting
    · rw [if_neg scanned] at waiting ⊢
      exact flushPass_retries ordinary waiting
  exact ⟨due, loopPass_wait due⟩

/-- In a run whose cycles settle a bundle only after a flush that kept no file, a
spool that is not empty is always due for an early retry. -/
theorem spool_retried (ordinary : Ordinary site) (passes : List (Pass δ))
    (start : LoopState δ ε)
    (sound : EachPass site config base (fun pass state =>
      ¬ Crashes site config pass state ∧
      PassDrains site config pass state) start passes) :
    ∀ state ∈ sleeps site config base start passes, Retries state := by
  induction passes generalizing start with
  | nil => exact nofun
  | cons pass rest ih =>
      intro state member
      rcases List.mem_cons.mp member with rfl | later
      · exact loopPass_retries ordinary sound.1.1 sound.1.2
      · exact ih _ sound.2 state later

end Runs

/-! ## Runs against a list of replies -/

/-- The request was not settled. -/
def Point.isUnsettled (point : Point δ ε) : Bool :=
  match point.action with
  | .posted _ reply => !reply.settles
  | _ => true

theorem postedAfterDrain_of_unsettled {before after : List (Point δ ε)}
    (unsettled : (after.all Point.isUnsettled) = true) :
    PostedAfterDrain before after := by
  intro front tally box env posted back server token data reply same action settled
  have member : posted ∈ after := by
    rw [same]
    simp
  have off := List.all_eq_true.mp unsettled posted member
  simp [Point.isUnsettled, action, settled] at off

/-- An agent whose requests are answered by a list of responses, and by nobody once
it is used up; spooled files are numbered. -/
def answeringSite : Environment String (List HttpResponse × Nat) where
  transmit
    | (answer :: later, count), _ => ((later, count), .response answer)
    | ([], count), _ => (([], count), .failed "connection refused")
  perform env _ := (env, none)
  drawName | (answers, count) => ((answers, count + 1), ⟨count, ""⟩)
  tornToken _ := none
  tornBundle _ := none

theorem ordinary_answeringSite : Ordinary answeringSite := by
  constructor
  · exact fun _ _ _ => nofun
  · rintro ⟨answers, count⟩ request error raised
    cases answers with
    | nil => cases raised
    | cons answer later => cases raised
  · exact fun _ _ => rfl

/-- A pass at a time; in the scan branch it reports a bundle. -/
def passAt (time : ℚ) (data : String) : Pass String where
  started := time
  ended := time
  slept := time
  drawn := 0
  scanned := .ok data
  trimmed := .ok ()
  identified := .ok ()
  plain := nofun

/-- A loop that has just started against a list of responses. -/
def against (answers : List HttpResponse) : LoopState String (List HttpResponse × Nat) :=
  LoopState.initial (World.initial (answers, 0))

theorem not_crashes_of_isOk {site : Environment δ ε} {config : AgentConfig}
    {pass : Pass δ}
    {state : LoopState δ ε}
    (returns : ((agentCycle site config pass.scanned pass.trimmed).execute
      state.world).1.isOk = true) : ¬ Crashes site config pass state := by
  rintro ⟨_, error, raised⟩
  rw [raised] at returns
  cases returns

/-- The collector throttles the first bundle, and the tick delivers it. -/
theorem spool_retried_throttled :
    List.Forall Retries (sleeps answeringSite tokenConfig 3600
      (against [⟨429, "", .error ""⟩, ⟨200, "", .ok (.object [])⟩])
      [passAt 0 "a", passAt 60 "b"]) := by
  rw [List.forall_iff_forall_mem]
  apply spool_retried ordinary_answeringSite
  refine ⟨⟨not_crashes_of_isOk (by decide), fun _ => ?_⟩,
    ⟨not_crashes_of_isOk (by decide), fun scanned => ?_⟩, trivial⟩
  · exact postedAfterDrain_of_unsettled (by decide)
  · exact absurd scanned (by decide +kernel)

/-- The second cycle's flush is throttled and its own post is taken: the first
bundle waits for the next scan. -/
theorem spool_not_retried :
    ¬ ∀ (site : Environment String (List HttpResponse × Nat)) config base start passes,
      Ordinary site →
      EachPass site config base (fun pass state => ¬ Crashes site config pass state)
        start passes →
      ∀ state ∈ sleeps site config base start passes, Retries state := by
  intro always
  have run := always answeringSite tokenConfig 3600
    (against [⟨503, "", .error ""⟩, ⟨429, "", .error ""⟩, ⟨200, "", .ok (.object [])⟩])
    [passAt 0 "a", passAt 3600 "b"] ordinary_answeringSite
    ⟨not_crashes_of_isOk (by decide), not_crashes_of_isOk (by decide), trivial⟩
  have retried := run _ (List.mem_cons_of_mem _ (List.mem_singleton_self _))
  have waits : (loopPass answeringSite tokenConfig 3600 (passAt 3600 "b")
      (loopPass answeringSite tokenConfig 3600 (passAt 0 "a")
        (against [⟨503, "", .error ""⟩, ⟨429, "", .error ""⟩,
          ⟨200, "", .ok (.object [])⟩]))).world.box.queue.map Entry.name = [⟨0, ""⟩] := by
    decide +kernel
  have idle : (loopPass answeringSite tokenConfig 3600 (passAt 3600 "b")
      (loopPass answeringSite tokenConfig 3600 (passAt 0 "a")
        (against [⟨503, "", .error ""⟩, ⟨429, "", .error ""⟩,
          ⟨200, "", .ok (.object [])⟩]))).retries = 0 := by
    decide +kernel
  have due := (retried fun empty => by rw [empty] at waits; cases waits).1
  omega

end Agent
end PqcScan
