import PqcScan.Agent.Conservation
import PqcScan.Agent.Delivery

/-!
# Replay keeps the newest scan the latest

`report_scan` flushes the spool before it posts its own bundle, but posts it even
when the flush has left older bundles behind.  As long as that never happens to a
done bundle that is delivered, the spool is replayed in the order of the scans,
and after every request `fleet_summary` reports the scan that was scanned last.
-/

namespace PqcScan
namespace Agent

open Library Python Store Program

/-! ## What is kept -/

/-- The bundles dumped so far. -/
def dumpedIn (trace : List (Point Bytes Wire)) : List Bytes :=
  trace.filterMap fun point =>
    match point.action with
    | .dumped data => some data
    | _ => none

/-- Whenever a fresh done bundle, one that is not in the spool, has been
delivered, no done bundle waits in the spool. -/
def FreshInOrder (settings : Daemon.Settings) (trace : List (Point Bytes Wire)) : Prop :=
  ∀ point ∈ trace, ∀ server token data reply,
    point.action = .posted (.ingest server token data) reply →
    (∀ file ∈ point.box.queue, file.data ≠ data) → isDone settings data = true →
    data ∈ point.env.delivered →
      ∀ file ∈ point.box.queue, isDone settings file.data = false

/-- After every request so far the scan that was scanned last is reported. -/
def Reported (settings : Daemon.Settings) (machineId : String)
    (trace : List (Point Bytes Wire)) : Prop :=
  ∀ earlier point later, trace = earlier ++ point :: later →
    ∀ request reply, point.action = .posted request reply →
      ReportsLastScanned settings machineId (dumpedIn earlier) point.env

/-- The collector's ledger is right, and the spool lists bundles in the order of
their scans, none of them before a delivered one. -/
structure InOrder (settings : Daemon.Settings) (schedule : Schedule) (machineId : String)
    (dumped waiting : List Bytes) (world : World Bytes Wire) : Prop where
  ledger : Ledger settings machineId dumped world.env
  dumps : dumpedIn world.trace = dumped
  reported : Reported settings machineId world.trace
  names : world.box.queue.Pairwise fun left right => left.name.timeNs < right.name.timeNs
  early : ∀ file ∈ world.box.queue,
    file.name.timeNs < (schedule.name world.env.drawn).timeNs
  listed : (world.box.queue.map Entry.data).Sublist waiting
  ahead : ∀ file ∈ world.box.queue, file.data ∈ doneScans settings dumped →
    NoneLater (doneScans settings dumped) world.env.delivered file.data

/-- No request or dump. -/
def Action.isQuiet : Action Bytes → Bool
  | .dumped _ => false
  | .posted _ _ => false
  | _ => true

theorem dumpedIn_snoc (trace : List (Point Bytes Wire)) (point : Point Bytes Wire) :
    dumpedIn (trace ++ [point]) = dumpedIn trace ++ dumpedIn [point] :=
  List.filterMap_append

theorem Reported.snoc {settings : Daemon.Settings} {machineId : String}
    {trace : List (Point Bytes Wire)} {point : Point Bytes Wire}
    (reported : Reported settings machineId trace)
    (last : ∀ request reply, point.action = .posted request reply →
      ReportsLastScanned settings machineId (dumpedIn trace) point.env) :
    Reported settings machineId (trace ++ [point]) := by
  intro earlier other later place
  rcases List.eq_nil_or_concat' later with rfl | ⟨front, final, rfl⟩
  · obtain ⟨rfl, same⟩ := List.append_inj' place rfl
    obtain rfl := (List.cons.inj same).1
    exact last
  · have grouped : trace ++ [point] = (earlier ++ other :: front) ++ [final] := by
      rw [place, List.append_assoc]
      rfl
    obtain ⟨traceEq, _⟩ := List.append_inj' grouped rfl
    exact reported earlier other front traceEq

theorem FreshInOrder.earlier {settings : Daemon.Settings} {world : World Bytes Wire}
    {action : Action Bytes} {box : Spool Bytes}
    (fresh : FreshInOrder settings (world.record action box).trace) :
    FreshInOrder settings world.trace :=
  fun point member => fresh point (List.mem_append_left _ member)

section Worlds

variable {settings : Daemon.Settings} {schedule : Schedule} {machineId : String}
  {dumped waiting : List Bytes} {world : World Bytes Wire}

/-- An action that only takes files out of the spool. -/
theorem InOrder.quiet (inOrder : InOrder settings schedule machineId dumped waiting world)
    {action : Action Bytes} {box : Spool Bytes} (quiet : action.isQuiet = true)
    (fewer : box.queue.Sublist world.box.queue) :
    InOrder settings schedule machineId dumped waiting (world.record action box) where
  ledger := inOrder.ledger
  dumps := by
    have none : dumpedIn [⟨action, box, world.env⟩] = [] := by
      cases action <;> first | rfl | cases quiet
    rw [World.record, dumpedIn_snoc, none, List.append_nil]
    exact inOrder.dumps
  reported := inOrder.reported.snoc fun request reply posted => by
    rw [show action = .posted request reply from posted] at quiet
    cases quiet
  names := inOrder.names.sublist fewer
  early file member := inOrder.early file (fewer.subset member)
  listed := (fewer.map _).trans inOrder.listed
  ahead file member := inOrder.ahead file (fewer.subset member)

/-- Only the environment's and the spool's side matter. -/
theorem InOrder.congr {other : World Bytes Wire}
    (inOrder : InOrder settings schedule machineId dumped waiting world)
    (env : other.env = world.env) (box : other.box = world.box)
    (trace : other.trace = world.trace) :
    InOrder settings schedule machineId dumped waiting other := by
  obtain ⟨ledger, dumps, reported, names, early, listed, ahead⟩ := inOrder
  rw [← env] at ledger early ahead
  rw [← box] at names early listed ahead
  rw [← trace] at dumps reported
  exact ⟨ledger, dumps, reported, names, early, listed, ahead⟩

/-- The request may be posted now: it is in turn, and a done bundle it carries is
either the oldest done one in the spool or not in the spool. -/
structure Postable (settings : Daemon.Settings) (dumped : List Bytes)
    (request : Request Bytes)
    (world : World Bytes Wire) : Prop where
  inTurn : InTurn settings dumped world.env.delivered request
  placed : ∀ server token data, request = .ingest server token data →
    data ∈ doneScans settings dumped →
      (∀ file ∈ world.box.queue, file.data ∈ doneScans settings dumped →
        NotAfter (doneScans settings dumped) data file.data) ∨
        ∀ file ∈ world.box.queue, file.data ≠ data

/-- The world after a request. -/
def afterRequest (settings : Daemon.Settings) (schedule : Schedule)
    (request : Request Bytes)
    (world : World Bytes Wire) : World Bytes Wire :=
  let (env, reply) := (collectorSite settings schedule).transmit world.env request
  { world with env }.record (.posted request reply) (acknowledge request reply world.box)

theorem queue_acknowledge (request : Request Bytes) (reply : Reply) (box : Spool Bytes) :
    (acknowledge request reply box).queue = box.queue := by
  rcases acknowledge_eq request reply box with same | ⟨data, same⟩
  · rw [same]
  · rw [same]
    rfl

theorem InOrder.transmit
      (inOrder : InOrder settings schedule machineId dumped waiting world)
    (one : OneAgent settings machineId dumped) {request : Request Bytes}
    (postable : Postable settings dumped request world)
    (fresh : FreshInOrder settings (afterRequest settings schedule request world).trace) :
    InOrder settings schedule machineId dumped waiting
      (afterRequest settings schedule request world) := by
  have effect : Transmitted settings machineId dumped request world.env
      ((collectorSite settings schedule).transmit world.env request).1 :=
    inOrder.ledger.transmit one postable.inTurn
  unfold afterRequest at fresh ⊢
  generalize (collectorSite settings schedule).transmit world.env request =
    sent at effect fresh ⊢
  obtain ⟨env, reply⟩ := sent
  have queue := queue_acknowledge request reply world.box
  constructor
  · exact effect.ledger
  · dsimp only [World.record]
    rw [dumpedIn_snoc]
    exact (List.append_nil _).trans inOrder.dumps
  · apply inOrder.reported.snoc
    intro _ _ _
    rw [inOrder.dumps]
    exact effect.ledger.reports
  · exact queue.symm ▸ inOrder.names
  · intro file member
    have early := inOrder.early file (queue ▸ member)
    rw [← effect.drawn] at early
    exact early
  · exact queue.symm ▸ inOrder.listed
  · intro file member done
    replace member : file ∈ world.box.queue := queue ▸ member
    change NoneLater _ env.delivered _
    rcases effect.delivered with same | ⟨server, token, data, rfl, delivered⟩
    · rw [same]
      exact inOrder.ahead file member done
    · rw [delivered]
      apply (inOrder.ahead file member done).deliver
      intro listed
      rcases postable.placed server token data rfl listed with oldest | absent
      · exact oldest file member done
      · have unmarked :=
          fresh _ (List.mem_append_right _ List.mem_cons_self) server token data
          reply rfl (queue.symm ▸ absent) (mem_doneScans.mp listed).2
          (by rw [delivered]; simp) file (queue.symm ▸ member)
        rw [(mem_doneScans.mp done).2] at unmarked
        cases unmarked

theorem doneScans_snoc (dumped : List Bytes) (data : Bytes) :
    doneScans settings (dumped ++ [data]) =
      if isDone settings data then doneScans settings dumped ++ [data]
      else doneScans settings dumped := by
  rw [doneScans, List.filter_append]
  cases done : isDone settings data <;> simp [doneScans, done]

/-- A done bundle was not dumped before. -/
theorem OneAgent.fresh {data : Bytes}
    (one : OneAgent settings machineId (dumped ++ [data]))
    (done : isDone settings data = true) : data ∉ dumped := by
  intro member
  obtain ⟨bundle, read, _⟩ := isDone_eq_true_iff.mp done
  have apart := (List.pairwise_append.mp one.pairwise).2.2 data member data
    (List.mem_singleton_self data)
  exact apart bundle read bundle read rfl

/-- The ledger after a dump. -/
theorem Ledger.dump {wire : Wire} {data : Bytes}
    (ledger : Ledger settings machineId dumped wire)
    (one : OneAgent settings machineId (dumped ++ [data])) :
    Ledger settings machineId (dumped ++ [data]) wire := by
  refine ⟨fun other sent => List.mem_append_left _ (ledger.known other sent),
    ledger.origin, ledger.owned, fun other newest => ?_⟩
  rw [doneScans_snoc] at newest
  split at newest
  · next done =>
      rw [newestDelivered_enter fun sent =>
        one.fresh done (ledger.known data sent)] at newest
      exact ledger.latest other newest
  · exact ledger.latest other newest

/-- A bundle that is dumped goes to the end of the order. -/
theorem InOrder.dump {data : Bytes}
    (inOrder : InOrder settings schedule machineId dumped dumped world)
    (one : OneAgent settings machineId (dumped ++ [data])) :
    InOrder settings schedule machineId (dumped ++ [data]) dumped
      (world.record (.dumped data) world.box) := by
  refine ⟨inOrder.ledger.dump one, ?_, ?_, inOrder.names, inOrder.early,
    inOrder.listed, ?_⟩
  · rw [World.record, dumpedIn_snoc, inOrder.dumps]
    rfl
  · exact inOrder.reported.snoc fun _ _ posted => by cases posted
  · intro file member done
    have known : file.data ∈ dumped :=
      inOrder.listed.subset (List.mem_map_of_mem member)
    have before : file.data ∈ doneScans settings dumped :=
      mem_doneScans.mpr ⟨known, (mem_doneScans.mp done).2⟩
    rw [doneScans_snoc]
    split
    · next dataDone =>
        exact (inOrder.ahead file member before).enter before fun sent =>
          one.fresh dataDone (inOrder.ledger.known data sent)
    · exact inOrder.ahead file member before

/-- The first file of the spool may be posted. -/
theorem InOrder.postable_first
      (inOrder : InOrder settings schedule machineId dumped waiting world)
    (one : OneAgent settings machineId dumped) (within : waiting.Sublist dumped)
    {file : SpoolFile Bytes} {rest : List (SpoolFile Bytes)}
    (queue : world.box.queue = file :: rest) (server token : String) :
    Postable settings dumped (.ingest server token file.data) world := by
  have listed : ((file :: rest).map Entry.data).Sublist dumped := by
    rw [← queue]
    exact inOrder.listed.trans within
  have here : file ∈ world.box.queue := queue ▸ List.mem_cons_self
  refine ⟨⟨listed.subset List.mem_cons_self, inOrder.ahead file here⟩, ?_⟩
  rintro _ _ _ ⟨⟩ done
  refine Or.inl fun other member otherDone => ?_
  have doneListed := listed.filter (isDone settings)
  rw [List.map_cons, List.filter_cons_of_pos (mem_doneScans.mp done).2] at doneListed
  apply notAfter_of_sublist one.nodup doneListed
  rw [queue] at member
  rcases List.mem_cons.mp member with rfl | later
  · exact List.mem_cons_self
  · exact List.mem_cons_of_mem _ (List.mem_filter.mpr
      ⟨List.mem_map_of_mem later, (mem_doneScans.mp otherDone).2⟩)

theorem noneLater_dumped {delivered : List Bytes} {data : Bytes}
    (one : OneAgent settings machineId (dumped ++ [data]))
    (done : isDone settings data = true) :
    NoneLater (doneScans settings (dumped ++ [data])) delivered data := by
  rw [doneScans_snoc, if_pos done]
  apply noneLater_last
  intro listed
  exact one.fresh done (mem_doneScans.mp listed).1

/-- The bundle dumped last may be posted. -/
theorem InOrder.postable_fresh {data : Bytes}
    (inOrder : InOrder settings schedule machineId (dumped ++ [data]) dumped world)
    (one : OneAgent settings machineId (dumped ++ [data])) (server token : String) :
    Postable settings (dumped ++ [data]) (.ingest server token data) world := by
  refine ⟨⟨List.mem_append_right _ (List.mem_singleton_self data), fun done => ?_⟩, ?_⟩
  · exact noneLater_dumped one (mem_doneScans.mp done).2
  · rintro _ _ _ ⟨⟩ done
    refine Or.inr fun file member same => ?_
    have known : file.data ∈ dumped :=
      inOrder.listed.subset (List.mem_map_of_mem member)
    exact one.fresh (mem_doneScans.mp done).2 (same ▸ known)

/-- The bundle dumped last goes to the end of the spool. -/
theorem InOrder.spool {data : Bytes}
    (inOrder : InOrder settings schedule machineId (dumped ++ [data]) dumped world)
    (one : OneAgent settings machineId (dumped ++ [data])) :
    InOrder settings schedule machineId (dumped ++ [data]) (dumped ++ [data])
      ({ world with env := { world.env with drawn := world.env.drawn + 1 } }.record
        (.spooled (schedule.name world.env.drawn))
        (world.box.enqueue ⟨schedule.name world.env.drawn, data⟩)) := by
  refine ⟨⟨inOrder.ledger.known, inOrder.ledger.origin, inOrder.ledger.owned,
    inOrder.ledger.latest⟩, ?_, ?_, ?_, ?_, ?_, ?_⟩
  · dsimp only [World.record]
    rw [dumpedIn_snoc, inOrder.dumps]
    exact List.append_nil _
  · exact inOrder.reported.snoc fun _ _ posted => by cases posted
  · refine List.pairwise_append.mpr ⟨inOrder.names, List.pairwise_singleton _ _, ?_⟩
    intro file member last lastMember
    rw [List.mem_singleton.mp lastMember]
    exact inOrder.early file member
  · intro file member
    have increases := schedule.nameIncreases world.env.drawn
    rcases List.mem_append.mp member with earlier | last
    · exact (inOrder.early file earlier).trans increases
    · rw [List.mem_singleton.mp last]
      exact increases
  · change ((world.box.queue ++ [_]).map Entry.data).Sublist _
    rw [List.map_append]
    exact inOrder.listed.append (List.Sublist.refl _)
  · intro file member done
    rcases List.mem_append.mp member with earlier | last
    · exact inOrder.ahead file earlier done
    · rw [List.mem_singleton.mp last] at done ⊢
      exact noneLater_dumped one (mem_doneScans.mp done).2

end Worlds

/-! ## Programs -/

section Programs

variable {settings : Daemon.Settings} {schedule : Schedule} {machineId : String}
  {dumped waiting : List Bytes}

/-- Runs whose fresh deliveries are in order. -/
def Allowed (settings : Daemon.Settings) (world : World Bytes Wire) : Prop :=
  FreshInOrder settings world.trace

/-- Nothing on the agent's machine fails. -/
theorem execute_perform_collector (op : LocalOp) (world : World Bytes Wire) :
    (perform (collectorSite settings schedule) op).execute world = (.ok (), world) :=
  execute_perform op world

theorem perform_keeps (op : LocalOp) {pre : World Bytes Wire → Prop} :
    Ensures (Allowed settings) pre (perform (collectorSite settings schedule) op)
      fun outcome world => outcome = .ok () ∧ pre world := by
  constructor
  · intro world good
    rw [execute_perform_collector] at good
    exact good
  · intro world _ meets
    rw [execute_perform_collector]
    exact ⟨rfl, meets⟩

/-- A request that may be posted. -/
theorem transmit_keeps (one : OneAgent settings machineId dumped)
    (request : Request Bytes)
    (queue : List (SpoolFile Bytes)) :
    Ensures (Allowed settings)
      (fun world => InOrder settings schedule machineId dumped waiting world ∧
        Postable settings dumped request world ∧ world.box.queue = queue)
      (transmit (collectorSite settings schedule) request)
      fun outcome world => (InOrder settings schedule machineId dumped waiting world ∧
        world.box.queue = queue) ∧
        ∃ env, outcome = .ok
          ((collectorSite settings schedule).transmit env request).2 := by
  refine ensures_update (fun world good => good.earlier) (fun world good meets => ?_)
  obtain ⟨inOrder, postable, same⟩ := meets
  exact ⟨⟨inOrder.transmit one postable good, (queue_acknowledge _ _ _).trans same⟩,
    world.env, rfl⟩

/-- The program keeps the order, whatever waits. -/
abbrev KeepsOrder (settings : Daemon.Settings) (schedule : Schedule) (machineId : String)
    (dumped waiting : List Bytes) (program : Program Bytes Wire α) : Prop :=
  Keeps (Allowed settings) (InOrder settings schedule machineId dumped waiting) program

theorem perform_keepsOrder (op : LocalOp) :
    KeepsOrder settings schedule machineId dumped waiting
      (perform (collectorSite settings schedule) op) :=
  (perform_keeps op).weaken (fun _ meets => meets) fun _ _ meets => meets.2

/-- An update that leaves the environment, the spool and the trace as they are. -/
theorem quiet_keepsOrder {change : World Bytes Wire → α × World Bytes Wire}
    (env : ∀ world, (change world).2.env = world.env)
    (box : ∀ world, (change world).2.box = world.box)
    (trace : ∀ world, (change world).2.trace = world.trace) :
    KeepsOrder settings schedule machineId dumped waiting
      (Program.update change : Program Bytes Wire α) := by
  refine ensures_update (fun world good => ?_) (fun world _ inOrder => ?_)
  · unfold Allowed at good ⊢
    rw [trace] at good
    exact good
  · exact inOrder.congr (env world) (box world) (trace world)

theorem enroll_keepsOrder (one : OneAgent settings machineId dumped)
    (server enrollToken : String) (identity : HostIdentity) :
    KeepsOrder settings schedule machineId dumped waiting
      (transmit (collectorSite settings schedule)
        (.enroll server enrollToken identity)) := by
  refine ensures_update (fun world good => good.earlier) (fun world good inOrder => ?_)
  exact inOrder.transmit one ⟨trivial, by rintro _ _ _ ⟨⟩⟩ good

theorem raiseFor_keepsOrder (config : AgentConfig) (response : HttpResponse) :
    KeepsOrder settings schedule machineId dumped waiting
      (raiseFor config response : Program Bytes Wire Unit) := by
  unfold raiseFor
  split
  · exact keeps_throw _
  · exact keeps_pure _

theorem storedToken_keepsOrder :
    KeepsOrder settings schedule machineId dumped waiting
      (storedToken (collectorSite settings schedule)) := by
  unfold storedToken
  refine Keeps.bind (quiet_keepsOrder (fun _ => rfl) (fun _ => rfl) fun _ =>
    rfl) fun content => ?_
  cases content with
  | none => exact keeps_pure _
  | some content => exact (perform_keepsOrder _).bind fun _ => keeps_pure _

theorem writeToken_keepsOrder (token : String) :
    KeepsOrder settings schedule machineId dumped waiting
      (writeToken (collectorSite settings schedule) token) := by
  unfold writeToken
  refine Keeps.attempt_bind (perform_keepsOrder _) fun outcome => ?_
  cases outcome with
  | ok => exact quiet_keepsOrder (fun _ => rfl) (fun _ => rfl) fun _ => rfl
  | error error =>
      refine Keeps.bind (quiet_keepsOrder (fun _ => rfl) (fun _ => rfl) fun _ =>
        rfl) fun _ => ?_
      exact keeps_throw _

theorem unlinkToken_keepsOrder :
    KeepsOrder settings schedule machineId dumped waiting
      (unlinkToken (collectorSite settings schedule)) := by
  unfold unlinkToken
  exact (perform_keepsOrder _).bind fun _ =>
    quiet_keepsOrder (fun _ => rfl) (fun _ => rfl) fun _ => rfl

theorem ensureAgentToken_keepsOrder (one : OneAgent settings machineId dumped)
    (config : AgentConfig) :
    KeepsOrder settings schedule machineId dumped waiting
      (ensureAgentToken (collectorSite settings schedule) config) := by
  unfold ensureAgentToken
  refine Keeps.bind storedToken_keepsOrder fun stored => ?_
  cases stored with
  | some token => exact keeps_pure _
  | none =>
  dsimp only
  split
  · exact keeps_throw _
  · refine Keeps.bind (enroll_keepsOrder one _ _ _) fun reply => ?_
    cases reply with
    | failed message => exact keeps_throw _
    | raised error => exact keeps_throw _
    | response response =>
        refine Keeps.bind (raiseFor_keepsOrder config response) fun _ => ?_
        split
        · exact keeps_throw _
        · exact keeps_throw _
        · refine Keeps.attempt_bind (writeToken_keepsOrder _) fun written => ?_
          split
          · exact keeps_pure _
          · exact keeps_throw _
          · exact keeps_throw _

/-! ### Posting -/

/-- A `ReportError` after which a flush puts the file aside or stops. -/
def Settles (error : AgentError) : Prop :=
  ∃ status, error.status? = some status ∧
    (permanentRejects.contains status = true ∨ stopsPass status = true)

/-- No status of success is one of refusal. -/
theorem not_success_of_settles {status : Nat}
    (settles : permanentRejects.contains status = true ∨ stopsPass status = true) :
    status / 100 ≠ 2 := by
  simp only [permanentRejects, stopsPass, List.contains_cons, List.contains_nil,
    Bool.or_false, Bool.or_eq_true, beq_iff_eq, decide_eq_true_iff] at settles
  omega

theorem raiseFor_keeps {pre : World Bytes Wire → Prop} (config : AgentConfig)
    (response : HttpResponse) :
    Ensures (Allowed settings) pre (raiseFor config response : Program Bytes Wire Unit)
      fun outcome world => pre world ∧
        (outcome = .ok () → response.status / 100 = 2) ∧
        ∀ error, outcome = .error error →
          response.status / 100 ≠ 2 ∧ ∃ detail,
            error = .report response.status detail := by
  unfold raiseFor
  split
  · next failed =>
      refine ensures_throw fun world _ meets => ⟨meets, nofun, ?_⟩
      rintro _ ⟨⟩
      exact ⟨failed, _, rfl⟩
  · next success => exact ensures_pure fun world _ meets =>
      ⟨meets, fun _ => by omega, nofun⟩

/-- A post keeps the order and the queue; when it fails, the error
settles what a flush does. -/
theorem postBundle_keeps (one : OneAgent settings machineId dumped) (config : AgentConfig)
    (token : String) (data : Bytes) (queue : List (SpoolFile Bytes)) :
    Ensures (Allowed settings)
      (fun world => InOrder settings schedule machineId dumped waiting world ∧
        Postable settings dumped (.ingest config.server token data) world ∧
        world.box.queue = queue)
      (postBundle (collectorSite settings schedule) config token data)
      fun outcome world => (InOrder settings schedule machineId dumped waiting world ∧
        world.box.queue = queue) ∧ ∀ error, outcome = .error error → Settles error := by
  unfold postBundle
  refine (transmit_keeps one _ queue).bind (fun reply => ?_) ?_
  · have orderly : (∃ env, (Except.ok reply : Except AgentError Reply) =
        .ok ((collectorSite settings schedule).transmit env
          (.ingest config.server token data)).2) → Orderly reply := by
      rintro ⟨env, same⟩
      cases same
      exact transmit_orderly env config.server token data
    cases reply with
    | failed message =>
        refine ensures_throw fun world _ meets => ⟨meets.1, ?_⟩
        rintro _ ⟨⟩
        exact ⟨0, rfl, Or.inr (by decide)⟩
    | raised error => exact ensures_throw fun world _ meets => (orderly meets.2).elim
    | response response =>
        refine (raiseFor_keeps config response).bind (fun _ => ?_) ?_
        · split
          · exact ensures_pure fun world _ meets => ⟨meets.1.1, nofun⟩
          · next other notObject parsed =>
              refine ensures_throw fun world _ meets => ?_
              obtain ⟨⟨_, sent⟩, success, _⟩ := meets
              rcases orderly sent with ⟨_, members, isObject⟩ | settles
              · rw [parsed, Except.ok.injEq] at isObject
                exact absurd isObject (notObject members)
              · exact absurd (success rfl) (not_success_of_settles settles)
          · next cause parsed =>
              refine ensures_throw fun world _ meets => ?_
              obtain ⟨⟨_, sent⟩, success, _⟩ := meets
              rcases orderly sent with ⟨_, members, isObject⟩ | settles
              · rw [parsed] at isObject
                cases isObject
              · exact absurd (success rfl) (not_success_of_settles settles)
        · rintro error world _ ⟨⟨kept, sent⟩, _, failed⟩
          refine ⟨kept, ?_⟩
          rintro _ ⟨⟩
          obtain ⟨unsuccessful, detail, rfl⟩ := failed error rfl
          rcases orderly sent with ⟨success, _⟩ | settles
          · exact absurd success unsuccessful
          · exact ⟨response.status, rfl, settles⟩
  · rintro error world _ ⟨_, env, ⟨⟩⟩

/-! ### Flushing -/

theorem execute_unlinkSpool (name : SpoolName) (world : World Bytes Wire) :
    (unlinkSpool (collectorSite settings schedule) name).execute world =
      (.ok (), world.record (.unlinked name) (world.box.remove name)) := rfl

theorem execute_quarantine (name : SpoolName) (world : World Bytes Wire) :
    (quarantine (collectorSite settings schedule) name).execute world =
      (.ok (), world.record (.quarantined name) (world.box.bury name)) := rfl

/-- A file that leaves the front of the spool leaves the others there. -/
theorem filter_front {file : SpoolFile Bytes} {rest : List (SpoolFile Bytes)}
    (names : (file :: rest).Pairwise fun left right =>
      left.name.timeNs < right.name.timeNs) :
    (file :: rest).filter (·.name != file.name) = rest := by
  rw [List.filter_cons_of_neg (by simp), List.filter_eq_self]
  intro other member
  have later := List.rel_of_pairwise_cons names member
  rw [bne_iff_ne]
  intro same
  rw [same] at later
  omega

theorem queue_remove (name : SpoolName) (box : Spool Bytes) :
    (box.remove name).queue = box.queue.filter (·.name != name) := rfl

theorem queue_bury (name : SpoolName) (box : Spool Bytes) :
    (box.bury name).queue = box.queue.filter (·.name != name) := rfl

/-- Taking the first file out of the spool. -/
theorem takeFront_keeps {program : Program Bytes Wire Unit} {file : SpoolFile Bytes}
    {rest : List (SpoolFile Bytes)} {action : Action Bytes}
    {change : Spool Bytes → Spool Bytes}
    (execute : ∀ world,
      program.execute world = (.ok (), world.record action (change world.box)))
    (quiet : action.isQuiet = true)
    (removes : ∀ box, (change box).queue = box.queue.filter (·.name != file.name)) :
    Ensures (Allowed settings)
      (fun world => InOrder settings schedule machineId dumped waiting world ∧
        world.box.queue = file :: rest) program
      fun outcome world => outcome = .ok () ∧
        InOrder settings schedule machineId dumped waiting world ∧
        world.box.queue = rest := by
  constructor
  · intro world good
    rw [execute] at good
    exact FreshInOrder.earlier good
  · rintro world _ ⟨inOrder, queue⟩
    rw [execute]
    refine ⟨rfl, inOrder.quiet quiet ?_, ?_⟩
    · rw [removes]
      exact List.filter_sublist
    · have names := inOrder.names
      rw [queue] at names
      change (change world.box).queue = rest
      rw [removes, queue, filter_front names]

/-- One file of a flush: the loop goes on only with the file gone. -/
theorem flushFile_keeps (one : OneAgent settings machineId dumped)
    (within : waiting.Sublist dumped) (config : AgentConfig) (token : String)
    (file : SpoolFile Bytes) (rest : List (SpoolFile Bytes)) (tally : Tally) :
    Ensures (Allowed settings)
      (fun world => InOrder settings schedule machineId dumped waiting world ∧
        world.box.queue = file :: rest)
      (flushFile (collectorSite settings schedule) config token file tally)
      fun outcome world => InOrder settings schedule machineId dumped waiting world ∧
        ∀ counts, outcome = .ok (counts, true) → world.box.queue = rest := by
  unfold flushFile
  have posted : Ensures (Allowed settings)
      (fun world => InOrder settings schedule machineId dumped waiting world ∧
        world.box.queue = file :: rest)
      (do
        perform (collectorSite settings schedule) (.readSpool file.name)
        let _ ← postBundle (collectorSite settings schedule) config token file.data)
      fun outcome world => (InOrder settings schedule machineId dumped waiting world ∧
        world.box.queue = file :: rest) ∧
          ∀ error, outcome = .error error → Settles error := by
    refine (perform_keeps _).bind (fun _ => ?_) ?_
    · refine Ensures.bind
        ((postBundle_keeps one config token file.data (file :: rest)).assume ?_)
        (fun _ => ensures_pure fun world _ meets => ⟨meets.1, nofun⟩) ?_
      · rintro world ⟨_, inOrder, queue⟩
        exact ⟨inOrder, inOrder.postable_first one within queue _ _, queue⟩
      · rintro error world _ ⟨kept, settles⟩
        refine ⟨kept, ?_⟩
        rintro _ ⟨⟩
        exact settles error rfl
    · rintro error world _ ⟨⟨⟩, _⟩
  refine posted.attempt_bind fun outcome => ?_
  split
  · refine ((takeFront_keeps
      (execute_unlinkSpool file.name) rfl (queue_remove file.name)).assume
      fun _ meets => meets.1).attempt_bind fun unlinked => ?_
    split
    · exact ensures_pure fun world _ meets => ⟨meets.2.1, fun _ _ => meets.2.2⟩
    · exact ensures_pure fun world _ meets => ⟨meets.2.1, fun _ _ => meets.2.2⟩
    · exact ensures_throw fun world _ meets => ⟨meets.2.1, fun _ _ => meets.2.2⟩
  · refine ensures_pure fun world _ meets => ⟨meets.1.1, fun _ _ => ?_⟩
    obtain ⟨_, ⟨⟩, _⟩ := meets.2 _ rfl
  · next error _ =>
      cases known : error.status? with
      | none => exact ensures_throw fun world _ meets => ⟨meets.1.1, nofun⟩
      | some status =>
      dsimp only
      split
      · refine ((takeFront_keeps (execute_quarantine file.name) rfl
          (queue_bury file.name)).assume fun _ meets =>
            meets.1).attempt_bind fun buried => ?_
        split
        · exact ensures_pure fun world _ meets => ⟨meets.2.1, fun _ _ => meets.2.2⟩
        · exact ensures_pure fun world _ meets => ⟨meets.2.1, fun _ _ => meets.2.2⟩
        · exact ensures_throw fun world _ meets => ⟨meets.2.1, fun _ _ => meets.2.2⟩
      · next notPermanent =>
          refine ensures_pure fun world _ meets => ⟨meets.1.1, fun counts goesOn => ?_⟩
          obtain ⟨_, sameStatus, decided⟩ := meets.2 error rfl
          rw [known, Option.some_inj] at sameStatus
          subst sameStatus
          rw [decided.resolve_left notPermanent] at goesOn
          cases goesOn

/-- The files of a flush, in the order of the spool. -/
theorem flushFiles_keeps (one : OneAgent settings machineId dumped)
    (within : waiting.Sublist dumped) (config : AgentConfig) (token : String)
    (files : List (SpoolFile Bytes)) (tally : Tally) :
    Ensures (Allowed settings)
      (fun world => InOrder settings schedule machineId dumped waiting world ∧
        world.box.queue = files)
      (flushFiles (collectorSite settings schedule) config token files tally)
      fun _ world => InOrder settings schedule machineId dumped waiting world := by
  induction files generalizing tally with
  | nil => exact ensures_pure fun world _ meets => meets.1
  | cons file rest inductionHypothesis =>
      refine (flushFile_keeps one within config token file rest tally).bind ?_
        fun _ world _ meets => meets.1
      rintro ⟨counts, goesOn⟩
      cases goesOn with
      | false => exact ensures_pure fun world _ meets => meets.1
      | true =>
          apply (inductionHypothesis counts).assume
          intro world meets
          exact ⟨meets.1, meets.2 counts rfl⟩

/-- A spool in the order of its names is flushed in its order. -/
theorem InOrder.sortedFiles_eq {world : World Bytes Wire}
    (inOrder : InOrder settings schedule machineId dumped waiting world) :
    sortedFiles world.box = world.box.queue := by
  apply List.Pairwise.insertionSort_eq
  apply inOrder.names.imp
  intro left right earlier
  simp [SpoolName.le, earlier]

theorem flushSpool_keeps (one : OneAgent settings machineId dumped)
    (within : waiting.Sublist dumped) (config : AgentConfig) (token : String) :
    KeepsOrder settings schedule machineId dumped waiting
      (flushSpool (collectorSite settings schedule) config token) := by
  unfold flushSpool
  have reads : Ensures (Allowed settings)
      (InOrder settings schedule machineId dumped waiting)
      (Program.update fun world => (sortedFiles world.box, world) :
        Program Bytes Wire (List (SpoolFile Bytes)))
      fun outcome world => InOrder settings schedule machineId dumped waiting world ∧
        ∀ files, outcome = .ok files → world.box.queue = files := by
    refine ensures_update (fun _ good => good) fun world _ inOrder => ⟨inOrder, ?_⟩
    rintro _ ⟨⟩
    exact inOrder.sortedFiles_eq.symm
  refine reads.bind (fun files => ?_) fun _ world _ meets => meets.1
  refine ((flushFiles_keeps one within config token files ⟨0, 0, 0⟩).assume
    fun world meets => ⟨meets.1, meets.2 files rfl⟩).bind (fun tally => ?_)
    fun _ world _ meets => meets
  refine Keeps.bind ?_ fun _ => keeps_pure _
  refine ensures_update (fun world good => good.earlier) fun world _ inOrder => ?_
  exact inOrder.quiet rfl (List.Sublist.refl _)

/-! ### Reporting -/

section Reports

variable {data : Bytes}

/-- The bundle is posted after the spool was flushed. -/
theorem postFlushed_keeps (one : OneAgent settings machineId (dumped ++ [data]))
    (config : AgentConfig) (token : String) :
    KeepsOrder settings schedule machineId (dumped ++ [data]) dumped
      (do
        let _ ← flushSpool (collectorSite settings schedule) config token
        match ← Program.attempt
          (postBundle (collectorSite settings schedule) config token data) with
        | .ok body => pure body
        | .error (.report status detail) =>
            if permanentRejects.contains status then
              throw (.permanentReject status s!"{detail} (permanent rejection)")
            else throw (.report status detail)
        | .error error => throw error) := by
  refine Keeps.bind
    (flushSpool_keeps one (List.sublist_append_left dumped [data]) config token)
    fun _ => ?_
  refine Keeps.attempt_bind ?_ fun outcome => ?_
  · refine @Ensures.remember _ _ _ _ _ _ _ (fun world : World Bytes Wire =>
      world.box.queue) _
      fun queue => ?_
    apply (postBundle_keeps one config token data queue).weaken
    · exact fun world meets => ⟨meets.1, meets.1.postable_fresh one _ _, meets.2⟩
    · exact fun outcome world meets => meets.1.1
  · split
    · exact keeps_pure _
    · split
      · exact keeps_throw _
      · exact keeps_throw _
    · exact keeps_throw _

theorem send_keeps (one : OneAgent settings machineId (dumped ++ [data]))
    (config : AgentConfig) :
    KeepsOrder settings schedule machineId (dumped ++ [data]) dumped
      (send (collectorSite settings schedule) config data) := by
  have posts := @postFlushed_keeps settings schedule machineId dumped data one config
  unfold send
  cases given config.agentToken with
  | some token => exact (keeps_pure token).bind posts
  | none => exact (ensureAgentToken_keepsOrder one config).bind posts

theorem sendOrReenroll_keeps (one : OneAgent settings machineId (dumped ++ [data]))
    (config : AgentConfig) :
    KeepsOrder settings schedule machineId (dumped ++ [data]) dumped
      (sendOrReenroll (collectorSite settings schedule) config data) := by
  unfold sendOrReenroll
  refine Keeps.attempt_bind (send_keeps one config) fun outcome => ?_
  split
  · exact keeps_pure _
  · split
    · split
      · exact keeps_throw _
      · refine Keeps.bind unlinkToken_keepsOrder fun _ => ?_
        exact (perform_keepsOrder _).bind fun _ => send_keeps one config
    · exact keeps_throw _

theorem execute_spoolBundle (world : World Bytes Wire) :
    (spoolBundle (collectorSite settings schedule) data).execute world =
      (.ok (), { world with env := { world.env with drawn := world.env.drawn +
        1 } }.record
        (.spooled (schedule.name world.env.drawn))
        (world.box.enqueue ⟨schedule.name world.env.drawn, data⟩)) := rfl

theorem spoolBundle_keeps (one : OneAgent settings machineId (dumped ++ [data])) :
    Ensures (Allowed settings)
      (InOrder settings schedule machineId (dumped ++ [data]) dumped)
      (spoolBundle (collectorSite settings schedule) data)
      fun outcome world => outcome = .ok () ∧
        InOrder settings schedule machineId (dumped ++ [data])
        (dumped ++ [data]) world := by
  constructor
  · intro world good
    rw [execute_spoolBundle] at good
    exact fun point member => good point (List.mem_append_left _ member)
  · intro world _ inOrder
    rw [execute_spoolBundle]
    exact ⟨rfl, inOrder.spool one⟩

theorem InOrder.wait {other : List Bytes} {world : World Bytes Wire}
    (inOrder : InOrder settings schedule machineId dumped waiting world)
    (within : waiting.Sublist other) :
    InOrder settings schedule machineId dumped other world :=
  { inOrder with listed := inOrder.listed.trans within }

theorem reportScan_keeps (one : OneAgent settings machineId (dumped ++ [data]))
    (config : AgentConfig) :
    Ensures (Allowed settings) (InOrder settings schedule machineId dumped dumped)
      (reportScan (collectorSite settings schedule) config (.ok data))
      fun _ world =>
        InOrder settings schedule machineId (dumped ++ [data])
        (dumped ++ [data]) world := by
  have within : dumped.Sublist (dumped ++ [data]) :=
    List.sublist_append_left dumped [data]
  unfold reportScan
  have dumps : Ensures (Allowed settings)
      (InOrder settings schedule machineId dumped dumped)
      (recordBox (.dumped data) id : Program Bytes Wire Unit)
      fun outcome world => outcome = .ok () ∧
        InOrder settings schedule machineId (dumped ++ [data]) dumped world :=
    ensures_update (fun world good => good.earlier) fun world _ inOrder =>
      ⟨rfl, inOrder.dump one⟩
  refine dumps.bind (fun _ => ?_) (by rintro _ _ _ ⟨⟨⟩, _⟩)
  refine ((sendOrReenroll_keeps one config).assume fun _ meets => meets.2).attempt_bind
    fun outcome => ?_
  split
  · exact ensures_pure fun world _ inOrder => inOrder.wait within
  · refine Keeps.bind ?_ (fun _ => keeps_throw _) |>.weaken (fun _ inOrder =>
      inOrder.wait within)
      fun _ _ inOrder => inOrder
    exact ensures_update (fun world good => good.earlier) fun world _ inOrder =>
      inOrder.quiet rfl (List.Sublist.refl _)
  · refine (spoolBundle_keeps one).attempt_bind fun spooled => ?_
    split
    · exact ensures_pure fun world _ meets => meets.2
    · exact ensures_throw fun world _ meets => meets.2

end Reports

theorem flushOnly_keeps (one : OneAgent settings machineId dumped) (config : AgentConfig)
    (prepared : Except AgentError Unit) :
    KeepsOrder settings schedule machineId dumped dumped
      (flushOnly (collectorSite settings schedule) config prepared) := by
  unfold flushOnly
  refine Keeps.attempt_bind ?_ fun flushed => ?_
  · rcases prepared with error | ⟨⟩
    · exact keeps_throw _
    · exact (ensureAgentToken_keepsOrder one config).bind fun token =>
        flushSpool_keeps one (List.Sublist.refl _) config token
  · split
    · exact keeps_pure _
    · split
      · exact keeps_pure _
      · exact keeps_throw _

/-! ## Runs -/

/-- One call. -/
theorem call_keeps (call : Call Bytes)
    (one : OneAgent settings machineId (dumped ++ call.dumps.toList)) :
    Ensures (Allowed settings) (InOrder settings schedule machineId dumped dumped)
      (call.program (collectorSite settings schedule)) fun _ world =>
        InOrder settings schedule machineId (dumped ++ call.dumps.toList)
          (dumped ++ call.dumps.toList) world := by
  cases call with
  | report config prepared =>
      cases prepared with
      | error error =>
          rw [show dumped ++ (Call.report config (.error error)).dumps.toList =
            dumped from
            List.append_nil dumped]
          exact Keeps.bind (keeps_throw error) fun _ => keeps_pure _
      | ok data =>
          refine (reportScan_keeps one config).bind (fun _ => keeps_pure _) ?_
          exact fun _ _ _ meets => meets
  | flush config token =>
      rw [show dumped ++ (Call.flush config token).dumps.toList = dumped from
        List.append_nil dumped] at one ⊢
      exact Keeps.bind (flushSpool_keeps one (List.Sublist.refl _) config token)
        fun _ => keeps_pure _
  | tick config prepared =>
      rw [show dumped ++ (Call.tick config prepared).dumps.toList = dumped from
        List.append_nil dumped] at one ⊢
      exact Keeps.bind (flushOnly_keeps one config prepared) fun _ => keeps_pure _

/-- Every sequence of calls. -/
theorem runCalls_keeps (calls : List (Call Bytes)) (world : World Bytes Wire)
    (one : OneAgent settings machineId (dumped ++ calls.filterMap Call.dumps))
    (allowed : Allowed settings
      (runCalls (collectorSite settings schedule) world calls)) :
    Allowed settings world ∧
      (InOrder settings schedule machineId dumped dumped world →
        InOrder settings schedule machineId (dumped ++ calls.filterMap Call.dumps)
          (dumped ++ calls.filterMap Call.dumps)
          (runCalls (collectorSite settings schedule) world calls)) := by
  induction calls generalizing dumped world with
  | nil => exact ⟨allowed, fun inOrder => (List.append_nil dumped).symm ▸ inOrder⟩
  | cons call rest inductionHypothesis =>
      have grouped : dumped ++ (call :: rest).filterMap Call.dumps =
          (dumped ++ call.dumps.toList) ++ rest.filterMap Call.dumps := by
        rw [List.append_assoc]
        cases dumps : call.dumps <;> simp [dumps]
      rw [grouped] at one ⊢
      obtain ⟨between, later⟩ := inductionHypothesis _ one allowed
      have triple : Ensures (Allowed settings) _
          (call.program (collectorSite settings schedule)) _ :=
        call_keeps call one.of_append
      exact ⟨triple.earlier world between, fun inOrder =>
        later (triple.holds world between inOrder)⟩

theorem inOrder_initial {start : Database} (empty : start.scans.rows = []) :
    InOrder settings schedule machineId [] [] (World.initial ⟨start, [], 0, 0⟩) := by
  have none : ∀ scan, scan ∉ start.scans := by
    intro scan member
    rw [Table.mem_iff, empty] at member
    cases member
  refine ⟨⟨nofun, ?_, ?_, nofun⟩, rfl, ?_, List.Pairwise.nil, nofun,
    List.Sublist.refl _, nofun⟩
  · exact fun scan member => (none scan member).elim
  · exact fun scan member => (none scan member).elim
  · intro earlier point later place
    cases earlier <;> cases place

end Programs

/-- In every run of one agent whose fresh deliveries are in order, after every
request the scan scanned last of the delivered done ones is reported. -/
theorem newest_scanned_is_latest (settings : Daemon.Settings) (schedule : Schedule)
    (machineId : String) (start : Database) (calls : List (Call Bytes))
    (empty : start.scans.rows = [])
    (one : OneAgent settings machineId (calls.filterMap Call.dumps))
    (fresh : FreshInOrder settings (runCalls (collectorSite settings schedule)
      (World.initial ⟨start, [], 0, 0⟩) calls).trace) :
    Reported settings machineId (runCalls (collectorSite settings schedule)
      (World.initial ⟨start, [], 0, 0⟩) calls).trace := by
  rw [← List.nil_append (calls.filterMap Call.dumps)] at one
  have kept := runCalls_keeps calls (World.initial ⟨start, [], 0, 0⟩) one fresh
  exact (kept.2 (inOrder_initial empty)).reported

/-! ## Two scans of one machine -/

/-- The two scans. -/
def scanOne : Document := Daemon.scanDocument "m1" "u1" [148, 227, 223, 116]

/-- The second scan of the sample. -/
def scanTwo : Document := Daemon.scanDocument "m1" "u2" [164, 54, 219, 18]

/-- The machine that enrolls with the collector's token. -/
def enrollingConfig : AgentConfig where
  text := asciiText
  server := "https://collector"
  enrollToken := some "secret"
  agentToken := none
  identity := ⟨"m1", "", "", Dict.empty, ""⟩
  stateDir := "agent"

/-- A collector that reads the enrollment and both scans. -/
def replaySettings : Daemon.Settings :=
  Daemon.sampleSettings
    [⟨enrollBody "secret" enrollingConfig.identity, []⟩, scanOne, scanTwo] 30

/-- The requests of the given numbers never reach the collector. -/
def lossySchedule (lost : List Nat) : Schedule where
  fate count := if lost.contains count then .unreached (.connectionFailed "timed out")
    else .answered
  draws _ := Daemon.sampleDraws "t1"
  name count := ⟨count, ""⟩
  nameIncreases count := Nat.lt_succ_self count
  encode body := Document.raw ⟨body, []⟩

/-- Two reports, and the next tick. -/
def twoReports : List (Call Bytes) :=
  [.report enrollingConfig (.ok scanOne.data), .report enrollingConfig (.ok scanTwo.data),
    .tick enrollingConfig (.ok ())]

/-- The run in which the given requests are lost. -/
def lossyRun (lost : List Nat) : World Bytes Wire :=
  runCalls (collectorSite replaySettings (lossySchedule lost))
    (World.initial ⟨Database.empty, [], 0, 0⟩) twoReports

theorem oneAgent_twoReports :
    OneAgent replaySettings "m1" (twoReports.filterMap Call.dumps) := by
  constructor
  · have machines : ∀ data ∈ twoReports.filterMap Call.dumps,
        ((bundleIn replaySettings data).map fun bundle => bundle.host.machineId) =
          some "m1" := by
      decide +kernel
    intro data member bundle read
    have stated := machines data member
    rw [read] at stated
    exact Option.some_inj.mp stated
  · decide +kernel

/-- A run that never spools. -/
theorem freshInOrder_of_empty {settings : Daemon.Settings}
    {trace : List (Point Bytes Wire)}
    (empty : (trace.all fun point => point.box.queue.isEmpty) = true) :
    FreshInOrder settings trace := by
  intro point member _ _ _ _ _ _ _ _ file waits
  rw [List.isEmpty_iff.mp (List.all_eq_true.mp empty point member)] at waits
  cases waits

/-- The action is a request. -/
def Action.isPosted : Action Bytes → Bool
  | .posted _ _ => true
  | _ => false

theorem Reported.at_index {settings : Daemon.Settings} {machineId : String}
    {points : List (Point Bytes Wire)} (reported : Reported settings machineId points)
    {index : Nat} {point : Point Bytes Wire} (here : points[index]? = some point)
    (posts : point.action.isPosted = true) :
    ReportsLastScanned settings machineId (dumpedIn (points.take index)) point.env := by
  obtain ⟨within, rfl⟩ := List.getElem?_eq_some_iff.mp here
  have place : points =
      points.take index ++ points[index] :: points.drop (index + 1) := by simp
  cases action : points[index].action with
  | posted request reply => exact reported _ _ _ place request reply action
  | _ =>
      rw [action] at posts
      cases posts

theorem newest_scanned_is_latest_answered :
    Reported replaySettings "m1" (lossyRun []).trace :=
  newest_scanned_is_latest replaySettings
    (lossySchedule []) "m1" Database.empty twoReports rfl
    oneAgent_twoReports (freshInOrder_of_empty (by decide +kernel))

/-- The first scan's post is lost twice, the second scan is delivered between, and
the tick delivers the first scan, which becomes the latest. -/
theorem older_scan_becomes_latest :
    ¬ ∀ settings schedule machineId calls, OneAgent settings machineId
      (calls.filterMap Call.dumps) →
      Reported settings machineId (runCalls (collectorSite settings schedule)
        (World.initial ⟨Database.empty, [], 0, 0⟩) calls).trace := by
  intro always
  have reported : Reported replaySettings "m1" (lossyRun [1, 2]).trace :=
    always _ (lossySchedule [1, 2]) _ _ oneAgent_twoReports
  have shown : ((lossyRun [1, 2]).trace[9]?.any fun point =>
      point.action.isPosted &&
        newestDelivered (doneScans replaySettings
          (dumpedIn ((lossyRun [1, 2]).trace.take 9)))
          point.env.delivered == some scanTwo.data &&
        ((Repo.fleetSummary id point.env.db).map fun summary =>
          (summary.host.machineId, summary.scanId)) == [("m1", some 2)] &&
        (point.env.db.scans.rows.map fun scan => (scan.id, scan.scanUuid)) ==
          [(1, some "u2"), (2, some "u1")]) = true := by
    decide +kernel
  have uuid : (bundleIn replaySettings scanTwo.data).map ScanBundle.scanUuid =
      some "u2" := by
    decide +kernel
  generalize (lossyRun [1, 2]).trace = points at reported shown
  obtain ⟨point, here, facts⟩ := (Option.any_eq_true _ _).mp shown
  simp only [Bool.and_eq_true, beq_iff_eq] at facts
  obtain ⟨⟨⟨posts, newest⟩, summaries⟩, rows⟩ := facts
  have latest := reported.at_index here posts
  rw [ReportsLastScanned, newest] at latest
  obtain ⟨bundle, scan, _, read, stored, carries, _, _, reports⟩ := latest
  have listed : ("m1", some 2) ∈ (Repo.fleetSummary id point.env.db).map
      fun summary => (summary.host.machineId, summary.scanId) :=
    summaries ▸ List.mem_singleton_self _
  obtain ⟨summary, member, summaryEq⟩ := List.mem_map.mp listed
  obtain ⟨machine, summaryId⟩ := Prod.mk.inj summaryEq
  have reportedId := summaryId.symm.trans (reports id summary member machine)
  have row : (scan.id, scan.scanUuid) ∈ [(1, some "u2"), (2, some "u1")] :=
    rows ▸ List.mem_map_of_mem (Table.mem_iff.mp stored)
  rw [read, Option.map_some, Option.some_inj] at uuid
  rw [carries, uuid, ← Option.some_inj.mp reportedId] at row
  revert row
  decide

end Agent
end PqcScan
