import PqcScan.Agent.Report
import PqcScan.Daemon.Deduplication
import PqcScan.Library.Replay
import PqcScan.Store.Summary

/-!
# One agent and its collector

The environment of an agent whose requests are handled by the collector of
`daemon/fleet.py`.  A schedule decides what becomes of each request: it is
handled and answered, handled although the agent sees a failure, or never
handled.  The collector's side of the replay is here: as long as the deliveries
follow the order of the scans, the host's latest scan is the last one delivered.
-/

namespace PqcScan
namespace Agent

open Library Python PqcScan.Core Store Repo

/-! ## The collector behind the network -/

/-- What the agent sees instead of the collector's answer. -/
inductive Interruption
  | throttled
  | serverError (code : Fin 100) (text : String)
  | connectionFailed (message : String)

/-- What the agent hears of an interruption. -/
def Interruption.reply : Interruption → Reply
  | .throttled => .response ⟨429, "", .error ""⟩
  | .serverError code text => .response ⟨500 + code, text, .error ""⟩
  | .connectionFailed message => .failed message

/-- What becomes of a request. -/
inductive Fate
  | answered
  | answerLost (interruption : Interruption)
  | unreached (interruption : Interruption)

/-- Everything a run draws from outside.  The clock that names
spooled files increases. -/
structure Schedule where
  fate : Nat → Fate
  draws : Nat → Daemon.Draws
  name : Nat → SpoolName
  nameIncreases : ∀ count, (name count).timeNs < (name (count + 1)).timeNs
  /-- The body of an enrollment. -/
  encode : Json → Bytes

/-- The collector's store, the bundles it has taken, and how much of the
schedule is used up. -/
structure Wire where
  db : Database
  delivered : List Bytes
  requests : Nat
  drawn : Nat

/-- The body `ensure_agent_token` posts. -/
def enrollBody (enrollToken : String) (identity : HostIdentity) : Json :=
  .object
    [("enroll_token", .str enrollToken),
      ("host", .object
        [("machine_id", .str identity.machineId), ("hostname", .str identity.hostname),
          ("os", .str identity.os),
          ("labels", .object (identity.labels.entries.map fun entry =>
            (entry.1, .str entry.2))),
          ("agent_version", .str identity.agentVersion)])]

/-- The request as the collector receives it. -/
def received (schedule : Schedule) : Request Bytes → Daemon.Request
  | .enroll _ enrollToken identity =>
      .enroll ⟨0, [schedule.encode (enrollBody enrollToken identity)]⟩
  | .ingest _ token data => .ingest ⟨"Bearer " ++ token, ⟨data.length, [data]⟩⟩

/-- The answer as the agent receives it. -/
def rendered : Daemon.Response → HttpResponse
  | .refused refusal =>
      ⟨refusal.status, refusal.detail, .ok (.object [("detail", .str refusal.detail)])⟩
  | .enrolled hostId agentToken =>
      ⟨201, "", .ok (.object [("host_id", .int hostId),
        ("agent_token", .str agentToken)])⟩
  | .ingested scanId storedFindings storedViews duplicate drift =>
      ⟨200, "", .ok (.object
        ([("scan_id", .int scanId), ("stored_findings", .int storedFindings),
          ("stored_views", .int storedViews), ("duplicate", .bool duplicate)] ++
            (drift.map fun count => ("drift", Json.int count)).toList))⟩
  | .revoked => ⟨200, "", .ok (.object [])⟩
  | .unrevoked => ⟨200, "", .ok (.object [])⟩
  | .failed => ⟨500, "Internal Server Error", .error ""⟩

/-- The collector has taken the bundle. -/
def taken : Daemon.Response → Bool
  | .ingested _ _ _ _ _ => true
  | _ => false

/-- The bundle a request delivers. -/
def deliveredBy (request : Request Bytes) (response : Daemon.Response) : List Bytes :=
  match request with
  | .enroll _ _ _ => []
  | .ingest _ _ data => if taken response then [data] else []

/-- The collector handles a request. -/
def collect (settings : Daemon.Settings) (schedule : Schedule) (wire : Wire)
    (request : Request Bytes) : Wire × Reply :=
  let (db, response) := Daemon.handle settings (schedule.draws wire.requests) wire.db
    (received schedule request)
  ({ wire with db, delivered := wire.delivered ++ deliveredBy request response },
    .response (rendered response))

/-- The network and the agent's machine; nothing on the machine fails. -/
def collectorSite (settings : Daemon.Settings) (schedule : Schedule) :
    Environment Bytes Wire where
  transmit wire request :=
    let next := { wire with requests := wire.requests + 1 }
    match schedule.fate wire.requests with
    | .answered => collect settings schedule next request
    | .answerLost interruption =>
        ((collect settings schedule next request).1, interruption.reply)
    | .unreached interruption => (next, interruption.reply)
  perform wire _ := (wire, none)
  drawName wire := ({ wire with drawn := wire.drawn + 1 }, schedule.name wire.drawn)
  tornToken _ := none
  tornBundle _ := none

/-! ## The agent's scans -/

section Scans

variable (settings : Daemon.Settings)

/-- The bundle in the data, when the collector can read it. -/
def bundleIn (data : Bytes) : Option ScanBundle :=
  match loadBundle settings.py data with
  | .ok bundle => some bundle
  | .error _ => none

/-- The data is a bundle of a scan that is stored as done. -/
def isDone (data : Bytes) : Bool :=
  match bundleIn settings data with
  | some bundle => storedStatus settings.py bundle == "done"
  | none => false

/-- The done scans among the dumped bundles. -/
def doneScans (dumped : List Bytes) : List Bytes := dumped.filter (isDone settings)

/-- The dumped bundles state one machine, and each its own scan uuid. -/
structure OneAgent (machineId : String) (dumped : List Bytes) : Prop where
  machine : ∀ data ∈ dumped, ∀ bundle, bundleIn settings data = some bundle →
    bundle.host.machineId = machineId
  distinct : (dumped.filterMap fun data =>
    (bundleIn settings data).map ScanBundle.scanUuid).Nodup

/-- What `fleet_summary` reports for the host of the machine. -/
def Reports (machineId : String) (db : Database) (scanId : Option Nat) : Prop :=
  ∀ lower, ∀ summary ∈ fleetSummary lower db,
    summary.host.machineId = machineId → summary.scanId = scanId

/-- For the host of the machine `fleet_summary` reports the scan that was scanned
last among the delivered done ones. -/
def ReportsLastScanned (machineId : String) (dumped : List Bytes) (wire : Wire) : Prop :=
  match newestDelivered (doneScans settings dumped) wire.delivered with
  | none => Reports machineId wire.db none
  | some data => ∃ bundle scan host, bundleIn settings data = some bundle ∧
      scan ∈ wire.db.scans ∧ scan.scanUuid = some bundle.scanUuid ∧
      host ∈ wire.db.hosts ∧ host.machineId = machineId ∧
      Reports machineId wire.db (some scan.id)

/-- The scan row was written for the data. -/
def Stores (data : Bytes) (scan : Scan) : Prop :=
  ∃ bundle, bundleIn settings data = some bundle ∧
    scan.scanUuid = some bundle.scanUuid ∧
    scan.status = storedStatus settings.py bundle ∧ scan.label = none

/-- The collector's store in a run of one agent: its scans are delivered ones of
one host, and the last scanned of them is the newest done row. -/
structure Ledger (machineId : String) (dumped : List Bytes) (wire : Wire) : Prop where
  known : ∀ data ∈ wire.delivered, data ∈ dumped
  origin : ∀ scan ∈ wire.db.scans, ∃ data ∈ wire.delivered, Stores settings data scan
  owned : ∀ scan ∈ wire.db.scans, ∃ host ∈ wire.db.hosts,
    host.machineId = machineId ∧ scan.hostId = some host.id
  latest : ∀ data,
    newestDelivered (doneScans settings dumped) wire.delivered = some data →
      ∃ scan ∈ wire.db.scans, Stores settings data scan ∧
        ∀ other ∈ wire.db.scans, other.status = "done" → other.id ≤ scan.id

end Scans

variable {settings : Daemon.Settings} {schedule : Schedule} {machineId : String}
  {dumped : List Bytes} {wire : Wire}

theorem isDone_eq_true_iff {data : Bytes} :
    isDone settings data = true ↔ ∃ bundle, bundleIn settings data = some bundle ∧
      storedStatus settings.py bundle = "done" := by
  unfold isDone
  cases bundleIn settings data <;> simp

theorem mem_doneScans {data : Bytes} :
    data ∈ doneScans settings dumped ↔ data ∈ dumped ∧ isDone settings data = true :=
  List.mem_filter

/-- The two do not carry one uuid. -/
def Apart (settings : Daemon.Settings) (left right : Bytes) : Prop :=
  ∀ leftBundle, bundleIn settings left = some leftBundle →
    ∀ rightBundle, bundleIn settings right = some rightBundle →
      leftBundle.scanUuid ≠ rightBundle.scanUuid

instance : Std.Symm (Apart settings) :=
  ⟨fun _ _ apart left leftRead right rightRead =>
    (apart right rightRead left leftRead).symm⟩

theorem OneAgent.pairwise (one : OneAgent settings machineId dumped) :
    dumped.Pairwise (Apart settings) := by
  have distinct := one.distinct
  rw [List.Nodup, List.pairwise_filterMap] at distinct
  apply distinct.imp
  intro left right apart leftBundle leftRead rightBundle rightRead
  exact apart _ (by rw [leftRead]; rfl) _ (by rw [rightRead]; rfl)

/-- Two dumped bundles of one uuid are the same. -/
theorem OneAgent.eq_of_uuid (one : OneAgent settings machineId dumped)
    {left right : Bytes}
    {leftBundle rightBundle : ScanBundle} (leftMember : left ∈ dumped)
    (rightMember : right ∈ dumped) (leftRead : bundleIn settings left = some leftBundle)
    (rightRead : bundleIn settings right = some rightBundle)
    (same : leftBundle.scanUuid = rightBundle.scanUuid) : left = right := by
  by_contra different
  exact one.pairwise.forall leftMember rightMember different leftBundle
    leftRead rightBundle
    rightRead same

theorem OneAgent.nodup (one : OneAgent settings machineId dumped) :
    (doneScans settings dumped).Nodup := by
  apply (one.pairwise.filter _).imp_of_mem
  rintro left right leftMember _ apart rfl
  obtain ⟨bundle, read, _⟩ := isDone_eq_true_iff.mp (mem_doneScans.mp leftMember).2
  exact apart bundle read bundle read rfl

theorem OneAgent.of_append {later : List Bytes}
    (one : OneAgent settings machineId (dumped ++ later)) :
    OneAgent settings machineId dumped := by
  obtain ⟨machine, distinct⟩ := one
  rw [List.filterMap_append] at distinct
  exact ⟨fun data member => machine data (List.mem_append_left _ member),
    distinct.of_append_left⟩

/-! ## What the summary reports -/

theorem Stores.label {data : Bytes} {scan : Scan} (stores : Stores settings data scan) :
    scan.label = none := by
  obtain ⟨_, _, _, _, label⟩ := stores
  exact label

/-- A done scan is stored for a done bundle. -/
theorem Stores.isDone_iff {data : Bytes} {scan : Scan}
    (stores : Stores settings data scan) :
    isDone settings data = true ↔ scan.status = "done" := by
  obtain ⟨bundle, read, _, status, _⟩ := stores
  rw [isDone_eq_true_iff, status]
  constructor
  · rintro ⟨other, otherRead, done⟩
    obtain rfl := Option.some.inj (read.symm.trans otherRead)
    exact done
  · intro done
    exact ⟨bundle, read, done⟩

theorem reports_of_latestDone {db : Database} {scanId : Option Nat}
    (latest : ∀ host ∈ db.hosts, host.machineId = machineId →
      (latestDone db host.id).map Scan.id = scanId) : Reports machineId db scanId := by
  intro lower summary member machine
  obtain ⟨stored, reported⟩ := of_mem_fleetSummary member
  rw [reported, latest summary.host stored machine]

/-- A done row makes its data one of the delivered done scans. -/
theorem Ledger.of_done (ledger : Ledger settings machineId dumped wire) {scan : Scan}
    (member : scan ∈ wire.db.scans) (done : scan.status = "done") :
    ∃ data ∈ wire.delivered, data ∈ doneScans settings dumped ∧
    Stores settings data scan := by
  obtain ⟨data, sent, stores⟩ := ledger.origin scan member
  exact ⟨data, sent,
    mem_doneScans.mpr ⟨ledger.known data sent, stores.isDone_iff.mpr done⟩, stores⟩

/-- The ledger is what the summary shows. -/
theorem Ledger.reports (ledger : Ledger settings machineId dumped wire) :
    ReportsLastScanned settings machineId dumped wire := by
  unfold ReportsLastScanned
  split
  · next none =>
      apply reports_of_latestDone
      intro host stored machine
      cases latest : latestDone wire.db host.id with
      | none => rfl
      | some scan =>
          obtain ⟨member, _, done⟩ := latestDone_mem latest
          obtain ⟨data, sent, listed, _⟩ := ledger.of_done member done
          rw [newestDelivered, List.getLast?_eq_none_iff, List.filter_eq_nil_iff] at none
          exact absurd (by simpa using sent) (none data listed)
  · next data newest =>
      obtain ⟨scan, member, stores, greatest⟩ := ledger.latest data newest
      obtain ⟨host, stored, machine, owned⟩ := ledger.owned scan member
      have done : scan.status = "done" :=
        stores.isDone_iff.mp (mem_doneScans.mp (mem_of_newestDelivered newest).1).2
      have latest : latestDone wire.db host.id = some scan := by
        apply latestDone_eq_some member owned done
        intro newer later newerDone
        rw [newerScans, List.mem_filter, mem_scansOf, decide_eq_true_iff] at later
        have bounded := greatest newer later.1.1 newerDone
        omega
      obtain ⟨bundle, read, carried, _, _⟩ := stores
      refine ⟨bundle, scan, host, read, member, carried, stored, machine, ?_⟩
      apply reports_of_latestDone
      intro other otherStored otherMachine
      rw [Database.host_eq_of_machineId otherStored stored
        (otherMachine.trans machine.symm), latest]
      rfl

/-! ## Handled requests -/

/-- The data in the body of an ingest request. -/
theorem readCapped_whole {data found : Bytes} {declared : Int} {cap : Nat}
    (read : Daemon.readCapped ⟨declared, [data]⟩ cap = .ok found) : found = data := by
  unfold Daemon.readCapped at read
  dsimp only at read
  split at read
  · cases read
  · rw [Daemon.readChunks] at read
    split at read
    · next whole success =>
        split at success
        · cases success
        · rw [Daemon.readChunks, Option.map_some, List.append_nil] at success
          cases success
          cases read
          rfl
    · cases read

/-- The bundle the collector accepts is the one in the data. -/
theorem bundleIn_of_accepted {draws : Daemon.Draws} {host : Host} {declared : Int}
    {data : Bytes} {bundle : ScanBundle}
    (accepted : Daemon.Accepted settings draws host ⟨declared, [data]⟩ bundle) :
    bundleIn settings data = some bundle := by
  obtain ⟨found, read, loaded⟩ := accepted.loaded
  obtain rfl := readCapped_whole read
  rw [bundleIn, loaded]

/-- An ingest takes nothing, repeats what is stored, or stores its bundle. -/
theorem ingest_cases {draws : Daemon.Draws} {before after : Database}
    {request : Daemon.IngestRequest} {response : Daemon.Response}
    (served : Daemon.ingest settings draws before request = (after, response)) :
    (taken response = false ∧ after = before) ∨
      (∃ host bundle scan, taken response = true ∧ after = before ∧
        Daemon.Accepted settings draws host request.body bundle ∧
        scan ∈ before.scans ∧ scan.scanUuid = some bundle.scanUuid) ∨
      ∃ host bundle middle drift time scan agentRows driftRows newViews,
        taken response = true ∧ host ∈ before.hosts ∧
        Daemon.Accepted settings draws host request.body bundle ∧
        BundleWritten settings.py before middle bundle host drift time scan agentRows
          driftRows newViews ∧
        after = Daemon.trim settings draws middle host.id := by
  unfold Daemon.ingest at served
  split at served
  · cases served
    exact Or.inl ⟨rfl, rfl⟩
  next host authenticated =>
  split at served
  · cases served
    exact Or.inl ⟨rfl, rfl⟩
  next bundle success =>
  have accepted := Daemon.accepted_of_ok success
  obtain ⟨_, _, hostMember, _⟩ := Daemon.agentHost_eq_ok_iff.mp authenticated
  cases call : ingestBundle settings.py draws.now before bundle host.id with
  | mk written outcome =>
      rw [call] at served
      rcases ingestBundle_cases call with
        ⟨rfl, error, rfl⟩ | ⟨rfl, scan, member, carried, _, rfl⟩ |
          ⟨current, member, sameId, drift, changes, time, scan, agentRows,
            driftRows, newViews, _, effect, rfl⟩
      · cases error with
        | python error =>
            cases served
            exact Or.inl ⟨rfl, rfl⟩
        | integrity =>
            cases served
            unfold Daemon.recoverRace getScanIdByUuid
            cases found : after.scans.rows.find? fun scan =>
                scan.scanUuid == some bundle.scanUuid with
            | none => exact Or.inl ⟨rfl, rfl⟩
            | some scan =>
                exact Or.inr (Or.inl ⟨host, bundle, scan, rfl, rfl, accepted,
                  List.mem_of_find?_eq_some found, by simpa using List.find?_some found⟩)
      · cases served
        exact Or.inr (Or.inl ⟨host, bundle, scan, rfl, rfl, accepted, member, carried⟩)
      · cases served
        obtain rfl : current = host := Table.eq_of_id_eq member hostMember sameId
        exact Or.inr (Or.inr ⟨current, bundle, written, drift, time, scan, agentRows,
          driftRows, newViews, rfl, hostMember, accepted, effect, rfl⟩)

/-- The ledger does not depend on anything but the scans and what was delivered. -/
theorem Ledger.of_scans (ledger : Ledger settings machineId dumped wire) {next : Wire}
    (scans : next.db.scans = wire.db.scans) (hosts : Daemon.HostsKept wire.db next.db)
    (same : ∀ data, data ∈ next.delivered ↔ data ∈ wire.delivered) :
    Ledger settings machineId dumped next := by
  constructor
  · intro data sent
    exact ledger.known data ((same data).mp sent)
  · intro scan member
    rw [scans] at member
    obtain ⟨data, sent, stores⟩ := ledger.origin scan member
    exact ⟨data, (same data).mpr sent, stores⟩
  · intro scan member
    rw [scans] at member
    obtain ⟨host, stored, machine, owned⟩ := ledger.owned scan member
    obtain ⟨new, newStored, sameId, sameMachine⟩ := hosts host stored
    exact ⟨new, newStored, sameMachine.trans machine, sameId ▸ owned⟩
  · intro data newest
    rw [newestDelivered_congr fun item _ => same item] at newest
    rw [scans]
    exact ledger.latest data newest

/-- Retention spares the newest done scan. -/
theorem newest_spared {draws : Daemon.Draws} {middle : Database} {hostId : Nat}
    {scan : Scan}
    (member : scan ∈ middle.scans) (label : scan.label = none)
    (done : scan.status = "done")
    (greatest : ∀ other ∈ middle.scans, other.status = "done" → other.id ≤ scan.id) :
    scan ∈ (Daemon.trim settings draws middle hostId).scans := by
  obtain ⟨ids, deletes, selected⟩ := Daemon.trim_deletes settings draws middle hostId
  rw [deletes, mem_deleteScans]
  refine ⟨member, fun doomed => ?_⟩
  rcases selected scan.id doomed with ⟨rollup, stored, same, rollupLabel⟩ | ⟨_, victim⟩
  · rw [Table.eq_of_id_eq stored member same, label] at rollupLabel
    cases rollupLabel
  · obtain ⟨⟨found, stored, same, owned⟩, _, notNewest⟩ := mem_pruneVictims victim
    rw [Table.eq_of_id_eq stored member same] at owned
    have latest : latestDone middle hostId = some scan := by
      apply latestDone_eq_some member owned done
      intro newer later newerDone
      rw [newerScans, List.mem_filter, mem_scansOf, decide_eq_true_iff] at later
      have bounded := greatest newer later.1.1 newerDone
      omega
    rw [latest] at notNewest
    exact notNewest rfl

/-- Storing a bundle that none of the delivered done ones comes after. -/
theorem Ledger.store (ledger : Ledger settings machineId dumped wire)
    (one : OneAgent settings machineId dumped) {data : Bytes} (member : data ∈ dumped)
    (last : data ∈ doneScans settings dumped →
      NoneLater (doneScans settings dumped) wire.delivered data)
    {draws : Daemon.Draws} {middle : Database} {bundle : ScanBundle} {host : Host}
    {drift : List Finding} {time : DateTime} {scan : Scan}
    {agentRows driftRows : List FindingRow} {newViews : List FrameworkView}
    (read : bundleIn settings data = some bundle) (stored : host ∈ wire.db.hosts)
    (machine : bundle.host.machineId = host.machineId)
    (effect : BundleWritten settings.py wire.db middle bundle host drift time
      scan agentRows
      driftRows newViews)
    (hosts : Daemon.HostsKept wire.db (Daemon.trim settings draws middle host.id))
    {next : Wire}
    (db : next.db = Daemon.trim settings draws middle host.id)
    (delivered : next.delivered = wire.delivered ++ [data]) :
    Ledger settings machineId dumped next := by
  have stores : Stores settings data scan :=
    ⟨bundle, read, effect.scanUuid, effect.scanStatus, effect.scanLabel⟩
  have above : ∀ other ∈ wire.db.scans, other.id < scan.id := by
    intro other otherMember
    rw [effect.scanId]
    exact Table.id_lt_nextId otherMember
  have inMiddle : ∀ other, other ∈ middle.scans ↔ other ∈ wire.db.scans ∨
      other = scan := by
    intro other
    rw [Table.mem_iff, effect.scans, List.mem_append, List.mem_singleton]
    rfl
  have kept : ∀ other ∈ next.db.scans, other ∈ wire.db.scans ∨ other = scan := by
    intro other otherMember
    obtain ⟨ids, deletes, _⟩ := Daemon.trim_deletes settings draws middle host.id
    rw [db, deletes, mem_deleteScans] at otherMember
    exact (inMiddle other).mp otherMember.1
  constructor
  · intro other sent
    rw [delivered, List.mem_append, List.mem_singleton] at sent
    rcases sent with earlier | rfl
    · exact ledger.known other earlier
    · exact member
  · intro other otherMember
    rw [delivered]
    rcases kept other otherMember with earlier | rfl
    · obtain ⟨origin, sent, originStores⟩ := ledger.origin other earlier
      exact ⟨origin, List.mem_append_left _ sent, originStores⟩
    · exact ⟨data, List.mem_append_right _ (List.mem_singleton_self data), stores⟩
  · intro other otherMember
    rw [db]
    rcases kept other otherMember with earlier | rfl
    · obtain ⟨old, oldStored, oldMachine, owned⟩ := ledger.owned other earlier
      obtain ⟨new, newStored, sameId, sameMachine⟩ := hosts old oldStored
      exact ⟨new, newStored, sameMachine.trans oldMachine, sameId ▸ owned⟩
    · obtain ⟨new, newStored, sameId, sameMachine⟩ := hosts host stored
      exact ⟨new, newStored, (sameMachine.trans machine.symm).trans
        (one.machine data member bundle read), sameId ▸ effect.scanHost⟩
  · intro newest isNewest
    rw [delivered] at isNewest
    by_cases done : scan.status = "done"
    · have listed : data ∈ doneScans settings dumped :=
        mem_doneScans.mpr ⟨member, stores.isDone_iff.mpr done⟩
      rw [newestDelivered_deliver one.nodup listed (last listed),
        Option.some_inj] at isNewest
      subst isNewest
      have greatest : ∀ other ∈ middle.scans, other.status = "done" →
          other.id ≤ scan.id := by
        intro other otherMember _
        rcases (inMiddle other).mp otherMember with earlier | rfl
        · exact (above other earlier).le
        · exact le_rfl
      refine ⟨scan, ?_, stores, ?_⟩
      · rw [db]
        exact newest_spared
          ((inMiddle scan).mpr (Or.inr rfl)) effect.scanLabel done greatest
      · intro other otherMember otherDone
        exact greatest other ((inMiddle other).mpr (kept other otherMember)) otherDone
    · have idle : data ∉ doneScans settings dumped := by
        intro listed
        exact done (stores.isDone_iff.mp (mem_doneScans.mp listed).2)
      rw [newestDelivered_idle fun listed => absurd listed idle] at isNewest
      obtain ⟨old, oldMember, oldStores, greatest⟩ := ledger.latest newest isNewest
      have greatest' : ∀ other ∈ middle.scans, other.status = "done" →
          other.id ≤ old.id := by
        intro other otherMember otherDone
        rcases (inMiddle other).mp otherMember with earlier | rfl
        · exact greatest other earlier otherDone
        · exact absurd otherDone done
      have oldDone : old.status = "done" := oldStores.isDone_iff.mp
        (mem_doneScans.mp (mem_of_newestDelivered isNewest).1).2
      have oldLabel : old.label = none := oldStores.label
      refine ⟨old, ?_, oldStores, ?_⟩
      · rw [db]
        exact newest_spared
          ((inMiddle old).mpr (Or.inl oldMember)) oldLabel oldDone greatest'
      · intro other otherMember otherDone
        exact greatest' other ((inMiddle other).mpr (kept other otherMember)) otherDone

/-- A request may be handled: a bundle it carries was dumped, and no later done
one has been delivered. -/
def InTurn (settings : Daemon.Settings) (dumped delivered : List Bytes) :
    Request Bytes → Prop
  | .enroll _ _ _ => True
  | .ingest _ _ data => data ∈ dumped ∧
      (data ∈ doneScans settings dumped →
        NoneLater (doneScans settings dumped) delivered data)

/-- The collector keeps its ledger. -/
theorem Ledger.collect (ledger : Ledger settings machineId dumped wire)
    (one : OneAgent settings machineId dumped) {request : Request Bytes}
    (inTurn : InTurn settings dumped wire.delivered request) :
    Ledger settings machineId dumped (collect settings schedule wire request).1 := by
  cases answered : Daemon.handle settings (schedule.draws wire.requests) wire.db
      (received schedule request) with
  | mk after response =>
  let exchange : Daemon.Exchange :=
    ⟨received schedule request, schedule.draws wire.requests, response⟩
  have served : Daemon.Serves settings wire.db exchange after := answered
  have hosts : Daemon.HostsKept wire.db after := Daemon.hostsKept_of_serves served
  rw [Agent.collect, answered]
  cases request with
  | enroll server enrollToken identity =>
      have scans : after.scans = wire.db.scans := by
        cases Daemon.effect_of_enroll answered with
        | unchanged same quiet => rw [same]
        | enrolled body identity row asked read approved upserted answer =>
            exact upserted.others.scans
        | stored request host bundle middle drift changes time scan agentRows driftRows
            newViews asked => cases asked
        | revoked hostId host asked => cases asked
        | unrevoked hostId host asked => cases asked
      exact ledger.of_scans scans hosts fun data => by simp [deliveredBy]
  | ingest server token data =>
      obtain ⟨member, last⟩ := inTurn
      rcases ingest_cases answered with
        ⟨none, same⟩ | ⟨host, bundle, scan, took, same, accepted, stored, carried⟩ |
          ⟨host, bundle, middle, drift, time, scan, agentRows, driftRows, newViews, took,
            stored, accepted, effect, trimmed⟩
      · exact ledger.of_scans (by rw [same]) hosts fun other => by
          simp [deliveredBy, none]
      · have sent : data ∈ wire.delivered := by
          obtain ⟨origin, originSent, other, read, otherCarried, _⟩ :=
            ledger.origin scan stored
          rw [carried, Option.some_inj] at otherCarried
          rw [one.eq_of_uuid member (ledger.known origin originSent)
            (bundleIn_of_accepted accepted) read otherCarried]
          exact originSent
        refine ledger.of_scans (by rw [same]) hosts fun other => ?_
        simp only [deliveredBy, took, if_true, List.mem_append, List.mem_singleton]
        exact ⟨fun either => either.elim id fun equal => equal ▸ sent, Or.inl⟩
      · subst trimmed
        exact ledger.store one member last (bundleIn_of_accepted accepted) stored
          accepted.machineId effect hosts rfl (by simp [deliveredBy, took])

/-- What a request does to the environment. -/
structure Transmitted (settings : Daemon.Settings) (machineId : String)
    (dumped : List Bytes) (request : Request Bytes) (before after : Wire) : Prop where
  ledger : Ledger settings machineId dumped after
  drawn : after.drawn = before.drawn
  delivered : after.delivered = before.delivered ∨
    ∃ server token data, request = .ingest server token data ∧
      after.delivered = before.delivered ++ [data]

theorem Ledger.transmit (ledger : Ledger settings machineId dumped wire)
    (one : OneAgent settings machineId dumped) {request : Request Bytes}
    (inTurn : InTurn settings dumped wire.delivered request) :
    Transmitted settings machineId dumped request wire
      ((collectorSite settings schedule).transmit wire request).1 := by
  let next : Wire := { wire with requests := wire.requests + 1 }
  have started : Ledger settings machineId dumped next :=
    ⟨ledger.known, ledger.origin, ledger.owned, ledger.latest⟩
  have delivered : (Agent.collect settings schedule next request).1.delivered =
      wire.delivered ∨
      ∃ server token data, request = .ingest server token data ∧
        (Agent.collect settings schedule next request).1.delivered =
          wire.delivered ++ [data] := by
    cases request with
    | enroll server enrollToken identity =>
        exact Or.inl (by simp [Agent.collect, deliveredBy, next])
    | ingest server token data =>
        cases took : taken (Daemon.handle settings (schedule.draws next.requests) next.db
            (received schedule (.ingest server token data))).2 with
        | false => exact Or.inl (by simp [Agent.collect, deliveredBy, took, next])
        | true =>
            exact Or.inr ⟨server, token, data, rfl,
              by simp [Agent.collect, deliveredBy, took, next]⟩
  have handled : Transmitted settings machineId dumped request wire
      (Agent.collect settings schedule next request).1 :=
    ⟨started.collect one inTurn, rfl, delivered⟩
  dsimp only [collectorSite]
  cases schedule.fate wire.requests with
  | answered => exact handled
  | answerLost interruption => exact handled
  | unreached interruption => exact ⟨started, rfl, Or.inl rfl⟩

/-! ## Answers -/

/-- An answer after which a flush goes on only with the file gone from the spool. -/
def Orderly : Reply → Prop
  | .response response =>
      (response.status / 100 = 2 ∧ ∃ members, response.json = .ok (.object members)) ∨
        permanentRejects.contains response.status = true ∨
        stopsPass response.status = true
  | .failed _ => True
  | .raised _ => False

theorem Interruption.orderly (interruption : Interruption) :
    Orderly interruption.reply := by
  cases interruption with
  | throttled => exact Or.inr (Or.inr (by decide))
  | serverError code text =>
      refine Or.inr (Or.inr ?_)
      simp [stopsPass]
  | connectionFailed message => trivial

/-- The statuses with which an ingest is refused. -/
def ingestRefusals : List Nat := [400, 401, 403, 413, 429]

theorem agentHost_refused {db : Database} {authorization : String}
    {refusal : Daemon.Refusal}
    (failed : Daemon.agentHost settings db authorization = .error refusal) :
    refusal.status ∈ ingestRefusals := by
  unfold Daemon.agentHost at failed
  split at failed
  · cases failed
    decide
  · split at failed
    · cases failed
      decide
    · split at failed
      · cases failed
        decide
      · cases failed

theorem readCapped_refused {body : Daemon.Body} {cap : Nat} {refusal : Daemon.Refusal}
    (failed : Daemon.readCapped body cap = .error refusal) : refusal.status = 413 := by
  unfold Daemon.readCapped at failed
  dsimp only at failed
  split at failed
  · cases failed
    rfl
  · split at failed
    · cases failed
    · cases failed
      rfl

theorem acceptBundle_refused {draws : Daemon.Draws} {host : Host} {body : Daemon.Body}
    {refusal : Daemon.Refusal}
    (failed : Daemon.acceptBundle settings draws host body = .error refusal) :
    refusal.status ∈ ingestRefusals := by
  unfold Daemon.acceptBundle at failed
  split at failed
  · cases failed
    simp [ingestRefusals]
  cases read : Daemon.readCapped body maxGzipBytes with
  | error cause =>
      rw [read] at failed
      cases failed
      simp [ingestRefusals, readCapped_refused read]
  | ok data =>
      rw [read] at failed
      simp only [bind, Except.bind] at failed
      split at failed
      · cases failed
        simp [ingestRefusals]
      · cases failed
        simp [ingestRefusals]
      · split at failed
        · cases failed
          simp [ingestRefusals]
        · split at failed
          · cases failed
          · cases failed
            simp [ingestRefusals]

theorem ingest_refused {draws : Daemon.Draws} {before after : Database}
    {request : Daemon.IngestRequest} {response : Daemon.Response}
    (served : Daemon.ingest settings draws before request = (after, response)) :
    taken response = true ∨
      ∃ refusal, response = .refused refusal ∧ refusal.status ∈ ingestRefusals := by
  unfold Daemon.ingest at served
  split at served
  · next refusal failed =>
      cases served
      exact Or.inr ⟨refusal, rfl, agentHost_refused failed⟩
  next host authenticated =>
  split at served
  · next refusal failed =>
      cases served
      exact Or.inr ⟨refusal, rfl, acceptBundle_refused failed⟩
  next bundle accepted =>
  split at served
  · cases served
    exact Or.inr ⟨_, rfl, List.mem_cons_self⟩
  · cases served
    unfold Daemon.recoverRace
    split
    · exact Or.inr ⟨_, rfl, List.mem_cons_self⟩
    · exact Or.inl rfl
  · cases served
    exact Or.inl rfl

theorem collect_orderly (wire : Wire) (server token : String) (data : Bytes) :
    Orderly (collect settings schedule wire (.ingest server token data)).2 := by
  cases answered : Daemon.handle settings (schedule.draws wire.requests) wire.db
      (received schedule (.ingest server token data)) with
  | mk after response =>
  rw [collect, answered]
  rcases ingest_refused answered with took | ⟨refusal, rfl, listed⟩
  · cases response with
    | ingested => exact Or.inl ⟨by simp [rendered], _, rfl⟩
    | _ => cases took
  · have stops : ∀ status ∈ ingestRefusals,
        permanentRejects.contains status = true ∨ stopsPass status = true := by
      decide
    exact Or.inr (stops refusal.status listed)

/-- The answers to ingest requests are orderly, whatever the network does. -/
theorem transmit_orderly (wire : Wire) (server token : String) (data : Bytes) :
    Orderly ((collectorSite settings schedule).transmit wire
      (.ingest server token data)).2 := by
  dsimp only [collectorSite]
  cases schedule.fate wire.requests with
  | answered => exact collect_orderly _ server token data
  | answerLost interruption => exact interruption.orderly
  | unreached interruption => exact interruption.orderly

end Agent
end PqcScan
