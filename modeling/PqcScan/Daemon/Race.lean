import PqcScan.Daemon.Interleaving
import PqcScan.Store.Atomicity

/-!
# Two ingests of one uuid

Two requests that carry the same `scan_uuid` may both pass the duplicate check;
then the unique index stops the second write and the handler recovers.  Without
that the answers are those of one of the two sequential orders.  The recovered
answer is in neither: it has no drift field, and it names the stored scan
without asking whose it is.
-/

namespace PqcScan
namespace Daemon

open Library Python PqcScan.Core Store Repo

/-! ## Stores with the same host keys -/

/-- The columns of a host that a request is checked against. -/
structure SameKeys (left right : Host) : Prop where
  id : left.id = right.id
  machineId : left.machineId = right.machineId
  tokenHash : left.tokenHash = right.tokenHash
  revoked : left.revoked = right.revoked

/-- The same hosts with the same keys. -/
structure HostsAlike (left right : Database) : Prop where
  forward : ∀ host ∈ left.hosts, ∃ other ∈ right.hosts, SameKeys host other
  backward : ∀ other ∈ right.hosts, ∃ host ∈ left.hosts, SameKeys host other

theorem SameKeys.symm {left right : Host} (same : SameKeys left right) :
    SameKeys right left :=
  ⟨same.id.symm, same.machineId.symm, same.tokenHash.symm, same.revoked.symm⟩

theorem SameKeys.trans {left middle right : Host} (first : SameKeys left middle)
    (second : SameKeys middle right) : SameKeys left right :=
  ⟨first.id.trans second.id, first.machineId.trans second.machineId,
    first.tokenHash.trans second.tokenHash, first.revoked.trans second.revoked⟩

theorem HostsAlike.symm {left right : Database} (alike : HostsAlike left right) :
    HostsAlike right left := by
  constructor
  · intro host member
    obtain ⟨other, otherMember, same⟩ := alike.backward host member
    exact ⟨other, otherMember, same.symm⟩
  · intro other member
    obtain ⟨host, hostMember, same⟩ := alike.forward other member
    exact ⟨host, hostMember, same.symm⟩

theorem HostsAlike.trans {left middle right : Database}
    (first : HostsAlike left middle) (second : HostsAlike middle right) :
    HostsAlike left right := by
  constructor
  · intro host member
    obtain ⟨between, betweenMember, same⟩ := first.forward host member
    obtain ⟨other, otherMember, same'⟩ := second.forward between betweenMember
    exact ⟨other, otherMember, same.trans same'⟩
  · intro other member
    obtain ⟨between, betweenMember, same'⟩ := second.backward other member
    obtain ⟨host, hostMember, same⟩ := first.backward between betweenMember
    exact ⟨host, hostMember, same.trans same'⟩

/-- A stored bundle keeps the keys of every host. -/
theorem BundleWritten.hostsAlike {py : Runtime} {before after : Database}
    {bundle : ScanBundle} {host : Host} {drift : List Finding} {time : DateTime}
    {scan : Scan} {agentRows driftRows : List FindingRow}
    {newViews : List FrameworkView}
    (written : BundleWritten py before after bundle host drift time scan
      agentRows driftRows newViews) : HostsAlike before after := by
  obtain ⟨current, currentMember, sameId⟩ := written.known
  have writes := written.writes (getHost_eq_some_iff.mpr ⟨currentMember, sameId⟩)
  constructor
  · intro other member
    rcases writes.kept_or_replaced member with still | ⟨replaced, _⟩
    · exact ⟨other, still, rfl, rfl, rfl, rfl⟩
    · obtain rfl := Option.some_inj.mp replaced
      exact ⟨_, writes.written, rfl, rfl, rfl, rfl⟩
  · intro other member
    rcases writes.eq_or_mem member with rfl | earlier
    · exact ⟨current, currentMember, rfl, rfl, rfl, rfl⟩
    · exact ⟨other, earlier, rfl, rfl, rfl, rfl⟩

section Checks

variable {settings : Settings} {draws : Draws} {left right : Database}

/-- Stores with the same host keys authenticate the same hosts. -/
theorem HostsAlike.agentHost_ok (alike : HostsAlike left right)
    {authorization : String} {host : Host}
    (authenticated : agentHost settings left authorization = .ok host) :
    ∃ other, agentHost settings right authorization = .ok other ∧
      SameKeys host other := by
  obtain ⟨token, presented, member, live, unrevoked⟩ :=
    agentHost_eq_ok_iff.mp authenticated
  obtain ⟨other, otherMember, same⟩ := alike.forward host member
  refine ⟨other, agentHost_eq_ok_iff.mpr ⟨token, presented, otherMember, ?_, ?_⟩,
    same⟩
  · rw [← same.tokenHash, live]
  · rw [← same.revoked, unrevoked]

/-- An unknown token and the token of a revoked host are turned away in the same words. -/
theorem unknownAgent_eq (found : Option Host) (refusal : Refusal)
    (answer : (match found with
      | none => .error ⟨401, "unknown or revoked agent token"⟩
      | some host =>
          if host.revoked then .error ⟨401, "unknown or revoked agent token"⟩
          else .ok host) = (Except.error refusal : Except Refusal Host)) :
    refusal = ⟨401, "unknown or revoked agent token"⟩ := by
  cases found with
  | none => cases answer; rfl
  | some host =>
      dsimp only at answer
      split at answer <;> cases answer
      rfl

/-- Whom two stores turn away, they turn away in the same words. -/
theorem agentHost_error_eq {authorization : String} {first second : Refusal}
    (refused : agentHost settings left authorization = .error first)
    (refused' : agentHost settings right authorization = .error second) :
    first = second := by
  unfold agentHost at refused refused'
  cases presented : bearerToken authorization with
  | none =>
      rw [presented] at refused refused'
      cases refused
      cases refused'
      rfl
  | some token =>
      rw [presented] at refused refused'
      exact (unknownAgent_eq _ _ refused).trans (unknownAgent_eq _ _ refused').symm

theorem HostsAlike.agentHost_error (alike : HostsAlike left right)
    {authorization : String} {refusal : Refusal}
    (refused : agentHost settings left authorization = .error refusal) :
    agentHost settings right authorization = .error refusal := by
  cases answer : agentHost settings right authorization with
  | error other => rw [agentHost_error_eq refused answer]
  | ok host =>
      obtain ⟨other, authenticated, _⟩ := alike.symm.agentHost_ok answer
      rw [refused] at authenticated
      cases authenticated

/-- The checks of a body look only at the machine of the host. -/
theorem acceptBundle_congr {host other : Host} (body : Body)
    (machine : host.machineId = other.machineId) :
    acceptBundle settings draws host body =
      acceptBundle settings draws other body := by
  unfold acceptBundle
  rw [machine]

end Checks

/-! ## After the first write -/

/-- Since the start one scan was stored and nothing but older scans deleted. -/
structure ScanAdded (start : Database) (scan : Scan) (db : Database) : Prop where
  fresh : ∀ other ∈ start.scans, other.scanUuid ≠ scan.scanUuid
  member : scan ∈ db.scans
  newest : ∀ other ∈ db.scans, other.id ≤ scan.id
  unlabelled : scan.label = none
  alike : HostsAlike start db

theorem scanAdded_of_written {py : Runtime} {before after : Database}
    {bundle : ScanBundle} {host : Host} {drift : List Finding} {time : DateTime}
    {scan : Scan} {agentRows driftRows : List FindingRow}
    {newViews : List FrameworkView}
    (written : BundleWritten py before after bundle host drift time scan
      agentRows driftRows newViews) : ScanAdded before scan after := by
  refine ⟨?_, ?_, ?_, written.scanLabel, BundleWritten.hostsAlike written⟩
  · rw [written.scanUuid]
    exact written.fresh
  · rw [Table.mem_iff, written.scans]
    exact List.mem_append_right _ (List.mem_singleton_self scan)
  · intro other member
    rw [Table.mem_iff, written.scans, List.mem_append, List.mem_singleton] at member
    rcases member with earlier | rfl
    · rw [written.scanId]
      exact (Table.id_lt_nextId earlier).le
    · exact Nat.le_refl _

section Added

variable {start db : Database} {scan : Scan}

theorem ScanAdded.deleteScans {ids : List Nat} (added : ScanAdded start scan db)
    (spared : scan.id ∉ ids) : ScanAdded start scan (deleteScans db ids) := by
  refine ⟨added.fresh, mem_deleteScans.mpr ⟨added.member, spared⟩,
    fun other member => added.newest other (mem_deleteScans.mp member).1,
    added.unlabelled, ?_⟩
  have sameHosts := hosts_deleteScans db ids
  exact ⟨fun host member => sameHosts ▸ added.alike.forward host member,
    fun host member => added.alike.backward host (sameHosts ▸ member)⟩

/-- Retention never selects the newest scan. -/
theorem ScanAdded.not_mem_pruneVictims (added : ScanAdded start scan db)
    {hostId keep : Nat} (keepsOne : 1 ≤ keep) :
    scan.id ∉ pruneVictims db hostId keep := by
  intro selected
  obtain ⟨_, many, _⟩ := mem_pruneVictims selected
  have noNewer : newerScans db hostId scan.id = [] := by
    rw [newerScans, List.filter_eq_nil_iff]
    intro other member
    have older := added.newest other (mem_scansOf.mp member).1
    simpa using older
  rw [noNewer, List.length_nil] at many
  omega

theorem ScanAdded.not_mem_staleRollups (added : ScanAdded start scan db)
    (now : DateTime) : scan.id ∉ staleRollups now db := by
  intro stale
  obtain ⟨other, member, sameId, label⟩ := mem_staleRollups stale
  obtain rfl := Table.eq_of_id_eq member added.member sameId
  rw [added.unlabelled] at label
  cases label

theorem ScanAdded.trim (added : ScanAdded start scan db) (settings : Settings)
    (draws : Draws) (hostId : Nat) :
    ScanAdded start scan (trim settings draws db hostId) := by
  obtain ⟨ids, trimmed, causes⟩ := trim_deletes settings draws db hostId
  rw [trimmed]
  refine added.deleteScans fun selected => ?_
  rcases causes scan.id selected with
    ⟨other, member, sameId, label⟩ | ⟨keepsOne, victim⟩
  · obtain rfl := Table.eq_of_id_eq member added.member sameId
    rw [added.unlabelled] at label
    cases label
  · exact added.not_mem_pruneVictims keepsOne victim

end Added

/-! ## Before the first write -/

/-- An ingest request with what it draws. -/
structure Upload where
  draws : Draws
  request : IngestRequest

/-- The request handled without interruption. -/
def Upload.alone (upload : Upload) (settings : Settings) (db : Database) :
    Database × Response :=
  ingest settings upload.draws db upload.request

/-- The request's bundle carries the uuid. -/
def Upload.Carries (upload : Upload) (settings : Settings) (uuid : String) :
    Prop :=
  ∃ bundle, loadedBundle settings upload.request.body = some bundle ∧
    bundle.scanUuid = uuid

/-- The stages of a request that has seen only the given
database and changed nothing. -/
inductive Early (settings : Settings) (db : Database) (upload : Upload) :
    Stage → Prop
  | received : Early settings db upload (.ingestReceived upload.request)
  | authenticated (host : Host)
      (known : agentHost settings db upload.request.authorization = .ok host) :
      Early settings db upload (.ingestAuthenticated upload.request host)
  | parsed (host : Host) (bundle : ScanBundle)
      (known : agentHost settings db upload.request.authorization = .ok host)
      (accepted : acceptBundle settings upload.draws host upload.request.body =
        .ok bundle) :
      Early settings db upload (.ingestParsed host bundle)
  | compared (host : Host) (bundle : ScanBundle) (drift : List Finding)
      (changes : Nat)
      (known : agentHost settings db upload.request.authorization = .ok host)
      (accepted : acceptBundle settings upload.draws host upload.request.body =
        .ok bundle)
      (driftRead : bundleDrift settings.py upload.draws.now db bundle host.id =
        .ok (drift, changes)) :
      Early settings db upload (.ingestCompared host bundle drift changes)
  | checked (host loaded : Host) (bundle : ScanBundle) (drift : List Finding)
      (changes : Nat)
      (known : agentHost settings db upload.request.authorization = .ok host)
      (accepted : acceptBundle settings upload.draws host upload.request.body =
        .ok bundle)
      (driftRead : bundleDrift settings.py upload.draws.now db bundle host.id =
        .ok (drift, changes))
      (unstored : duplicateCheck db bundle host.id = .ok (loaded, none)) :
      Early settings db upload (.ingestChecked loaded bundle drift changes)
  | answered (response : Response)
      (alone : upload.alone settings db = (db, response)) :
      Early settings db upload (.answered response)

/-- The first write of the two requests, and the answer its
request would get alone. -/
structure FirstWrite (settings : Settings) (db : Database) (upload : Upload)
    (after : Database) (scan : Scan) (result : IngestResult) : Prop where
  added : ScanAdded db scan after
  carried : ∃ bundle, loadedBundle settings upload.request.body = some bundle ∧
    scan.scanUuid = some bundle.scanUuid
  stored : result.duplicate = false
  alone : ∃ hostId, upload.alone settings db =
    (trim settings upload.draws after hostId, ingestAnswer result)

/-- A write that can build its scan row finds no scan with the uuid. -/
def Stage.WritesFirst (settings : Settings) (draws : Draws) (db : Database) :
    Stage → Prop
  | .ingestChecked host bundle _ _ =>
      (∃ row, scanRow settings.py (draws.now 0) bundle host.id = .ok row) →
        getScanIdByUuid db bundle.scanUuid = none
  | _ => True

/-- A write that can build its scan row finds its uuid
stored for its own host only. -/
def Stage.WritesOwn (settings : Settings) (draws : Draws) (db : Database) :
    Stage → Prop
  | .ingestChecked host bundle _ _ =>
      (∃ row, scanRow settings.py (draws.now 0) bundle host.id = .ok row) →
        ∀ scan ∈ db.scans, scan.scanUuid = some bundle.scanUuid →
          scan.hostId = some host.id
  | _ => True

theorem Stage.WritesFirst.writesOwn {settings : Settings} {draws : Draws}
    {db : Database} {stage : Stage}
    (writesFirst : stage.WritesFirst settings draws db) :
    stage.WritesOwn settings draws db := by
  cases stage with
  | ingestChecked host bundle drift changes =>
      intro built scan member carried
      have absent := writesFirst built
      rw [getScanIdByUuid, find_scanUuid member carried] at absent
      cases absent
  | _ => trivial

section Early

variable {settings : Settings} {db after : Database} {upload : Upload}

theorem Early.writesFirst {stage : Stage} (early : Early settings db upload stage) :
    stage.WritesFirst settings upload.draws db := by
  cases early with
  | checked host loaded bundle drift changes known accepted driftRead unstored =>
      intro _
      have absent := (duplicateCheck_ok unstored).2
      rw [getScanIdByUuid, Option.map_eq_none_iff, List.find?_eq_none]
      intro scan member carried
      exact absent scan member (by simpa using carried)
  | received | authenticated | parsed | compared | answered => trivial

/-- A write that passes the duplicate check violates no constraint. -/
theorem exists_scan_of_integrity {py : Runtime} {now : Nat → DateTime}
    {bundle : ScanBundle} {host : Host} {drift : List Finding} {changes : Nat}
    (known : host ∈ db.hosts)
    (refused : writeBundle py now db bundle host drift changes =
      .error .integrity) :
    ∃ scan ∈ db.scans, scan.scanUuid = some bundle.scanUuid := by
  unfold writeBundle at refused
  split at refused
  · cases refused
  next row made =>
  obtain ⟨owner, carried, _, _⟩ := scanRow_columns made
  split at refused
  · next rejected =>
      have hostKnown : ∀ hostId, row.hostId = some hostId →
          ∃ other ∈ db.hosts.rows, other.id = hostId := by
        intro hostId stated
        exact ⟨host, known, Option.some_inj.mp (owner.symm.trans stated)⟩
      obtain ⟨scan, member, clash⟩ :=
        (Database.insertScan?_eq_none_iff hostKnown).mp rejected
      exact ⟨scan, member, (scan_clash_iff carried).mp clash⟩
  · next inserted accepted =>
      dsimp only at refused
      split at refused <;> cases refused

/-- A request that has seen only the start either changes nothing
or makes the first write. -/
theorem Early.step {stage next : Stage} (early : Early settings db upload stage)
    (step : advanceStage settings upload.draws db stage = (after, next)) :
    (after = db ∧ Early settings db upload next) ∨
      ∃ hostId scan result, FirstWrite settings db upload after scan result ∧
        next = .ingestStored hostId result := by
  cases early with
  | received =>
      simp only [advanceStage] at step
      split at step
      · next refusal refused =>
          cases step
          refine Or.inl ⟨rfl, .answered _ ?_⟩
          simp only [Upload.alone, ingest, refused]
      · next host known =>
          cases step
          exact Or.inl ⟨rfl, .authenticated host known⟩
  | authenticated host known =>
      simp only [advanceStage] at step
      split at step
      · next refusal refused =>
          cases step
          refine Or.inl ⟨rfl, .answered _ ?_⟩
          simp only [Upload.alone, ingest, known, refused]
      · next bundle accepted =>
          cases step
          exact Or.inl ⟨rfl, .parsed host bundle known accepted⟩
  | parsed host bundle known accepted =>
      simp only [advanceStage] at step
      split at step
      · next error raised =>
          cases step
          refine Or.inl ⟨rfl, .answered _ ?_⟩
          simp only [Upload.alone, ingest, known, accepted, ingestBundle, raised]
      · next drift changes driftRead =>
          cases step
          exact Or.inl ⟨rfl,
            .compared host bundle drift changes known accepted driftRead⟩
  | compared host bundle drift changes known accepted driftRead =>
      simp only [advanceStage] at step
      split at step
      · next error raised =>
          cases step
          refine Or.inl ⟨rfl, .answered _ ?_⟩
          simp only [Upload.alone, ingest, known, accepted, ingestBundle,
            driftRead, raised]
      · next loaded scanId repeated =>
          cases step
          refine Or.inl ⟨rfl, .answered _ ?_⟩
          simp only [Upload.alone, ingest, known, accepted, ingestBundle,
            driftRead, repeated]
          rfl
      · next loaded unstored =>
          cases step
          exact Or.inl ⟨rfl, .checked host loaded bundle drift changes known
            accepted driftRead unstored⟩
  | checked host loaded bundle drift changes known accepted driftRead unstored =>
      obtain ⟨⟨loadedMember, sameId⟩, absent⟩ := duplicateCheck_ok unstored
      simp only [advanceStage] at step
      split at step
      · next error raised =>
          cases step
          refine Or.inl ⟨rfl, .answered _ ?_⟩
          simp only [Upload.alone, ingest, known, accepted, ingestBundle,
            driftRead, unstored, raised]
      · next refused =>
          obtain ⟨scan, member, carried⟩ :=
            exists_scan_of_integrity loadedMember refused
          exact absurd carried (absent scan member)
      · next written result wrote =>
          cases step
          obtain ⟨time, scan, agentRows, driftRows, newViews, effect, rfl⟩ :=
            writeBundle_written wrote
          refine Or.inr ⟨loaded.id, scan, _, ⟨scanAdded_of_written effect,
            ⟨bundle, loadedBundle_of_accepted (accepted_of_ok accepted),
              effect.scanUuid⟩, rfl, host.id, ?_⟩, rfl⟩
          simp only [Upload.alone, ingest, known, accepted, ingestBundle,
            driftRead, unstored, wrote]
          rfl
  | answered response alone =>
      cases step
      exact Or.inl ⟨rfl, .answered response alone⟩

end Early

/-! ## The request that wrote -/

/-- The stages of the request that made the first write. -/
inductive Winning (scan : Scan) (result : IngestResult) : Stage → Prop
  | stored (hostId : Nat) : Winning scan result (.ingestStored hostId result)
  | pruning (ids : List Nat) (spared : scan.id ∉ ids) :
      Winning scan result (.ingestPruning ids result)
  | pruned : Winning scan result (.ingestPruned result)
  | sweeping (ids : List Nat) (spared : scan.id ∉ ids) :
      Winning scan result (.ingestSweeping ids result)
  | answered : Winning scan result (.answered (ingestAnswer result))

/-- It trims the store without touching what it stored. -/
theorem Winning.step {settings : Settings} {draws : Draws}
    {start db after : Database} {scan : Scan} {result : IngestResult}
    {stage next : Stage} (winning : Winning scan result stage)
    (added : ScanAdded start scan db)
    (step : advanceStage settings draws db stage = (after, next)) :
    ScanAdded start scan after ∧ Winning scan result next := by
  cases winning with
  | stored hostId =>
      simp only [advanceStage, pruneSelection] at step
      split at step
      · cases step
        exact ⟨added, .answered⟩
      · next selected =>
          cases step
          split at selected
          · cases selected
          · cases selected
            exact ⟨added, .pruning _ (added.not_mem_pruneVictims (by omega))⟩
  | pruning ids spared =>
      cases ids with
      | nil =>
          cases step
          exact ⟨added, .pruned⟩
      | cons scanId rest =>
          cases step
          rw [List.mem_cons, not_or] at spared
          have spares : scan.id ∉ [scanId] := by simpa using spared.1
          exact ⟨added.deleteScans spares, .pruning rest spared.2⟩
  | pruned =>
      cases step
      exact ⟨added, .sweeping _ (added.not_mem_staleRollups _)⟩
  | sweeping ids spared =>
      cases ids with
      | nil =>
          cases step
          exact ⟨added, .answered⟩
      | cons scanId rest =>
          cases step
          rw [List.mem_cons, not_or] at spared
          have spares : scan.id ∉ [scanId] := by simpa using spared.1
          exact ⟨added.deleteScans spares, .sweeping rest spared.2⟩
  | answered =>
      cases step
      exact ⟨added, .answered⟩

theorem Winning.writesFirst {settings : Settings} {draws : Draws} {db : Database}
    {scan : Scan} {result : IngestResult} {stage : Stage}
    (winning : Winning scan result stage) :
    stage.WritesFirst settings draws db := by
  cases winning <;> trivial

/-! ## The other request -/

/-- The stages of the other request: it goes on as it would after the first
request, or ends as it would before it. -/
inductive Late (settings : Settings) (start after : Database) (upload : Upload) :
    Stage → Prop
  | received : Late settings start after upload (.ingestReceived upload.request)
  | authenticated (host other : Host)
      (known : agentHost settings after upload.request.authorization = .ok other)
      (same : SameKeys other host) :
      Late settings start after upload (.ingestAuthenticated upload.request host)
  | parsed (host other : Host) (bundle : ScanBundle)
      (known : agentHost settings after upload.request.authorization = .ok other)
      (same : SameKeys other host)
      (accepted : acceptBundle settings upload.draws other upload.request.body =
        .ok bundle) :
      Late settings start after upload (.ingestParsed host bundle)
  | compared (host other : Host) (bundle : ScanBundle) (drift : List Finding)
      (changes : Nat)
      (known : agentHost settings after upload.request.authorization = .ok other)
      (same : SameKeys other host)
      (accepted : acceptBundle settings upload.draws other upload.request.body =
        .ok bundle) :
      Late settings start after upload (.ingestCompared host bundle drift changes)
  | checked (host : Host) (bundle : ScanBundle) (drift : List Finding)
      (changes : Nat)
      (early : Early settings start upload
        (.ingestChecked host bundle drift changes)) :
      Late settings start after upload (.ingestChecked host bundle drift changes)
  | before (response : Response)
      (alone : upload.alone settings start = (start, response)) :
      Late settings start after upload (.answered response)
  | later (response : Response)
      (alone : (upload.alone settings after).2 = response) :
      Late settings start after upload (.answered response)

/-- The stages of a request whose write came second. -/
inductive Raced (scan : Scan) : Stage → Prop
  | raced (bundle : ScanBundle) (carried : scan.scanUuid = some bundle.scanUuid) :
      Raced scan (.ingestRaced bundle)
  | answered : Raced scan (.answered (.ingested scan.id 0 0 true none))

section Late

variable {settings : Settings} {start after db finish : Database}
  {upload : Upload} {scan : Scan}

theorem Early.late {stage : Stage} (early : Early settings start upload stage)
    (alike : HostsAlike start after) : Late settings start after upload stage := by
  cases early with
  | received => exact .received
  | authenticated host known =>
      obtain ⟨other, known', same⟩ := alike.agentHost_ok known
      exact .authenticated host other known' same.symm
  | parsed host bundle known accepted =>
      obtain ⟨other, known', same⟩ := alike.agentHost_ok known
      rw [acceptBundle_congr _ same.machineId] at accepted
      exact .parsed host other bundle known' same.symm accepted
  | compared host bundle drift changes known accepted driftRead =>
      obtain ⟨other, known', same⟩ := alike.agentHost_ok known
      rw [acceptBundle_congr _ same.machineId] at accepted
      exact .compared host other bundle drift changes known' same.symm accepted
  | checked host loaded bundle drift changes known accepted driftRead unstored =>
      exact .checked loaded bundle drift changes
        (.checked host loaded bundle drift changes known accepted driftRead
          unstored)
  | answered response alone => exact .before response alone

/-- The duplicate check at a store that has the uuid. -/
theorem duplicateCheck_of_stored {bundle : ScanBundle} {host : Host}
    (known : host ∈ db.hosts) (member : scan ∈ db.scans)
    (carried : scan.scanUuid = some bundle.scanUuid) :
    duplicateCheck db bundle host.id =
      if scan.hostId = some host.id then .ok (host, some scan.id)
      else .error (.valueError "scan_uuid belongs to another host") := by
  have located : getHost db host.id = some host :=
    getHost_eq_some_iff.mpr ⟨known, rfl⟩
  simp only [duplicateCheck, located, find_scanUuid member carried]

/-- The answer of a request that finds its uuid stored. -/
def storedAnswer (scan : Scan) (hostId : Nat) : Response :=
  if scan.hostId = some hostId then ingestAnswer (duplicateResult scan.id)
  else invalidContent (.valueError "scan_uuid belongs to another host")

theorem alone_of_stored {host : Host} {bundle : ScanBundle}
    (known : agentHost settings db upload.request.authorization = .ok host)
    (accepted : acceptBundle settings upload.draws host upload.request.body =
      .ok bundle)
    (member : scan ∈ db.scans)
    (carried : scan.scanUuid = some bundle.scanUuid) :
    upload.alone settings db = (db, storedAnswer scan host.id) := by
  obtain ⟨_, _, hostMember, _⟩ := agentHost_eq_ok_iff.mp known
  have checked := duplicateCheck_of_stored hostMember member carried
  by_cases owned : scan.hostId = some host.id
  · rw [if_pos owned] at checked
    simp only [Upload.alone, ingest, known, accepted, ingestBundle,
      bundleDrift_of_stored member carried, checked, storedAnswer, if_pos owned]
    rfl
  · rw [if_neg owned] at checked
    simp only [Upload.alone, ingest, known, accepted, ingestBundle,
      bundleDrift_of_stored member carried, checked, storedAnswer, if_neg owned]

/-- A write that can build its scan row violates the unique index. -/
theorem writeBundle_of_stored {py : Runtime} {now : Nat → DateTime}
    {bundle : ScanBundle} {host : Host} {row : Scan} {drift : List Finding}
    {changes : Nat} (known : ∃ current ∈ db.hosts, current.id = host.id)
    (made : scanRow py (now 0) bundle host.id = .ok row)
    (member : scan ∈ db.scans) (carried : scan.scanUuid = some bundle.scanUuid) :
    writeBundle py now db bundle host drift changes = .error .integrity := by
  obtain ⟨owner, rowCarried, _, _⟩ := scanRow_columns made
  have hostKnown : ∀ hostId, row.hostId = some hostId →
      ∃ other ∈ db.hosts.rows, other.id = hostId := by
    intro hostId stated
    obtain rfl := Option.some_inj.mp (owner.symm.trans stated)
    exact known
  have refused : db.insertScan? row = none :=
    (Database.insertScan?_eq_none_iff hostKnown).mpr
      ⟨scan, member, (scan_clash_iff rowCarried).mpr carried⟩
  simp only [writeBundle, made, refused]

/-- A request whose write came second: its host, and what it would be told after
the first one. -/
structure Recovered (settings : Settings) (start after : Database)
    (upload : Upload) (scan : Scan) (host : Host) : Prop where
  known : agentHost settings start upload.request.authorization = .ok host
  later : (upload.alone settings after).2 = storedAnswer scan host.id

/-- After the first write the other request changes nothing.  It goes on in
order unless it is to write, too. -/
theorem Late.step {stage next : Stage}
    (late : Late settings start after upload stage)
    (added : ScanAdded start scan db) (sequential : ScanAdded start scan after)
    (carries : ∀ bundle, loadedBundle settings upload.request.body = some bundle →
      scan.scanUuid = some bundle.scanUuid)
    (step : advanceStage settings upload.draws db stage = (finish, next)) :
    finish = db ∧
      (Late settings start after upload next ∧
          stage.WritesFirst settings upload.draws db ∨
        Raced scan next ∧ ¬ stage.WritesFirst settings upload.draws db ∧
          ∃ host, Recovered settings start after upload scan host ∧
            (stage.WritesOwn settings upload.draws db ↔
              scan.hostId = some host.id)) := by
  have alike : HostsAlike db after := added.alike.symm.trans sequential.alike
  cases late with
  | received =>
      simp only [advanceStage] at step
      split at step
      · next refusal refused =>
          cases step
          refine ⟨rfl, Or.inl ⟨.later _ ?_, trivial⟩⟩
          simp only [Upload.alone, ingest, alike.agentHost_error refused]
      · next host known =>
          cases step
          obtain ⟨other, known', same⟩ := alike.agentHost_ok known
          exact ⟨rfl, Or.inl ⟨.authenticated host other known' same.symm, trivial⟩⟩
  | authenticated host other known same =>
      have checks : acceptBundle settings upload.draws other upload.request.body =
          acceptBundle settings upload.draws host upload.request.body :=
        acceptBundle_congr _ same.machineId
      simp only [advanceStage, ← checks] at step
      split at step
      · next refusal refused =>
          cases step
          refine ⟨rfl, Or.inl ⟨.later _ ?_, trivial⟩⟩
          simp only [Upload.alone, ingest, known, refused]
      · next bundle accepted =>
          cases step
          exact ⟨rfl, Or.inl ⟨.parsed host other bundle known same accepted,
            trivial⟩⟩
  | parsed host other bundle known same accepted =>
      have carried := carries bundle
        (loadedBundle_of_accepted (accepted_of_ok accepted))
      simp only [advanceStage, bundleDrift_of_stored added.member carried] at step
      cases step
      exact ⟨rfl, Or.inl ⟨.compared host other bundle [] 0 known same accepted,
        trivial⟩⟩
  | compared host other bundle drift changes known same accepted =>
      have carried := carries bundle
        (loadedBundle_of_accepted (accepted_of_ok accepted))
      obtain ⟨_, _, otherMember, _⟩ := agentHost_eq_ok_iff.mp known
      obtain ⟨current, currentMember, same'⟩ := alike.backward other otherMember
      have sameId : current.id = host.id := same'.id.trans same.id
      have sequentially : (upload.alone settings after).2 =
          storedAnswer scan host.id := by
        rw [alone_of_stored known accepted sequential.member carried, same.id]
      have checked := duplicateCheck_of_stored currentMember added.member carried
      rw [sameId] at checked
      by_cases owned : scan.hostId = some host.id
      · rw [if_pos owned] at checked
        simp only [advanceStage, checked] at step
        cases step
        refine ⟨rfl, Or.inl ⟨.later _ (sequentially.trans ?_), trivial⟩⟩
        exact if_pos owned
      · rw [if_neg owned] at checked
        simp only [advanceStage, checked] at step
        cases step
        refine ⟨rfl, Or.inl ⟨.later _ (sequentially.trans ?_), trivial⟩⟩
        exact if_neg owned
  | checked loaded bundle drift changes early =>
      cases early with
      | checked host _ _ _ _ known accepted driftRead unstored =>
      have carried := carries bundle
        (loadedBundle_of_accepted (accepted_of_ok accepted))
      obtain ⟨⟨loadedMember, sameId⟩, _⟩ := duplicateCheck_ok unstored
      cases made : scanRow settings.py (upload.draws.now 0) bundle loaded.id with
      | error error =>
          simp only [advanceStage, writeBundle, made] at step
          cases step
          refine ⟨rfl, Or.inl ⟨.before _ ?_, ?_⟩⟩
          · simp only [Upload.alone, ingest, known, accepted, ingestBundle,
              driftRead, unstored, writeBundle, made]
          · rintro ⟨row, built⟩
            rw [made] at built
            cases built
      | ok row =>
          obtain ⟨current, currentMember, same⟩ :=
            added.alike.forward loaded loadedMember
          have refused : writeBundle settings.py upload.draws.now db bundle
              loaded drift changes = .error .integrity :=
            writeBundle_of_stored ⟨current, currentMember, same.id.symm⟩ made
              added.member carried
          simp only [advanceStage, refused] at step
          cases step
          refine ⟨rfl, Or.inr ⟨.raced bundle carried, ?_, host, ⟨known, ?_⟩, ?_⟩⟩
          · intro writesFirst
            have absent := writesFirst ⟨row, made⟩
            rw [getScanIdByUuid, find_scanUuid added.member carried] at absent
            cases absent
          · obtain ⟨other, known', same'⟩ := sequential.alike.agentHost_ok known
            rw [acceptBundle_congr _ same'.machineId] at accepted
            rw [alone_of_stored known' accepted sequential.member carried,
              same'.id]
          · rw [← sameId]
            constructor
            · exact fun own => own ⟨row, made⟩ scan added.member carried
            · intro owned _ stored storedMember storedCarried
              rw [Database.scan_eq_of_scanUuid storedMember added.member
                storedCarried carried]
              exact owned
  | before response alone =>
      cases step
      exact ⟨rfl, Or.inl ⟨.before response alone, trivial⟩⟩
  | later response alone =>
      cases step
      exact ⟨rfl, Or.inl ⟨.later response alone, trivial⟩⟩

theorem Raced.step {draws : Draws} {stage next : Stage} (raced : Raced scan stage)
    (added : ScanAdded start scan db)
    (step : advanceStage settings draws db stage = (finish, next)) :
    finish = db ∧ Raced scan next ∧ stage.WritesOwn settings draws db := by
  cases raced with
  | raced bundle carried =>
      simp only [advanceStage, recoverRace, getScanIdByUuid,
        find_scanUuid added.member carried, Option.map_some] at step
      cases step
      exact ⟨rfl, .answered, trivial⟩
  | answered =>
      cases step
      exact ⟨rfl, .answered, trivial⟩

end Late

end Daemon
end PqcScan
