import PqcScan.Daemon.Authorization

/-!
# Resends and retention

Ingest recognises a resend by the row of the stored scan, and retention
deletes rows.  A resend is recognised as long as fewer than `keep` newer scans
of the host were stored since, or while the scan is the newest done one.
-/

namespace PqcScan
namespace Daemon

open Library Python PqcScan.Core Store Repo

/-! ## The bundles a run stored -/

/-- The bundle an exchange stored. -/
def storedBundle (settings : Settings) (exchange : Exchange) :
    Option ScanBundle :=
  match exchange.request, exchange.response with
  | .ingest request, .ingested _ _ _ false _ =>
      loadedBundle settings request.body
  | _, _ => none

/-- The bundles a run stored, in order. -/
def storedBundles (settings : Settings) (exchanges : List Exchange) :
    List ScanBundle :=
  exchanges.filterMap (storedBundle settings)

theorem storedBundles_snoc (settings : Settings) (exchanges : List Exchange)
    (last : Exchange) :
    storedBundles settings (exchanges ++ [last]) =
      storedBundles settings exchanges ++ (storedBundle settings last).toList := by
  rw [storedBundles, List.filterMap_append, ← storedBundles]
  cases found : storedBundle settings last <;> simp [found]

/-- Among the bundles stored so far, one with the uuid is still
retained: fewer than `keep` of its machine came later, or it is done and
no later one of its machine is. -/
def Retained (settings : Settings) (stored : List ScanBundle) (uuid : String) :
    Prop :=
  ∃ earlier bundle later, stored = earlier ++ bundle :: later ∧
    bundle.scanUuid = uuid ∧
    ((later.filter (·.host.machineId == bundle.host.machineId)).length <
        settings.keepScansPerHost ∨
      storedStatus settings.py bundle = "done" ∧
        ∀ newer ∈ later, newer.host.machineId = bundle.host.machineId →
          storedStatus settings.py newer ≠ "done")

/-! ## Hosts stay -/

/-- Every host row keeps its key and its machine. -/
def HostsKept (before after : Database) : Prop :=
  ∀ host ∈ before.hosts, ∃ new ∈ after.hosts,
    new.id = host.id ∧ new.machineId = host.machineId

theorem hostsKept_of_writes {before after : Database} {old : Option Host}
    {row : Host} (writes : Table.Writes before.hosts after.hosts old row)
    (machineId : ∀ host, old = some host → row.machineId = host.machineId) :
    HostsKept before after := by
  intro host member
  by_cases same : host.id = row.id
  · have located : before.hosts.get? (Row.id row) = some host :=
      Table.get?_eq_some_iff.mpr ⟨member, same⟩
    exact ⟨row, writes.written, same.symm,
      machineId host (writes.replaced.symm.trans located)⟩
  · exact ⟨host, (writes.mem_iff_of_ne same).mpr member, rfl, rfl⟩

theorem hostsKept_of_serves {settings : Settings} {before after : Database}
    {exchange : Exchange} (served : Serves settings before exchange after) :
    HostsKept before after := by
  cases effect_of_serves served with
  | unchanged same quiet =>
      subst same
      exact fun host member => ⟨host, member, rfl, rfl⟩
  | enrolled body identity row asked read approved upserted answer =>
      refine hostsKept_of_writes upserted.writes fun host found => ?_
      rw [upserted.machineId, (getHostByMachineId_eq_some_iff.mp found).2]
  | stored request host bundle middle drift changes time scan agentRows driftRows
      newViews asked authenticated accepted written trimmed answer =>
      obtain ⟨_, _, hostMember, _⟩ := agentHost_eq_ok_iff.mp authenticated
      have writes := written.writes (getHost_eq_some_iff.mpr ⟨hostMember, rfl⟩)
      have kept : HostsKept before middle :=
        hostsKept_of_writes writes fun other found => by cases found; rfl
      intro other member
      rw [trimmed, hosts_trim]
      exact kept other member
  | revoked hostId host asked found writes others answer =>
      exact hostsKept_of_writes writes fun other found => by cases found; rfl
  | unrevoked hostId host asked found writes others answer =>
      exact hostsKept_of_writes writes fun other found => by cases found; rfl

/-! ## The rows of a run -/

/-- The scan row was written for the bundle. -/
def Records (settings : Settings) (db : Database) (bundle : ScanBundle)
    (scan : Scan) : Prop :=
  (scan.scanUuid = some bundle.scanUuid ∧
    scan.status = storedStatus settings.py bundle ∧ scan.label = none) ∧
  ∃ host ∈ db.hosts, host.machineId = bundle.host.machineId ∧
    scan.hostId = some host.id

theorem Records.mono {settings : Settings} {before after : Database}
    {bundle : ScanBundle} {scan : Scan} (kept : HostsKept before after)
    (records : Records settings before bundle scan) :
    Records settings after bundle scan := by
  obtain ⟨columns, host, member, machine, owned⟩ := records
  obtain ⟨new, newMember, sameId, sameMachine⟩ := kept host member
  exact ⟨columns, new, newMember, sameMachine.trans machine, sameId ▸ owned⟩

/-- Two recorded bundles have one machine exactly when
their rows have one host. -/
theorem Records.machineId_iff {settings : Settings} {db : Database}
    {left right : ScanBundle} {leftScan rightScan : Scan}
    (leftRecords : Records settings db left leftScan)
    (rightRecords : Records settings db right rightScan) :
    left.host.machineId = right.host.machineId ↔
      leftScan.hostId = rightScan.hostId := by
  obtain ⟨_, leftHost, leftMember, leftMachine, leftOwned⟩ := leftRecords
  obtain ⟨_, rightHost, rightMember, rightMachine, rightOwned⟩ := rightRecords
  rw [← leftMachine, ← rightMachine, leftOwned, rightOwned, Option.some_inj]
  constructor
  · intro same
    rw [Database.host_eq_of_machineId leftMember rightMember same]
  · intro same
    rw [Table.eq_of_id_eq leftMember rightMember same]

/-- Retention spares the row: few newer rows of its host follow it, or it is
done and none of these is. -/
def Survives (keep : Nat) (scan : Scan) (later : List Scan) : Prop :=
  (later.filter (·.hostId == scan.hostId)).length < keep ∨
    scan.status = "done" ∧
      ∀ newer ∈ later, newer.hostId = scan.hostId → newer.status ≠ "done"

/-- What was spared after more rows was spared before them. -/
theorem Survives.of_append {keep : Nat} {scan : Scan} {later more : List Scan}
    (survives : Survives keep scan (later ++ more)) : Survives keep scan later := by
  rcases survives with few | ⟨done, newest⟩
  · rw [List.filter_append, List.length_append] at few
    exact Or.inl (by omega)
  · exact Or.inr ⟨done, fun newer member =>
      newest newer (List.mem_append_left more member)⟩

/-- The rows a run has written, and which of them are still there. -/
structure ScanHistory (settings : Settings) (start : Database)
    (stored : List ScanBundle) (db : Database) (written : List Scan) : Prop where
  records : List.Forall₂ (Records settings db) stored written
  ascending : written.Pairwise fun left right => left.id < right.id
  afterStart : ∀ old ∈ start.scans, ∀ scan ∈ written, old.id < scan.id
  origin : ∀ scan ∈ db.scans, scan ∈ start.scans ∨ scan ∈ written
  untouched : written = [] → db.scans = start.scans
  kept : ∀ earlier scan later, written = earlier ++ scan :: later →
    Survives settings.keepScansPerHost scan later → scan ∈ db.scans

/-- A newer row than a written one was written later. -/
theorem mem_later_of_newer {start : Database} {earlier later : List Scan}
    {scan newer : Scan}
    (ascending : (earlier ++ scan :: later).Pairwise
      fun left right => left.id < right.id)
    (afterStart : ∀ old ∈ start.scans, ∀ other ∈ earlier ++ scan :: later,
      old.id < other.id)
    (origin : newer ∈ start.scans ∨ newer ∈ earlier ++ scan :: later)
    (isNewer : scan.id < newer.id) : newer ∈ later := by
  rcases origin with old | member
  · have below := afterStart newer old scan (by simp)
    omega
  · rw [List.mem_append, List.mem_cons] at member
    rcases member with before | rfl | after
    · have below := (List.pairwise_append.mp ascending).2.2 newer before scan
        List.mem_cons_self
      omega
    · omega
    · exact after

/-- Retention spares every surviving row. -/
theorem spared {settings : Settings} {start middle : Database} {draws : Draws}
    {written earlier later : List Scan} {scan : Scan} {hostId : Nat}
    (ascending : written.Pairwise fun left right => left.id < right.id)
    (afterStart : ∀ old ∈ start.scans, ∀ other ∈ written, old.id < other.id)
    (origin : ∀ other ∈ middle.scans, other ∈ start.scans ∨ other ∈ written)
    (place : written = earlier ++ scan :: later)
    (member : scan ∈ middle.scans) (label : scan.label = none)
    (survives : Survives settings.keepScansPerHost scan later) :
    scan ∈ (trim settings draws middle hostId).scans := by
  subst place
  obtain ⟨ids, deletes, selected⟩ := trim_deletes settings draws middle hostId
  rw [deletes, mem_deleteScans]
  refine ⟨member, fun doomed => ?_⟩
  have sameRow : ∀ found ∈ middle.scans, found.id = scan.id → found = scan :=
    fun found foundMember same => Table.eq_of_id_eq foundMember member same
  rcases selected scan.id doomed with
    ⟨rollup, rollupMember, same, rollupLabel⟩ | ⟨_, victim⟩
  · rw [sameRow rollup rollupMember same, label] at rollupLabel
    cases rollupLabel
  · obtain ⟨⟨found, foundMember, same, owned⟩, many, notNewest⟩ :=
      mem_pruneVictims victim
    obtain rfl := sameRow found foundMember same
    have newerLater : ∀ newer ∈ newerScans middle hostId found.id,
        newer ∈ later ∧ newer.hostId = found.hostId := by
      intro newer newerMember
      rw [newerScans, List.mem_filter, mem_scansOf] at newerMember
      obtain ⟨⟨newerStored, newerOwned⟩, isNewer⟩ := newerMember
      exact ⟨mem_later_of_newer ascending afterStart
        (origin newer newerStored) (by simpa using isNewer),
        newerOwned.trans owned.symm⟩
    rcases survives with few | ⟨done, newest⟩
    · have bounded : (newerScans middle hostId found.id).length ≤
          (later.filter (·.hostId == found.hostId)).length := by
        apply length_newerScans_le
        intro newer newerMember
        obtain ⟨laterMember, sameHost⟩ := newerLater newer newerMember
        exact List.mem_filter.mpr ⟨laterMember, by simp [sameHost]⟩
      omega
    · rw [latestDone_eq_some member owned done fun newer newerMember => by
        obtain ⟨laterMember, sameHost⟩ := newerLater newer newerMember
        exact newest newer laterMember sameHost] at notNewest
      exact notNewest rfl

/-- Storing a bundle extends the history by its row. -/
theorem scanHistory_stored {settings : Settings} {start before middle : Database}
    {draws : Draws} {stored : List ScanBundle} {written : List Scan}
    {bundle : ScanBundle} {host : Host} {drift : List Finding} {time : DateTime}
    {scan : Scan} {agentRows driftRows : List FindingRow}
    {newViews : List FrameworkView}
    (keepsOne : 1 ≤ settings.keepScansPerHost)
    (history : ScanHistory settings start stored before written)
    (hostMember : host ∈ before.hosts)
    (machineId : bundle.host.machineId = host.machineId)
    (effect : BundleWritten settings.py before middle bundle host drift time
      scan agentRows driftRows newViews)
    (hostsKept : HostsKept before (trim settings draws middle host.id)) :
    ScanHistory settings start (stored ++ [bundle])
      (trim settings draws middle host.id) (written ++ [scan]) := by
  have aboveStored : ∀ other ∈ before.scans, other.id < scan.id := by
    intro other member
    rw [effect.scanId]
    exact Table.id_lt_nextId member
  have aboveWritten : ∀ other ∈ written, other.id < scan.id := by
    intro other member
    obtain ⟨last, isLast⟩ : ∃ last, written.getLast? = some last :=
      ⟨_, List.getLast?_eq_some_getLast (List.ne_nil_of_mem member)⟩
    obtain ⟨front, rfl⟩ := List.getLast?_eq_some_iff.mp isLast
    have lastStored : last ∈ before.scans :=
      history.kept front last [] rfl (Or.inl keepsOne)
    have belowScan := aboveStored last lastStored
    rw [List.mem_append, List.mem_singleton] at member
    rcases member with inFront | rfl
    · have belowLast := (List.pairwise_append.mp history.ascending).2.2 other
        inFront last List.mem_cons_self
      omega
    · exact belowScan
  have ascending : (written ++ [scan]).Pairwise
      fun left right => left.id < right.id := by
    rw [List.pairwise_append]
    refine ⟨history.ascending, List.pairwise_singleton _ _, ?_⟩
    intro other member last lastMember
    rw [List.mem_singleton.mp lastMember]
    exact aboveWritten other member
  have afterStart : ∀ old ∈ start.scans, ∀ other ∈ written ++ [scan],
      old.id < other.id := by
    intro old oldMember other member
    rw [List.mem_append, List.mem_singleton] at member
    rcases member with earlier | rfl
    · exact history.afterStart old oldMember other earlier
    · cases written with
      | nil => exact aboveStored old (history.untouched rfl ▸ oldMember)
      | cons first rest =>
          exact (history.afterStart old oldMember first List.mem_cons_self).trans
            (aboveWritten first List.mem_cons_self)
  have stillThere : ∀ other ∈ middle.scans,
      other ∈ start.scans ∨ other ∈ written ++ [scan] := by
    intro other member
    rw [Table.mem_iff, effect.scans, List.mem_append] at member
    rcases member with earlier | new
    · exact (history.origin other earlier).imp_right (List.mem_append_left _)
    · exact Or.inr (List.mem_append_right _ new)
  refine ⟨?_, ascending, afterStart, ?_, by simp, ?_⟩
  · refine List.rel_append (history.records.imp fun left right records =>
      records.mono hostsKept) (.cons ?_ .nil)
    obtain ⟨new, newMember, sameId, sameMachine⟩ := hostsKept host hostMember
    exact ⟨⟨effect.scanUuid, effect.scanStatus, effect.scanLabel⟩, new,
      newMember, sameMachine.trans machineId.symm, sameId ▸ effect.scanHost⟩
  · intro other member
    obtain ⟨ids, deletes, _⟩ := trim_deletes settings draws middle host.id
    rw [deletes, mem_deleteScans] at member
    exact stillThere other member.1
  · intro earlier kept later place survives
    rcases List.eq_nil_or_concat' later with rfl | ⟨front, last, rfl⟩
    · obtain ⟨rfl, sameLast⟩ := List.append_inj' place rfl
      obtain rfl := (List.cons.inj sameLast).1
      refine spared ascending afterStart stillThere rfl ?_ effect.scanLabel survives
      rw [Table.mem_iff, effect.scans]
      exact List.mem_append_right _ List.mem_cons_self
    · have grouped : written ++ [scan] = (earlier ++ kept :: front) ++ [last] := by
        rw [place, List.append_assoc]
        rfl
      obtain ⟨writtenEq, sameLast⟩ := List.append_inj' grouped rfl
      have before' := history.kept earlier kept front writtenEq
        (survives.of_append)
      obtain ⟨row, _, records⟩ := exists_left history.records
        (writtenEq ▸ (by simp) : kept ∈ written)
      refine spared ascending afterStart stillThere place ?_ records.1.2.2 survives
      rw [Table.mem_iff, effect.scans]
      exact List.mem_append_left _ before'

/-- One exchange extends the history of stored bundles. -/
theorem scanHistory_step {settings : Settings} {start before after : Database}
    {past : List Exchange} {exchange : Exchange} {written : List Scan}
    (keepsOne : 1 ≤ settings.keepScansPerHost)
    (history : ScanHistory settings start (storedBundles settings past) before
      written)
    (served : Serves settings before exchange after) :
    ∃ written', ScanHistory settings start
      (storedBundles settings (past ++ [exchange])) after written' := by
  have hostsKept := hostsKept_of_serves served
  have unstored : storedBundle settings exchange = none →
      after.scans = before.scans →
      ∃ written', ScanHistory settings start
        (storedBundles settings (past ++ [exchange])) after written' := by
    intro none sameScans
    refine ⟨written, ?_⟩
    rw [storedBundles_snoc, none, Option.toList_none, List.append_nil]
    refine ⟨history.records.imp fun left right records => records.mono hostsKept,
      history.ascending, history.afterStart, ?_, ?_, ?_⟩
    · rw [sameScans]
      exact history.origin
    · rw [sameScans]
      exact history.untouched
    · rw [sameScans]
      exact history.kept
  cases effect_of_serves served with
  | unchanged same quiet =>
      refine unstored ?_ (by rw [same])
      unfold storedBundle
      split
      · next answer => rw [answer] at quiet; cases quiet
      · rfl
  | enrolled body identity row asked read approved upserted answer =>
      exact unstored (by simp only [storedBundle, asked]) upserted.others.scans
  | stored request host bundle middle drift changes time scan agentRows driftRows
      newViews asked authenticated accepted effect trimmed answer =>
      subst trimmed
      obtain ⟨_, _, hostMember, _⟩ := agentHost_eq_ok_iff.mp authenticated
      have bundleStored : storedBundle settings exchange = some bundle := by
        simp only [storedBundle, asked, answer, ingestAnswer, writtenResult,
          loadedBundle_of_accepted accepted]
      refine ⟨written ++ [scan], ?_⟩
      rw [storedBundles_snoc, bundleStored]
      exact scanHistory_stored keepsOne history hostMember accepted.machineId
        effect hostsKept
  | revoked hostId host asked found writes others answer =>
      exact unstored (by simp only [storedBundle, asked]) others.scans
  | unrevoked hostId host asked found writes others answer =>
      exact unstored (by simp only [storedBundle, asked]) others.scans

/-- Every run has a history of the rows it wrote. -/
theorem scanHistory {settings : Settings} {start finish : Database}
    {exchanges : List Exchange} (keepsOne : 1 ≤ settings.keepScansPerHost)
    (run : CollectorRun settings start exchanges finish) :
    ∃ written, ScanHistory settings start (storedBundles settings exchanges)
      finish written := by
  refine run.history (fun past db => ∃ written, ScanHistory settings start
    (storedBundles settings past) db written) ?_ ?_
  · exact ⟨[], .nil, List.Pairwise.nil, by simp, fun _ member => Or.inl member,
      fun _ => rfl, by simp⟩
  · rintro past before exchange after _ ⟨written, history⟩ served
    exact scanHistory_step keepsOne history served

/-! ## Resends -/

/-- The row of a retained bundle is stored. -/
theorem scan_of_retained {settings : Settings} {start db : Database}
    {stored : List ScanBundle} {written : List Scan} {uuid : String}
    (history : ScanHistory settings start stored db written)
    (retained : Retained settings stored uuid) :
    ∃ scan ∈ db.scans, scan.scanUuid = some uuid := by
  obtain ⟨earlier, bundle, later, rfl, rfl, reason⟩ := retained
  obtain ⟨front, scan, back, place, records, laterRecords⟩ :=
    forall₂_split history.records
  refine ⟨scan, history.kept front scan back place ?_, records.1.1⟩
  have sameHost : ∀ newer row, Records settings db newer row →
      (newer.host.machineId == bundle.host.machineId) =
        (row.hostId == scan.hostId) := by
    intro newer row newerRecords
    rw [Bool.eq_iff_iff, beq_iff_eq, beq_iff_eq]
    exact newerRecords.machineId_iff records
  rcases reason with few | ⟨done, newest⟩
  · rw [length_filter_of_forall₂ laterRecords sameHost] at few
    exact Or.inl few
  · refine Or.inr ⟨records.1.2.1.trans done, fun row rowMember owned => ?_⟩
    obtain ⟨newer, newerMember, newerRecords⟩ := exists_left laterRecords rowMember
    rw [newerRecords.1.2.1]
    exact newest newer newerMember ((newerRecords.machineId_iff records).mpr owned)

/-- The exchange sends a bundle again that the run has stored: it reaches the
store, with the uuid of a bundle stored before. -/
def Resends (settings : Settings) (before : Database) (past : List Exchange)
    (exchange : Exchange) (uuid : String) : Prop :=
  ∃ request host bundle, exchange.request = .ingest request ∧
    agentHost settings before request.authorization = .ok host ∧
    Accepted settings exchange.draws host request.body bundle ∧
    bundle.scanUuid = uuid ∧
    uuid ∈ (storedBundles settings past).map ScanBundle.scanUuid

/-- Every resend of the run comes while the stored bundle is retained. -/
def ResendsInTime (settings : Settings) (start : Database)
    (exchanges : List Exchange) : Prop :=
  ∀ earlier exchange later, exchanges = earlier ++ exchange :: later →
    ∀ before uuid, CollectorRun settings start earlier before →
      Resends settings before earlier exchange uuid →
        Retained settings (storedBundles settings earlier) uuid

/-- A resend of a retained bundle changes nothing. -/
theorem unchanged_of_resend {settings : Settings} {start before after : Database}
    {past : List Exchange} {exchange : Exchange} {uuid : String}
    (keepsOne : 1 ≤ settings.keepScansPerHost)
    (run : CollectorRun settings start past before)
    (served : Serves settings before exchange after)
    (resends : Resends settings before past exchange uuid)
    (retained : Retained settings (storedBundles settings past) uuid) :
    after = before ∧ storedBundle settings exchange = none := by
  obtain ⟨written, history⟩ := scanHistory keepsOne run
  obtain ⟨scan, member, carried⟩ := scan_of_retained history retained
  obtain ⟨request, host, bundle, asked, _, accepted, uuidEq, _⟩ := resends
  cases effect_of_serves served with
  | unchanged same quiet =>
      refine ⟨same, ?_⟩
      unfold storedBundle
      split
      · next answer => rw [answer] at quiet; cases quiet
      · rfl
  | enrolled body identity row asked' => rw [asked] at asked'; cases asked'
  | stored request' host' bundle' middle drift changes time scan' agentRows
      driftRows newViews asked' authenticated accepted' written' trimmed answer =>
      rw [asked, Request.ingest.injEq] at asked'
      subst asked'
      have sameBundle : bundle = bundle' := Option.some_inj.mp
        ((loadedBundle_of_accepted accepted).symm.trans
          (loadedBundle_of_accepted accepted'))
      subst sameBundle
      exact absurd (uuidEq ▸ carried) (written'.fresh scan member)
  | revoked hostId host asked' => rw [asked] at asked'; cases asked'
  | unrevoked hostId host asked' => rw [asked] at asked'; cases asked'

/-- An exchange that stores a bundle stored before is a resend. -/
theorem resends_of_stored {settings : Settings} {before after : Database}
    {past : List Exchange} {exchange : Exchange} {bundle : ScanBundle}
    (served : Serves settings before exchange after)
    (stores : storedBundle settings exchange = some bundle)
    (again : bundle.scanUuid ∈
      (storedBundles settings past).map ScanBundle.scanUuid) :
    Resends settings before past exchange bundle.scanUuid := by
  cases effect_of_serves served with
  | unchanged same quiet =>
      unfold storedBundle at stores
      split at stores
      · next answer => rw [answer] at quiet; cases quiet
      · cases stores
  | enrolled body identity row asked =>
      simp only [storedBundle, asked, reduceCtorEq] at stores
  | stored request host bundle' middle drift changes time scan agentRows
      driftRows newViews asked authenticated accepted written trimmed answer =>
      simp only [storedBundle, asked, answer, ingestAnswer, writtenResult,
        loadedBundle_of_accepted accepted, Option.some.injEq] at stores
      subst stores
      exact ⟨request, host, bundle', asked, authenticated, accepted, rfl, again⟩
  | revoked hostId host asked =>
      simp only [storedBundle, asked, reduceCtorEq] at stores
  | unrevoked hostId host asked =>
      simp only [storedBundle, asked, reduceCtorEq] at stores

/-- A run in which no bundle is stored twice and no
resend changes the store. -/
structure StoredOnce (settings : Settings) (start : Database)
    (exchanges : List Exchange) (finish : Database) : Prop where
  distinct : ((storedBundles settings exchanges).map ScanBundle.scanUuid).Nodup
  resends : ∀ earlier exchange later, exchanges = earlier ++ exchange :: later →
    ∃ before after, CollectorRun settings start earlier before ∧
      Serves settings before exchange after ∧
      CollectorRun settings after later finish ∧
      ∀ uuid, Resends settings before earlier exchange uuid → after = before

/-- In every run whose resends come while the stored bundle is retained, no
bundle is stored twice and a resend changes nothing. -/
theorem deduplication_survives_retention (settings : Settings)
    (start finish : Database) (exchanges : List Exchange)
    (keepsOne : 1 ≤ settings.keepScansPerHost)
    (run : CollectorRun settings start exchanges finish)
    (inTime : ResendsInTime settings start exchanges) :
    StoredOnce settings start exchanges finish := by
  constructor
  · revert inTime
    refine run.history (fun past _ => ResendsInTime settings start past →
      ((storedBundles settings past).map ScanBundle.scanUuid).Nodup) ?_ ?_
    · exact fun _ => List.nodup_nil
    · intro past before exchange after earlierRun inductionHypothesis served inTime
      have distinct := inductionHypothesis fun earlier other later place =>
        inTime earlier other (later ++ [exchange]) (by simp [place])
      rw [storedBundles_snoc]
      cases stores : storedBundle settings exchange with
      | none => simpa using distinct
      | some bundle =>
          rw [Option.toList_some, List.map_append, List.nodup_append]
          refine ⟨distinct, by simp, ?_⟩
          rintro uuid member _ last rfl
          rw [List.map_singleton, List.mem_singleton] at last
          subst last
          have resends := resends_of_stored served stores member
          have unchanged := unchanged_of_resend keepsOne earlierRun served resends
            (inTime past exchange [] rfl before _ earlierRun resends)
          rw [stores] at unchanged
          exact absurd unchanged.2 (by simp)
  · rintro earlier exchange later rfl
    obtain ⟨before, after, first, served, rest⟩ := run.at_step
    refine ⟨before, after, first, served, rest, fun uuid resends => ?_⟩
    exact (unchanged_of_resend keepsOne first served resends
      (inTime earlier exchange later rfl before uuid first resends)).1

/-- A run that stores at most `keep` bundles has no late resend. -/
theorem resendsInTime_of_few {settings : Settings} {start : Database}
    {exchanges : List Exchange}
    (few : (storedBundles settings exchanges).length ≤ settings.keepScansPerHost) :
    ResendsInTime settings start exchanges := by
  rintro earlier exchange later rfl before uuid _ ⟨_, _, _, _, _, _, _, again⟩
  obtain ⟨bundle, member, uuidEq⟩ := List.mem_map.mp again
  obtain ⟨front, back, place⟩ := List.append_of_mem member
  refine ⟨front, bundle, back, place, uuidEq, Or.inl ?_⟩
  have shorter : (storedBundles settings earlier).length ≤
      (storedBundles settings (earlier ++ exchange :: later)).length := by
    rw [storedBundles, storedBundles, List.filterMap_append, List.length_append]
    omega
  rw [place, List.length_append, List.length_cons] at shorter
  have filtered := List.length_filter_le
    (·.host.machineId == bundle.host.machineId) back
  omega

/-- Three finished scans of one machine. -/
def threeScans : List Document :=
  [scanDocument "m1" "u1" [148, 227, 223, 116],
    scanDocument "m1" "u2" [164, 54, 219, 18],
    scanDocument "m1" "u3" [180, 133, 216, 48]]

/-- A collector that keeps two scans of a host. -/
def keepTwo : Settings :=
  sampleSettings (enrollDocument "m1" [] :: threeScans) 2

/-- The machine enrolls and sends the given scans. -/
def sends (scans : List Document) : List (Request × Draws) :=
  (enrollRequest (enrollDocument "m1" []), sampleDraws "t1") ::
    scans.map fun scan => (.ingest (ingestRequest "t1" scan), sampleDraws "")

theorem deduplication_survives_retention_resent :
    let requests := sends (threeScans.take 1 ++ threeScans.take 1)
    StoredOnce keepTwo Database.empty (serveAll keepTwo Database.empty requests).2
      (serveAll keepTwo Database.empty requests).1 := by
  intro requests
  refine deduplication_survives_retention keepTwo Database.empty _ _ (by decide)
    (run_serveAll keepTwo Database.empty requests) (resendsInTime_of_few ?_)
  decide +kernel

/-- After two newer scans the first one is stored again. -/
theorem late_resend_stored_again :
    ∃ settings exchanges finish, 2 ≤ settings.keepScansPerHost ∧
      CollectorRun settings Database.empty exchanges finish ∧
      ¬ ((storedBundles settings exchanges).map ScanBundle.scanUuid).Nodup := by
  refine ⟨keepTwo, _, _, by decide,
    run_serveAll keepTwo Database.empty (sends (threeScans ++ threeScans.take 1)),
    ?_⟩
  have uuids : (storedBundles keepTwo (serveAll keepTwo Database.empty
      (sends (threeScans ++ threeScans.take 1))).2).map ScanBundle.scanUuid =
        ["u1", "u2", "u3", "u1"] := by
    decide +kernel
  rw [uuids]
  decide

end Daemon
end PqcScan
