import PqcScan.Core.Bands
import PqcScan.Library.Grouping
import PqcScan.Store.Retention
import Mathlib.Data.List.Sort

/-!
# The fleet summary

`fleet_summary` takes the latest done scan of every host and its counts from
three grouped queries.  The counts are those of a walk over the findings of the
scan, one by one.
-/

namespace PqcScan
namespace Store

open Library Python PqcScan.Core

/-- The columns `fleet_summary` groups findings by. -/
structure FindingGroup where
  scanId : Nat
  classification : String
  algorithm : String
  probeId : String
  severity : String
  deriving DecidableEq

/-- The group that a row is counted in. -/
def FindingRow.group (row : FindingRow) : FindingGroup :=
  ⟨row.scanId, row.classification, row.algorithm, row.probeId, row.severity⟩

/-- What the bands read of a group. -/
def FindingGroup.rated (group : FindingGroup) : Rated :=
  ⟨group.classification, group.algorithm, group.probeId⟩

/-- A stored finding as `classify_band` reads it. -/
def FindingRow.rated (row : FindingRow) : Rated :=
  ⟨row.classification, row.algorithm, row.probeId⟩

/-- A host with its latest done scan. -/
structure HostSummary where
  host : Host
  scanId : Option Nat
  finishedAt : Option DateTime
  readiness : Option Nat
  crit : Nat
  high : Nat
  total : Nat
  drift : Nat
  deriving DecidableEq

namespace Repo

/-- `list_findings`. -/
def listFindings (db : Database) (scanId : Nat) : List FindingRow :=
  (db.findings.rows.filter (·.scanId == scanId)).insertionSort
    fun left right => left.createdAt ≤ right.createdAt

/-- `is_drift`. -/
def isDrift (row : FindingRow) : Bool := row.probeId == driftProbe

/-! ## The queries -/

/-- The greatest id among the done scans of each host. -/
def latestIds (db : Database) : List Nat :=
  groupMax Scan.hostId Scan.id
    (db.scans.rows.filter fun scan => scan.status == "done" && scan.hostId.isSome)

/-- The latest done scans by host. -/
def latestScans (db : Database) : Dict (Option Nat) Scan :=
  Dict.ofList ((db.scans.rows.filter fun scan => (latestIds db).contains scan.id).map
    fun scan => (scan.hostId, scan))

/-- The hosts by name. -/
def hostsByName (db : Database) : List Host :=
  db.hosts.rows.insertionSort fun left right =>
    left.hostname < right.hostname ∨
      left.hostname = right.hostname ∧ left.id ≤ right.id

/-- One group of equal findings. -/
def countGroup (lower : String → String) (counts : Tally) (group : FindingGroup × Nat) :
    Tally :=
  let (finding, n) := group
  if finding.probeId == driftProbe then counts.add .drift n
  else
    let counts :=
      (counts.add (.band (classifyBand lower finding.rated)) n).add .total n
    if finding.severity = "crit" then counts.add .crit n
    else if finding.severity = "high" then counts.add .high n
    else counts

/-- The counts of each latest scan. -/
def fleetTally (lower : String → String) (db : Database) : Dict Nat Tally :=
  accumulate (fun group : FindingGroup × Nat => group.1.scanId) (countGroup lower)
    emptyBandCounts
    (groupCount ((db.findings.rows.filter fun row =>
      (latestIds db).contains row.scanId).map FindingRow.group))
    Dict.empty

/-- The summary of one host. -/
def hostSummary (host : Host) (latest : Option Scan) (counts : Nat → Tally) :
    HostSummary :=
  match latest with
  | none => ⟨host, none, none, none, 0, 0, 0, 0⟩
  | some scan =>
      let counts := counts scan.id
      { host
        scanId := some scan.id
        finishedAt := scan.finishedAt
        -- A host with nothing rated is ready; `readiness_score` would say 0.
        readiness := some (if counts.rated = 0 then 100 else readinessScore counts)
        crit := counts .crit
        high := counts .high
        total := counts .total
        drift := counts .drift }

/-- `fleet_summary`. -/
def fleetSummary (lower : String → String) (db : Database) : List HostSummary :=
  let latest := latestScans db
  let tally := fleetTally lower db
  (hostsByName db).map fun host =>
    hostSummary host (latest.get? (some host.id))
      fun scanId => (tally.get? scanId).getD emptyBandCounts

/-! ## The latest scan of a host -/

/-- The ids of the latest scans are those of the newest done scan of each host. -/
theorem mem_latestIds {db : Database} {scan : Scan} (member : scan ∈ db.scans)
    {hostId : Nat} (owned : scan.hostId = some hostId) :
    scan.id ∈ latestIds db ↔ latestDone db hostId = some scan := by
  unfold latestIds
  rw [mem_groupMax]
  constructor
  · rintro ⟨newest, selected, sameId, greatest⟩
    rw [List.mem_filter, Bool.and_eq_true, beq_iff_eq] at selected
    obtain rfl : newest = scan :=
      Table.eq_of_id_eq (Table.mem_iff.mpr selected.1) member sameId
    apply latestDone_eq_some member owned selected.2.1
    intro newer later done
    rw [newerScans, List.mem_filter, mem_scansOf, decide_eq_true_iff] at later
    have bounded := greatest newer
      (List.mem_filter.mpr ⟨later.1.1, by simp [done, later.1.2]⟩)
      (later.1.2.trans owned.symm)
    omega
  · intro latest
    obtain ⟨_, _, done⟩ := latestDone_mem latest
    refine ⟨scan, List.mem_filter.mpr ⟨member, by simp [done, owned]⟩, rfl, ?_⟩
    intro other selected sameHost
    rw [List.mem_filter, Bool.and_eq_true, beq_iff_eq] at selected
    exact le_latestDone latest (Table.mem_iff.mpr selected.1)
      (sameHost.trans owned) selected.2.1

/-- The dictionary of the latest scans has the newest done scan of each host. -/
theorem get?_latestScans (db : Database) (hostId : Nat) :
    (latestScans db).get? (some hostId) = latestDone db hostId := by
  have selected : (((db.scans.rows.filter fun scan => (latestIds db).contains scan.id).map
      fun scan => (scan.hostId, scan)).filter fun pair => pair.1 = some hostId) =
        (((scansOf db hostId).filter fun scan => scan.status == "done").filter
          fun scan => (latestIds db).contains scan.id).map
            fun scan => (scan.hostId, scan) := by
    rw [List.filter_map, scansOf, List.filter_filter, List.filter_filter,
      List.filter_filter]
    congr 1
    apply List.filter_congr
    intro scan member
    by_cases owned : scan.hostId = some hostId
    · by_cases latest : scan.id ∈ latestIds db
      · obtain ⟨_, _, done⟩ := latestDone_mem ((mem_latestIds member owned).mp latest)
        simp [owned, latest, done]
      · simp [latest]
    · simp [owned]
  rw [latestScans, Dict.get?_ofList, selected, List.getLast?_map, Option.map_map]
  cases latest : latestDone db hostId with
  | none =>
      rw [latestDone, List.getLast?_eq_none_iff] at latest
      simp [latest]
  | some newest =>
      obtain ⟨member, owned, _⟩ := latestDone_mem latest
      rw [getLast?_filter_of_kept latest]
      · rfl
      · simpa using (mem_latestIds member owned).mpr latest

/-- A summary is of a stored host and names its newest done scan. -/
theorem of_mem_fleetSummary {lower : String → String} {db : Database}
    {summary : HostSummary}
    (member : summary ∈ fleetSummary lower db) :
    summary.host ∈ db.hosts ∧
      summary.scanId = (latestDone db summary.host.id).map Scan.id := by
  obtain ⟨host, listed, rfl⟩ := List.mem_map.mp member
  have stored : host ∈ db.hosts := (List.mem_insertionSort _).mp listed
  rw [get?_latestScans]
  cases latest : latestDone db host.id with
  | none => exact ⟨stored, by simp [hostSummary, latest]⟩
  | some scan => exact ⟨stored, by simp [hostSummary, latest]⟩

/-! ## The counts of a scan -/

/-- What one finding adds to the counts of its scan. -/
def weigh (lower : String → String) (finding : FindingGroup) : Tally :=
  if finding.probeId == driftProbe then Pi.single .drift 1
  else
    Pi.single (.band (classifyBand lower finding.rated)) 1 + Pi.single .total 1 +
      (if finding.severity = "crit" then Pi.single .crit 1
        else if finding.severity = "high" then Pi.single .high 1
        else 0)

/-- A group of equal findings adds the weight of one as often as it counts. -/
theorem countGroup_eq (lower : String → String) (counts : Tally)
    (group : FindingGroup × Nat) :
    countGroup lower counts group = counts + group.2 • weigh lower group.1 := by
  unfold countGroup weigh
  dsimp only
  split
  · rw [Tally.add_eq]
  · split
    · simp only [Tally.add_eq, nsmul_add, add_assoc]
    · split <;> simp only [Tally.add_eq, nsmul_add, add_assoc, add_zero]

/-- The counts of a latest scan are the sum over its findings, one by one. -/
theorem fleetTally_eq {lower : String → String} {db : Database} {scanId : Nat}
    (latest : scanId ∈ latestIds db) :
    ((fleetTally lower db).get? scanId).getD emptyBandCounts =
      ((listFindings db scanId).map fun row => weigh lower row.group).sum := by
  have rows : (((db.findings.rows.filter fun row =>
      (latestIds db).contains row.scanId).map FindingRow.group).filter
        fun group => group.scanId = scanId) =
          (db.findings.rows.filter (·.scanId == scanId)).map FindingRow.group := by
    rw [List.filter_map, List.filter_filter]
    congr 1
    apply List.filter_congr
    intro row _
    by_cases same : row.scanId = scanId
    · simp [FindingRow.group, same, latest]
    · simp [FindingRow.group, same]
  have permuted := (List.perm_insertionSort
    (fun left right : FindingRow => left.createdAt ≤ right.createdAt)
    (db.findings.rows.filter (·.scanId == scanId))).map fun row => weigh lower row.group
  rw [listFindings, permuted.sum_eq, fleetTally, get?_accumulate,
    foldl_weigh (countGroup_eq lower)]
  have total := sum_filter_groupCount
    ((db.findings.rows.filter fun row => (latestIds db).contains row.scanId).map
      FindingRow.group)
    (fun group => decide (group.scanId = scanId)) (weigh lower)
  rw [rows, List.map_map] at total
  have fresh : ((Dict.empty : Dict Nat Tally).get? scanId).getD emptyBandCounts = 0 := rfl
  rw [fresh, zero_add]
  exact total

/-! ## Finding by finding -/

/-- The numbers of a summary are those of a walk over the findings. -/
structure CountedBy (lower : String → String) (findings : List FindingRow)
    (summary : HostSummary) : Prop where
  total : summary.total = (findings.filter fun row => !isDrift row).length
  crit : summary.crit =
    findings.countP fun row => !isDrift row && row.severity == "crit"
  high : summary.high =
    findings.countP fun row => !isDrift row && row.severity == "high"
  drift : summary.drift = findings.countP isDrift
  rated : (∃ row ∈ findings, isDrift row = false ∧ classifyBand lower row.rated ≠ .grey) →
    summary.readiness =
      some (readinessScore (countBands lower (findings.map FindingRow.rated)))
  unrated : (∀ row ∈ findings, isDrift row = false →
    classifyBand lower row.rated = .grey) →
    summary.readiness = some 100

/-- The counters a finding moves. -/
def moves (lower : String → String) (finding : FindingGroup) : Counter → Bool
  | .band band =>
      finding.probeId != driftProbe && classifyBand lower finding.rated == band
  | .total => finding.probeId != driftProbe
  | .crit => finding.probeId != driftProbe && finding.severity == "crit"
  | .high => finding.probeId != driftProbe && finding.severity == "high"
  | .drift => finding.probeId == driftProbe

theorem weigh_apply (lower : String → String) (finding : FindingGroup) (key : Counter) :
    weigh lower finding key = if moves lower finding key then 1 else 0 := by
  unfold weigh moves
  by_cases drift : finding.probeId = driftProbe
  · cases key <;> simp [drift]
  · have severities : ∀ key, (if finding.severity = "crit" then Pi.single .crit 1
        else if finding.severity = "high" then Pi.single .high 1 else (0 : Tally)) key =
          if key = .crit ∧ finding.severity = "crit" ∨
            key = .high ∧ finding.severity = "high" then 1 else 0 := by
      intro key
      by_cases crit : finding.severity = "crit"
      · simp [crit, Pi.single_apply]
      · by_cases high : finding.severity = "high" <;> simp [crit, high, Pi.single_apply]
    rw [if_neg (by simpa using drift), Pi.add_apply, Pi.add_apply, severities]
    cases key with
    | band band =>
        by_cases here : classifyBand lower finding.rated = band
        · simp [drift, here]
        · simp [drift, here, Ne.symm here]
    | total => simp [drift]
    | crit => simp [drift]
    | high => simp [drift]
    | drift => simp [drift]

/-- The counts of a walk over the findings. -/
def walked (lower : String → String) (findings : List FindingRow) : Tally :=
  (findings.map fun row => weigh lower row.group).sum

theorem walked_apply (lower : String → String) (findings : List FindingRow)
    (key : Counter) :
    walked lower findings key = findings.countP fun row => moves lower row.group key :=
  sum_weigh_eq_countP (fun row => weigh_apply lower row.group key) findings

/-- The walk and `count_bands` agree on the bands. -/
theorem walked_band (lower : String → String) (findings : List FindingRow) (band : Band) :
    walked lower findings (.band band) =
      countBands lower (findings.map FindingRow.rated) (.band band) := by
  rw [walked_apply, countBands_band, List.countP_map]
  rfl

/-- The summary of a host with a latest scan is that of the walk. -/
theorem countedBy_walked (lower : String → String) (findings : List FindingRow)
    {host : Host} {scan : Scan} {counts : Nat → Tally}
    (same : counts scan.id = walked lower findings) :
    CountedBy lower findings (hostSummary host (some scan) counts) := by
  have bands := walked_band lower findings
  have scoreZero := rated_countBands_eq_zero_iff lower (findings.map FindingRow.rated)
  simp only [List.forall_mem_map] at scoreZero
  simp only [hostSummary, same]
  refine ⟨?_, walked_apply _ _ _, walked_apply _ _ _, walked_apply _ _ _, ?_, ?_⟩
  · rw [← List.countP_eq_length_filter]
    exact walked_apply _ _ _
  · rintro ⟨row, member, kept, notGrey⟩
    rw [if_neg, readinessScore_congr bands]
    rw [rated_congr bands, scoreZero]
    intro grey
    exact notGrey (grey row member (by simpa [isDrift, FindingRow.rated] using kept))
  · intro grey
    rw [if_pos]
    rw [rated_congr bands, scoreZero]
    intro row member kept
    exact grey row member (by simpa [isDrift, FindingRow.rated] using kept)

/-! ## What the summary depends on -/

/-- A finding row apart from its own id. -/
def forgetId (row : FindingRow) : FindingRow := { row with id := 0 }

/-- The findings of one scan, apart from their ids. -/
def findingsOf (db : Database) (scanId : Nat) : List FindingRow :=
  (db.findings.rows.filter (·.scanId == scanId)).map forgetId

theorem findingsOf_eq (db : Database) (scanId : Nat) :
    findingsOf db scanId = (db.findings.rows.map forgetId).filter
      (·.scanId == scanId) := by
  rw [findingsOf, List.filter_map]
  rfl

/-- The counts of a scan do not depend on the ids and the order of its findings. -/
theorem walked_listFindings (lower : String → String) (db : Database) (scanId : Nat) :
    walked lower (listFindings db scanId) = walked lower (findingsOf db scanId) := by
  have permuted := (List.perm_insertionSort
    (fun left right : FindingRow => left.createdAt ≤ right.createdAt)
    (db.findings.rows.filter (·.scanId == scanId))).map fun row => weigh lower row.group
  rw [walked, walked, listFindings, permuted.sum_eq, findingsOf, List.map_map]
  rfl

/-- The summary depends on the hosts and the findings of their newest done scans. -/
theorem fleetSummary_congr {left right : Database} (lower : String → String)
    (hosts : left.hosts = right.hosts)
    (latestEq : ∀ hostId, latestDone left hostId = latestDone right hostId)
    (findings : ∀ hostId scan, latestDone right hostId = some scan →
      findingsOf left scan.id = findingsOf right scan.id) :
    fleetSummary lower left = fleetSummary lower right := by
  have sameHosts : hostsByName left = hostsByName right := by
    rw [hostsByName, hostsByName, hosts]
  unfold fleetSummary
  dsimp only
  rw [sameHosts]
  apply List.map_congr_left
  intro host _
  rw [get?_latestScans, get?_latestScans, latestEq]
  cases latest : latestDone right host.id with
  | none => rfl
  | some scan =>
      have leftLatest := (latestEq host.id).trans latest
      have counts : ∀ db, latestDone db host.id = some scan →
          ((fleetTally lower db).get? scan.id).getD emptyBandCounts =
            walked lower (findingsOf db scan.id) := by
        intro db latest
        obtain ⟨member, owned, _⟩ := latestDone_mem latest
        rw [fleetTally_eq ((mem_latestIds member owned).mpr latest), ← walked,
          walked_listFindings]
      simp only [hostSummary, counts left leftLatest, counts right latest,
        findings host.id scan latest]

/-! ## Every summary -/

/-- The scan is the newest done one of the host. -/
structure NewestDone (db : Database) (host : Host) (scan : Scan) : Prop where
  stored : scan ∈ db.scans
  owned : scan.hostId = some host.id
  done : scan.status = "done"
  newest : ∀ other ∈ db.scans, other.hostId = some host.id → other.status = "done" →
    other.id ≤ scan.id

/-- The host has no done scan, and its summary has no numbers. -/
structure NoneDone (db : Database) (summary : HostSummary) : Prop where
  absent : ∀ scan ∈ db.scans, scan.hostId = some summary.host.id → scan.status ≠ "done"
  bare : summary = ⟨summary.host, none, none, none, 0, 0, 0, 0⟩

/-- The summary names the newest done scan and has the numbers of a
walk over its findings. -/
structure Summarises (lower : String → String) (db : Database) (summary : HostSummary)
    (scan : Scan) : Prop where
  newest : NewestDone db summary.host scan
  scanId : summary.scanId = some scan.id
  finishedAt : summary.finishedAt = scan.finishedAt
  counted : CountedBy lower (listFindings db scan.id) summary

theorem newestDone_iff {db : Database} {host : Host} {scan : Scan} :
    NewestDone db host scan ↔ latestDone db host.id = some scan := by
  constructor
  · intro newest
    apply latestDone_eq_some newest.stored newest.owned newest.done
    intro newer later done
    rw [newerScans, List.mem_filter, mem_scansOf, decide_eq_true_iff] at later
    have bounded := newest.newest newer later.1.1 later.1.2 done
    omega
  · intro latest
    obtain ⟨stored, owned, done⟩ := latestDone_mem latest
    exact ⟨stored, owned, done, fun other => le_latestDone latest⟩

/-- Every host has one summary, with the numbers of a walk over the findings of
its newest done scan. -/
theorem fleetSummary_exact (lower : String → String) (db : Database) :
    ((fleetSummary lower db).map HostSummary.host).Perm db.hosts.rows ∧
      ∀ summary ∈ fleetSummary lower db,
        NoneDone db summary ∨ ∃ scan, Summarises lower db summary scan := by
  have host_eq : ∀ host latest counts,
      (hostSummary host latest counts).host = host := by
    intro host latest counts
    cases latest <;> rfl
  constructor
  · have hosts : (fleetSummary lower db).map HostSummary.host = hostsByName db := by
      simp [fleetSummary, host_eq, Function.comp_def]
    rw [hosts]
    exact List.perm_insertionSort _ _
  · intro summary member
    obtain ⟨host, _, rfl⟩ := List.mem_map.mp member
    rw [get?_latestScans]
    cases latest : latestDone db host.id with
    | none => exact Or.inl ⟨latestDone_eq_none_iff.mp latest, rfl⟩
    | some scan =>
        have selected := (mem_latestIds (latestDone_mem latest).1
          (latestDone_mem latest).2.1).mpr latest
        exact Or.inr ⟨scan, newestDone_iff.mpr latest, rfl, rfl,
          countedBy_walked lower _ (fleetTally_eq selected)⟩

end Repo
end Store
end PqcScan
