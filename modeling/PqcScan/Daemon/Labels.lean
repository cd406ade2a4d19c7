import PqcScan.Daemon.Effect

/-!
# The labels of a host

Each message is checked against the label caps, and its labels are merged into
the row of its host.  The keys of a row are therefore all the keys its accepted
messages ever stated, and the number of labels is bounded only when these are.
-/

namespace PqcScan
namespace Daemon

open Library Python PqcScan.Core Store Repo

/-! ## The messages a host accepted -/

/-- The identity in an accepted enrollment or a stored bundle. -/
def acceptedIdentity (settings : Settings) (exchange : Exchange) :
    Option HostIdentity :=
  match exchange.request, exchange.response with
  | .enroll body, .enrolled _ _ => (readEnroll settings body).toOption
  | .ingest request, .ingested _ _ _ false _ =>
      (loadedBundle settings request.body).map (·.host)
  | _, _ => none

/-- The identities a run accepted. -/
def acceptedIdentities (settings : Settings) (exchanges : List Exchange) :
    List HostIdentity :=
  exchanges.filterMap (acceptedIdentity settings)

/-- The label keys that the accepted messages of one machine stated. -/
def statedKeys (settings : Settings) (exchanges : List Exchange)
    (machineId : String) : List String :=
  ((acceptedIdentities settings exchanges).filter
    (·.machineId == machineId)).flatMap (·.labels.keys)

theorem mem_statedKeys {settings : Settings} {exchanges : List Exchange}
    {machineId key : String} :
    key ∈ statedKeys settings exchanges machineId ↔
      ∃ identity ∈ acceptedIdentities settings exchanges,
        identity.machineId = machineId ∧ key ∈ identity.labels.keys := by
  simp [statedKeys, and_assoc]

theorem mem_acceptedIdentities_snoc {settings : Settings}
    {exchanges : List Exchange} {last : Exchange} {identity : HostIdentity} :
    identity ∈ acceptedIdentities settings (exchanges ++ [last]) ↔
      identity ∈ acceptedIdentities settings exchanges ∨
        acceptedIdentity settings last = some identity := by
  simp [acceptedIdentities, List.filterMap_append]

/-! ## One step -/

/-- The accepted identity is merged into the row of its machine. -/
structure Applies (before after : Database) (identity : HostIdentity)
    (row : Host) : Prop where
  writes : Table.Writes before.hosts after.hosts
    (getHostByMachineId before identity.machineId) row
  machineId : row.machineId = identity.machineId
  labels : row.labels =
    (((getHostByMachineId before identity.machineId).map Host.labels).getD
      Dict.empty).merge identity.labels

/-- What an exchange means for labels: an accepted identity is merged, or every
row keeps its machine and its labels. -/
inductive LabelStep (settings : Settings) (before : Database)
    (exchange : Exchange) (after : Database) : Prop
  | applied (identity : HostIdentity) (row : Host)
      (accepted : acceptedIdentity settings exchange = some identity)
      (bounded : LabelsBounded identity.labels)
      (applies : Applies before after identity row)
  | kept (none : acceptedIdentity settings exchange = none)
      (rows : ∀ host ∈ after.hosts, ∃ old ∈ before.hosts,
        old.machineId = host.machineId ∧ old.labels = host.labels)
      (machines : ∀ host ∈ before.hosts, ∃ new ∈ after.hosts,
        new.machineId = host.machineId)

theorem labelsBounded_of_checkedLabels {py : Runtime} {given : JsonObject}
    {labels : Dict String String}
    (checked : checkedLabels py given = .ok labels) : LabelsBounded labels := by
  unfold checkedLabels at checked
  split at checked
  · cases checked
  · next passed =>
      cases checked
      exact labelsBounded_of_checkLabels passed

theorem labelsBounded_of_enrollLabels {py : Runtime} {host : JsonObject}
    {labels : Dict String String}
    (accepted : enrollLabels py host = .ok labels) : LabelsBounded labels := by
  unfold enrollLabels at accepted
  split at accepted
  · exact labelsBounded_of_checkedLabels accepted
  · split at accepted
    · split at accepted
      · exact labelsBounded_of_checkedLabels accepted
      · cases accepted
    · exact labelsBounded_of_checkedLabels accepted

theorem labelsBounded_of_enrollIdentity {py : Runtime} {host : JsonObject}
    {identity : HostIdentity} (accepted : enrollIdentity py host = .ok identity) :
    LabelsBounded identity.labels := by
  unfold enrollIdentity at accepted
  split at accepted
  · cases accepted
  · split at accepted
    · rw [bind_eq_ok] at accepted
      obtain ⟨labels, labelsOk, equal⟩ := accepted
      cases equal
      exact labelsBounded_of_enrollLabels labelsOk
    · cases accepted

/-- The labels of an accepted enrollment are bounded. -/
theorem labelsBounded_of_readEnroll {settings : Settings} {body : Body}
    {identity : HostIdentity} (read : readEnroll settings body = .ok identity) :
    LabelsBounded identity.labels := by
  unfold readEnroll at read
  dsimp only at read
  split at read
  · cases read
  · cases read
  · rw [bind_eq_ok] at read
    obtain ⟨raw, _, parsed⟩ := read
    split at parsed
    · cases parsed
    · split at parsed
      · cases parsed
      · split at parsed
        · exact labelsBounded_of_enrollIdentity parsed
        · cases parsed
    · cases parsed

/-- Rewriting one row without touching its machine or labels keeps both. -/
theorem labelStep_of_writes {settings : Settings} {before after : Database}
    {exchange : Exchange} {old row : Host}
    (none : acceptedIdentity settings exchange = none)
    (writes : Table.Writes before.hosts after.hosts (some old) row)
    (machineId : row.machineId = old.machineId)
    (labels : row.labels = old.labels) :
    LabelStep settings before exchange after := by
  obtain ⟨oldMember, oldId⟩ := Table.get?_eq_some_iff.mp writes.replaced
  refine .kept none (fun host member => ?_) (fun host member => ?_)
  · rcases writes.eq_or_mem member with rfl | earlier
    · exact ⟨old, oldMember, machineId.symm, labels.symm⟩
    · exact ⟨host, earlier, rfl, rfl⟩
  · by_cases same : host.id = row.id
    · have equal : host = old := Table.eq_of_id_eq member oldMember
        (same.trans oldId.symm)
      exact ⟨row, writes.written, equal ▸ machineId⟩
    · exact ⟨host, (writes.mem_iff_of_ne same).mpr member, rfl⟩

theorem labelStep {settings : Settings} {before after : Database}
    {exchange : Exchange} (served : Serves settings before exchange after) :
    LabelStep settings before exchange after := by
  cases effect_of_serves served with
  | unchanged same quiet =>
      subst same
      refine .kept ?_ (fun host member => ⟨host, member, rfl, rfl⟩)
        (fun host member => ⟨host, member, rfl⟩)
      unfold acceptedIdentity
      split
      · next answer => rw [answer] at quiet; cases quiet
      · next answer => rw [answer] at quiet; cases quiet
      · rfl
  | enrolled body identity row asked read approved upserted answer =>
      refine .applied identity row ?_ (labelsBounded_of_readEnroll read)
        ⟨upserted.writes, upserted.machineId, ?_⟩
      · simp only [acceptedIdentity, asked, answer, read]
        rfl
      · rw [upserted.updated]
        change (upsertRow _ _ _ _).labels = _
        rw [upsertRow_labels]
        cases getHostByMachineId before identity.machineId <;> rfl
  | stored request host bundle middle drift changes time scan agentRows driftRows
      newViews asked authenticated accepted written trimmed answer =>
      obtain ⟨_, _, hostMember, _⟩ := agentHost_eq_ok_iff.mp authenticated
      have found : getHostByMachineId before bundle.host.machineId = some host :=
        getHostByMachineId_eq_some_iff.mpr ⟨hostMember, accepted.machineId.symm⟩
      have writes := written.writes (getHost_eq_some_iff.mpr ⟨hostMember, rfl⟩)
      rw [flushIdentity_self] at writes
      obtain ⟨data, _, loaded⟩ := accepted.loaded
      refine .applied bundle.host (applyIdentity time host bundle.host) ?_
        (labelsBounded_of_loadBundle loaded) ⟨?_, accepted.machineId.symm, ?_⟩
      · simp only [acceptedIdentity, asked, answer, ingestAnswer, writtenResult,
          loadedBundle_of_accepted accepted, Option.map_some]
      · rw [trimmed, hosts_trim, found]
        exact writes
      · rw [found]
        rfl
  | revoked hostId host asked found writes others answer =>
      exact labelStep_of_writes (by simp only [acceptedIdentity, asked]) writes
        rfl rfl
  | unrevoked hostId host asked found writes others answer =>
      exact labelStep_of_writes (by simp only [acceptedIdentity, asked]) writes
        rfl rfl

/-! ## Whole runs -/

/-- What the host table says about the messages of a run. -/
structure LabelHistory (settings : Settings) (exchanges : List Exchange)
    (db : Database) : Prop where
  keys : ∀ host ∈ db.hosts, ∀ key, key ∈ host.labels.keys ↔
    key ∈ statedKeys settings exchanges host.machineId
  bounded : ∀ host ∈ db.hosts, LabelsBounded host.labels
  known : ∀ identity ∈ acceptedIdentities settings exchanges,
    ∃ host ∈ db.hosts, host.machineId = identity.machineId

/-- The labels a machine has before a message are the ones it stated. -/
theorem labelHistory_before {settings : Settings} {past : List Exchange}
    {before : Database} (history : LabelHistory settings past before)
    (machineId : String) :
    let labels := ((getHostByMachineId before machineId).map Host.labels).getD
      Dict.empty
    (∀ key, key ∈ labels.keys ↔ key ∈ statedKeys settings past machineId) ∧
      LabelsBounded labels := by
  cases found : getHostByMachineId before machineId with
  | none =>
      have absent := getHostByMachineId_eq_none_iff.mp found
      refine ⟨fun key => ?_, fun entry member => by cases member⟩
      have unstated : key ∉ statedKeys settings past machineId := by
        intro member
        obtain ⟨earlier, earlierMember, same, _⟩ := mem_statedKeys.mp member
        obtain ⟨host, hostMember, hostSame⟩ := history.known earlier earlierMember
        exact absent host hostMember (hostSame.trans same)
      simp [unstated]
  | some host =>
      obtain ⟨member, rfl⟩ := getHostByMachineId_eq_some_iff.mp found
      exact ⟨history.keys host member, history.bounded host member⟩

/-- The written row belongs to the machine of whatever row it replaces. -/
theorem Applies.machineId_of_id_eq {before after : Database}
    {identity : HostIdentity} {row host : Host}
    (applies : Applies before after identity row) (member : host ∈ before.hosts)
    (same : host.id = row.id) : host.machineId = identity.machineId := by
  have located : before.hosts.get? (Row.id row) = some host :=
    Table.get?_eq_some_iff.mpr ⟨member, same⟩
  rw [applies.writes.replaced] at located
  exact (getHostByMachineId_eq_some_iff.mp located).2

/-- Every other row belongs to another machine. -/
theorem Applies.machineId_of_id_ne {before after : Database}
    {identity : HostIdentity} {row host : Host}
    (applies : Applies before after identity row) (member : host ∈ before.hosts)
    (different : host.id ≠ row.id) : host.machineId ≠ identity.machineId := by
  intro same
  have replaced := applies.writes.replaced
  rw [getHostByMachineId_eq_some_iff.mpr ⟨member, same⟩] at replaced
  exact different (Table.get?_eq_some_iff.mp replaced).2

/-- Merging an accepted identity extends the history by it. -/
theorem labelHistory_applied {settings : Settings} {past : List Exchange}
    {before after : Database} {exchange : Exchange} {identity : HostIdentity}
    {row : Host} (history : LabelHistory settings past before)
    (accepted : acceptedIdentity settings exchange = some identity)
    (bounded : LabelsBounded identity.labels)
    (applies : Applies before after identity row) :
    LabelHistory settings (past ++ [exchange]) after := by
  have stated : ∀ machineId key,
      key ∈ statedKeys settings (past ++ [exchange]) machineId ↔
        key ∈ statedKeys settings past machineId ∨
          identity.machineId = machineId ∧ key ∈ identity.labels.keys := by
    intro machineId key
    simp only [mem_statedKeys, mem_acceptedIdentities_snoc, accepted,
      Option.some.injEq, or_and_right, exists_or, exists_eq_left']
  obtain ⟨keysBefore, boundedBefore⟩ :=
    labelHistory_before history identity.machineId
  refine ⟨fun host member key => ?_, fun host member => ?_, ?_⟩
  · rw [stated]
    rcases (applies.writes.mem_iff host).mp member with rfl | ⟨earlier, apart⟩
    · rw [applies.labels, Dict.mem_keys_merge, keysBefore, applies.machineId]
      simp
    · rw [history.keys host earlier]
      simp [(applies.machineId_of_id_ne earlier apart).symm]
  · rcases applies.writes.eq_or_mem member with rfl | earlier
    · intro entry entryMember
      rw [applies.labels] at entryMember
      exact (Dict.mem_entries_merge entryMember).elim (boundedBefore entry)
        (bounded entry)
    · exact history.bounded host earlier
  · intro other otherMember
    rcases mem_acceptedIdentities_snoc.mp otherMember with earlier | last
    · obtain ⟨host, hostMember, same⟩ := history.known other earlier
      by_cases equal : host.id = row.id
      · refine ⟨row, applies.writes.written, ?_⟩
        rw [applies.machineId, ← applies.machineId_of_id_eq hostMember equal, same]
      · exact ⟨host, (applies.writes.mem_iff_of_ne equal).mpr hostMember, same⟩
    · rw [accepted, Option.some_inj] at last
      exact ⟨row, applies.writes.written, last ▸ applies.machineId⟩

/-- One exchange extends the history. -/
theorem labelHistory_step {settings : Settings} {past : List Exchange}
    {before after : Database} {exchange : Exchange}
    (history : LabelHistory settings past before)
    (served : Serves settings before exchange after) :
    LabelHistory settings (past ++ [exchange]) after := by
  cases labelStep served with
  | applied identity row accepted bounded applies =>
      exact labelHistory_applied history accepted bounded applies
  | kept none rows machines =>
      have same : acceptedIdentities settings (past ++ [exchange]) =
          acceptedIdentities settings past := by
        simp [acceptedIdentities, List.filterMap_append, none]
      refine ⟨fun host member key => ?_, fun host member => ?_,
        fun identity member => ?_⟩
      · obtain ⟨old, oldMember, machine, labels⟩ := rows host member
        rw [statedKeys, same, ← statedKeys, ← labels, ← machine]
        exact history.keys old oldMember key
      · obtain ⟨old, oldMember, _, labels⟩ := rows host member
        exact labels ▸ history.bounded old oldMember
      · rw [same] at member
        obtain ⟨host, hostMember, machine⟩ := history.known identity member
        obtain ⟨new, newMember, kept⟩ := machines host hostMember
        exact ⟨new, newMember, kept.trans machine⟩

/-- Every run from the empty store keeps the history of its messages. -/
theorem labelHistory {settings : Settings} {exchanges : List Exchange}
    {finish : Database}
    (run : CollectorRun settings Database.empty exchanges finish) :
    LabelHistory settings exchanges finish := by
  refine run.history (LabelHistory settings) ?_
    fun _ _ _ _ _ history served => labelHistory_step history served
  refine ⟨?_, ?_, ?_⟩
  · intro host member
    cases member
  · intro host member
    cases member
  · intro identity member
    cases member

/-- The caps the documentation states for the labels of a host. -/
def LabelsCapped (host : Host) : Prop :=
  host.labels.length ≤ maxLabels ∧ LabelsBounded host.labels

/-- In every reachable store a host keeps to the caps if and only if the
messages accepted for its machine stated at most `MAX_LABELS` distinct keys. -/
theorem labelsCapped_iff (settings : Settings) (exchanges : List Exchange)
    (finish : Database)
    (run : CollectorRun settings Database.empty exchanges finish)
    (host : Host) (member : host ∈ finish.hosts) :
    LabelsCapped host ↔
      (statedKeys settings exchanges host.machineId).toFinset.card ≤
        maxLabels := by
  have history := labelHistory run
  have sameKeys : host.labels.keys.toFinset =
      (statedKeys settings exchanges host.machineId).toFinset := by
    ext key
    rw [List.mem_toFinset, List.mem_toFinset]
    exact history.keys host member key
  rw [LabelsCapped, Dict.length_eq_card_keys, sameKeys,
    and_iff_left (history.bounded host member)]

/-- Labels named by a letter and a number. -/
def manyLabels (letter : String) (count : Nat) : JsonObject :=
  (List.range count).map fun index => (letter ++ toString index, .str "")

/-- Enrollments of one machine, one for each set of labels. -/
def enrollmentsOf (labels : List JsonObject) : List (Request × Draws) :=
  labels.map fun each => (enrollRequest (enrollDocument "m1" each), sampleDraws "t1")

/-- Settings under which `m1` enrolls with the labels, one document each. -/
def enrollSettings (labels : List JsonObject) : Settings :=
  sampleSettings (labels.map (enrollDocument "m1")) 12

/-- The store after these enrollments. -/
def enrolledWith (labels : List JsonObject) : Database × List Exchange :=
  serveAll (enrollSettings labels) Database.empty (enrollmentsOf labels)

/-- A machine enrolls twice: the second message restates a label and adds others. -/
def merging : List JsonObject := [manyLabels "a" 2, manyLabels "a" 1 ++ manyLabels "b" 3]

/-- The row holds the labels of both messages. -/
theorem labelsCapped_iff_merging :
    ∃ host ∈ (enrolledWith merging).1.hosts,
      host.labels.keys = ["a0", "a1", "b0", "b1", "b2"] ∧
        (LabelsCapped host ↔
          (statedKeys (enrollSettings merging) (enrolledWith merging).2
            host.machineId).toFinset.card ≤ maxLabels) := by
  have merged : (enrolledWith merging).1.hosts.rows.any
      (fun host => host.labels.keys == ["a0", "a1", "b0", "b1", "b2"]) = true := by
    decide +kernel
  obtain ⟨host, member, keys⟩ := List.any_eq_true.mp merged
  exact ⟨host, member, eq_of_beq keys,
    labelsCapped_iff (enrollSettings merging) (enrolledWith merging).2
      (enrolledWith merging).1 (run_serveAll _ _ (enrollmentsOf merging)) host member⟩

/-- Two accepted enrollments with 33 labels each leave the host with 66. -/
theorem labels_exceed_cap :
    ∃ settings exchanges finish,
      CollectorRun settings Database.empty exchanges finish ∧
        ∃ host ∈ finish.hosts, maxLabels < host.labels.length := by
  let labels := [manyLabels "a" 33, manyLabels "b" 33]
  have exceeded : (enrolledWith labels).1.hosts.rows.any
      (fun host => decide (maxLabels < host.labels.length)) = true := by
    decide +kernel
  obtain ⟨host, member, exceeds⟩ := List.any_eq_true.mp exceeded
  exact ⟨enrollSettings labels, (enrolledWith labels).2, (enrolledWith labels).1,
    run_serveAll _ _ (enrollmentsOf labels), host, member, of_decide_eq_true exceeds⟩

end Daemon
end PqcScan
