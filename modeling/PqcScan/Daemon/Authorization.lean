import PqcScan.Daemon.Labels
import PqcScan.Store.Attribution

/-!
# An agent token reaches only its own host

Runs of the collector in which every request is handled without interruption.
A scan is stored only for the host whose live token came with the request, a
request touches no other host, and once a machine enrolls again the tokens
minted for it before are useless.
-/

namespace PqcScan
namespace Daemon

open Library Python PqcScan.Core Store Repo

/-! ## What one request may touch -/

/-- The host a request is about. -/
def Targets (settings : Settings) (before : Database) (request : Request)
    (host : Host) : Prop :=
  match request with
  | .enroll body => ∃ identity, readEnroll settings body = .ok identity ∧
      identity.machineId = host.machineId
  | .ingest request =>
      agentHost settings before request.authorization = .ok host
  | .revoke hostId => hostId = host.id
  | .unrevoke hostId => hostId = host.id

/-- The request carries the live token of the unrevoked host and
a bundle of its machine. -/
def StoredBy (settings : Settings) (before : Database) (request : Request)
    (hostId : Nat) : Prop :=
  ∃ ingest host token bundle, request = .ingest ingest ∧
    bearerToken ingest.authorization = some token ∧
    (host ∈ before.hosts ∧ host.id = hostId) ∧
    host.tokenHash = some (settings.hashToken token) ∧
    host.revoked = false ∧
    loadedBundle settings ingest.body = some bundle ∧
    bundle.host.machineId = host.machineId

/-- What one exchange does to hosts and their scans. -/
structure Confined (settings : Settings) (before : Database)
    (exchange : Exchange) (after : Database) : Prop where
  authorized : ∀ scan ∈ after.scans, scan ∉ before.scans → ∀ hostId,
    scan.hostId = some hostId →
      StoredBy settings before exchange.request hostId
  others : ∀ host ∈ before.hosts,
    ¬ Targets settings before exchange.request host →
      host ∈ after.hosts ∧ scansOf after host.id = scansOf before host.id

/-- No scan is a rollup. -/
def NoRollups (db : Database) : Prop := ∀ scan ∈ db.scans, scan.label = none

/-- Storing a bundle and trimming leaves the scans of other hosts alone. -/
theorem scansOf_trim_of_written {settings : Settings} {draws : Draws}
    {before middle : Database} {bundle : ScanBundle} {host : Host}
    {drift : List Finding} {time : DateTime} {scan : Scan}
    {agentRows driftRows : List FindingRow} {newViews : List FrameworkView}
    (noRollups : NoRollups before)
    (written : BundleWritten settings.py before middle bundle host drift time
      scan agentRows driftRows newViews)
    {hostId : Nat} (different : hostId ≠ host.id) :
    scansOf (trim settings draws middle host.id) hostId =
      scansOf before hostId := by
  obtain ⟨ids, deletes, selected⟩ := trim_deletes settings draws middle host.id
  have stored : scansOf middle hostId = scansOf before hostId := by
    have foreign : (scan.hostId == some hostId) = false := by
      rw [written.scanHost]
      simpa using different.symm
    rw [scansOf, scansOf, written.scans, List.filter_append,
      List.filter_singleton, foreign]
    simp
  rw [deletes, scansOf_deleteScans, stored, List.filter_eq_self]
  intro other member
  rw [Bool.not_eq_true', List.contains_eq_mem, decide_eq_false_iff_not]
  intro doomed
  rw [← stored, mem_scansOf] at member
  have sameRow : ∀ found ∈ middle.scans, found.id = other.id → found = other :=
    fun found foundMember same => Table.eq_of_id_eq foundMember member.1 same
  rcases selected other.id doomed with
    ⟨rollup, rollupMember, same, label⟩ | ⟨_, victim⟩
  · rw [sameRow rollup rollupMember same] at label
    rw [Table.mem_iff, written.scans, List.mem_append, List.mem_singleton]
      at member
    rcases member.1 with earlier | rfl
    · rw [noRollups other earlier] at label
      cases label
    · rw [written.scanLabel] at label
      cases label
  · obtain ⟨⟨found, foundMember, same, owned⟩, _⟩ := mem_pruneVictims victim
    rw [sameRow found foundMember same, member.2, Option.some_inj] at owned
    exact different owned

/-- A scan that appears is the one just written. -/
theorem eq_of_appears {settings : Settings} {draws : Draws}
    {before middle : Database} {bundle : ScanBundle} {host : Host}
    {drift : List Finding} {time : DateTime} {scan other : Scan}
    {agentRows driftRows : List FindingRow} {newViews : List FrameworkView}
    (written : BundleWritten settings.py before middle bundle host drift time
      scan agentRows driftRows newViews)
    (member : other ∈ (trim settings draws middle host.id).scans)
    (new : other ∉ before.scans) : other = scan := by
  obtain ⟨ids, deletes, _⟩ := trim_deletes settings draws middle host.id
  rw [deletes, mem_deleteScans, Table.mem_iff, written.scans, List.mem_append,
    List.mem_singleton] at member
  exact member.1.resolve_left new

/-- Rewriting the row of a target leaves every other host alone. -/
theorem others_of_writes {before after : Database} {old row host : Host}
    (writes : Table.Writes before.hosts after.hosts (some old) row)
    (scans : after.scans = before.scans) (member : host ∈ before.hosts)
    (apart : host ≠ old) :
    host ∈ after.hosts ∧ scansOf after host.id = scansOf before host.id := by
  obtain ⟨oldMember, oldId⟩ := Table.get?_eq_some_iff.mp writes.replaced
  have different : host.id ≠ row.id := fun same =>
    apart (Table.eq_of_id_eq member oldMember (same.trans oldId.symm))
  exact ⟨(writes.mem_iff_of_ne different).mpr member, by rw [scansOf, scans, scansOf]⟩

theorem confined {settings : Settings} {before after : Database}
    {exchange : Exchange} (noRollups : NoRollups before)
    (served : Serves settings before exchange after) :
    Confined settings before exchange after := by
  cases effect_of_serves served with
  | unchanged same quiet =>
      subst same
      exact ⟨fun scan member new => absurd member new,
        fun host member _ => ⟨member, rfl⟩⟩
  | enrolled body identity row asked read approved upserted answer =>
      refine ⟨fun scan member new => ?_, fun host member untouched => ?_⟩
      · rw [upserted.others.scans] at member
        exact absurd member new
      · have otherMachine : host.machineId ≠ identity.machineId := by
          intro same
          rw [asked] at untouched
          exact untouched ⟨identity, read, same.symm⟩
        exact ⟨(upserted.mem_iff_of_machineId_ne otherMachine).mpr member,
          by rw [scansOf, upserted.others.scans, scansOf]⟩
  | stored request host bundle middle drift changes time scan agentRows driftRows
      newViews asked authenticated accepted written trimmed answer =>
      subst trimmed
      obtain ⟨token, presented, hostMember, live, unrevoked⟩ :=
        agentHost_eq_ok_iff.mp authenticated
      refine ⟨fun other member new hostId owned => ?_,
        fun other member untouched => ?_⟩
      · rw [eq_of_appears written member new, written.scanHost,
          Option.some_inj] at owned
        exact ⟨request, host, token, bundle, asked, presented,
          ⟨hostMember, owned⟩, live, unrevoked,
          loadedBundle_of_accepted accepted, accepted.machineId⟩
      · have apart : other ≠ host := by
          rintro rfl
          rw [asked] at untouched
          exact untouched authenticated
        have different : other.id ≠ host.id := fun same =>
          apart (Table.eq_of_id_eq member hostMember same)
        refine ⟨?_, scansOf_trim_of_written noRollups written different⟩
        rw [hosts_trim]
        exact (written.mem_hosts_iff different).mpr member
  | revoked hostId host asked found writes others answer =>
      refine ⟨fun scan member new => ?_, fun other member untouched => ?_⟩
      · rw [others.scans] at member
        exact absurd member new
      · refine others_of_writes writes others.scans member ?_
        rintro rfl
        rw [asked] at untouched
        exact untouched (getHost_eq_some_iff.mp found).2.symm
  | unrevoked hostId host asked found writes others answer =>
      refine ⟨fun scan member new => ?_, fun other member untouched => ?_⟩
      · rw [others.scans] at member
        exact absurd member new
      · refine others_of_writes writes others.scans member ?_
        rintro rfl
        rw [asked] at untouched
        exact untouched (getHost_eq_some_iff.mp found).2.symm

/-- The collector's own requests never store a rollup. -/
theorem noRollups_step {settings : Settings} {before after : Database}
    {exchange : Exchange} (noRollups : NoRollups before)
    (served : Serves settings before exchange after) : NoRollups after := by
  intro scan member
  by_cases earlier : scan ∈ before.scans
  · exact noRollups scan earlier
  cases effect_of_serves served with
  | unchanged same quiet => exact absurd (same ▸ member) earlier
  | enrolled body identity row asked read approved upserted answer =>
      rw [upserted.others.scans] at member
      exact absurd member earlier
  | stored request host bundle middle drift changes time new agentRows driftRows
      newViews asked authenticated accepted written trimmed answer =>
      subst trimmed
      rw [eq_of_appears written member earlier]
      exact written.scanLabel
  | revoked hostId host asked found writes others answer =>
      rw [others.scans] at member
      exact absurd member earlier
  | unrevoked hostId host asked found writes others answer =>
      rw [others.scans] at member
      exact absurd member earlier

theorem noRollups_of_run {settings : Settings} {start finish : Database}
    {exchanges : List Exchange} (initially : NoRollups start)
    (run : CollectorRun settings start exchanges finish) : NoRollups finish :=
  run.invariant NoRollups initially
    fun _ _ _ noRollups served => noRollups_step noRollups served

/-! ## Tokens -/

/-- The exchange enrolled the machine and minted the token. -/
def EnrolledAs (settings : Settings) (exchange : Exchange)
    (machineId token : String) : Prop :=
  ∃ body identity hostId, exchange.request = .enroll body ∧
    readEnroll settings body = .ok identity ∧
    identity.machineId = machineId ∧
    exchange.response = .enrolled hostId token

/-- The token an exchange minted. -/
def mintedToken (exchange : Exchange) : Option String :=
  match exchange.response with
  | .enrolled _ token => some token
  | _ => none

/-- The tokens that the answers hand out. -/
def mintedTokens (exchanges : List Exchange) : List String :=
  exchanges.filterMap mintedToken

theorem EnrolledAs.minted {settings : Settings} {exchange : Exchange}
    {machineId token : String}
    (enrolled : EnrolledAs settings exchange machineId token) :
    mintedToken exchange = some token := by
  obtain ⟨_, _, _, _, _, _, answer⟩ := enrolled
  rw [mintedToken, answer]

/-- One exchange enrolls one machine. -/
theorem EnrolledAs.machineId_unique {settings : Settings} {exchange : Exchange}
    {machine machine' token token' : String}
    (left : EnrolledAs settings exchange machine token)
    (right : EnrolledAs settings exchange machine' token') :
    machine = machine' := by
  obtain ⟨body, identity, _, asked, read, rfl, _⟩ := left
  obtain ⟨body', identity', _, asked', read', rfl, _⟩ := right
  rw [asked, Request.enroll.injEq] at asked'
  subst asked'
  rw [read, Except.ok.injEq] at read'
  rw [read']

/-- A live token hash comes from the last enrollment of the machine. -/
def TokensAreLast (settings : Settings) (exchanges : List Exchange)
    (db : Database) : Prop :=
  ∀ host ∈ db.hosts, ∀ hash, host.tokenHash = some hash →
    ∃ earlier last later token, exchanges = earlier ++ last :: later ∧
      EnrolledAs settings last host.machineId token ∧
      hash = settings.hashToken token ∧
      ∀ exchange ∈ later, ∀ other,
        ¬ EnrolledAs settings exchange host.machineId other

/-- Another exchange keeps the last enrollment of a machine. -/
theorem last_enrollment_snoc {settings : Settings} {past : List Exchange}
    {next : Exchange} {machineId hash : String}
    (last : ∃ earlier last later token, past = earlier ++ last :: later ∧
      EnrolledAs settings last machineId token ∧
      hash = settings.hashToken token ∧
      ∀ exchange ∈ later, ∀ other,
        ¬ EnrolledAs settings exchange machineId other)
    (unrelated : ∀ token, ¬ EnrolledAs settings next machineId token) :
    ∃ earlier last later token, past ++ [next] = earlier ++ last :: later ∧
      EnrolledAs settings last machineId token ∧
      hash = settings.hashToken token ∧
      ∀ exchange ∈ later, ∀ other,
        ¬ EnrolledAs settings exchange machineId other := by
  obtain ⟨earlier, last, later, token, rfl, enrolled, hashEq, none⟩ := last
  refine ⟨earlier, last, later ++ [next], token, by simp, enrolled, hashEq, ?_⟩
  intro exchange member other
  rcases List.mem_append.mp member with before | here
  · exact none exchange before other
  · rw [List.mem_singleton.mp here]
    exact unrelated other

/-- What an exchange does to the live tokens: only an enrollment adds one. -/
theorem tokensAreLast_step {settings : Settings} {past : List Exchange}
    {before after : Database} {exchange : Exchange}
    (tokens : TokensAreLast settings past before)
    (served : Serves settings before exchange after) :
    TokensAreLast settings (past ++ [exchange]) after := by
  have keep : (∀ machineId token, ¬ EnrolledAs settings exchange machineId token) →
      (∀ host ∈ after.hosts, ∀ hash, host.tokenHash = some hash →
        ∃ old ∈ before.hosts, old.machineId = host.machineId ∧
          old.tokenHash = some hash) →
      TokensAreLast settings (past ++ [exchange]) after := by
    intro unrelated inherited host member hash live
    obtain ⟨old, oldMember, machine, oldLive⟩ := inherited host member hash live
    rw [← machine]
    exact last_enrollment_snoc (tokens old oldMember hash oldLive)
      (unrelated old.machineId)
  cases effect_of_serves served with
  | unchanged same quiet =>
      subst same
      refine keep (fun machineId token enrolled => ?_)
        (fun host member hash live => ⟨host, member, rfl, live⟩)
      obtain ⟨_, _, _, _, _, _, answer⟩ := enrolled
      rw [answer] at quiet
      cases quiet
  | enrolled body identity row asked read approved upserted answer =>
      intro host member hash live
      by_cases same : host.machineId = identity.machineId
      · have isRow : host = row := Database.host_eq_of_machineId member
          upserted.writes.written (same.trans upserted.machineId.symm)
        rw [isRow, upserted.tokenHash_eq, Option.some_inj] at live
        exact ⟨past, exchange, [], exchange.draws.token, rfl,
          ⟨body, identity, row.id, asked, read, same.symm, answer⟩, live.symm,
          by simp⟩
      · refine last_enrollment_snoc (tokens host
          ((upserted.mem_iff_of_machineId_ne same).mp member) hash live) ?_
        intro token enrolled
        exact same (enrolled.machineId_unique
          ⟨body, identity, row.id, asked, read, rfl, answer⟩)
  | stored request host bundle middle drift changes time scan agentRows driftRows
      newViews asked authenticated accepted written trimmed answer =>
      obtain ⟨_, _, hostMember, _⟩ := agentHost_eq_ok_iff.mp authenticated
      have writes := written.writes (getHost_eq_some_iff.mpr ⟨hostMember, rfl⟩)
      refine keep (fun machineId token enrolled => ?_)
        (fun other member hash live => ?_)
      · obtain ⟨_, _, _, asked', _⟩ := enrolled
        rw [asked] at asked'
        cases asked'
      · rw [trimmed, hosts_trim] at member
        rcases writes.eq_or_mem member with rfl | earlier
        · exact ⟨host, hostMember, rfl, live⟩
        · exact ⟨other, earlier, rfl, live⟩
  | revoked hostId host asked found writes others answer =>
      refine keep (fun machineId token enrolled => ?_)
        (fun other member hash live => ?_)
      · obtain ⟨_, _, _, asked', _⟩ := enrolled
        rw [asked] at asked'
        cases asked'
      · rcases writes.eq_or_mem member with rfl | earlier
        · cases live
        · exact ⟨other, earlier, rfl, live⟩
  | unrevoked hostId host asked found writes others answer =>
      refine keep (fun machineId token enrolled => ?_)
        (fun other member hash live => ?_)
      · obtain ⟨_, _, _, asked', _⟩ := enrolled
        rw [asked] at asked'
        cases asked'
      · rcases writes.eq_or_mem member with rfl | earlier
        · exact ⟨host, (getHost_eq_some_iff.mp found).1, rfl, live⟩
        · exact ⟨other, earlier, rfl, live⟩

theorem tokensAreLast {settings : Settings} {exchanges : List Exchange}
    {finish : Database}
    (run : CollectorRun settings Database.empty exchanges finish) :
    TokensAreLast settings exchanges finish := by
  refine run.history (TokensAreLast settings) ?_
    fun _ _ _ _ _ tokens served => tokensAreLast_step tokens served
  intro host member
  cases member

/-- After a machine has enrolled again, no token minted for it before
authenticates anything. -/
theorem old_token_useless {settings : Settings}
    {earlier later : List Exchange} {again old : Exchange} {finish : Database}
    {machineId newToken oldToken authorization : String} {host : Host}
    (run : CollectorRun settings Database.empty (earlier ++ again :: later) finish)
    (noRepeat : (mintedTokens (earlier ++ again :: later)).Nodup)
    (noCollision : ∀ left ∈ mintedTokens (earlier ++ again :: later),
      ∀ right ∈ mintedTokens (earlier ++ again :: later),
        settings.hashToken left = settings.hashToken right → left = right)
    (reEnrolled : EnrolledAs settings again machineId newToken)
    (oldMember : old ∈ earlier)
    (oldEnrolled : EnrolledAs settings old machineId oldToken)
    (presented : bearerToken authorization = some oldToken) :
    agentHost settings finish authorization ≠ .ok host := by
  intro authenticated
  obtain ⟨token, bearer, member, live, _⟩ := agentHost_eq_ok_iff.mp authenticated
  rw [presented, Option.some_inj] at bearer
  subst bearer
  obtain ⟨front, last, back, token, whole, enrolled, hashEq, none⟩ :=
    tokensAreLast run host member _ live
  obtain ⟨before, between, rfl⟩ := List.append_of_mem oldMember
  have oldMinted : oldToken ∈ mintedTokens
      ((before ++ old :: between) ++ again :: later) :=
    List.mem_filterMap.mpr ⟨old, by simp, oldEnrolled.minted⟩
  have lastMinted : token ∈ mintedTokens
      ((before ++ old :: between) ++ again :: later) :=
    List.mem_filterMap.mpr ⟨last, by simp [whole], enrolled.minted⟩
  have sameToken : oldToken = token :=
    noCollision oldToken oldMinted token lastMinted hashEq
  subst sameToken
  have wholeOld : before ++ old :: (between ++ again :: later) =
      front ++ last :: back := by
    rw [← whole, List.append_assoc, List.cons_append]
  have distinct : ((before ++ old :: (between ++ again :: later)).filterMap
      mintedToken).Nodup := by
    rw [wholeOld, ← whole]
    exact noRepeat
  obtain ⟨_, rfl, rfl⟩ := place_unique wholeOld distinct oldEnrolled.minted
    enrolled.minted
  rw [oldEnrolled.machineId_unique enrolled] at reEnrolled
  exact none again (by simp) newToken reEnrolled

/-! ## The whole statement -/

/-- Each machine has one row, and no token is live for two hosts. -/
structure RowsDistinct (db : Database) : Prop where
  machines : ∀ left ∈ db.hosts, ∀ right ∈ db.hosts,
    left.machineId = right.machineId → left = right
  tokens : ∀ left ∈ db.hosts, ∀ right ∈ db.hosts, ∀ hash,
    left.tokenHash = some hash → right.tokenHash = some hash → left = right

theorem rowsDistinct (db : Database) : RowsDistinct db :=
  ⟨fun _ leftMember _ rightMember same =>
      Database.host_eq_of_machineId leftMember rightMember same,
    fun _ leftMember _ rightMember _ leftHash rightHash =>
      Database.host_eq_of_tokenHash leftMember rightMember leftHash rightHash⟩

/-- A run in which no token reaches beyond its own host. -/
structure OwnHostOnly (settings : Settings) (exchanges : List Exchange)
    (finish : Database) : Prop where
  rows : RowsDistinct finish
  /-- Every exchange of the run stays with its own host. -/
  steps : ∀ earlier exchange later, exchanges = earlier ++ exchange :: later →
    ∃ before after, CollectorRun settings Database.empty earlier before ∧
      Serves settings before exchange after ∧
      CollectorRun settings after later finish ∧
      RowsDistinct before ∧ Confined settings before exchange after
  /-- A token minted before its machine enrolled again authenticates nothing. -/
  rotated : ∀ earlier again later, exchanges = earlier ++ again :: later →
    ∀ machineId newToken, EnrolledAs settings again machineId newToken →
      ∀ old ∈ earlier, ∀ oldToken, EnrolledAs settings old machineId oldToken →
        ∀ authorization, bearerToken authorization = some oldToken →
          ∀ host, agentHost settings finish authorization ≠ .ok host

/-- In every run from the empty store no token reaches beyond its own host. -/
theorem token_reaches_own_host (settings : Settings) (exchanges : List Exchange)
    (finish : Database)
    (run : CollectorRun settings Database.empty exchanges finish)
    (noRepeat : (mintedTokens exchanges).Nodup)
    (noCollision : ∀ left ∈ mintedTokens exchanges,
      ∀ right ∈ mintedTokens exchanges,
        settings.hashToken left = settings.hashToken right → left = right) :
    OwnHostOnly settings exchanges finish := by
  refine ⟨rowsDistinct finish, ?_, ?_⟩
  · rintro earlier exchange later rfl
    obtain ⟨before, after, first, served, rest⟩ := run.at_step
    have noRollups : NoRollups before :=
      noRollups_of_run (fun scan member => by cases member) first
    exact ⟨before, after, first, served, rest, rowsDistinct before,
      confined noRollups served⟩
  · rintro earlier again later rfl machineId newToken reEnrolled old oldMember
      oldToken oldEnrolled authorization presented host
    exact old_token_useless run noRepeat noCollision reEnrolled oldMember
      oldEnrolled presented

/-- A machine enrolls, reports a scan and enrolls again. -/
def reEnrollment : List (Request × Draws) :=
  [(enrollRequest (enrollDocument "m1" []), sampleDraws "t1"),
    (.ingest (ingestRequest "t1" plainDocument), sampleDraws ""),
    (enrollRequest (enrollDocument "m1" []), sampleDraws "t2")]

theorem token_reaches_own_host_reEnrolled :
    let settings := sampleSettings [enrollDocument "m1" [], plainDocument] 12
    OwnHostOnly settings (serveAll settings Database.empty reEnrollment).2
      (serveAll settings Database.empty reEnrollment).1 := by
  intro settings
  have minted : mintedTokens (serveAll settings Database.empty reEnrollment).2 =
      ["t1", "t2"] := by
    decide +kernel
  refine token_reaches_own_host settings _ _
    (run_serveAll settings Database.empty reEnrollment) ?_ ?_
  · rw [minted]
    decide
  · rw [minted]
    decide

end Daemon
end PqcScan
