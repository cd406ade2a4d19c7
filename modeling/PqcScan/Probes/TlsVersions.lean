import PqcScan.Core.Types
import PqcScan.Probes.HelloBuilders
import PqcScan.Probes.SniffLive
import PqcScan.Runner.Targets

/-!
# The TLS version sweep

`NetTlsVersions` of `probes/net_tls_versions.py` against a server that negotiates.  Every
hello is meant for one version, and any ServerHello counts as its acceptance: the probe
never looks at the version that the server selects.
-/

namespace PqcScan
namespace Probes
namespace Hello
namespace NetTlsVersions

open Library Python PqcScan.Core Runner

/-! ## The probe -/

/-- `_VERSIONS`. -/
def versionName : Nat → String
  | 0x0300 => "SSL 3.0"
  | 0x0301 => "TLS 1.0"
  | 0x0302 => "TLS 1.1"
  | 0x0303 => "TLS 1.2"
  | 0x0304 => "TLS 1.3"
  | _ => ""

/-- `_SWEEP_ORDER`. -/
def sweepOrder : List Nat := [0x0300, 0x0301, 0x0302, 0x0303, 0x0304]

/-- `detect_accept`. -/
def detectAccept (data : Bytes) : Bool :=
  if data.length < 6 ∨ (typeByte data).toNat ≠ 0x16 then false
  else decide (1 ≤ (recordPayload data).length ∧
    (typeByte (recordPayload data)).toNat = 0x02)

/-- One connection to the server: whether it opens, and the chunks that its reads bring
after a hello is written, or nothing when the exchange fails or times out. -/
structure Connection where
  opened : Bool
  answer : Bytes → Option (List Bytes)

/-- `_probe_version`: it reads once. -/
def probeVersion (connection : Connection) (host : List Char) (version : Nat) :
    Except ReadError Bool :=
  if connection.opened then do
    let hello ← buildClientHello version (some host) fixedRandom
    match connection.answer hello with
    | none => pure false
    | some chunks => pure (detectAccept (chunks.headD []))
  else .ok false

/-- The first loop of `run`: `accepted`. -/
def sweep (connections : Nat → Connection) (host : List Char) :
    Except ReadError (Dict Nat Bool) := do
  let marks ← sweepOrder.mapM fun version => do
    let accepted ← probeVersion (connections version) host version
    pure (version, accepted)
  pure (Dict.ofList marks)

/-- `accepted[version]`. -/
def marked (accepted : Dict Nat Bool) (version : Nat) : Bool :=
  (accepted.get? version).getD false

/-- `f"0x{version:04x}"`. -/
def versionCode (version : Nat) : String :=
  let digits := Nat.toDigits 16 version
  "0x" ++ String.ofList (List.replicate (4 - digits.length) '0' ++ digits)

/-- `f"{host}:{port}"`. -/
def endpoint (host : List Char) (port : Int) : String :=
  String.ofList host ++ ":" ++ toString port

/-- The finding on an accepted version that is broken or deprecated. -/
def acceptedFinding (host : List Char) (port : Int) (now : DateTime) (version : Nat)
    (classification : Classification) (severity : Severity) (remark : String) : Finding :=
  let name := versionName version
  { probeId := "net.tls.versions"
    algorithm := name
    classification := classification
    severity := severity
    title := endpoint host port ++ " accepts " ++ name ++ " (" ++ remark ++
      " TLS version)"
    evidence := Dict.ofList [("host", .str (String.ofList host)), ("port", .int port),
      ("version", .str name), ("version_code", .str (versionCode version))]
    remediation := Dict.ofList
      [("snippet", .str ("# Disable " ++ name ++ " on the server (require TLS 1.2+)"))]
    createdAt := now }

/-- What the second loop of `run` emits for a version. -/
def oldVersionFindings (accepted : Dict Nat Bool) (host : List Char) (port : Int)
    (now : DateTime) (version : Nat) : List Finding :=
  if version = 0x0304 ∨ marked accepted version = false then []
  else if version = 0x0300 ∨ version = 0x0301 then
    [acceptedFinding host port now version .tinggi .high "broken/deprecated"]
  else if version = 0x0302 then
    [acceptedFinding host port now version .sederhana .med "deprecated"]
  else []

/-- The last finding of `run`. -/
def tls13Finding (accepted : Dict Nat Bool) (host : List Char) (port : Int)
    (now : DateTime) :
    Finding :=
  if marked accepted 0x0304 then
    { probeId := "net.tls.versions"
      algorithm := "TLS 1.3"
      classification := .info
      severity := .info
      title := endpoint host port ++ " supports TLS 1.3 (PQC-capable transport available)"
      evidence := Dict.ofList [("host", .str (String.ofList host)), ("port", .int port),
        ("version", .str "TLS 1.3"), ("version_code", .str "0x0304")]
      createdAt := now }
  else
    { probeId := "net.tls.versions"
      algorithm := "TLS 1.3"
      classification := .sederhana
      severity := .med
      title := endpoint host port ++
        " does not support TLS 1.3 — no PQC-capable transport"
      evidence := Dict.ofList [("host", .str (String.ofList host)), ("port", .int port),
        ("supported", .array ((sweepOrder.filter (marked accepted)).map fun version =>
          .str (versionName version))),
        ("note", .str ("TLS 1.3 is required for hybrid ML-KEM key exchange; a " ++
          "TLS-1.2-only server cannot negotiate post-quantum KEX."))]
      createdAt := now }

/-- The findings that `run` emits. -/
def findings (accepted : Dict Nat Bool) (host : List Char) (port : Int) (now : DateTime) :
    List Finding :=
  sweepOrder.flatMap (oldVersionFindings accepted host port now) ++
    [tls13Finding accepted host port now]

/-- `NetTlsVersions.run`. -/
def run (own : Option (List Char)) (ctx : ScanContext) (connections : Nat → Connection)
    (now : DateTime) : Except ReadError (List Finding) :=
  match resolveTarget own ctx with
  | none => .ok []
  | some (host, port) => do
      let accepted ← sweep connections host
      pure (findings accepted host port now)

/-! ## The server -/

/-- The versions that a server supports, and whether it knows supported_versions. -/
structure Server where
  supported : Finset Nat
  knowsVersions : Bool

/-- The versions that a hello and the server have in common: those listed in
supported_versions if the server knows it and the hello has it, and otherwise those up
to the legacy version. -/
def Server.common (server : Server) (hello : ClientFields) : Finset Nat :=
  server.supported.filter fun version =>
    if server.knowsVersions ∧ hello.versions ≠ [] then version ∈ hello.versions
    else version ≤ hello.legacyVersion

/-- A ServerHello that selects a version, and the bytes that carry it: a handshake record
that has its beginning at least, and anything after. -/
structure Reply (version : Nat) where
  hello : ServerHello
  selected : hello.fields.selectedVersion.getD hello.fields.legacyVersion = version
  further : Bytes
  first : HandshakeRecord
  nonempty : first.fragment ≠ []
  carried : first.fragment <+: [0x02] ++ u24 hello.body.length ++ hello.body ++ further
  later : Bytes

/-- The reply as it is sent. -/
def Reply.bytes {version : Nat} (reply : Reply version) : Bytes :=
  reply.first.frame.bytes ++ reply.later

/-- What a server sends on a hello: a ServerHello that selects the highest common
version, or an alert when there is none. -/
inductive Server.Answers (server : Server) (hello : ClientFields) : Bytes → Prop
  | negotiated (version : Nat) (common : version ∈ server.common hello)
      (highest : ∀ other ∈ server.common hello, other ≤ version) (reply : Reply version) :
      Answers server hello reply.bytes
  | alert (none : server.common hello = ∅) (rest : Bytes) :
      Answers server hello (0x15 :: rest)

/-- The reads bring what the server sends, cut in any way. -/
structure Serves (server : Server) (connection : Connection) : Prop where
  opened : connection.opened = true
  answers : ∀ hello fields,
    parseTlsHandshake hello = .ok (some (.clientHello fields)) →
      ∃ chunks, connection.answer hello = some chunks ∧
        (∀ chunk ∈ chunks, chunk ≠ [] ∧ chunk.length ≤ 8192) ∧
        server.Answers fields chunks.flatten

/-- What the single read of a probed version brings. -/
def firstRead (connection : Connection) (host : List Char) (version : Nat) : Bytes :=
  match buildClientHello version (some host) fixedRandom with
  | .ok hello => ((connection.answer hello).getD []).headD []
  | .error _ => []

/-! ## What the sweep reports -/

/-- A ServerHello answers the hello for a version: the server supports an older one,
unless it is told by supported_versions that only TLS 1.3 will do. -/
def Server.Accepts (server : Server) (version : Nat) : Prop :=
  if version = 0x0304 ∧ server.knowsVersions then 0x0304 ∈ server.supported
  else ∃ older ∈ server.supported, older ≤ min version 0x0303

/-- A record with the beginning of a ServerHello is detected from its sixth byte on. -/
theorem detectAccept_reply {version : Nat} (reply : Reply version) {chunk rest : Bytes}
    (first : chunk ++ rest = reply.bytes) :
    detectAccept chunk = decide (6 ≤ chunk.length) := by
  by_cases short : chunk.length < 6
  · rw [detectAccept, if_pos (Or.inl short), eq_comm, decide_eq_false_iff_not]
    omega
  · obtain ⟨byte, fragment, whole⟩ := List.exists_cons_of_ne_nil reply.nonempty
    have hello : byte = 0x02 := by
      have carried := reply.carried
      rw [whole, List.append_assoc, List.append_assoc, List.singleton_append,
        List.cons_prefix_cons] at carried
      exact carried.1
    have layout : reply.bytes = [0x16, reply.first.major, reply.first.minor] ++
        (u16 reply.first.fragment.length ++ (byte :: (fragment ++ reply.later))) := by
      rw [Reply.bytes, Frame.bytes, HandshakeRecord.frame, whole]
      simp only [List.append_assoc, List.cons_append, List.nil_append]
      rfl
    have start : chunk.take 6 = [0x16, reply.first.major, reply.first.minor] ++
        (u16 reply.first.fragment.length ++ [0x02]) := by
      rw [← List.take_append_of_le_length (by omega : 6 ≤ chunk.length), first,
        layout, hello]
      rfl
    have spread : chunk = [0x16, reply.first.major, reply.first.minor] ++
        (u16 reply.first.fragment.length ++ (0x02 :: chunk.drop 6)) := by
      conv_lhs => rw [← List.take_append_drop 6 chunk, start]
      simp only [List.append_assoc, List.singleton_append]
    have payload : recordPayload chunk =
        0x02 :: (chunk.drop 6).take (reply.first.fragment.length - 1) := by
      have told : (chunk.drop 3).take 2 = u16 reply.first.fragment.length := by
        rw [spread]
        rfl
      have after : chunk.drop 5 = 0x02 :: chunk.drop 6 := by
        conv_lhs => rw [spread]
        rfl
      rw [recordPayload, told, bigEndian_u16 reply.first.fragment_small, after, whole,
        List.length_cons, List.take_succ_cons, Nat.add_sub_cancel]
    have type : (typeByte chunk).toNat = 0x16 := by
      rw [spread]
      rfl
    rw [detectAccept, if_neg (by omega), payload]
    simp only [List.length_cons]
    rw [decide_eq_true, decide_eq_true (Nat.le_of_not_lt short)]
    exact ⟨by omega, rfl⟩

/-- An alert is never taken for an acceptance. -/
theorem detectAccept_alert {rest : Bytes} {chunk later : Bytes}
    (first : chunk ++ later = 0x15 :: rest) : detectAccept chunk = false := by
  apply if_pos
  cases chunk with
  | nil => exact Or.inl (by decide)
  | cons byte chunk =>
      right
      injection first with byteEq
      rw [byteEq]
      change (0x15 : UInt8).toNat ≠ 0x16
      decide

/-! ## What a hello offers the server -/

theorem common_nonempty_iff (server : Server) {version : Nat}
    (swept : version ∈ sweepOrder)
    {fields : ClientFields}
    (legacy : fields.legacyVersion = if 0x0304 ≤ version then 0x0303 else version)
    (versions : fields.versions = if 0x0304 ≤ version then [0x0304] else []) :
    server.common fields ≠ ∅ ↔ server.Accepts version := by
  rw [← Finset.nonempty_iff_ne_empty]
  have latest : ∀ version ∈ sweepOrder, version ≤ 0x0304 := by decide
  have bound := latest version swept
  by_cases tls13 : version = 0x0304
  · have offered : fields.versions = [0x0304] := by rw [versions, if_pos (by omega)]
    have below : fields.legacyVersion = 0x0303 := by rw [legacy, if_pos (by omega)]
    cases known : server.knowsVersions with
    | true =>
        rw [Server.Accepts, if_pos ⟨tls13, known⟩]
        constructor
        · rintro ⟨common, member⟩
          rw [Server.common, Finset.mem_filter,
            if_pos ⟨known, by rw [offered]; simp⟩, offered, List.mem_singleton] at member
          rw [← member.2]
          exact member.1
        · intro supported
          refine ⟨0x0304, ?_⟩
          rw [Server.common, Finset.mem_filter,
            if_pos ⟨known, by rw [offered]; simp⟩, offered]
          exact ⟨supported, List.mem_singleton_self _⟩
    | false =>
        have unknown : server.knowsVersions ≠ true := by rw [known]; decide
        rw [Server.Accepts, if_neg fun both => unknown both.2, tls13]
        constructor
        · rintro ⟨older, member⟩
          rw [Server.common, Finset.mem_filter, if_neg fun both => unknown both.1, below]
            at member
          exact ⟨older, member.1, member.2⟩
        · rintro ⟨older, supported, least⟩
          refine ⟨older, ?_⟩
          rw [Server.common, Finset.mem_filter, if_neg fun both => unknown both.1, below]
          exact ⟨supported, least⟩
  · have offered : fields.versions = [] := by rw [versions, if_neg (by omega)]
    have below : fields.legacyVersion = version := by rw [legacy, if_neg (by omega)]
    rw [Server.Accepts, if_neg fun both => tls13 both.1]
    constructor
    · rintro ⟨older, member⟩
      rw [Server.common, Finset.mem_filter, if_neg fun both => both.2 offered,
        below] at member
      exact ⟨older, member.1, by omega⟩
    · rintro ⟨older, supported, least⟩
      refine ⟨older, ?_⟩
      rw [Server.common, Finset.mem_filter, if_neg fun both => both.2 offered, below]
      exact ⟨supported, by omega⟩

/-- A version is marked exactly when the server answers its hello with a ServerHello of
which the read brings six bytes. -/
theorem probeVersion_served {server : Server} {connection : Connection} {host : List Char}
    {version : Nat} (swept : version ∈ sweepOrder) (serves : Serves server connection)
    {accepted : Bool} (probed : probeVersion connection host version = .ok accepted) :
    accepted = true ↔
      server.Accepts version ∧ 6 ≤ (firstRead connection host version).length := by
  rw [probeVersion, if_pos serves.opened, bind_eq_ok] at probed
  obtain ⟨hello, built, probed⟩ := probed
  have read := buildClientHello_read (by decide : fixedRandom.length = 32) built
  have accepts := @common_nonempty_iff server version swept
    ⟨if 0x0304 ≤ version then 0x0303 else version, suites.map UInt16.toNat,
      if 0x0304 ≤ version then [0x0304] else [],
      [0x001D, 0x0017, 0x0018, 0x11EC], []⟩ rfl rfl
  obtain ⟨chunks, answered, cut, sent⟩ := serves.answers hello _ read
  rw [answered] at probed
  injection probed with same
  have first : firstRead connection host version = chunks.headD [] := by
    rw [firstRead, built]
    simp only
    rw [answered]
    rfl
  have split : chunks.headD [] ++ chunks.tail.flatten = chunks.flatten := by
    cases chunks with
    | nil => rfl
    | cons chunk rest => rfl
  rw [← same, first, ← accepts]
  generalize chunks.flatten = bytes at sent split
  cases sent with
  | negotiated selected common highest reply =>
      rw [detectAccept_reply reply split, decide_eq_true_iff]
      have some := Finset.ne_empty_of_mem common
      tauto
  | alert none rest =>
      rw [detectAccept_alert split]
      tauto

theorem marked_sweep {server : Server} {connections : Nat → Connection} {host : List Char}
    (serves : ∀ version ∈ sweepOrder, Serves server (connections version))
    {accepted : Dict Nat Bool} (swept : sweep connections host = .ok accepted)
    {version : Nat}
    (member : version ∈ sweepOrder) :
    marked accepted version = true ↔
      server.Accepts version ∧
      6 ≤ (firstRead (connections version) host version).length := by
  rw [sweep, bind_eq_ok] at swept
  obtain ⟨marks, probed, same⟩ := swept
  injection same with same
  obtain ⟨keys, values⟩ := mapM_keyed probed
  rw [← keys] at member
  obtain ⟨mark, among, named⟩ := List.mem_map.mp member
  have distinct : (marks.map Prod.fst).Nodup := by
    rw [keys]
    decide
  have found := Dict.get?_ofList_of_mem distinct among
  have sweepMember : mark.1 ∈ sweepOrder := by
    rw [← keys]
    exact List.mem_map_of_mem among
  rw [← named, marked, ← same, found, Option.getD_some]
  exact probeVersion_served sweepMember (serves mark.1 sweepMember) (values mark among)

/-- The probe says that the server supports TLS 1.3. -/
def SaysTls13 (emitted : List Finding) : Prop :=
  ∃ finding ∈ emitted, finding.algorithm = "TLS 1.3" ∧ finding.classification = .info

theorem saysTls13_iff (accepted : Dict Nat Bool) (host : List Char) (port : Int)
    (now : DateTime) :
    SaysTls13 (findings accepted host port now) ↔ marked accepted 0x0304 = true := by
  constructor
  · rintro ⟨finding, member, -, info⟩
    rcases List.mem_append.mp member with old | last
    · obtain ⟨version, -, emitted⟩ := List.mem_flatMap.mp old
      unfold oldVersionFindings at emitted
      split_ifs at emitted
      · cases emitted
      · rw [List.mem_singleton.mp emitted] at info
        cases info
      · rw [List.mem_singleton.mp emitted] at info
        cases info
      · cases emitted
    · rw [List.mem_singleton.mp last, tls13Finding] at info
      split at info
      · next marks => exact marks
      · cases info
  · intro marks
    refine ⟨tls13Finding accepted host port now, ?_, ?_⟩
    · exact List.mem_append_right _ (List.mem_singleton_self _)
    · rw [tls13Finding, if_pos marks]
      exact ⟨rfl, rfl⟩

/-- The sweep marks exactly what the server supports, and says so of TLS 1.3. -/
structure Reports (server : Server) (accepted : Dict Nat Bool) (emitted : List Finding) :
    Prop where
  marks : ∀ version ∈ sweepOrder, marked accepted version = true ↔
    version ∈ server.supported
  tls13 : SaysTls13 emitted ↔ 0x0304 ∈ server.supported

/-- The servers and reads that the sweep reports exactly. -/
structure Separated (server : Server) (connections : Nat → Connection)
    (host : List Char) :
    Prop where
  /-- The first read of the answer for a supported version brings six bytes. -/
  read : ∀ version ∈ sweepOrder, version ∈ server.supported →
    6 ≤ (firstRead (connections version) host version).length
  /-- A server with TLS 1.3 knows supported_versions, or has an older version as well. -/
  known : 0x0304 ∈ server.supported → server.knowsVersions = false →
    ∃ older ∈ server.supported, older ≤ 0x0303
  /-- No older version answers for an unsupported one, unless the first read is short. -/
  refused : ∀ version ∈ sweepOrder, version ∉ server.supported →
    (∃ older ∈ server.supported, older ≤ min version 0x0303) →
      (version = 0x0304 ∧ server.knowsVersions = true) ∨
        (firstRead (connections version) host version).length < 6

/-- The sweep reports what the server negotiates exactly when no older version answers
for an unsupported one and each first read is long enough. -/
theorem reports_iff {server : Server} {connections : Nat → Connection} {host : List Char}
    (serves : ∀ version ∈ sweepOrder, Serves server (connections version))
    {accepted : Dict Nat Bool} (swept : sweep connections host = .ok accepted)
    (port : Int)
    (now : DateTime) :
    Reports server accepted (findings accepted host port now) ↔
      Separated server connections host := by
  have marks := fun version member =>
    @marked_sweep server connections host serves accepted
    swept version member
  have bound : ∀ version ∈ sweepOrder, version = 0x0304 ∨ version ≤ 0x0303 := by decide
  constructor
  · intro reports
    refine ⟨?_, ?_, ?_⟩
    · intro version member supported
      exact ((marks version member).mp ((reports.marks version member).mpr supported)).2
    · intro supported unknown
      have member : 0x0304 ∈ sweepOrder := by decide
      have accepts := ((marks _ member).mp ((reports.marks _ member).mpr supported)).1
      rw [Server.Accepts, if_neg (by rw [unknown]; simp)] at accepts
      exact accepts
    · intro version member unsupported older
      by_cases told : version = 0x0304 ∧ server.knowsVersions = true
      · exact Or.inl told
      · right
        by_contra long
        apply unsupported
        rw [← reports.marks version member, marks version member, Server.Accepts,
          if_neg told]
        exact ⟨older, by omega⟩
  · intro separated
    have exact : ∀ version ∈ sweepOrder,
        marked accepted version = true ↔ version ∈ server.supported := by
      intro version member
      rw [marks version member, Server.Accepts]
      constructor
      · rintro ⟨accepts, long⟩
        by_contra unsupported
        by_cases told : version = 0x0304 ∧ server.knowsVersions = true
        · rw [if_pos told] at accepts
          exact unsupported (told.1 ▸ accepts)
        · rw [if_neg told] at accepts
          rcases separated.refused version member unsupported accepts with known | short
          · exact told known
          · omega
      · intro supported
        refine ⟨?_, separated.read version member supported⟩
        by_cases told : version = 0x0304 ∧ server.knowsVersions = true
        · rw [if_pos told, ← told.1]
          exact supported
        · rw [if_neg told]
          rcases bound version member with latest | legacy
          · rw [latest] at supported ⊢
            have unknown : server.knowsVersions = false := by
              rw [← Bool.not_eq_true]
              exact fun knows => told ⟨latest, knows⟩
            exact separated.known supported unknown
          · exact ⟨version, supported, by omega⟩
    refine ⟨exact, ?_⟩
    rw [saysTls13_iff]
    exact exact 0x0304 (by decide)

/-! ## A server of TLS 1.2 -/

/-- A server that stops at TLS 1.2. -/
def tls12Server (knowsVersions : Bool) : Server := ⟨{0x0303}, knowsVersions⟩

/-- Its ServerHello. -/
def tls12Reply : Reply 0x0303 where
  hello :=
    { legacyVersion := 0x0303
      random := zeros 32
      sessionId := []
      cipher := 0xC02F
      compression := 0
      extensions := none
      random_length := by decide
      sessionId_small := length_nil_lt
      body_small := by decide }
  selected := by decide
  further := []
  first := ⟨3, 3, [0x02] ++ u24 38 ++
    serverBody 0x0303 (zeros 32) [] 0xC02F 0 none, by decide⟩
  nonempty := by simp
  carried := by decide
  later := []

/-- It answers in one piece. -/
def tls12Connection (knowsVersions : Bool) : Connection where
  opened := true
  answer := fun hello =>
    match parseTlsHandshake hello with
    | .ok (some (.clientHello fields)) =>
        if (tls12Server knowsVersions).common fields = ∅ then
          some [[0x15, 3, 3, 0, 2, 2, 70]]
        else some [tls12Reply.bytes]
    | _ => none

theorem tls12Connection_serves (knowsVersions : Bool) :
    Serves (tls12Server knowsVersions) (tls12Connection knowsVersions) := by
  refine ⟨rfl, ?_⟩
  intro hello fields read
  by_cases none : (tls12Server knowsVersions).common fields = ∅
  · refine ⟨[[0x15, 3, 3, 0, 2, 2, 70]], ?_, by decide, Server.Answers.alert none _⟩
    rw [tls12Connection]
    simp only [read]
    rw [if_pos none]
  · have only : ∀ version ∈ (tls12Server knowsVersions).common fields,
        version = 0x0303 := by
      intro version member
      exact Finset.mem_singleton.mp (Finset.mem_filter.mp member).1
    obtain ⟨version, member⟩ := Finset.nonempty_iff_ne_empty.mpr none
    have common : 0x0303 ∈ (tls12Server knowsVersions).common fields := by
      rw [← only version member]
      exact member
    refine ⟨[tls12Reply.bytes], ?_, by decide, ?_⟩
    · rw [tls12Connection]
      simp only [read]
      rw [if_neg none]
    · rw [List.flatten_singleton]
      exact Server.Answers.negotiated 0x0303 common
        (fun other among => le_of_eq (only other among)) tls12Reply

theorem sweep_tls12 (knowsVersions : Bool) :
    ∃ accepted, sweep
      (fun _ => tls12Connection knowsVersions) "host".toList = .ok accepted ∧
      marked accepted 0x0304 = !knowsVersions := by
  have returned : ∀ knowsVersions, succeedsWith
      (sweep (fun _ => tls12Connection knowsVersions) "host".toList)
      (fun accepted => marked accepted 0x0304 == !knowsVersions) = true := by
    decide
  obtain ⟨accepted, swept, marks⟩ := succeedsWith_iff.mp (returned knowsVersions)
  exact ⟨accepted, swept, by simpa using marks⟩

/-- A server of TLS 1.2 that does not know supported_versions is reported with TLS 1.3. -/
theorem tls12_reported_with_tls13 :
    ¬ ∀ (server : Server) (connections : Nat → Connection) (host : List Char)
      (accepted : Dict Nat Bool) (port : Int) (now : DateTime),
      (∀ version ∈ sweepOrder, Serves server (connections version)) →
        sweep connections host = .ok accepted →
          Reports server accepted (findings accepted host port now) := by
  intro always
  obtain ⟨accepted, swept, marks⟩ := sweep_tls12 false
  have reports := always (tls12Server false) (fun _ =>
    tls12Connection false) "host".toList
    accepted 443 0 (fun _ _ => tls12Connection_serves false) swept
  have supported := (reports.marks 0x0304 (by decide)).mp marks
  exact absurd supported (by decide)

/-- The same server is reported as it is when it knows supported_versions. -/
theorem reports_iff_tls12 :
    ∃ accepted, sweep (fun _ => tls12Connection true) "host".toList = .ok accepted ∧
      Reports (tls12Server true) accepted (findings accepted "host".toList 443 0) := by
  obtain ⟨accepted, swept, -⟩ := sweep_tls12 true
  refine ⟨accepted, swept, ?_⟩
  refine (reports_iff (fun _ _ => tls12Connection_serves true) swept 443 0).mpr
    ⟨?_, ?_, ?_⟩
  · intro version member supported
    rw [Finset.mem_singleton.mp supported]
    decide +kernel
  · intro supported
    exact absurd supported (by decide)
  · intro version member unsupported older
    obtain ⟨least, supported, below⟩ := older
    rw [Finset.mem_singleton.mp supported] at below
    have latest : ∀ version ∈ sweepOrder, 0x0303 ≤ min version 0x0303 →
        version = 0x0303 ∨ version = 0x0304 := by decide
    rcases latest version member below with same | same
    · exact absurd (Finset.mem_singleton.mpr same) unsupported
    · exact Or.inl ⟨same, rfl⟩

end NetTlsVersions
end Hello
end Probes
end PqcScan
