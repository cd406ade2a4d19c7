import PqcScan.Probes.Captures
import PqcScan.Probes.HelloRoundTrip
import PqcScan.Probes.PcapFiles

/-!
# The same handshakes, offline and live

What the two capture probes report of the ServerHellos in the same frames.  The file is
parsed segment by segment, so a ServerHello counts there when a segment opens with it; off
the wire the streams are put together first.
-/

namespace PqcScan
namespace Probes

open Library Python PqcScan.Core Hello

/-! ## What a ServerHello chooses -/

/-- A choice of a ServerHello. -/
inductive Choice
  | suite (code : Nat)
  | group (code : Nat)
  deriving DecidableEq, Repr

namespace Choice

/-- What the tables say of a choice. -/
def row : Choice → Option (String × Classification)
  | suite code => suiteRow code
  | group code => groupRow code

/-- The ServerHello makes the choice. -/
def In (fields : ServerFields) : Choice → Prop
  | suite code => fields.cipher = code
  | group code => fields.group = some code

/-- The names of the tables, with the choices they are names of. -/
def named : List (Choice × String) :=
  tlsCipherSuites.map (fun entry => (suite entry.1, entry.2)) ++
    tlsGroups.map fun entry => (group entry.1, entry.2.1)

theorem lookup_mem {table : List (Nat × ν)} {code : Nat} {value : ν}
    (found : table.lookup code = some value) : (code, value) ∈ table := by
  obtain ⟨front, back, rfl, -⟩ := List.lookup_eq_some_iff.mp found
  exact List.mem_append_right _ List.mem_cons_self

theorem suiteRow_eq_some {code : Nat} {alg : String} {cls : Classification}
    (known : suiteRow code = some (alg, cls)) :
    (code, alg) ∈ tlsCipherSuites ∧ cls = classifySuite alg.toList := by
  unfold suiteRow at known
  obtain ⟨name, found, same⟩ := Option.bind_eq_some_iff.mp known
  dsimp only at same
  split at same
  · cases same
  · cases same
    exact ⟨lookup_mem found, rfl⟩

theorem groupRow_eq_some {code : Nat} {alg : String} {cls : Classification}
    (known : groupRow code = some (alg, cls)) :
    ∃ isPqc, (code, alg, isPqc) ∈ tlsGroups ∧ cls = groupTier isPqc := by
  unfold groupRow at known
  obtain ⟨entry, found, same⟩ := Option.map_eq_some_iff.mp known
  cases same
  exact ⟨entry.2, lookup_mem found, rfl⟩

theorem row_named {choice : Choice} {alg : String} {cls : Classification}
    (known : choice.row = some (alg, cls)) : (choice, alg) ∈ named := by
  cases choice with
  | suite code =>
      exact List.mem_append_left _
        (List.mem_map_of_mem (suiteRow_eq_some known).1)
  | group code =>
      obtain ⟨isPqc, member, -⟩ := groupRow_eq_some known
      exact List.mem_append_right _ (List.mem_map_of_mem member)

/-- No two choices share a name. -/
theorem named_inj :
    ∀ first ∈ named, ∀ second ∈ named, first.2 = second.2 → first.1 = second.1 := by
  have distinct : (named.map fun entry => byteCode entry.2).Nodup := by decide +kernel
  intro first member second other same
  rw [List.inj_on_of_nodup_map distinct member other (congrArg byteCode same)]

theorem row_inj {first second : Choice} {alg : String} {cls cls' : Classification}
    (known : first.row = some (alg, cls)) (other : second.row = some (alg, cls')) :
    first = second ∧ cls = cls' := by
  have same := named_inj _ (row_named known) _ (row_named other) rfl
  dsimp only at same
  subst same
  rw [known] at other
  cases other
  exact ⟨rfl, rfl⟩

end Choice

/-! ## Rows of either hello -/

/-- A name of `_WEAK_TLS_VERSIONS`. -/
def Legacy (alg : String) : Prop := alg ∈ tlsVersions.map Prod.snd

instance (alg : String) : Decidable (Legacy alg) := inferInstanceAs (Decidable (_ ∈ _))

/-- What the offline probe says of a hello: a choice the tables name, a legacy version, or
a group without a name. -/
def Said (alg : String) (cls : Classification) : Prop :=
  (∃ choice : Choice, choice.row = some (alg, cls)) ∨
    (Legacy alg ∧ cls = .sangatTinggi) ∨
      ∃ code, alg = FsPcapCrypto.unnamedGroup code ∧ cls = .tinggi

theorem not_legacy_of_named : ∀ entry ∈ Choice.named, ¬ Legacy entry.2 := by
  decide

/-- No name starts like that of a group without a name. -/
theorem head_of_named :
    (∀ entry ∈ Choice.named, entry.2.toList.head? ≠ some 'g') ∧
      ∀ alg ∈ tlsVersions.map Prod.snd, alg.toList.head? ≠ some 'g' := by
  have names : ∀ name ∈ Choice.named.map Prod.snd ++ tlsVersions.map Prod.snd,
      name.toList.head? ≠ some 'g' := by
    apply @forall_spelled _ fun chars => chars.head? ≠ some 'g'
    decide +kernel
  rw [List.forall_mem_append, List.forall_mem_map] at names
  exact names

theorem toList_unnamedGroup (code : Nat) :
    (FsPcapCrypto.unnamedGroup code).toList = "group-0x".toList ++
      (List.replicate (4 - (Nat.toDigits 16 code).length) '0' ++
        Nat.toDigits 16 code) := by
  unfold FsPcapCrypto.unnamedGroup
  exact String.toList_ofList

theorem head_unnamedGroup (code : Nat) :
    (FsPcapCrypto.unnamedGroup code).toList.head? = some 'g' := by
  have opening : "group-0x".toList = 'g' :: "roup-0x".toList := by decide
  rw [toList_unnamedGroup, opening, List.cons_append, List.head?_cons]

theorem row_ne_unnamed {choice : Choice} {code : Nat} {cls : Classification} :
    choice.row ≠ some (FsPcapCrypto.unnamedGroup code, cls) := fun known =>
  head_of_named.1 _ (Choice.row_named known) (head_unnamedGroup code)

theorem not_legacy_unnamed (code : Nat) : ¬ Legacy (FsPcapCrypto.unnamedGroup code) :=
  fun legacy => head_of_named.2 _ legacy (head_unnamedGroup code)

/-- The class of a row is that of its algorithm. -/
theorem Said.unique {alg : String} {cls cls' : Classification} (first : Said alg cls)
    (second : Said alg cls') : cls = cls' := by
  rcases first with ⟨choice, known⟩ | ⟨legacy, rfl⟩ | ⟨code, rfl, rfl⟩
  · rcases second with ⟨other, known'⟩ | ⟨legacy, -⟩ | ⟨code, rfl, -⟩
    · exact (Choice.row_inj known known').2
    · exact absurd legacy (not_legacy_of_named _ (Choice.row_named known))
    · exact absurd known row_ne_unnamed
  · rcases second with ⟨other, known'⟩ | ⟨-, rfl⟩ | ⟨code, rfl, -⟩
    · exact absurd legacy (not_legacy_of_named _ (Choice.row_named known'))
    · rfl
    · exact absurd legacy (not_legacy_unnamed code)
  · rcases second with ⟨other, known'⟩ | ⟨legacy, -⟩ | ⟨-, -, rfl⟩
    · exact absurd known' row_ne_unnamed
    · exact absurd legacy (not_legacy_unnamed code)
    · rfl

/-- The rows of a ServerHello. -/
theorem mem_serverHelloRows {fields : ServerFields} {alg : String}
    {cls : Classification} :
    (alg, cls) ∈ FsPcapCrypto.serverHelloRows fields ↔
      tlsVersions.lookup (FsPcapCrypto.effectiveVersion fields) = some alg ∧
          cls = .sangatTinggi ∨
        (∃ choice, Choice.In fields choice ∧ choice.row = some (alg, cls)) ∨
          ∃ code, fields.group = some code ∧ groupRow code = none ∧
            alg = FsPcapCrypto.unnamedGroup code ∧ cls = .tinggi := by
  have version : (alg, cls) ∈
      ((tlsVersions.lookup (FsPcapCrypto.effectiveVersion fields)).map
      fun name => (name, Classification.sangatTinggi)).toList ↔
      tlsVersions.lookup (FsPcapCrypto.effectiveVersion fields) = some alg ∧
        cls = .sangatTinggi := by
    rw [Option.mem_toList, Option.map_eq_some_iff]
    constructor
    · rintro ⟨name, found, same⟩
      cases same
      exact ⟨found, rfl⟩
    · rintro ⟨found, rfl⟩
      exact ⟨alg, found, rfl⟩
  rw [FsPcapCrypto.serverHelloRows, List.mem_append, List.mem_append, version,
    Option.mem_toList, Option.mem_toList, Option.map_eq_some_iff]
  refine or_congr_right ?_
  constructor
  · rintro (suite | ⟨code, chosen, same⟩)
    · exact Or.inl ⟨.suite fields.cipher, rfl, suite⟩
    · cases known : groupRow code with
      | some row =>
          rw [known] at same
          exact Or.inl ⟨.group code, chosen, known.trans (congrArg some same)⟩
      | none =>
          rw [known] at same
          cases same
          exact Or.inr ⟨code, chosen, known, rfl, rfl⟩
  · rintro (⟨choice, chosen, known⟩ | ⟨code, chosen, unknown, rfl, rfl⟩)
    · cases choice with
      | suite code =>
          rw [← chosen] at known
          exact Or.inl known
      | group code =>
          refine Or.inr ⟨code, chosen, ?_⟩
          rw [show groupRow code = some (alg, cls) from known]
          rfl
    · refine Or.inr ⟨code, chosen, ?_⟩
      rw [unknown]
      rfl

theorem said_of_mem {tls : HelloFields} {alg : String} {cls : Classification}
    (member : (alg, cls) ∈ FsPcapCrypto.analyzeTls tls) : Said alg cls := by
  cases tls with
  | clientHello fields =>
      rw [FsPcapCrypto.analyzeTls, List.mem_append, List.mem_filterMap,
        List.mem_filterMap]
        at member
      rcases member with ⟨code, -, known⟩ | ⟨code, -, known⟩
      · exact Or.inl ⟨.suite code, known⟩
      · obtain ⟨entry, found, chosen⟩ := Option.bind_eq_some_iff.mp known
        refine Or.inl ⟨.group code, ?_⟩
        split at chosen
        · next isPqc =>
          cases chosen
          rw [Choice.row, groupRow, found, Option.map_some, isPqc]
          rfl
        · cases chosen
  | serverHello fields =>
      rcases mem_serverHelloRows.mp member with ⟨found, tier⟩ | ⟨choice, -, known⟩ |
        ⟨code, -, -, name, tier⟩
      · exact Or.inr (Or.inl ⟨List.mem_map_of_mem (Choice.lookup_mem found), tier⟩)
      · exact Or.inl ⟨choice, known⟩
      · exact Or.inr (Or.inr ⟨code, name, tier⟩)

theorem mem_serverHelloObs {fields : ServerFields} {obs : NetSniffLive.Observation} :
    obs ∈ NetSniffLive.serverHelloObs fields ↔
      ∃ choice, Choice.In fields choice ∧ ∃ alg cls, choice.row = some (alg, cls) ∧
        obs = ⟨.serverHello, alg, cls, "medium", false, false⟩ := by
  rw [NetSniffLive.serverHelloObs, List.mem_map]
  constructor
  · rintro ⟨⟨alg, cls⟩, member, rfl⟩
    rw [List.mem_append, Option.mem_toList, Option.mem_toList,
      Option.bind_eq_some_iff] at member
    rcases member with suite | ⟨code, chosen, known⟩
    · exact ⟨.suite fields.cipher, rfl, alg, cls, suite, rfl⟩
    · exact ⟨.group code, chosen, alg, cls, known, rfl⟩
  · rintro ⟨choice, chosen, alg, cls, known, rfl⟩
    refine ⟨(alg, cls), ?_, rfl⟩
    rw [List.mem_append, Option.mem_toList, Option.mem_toList,
      Option.bind_eq_some_iff]
    cases choice with
    | suite code =>
        rw [← chosen] at known
        exact Or.inl known
    | group code => exact Or.inr ⟨code, chosen, known⟩

/-! ## Findings -/

/-- A source, a destination, an algorithm and its class. -/
structure Row where
  source : List Char
  destination : List Char
  algorithm : String
  classification : Classification

/-- The finding tells the row. -/
def Carries (finding : Finding) (row : Row) : Prop :=
  finding.evidence.get? "src" = some (.str (String.ofList row.source)) ∧
    finding.evidence.get? "dst" = some (.str (String.ofList row.destination)) ∧
    finding.algorithm = row.algorithm ∧ finding.classification = row.classification

theorem carries_offline {path name : String} {now : DateTime}
    {entry : FsPcapCrypto.Observed}
    {row : Row} :
    Carries (FsPcapCrypto.finding path name now entry) row ↔
      row = ⟨entry.1.src, entry.1.dst, entry.2.2.1, entry.2.2.2⟩ := by
  obtain ⟨seg, proto, alg, cls⟩ := entry
  obtain ⟨source, destination, algorithm, classification⟩ := row
  have src : (FsPcapCrypto.finding path name now (seg, proto, alg,
      cls)).evidence.get? "src" =
      some (.str (String.ofList seg.src)) := rfl
  have dst : (FsPcapCrypto.finding path name now (seg, proto, alg,
      cls)).evidence.get? "dst" =
      some (.str (String.ofList seg.dst)) := rfl
  rw [Carries, src, dst]
  simp only [Option.some.injEq, Json.str.injEq, String.ofList_inj, Row.mk.injEq,
    FsPcapCrypto.finding]
  exact ⟨fun ⟨a, b, c, d⟩ => ⟨a.symm, b.symm, c.symm, d.symm⟩,
    fun ⟨a, b, c, d⟩ => ⟨a.symm, b.symm, c.symm, d.symm⟩⟩

theorem carries_live {now : DateTime} {entry : NetSniffLive.Observed} {row : Row} :
    Carries (NetSniffLive.finding now entry) row ↔
      row = ⟨entry.1.src, entry.1.dst, entry.2.algorithm, entry.2.classification⟩ := by
  obtain ⟨seg, ⟨kind, alg, cls, confidence, advertised, keyShare⟩⟩ := entry
  obtain ⟨source, destination, algorithm, classification⟩ := row
  have src : (NetSniffLive.finding now
      (seg, ⟨kind, alg, cls, confidence, advertised, keyShare⟩)).evidence.get? "src" =
        some (.str (String.ofList seg.src)) := by
    cases advertised <;> cases keyShare <;> rfl
  have dst : (NetSniffLive.finding now
      (seg, ⟨kind, alg, cls, confidence, advertised, keyShare⟩)).evidence.get? "dst" =
        some (.str (String.ofList seg.dst)) := by
    cases advertised <;> cases keyShare <;> rfl
  rw [Carries, src, dst]
  simp only [Option.some.injEq, Json.str.injEq, String.ofList_inj, Row.mk.injEq,
    NetSniffLive.finding]
  exact ⟨fun ⟨a, b, c, d⟩ => ⟨a.symm, b.symm, c.symm, d.symm⟩,
    fun ⟨a, b, c, d⟩ => ⟨a.symm, b.symm, c.symm, d.symm⟩⟩

/-! ## What the probes report of ServerHellos -/

/-- The same Ethernet frames, off the wire and in a capture file. -/
structure Capture where
  frames : List Bytes
  data : Bytes
  reads : iterPackets data = ⟨frames.map fun frame => (frame, 1), none⟩

/-- A file of packets that are not empty is a capture of them. -/
def ClassicFile.capture (file : ClassicFile) (ethernet : file.linktype = 1)
    (filled : ∀ record ∈ file.records, record.data ≠ []) : Capture where
  frames := file.records.map ClassicRecord.data
  data := file.bytes
  reads := by
    rw [file.packets_read_iff.mpr filled, ClassicFile.packets, ethernet, List.map_map]
    rfl

/-- The segment opens with the ServerHello. -/
def Opens (segment : Segment) (fields : ServerFields) : Prop :=
  handshakeOf segment.payload = some (.serverHello fields)

/-- The row comes from a ServerHello that opens a segment. -/
def FromServerHello (frames : List Bytes) (row : Row) : Prop :=
  ∃ segment ∈ NetSniffLive.tcpSegments frames,
    segment.src = row.source ∧ segment.dst = row.destination ∧
      ∃ fields, Opens segment fields ∧
        (row.algorithm, row.classification) ∈ FsPcapCrypto.serverHelloRows fields

/-- The rows that `FsPcapCrypto` reports from ServerHello messages, but for those of
legacy versions. -/
def offlineRows (readers : FsPcapCrypto.Readers) (path name : String) (now : DateTime)
    (capture : Capture) : Set Row :=
  {row | (∃ finding ∈ FsPcapCrypto.scanFile readers path name now capture.data,
      Carries finding row ∧ finding.evidence.get? "proto" = some (.str "tls")) ∧
    FromServerHello capture.frames row ∧ ¬ Legacy row.algorithm}

/-- The rows that `NetSniffLive` reports from ServerHello messages. -/
def liveRows (signatureOid : Bytes → Option (List Char)) (window : NetSniffLive.Window)
    (now : DateTime) (capture : Capture) : Set Row :=
  {row | ∃ finding ∈ NetSniffLive.process signatureOid window now capture.frames,
    Carries finding row ∧ finding.evidence.get? "record" = some (.str "server_hello")}

/-- A complete ServerHello of the flow makes the choice. -/
def Negotiates (flow : Segment) (choice : Choice) : Prop :=
  ∃ message, (0x02, message) ∈ iterHandshakeMessages flow.payload ∧
    ∃ fields, handshakeOf (NetSniffLive.wrapRecord message) = some (.serverHello fields) ∧
      choice.In fields

/-- The flows lead from the same host to the same port of the same host. -/
def SameRoute (first second : Segment) : Prop :=
  first.srcIp = second.srcIp ∧ first.dstIp = second.dstIp ∧ first.dstPort = second.dstPort

/-- A segment between the endpoints opens with a ServerHello that makes the choice. -/
def OpensWith (frames : List Bytes) (src dst : List Char) (choice : Choice) : Prop :=
  ∃ segment ∈ NetSniffLive.tcpSegments frames, segment.src = src ∧ segment.dst = dst ∧
    ∃ fields, Opens segment fields ∧ choice.In fields

/-- A flow between the endpoints has a ServerHello that makes the choice, and no earlier
flow that differs in its source port alone has. -/
def FirstNegotiates (frames : List Bytes) (src dst : List Char)
    (choice : Choice) : Prop :=
  ∃ front flow back, NetSniffLive.reassembleFlows frames = front ++ flow :: back ∧
    flow.src = src ∧ flow.dst = dst ∧ Negotiates flow choice ∧
      ∀ other ∈ front, SameRoute other flow → ¬ Negotiates other choice

/-- The ServerHellos at the heads of the segments are those of the flows: their groups
have names, and each choice that has a name is made at the head of a segment when a flow
makes it, and by a flow when it is made there. -/
structure SegmentsSuffice (frames : List Bytes) : Prop where
  named : ∀ segment ∈ NetSniffLive.tcpSegments frames, ∀ fields, Opens segment fields →
    ∀ code, fields.group = some code → (tlsGroups.lookup code).isSome = true
  headed : ∀ src dst choice, choice.row.isSome = true →
    FirstNegotiates frames src dst choice → OpensWith frames src dst choice
  complete : ∀ src dst choice, choice.row.isSome = true →
    OpensWith frames src dst choice → FirstNegotiates frames src dst choice

theorem mem_tcpSegments {frames : List Bytes} {segment : Segment} :
    segment ∈ NetSniffLive.tcpSegments frames ↔
      ∃ frame ∈ frames, decodePacket frame 1 = some segment ∧ segment.proto = .tcp ∧
        segment.payload ≠ [] := by
  rw [NetSniffLive.tcpSegments, List.mem_filterMap]
  simp only [Option.filter_eq_some_iff, decide_eq_true_eq]

section Offline

variable {readers : FsPcapCrypto.Readers} {path name : String} {now : DateTime}
  {capture : Capture}

/-- The loops of the file go over what its packets show. -/
theorem scan_eq : FsPcapCrypto.scan readers capture.data =
    Reporting.run FsPcapCrypto.observedKey FsPcapCrypto.maxFindingsPerFile
      (capture.frames.flatMap fun frame => FsPcapCrypto.observed readers (frame, 1)) := by
  rw [FsPcapCrypto.scan, capture.reads, Reporting.foldl_nested, List.flatMap_map]

/-- What a TLS segment shows. -/
theorem mem_observed_tls {segment : Segment} {alg : String} {cls : Classification} :
    (segment, .tls, alg, cls) ∈
        (capture.frames.flatMap fun frame => FsPcapCrypto.observed readers (frame, 1)) ↔
      segment ∈ NetSniffLive.tcpSegments capture.frames ∧
        ∃ tls, handshakeOf segment.payload = some tls ∧
          (alg, cls) ∈ FsPcapCrypto.analyzeTls tls := by
  rw [List.mem_flatMap, mem_tcpSegments]
  constructor
  · rintro ⟨frame, member, shown⟩
    unfold FsPcapCrypto.observed at shown
    dsimp only at shown
    cases decoded : decodePacket frame 1 with
    | none => rw [decoded] at shown; cases shown
    | some seg =>
        rw [decoded] at shown
        dsimp only at shown
        split at shown
        · cases shown
        · next filled =>
          obtain ⟨entry, analysed, same⟩ := List.mem_map.mp shown
          cases same
          cases proto : segment.proto with
          | udp =>
              rw [proto, FsPcapCrypto.analyze] at analysed
              obtain ⟨_, _, impossible⟩ := List.mem_map.mp analysed
              cases impossible
          | tcp =>
              refine ⟨⟨frame, member, decoded, rfl, filled⟩, ?_⟩
              rw [proto, FsPcapCrypto.analyze] at analysed
              split at analysed
              · next tls parsed =>
                obtain ⟨said, saidMember, equal⟩ := List.mem_map.mp analysed
                cases equal
                exact ⟨tls, parsed, saidMember⟩
              · obtain ⟨_, _, impossible⟩ := List.mem_map.mp analysed
                cases impossible
  · rintro ⟨⟨frame, member, decoded, proto, filled⟩, tls, parsed, said⟩
    refine ⟨frame, member, ?_⟩
    unfold FsPcapCrypto.observed
    dsimp only
    rw [decoded]
    dsimp only
    rw [if_neg filled, proto, FsPcapCrypto.analyze, parsed]
    exact List.mem_map_of_mem (List.mem_map_of_mem said)

/-- The source of an observation has no dash. -/
theorem undashed_observed {entry : FsPcapCrypto.Observed}
    (member : entry ∈
      capture.frames.flatMap fun frame => FsPcapCrypto.observed readers (frame, 1)) :
    Undashed entry.1.src := by
  obtain ⟨frame, -, shown⟩ := List.mem_flatMap.mp member
  unfold FsPcapCrypto.observed at shown
  dsimp only at shown
  cases decoded : decodePacket frame 1 with
  | none => rw [decoded] at shown; cases shown
  | some seg =>
      rw [decoded] at shown
      dsimp only at shown
      split at shown
      · cases shown
      · obtain ⟨_, _, rfl⟩ := List.mem_map.mp shown
        exact undashed_decodePacket decoded

/-- Below its cap the file's scan reports every row of a ServerHello
at the head of a segment. -/
theorem mem_offlineRows (below : (FsPcapCrypto.scan readers capture.data).capped = false)
    {row : Row} :
    row ∈ offlineRows readers path name now capture ↔
      FromServerHello capture.frames row ∧ ¬ Legacy row.algorithm := by
  change (_ ∧ _) ↔ _
  refine and_iff_right_of_imp ?_
  rintro ⟨⟨segment, member, src, dst, fields, opens, said⟩, -⟩
  have shown := (@mem_observed_tls readers).mpr
    ⟨member, HelloFields.serverHello fields, opens, said⟩
  obtain ⟨first, isFirst, sameKey⟩ :=
    @Reporting.exists_isFirst _ _ _ FsPcapCrypto.observedKey _ _ ⟨_, shown, rfl⟩
  obtain ⟨segment', proto, alg, cls⟩ := first
  obtain ⟨rfl, same⟩ := Prod.mk.inj sameKey
  obtain ⟨endpoint, algorithm⟩ := Prod.mk.inj same
  dsimp only at algorithm
  subst algorithm
  obtain ⟨sameSrc, sameDst⟩ :=
    endpoint_inj (undashed_observed isFirst.mem) (undashed_observed shown) endpoint
  obtain ⟨-, tls, -, said'⟩ := mem_observed_tls.mp isFirst.mem
  have tier : cls = row.classification :=
    (said_of_mem said').unique (@said_of_mem (.serverHello fields) _ _ said)
  have reported : (segment', .tls, row.algorithm, cls) ∈
      (FsPcapCrypto.scan readers capture.data).reports := by
    rw [scan_eq] at below ⊢
    exact ((Reporting.run_spec below).2 _).mpr isFirst
  refine ⟨FsPcapCrypto.finding path name now (segment', .tls, row.algorithm, cls),
    ?_, ?_, rfl⟩
  · exact List.mem_append_left _ (List.mem_map_of_mem reported)
  · rw [carries_offline, tier, sameSrc, sameDst, src, dst]

/-- These are the rows of the choices, and those of groups without a name. -/
theorem mem_offlineRows_iff
      (below : (FsPcapCrypto.scan readers capture.data).capped = false)
    {row : Row} :
    row ∈ offlineRows readers path name now capture ↔
      (∃ choice : Choice, choice.row = some (row.algorithm, row.classification) ∧
          OpensWith capture.frames row.source row.destination choice) ∨
        ∃ segment ∈ NetSniffLive.tcpSegments capture.frames,
          segment.src = row.source ∧ segment.dst = row.destination ∧
            ∃ fields, Opens segment fields ∧ ∃ code, fields.group = some code ∧
              groupRow code = none ∧ row.algorithm = FsPcapCrypto.unnamedGroup code ∧
                row.classification = .tinggi := by
  rw [mem_offlineRows below]
  constructor
  · rintro ⟨⟨segment, member, src, dst, fields, opens, said⟩, current⟩
    rcases mem_serverHelloRows.mp said with ⟨found, -⟩ | ⟨choice, chosen, known⟩ | unnamed
    · exact absurd (List.mem_map_of_mem (Choice.lookup_mem found)) current
    · exact Or.inl ⟨choice, known, segment, member, src, dst, fields, opens, chosen⟩
    · exact Or.inr ⟨segment, member, src, dst, fields, opens, unnamed⟩
  · rintro (⟨choice, known, segment, member, src, dst, fields, opens, chosen⟩ |
      ⟨segment, member, src, dst, fields, opens, code, chosen, unknown, alg, tier⟩)
    · refine ⟨⟨segment, member, src, dst, fields, opens, ?_⟩, ?_⟩
      · exact mem_serverHelloRows.mpr (Or.inr (Or.inl ⟨choice, chosen, known⟩))
      · exact not_legacy_of_named _ (Choice.row_named known)
    · refine ⟨⟨segment, member, src, dst, fields, opens, ?_⟩, ?_⟩
      · exact mem_serverHelloRows.mpr (Or.inr (Or.inr ⟨code, chosen, unknown, alg, tier⟩))
      · rw [alg]
        exact not_legacy_unnamed code

end Offline

/-! ## Off the wire -/

section Live

variable {signatureOid : Bytes → Option (List Char)} {window : NetSniffLive.Window}
  {now : DateTime} {capture : Capture}

theorem live_scan_eq {frames : List Bytes} : NetSniffLive.scan signatureOid frames =
    Reporting.run NetSniffLive.observedKey NetSniffLive.maxFindings
      ((NetSniffLive.reassembleFlows frames).flatMap fun seg =>
        (NetSniffLive.analyze signatureOid seg.payload).map (Prod.mk seg)) :=
  Reporting.foldl_nested _ _

/-- What a flow shows of its ServerHellos. -/
theorem mem_analyze_server {flow : Segment} {obs : NetSniffLive.Observation}
    (server : obs.kind = .serverHello) :
    obs ∈ NetSniffLive.analyze signatureOid flow.payload ↔
      ∃ choice, Negotiates flow choice ∧ ∃ alg cls, choice.row = some (alg, cls) ∧
        obs = ⟨.serverHello, alg, cls, "medium", false, false⟩ := by
  have client {fields : ClientFields} : obs ∉ NetSniffLive.clientHelloObs fields := by
    intro member
    obtain ⟨code, -, told⟩ := List.mem_filterMap.mp member
    obtain ⟨row, -, rfl⟩ := Option.map_eq_some_iff.mp told
    cases server
  have certificate : obs ∉ NetSniffLive.certificateObs signatureOid flow.payload := by
    unfold NetSniffLive.certificateObs
    split
    · exact List.not_mem_nil
    · split
      · exact List.not_mem_nil
      · intro member
        rw [List.mem_singleton.mp member] at server
        cases server
  rw [NetSniffLive.analyze, List.mem_append, or_iff_left certificate, List.mem_flatMap]
  constructor
  · rintro ⟨⟨type, message⟩, member, shown⟩
    unfold NetSniffLive.messageObs at shown
    split at shown
    · split at shown
      · exact absurd shown client
      · cases shown
    · split at shown
      · next isServer =>
        split at shown
        · next fields parsed =>
          obtain ⟨choice, chosen, told⟩ := mem_serverHelloObs.mp shown
          dsimp only at isServer
          subst isServer
          exact ⟨choice, ⟨message, member, fields, parsed, chosen⟩, told⟩
        · cases shown
      · cases shown
  · rintro ⟨choice, ⟨message, member, fields, parsed, chosen⟩, told⟩
    refine ⟨(0x02, message), member, ?_⟩
    unfold NetSniffLive.messageObs
    rw [if_neg (show ¬ (0x02 : UInt8) = 0x01 by decide), if_pos rfl, parsed]
    exact mem_serverHelloObs.mpr ⟨choice, chosen, told⟩

/-- What the live rows are read from. -/
theorem mem_liveRows {row : Row} :
    row ∈ liveRows signatureOid window now capture ↔
      ∃ entry ∈ (NetSniffLive.scan signatureOid capture.frames).reports,
        entry.2.kind = .serverHello ∧
          row = ⟨entry.1.src, entry.1.dst, entry.2.algorithm,
            entry.2.classification⟩ := by
  have record (entry : NetSniffLive.Observed) :
      (NetSniffLive.finding now entry).evidence.get? "record" =
        some (.str entry.2.kind.value) := by
    obtain ⟨seg, ⟨kind, alg, cls, confidence, advertised, keyShare⟩⟩ := entry
    cases advertised <;> cases keyShare <;> rfl
  have note (message : String) :
      (NetSniffLive.info now message).evidence.get? "record" = none := rfl
  change (∃ finding ∈ NetSniffLive.process signatureOid window now capture.frames, _) ↔ _
  constructor
  · rintro ⟨finding, member, carries, server⟩
    rw [NetSniffLive.process, List.mem_append, List.mem_append] at member
    rcases member with (told | capped) | silent
    · obtain ⟨entry, reported, rfl⟩ := List.mem_map.mp told
      rw [record, Option.some.injEq, Json.str.injEq] at server
      refine ⟨entry, reported, ?_, carries_live.mp carries⟩
      cases kind : entry.2.kind with
      | serverHello => rfl
      | clientHello => rw [kind] at server; exact absurd server (by decide)
      | certificate => rw [kind] at server; exact absurd server (by decide)
    · split at capped
      · rw [List.mem_singleton.mp capped, note] at server
        cases server
      · cases capped
    · split at silent
      · rw [List.mem_singleton.mp silent, note] at server
        cases server
      · cases silent
  · rintro ⟨entry, reported, server, same⟩
    refine ⟨NetSniffLive.finding now entry, ?_, carries_live.mpr same, ?_⟩
    · exact List.mem_append_left _ (List.mem_append_left _ (List.mem_map_of_mem reported))
    · rw [record, server]
      rfl

/-- The rows of the live capture are the choices of the flows,
each where it comes first. -/
theorem mem_liveRows_iff
      (below : (NetSniffLive.scan signatureOid capture.frames).capped = false)
    {row : Row} :
    row ∈ liveRows signatureOid window now capture ↔
      ∃ choice : Choice, choice.row = some (row.algorithm, row.classification) ∧
        FirstNegotiates capture.frames row.source row.destination choice := by
  have reports (entry : NetSniffLive.Observed) :
      entry ∈ (NetSniffLive.scan signatureOid capture.frames).reports ↔
        ∃ front flow back,
        NetSniffLive.reassembleFlows capture.frames = front ++ flow :: back ∧
          Reporting.IsFirst NetSniffLive.observedKey
            ((NetSniffLive.analyze signatureOid flow.payload).map (Prod.mk flow)) entry ∧
          ∀ other ∈ front,
            ∀ earlier ∈ (NetSniffLive.analyze signatureOid other.payload).map (Prod.mk other),
              NetSniffLive.observedKey earlier ≠ NetSniffLive.observedKey entry := by
    rw [live_scan_eq] at below ⊢
    rw [(Reporting.run_spec below).2, Reporting.isFirst_flatMap]
  rw [mem_liveRows]
  constructor
  · rintro ⟨⟨segment, obs⟩, reported, server, rfl⟩
    obtain ⟨front, flow, back, split, isFirst, fresh⟩ := (reports _).mp reported
    obtain ⟨shown, member, same⟩ := List.mem_map.mp isFirst.mem
    obtain ⟨rfl, rfl⟩ := Prod.mk.inj same
    obtain ⟨choice, negotiates, alg, cls, known, rfl⟩ :=
      (mem_analyze_server server).mp member
    refine ⟨choice, known, front, flow, back, split, rfl, rfl, negotiates, ?_⟩
    rintro other before ⟨srcIp, dstIp, dstPort⟩ also
    apply fresh other before
      (other, ⟨.serverHello, alg, cls, "medium", false, false⟩)
    · apply List.mem_map_of_mem
      exact (mem_analyze_server rfl).mpr ⟨choice, also, alg, cls, known, rfl⟩
    · rw [NetSniffLive.observedKey, NetSniffLive.observedKey, srcIp, dstIp, dstPort]
  · rintro ⟨choice, known, front, flow, back, split, src, dst, negotiates, fresh⟩
    have shown : (⟨.serverHello, row.algorithm, row.classification, "medium",
        false, false⟩ :
        NetSniffLive.Observation) ∈ NetSniffLive.analyze signatureOid flow.payload :=
      (mem_analyze_server rfl).mpr ⟨choice, negotiates, _, _, known, rfl⟩
    obtain ⟨first, isFirst, sameKey⟩ := @Reporting.exists_isFirst _ _ _
      NetSniffLive.observedKey _ _ ⟨_, List.mem_map_of_mem (f := Prod.mk flow) shown, rfl⟩
    obtain ⟨obs, member, rfl⟩ := List.mem_map.mp isFirst.mem
    have server : obs.kind = .serverHello :=
      congrArg (fun key => key.2.2.2.2) sameKey
    have algorithm : obs.algorithm = row.algorithm :=
      congrArg (fun key => key.2.2.2.1) sameKey
    obtain ⟨other, -, alg, cls, told, rfl⟩ := (mem_analyze_server server).mp member
    dsimp only at algorithm
    subst algorithm
    obtain ⟨rfl, tier⟩ := Choice.row_inj told known
    refine ⟨_, (reports _).mpr ⟨front, flow, back, split, isFirst, ?_⟩, rfl, ?_⟩
    · intro earlierFlow before entry entryMember equal
      obtain ⟨obs', member', rfl⟩ := List.mem_map.mp entryMember
      have server' : obs'.kind = .serverHello :=
        congrArg (fun key => key.2.2.2.2) equal
      obtain ⟨choice', negotiates', alg', cls', known', rfl⟩ :=
        (mem_analyze_server server').mp member'
      have algorithm' : alg' = row.algorithm := congrArg (fun key => key.2.2.2.1) equal
      subst algorithm'
      obtain ⟨rfl, -⟩ := Choice.row_inj known' told
      refine fresh earlierFlow before ⟨?_, ?_, ?_⟩ negotiates'
      · exact congrArg (fun key => key.1) equal
      · exact congrArg (fun key => key.2.1) equal
      · exact congrArg (fun key => key.2.2.1) equal
    · cases row
      cases tier
      cases src
      cases dst
      rfl

end Live

/-! ## Agreement -/

/-- Below their caps the two probes report the same of the ServerHellos exactly when those
at the heads of the segments are those of the flows and their groups have names. -/
theorem capture_rows_iff (readers : FsPcapCrypto.Readers)
    (signatureOid : Bytes → Option (List Char)) (path name : String)
    (window : NetSniffLive.Window) (now : DateTime) (capture : Capture)
    (offlineBelow : (FsPcapCrypto.scan readers capture.data).capped = false)
    (liveBelow : (NetSniffLive.scan signatureOid capture.frames).capped = false) :
    offlineRows readers path name now capture = liveRows signatureOid window now capture ↔
      SegmentsSuffice capture.frames := by
  constructor
  · intro same
    have alike (row : Row) := Set.ext_iff.mp same row
    constructor
    · intro segment member fields opens code chosen
      by_contra unknown
      have unnamed : groupRow code = none := by
        rw [groupRow, Option.not_isSome_iff_eq_none.mp unknown]
        rfl
      obtain ⟨choice, known, -⟩ := (mem_liveRows_iff liveBelow).mp
        ((alike ⟨segment.src, segment.dst, FsPcapCrypto.unnamedGroup code, .tinggi⟩).mp
          ((mem_offlineRows_iff offlineBelow).mpr
            (Or.inr ⟨segment, member, rfl, rfl, fields, opens, code, chosen, unnamed,
              rfl, rfl⟩)))
      exact row_ne_unnamed known
    · intro src dst choice reportable first
      obtain ⟨⟨alg, cls⟩, known⟩ := Option.isSome_iff_exists.mp reportable
      have offline := (mem_offlineRows_iff offlineBelow).mp
        ((alike ⟨src, dst, alg, cls⟩).mpr
          ((mem_liveRows_iff liveBelow).mpr ⟨choice, known, first⟩))
      rcases offline with ⟨other, told, opensWith⟩ |
        ⟨_, _, _, _, _, _, code, _, _, unnamed, _⟩
      · obtain ⟨rfl, -⟩ := Choice.row_inj told known
        exact opensWith
      · dsimp only at unnamed
        rw [unnamed] at known
        exact absurd known row_ne_unnamed
    · intro src dst choice reportable opensWith
      obtain ⟨⟨alg, cls⟩, known⟩ := Option.isSome_iff_exists.mp reportable
      obtain ⟨other, told, first⟩ := (mem_liveRows_iff liveBelow).mp
        ((alike ⟨src, dst, alg, cls⟩).mp
          ((mem_offlineRows_iff offlineBelow).mpr (Or.inl ⟨choice, known, opensWith⟩)))
      obtain ⟨rfl, -⟩ := Choice.row_inj told known
      exact first
  · intro suffice
    ext row
    rw [mem_offlineRows_iff offlineBelow, mem_liveRows_iff liveBelow]
    constructor
    · rintro (⟨choice, known, opensWith⟩ | ⟨segment, member, -, -, fields, opens,
        code, chosen, unknown, -⟩)
      · exact ⟨choice, known, suffice.complete _ _ choice (by rw [known]; rfl) opensWith⟩
      · have named := suffice.named segment member fields opens code chosen
        rw [groupRow, Option.map_eq_none_iff] at unknown
        rw [unknown] at named
        cases named
    · rintro ⟨choice, known, first⟩
      exact Or.inl ⟨choice, known, suffice.headed _ _ choice (by rw [known]; rfl) first⟩

/-! ## A ServerHello in one segment, and in two -/

/-- The record of a ServerHello that selects TLS_AES_128_GCM_SHA256 and x25519. -/
def helloRecord : Bytes :=
  record 0x02 3 3 (u16 0x0303 ++ zeros 32 ++ [0] ++ u16 0x1301 ++ [0] ++ u16 8 ++
    field 0x0033 (u16 0x001D ++ u16 0))

/-- An Ethernet frame from 10.0.0.1:443 to 10.0.0.2:80. -/
def ethernetFrame (seq : Nat) (payload : Bytes) : Bytes :=
  zeros 12 ++ [8, 0] ++
    ([0x45, 0] ++ u16 (40 + payload.length) ++ [0, 0, 0, 0, 64, 6, 0, 0, 10, 0, 0, 1, 10,
      0, 0, 2]) ++
    ([1, 187, 0, 80, 0, 0] ++ u16 seq ++ zeros 4 ++ [0x50, 0, 0, 0, 0, 0, 0, 0]) ++
    payload

theorem length_classicFields :
    ([2, 0, 4, 0, 0, 0, 0, 0, 0, 0, 0, 0, 0, 0, 4, 0] : Bytes).length = 16 := rfl

theorem ethernet_small : 1 < 256 ^ 4 := by decide

/-- A file of Ethernet frames. -/
def capturedFile (records : List ClassicRecord) : ClassicFile where
  order := .little
  nanoseconds := false
  fields := [2, 0, 4, 0, 0, 0, 0, 0, 0, 0, 0, 0, 0, 0, 4, 0]
  linktype := 1
  records := records
  fields_length := length_classicFields
  linktype_small := ethernet_small

/-- The record of a frame in a capture. -/
def frameRecord (frame : Bytes) (small : frame.length < 256 ^ 4) : ClassicRecord where
  timestamp := zeros 8
  origLen := u16 frame.length ++ zeros 2
  data := frame
  timestamp_length := rfl
  origLen_length := rfl
  data_small := small

/-- The ServerHello in one segment. -/
def wholeCapture : Capture :=
  (capturedFile [frameRecord (ethernetFrame 7 helloRecord) (by decide)]).capture
    rfl (by decide)

/-- The ServerHello in two segments. -/
def splitCapture : Capture :=
  (capturedFile [frameRecord (ethernetFrame 7 (helloRecord.take 20)) (by decide),
    frameRecord (ethernetFrame 27 (helloRecord.drop 20)) (by decide)]).capture
      rfl (by decide)

/-- What the segment of the first capture says. -/
def wholeSegment : Segment :=
  ⟨.tcp, "10.0.0.1".toList, 443, "10.0.0.2".toList, 80, helloRecord, 7⟩

/-- The fields of a hello that is read whole. -/
def wholeFields : ServerFields := ⟨0x0303, 0x1301, none, some 0x001D⟩

theorem opens_wholeSegment {fields : ServerFields} :
    Opens wholeSegment fields ↔ fields = wholeFields := by
  have parsed : handshakeOf wholeSegment.payload = some (.serverHello wholeFields) := by
    decide
  rw [Opens, parsed, Option.some.injEq, HelloFields.serverHello.injEq]
  exact eq_comm

theorem negotiates_wholeSegment {choice : Choice} :
    Negotiates { wholeSegment with seq := 0 } choice ↔ choice.In wholeFields := by
  have messages : iterHandshakeMessages helloRecord = [(0x02, helloRecord.drop 5)] := by
    decide
  have parsed : handshakeOf (NetSniffLive.wrapRecord (helloRecord.drop 5)) =
      some (.serverHello wholeFields) := by decide
  constructor
  · rintro ⟨message, member, fields, told, chosen⟩
    rw [show Segment.payload { wholeSegment with seq := 0 } = helloRecord from rfl,
      messages, List.mem_singleton] at member
    cases member
    rw [parsed] at told
    cases told
    exact chosen
  · intro chosen
    refine ⟨helloRecord.drop 5, ?_, wholeFields, parsed, chosen⟩
    rw [show Segment.payload { wholeSegment with seq := 0 } = helloRecord from rfl,
      messages]
    exact List.mem_singleton_self _

theorem wholeCapture_suffices : SegmentsSuffice wholeCapture.frames := by
  have segments : NetSniffLive.tcpSegments wholeCapture.frames = [wholeSegment] := by
    decide
  have flows : NetSniffLive.reassembleFlows wholeCapture.frames =
      [{ wholeSegment with seq := 0 }] := by decide
  have opened (src dst : List Char) (choice : Choice) :
      OpensWith wholeCapture.frames src dst choice ↔
        wholeSegment.src = src ∧ wholeSegment.dst = dst ∧ choice.In wholeFields := by
    simp only [OpensWith, segments, List.mem_singleton, exists_eq_left,
      opens_wholeSegment]
  have first (src dst : List Char) (choice : Choice) :
      FirstNegotiates wholeCapture.frames src dst choice ↔
        wholeSegment.src = src ∧ wholeSegment.dst = dst ∧ choice.In wholeFields := by
    rw [FirstNegotiates, flows]
    constructor
    · rintro ⟨front, flow, back, split, source, destination, negotiates, -⟩
      have here : flow ∈ [{ wholeSegment with seq := 0 }] := by
        rw [split]
        exact List.mem_append_right _ List.mem_cons_self
      rw [List.mem_singleton.mp here] at source destination negotiates
      exact ⟨source, destination, negotiates_wholeSegment.mp negotiates⟩
    · rintro ⟨source, destination, chosen⟩
      exact ⟨[], _, [], rfl, source, destination,
        negotiates_wholeSegment.mpr chosen, nofun⟩
  constructor
  · intro segment member fields opens code chosen
    rw [segments, List.mem_singleton] at member
    rw [member, opens_wholeSegment] at opens
    subst opens
    cases chosen
    decide
  · intro src dst choice _ negotiates
    exact (opened src dst choice).mpr ((first src dst choice).mp negotiates)
  · intro src dst choice _ opensWith
    exact (first src dst choice).mpr ((opened src dst choice).mp opensWith)

/-- No other protocol is read. -/
def noReaders : FsPcapCrypto.Readers := ⟨fun _ => [], fun _ => []⟩

theorem whole_hello_reported :
    offlineRows noReaders "a.pcap" "a.pcap" 0 wholeCapture =
      liveRows (fun _ => none) ⟨"1", "eth0"⟩ 0 wholeCapture :=
  (capture_rows_iff noReaders (fun _ => none) "a.pcap" "a.pcap" ⟨"1",
    "eth0"⟩ 0 wholeCapture
    (by decide +kernel) (by decide +kernel)).mpr wholeCapture_suffices

theorem split_hello_missed :
    ¬ ∀ (readers : FsPcapCrypto.Readers) (signatureOid : Bytes → Option (List Char))
      (path name : String) (window : NetSniffLive.Window) (now : DateTime)
      (capture : Capture),
      (FsPcapCrypto.scan readers capture.data).capped = false →
      (NetSniffLive.scan signatureOid capture.frames).capped = false →
      offlineRows readers path name now capture =
        liveRows signatureOid window now capture := by
  intro always
  have same := always noReaders (fun _ => none) "a.pcap" "a.pcap" ⟨"1",
    "eth0"⟩ 0 splitCapture
    (by decide +kernel) (by decide +kernel)
  have unopened : ∀ segment ∈ NetSniffLive.tcpSegments splitCapture.frames,
      handshakeOf segment.payload = none := by decide
  have reported : ∃ entry ∈ (NetSniffLive.scan (fun _ => none) splitCapture.frames).reports,
      entry.2.kind = .serverHello := by decide
  obtain ⟨entry, member, server⟩ := reported
  have live := (@mem_liveRows (fun _ => none) ⟨"1", "eth0"⟩ 0 splitCapture _).mpr
    ⟨entry, member, server, rfl⟩
  rw [← same] at live
  obtain ⟨segment, tcp, -, -, fields, opens, -⟩ := live.2.1
  rw [Opens, unopened segment tcp] at opens
  cases opens

end Probes
end PqcScan
