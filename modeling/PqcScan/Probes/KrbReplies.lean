import PqcScan.Probes.KrbRoundTrip

/-!
# The replies of a key distribution centre

KRB-ERROR and AS-REP messages, encoded with the encoders of `probes/_krb_asn1.py`.
`parse_kdc_reply` gives back what they carry, and it returns on every byte string.
-/

namespace PqcScan
namespace Probes
namespace Krb

open Library Python

/-! ## Messages -/

/-- The context-tagged fields of a SEQUENCE, in any order, each at most once. -/
structure Fields where
  entries : List (Nat × Bytes)
  distinct : (entries.map Prod.fst).Nodup
  numbered : ∀ entry ∈ entries, entry.1 < 32

/-- The contents of the SEQUENCE. -/
def Fields.body (fields : Fields) : Bytes :=
  (fields.entries.map fun entry => ctx entry.1 entry.2).flatten

/-- The SEQUENCE. -/
def Fields.encode (fields : Fields) : Bytes :=
  seq (fields.entries.map fun entry => ctx entry.1 entry.2)

/-- An entry of ETYPE-INFO or ETYPE-INFO2: an encryption type, with a
salt or parameters or not. -/
structure InfoEntry where
  etype : Nat
  fields : Fields
  present : (0, derInt etype) ∈ fields.entries

/-- PA-DATA: encryption types, or anything of another type. -/
inductive PaData
  | etypeInfo (entries : List InfoEntry)
  | etypeInfo2 (entries : List InfoEntry)
  | other (type : Nat) (unrelated : (type : Int) ∉ etypeInfoTypes) (value : Bytes)

/-- `padata-type`. -/
def PaData.type : PaData → Nat
  | .etypeInfo _ => 11
  | .etypeInfo2 _ => 19
  | .other type _ _ => type

/-- `padata-value`. -/
def PaData.value : PaData → Bytes
  | .etypeInfo entries | .etypeInfo2 entries =>
    seq (entries.map fun entry => entry.fields.encode)
  | .other _ _ value => value

/-- The encryption types it tells. -/
def PaData.etypes : PaData → List Int
  | .etypeInfo entries | .etypeInfo2 entries => entries.map fun entry =>
    (entry.etype : Int)
  | .other _ _ _ => []

/-- The fields of its SEQUENCE. -/
def PaData.fields (pa : PaData) : Fields where
  entries := [(1, derInt pa.type), (2, tlv octetStringTag pa.value)]
  distinct := by simp
  numbered := by simp

/-- METHOD-DATA. -/
def methodData (pas : List PaData) : Bytes := seq (pas.map fun pa => pa.fields.encode)

/-- The encryption types of METHOD-DATA. -/
def methodEtypes (pas : List PaData) : List Int := pas.flatMap PaData.etypes

/-- A KRB-ERROR with an error code, with METHOD-DATA in its e-data or without e-data. -/
structure KrbError where
  code : Nat
  edata : Option (List PaData)
  fields : Fields
  codeField : (6, derInt code) ∈ fields.entries
  edataField : ∀ value, (12, value) ∈ fields.entries ↔
    (edata.map fun pas => tlv octetStringTag (methodData pas)) = some value

/-- The encryption types of a KRB-ERROR. -/
def KrbError.etypes (error : KrbError) : List Int :=
  (error.edata.map methodEtypes).getD []

/-- The message. -/
def KrbError.encode (error : KrbError) : Bytes := tlv krbErrorTag error.fields.encode

/-- An AS-REP with an encryption type in its enc-part, with padata or without. -/
structure AsRep where
  padata : Option (List PaData)
  etype : Nat
  encPart : Fields
  fields : Fields
  etypeField : (0, derInt etype) ∈ encPart.entries
  encPartField : (6, encPart.encode) ∈ fields.entries
  padataField : ∀ value, (2, value) ∈ fields.entries ↔ padata.map methodData = some value

/-- The message. -/
def AsRep.encode (reply : AsRep) : Bytes := tlv asRepTag reply.fields.encode

/-- The encryption types of an AS-REP, those of its padata first. -/
def AsRep.etypes (reply : AsRep) : List Int :=
  (reply.padata.map methodEtypes).getD [] ++ [(reply.etype : Int)]

/-! ## Reading them -/

theorem contextTag : ∀ n : Fin 32,
    (0xA0 ≤ (UInt8.ofNat (0xA0 ||| n.val)).toNat ∧
      (UInt8.ofNat (0xA0 ||| n.val)).toNat ≤ 0xBF) ∧
    (UInt8.ofNat (0xA0 ||| n.val)).toNat &&& 0x1F = n.val := by
  decide

theorem Fields.encode_eq (fields : Fields) :
    fields.encode = tlv sequenceTag fields.body :=
  rfl

theorem Fields.small_body {fields : Fields} (small : Small fields.encode) :
    Small fields.body :=
  small.of_tlv

theorem Fields.small_of_mem {fields : Fields} (small : Small fields.body)
    {entry : Nat × Bytes} (member : entry ∈ fields.entries) : Small entry.2 := by
  have inner : (ctx entry.1 entry.2).Sublist fields.body :=
    List.sublist_flatten_of_mem (List.mem_map.mpr ⟨entry, member, rfl⟩)
  exact Small.of_tlv (small.of_le inner.length_le)

/-- `_context_fields` gives back the fields. -/
theorem Fields.read {fields : Fields} (small : Small fields.body) :
    contextFields fields.body = .ok (Dict.ofList fields.entries) := by
  apply scanTlvs_encoded Dict.empty small
  intro entry member dict
  obtain ⟨context, number⟩ := contextTag ⟨entry.1, fields.numbered entry member⟩
  rw [contextField, if_pos context, number]

theorem Fields.get?_of_mem (fields : Fields) {n : Nat} {value : Bytes}
    (member : (n, value) ∈ fields.entries) :
    (Dict.ofList fields.entries).get? n = some value :=
  Dict.get?_ofList_of_mem fields.distinct member

/-- A field and what the dictionary of the fields has for its number. -/
theorem Fields.mem_iff (fields : Fields) {n : Nat} {value : Bytes} :
    (n, value) ∈ fields.entries ↔ (Dict.ofList fields.entries).get? n = some value := by
  constructor
  · exact fields.get?_of_mem
  · intro found
    rw [Dict.get?_ofList, Option.map_eq_some_iff] at found
    obtain ⟨entry, last, rfl⟩ := found
    have member := List.mem_filter.mp (List.mem_of_getLast? last)
    have same : entry.1 = n := by simpa using member.2
    rw [← same]
    exact member.1

theorem infoEntry_encode (entry : InfoEntry) (small : Small entry.fields.body) (tag : Nat)
    (out : List Int) :
    infoEntry out tag entry.fields.body = .ok (out ++ [(entry.etype : Int)]) := by
  rw [infoEntry, Fields.read small]
  simp only [bind, Except.bind, entry.fields.get?_of_mem entry.present,
    decodeInt_derInt (Fields.small_of_mem small entry.present)]
  rfl

theorem foldl_append_map (items : List α) (value : α → Int) (out : List Int) :
    items.foldl (fun out item => out ++ [value item]) out = out ++ items.map value := by
  induction items generalizing out with
  | nil => simp
  | cons item items inductionHypothesis =>
      rw [List.foldl_cons, inductionHypothesis, List.append_assoc]
      rfl

theorem foldl_append_flatMap (items : List α) (values : α → List Int) (out : List Int) :
    items.foldl (fun out item => out ++ values item) out =
      out ++ items.flatMap values := by
  induction items generalizing out with
  | nil => simp
  | cons item items inductionHypothesis =>
      rw [List.foldl_cons, inductionHypothesis, List.append_assoc, List.flatMap_cons]

/-- The values of a SEQUENCE OF are as small as the whole. -/
theorem small_of_mem_seq {items : List α} {body : α → Bytes}
    (small : Small (items.map fun item => tlv sequenceTag (body item)).flatten)
    {item : α} (member : item ∈ items) : Small (body item) := by
  have inner : (tlv sequenceTag (body item)).Sublist
      (items.map fun item => tlv sequenceTag (body item)).flatten :=
    List.sublist_flatten_of_mem (List.mem_map.mpr ⟨item, member, rfl⟩)
  exact Small.of_tlv (small.of_le inner.length_le)

/-- `_etypes_from_info` gives back the encryption types of ETYPE-INFO2. -/
theorem etypesFromInfo_encode {entries : List InfoEntry}
    (small : Small (PaData.etypeInfo2 entries).value) :
    etypesFromInfo (PaData.etypeInfo2 entries).value =
      .ok (PaData.etypeInfo2 entries).etypes := by
  have inner := Small.of_tlv small
  rw [etypesFromInfo, PaData.value, seq, readTlv_self inner]
  simp only [bind, Except.bind]
  rw [← List.nil_append (PaData.etypes _), PaData.etypes, ← foldl_append_map]
  apply scanTlvs_encoded [] inner
  intro entry member out
  exact infoEntry_encode entry (small_of_mem_seq inner member) _ out

theorem paData_encode (pa : PaData) (small : Small pa.fields.body) (tag : Nat)
    (out : List Int) : paData out tag pa.fields.body = .ok (out ++ pa.etypes) := by
  have typed : (1, derInt pa.type) ∈ pa.fields.entries := List.mem_cons_self
  have valued : (2, tlv octetStringTag pa.value) ∈ pa.fields.entries :=
    List.mem_cons_of_mem _ List.mem_cons_self
  have value := Small.of_tlv (Fields.small_of_mem small valued)
  rw [paData, Fields.read small]
  simp only [bind, Except.bind, pa.fields.get?_of_mem typed, pa.fields.get?_of_mem valued,
    decodeInt_derInt (Fields.small_of_mem small typed)]
  cases pa with
  | etypeInfo entries =>
      have known : ((PaData.etypeInfo entries).type : Int) ∈ etypeInfoTypes := by
        change (11 : Int) ∈ etypeInfoTypes
        decide
      have read : etypesFromInfo (PaData.etypeInfo entries).value =
          .ok (PaData.etypeInfo entries).etypes := etypesFromInfo_encode value
      rw [if_pos known, readTlv_self value]
      simp only [read]
      rfl
  | etypeInfo2 entries =>
      have known : ((PaData.etypeInfo2 entries).type : Int) ∈ etypeInfoTypes := by
        change (19 : Int) ∈ etypeInfoTypes
        decide
      have read : etypesFromInfo (PaData.etypeInfo2 entries).value =
          .ok (PaData.etypeInfo2 entries).etypes := etypesFromInfo_encode value
      rw [if_pos known, readTlv_self value]
      simp only [read]
      rfl
  | other type unrelated otherValue =>
      have unknown : ((PaData.other type unrelated otherValue).type : Int) ∉
          etypeInfoTypes :=
        unrelated
      rw [if_neg unknown, PaData.etypes, List.append_nil]
      rfl

/-- `_etypes_from_methoddata` gives back the encryption types of METHOD-DATA. -/
theorem etypesFromMethoddata_encode {pas : List PaData} (small : Small (methodData pas)) :
    etypesFromMethoddata (methodData pas) = .ok (methodEtypes pas) := by
  have inner := Small.of_tlv small
  rw [etypesFromMethoddata, methodData, seq, readTlv_self inner]
  simp only [bind, Except.bind]
  rw [← List.nil_append (methodEtypes pas), methodEtypes, ← foldl_append_flatMap]
  apply scanTlvs_encoded [] inner
  intro pa member out
  exact paData_encode pa (small_of_mem_seq inner member) _ out

theorem replyFields_encode {tag : UInt8} {fields : Fields}
    (small : Small (tlv tag fields.encode)) :
    replyFields (tlv tag fields.encode) = .ok
      (tag.toNat, Dict.ofList fields.entries) := by
  have whole := Small.of_tlv small
  have body := Fields.small_body whole
  rw [replyFields, readTlv_self whole]
  simp only [bind, Except.bind]
  rw [Fields.encode_eq, readTlv_self body]
  simp only
  rw [Fields.read body]
  rfl

theorem encPartEtype_encode {encPart : Fields} {etype : Nat}
    (small : Small encPart.encode)
    (present : (0, derInt etype) ∈ encPart.entries) :
    encPartEtype encPart.encode = .ok [(etype : Int)] := by
  have body := Fields.small_body small
  rw [encPartEtype, Fields.encode_eq, readTlv_self body]
  simp only [bind, Except.bind]
  rw [Fields.read body]
  simp only [encPart.get?_of_mem present,
    decodeInt_derInt (Fields.small_of_mem body present)]
  rfl

theorem edataEtypes_encode {pas : List PaData}
    (small : Small (tlv octetStringTag (methodData pas))) :
    edataEtypes (tlv octetStringTag (methodData pas)) = .ok (methodEtypes pas) := by
  have inner := Small.of_tlv small
  rw [edataEtypes, readTlv_self inner]
  exact etypesFromMethoddata_encode inner

theorem parseKdcReply_error (error : KrbError) (small : Small error.encode) :
    parseKdcReply error.encode = .ok ⟨some 30, dedupe error.etypes,
      some (error.code : Int)⟩ := by
  have body := Fields.small_body (Small.of_tlv small)
  have edata : ((Dict.ofList error.fields.entries).get? 12).mapM edataEtypes =
      .ok (error.edata.map methodEtypes) := by
    have carried : (Dict.ofList error.fields.entries).get? 12 =
        error.edata.map fun pas => tlv octetStringTag (methodData pas) := by
      apply Option.ext
      intro value
      rw [← Fields.mem_iff, error.edataField value]
    rw [carried]
    cases given : error.edata with
    | none => rfl
    | some pas =>
        have member : (12, tlv octetStringTag (methodData pas)) ∈
            error.fields.entries := by
          rw [error.edataField, given]
          rfl
        rw [Option.map_some, Option.mapM_some,
          edataEtypes_encode (Fields.small_of_mem body member)]
        rfl
  have filled : fillError (Dict.ofList error.fields.entries) =
      (⟨some 30, dedupe error.etypes, some (error.code : Int)⟩, .ok ()) := by
    rw [fillError, error.fields.get?_of_mem error.codeField, Option.mapM_some,
      decodeInt_derInt (Fields.small_of_mem body error.codeField), edata, KrbError.etypes]
    cases error.edata <;> rfl
  rw [parseKdcReply, KrbError.encode, replyFields_encode small]
  simp only
  rw [fill, if_pos rfl, filled]

theorem parseKdcReply_reply (reply : AsRep) (small : Small reply.encode) :
    parseKdcReply reply.encode = .ok ⟨some 11, dedupe reply.etypes, none⟩ := by
  have body := Fields.small_body (Small.of_tlv small)
  have encPart := Fields.small_of_mem body reply.encPartField
  have padata : ((Dict.ofList reply.fields.entries).get? 2).mapM etypesFromMethoddata =
      .ok (reply.padata.map methodEtypes) := by
    have carried : (Dict.ofList reply.fields.entries).get? 2 =
        reply.padata.map methodData := by
      apply Option.ext
      intro value
      rw [← Fields.mem_iff, reply.padataField value]
    rw [carried]
    cases given : reply.padata with
    | none => rfl
    | some pas =>
        have member : (2, methodData pas) ∈ reply.fields.entries := by
          rw [reply.padataField, given]
          rfl
        have read := etypesFromMethoddata_encode (Fields.small_of_mem body member)
        rw [Option.map_some, Option.mapM_some, read]
        rfl
  have filled : fillReply (Dict.ofList reply.fields.entries) =
      (⟨some 11, dedupe reply.etypes, none⟩, .ok ()) := by
    rw [fillReply, padata, reply.fields.get?_of_mem reply.encPartField, Option.mapM_some,
      encPartEtype_encode encPart reply.etypeField]
    rfl
  rw [parseKdcReply, AsRep.encode, replyFields_encode small]
  simp only
  rw [fill, if_neg (by decide), if_pos rfl, filled]

/-! ## Repetitions -/

/-- `_dedupe` keeps the first occurrence of every item. -/
theorem dedupe_eq_eraseDups (items : List Int) : dedupe items = items.eraseDups :=
  foldl_new items

/-! ## Every byte string -/

/-- A computation that raises nothing but what `parse_kdc_reply` catches. -/
def Tame (computation : Except ReadError α) : Prop :=
  ∀ error, computation = .error error → caught error = true

theorem Tame.ok (value : α) : Tame (.ok value : Except ReadError α) := by
  intro error raised
  cases raised

theorem Tame.error {error : ReadError} (expected : caught error = true) :
    Tame (.error error : Except ReadError α) := by
  intro other raised
  injection raised with same
  rwa [← same]

theorem Tame.bind {first : Except ReadError α} {next : α → Except ReadError β}
    (tame : Tame first) (after : ∀ value, Tame (next value)) : Tame (first >>= next) := by
  cases first with
  | error error => exact Tame.error (tame error rfl)
  | ok value => exact after value

theorem byteAt_tame (bytes : Bytes) (i : Nat) : Tame (byteAt bytes i) := by
  unfold byteAt
  split
  · exact Tame.ok _
  · exact Tame.error rfl

theorem readTlv_tame (data : Bytes) (off : Nat) : Tame (readTlv data off) := by
  apply Tame.bind (byteAt_tame data off)
  intro tag
  apply Tame.bind (byteAt_tame data (off + 1))
  intro first
  dsimp only
  generalize (if first &&& 0x80 ≠ 0 then first &&& 0x7F else 0) = num
  split_ifs
  · exact Tame.error rfl
  · exact Tame.ok _
  · exact Tame.error rfl
  · exact Tame.ok _

theorem scanTlvs_tame {visit : σ → Nat → Bytes → Except ReadError σ}
    (tame : ∀ state tag value, Tame (visit state tag value)) (body : Bytes)
    (fuel off : Nat) (state : σ) : Tame (scanTlvs visit body fuel off state) := by
  induction fuel generalizing off state with
  | zero => exact Tame.ok state
  | succ fuel inductionHypothesis =>
      rw [scanTlvs]
      split
      · apply Tame.bind (readTlv_tame body off)
        intro parts
        apply Tame.bind (tame state parts.1 parts.2.1)
        intro state
        exact inductionHypothesis parts.2.2 state
      · exact Tame.ok state

theorem contextFields_tame (seqBody : Bytes) : Tame (contextFields seqBody) := by
  apply scanTlvs_tame
  intro fields tag value
  unfold contextField
  split
  · exact Tame.ok _
  · exact Tame.ok _

theorem decodeInt_tame (tlvBytes : Bytes) : Tame (decodeInt tlvBytes) := by
  apply Tame.bind (readTlv_tame tlvBytes 0)
  intro parts
  exact Tame.ok _

theorem etypesFromInfo_tame (infoDer : Bytes) : Tame (etypesFromInfo infoDer) := by
  apply Tame.bind (readTlv_tame infoDer 0)
  intro parts
  apply scanTlvs_tame
  intro out tag entry
  apply Tame.bind (contextFields_tame entry)
  intro fields
  split
  · apply Tame.bind (decodeInt_tame _)
    intro etype
    exact Tame.ok _
  · exact Tame.ok _

theorem etypesFromMethoddata_tame (methoddataDer : Bytes) :
    Tame (etypesFromMethoddata methoddataDer) := by
  apply Tame.bind (readTlv_tame methoddataDer 0)
  intro parts
  apply scanTlvs_tame
  intro out tag pa
  apply Tame.bind (contextFields_tame pa)
  intro fields
  split
  · apply Tame.bind (decodeInt_tame _)
    intro type
    split
    · apply Tame.bind (readTlv_tame _ 0)
      intro padata
      apply Tame.bind (etypesFromInfo_tame padata.2.1)
      intro etypes
      exact Tame.ok _
    · exact Tame.ok _
  · exact Tame.ok _

theorem encPartEtype_tame (field : Bytes) : Tame (encPartEtype field) := by
  apply Tame.bind (readTlv_tame field 0)
  intro parts
  apply Tame.bind (contextFields_tame parts.2.1)
  intro fields
  split
  · apply Tame.bind (decodeInt_tame _)
    intro etype
    exact Tame.ok _
  · exact Tame.ok _

theorem edataEtypes_tame (field : Bytes) : Tame (edataEtypes field) := by
  apply Tame.bind (readTlv_tame field 0)
  intro parts
  exact etypesFromMethoddata_tame parts.2.1

theorem mapM_tame {read : α → Except ReadError β} (tame : ∀ value, Tame (read value))
    (field : Option α) : Tame (field.mapM read) := by
  cases field with
  | none => exact Tame.ok none
  | some value =>
      rw [Option.mapM_some]
      apply Tame.bind (tame value)
      intro result
      exact Tame.ok _

theorem replyFields_tame (data : Bytes) : Tame (replyFields data) := by
  apply Tame.bind (readTlv_tame data 0)
  intro outer
  apply Tame.bind (readTlv_tame outer.2.1 0)
  intro inner
  apply Tame.bind (contextFields_tame inner.2.1)
  intro fields
  exact Tame.ok _

theorem fill_tame (tag : Nat) (fields : Dict Nat Bytes) : Tame (fill tag fields).2 := by
  unfold fill
  split
  · unfold fillError
    have code := mapM_tame decodeInt_tame (fields.get? 6)
    have edata := mapM_tame edataEtypes_tame (fields.get? 12)
    dsimp only
    split
    · next error raised => exact Tame.error (code error raised)
    · split
      · next error raised => exact Tame.error (edata error raised)
      · exact Tame.ok ()
      · exact Tame.ok ()
  · split
    · unfold fillReply
      have padata := mapM_tame etypesFromMethoddata_tame (fields.get? 2)
      have encPart := mapM_tame encPartEtype_tame (fields.get? 6)
      dsimp only
      split
      · next error raised => exact Tame.error (padata error raised)
      · split
        · next error raised => exact Tame.error (encPart error raised)
        · exact Tame.ok ()
    · exact Tame.ok ()

/-- `parse_kdc_reply` returns on every byte string. -/
theorem parseKdcReply_returns (data : Bytes) :
    ∃ reply, parseKdcReply data = .ok reply := by
  have first := replyFields_tame data
  unfold parseKdcReply
  split
  · next error raised => exact ⟨_, if_pos (first error raised)⟩
  · next tag fields read =>
      have filled := fill_tame tag fields
      split
      · exact ⟨_, rfl⟩
      · next result error ended =>
          rw [ended] at filled
          exact ⟨result, if_pos (filled error rfl)⟩

/-- The codec of `_krb_asn1.py`: values and integers are read back at every length,
`parse_kdc_reply` gives the error code and the encryption types of a reply, each once and
in order, and it returns on every byte string, its loops never running out of rounds. -/
theorem kerberos_round_trip :
    (∀ (tag : UInt8) (value before rest : Bytes), Small value →
      readTlv (before ++ (tlv tag value ++ rest)) before.length =
        .ok (tag.toNat, value, before.length + (tlv tag value).length)) ∧
    (∀ n : Nat, Small (derInt n) → decodeInt (derInt n) = .ok (n : Int)) ∧
    (∀ error : KrbError, Small error.encode → parseKdcReply error.encode =
      .ok ⟨some 30, error.etypes.eraseDups, some (error.code : Int)⟩) ∧
    (∀ reply : AsRep, Small reply.encode → parseKdcReply reply.encode =
      .ok ⟨some 11, reply.etypes.eraseDups, none⟩) ∧
    (∀ data : Bytes, ∃ reply, parseKdcReply data = .ok reply) ∧
    ∀ (σ : Type) (visit : σ → Nat → Bytes → Except ReadError σ) (body : Bytes) (state : σ)
      (more : Nat), body.length ≤ more →
        scanTlvs visit body more 0 state = scanTlvs visit body body.length 0 state := by
  refine ⟨?_, ?_, ?_, ?_, parseKdcReply_returns, ?_⟩
  · intro tag value before rest small
    exact readTlv_tlv (List.drop_left' rfl) small
  · intro n small
    exact decodeInt_derInt small
  · intro error small
    rw [parseKdcReply_error error small, dedupe_eq_eraseDups]
  · intro reply small
    rw [parseKdcReply_reply reply small, dedupe_eq_eraseDups]
  · intro σ visit body state more enough
    apply scanTlvs_of_le visit body state _ enough
    omega

/-- An entry of ETYPE-INFO2 with an empty salt. -/
def saltedEntry (etype : Nat) : InfoEntry :=
  ⟨etype, ⟨[(0, derInt etype), (1, [0x1B, 0x00])], by simp, by simp⟩, List.mem_cons_self⟩

/-- A time stamp, and two encryption types, one of them twice. -/
def preauthMethods : List PaData :=
  [.other 2 (by decide) [], .etypeInfo [saltedEntry 18],
    .etypeInfo2 ([18, 17, 18].map saltedEntry)]

/-- A pre-authentication error that offers two encryption types. -/
def preauthRequired : KrbError where
  code := 25
  edata := some preauthMethods
  fields := ⟨[(0, derInt 5), (6, derInt 25),
    (12, tlv octetStringTag (methodData preauthMethods))], by simp, by simp⟩
  codeField := by simp
  edataField := by simp [eq_comm]

/-- An error without e-data: the principal is unknown. -/
def principalUnknown : KrbError where
  code := 6
  edata := none
  fields := ⟨[(0, derInt 5), (6, derInt 6)], by simp, by simp⟩
  codeField := by simp
  edataField := by simp

/-- The encrypted part of a ticket. -/
def rc4Part : Fields := ⟨[(0, derInt 23), (2, [4, 1, 0])], by simp, by simp⟩

/-- A ticket whose padata tells two encryption types and whose
encrypted part has a third. -/
def rc4Ticket : AsRep where
  padata := some preauthMethods
  etype := 23
  encPart := rc4Part
  fields := ⟨[(0, derInt 5), (2, methodData preauthMethods), (6, rc4Part.encode)],
    by simp, by simp⟩
  etypeField := by simp [rc4Part]
  encPartField := by simp
  padataField := by simp [eq_comm]

theorem kerberos_round_trip_sample :
    parseKdcReply preauthRequired.encode = .ok ⟨some 30, [18, 17], some 25⟩ ∧
      parseKdcReply principalUnknown.encode = .ok ⟨some 30, [], some 6⟩ ∧
        parseKdcReply rc4Ticket.encode = .ok ⟨some 11, [18, 17, 23], none⟩ := by
  obtain ⟨-, -, error, reply, -⟩ := kerberos_round_trip
  refine ⟨?_, ?_, ?_⟩
  · rw [error preauthRequired (by unfold Small; decide +kernel)]
    decide
  · rw [error principalUnknown (by unfold Small; decide +kernel)]
    decide
  · rw [reply rc4Ticket (by unfold Small; decide +kernel)]
    decide

end Krb
end Probes
end PqcScan
