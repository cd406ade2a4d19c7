import PqcScan.Core.Types
import PqcScan.Probes.KrbReplies
import PqcScan.Probes.SshKexinit

/-!
# The request to a key distribution centre

`build_as_req` of `probes/_krb_asn1.py`, and what a centre that reads with the decoders of
the same module finds in it.
-/

namespace PqcScan
namespace Probes
namespace Krb

open Library Python

/-! ## Encoders -/

/-- `_TAG_BIT_STRING`. -/
def bitStringTag : UInt8 := 0x03

/-- `_TAG_GENERAL_STRING`. -/
def generalStringTag : UInt8 := 0x1B

/-- `_TAG_GENERALIZED_TIME`. -/
def generalizedTimeTag : UInt8 := 0x18

/-- `_TAG_APP_AS_REQ`. -/
def asReqTag : UInt8 := 0x6A

/-- `text.encode("ascii")`; nothing where it raises `UnicodeEncodeError`. -/
def encodeAscii (text : List Char) : Option Bytes :=
  if text.all (·.toNat < 128) then some (asciiEncode text) else none

/-- `_der_gstr`. -/
def derGstr (text : List Char) : Option Bytes :=
  (encodeAscii text).map (tlv generalStringTag)

/-- `_kdc_options()`. -/
def kdcOptions : Bytes := tlv bitStringTag [0, 0, 0, 0, 0]

/-- `_principal_name`. -/
def principalName (nameType : Nat) (components : List (List Char)) : Option Bytes := do
  let components ← components.mapM derGstr
  some (seq [ctx 0 (derInt nameType), ctx 1 (seq components)])

/-- `_DEFAULT_TILL`. -/
def defaultTill : List Char := "20370913024805Z".toList

/-- `_DEFAULT_NONCE`. -/
def defaultNonce : Nat := 0x51455343

/-- `build_as_req`. -/
def buildAsReq (realm principal : List Char) (etypes : List Nat) : Option Bytes := do
  let cname ← principalName 1 [principal]
  let realmDer ← derGstr realm
  let sname ← principalName 2 ["krbtgt".toList, realm]
  let reqBody := seq [ctx 0 kdcOptions, ctx 1 cname, ctx 2 realmDer, ctx 3 sname,
    ctx 5 (tlv generalizedTimeTag (asciiEncode defaultTill)), ctx 7 (derInt defaultNonce),
    ctx 8 (seq (etypes.map derInt))]
  some (tlv asReqTag (seq [ctx 1 (derInt 5), ctx 2 (derInt 10), ctx 4 reqBody]))

/-! ## What a centre reads -/

/-- The name of a principal. -/
structure PrincipalName where
  type : Int
  components : List Bytes
  deriving DecidableEq

/-- An AS-REQ. -/
structure AsReq where
  pvno : Int
  msgType : Int
  options : Bytes
  cname : PrincipalName
  realm : Bytes
  sname : PrincipalName
  till : Bytes
  nonce : Int
  etypes : List Int
  deriving DecidableEq

/-- A field that must be there. -/
def required (fields : Dict Nat Bytes) (n : Nat) : Except ReadError Bytes :=
  match fields.get? n with
  | some value => .ok value
  | none => .error (.valueError "missing field")

/-- The content of a value. -/
def readContent (der : Bytes) : Except ReadError Bytes := do
  let (_, value, _) ← readTlv der 0
  pure value

/-- The fields of a SEQUENCE. -/
def readFields (der : Bytes) : Except ReadError (Dict Nat Bytes) := do
  let body ← readContent der
  contextFields body

/-- The contents of the members of a SEQUENCE OF. -/
def readMembers (der : Bytes) : Except ReadError (List Bytes) := do
  let body ← readContent der
  scanTlvs (fun out _ value => .ok (out ++ [value])) body body.length 0 []

/-- Read a `PrincipalName`. -/
def readName (der : Bytes) : Except ReadError PrincipalName := do
  let fields ← readFields der
  let type ← decodeInt (← required fields 0)
  let components ← readMembers (← required fields 1)
  pure ⟨type, components⟩

/-- Read an `AS-REQ`. -/
def readAsReq (data : Bytes) : Except ReadError AsReq := do
  let fields ← readFields (← readContent data)
  let pvno ← decodeInt (← required fields 1)
  let msgType ← decodeInt (← required fields 2)
  let body ← readFields (← required fields 4)
  let options ← readContent (← required body 0)
  let cname ← readName (← required body 1)
  let realm ← readContent (← required body 2)
  let sname ← readName (← required body 3)
  let till ← readContent (← required body 5)
  let nonce ← decodeInt (← required body 7)
  let etypes ← readMembers (← required body 8)
  pure ⟨pvno, msgType, options, cname, realm, sname, till, nonce,
    etypes.map signedBigEndian⟩

/-! ## Reading back -/

theorem required_of_mem (fields : Fields) {n : Nat} {value : Bytes}
    (member : (n, value) ∈ fields.entries) :
    required (Dict.ofList fields.entries) n = .ok value := by
  rw [required, fields.get?_of_mem member]

theorem readContent_tlv {tag : UInt8} {value : Bytes} (small : Small value) :
    readContent (tlv tag value) = .ok value := by
  rw [readContent, readTlv_self small]
  rfl

theorem readFields_encode {fields : Fields} (small : Small fields.encode) :
    readFields fields.encode = .ok (Dict.ofList fields.entries) := by
  have body := Fields.small_body small
  rw [readFields, Fields.encode_eq, readContent_tlv body]
  exact Fields.read body

theorem readMembers_seq {items : List (UInt8 × Bytes)}
    (small : Small (seq (items.map fun item => tlv item.1 item.2))) :
    readMembers (seq (items.map fun item => tlv item.1 item.2)) = .ok
      (items.map Prod.snd) := by
  have body := small.of_tlv
  have all : ∀ (items : List (UInt8 × Bytes)) (out : List Bytes),
      items.foldl (fun out item => out ++ [item.2]) out = out ++ items.map Prod.snd := by
    intro items
    induction items with
    | nil => simp
    | cons item items inductionHypothesis =>
        intro out
        rw [List.foldl_cons, inductionHypothesis, List.map_cons, List.append_assoc,
          List.singleton_append]
  rw [readMembers, seq, readContent_tlv body]
  change scanTlvs _ _ _ 0 [] = _
  rw [@scanTlvs_encoded _ _ items Prod.fst Prod.snd _ (fun out item =>
    out ++ [item.2]) [] body
    fun _ _ _ => rfl, all, List.nil_append]

/-- The content of an integer. -/
theorem derInt_eq (n : Nat) : ∃ value, derInt n = tlv integerTag value ∧
    (Small (derInt n) → signedBigEndian value = (n : Int)) := by
  obtain ⟨value, same⟩ : ∃ value, derInt n = tlv integerTag value := by
    unfold derInt
    split
    · exact ⟨_, rfl⟩
    · dsimp only
      split
      · exact ⟨_, rfl⟩
      · exact ⟨_, rfl⟩
  refine ⟨value, same, fun small => ?_⟩
  have read := decodeInt_derInt small
  rw [same] at small read
  rw [decodeInt, readTlv_self small.of_tlv] at read
  exact Except.ok.inj read

theorem readMembers_integers {numbers : List Nat}
    (small : Small (seq (numbers.map derInt))) :
    ∃ values, readMembers (seq (numbers.map derInt)) = .ok values ∧
      values.map signedBigEndian = numbers.map fun number : Nat => (number : Int) := by
  choose value same read using derInt_eq
  have items : numbers.map derInt =
      (numbers.map fun number => (integerTag, value number)).map fun item =>
        tlv item.1 item.2 := by
    rw [List.map_map]
    exact List.map_congr_left fun number _ => same number
  have each : ∀ number ∈ numbers, Small (derInt number) := by
    intro number member
    have inner : (derInt number).Sublist (numbers.map derInt).flatten :=
      List.sublist_flatten_of_mem (List.mem_map_of_mem member)
    exact (small.of_tlv).of_le inner.length_le
  refine ⟨numbers.map value, ?_, ?_⟩
  · rw [items] at small ⊢
    rw [readMembers_seq small, List.map_map]
    rfl
  · rw [List.map_map]
    exact List.map_congr_left fun number member => read number (each number member)

/-- The fields of a name. -/
def nameFields (nameType : Nat) (components : List (List Char)) : Fields where
  entries := [(0, derInt nameType),
    (1, seq (components.map fun text => tlv generalStringTag (asciiEncode text)))]
  distinct := by simp
  numbered := by simp

theorem principalName_eq {nameType : Nat} {components : List (List Char)} {name : Bytes}
    (built : principalName nameType components = some name) :
    name = (nameFields nameType components).encode := by
  have parts : ∀ (components : List (List Char)) (ders : List Bytes),
      components.mapM derGstr = some ders →
        ders = components.map fun text => tlv generalStringTag (asciiEncode text) := by
    intro components
    induction components with
    | nil =>
        intro ders built
        cases built
        rfl
    | cons text components inductionHypothesis =>
        intro ders built
        rw [List.mapM_cons] at built
        obtain ⟨first, isFirst, built⟩ := Option.bind_eq_some_iff.mp built
        obtain ⟨later, isLater, built⟩ := Option.bind_eq_some_iff.mp built
        cases built
        rw [derGstr, encodeAscii] at isFirst
        split at isFirst
        · cases isFirst
          rw [inductionHypothesis later isLater, List.map_cons]
        · cases isFirst
  obtain ⟨ders, encoded, built⟩ := Option.bind_eq_some_iff.mp built
  cases built
  rw [parts components ders encoded]
  rfl

theorem readName_encode {nameType : Nat} {components : List (List Char)}
    (small : Small (nameFields nameType components).encode) :
    readName (nameFields nameType components).encode =
      .ok ⟨(nameType : Int), components.map asciiEncode⟩ := by
  have body := Fields.small_body small
  have type : (0, derInt nameType) ∈ (nameFields nameType components).entries :=
    List.mem_cons_self
  have parts : (1, seq (components.map fun text =>
      tlv generalStringTag (asciiEncode text))) ∈
      (nameFields nameType components).entries :=
    List.mem_cons_of_mem _ (List.mem_singleton_self _)
  have items : (components.map fun text => tlv generalStringTag (asciiEncode text)) =
      (components.map fun text => (generalStringTag, asciiEncode text)).map fun item =>
        tlv item.1 item.2 := by
    rw [List.map_map]
    rfl
  have read := Fields.small_of_mem body parts
  rw [items] at read
  have members := readMembers_seq read
  rw [← items, List.map_map] at members
  rw [readName, readFields_encode small]
  simp only [bind, Except.bind]
  rw [required_of_mem _ type, required_of_mem _ parts]
  simp only
  rw [decodeInt_derInt (Fields.small_of_mem body type)]
  simp only
  rw [members]
  rfl

/-- The fields of the body of a request. -/
def bodyFields (realm principal : List Char) (etypes : List Nat) : Fields where
  entries := [(0, kdcOptions), (1, (nameFields 1 [principal]).encode),
    (2, tlv generalStringTag (asciiEncode realm)),
    (3, (nameFields 2 ["krbtgt".toList, realm]).encode),
    (5, tlv generalizedTimeTag (asciiEncode defaultTill)), (7, derInt defaultNonce),
    (8, seq (etypes.map derInt))]
  distinct := by simp
  numbered := by simp

/-- The fields of the request. -/
def requestFields (realm principal : List Char) (etypes : List Nat) : Fields where
  entries := [(1, derInt 5), (2, derInt 10),
    (4, (bodyFields realm principal etypes).encode)]
  distinct := by simp
  numbered := by simp

theorem buildAsReq_eq {realm principal : List Char} {etypes : List Nat} {request : Bytes}
    (built : buildAsReq realm principal etypes = some request) :
    request = tlv asReqTag (requestFields realm principal etypes).encode := by
  obtain ⟨cname, isCname, built⟩ := Option.bind_eq_some_iff.mp built
  obtain ⟨realmDer, isRealm, built⟩ := Option.bind_eq_some_iff.mp built
  obtain ⟨sname, isSname, built⟩ := Option.bind_eq_some_iff.mp built
  have realmEq : realmDer = tlv generalStringTag (asciiEncode realm) := by
    rw [derGstr, encodeAscii] at isRealm
    split at isRealm
    · cases isRealm
      rfl
    · cases isRealm
  cases built
  rw [principalName_eq isCname, principalName_eq isSname, realmEq]
  rfl

/-- A centre that reads with the module's own decoders finds in the request what it was
built of: the protocol, the principal, the realm, its ticket granting service and the
encryption types, in their order. -/
theorem readAsReq_buildAsReq {realm principal : List Char} {etypes : List Nat}
    {request : Bytes}
    (built : buildAsReq realm principal etypes = some request) (small : Small request) :
    readAsReq request = .ok
      { pvno := 5
        msgType := 10
        options := [0, 0, 0, 0, 0]
        cname := ⟨1, [asciiEncode principal]⟩
        realm := asciiEncode realm
        sname := ⟨2, [asciiEncode "krbtgt".toList, asciiEncode realm]⟩
        till := asciiEncode defaultTill
        nonce := defaultNonce
        etypes := etypes.map fun etype : Nat => (etype : Int) } := by
  rw [buildAsReq_eq built] at small ⊢
  have outer := small.of_tlv
  have request := Fields.small_body outer
  have listed : ∀ entry ∈ [(1, derInt 5), (2, derInt 10),
      (4, (bodyFields realm principal etypes).encode)],
        required (Dict.ofList (requestFields realm principal etypes).entries) entry.1 =
          .ok entry.2 ∧ Small entry.2 :=
    fun entry member => ⟨required_of_mem _ member, Fields.small_of_mem request member⟩
  simp only [List.forall_mem_cons, List.not_mem_nil, false_implies,
    implies_true, and_true]
    at listed
  obtain ⟨pvno, msgType, body⟩ := listed
  have inner := Fields.small_body body.2
  have parts : ∀ entry ∈ [(0, kdcOptions), (1, (nameFields 1 [principal]).encode),
      (2, tlv generalStringTag (asciiEncode realm)),
      (3, (nameFields 2 ["krbtgt".toList, realm]).encode),
      (5, tlv generalizedTimeTag (asciiEncode defaultTill)), (7, derInt defaultNonce),
      (8, seq (etypes.map derInt))],
        required (Dict.ofList (bodyFields realm principal etypes).entries) entry.1 =
          .ok entry.2 ∧ Small entry.2 :=
    fun entry member => ⟨required_of_mem _ member, Fields.small_of_mem inner member⟩
  simp only [List.forall_mem_cons, List.not_mem_nil, false_implies,
    implies_true, and_true]
    at parts
  obtain ⟨options, cname, realmField, sname, till, nonce, etypesField⟩ := parts
  obtain ⟨values, read, numbers⟩ := readMembers_integers etypesField.2
  rw [readAsReq, readContent_tlv outer]
  simp only [bind, Except.bind, pure, Except.pure, readFields_encode outer,
    pvno.1, msgType.1, body.1, decodeInt_derInt pvno.2, decodeInt_derInt msgType.2,
    readFields_encode body.2, options.1, cname.1, realmField.1, sname.1, till.1, nonce.1,
    etypesField.1, readContent_tlv realmField.2.of_tlv, readContent_tlv till.2.of_tlv,
    readName_encode cname.2, readName_encode sname.2, decodeInt_derInt nonce.2,
    read, numbers]
  have opened : readContent kdcOptions = .ok [0, 0, 0, 0, 0] :=
    readContent_tlv options.2.of_tlv
  rw [opened]
  rfl

end Krb
end Probes
end PqcScan
