import PqcScan.Probes.CertChainTls13

/-!
# ServerHello parsers

`parse_server_hello` of `probes/net_tls_kex_groups.py` and
`parse_server_hello_tls13` of `probes/net_tls_cert_chain_tls13.py` with every
read that may raise.  Both guard their first reads against `IndexError`, but
`struct.unpack` of a short slice raises `struct.error`.
-/

namespace PqcScan
namespace Probes

open Library Python Framing

/-! ## Reads -/

/-- What a read of bytes raises. -/
inductive ReadError
  | indexError (message : String)
  | structError (message : String)
  | valueError (message : String)
  deriving DecidableEq, Repr

/-- `bytes[i]`. -/
def byteAt (bytes : Bytes) (i : Nat) : Except ReadError Nat :=
  match bytes[i]? with
  | some byte => .ok byte.toNat
  | none => .error (.indexError "index out of range")

/-- `struct.unpack(">H", bytes)[0]`. -/
def unpackU16 (bytes : Bytes) : Except ReadError Nat :=
  (unpackShort bytes).mapError .structError

/-- `try: … except IndexError: return None`. -/
def catchIndex : Except ReadError α → Except ReadError (Option α)
  | .ok value => .ok (some value)
  | .error (.indexError _) => .ok none
  | .error error => .error error

/-! ## The parsers -/

/-- The guarded reads: the cipher suite and the extensions. -/
def readFixed (body : Bytes) : Except ReadError (Nat × Bytes) := do
  let sidLen ← byteAt body (2 + 32)
  let off := 2 + 32 + (1 + sidLen)
  let cipher ← unpackU16 ((body.drop off).take 2)
  let off := off + 2 + 1
  let extTotal ← unpackU16 ((body.drop off).take 2)
  let off := off + 2
  pure (cipher, (body.drop off).take extTotal)

/-- The loop over the extensions; every round takes four bytes at least. -/
def scanExtensions (visit : σ → Nat → Bytes → Except ReadError σ) :
    Nat → σ → Bytes → Except ReadError σ
  | 0, state, _ => .ok state
  | fuel + 1, state, exts =>
      if 4 ≤ exts.length then do
        let et ← unpackU16 (exts.take 2)
        let el ← unpackU16 ((exts.drop 2).take 2)
        let ev := (exts.drop 4).take el
        let state ← visit state et ev
        scanExtensions visit fuel state (exts.drop (4 + el))
      else .ok state

/-- The body of a handshake message, up to its length. -/
def helloBody (hs : Bytes) : Bytes := (hs.drop 4).take (bigEndian ((hs.drop 1).take 3))

/-- What the two parsers share: the message type, the guarded reads and the loop. -/
def readHello (visit : σ → Nat → Bytes → Except ReadError σ) (init : σ)
    (select : Nat → σ → Option ρ) (hs : Bytes) : Except ReadError (Option ρ) :=
  if hs.length < 4 then .ok none
  else do
    let mtype ← byteAt hs 0
    if mtype ≠ 0x02 then pure none
    else
      match ← catchIndex (readFixed (helloBody hs)) with
      | none => pure none
      | some (cipher, exts) =>
          let state ← scanExtensions visit exts.length init exts
          pure (select cipher state)

/-- `_GROUPS`. -/
def groups (code : Nat) : Option (String × Bool) :=
  match code with
  | 0x001D => some ("x25519", false)
  | 0x0017 => some ("secp256r1", false)
  | 0x0018 => some ("secp384r1", false)
  | 0x0019 => some ("secp521r1", false)
  | 0x0100 => some ("ffdhe2048", false)
  | 0x0101 => some ("ffdhe3072", false)
  | 0x0102 => some ("ffdhe4096", false)
  | 0x11EC => some ("X25519MLKEM768", true)
  | 0x11EB => some ("SecP256r1MLKEM768", true)
  | 0x11ED => some ("SecP384r1MLKEM1024", true)
  | 0x6399 => some ("X25519Kyber768Draft00", true)
  | 0x639A => some ("SecP256r1Kyber768Draft00", true)
  | _ => none

/-- `f"unknown-0x{group_code:04x}"`. -/
def unknownGroup (code : Nat) : String :=
  let digits := Nat.toDigits 16 code
  "unknown-0x" ++ String.ofList (List.replicate (4 - digits.length) '0' ++ digits)

/-- What `parse_server_hello` returns. -/
structure SelectedGroup where
  version : Nat
  cipher : Nat
  groupCode : Nat
  groupName : String
  isPqc : Bool
  deriving DecidableEq, Repr

/-- The version and the group of the extensions so far. -/
def visitGroup (state : Nat × Option Nat) (et : Nat) (ev : Bytes) :
    Except ReadError (Nat × Option Nat) :=
  if et = 0x002B ∧ 2 ≤ ev.length then do
    let version ← unpackU16 (ev.take 2)
    pure (version, state.2)
  else if et = 0x0033 ∧ 2 ≤ ev.length then do
    let group ← unpackU16 (ev.take 2)
    pure (state.1, some group)
  else pure state

/-- What `parse_server_hello` returns of the fields. -/
def selectGroup (cipher : Nat) : Nat × Option Nat → Option SelectedGroup
  | (_, none) => none
  | (version, some code) =>
      let (name, isPqc) := (groups code).getD (unknownGroup code, false)
      some ⟨version, cipher, code, name, isPqc⟩

/-- The payload of the first record. -/
def recordPayload (data : Bytes) : Bytes :=
  (data.drop 5).take (bigEndian ((data.drop 3).take 2))

/-- `parse_server_hello`. -/
def parseServerHelloGroup (data : Bytes) : Except ReadError (Option SelectedGroup) :=
  if data.length < 5 then .ok none
  else do
    let ctype ← byteAt data 0
    if ctype ≠ 0x16 then pure none
    else
      let recLen ← unpackU16 ((data.drop 3).take 2)
      readHello visitGroup (0x0303, none) selectGroup ((data.drop 5).take recLen)

/-- The version and the X25519 share of the extensions so far. -/
def visitShare (state : Nat × Option Bytes) (et : Nat) (ev : Bytes) :
    Except ReadError (Nat × Option Bytes) :=
  if et = 0x002B ∧ 2 ≤ ev.length then do
    let version ← unpackU16 (ev.take 2)
    pure (version, state.2)
  else if et = 0x0033 ∧ 4 ≤ ev.length then do
    let group ← unpackU16 (ev.take 2)
    let klen ← unpackU16 ((ev.drop 2).take 2)
    if group = 0x001D then pure (state.1, some ((ev.drop 4).take klen)) else pure state
  else pure state

/-- What `parse_server_hello` returns of the fields. -/
def selectShare (cipher : Nat) : Nat × Option Bytes → Option ServerHello
  | (version, some serverPub) => (cipherSuites cipher).map fun _ =>
    ⟨version, cipher, serverPub⟩
  | (_, none) => none

/-- `parse_server_hello_tls13`. -/
def parseServerHelloTls13 (hs : Bytes) : Except ReadError (Option ServerHello) :=
  readHello visitShare (0x0303, none) selectShare hs

/-! ## Totality -/

/-- A ServerHello with a session id whose body ends before the
length of its extensions. -/
def CutShort (hs : Bytes) : Prop :=
  4 ≤ hs.length ∧ hs.head? = some 0x02 ∧
    ∃ sidLen, (helloBody hs)[34]? = some sidLen ∧
      (helloBody hs).length < 40 + sidLen.toNat

/-- The first record is a handshake record with such a ServerHello. -/
def RecordCutShort (data : Bytes) : Prop :=
  5 ≤ data.length ∧ data.head? = some 0x16 ∧ CutShort (recordPayload data)

/-- The program returns. -/
def Returns (result : Except ReadError α) : Prop := ∃ value, result = .ok value

/-- What `struct.unpack` says of a short slice. -/
def shortBuffer : String := "unpack requires a buffer of 2 bytes"

theorem unpackShort_window {bytes : Bytes} {off : Nat} (within : off + 2 ≤ bytes.length) :
    unpackShort ((bytes.drop off).take 2) = .ok
      (bigEndian ((bytes.drop off).take 2)) := by
  rw [unpackShort, if_pos]
  simp only [List.length_take, List.length_drop]
  omega

theorem unpackShort_beyond {bytes : Bytes} {off : Nat} (beyond : bytes.length < off + 2) :
    unpackShort ((bytes.drop off).take 2) = .error shortBuffer := by
  rw [unpackShort, if_neg]
  · rfl
  · simp only [List.length_take, List.length_drop]
    omega

theorem unpackU16_window {bytes : Bytes} {off : Nat} (within : off + 2 ≤ bytes.length) :
    unpackU16 ((bytes.drop off).take 2) = .ok (bigEndian ((bytes.drop off).take 2)) := by
  rw [unpackU16, unpackShort_window within]
  rfl

theorem unpackU16_beyond {bytes : Bytes} {off : Nat} (beyond : bytes.length < off + 2) :
    unpackU16 ((bytes.drop off).take 2) = .error (.structError shortBuffer) := by
  rw [unpackU16, unpackShort_beyond beyond]
  rfl

theorem unpackU16_take {bytes : Bytes} (within : 2 ≤ bytes.length) :
    unpackU16 (bytes.take 2) = .ok (bigEndian (bytes.take 2)) := by
  have window : 0 + 2 ≤ bytes.length := by omega
  exact unpackU16_window window

theorem byteAt_zero {bytes : Bytes} (nonempty : 0 < bytes.length) :
    byteAt bytes 0 = .ok (typeByte bytes).toNat := by
  cases bytes with
  | nil => cases nonempty
  | cons byte rest => rfl

/-- The guarded reads raise nothing but the error of the guard exactly when the
body is not cut short. -/
theorem readFixed_cases (body : Bytes) :
    (body[34]? = none ∧ catchIndex (readFixed body) = .ok none) ∨
      ∃ sidLen, body[34]? = some sidLen ∧
        ((body.length < 40 + sidLen.toNat ∧
            catchIndex (readFixed body) = .error (.structError shortBuffer)) ∨
          (40 + sidLen.toNat ≤ body.length ∧
            catchIndex (readFixed body) =
              .ok (some (bigEndian ((body.drop (35 + sidLen.toNat)).take 2),
                (body.drop (40 + sidLen.toNat)).take
                  (bigEndian ((body.drop (38 + sidLen.toNat)).take 2)))))) := by
  unfold readFixed byteAt
  cases read : body[34]? with
  | none => exact Or.inl ⟨rfl, by simp [catchIndex, bind, Except.bind]⟩
  | some sidLen =>
      refine Or.inr ⟨sidLen, rfl, ?_⟩
      have first : 2 + 32 + (1 + sidLen.toNat) = 35 + sidLen.toNat := by omega
      have second : 35 + sidLen.toNat + 2 + 1 = 38 + sidLen.toNat := by omega
      have third : 38 + sidLen.toNat + 2 = 40 + sidLen.toNat := by omega
      simp only [Nat.reduceAdd, bind, Except.bind, first, second, third]
      by_cases whole : 40 + sidLen.toNat ≤ body.length
      · refine Or.inr ⟨whole, ?_⟩
        rw [unpackU16_window (by omega), unpackU16_window (by omega)]
        rfl
      · refine Or.inl ⟨by omega, ?_⟩
        by_cases cipher : 37 + sidLen.toNat ≤ body.length
        · rw [unpackU16_window (by omega), unpackU16_beyond (by omega)]
          rfl
        · rw [unpackU16_beyond (by omega)]
          rfl

/-- The first extension and those after it. -/
theorem read_extensions {exts : Bytes} (long : 4 ≤ exts.length) :
    extensionFraming.read exts =
      ⟨exts.take 4, (exts.drop 4).take (bigEndian ((exts.drop 2).take 2))⟩ ::
        extensionFraming.read (exts.drop (4 + bigEndian ((exts.drop 2).take 2))) := by
  have size : extensionFraming.size (exts.take 4) = bigEndian ((exts.drop 2).take 2) := by
    change bigEndian ((exts.take 4).drop 2) = _
    rw [List.drop_take]
  have cut : extensionFraming.read exts = _ := read_of_le (by exact long)
  change _ = ⟨exts.take 4, (exts.drop 4).take (extensionFraming.size (exts.take 4))⟩ ::
    extensionFraming.read
      ((exts.drop 4).drop (extensionFraming.size (exts.take 4))) at cut
  rwa [size, List.drop_drop] at cut

/-- The loop is the fold over the extensions, and its own reads never raise. -/
theorem scanExtensions_eq {visit : σ → Nat → Bytes → Except ReadError σ}
    {step : σ → Nat → Bytes → σ}
    (visits : ∀ state et ev, visit state et ev = .ok (step state et ev))
    {fuel : Nat} (state : σ) {exts : Bytes} (enough : exts.length ≤ fuel) :
    scanExtensions visit fuel state exts =
      .ok ((extensionFraming.read exts).foldl (fun state extension =>
        step state (bigEndian (extension.head.take 2)) extension.body) state) := by
  induction fuel generalizing state exts with
  | zero =>
      rw [read_of_short (by change exts.length < 4; omega)]
      rfl
  | succ fuel inductionHypothesis =>
      rw [scanExtensions]
      split
      · next long =>
          rw [unpackU16_take (by omega), unpackU16_window (by omega),
            read_extensions long, List.foldl_cons, List.take_take]
          simp only [bind, Except.bind, visits]
          exact inductionHypothesis _ (by rw [List.length_drop]; omega)
      · next short =>
          rw [read_of_short (by change exts.length < 4; omega)]
          rfl

/-- What one extension changes: `visit_group` without its reads. -/
def stepGroup (state : Nat × Option Nat) (et : Nat) (ev : Bytes) : Nat × Option Nat :=
  if et = 0x002B ∧ 2 ≤ ev.length then (bigEndian (ev.take 2), state.2)
  else if et = 0x0033 ∧ 2 ≤ ev.length then (state.1, some (bigEndian (ev.take 2)))
  else state

theorem visitGroup_eq (state : Nat × Option Nat) (et : Nat) (ev : Bytes) :
    visitGroup state et ev = .ok (stepGroup state et ev) := by
  unfold visitGroup stepGroup
  split
  · next version =>
      rw [unpackU16_take version.2]
      rfl
  · split
    · next share =>
        rw [unpackU16_take share.2]
        rfl
    · rfl

/-- What an extension makes of the version and the share. -/
def stepShare (state : Nat × Option Bytes) (et : Nat) (ev : Bytes) : Nat × Option Bytes :=
  if et = 0x002B ∧ 2 ≤ ev.length then (bigEndian (ev.take 2), state.2)
  else if et = 0x0033 ∧ 4 ≤ ev.length then
    if bigEndian (ev.take 2) = 0x001D then
      (state.1, some ((ev.drop 4).take (bigEndian ((ev.drop 2).take 2))))
    else state
  else state

theorem visitShare_eq (state : Nat × Option Bytes) (et : Nat) (ev : Bytes) :
    visitShare state et ev = .ok (stepShare state et ev) := by
  unfold visitShare stepShare
  split
  · next version =>
      rw [unpackU16_take version.2]
      rfl
  · split
    · next share =>
        rw [unpackU16_take (by omega), unpackU16_window (by omega)]
        simp only [bind, Except.bind]
        split
        · rfl
        · rfl
    · rfl

/-- What the parsers compute when the body is not cut short. -/
theorem readHello_of_whole {visit : σ → Nat → Bytes → Except ReadError σ}
    {step : σ → Nat → Bytes → σ}
    (visits : ∀ state et ev, visit state et ev = .ok (step state et ev)) (init : σ)
    (select : Nat → σ → Option ρ) {hs : Bytes} (long : 4 ≤ hs.length)
    (type : typeByte hs = 0x02) {sidLen : UInt8}
    (read : (helloBody hs)[34]? = some sidLen)
    (whole : 40 + sidLen.toNat ≤ (helloBody hs).length) :
    readHello visit init select hs =
      .ok (select (bigEndian (((helloBody hs).drop (35 + sidLen.toNat)).take 2))
        ((extensionFraming.read (((helloBody hs).drop (40 + sidLen.toNat)).take
          (bigEndian (((helloBody hs).drop (38 + sidLen.toNat)).take 2)))).foldl
            (fun state extension =>
              step state (bigEndian (extension.head.take 2)) extension.body) init)) := by
  rw [readHello, if_neg (by omega), byteAt_zero (by omega)]
  simp only [bind, Except.bind, type]
  rcases readFixed_cases (helloBody hs) with ⟨none, _⟩ | ⟨other, same, cut | ⟨_, guarded⟩⟩
  · rw [read] at none
    cases none
  · rw [read, Option.some_inj] at same
    subst same
    omega
  · rw [read, Option.some_inj] at same
    subst same
    simp only [guarded, scanExtensions_eq visits init (le_refl _)]
    rfl

/-- The parsers return unless the body is cut short. -/
theorem returns_readHello_iff {visit : σ → Nat → Bytes → Except ReadError σ}
    {step : σ → Nat → Bytes → σ}
    (visits : ∀ state et ev, visit state et ev = .ok (step state et ev)) (init : σ)
    (select : Nat → σ → Option ρ) (hs : Bytes) :
    Returns (readHello visit init select hs) ↔ ¬ CutShort hs := by
  by_cases short : hs.length < 4
  · rw [readHello, if_pos short]
    exact ⟨fun _ cut => by have := cut.1; omega, fun _ => ⟨none, rfl⟩⟩
  have head : hs.head? = some (typeByte hs) := by
    cases hs with
    | nil => exact absurd (by decide) short
    | cons byte rest => rfl
  by_cases type : typeByte hs = 0x02
  · rcases readFixed_cases (helloBody hs) with
      ⟨none, guarded⟩ | ⟨sidLen, read, ⟨less, guarded⟩ | ⟨whole, _⟩⟩
    · constructor
      · rintro _ ⟨_, _, sidLen, read, _⟩
        rw [none] at read
        cases read
      · intro _
        refine ⟨.none, ?_⟩
        rw [readHello, if_neg short, byteAt_zero (by omega)]
        simp [bind, Except.bind, type, guarded, pure, Except.pure]
    · constructor
      · rintro ⟨value, returned⟩
        rw [readHello, if_neg short, byteAt_zero (by omega)] at returned
        simp [bind, Except.bind, type, guarded] at returned
      · intro notCut
        exact absurd ⟨by omega, head.trans (congrArg some type), sidLen, read,
          less⟩ notCut
    · constructor
      · rintro _ ⟨_, _, other, otherRead, less⟩
        rw [read, Option.some_inj] at otherRead
        subst otherRead
        omega
      · intro _
        exact ⟨_, readHello_of_whole visits init select (by omega) type read whole⟩
  · constructor
    · rintro _ ⟨_, isHello, _⟩
      rw [head, Option.some_inj] at isHello
      exact type isHello
    · intro _
      have other : (typeByte hs).toNat ≠ 0x02 := fun same =>
        type (UInt8.toNat_inj.mp same)
      refine ⟨none, ?_⟩
      rw [readHello, if_neg short, byteAt_zero (by omega)]
      simp [bind, Except.bind, other, pure, Except.pure]

/-! ## Encoded messages -/

/-- A well-formed ServerHello, with or without extensions. -/
structure HelloMessage where
  legacyVersion : Bytes
  random : Bytes
  sessionId : Bytes
  cipher : Nat
  compression : UInt8
  extensions : Option (List (Frame UInt8))
  version_length : legacyVersion.length = 2
  random_length : random.length = 32
  sessionId_small : sessionId.length < 256
  cipher_small : cipher < 65536
  extensions_fit : ∀ exts ∈ extensions, ∀ extension ∈ exts,
    extensionFraming.Fits extension
  extensions_small : ∀ exts ∈ extensions, (encode exts).length < 65536

theorem bigEndian_u16 {n : Nat} (small : n < 65536) : bigEndian (u16 n) = n := by
  simp only [bigEndian, u16, List.foldl_cons, List.foldl_nil, UInt8.toNat_ofNat']
  omega

@[simp] theorem length_u16 (n : Nat) : (u16 n).length = 2 := rfl

namespace HelloMessage

variable (hello : HelloMessage)

/-- The block of extensions with its length, or nothing. -/
def extensionBlock : Bytes :=
  match hello.extensions with
  | none => []
  | some exts => u16 (encode exts).length ++ encode exts

/-- The part before the session id. -/
def opening : Bytes := hello.legacyVersion ++ hello.random

/-- The body of the handshake message. -/
def body : Bytes :=
  hello.opening ++ [UInt8.ofNat hello.sessionId.length] ++ hello.sessionId ++
    (u16 hello.cipher ++ [hello.compression]) ++ hello.extensionBlock

/-- The handshake message. -/
def message : Bytes := 0x02 :: u24 hello.body.length ++ hello.body

theorem length_opening : hello.opening.length = 34 := by
  rw [opening, List.length_append, hello.version_length, hello.random_length]

theorem toNat_sessionId :
    (UInt8.ofNat hello.sessionId.length).toNat = hello.sessionId.length := by
  rw [UInt8.toNat_ofNat', Nat.mod_eq_of_lt hello.sessionId_small]

theorem length_body :
    hello.body.length = 38 + hello.sessionId.length + hello.extensionBlock.length := by
  simp only [body, List.length_append, length_opening, length_u16, List.length_singleton]
  omega

theorem length_extensionBlock : hello.extensionBlock.length < 2 + 65536 := by
  unfold extensionBlock
  have small := hello.extensions_small
  split
  · decide
  · next exts present =>
      have bounded := small exts present
      rw [List.length_append, length_u16]
      omega

theorem helloBody_message (later : Bytes) :
    helloBody (hello.message ++ later) = hello.body := by
  have small : hello.body.length < 2 ^ 24 := by
    have block := hello.length_extensionBlock
    have session := hello.sessionId_small
    rw [length_body]
    omega
  have size : ((hello.message ++ later).drop 1).take 3 = u24 hello.body.length := by
    rw [message, List.cons_append, List.cons_append, List.drop_one, List.tail_cons,
      List.append_assoc, List.take_left' (length_u24 _)]
  rw [helloBody, size, bigEndian_u24 small]
  exact List.take_left' rfl

theorem sessionId_at : hello.body[34]? = some (UInt8.ofNat hello.sessionId.length) := by
  simp [body, List.append_assoc, length_opening]

theorem drop_session (count : Nat) :
    hello.body.drop (35 + hello.sessionId.length + count) =
      (u16 hello.cipher ++ [hello.compression] ++ hello.extensionBlock).drop count := by
  have front : (hello.opening ++ [UInt8.ofNat hello.sessionId.length] ++
      hello.sessionId).length = 35 + hello.sessionId.length := by
    simp only [List.length_append, length_opening, List.length_singleton]
  rw [body, List.append_assoc, ← List.drop_drop, List.drop_left' front]

/-- Only a message without extensions is cut short. -/
theorem cutShort_message_iff (later : Bytes) :
    CutShort (hello.message ++ later) ↔ hello.extensions = none := by
  unfold CutShort
  rw [helloBody_message]
  constructor
  · rintro ⟨_, _, sidLen, read, less⟩
    rw [sessionId_at, Option.some_inj] at read
    rw [← read, toNat_sessionId, length_body] at less
    cases present : hello.extensions with
    | none => rfl
    | some exts =>
        rw [extensionBlock, present] at less
        simp only [List.length_append, length_u16] at less
        omega
  · intro absent
    refine ⟨?_, rfl, _, hello.sessionId_at, ?_⟩
    · simp [message, length_body]
    · rw [toNat_sessionId, length_body, extensionBlock, absent, List.length_nil]
      omega

/-- What a parser reads from a message with extensions. -/
theorem readHello_message {visit : σ → Nat → Bytes → Except ReadError σ}
    {step : σ → Nat → Bytes → σ}
    (visits : ∀ state et ev, visit state et ev = .ok (step state et ev)) (init : σ)
    (select : Nat → σ → Option ρ) {exts : List (Frame UInt8)}
    (present : hello.extensions = some exts) (later : Bytes) :
    readHello visit init select (hello.message ++ later) =
      .ok (select hello.cipher (exts.foldl (fun state extension =>
        step state (bigEndian (extension.head.take 2)) extension.body) init)) := by
  have fit := hello.extensions_fit exts present
  have small := hello.extensions_small exts present
  have block : hello.extensionBlock = u16 (encode exts).length ++ encode exts := by
    rw [extensionBlock, present]
  have cipher := hello.drop_session 0
  have total := hello.drop_session 3
  have rest := hello.drop_session 5
  have front : (u16 hello.cipher ++ [hello.compression]).length = 3 := rfl
  rw [List.drop_zero, List.append_assoc] at cipher
  rw [List.drop_left' front, block] at total
  have lengths : (u16 hello.cipher ++ [hello.compression] ++
      u16 (encode exts).length).length =
      5 := rfl
  rw [block, ← List.append_assoc, List.drop_left' lengths] at rest
  have session : (helloBody (hello.message ++ later))[34]? =
      some (UInt8.ofNat hello.sessionId.length) := by
    rw [helloBody_message, sessionId_at]
  have long : 4 ≤ (hello.message ++ later).length := by simp [message, length_body]
  rw [readHello_of_whole visits init select long rfl session]
  · rw [helloBody_message, toNat_sessionId, show 38 + hello.sessionId.length =
        35 + hello.sessionId.length + 3 by omega, show 40 + hello.sessionId.length =
        35 + hello.sessionId.length + 5 by omega, total, rest,
      show 35 + hello.sessionId.length = 35 + hello.sessionId.length + 0 from rfl, cipher,
      List.take_left' (length_u16 _), List.take_left' (length_u16 _),
      bigEndian_u16 hello.cipher_small, bigEndian_u16 small,
      List.take_length, read_encode fit]
  · rw [helloBody_message, toNat_sessionId, length_body, block,
      List.length_append, length_u16]
    omega

end HelloMessage

/-- Both parsers return on a byte string exactly when no ServerHello in it is cut
short before the length of its extensions. -/
theorem parsers_return_iff (data : Bytes) :
    (Returns (parseServerHelloGroup data) ↔ ¬ RecordCutShort data) ∧
      (Returns (parseServerHelloTls13 data) ↔ ¬ CutShort data) := by
  refine ⟨?_, returns_readHello_iff visitShare_eq _ _ data⟩
  unfold parseServerHelloGroup
  by_cases short : data.length < 5
  · rw [if_pos short]
    exact ⟨fun _ cut => by have := cut.1; omega, fun _ => ⟨none, rfl⟩⟩
  have head : data.head? = some (typeByte data) := by
    cases data with
    | nil => exact absurd (by decide) short
    | cons byte rest => rfl
  rw [if_neg short, byteAt_zero (by omega)]
  by_cases type : typeByte data = 0x16
  · have payload : Returns (readHello visitGroup (0x0303, none) selectGroup
        (recordPayload data)) ↔ ¬ CutShort (recordPayload data) :=
      returns_readHello_iff visitGroup_eq _ _ _
    simp only [bind, Except.bind, type]
    rw [if_neg (by decide), unpackU16_window (by omega)]
    apply payload.trans
    apply not_congr
    exact ⟨fun cut => ⟨by omega, head.trans (congrArg some type), cut⟩,
      fun cut => cut.2.2⟩
  · have other : (typeByte data).toNat ≠ 0x16 := fun same =>
      type (UInt8.toNat_inj.mp same)
    simp only [bind, Except.bind]
    rw [if_pos other]
    constructor
    · rintro _ ⟨_, isRecord, _⟩
      rw [head, Option.some_inj] at isRecord
      exact type isRecord
    · exact fun _ => ⟨none, rfl⟩

/-- The parsers return on a well-formed ServerHello exactly when it has extensions. -/
theorem message_returns_iff (hello : HelloMessage) (later : Bytes) :
    Returns (parseServerHelloTls13 (hello.message ++ later)) ↔ hello.extensions ≠ none :=
  (returns_readHello_iff visitShare_eq _ _ _).trans
    (not_congr (hello.cutShort_message_iff later))

theorem readExtensions_eq (exts : Bytes) :
    readExtensions exts = (extensionFraming.read exts).foldl (fun state extension =>
      stepShare state (bigEndian (extension.head.take 2)) extension.body) (0x0303,
        none) := rfl

theorem parseServerHello_of_hello {hs : Bytes} (long : ¬ hs.length < 4)
    (type : typeByte hs = 0x02) :
    parseServerHello hs =
      (match (helloBody hs)[34]? with
      | none => .ok none
      | some sidLen => do
          let cipher ← unpackShort (((helloBody hs).drop (35 + sidLen.toNat)).take 2)
          let extTotal ← unpackShort (((helloBody hs).drop (38 + sidLen.toNat)).take 2)
          .ok (selectShare cipher
            (readExtensions (((helloBody hs).drop (40 + sidLen.toNat)).take
              extTotal)))) := by
  have fold : (hs.drop 4).take (bigEndian ((hs.drop 1).take 3)) = helloBody hs := rfl
  rw [parseServerHello, if_neg fun either => either.elim long fun other => other type]
  dsimp only
  rw [fold]
  cases (helloBody hs)[34]? with
  | none => rfl
  | some sidLen =>
      have second : 35 + sidLen.toNat + 3 = 38 + sidLen.toNat := by omega
      have third : 35 + sidLen.toNat + 5 = 40 + sidLen.toNat := by omega
      dsimp only
      rw [second, third]
      congr 1
      funext cipher
      congr 1
      funext extTotal
      rcases readExtensions _ with ⟨version, none | serverPub⟩
      · rfl
      · rw [selectShare]
        cases cipherSuites cipher <;> rfl

/-- The coarse model of the parser agrees. -/
theorem parseServerHelloTls13_eq (hs : Bytes) :
    parseServerHelloTls13 hs = (parseServerHello hs).mapError .structError := by
  by_cases short : hs.length < 4
  · rw [parseServerHello, if_pos (Or.inl short), parseServerHelloTls13, readHello,
      if_pos short]
    rfl
  by_cases type : typeByte hs = 0x02
  · rw [parseServerHello_of_hello short type]
    rcases readFixed_cases (helloBody hs) with
      ⟨none, guarded⟩ | ⟨sidLen, read, ⟨less, guarded⟩ | ⟨whole, _⟩⟩
    · rw [none, parseServerHelloTls13, readHello, if_neg short, byteAt_zero (by omega)]
      simp [bind, Except.bind, type, guarded, pure, Except.pure, Except.mapError]
    · rw [read, parseServerHelloTls13, readHello, if_neg short, byteAt_zero (by omega)]
      simp only [bind, Except.bind, type, guarded]
      by_cases cipher : 37 + sidLen.toNat ≤ (helloBody hs).length
      · rw [unpackShort_window (by omega), unpackShort_beyond (by omega)]
        rfl
      · rw [unpackShort_beyond (by omega)]
        rfl
    · rw [read, parseServerHelloTls13,
        readHello_of_whole visitShare_eq _ _ (by omega) type read whole]
      simp only [bind, Except.bind]
      rw [unpackShort_window (by omega),
        unpackShort_window (by omega), ← readExtensions_eq]
      rfl
  · have other : (typeByte hs).toNat ≠ 0x02 := fun same => type (UInt8.toNat_inj.mp same)
    rw [parseServerHello, if_pos (Or.inr type), parseServerHelloTls13, readHello,
      if_neg short, byteAt_zero (by omega)]
    simp [bind, Except.bind, other, pure, Except.pure, Except.mapError]

/-- A TLS 1.2 ServerHello without extensions. -/
def tls12Hello : HelloMessage where
  legacyVersion := [3, 3]
  random := List.replicate 32 0
  sessionId := []
  cipher := 0xC02F
  compression := 0
  extensions := none
  version_length := rfl
  random_length := rfl
  sessionId_small := by decide
  cipher_small := by decide
  extensions_fit := nofun
  extensions_small := nofun

/-- The record that carries it. -/
def tls12Record : Bytes :=
  [0x16, 3, 3] ++ u16 tls12Hello.message.length ++ tls12Hello.message

/-- Both parsers raise on a well-formed ServerHello without extensions. -/
theorem tls12Hello_raises :
    ¬ Returns (parseServerHelloGroup tls12Record) ∧
      ¬ Returns (parseServerHelloTls13 tls12Hello.message) := by
  have group : parseServerHelloGroup tls12Record =
      .error (.structError shortBuffer) := by
    decide +kernel
  have share : parseServerHelloTls13 tls12Hello.message =
      .error (.structError shortBuffer) := by
    decide +kernel
  rw [group, share]
  exact ⟨nofun, nofun⟩

end Probes
end PqcScan
