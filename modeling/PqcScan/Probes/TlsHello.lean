import PqcScan.Probes.ServerHello

/-!
# Hello messages of a capture

`parse_tls_handshake` of `probes/_pcap.py`: what a ClientHello offers and what a
ServerHello selects.  Any error of a read makes the whole message unreadable.
-/

namespace PqcScan
namespace Probes
namespace Hello

open Library Python

/-! ## What is read -/

/-- The dictionary of a ClientHello. -/
structure ClientFields where
  legacyVersion : Nat
  cipherSuites : List Nat
  versions : List Nat
  groups : List Nat
  keyShareGroups : List Nat
  deriving DecidableEq, Repr

/-- The dictionary of a ServerHello. -/
structure ServerFields where
  legacyVersion : Nat
  cipher : Nat
  selectedVersion : Option Nat
  group : Option Nat
  deriving DecidableEq, Repr

/-- What `parse_tls_handshake` returns of a hello. -/
inductive HelloFields
  | clientHello (fields : ClientFields)
  | serverHello (fields : ServerFields)
  deriving DecidableEq, Repr

/-! ## Extensions -/

/-- `[struct.unpack(">H", bytes[i:i + 2])[0] for i in range(0, count - 1, 2)]`. -/
def unpackU16s (count : Nat) (bytes : Bytes) : Except ReadError (List Nat) :=
  (List.range (count / 2)).mapM fun i => unpackU16 ((bytes.drop (2 * i)).take 2)

/-- `_parse_key_share_groups`: its loop cuts the entries as that over the extensions
does, a group and the length of the key in front of each key. -/
def parseKeyShareGroups (entries : Bytes) : Except ReadError (List Nat) :=
  scanExtensions (fun out group _key => .ok (out ++ [group])) entries.length [] entries

/-- The three lists of `_parse_client_extensions`. -/
structure Offers where
  versions : List Nat
  supportedGroups : List Nat
  keyShareGroups : List Nat
  deriving DecidableEq, Repr

/-- Nothing is offered. -/
def Offers.none : Offers := ⟨[], [], []⟩

/-- The body of the loop of `_parse_client_extensions`. -/
def clientExtension (offers : Offers) (et : Nat) (ev : Bytes) : Except ReadError Offers :=
  if et = 0x002B ∧ ev ≠ [] then do
    let n ← byteAt ev 0
    let versions ← unpackU16s n (ev.drop 1)
    pure { offers with versions }
  else if et = 0x000A ∧ 2 ≤ ev.length then do
    let n ← unpackU16 (ev.take 2)
    let gv := (ev.drop 2).take n
    let groups ← unpackU16s gv.length gv
    pure { offers with supportedGroups := offers.supportedGroups ++ groups }
  else if et = 0x0033 ∧ 2 ≤ ev.length then do
    let n ← unpackU16 (ev.take 2)
    let groups ← parseKeyShareGroups ((ev.drop 2).take n)
    pure { offers with keyShareGroups := offers.keyShareGroups ++ groups }
  else pure offers

/-- `_parse_client_extensions`. -/
def parseClientExtensions (exts : Bytes) : Except ReadError Offers :=
  scanExtensions clientExtension exts.length Offers.none exts

/-- What `_parse_server_extensions` returns. -/
structure Selection where
  selectedVersion : Option Nat
  group : Option Nat
  deriving DecidableEq, Repr

/-- The body of the loop of `_parse_server_extensions`. -/
def serverExtension (selection : Selection) (et : Nat) (ev : Bytes) :
    Except ReadError Selection :=
  if et = 0x002B ∧ 2 ≤ ev.length then do
    let version ← unpackU16 (ev.take 2)
    pure { selection with selectedVersion := some version }
  else if et = 0x0033 ∧ 2 ≤ ev.length then do
    let group ← unpackU16 (ev.take 2)
    pure { selection with group := some group }
  else pure selection

/-- `_parse_server_extensions`. -/
def parseServerExtensions (exts : Bytes) : Except ReadError Selection :=
  scanExtensions serverExtension exts.length ⟨none, none⟩ exts

/-! ## Messages -/

/-- The extensions of a body from an offset on, if their length is there. -/
def extensionsAt (parse : Bytes → Except ReadError ρ) (absent : ρ) (body : Bytes)
    (off : Nat) :
    Except ReadError ρ :=
  if off + 2 ≤ body.length then do
    let extTotal ← unpackU16 ((body.drop off).take 2)
    parse ((body.drop (off + 2)).take extTotal)
  else .ok absent

/-- `list(dict.fromkeys(items))`. -/
def fromKeys (items : List Nat) : List Nat :=
  (Dict.ofList (items.map fun item => (item, ()))).keys

/-- What follows the cipher suites of a ClientHello. -/
def clientTail (legacyVersion : Nat) (ciphers : List Nat) (body : Bytes) (off : Nat) :
    Except ReadError ClientFields :=
  if body.length < off + 1 then .ok ⟨legacyVersion, ciphers, [], [], []⟩
  else do
    let compLen ← byteAt body off
    let off := off + (1 + compLen)
    let offers ← extensionsAt parseClientExtensions Offers.none body off
    pure ⟨legacyVersion, ciphers, offers.versions,
      fromKeys (offers.supportedGroups ++ offers.keyShareGroups), offers.keyShareGroups⟩

/-- `_parse_client_hello`. -/
def parseClientHello (body : Bytes) : Except ReadError (Option ClientFields) :=
  let off := 2 + 32
  if body.length < off + 1 then .ok none
  else do
    let legacyVersion ← unpackU16 (body.take 2)
    let sidLen ← byteAt body off
    let off := off + (1 + sidLen)
    if body.length < off + 2 then pure none
    else
      let csLen ← unpackU16 ((body.drop off).take 2)
      let off := off + 2
      let csRaw := (body.drop off).take csLen
      let off := off + csLen
      let ciphers ← unpackU16s csRaw.length csRaw
      let fields ← clientTail legacyVersion ciphers body off
      pure (some fields)

/-- `_parse_server_hello`. -/
def parseServerHello (body : Bytes) : Except ReadError (Option ServerFields) :=
  let off := 2 + 32
  if body.length < off + 1 then .ok none
  else do
    let legacyVersion ← unpackU16 (body.take 2)
    let sidLen ← byteAt body off
    let off := off + (1 + sidLen)
    if body.length < off + 3 then pure none
    else
      let cipher ← unpackU16 ((body.drop off).take 2)
      let off := off + (2 + 1)
      let selection ← extensionsAt parseServerExtensions ⟨none, none⟩ body off
      pure (some ⟨legacyVersion, cipher, selection.selectedVersion, selection.group⟩)

/-- The message of the first record, by its type. -/
def readMessage (hs : Bytes) : Except ReadError (Option HelloFields) :=
  if hs.length < 4 then .ok none
  else do
    let msgType ← byteAt hs 0
    if msgType = 0x01 then
      let fields ← parseClientHello (helloBody hs)
      pure (fields.map .clientHello)
    else if msgType = 0x02 then
      let fields ← parseServerHello (helloBody hs)
      pure (fields.map .serverHello)
    else pure none

/-- The statements that `parse_tls_handshake` guards. -/
def readHandshake (payload : Bytes) : Except ReadError (Option HelloFields) :=
  if payload.length < 9 then .ok none
  else do
    let contentType ← byteAt payload 0
    if contentType ≠ 0x16 then pure none
    else
      let recLen ← unpackU16 ((payload.drop 3).take 2)
      readMessage ((payload.drop 5).take recLen)

/-- `parse_tls_handshake`. -/
def parseTlsHandshake (payload : Bytes) : Except ReadError (Option HelloFields) :=
  match readHandshake payload with
  | .ok fields => .ok fields
  | .error (.structError _) => .ok none
  | .error (.indexError _) => .ok none
  | .error (.valueError message) => .error (.valueError message)

/-! ## Nothing is raised -/

/-- The reads raise nothing but what `parse_tls_handshake` catches. -/
def Caught (result : Except ReadError α) : Prop :=
  ∀ message, result ≠ .error (.valueError message)

theorem caught_ok (value : α) : Caught (.ok value) := by
  intro message same
  cases same

theorem Caught.bind {first : Except ReadError α} {next : α → Except ReadError β}
    (caught : Caught first) (later : ∀ value, Caught (next value)) :
    Caught (first >>= next) := by
  intro message same
  cases first with
  | ok value => exact later value message same
  | error error =>
      apply caught message
      cases same
      rfl

theorem caught_byteAt (bytes : Bytes) (i : Nat) : Caught (byteAt bytes i) := by
  intro message same
  unfold byteAt at same
  split at same <;> cases same

theorem caught_unpackU16 (bytes : Bytes) : Caught (unpackU16 bytes) := by
  intro message same
  unfold unpackU16 at same
  cases read : unpackShort bytes with
  | ok value => rw [read] at same; cases same
  | error error => rw [read] at same; cases same

theorem caught_mapM {read : α → Except ReadError β} (each : ∀ item, Caught (read item))
    (items : List α) : Caught (items.mapM read) := by
  induction items with
  | nil => exact caught_ok []
  | cons item rest inductionHypothesis =>
      rw [List.mapM_cons]
      exact (each item).bind fun value => inductionHypothesis.bind fun _ => caught_ok _

/-- A loop over extensions raises what its body raises. -/
theorem caught_scanExtensions {visit : σ → Nat → Bytes → Except ReadError σ}
    (each : ∀ state et ev, Caught (visit state et ev)) (fuel : Nat) (state : σ)
    (exts : Bytes) :
    Caught (scanExtensions visit fuel state exts) := by
  induction fuel generalizing state exts with
  | zero => exact caught_ok state
  | succ fuel inductionHypothesis =>
      rw [scanExtensions]
      split
      · refine (caught_unpackU16 _).bind fun et => (caught_unpackU16 _).bind fun el => ?_
        exact (each _ _ _).bind fun next => inductionHypothesis _ _
      · exact caught_ok state

theorem caught_unpackU16s (count : Nat) (bytes : Bytes) :
    Caught (unpackU16s count bytes) :=
  caught_mapM (fun _ => caught_unpackU16 _) _

theorem caught_parseKeyShareGroups (entries : Bytes) :
    Caught (parseKeyShareGroups entries) :=
  caught_scanExtensions (fun _ _ _ => caught_ok _) _ _ _

theorem caught_clientExtension (offers : Offers) (et : Nat) (ev : Bytes) :
    Caught (clientExtension offers et ev) := by
  unfold clientExtension
  split_ifs
  · exact (caught_byteAt _ _).bind fun _ =>
      (caught_unpackU16s _ _).bind fun _ => caught_ok _
  · exact (caught_unpackU16 _).bind fun _ =>
      (caught_unpackU16s _ _).bind fun _ => caught_ok _
  · exact (caught_unpackU16 _).bind fun _ =>
      (caught_parseKeyShareGroups _).bind fun _ => caught_ok _
  · exact caught_ok _

theorem caught_serverExtension (selection : Selection) (et : Nat) (ev : Bytes) :
    Caught (serverExtension selection et ev) := by
  unfold serverExtension
  split_ifs
  · exact (caught_unpackU16 _).bind fun _ => caught_ok _
  · exact (caught_unpackU16 _).bind fun _ => caught_ok _
  · exact caught_ok _

theorem caught_parseClientExtensions (exts : Bytes) :
    Caught (parseClientExtensions exts) :=
  caught_scanExtensions caught_clientExtension _ _ _

theorem caught_parseServerExtensions (exts : Bytes) :
    Caught (parseServerExtensions exts) :=
  caught_scanExtensions caught_serverExtension _ _ _

theorem caught_extensionsAt {parse : Bytes → Except ReadError ρ}
    (caught : ∀ exts, Caught (parse exts)) (absent : ρ) (body : Bytes) (off : Nat) :
    Caught (extensionsAt parse absent body off) := by
  unfold extensionsAt
  split
  · exact (caught_unpackU16 _).bind fun _ => caught _
  · exact caught_ok _

theorem caught_parseClientHello (body : Bytes) : Caught (parseClientHello body) := by
  have tail (legacyVersion : Nat) (ciphers : List Nat) (off : Nat) :
      Caught (clientTail legacyVersion ciphers body off) := by
    unfold clientTail
    split
    · exact caught_ok _
    · refine (caught_byteAt _ _).bind fun _ => ?_
      exact (caught_extensionsAt caught_parseClientExtensions _ _ _).bind
        fun _ => caught_ok _
  unfold parseClientHello
  dsimp only
  split
  · exact caught_ok _
  · refine (caught_unpackU16 _).bind fun _ => (caught_byteAt _ _).bind fun _ => ?_
    split
    · exact caught_ok _
    · refine (caught_unpackU16 _).bind fun _ => (caught_unpackU16s _ _).bind fun _ => ?_
      exact (tail _ _ _).bind fun _ => caught_ok _

theorem caught_parseServerHello (body : Bytes) : Caught (parseServerHello body) := by
  unfold parseServerHello
  dsimp only
  split
  · exact caught_ok _
  · refine (caught_unpackU16 _).bind fun _ => (caught_byteAt _ _).bind fun _ => ?_
    split
    · exact caught_ok _
    · refine (caught_unpackU16 _).bind fun _ => ?_
      exact (caught_extensionsAt caught_parseServerExtensions _ _ _).bind
        fun _ => caught_ok _

theorem caught_readHandshake (payload : Bytes) : Caught (readHandshake payload) := by
  have message (hs : Bytes) : Caught (readMessage hs) := by
    unfold readMessage
    split
    · exact caught_ok _
    · refine (caught_byteAt _ _).bind fun _ => ?_
      split_ifs
      · exact (caught_parseClientHello _).bind fun _ => caught_ok _
      · exact (caught_parseServerHello _).bind fun _ => caught_ok _
      · exact caught_ok _
  unfold readHandshake
  split
  · exact caught_ok _
  · refine (caught_byteAt _ _).bind fun _ => ?_
    split
    · exact caught_ok _
    · exact (caught_unpackU16 _).bind fun _ => message _

/-- The value that `parse_tls_handshake` returns. -/
def handshakeOf (payload : Bytes) : Option HelloFields :=
  match parseTlsHandshake payload with
  | .ok fields => fields
  | .error _ => none

/-- `parse_tls_handshake` returns, whatever it is given. -/
theorem parseTlsHandshake_returns (payload : Bytes) :
    parseTlsHandshake payload = .ok (handshakeOf payload) := by
  have caught := caught_readHandshake payload
  unfold handshakeOf parseTlsHandshake
  cases read : readHandshake payload with
  | ok fields => rfl
  | error error =>
      cases error with
      | indexError message => rfl
      | structError message => rfl
      | valueError message => exact absurd read (caught message)

end Hello
end Probes
end PqcScan
