import Mathlib.Data.List.TakeWhile
import PqcScan.Library.Slices
import PqcScan.Probes.Pcap
import PqcScan.Probes.StartTls
import PqcScan.Python.Utf8

/-!
# SSH key exchange packets

`parse_ssh_kexinit` of `probes/_pcap.py` with every read that may raise, and the packets
it reads.  A segment may end anywhere in a packet, and a slice beyond its end is only
shorter.
-/

namespace PqcScan
namespace Probes

open Library Python PqcScan.Core

/-- What is read of a key exchange packet. -/
structure Kexinit where
  banner : Option (List Char)
  kexAlgorithms : List (List Char)
  serverHostKeyAlgorithms : List (List Char)
  deriving DecidableEq, Repr

/-! ## The reader -/

/-- `b"SSH-"`. -/
def sshMark : Bytes := [0x53, 0x53, 0x48, 0x2D]

/-- `rstrip(b"\r\n")`. -/
def rstripLine (line : Bytes) : Bytes :=
  (line.reverse.dropWhile fun byte => byte == 13 || byte == 10).reverse

/-- `[t.strip() for t in value.split(",") if t.strip()]`. -/
def splitNames (value : List Char) : List (List Char) :=
  ((value.splitOn ',').map strip).filter (· ≠ [])

/-- A round of the loop over the name-lists: the names, and where the list ends. -/
def readNameList (sshPayload : Bytes) (i : Nat) :
    Except ReadError (Option (List (List Char) × Nat)) :=
  if sshPayload.length < i + 4 then pure none
  else do
    let ln ← ByteOrder.big.unpack 4 ((sshPayload.drop i).take 4)
    let i := i + 4
    let value := decodeUtf8 ((sshPayload.drop i).take ln)
    pure (some (splitNames value, i + ln))

/-- The two rounds of the loop. -/
def readNameLists (banner : Option (List Char)) (sshPayload : Bytes) :
    Except ReadError (Option Kexinit) := do
  match ← readNameList sshPayload 17 with
  | none => pure none
  | some (kexAlgorithms, i) =>
      match ← readNameList sshPayload i with
      | none => pure none
      | some (hostKeyAlgorithms, _) =>
          pure (some ⟨banner, kexAlgorithms, hostKeyAlgorithms⟩)

/-- What follows the banner. -/
def readPacket (banner : Option (List Char)) (data : Bytes) :
    Except ReadError (Option Kexinit) :=
  if data.length < 6 then pure none
  else do
    let pktLen ← ByteOrder.big.unpack 4 (data.take 4)
    let padLen ← byteAt data 4
    let bodyLen : Int := pktLen - 1 - padLen
    if bodyLen ≤ 0 then pure none
    else
      let sshPayload := (data.drop 5).take bodyLen.toNat
      if sshPayload.head? ≠ some 20 then pure none
      else readNameLists banner sshPayload

/-- The `try` block of `parse_ssh_kexinit`. -/
def readSegment (payload : Bytes) : Except ReadError (Option Kexinit) :=
  if payload.take 4 = sshMark then
    let line := payload.takeWhile (· != 10)
    if line.length = payload.length then pure none
    else
      readPacket (some (StartTls.decodeAscii (rstripLine line)))
        (payload.drop (line.length + 1))
  else readPacket none payload

/-- `parse_ssh_kexinit` catches `struct.error` and `IndexError`. -/
def parseSshKexinit (payload : Bytes) : Except ReadError (Option Kexinit) :=
  (catchRead (readSegment payload)).map Option.join

/-! ## It never raises -/

theorem readNameList_returns (sshPayload : Bytes) (i : Nat) :
    Returns (readNameList sshPayload i) := by
  unfold readNameList
  split
  · exact ⟨none, rfl⟩
  · rw [unpack_window (by omega)]
    exact ⟨_, rfl⟩

theorem readNameLists_returns (banner : Option (List Char)) (sshPayload : Bytes) :
    Returns (readNameLists banner sshPayload) := by
  obtain ⟨first, read⟩ := readNameList_returns sshPayload 17
  unfold readNameLists
  rw [read]
  cases first with
  | none => exact ⟨none, rfl⟩
  | some first =>
      obtain ⟨second, read⟩ := readNameList_returns sshPayload first.2
      simp only [bind, Except.bind, read]
      cases second <;> exact ⟨_, rfl⟩

theorem readPacket_returns (banner : Option (List Char)) (data : Bytes) :
    Returns (readPacket banner data) := by
  unfold readPacket
  split
  · exact ⟨none, rfl⟩
  · have fifth : byteAt data 4 = .ok (typeByte (data.drop 4)).toNat := by
      rw [byteAt, List.getElem?_eq_getElem (by omega),
        List.drop_eq_getElem_cons (by omega)]
      rfl
    rw [unpack_head (by omega), fifth]
    simp only [bind, Except.bind]
    split
    · exact ⟨none, rfl⟩
    · split
      · exact ⟨none, rfl⟩
      · exact readNameLists_returns _ _

theorem readSegment_returns (payload : Bytes) : Returns (readSegment payload) := by
  unfold readSegment
  dsimp only
  split
  · split
    · exact ⟨none, rfl⟩
    · exact readPacket_returns _ _
  · exact readPacket_returns _ _

theorem parseSshKexinit_of_read {payload : Bytes} {kexinit : Option Kexinit}
    (read : readSegment payload = .ok kexinit) :
    parseSshKexinit payload = .ok kexinit := by
  rw [parseSshKexinit, read]
  rfl

/-! ## What is a packet to it -/

/-- The payload by the length and the padding that the data begin with. -/
def declaredPayload (data : Bytes) : Bytes :=
  (data.drop 5).take (bigEndian (data.take 4) - 1 - (typeByte (data.drop 4)).toNat)

/-- The payload has the message number of a key exchange, and the lengths of the first two
name-lists stand in it. -/
structure HoldsLists (data : Bytes) : Prop where
  number : (declaredPayload data).head? = some 20
  lengths : 25 + bigEndian (((declaredPayload data).drop 17).take 4) ≤
    (declaredPayload data).length

theorem readNameList_eq {sshPayload : Bytes} {i : Nat}
    (within : i + 4 ≤ sshPayload.length) :
    readNameList sshPayload i = .ok (some (splitNames (decodeUtf8
      ((sshPayload.drop (i + 4)).take (bigEndian ((sshPayload.drop i).take 4)))),
        i + 4 + bigEndian ((sshPayload.drop i).take 4))) := by
  rw [readNameList, if_neg (by omega), unpack_window within]
  rfl

theorem readNameList_short {sshPayload : Bytes} {i : Nat}
    (short : sshPayload.length < i + 4) :
    readNameList sshPayload i = .ok none :=
  if_pos short

theorem readNameLists_eq_none_iff {banner : Option (List Char)} {sshPayload : Bytes} :
    readNameLists banner sshPayload = .ok none ↔
      sshPayload.length < 25 + bigEndian ((sshPayload.drop 17).take 4) := by
  rw [readNameLists]
  by_cases first : sshPayload.length < 17 + 4
  · rw [readNameList_short first]
    exact iff_of_true rfl (by omega)
  · rw [readNameList_eq (by omega)]
    simp only [bind, Except.bind]
    by_cases second :
        sshPayload.length < 17 + 4 + bigEndian ((sshPayload.drop 17).take 4) + 4
    · rw [readNameList_short second]
      exact iff_of_true rfl (by omega)
    · rw [readNameList_eq (by omega)]
      exact iff_of_false nofun (by omega)

/-- The reader finds no packet exactly in data that hold none. -/
theorem readPacket_eq_none_iff {banner : Option (List Char)} {data : Bytes} :
    readPacket banner data = .ok none ↔ ¬ HoldsLists data := by
  have empty : declaredPayload data = [] → ¬ HoldsLists data := by
    intro nothing holds
    have number := holds.number
    rw [nothing] at number
    cases number
  rw [readPacket]
  by_cases short : data.length < 6
  · rw [if_pos short]
    refine iff_of_true rfl fun holds => ?_
    have lengths := holds.lengths
    rw [declaredPayload, List.length_take, List.length_drop] at lengths
    omega
  · have fifth : byteAt data 4 = .ok (typeByte (data.drop 4)).toNat := by
      rw [byteAt, List.getElem?_eq_getElem (by omega),
        List.drop_eq_getElem_cons (by omega)]
      rfl
    have order : ByteOrder.big.decode (data.take 4) = bigEndian (data.take 4) := rfl
    rw [if_neg short, unpack_head (by omega), order, fifth]
    simp only [bind, Except.bind]
    split
    · next nothing =>
      refine iff_of_true rfl (empty ?_)
      rw [declaredPayload,
        show bigEndian (data.take 4) - 1 - (typeByte (data.drop 4)).toNat = 0 by
        omega, List.take_zero]
    · next some_ =>
      have payload : (data.drop 5).take ((bigEndian (data.take 4) : Int) - 1 -
          ((typeByte (data.drop 4)).toNat : Int)).toNat = declaredPayload data := by
        rw [declaredPayload]
        congr 1
        omega
      rw [payload]
      split
      · next other => exact iff_of_true rfl fun holds => other holds.number
      · next number =>
        rw [readNameLists_eq_none_iff]
        exact ⟨fun few holds => absurd holds.lengths (by omega),
          fun none_ => by
            by_contra enough
            exact none_ ⟨not_not.mp number, by omega⟩⟩

/-! ## Packets -/

/-- A name of a name-list: printable US-ASCII text without a comma. -/
structure SshName where
  text : List Char
  nonempty : text ≠ []
  printable : ∀ char ∈ text, 0x21 ≤ char.toNat ∧ char.toNat ≤ 0x7E ∧ char ≠ ','

/-- The names of a list, joined by commas. -/
def joinNames (names : List SshName) : List Char :=
  [','].intercalate (names.map SshName.text)

/-- The bytes of a US-ASCII text. -/
def asciiEncode (text : List Char) : Bytes := text.map fun char => UInt8.ofNat char.toNat

/-- The banner of a server after `SSH-`; a carriage return may stand before the
line feed that ends it. -/
structure SshBanner where
  later : List Char
  printable : ∀ char ∈ later, 0x20 ≤ char.toNat ∧ char.toNat ≤ 0x7E
  carriageReturn : Bool

namespace SshBanner

variable (banner : SshBanner)

/-- The banner as a text. -/
def text : List Char := ['S', 'S', 'H', '-'] ++ banner.later

/-- The line as it is sent, but for its end. -/
def line : Bytes :=
  asciiEncode banner.text ++ (if banner.carriageReturn then [13] else [])

end SshBanner

/-- What a key exchange packet holds; `rest` is what follows the first two name-lists. -/
structure KexinitBody where
  cookie : BitVec 128
  kexAlgorithms : List SshName
  serverHostKeyAlgorithms : List SshName
  rest : Bytes

namespace KexinitBody

variable (body : KexinitBody)

/-- The message number and the cookie. -/
def opening : Bytes := [20] ++ bigBytes 16 body.cookie.toNat

/-- `kex_algorithms` as it is sent. -/
def kexNames : List Char := joinNames body.kexAlgorithms

/-- `server_host_key_algorithms` as it is sent. -/
def hostKeyNames : List Char := joinNames body.serverHostKeyAlgorithms

/-- The first name-list. -/
def kexList : Bytes := bigBytes 4 body.kexNames.length ++ asciiEncode body.kexNames

/-- The second name-list and what follows it. -/
def hostKeyList : Bytes :=
  bigBytes 4 body.hostKeyNames.length ++ (asciiEncode body.hostKeyNames ++ body.rest)

/-- The payload. -/
def payload : Bytes := body.opening ++ (body.kexList ++ body.hostKeyList)

/-- Where the names of the host keys start in the payload. -/
def hostKeysAt : Nat := 25 + body.kexNames.length

end KexinitBody

/-- A key exchange packet. -/
structure KexinitPacket where
  body : KexinitBody
  padding : Bytes
  padded : padding.length < 256
  small : 1 + body.payload.length + padding.length < 256 ^ 4

namespace KexinitPacket

variable (packet : KexinitPacket)

/-- `packet_length`. -/
def packetLength : Nat := 1 + packet.body.payload.length + packet.padding.length

/-- The lengths before the payload. -/
def head : Bytes :=
  bigBytes 4 packet.packetLength ++ [UInt8.ofNat packet.padding.length]

/-- The packet as it is sent. -/
def bytes : Bytes := packet.head ++ (packet.body.payload ++ packet.padding)

/-- What a reader that reads the packet whole says. -/
def kexinit (banner : Option (List Char)) : Kexinit where
  banner := banner
  kexAlgorithms := packet.body.kexAlgorithms.map SshName.text
  serverHostKeyAlgorithms := packet.body.serverHostKeyAlgorithms.map SshName.text

end KexinitPacket

/-! ## Names -/

theorem ascii_joinNames (names : List SshName) :
    ∀ char ∈ joinNames names, 0x21 ≤ char.toNat ∧ char.toNat ≤ 0x7E := by
  unfold joinNames
  induction names with
  | nil => exact nofun
  | cons name rest inductionHypothesis =>
      have own : ∀ char ∈ name.text, 0x21 ≤ char.toNat ∧ char.toNat ≤ 0x7E :=
        fun char member =>
          ⟨(name.printable char member).1, (name.printable char member).2.1⟩
      cases rest with
      | nil => simpa using own
      | cons next rest =>
          intro char member
          rw [List.map_cons, List.map_cons, List.intercalate_cons_cons, List.mem_append,
            List.mem_append, List.mem_singleton] at member
          rcases member with (here | rfl) | later
          · exact own char here
          · decide
          · exact inductionHypothesis char later

theorem spaceless_joinNames (names : List SshName) :
    ∀ char ∈ joinNames names, isSpace char = false := by
  intro char member
  have bounds := ascii_joinNames names char member
  simp only [isSpace, Bool.or_eq_false_iff, Bool.and_eq_false_iff,
    decide_eq_false_iff_not, beq_eq_false_iff_ne]
  omega

/-- Names are read as they are written. -/
theorem splitNames_join (names : List SshName) :
    splitNames (joinNames names) = names.map SshName.text := by
  have kept : ∀ text ∈ names.map SshName.text, strip text = text ∧ text ≠ [] := by
    intro text member
    obtain ⟨name, _, rfl⟩ := List.mem_map.mp member
    refine ⟨strip_eq_self ?_, name.nonempty⟩
    intro char within
    have bounds := name.printable char within
    simp only [isSpace, Bool.or_eq_false_iff, Bool.and_eq_false_iff,
      decide_eq_false_iff_not, beq_eq_false_iff_ne]
    omega
  have free : ∀ text ∈ names.map SshName.text, ',' ∉ text := by
    intro text member comma
    obtain ⟨name, _, rfl⟩ := List.mem_map.mp member
    exact (name.printable ',' comma).2.2 rfl
  unfold splitNames joinNames
  by_cases listed : names = []
  · rw [listed]
    decide
  · rw [List.splitOn_intercalate ',' free (by simpa using listed),
      List.map_congr_left fun text member => (kept text member).1, List.map_id'',
      List.filter_eq_self.mpr fun text member => by simpa using (kept text member).2]
    exact fun _ => rfl

/-- The characters of the names that are read are those of the list but its commas. -/
theorem flatten_splitNames {value : List Char}
    (spaceless : ∀ char ∈ value, isSpace char = false) :
    (splitNames value).flatten = value.filter (· ≠ ',') := by
  have parts : ∀ parts : List (List Char),
      (∀ part ∈ parts, ∀ char ∈ part, isSpace char = false) →
      ((parts.map strip).filter (· ≠ [])).flatten = parts.flatten := by
    intro parts each
    induction parts with
    | nil => rfl
    | cons part rest inductionHypothesis =>
        have later := inductionHypothesis fun other member =>
          each other (List.mem_cons_of_mem _ member)
        rw [List.map_cons, strip_eq_self (each part List.mem_cons_self)]
        by_cases blank : part = []
        · rw [List.filter_cons_of_neg (by simp [blank]), later, blank]
          rfl
        · rw [List.filter_cons_of_pos (by simpa using blank), List.flatten_cons, later,
            List.flatten_cons]
  have split : ∀ value : List Char,
      (value.splitOn ',').flatten = value.filter (· ≠ ',') := by
    intro value
    induction value with
    | nil => rfl
    | cons char rest inductionHypothesis =>
        rw [List.splitOn_eq_splitOnP] at inductionHypothesis ⊢
        rw [List.splitOnP_cons_eq_if_modifyHead]
        by_cases comma : char = ','
        · rw [if_pos (by simp [comma]), List.flatten_cons, inductionHypothesis,
            List.filter_cons_of_neg (by simp [comma])]
          rfl
        · rw [if_neg (by simp [comma]), List.filter_cons_of_pos (by simp [comma]),
            ← inductionHypothesis]
          cases parts : rest.splitOnP (· == ',') with
          | nil => exact absurd parts (List.splitOnP_ne_nil _ rest)
          | cons first others => rfl
  unfold splitNames
  rw [parts, split]
  intro part member char within
  have among := List.mem_flatten.mpr ⟨part, member, within⟩
  rw [split] at among
  exact spaceless char (List.mem_of_mem_filter among)

theorem joinNames_cons (name next : SshName) (rest : List SshName) :
    joinNames (name :: next :: rest) =
      name.text ++ ([','] ++ joinNames (next :: rest)) := by
  rw [joinNames, List.map_cons, List.map_cons, List.intercalate_cons_cons,
    List.append_assoc]
  rfl

/-- No list ends in a comma. -/
theorem last_joinNames (names : List SshName) :
    ∀ char ∈ (joinNames names).getLast?, char ≠ ',' := by
  have own (name : SshName) : ∀ char ∈ name.text.getLast?, char ≠ ',' :=
    fun char member => (name.printable char (List.mem_of_getLast? member)).2.2
  induction names with
  | nil => exact nofun
  | cons name rest inductionHypothesis =>
      cases rest with
      | nil => simpa [joinNames] using own name
      | cons next rest =>
          have filled : joinNames (next :: rest) ≠ [] := by
            cases rest with
            | nil => simpa [joinNames] using next.nonempty
            | cons other rest => simp [joinNames_cons]
          rw [joinNames_cons, ← List.append_assoc,
            List.getLast?_append_of_ne_nil _ filled]
          exact inductionHypothesis

/-- A list that is cut short gives other names: its last character is no comma. -/
theorem splitNames_take (names : List SshName) {count : Nat}
    (short : count < (joinNames names).length) :
    splitNames ((joinNames names).take count) ≠ splitNames (joinNames names) := by
  intro same
  have spaceless := spaceless_joinNames names
  have flat := congrArg List.flatten same
  have split : (joinNames names).filter (· ≠ ',') =
      ((joinNames names).take count).filter (· ≠ ',') ++
        ((joinNames names).drop count).filter (· ≠ ',') := by
    rw [← List.filter_append, List.take_append_drop]
  rw [flatten_splitNames fun char member => spaceless char (List.mem_of_mem_take member),
    flatten_splitNames spaceless, split] at flat
  have nothing := List.self_eq_append_right.mp flat
  have filled : (joinNames names).drop count ≠ [] := by
    rw [Ne, List.drop_eq_nil_iff]
    omega
  have last : ((joinNames names).drop count).getLast filled ≠ ',' := by
    apply last_joinNames names
    rw [List.getLast_drop, Option.mem_def, List.getLast?_eq_some_getLast]
  have kept : ((joinNames names).drop count).getLast filled ∈
      ((joinNames names).drop count).filter (· ≠ ',') :=
    List.mem_filter.mpr ⟨List.getLast_mem filled, by simpa using last⟩
  rw [nothing] at kept
  cases kept

/-! ## Cut packets -/

@[simp] theorem length_asciiEncode (text : List Char) :
    (asciiEncode text).length = text.length := List.length_map _

theorem decodeUtf8_asciiEncode {text : List Char}
    (ascii : ∀ char ∈ text, char.toNat < 128) :
    decodeUtf8 (asciiEncode text) = text := by
  have value : ∀ char ∈ text, (UInt8.ofNat char.toNat).toNat = char.toNat := by
    intro char member
    have small := ascii char member
    rw [UInt8.toNat_ofNat']
    exact Nat.mod_eq_of_lt (by omega)
  rw [decodeUtf8_of_ascii, asciiEncode, List.map_map]
  · calc
      text.map _ = text.map id := by
        apply List.map_congr_left
        intro char member
        rw [Function.comp_apply, value char member, Char.ofNat_toNat]
        rfl
      _ = text := List.map_id text
  · intro byte member
    obtain ⟨char, within, rfl⟩ := List.mem_map.mp member
    rw [UInt8.lt_iff_toNat_lt, value char within]
    exact ascii char within

/-- A name-list in a payload that ends somewhere: the length is read whole or not at all,
the names as far as they go. -/
theorem readNameList_take {front rest : Bytes} {text : List Char} {i cut : Nat}
    (place : front.length = i) (ascii : ∀ char ∈ text, char.toNat < 128)
    (small : text.length < 256 ^ 4) :
    readNameList ((front ++ (bigBytes 4 text.length ++ (asciiEncode text ++ rest))).take
      cut) i =
      if cut < i + 4 then .ok none
      else .ok (some (splitNames (text.take (cut - (i + 4))), i + 4 + text.length)) := by
  have length : (front ++ (bigBytes 4 text.length ++ (asciiEncode text ++ rest))).length =
      i + (4 + (text.length + rest.length)) := by
    simp only [List.length_append, length_bigBytes, length_asciiEncode, place]
  have number : (((front ++ (bigBytes 4 text.length ++ (asciiEncode text ++ rest))).drop
      i).take 4) = bigBytes 4 text.length := window_append place (length_bigBytes _ _) _
  have after : (front ++ (bigBytes 4 text.length ++ (asciiEncode text ++ rest))).drop
      (i + 4) =
      asciiEncode text ++ rest := by
    rw [← List.append_assoc]
    apply List.drop_left'
    rw [List.length_append, place, length_bigBytes]
  generalize front ++ (bigBytes 4 text.length ++ (asciiEncode text ++ rest)) = whole at *
  unfold readNameList
  split
  · next short =>
    rw [List.length_take, length] at short
    rw [if_pos (by omega)]
    rfl
  · next long =>
    rw [List.length_take, length] at long
    have value : (((whole.take cut).drop (i + 4)).take text.length) =
        asciiEncode (text.take (cut - (i + 4))) := by
      rw [List.drop_take, after, List.take_take, Nat.min_comm, ← List.take_take,
        List.take_left' (length_asciiEncode text), asciiEncode, ← List.map_take]
      rfl
    have window : ((whole.take cut).drop i).take 4 = bigBytes 4 text.length := by
      rw [List.drop_take, List.take_take, Nat.min_eq_left (by omega), number]
    have read : ByteOrder.big.unpack 4 (bigBytes 4 text.length) = .ok text.length := by
      rw [unpack_eq (length_bigBytes 4 text.length)]
      exact congrArg Except.ok (bigEndian_bigBytes small)
    rw [if_neg (by omega), window, read]
    simp only [bind, Except.bind]
    rw [value, decodeUtf8_asciiEncode fun char member =>
      ascii char (List.mem_of_mem_take member)]
    rfl

namespace KexinitBody

variable (body : KexinitBody)

theorem length_opening : body.opening.length = 17 := by
  simp only [opening, List.length_append, List.length_cons, List.length_nil,
    length_bigBytes]

theorem small_names {names : List SshName} : ∀ char ∈ joinNames names,
      char.toNat < 128 := by
  intro char member
  have bounds := ascii_joinNames names char member
  omega

theorem length_payload : body.payload.length =
    body.hostKeysAt + body.hostKeyNames.length + body.rest.length := by
  simp only [payload, kexList, hostKeyList, hostKeysAt, List.length_append,
    length_bigBytes, length_asciiEncode, length_opening]
  omega

/-- The name-lists of a payload that ends somewhere. -/
theorem readNameLists_take (small : body.payload.length < 256 ^ 4)
    (banner : Option (List Char)) (cut : Nat) :
    readNameLists banner (body.payload.take cut) =
      if cut < body.hostKeysAt then .ok none
      else .ok (some ⟨banner, splitNames body.kexNames,
        splitNames (body.hostKeyNames.take (cut - body.hostKeysAt))⟩) := by
  have length := body.length_payload
  have kexSmall : body.kexNames.length < 256 ^ 4 := by
    rw [hostKeysAt] at length
    omega
  have hostSmall : body.hostKeyNames.length < 256 ^ 4 := by omega
  have first : readNameList (body.payload.take cut) 17 =
      if cut < 17 + 4 then .ok none
      else .ok (some (splitNames (body.kexNames.take (cut - (17 + 4))),
        17 + 4 + body.kexNames.length)) := by
    rw [payload, kexList, List.append_assoc]
    exact readNameList_take body.length_opening small_names kexSmall
  have second : readNameList (body.payload.take cut) (17 + 4 + body.kexNames.length) =
      if cut < body.hostKeysAt then .ok none
      else .ok (some (splitNames (body.hostKeyNames.take (cut - body.hostKeysAt)),
        body.hostKeysAt + body.hostKeyNames.length)) := by
    have place : (body.opening ++ body.kexList).length =
        17 + 4 + body.kexNames.length := by
      simp only [kexList, List.length_append, length_bigBytes, length_asciiEncode,
        length_opening]
      omega
    have starts : body.hostKeysAt = 17 + 4 + body.kexNames.length + 4 := by
      rw [hostKeysAt]
      omega
    rw [payload, ← List.append_assoc, hostKeyList, starts]
    exact readNameList_take place small_names hostSmall
  unfold readNameLists
  rw [first]
  split
  · rw [if_pos (by rw [hostKeysAt]; omega)]
    rfl
  · by_cases reached : cut < body.hostKeysAt
    · rw [if_pos reached] at second ⊢
      simp only [bind, Except.bind, second]
      rfl
    · have names : body.kexNames.take (cut - (17 + 4)) = body.kexNames := by
        rw [hostKeysAt] at reached
        exact List.take_of_length_le (by omega)
      rw [if_neg reached] at second ⊢
      simp only [bind, Except.bind, second, names]
      rfl

end KexinitBody

namespace KexinitPacket

variable (packet : KexinitPacket)

/-- A packet without its end: nothing, or as many names as there are. -/
theorem readPacket_take (banner : Option (List Char)) (after : Bytes) (cut : Nat) :
    readPacket banner ((packet.bytes ++ after).take cut) =
      if cut < 5 + packet.body.hostKeysAt then .ok none
      else .ok (some ⟨banner, splitNames packet.body.kexNames,
        splitNames (packet.body.hostKeyNames.take
          (cut - (5 + packet.body.hostKeysAt)))⟩) := by
  have small := packet.small
  have padded := packet.padded
  have length := packet.body.length_payload
  have whole : packet.bytes ++ after =
      packet.head ++ (packet.body.payload ++ (packet.padding ++ after)) := by
    simp only [bytes, List.append_assoc]
  have headed : packet.head.length = 5 := by
    simp only [head, List.length_append, length_bigBytes, List.length_cons,
      List.length_nil]
  unfold readPacket
  split
  · next short =>
    rw [whole, List.length_take, List.length_append, List.length_append, headed,
      length] at short
    rw [KexinitBody.hostKeysAt] at *
    rw [if_pos (by omega)]
    rfl
  · next long =>
    have enough : 6 ≤ cut := by
      rw [List.length_take] at long
      omega
    have taken : (packet.bytes ++ after).take cut =
        packet.head ++ (packet.body.payload ++ (packet.padding ++ after)).take
          (cut - 5) := by
      rw [whole, List.take_append, headed, List.take_of_length_le (by omega)]
    have lengthField : ((packet.bytes ++ after).take cut).take 4 =
        bigBytes 4 packet.packetLength := by
      rw [taken]
      rfl
    have padField : byteAt ((packet.bytes ++ after).take cut) 4 =
        .ok packet.padding.length := by
      have byte : byteAt ((packet.bytes ++ after).take cut) 4 =
          .ok (UInt8.ofNat packet.padding.length).toNat := by
        rw [taken]
        rfl
      rw [byte, UInt8.toNat_ofNat', Nat.mod_eq_of_lt (by omega)]
    have sshPayload :
        (((packet.bytes ++ after).take cut).drop 5).take packet.body.payload.length =
        packet.body.payload.take (cut - 5) := by
      rw [taken, List.drop_left' headed, List.take_take, Nat.min_comm, ← List.take_take,
        List.take_left]
    have number : ByteOrder.big.unpack 4 (bigBytes 4 packet.packetLength) =
        .ok packet.packetLength := by
      rw [unpack_eq (length_bigBytes 4 packet.packetLength)]
      exact congrArg Except.ok (bigEndian_bigBytes small)
    have bodyLen : (packet.packetLength : Int) - 1 - packet.padding.length =
        packet.body.payload.length := by
      rw [packetLength]
      omega
    have first : (packet.body.payload.take (cut - 5)).head? = some 20 := by
      rw [List.head?_take, if_neg (by omega)]
      rfl
    rw [lengthField, number, padField]
    simp only [bind, Except.bind]
    rw [bodyLen, if_neg (by rw [length, KexinitBody.hostKeysAt]; omega),
      Int.toNat_natCast, sshPayload, if_neg (by simp [first]),
      packet.body.readNameLists_take (by omega)]
    have shifted : cut - 5 < packet.body.hostKeysAt ↔
        cut < 5 + packet.body.hostKeysAt := by omega
    simp only [shifted]
    congr 1
    rw [Nat.sub_sub]

end KexinitPacket

/-! ## Banners -/

/-- A banner changes nothing of what is read after it. -/
theorem readPacket_banner (banner : Option (List Char)) (data : Bytes) :
    readPacket banner data = (readPacket none data).map
      (Option.map fun kexinit => { kexinit with banner := banner }) := by
  have lists (sshPayload : Bytes) : readNameLists banner sshPayload =
      (readNameLists none sshPayload).map
        (Option.map fun kexinit => { kexinit with banner := banner }) := by
    obtain ⟨first, read⟩ := readNameList_returns sshPayload 17
    unfold readNameLists
    rw [read]
    cases first with
    | none => rfl
    | some first =>
        obtain ⟨second, read⟩ := readNameList_returns sshPayload first.2
        simp only [bind, Except.bind, read]
        cases second <;> rfl
  unfold readPacket
  split
  · rfl
  · cases ByteOrder.big.unpack 4 (data.take 4) with
    | error error => rfl
    | ok pktLen =>
        cases byteAt data 4 with
        | error error => rfl
        | ok padLen =>
            simp only [bind, Except.bind]
            split
            · rfl
            · split
              · rfl
              · exact lists _

theorem readPacket_of_short {banner : Option (List Char)} {data : Bytes}
    (short : data.length < 6) : readPacket banner data = .ok none := if_pos short

namespace SshBanner

variable (banner : SshBanner)

theorem text_printable : ∀ char ∈ banner.text, 0x20 ≤ char.toNat ∧ char.toNat ≤ 0x7E := by
  intro char member
  rcases List.mem_append.mp member with own | later
  · have mark : ∀ char ∈ ['S', 'S', 'H', '-'], 0x20 ≤ char.toNat ∧ char.toNat ≤ 0x7E := by
      decide
    exact mark char own
  · exact banner.printable char later

theorem encoded {byte : UInt8} (member : byte ∈ asciiEncode banner.text) :
    0x20 ≤ byte.toNat := by
  obtain ⟨char, within, rfl⟩ := List.mem_map.mp member
  have bounds := banner.text_printable char within
  rw [UInt8.toNat_ofNat', Nat.mod_eq_of_lt (by omega)]
  exact bounds.1

/-- The line holds no line feed. -/
theorem line_free : ∀ byte ∈ banner.line, (byte != 10) = true := by
  intro byte member
  rw [bne_iff_ne]
  rintro rfl
  rcases List.mem_append.mp member with text | ending
  · exact absurd (banner.encoded text) (by decide)
  · split at ending
    · exact absurd ending (by decide)
    · cases ending

/-- What is read of the line is the banner. -/
theorem read_line : StartTls.decodeAscii (rstripLine banner.line) = banner.text := by
  have blank (byte : UInt8) (member : byte ∈ (asciiEncode banner.text).reverse) :
      (byte == 13 || byte == 10) = false := by
    have least := banner.encoded (List.mem_reverse.mp member)
    rw [Bool.or_eq_false_iff, beq_eq_false_iff_ne, beq_eq_false_iff_ne]
    constructor <;> rintro rfl <;> exact absurd least (by decide)
  have kept : (asciiEncode banner.text).reverse.dropWhile (fun byte =>
      byte == 13 || byte == 10) =
      (asciiEncode banner.text).reverse := by
    cases bytes : (asciiEncode banner.text).reverse with
    | nil => rfl
    | cons byte rest =>
        have here := blank byte (by rw [bytes]; exact List.mem_cons_self)
        rw [List.dropWhile_cons_of_neg (by rw [here]; decide)]
  have stripped : rstripLine banner.line = asciiEncode banner.text := by
    rw [rstripLine, line]
    split
    · rw [List.reverse_append, List.reverse_singleton, List.singleton_append,
        List.dropWhile_cons_of_pos (by decide), kept, List.reverse_reverse]
    · rw [List.append_nil, kept, List.reverse_reverse]
  rw [stripped, StartTls.decodeAscii, asciiEncode, List.map_map]
  calc
    banner.text.map _ = banner.text.map id := by
      apply List.map_congr_left
      intro char member
      have bounds := banner.text_printable char member
      have value : (UInt8.ofNat char.toNat).toNat = char.toNat := by
        rw [UInt8.toNat_ofNat']
        exact Nat.mod_eq_of_lt (by omega)
      have small : UInt8.ofNat char.toNat < 128 := by
        rw [UInt8.lt_iff_toNat_lt, value]
        exact lt_of_le_of_lt bounds.2 (by decide)
      rw [Function.comp_apply, if_pos small, value, Char.ofNat_toNat]
      rfl
    _ = banner.text := List.map_id banner.text

end SshBanner

/-! ## Segments -/

namespace KexinitPacket

variable (packet : KexinitPacket)

/-- A banner or none, a packet, and what follows it. -/
def segment (banner : Option SshBanner) (after : Bytes) : Bytes :=
  match banner with
  | none => packet.bytes ++ after
  | some banner => banner.line ++ 10 :: (packet.bytes ++ after)

/-- Where the packet starts. -/
def startsAt : Option SshBanner → Nat
  | none => 0
  | some banner => banner.line.length + 1

/-- The cut falls where the names of the host keys stand. -/
def CutsHostKeys (banner : Option SshBanner) (cut : Nat) : Prop :=
  startsAt banner + (5 + packet.body.hostKeysAt) ≤ cut ∧
    cut < startsAt banner + (5 + packet.body.hostKeysAt) + packet.body.hostKeyNames.length

/-- Without a banner, a packet whose length reads as `SSH-` seems to start one. -/
def TakenForBanner (banner : Option SshBanner) : Prop :=
  banner = none ∧ bigBytes 4 packet.packetLength = sshMark

/-- No line ends in the data, or what follows the first line is no packet. -/
def NoPacketLater (data : Bytes) : Prop :=
  (data.takeWhile (· != 10)).length = data.length ∨
    ¬ HoldsLists (data.drop ((data.takeWhile (· != 10)).length + 1))

/-- The reader says nothing of the data, or all that the packet holds. -/
def WholeOrNot (banner : Option SshBanner) (data : Bytes) : Prop :=
  ∃ result, parseSshKexinit data = .ok result ∧
    (result = none ∨ result = some (packet.kexinit (banner.map SshBanner.text)))

theorem wholeOrNot_iff {banner : Option SshBanner} {data : Bytes}
    {result : Option Kexinit}
    (read : readSegment data = .ok result) :
    packet.WholeOrNot banner data ↔
      result = none ∨ result = some (packet.kexinit (banner.map SshBanner.text)) := by
  rw [WholeOrNot, parseSshKexinit_of_read read]
  constructor
  · rintro ⟨other, same, holds⟩
    cases same
    exact holds
  · intro holds
    exact ⟨result, rfl, holds⟩

/-- What is read of a packet that ends somewhere, where it is taken for one. -/
def readCut (banner : Option SshBanner) (cut : Nat) : Option Kexinit :=
  if cut < startsAt banner + (5 + packet.body.hostKeysAt) then none
  else some ⟨banner.map SshBanner.text, splitNames packet.body.kexNames, splitNames
    (packet.body.hostKeyNames.take
      (cut - (startsAt banner + (5 + packet.body.hostKeysAt))))⟩

theorem readCut_iff (banner : Option SshBanner) (cut : Nat) :
    packet.readCut banner cut = none ∨
        packet.readCut banner cut = some (packet.kexinit (banner.map SshBanner.text)) ↔
      ¬ packet.CutsHostKeys banner cut := by
  unfold readCut CutsHostKeys
  have kex : splitNames packet.body.kexNames =
      packet.body.kexAlgorithms.map SshName.text :=
    splitNames_join _
  have hostKeys : splitNames packet.body.hostKeyNames =
      packet.body.serverHostKeyAlgorithms.map SshName.text := splitNames_join _
  split
  · next before =>
    refine iff_of_true (Or.inl rfl) ?_
    omega
  · next reached =>
    simp only [reduceCtorEq, false_or, Option.some.injEq, kexinit, kex, Kexinit.mk.injEq,
      true_and, ← hostKeys]
    constructor
    · rintro same ⟨-, inside⟩
      exact splitNames_take packet.body.serverHostKeyAlgorithms (by
        rw [KexinitBody.hostKeyNames] at inside
        omega) same
    · intro outside
      rw [List.take_of_length_le (by omega)]

theorem take_segment_mark {banner : Option SshBanner} {after : Bytes} {cut : Nat}
    (short : cut < 4) : ((packet.segment banner after).take cut).take 4 ≠ sshMark := by
  intro same
  have length := congrArg List.length same
  simp only [List.length_take, sshMark, List.length_cons, List.length_nil] at length
  omega

theorem readSegment_of_short {banner : Option SshBanner} {after : Bytes} {cut : Nat}
    (short : cut < 4) :
    readSegment ((packet.segment banner after).take cut) = .ok none := by
  rw [readSegment, if_neg (packet.take_segment_mark short)]
  apply readPacket_of_short
  rw [List.length_take]
  omega

/-- A segment that is not taken for something else is read as far as it goes. -/
theorem readSegment_take {banner : Option SshBanner}
    (own : ¬ packet.TakenForBanner banner)
    (after : Bytes) (cut : Nat) :
    readSegment ((packet.segment banner after).take cut) = .ok
      (packet.readCut banner cut) := by
  by_cases short : cut < 4
  · rw [packet.readSegment_of_short short, readCut, if_pos (by omega)]
  · cases banner with
    | none =>
        have other : ((packet.segment none after).take cut).take 4 ≠ sshMark := by
          intro same
          apply own
          refine ⟨rfl, ?_⟩
          rw [← same, List.take_take, Nat.min_eq_left (by omega)]
          rfl
        rw [readSegment, if_neg other, segment, packet.readPacket_take, readCut, startsAt]
        simp only [Nat.zero_add]
        split <;> rfl
    | some banner =>
        have mark : ((packet.segment (some banner) after).take cut).take 4 = sshMark := by
          rw [List.take_take, Nat.min_eq_left (by omega)]
          rfl
        rw [readSegment, if_pos mark]
        dsimp only
        by_cases within : cut ≤ banner.line.length
        · have all : (packet.segment (some banner) after).take cut =
              banner.line.take cut :=
            List.take_append_of_le_length within
          have free : (banner.line.take cut).takeWhile (· != 10) = banner.line.take cut :=
            List.takeWhile_eq_self_iff.mpr fun byte member =>
              banner.line_free byte (List.mem_of_mem_take member)
          rw [all, free, if_pos rfl, readCut, if_pos (by rw [startsAt]; omega)]
          rfl
        · have taken : (packet.segment (some banner) after).take cut =
              banner.line ++ 10 ::
                (packet.bytes ++ after).take (cut - (banner.line.length + 1)) := by
            have later : cut - banner.line.length =
                cut - (banner.line.length + 1) + 1 := by omega
            rw [segment, List.take_append, List.take_of_length_le (by omega), later,
              List.take_succ_cons]
          have line : (banner.line ++ 10 ::
              (packet.bytes ++ after).take (cut - (banner.line.length + 1))).takeWhile
                (· != 10) = banner.line := by
            rw [List.takeWhile_append_of_pos banner.line_free,
              List.takeWhile_cons_of_neg (by decide), List.append_nil]
          have rest : (banner.line ++ 10 ::
              (packet.bytes ++ after).take (cut - (banner.line.length + 1))).drop
                (banner.line.length + 1) =
              (packet.bytes ++ after).take (cut - (banner.line.length + 1)) := by
            rw [← List.drop_drop, List.drop_left]
            rfl
          rw [taken, line, if_neg (by simp), rest, banner.read_line,
            packet.readPacket_take, readCut, startsAt]
          have shifted : cut - (banner.line.length + 1) < 5 + packet.body.hostKeysAt ↔
              cut < banner.line.length + 1 + (5 + packet.body.hostKeysAt) := by omega
          simp only [shifted, Nat.sub_sub]
          split <;> rfl

/-- What stands before the first line feed is no banner that the packet has. -/
theorem wholeOrNot_taken {banner : Option SshBanner}
    (taken : packet.TakenForBanner banner)
    (after : Bytes) (cut : Nat) :
    packet.WholeOrNot banner ((packet.segment banner after).take cut) ↔
      NoPacketLater ((packet.segment banner after).take cut) := by
  obtain ⟨rfl, mark⟩ := taken
  by_cases short : cut < 4
  · rw [packet.wholeOrNot_iff (packet.readSegment_of_short short)]
    refine iff_of_true (Or.inl rfl) (Or.inl (congrArg List.length ?_))
    apply List.takeWhile_eq_self_iff.mpr
    intro byte member
    have among : byte ∈ ((packet.segment none after).take 4) :=
      (List.take_subset_take_left _ (by omega)) member
    have first : (packet.segment none after).take 4 = sshMark := by
      rw [← mark]
      rfl
    rw [first] at among
    have free : ∀ byte ∈ sshMark, (byte != 10) = true := by decide +kernel
    exact free byte among
  · have first : ((packet.segment none after).take cut).take 4 = sshMark := by
      rw [List.take_take, Nat.min_eq_left (by omega), ← mark]
      rfl
    generalize (packet.segment none after).take cut = data at first
    unfold NoPacketLater
    by_cases ended : (data.takeWhile (· != 10)).length = data.length
    · have read : readSegment data = .ok none := by
        rw [readSegment, if_pos first]
        dsimp only
        rw [if_pos ended]
        rfl
      rw [packet.wholeOrNot_iff read]
      exact iff_of_true (Or.inl rfl) (Or.inl ended)
    · obtain ⟨result, later⟩ := readPacket_returns none
        (data.drop ((data.takeWhile (· != 10)).length + 1))
      have read : readSegment data = .ok (result.map fun kexinit =>
          { kexinit with
            banner := some (StartTls.decodeAscii (rstripLine (data.takeWhile (· != 10))))
              }) := by
        rw [readSegment, if_pos first]
        dsimp only
        rw [if_neg ended, readPacket_banner, later]
        rfl
      rw [packet.wholeOrNot_iff read, ← @readPacket_eq_none_iff none, later]
      cases result with
      | none => simp
      | some kexinit => simp [ended, KexinitPacket.kexinit]

/-- When a cut segment is read whole or not at all. -/
def ReadsClean (banner : Option SshBanner) (after : Bytes) (cut : Nat) : Prop :=
  (packet.TakenForBanner banner →
    NoPacketLater ((packet.segment banner after).take cut)) ∧
    (¬ packet.TakenForBanner banner → ¬ packet.CutsHostKeys banner cut)

theorem wholeOrNot_take_iff (banner : Option SshBanner) (after : Bytes) (cut : Nat) :
    packet.WholeOrNot banner ((packet.segment banner after).take cut) ↔
      packet.ReadsClean banner after cut := by
  unfold ReadsClean
  by_cases taken : packet.TakenForBanner banner
  · rw [packet.wholeOrNot_taken taken]
    simp [taken]
  · rw [packet.wholeOrNot_iff (packet.readSegment_take taken after cut), readCut_iff]
    simp [taken]

/-- The whole segment is read exactly. -/
theorem parseSshKexinit_segment_iff (banner : Option SshBanner) (after : Bytes) :
    parseSshKexinit (packet.segment banner after) =
        .ok (some (packet.kexinit (banner.map SshBanner.text))) ↔
      ¬ packet.TakenForBanner banner := by
  have whole : (packet.segment banner after).take (packet.segment banner after).length =
      packet.segment banner after := List.take_length
  constructor
  · rintro read ⟨rfl, mark⟩
    obtain ⟨result, segmentRead⟩ := readSegment_returns (packet.segment none after)
    rw [parseSshKexinit_of_read segmentRead] at read
    cases read
    have first : (packet.segment none after).take 4 = sshMark := by
      rw [← mark]
      rfl
    rw [readSegment, if_pos first] at segmentRead
    dsimp only at segmentRead
    split at segmentRead
    · cases segmentRead
    · rw [readPacket_banner] at segmentRead
      cases later : readPacket none ((packet.segment none after).drop
          (((packet.segment none after).takeWhile (· != 10)).length + 1)) with
      | error error =>
          rw [later] at segmentRead
          cases segmentRead
      | ok kexinit =>
          rw [later] at segmentRead
          cases kexinit with
          | none => cases segmentRead
          | some kexinit =>
              simp [Except.map, KexinitPacket.kexinit] at segmentRead
  · intro own
    have read := packet.readSegment_take own after (packet.segment banner after).length
    rw [whole] at read
    rw [parseSshKexinit_of_read read]
    have length : startsAt banner + (5 + packet.body.hostKeysAt) +
        packet.body.hostKeyNames.length ≤ (packet.segment banner after).length := by
      have inner := packet.body.length_payload
      cases banner with
      | none =>
          simp only [segment, bytes, head, startsAt, List.length_append, length_bigBytes,
            List.length_cons, List.length_nil, inner]
          omega
      | some banner =>
          simp only [segment, bytes, head, startsAt, List.length_append, length_bigBytes,
            List.length_cons, List.length_nil, inner]
          omega
    have kept : ¬ packet.CutsHostKeys banner (packet.segment banner after).length := by
      unfold CutsHostKeys
      omega
    rcases (packet.readCut_iff banner _).mpr kept with none | some
    · rw [readCut, if_neg (by omega)] at none
      cases none
    · rw [some]

end KexinitPacket

/-- The reader never raises; it reads a segment exactly, and a segment that is cut whole
or not at all, just where the cut leaves the names of the host keys alone. -/
theorem kexinit_read_whole_iff (packet : KexinitPacket) (banner : Option SshBanner)
    (after : Bytes) :
    (∀ payload, ∃ result, parseSshKexinit payload = .ok result) ∧
    (parseSshKexinit (packet.segment banner after) =
        .ok (some (packet.kexinit (banner.map SshBanner.text))) ↔
      ¬ packet.TakenForBanner banner) ∧
    ∀ cut, packet.WholeOrNot banner ((packet.segment banner after).take cut) ↔
      packet.ReadsClean banner after cut := by
  refine ⟨?_, packet.parseSshKexinit_segment_iff banner after,
    packet.wholeOrNot_take_iff banner after⟩
  intro payload
  obtain ⟨result, read⟩ := readSegment_returns payload
  exact ⟨result, parseSshKexinit_of_read read⟩

/-- A packet with one name in either list. -/
def shortPacket : KexinitPacket where
  body :=
    { cookie := 0
      kexAlgorithms := [⟨['k'], by decide, by decide⟩]
      serverHostKeyAlgorithms := [⟨['a', 'b'], by decide, by decide⟩]
      rest := [] }
  padding := []
  padded := length_nil_lt
  small := by decide

/-- A packet that ends within a name gives a shorter name. -/
theorem shortPacket_cut :
    ¬ ∀ (packet : KexinitPacket) (banner : Option SshBanner) (after : Bytes) (cut : Nat),
      cut < (packet.segment banner after).length →
        packet.WholeOrNot banner ((packet.segment banner after).take cut) := by
  intro always
  obtain ⟨result, read, whole⟩ := always shortPacket none [] 32 (by decide)
  have shorter : parseSshKexinit ((shortPacket.segment none []).take 32) =
      .ok (some ⟨none, [['k']], [['a']]⟩) := by rfl
  rw [shorter] at read
  cases read
  rcases whole with none | some
  · cases none
  · revert some
    decide

end Probes
end PqcScan
