import PqcScan.Library.Slices
import PqcScan.Probes.HelloBuilders
import PqcScan.Probes.ServerHello

/-!
# SQL Server and TLS

`net_db_mssql_tls.py`: the PRELOGIN exchange, and the ServerHello that is tunnelled in TDS
packets. What the server sends before it closes or falls silent is one stream of bytes.
-/

namespace PqcScan
namespace Probes
namespace NetDbMssqlTls

open Library Python PqcScan.Core Framing

/-! ## Packets -/

/-- `wrap_tds`. -/
def wrapTds (payload : Bytes) : Except ReadError Bytes := do
  let length ← Ike.pack 2 (payload.length + 8)
  pure ([0x12, 0x01] ++ length ++ [0, 0, 1, 0] ++ payload)

/-- `build_prelogin`. -/
def buildPrelogin : Except ReadError Bytes :=
  wrapTds ([0x00] ++ u16 11 ++ u16 6 ++ [0x01] ++ u16 17 ++ u16 1 ++ [0xFF] ++
    [0x10, 0x00, 0x0B, 0xE2, 0x00, 0x00] ++ [0x01])

/-- `_read_tds`: the payload of a packet, and the stream behind it. -/
def readTds (stream : Bytes) : Option (Bytes × Bytes) :=
  let length := bigEndian ((stream.drop 2).take 2)
  if stream.length < 8 then none
  else if length < 8 then none
  else if stream.length < length then none
  else some ((stream.drop 8).take (length - 8), stream.drop length)

/-- The loop of `parse_prelogin_response`; every round takes five bytes. -/
def readOptions :
    Nat → Nat → Bytes → Dict UInt8 (Nat × Nat) → Option (Dict UInt8 (Nat × Nat))
  | 0, _, _, options => some options
  | fuel + 1, i, payload, options =>
      match payload[i]? with
      | none => some options
      | some token =>
          if token = 0xFF then some options
          else if payload.length < i + 5 then none
          else
            readOptions fuel (i + 5) payload
              (options.set token (bigEndian ((payload.drop (i + 1)).take 2),
                bigEndian ((payload.drop (i + 3)).take 2)))

/-- `parse_prelogin_response`. -/
def parsePreloginResponse (payload : Bytes) : Option UInt8 := do
  let options ← readOptions payload.length 0 payload Dict.empty
  let (offset, length) ← options.get? 0x01
  if length < 1 ∨ payload.length ≤ offset then none else payload[offset]?

/-! ## Findings -/

/-- `_ENCRYPT_LABEL`, with its default. -/
def encryptLabel (encryption : UInt8) : String :=
  match encryption with
  | 0x00 => "ENCRYPT_OFF (optional)"
  | 0x01 => "ENCRYPT_ON"
  | 0x02 => "ENCRYPT_NOT_SUP (plaintext only)"
  | 0x03 => "ENCRYPT_REQ (required)"
  | other => "unknown(" ++ toString other.toNat ++ ")"

/-- The host and the port that are probed, and the time of the findings. -/
structure Endpoint where
  host : List Char
  port : Nat
  now : DateTime

namespace Endpoint

variable (endpoint : Endpoint)

/-- The endpoint in the findings. -/
def text : String := String.ofList endpoint.host ++ ":" ++ toString endpoint.port

/-- A finding of the probe. -/
def finding (algorithm : String) (classification : Classification) (severity : Severity)
    (title : String) (evidence remediation : List (String × Json)) : Finding where
  probeId := "net.db.mssql_tls"
  algorithm
  classification
  severity
  title
  evidence := Dict.ofList (("endpoint", .str endpoint.text) :: evidence)
  remediation := Dict.ofList remediation
  createdAt := endpoint.now

/-- No connection. -/
def connectionFailed (error : String) : Finding :=
  endpoint.finding "N/A" .info .info
    ("SQL Server connection failed at " ++ endpoint.text ++ ": " ++ error) [] []

/-- No answer that can be read. -/
def unreadable : Finding :=
  endpoint.finding "N/A" .info .info
    ("SQL Server at " ++ endpoint.text ++ " gave no readable PRELOGIN response") [] []

/-- The server does not encrypt. -/
def plaintext (label : String) : Finding :=
  endpoint.finding "PLAINTEXT" .sangatTinggi .crit
    ("SQL Server at " ++ endpoint.text ++ " does not support TLS (login in cleartext)")
    [("encryption", .str label), ("verified", .bool true)]
    [("snippet", .str ("Enable Force Encryption in SQL Server " ++
      "Configuration Manager and install a TLS cert."))]

/-- The server encrypts if the client asks for it. -/
def tlsOptional (label : String) : Finding :=
  endpoint.finding "TLS-OPTIONAL" .tinggi .high
    ("SQL Server at " ++ endpoint.text ++ " makes TLS optional (downgradable)")
    [("encryption", .str label), ("verified", .bool true)]
    [("snippet", .str ("Set Force Encryption = Yes so clients " ++
      "cannot negotiate plaintext."))]

/-- The server encrypts, and its group is not known. -/
def groupUnread (label : String) : Finding :=
  endpoint.finding "TLS" .info .info
    ("SQL Server at " ++ endpoint.text ++ " encrypts (" ++ label ++
      "); selected group unread")
    [("encryption", .str label)] []

/-- The finding of a selected group. -/
def negotiated (name : String) (isPqc : Bool) : Finding :=
  if isPqc then
    endpoint.finding name .pqcReady .info
      ("SQL Server at " ++ endpoint.text ++ " negotiated PQC-hybrid group " ++ name)
      [("group", .str name), ("verified", .bool true)] []
  else
    endpoint.finding name .sederhana .med
      ("SQL Server at " ++ endpoint.text ++ " negotiated classical group " ++ name)
      [("group", .str name), ("verified", .bool true), ("hndl", .bool true),
        ("note", .str ("TDS key exchange is harvest-now-decrypt-later exposed; " ++
          "move to a hybrid ML-KEM group."))] []

/-- The finding of an optional encryption, which does not end the run. -/
def stance (encryption : UInt8) : List Finding :=
  if encryption = 0x00 then [endpoint.tlsOptional (encryptLabel encryption)] else []

/-- What is reported of the payload of the second packet. -/
def judge (label : String) (payload : Option Bytes) : Except ReadError Finding := do
  let parsed ← match payload with
    | none => pure none
    | some [] => pure none
    | some (first :: rest) => parseServerHelloGroup (first :: rest)
  pure (match parsed with
    | none => endpoint.groupUnread label
    | some group => endpoint.negotiated group.groupName group.isPqc)

end Endpoint

/-! ## The dialogue -/

/-- What the probe has sent and reported, and what leaves `run` as an exception. -/
structure Outcome where
  sent : List Bytes
  findings : List Finding
  raised : Option ReadError

/-- `_is_ip`; `isDigit` is the table behind `str.isdigit`. -/
def isIp (isDigit : Char → Bool) (host : List Char) : Bool :=
  let parts := host.splitOn '.'
  parts.length == 4 && parts.all fun part => !part.isEmpty && part.all isDigit

/-- The second packet that is sent. -/
def tunnelledHello (isDigit : Char → Bool) (host : List Char) :
    Except ReadError Bytes := do
  let hello ← Hello.NetTlsKexGroups.buildClientHello
    (if isIp isDigit host then none else some host) Hello.fixedRandom
  wrapTds hello

/-- What `run` does with what the server sends. -/
def converse (isDigit : Char → Bool) (endpoint : Endpoint) (stream : Bytes) : Outcome :=
  match buildPrelogin with
  | .error raised => ⟨[], [], some raised⟩
  | .ok prelogin =>
      match (readTds stream).bind fun packet =>
          (parsePreloginResponse packet.1).map fun encryption =>
            (encryption, packet.2) with
      | none => ⟨[prelogin], [endpoint.unreadable], none⟩
      | some (encryption, later) =>
          if encryption = 0x02 then
            ⟨[prelogin], [endpoint.plaintext (encryptLabel encryption)], none⟩
          else
            match tunnelledHello isDigit endpoint.host with
            | .error raised => ⟨[prelogin], endpoint.stance encryption, some raised⟩
            | .ok hello =>
                match endpoint.judge (encryptLabel encryption)
                    ((readTds later).map Prod.fst) with
                | .error raised =>
                    ⟨[prelogin, hello], endpoint.stance encryption, some raised⟩
                | .ok finding =>
                    ⟨[prelogin, hello], endpoint.stance encryption ++ [finding], none⟩

/-- `run`. -/
def run (isDigit : Char → Bool) (endpoint : Endpoint) (connection : Except String Bytes) :
    Outcome :=
  match connection with
  | .error error => ⟨[], [endpoint.connectionFailed error], none⟩
  | .ok stream => converse isDigit endpoint stream

/-! ## What a server sends -/

/-- A TDS packet of any type. -/
structure TdsPacket where
  opening : Bytes
  closing : Bytes
  payload : Bytes
  opening_length : opening.length = 2
  closing_length : closing.length = 4
  short : 8 + payload.length < 65536

namespace TdsPacket

variable (packet : TdsPacket)

/-- The packet as it is sent. -/
def bytes : Bytes :=
  packet.opening ++
    (u16 (8 + packet.payload.length) ++ (packet.closing ++ packet.payload))

theorem length_bytes : packet.bytes.length = 8 + packet.payload.length := by
  rw [bytes, List.length_append, List.length_append, List.length_append,
    packet.opening_length, packet.closing_length, length_u16]
  omega

end TdsPacket

/-- An entry of the option table: its token, the place and the length of its data. -/
structure TdsOption where
  token : UInt8
  offset : Nat
  size : Nat
  token_other : token ≠ 0xFF
  offset_small : offset < 65536
  size_small : size < 65536

/-- The entry of an option. -/
def TdsOption.bytes (option : TdsOption) : Bytes :=
  option.token :: (u16 option.offset ++ u16 option.size)

/-- The entries of the options. -/
def optionBytes (table : List TdsOption) : Bytes := table.flatMap TdsOption.bytes

/-- A server that answers the PRELOGIN and then the ClientHello. -/
structure TdsServer where
  table : List TdsOption
  data : Bytes
  /-- The entry of ENCRYPTION, and its value. -/
  entry : TdsOption
  encryption : UInt8
  prelogin : TdsPacket
  hello : HelloMessage
  /-- What follows the ServerHello in its record, and behind the record. -/
  flight : Bytes
  behind : Bytes
  tunnel : TdsPacket
  later : Bytes
  tokens_distinct : (table.map TdsOption.token).Nodup
  entry_listed : entry ∈ table
  entry_token : entry.token = 0x01
  entry_filled : 0 < entry.size
  prelogin_payload : prelogin.payload = optionBytes table ++ (0xFF :: data)
  encryption_placed : prelogin.payload[entry.offset]? = some encryption
  record_small : (hello.message ++ flight).length < 65536
  tunnel_payload : tunnel.payload =
    [0x16, 3, 3] ++ (u16 (hello.message ++ flight).length ++
    ((hello.message ++ flight) ++ behind))

/-- The group of the last key_share that has one. -/
def selectedGroup (exts : List (Frame UInt8)) : Option Nat :=
  (exts.filter fun extension => bigEndian (extension.head.take 2) = 0x0033 ∧
    2 ≤ extension.body.length).getLast?.map fun extension =>
      bigEndian (extension.body.take 2)

namespace TdsServer

variable (server : TdsServer)

/-- Everything that is sent. -/
def bytes : Bytes := server.prelogin.bytes ++ (server.tunnel.bytes ++ server.later)

/-- What is reported of the key exchange of a server. -/
def groupFinding (endpoint : Endpoint) (exts : List (Frame UInt8)) : Finding :=
  match selectedGroup exts with
  | none => endpoint.groupUnread (encryptLabel server.encryption)
  | some code =>
      let (name, isPqc) := (groups code).getD (unknownGroup code, false)
      endpoint.negotiated name isPqc

end TdsServer

/-! ## What is read of it -/

theorem readTds_take (packet : TdsPacket) (rest : Bytes) (cut : Nat) :
    readTds ((packet.bytes ++ rest).take cut) =
      if cut < packet.bytes.length then none
      else some (packet.payload, rest.take (cut - packet.bytes.length)) := by
  have size := packet.length_bytes
  have number : bigEndian (((packet.bytes ++ rest).drop 2).take 2) =
      8 + packet.payload.length := by
    rw [TdsPacket.bytes, List.append_assoc, List.append_assoc,
      window_append packet.opening_length (length_u16 _), bigEndian_u16 packet.short]
  unfold readTds
  by_cases none_ : cut < 8
  · have short : ((packet.bytes ++ rest).take cut).length < 8 := by
      rw [List.length_take]
      omega
    rw [if_pos (by omega : cut < packet.bytes.length)]
    exact if_pos short
  · have same : (((packet.bytes ++ rest).take cut).drop 2).take 2 =
        ((packet.bytes ++ rest).drop 2).take 2 := by
      rw [List.drop_take, List.take_take, Nat.min_eq_left (by omega)]
    have length : ((packet.bytes ++ rest).take cut).length =
        min cut (packet.bytes.length + rest.length) := by
      rw [List.length_take, List.length_append]
    rw [same, number, length]
    dsimp only
    rw [if_neg (by omega), if_neg (by omega)]
    by_cases short : cut < packet.bytes.length
    · rw [if_pos short, if_pos (by omega)]
    · have whole : (packet.bytes ++ rest).take cut =
          packet.bytes ++ rest.take (cut - packet.bytes.length) := by
        rw [List.take_append, List.take_of_length_le (by omega)]
      have front : (packet.opening ++ (u16 (8 + packet.payload.length) ++
          packet.closing)).length = 8 := by
        rw [List.length_append, List.length_append, packet.opening_length,
          packet.closing_length, length_u16]
      have split_ : packet.bytes ++ rest.take (cut - packet.bytes.length) =
          (packet.opening ++ (u16 (8 + packet.payload.length) ++ packet.closing)) ++
            (packet.payload ++ rest.take (cut - packet.bytes.length)) := by
        simp only [TdsPacket.bytes, List.append_assoc]
      have payload : ((packet.bytes ++ rest.take (cut - packet.bytes.length)).drop 8).take
          (8 + packet.payload.length - 8) = packet.payload := by
        rw [split_]
        exact window_append front (by omega) _
      rw [if_neg short, if_neg (by omega), whole, payload, List.drop_left' size]

theorem length_optionBytes (table : List TdsOption) :
    (optionBytes table).length = 5 * table.length := by
  induction table with
  | nil => rfl
  | cons option table inductionHypothesis =>
      rw [optionBytes, List.flatMap_cons, List.length_append, List.length_cons]
      rw [optionBytes] at inductionHypothesis
      rw [inductionHypothesis]
      change 5 + _ = _
      omega

/-- The loop reads the table up to its terminator. -/
theorem readOptions_table (table : List TdsOption) (front data : Bytes) {fuel : Nat}
    (enough : table.length < fuel) (options : Dict UInt8 (Nat × Nat)) :
    readOptions fuel front.length
      (front ++ (optionBytes table ++ (0xFF :: data))) options =
      some ((table.map fun option => (option.token, (option.offset, option.size))).foldl
        (fun dict pair => dict.set pair.1 pair.2) options) := by
  induction table generalizing front fuel options with
  | nil =>
      obtain ⟨more, rfl⟩ := Nat.exists_eq_add_of_lt enough
      have token : (front ++ (optionBytes [] ++ (0xFF :: data)))[front.length]? =
          some 0xFF := by
        rw [List.getElem?_append_right (le_refl _), Nat.sub_self]
        rfl
      rw [readOptions, token]
      exact if_pos rfl
  | cons option table inductionHypothesis =>
      obtain ⟨more, rfl⟩ := Nat.exists_eq_add_of_lt enough
      have behind : optionBytes (option :: table) ++ (0xFF :: data) =
          option.token :: (u16 option.offset ++ (u16 option.size ++
            (optionBytes table ++ (0xFF :: data)))) := by
        simp only [optionBytes, List.flatMap_cons, TdsOption.bytes, List.append_assoc,
          List.cons_append]
      have token : (front ++
          (optionBytes (option :: table) ++ (0xFF :: data)))[front.length]? =
          some option.token := by
        rw [List.getElem?_append_right (le_refl _), Nat.sub_self, behind]
        rfl
      have offset : ((front ++ (optionBytes (option :: table) ++ (0xFF :: data))).drop
          (front.length + 1)).take 2 = u16 option.offset := by
        rw [behind, ← List.singleton_append, ← List.append_assoc]
        exact window_append (by simp) (length_u16 _) _
      have size : ((front ++ (optionBytes (option :: table) ++ (0xFF :: data))).drop
          (front.length + 3)).take 2 = u16 option.size := by
        rw [behind, ← List.singleton_append, ← List.append_assoc, ← List.append_assoc]
        exact window_append (by simp) (length_u16 _) _
      have next : front.length + 5 = (front ++ option.bytes).length := by
        rw [List.length_append]
        rfl
      have rest : front ++ (optionBytes (option :: table) ++ (0xFF :: data)) =
          (front ++ option.bytes) ++ (optionBytes table ++ (0xFF :: data)) := by
        simp only [optionBytes, List.flatMap_cons, List.append_assoc]
      have long : ¬ (front ++ (optionBytes (option :: table) ++ (0xFF :: data))).length <
          front.length + 5 := by
        rw [rest, next, List.length_append]
        omega
      rw [readOptions, token]
      dsimp only
      rw [if_neg option.token_other, if_neg long, offset, size,
        bigEndian_u16 option.offset_small, bigEndian_u16 option.size_small, next, rest,
        inductionHypothesis (front ++ option.bytes) (by rw [List.length_cons]; omega)]
      rfl

theorem TdsServer.parse_prelogin (server : TdsServer) :
    parsePreloginResponse server.prelogin.payload = some server.encryption := by
  have read := readOptions_table server.table [] server.data
    (by rw [List.length_append, List.length_cons, length_optionBytes]; omega :
      server.table.length < (optionBytes server.table ++ (0xFF :: server.data)).length)
    Dict.empty
  have listed : (server.entry.token, (server.entry.offset, server.entry.size)) ∈
      server.table.map fun option => (option.token, (option.offset, option.size)) :=
    List.mem_map_of_mem server.entry_listed
  have distinct : ((server.table.map fun option =>
      (option.token, (option.offset, option.size))).map Prod.fst).Nodup := by
    rw [List.map_map]
    exact server.tokens_distinct
  have found := Dict.get?_ofList_of_mem distinct listed
  rw [Dict.ofList, server.entry_token] at found
  have inside : server.entry.offset < server.prelogin.payload.length :=
    (List.getElem?_eq_some_iff.mp server.encryption_placed).1
  rw [List.nil_append, List.length_nil, ← server.prelogin_payload] at read
  rw [parsePreloginResponse, read]
  simp only [Option.bind_eq_bind, Option.bind_some, found]
  rw [if_neg (by have := server.entry_filled; omega), server.encryption_placed]

/-- The group that the loop over the extensions ends with. -/
theorem foldl_stepGroup (exts : List (Frame UInt8)) (state : Nat × Option Nat) :
    (exts.foldl (fun state extension =>
      stepGroup state (bigEndian (extension.head.take 2)) extension.body) state).2 =
        (selectedGroup exts).or state.2 := by
  induction exts generalizing state with
  | nil => rfl
  | cons extension exts inductionHypothesis =>
      rw [List.foldl_cons, inductionHypothesis, stepGroup, selectedGroup, selectedGroup]
      by_cases share : bigEndian (extension.head.take 2) = 0x0033 ∧
        2 ≤ extension.body.length
      · have other : ¬ (bigEndian (extension.head.take 2) = 0x002B ∧
            2 ≤ extension.body.length) := by omega
        rw [if_neg other, if_pos share, List.filter_cons_of_pos (by simpa using share),
          List.getLast?_cons]
        cases (exts.filter fun extension =>
          decide (bigEndian (extension.head.take 2) = 0x0033 ∧
            2 ≤ extension.body.length)).getLast? with
        | none => rfl
        | some last => rfl
      · rw [if_neg share, List.filter_cons_of_neg (by simpa using share)]
        split
        · rfl
        · rfl

/-- A ServerHello without extensions makes the parser raise. -/
theorem readHello_of_cut {visit : σ → Nat → Bytes → Except ReadError σ} (init : σ)
    (select : Nat → σ → Option ρ) (hello : HelloMessage)
    (absent : hello.extensions = none)
    (later : Bytes) :
    readHello visit init select (hello.message ++ later) = .error
      (.structError shortBuffer) := by
  obtain ⟨long, -, sidLen, read, less⟩ := (hello.cutShort_message_iff later).mpr absent
  rw [readHello, if_neg (by omega), byteAt_zero (by omega)]
  rcases readFixed_cases (helloBody (hello.message ++ later)) with
    ⟨nothing, -⟩ | ⟨other, same, ⟨-, guarded⟩ | ⟨whole, -⟩⟩
  · rw [read] at nothing
    cases nothing
  · have type : (typeByte (hello.message ++ later)).toNat = 0x02 := rfl
    simp [bind, Except.bind, type, guarded]
  · rw [read, Option.some_inj] at same
    subst same
    omega

theorem TdsServer.parse_tunnel (server : TdsServer) :
    parseServerHelloGroup server.tunnel.payload =
      readHello visitGroup (0x0303, none) selectGroup
        (server.hello.message ++ server.flight) := by
  have number : ((server.tunnel.payload.drop 3).take 2) =
      u16 (server.hello.message ++ server.flight).length := by
    rw [server.tunnel_payload]
    rfl
  have record : (server.tunnel.payload.drop 5).take
      (server.hello.message ++ server.flight).length =
        server.hello.message ++ server.flight := by
    rw [server.tunnel_payload]
    exact List.take_left' rfl
  have long : ¬ server.tunnel.payload.length < 5 := by
    rw [server.tunnel_payload]
    simp
  have read : unpackU16 (u16 (server.hello.message ++ server.flight).length) =
      .ok (server.hello.message ++ server.flight).length := by
    have whole := @Hello.unpackU16_head [] _ server.record_small
    rwa [List.append_nil] at whole
  have type : byteAt server.tunnel.payload 0 = .ok 0x16 := by
    rw [server.tunnel_payload]
    rfl
  rw [parseServerHelloGroup, if_neg long, type, number, read]
  simp only [bind, Except.bind, record]
  rfl

/-- What the probe makes of the tunnelled ServerHello. -/
theorem TdsServer.judge_tunnel (server : TdsServer) (endpoint : Endpoint) :
    endpoint.judge (encryptLabel server.encryption) (some server.tunnel.payload) =
      match server.hello.extensions with
      | none => .error (.structError shortBuffer)
      | some exts => .ok (server.groupFinding endpoint exts) := by
  obtain ⟨first, rest, filled⟩ : ∃ first rest, server.tunnel.payload = first :: rest :=
    ⟨0x16, _, server.tunnel_payload⟩
  have parsed := server.parse_tunnel
  rw [filled] at parsed ⊢
  rw [Endpoint.judge]
  dsimp only
  rw [parsed]
  cases present : server.hello.extensions with
  | none =>
      rw [readHello_of_cut _ _ server.hello present]
      rfl
  | some exts =>
      rw [server.hello.readHello_message visitGroup_eq (0x0303, none) selectGroup present]
      have group := foldl_stepGroup exts (0x0303, none)
      rw [Option.or_none] at group
      dsimp only
      rw [TdsServer.groupFinding, ← group]
      rcases exts.foldl _ (0x0303, none) with ⟨version, none | code⟩
      · rfl
      · rfl

/-! ## Every server -/

/-- What is due when `cut` bytes of a server's stream arrive. -/
def TdsServer.due (server : TdsServer) (isDigit : Char → Bool) (endpoint : Endpoint)
    (prelogin : Bytes) (cut : Nat) : Outcome :=
  if cut < server.prelogin.bytes.length then ⟨[prelogin], [endpoint.unreadable], none⟩
  else if server.encryption = 0x02 then
    ⟨[prelogin], [endpoint.plaintext (encryptLabel server.encryption)], none⟩
  else
    match tunnelledHello isDigit endpoint.host with
    | .error raised => ⟨[prelogin], endpoint.stance server.encryption, some raised⟩
    | .ok hello =>
        if cut < server.prelogin.bytes.length + server.tunnel.bytes.length then
          ⟨[prelogin, hello], endpoint.stance server.encryption ++
            [endpoint.groupUnread (encryptLabel server.encryption)], none⟩
        else
          match server.hello.extensions with
          | none =>
              ⟨[prelogin, hello], endpoint.stance server.encryption,
                some (.structError shortBuffer)⟩
          | some exts =>
              ⟨[prelogin, hello], endpoint.stance server.encryption ++
                [server.groupFinding endpoint exts], none⟩

/-- Wherever the stream of a server ends, the probe reports its stance and the group of
its ServerHello as far as they have arrived; it raises when the ClientHello cannot be
built, and when a ServerHello without extensions has arrived. -/
theorem converse_due (server : TdsServer) (isDigit : Char → Bool) (endpoint : Endpoint)
    (cut : Nat) :
    ∃ prelogin, buildPrelogin = .ok prelogin ∧
      converse isDigit endpoint (server.bytes.take cut) =
        server.due isDigit endpoint prelogin cut := by
  obtain ⟨prelogin, built⟩ : ∃ prelogin, buildPrelogin = .ok prelogin := ⟨_, rfl⟩
  refine ⟨prelogin, built, ?_⟩
  rw [converse, built, TdsServer.due, TdsServer.bytes]
  dsimp only
  rw [readTds_take]
  by_cases short : cut < server.prelogin.bytes.length
  · rw [if_pos short, if_pos short]
    rfl
  · rw [if_neg short, if_neg short, Option.bind_some, server.parse_prelogin,
      Option.map_some]
    dsimp only
    by_cases plain : server.encryption = 0x02
    · rw [if_pos plain, if_pos plain]
    · rw [if_neg plain, if_neg plain]
      cases tunnelledHello isDigit endpoint.host with
      | error raised => rfl
      | ok hello =>
          dsimp only
          rw [readTds_take]
          by_cases part : cut < server.prelogin.bytes.length + server.tunnel.bytes.length
          · rw [if_pos part, if_pos (by omega)]
            rfl
          · rw [if_neg part, if_neg (by omega), Option.map_some, server.judge_tunnel]
            cases server.hello.extensions with
            | none => rfl
            | some exts => rfl

/-! ## A server with TLS 1.2 -/

theorem encryption_other : (0x01 : UInt8) ≠ 0xFF := by decide

theorem six_small : 6 < 65536 := by decide

theorem one_small : 1 < 65536 := by decide

/-- The option `ENCRYPTION` of the sample. -/
def encryptionOption : TdsOption := ⟨0x01, 6, 1, encryption_other, six_small, one_small⟩

/-- ENCRYPT_ON. -/
def onPayload : Bytes := optionBytes [encryptionOption] ++ [0xFF, 0x01]

theorem onPayload_short : 8 + onPayload.length < 65536 := by decide

/-- An answer that turns encryption on. -/
def onPrelogin : TdsPacket := ⟨[4, 1], [0, 0, 1, 0], onPayload, rfl, rfl, onPayload_short⟩

/-- A TLS 1.2 ServerHello in its record. -/
def tls12Payload : Bytes := [0x16, 3, 3] ++
  (u16 (tls12Hello.message ++ []).length ++ ((tls12Hello.message ++ []) ++ []))

theorem tls12Payload_short : 8 + tls12Payload.length < 65536 := by decide

/-- The record in a packet. -/
def tls12Tunnel : TdsPacket :=
  ⟨[4, 1], [0, 0, 1, 0], tls12Payload, rfl, rfl, tls12Payload_short⟩

theorem tls12Hello_small : (tls12Hello.message ++ []).length < 65536 := by decide

/-- It encrypts, and answers with a ServerHello without extensions. -/
def tls12Server : TdsServer where
  table := [encryptionOption]
  data := [0x01]
  entry := encryptionOption
  encryption := 0x01
  prelogin := onPrelogin
  hello := tls12Hello
  flight := []
  behind := []
  tunnel := tls12Tunnel
  later := []
  tokens_distinct := List.nodup_singleton _
  entry_listed := List.mem_singleton_self _
  entry_token := rfl
  entry_filled := Nat.one_pos
  prelogin_payload := rfl
  encryption_placed := rfl
  record_small := tls12Hello_small
  tunnel_payload := rfl

/-- The endpoint of the samples. -/
def dbEndpoint : Endpoint := ⟨"db".toList, 1433, 0⟩

theorem converse_due_tls12Server :
    (∃ prelogin, buildPrelogin = .ok prelogin ∧
      converse Char.isDigit dbEndpoint (tls12Server.bytes.take 1000) =
        tls12Server.due Char.isDigit dbEndpoint prelogin 1000) ∧
      (converse Char.isDigit dbEndpoint (tls12Server.bytes.take 1000)).raised =
        some (.structError shortBuffer) :=
  ⟨converse_due tls12Server Char.isDigit dbEndpoint 1000, by decide +kernel⟩

end NetDbMssqlTls
end Probes
end PqcScan
