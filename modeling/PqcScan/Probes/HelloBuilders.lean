import PqcScan.Probes.HelloRoundTrip
import PqcScan.Probes.IkePacket

/-!
# The ClientHello builders

`build_client_hello` of `probes/net_tls_kex_groups.py` and `probes/net_tls_versions.py`,
`build_client_hello_tls12` and `build_client_hello_tls13` of the certificate chain probes.
Whatever they return is read back by `parse_tls_handshake` as what they offer.
-/

namespace PqcScan
namespace Probes
namespace Hello

open Library Python

/-! ## Parts -/

/-- `_vec16`. -/
def vec16 (body : Bytes) : Except ReadError Bytes := do
  let head ← Ike.pack 2 body.length
  pure (head ++ body)

/-- `_extension` and `_ext`. -/
def extension (extType : Nat) (body : Bytes) : Except ReadError Bytes := do
  let head ← Ike.pack 2 extType
  let vec ← vec16 body
  pure (head ++ vec)

/-- `_u24`, and `struct.pack(">I", n)[1:]`. -/
def packU24 (n : Nat) : Except ReadError Bytes := do
  let bytes ← Ike.pack 4 n
  pure (bytes.drop 1)

/-- `b"".join(_u16(item) for item in items)`. -/
def joinU16 (items : List Nat) : Except ReadError Bytes := do
  let parts ← items.mapM (Ike.pack 2)
  pure parts.flatten

/-- `name.encode("idna")` of US-ASCII text: every label but the last has one to 63
characters, the last at most 63. -/
def encodeIdna (name : List Char) : Except ReadError Bytes :=
  let labels := name.splitOn '.'
  if labels.dropLast.any (·.isEmpty) ∨ labels.any (64 ≤ ·.length) then
    .error (.valueError "label empty or too long")
  else .ok (name.map fun char => UInt8.ofNat char.toNat)

/-- `server_name.encode("idna") if server_name.isascii() else server_name.encode()`. -/
def encodeName (serverName : List Char) : Except ReadError Bytes :=
  if serverName.all (·.toNat < 128) then encodeIdna serverName
  else .ok (serverName.flatMap String.utf8EncodeChar)

/-- The server_name extension of a name that is given and not empty. -/
def serverNameExtension : Option (List Char) → Except ReadError Bytes
  | none => pure []
  | some [] => pure []
  | some (first :: later) => do
      let host ← encodeName (first :: later)
      let hostName ← vec16 host
      let sni ← vec16 ([0] ++ hostName)
      extension 0x0000 sni

/-- The body, the handshake message and the record, from the parts that differ. -/
def assemble (legacyVersion random suites exts : Bytes) : Except ReadError Bytes := do
  let suites ← vec16 suites
  let exts ← vec16 exts
  let body := legacyVersion ++ random ++ [0] ++ suites ++ [1, 0] ++ exts
  let length ← packU24 body.length
  let handshake ← vec16 ([1] ++ length ++ body)
  pure ([0x16, 3, 1] ++ handshake)

/-- `_FIXED_RANDOM`. -/
def fixedRandom : Bytes := (List.range 32).map UInt8.ofNat

/-! ## The builders -/

namespace NetTlsKexGroups

/-- `_OFFER_ORDER`. -/
def offerOrder : List Nat :=
  [0x11EC, 0x11EB, 0x6399, 0x001D, 0x0017, 0x0018, 0x0019, 0x0101, 0x0100]

/-- The extensions without the server name. -/
def offeredExtensions : Except ReadError Bytes := do
  let groups ← joinU16 offerOrder
  let versions ← extension 0x002B ([2] ++ [3, 4])
  let supported ← extension 0x000A (← vec16 groups)
  let share ← extension 0x0033 (← vec16 [])
  let signatures ← extension 0x000D
    (← vec16 (← joinU16 [0x0403, 0x0804, 0x0401, 0x0805, 0x0806]))
  pure (versions ++ supported ++ share ++ signatures)

/-- `build_client_hello`. -/
def buildClientHello (serverName : Option (List Char)) (random : Bytes) :
    Except ReadError Bytes := do
  let exts ← offeredExtensions
  let sni ← serverNameExtension serverName
  assemble [3, 3] random [0x13, 1, 0x13, 2, 0x13, 3] (exts ++ sni)

end NetTlsKexGroups

namespace NetTlsVersions

/-- The extensions without the server name. -/
def offeredExtensions (isTls13 : Bool) : Except ReadError Bytes := do
  let versions ← if isTls13 then extension 0x002B ([2] ++ [3, 4]) else pure []
  let supported ← extension 0x000A (← vec16 (← joinU16 [0x001D, 0x0017, 0x0018, 0x11EC]))
  let signatures ← extension 0x000D
    (← vec16 (← joinU16 [0x0403, 0x0804, 0x0401, 0x0805, 0x0806]))
  let share ← if isTls13 then extension 0x0033 (← vec16 []) else pure []
  pure (versions ++ supported ++ signatures ++ share)

/-- `build_client_hello`. -/
def buildClientHello (version : Nat) (serverName : Option (List Char)) (random : Bytes) :
    Except ReadError Bytes := do
  let isTls13 := decide (0x0304 ≤ version)
  let legacyVersion := if isTls13 then 0x0303 else version
  let exts ← offeredExtensions isTls13
  let sni ← serverNameExtension serverName
  let legacyVersion ← Ike.pack 2 legacyVersion
  assemble legacyVersion random
    ([0x13, 1, 0x13, 2, 0x13, 3] ++ [0xC0, 0x2F, 0xC0, 0x30, 0, 0x9C, 0, 0x35, 0, 0x0A])
    (exts ++ sni)

end NetTlsVersions

namespace NetTlsCertChain

/-- `_CIPHERS`. -/
def ciphers : List Nat :=
  [0xC02B, 0xC02C, 0xC02F, 0xC030, 0x009C, 0x009D, 0xC013, 0xC014, 0x002F, 0x0035]

/-- The extensions without the server name. -/
def offeredExtensions : Except ReadError Bytes := do
  let groups ← extension 0x000A (← vec16 (← joinU16 [0x001D, 0x0017, 0x0018]))
  let ecPts ← extension 0x000B [1, 0]
  let sigalgs ← extension 0x000D
    (← vec16 (← joinU16 [0x0403, 0x0804, 0x0401, 0x0503, 0x0805, 0x0601]))
  pure (groups ++ ecPts ++ sigalgs)

/-- `build_client_hello_tls12`. -/
def buildClientHelloTls12 (serverName : Option (List Char)) (random : Bytes) :
    Except ReadError Bytes := do
  let exts ← offeredExtensions
  let sni ← serverNameExtension serverName
  let suites ← joinU16 ciphers
  assemble [3, 3] random suites (exts ++ sni)

end NetTlsCertChain

namespace NetTlsCertChainTls13

/-- `_SIG_ALGS`. -/
def sigAlgs : List Nat :=
  [0x0403, 0x0503, 0x0603, 0x0804, 0x0805, 0x0806, 0x0809, 0x080A, 0x080B, 0x0401, 0x0501,
    0x0601, 0x0807, 0x0808]

/-- The extensions without the server name. -/
def offeredExtensions (publicKey : Bytes) : Except ReadError Bytes := do
  let group ← Ike.pack 2 0x001D
  let key ← vec16 publicKey
  let keyShare := group ++ key
  let sigalgs ← joinU16 sigAlgs
  let versions ← extension 0x002B [2, 3, 4]
  let supported ← extension 0x000A (← vec16 (← Ike.pack 2 0x001D))
  let share ← extension 0x0033 (← vec16 keyShare)
  let signatures ← extension 0x000D (← vec16 sigalgs)
  pure (versions ++ supported ++ share ++ signatures)

/-- `build_client_hello_tls13`. -/
def buildClientHelloTls13 (serverName : Option (List Char)) (publicKey random : Bytes) :
    Except ReadError Bytes := do
  let exts ← offeredExtensions publicKey
  let sni ← serverNameExtension serverName
  assemble [3, 3] random [0x13, 1, 0x13, 2, 0x13, 3] (exts ++ sni)

end NetTlsCertChainTls13

/-! ## What the parts write -/

theorem pack_two {n : Nat} (small : n < 65536) : Ike.pack 2 n = .ok (u16 n) :=
  if_pos small

theorem vec16_ok {body out : Bytes} (built : vec16 body = .ok out) :
    body.length < 65536 ∧ out = u16 body.length ++ body := by
  unfold vec16 Ike.pack at built
  split at built
  · next small =>
      injection built with same
      exact ⟨small, same.symm⟩
  · cases built

theorem packU24_ok {n : Nat} (small : n < 65536) : packU24 n = .ok (u24 n) := by
  have packed : Ike.pack 4 n = .ok (bigBytes 4 n) := if_pos (by omega)
  have high : n / 256 / 256 = n / 65536 := Nat.div_div_eq_div_mul n 256 256
  rw [packU24, packed, u24, ← high]
  rfl

/-- Extensions that no list of `parse_tls_handshake` comes from. -/
structure Unread (exts : List ClientExtension) : Prop where
  versions : exts.filterMap ClientExtension.versions? = []
  groups : exts.flatMap ClientExtension.groups = []
  shareGroups : exts.flatMap ClientExtension.shareGroups = []

/-- The server_name extension is one that the parser passes over. -/
theorem serverNameExtension_ok {serverName : Option (List Char)} {sni : Bytes}
    (built : serverNameExtension serverName = .ok sni) :
    ∃ exts, sni = clientExtensions exts ∧ Unread exts := by
  unfold serverNameExtension at built
  split at built
  · injection built with same
    exact ⟨[], same.symm, rfl, rfl, rfl⟩
  · injection built with same
    exact ⟨[], same.symm, rfl, rfl, rfl⟩
  · rw [bind_eq_ok] at built
    obtain ⟨host, -, built⟩ := built
    rw [bind_eq_ok] at built
    obtain ⟨hostName, -, built⟩ := built
    rw [bind_eq_ok] at built
    obtain ⟨list, listed, built⟩ := built
    unfold extension at built
    rw [bind_eq_ok] at built
    obtain ⟨head, typed, built⟩ := built
    rw [bind_eq_ok] at built
    obtain ⟨vec, packed, built⟩ := built
    obtain ⟨small, rfl⟩ := vec16_ok packed
    injection built with same
    refine ⟨[.other 0 (by decide) list small], ?_, rfl, rfl, rfl⟩
    rw [← same, clientExtensions, List.flatMap_singleton]
    change head ++ _ = u16 0 ++ _
    have zero : Ike.pack 2 0x0000 = .ok (u16 0) := pack_two (by decide)
    rw [zero] at typed
    injection typed with headed
    rw [headed]
    rfl

/-- What `assemble` returns is read back. -/
theorem assemble_read {legacyVersion : UInt16} {random : Bytes} {suites : List UInt16}
    {exts : List ClientExtension} {data : Bytes} (random_length : random.length = 32)
    (built : assemble (u16 legacyVersion.toNat) random (shorts suites)
      (clientExtensions exts) =
      .ok data) :
    parseTlsHandshake data = .ok (some (.clientHello
      ⟨legacyVersion.toNat, suites.map UInt16.toNat,
        (exts.filterMap ClientExtension.versions?).getLast?.getD [],
        (exts.flatMap ClientExtension.groups ++
          exts.flatMap ClientExtension.shareGroups).eraseDups,
        exts.flatMap ClientExtension.shareGroups⟩)) := by
  unfold assemble at built
  rw [bind_eq_ok] at built
  obtain ⟨suiteVec, packed, built⟩ := built
  obtain ⟨-, rfl⟩ := vec16_ok packed
  rw [bind_eq_ok] at built
  obtain ⟨extVec, packed, built⟩ := built
  obtain ⟨-, rfl⟩ := vec16_ok packed
  dsimp only at built
  have layout : u16 legacyVersion.toNat ++ random ++ [0] ++
      (u16 (shorts suites).length ++ shorts suites) ++ [1, 0] ++
        (u16 (clientExtensions exts).length ++ clientExtensions exts) =
      clientBody legacyVersion random [] suites [0] (some (clientExtensions exts)) := by
    rw [length_shorts]
    simp only [clientBody, opening, extensionBlock, List.append_assoc, List.cons_append,
      List.nil_append, List.length_nil, List.length_singleton]
    rfl
  rw [layout, bind_eq_ok] at built
  obtain ⟨length, told, built⟩ := built
  rw [bind_eq_ok] at built
  obtain ⟨handshake, packed, built⟩ := built
  obtain ⟨small, rfl⟩ := vec16_ok packed
  have below : (clientBody legacyVersion random [] suites [0]
      (some (clientExtensions exts))).length < 65536 := by
    rw [List.length_append] at small
    omega
  rw [packU24_ok below] at told
  injection told with three
  rw [← three] at small built
  injection built with same
  have fits : (clientBody legacyVersion random [] suites [0]
      (some (clientExtensions exts))).length + 4 < 65536 := by
    simp only [List.length_append, List.length_singleton, length_u24] at small
    omega
  have read := parseTlsHandshake_client
    ⟨legacyVersion, random, [], suites, [0], some exts,
      random_length, by decide, by decide, fits⟩ 3 1 []
  rw [List.append_nil] at read
  rw [← same]
  refine Eq.trans (congrArg parseTlsHandshake ?_) read
  rw [record, ClientHello.body, Option.map_some]
  congr 3

/-- The extensions of a builder and a server name are read as those of the builder. -/
theorem assemble_read_named {legacyVersion : UInt16} {random : Bytes}
    {suites : List UInt16}
    {exts : List ClientExtension} {serverName : Option (List Char)} {sni data : Bytes}
    (random_length : random.length = 32)
    (named : serverNameExtension serverName = .ok sni)
    (built : assemble (u16 legacyVersion.toNat) random (shorts suites)
      (clientExtensions exts ++ sni) = .ok data) :
    parseTlsHandshake data = .ok (some (.clientHello
      ⟨legacyVersion.toNat, suites.map UInt16.toNat,
        (exts.filterMap ClientExtension.versions?).getLast?.getD [],
        (exts.flatMap ClientExtension.groups ++
          exts.flatMap ClientExtension.shareGroups).eraseDups,
        exts.flatMap ClientExtension.shareGroups⟩)) := by
  obtain ⟨last, rfl, unread⟩ := serverNameExtension_ok named
  have together : clientExtensions exts ++ clientExtensions last =
      clientExtensions (exts ++ last) := by
    rw [clientExtensions, clientExtensions, clientExtensions, List.flatMap_append]
  rw [together] at built
  have read := assemble_read random_length built
  rwa [List.filterMap_append, List.flatMap_append, List.flatMap_append, unread.versions,
    unread.groups, unread.shareGroups, List.append_nil, List.append_nil,
    List.append_nil] at read

/-! ## What the builders offer -/

/-- The cipher suites of TLS 1.3. -/
def tls13Suites : List UInt16 := [0x1301, 0x1302, 0x1303]

theorem shorts_tls13Suites : shorts tls13Suites = [0x13, 1, 0x13, 2, 0x13, 3] := by
  decide

theorem u16_tls12 : u16 (0x0303 : UInt16).toNat = [3, 3] := by
  decide

namespace NetTlsKexGroups

/-- The extensions without the server name. -/
def offer : List ClientExtension :=
  [.supportedVersions [0x0304] (by decide),
    .supportedGroups [0x11EC, 0x11EB, 0x6399, 0x001D, 0x0017, 0x0018, 0x0019,
      0x0101, 0x0100]
      (by decide),
    .keyShare [] (by decide),
    .other 0x000D (by decide) (u16 10 ++ shorts [0x0403, 0x0804, 0x0401, 0x0805, 0x0806])
      (by decide)]

theorem buildClientHello_read {serverName : Option (List Char)} {random data : Bytes}
    (random_length : random.length = 32)
    (built : buildClientHello serverName random = .ok data) :
    parseTlsHandshake data = .ok (some (.clientHello
      ⟨0x0303, [0x1301, 0x1302, 0x1303], [0x0304], offerOrder, []⟩)) := by
  have offered : offeredExtensions = .ok (clientExtensions offer) := by decide
  rw [buildClientHello, offered, ok_bind, bind_eq_ok] at built
  obtain ⟨sni, named, built⟩ := built
  rw [← shorts_tls13Suites, ← u16_tls12] at built
  rw [assemble_read_named random_length named built]
  decide

end NetTlsKexGroups

namespace NetTlsVersions

/-- The extensions without the server name. -/
def offer (isTls13 : Bool) : List ClientExtension :=
  (if isTls13 then [.supportedVersions [0x0304] (by decide)] else []) ++
    [.supportedGroups [0x001D, 0x0017, 0x0018, 0x11EC] (by decide),
      .other 0x000D (by decide)
        (u16 10 ++ shorts [0x0403, 0x0804, 0x0401, 0x0805, 0x0806])
        (by decide)] ++
    (if isTls13 then [.keyShare [] (by decide)] else [])

/-- The cipher suites of every hello of the sweep. -/
def suites : List UInt16 :=
  [0x1301, 0x1302, 0x1303, 0xC02F, 0xC030, 0x009C, 0x0035, 0x000A]

theorem buildClientHello_read {version : Nat} {serverName : Option (List Char)}
    {random data : Bytes} (random_length : random.length = 32)
    (built : buildClientHello version serverName random = .ok data) :
    parseTlsHandshake data = .ok (some (.clientHello
      ⟨if 0x0304 ≤ version then 0x0303 else version, suites.map UInt16.toNat,
        if 0x0304 ≤ version then [0x0304] else [],
          [0x001D, 0x0017, 0x0018, 0x11EC], []⟩)) := by
  have offered : ∀ isTls13,
      offeredExtensions isTls13 = .ok (clientExtensions (offer isTls13)) := by
    decide
  have encoded : ([0x13, 1, 0x13, 2, 0x13, 3] ++
      [0xC0, 0x2F, 0xC0, 0x30, 0, 0x9C, 0, 0x35, 0, 0x0A] : Bytes) = shorts suites := by
    decide
  have lists : ∀ isTls13 : Bool,
      ((offer isTls13).filterMap ClientExtension.versions?).getLast?.getD [] =
          (if isTls13 then [0x0304] else []) ∧
        ((offer isTls13).flatMap ClientExtension.groups ++
          (offer isTls13).flatMap ClientExtension.shareGroups).eraseDups =
            [0x001D, 0x0017, 0x0018, 0x11EC] ∧
        (offer isTls13).flatMap ClientExtension.shareGroups = [] := by
    decide
  obtain ⟨versions, groups, shares⟩ := lists (decide (0x0304 ≤ version))
  obtain ⟨legacyVersion, legacy⟩ : ∃ legacyVersion : UInt16,
      legacyVersion.toNat = if 0x0304 ≤ version then 0x0303 else version := by
    refine ⟨UInt16.ofNat (if 0x0304 ≤ version then 0x0303 else version), ?_⟩
    rw [UInt16.toNat_ofNat']
    apply Nat.mod_eq_of_lt
    split
    · decide
    · omega
  have packed : Ike.pack 2 (if decide (0x0304 ≤ version) = true then 0x0303
      else version) =
      .ok (u16 legacyVersion.toNat) := by
    rw [legacy]
    simp only [decide_eq_true_eq]
    apply pack_two
    rw [← legacy]
    exact toNat_lt legacyVersion
  unfold buildClientHello at built
  dsimp only at built
  rw [offered, ok_bind, bind_eq_ok] at built
  obtain ⟨sni, named, built⟩ := built
  rw [packed, ok_bind, encoded] at built
  rw [assemble_read_named random_length named built, versions, groups, shares, legacy]
  simp only [decide_eq_true_eq]

end NetTlsVersions

namespace NetTlsCertChain

/-- The extensions without the server name. -/
def offer : List ClientExtension :=
  [.supportedGroups [0x001D, 0x0017, 0x0018] (by decide),
    .other 0x000B (by decide) [1, 0] (by decide),
    .other 0x000D (by decide)
      (u16 12 ++ shorts [0x0403, 0x0804, 0x0401, 0x0503, 0x0805, 0x0601]) (by decide)]

theorem buildClientHelloTls12_read {serverName : Option (List Char)} {random data : Bytes}
    (random_length : random.length = 32)
    (built : buildClientHelloTls12 serverName random = .ok data) :
    parseTlsHandshake data = .ok (some (.clientHello
      ⟨0x0303, ciphers, [], [0x001D, 0x0017, 0x0018], []⟩)) := by
  have offered : offeredExtensions = .ok (clientExtensions offer) := by decide
  have joined : joinU16 ciphers = .ok (shorts (ciphers.map UInt16.ofNat)) := by decide
  rw [buildClientHelloTls12, offered, ok_bind, bind_eq_ok] at built
  obtain ⟨sni, named, built⟩ := built
  rw [joined, ok_bind, ← u16_tls12] at built
  rw [assemble_read_named random_length named built]
  decide

end NetTlsCertChain

namespace NetTlsCertChainTls13

/-- The extensions without the server name. -/
def offer (share : Share) (small : (shareBytes [share]).length + 2 < 65536) :
    List ClientExtension :=
  [.supportedVersions [0x0304] (by decide), .supportedGroups [0x001D] (by decide),
    .keyShare [share] small,
    .other 0x000D (by decide) (u16 28 ++ shorts (sigAlgs.map UInt16.ofNat)) (by decide)]

/-- The extensions that are built carry the public key. -/
theorem offeredExtensions_ok {publicKey exts : Bytes}
    (built : offeredExtensions publicKey = .ok exts) :
    ∃ share small, share.group = 0x001D ∧ share.key = publicKey ∧
      exts = clientExtensions (offer share small) := by
  have sigalgs : joinU16 sigAlgs = .ok (shorts (sigAlgs.map UInt16.ofNat)) := by
    decide
  have versions : extension 0x002B [2, 3, 4] = .ok (field 0x002B [2, 3, 4]) := by
    decide
  have groups : vec16 (u16 0x001D) = .ok (u16 2 ++ u16 0x001D) := by decide
  have supported : extension 0x000A (u16 2 ++ u16 0x001D) =
      .ok (field 0x000A (u16 2 ++ u16 0x001D)) := by
    decide
  have algs : vec16 (shorts (sigAlgs.map UInt16.ofNat)) =
      .ok (u16 28 ++ shorts (sigAlgs.map UInt16.ofNat)) := by
    decide
  have signatures : extension 0x000D (u16 28 ++ shorts (sigAlgs.map UInt16.ofNat)) =
      .ok (field 0x000D (u16 28 ++ shorts (sigAlgs.map UInt16.ofNat))) := by
    decide
  rw [offeredExtensions, pack_two (by decide), ok_bind, bind_eq_ok] at built
  obtain ⟨key, packed, built⟩ := built
  obtain ⟨keySmall, rfl⟩ := vec16_ok packed
  dsimp only at built
  rw [sigalgs, ok_bind, versions, ok_bind, ok_bind, groups, ok_bind, supported, ok_bind,
    bind_eq_ok] at built
  obtain ⟨list, packed, built⟩ := built
  obtain ⟨listSmall, rfl⟩ := vec16_ok packed
  rw [bind_eq_ok] at built
  obtain ⟨share, written, built⟩ := built
  rw [algs, ok_bind, signatures, ok_bind] at built
  injection built with same
  have entry : u16 0x001D ++ (u16 publicKey.length ++ publicKey) =
      shareBytes [⟨0x001D, publicKey, keySmall⟩] := (List.append_nil _).symm
  rw [entry] at written listSmall
  unfold extension at written
  rw [pack_two (by decide), ok_bind, bind_eq_ok] at written
  obtain ⟨vec, packed, written⟩ := written
  obtain ⟨vecSmall, rfl⟩ := vec16_ok packed
  injection written with written
  rw [List.length_append, length_u16] at vecSmall
  refine ⟨⟨0x001D, publicKey, keySmall⟩, by omega, rfl, rfl, ?_⟩
  rw [← same, ← written]
  rfl

theorem buildClientHelloTls13_read {serverName : Option (List Char)}
    {publicKey random data : Bytes} (random_length : random.length = 32)
    (built : buildClientHelloTls13 serverName publicKey random = .ok data) :
    parseTlsHandshake data = .ok (some (.clientHello
      ⟨0x0303, [0x1301, 0x1302, 0x1303], [0x0304], [0x001D], [0x001D]⟩)) := by
  rw [buildClientHelloTls13, bind_eq_ok] at built
  obtain ⟨exts, offered, built⟩ := built
  rw [bind_eq_ok] at built
  obtain ⟨sni, named, built⟩ := built
  obtain ⟨share, small, group, -, rfl⟩ := offeredExtensions_ok offered
  rw [← shorts_tls13Suites, ← u16_tls12] at built
  rw [assemble_read_named random_length named built]
  have shares : (offer share small).flatMap ClientExtension.shareGroups = [0x001D] := by
    change [share.group.toNat] = _
    rw [group]
    rfl
  have groups : (offer share small).flatMap ClientExtension.groups = [0x001D] := rfl
  have versions : (offer share small).filterMap ClientExtension.versions? = [[0x0304]] :=
    rfl
  rw [shares, groups, versions]
  decide

end NetTlsCertChainTls13

/-- `parse_tls_handshake` undoes the encoding of every ClientHello and ServerHello in one
record, whatever follows it, and reads what each of the four builders offers, for every
server name and public key. -/
theorem hello_round_trip :
    (∀ (hello : ClientHello) (major minor : UInt8) (rest : Bytes),
      parseTlsHandshake (record 0x01 major minor hello.body ++ rest) =
        .ok (some (.clientHello hello.fields))) ∧
    (∀ (hello : ServerHello) (major minor : UInt8) (rest : Bytes),
      parseTlsHandshake (record 0x02 major minor hello.body ++ rest) =
        .ok (some (.serverHello hello.fields))) ∧
    ∀ (serverName : Option (List Char)) (random data : Bytes), random.length = 32 →
      (NetTlsKexGroups.buildClientHello serverName random = .ok data →
        parseTlsHandshake data = .ok
          (some (.clientHello ⟨0x0303, [0x1301, 0x1302, 0x1303],
          [0x0304], NetTlsKexGroups.offerOrder, []⟩))) ∧
      (∀ version, NetTlsVersions.buildClientHello version serverName random = .ok data →
        parseTlsHandshake data = .ok (some (.clientHello
          ⟨if 0x0304 ≤ version then 0x0303 else version,
            NetTlsVersions.suites.map UInt16.toNat,
            if 0x0304 ≤ version then [0x0304] else [],
            [0x001D, 0x0017, 0x0018, 0x11EC], []⟩))) ∧
      (NetTlsCertChain.buildClientHelloTls12 serverName random = .ok data →
        parseTlsHandshake data = .ok (some (.clientHello
          ⟨0x0303, NetTlsCertChain.ciphers, [], [0x001D, 0x0017, 0x0018], []⟩))) ∧
      ∀ publicKey,
        NetTlsCertChainTls13.buildClientHelloTls13 serverName publicKey random =
          .ok data →
          parseTlsHandshake data = .ok (some (.clientHello
            ⟨0x0303, [0x1301, 0x1302, 0x1303], [0x0304], [0x001D], [0x001D]⟩)) := by
  refine ⟨parseTlsHandshake_client, parseTlsHandshake_server, ?_⟩
  intro serverName random data random_length
  refine ⟨?_, ?_, ?_, ?_⟩
  · exact NetTlsKexGroups.buildClientHello_read random_length
  · intro version
    exact NetTlsVersions.buildClientHello_read random_length
  · exact NetTlsCertChain.buildClientHelloTls12_read random_length
  · intro publicKey
    exact NetTlsCertChainTls13.buildClientHelloTls13_read random_length

/-- The hello of a server that takes a hybrid group, with an extension that is not read
between the two that are. -/
def hybridServer : ServerHello where
  legacyVersion := 0x0303
  random := fixedRandom
  sessionId := [7, 7]
  cipher := 0x1302
  compression := 0
  extensions := some [.supportedVersions 0x0304,
    .other 0x0029 (by decide) [0, 1] (by decide), .keyShare 0x11EC [9, 9, 9] (by decide)]
  random_length := by decide
  sessionId_small := by decide
  body_small := by decide +kernel

/-- The hello of the certificate chain probe for `www.example.com`, and that of a server
with a record behind it. -/
theorem hello_round_trip_named :
    (∃ data, NetTlsCertChainTls13.buildClientHelloTls13 (some "www.example.com".toList)
        (zeros 32) fixedRandom = .ok data ∧
      parseTlsHandshake data = .ok (some (.clientHello
        ⟨0x0303, [0x1301, 0x1302, 0x1303], [0x0304], [0x001D], [0x001D]⟩))) ∧
    parseTlsHandshake (record 0x02 3 3 hybridServer.body ++ [0x14, 3, 3, 0, 1, 1]) =
      .ok (some (.serverHello ⟨0x0303, 0x1302, some 0x0304, some 0x11EC⟩)) := by
  refine ⟨?_, hello_round_trip.2.1 hybridServer 3 3 _⟩
  have returned : succeedsWith (NetTlsCertChainTls13.buildClientHelloTls13
      (some "www.example.com".toList) (zeros 32) fixedRandom) (fun _ => true) = true := by
    decide +kernel
  obtain ⟨data, built, -⟩ := succeedsWith_iff.mp returned
  have random_length : fixedRandom.length = 32 := by decide
  exact ⟨data, built, (hello_round_trip.2.2 _ _ data random_length).2.2.2 _ built⟩

end Hello
end Probes
end PqcScan
