import PqcScan.Probes.ByteOrder
import PqcScan.Probes.TlsHello

/-!
# Reading hello messages back

Well-formed ClientHello and ServerHello messages in one record, and what
`parse_tls_handshake` reads of them.
-/

namespace PqcScan
namespace Probes
namespace Hello

open Library Python

/-! ## Messages -/

/-- A type or a group, the length of a value, and the value. -/
def field (type : Nat) (value : Bytes) : Bytes := u16 type ++ (u16 value.length ++ value)

/-- 16-bit numbers one after the other. -/
def shorts (items : List UInt16) : Bytes := items.flatMap fun item => u16 item.toNat

/-- An entry of a key_share. -/
structure Share where
  group : UInt16
  key : Bytes
  key_small : key.length < 65536

/-- The entries of `key_share`. -/
def shareBytes (shares : List Share) : Bytes :=
  shares.flatMap fun share => field share.group.toNat share.key

/-- The extensions of a ClientHello: three that are read, and any other. -/
inductive ClientExtension
  | supportedVersions (versions : List UInt16) (small : 2 * versions.length < 256)
  | supportedGroups (groups : List UInt16) (small : 2 * groups.length + 2 < 65536)
  | keyShare (shares : List Share) (small : (shareBytes shares).length + 2 < 65536)
  | other (type : UInt16) (unread : type.toNat ∉ [0x002B, 0x000A, 0x0033]) (value : Bytes)
      (small : value.length < 65536)

namespace ClientExtension

/-- The code of an extension. -/
def type : ClientExtension → Nat
  | supportedVersions _ _ => 0x002B
  | supportedGroups _ _ => 0x000A
  | keyShare _ _ => 0x0033
  | other type _ _ _ => type.toNat

/-- The body of an extension. -/
def value : ClientExtension → Bytes
  | supportedVersions versions _ => UInt8.ofNat (2 * versions.length) :: shorts versions
  | supportedGroups groups _ => u16 (2 * groups.length) ++ shorts groups
  | keyShare shares _ => u16 (shareBytes shares).length ++ shareBytes shares
  | other _ _ value _ => value

/-- The versions that `supported_versions` lists. -/
def versions? : ClientExtension → Option (List Nat)
  | supportedVersions versions _ => some (versions.map UInt16.toNat)
  | _ => none

/-- The groups that `supported_groups` lists. -/
def groups : ClientExtension → List Nat
  | supportedGroups groups _ => groups.map UInt16.toNat
  | _ => []

/-- The groups with a share. -/
def shareGroups : ClientExtension → List Nat
  | keyShare shares _ => shares.map fun share => share.group.toNat
  | _ => []

end ClientExtension

/-- The extensions of a ServerHello: two that are read, and any other. -/
inductive ServerExtension
  | supportedVersions (version : UInt16)
  | keyShare (group : UInt16) (exchange : Bytes) (small : exchange.length + 2 < 65536)
  | other (type : UInt16) (unread : type.toNat ∉ [0x002B, 0x0033]) (value : Bytes)
      (small : value.length < 65536)

namespace ServerExtension

/-- The code of an extension. -/
def type : ServerExtension → Nat
  | supportedVersions _ => 0x002B
  | keyShare _ _ _ => 0x0033
  | other type _ _ _ => type.toNat

/-- The body of an extension. -/
def value : ServerExtension → Bytes
  | supportedVersions version => u16 version.toNat
  | keyShare group exchange _ => u16 group.toNat ++ exchange
  | other _ _ value _ => value

/-- The version that `supported_versions` selects. -/
def version? : ServerExtension → Option Nat
  | supportedVersions version => some version.toNat
  | _ => none

/-- The group that `key_share` selects. -/
def group? : ServerExtension → Option Nat
  | keyShare group _ _ => some group.toNat
  | _ => none

end ServerExtension

/-- The extensions as they are sent. -/
def clientExtensions (exts : List ClientExtension) : Bytes :=
  exts.flatMap fun ext => field ext.type ext.value

/-- The extensions as they are sent. -/
def serverExtensions (exts : List ServerExtension) : Bytes :=
  exts.flatMap fun ext => field ext.type ext.value

/-- The extensions with their length, or nothing. -/
def extensionBlock : Option Bytes → Bytes
  | none => []
  | some exts => u16 exts.length ++ exts

/-- What precedes the cipher suites of either hello. -/
def opening (legacyVersion : UInt16) (random sessionId : Bytes) : Bytes :=
  u16 legacyVersion.toNat ++ (random ++ (UInt8.ofNat sessionId.length :: sessionId))

/-- The body of a ClientHello. -/
def clientBody (legacyVersion : UInt16) (random sessionId : Bytes) (suites : List UInt16)
    (compressions : Bytes) (exts : Option Bytes) : Bytes :=
  opening legacyVersion random sessionId ++ (u16 (2 * suites.length) ++ (shorts suites ++
    (UInt8.ofNat compressions.length :: compressions ++ extensionBlock exts)))

/-- The body of a ServerHello. -/
def serverBody (legacyVersion : UInt16) (random sessionId : Bytes) (cipher : UInt16)
    (compression : UInt8) (exts : Option Bytes) : Bytes :=
  opening legacyVersion random sessionId ++
    (u16 cipher.toNat ++ [compression] ++ extensionBlock exts)

/-- A handshake message in one record of any version. -/
def record (type major minor : UInt8) (body : Bytes) : Bytes :=
  [0x16, major, minor] ++ (u16 (body.length + 4) ++ ([type] ++ u24 body.length ++ body))

/-- A well-formed ClientHello that fits into one record. -/
structure ClientHello where
  legacyVersion : UInt16
  random : Bytes
  sessionId : Bytes
  cipherSuites : List UInt16
  compressions : Bytes
  extensions : Option (List ClientExtension)
  random_length : random.length = 32
  sessionId_small : sessionId.length < 256
  compressions_small : compressions.length < 256
  body_small : (clientBody legacyVersion random sessionId cipherSuites compressions
    (extensions.map clientExtensions)).length + 4 < 65536

/-- A well-formed ServerHello that fits into one record. -/
structure ServerHello where
  legacyVersion : UInt16
  random : Bytes
  sessionId : Bytes
  cipher : UInt16
  compression : UInt8
  extensions : Option (List ServerExtension)
  random_length : random.length = 32
  sessionId_small : sessionId.length < 256
  body_small : (serverBody legacyVersion random sessionId cipher compression
    (extensions.map serverExtensions)).length + 4 < 65536

namespace ClientHello

variable (hello : ClientHello)

/-- The body of the handshake message. -/
def body : Bytes :=
  clientBody hello.legacyVersion hello.random hello.sessionId hello.cipherSuites
    hello.compressions (hello.extensions.map clientExtensions)

/-- The extensions, if there are any. -/
def exts : List ClientExtension := hello.extensions.getD []

/-- The versions of supported_versions. -/
def versions : List Nat :=
  (hello.exts.filterMap ClientExtension.versions?).getLast?.getD []

/-- The groups of all `supported_groups`. -/
def supportedGroups : List Nat := hello.exts.flatMap ClientExtension.groups

/-- The groups of all `key_share`. -/
def keyShareGroups : List Nat := hello.exts.flatMap ClientExtension.shareGroups

/-- What the hello offers; a group counts at its first occurrence. -/
def fields : ClientFields where
  legacyVersion := hello.legacyVersion.toNat
  cipherSuites := hello.cipherSuites.map UInt16.toNat
  versions := hello.versions
  groups := (hello.supportedGroups ++ hello.keyShareGroups).eraseDups
  keyShareGroups := hello.keyShareGroups

end ClientHello

namespace ServerHello

variable (hello : ServerHello)

/-- The body of the handshake message. -/
def body : Bytes :=
  serverBody hello.legacyVersion hello.random hello.sessionId hello.cipher
    hello.compression
    (hello.extensions.map serverExtensions)

/-- The extensions, if there are any. -/
def exts : List ServerExtension := hello.extensions.getD []

/-- What the hello selects. -/
def fields : ServerFields where
  legacyVersion := hello.legacyVersion.toNat
  cipher := hello.cipher.toNat
  selectedVersion := (hello.exts.filterMap ServerExtension.version?).getLast?
  group := (hello.exts.filterMap ServerExtension.group?).getLast?

end ServerHello

/-! ## Reads at an offset -/

theorem toNat_lt (item : UInt16) : item.toNat < 65536 := item.toNat_lt

theorem unpackU16_at {bytes rest : Bytes} {off n : Nat}
    (placed : bytes.drop off = u16 n ++ rest)
    (small : n < 65536) : unpackU16 ((bytes.drop off).take 2) = .ok n := by
  have sizes := congrArg List.length placed
  rw [List.length_drop, List.length_append, length_u16] at sizes
  rw [unpackU16_window (by omega), placed, List.take_left' (length_u16 n),
    bigEndian_u16 small]

theorem unpackU16_head {rest : Bytes} {n : Nat} (small : n < 65536) :
    unpackU16 ((u16 n ++ rest).take 2) = .ok n :=
  @unpackU16_at (u16 n ++ rest) rest 0 n rfl small

theorem byteAt_at {bytes rest : Bytes} {off : Nat} {byte : UInt8}
    (placed : bytes.drop off = byte :: rest) : byteAt bytes off = .ok byte.toNat := by
  have read : bytes[off]? = some byte := by
    have first := congrArg (·[0]?) placed
    simpa using first
  rw [byteAt, read]

/-- What stands after a part. -/
theorem drop_after {bytes part rest : Bytes} {off next : Nat}
    (placed : bytes.drop off = part ++ rest) (after : next = off + part.length) :
    bytes.drop next = rest := by
  rw [after, ← List.drop_drop, placed, List.drop_left' rfl]

theorem length_shorts (items : List UInt16) :
    (shorts items).length = 2 * items.length := by
  induction items with
  | nil => rfl
  | cons item items inductionHypothesis =>
      change (u16 item.toNat ++ shorts items).length = _
      rw [List.length_append, inductionHypothesis, length_u16, List.length_cons]
      omega

theorem drop_shorts (items : List UInt16) (i : Nat) :
    (shorts items).drop (2 * i) = shorts (items.drop i) := by
  induction i generalizing items with
  | zero => rfl
  | succ i inductionHypothesis =>
      cases items with
      | nil => rw [List.drop_nil, shorts, List.flatMap_nil, List.drop_nil]
      | cons item items =>
          rw [List.drop_succ_cons, ← inductionHypothesis, Nat.mul_succ, Nat.add_comm,
            ← List.drop_drop]
          rfl

/-- Numbers are read back, whatever follows them. -/
theorem unpackU16s_shorts (items : List UInt16) (rest : Bytes) :
    unpackU16s (2 * items.length) (shorts items ++ rest) = .ok
      (items.map UInt16.toNat) := by
  have half : 2 * items.length / 2 = items.length := by omega
  have each : ∀ i ∈ List.range items.length,
      unpackU16 (((shorts items ++ rest).drop (2 * i)).take 2) =
        .ok ((items[i]?.map UInt16.toNat).getD 0) := by
    intro i member
    have inside := List.mem_range.mp member
    have placed : (shorts items ++ rest).drop (2 * i) =
        u16 items[i].toNat ++ (shorts (items.drop (i + 1)) ++ rest) := by
      rw [List.drop_append_of_le_length (by rw [length_shorts]; omega), drop_shorts,
        List.drop_eq_getElem_cons inside, ← List.append_assoc]
      rfl
    rw [unpackU16_at placed (toNat_lt _), List.getElem?_eq_getElem inside]
    rfl
  rw [unpackU16s, half, mapM_ok each]
  congr 1
  apply List.ext_getElem
  · simp
  · intro i left right
    have inside : i < items.length := by simpa using left
    simp [List.getElem?_eq_getElem inside]

/-! ## The loops -/

/-- The loop over some fields that the visitor understands. -/
theorem scanExtensions_fields {α : Type} {items : List α} {type : α → Nat}
    {value : α → Bytes}
    {visit : σ → Nat → Bytes → Except ReadError σ} {next : σ → α → σ}
    {fuel : Nat} (state : σ)
    (fits : ∀ item ∈ items, type item < 65536 ∧ (value item).length < 65536)
    (understood : ∀ item ∈ items, ∀ state,
      visit state (type item) (value item) = .ok (next state item))
    (enough : (items.flatMap fun item => field (type item) (value item)).length ≤ fuel) :
    scanExtensions visit fuel state
        (items.flatMap fun item => field (type item) (value item)) =
      .ok (items.foldl next state) := by
  induction items generalizing fuel state with
  | nil =>
      cases fuel with
      | zero => rfl
      | succ fuel => rfl
  | cons item items inductionHypothesis =>
      have small := fits item List.mem_cons_self
      rw [List.flatMap_cons] at enough ⊢
      have size : (field (type item) (value item)).length = 4 + (value item).length := by
        simp only [field, List.length_append, length_u16]
        omega
      rw [List.length_append, size] at enough
      cases fuel with
      | zero => omega
      | succ fuel =>
          have long : 4 ≤ (field (type item) (value item) ++
              items.flatMap fun item => field (type item) (value item)).length := by
            rw [List.length_append, size]
            omega
          have placed : (field (type item) (value item) ++
              items.flatMap fun item => field (type item) (value item)).drop 2 =
                u16 (value item).length ++ (value item ++
                  items.flatMap fun item => field (type item) (value item)) := by
            rw [field, List.append_assoc, List.append_assoc]
            exact List.drop_left' (length_u16 _)
          have inner := drop_after placed (show 4 = 2 + _ by rw [length_u16])
          rw [scanExtensions, if_pos long, unpackU16_at placed small.2, field,
            List.append_assoc, unpackU16_head small.1]
          rw [field, List.append_assoc] at inner
          simp only [bind, Except.bind]
          rw [inner, List.take_left' rfl,
            understood item List.mem_cons_self, ← List.drop_drop, inner,
            List.drop_left' rfl]
          apply inductionHypothesis
          · intro other member
            exact fits other (List.mem_cons_of_mem _ member)
          · intro other member
            exact understood other (List.mem_cons_of_mem _ member)
          · omega

theorem parseKeyShareGroups_shares (shares : List Share) :
    parseKeyShareGroups (shareBytes shares) =
      .ok (shares.map fun share => share.group.toNat) := by
  have general : ∀ out : List Nat,
      shares.foldl (fun out share => out ++ [share.group.toNat]) out =
        out ++ shares.map fun share => share.group.toNat := by
    induction shares with
    | nil => simp
    | cons share shares inductionHypothesis => simp [inductionHypothesis]
  rw [← List.nil_append (List.map _ _), ← general]
  apply scanExtensions_fields
  · intro share _
    exact ⟨toNat_lt _, share.key_small⟩
  · intro share _ out
    rfl
  · exact le_refl _

/-- What an extension adds to the offers. -/
def addOffers (offers : Offers) (ext : ClientExtension) : Offers where
  versions := ext.versions?.getD offers.versions
  supportedGroups := offers.supportedGroups ++ ext.groups
  keyShareGroups := offers.keyShareGroups ++ ext.shareGroups

theorem clientExtension_value (offers : Offers) (ext : ClientExtension) :
    clientExtension offers ext.type ext.value = .ok (addOffers offers ext) := by
  cases ext with
  | supportedVersions versions small =>
      have count : (UInt8.ofNat (2 * versions.length)).toNat = 2 * versions.length := by
        rw [UInt8.toNat_ofNat', Nat.mod_eq_of_lt small]
      have read := unpackU16s_shorts versions []
      rw [List.append_nil] at read
      rw [clientExtension, if_pos ⟨rfl, List.cons_ne_nil _ _⟩, ClientExtension.value,
        byteAt_at (List.drop_zero ..), count]
      simp only [bind, Except.bind]
      rw [List.drop_one, List.tail_cons, read]
      simp [addOffers, ClientExtension.versions?, ClientExtension.groups,
        ClientExtension.shareGroups, pure, Except.pure]
  | supportedGroups groups small =>
      have read := unpackU16s_shorts groups []
      rw [List.append_nil, ← length_shorts] at read
      have long : 2 ≤ (ClientExtension.supportedGroups groups small).value.length := by
        rw [ClientExtension.value, List.length_append, length_u16]
        omega
      rw [clientExtension, if_neg (by simp [ClientExtension.type]), if_pos ⟨rfl, long⟩,
        ClientExtension.value, unpackU16_head (by omega)]
      simp only [bind, Except.bind]
      rw [List.drop_left' (length_u16 _), ← length_shorts, List.take_length, read]
      simp [addOffers, ClientExtension.versions?, ClientExtension.groups,
        ClientExtension.shareGroups, pure, Except.pure]
  | keyShare shares small =>
      have long : 2 ≤ (ClientExtension.keyShare shares small).value.length := by
        rw [ClientExtension.value, List.length_append, length_u16]
        omega
      rw [clientExtension, if_neg (by simp [ClientExtension.type]),
        if_neg (by simp [ClientExtension.type]), if_pos ⟨rfl, long⟩,
        ClientExtension.value, unpackU16_head (by omega)]
      simp only [bind, Except.bind]
      rw [List.drop_left' (length_u16 _), List.take_length, parseKeyShareGroups_shares]
      simp [addOffers, ClientExtension.versions?, ClientExtension.groups,
        ClientExtension.shareGroups, pure, Except.pure]
  | other type unread value small =>
      simp only [List.mem_cons, List.not_mem_nil, or_false, not_or] at unread
      rw [clientExtension, if_neg fun both => unread.1 both.1,
        if_neg fun both => unread.2.1 both.1, if_neg fun both => unread.2.2 both.1]
      simp [addOffers, ClientExtension.versions?, ClientExtension.groups,
        ClientExtension.shareGroups, pure, Except.pure]

/-- What an extension adds to the selection. -/
def addSelection (selection : Selection) (ext : ServerExtension) : Selection where
  selectedVersion := ext.version?.or selection.selectedVersion
  group := ext.group?.or selection.group

theorem serverExtension_value (selection : Selection) (ext : ServerExtension) :
    serverExtension selection ext.type ext.value = .ok (addSelection selection ext) := by
  cases ext with
  | supportedVersions version =>
      have read := @unpackU16_head [] version.toNat (toNat_lt version)
      rw [List.append_nil] at read
      rw [serverExtension, if_pos ⟨rfl, by exact le_refl 2⟩, ServerExtension.value, read]
      rfl
  | keyShare group exchange small =>
      have long : 2 ≤ (ServerExtension.keyShare group exchange small).value.length := by
        rw [ServerExtension.value, List.length_append, length_u16]
        omega
      rw [serverExtension, if_neg (by simp [ServerExtension.type]), if_pos ⟨rfl, long⟩,
        ServerExtension.value, unpackU16_head (toNat_lt group)]
      rfl
  | other type unread value small =>
      simp only [List.mem_cons, List.not_mem_nil, or_false, not_or] at unread
      rw [serverExtension, if_neg fun both => unread.1 both.1,
        if_neg fun both => unread.2 both.1]
      rfl

theorem clientExtension_fits (ext : ClientExtension) :
    ext.type < 65536 ∧ ext.value.length < 65536 := by
  cases ext with
  | supportedVersions versions small =>
      refine ⟨(by decide : 0x002B < 65536), ?_⟩
      rw [ClientExtension.value, List.length_cons, length_shorts]
      omega
  | supportedGroups groups small =>
      refine ⟨(by decide : 0x000A < 65536), ?_⟩
      rw [ClientExtension.value, List.length_append, length_u16, length_shorts]
      omega
  | keyShare shares small =>
      refine ⟨(by decide : 0x0033 < 65536), ?_⟩
      rw [ClientExtension.value, List.length_append, length_u16]
      omega
  | other type unread value small => exact ⟨toNat_lt type, small⟩

theorem serverExtension_fits (ext : ServerExtension) :
    ext.type < 65536 ∧ ext.value.length < 65536 := by
  cases ext with
  | supportedVersions version =>
      exact ⟨(by decide : 0x002B < 65536), (by decide : 2 < 65536)⟩
  | keyShare group exchange small =>
      refine ⟨(by decide : 0x0033 < 65536), ?_⟩
      rw [ServerExtension.value, List.length_append, length_u16]
      omega
  | other type unread value small => exact ⟨toNat_lt type, small⟩

/-- All the offers of some extensions. -/
theorem foldl_addOffers (exts : List ClientExtension) (offers : Offers) :
    exts.foldl addOffers offers =
      ⟨(exts.filterMap ClientExtension.versions?).getLast?.getD offers.versions,
        offers.supportedGroups ++ exts.flatMap ClientExtension.groups,
        offers.keyShareGroups ++ exts.flatMap ClientExtension.shareGroups⟩ := by
  induction exts generalizing offers with
  | nil => simp
  | cons ext exts inductionHypothesis =>
      rw [List.foldl_cons, inductionHypothesis, List.flatMap_cons,
        List.flatMap_cons, addOffers, List.append_assoc, List.append_assoc,
        List.filterMap_cons]
      cases ext.versions? with
      | none => rfl
      | some versions =>
          simp only [List.getLast?_cons, Option.getD_some]

/-- The last value that some items tell, after those before them. -/
theorem getLast?_filterMap_cons {α β : Type} (value? : α → Option β) (item : α)
    (items : List α) (before : Option β) :
    ((item :: items).filterMap value?).getLast?.or before =
      (items.filterMap value?).getLast?.or ((value? item).or before) := by
  rw [List.filterMap_cons]
  cases value? item with
  | none => rfl
  | some value =>
      rw [List.getLast?_cons]
      cases (items.filterMap value?).getLast? with
      | none => rfl
      | some last => rfl

theorem foldl_addSelection (exts : List ServerExtension) (selection : Selection) :
    exts.foldl addSelection selection =
      ⟨(exts.filterMap ServerExtension.version?).getLast?.or selection.selectedVersion,
        (exts.filterMap ServerExtension.group?).getLast?.or selection.group⟩ := by
  induction exts generalizing selection with
  | nil => rfl
  | cons ext exts inductionHypothesis =>
      rw [List.foldl_cons, inductionHypothesis, getLast?_filterMap_cons,
        getLast?_filterMap_cons]
      rfl

theorem parseClientExtensions_encode (exts : List ClientExtension) :
    parseClientExtensions (clientExtensions exts) =
      .ok ⟨(exts.filterMap ClientExtension.versions?).getLast?.getD [],
        exts.flatMap ClientExtension.groups,
          exts.flatMap ClientExtension.shareGroups⟩ := by
  have folded := foldl_addOffers exts Offers.none
  simp only [Offers.none, List.nil_append] at folded
  rw [← folded]
  apply scanExtensions_fields
  · intro ext _
    exact clientExtension_fits ext
  · intro ext _ offers
    exact clientExtension_value offers ext
  · exact le_refl _

theorem parseServerExtensions_encode (exts : List ServerExtension) :
    parseServerExtensions (serverExtensions exts) =
      .ok ⟨(exts.filterMap ServerExtension.version?).getLast?,
        (exts.filterMap ServerExtension.group?).getLast?⟩ := by
  have folded := foldl_addSelection exts ⟨none, none⟩
  simp only [Option.or_none] at folded
  rw [← folded]
  apply scanExtensions_fields
  · intro ext _
    exact serverExtension_fits ext
  · intro ext _ selection
    exact serverExtension_value selection ext
  · exact le_refl _

/-! ## Messages read back -/

theorem extensionsAt_absent {parse : Bytes → Except ReadError ρ} {absent : ρ}
    {body : Bytes}
    {off : Nat} (placed : body.drop off = []) :
    extensionsAt parse absent body off = .ok absent := by
  rw [List.drop_eq_nil_iff] at placed
  exact if_neg (by omega)

theorem extensionsAt_present {parse : Bytes → Except ReadError ρ} {absent : ρ}
    {body exts : Bytes} {off : Nat} (placed : body.drop off = u16 exts.length ++ exts)
    (small : exts.length < 65536) :
    extensionsAt parse absent body off = parse exts := by
  have sizes := congrArg List.length placed
  rw [List.length_drop, List.length_append, length_u16] at sizes
  have block : body.drop (off + 2) = exts := drop_after placed (by rw [length_u16])
  rw [extensionsAt, if_pos (by omega), unpackU16_at placed small]
  simp only [bind, Except.bind]
  rw [block, List.take_length]

/-- The reads before the cipher suites. -/
theorem read_opening {legacyVersion : UInt16} {random sessionId rest : Bytes}
    (random_length : random.length = 32) (sessionId_small : sessionId.length < 256) :
    unpackU16 ((opening legacyVersion random sessionId ++ rest).take 2) =
        .ok legacyVersion.toNat ∧
      byteAt (opening legacyVersion random sessionId ++ rest) 34 = .ok sessionId.length ∧
      (opening legacyVersion random sessionId ++ rest).drop
        (35 + sessionId.length) = rest := by
  have sized : (UInt8.ofNat sessionId.length).toNat = sessionId.length := by
    rw [UInt8.toNat_ofNat', Nat.mod_eq_of_lt sessionId_small]
  have spread : opening legacyVersion random sessionId ++ rest =
      u16 legacyVersion.toNat ++ (random ++
        (UInt8.ofNat sessionId.length :: (sessionId ++ rest))) := by
    simp only [opening, List.append_assoc, List.cons_append]
  have afterVersion : (opening legacyVersion random sessionId ++ rest).drop 2 =
      random ++ (UInt8.ofNat sessionId.length :: (sessionId ++ rest)) := by
    rw [spread]
    exact List.drop_left' (length_u16 _)
  have afterRandom := drop_after afterVersion (show 34 = 2 + random.length by omega)
  refine ⟨?_, ?_, ?_⟩
  · rw [spread, unpackU16_head (toNat_lt _)]
  · rw [byteAt_at afterRandom, sized]
  · apply @drop_after _ (UInt8.ofNat sessionId.length :: sessionId) rest 34
    · exact afterRandom
    · rw [List.length_cons]
      omega

namespace ClientHello

variable (hello : ClientHello)

/-- The reads after the cipher suites. -/
theorem clientTail_read {body : Bytes} {off legacyVersion : Nat} {ciphers : List Nat}
    (placed : body.drop off =
      UInt8.ofNat hello.compressions.length :: hello.compressions ++
      extensionBlock (hello.extensions.map clientExtensions))
    (small : ∀ exts ∈ hello.extensions, (clientExtensions exts).length < 65536) :
    clientTail legacyVersion ciphers body off =
      .ok ⟨legacyVersion, ciphers, hello.versions,
        (hello.supportedGroups ++ hello.keyShareGroups).eraseDups,
          hello.keyShareGroups⟩ := by
  have sized : (UInt8.ofNat hello.compressions.length).toNat =
      hello.compressions.length := by
    rw [UInt8.toNat_ofNat', Nat.mod_eq_of_lt hello.compressions_small]
  have keys : ∀ items : List Nat, fromKeys items = items.eraseDups := by
    intro items
    rw [fromKeys, Dict.keys_ofList, List.map_map]
    exact congrArg _ (List.map_id items)
  have sizes := congrArg List.length placed
  rw [List.length_drop, List.length_append, List.length_cons] at sizes
  have block := drop_after placed
    (show off + (1 + hello.compressions.length) = off + _ by rw [List.length_cons]; omega)
  rw [clientTail, if_neg (by omega), byteAt_at placed, sized]
  simp only [bind, Except.bind]
  cases given : hello.extensions with
  | none =>
      rw [given] at block
      rw [extensionsAt_absent block]
      simp only [keys, versions, supportedGroups, keyShareGroups, exts, given]
      rfl
  | some list =>
      rw [given] at block
      rw [extensionsAt_present block (small list given), parseClientExtensions_encode]
      simp only [keys, versions, supportedGroups, keyShareGroups, exts, given]
      rfl

/-- `_parse_client_hello` undoes the encoding. -/
theorem parseClientHello_body :
    parseClientHello hello.body = .ok (some hello.fields) := by
  obtain ⟨version, session, placed⟩ := @read_opening hello.legacyVersion hello.random
    hello.sessionId (u16 (2 * hello.cipherSuites.length) ++ (shorts hello.cipherSuites ++
      (UInt8.ofNat hello.compressions.length :: hello.compressions ++
        extensionBlock (hello.extensions.map clientExtensions))))
    hello.random_length hello.sessionId_small
  have whole := hello.body_small
  change unpackU16 (hello.body.take 2) = _ at version
  change byteAt hello.body 34 = _ at session
  change hello.body.drop _ = _ at placed
  change hello.body.length + 4 < 65536 at whole
  have sizes := congrArg List.length placed
  simp only [List.length_drop, List.length_append, List.length_cons, length_u16,
    length_shorts]
    at sizes
  have afterLength := drop_after placed
    (show 35 + hello.sessionId.length + 2 =
      35 + hello.sessionId.length + _ by rw [length_u16])
  have afterSuites := drop_after afterLength
    (show 35 + hello.sessionId.length + 2 + 2 * hello.cipherSuites.length =
      35 + hello.sessionId.length + 2 + _ by rw [length_shorts])
  have offset : 34 + (1 + hello.sessionId.length) = 35 + hello.sessionId.length := by
    omega
  have small : ∀ exts ∈ hello.extensions, (clientExtensions exts).length < 65536 := by
    intro exts given
    rw [Option.mem_def.mp given] at sizes
    simp only [Option.map_some, extensionBlock, List.length_append, length_u16] at sizes
    omega
  have suites : (hello.body.drop (35 + hello.sessionId.length + 2)).take
      (2 * hello.cipherSuites.length) = shorts hello.cipherSuites := by
    rw [afterLength, List.take_left' (length_shorts _)]
  have read := unpackU16s_shorts hello.cipherSuites []
  rw [List.append_nil] at read
  rw [parseClientHello, if_neg (by omega), version, session]
  simp only [bind, Except.bind]
  rw [offset, if_neg (by omega), unpackU16_at placed (by omega)]
  simp only
  rw [suites, length_shorts, read]
  simp only
  rw [hello.clientTail_read afterSuites small]
  rfl

end ClientHello

namespace ServerHello

variable (hello : ServerHello)

/-- `_parse_server_hello` undoes the encoding. -/
theorem parseServerHello_body :
    parseServerHello hello.body = .ok (some hello.fields) := by
  obtain ⟨version, session, placed⟩ := @read_opening hello.legacyVersion hello.random
    hello.sessionId (u16 hello.cipher.toNat ++ [hello.compression] ++
      extensionBlock (hello.extensions.map serverExtensions))
    hello.random_length hello.sessionId_small
  have whole := hello.body_small
  change unpackU16 (hello.body.take 2) = _ at version
  change byteAt hello.body 34 = _ at session
  change hello.body.drop _ = _ at placed
  change hello.body.length + 4 < 65536 at whole
  have sizes := congrArg List.length placed
  simp only [List.length_drop, List.length_append, List.length_singleton,
    length_u16] at sizes
  have block := drop_after placed
    (show 35 + hello.sessionId.length + (2 + 1) = 35 + hello.sessionId.length + _ by rfl)
  have offset : 34 + (1 + hello.sessionId.length) = 35 + hello.sessionId.length := by
    omega
  rw [List.append_assoc] at placed
  rw [parseServerHello, if_neg (by omega), version, session]
  simp only [bind, Except.bind]
  rw [offset, if_neg (by omega), unpackU16_at placed (toNat_lt _)]
  simp only
  cases given : hello.extensions with
  | none =>
      rw [given] at block
      rw [extensionsAt_absent block]
      simp only [fields, exts, given]
      rfl
  | some list =>
      rw [given] at block sizes
      simp only [Option.map_some, extensionBlock, List.length_append, length_u16] at sizes
      rw [extensionsAt_present block (by omega), parseServerExtensions_encode]
      simp only [fields, exts, given]
      rfl

end ServerHello

theorem length_record (type major minor : UInt8) (body : Bytes) :
    (record type major minor body).length = 9 + body.length := by
  simp only [record, List.length_append, List.length_cons, List.length_nil, length_u16,
    length_u24]
  omega

/-- A message in one record is cut out of it. -/
theorem readHandshake_record {type major minor : UInt8} {body : Bytes} (rest : Bytes)
    (small : body.length + 4 < 65536) :
    readHandshake (record type major minor body ++ rest) =
      readMessage ([type] ++ u24 body.length ++ body) := by
  have message : ([type] ++ u24 body.length ++ body).length = body.length + 4 := by
    simp only [List.length_append, List.length_singleton, length_u24]
    omega
  have length : (record type major minor body ++ rest).drop 3 = u16 (body.length + 4) ++
      ([type] ++ u24 body.length ++ body ++ rest) := by
    rw [record, List.append_assoc, List.append_assoc]
    rfl
  have placed := drop_after length (show 5 = 3 + _ by rw [length_u16])
  rw [readHandshake, if_neg (by rw [List.length_append, length_record]; omega),
    byteAt_at (show (record type major minor body ++ rest).drop 0 = 0x16 :: _ from rfl)]
  simp only [bind, Except.bind]
  rw [if_neg (by decide), unpackU16_at length small]
  simp only
  rw [placed, List.take_left' message]

theorem readMessage_body {type : UInt8} {body : Bytes} (small : body.length < 2 ^ 24) :
    readMessage ([type] ++ u24 body.length ++ body) =
      if type.toNat = 0x01 then (parseClientHello body).map (Option.map .clientHello)
      else if type.toNat = 0x02 then (parseServerHello body).map (Option.map .serverHello)
      else .ok none := by
  have cut : helloBody ([type] ++ u24 body.length ++ body) = body := by
    have told : (([type] ++ u24 body.length ++ body).drop 1).take 3 = u24 body.length :=
      rfl
    rw [helloBody, told, bigEndian_u24 small]
    exact List.take_length
  have long : ¬ ([type] ++ u24 body.length ++ body).length < 4 := by
    simp only [List.length_append, List.length_singleton, length_u24]
    omega
  have first : byteAt ([type] ++ u24 body.length ++ body) 0 = .ok type.toNat := rfl
  rw [readMessage, if_neg long, first, cut]
  simp only [bind, Except.bind]
  split
  · cases parseClientHello body with
    | error error => rfl
    | ok fields => rfl
  · split
    · cases parseServerHello body with
      | error error => rfl
      | ok fields => rfl
    · rfl

/-- The record of a ClientHello, whatever follows it, is read as what it offers. -/
theorem parseTlsHandshake_client (hello : ClientHello) (major minor : UInt8)
    (rest : Bytes) :
    parseTlsHandshake (record 0x01 major minor hello.body ++ rest) =
      .ok (some (.clientHello hello.fields)) := by
  have small : hello.body.length + 4 < 65536 := hello.body_small
  rw [parseTlsHandshake, readHandshake_record rest small, readMessage_body (by omega),
    if_pos (by decide), hello.parseClientHello_body]
  rfl

/-- The record of a ServerHello is read as what it selects. -/
theorem parseTlsHandshake_server (hello : ServerHello) (major minor : UInt8)
    (rest : Bytes) :
    parseTlsHandshake (record 0x02 major minor hello.body ++ rest) =
      .ok (some (.serverHello hello.fields)) := by
  have small : hello.body.length + 4 < 65536 := hello.body_small
  rw [parseTlsHandshake, readHandshake_record rest small, readMessage_body (by omega),
    if_neg (by decide), if_pos (by decide), hello.parseServerHello_body]
  rfl

end Hello
end Probes
end PqcScan
