import PqcScan.Probes.Severity
import PqcScan.Probes.SshKexinit
import PqcScan.Probes.SshTokens

/-!
# The SSH handshake

`net_ssh_handshake.py`: the probe reads the banner of a server and its packets up to the
key exchange, and reports the weak names of its name-lists.  What the server sends before
it closes or falls silent is one stream of bytes.
-/

namespace PqcScan
namespace Probes
namespace NetSshHandshake

open Library Python PqcScan.Core

/-- What leaves `run` as an exception: `LimitOverrunError` and `ValueError`. -/
inductive Raised
  | limitOverrun
  | negativeSize
  deriving DecidableEq, Repr

/-! ## Reading -/

/-- The limit of a `StreamReader`. -/
def streamLimit : Nat := 2 ^ 16

/-- `reader.readuntil(b"\n")`; nothing where the stream ends before. -/
def readLine (stream : Bytes) : Except Raised (Option (Bytes × Bytes)) :=
  let place := (stream.takeWhile (· != 10)).length
  if streamLimit < place then .error .limitOverrun
  else if place = stream.length then .ok none
  else .ok (some (stream.splitAt (place + 1)))

/-- `reader.readexactly(size)`. -/
def readExactly (size : Int) (stream : Bytes) : Except Raised (Option (Bytes × Bytes)) :=
  if size < 0 then .error .negativeSize
  else if stream.length < size.toNat then .ok none
  else .ok (some (stream.splitAt size.toNat))

/-- `rest[:stop]`. -/
def sliceTo (rest : Bytes) (stop : Int) : Bytes :=
  if stop < 0 then rest.take (rest.length + stop).toNat else rest.take stop.toNat

/-- `_read_until_kexinit`. -/
def readUntilKexinit : Nat → Bytes → Except Raised (Option Bytes)
  | 0, _ => .ok none
  | packets + 1, stream =>
      match readExactly 5 stream with
      | .error raised => .error raised
      | .ok none => .ok none
      | .ok (some (hdr, later)) =>
          let pktLen := bigEndian (hdr.take 4)
          let padLen := bigEndian (hdr.drop 4)
          match readExactly (pktLen - 1) later with
          | .error raised => .error raised
          | .ok none => .ok none
          | .ok (some (rest, after)) =>
              let payload := sliceTo rest (pktLen - 1 - padLen)
              if payload.head? = some 20 then .ok (some payload)
              else readUntilKexinit packets after

/-! ## Reports -/

/-- What is reported of a server. -/
structure SshReport where
  algorithm : List Char
  classification : Classification
  severity : Severity
  title : List Char
  evidence : List (String × List Char)
  deriving DecidableEq

/-- The name-lists of a key exchange. -/
def labels : List String :=
  ["kex_algorithms", "server_host_key_algorithms", "encryption_c2s",
    "encryption_s2c", "mac_c2s", "mac_s2c", "compression_c2s", "compression_s2c",
    "languages_c2s", "languages_s2c"]

/-- No connection. -/
def failureReport (endpoint error : List Char) : SshReport :=
  ⟨"N/A".toList, .info, .info,
    "SSH connection failed at ".toList ++ endpoint ++ ": ".toList ++ error, []⟩

/-- The banner alone. -/
def bannerReport (endpoint : List Char) (banner : Bytes) : SshReport :=
  let text := strip (StartTls.decodeAscii banner)
  ⟨"N/A".toList, .info, .info, "SSH banner: ".toList ++ text,
    [("endpoint", endpoint), ("banner", text)]⟩

/-- One offered token. -/
def tokenReport (endpoint : List Char) (label : String) (token : List Char)
    (verdict : Verdict) :
    SshReport :=
  ⟨verdict.1, verdict.2, sevFor verdict.2,
    "SSH server offers ".toList ++ label.toList ++ '=' :: token,
    [("endpoint", endpoint), ("namelist", label.toList), ("token", token)]⟩

/-- The names of a list that are reported. -/
def listReports (endpoint : List Char) (label : String) (names : List (List Char)) :
    List SshReport :=
  names.filterMap fun token =>
    (handshakeToken token).map (tokenReport endpoint label token)

/-- The loop of `_emit_namelists`. -/
def namelistReports (endpoint : List Char) (payload : Bytes) :
    Nat → List String → List SshReport
  | _, [] => []
  | i, label :: labels =>
      if payload.length < i + 4 then []
      else
        let ln := bigEndian ((payload.drop i).take 4)
        let value := decodeUtf8 ((payload.drop (i + 4)).take ln)
        listReports endpoint label (splitNames value) ++
          namelistReports endpoint payload (i + 4 + ln) labels

/-- `_emit_namelists`. -/
def emitNamelists (endpoint : List Char) (payload banner : Bytes) : List SshReport :=
  bannerReport endpoint banner :: namelistReports endpoint payload 17 labels

/-- What `run` does with what the server sends. -/
def converse (endpoint : List Char) (stream : Bytes) : Except Raised (List SshReport) :=
  match readLine stream with
  | .error raised => .error raised
  | .ok none => .ok []
  | .ok (some (banner, later)) =>
      match readUntilKexinit 5 later with
      | .error raised => .error raised
      | .ok none => .ok []
      | .ok (some payload) => .ok (emitNamelists endpoint payload banner)

/-- `run`. -/
def run (endpoint : List Char) (connection : Except (List Char) Bytes) :
    Except Raised (List SshReport) :=
  match connection with
  | .error error => .ok [failureReport endpoint error]
  | .ok stream => converse endpoint stream

/-! ## What a server sends -/

/-- A binary packet before encryption. -/
structure SshPacket where
  payload : Bytes
  padding : Bytes
  padding_short : padding.length < 256
  short : 1 + payload.length + padding.length < 256 ^ 4

namespace SshPacket

variable (packet : SshPacket)

/-- The lengths before the payload. -/
def head : Bytes :=
  bigBytes 4 (1 + packet.payload.length + packet.padding.length) ++
    bigBytes 1 packet.padding.length

/-- The packet as it is sent. -/
def bytes : Bytes := packet.head ++ (packet.payload ++ packet.padding)

theorem length_head : packet.head.length = 5 := by
  rw [head, List.length_append, length_bigBytes, length_bigBytes]

end SshPacket

/-- A name-list. -/
def nameListBytes (names : List SshName) : Bytes :=
  bigBytes 4 (joinNames names).length ++ asciiEncode (joinNames names)

/-- The payload of a key exchange: the number of the message, the cookie, the name-lists
and what follows them. -/
def kexinitPayload (cookie : BitVec 128) (lists : List (List SshName))
    (trailer : Bytes) : Bytes :=
  ([20] ++ bigBytes 16 cookie.toNat) ++ (lists.flatMap nameListBytes ++ trailer)

/-- A server that sends a banner, a few packets, a key exchange
and whatever comes then. -/
structure SshServer where
  banner : Bytes
  earlier : List SshPacket
  cookie : BitVec 128
  lists : List (List SshName)
  trailer : Bytes
  kexinit : SshPacket
  later : Bytes
  banner_line : ∀ byte ∈ banner, (byte != 10) = true
  banner_short : banner.length ≤ streamLimit
  earlier_few : earlier.length < 5
  earlier_other : ∀ packet ∈ earlier, packet.payload.head? ≠ some 20
  lists_all : lists.length = labels.length
  lists_short : ∀ names ∈ lists, (joinNames names).length < 256 ^ 4
  kexinit_payload : kexinit.payload = kexinitPayload cookie lists trailer

namespace SshServer

variable (server : SshServer)

/-- The banner and the packets up to the key exchange. -/
def opening : Bytes :=
  server.banner ++ [10] ++
    ((server.earlier.flatMap SshPacket.bytes) ++ server.kexinit.bytes)

/-- Everything that is sent. -/
def bytes : Bytes := server.opening ++ server.later

/-- The reports: the banner, and the weak names of each list. -/
def reports (endpoint : List Char) : List SshReport :=
  bannerReport endpoint (server.banner ++ [10]) ::
    (labels.zip server.lists).flatMap fun entry =>
      listReports endpoint entry.1 (entry.2.map SshName.text)

end SshServer

/-! ## What is read of it -/

theorem readExactly_take (front rest : Bytes) (cut : Nat) {size : Int}
    (sized : size = front.length) :
    readExactly size ((front ++ rest).take cut) =
      if cut < front.length then .ok none
      else .ok (some (front, rest.take (cut - front.length))) := by
  subst sized
  have natural : ¬ (front.length : Int) < 0 := by omega
  rw [readExactly, if_neg natural, Int.toNat_natCast, List.length_take,
    List.length_append]
  by_cases short : cut < front.length
  · rw [if_pos short, if_pos (by omega)]
  · have cut_eq : (front ++ rest).take cut = front ++ rest.take (cut - front.length) := by
      rw [List.take_append, List.take_of_length_le (by omega)]
    rw [if_neg short, if_neg (by omega), cut_eq, List.splitAt_eq, List.take_left,
      List.drop_left]

theorem SshPacket.readUntilKexinit_take (packet : SshPacket) (rest : Bytes)
    (cut packets : Nat) :
    readUntilKexinit (packets + 1) ((packet.bytes ++ rest).take cut) =
      if cut < packet.bytes.length then .ok none
      else if packet.payload.head? = some 20 then .ok (some packet.payload)
      else readUntilKexinit packets (rest.take (cut - packet.bytes.length)) := by
  have size : packet.bytes.length =
      5 + (packet.payload.length + packet.padding.length) := by
    rw [bytes, List.length_append, packet.length_head, List.length_append]
  have whole : packet.bytes ++ rest =
      packet.head ++ ((packet.payload ++ packet.padding) ++ rest) := by
    rw [bytes, List.append_assoc]
  have number : bigEndian (packet.head.take 4) =
      1 + packet.payload.length + packet.padding.length := by
    rw [head, List.take_left' (length_bigBytes _ _), bigEndian_bigBytes packet.short]
  have pad : bigEndian (packet.head.drop 4) = packet.padding.length := by
    rw [head, List.drop_left' (length_bigBytes _ _),
      bigEndian_bigBytes packet.padding_short]
  have opened : readExactly 5 ((packet.head ++
      ((packet.payload ++ packet.padding) ++ rest)).take cut) = _ :=
    readExactly_take packet.head _ cut (by rw [packet.length_head]; rfl)
  rw [whole, readUntilKexinit, opened, packet.length_head, size]
  by_cases none_ : cut < 5
  · rw [if_pos none_, if_pos (by omega)]
  · rw [if_neg none_]
    dsimp only
    rw [number, pad, readExactly_take (packet.payload ++ packet.padding) rest (cut - 5)
      (by rw [List.length_append]; omega), List.length_append]
    by_cases short : cut - 5 < packet.payload.length + packet.padding.length
    · rw [if_pos short, if_pos (by omega)]
    · rw [if_neg short, if_neg (by omega)]
      dsimp only
      have payload : sliceTo (packet.payload ++ packet.padding)
          (((1 + packet.payload.length + packet.padding.length : Nat) : Int) - 1 -
            (packet.padding.length : Nat)) = packet.payload := by
        rw [sliceTo, if_neg (by omega)]
        exact List.take_left' (by omega)
      rw [payload, Nat.sub_sub]

/-- The packets before the key exchange are skipped; it is read whole or not at all. -/
theorem readUntilKexinit_packets {kexinit : SshPacket}
    (found : kexinit.payload.head? = some 20)
    {earlier : List SshPacket}
    (other : ∀ packet ∈ earlier, packet.payload.head? ≠ some 20)
    {packets : Nat} (few : earlier.length < packets) (later : Bytes) (cut : Nat) :
    readUntilKexinit packets
        ((earlier.flatMap SshPacket.bytes ++ (kexinit.bytes ++ later)).take cut) =
      if cut < (earlier.flatMap SshPacket.bytes ++ kexinit.bytes).length then .ok none
      else .ok (some kexinit.payload) := by
  induction earlier generalizing packets cut with
  | nil =>
      obtain ⟨rest, rfl⟩ := Nat.exists_eq_add_of_lt few
      rw [List.flatMap_nil, List.nil_append, List.nil_append, List.length_nil,
        Nat.zero_add, kexinit.readUntilKexinit_take, if_pos found]
  | cons packet earlier inductionHypothesis =>
      rw [List.forall_mem_cons] at other
      obtain ⟨rest, rfl⟩ := Nat.exists_eq_add_of_lt few
      rw [List.length_cons] at few ⊢
      rw [List.flatMap_cons, List.append_assoc, packet.readUntilKexinit_take,
        if_neg other.1, inductionHypothesis other.2 (by omega), List.append_assoc,
        @List.length_append _ packet.bytes]
      by_cases short : cut < packet.bytes.length
      · rw [if_pos short, if_pos (by omega)]
      · rw [if_neg short]
        refine if_congr ?_ rfl rfl
        omega

/-- The banner is read once its line feed is there. -/
theorem readLine_take {banner : Bytes} (line : ∀ byte ∈ banner, (byte != 10) = true)
    (short : banner.length ≤ streamLimit) (rest : Bytes) (cut : Nat) :
    readLine ((banner ++ [10] ++ rest).take cut) =
      if cut ≤ banner.length then .ok none
      else .ok (some (banner ++ [10], rest.take (cut - (banner.length + 1)))) := by
  by_cases inside : cut ≤ banner.length
  · have part : (banner ++ [10] ++ rest).take cut = banner.take cut := by
      rw [List.append_assoc, List.take_append_of_le_length inside]
    have free : ((banner.take cut).takeWhile (· != 10)) = banner.take cut :=
      List.takeWhile_eq_self_iff.mpr fun byte member =>
        line byte (List.mem_of_mem_take member)
    have size : (banner.take cut).length ≤ streamLimit := by
      rw [List.length_take]
      omega
    rw [if_pos inside, readLine, part, free, if_neg (Nat.not_lt.mpr size), if_pos rfl]
  · have part : (banner ++ [10] ++ rest).take cut =
        banner ++ 10 :: rest.take (cut - (banner.length + 1)) := by
      rw [List.take_append, List.take_of_length_le (by simp; omega), List.append_assoc,
        List.length_append]
      rfl
    have place : (banner ++ 10 :: rest.take (cut - (banner.length + 1))).takeWhile
        (· != 10) =
        banner := by
      rw [List.takeWhile_append_of_pos line, List.takeWhile_cons_of_neg (by simp),
        List.append_nil]
    rw [if_neg inside, readLine, part, place, if_neg (Nat.not_lt.mpr short),
      if_neg (by simp), List.splitAt_eq]
    have split_ : banner ++ 10 :: rest.take (cut - (banner.length + 1)) =
        (banner ++ [10]) ++ rest.take (cut - (banner.length + 1)) := by simp
    rw [split_, List.take_left' (by simp), List.drop_left' (by simp)]

/-! ## The name-lists -/

theorem namelistReports_lists (endpoint : List Char) {lists : List (List SshName)}
    (small : ∀ names ∈ lists, (joinNames names).length < 256 ^ 4) {titles : List String}
    (all : lists.length = titles.length) (front trailer : Bytes) :
    namelistReports endpoint
      (front ++ (lists.flatMap nameListBytes ++ trailer)) front.length
        titles =
      (titles.zip lists).flatMap fun entry =>
        listReports endpoint entry.1 (entry.2.map SshName.text) := by
  induction lists generalizing front titles with
  | nil =>
      rw [List.length_nil] at all
      rw [List.length_eq_zero_iff.mp all.symm]
      rfl
  | cons names lists inductionHypothesis =>
      obtain ⟨title, titles, rfl⟩ := List.exists_cons_of_length_eq_add_one all.symm
      rw [List.forall_mem_cons] at small
      have whole : front ++ ((names :: lists).flatMap nameListBytes ++ trailer) =
          (front ++ nameListBytes names) ++ (lists.flatMap nameListBytes ++ trailer) := by
        rw [List.flatMap_cons, List.append_assoc, List.append_assoc]
      have behind : front ++ ((names :: lists).flatMap nameListBytes ++ trailer) =
          front ++ (bigBytes 4 (joinNames names).length ++
            (asciiEncode (joinNames names) ++
              (lists.flatMap nameListBytes ++ trailer))) := by
        rw [List.flatMap_cons, nameListBytes, List.append_assoc, List.append_assoc]
      have number := congrArg bigEndian (window_append (rfl : front.length = front.length)
        (length_bigBytes 4 (joinNames names).length)
        (asciiEncode (joinNames names) ++ (lists.flatMap nameListBytes ++ trailer)))
      rw [← behind, bigEndian_bigBytes small.1] at number
      have value : (((front ++ ((names :: lists).flatMap nameListBytes ++ trailer)).drop
          (front.length + 4)).take (joinNames names).length) =
            asciiEncode (joinNames names) := by
        rw [behind, ← List.append_assoc front]
        exact window_append (by rw [List.length_append, length_bigBytes])
          (length_asciiEncode _) _
      have ascii : ∀ char ∈ joinNames names, char.toNat < 128 := fun char member => by
        have bounds := ascii_joinNames names char member
        omega
      have place : front.length + 4 + (joinNames names).length =
          (front ++ nameListBytes names).length := by
        rw [List.length_append, nameListBytes, List.length_append, length_bigBytes,
          length_asciiEncode, Nat.add_assoc]
      rw [namelistReports, if_neg (by rw [behind]; simp)]
      dsimp only
      rw [number, value, decodeUtf8_asciiEncode ascii, splitNames_join, place, whole,
        inductionHypothesis small.2 (by simpa using all), List.zip_cons_cons,
        List.flatMap_cons]

/-! ## Every server -/

theorem SshServer.kexinit_found (server : SshServer) :
    server.kexinit.payload.head? = some 20 := by
  rw [server.kexinit_payload]
  rfl

/-- However long a server's stream is when it ends, the probe reports the banner
and every weak name of every list once the key exchange is there, and nothing
before; it raises nothing. -/
theorem converse_take (server : SshServer) (endpoint : List Char) (cut : Nat) :
    converse endpoint (server.bytes.take cut) =
      .ok (if server.opening.length ≤ cut then server.reports endpoint else []) := by
  have whole : server.bytes = server.banner ++ [10] ++
      (server.earlier.flatMap SshPacket.bytes ++
        (server.kexinit.bytes ++ server.later)) := by
    simp only [SshServer.bytes, SshServer.opening, List.append_assoc]
  have size : server.opening.length = server.banner.length + 1 +
      (server.earlier.flatMap SshPacket.bytes ++ server.kexinit.bytes).length := by
    rw [SshServer.opening, List.length_append, List.length_append]
    rfl
  rw [converse, whole, readLine_take server.banner_line server.banner_short, size]
  by_cases early : cut ≤ server.banner.length
  · rw [if_pos early, if_neg (by omega)]
  · rw [if_neg early]
    dsimp only
    rw [readUntilKexinit_packets server.kexinit_found server.earlier_other
      server.earlier_few]
    by_cases short : cut - (server.banner.length + 1) <
        (server.earlier.flatMap SshPacket.bytes ++ server.kexinit.bytes).length
    · rw [if_pos short, if_neg (by omega)]
    · rw [if_neg short, if_pos (by omega)]
      dsimp only
      have front : ([20] ++ bigBytes 16 server.cookie.toNat).length = 17 := by
        rw [List.length_append, length_bigBytes]
        rfl
      have lists := namelistReports_lists endpoint server.lists_short server.lists_all
        ([20] ++ bigBytes 16 server.cookie.toNat) server.trailer
      rw [front] at lists
      rw [emitNamelists, server.kexinit_payload, kexinitPayload, lists]
      rfl

/-! ## A server with two weak names -/

theorem groupName_ne_nil : "diffie-hellman-group1-sha1".toList ≠ [] := by decide

theorem groupName_printable : ∀ char ∈ "diffie-hellman-group1-sha1".toList,
    0x21 ≤ char.toNat ∧ char.toNat ≤ 0x7E ∧ char ≠ ',' := by decide +kernel

theorem macName_ne_nil : "hmac-md5".toList ≠ [] := by decide

theorem macName_printable : ∀ char ∈ "hmac-md5".toList,
    0x21 ≤ char.toNat ∧ char.toNat ≤ 0x7E ∧ char ≠ ',' := by decide +kernel

/-- `diffie-hellman-group1-sha1` for key exchange and `hmac-md5`. -/
def weakLists : List (List SshName) :=
  [[⟨"diffie-hellman-group1-sha1".toList, groupName_ne_nil, groupName_printable⟩], [], [],
    [], [⟨"hmac-md5".toList, macName_ne_nil, macName_printable⟩], [], [], [], [], []]

/-- A KEXINIT with weak tokens. -/
def weakPayload : Bytes := kexinitPayload 0 weakLists [0, 0, 0, 0, 0]

/-- Four bytes of padding. -/
def fourZeros : Bytes := [0, 0, 0, 0]

theorem fourZeros_short : fourZeros.length < 256 := by decide

theorem weakPayload_short :
    1 + weakPayload.length + fourZeros.length < 256 ^ 4 := by decide

/-- The banner of the sample. -/
def weakBanner : Bytes := asciiEncode "SSH-2.0-x".toList

theorem weakBanner_line : ∀ byte ∈ weakBanner, (byte != 10) = true :=
  List.all_eq_true.mp (by decide)

theorem weakBanner_short : weakBanner.length ≤ streamLimit := by decide

theorem no_packets_few : ([] : List SshPacket).length < 5 := by decide

theorem no_packets_other :
    ∀ packet ∈ ([] : List SshPacket), packet.payload.head? ≠ some 20 := by
  intro packet member
  cases member

theorem weakLists_all : weakLists.length = labels.length := by decide

theorem weakLists_short :
    ∀ names ∈ weakLists, (joinNames names).length < 256 ^ 4 := by decide

/-- A server that offers weak tokens. -/
def weakServer : SshServer where
  banner := weakBanner
  earlier := []
  cookie := 0
  lists := weakLists
  trailer := [0, 0, 0, 0, 0]
  kexinit := ⟨weakPayload, fourZeros, fourZeros_short, weakPayload_short⟩
  later := []
  banner_line := weakBanner_line
  banner_short := weakBanner_short
  earlier_few := no_packets_few
  earlier_other := no_packets_other
  lists_all := weakLists_all
  lists_short := weakLists_short
  kexinit_payload := rfl

theorem converse_take_weakServer :
    converse "h:22".toList (weakServer.bytes.take 1000) =
        .ok (weakServer.reports "h:22".toList) ∧
      (weakServer.reports "h:22".toList).map SshReport.algorithm =
        ["N/A".toList, "DH-1024".toList, "MD5".toList] :=
  ⟨(converse_take weakServer "h:22".toList 1000).trans
    (congrArg Except.ok (if_pos (by decide))), by decide +kernel⟩

end NetSshHandshake
end Probes
end PqcScan
