import PqcScan.Probes.Handshake

/-!
# The served TLS 1.2 chain

`probes/net_tls_cert_chain.py` reads the certificates of a Certificate message
from whatever has arrived, and `_fetch` stops reading at the first certificate
it sees.
-/

namespace PqcScan
namespace Probes

open Library Python Framing

/-! ## The extractor -/

/-- `reassemble_handshake`. -/
def reassembleHandshake (data : Bytes) : Bytes :=
  payload isHandshake (recordFraming.read data)

/-- The loop of `extract_certificates` over the list in a Certificate body. -/
def listedCertificates (body : Bytes) : List Bytes :=
  let listLen := bigEndian (body.take 3)
  ((certificateFraming.readWithin listLen (body.drop 3)).filter fun entry =>
    entry.body.length == certificateFraming.size entry.head &&
      !entry.body.isEmpty).map Frame.body

/-- `extract_certificates`. -/
def extractCertificates (data : Bytes) : List Bytes :=
  let messages := messageFraming.read (reassembleHandshake data)
  match messages.find? fun message => typeByte message.head == certificateType with
  | none => []
  | some message =>
      if message.body.length < 3 then [] else listedCertificates message.body

/-- How much `_fetch` reads at most. -/
def fetchLimit : Nat := 65536

/-- The loop of `_fetch` over what its reads return; the list ends when a read
fails or times out. -/
def fetchLoop : Bytes → List Bytes → Bytes
  | buf, [] => buf
  | buf, chunk :: rest =>
      if buf.length < fetchLimit then
        if chunk = [] then buf
        else
          let buf := buf ++ chunk
          if extractCertificates buf ≠ [] then buf else fetchLoop buf rest
      else buf

/-- `_fetch`. -/
def fetch (chunks : List Bytes) : Bytes := fetchLoop [] chunks

/-! ## What a server sends -/

/-- A certificate behind its length. -/
def certificateEntry (cert : Bytes) : Frame UInt8 := ⟨u24 cert.length, cert⟩

/-- The body of a Certificate message. -/
def certificateBody (certs : List Bytes) : Bytes :=
  u24 (encode (certs.map certificateEntry)).length ++ encode (certs.map certificateEntry)

/-- A Certificate message. -/
def certificateMessage (certs : List Bytes) : Frame UInt8 :=
  ⟨certificateType :: u24 (certificateBody certs).length, certificateBody certs⟩

/-- A flight: some messages, the Certificate message, and records
that carry their bytes. -/
structure Flight where
  before : List (Frame UInt8)
  certs : List Bytes
  records : List (Frame UInt8)
  before_fits : ∀ message ∈ before, messageFraming.Fits message
  before_other : ∀ message ∈ before, typeByte message.head ≠ certificateType
  certs_nonempty : ∀ cert ∈ certs, cert ≠ []
  body_small : (certificateBody certs).length < 2 ^ 24
  records_fit : ∀ record ∈ records, recordFraming.Fits record
  carries : payload isHandshake records = encode (before ++ [certificateMessage certs])

namespace Flight

variable (flight : Flight)

/-- The bytes of the flight. -/
def bytes : Bytes := encode flight.records

/-- How many bytes of handshake messages the first bytes of the flight carry. -/
def received (count : Nat) : Nat :=
  recordFraming.carried isHandshake flight.records count

/-- Where the certificate list starts in the handshake messages. -/
def listStart : Nat := (encode flight.before).length + 7

/-- Where the first certificate ends in the handshake messages. -/
def firstEnd : Nat :=
  flight.listStart + (flight.certs.head?.elim 0 fun cert => 3 + cert.length)

/-- Where the last certificate ends in the handshake messages. -/
def lastEnd : Nat :=
  flight.listStart + (encode (flight.certs.map certificateEntry)).length

/-- The first certificate has arrived and the last has not. -/
def Partial (count : Nat) : Prop :=
  flight.firstEnd ≤ flight.received count ∧ flight.received count < flight.lastEnd

end Flight

/-! ## What is extracted from a prefix -/

theorem certificateEntry_fits {cert : Bytes} (small : cert.length < 2 ^ 24) :
    certificateFraming.Fits (certificateEntry cert) :=
  ⟨rfl, (bigEndian_u24 small).symm⟩

theorem length_certificateEntry (cert : Bytes) :
    (certificateEntry cert).length = 3 + cert.length := rfl

theorem length_certificateBody (certs : List Bytes) :
    (certificateBody certs).length =
      3 + (encode (certs.map certificateEntry)).length := by
  simp [certificateBody]

/-- Each certificate is shorter than the list. -/
theorem length_le_of_mem {certs : List Bytes} {cert : Bytes} (member : cert ∈ certs) :
    cert.length ≤ (encode (certs.map certificateEntry)).length := by
  induction certs with
  | nil => exact absurd member List.not_mem_nil
  | cons first rest inductionHypothesis =>
      rw [List.map_cons, length_encode_cons, length_certificateEntry]
      rcases List.mem_cons.mp member with rfl | later
      · omega
      · have := inductionHypothesis later
        omega

theorem certificateMessage_fits {certs : List Bytes}
    (small : (certificateBody certs).length < 2 ^ 24) :
    messageFraming.Fits (certificateMessage certs) :=
  ⟨rfl, (bigEndian_u24 small).symm⟩

/-- From the first bytes of the list its complete certificates are read. -/
theorem listedCertificates_take {certs : List Bytes}
    (nonempty : ∀ cert ∈ certs, cert ≠ [])
    (small : (certificateBody certs).length < 2 ^ 24) {count : Nat}
    (reached : 3 ≤ count) :
    listedCertificates ((certificateBody certs).take count) =
      (wholes (certs.map certificateEntry) (count - 3)).map Frame.body := by
  rw [length_certificateBody] at small
  have fit : ∀ entry ∈ certs.map certificateEntry, certificateFraming.Fits entry := by
    intro entry member
    obtain ⟨cert, among, rfl⟩ := List.mem_map.mp member
    have := length_le_of_mem among
    exact certificateEntry_fits (by omega)
  have lengthBytes : ((certificateBody certs).take count).take 3 =
      u24 (encode (certs.map certificateEntry)).length := by
    rw [List.take_take, Nat.min_eq_left reached, certificateBody,
      List.take_left' (length_u24 _)]
  have listBytes : ((certificateBody certs).take count).drop 3 =
      (encode (certs.map certificateEntry)).take (count - 3) := by
    rw [List.drop_take, certificateBody, List.drop_left' (length_u24 _)]
  unfold listedCertificates
  dsimp only
  rw [lengthBytes, listBytes, bigEndian_u24 (by omega), readWithin_of_le
    (by rw [List.length_take]; omega), read_take fit]
  have ordered : ∀ entries : List (Frame UInt8), (entries.filter fun entry =>
        entry.body.length == certificateFraming.size entry.head && !entry.body.isEmpty) =
      (entries.filter fun entry =>
        entry.body.length == certificateFraming.size entry.head).filter
          fun entry => !entry.body.isEmpty := by
    intro entries
    rw [List.filter_filter]
    congr 1
    funext entry
    exact Bool.and_comm _ _
  rw [ordered, complete_cut fit, List.filter_eq_self.mpr]
  intro entry member
  obtain ⟨cert, among, rfl⟩ := List.mem_map.mp (mem_of_mem_wholes member)
  simpa [certificateEntry] using nonempty cert among

namespace Flight

variable (flight : Flight)

theorem reassembleHandshake_take (count : Nat) :
    reassembleHandshake (flight.bytes.take count) =
      (encode (flight.before ++ [certificateMessage flight.certs])).take
        (flight.received count) := by
  unfold reassembleHandshake bytes
  rw [read_take flight.records_fit, payload_cut flight.records_fit, flight.carries]
  rfl

/-- The certificates that lie wholly in the bytes that have arrived. -/
theorem extractCertificates_take (count : Nat) :
    extractCertificates (flight.bytes.take count) =
      (wholes (flight.certs.map certificateEntry)
        (flight.received count - flight.listStart)).map Frame.body := by
  have fit : ∀ message ∈ flight.before ++ [certificateMessage flight.certs],
      messageFraming.Fits message := by
    intro message member
    rcases List.mem_append.mp member with before | last
    · exact flight.before_fits message before
    · rw [List.mem_singleton.mp last]
      exact certificateMessage_fits flight.body_small
  have none : wholes (flight.certs.map certificateEntry) 0 = [] := by
    cases flight.certs with
    | nil => rfl
    | cons cert rest => exact if_neg (by rw [length_certificateEntry]; omega)
  unfold extractCertificates
  rw [reassembleHandshake_take, read_take fit]
  by_cases early : flight.received count < (encode flight.before).length
  · have other : (messageFraming.cut flight.before (flight.received count)).find?
        (fun message => typeByte message.head == certificateType) = Option.none := by
      rw [List.find?_eq_none]
      intro message member
      obtain ⟨whole, among, same⟩ := head_of_mem_cut member
      rw [← same]
      simpa using flight.before_other whole among
    have nothing : flight.received count - flight.listStart = 0 := by
      unfold listStart
      omega
    rw [cut_append_of_lt _ early, nothing, none]
    dsimp only
    rw [other]
    rfl
  · have skipped : flight.before.find?
        (fun message => typeByte message.head == certificateType) = Option.none := by
      rw [List.find?_eq_none]
      intro message member
      simpa using flight.before_other message member
    rw [cut_append_of_le flight.before_fits _ (Nat.le_of_not_lt early)]
    dsimp only
    rw [List.find?_append, skipped, Option.none_or, Framing.cut, Framing.cut]
    have start : flight.received count - flight.listStart =
        flight.received count - (encode flight.before).length - 4 - 3 := by
      unfold listStart
      omega
    rw [start]
    generalize flight.received count - (encode flight.before).length = reached
    have header : messageFraming.header = 4 := rfl
    rw [header]
    by_cases cutHead : reached < 4
    · rw [if_pos cutHead, (by omega : reached - 4 - 3 = 0), none]
      rfl
    · have found : typeByte (certificateMessage flight.certs).head = certificateType :=
        rfl
      have long := length_certificateBody flight.certs
      rw [if_neg cutHead, List.find?_cons_of_pos (by simpa using found)]
      dsimp only [certificateMessage]
      rw [List.length_take]
      split
      · next short =>
          rw [(by omega : reached - 4 - 3 = 0), none]
          rfl
      · next whole =>
          exact listedCertificates_take flight.certs_nonempty flight.body_small (by omega)

/-! ## Whole or not at all -/

theorem received_mono {count later : Nat} (before : count ≤ later) :
    flight.received count ≤ flight.received later :=
  carried_mono isHandshake flight.records before

theorem received_length : flight.received flight.bytes.length = flight.lastEnd := by
  unfold received bytes
  rw [carried_length flight.records_fit, flight.carries, encode_append,
    List.length_append, length_encode_cons, encode_nil, List.length_nil, lastEnd,
    listStart, Frame.length, certificateMessage, length_certificateBody]
  simp only [List.length_cons, length_u24]
  omega

theorem map_body_certificateEntry (certs : List Bytes) :
    (certs.map certificateEntry).map Frame.body = certs := by
  simp [Function.comp_def, certificateEntry]

/-- Before the first certificate has arrived none is extracted. -/
theorem extractCertificates_of_lt {count : Nat}
    (early : flight.received count < flight.firstEnd) :
    extractCertificates (flight.bytes.take count) = [] := by
  rw [extractCertificates_take]
  unfold firstEnd at early
  cases certs : flight.certs with
  | nil => rfl
  | cons cert rest =>
      rw [certs] at early
      simp only [List.head?_cons, Option.elim_some] at early
      rw [List.map_cons, wholes, if_neg, List.map_nil]
      rw [length_certificateEntry]
      omega

/-- Once the last certificate has arrived all are extracted. -/
theorem extractCertificates_of_le {count : Nat}
    (complete : flight.lastEnd ≤ flight.received count) :
    extractCertificates (flight.bytes.take count) = flight.certs := by
  unfold lastEnd at complete
  rw [extractCertificates_take, wholes_of_le (by omega), map_body_certificateEntry]

/-- In between some are extracted, and not all. -/
theorem extractCertificates_of_partial {count : Nat} (between : flight.Partial count) :
    extractCertificates (flight.bytes.take count) ≠ [] ∧
      extractCertificates (flight.bytes.take count) ≠ flight.certs := by
  obtain ⟨first, last⟩ := between
  rw [extractCertificates_take]
  constructor
  · unfold firstEnd at first
    unfold lastEnd at last
    cases certs : flight.certs with
    | nil =>
        rw [certs] at first last
        simp only [List.map_nil, encode_nil, List.length_nil] at last
        omega
    | cons cert rest =>
        rw [certs] at first
        simp only [List.head?_cons, Option.elim_some] at first
        rw [List.map_cons, wholes, if_pos, List.map_cons]
        · exact List.cons_ne_nil _ _
        · rw [length_certificateEntry]
          omega
  · intro same
    have lengths := congrArg List.length same
    rw [List.length_map] at lengths
    have all := (wholes_starts (flight.certs.map certificateEntry)
      (flight.received count - flight.listStart)).eq_of_length
        (by rw [lengths, List.length_map])
    have arrived := le_of_wholes all
    have start : flight.listStart ≤ flight.firstEnd := Nat.le_add_right _ _
    unfold lastEnd at last
    omega

/-- A prefix gives no certificate or all of them exactly when it does not end
between the first and the last certificate. -/
theorem whole_or_none_iff (count : Nat) :
    (extractCertificates (flight.bytes.take count) = [] ∨
      extractCertificates (flight.bytes.take count) = flight.certs) ↔
      ¬ flight.Partial count := by
  constructor
  · rintro (none | all) between
    · exact (flight.extractCertificates_of_partial between).1 none
    · exact (flight.extractCertificates_of_partial between).2 all
  · intro outside
    by_cases early : flight.received count < flight.firstEnd
    · exact Or.inl (flight.extractCertificates_of_lt early)
    · refine Or.inr (flight.extractCertificates_of_le ?_)
      unfold Partial at outside
      omega

/-! ## The read loop -/

/-- No part of the loop stops with some of the certificates exactly when no
read ends between the first and the last. -/
theorem fetchLoop_iff {buf : Bytes} {chunks : List Bytes}
    (same : buf ++ chunks.flatten = flight.bytes)
    (nonempty : ∀ chunk ∈ chunks, chunk ≠ [])
    (below : ∀ early chunk late, chunks = early ++ chunk :: late →
      (buf ++ early.flatten).length < fetchLimit)
    (none : extractCertificates buf = []) :
    extractCertificates (fetchLoop buf chunks) = flight.certs ↔
      ∀ early late, chunks = early ++ late →
        ¬ flight.Partial (buf ++ early.flatten).length := by
  induction chunks generalizing buf with
  | nil =>
      have all := flight.extractCertificates_of_le (le_of_eq flight.received_length.symm)
      rw [List.flatten_nil, List.append_nil] at same
      rw [List.take_length] at all
      rw [fetchLoop, same]
      refine iff_of_true all fun early late empty between => ?_
      have nothing := (List.append_eq_nil_iff.mp empty.symm).1
      rw [nothing, List.flatten_nil, List.append_nil] at between
      exact absurd between.2 (by rw [flight.received_length]; exact Nat.lt_irrefl _)
  | cons chunk rest inductionHypothesis =>
      have more : buf.length < fetchLimit := by
        simpa using below [] chunk rest rfl
      have next : (buf ++ chunk) ++ rest.flatten = flight.bytes := by
        rw [List.append_assoc, ← List.flatten_cons, same]
      have here : ¬ flight.Partial buf.length := by
        rw [← flight.whole_or_none_iff, ← eq_take_of_append same]
        exact Or.inl none
      rw [fetchLoop, if_pos more, if_neg (nonempty chunk List.mem_cons_self)]
      dsimp only
      split
      · next some =>
          have settled := flight.whole_or_none_iff (buf ++ chunk).length
          rw [← eq_take_of_append next, or_iff_right some] at settled
          rw [settled]
          constructor
          · intro outside early late split
            cases early with
            | nil => simpa using here
            | cons first early =>
                obtain ⟨rfl, _⟩ := List.cons.inj split
                have arrived : flight.firstEnd ≤
                    flight.received (buf ++ chunk).length := by
                  by_contra before
                  have nothing := flight.extractCertificates_of_lt
                    (Nat.lt_of_not_le before)
                  rw [← eq_take_of_append next] at nothing
                  exact some nothing
                have later : flight.received (buf ++ chunk).length ≤
                    flight.received (buf ++ (chunk :: early).flatten).length := by
                  apply flight.received_mono
                  simp only [List.length_append, List.flatten_cons]
                  omega
                unfold Partial at outside ⊢
                omega
          · intro outside
            simpa using outside [chunk] rest rfl
      · next still =>
          rw [not_not] at still
          rw [inductionHypothesis next
            (fun other member => nonempty other (List.mem_cons_of_mem _ member))
            (fun early other late split => by
              simpa using below (chunk :: early) other late (by rw [split]; rfl)) still]
          constructor
          · intro outside early late split
            cases early with
            | nil => simpa using here
            | cons first early =>
                obtain ⟨rfl, tail⟩ := List.cons.inj split
                simpa using outside early late tail
          · intro outside early late split
            simpa using outside (chunk :: early) late (by rw [split]; rfl)

/-- A prefix of the flight gives no certificate or all of them, and the read loop
returns all of them, exactly when the prefix, or no read, ends between the first
certificate and the last. -/
theorem chain_whole_iff (chunks : List Bytes)
    (delivers : Delivers fetchLimit flight.bytes chunks) :
    (∀ count, (extractCertificates (flight.bytes.take count) = [] ∨
        extractCertificates (flight.bytes.take count) = flight.certs) ↔
        ¬ flight.Partial count) ∧
      (extractCertificates (fetch chunks) = flight.certs ↔
        ∀ early late, chunks = early ++ late →
        ¬ flight.Partial early.flatten.length) := by
  refine ⟨flight.whole_or_none_iff, ?_⟩
  have none : extractCertificates [] = [] := rfl
  have below : ∀ early chunk late, chunks = early ++ chunk :: late →
      (([] : Bytes) ++ early.flatten).length < fetchLimit := delivers.below
  have start : ([] : Bytes) ++ chunks.flatten = flight.bytes := delivers.whole
  exact flight.fetchLoop_iff start delivers.nonempty below none

end Flight

/-- Two one-byte certificates after another message, all in one record. -/
def twoCertificates : Flight where
  before := [⟨[2, 0, 0, 1], [9]⟩]
  certs := [[1], [2]]
  records := [⟨[22, 3, 3, 0, 20],
    encode ([⟨[2, 0, 0, 1], [9]⟩] ++ [certificateMessage [[1], [2]]])⟩]
  before_fits := by decide
  before_other := by decide
  certs_nonempty := by decide
  body_small := by decide
  records_fit := by decide
  carries := by decide

/-- Read in two parts, the first of which ends before the certificates. -/
theorem chain_whole_iff_early :
    (∀ count, (extractCertificates (twoCertificates.bytes.take count) = [] ∨
        extractCertificates (twoCertificates.bytes.take count) = twoCertificates.certs) ↔
        ¬ twoCertificates.Partial count) ∧
      (extractCertificates
          (fetch [twoCertificates.bytes.take 8, twoCertificates.bytes.drop 8]) =
          twoCertificates.certs ↔
        ∀ early late, [twoCertificates.bytes.take 8, twoCertificates.bytes.drop 8] =
          early ++ late → ¬ twoCertificates.Partial early.flatten.length) :=
  twoCertificates.chain_whole_iff _
    (delivers_of_short (by decide) (by decide) (by decide))

/-- Cut within the second certificate, the first is all that is read. -/
theorem second_certificate_lost :
    ¬ (extractCertificates (twoCertificates.bytes.take 22) = [] ∨
        extractCertificates (twoCertificates.bytes.take 22) = twoCertificates.certs) ∧
      extractCertificates
          (fetch [twoCertificates.bytes.take 22, twoCertificates.bytes.drop 22]) ≠
        extractCertificates (fetch [twoCertificates.bytes]) := by
  decide

end Probes
end PqcScan
