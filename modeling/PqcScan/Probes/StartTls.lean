import PqcScan.Core.Alg

/-!
# The STARTTLS dialogue

The plain-text part of `_starttls_probe.py`: the greeting, the command before STARTTLS and
the reply to STARTTLS, up to the point where the transport is upgraded or the refusal is
reported.  The servers are those that follow SMTP, FTP, POP3 or IMAP.
-/

namespace PqcScan
namespace Probes
namespace StartTls

open Library Python PqcScan.Core

/-! ## Reading lines -/

/-- The limit of `StreamReader`. -/
def streamLimit : Nat := 65536

/-- What `readline` gives within its time limit. -/
inductive ReadLine
  /-- No complete line has come. -/
  | timeout
  /-- The line is longer than the limit, a `ValueError`. -/
  | overrun
  | line (raw rest : Bytes)

/-- `StreamReader.readline` on the bytes that have come. -/
def readline (unread : Bytes) : ReadLine :=
  let front := unread.takeWhile (· != 10)
  if streamLimit < front.length then .overrun
  else if front.length = unread.length then .timeout
  else .line (front ++ [10]) (unread.drop (front.length + 1))

/-- The bytes that have come and the number of lines read before them. -/
structure Reader where
  unread : Bytes
  taken : Nat

/-- More bytes come. -/
def Reader.receive (reader : Reader) (more : Bytes) : Reader :=
  { reader with unread := reader.unread ++ more }

/-- The bytes of an ASCII text. -/
def asciiBytes (text : String) : Bytes :=
  text.toList.map fun char => UInt8.ofNat char.toNat

/-- `decode("ascii", errors="replace")`. -/
def decodeAscii (raw : Bytes) : List Char :=
  raw.map fun byte => if byte < 128 then Char.ofNat byte.toNat else Char.ofNat 0xFFFD

/-! ## The probe -/

/-- `StartTlsProtocol`. -/
structure StartTlsProtocol where
  name : String
  preLines : List String
  starttlsLine : String
  successMarker : String
  greetingLines : Nat := 1

/-- `SMTP`. -/
def smtp : StartTlsProtocol where
  name := "smtp"
  preLines := ["EHLO {host}"]
  starttlsLine := "STARTTLS"
  successMarker := "220"

/-- `IMAP`. -/
def imap : StartTlsProtocol where
  name := "imap"
  preLines := []
  starttlsLine := "a001 STARTTLS"
  successMarker := "a001 ok"

/-- `POP3`. -/
def pop3 : StartTlsProtocol where
  name := "pop3"
  preLines := []
  starttlsLine := "STLS"
  successMarker := "+ok"

/-- `FTP`. -/
def ftp : StartTlsProtocol where
  name := "ftp"
  preLines := []
  starttlsLine := "AUTH TLS"
  successMarker := "234"

/-- The endpoint that is probed. -/
structure Endpoint where
  probeId : String
  host : List Char
  port : Nat
  now : DateTime

/-- How the dialogue ends.  The number of lines read before the one that is judged tells
which line that is. -/
inductive Outcome
  /-- The transport is upgraded. -/
  | upgrade (judged : Nat)
  /-- The refusal is reported. -/
  | refused (judged : Nat) (finding : Finding)
  /-- A `ValueError` leaves the probe. -/
  | raised

/-- The reads of the greeting, up to the first that times out. -/
def readGreeting : Nat → Reader → Option Reader
  | 0, reader => some reader
  | count + 1, reader =>
      match readline reader.unread with
      | .timeout => some reader
      | .overrun => none
      | .line _ rest => readGreeting count ⟨rest, reader.taken + 1⟩

/-- `line.format(host=host)` of a line with one field. -/
def formatHost (host line : List Char) : List Char :=
  match cut "{host}".toList line with
  | some (before, after) => before ++ host ++ after
  | none => line

/-- The lines before STARTTLS are sent and answered; `encode` raises for a
host that is not ASCII. -/
def sendPreLines (host : List Char) (answer : List Char → Bytes) :
    List String → Reader → Option Reader
  | [], reader => some reader
  | line :: lines, reader =>
      let command := formatHost host line.toList
      if command.all fun char => char.toNat < 128 then
        sendPreLines host answer lines (reader.receive (answer command))
      else none

/-- The prefixes of the last line of an answer. -/
def lastLines : List Bytes := [asciiBytes "250 ", asciiBytes "220 ", asciiBytes "234 "]

/-- The loop that drains the answer. -/
def drain : Nat → Reader → Option Reader
  | 0, reader => some reader
  | count + 1, reader =>
      match readline reader.unread with
      | .timeout => some reader
      | .overrun => none
      | .line raw rest =>
          if raw.take 4 ∈ lastLines then some ⟨rest, reader.taken + 1⟩
          else drain count ⟨rest, reader.taken + 1⟩

/-- The finding of a refusal. -/
def refusal (protocol : StartTlsProtocol) (endpoint : Endpoint) (raw : Bytes) :
    Finding where
  probeId := endpoint.probeId
  algorithm := "N/A"
  classification := .info
  severity := .info
  title := "STARTTLS(" ++ protocol.name ++
    ") refused by " ++ String.ofList endpoint.host ++ ":" ++
    toString endpoint.port ++ ": " ++ String.ofList (strip (decodeAscii raw))
  evidence := Dict.empty
  createdAt := endpoint.now

/-- `response_raw.decode("ascii", errors="replace").strip().lower()`. -/
def response (raw : Bytes) : List Char := lower (strip (decodeAscii raw))

/-- What follows from a response. -/
def judge (protocol : StartTlsProtocol) (endpoint : Endpoint) (judged : Nat)
    (raw : Bytes) :
    Outcome :=
  if contains (response raw) protocol.successMarker then .upgrade judged
  else .refused judged (refusal protocol endpoint raw)

/-- The dialogue of `run_starttls_probe` with a server that sends the greeting and then
answers each command. -/
def runDialogue (protocol : StartTlsProtocol) (endpoint : Endpoint) (greeting : Bytes)
    (answer : List Char → Bytes) : Outcome :=
  match readGreeting protocol.greetingLines ⟨greeting, 0⟩ with
  | none => .raised
  | some greeted =>
      match sendPreLines endpoint.host answer protocol.preLines greeted with
      | none => .raised
      | some sent =>
          match if protocol.preLines = [] then some sent else drain 20 sent with
          | none => .raised
          | some drained =>
              let reader := drained.receive (answer protocol.starttlsLine.toList)
              match readline reader.unread with
              | .timeout => judge protocol endpoint reader.taken []
              | .overrun => .raised
              | .line raw _ => judge protocol endpoint reader.taken raw

/-! ## Servers -/

/-- The text of a line. -/
structure Text where
  bytes : Bytes
  single : 10 ∉ bytes

/-- The bytes of lines on the wire. -/
def wire (lines : List Bytes) : Bytes := lines.flatMap (· ++ [13, 10])

/-- A reply code of three digits. -/
structure Code where
  bytes : Bytes
  three : bytes.length = 3
  digits : ∀ byte ∈ bytes, 48 ≤ byte ∧ byte ≤ 57

/-- The texts of a reply of any number of lines. -/
structure Multiline where
  continued : List Text
  last : Text

/-- The lines of a reply with its code. -/
def Multiline.lines (code : Bytes) (reply : Multiline) : List Bytes :=
  reply.continued.map (fun text => code ++ asciiBytes "-" ++ text.bytes) ++
    [code ++ asciiBytes " " ++ reply.last.bytes]

/-- The status word of a tagged response, in any case. -/
structure StatusWord where
  bytes : Bytes
  status : lower (decodeAscii bytes) ∈ ["ok".toList, "no".toList, "bad".toList]

/-- What a server that follows its protocol says. -/
inductive Server
  | smtp (greeting ehlo : Multiline) (code : Code) (reply : Multiline)
  | ftp (greeting : Multiline) (code : Code) (reply : Multiline)
  | pop3 (greeting : Text) (positive : Bool) (text : Text)
  | imap (greeting : Text) (untagged : List Text) (status : StatusWord) (text : Text)

namespace Server

/-- The protocol of the server. -/
def protocol : Server → StartTlsProtocol
  | smtp .. => StartTls.smtp
  | ftp .. => StartTls.ftp
  | pop3 .. => StartTls.pop3
  | imap .. => StartTls.imap

/-- The lines of the greeting. -/
def greetingLines : Server → List Bytes
  | smtp greeting _ _ _ => greeting.lines (asciiBytes "220")
  | ftp greeting _ _ => greeting.lines (asciiBytes "220")
  | pop3 greeting _ _ => [greeting.bytes]
  | imap greeting _ _ _ => [greeting.bytes]

/-- The lines of the answer to EHLO. -/
def helloLines : Server → List Bytes
  | smtp _ ehlo _ _ => ehlo.lines (asciiBytes "250")
  | _ => []

/-- The lines between the STARTTLS command and the line with its status. -/
def untaggedLines : Server → List Bytes
  | imap _ untagged _ _ => untagged.map fun text => asciiBytes "* " ++ text.bytes
  | _ => []

/-- The reply to STARTTLS. -/
def replyLines : Server → List Bytes
  | smtp _ _ code reply => reply.lines code.bytes
  | ftp _ code reply => reply.lines code.bytes
  | pop3 _ positive text =>
      [(if positive then asciiBytes "+OK" else asciiBytes "-ERR") ++ text.bytes]
  | imap _ _ status text => [asciiBytes "a001 " ++ status.bytes ++ text.bytes]

/-- The status of the reply is the success status of the protocol. -/
def Succeeds : Server → Prop
  | smtp _ _ code _ => code.bytes = asciiBytes "220"
  | ftp _ code _ => code.bytes = asciiBytes "234"
  | pop3 _ positive _ => positive = true
  | imap _ _ status _ => lower (decodeAscii status.bytes) = "ok".toList

instance : (server : Server) → Decidable server.Succeeds
  | smtp .. => inferInstanceAs (Decidable (_ = _))
  | ftp .. => inferInstanceAs (Decidable (_ = _))
  | pop3 .. => inferInstanceAs (Decidable (_ = _))
  | imap .. => inferInstanceAs (Decidable (_ = _))

/-- What the server sends after a command. -/
def answer (server : Server) (command : List Char) : Bytes :=
  if command = server.protocol.starttlsLine.toList then
    wire (server.untaggedLines ++ server.replyLines)
  else wire server.helloLines

/-- The first line of the reply, which has its status. -/
def ownLine (server : Server) : Bytes := server.replyLines.headD []

/-- The number of lines before the reply. -/
def before (server : Server) : Nat :=
  server.greetingLines.length + server.helloLines.length + server.untaggedLines.length

/-- The outcome that the reply itself stands for. -/
def due (server : Server) (endpoint : Endpoint) : Outcome :=
  if server.Succeeds then .upgrade server.before
  else .refused server.before
    (refusal server.protocol endpoint (server.ownLine ++ [13, 10]))

/-- The probe stays in step with the server. -/
def InStep (server : Server) (endpoint : Endpoint) : Prop :=
  runDialogue server.protocol endpoint (wire server.greetingLines) server.answer =
    server.due endpoint

/-- The lines that the probe has to read are short enough, each phase reads one whole
answer, and no refusal quotes the success marker. -/
structure Readable (server : Server) (endpoint : Endpoint) : Prop where
  short : ∀ line ∈ server.greetingLines ++ server.helloLines ++ [server.ownLine],
    line.length < streamLimit
  host : server.protocol.preLines ≠ [] → ∀ char ∈ endpoint.host, char.toNat < 128
  greeting : server.greetingLines.length = 1
  hello : server.helloLines.length ≤ 20
  untagged : server.untaggedLines = []
  marker : ¬ server.Succeeds →
    contains (response (server.ownLine ++ [13, 10])) server.protocol.successMarker = false

end Server

/-! ## Lines on the wire -/

theorem wire_cons (line : Bytes) (lines : List Bytes) :
    wire (line :: lines) = line ++ [13, 10] ++ wire lines := rfl

theorem wire_append (front back : List Bytes) :
    wire (front ++ back) = wire front ++ wire back :=
  List.flatMap_append

/-- A line is read whole unless it is too long. -/
theorem readline_line {line : Bytes} (single : 10 ∉ line) (rest : Bytes) :
    readline (line ++ [13, 10] ++ rest) =
      if line.length < streamLimit then .line (line ++ [13, 10]) rest else .overrun := by
  have front : (line ++ [13, 10] ++ rest).takeWhile (· != 10) = line ++ [13] := by
    have kept : ∀ byte ∈ line ++ [13], (byte != 10) = true := by
      intro byte member
      rcases List.mem_append.mp member with inside | last
      · simpa using fun same : byte = 10 => single (same ▸ inside)
      · rw [List.mem_singleton.mp last]
        decide
    have split : line ++ [13, 10] ++ rest = (line ++ [13]) ++ 10 :: rest := by simp
    rw [split, List.takeWhile_append_of_pos kept, List.takeWhile_cons_of_neg (by decide),
      List.append_nil]
  rw [readline, front, List.length_append, List.length_singleton]
  by_cases short : line.length < streamLimit
  · have dropped : (line ++ [13, 10] ++ rest).drop (line.length + 1 + 1) = rest :=
      List.drop_left' (by simp)
    rw [if_neg (by omega), if_neg (by simp), if_pos short, dropped, List.append_assoc]
    rfl
  · rw [if_pos (by omega), if_neg short]

/-- What the drain leaves of the lines. -/
def leftOver : Nat → List Bytes → Option (List Bytes)
  | 0, lines => some lines
  | _ + 1, [] => some []
  | count + 1, line :: lines =>
      if line.length < streamLimit then
        if (line ++ [13, 10]).take 4 ∈ lastLines then some lines else leftOver count lines
      else none

theorem leftOver_suffix {count : Nat} {lines rest : List Bytes}
    (left : leftOver count lines = some rest) : rest <:+ lines := by
  induction count, lines using leftOver.induct with
  | case1 lines =>
      rw [leftOver, Option.some_inj] at left
      rw [left]
  | case2 count =>
      rw [leftOver, Option.some_inj] at left
      rw [← left]
  | case3 count line lines short last =>
      rw [leftOver, if_pos short, if_pos last, Option.some_inj] at left
      rw [← left]
      exact List.suffix_cons line lines
  | case4 count line lines short further inductionHypothesis =>
      rw [leftOver, if_pos short, if_neg further] at left
      exact (inductionHypothesis left).trans (List.suffix_cons line lines)
  | case5 count line lines long =>
      rw [leftOver, if_neg long] at left
      cases left

/-- Behind a line that ends an answer nothing is drained. -/
theorem leftOver_front {count : Nat} {front back rest : List Bytes} {last : Bytes}
    (ends : (last ++ [13, 10]).take 4 ∈ lastLines)
    (left : leftOver count (front ++ last :: back) = some rest) :
    back.length ≤ rest.length := by
  induction count generalizing front with
  | zero =>
      rw [leftOver, Option.some_inj] at left
      rw [← left, List.length_append, List.length_cons]
      omega
  | succ count inductionHypothesis =>
      cases front with
      | nil =>
          rw [List.nil_append, leftOver, if_pos ends] at left
          split at left
          · rw [Option.some_inj] at left
            rw [left]
          · cases left
      | cons line front =>
          rw [List.cons_append, leftOver] at left
          split at left
          · split at left
            · rw [Option.some_inj] at left
              rw [← left, List.length_append, List.length_cons]
              omega
            · exact inductionHypothesis left
          · cases left

/-- An answer is drained whole exactly when it is not too long. -/
theorem leftOver_answer {count : Nat} {continued : List Bytes} {last : Bytes}
    (going : ∀ line ∈ continued, (line ++ [13, 10]).take 4 ∉ lastLines)
    (ends : (last ++ [13, 10]).take 4 ∈ lastLines) :
    leftOver count (continued ++ [last]) = some [] ↔
      continued.length < count ∧ ∀ line ∈ continued ++ [last],
        line.length < streamLimit := by
  induction continued generalizing count with
  | nil =>
      cases count with
      | zero => simp [leftOver]
      | succ count => simp [leftOver, ends]
  | cons line continued inductionHypothesis =>
      rw [List.forall_mem_cons] at going
      cases count with
      | zero => simp [leftOver]
      | succ count =>
          rw [List.cons_append, leftOver, if_neg going.1, List.forall_mem_cons,
            List.length_cons, Nat.succ_lt_succ_iff]
          by_cases short : line.length < streamLimit
          · rw [if_pos short, inductionHypothesis going.2]
            simp [short]
          · rw [if_neg short]
            simp [short]

/-- The drain goes line by line. -/
theorem drain_wire {count : Nat} {lines : List Bytes} (single : ∀ line ∈ lines, 10 ∉ line)
    (taken : Nat) :
    drain count ⟨wire lines, taken⟩ =
      (leftOver count lines).map fun rest =>
        ⟨wire rest, taken + (lines.length - rest.length)⟩ := by
  induction count generalizing lines taken with
  | zero => simp [drain, leftOver]
  | succ count inductionHypothesis =>
      cases lines with
      | nil => rfl
      | cons line lines =>
          rw [List.forall_mem_cons] at single
          rw [drain, wire_cons, readline_line single.1, leftOver]
          by_cases short : line.length < streamLimit
          · rw [if_pos short, if_pos short]
            by_cases last : (line ++ [13, 10]).take 4 ∈ lastLines
            · simp [last]
            · simp only [last, if_false]
              rw [inductionHypothesis single.2]
              cases left : leftOver count lines with
              | none => rfl
              | some rest =>
                  have shorter := (leftOver_suffix left).length_le
                  rw [Option.map_some, Option.map_some, List.length_cons]
                  congr 2
                  omega
          · rw [if_neg short, if_neg short]
            rfl

/-- What the probe makes of lines. -/
def runLines (protocol : StartTlsProtocol) (endpoint : Endpoint)
    (first : Bytes) (more hello reply : List Bytes) : Outcome :=
  if first.length < streamLimit then
    if protocol.preLines = [] ∨ ∀ char ∈ endpoint.host, char.toNat < 128 then
      match if protocol.preLines = [] then some more else leftOver 20 (more ++ hello) with
      | none => .raised
      | some rest =>
          match rest ++ reply with
          | [] => judge protocol endpoint (1 + ((more ++ hello).length - rest.length)) []
          | line :: _ =>
              if line.length < streamLimit then
                judge protocol endpoint (1 + ((more ++ hello).length - rest.length))
                  (line ++ [13, 10])
              else .raised
    else .raised
  else .raised

/-- The next line. -/
def nextLine : List Bytes → ReadLine
  | [] => .timeout
  | line :: rest =>
      if line.length < streamLimit then .line (line ++ [13, 10]) (wire rest) else .overrun

theorem readline_wire {lines : List Bytes} (single : ∀ line ∈ lines, 10 ∉ line) :
    readline (wire lines) = nextLine lines := by
  cases lines with
  | nil => rfl
  | cons line lines =>
      rw [List.forall_mem_cons] at single
      exact readline_line single.1 _

theorem receive_wire (lines more : List Bytes) (taken : Nat) :
    (Reader.mk (wire lines) taken).receive
      (wire more) = ⟨wire (lines ++ more), taken⟩ := by
  rw [Reader.receive, wire_append]

section Dialogue

variable {endpoint : Endpoint} {answer : List Char → Bytes} {first : Bytes}
  {more hello reply : List Bytes}

theorem readGreeting_wire (single : 10 ∉ first) :
    readGreeting 1 ⟨wire (first :: more), 0⟩ =
      if first.length < streamLimit then some ⟨wire more, 1⟩ else none := by
  rw [readGreeting, wire_cons, readline_line single]
  by_cases short : first.length < streamLimit
  · rw [if_pos short, if_pos short]
    rfl
  · rw [if_neg short, if_neg short]

/-- The reply is read and judged on lines. -/
theorem judged_wire {protocol : StartTlsProtocol} {rest : List Bytes} {taken : Nat}
    (single : ∀ line ∈ rest ++ reply, 10 ∉ line)
    (replies : answer protocol.starttlsLine.toList = wire reply) :
    (let reader := (Reader.mk (wire rest) taken).receive
      (answer protocol.starttlsLine.toList);
      match readline reader.unread with
      | .timeout => judge protocol endpoint reader.taken []
      | .overrun => .raised
      | .line raw _ => judge protocol endpoint reader.taken raw) =
    match rest ++ reply with
    | [] => judge protocol endpoint taken []
    | line :: _ =>
        if line.length < streamLimit then judge protocol endpoint taken (line ++ [13, 10])
        else .raised := by
  rw [replies, receive_wire]
  dsimp only
  rw [readline_wire single]
  cases rest ++ reply with
  | nil => rfl
  | cons line lines =>
      rw [nextLine]
      by_cases short : line.length < streamLimit
      · rw [if_pos short]
        exact (if_pos short).symm
      · rw [if_neg short]
        exact (if_neg short).symm

/-- A protocol without lines before STARTTLS. -/
theorem runDialogue_direct {protocol : StartTlsProtocol}
    (once : protocol.greetingLines = 1)
    (direct : protocol.preLines = [])
    (single : ∀ line ∈ first :: more ++ reply, 10 ∉ line)
    (replies : answer protocol.starttlsLine.toList = wire reply) :
    runDialogue protocol endpoint (wire (first :: more)) answer =
      runLines protocol endpoint first more [] reply := by
  rw [List.cons_append, List.forall_mem_cons] at single
  rw [runDialogue, once, readGreeting_wire single.1, runLines, direct]
  by_cases short : first.length < streamLimit
  · rw [if_pos short, if_pos short, if_pos (Or.inl rfl), if_pos rfl, List.append_nil]
    dsimp only [sendPreLines]
    rw [if_pos rfl, Nat.sub_self]
    exact judged_wire single.2 replies
  · rw [if_neg short, if_neg short]

/-- SMTP sends EHLO first. -/
theorem runDialogue_smtp (single : ∀ line ∈ first :: (more ++ hello) ++ reply, 10 ∉ line)
    (hellos : answer ("EHLO ".toList ++ endpoint.host) = wire hello)
    (replies : answer smtp.starttlsLine.toList = wire reply) :
    runDialogue smtp endpoint (wire (first :: more)) answer =
      runLines smtp endpoint first more hello reply := by
  rw [List.cons_append, List.forall_mem_cons] at single
  have once : smtp.greetingLines = 1 := rfl
  have lines : smtp.preLines = ["EHLO {host}"] := rfl
  have field : cut "{host}".toList "EHLO {host}".toList = some ("EHLO ".toList, []) := by
    decide
  have command : formatHost endpoint.host "EHLO {host}".toList =
      "EHLO ".toList ++ endpoint.host := by
    rw [formatHost, field]
    exact List.append_nil _
  have ascii : (("EHLO ".toList ++ endpoint.host).all fun char =>
      char.toNat < 128) = true ↔
      ∀ char ∈ endpoint.host, char.toNat < 128 := by
    have head : ("EHLO ".toList.all fun char => char.toNat < 128) = true := by decide
    rw [List.all_append, head, Bool.true_and, List.all_eq_true]
    simp only [decide_eq_true_eq]
  rw [runDialogue, once, readGreeting_wire single.1, runLines, lines]
  have someLines : ¬ ["EHLO {host}"] = [] := List.cons_ne_nil _ _
  by_cases short : first.length < streamLimit
  · rw [if_pos short, if_pos short]
    simp only [someLines, false_or, if_false, sendPreLines]
    rw [command]
    by_cases encodes : ∀ char ∈ endpoint.host, char.toNat < 128
    · rw [if_pos encodes, if_pos (ascii.mpr encodes), hellos, receive_wire]
      dsimp only
      rw [drain_wire fun line member => single.2 line (List.mem_append_left _ member)]
      cases left : leftOver 20 (more ++ hello) with
      | none => rfl
      | some rest =>
          have within : ∀ line ∈ rest ++ reply, 10 ∉ line := by
            intro line member
            apply single.2
            rcases List.mem_append.mp member with remaining | replied
            · exact List.mem_append_left _ ((leftOver_suffix left).subset remaining)
            · exact List.mem_append_right _ replied
          exact judged_wire within replies
    · rw [if_neg encodes, if_neg (mt ascii.mp encodes)]
  · rw [if_neg short, if_neg short]

end Dialogue

/-- The number of lines read before the one that is judged. -/
def place : Outcome → Option Nat
  | .upgrade judged => some judged
  | .refused judged _ => some judged
  | .raised => none

theorem place_judge {protocol : StartTlsProtocol} {endpoint : Endpoint} {judged : Nat}
    {raw : Bytes} : place (judge protocol endpoint judged raw) = some judged := by
  rw [judge]
  split <;> rfl

/-- What has to go well before a line is judged. -/
theorem runLines_judged {protocol : StartTlsProtocol} {endpoint : Endpoint}
    {first : Bytes}
    {more hello reply : List Bytes} {judged : Nat} (filled : reply ≠ [])
    (placed : place (runLines protocol endpoint first more hello reply) = some judged) :
    first.length < streamLimit ∧
    (protocol.preLines = [] ∨ ∀ char ∈ endpoint.host, char.toNat < 128) ∧
    ∃ rest line others,
      (if protocol.preLines = [] then some more else leftOver 20 (more ++ hello)) =
        some rest ∧
      rest ++ reply = line :: others ∧ line.length < streamLimit ∧
      judged = 1 + ((more ++ hello).length - rest.length) := by
  rw [runLines] at placed
  by_cases short : first.length < streamLimit
  · rw [if_pos short] at placed
    by_cases encodes : protocol.preLines = [] ∨ ∀ char ∈ endpoint.host, char.toNat < 128
    · rw [if_pos encodes] at placed
      refine ⟨short, encodes, ?_⟩
      cases left : if protocol.preLines = [] then some more
        else leftOver 20 (more ++ hello) with
      | none =>
          rw [left] at placed
          cases placed
      | some rest =>
          rw [left] at placed
          dsimp only at placed
          cases lines : rest ++ reply with
          | nil => exact absurd (List.append_eq_nil_iff.mp lines).2 filled
          | cons line others =>
              rw [lines] at placed
              dsimp only at placed
              by_cases own : line.length < streamLimit
              · rw [if_pos own, place_judge, Option.some_inj] at placed
                exact ⟨rest, line, others, rfl, lines, own, placed.symm⟩
              · rw [if_neg own] at placed
                cases placed
    · rw [if_neg encodes] at placed
      cases placed
  · rw [if_neg short] at placed
    cases placed

/-! ## What servers send -/

theorem isSpace_toLower (char : Char) : isSpace char.toLower = isSpace char := by
  revert char
  apply forall_char
  · decide
  · intro char lower _
    rw [lower]

/-- What a line starts with is found in the response. -/
theorem contains_response {label rest : Bytes} {marker : String}
    (spelled : lower (decodeAscii label) = marker.toList)
    (opens : ∀ char ∈ marker.toList.head?, isSpace char = false)
    (closes : ∀ char ∈ marker.toList.getLast?, isSpace char = false) :
    contains (response (label ++ rest)) marker = true := by
  rw [contains_iff, response, ← spelled]
  rw [← spelled, lower, List.head?_map] at opens
  rw [← spelled, lower, List.getLast?_map] at closes
  have within : decodeAscii label <:+: strip (decodeAscii (label ++ rest)) := by
    apply infix_strip_of_ends
    · rw [decodeAscii, decodeAscii, List.map_append]
      exact (List.prefix_append _ _).isInfix
    · intro char first
      rw [← isSpace_toLower]
      exact opens _ (Option.mem_map_of_mem _ first)
    · intro char last
      rw [← isSpace_toLower]
      exact closes _ (Option.mem_map_of_mem _ last)
  exact within.map _

theorem not_mem_asciiBytes :
    ∀ text ∈ ["220", "250", "-", " ", "+OK", "-ERR", "* ", "a001 "],
    10 ∉ asciiBytes text := by
  decide

theorem Code.single (code : Code) : 10 ∉ code.bytes := by
  intro member
  exact absurd (code.digits 10 member).1 (by decide)

theorem StatusWord.single (status : StatusWord) : 10 ∉ status.bytes := by
  intro member
  have decoded : '\n' ∈ decodeAscii status.bytes :=
    List.mem_map.mpr ⟨10, member, by decide⟩
  have lowered : '\n' ∈ lower (decodeAscii status.bytes) :=
    List.mem_map.mpr ⟨'\n', decoded, by decide⟩
  have words : ∀ word ∈ ["ok".toList, "no".toList, "bad".toList], '\n' ∉ word := by
    decide
  exact words _ status.status lowered

theorem Multiline.single {code : Bytes} (plain : 10 ∉ code) (reply : Multiline) :
    ∀ line ∈ reply.lines code, 10 ∉ line := by
  have hyphen := not_mem_asciiBytes "-" (by simp)
  have space := not_mem_asciiBytes " " (by simp)
  intro line member
  rcases List.mem_append.mp member with continued | last
  · obtain ⟨text, -, rfl⟩ := List.mem_map.mp continued
    simp [plain, hyphen, text.single]
  · rw [List.mem_singleton.mp last]
    simp [plain, space, reply.last.single]

namespace Server

variable (server : Server)

theorem single : ∀ line ∈ server.greetingLines ++ server.helloLines ++
    (server.untaggedLines ++ server.replyLines), 10 ∉ line := by
  have literal := not_mem_asciiBytes
  cases server with
  | smtp greeting ehlo code reply =>
      simp only [greetingLines, helloLines, untaggedLines, replyLines, List.nil_append,
        List.forall_mem_append]
      exact ⟨⟨greeting.single (literal _ (by simp)), ehlo.single (literal _ (by simp))⟩,
        reply.single code.single⟩
  | ftp greeting code reply =>
      simp only [greetingLines, helloLines, untaggedLines, replyLines, List.nil_append,
        List.append_nil, List.forall_mem_append]
      exact ⟨greeting.single (literal _ (by simp)), reply.single code.single⟩
  | pop3 greeting positive text =>
      simp only [greetingLines, helloLines, untaggedLines, replyLines, List.nil_append,
        List.append_nil, List.forall_mem_append, List.forall_mem_singleton]
      refine ⟨greeting.single, ?_⟩
      cases positive with
      | true => simp [literal "+OK" (by simp), text.single]
      | false => simp [literal "-ERR" (by simp), text.single]
  | imap greeting untagged status text =>
      simp only [greetingLines, helloLines, untaggedLines, replyLines,
        List.append_nil, List.forall_mem_append, List.forall_mem_singleton]
      refine ⟨greeting.single, ?_, ?_⟩
      · intro line member
        obtain ⟨source, -, rfl⟩ := List.mem_map.mp member
        simp [literal "* " (by simp), source.single]
      · simp [literal "a001 " (by simp), status.single, text.single]

theorem lines_ne_nil (code : Bytes) (reply : Multiline) : reply.lines code ≠ [] :=
  List.append_ne_nil_of_right_ne_nil _ (List.cons_ne_nil _ _)

theorem greetingLines_ne_nil : server.greetingLines ≠ [] := by
  cases server with
  | smtp greeting ehlo code reply => exact lines_ne_nil _ greeting
  | ftp greeting code reply => exact lines_ne_nil _ greeting
  | pop3 greeting positive text => exact List.cons_ne_nil _ _
  | imap greeting untagged status text => exact List.cons_ne_nil _ _

theorem replyLines_eq : ∃ others, server.replyLines = server.ownLine :: others := by
  have filled : server.replyLines ≠ [] := by
    cases server with
    | smtp greeting ehlo code reply => exact lines_ne_nil _ reply
    | ftp greeting code reply => exact lines_ne_nil _ reply
    | pop3 greeting positive text => exact List.cons_ne_nil _ _
    | imap greeting untagged status text => exact List.cons_ne_nil _ _
  obtain ⟨own, others, equal⟩ := List.exists_cons_of_ne_nil filled
  exact ⟨others, by rw [ownLine, equal, List.headD_cons]⟩

/-- The dialogue with a server goes by the lines of the server. -/
theorem runDialogue_eq {endpoint : Endpoint} {first : Bytes} {more : List Bytes}
    (greeting : server.greetingLines = first :: more) :
    runDialogue server.protocol endpoint (wire server.greetingLines) server.answer =
      runLines server.protocol endpoint first more server.helloLines
        (server.untaggedLines ++ server.replyLines) := by
  have single := server.single
  rw [greeting] at single ⊢
  have replies : server.answer server.protocol.starttlsLine.toList =
      wire (server.untaggedLines ++ server.replyLines) := if_pos rfl
  cases server with
  | smtp greeting ehlo code reply =>
      apply runDialogue_smtp
      · simpa using single
      · apply if_neg
        intro same
        have hello : "EHLO ".toList.head? = some 'E' := by decide
        have other : StartTls.smtp.starttlsLine.toList.head? = some 'S' := by decide
        have letter := congrArg List.head? same
        rw [List.head?_append, hello] at letter
        cases letter.trans other
      · exact replies
  | ftp greeting code reply =>
      exact runDialogue_direct rfl rfl (by simpa [helloLines] using single) replies
  | pop3 greeting positive text =>
      exact runDialogue_direct rfl rfl (by simpa [helloLines] using single) replies
  | imap greeting untagged status text =>
      exact runDialogue_direct rfl rfl (by simpa [helloLines] using single) replies

theorem place_due (endpoint : Endpoint) :
    place (server.due endpoint) = some server.before := by
  rw [due]
  split <;> rfl

/-- The first line of a reply starts with the code. -/
theorem headD_lines (code : Bytes) (reply : Multiline) :
    ∃ rest, (reply.lines code).headD [] = code ++ rest := by
  rw [Multiline.lines]
  cases reply.continued with
  | nil => exact ⟨asciiBytes " " ++ reply.last.bytes, List.append_assoc _ _ _⟩
  | cons text texts => exact ⟨asciiBytes "-" ++ text.bytes, List.append_assoc _ _ _⟩

/-- A reply of success has the marker. -/
theorem contains_of_succeeds (succeeds : server.Succeeds) :
    contains (response (server.ownLine ++ [13, 10])) server.protocol.successMarker =
      true := by
  have ends : ∀ marker ∈ ["220", "234", "+ok", "a001 ok"],
      (∀ char ∈ marker.toList.head?, isSpace char = false) ∧
        ∀ char ∈ marker.toList.getLast?, isSpace char = false := by decide
  have labelled : ∀ {label : Bytes} {marker : String} (rest : Bytes),
      marker ∈ ["220", "234", "+ok", "a001 ok"] →
      lower (decodeAscii label) = marker.toList →
        contains (response (label ++ rest ++ [13, 10])) marker = true := by
    intro label marker rest member spelled
    rw [List.append_assoc]
    exact contains_response spelled (ends marker member).1 (ends marker member).2
  cases server with
  | smtp greeting ehlo code reply =>
      obtain ⟨rest, first⟩ := headD_lines code.bytes reply
      have spelled : lower (decodeAscii code.bytes) = "220".toList := by
        rw [show code.bytes = asciiBytes "220" from succeeds]
        decide
      have marked := labelled rest (by simp) spelled
      rw [← first] at marked
      exact marked
  | ftp greeting code reply =>
      obtain ⟨rest, first⟩ := headD_lines code.bytes reply
      have spelled : lower (decodeAscii code.bytes) = "234".toList := by
        rw [show code.bytes = asciiBytes "234" from succeeds]
        decide
      have marked := labelled rest (by simp) spelled
      rw [← first] at marked
      exact marked
  | pop3 greeting positive text =>
      cases positive with
      | true => exact @labelled (asciiBytes "+OK") "+ok" text.bytes (by simp) (by decide)
      | false => cases succeeds
  | imap greeting untagged status text =>
      apply @labelled (asciiBytes "a001 " ++ status.bytes) "a001 ok" text.bytes (by simp)
      have tag : lower (decodeAscii (asciiBytes "a001 ")) = "a001 ".toList := by decide
      have word : lower (decodeAscii status.bytes) = "ok".toList := succeeds
      rw [decodeAscii, List.map_append, lower, List.map_append]
      change lower (decodeAscii (asciiBytes "a001 ")) ++ lower
        (decodeAscii status.bytes) = _
      rw [tag, word]
      decide

/-- The reply itself is judged as it should be unless a refusal quotes the marker. -/
theorem judge_eq_due {endpoint : Endpoint} :
    judge server.protocol endpoint server.before (server.ownLine ++ [13, 10]) =
        server.due endpoint ↔
      (¬ server.Succeeds →
        contains (response (server.ownLine ++ [13, 10])) server.protocol.successMarker =
          false) := by
  rw [judge, due]
  by_cases succeeds : server.Succeeds
  · rw [if_pos (server.contains_of_succeeds succeeds), if_pos succeeds]
    exact iff_of_true rfl fun fails => absurd succeeds fails
  · rw [if_neg succeeds, imp_iff_right succeeds]
    cases contains (response (server.ownLine ++ [13, 10]))
      server.protocol.successMarker <;> simp

/-- Nothing is left over exactly when the greeting has no further line and the whole
answer is drained. -/
theorem drained_iff {first : Bytes} {more : List Bytes}
    (greeting : server.greetingLines = first :: more) :
    (if server.protocol.preLines = [] then some more
        else leftOver 20 (more ++ server.helloLines)) = some [] ↔
      more = [] ∧ server.helloLines.length ≤ 20 ∧
        ∀ line ∈ server.helloLines, line.length < streamLimit := by
  have direct : server.protocol.preLines = [] → server.helloLines = [] →
      ((if server.protocol.preLines = [] then some more
          else leftOver 20 (more ++ server.helloLines)) = some [] ↔
        more = [] ∧ server.helloLines.length ≤ 20 ∧
          ∀ line ∈ server.helloLines, line.length < streamLimit) := by
    intro preLines hello
    rw [if_pos preLines, hello, Option.some_inj]
    simp
  cases server with
  | smtp opening ehlo code reply =>
      have preLines : ¬ (smtp opening ehlo code reply).protocol.preLines = [] :=
        List.cons_ne_nil _ _
      rw [if_neg preLines]
      cases further : opening.continued with
      | nil =>
          have alone : more = [] := by
            rw [greetingLines, Multiline.lines, further, List.map_nil, List.nil_append,
              List.cons.injEq] at greeting
            exact greeting.2.symm
          rw [alone, List.nil_append, and_iff_right rfl, helloLines, Multiline.lines,
            leftOver_answer, List.length_append, List.length_singleton,
            Nat.lt_iff_add_one_le]
          · intro line member
            obtain ⟨text, -, rfl⟩ := List.mem_map.mp member
            have hyphen : (asciiBytes "250" ++ asciiBytes "-" ++ text.bytes ++
                [13, 10]).take 4 =
                asciiBytes "250-" := rfl
            rw [hyphen]
            decide
          · have space : (asciiBytes "250" ++ asciiBytes " " ++ ehlo.last.bytes ++
                [13, 10]).take 4 =
                asciiBytes "250 " := rfl
            rw [space]
            decide
      | cons text texts =>
          rw [greetingLines, Multiline.lines, further, List.map_cons, List.cons_append,
            List.cons.injEq] at greeting
          have many : more ≠ [] := by
            rw [← greeting.2]
            exact List.append_ne_nil_of_right_ne_nil _ (List.cons_ne_nil _ _)
          refine iff_of_false ?_ fun impossible => many impossible.1
          intro left
          rw [← greeting.2, List.append_assoc, List.singleton_append] at left
          have space :
              (asciiBytes "220" ++ asciiBytes " " ++ opening.last.bytes ++
                [13, 10]).take 4 =
                asciiBytes "220 " := rfl
          have answered := leftOver_front (by rw [space]; decide) left
          rw [helloLines, Multiline.lines, List.length_append] at answered
          exact absurd answered (by simp)
  | ftp opening code reply => exact direct rfl rfl
  | pop3 opening positive text => exact direct rfl rfl
  | imap opening untagged status text => exact direct rfl rfl

/-- The probe stays in step with a server exactly when it can read what the server sends:
each line is short enough, each phase is one whole answer, and no refusal quotes the
success marker. -/
theorem inStep_iff (endpoint : Endpoint) :
    server.InStep endpoint ↔ server.Readable endpoint := by
  obtain ⟨first, more, greeting⟩ := List.exists_cons_of_ne_nil server.greetingLines_ne_nil
  obtain ⟨others, reply⟩ := server.replyLines_eq
  have drained := server.drained_iff greeting
  have shortLines :
      (∀ line ∈ server.greetingLines ++ server.helloLines ++ [server.ownLine],
        line.length < streamLimit) ↔ (first.length < streamLimit ∧
        ∀ line ∈ more, line.length < streamLimit) ∧
        (∀ line ∈ server.helloLines, line.length < streamLimit) ∧
        server.ownLine.length < streamLimit := by
    rw [greeting, List.forall_mem_append, List.forall_mem_append, List.forall_mem_cons,
      List.forall_mem_singleton, and_assoc]
  have counted : server.before =
      1 + more.length + server.helloLines.length + server.untaggedLines.length := by
    rw [before, greeting, List.length_cons]
    omega
  have filled : server.untaggedLines ++ server.replyLines ≠ [] := by
    rw [reply]
    exact List.append_ne_nil_of_right_ne_nil _ (List.cons_ne_nil _ _)
  rw [InStep, server.runDialogue_eq greeting]
  constructor
  · intro inStep
    have placed := congrArg place inStep
    rw [place_due] at placed
    obtain ⟨opening, encodes, rest, line, later, left, lines, own, count⟩ :=
      runLines_judged filled placed
    have none : rest.length = 0 ∧ server.untaggedLines.length = 0 := by
      rw [counted, List.length_append] at count
      have bound : rest.length ≤ (more ++ server.helloLines).length := by
        split at left
        · rw [Option.some_inj] at left
          rw [← left, List.length_append]
          exact Nat.le_add_right _ _
        · exact (leftOver_suffix left).length_le
      rw [List.length_append] at bound
      omega
    rw [List.length_eq_zero_iff, List.length_eq_zero_iff] at none
    rw [none.1] at left
    obtain ⟨alone, hello, answered⟩ := drained.mp left
    rw [none.1, none.2, reply, List.nil_append, List.nil_append, List.cons.injEq] at lines
    rw [← lines.1] at own
    refine ⟨shortLines.mpr ⟨⟨opening, ?_⟩, answered, own⟩,
      or_iff_not_imp_left.mp encodes, ?_, hello, none.2, ?_⟩
    · rw [alone]
      exact nofun
    · rw [greeting, alone]
      rfl
    · rw [← server.judge_eq_due, ← inStep, runLines, if_pos opening, if_pos encodes,
        left, none.2, List.nil_append, reply]
      dsimp only [List.nil_append]
      rw [if_pos own, counted, none.2, alone]
      rfl
  · rintro ⟨short, host, once, hello, untagged, marker⟩
    have alone : more = [] := by
      rw [greeting, List.length_cons] at once
      exact List.length_eq_zero_iff.mp (by omega)
    obtain ⟨opening, answered, own⟩ := shortLines.mp short
    rw [runLines, if_pos opening.1, if_pos (or_iff_not_imp_left.mpr host),
      drained.mpr ⟨alone, hello, answered⟩, untagged, List.nil_append, reply]
    dsimp only [List.nil_append]
    rw [if_pos own, ← server.judge_eq_due.mpr marker, counted, untagged, alone]
    rfl

/-- A server whose greeting has two lines. -/
def banner : Server :=
  .smtp ⟨[⟨asciiBytes "mail", by decide⟩], ⟨asciiBytes "ready", by decide⟩⟩
    ⟨[⟨asciiBytes "mail", by decide⟩], ⟨asciiBytes "STARTTLS", by decide⟩⟩
    ⟨asciiBytes "220", by decide, by decide +kernel⟩
    ⟨[], ⟨asciiBytes "go", by decide⟩⟩

/-- The answer to EHLO is taken for a refusal of STARTTLS. -/
theorem banner_not_inStep : ¬ ∀ server endpoint, InStep server endpoint := by
  intro always
  have placed := congrArg place
    (always banner ⟨"net.starttls.smtp", "mail".toList, 25, 0⟩)
  exact absurd placed (by decide +kernel)

end Server

end StartTls
end Probes
end PqcScan
