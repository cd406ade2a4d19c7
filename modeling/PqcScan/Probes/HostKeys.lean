import PqcScan.Library.Base64
import PqcScan.Probes.ByteOrder
import PqcScan.Probes.Exclusion
import PqcScan.Probes.FileScans
import PqcScan.Probes.SshKexinit
import PqcScan.Python.Lines
import Mathlib.Data.Nat.Size

/-!
# Public keys of SSH

`FsSshHostKeys` of `fs_ssh_host_keys.py`: the lines of `authorized_keys` and of `*.pub`
files, and the length of an RSA modulus in a key blob.
-/

namespace PqcScan
namespace Probes

open Library Python PqcScan.Core

/-! ## Lines -/

/-- `_CERT_SUFFIX`. -/
def certSuffix : String := "-cert-v01@openssh.com"

/-- The type of a key or of the key in a certificate. -/
def baseType (token : List Char) : List Char :=
  if endsWith token certSuffix then token.take (token.length - certSuffix.toList.length)
  else token

/-- `_is_key_type`. -/
def isKeyType (token : List Char) : Bool :=
  ["ssh-", "ecdsa-", "sk-"].any (startsWith (baseType token))

/-- `" ".join(words)`. -/
def unwords (words : List (List Char)) : List Char := [' '].intercalate words

/-- The loop of `_parse_line`. -/
def parseTokens : List (List Char) → Option (List Char × Option (List Char) × List Char)
  | [] => none
  | token :: rest =>
      if isKeyType token then some (token, rest.head?, unwords rest.tail)
      else parseTokens rest

/-- `_parse_line`. -/
def parseLine (line : List Char) : Option (List Char × Option (List Char) × List Char) :=
  parseTokens (splitWords line)

/-! ## Blobs -/

/-- The fields of `_rsa_bits`: at most so many strings with their lengths before them. -/
def blobFields : Nat → Bytes → List Bytes
  | 0, _ => []
  | count + 1, raw =>
      if raw.length < 4 then []
      else
        let length := bigEndian (raw.take 4)
        let rest := raw.drop 4
        if rest.length < length then []
        else rest.take length :: blobFields count (rest.drop length)

/-- `_rsa_bits`. -/
def rsaModulusBits (blob : List Char) : Option Nat :=
  match Base64.decode blob with
  | none => none
  | some raw =>
      match blobFields 3 raw with
      | [name, _, modulus] =>
          if name = asciiEncode "ssh-rsa".toList then some (Nat.size (bigEndian modulus))
          else none
      | _ => none

/-- `_ECDSA_CURVE`. -/
def ecdsaCurve : List (String × String) :=
  [("ecdsa-sha2-nistp256", "ECDSA-P256"),
    ("ecdsa-sha2-nistp384", "ECDSA-P384"),
    ("ecdsa-sha2-nistp521", "ECDSA-P521"),
    ("sk-ecdsa-sha2-nistp256@openssh.com", "FIDO-ECDSA-P256")]

/-- `_classify`. -/
def classifyKey (keyType : List Char) (blob : Option (List Char)) :
    List Char × Classification :=
  let base := baseType keyType
  if oneOf base ["ssh-dss"] then ("DSA".toList, .tinggi)
  else if oneOf base ["ssh-rsa"] then
    match blob.bind fun text => if text = [] then none else rsaModulusBits text with
    | none => ("RSA".toList, .sederhana)
    | some bits =>
        ("RSA-".toList ++ Nat.toDigits 10 bits, if bits < 2048 then .tinggi
          else .sederhana)
  else
    match lookupName ecdsaCurve base with
    | some algorithm => (algorithm, .sederhana)
    | none =>
        if oneOf base ["ssh-ed25519", "sk-ssh-ed25519@openssh.com"] then
          (if startsWith base "sk-" then "FIDO-Ed25519".toList
            else "Ed25519".toList, .sederhana)
        else (base, .info)

/-- What `_scan` emits for a line. -/
def lineFindings (now : DateTime) (path : Path) (lineNo : Nat) (raw : List Char) :
    List Finding :=
  let line := strip raw
  if line = [] ∨ startsWith line "#" = true then []
  else
    match parseLine line with
    | none => []
    | some (keyType, blob, comment) =>
        let (algorithm, cls) := classifyKey keyType blob
        let isCert := endsWith keyType certSuffix
        let label := String.ofList algorithm ++ if isCert then " (CA-signed cert)" else ""
        [{ probeId := "fs.ssh.host_keys"
           algorithm := String.ofList algorithm
           classification := cls
           severity := sevFor cls
           title := "SSH public key in " ++ String.ofList path.name ++ ": " ++
             String.ofList keyType ++ " (" ++ label ++ ")"
           evidence := Dict.ofList [("path", .str path.str), ("line", .int lineNo),
             ("key_type", .str (String.ofList keyType)),
             ("comment", .str (String.ofList comment)), ("is_certificate", .bool isCert)]
           createdAt := now }]

/-- `_scan`. -/
def scanKeys (now : DateTime) (path : Path) (text : List Char) : List Finding :=
  ((splitLines text).zipIdx 1).flatMap fun line => lineFindings now path line.2 line.1

/-! ## Encoded keys -/

/-- A string with its length before it. -/
def sshString (bytes : Bytes) : Bytes := bigBytes 4 bytes.length ++ bytes

/-- The bytes of a multiple-precision integer: as few as leave the highest bit clear. -/
def mpintBytes (value : Nat) : Bytes :=
  if value = 0 then [] else bigBytes (Nat.size value / 8 + 1) value

/-- Bytes that a string can hold. -/
structure SshField where
  bytes : Bytes
  short : bytes.length < 256 ^ 4

/-- An integer that a string can hold. -/
structure Mpint where
  value : Nat
  short : (mpintBytes value).length < 256 ^ 4

namespace Mpint

/-- The field of an integer. -/
def field (integer : Mpint) : SshField := ⟨mpintBytes integer.value, integer.short⟩

end Mpint

/-- The types of the keys that are not RSA. -/
inductive KeyKind
  | dss
  | ecdsa256
  | ecdsa384
  | ecdsa521
  | ed25519
  | skEcdsa256
  | skEd25519

/-- The name of a type, for a key and for a certificate. -/
def KeyKind.name : KeyKind → Bool → String
  | .dss, false => "ssh-dss"
  | .dss, true => "ssh-dss-cert-v01@openssh.com"
  | .ecdsa256, false => "ecdsa-sha2-nistp256"
  | .ecdsa256, true => "ecdsa-sha2-nistp256-cert-v01@openssh.com"
  | .ecdsa384, false => "ecdsa-sha2-nistp384"
  | .ecdsa384, true => "ecdsa-sha2-nistp384-cert-v01@openssh.com"
  | .ecdsa521, false => "ecdsa-sha2-nistp521"
  | .ecdsa521, true => "ecdsa-sha2-nistp521-cert-v01@openssh.com"
  | .ed25519, false => "ssh-ed25519"
  | .ed25519, true => "ssh-ed25519-cert-v01@openssh.com"
  | .skEcdsa256, false => "sk-ecdsa-sha2-nistp256@openssh.com"
  | .skEcdsa256, true => "sk-ecdsa-sha2-nistp256-cert-v01@openssh.com"
  | .skEd25519, false => "sk-ssh-ed25519@openssh.com"
  | .skEd25519, true => "sk-ssh-ed25519-cert-v01@openssh.com"

/-- A public key. -/
inductive PublicKey
  | rsa (exponent modulus : Mpint)
  /-- A certificate, with what stands behind the modulus. -/
  | rsaCertificate (nonce : SshField) (exponent modulus : Mpint) (rest : Bytes)
  /-- A key or a certificate of another type, with what stands behind the type. -/
  | other (kind : KeyKind) (certified : Bool) (rest : Bytes)

namespace PublicKey

/-- The type of the key. -/
def keyType : PublicKey → String
  | .rsa _ _ => "ssh-rsa"
  | .rsaCertificate _ _ _ _ => "ssh-rsa-cert-v01@openssh.com"
  | .other kind certified _ => kind.name certified

/-- The encoding of the key. -/
def blob (key : PublicKey) : Bytes :=
  sshString (asciiEncode key.keyType.toList) ++
    match key with
    | .rsa exponent modulus =>
        sshString exponent.field.bytes ++ sshString modulus.field.bytes
    | .rsaCertificate nonce exponent modulus rest =>
        sshString nonce.bytes ++
          (sshString exponent.field.bytes ++ (sshString modulus.field.bytes ++ rest))
    | .other _ _ rest => rest

/-- The modulus of an RSA key. -/
def modulus? : PublicKey → Option Nat
  | .rsa _ modulus => some modulus.value
  | .rsaCertificate _ _ modulus _ => some modulus.value
  | .other _ _ _ => none

/-- The certificate of an RSA key. -/
def IsRsaCertificate : PublicKey → Prop
  | .rsaCertificate _ _ _ _ => True
  | _ => False

end PublicKey

/-! ## Lines of keys -/

/-- A character of a quoted value. -/
inductive QuotedChar
  | plain (char : Char) (unquoted : char ≠ '"')
  /-- An escaped quote. -/
  | quote

/-- The characters that write one of a quoted value. -/
def QuotedChar.text : QuotedChar → List Char
  | .plain char _ => [char]
  | .quote => ['\\', '"']

/-- An option before a key: a name, and a value in quotes. -/
structure KeyOption where
  name : List Char
  value : Option (List QuotedChar)
  named : name ≠ [] ∧ ∀ char ∈ name, (char.isAlphanum || char == '-') = true

/-- An option as it is written. -/
def KeyOption.text (option : KeyOption) : List Char :=
  match option.value with
  | none => option.name
  | some value => option.name ++ ('=' :: '"' :: (value.flatMap QuotedChar.text ++ ['"']))

/-- White space between the fields of a line. -/
structure Blanks where
  text : List Char
  filled : text ≠ []
  blank : ∀ char ∈ text, (char == ' ' || char == '\t') = true

/-- A line of `authorized_keys`. -/
structure KeyLine where
  options : List KeyOption
  afterOptions : Blanks
  key : PublicKey
  afterType : Blanks
  afterBlob : Blanks
  comment : List Char
  begun : ∀ char ∈ comment.head?, (char == ' ' || char == '\t') = false

namespace KeyLine

variable (line : KeyLine)

/-- The options, separated by commas. -/
def optionsText : List Char := [','].intercalate (line.options.map KeyOption.text)

/-- The type as it is written. -/
def keyType : List Char := line.key.keyType.toList

/-- The blob as it is written. -/
def blobText : List Char := Base64.encode line.key.blob

/-- The line. -/
def text : List Char :=
  (if line.options = [] then [] else line.optionsText ++ line.afterOptions.text) ++
    (line.keyType ++ (line.afterType.text ++ (line.blobText ++
      if line.comment = [] then [] else line.afterBlob.text ++ line.comment)))

/-- The fields of the line are read, and an RSA key is named by its modulus. -/
def IsRead : Prop :=
  parseLine line.text = some (line.keyType, some line.blobText, line.comment) ∧
    ∀ modulus, line.key.modulus? = some modulus →
      (classifyKey line.keyType (some line.blobText)).1 =
        "RSA-".toList ++ Nat.toDigits 10 (Nat.size modulus)

/-- No word of the options begins like the type of a key, single spaces are all the white
space of the comment, and the key is not an RSA certificate. -/
structure IsPlain : Prop where
  options : ∀ word ∈ splitWords line.optionsText, isKeyType word = false
  comment : unwords (splitWords line.comment) = line.comment
  key : ¬ line.key.IsRsaCertificate

end KeyLine

/-! ## Words -/

theorem splitWords_append {space : Char} (blank : isSpace space = true)
    (left right : List Char) :
    splitWords (left ++ space :: right) = splitWords left ++ splitWords right := by
  rw [splitWords, List.splitOnP_append_cons left right blank,
    List.filter_append, splitWords, splitWords]

theorem splitWords_gap {gap : List Char} (filled : gap ≠ [])
    (blank : ∀ char ∈ gap, isSpace char = true) (left right : List Char) :
    splitWords (left ++ (gap ++ right)) = splitWords left ++ splitWords right := by
  have skipped : ∀ gap : List Char, (∀ char ∈ gap, isSpace char = true) →
      splitWords (gap ++ right) = splitWords right := by
    intro gap blank
    induction gap with
    | nil => rfl
    | cons space gap inductionHypothesis =>
        rw [List.forall_mem_cons] at blank
        rw [List.cons_append, splitWords_cons blank.1, inductionHypothesis blank.2]
  obtain ⟨space, gap, rfl⟩ := List.exists_cons_of_ne_nil filled
  rw [List.forall_mem_cons] at blank
  rw [List.cons_append, splitWords_append blank.1, skipped gap blank.2]

/-- Visible text is one word. -/
def IsWord (text : List Char) : Prop := text ≠ [] ∧ ∀ char ∈ text, isSpace char = false

theorem splitWords_word {word : List Char} (isWord : IsWord word) :
    splitWords word = [word] := by
  rw [splitWords, List.splitOnP_eq_singleton
    fun char member => by
      simp [isWord.2 char member], List.filter_cons_of_pos (by simpa using isWord.1),
      List.filter_nil]

theorem isWord_of_mem {text word : List Char} (member : word ∈ splitWords text) :
    IsWord word := by
  obtain ⟨part, filled⟩ := List.mem_filter.mp member
  exact ⟨by simpa using filled, free_of_mem_splitOnP part⟩

theorem splitWords_unwords {words : List (List Char)}
    (solid : ∀ word ∈ words, IsWord word) :
    splitWords (unwords words) = words := by
  induction words with
  | nil => rfl
  | cons word words inductionHypothesis =>
      rw [List.forall_mem_cons] at solid
      cases words with
      | nil =>
          rw [unwords, List.intercalate_singleton]
          exact splitWords_word solid.1
      | cons next words =>
          have joined : unwords (word :: next :: words) =
              word ++ ' ' :: unwords (next :: words) := by
            rw [unwords, List.intercalate_cons_cons, List.append_assoc]
            rfl
          rw [joined, splitWords_append (by decide), splitWords_word solid.1,
            inductionHypothesis solid.2]
          rfl

/-- The first word that begins like the type of a key is taken for it. -/
theorem parseTokens_append {front : List (List Char)}
    (plain : ∀ word ∈ front, isKeyType word = false) (rest : List (List Char)) :
    parseTokens (front ++ rest) = parseTokens rest := by
  induction front with
  | nil => rfl
  | cons word front inductionHypothesis =>
      rw [List.forall_mem_cons] at plain
      rw [List.cons_append, parseTokens, plain.1, if_neg Bool.false_ne_true,
        inductionHypothesis plain.2]

/-- A word taken before the last two leaves more words to the comment. -/
theorem parseTokens_early {front rest : List (List Char)}
    {parsed : List Char × Option (List Char) × List Char}
    (taken : ∃ word ∈ front, isKeyType word = true)
    (read : parseTokens (front ++ rest) = some parsed) :
    ∃ words, parsed.2.2 = unwords words ∧ words ⊆ front ++ rest ∧
      rest.length ≤ words.length + 1 := by
  induction front with
  | nil =>
      obtain ⟨word, member, -⟩ := taken
      cases member
  | cons first front inductionHypothesis =>
      rw [List.cons_append, parseTokens] at read
      split at read
      · cases read
        refine ⟨(front ++ rest).tail, rfl, ?_, ?_⟩
        · intro word member
          exact List.mem_cons_of_mem _ (List.mem_of_mem_tail member)
        · rw [List.length_tail, List.length_append]
          omega
      · next other =>
        obtain ⟨word, member, key⟩ := taken
        have later : word ∈ front := by
          rcases List.mem_cons.mp member with rfl | later
          · exact absurd key other
          · exact later
        obtain ⟨words, comment, inside, long⟩ :=
          inductionHypothesis ⟨word, later, key⟩ read
        exact ⟨words, comment, fun word member =>
          List.mem_cons_of_mem _ (inside member), long⟩

/-! ## Types and blobs of keys -/

namespace PublicKey

theorem keyType_read (key : PublicKey) :
    IsWord key.keyType.toList ∧ isKeyType key.keyType.toList = true := by
  have all : ∀ name ∈ ["ssh-rsa", "ssh-rsa-cert-v01@openssh.com", "ssh-dss",
      "ssh-dss-cert-v01@openssh.com", "ecdsa-sha2-nistp256",
      "ecdsa-sha2-nistp256-cert-v01@openssh.com", "ecdsa-sha2-nistp384",
      "ecdsa-sha2-nistp384-cert-v01@openssh.com", "ecdsa-sha2-nistp521",
      "ecdsa-sha2-nistp521-cert-v01@openssh.com", "ssh-ed25519",
      "ssh-ed25519-cert-v01@openssh.com", "sk-ecdsa-sha2-nistp256@openssh.com",
      "sk-ecdsa-sha2-nistp256-cert-v01@openssh.com", "sk-ssh-ed25519@openssh.com",
      "sk-ssh-ed25519-cert-v01@openssh.com"],
      (name.toList ≠ [] ∧ ∀ char ∈ name.toList, isSpace char = false) ∧
        isKeyType name.toList = true := by decide +kernel
  apply all
  cases key with
  | rsa exponent modulus => exact List.mem_cons_self
  | rsaCertificate nonce exponent modulus rest =>
      exact List.mem_cons_of_mem _ List.mem_cons_self
  | other kind certified rest =>
      cases kind <;> cases certified <;> simp [keyType, KeyKind.name]

theorem blob_ne_nil (key : PublicKey) : key.blob ≠ [] := by
  intro empty
  have length := congrArg List.length empty
  simp only [blob, sshString, List.length_append, length_bigBytes,
    List.length_nil] at length
  omega

end PublicKey

theorem isWord_blobText (line : KeyLine) : IsWord line.blobText := by
  refine ⟨Base64.encode_ne_nil line.key.blob_ne_nil, ?_⟩
  intro char member
  rcases Base64.mem_encode member with letter | rfl
  · exact (by decide : ∀ char ∈ Base64.alphabet, isSpace char = false) char letter
  · decide

theorem Blanks.space (gap : Blanks) : ∀ char ∈ gap.text, isSpace char = true := by
  intro char member
  have blank := gap.blank char member
  rw [Bool.or_eq_true, beq_iff_eq, beq_iff_eq] at blank
  rcases blank with rfl | rfl
  · decide
  · decide

namespace KeyLine

variable (line : KeyLine)

/-- The words of a line. -/
theorem splitWords_text : splitWords line.text =
    splitWords line.optionsText ++
      (line.keyType :: line.blobText :: splitWords line.comment) := by
  have keyType := (line.key.keyType_read).1
  have tail : splitWords (line.keyType ++ (line.afterType.text ++ (line.blobText ++
      if line.comment = [] then [] else line.afterBlob.text ++ line.comment))) =
        line.keyType :: line.blobText :: splitWords line.comment := by
    rw [splitWords_gap line.afterType.filled line.afterType.space,
      splitWords_word (show IsWord line.keyType from keyType)]
    split
    · next empty =>
      rw [List.append_nil, splitWords_word (isWord_blobText line), empty]
      rfl
    · rw [splitWords_gap line.afterBlob.filled line.afterBlob.space,
        splitWords_word (isWord_blobText line)]
      rfl
  rw [text]
  split
  · next none_ =>
    rw [List.nil_append, tail, optionsText, none_]
    rfl
  · rw [List.append_assoc,
      splitWords_gap line.afterOptions.filled line.afterOptions.space, tail]

/-- The fields are read exactly where no word of the options is taken for the type, and
the comment is spaced as it is joined. -/
theorem parseLine_iff :
    parseLine line.text = some (line.keyType, some line.blobText, line.comment) ↔
      (∀ word ∈ splitWords line.optionsText, isKeyType word = false) ∧
        unwords (splitWords line.comment) = line.comment := by
  have whole : parseTokens (line.keyType :: line.blobText :: splitWords line.comment) =
      some (line.keyType, some line.blobText, unwords (splitWords line.comment)) := by
    rw [parseTokens, if_pos (show isKeyType line.keyType =
      true from line.key.keyType_read.2)]
    rfl
  rw [parseLine, splitWords_text]
  constructor
  · intro read
    have plain : ∀ word ∈ splitWords line.optionsText, isKeyType word = false := by
      by_contra taken
      have early : ∃ word ∈ splitWords line.optionsText, isKeyType word = true := by
        simpa using taken
      obtain ⟨words, comment, inside, long⟩ := parseTokens_early early read
      have solid : ∀ word ∈ words, IsWord word := by
        intro word member
        rcases List.mem_append.mp (inside member) with option | later
        · exact isWord_of_mem option
        · rcases List.mem_cons.mp later with rfl | later
          · exact line.key.keyType_read.1
          · rcases List.mem_cons.mp later with rfl | later
            · exact isWord_blobText line
            · exact isWord_of_mem later
      have same : splitWords line.comment = words := by
        rw [← splitWords_unwords solid, ← comment]
      rw [same, List.length_cons, List.length_cons] at long
      omega
    rw [parseTokens_append plain, whole] at read
    exact ⟨plain, congrArg (fun parsed => parsed.2.2) (Option.some.inj read)⟩
  · rintro ⟨plain, comment⟩
    rw [parseTokens_append plain, whole, comment]

end KeyLine

/-! ## The modulus -/

theorem blobFields_string {bytes : Bytes} (short : bytes.length < 256 ^ 4) (count : Nat)
    (rest : Bytes) :
    blobFields (count + 1)
    (sshString bytes ++ rest) = bytes :: blobFields count rest := by
  have header : (bigBytes 4 bytes.length).length = 4 := length_bigBytes 4 _
  have front : (sshString bytes ++ rest).take 4 = bigBytes 4 bytes.length := by
    rw [sshString, List.append_assoc, List.take_left' header]
  have back : (sshString bytes ++ rest).drop 4 = bytes ++ rest := by
    rw [sshString, List.append_assoc, List.drop_left' header]
  have long : ¬ (sshString bytes ++ rest).length < 4 := by
    simp only [sshString, List.length_append, header]
    omega
  have whole : ¬ (bytes ++ rest).length < bytes.length := by
    rw [List.length_append]
    omega
  rw [blobFields, if_neg long]
  simp only [front, back, bigEndian_bigBytes short]
  rw [if_neg whole, List.take_left, List.drop_left]

theorem bigEndian_mpintBytes (value : Nat) : bigEndian (mpintBytes value) = value := by
  rw [mpintBytes]
  split
  · next zero =>
    rw [zero]
    rfl
  · apply bigEndian_bigBytes
    calc value
      _ < 2 ^ Nat.size value := Nat.lt_size_self value
      _ ≤ 2 ^ (8 * (Nat.size value / 8 + 1)) :=
        Nat.pow_le_pow_right (by decide) (by omega)
      _ = 256 ^ (Nat.size value / 8 + 1) := by rw [Nat.pow_mul]

/-- Of the three fields the first names the type, and the third
is taken for the modulus. -/
theorem rsaModulusBits_encode {raw name exponent modulus : Bytes}
    (fields : blobFields 3 raw = [name, exponent, modulus]) :
    rsaModulusBits (Base64.encode raw) =
      if name = asciiEncode "ssh-rsa".toList then some (Nat.size (bigEndian modulus))
      else none := by
  rw [rsaModulusBits, Base64.decode_encode]
  simp only [fields]

namespace PublicKey

theorem keyType_short (key : PublicKey) :
    (asciiEncode key.keyType.toList).length < 256 ^ 4 := by
  rw [asciiEncode, List.length_map]
  cases key with
  | rsa exponent modulus => exact (by decide : "ssh-rsa".toList.length < 256 ^ 4)
  | rsaCertificate nonce exponent modulus rest =>
      exact (by decide : "ssh-rsa-cert-v01@openssh.com".toList.length < 256 ^ 4)
  | other kind certified rest =>
      cases kind <;> cases certified <;> simp [keyType, KeyKind.name]

/-- The exponent and the modulus are the fields behind the type of a plain key. -/
theorem rsaModulusBits_rsa (exponent modulus : Mpint) :
    rsaModulusBits (Base64.encode (rsa exponent modulus).blob) =
      some (Nat.size modulus.value) := by
  have fields : blobFields 3 (rsa exponent modulus).blob =
      [asciiEncode "ssh-rsa".toList, exponent.field.bytes, modulus.field.bytes] := by
    have last := blobFields_string modulus.field.short 0 []
    rw [List.append_nil] at last
    rw [blob, blobFields_string (keyType_short (rsa exponent modulus)),
      blobFields_string exponent.field.short, last]
    rfl
  rw [rsaModulusBits_encode fields, if_pos rfl]
  exact congrArg (fun value => some (Nat.size value)) (bigEndian_mpintBytes modulus.value)

/-- A certificate has another type and a nonce before the exponent. -/
theorem rsaModulusBits_certificate (nonce : SshField) (exponent modulus : Mpint)
    (rest : Bytes) :
    rsaModulusBits (Base64.encode (rsaCertificate nonce exponent modulus rest).blob) =
      none := by
  have fields : blobFields 3 (rsaCertificate nonce exponent modulus rest).blob =
      [asciiEncode "ssh-rsa-cert-v01@openssh.com".toList, nonce.bytes,
        exponent.field.bytes] := by
    rw [blob, blobFields_string
      (keyType_short (rsaCertificate nonce exponent modulus rest)),
      blobFields_string nonce.short, blobFields_string exponent.field.short]
    rfl
  rw [rsaModulusBits_encode fields, if_neg (by decide)]

end PublicKey

namespace KeyLine

variable (line : KeyLine)

theorem named_iff : (∀ modulus, line.key.modulus? = some modulus →
    (classifyKey line.keyType (some line.blobText)).1 =
      "RSA-".toList ++ Nat.toDigits 10 (Nat.size modulus)) ↔
        ¬ line.key.IsRsaCertificate := by
  have filled : ∀ key : PublicKey, Base64.encode key.blob ≠ [] :=
    fun key => Base64.encode_ne_nil key.blob_ne_nil
  rw [keyType, blobText]
  cases line.key with
  | rsa exponent modulus =>
      refine iff_of_true ?_ id
      rintro _ ⟨⟩
      have base : baseType (PublicKey.rsa exponent modulus).keyType.toList =
          "ssh-rsa".toList := by
        change baseType "ssh-rsa".toList = _
        decide
      have read : (some (Base64.encode (PublicKey.rsa exponent modulus).blob)).bind
          (fun text => if text = [] then none else rsaModulusBits text) =
            some (Nat.size modulus.value) := by
        rw [Option.bind_some, if_neg (filled _), PublicKey.rsaModulusBits_rsa]
      simp only [classifyKey, base, read]
      rfl
  | rsaCertificate nonce exponent modulus rest =>
      refine iff_of_false ?_ (not_not_intro trivial)
      intro named
      have name := named _ rfl
      have base : baseType
          (PublicKey.rsaCertificate nonce exponent modulus rest).keyType.toList =
          "ssh-rsa".toList := by
        change baseType "ssh-rsa-cert-v01@openssh.com".toList = _
        decide
      have read : (some (Base64.encode
          (PublicKey.rsaCertificate nonce exponent modulus rest).blob)).bind (fun text =>
            if text = [] then none else rsaModulusBits text) = none := by
        rw [Option.bind_some, if_neg (filled _), PublicKey.rsaModulusBits_certificate]
      simp only [classifyKey, base, read] at name
      have length := congrArg List.length name
      simp [oneOf] at length
  | other kind certified rest => exact iff_of_true (fun _ none_ => by cases none_) id

end KeyLine

/-- A line of `authorized_keys` is read by its fields exactly where no word of its options
begins like the type of a key, its comment has single spaces only, and its key is not an
RSA certificate: the length of that is never found. -/
theorem keyLine_isRead_iff (line : KeyLine) : line.IsRead ↔ line.IsPlain := by
  rw [KeyLine.IsRead, line.parseLine_iff, line.named_iff]
  constructor
  · rintro ⟨⟨options, comment⟩, key⟩
    exact ⟨options, comment, key⟩
  · rintro ⟨options, comment, key⟩
    exact ⟨⟨options, comment⟩, key⟩

/-- A line with a command in quotes that names a type of keys. -/
def forcedCommand : KeyLine where
  options := [⟨"command".toList,
    some ("echo ssh-rsa x".toList.map fun char =>
      if plain : char ≠ '"' then .plain char plain else .quote), by decide⟩]
  afterOptions := ⟨[' '], by decide, by decide⟩
  key := .other .ed25519 false (sshString (List.replicate 32 7))
  afterType := ⟨[' '], by decide, by decide⟩
  afterBlob := ⟨[' '], by decide, by decide⟩
  comment := "backup".toList
  begun := by decide

/-- The command is taken for the key. -/
theorem forcedCommand_misread : ¬ ∀ line : KeyLine, line.IsRead := by
  intro always
  have read := (always forcedCommand).1
  have taken : (parseLine forcedCommand.text).map (·.1) = some "ssh-rsa".toList := by
    decide +kernel
  rw [read] at taken
  exact absurd taken (by decide)

end Probes
end PqcScan
