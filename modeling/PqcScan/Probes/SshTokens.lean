import PqcScan.Core.Alg

/-!
# SSH algorithm names

Three readers classify the names of an SSH name-list: the packet capture probe
(`fs_pcap_crypto.py`), the configuration parser (`_ssh_parser.py`) and the
handshake probe (`net_ssh_handshake.py`).
-/

namespace PqcScan
namespace Probes

open Library Python PqcScan.Core

/-- An SSH algorithm name: US-ASCII text. -/
structure SshToken where
  text : List Char
  ascii : ∀ char ∈ text, char.toNat < 0x80

/-- The name-lists that both paths read. -/
inductive NameList
  | kexAlgorithms
  | serverHostKeyAlgorithms

/-! ## The readers of live servers and of configuration files -/

/-- `SSH_ALG_ALIASES`. -/
def sshAlgAliases : List (String × String) :=
  [("diffie-hellman-group1-sha1", "DH-1024"),
    ("diffie-hellman-group14-sha1", "DH-2048"),
    ("diffie-hellman-group14-sha256", "DH-2048"),
    ("diffie-hellman-group16-sha512", "DH-4096"),
    ("diffie-hellman-group18-sha512", "DH-8192"),
    ("ssh-rsa", "RSA-2048"),
    ("ssh-dss", "DSA"),
    ("rsa-sha2-256", "RSA-SHA256"),
    ("rsa-sha2-512", "RSA-SHA512"),
    ("ecdsa-sha2-nistp256", "ECDSA-SHA256"),
    ("ecdsa-sha2-nistp384", "ECDSA-SHA384"),
    ("ecdsa-sha2-nistp521", "ECDSA-SHA512"),
    ("ssh-ed25519", "Ed25519"),
    ("hmac-md5", "MD5"),
    ("hmac-sha1", "SHA-1"),
    ("hmac-sha2-256", "SHA-256"),
    ("hmac-sha2-512", "SHA-512")]

/-- What a reader says of a name: the algorithm and its tier. -/
abbrev Verdict := List Char × Classification

/-- What `parse_ssh_config` yields for a token. -/
def configToken (token : List Char) : Verdict :=
  let canonical := (lookupName sshAlgAliases token).getD (normalise token)
  (canonical, classify canonical)

/-- What `_emit_namelists` emits for a token. -/
def handshakeToken (token : List Char) : Option Verdict :=
  let canonical := (lookupName sshAlgAliases token).getD (normalise token)
  let cls := classify canonical
  if cls = .sangatTinggi ∨ cls = .tinggi then some (canonical, cls) else none

/-! ## The packet capture probe -/

/-- The fragments of post-quantum key exchanges. -/
def kexFragments : List String := ["sntrup", "mlkem", "ml-kem", "kyber"]

/-- `_classify_ssh_kex`. -/
def classifySshKex (token : List Char) : Verdict :=
  let low := lower token
  if kexFragments.any (contains low) then (token, .pqcReady)
  else if startsWith low "curve25519" then (token, .tinggi)
  else if ["ecdh-sha2", "ecdh"].any (startsWith low) then (token, .tinggi)
  else if startsWith low "diffie-hellman-group1-" || endsWith low "group1-sha1" then
    (token, .sangatTinggi)
  else if startsWith low "diffie-hellman" then (token, .tinggi)
  else (token, .info)

/-- `_SSH_HOSTKEY_ALIASES`. -/
def sshHostkeyAliases : List (String × String) :=
  [("ssh-rsa", "RSA-2048"),
    ("rsa-sha2-256", "RSA-2048"),
    ("rsa-sha2-512", "RSA-2048"),
    ("ssh-dss", "DSA"),
    ("ecdsa-sha2-nistp256", "ECDSA-SHA256"),
    ("ecdsa-sha2-nistp384", "ECDSA-SHA384"),
    ("ecdsa-sha2-nistp521", "ECDSA-SHA512"),
    ("ssh-ed25519", "Ed25519"),
    ("ssh-ed448", "Ed448")]

/-- The fragments of post-quantum signatures. -/
def hostkeyFragments : List String :=
  ["mldsa", "ml-dsa", "dilithium", "sphincs", "falcon"]

/-- `_classify_ssh_hostkey`. -/
def classifySshHostkey (token : List Char) : Verdict :=
  let low := lower token
  if hostkeyFragments.any (contains low) then (token, .pqcReady)
  else
    let canonical := (lookupName sshHostkeyAliases low).getD (normalise token)
    (token, classify canonical)

/-- What the packet capture probe says of a token of a name-list. -/
def pcapToken : NameList → List Char → Verdict
  | .kexAlgorithms => classifySshKex
  | .serverHostKeyAlgorithms => classifySshHostkey

/-- The three readers give a token of a name-list one tier. -/
def ClassifiedAlike (list : NameList) (token : List Char) : Prop :=
  (pcapToken list token).2 = (configToken token).2 ∧
    ∀ verdict ∈ handshakeToken token, (pcapToken list token).2 = verdict.2

/-! ## Where they agree -/

/-- What the rules of `classify` test of a token that has no alias. -/
def examinedName (token : List Char) : List Char :=
  upper (normalise (normalise token))

/-- A rule of `classify` names the symmetric cipher or the hash. -/
def symmetricRecognised (name : List Char) : Bool :=
  (startsWith name "TLS_" && (contains name "AES_256" || contains name "CHACHA20")) ||
    (startsWith name "TLS_" && contains name "AES_128") ||
    (startsWith name "AES-128" || oneOf name ["AES-128"]) ||
    (["AES-192", "AES-256", "CHACHA20"].any (startsWith name) ||
      oneOf name ["AES-192", "AES-256"]) ||
    oneOf name ["SHA-224", "SHA224"] || oneOf name ["SHA-256", "SHA256", "SHA3-256"] ||
    oneOf name ["SHA-384", "SHA384", "SHA-512", "SHA512", "SHA3-384", "SHA3-512"]

/-- A rule of `classify` names the algorithm. -/
def recognised (name : List Char) : Bool :=
  pqcReady name || (oneOf name broken || oneOf name ["DSA"]) ||
    (sizeAfter ["RSA"] name).isSome ||
    (["RSA-", "RSA"].any (startsWith name) || oneOf name ["RSA"]) ||
    (sizeAfter ["DH", "DHE", "FFDHE"] name).isSome ||
    (sizeAfter ["DSA"] name).isSome ||
    (["ECDSA", "ECDH", "ED25519", "ED448", "SM2"].any (startsWith name) ||
      oneOf name ["ECDSA", "EDDSA"] || namesCurve name) ||
    symmetricRecognised name

/-- The key exchange names on which the rules of the packet capture probe meet the
tables of the other readers. -/
def kexAlike (token : List Char) : Bool :=
  let low := lower token
  let name := examinedName token
  if kexFragments.any (contains low) then pqcReady name
  else if startsWith low "curve25519" then !pqcReady name && namesCurve name
  else if ["ecdh-sha2", "ecdh"].any (startsWith low) then !pqcReady name
  else if startsWith low "diffie-hellman-group1-" || endsWith low "group1-sha1" then
    oneOf token ["diffie-hellman-group1-sha1"]
  else if startsWith low "diffie-hellman" then
    oneOf token ["diffie-hellman-group16-sha512", "diffie-hellman-group18-sha512"] ||
      (!pqcReady name && namesCurve name)
  else (lookupName sshAlgAliases token).isNone && !recognised name

/-- The host key names on which they meet. -/
def hostkeyAlike (token : List Char) : Bool :=
  let low := lower token
  if hostkeyFragments.any (contains low) then pqcReady (examinedName token)
  else if (lookupName sshHostkeyAliases low).isSome then
    oneOf token ["ssh-rsa", "ssh-dss", "ssh-ed25519"] ||
      oneOf low ["ecdsa-sha2-nistp256", "ecdsa-sha2-nistp384", "ecdsa-sha2-nistp521"]
  else (lookupName sshAlgAliases token).isNone

/-- The names of a name-list on which the readers meet. -/
def tokenAlike : NameList → List Char → Bool
  | .kexAlgorithms => kexAlike
  | .serverHostKeyAlgorithms => hostkeyAlike

/-- The handshake probe adds nothing to what the configuration parser says. -/
theorem classifiedAlike_iff {list : NameList} {token : List Char} :
    ClassifiedAlike list token ↔ (pcapToken list token).2 = (configToken token).2 := by
  constructor
  · exact And.left
  · intro same
    refine ⟨same, ?_⟩
    intro verdict reported
    simp only [handshakeToken, Option.mem_def, Option.ite_none_right_eq_some,
      Option.some.injEq] at reported
    rw [← reported.2]
    exact same

/-! ## Names with an alias -/

/-- The names that the configuration parser aliases. -/
theorem alias_alike : ∀ entry ∈ sshAlgAliases,
    decide ((classifySshKex entry.1.toList).2 = (configToken entry.1.toList).2) =
        kexAlike entry.1.toList ∧
      decide ((classifySshHostkey entry.1.toList).2 = (configToken entry.1.toList).2) =
        hostkeyAlike entry.1.toList := by
  decide +kernel

/-! ## Names without one -/

/-- Without an alias the rules of `classify` decide. -/
theorem configToken_of_unaliased {token : List Char}
    (unaliased : lookupName sshAlgAliases token = none) :
    (configToken token).2 = classifyName (examinedName token) := by
  simp only [configToken, unaliased, Option.getD_none, classify, examinedName]

theorem classifySymmetric_eq_info {name : List Char} :
    classifySymmetric name = .info ↔ symmetricRecognised name = false := by
  have weak : (if contains name "GCM" || contains name "CCM" then
      Classification.sederhana else .tinggi) ≠ .info := by
    split <;> decide
  rw [classifySymmetric, ite_eq_tier (by decide), ite_eq_tier (by decide),
    ite_eq_tier weak, ite_eq_tier (by decide), ite_eq_tier (by decide),
    ite_eq_tier (by decide), ite_eq_tier (by decide)]
  simp only [symmetricRecognised, Bool.or_eq_false_iff, and_true, and_assoc]

/-- The rules that name an algorithm are those that do not end in `INFO`. -/
theorem classifyName_eq_info {name : List Char} :
    classifyName name = .info ↔ recognised name = false := by
  rw [classifyName, ite_eq_tier (by decide), ite_eq_tier (by decide),
    modulusOr_eq_iff (by decide) (by decide), ite_eq_tier (by decide),
    modulusOr_eq_iff (by decide) (by decide), ite_eq_tier (by decide),
    ite_eq_tier (by decide), classifySymmetric_eq_info]
  simp only [recognised, Bool.or_eq_false_iff, and_assoc]

/-- A name with a part that no table knows is examined in upper case. -/
theorem examinedName_of_contains {token : List Char} {part : String}
    (within : contains (lower token) part = true)
    (plain : ∀ char ∈ part.toList, isSpace char = false)
    (lettered : part.toList.any Char.isAlpha)
    (friends : ∀ entry ∈ friendlyMap, contains entry.1.toList part = false) :
    examinedName token = upper token := by
  have once := normalise_of_contains within plain lettered friends
  have twice : normalise (upper token) = upper (upper token) :=
    normalise_of_contains (by rw [lower_upper]; exact within) plain lettered friends
  rw [examinedName, once, twice, upper_upper, upper_upper]

theorem contains_of_startsWith {text : List Char} {head : String}
    (starts : startsWith text head = true) : contains text head = true :=
  contains_iff.mpr (startsWith_iff.mp starts).isInfix

/-- The literals of the packet capture probe that no table of `alg.py` knows. -/
def foreignParts : List String :=
  ["curve25519", "ecdh", "diffie-hellman", "group1-sha1"]

/-- A name with one of those literals is examined in upper case. -/
theorem examinedName_of_foreign {token : List Char} {part : String}
    (within : contains (lower token) part = true) (foreign : part ∈ foreignParts) :
    examinedName token = upper token := by
  have plain : ∀ part ∈ foreignParts, (∀ char ∈ part.toList, isSpace char = false) ∧
      part.toList.any Char.isAlpha := by decide +kernel
  have friends : ∀ part ∈ foreignParts, ∀ entry ∈ friendlyMap,
      contains entry.1.toList part = false := by decide +kernel
  exact examinedName_of_contains within (plain part foreign).1 (plain part foreign).2
    (friends part foreign)

/-- Names that start with a literal no rule looks for. -/
theorem classifyName_of_foreign {token : List Char} {head upperHead : String}
    (starts : startsWith (lower token) head = true) (foreign : head ∈ foreignParts)
    (same : upperHead.toList = upper head.toList)
    (apart : ∀ other ∈ finiteFieldHeads ++ laterHeads, Apart upperHead other) :
    classifyName (examinedName token) =
      if pqcReady (examinedName token) then .pqcReady
      else if namesCurve (examinedName token) then .tinggi else .info := by
  rw [examinedName_of_foreign (contains_of_startsWith starts) foreign]
  have upperStarts := startsWith_upper starts same
  apply classifyName_of_apart
  · intro other member
    exact not_startsWith upperStarts (apart other (List.mem_append_left _ member))
  · intro other member
    exact not_startsWith upperStarts (apart other (List.mem_append_right _ member))

theorem classifyName_of_ecdh {token : List Char}
    (starts : startsWith (lower token) "ecdh" = true) :
    classifyName (examinedName token) =
      if pqcReady (examinedName token) then .pqcReady else .tinggi := by
  have apart : ∀ other ∈ finiteFieldHeads, Apart "ECDH" other := by decide
  have upperStarts : startsWith (upper token) "ECDH" = true :=
    startsWith_upper starts (by decide)
  rw [examinedName_of_foreign (contains_of_startsWith starts) (by decide),
    classifyName_of_later fun other member =>
      not_startsWith upperStarts (apart other member)]
  simp [upperStarts]

/-- Names of the 1024-bit group never get the gravest tier without their alias. -/
theorem classifyName_of_group1 {token : List Char}
    (group : startsWith (lower token) "diffie-hellman-group1-" = true ∨
      endsWith (lower token) "group1-sha1" = true) :
    classifyName (examinedName token) ≠ .sangatTinggi := by
  have parts : ∃ part ∈ foreignParts, contains (lower token) part = true ∧
      'g' ∈ lower token := by
    rcases group with starts | ends
    · have placed := startsWith_iff.mp starts
      refine ⟨"diffie-hellman", by decide, ?_, placed.subset (by decide +kernel)⟩
      have shorter : "diffie-hellman".toList <+: "diffie-hellman-group1-".toList := by
        decide +kernel
      exact contains_iff.mpr (shorter.trans placed).isInfix
    · have placed : "group1-sha1".toList <:+ lower token := by
        simpa [endsWith] using ends
      refine ⟨"group1-sha1", by decide, contains_iff.mpr placed.isInfix, ?_⟩
      exact placed.subset (by decide +kernel)
  obtain ⟨part, foreign, within, letter⟩ := parts
  have upperLetter : 'G' ∈ upper token := by
    rw [← upper_lower]
    exact List.mem_map.mpr ⟨'g', letter, by decide⟩
  have absent : ∀ names : List String, (∀ name ∈ names, 'G' ∉ name.toList) →
      oneOf (upper token) names = false := by
    intro names without
    simp only [oneOf, List.any_eq_false, beq_iff_eq]
    intro name member equal
    apply without name member
    rw [equal]
    exact upperLetter
  rw [examinedName_of_foreign within foreign]
  apply classifyName_ne_sangatTinggi
  · exact absent broken (by decide +kernel)
  · exact absent ["DSA"] (by decide +kernel)
  · have heads : ∀ heads ∈ [["RSA"], ["DH", "DHE", "FFDHE"], ["DSA"]],
        ∀ head ∈ heads, 'G' ∉ head.toList := by decide +kernel
    intro names member
    exact sizeAfter_eq_none_of_mem upperLetter (by decide) (by decide) (by decide)
      (heads names member)

/-- When the rules left to a foreign name give `TINGGI`. -/
theorem tinggi_eq_iff {ready curve : Bool} :
    (Classification.tinggi = if ready then .pqcReady else if curve then .tinggi
      else .info) ↔
      (!ready && curve) = true := by
  cases ready <;> cases curve <;> decide

/-- A token without an alias is none of the aliased names. -/
theorem oneOf_of_unaliased {token : List Char}
    (unaliased : lookupName sshAlgAliases token = none) {names : List String}
    (aliased : names ⊆ sshAlgAliases.map Prod.fst) : oneOf token names = false := by
  simp only [lookupName, Option.map_eq_none_iff, List.find?_eq_none] at unaliased
  simp only [oneOf, List.any_eq_false]
  intro name member
  obtain ⟨entry, listed, rfl⟩ := List.mem_map.mp (aliased member)
  exact unaliased entry listed

/-- Key exchange names without an alias. -/
theorem kex_unaliased_iff {token : List Char}
    (unaliased : lookupName sshAlgAliases token = none) :
    (classifySshKex token).2 = (configToken token).2 ↔ kexAlike token = true := by
  rw [configToken_of_unaliased unaliased]
  simp only [classifySshKex, kexAlike]
  split
  · rw [eq_comm]
    exact classifyName_eq_pqcReady
  split
  · next curve =>
    rw [@classifyName_of_foreign _ "curve25519" "CURVE25519" curve (by decide)
      (by decide) (by decide)]
    exact tinggi_eq_iff
  split
  · next ecdh =>
    have starts : startsWith (lower token) "ecdh" = true := by
      have shorter : "ecdh".toList <+: "ecdh-sha2".toList := by decide
      obtain ⟨head, member, starts⟩ := List.any_eq_true.mp ecdh
      simp only [List.mem_cons, List.not_mem_nil, or_false] at member
      rcases member with rfl | rfl
      · exact startsWith_iff.mpr (shorter.trans (startsWith_iff.mp starts))
      · exact starts
    rw [classifyName_of_ecdh starts]
    cases pqcReady (examinedName token) <;> simp
  split
  · next group1 =>
    rw [oneOf_of_unaliased unaliased (by decide), eq_comm]
    simp [classifyName_of_group1 (by simpa using group1)]
  split
  · next group =>
    rw [oneOf_of_unaliased unaliased (by decide), Bool.false_or,
      @classifyName_of_foreign _ "diffie-hellman" "DIFFIE-HELLMAN" group (by decide)
        (by decide) (by decide)]
    exact tinggi_eq_iff
  · rw [eq_comm, classifyName_eq_info]
    simp [unaliased]

/-- The aliases of the packet capture probe against the rules of `classify`. -/
theorem hostkeyAliases_tier : ∀ entry ∈ sshHostkeyAliases,
    decide (classify entry.2.toList = classifyName (upper entry.1.toList)) =
      oneOf entry.1.toList
        ["ecdsa-sha2-nistp256", "ecdsa-sha2-nistp384", "ecdsa-sha2-nistp521"] := by
  decide

/-- A name the packet capture probe aliases is examined in upper case. -/
theorem examinedName_of_hostkeyAlias {token : List Char} {entry : String × String}
    (member : entry ∈ sshHostkeyAliases) (named : entry.1.toList = lower token) :
    examinedName token = upper token := by
  have plain : ∀ entry ∈ sshHostkeyAliases,
      (∀ char ∈ entry.1.toList, isSpace char = false) ∧
        entry.1.toList.any Char.isAlpha := by decide +kernel
  have friends : ∀ entry ∈ sshHostkeyAliases, ∀ friend ∈ friendlyMap,
      contains friend.1.toList entry.1 = false := by decide +kernel
  apply @examinedName_of_contains _ entry.1
  · apply contains_iff.mpr
    rw [named]
  · exact (plain entry member).1
  · exact (plain entry member).2
  · exact friends entry member

/-- Host key names without an alias. -/
theorem hostkey_unaliased_iff {token : List Char}
    (unaliased : lookupName sshAlgAliases token = none) :
    (classifySshHostkey token).2 = (configToken token).2 ↔ hostkeyAlike token = true := by
  rw [configToken_of_unaliased unaliased]
  simp only [classifySshHostkey, hostkeyAlike]
  split
  · rw [eq_comm]
    exact classifyName_eq_pqcReady
  cases known : lookupName sshHostkeyAliases (lower token) with
  | none => simp [unaliased, classify, examinedName]
  | some canonical =>
      obtain ⟨entry, member, named, rfl⟩ := lookupName_mem known
      have tiers := hostkeyAliases_tier entry member
      rw [oneOf_of_unaliased unaliased (by decide), Bool.false_or,
        examinedName_of_hostkeyAlias member named, ← upper_lower, ← named]
      simp [← tiers]

/-- The readers give a token of a name-list one tier exactly where
their tables and rules meet. -/
theorem classifiedAlike_iff_tokenAlike (list : NameList) (token : SshToken) :
    ClassifiedAlike list token.text ↔ tokenAlike list token.text = true := by
  rw [classifiedAlike_iff]
  cases aliased : lookupName sshAlgAliases token.text with
  | none =>
      cases list with
      | kexAlgorithms => exact kex_unaliased_iff aliased
      | serverHostKeyAlgorithms => exact hostkey_unaliased_iff aliased
  | some canonical =>
      obtain ⟨entry, member, named, -⟩ := lookupName_mem aliased
      have both := alias_alike entry member
      rw [named] at both
      cases list with
      | kexAlgorithms => simp [pcapToken, tokenAlike, ← both.1]
      | serverHostKeyAlgorithms => simp [pcapToken, tokenAlike, ← both.2]

/-- The hybrid key exchange of current servers. -/
def sntrupToken : SshToken where
  text := "sntrup761x25519-sha512".toList
  ascii := by decide

/-- A capture of the hybrid key exchange is ready; the server itself is not. -/
theorem sntrup_not_alike :
    ¬ ∀ (list : NameList) (token : SshToken), ClassifiedAlike list token.text := by
  intro alike
  have differs : classifySshKex sntrupToken.text =
      (sntrupToken.text, Classification.pqcReady) ∧
        (configToken sntrupToken.text).2 = .tinggi := by decide +kernel
  have same := (alike .kexAlgorithms sntrupToken).1
  rw [pcapToken, differs.1, differs.2] at same
  cases same

end Probes
end PqcScan
