import PqcScan.Core.Deadlines

/-!
# Remediation

`core/remediation_snippets.py` and `enrich` of `core/remediation.py`: the runner completes
the remediation of a finding with a descriptor of the replacement and a snippet.  It only
fills gaps, and completing a finding again changes nothing.
-/

namespace PqcScan
namespace Core

open Library Python

/-! ## Snippets -/

/-- A snippet of `_SNIPPETS`. -/
structure Snippet where
  before : String
  after : String
  note : String

/-- `_SNIPPETS`. -/
def snippets : List (String × List (String × Snippet)) :=
  [("weak-hash", [
      ("python",
        { before := "import hashlib\ndigest = hashlib.md5(data).hexdigest()"
          after := "import hashlib\ndigest = hashlib.sha256(data).hexdigest()"
          note := "MD5/SHA-1 are collision-broken. Use SHA-256 (FIPS 180-4); for password " ++
              "hashing use scrypt/argon2, not a bare hash." }),
      ("java",
        { before := "MessageDigest md = MessageDigest.getInstance(\"MD5\");"
          after := "MessageDigest md = MessageDigest.getInstance(\"SHA-256\");"
          note := "Replace MD5/SHA-1 with SHA-256. The provider ships it by default; no " ++
              "extra dependency needed." }),
      ("go",
        { before := "import \"crypto/md5\"\nh := md5.New()"
          after := "import \"crypto/sha256\"\nh := sha256.New()"
          note := "Swap crypto/md5 or crypto/sha1 for crypto/sha256." }),
      ("javascript",
        { before := "const h = crypto.createHash('md5').update(data).digest('hex');"
          after := "const h = crypto.createHash('sha256').update(data).digest('hex');"
          note := "Use 'sha256' with Node's crypto, or crypto.subtle.digest('SHA-256', " ++
              "...) in the browser/WebCrypto." }),
      ("generic",
        { before := "digest = MD5(data)  // or SHA-1"
          after := "digest = SHA-256(data)"
          note := "Replace MD5/SHA-1 with SHA-256 (FIPS 180-4) everywhere it is used for " ++
              "integrity or signatures." })]),
    ("des", [
      ("python",
        { before := "from Crypto.Cipher import DES3\ncipher = DES3.new(key, DES3.MODE_CBC, " ++
              "iv)"
          after := "from cryptography.hazmat.primitives.ciphers.aead import AESGCM\naes = " ++
              "AESGCM(key)  # 32-byte key\nct = aes.encrypt(nonce, data, aad)"
          note := "DES/3DES are obsolete (64-bit block, small keys). Use AES-256-GCM (FIPS " ++
              "197) for authenticated encryption." }),
      ("java",
        { before := "Cipher c = Cipher.getInstance(\"DES/CBC/PKCS5Padding\");"
          after := "Cipher c = Cipher.getInstance(\"AES/GCM/NoPadding\");  // 256-bit key"
          note := "Move DES/3DES to AES-256-GCM. Use a 12-byte random IV per message and " ++
              "never reuse it under the same key." }),
      ("go",
        { before := "import \"crypto/des\"\nblock, _ := des.NewCipher(key)"
          after := "import (\"crypto/aes\"; \"crypto/cipher\")\nblock, _ := " ++
              "aes.NewCipher(key)  // 32-byte key\ngcm, _ := cipher.NewGCM(block)"
          note := "Replace crypto/des with crypto/aes + cipher.NewGCM for AES-256-GCM " ++
              "authenticated encryption." }),
      ("javascript",
        { before := "const c = crypto.createCipheriv('des-ede3-cbc', key, iv);"
          after := "const c = crypto.createCipheriv('aes-256-gcm', key, iv);  // 32-byte key"
          note := "Use 'aes-256-gcm' and read the auth tag via cipher.getAuthTag() after " ++
              "finalising." }),
      ("generic",
        { before := "cipher = DES/3DES(key, ...)"
          after := "cipher = AES-256-GCM(key, nonce, ...)"
          note := "Retire DES/3DES; adopt AES-256-GCM (FIPS 197) with a unique nonce per " ++
              "message." })]),
    ("rc4", [
      ("python",
        { before := "# RC4 stream cipher (broken keystream biases)"
          after := "from cryptography.hazmat.primitives.ciphers.aead import AESGCM\nct = " ++
              "AESGCM(key).encrypt(nonce, data, aad)  # or ChaCha20Poly1305"
          note := "RC4 is prohibited. Use AES-256-GCM or ChaCha20-Poly1305 AEAD." }),
      ("java",
        { before := "Cipher c = Cipher.getInstance(\"RC4\");"
          after := "Cipher c = Cipher.getInstance(\"AES/GCM/NoPadding\");  // 256-bit key"
          note := "Replace RC4 with AES-256-GCM authenticated encryption." }),
      ("go",
        { before := "import \"crypto/rc4\"\nc, _ := rc4.NewCipher(key)"
          after := "import (\"crypto/aes\"; \"crypto/cipher\")\nblock, _ := " ++
              "aes.NewCipher(key)\ngcm, _ := cipher.NewGCM(block)"
          note := "crypto/rc4 is deprecated. Use AES-256-GCM, or " ++
              "golang.org/x/crypto/chacha20poly1305." }),
      ("javascript",
        { before := "const c = crypto.createCipheriv('rc4', key, '');"
          after := "const c = crypto.createCipheriv('aes-256-gcm', key, iv);  // 32-byte key"
          note := "Use 'aes-256-gcm' (or 'chacha20-poly1305') instead of RC4." }),
      ("generic",
        { before := "cipher = RC4(key)"
          after := "cipher = AES-256-GCM(key, nonce, ...)"
          note := "RC4 is broken. Move to AES-256-GCM or ChaCha20-Poly1305." })]),
    ("rsa", [
      ("python",
        { before := "from cryptography.hazmat.primitives.asymmetric import rsa\nkey = " ++
              "rsa.generate_private_key(public_exponent=65537, key_size=2048)"
          after := "# Interim: raise to RSA-3072+; target: ML-DSA-65 (FIPS 204).\n# ML-DSA " ++
              "is not yet in `cryptography`; use an OQS provider today, e.g.\n#   " ++
              "import oqs; sig = oqs.Signature('ML-DSA-65')\n# and deploy hybrid " ++
              "(ML-DSA + ECDSA) during transition."
          note := "RSA signatures/keys are quantum-vulnerable. Migrate signing to " ++
              "ML-DSA-65 (FIPS 204); for key establishment see the DH family (ML-KEM, " ++
              "FIPS 203). Deploy hybrid during transition." }),
      ("java",
        { before := "KeyPairGenerator g = KeyPairGenerator.getInstance(\"RSA\");\n" ++
              "g.initialize(2048);"
          after := "// BouncyCastle PQC provider (bcpqc):\nKeyPairGenerator g = " ++
              "KeyPairGenerator.getInstance(\n        \"ML-DSA\", \"BCPQC\");  // " ++
              "signatures, FIPS 204\n// Key establishment -> \"ML-KEM\" (FIPS 203); " ++
              "deploy hybrid."
          note := "Register org.bouncycastle.pqc.jcajce.provider and generate ML-DSA " ++
              "(sign) / ML-KEM (KEM) keys. Run hybrid with the existing RSA/ECDSA key " ++
              "during transition." }),
      ("go",
        { before := "import \"crypto/rsa\"\nkey, _ := rsa.GenerateKey(rand.Reader, 2048)"
          after := "// Signatures -> ML-DSA-65 (FIPS 204) via a PQC library today\n// (e.g. " ++
              "cloudflare/circl sign/mldsa). Key establishment ->\n// crypto/mlkem (Go " ++
              "1.24+): mlkem.GenerateKey768(). Hybrid."
          note := "Move RSA signing to ML-DSA-65 (FIPS 204). For KEMs, Go 1.24+ ships " ++
              "crypto/mlkem; deploy hybrid ML-KEM + X25519." }),
      ("javascript",
        { before := "crypto.generateKeyPairSync('rsa', \x7b modulusLength: 2048 \x7d);"
          after := "// Node WebCrypto has no ML-DSA/ML-KEM yet. Use an OQS-based\n// " ++
              "binding (e.g. liboqs-node) for ML-DSA-65 signatures and\n// ML-KEM-768 " ++
              "key establishment; deploy hybrid during rollout."
          note := "RSA is quantum-vulnerable. Adopt ML-DSA-65 (FIPS 204) for signing and " ++
              "ML-KEM-768 (FIPS 203) for key establishment via a PQC library; run " ++
              "hybrid during transition." }),
      ("generic",
        { before := "certificate/key signed with RSA-2048"
          after := "reissue with ML-DSA-65 (FIPS 204), or a hybrid ML-DSA-65 + ECDSA-P256 " ++
              "certificate during transition"
          note := "Plan reissuance to an ML-DSA (or hybrid) certificate; for TLS key " ++
              "exchange enable a hybrid ML-KEM group (X25519MLKEM768)." })]),
    ("ecdsa", [
      ("python",
        { before := "from cryptography.hazmat.primitives.asymmetric import ec\nkey = " ++
              "ec.generate_private_key(ec.SECP256R1())"
          after := "# Target: ML-DSA-65 (FIPS 204). Not yet in `cryptography`;\n# use an " ++
              "OQS provider today:\n#   import oqs; sig = oqs.Signature('ML-DSA-65')\n" ++
              "# and deploy hybrid (ML-DSA + ECDSA) during transition."
          note := "ECDSA/EdDSA are quantum-vulnerable. Migrate signing to ML-DSA-65 (FIPS " ++
              "204); deploy hybrid during transition." }),
      ("java",
        { before := "KeyPairGenerator g = KeyPairGenerator.getInstance(\"EC\");\n" ++
              "g.initialize(new ECGenParameterSpec(\"secp256r1\"));"
          after := "// BouncyCastle PQC provider (bcpqc):\nKeyPairGenerator g = " ++
              "KeyPairGenerator.getInstance(\n        \"ML-DSA\", \"BCPQC\");  // " ++
              "signatures, FIPS 204"
          note := "Register the BouncyCastle PQC provider and generate ML-DSA keys. Run " ++
              "hybrid with the existing ECDSA key during rollout." }),
      ("go",
        { before := "import \"crypto/ecdsa\"\nkey, _ := ecdsa.GenerateKey(elliptic.P256(), " ++
              "rand.Reader)"
          after := "// Move signing to ML-DSA-65 (FIPS 204) via a PQC library\n// today " ++
              "(e.g. cloudflare/circl sign/mldsa); deploy hybrid\n// ML-DSA + ECDSA " ++
              "during transition."
          note := "ECDSA is quantum-vulnerable. Migrate signing to ML-DSA-65 (FIPS 204); " ++
              "deploy hybrid during transition." }),
      ("javascript",
        { before := "crypto.generateKeyPairSync('ec', \x7b namedCurve: 'P-256' \x7d);"
          after := "// WebCrypto has no ML-DSA yet. Use an OQS-based binding\n// (e.g. " ++
              "liboqs-node) for ML-DSA-65 signatures; run hybrid\n// (ML-DSA + ECDSA) " ++
              "during transition."
          note := "Adopt ML-DSA-65 (FIPS 204) for signing via a PQC library; deploy hybrid " ++
              "during transition." }),
      ("generic",
        { before := "certificate/key signed with ECDSA-P256"
          after := "reissue with ML-DSA-65 (FIPS 204), or a hybrid ML-DSA-65 + ECDSA-P256 " ++
              "certificate during transition"
          note := "Plan reissuance to an ML-DSA (or hybrid) certificate; enable a hybrid " ++
              "ML-KEM group (X25519MLKEM768) for TLS key exchange." })]),
    ("dh", [
      ("python",
        { before := "from cryptography.hazmat.primitives.asymmetric import dh\nparams = " ++
              "dh.generate_parameters(generator=2, key_size=2048)"
          after := "# Key establishment target: ML-KEM-768 (FIPS 203), deployed\n# hybrid " ++
              "as X25519MLKEM768. Use an OQS provider today:\n#   import oqs; kem = " ++
              "oqs.KeyEncapsulation('ML-KEM-768')"
          note := "Classical (EC)DH is harvest-now-decrypt-later exposed. Migrate key " ++
              "establishment to hybrid ML-KEM-768 first." }),
      ("go",
        { before := "// (EC)DH key agreement, e.g. crypto/ecdh P256"
          after := "// Go 1.24+: import \"crypto/mlkem\"\ndk, _ := mlkem.GenerateKey768()  " ++
              "// deploy hybrid X25519MLKEM768"
          note := "Go 1.24+ ships crypto/mlkem. Prefer the hybrid X25519MLKEM768 group; " ++
              "migrate key establishment first (HNDL)." }),
      ("generic",
        { before := "key exchange using classical (EC)DH"
          after := "enable hybrid ML-KEM key establishment (X25519MLKEM768, FIPS 203) and " ++
              "prefer it in the negotiated group list"
          note := "Diffie-Hellman is harvest-now-decrypt-later exposed. Move key " ++
              "establishment to hybrid ML-KEM-768 as the first step." })]),
    ("weak-tls", [
      ("generic",
        { before := "protocols: TLSv1.0, TLSv1.1  (or SSLv2/SSLv3)"
          after := "protocols: TLSv1.2, TLSv1.3\ngroups: X25519MLKEM768:X25519:P-256"
          note := "Disable SSLv2/SSLv3/TLS 1.0/1.1. Require TLS 1.2+ (prefer 1.3) and " ++
              "offer the hybrid X25519MLKEM768 group for PQC key establishment." })])]

namespace CaseTables

variable (tables : CaseTables)

/-- `_family`. -/
def family (algorithm : List Char) : Option String :=
  let spelled := (tables.upper algorithm).map fun char => if char = '_' then '-' else char
  let name := strip spelled
  if name = [] || oneOf name ["N/A"] then none
  else if ["MD5", "MD4", "MD2", "SHA-1", "SHA1"].any (startsWith name) then
    some "weak-hash"
  else if ["3DES", "TDES", "DES-EDE", "DES3", "TRIPLEDES"].any (startsWith name) then
    some "des"
  else if startsWith name "DES" then some "des"
  else if ["RC4", "ARCFOUR", "ARC4"].any (startsWith name) then some "rc4"
  else if ["TLS1.0", "TLSV1.0", "TLS-1.0", "TLSV1.1", "TLS1.1", "TLS-1.1",
    "SSLV3", "SSL3",
      "SSLV2", "SSL2"].any (startsWith name) then some "weak-tls"
  else if startsWith name "RSA" then some "rsa"
  else if ["ECDSA", "ED25519", "ED448", "DSA", "SM2"].any (startsWith name) then
    some "ecdsa"
  else if ["DH", "DHE", "ECDH", "ECDHE", "DIFFIE", "X25519", "X448", "FFDHE"].any
      (startsWith name) then some "dh"
  else none

/-- `snippet_for`; a language is spelled in lower-case US-ASCII. -/
def snippetFor (algorithm : List Char) (language : Option String) : Option Json :=
  match tables.family algorithm with
  | none => none
  | some name =>
      let langTable := (lookupEntry name snippets).getD []
      let lang := language.filter (· ≠ "")
      let resolved := match lang.bind fun lang =>
        (lookupEntry lang langTable).map (lang, ·) with
        | some found => some found
        | none => (lookupEntry "generic" langTable).map ("generic", ·)
      resolved.map fun found => .object
        [("language", .str found.1), ("before", .str found.2.before),
          ("after", .str found.2.after), ("note", .str found.2.note)]

/-! ## Enrichment -/

/-- `_PROBE_LANG`. -/
def probeLang : List String := ["python", "java", "go", "javascript"]

/-- `_lang_from_probe_id`. -/
def langFromProbeId (probeId : String) : Option String :=
  let parts := (probeId.toList.splitOn '.').map String.ofList
  if 3 ≤ parts.length ∧ parts.head? = some "code" then
    parts.getLast?.filter (probeLang.contains ·)
  else none

/-- `finding.remediation.get(key)` where it is true. -/
def given (remediation : Dict String Json) (key : String) : Option Json :=
  (remediation.get? key).filter Json.truthy

/-- `_attach_snippet`. -/
def attachSnippet (finding : Finding) : Finding :=
  match given finding.remediation "snippet" with
  | some _ => finding
  | none =>
      match tables.snippetFor finding.algorithm.toList
        (langFromProbeId finding.probeId) with
      | some snippet =>
          { finding with remediation := finding.remediation.set "snippet" snippet }
      | none => finding

/-- The classifications that need no replacement. -/
def unaffected : List Classification := [.pqcReady, .info, .error]

/-- `enrich`. -/
def enrich (finding : Finding) : Finding :=
  match given finding.remediation "replacement" with
  | some _ => tables.attachSnippet finding
  | none =>
      if unaffected.contains finding.classification then finding
      else
        match tables.suggest finding.algorithm.toList finding.classification with
        | some descriptor =>
            tables.attachSnippet
              { finding with remediation := descriptor.merge finding.remediation }
        | none => tables.attachSnippet finding

/-- A finding and what became of it: only gaps of its remediation were filled. -/
structure FillsGaps (before after : Finding) : Prop where
  kept : ∀ key value, given before.remediation key = some value →
    after.remediation.get? key = some value
  others : { after with remediation := before.remediation } = before
  unaffected : unaffected.contains before.classification = true →
    given before.remediation "replacement" = none → after.remediation = before.remediation

variable {tables}

/-! ## Snippets are kept -/

theorem snippetFor_truthy {algorithm : List Char} {language : Option String}
    {snippet : Json}
    (found : tables.snippetFor algorithm language = some snippet) :
    snippet.truthy = true := by
  unfold snippetFor at found
  split at found
  · cases found
  · obtain ⟨_, _, rfl⟩ := Option.map_eq_some_iff.mp found
    rfl

theorem given_eq_some {remediation : Dict String Json} {key : String} {value : Json} :
    given remediation key = some value ↔
      remediation.get? key = some value ∧ value.truthy = true :=
  Option.filter_eq_some_iff

/-- A snippet is attached, or the finding stays as it is. -/
theorem attachSnippet_cases (finding : Finding) :
    tables.attachSnippet finding = finding ∨
      given finding.remediation "snippet" = none ∧
        ∃ snippet, snippet.truthy = true ∧
          tables.attachSnippet finding =
            { finding with
              remediation := finding.remediation.set "snippet" snippet } := by
  unfold attachSnippet
  split
  · exact .inl rfl
  · next absent =>
    split
    · next snippet found => exact .inr ⟨absent, snippet, snippetFor_truthy found, rfl⟩
    · exact .inl rfl

/-- Whatever has a snippet is left alone. -/
theorem attachSnippet_of_given {finding : Finding} {snippet : Json}
    (stated : given finding.remediation "snippet" = some snippet) :
    tables.attachSnippet finding = finding := by
  rw [attachSnippet, stated]

theorem attachSnippet_idem (finding : Finding) :
    tables.attachSnippet
      (tables.attachSnippet finding) = tables.attachSnippet finding := by
  rcases @attachSnippet_cases tables finding with same | ⟨_, snippet, truthy, set⟩
  · rw [same, same]
  · rw [set]
    apply attachSnippet_of_given
    rw [given_eq_some]
    exact ⟨by rw [Dict.get?_set, if_pos rfl], truthy⟩

theorem attachSnippet_get? {finding : Finding} {key : String} (other : key ≠ "snippet") :
    (tables.attachSnippet finding).remediation.get? key =
      finding.remediation.get? key := by
  rcases @attachSnippet_cases tables finding with same | ⟨_, snippet, _, set⟩
  · rw [same]
  · rw [set]
    exact (Dict.get?_set _ _ _ _).trans (if_neg other)

theorem attachSnippet_given {finding : Finding} {key : String} {value : Json}
    (stated : given finding.remediation key = some value) :
    (tables.attachSnippet finding).remediation.get? key = some value := by
  by_cases snippet : key = "snippet"
  · subst snippet
    rw [attachSnippet_of_given stated]
    exact (given_eq_some.mp stated).1
  · rw [attachSnippet_get? snippet]
    exact (given_eq_some.mp stated).1

theorem attachSnippet_others (finding : Finding) (remediation : Dict String Json) :
    { tables.attachSnippet finding with remediation := remediation } =
      { finding with remediation := remediation } := by
  rcases @attachSnippet_cases tables finding with same | ⟨_, _, _, set⟩
  · rw [same]
  · rw [set]

/-- The keys that come first still do. -/
theorem keys_attachSnippet {finding : Finding} {keys : List String}
    (first : keys <+: finding.remediation.keys) :
    keys <+: (tables.attachSnippet finding).remediation.keys := by
  rcases @attachSnippet_cases tables finding with same | ⟨_, _, _, set⟩
  · rwa [same]
  · rw [set]
    change keys <+: (finding.remediation.set "snippet" _).keys
    rw [Dict.keys_set]
    split
    · exact first
    · exact first.trans (List.prefix_append _ _)

/-! ## Gaps -/

/-- The three exits of `enrich`. -/
theorem enrich_cases (finding : Finding) :
    (given finding.remediation "replacement" ≠ none ∧
        tables.enrich finding = tables.attachSnippet finding) ∨
      given finding.remediation "replacement" = none ∧
        (unaffected.contains finding.classification = true ∧
          tables.enrich finding = finding ∨
          unaffected.contains finding.classification = false ∧
            (tables.suggest finding.algorithm.toList finding.classification = none ∧
                tables.enrich finding = tables.attachSnippet finding ∨
              ∃ descriptor,
                tables.suggest finding.algorithm.toList finding.classification =
                  some descriptor ∧
                tables.enrich finding = tables.attachSnippet
                  { finding with
                    remediation := descriptor.merge finding.remediation })) := by
  unfold enrich
  split
  · next stated => exact .inl ⟨by rw [stated]; nofun, rfl⟩
  · next absent =>
    refine .inr ⟨absent, ?_⟩
    split
    · next affected => exact .inl ⟨affected, rfl⟩
    · next affected =>
      refine .inr ⟨Bool.not_eq_true _ ▸ affected, ?_⟩
      split
      · next descriptor found => exact .inr ⟨descriptor, found, rfl⟩
      · next missing => exact .inl ⟨missing, rfl⟩

theorem given_attachSnippet (finding : Finding) :
    given (tables.attachSnippet finding).remediation "replacement" =
      given finding.remediation "replacement" :=
  congrArg (Option.filter Json.truthy) (attachSnippet_get? (by decide))

theorem suggest_attachSnippet (finding : Finding) :
    tables.suggest (tables.attachSnippet finding).algorithm.toList
        (tables.attachSnippet finding).classification =
      tables.suggest finding.algorithm.toList finding.classification := by
  rcases @attachSnippet_cases tables finding with same | ⟨_, _, _, set⟩
  · rw [same]
  · rw [set]

/-- A finding stays as it is when it has its snippet and, first, the
keys of its descriptor. -/
theorem enrich_eq_self {finding : Finding}
    (attached : tables.attachSnippet finding = finding)
    (first : ∀ descriptor,
      tables.suggest finding.algorithm.toList finding.classification = some descriptor →
        given finding.remediation "replacement" = none →
          descriptor.keys <+: finding.remediation.keys) :
    tables.enrich finding = finding := by
  rcases @enrich_cases tables finding with ⟨_, ran⟩ | ⟨absent, unaffected | affected⟩
  · rw [ran, attached]
  · exact unaffected.2
  · rcases affected.2 with ⟨_, ran⟩ | ⟨descriptor, found, ran⟩
    · rw [ran, attached]
    · rw [ran, Dict.merge_eq_right (first descriptor found absent)]
      exact attached

/-- Completing a completed finding changes nothing. -/
theorem enrich_idem (finding : Finding) :
    tables.enrich (tables.enrich finding) = tables.enrich finding := by
  rcases @enrich_cases tables finding with
    ⟨stated, ran⟩ | ⟨absent, unaffected | affected⟩
  · rw [ran]
    apply enrich_eq_self (attachSnippet_idem finding)
    intro descriptor _ absent
    rw [given_attachSnippet] at absent
    exact absurd absent stated
  · rw [unaffected.2, unaffected.2]
  · rcases affected.2 with ⟨missing, ran⟩ | ⟨descriptor, found, ran⟩
    · rw [ran]
      apply enrich_eq_self (attachSnippet_idem finding)
      intro descriptor found _
      rw [suggest_attachSnippet, missing] at found
      cases found
    · rw [ran]
      apply enrich_eq_self (attachSnippet_idem _)
      intro other found' _
      rw [suggest_attachSnippet, found] at found'
      cases found'
      apply keys_attachSnippet
      exact Dict.keys_prefix_merge _ _

/-- Only gaps are filled. -/
theorem enrich_fills (finding : Finding) : FillsGaps finding (tables.enrich finding) := by
  rcases @enrich_cases tables finding with
    ⟨stated, ran⟩ | ⟨absent, unaffected | affected⟩
  · rw [ran]
    exact ⟨fun key value => attachSnippet_given, attachSnippet_others _ _,
      fun _ absent => absurd absent stated⟩
  · rw [unaffected.2]
    exact ⟨fun key value stated => (given_eq_some.mp stated).1, rfl, fun _ _ => rfl⟩
  · have changed : unaffected.contains finding.classification = true →
        ∀ {goal : Prop}, goal := by
      intro spared
      rw [affected.1] at spared
      cases spared
    rcases affected.2 with ⟨missing, ran⟩ | ⟨descriptor, found, ran⟩
    · rw [ran]
      exact ⟨fun key value => attachSnippet_given, attachSnippet_others _ _,
        fun spared => changed spared⟩
    · rw [ran]
      refine ⟨fun key value stated => ?_, attachSnippet_others _ _, fun spared =>
        changed spared⟩
      apply attachSnippet_given
      rw [given_eq_some] at stated ⊢
      exact ⟨Dict.get?_merge_of_get? stated.1, stated.2⟩

/-- `enrich` only fills gaps, and doing so again changes nothing. -/
theorem enrich_fills_once (finding : Finding) :
    FillsGaps finding (tables.enrich finding) ∧
      tables.enrich (tables.enrich finding) = tables.enrich finding :=
  ⟨enrich_fills finding, enrich_idem finding⟩

end CaseTables
end Core
end PqcScan
