import PqcScan.Core.Bands
import PqcScan.Python.Str

/-!
# Algorithm names

Normalisation and threat classification of algorithm names, from `core/alg.py`.
-/

namespace PqcScan
namespace Core

open Library Python

/-- `_OID_MAP`, each key by its arcs. -/
def oidMap : List (List Nat × String) :=
  [([1, 2, 840, 113549, 1, 1, 1], "RSA"),
    ([1, 2, 840, 113549, 1, 1, 5], "RSA-SHA1"),
    ([1, 2, 840, 113549, 1, 1, 11], "RSA-SHA256"),
    ([1, 2, 840, 113549, 1, 1, 12], "RSA-SHA384"),
    ([1, 2, 840, 113549, 1, 1, 13], "RSA-SHA512"),
    ([1, 2, 840, 113549, 1, 1, 14], "RSA-SHA224"),
    ([1, 2, 840, 113549, 1, 1, 10], "RSA-PSS"),
    ([1, 2, 840, 10045, 4, 1], "ECDSA-SHA1"),
    ([1, 2, 840, 10045, 4, 3, 1], "ECDSA-SHA224"),
    ([1, 2, 840, 10045, 4, 3, 2], "ECDSA-SHA256"),
    ([1, 2, 840, 10045, 4, 3, 3], "ECDSA-SHA384"),
    ([1, 2, 840, 10045, 4, 3, 4], "ECDSA-SHA512"),
    ([1, 3, 101, 112], "Ed25519"),
    ([1, 3, 101, 113], "Ed448"),
    ([1, 2, 840, 10040, 4, 1], "DSA"),
    ([1, 2, 840, 10040, 4, 3], "DSA-SHA1"),
    ([2, 16, 840, 1, 101, 3, 4, 3, 2], "DSA-SHA256"),
    ([2, 16, 840, 1, 101, 3, 4, 3, 17], "ML-DSA-44"),
    ([2, 16, 840, 1, 101, 3, 4, 3, 18], "ML-DSA-65"),
    ([2, 16, 840, 1, 101, 3, 4, 3, 19], "ML-DSA-87"),
    ([1, 3, 6, 1, 4, 1, 2, 267, 7, 4, 4], "ML-DSA-44"),
    ([1, 3, 6, 1, 4, 1, 2, 267, 7, 6, 5], "ML-DSA-65"),
    ([1, 3, 6, 1, 4, 1, 2, 267, 7, 8, 7], "ML-DSA-87"),
    ([1, 3, 6, 1, 5, 5, 7, 6, 37], "ML-DSA-44+RSA2048-PSS"),
    ([1, 3, 6, 1, 5, 5, 7, 6, 38], "ML-DSA-44+RSA2048-PKCS15"),
    ([1, 3, 6, 1, 5, 5, 7, 6, 39], "ML-DSA-44+Ed25519"),
    ([1, 3, 6, 1, 5, 5, 7, 6, 40], "ML-DSA-44+ECDSA-P256"),
    ([1, 3, 6, 1, 5, 5, 7, 6, 41], "ML-DSA-65+RSA3072-PSS"),
    ([1, 3, 6, 1, 5, 5, 7, 6, 42], "ML-DSA-65+RSA3072-PKCS15"),
    ([1, 3, 6, 1, 5, 5, 7, 6, 43], "ML-DSA-65+RSA4096-PSS"),
    ([1, 3, 6, 1, 5, 5, 7, 6, 44], "ML-DSA-65+RSA4096-PKCS15"),
    ([1, 3, 6, 1, 5, 5, 7, 6, 45], "ML-DSA-65+ECDSA-P256"),
    ([1, 3, 6, 1, 5, 5, 7, 6, 46], "ML-DSA-65+ECDSA-P384"),
    ([1, 3, 6, 1, 5, 5, 7, 6, 47], "ML-DSA-65+ECDSA-brainpoolP256r1"),
    ([1, 3, 6, 1, 5, 5, 7, 6, 48], "ML-DSA-65+Ed25519"),
    ([1, 3, 6, 1, 5, 5, 7, 6, 49], "ML-DSA-87+ECDSA-P384"),
    ([1, 3, 6, 1, 5, 5, 7, 6, 50], "ML-DSA-87+ECDSA-brainpoolP384r1"),
    ([1, 3, 6, 1, 5, 5, 7, 6, 51], "ML-DSA-87+Ed448"),
    ([1, 3, 6, 1, 5, 5, 7, 6, 52], "ML-DSA-87+RSA3072-PSS"),
    ([1, 3, 6, 1, 5, 5, 7, 6, 53], "ML-DSA-87+RSA4096-PSS"),
    ([1, 3, 6, 1, 5, 5, 7, 6, 54], "ML-DSA-87+ECDSA-P521"),
    ([2, 16, 840, 1, 101, 3, 4, 3, 20], "SLH-DSA-SHA2-128s"),
    ([2, 16, 840, 1, 101, 3, 4, 3, 21], "SLH-DSA-SHA2-128f"),
    ([2, 16, 840, 1, 101, 3, 4, 3, 22], "SLH-DSA-SHA2-192s"),
    ([2, 16, 840, 1, 101, 3, 4, 3, 23], "SLH-DSA-SHA2-192f"),
    ([2, 16, 840, 1, 101, 3, 4, 3, 24], "SLH-DSA-SHA2-256s"),
    ([2, 16, 840, 1, 101, 3, 4, 3, 25], "SLH-DSA-SHA2-256f"),
    ([2, 16, 840, 1, 101, 3, 4, 3, 26], "SLH-DSA-SHAKE-128s"),
    ([2, 16, 840, 1, 101, 3, 4, 3, 27], "SLH-DSA-SHAKE-128f"),
    ([2, 16, 840, 1, 101, 3, 4, 3, 28], "SLH-DSA-SHAKE-192s"),
    ([2, 16, 840, 1, 101, 3, 4, 3, 29], "SLH-DSA-SHAKE-192f"),
    ([2, 16, 840, 1, 101, 3, 4, 3, 30], "SLH-DSA-SHAKE-256s"),
    ([2, 16, 840, 1, 101, 3, 4, 3, 31], "SLH-DSA-SHAKE-256f"),
    ([2, 16, 840, 1, 101, 3, 4, 3, 32], "HashML-DSA-44"),
    ([2, 16, 840, 1, 101, 3, 4, 3, 33], "HashML-DSA-65"),
    ([2, 16, 840, 1, 101, 3, 4, 3, 34], "HashML-DSA-87"),
    ([2, 16, 840, 1, 101, 3, 4, 3, 35], "HashSLH-DSA-SHA2-128s"),
    ([2, 16, 840, 1, 101, 3, 4, 3, 36], "HashSLH-DSA-SHA2-128f"),
    ([2, 16, 840, 1, 101, 3, 4, 3, 37], "HashSLH-DSA-SHA2-192s"),
    ([2, 16, 840, 1, 101, 3, 4, 3, 38], "HashSLH-DSA-SHA2-192f"),
    ([2, 16, 840, 1, 101, 3, 4, 3, 39], "HashSLH-DSA-SHA2-256s"),
    ([2, 16, 840, 1, 101, 3, 4, 3, 40], "HashSLH-DSA-SHA2-256f"),
    ([2, 16, 840, 1, 101, 3, 4, 3, 41], "HashSLH-DSA-SHAKE-128s"),
    ([2, 16, 840, 1, 101, 3, 4, 3, 42], "HashSLH-DSA-SHAKE-128f"),
    ([2, 16, 840, 1, 101, 3, 4, 3, 43], "HashSLH-DSA-SHAKE-192s"),
    ([2, 16, 840, 1, 101, 3, 4, 3, 44], "HashSLH-DSA-SHAKE-192f"),
    ([2, 16, 840, 1, 101, 3, 4, 3, 45], "HashSLH-DSA-SHAKE-256s"),
    ([2, 16, 840, 1, 101, 3, 4, 3, 46], "HashSLH-DSA-SHAKE-256f"),
    ([2, 16, 840, 1, 101, 3, 4, 4, 1], "ML-KEM-512"),
    ([2, 16, 840, 1, 101, 3, 4, 4, 2], "ML-KEM-768"),
    ([2, 16, 840, 1, 101, 3, 4, 4, 3], "ML-KEM-1024"),
    ([1, 3, 9999, 3, 6], "Falcon-512"),
    ([1, 3, 9999, 3, 9], "Falcon-1024"),
    ([1, 3, 14, 3, 2, 26], "SHA-1"),
    ([2, 16, 840, 1, 101, 3, 4, 2, 1], "SHA-256"),
    ([2, 16, 840, 1, 101, 3, 4, 2, 2], "SHA-384"),
    ([2, 16, 840, 1, 101, 3, 4, 2, 3], "SHA-512"),
    ([1, 2, 840, 113549, 2, 5], "MD5")]

/-- The text of an object identifier. -/
def dotted (arcs : List Nat) : List Char :=
  ['.'].intercalate (arcs.map (Nat.toDigits 10))

/-- A lookup in `_OID_MAP`. -/
def lookupOid (text : List Char) : Option (List Char) :=
  (oidMap.find? (dotted ·.1 == text)).map (·.2.toList)

/-- `_FRIENDLY_MAP`. -/
def friendlyMap : List (String × String) :=
  [("sha256withrsaencryption", "RSA-SHA256"),
    ("sha384withrsaencryption", "RSA-SHA384"),
    ("sha512withrsaencryption", "RSA-SHA512"),
    ("sha224withrsaencryption", "RSA-SHA224"),
    ("sha1withrsaencryption", "RSA-SHA1"),
    ("md5withrsaencryption", "RSA-MD5"),
    ("rsassa-pss", "RSA-PSS"),
    ("rsassapss", "RSA-PSS"),
    ("ecdsa-with-sha1", "ECDSA-SHA1"),
    ("ecdsa-with-sha224", "ECDSA-SHA224"),
    ("ecdsa-with-sha256", "ECDSA-SHA256"),
    ("ecdsa-with-sha384", "ECDSA-SHA384"),
    ("ecdsa-with-sha512", "ECDSA-SHA512"),
    ("ed25519", "Ed25519"),
    ("ed448", "Ed448"),
    ("dsa-with-sha1", "DSA-SHA1"),
    ("dsa-with-sha256", "DSA-SHA256"),
    ("id-ml-kem-512", "ML-KEM-512"),
    ("id-ml-kem-768", "ML-KEM-768"),
    ("id-ml-kem-1024", "ML-KEM-1024"),
    ("id-ml-dsa-44", "ML-DSA-44"),
    ("id-ml-dsa-65", "ML-DSA-65"),
    ("id-ml-dsa-87", "ML-DSA-87"),
    ("kyber512", "ML-KEM-512"),
    ("kyber768", "ML-KEM-768"),
    ("kyber1024", "ML-KEM-1024"),
    ("dilithium2", "ML-DSA-44"),
    ("dilithium3", "ML-DSA-65"),
    ("dilithium5", "ML-DSA-87")]

/-- `normalise`. -/
def normalise (name : List Char) : List Char :=
  match lookupOid name with
  | some canonical => canonical
  | none =>
      match lookupName friendlyMap (strip (lower name)) with
      | some canonical => canonical
      | none => upper name

/-- `_PQC_READY_PREFIXES`. -/
def pqcReadyPrefixes : List String :=
  ["ML-KEM", "ML-DSA", "SLH-DSA", "FN-DSA", "FALCON", "SPHINCS",
    "DILITHIUM", "KYBER", "FRODOKEM", "NTRU", "CLASSIC-MCELIECE",
    "BIKE", "HQC", "XMSS", "LMS", "HASHML-DSA", "HASHSLH-DSA",
    "MAYO", "SNOVA", "CROSSRSDP", "CROSS-RSDP", "HAWK", "SQISIGN", "UOV"]

/-- `_PQC_HYBRID_FRAGMENTS`. -/
def pqcHybridFragments : List String := ["MLKEM", "MLDSA", "ML-KEM", "ML-DSA"]

/-- `_BROKEN`. -/
def broken : List String :=
  ["MD5", "MD4", "MD2", "RSA-MD5", "SHA-1", "SHA1", "RSA-SHA1", "ECDSA-SHA1",
    "DSA-SHA1", "RC4", "RC2", "DES", "3DES", "TRIPLEDES", "TDES"]

/-- `_pqc_ready`. -/
def pqcReady (name : List Char) : Bool :=
  pqcReadyPrefixes.any (startsWith name) || pqcHybridFragments.any (contains name)

/-- What `(\d+)$` reads: digits up to the end, or up to a last line break. -/
def trailingNumber (text : List Char) : Option Nat :=
  let digits := if text.getLast? = some '\n' then text.dropLast else text
  if digits ≠ [] ∧ digits.all Char.isDigit then some (Nat.ofDigitChars 10 digits 0)
  else none

/-- `^(?:NAMES)-?(\d+)$` on an upper-case name. -/
def sizeAfter (heads : List String) (name : List Char) : Option Nat :=
  heads.findSome? fun head =>
    if startsWith name head then
      let rest := name.drop head.toList.length
      trailingNumber (if rest.head? = some '-' then rest.tail else rest)
    else none

/-- `_EC_BITS_RE.search`. -/
def namesCurve (name : List Char) : Bool :=
  name.tails.any fun tail =>
    ["P-", "P", "SECP", "PRIME"].any fun head =>
      startsWith tail head &&
        spans 3 3 Char.isDigit ((tail.drop head.toList.length).take 3)

/-- The tier of a modulus. -/
def modulusTier (bits : Nat) : Classification :=
  if bits < 3072 then .sangatTinggi else .tinggi

/-- The tier of a matched modulus, or of the rules after the match. -/
def modulusOr (size : Option Nat) (other : Classification) : Classification :=
  match size with
  | some bits => modulusTier bits
  | none => other

/-- The symmetric ciphers and hashes of `classify`. -/
def classifySymmetric (name : List Char) : Classification :=
  if startsWith name "TLS_" &&
      (contains name "AES_256" || contains name "CHACHA20") then .rendah
  else if startsWith name "TLS_" && contains name "AES_128" then .sederhana
  else if startsWith name "AES-128" || oneOf name ["AES-128"] then
    if contains name "GCM" || contains name "CCM" then .sederhana else .tinggi
  else if ["AES-192", "AES-256", "CHACHA20"].any (startsWith name) ||
      oneOf name ["AES-192", "AES-256"] then .rendah
  else if oneOf name ["SHA-224", "SHA224"] then .sederhana
  else if oneOf name ["SHA-256", "SHA256", "SHA3-256"] then .sederhana
  else if oneOf name
      ["SHA-384", "SHA384", "SHA-512", "SHA512", "SHA3-384", "SHA3-512"] then .rendah
  else .info

/-- `classify` after normalisation. -/
def classifyName (name : List Char) : Classification :=
  if pqcReady name then .pqcReady
  else if oneOf name broken || oneOf name ["DSA"] then .sangatTinggi
  else modulusOr (sizeAfter ["RSA"] name) <|
  if ["RSA-", "RSA"].any (startsWith name) || oneOf name ["RSA"] then .tinggi
  else modulusOr (sizeAfter ["DH", "DHE", "FFDHE"] name) <|
  if (sizeAfter ["DSA"] name).isSome then .sangatTinggi
  else if ["ECDSA", "ECDH", "ED25519", "ED448", "SM2"].any (startsWith name) ||
      oneOf name ["ECDSA", "EDDSA"] || namesCurve name then .tinggi
  else classifySymmetric name

/-- `classify`. -/
def classify (alg : List Char) : Classification :=
  classifyName (upper (normalise alg))

/-! ## Normalisation -/

theorem contains_iff {text : List Char} {fragment : String} :
    contains text fragment = true ↔ fragment.toList <:+: text := by
  simp only [contains, List.any_eq_true, List.mem_tails, List.isPrefixOf_iff_prefix]
  constructor
  · rintro ⟨tail, suffix, starts⟩
    exact starts.isInfix.trans suffix.isInfix
  · rintro ⟨front, rest, rfl⟩
    exact ⟨fragment.toList ++ rest, ⟨front, by simp⟩, List.prefix_append _ _⟩

/-- Dropping a run of spaces keeps what does not start with one. -/
theorem infix_dropWhile {part text : List Char} (within : part <:+: text)
    (opens : ∀ char ∈ part.head?, isSpace char = false) :
    part <:+: text.dropWhile isSpace := by
  induction text with
  | nil => simpa using within
  | cons char rest inductionHypothesis =>
      by_cases space : isSpace char = true
      · rw [List.dropWhile_cons_of_pos space]
        rcases List.infix_cons_iff.mp within with starts | later
        · cases part with
          | nil => exact List.nil_infix
          | cons first others =>
              have equal : first = char := (List.cons_prefix_cons.mp starts).1
              rw [← equal, opens first rfl] at space
              cases space
        · exact inductionHypothesis later
      · rw [List.dropWhile_cons_of_neg space]
        exact within

/-- `strip` keeps what has no space at its ends. -/
theorem infix_strip_of_ends {part text : List Char} (within : part <:+: text)
    (opens : ∀ char ∈ part.head?, isSpace char = false)
    (closes : ∀ char ∈ part.getLast?, isSpace char = false) : part <:+: strip text := by
  rw [strip, ← List.reverse_infix, List.reverse_reverse]
  apply infix_dropWhile
  · rw [List.reverse_infix]
    exact infix_dropWhile within opens
  · rwa [List.head?_reverse]

/-- `strip` keeps what has no space. -/
theorem infix_strip {part text : List Char} (within : part <:+: text)
    (plain : ∀ char ∈ part, isSpace char = false) : part <:+: strip text :=
  infix_strip_of_ends within (fun char first => plain char (List.mem_of_mem_head? first))
    fun char last => plain char (List.mem_of_getLast? last)

/-- No object identifier has a letter. -/
theorem lookupOid_eq_none {name : List Char} (lettered : (lower name).any Char.isAlpha) :
    lookupOid name = none := by
  have unlettered : ∀ entry ∈ oidMap,
      (lower (dotted entry.1)).any Char.isAlpha = false := by decide +kernel
  simp only [lookupOid, Option.map_eq_none_iff, List.find?_eq_none, beq_iff_eq]
  intro entry member equal
  have absent := unlettered entry member
  rw [equal, lettered] at absent
  cases absent

/-- A name with a part that no key of the tables has is only put in upper case. -/
theorem normalise_of_contains {name : List Char} {part : String}
    (within : contains (lower name) part = true)
    (plain : ∀ char ∈ part.toList, isSpace char = false)
    (lettered : part.toList.any Char.isAlpha)
    (friends : ∀ entry ∈ friendlyMap, contains entry.1.toList part = false) :
    normalise name = upper name := by
  have placed := contains_iff.mp within
  have oid : lookupOid name = none := by
    apply lookupOid_eq_none
    obtain ⟨letter, member, alpha⟩ := List.any_eq_true.mp lettered
    exact List.any_eq_true.mpr ⟨letter, placed.subset member, alpha⟩
  have stripped : contains (strip (lower name)) part = true :=
    contains_iff.mpr (infix_strip placed plain)
  have friendly : lookupName friendlyMap (strip (lower name)) = none :=
    @lookupName_eq_none _ _ (fun text => contains text part) stripped friends
  simp only [normalise, oid, friendly]

/-! ## The rules of `classify` -/

theorem modulusTier_cases (bits : Nat) :
    modulusTier bits = .sangatTinggi ∨ modulusTier bits = .tinggi := by
  unfold modulusTier
  split
  · exact .inl rfl
  · exact .inr rfl

/-- A tier that no modulus has is that of the rules after the match. -/
theorem modulusOr_eq_iff {size : Option Nat} {other tier : Classification}
    (grave : tier ≠ .sangatTinggi) (high : tier ≠ .tinggi) :
    modulusOr size other = tier ↔ size.isSome = false ∧ other = tier := by
  cases size with
  | none => simp [modulusOr]
  | some bits =>
      rcases modulusTier_cases bits with equal | equal
      · simp [modulusOr, equal, grave.symm]
      · simp [modulusOr, equal, high.symm]

/-- A tier that a rule does not give is that of the rules after it. -/
theorem ite_eq_tier {test : Bool} {given other tier : Classification}
    (differs : given ≠ tier) :
    (if test then given else other) = tier ↔ test = false ∧ other = tier := by
  cases test with
  | false => simp
  | true => simp [differs]

theorem classifySymmetric_ne_pqcReady (name : List Char) :
    classifySymmetric name ≠ .pqcReady := by
  unfold classifySymmetric
  split_ifs <;> decide

/-- Only the post-quantum test makes a name ready. -/
theorem classifyName_eq_pqcReady {name : List Char} :
    classifyName name = .pqcReady ↔ pqcReady name = true := by
  constructor
  · intro tier
    by_contra ready
    rw [classifyName, if_neg ready, ite_eq_tier (by decide),
      modulusOr_eq_iff (by decide) (by decide), ite_eq_tier (by decide),
      modulusOr_eq_iff (by decide) (by decide), ite_eq_tier (by decide),
      ite_eq_tier (by decide)] at tier
    exact classifySymmetric_ne_pqcReady name tier.2.2.2.2.2.2
  · intro ready
    rw [classifyName, if_pos ready]

theorem sizeAfter_eq_none {heads : List String} {name : List Char}
    (absent : ∀ head ∈ heads, startsWith name head = false) :
    sizeAfter heads name = none := by
  rw [sizeAfter, List.findSome?_eq_none_iff]
  intro head member
  simp [absent head member]

/-- The literals that the rules before the elliptic curves look for. -/
def finiteFieldHeads : List String :=
  broken ++ ["DSA", "RSA-", "RSA", "DH", "DHE", "FFDHE"]

/-- The literals that the rules from the elliptic curves on look for. -/
def laterHeads : List String :=
  ["ECDSA", "ECDH", "ED25519", "ED448", "SM2", "EDDSA", "TLS_", "AES-128", "AES-192",
    "AES-256", "CHACHA20", "SHA-224", "SHA224", "SHA-256", "SHA256", "SHA3-256",
    "SHA-384", "SHA384", "SHA-512", "SHA512", "SHA3-384", "SHA3-512"]

/-- A name apart from the early literals is left to the later rules. -/
theorem classifyName_of_later {name : List Char}
    (early : ∀ head ∈ finiteFieldHeads, startsWith name head = false) :
    classifyName name =
      if pqcReady name then .pqcReady
      else if ["ECDSA", "ECDH", "ED25519", "ED448", "SM2"].any (startsWith name) ||
          oneOf name ["ECDSA", "EDDSA"] || namesCurve name then .tinggi
      else classifySymmetric name := by
  have absent : ∀ heads : List String, heads ⊆ finiteFieldHeads →
      ∀ head ∈ heads, startsWith name head = false :=
    fun heads within head member => early head (within member)
  have brokenName := oneOf_eq_false (absent broken (by decide))
  have dsaName := oneOf_eq_false (absent ["DSA"] (by decide))
  have rsaName := oneOf_eq_false (absent ["RSA"] (by decide))
  have rsaSize := sizeAfter_eq_none (absent ["RSA"] (by decide))
  have dhSize := sizeAfter_eq_none (absent ["DH", "DHE", "FFDHE"] (by decide))
  have dsaSize := sizeAfter_eq_none (absent ["DSA"] (by decide))
  have rsaHead := early "RSA" (by decide)
  have rsaDash := early "RSA-" (by decide)
  simp [classifyName, modulusOr, brokenName, dsaName, rsaName, rsaSize, dhSize, dsaSize,
    rsaHead, rsaDash]

/-- A name apart from the later literals is no named curve's. -/
theorem curveHeads_of_apart {name : List Char}
    (later : ∀ head ∈ laterHeads, startsWith name head = false) :
    (["ECDSA", "ECDH", "ED25519", "ED448", "SM2"].any (startsWith name) ||
      oneOf name ["ECDSA", "EDDSA"]) = false := by
  have curveName : oneOf name ["ECDSA", "EDDSA"] = false := by
    apply oneOf_eq_false
    intro head member
    exact later head ((by decide : ["ECDSA", "EDDSA"] ⊆ laterHeads) member)
  rw [curveName, Bool.or_false, List.any_eq_false]
  intro head member
  rw [later head ((by decide : ["ECDSA", "ECDH", "ED25519", "ED448", "SM2"] ⊆ laterHeads)
    member)]
  exact Bool.false_ne_true

/-- A name apart from the later literals is no known cipher or hash. -/
theorem classifySymmetric_of_apart {name : List Char}
    (later : ∀ head ∈ laterHeads, startsWith name head = false) :
    classifySymmetric name = .info := by
  have absent : ∀ heads : List String, heads ⊆ laterHeads →
      ∀ head ∈ heads, startsWith name head = false :=
    fun heads within head member => later head (within member)
  have aes128 := oneOf_eq_false (absent ["AES-128"] (by decide))
  have aes := oneOf_eq_false (absent ["AES-192", "AES-256"] (by decide))
  have sha224 := oneOf_eq_false (absent ["SHA-224", "SHA224"] (by decide))
  have sha256 := oneOf_eq_false (absent ["SHA-256", "SHA256", "SHA3-256"] (by decide))
  have sha512 := oneOf_eq_false (absent
    ["SHA-384", "SHA384", "SHA-512", "SHA512", "SHA3-384", "SHA3-512"] (by decide))
  have heads : ["AES-192", "AES-256", "CHACHA20"].any (startsWith name) = false := by
    rw [List.any_eq_false]
    intro head member
    rw [absent ["AES-192", "AES-256", "CHACHA20"] (by decide) head member]
    exact Bool.false_ne_true
  simp [classifySymmetric, aes128, aes, sha224, sha256, sha512, heads,
    later "TLS_" (by decide), later "AES-128" (by decide)]

/-- A name apart from every literal is decided by the post-quantum test and the
search for a curve. -/
theorem classifyName_of_apart {name : List Char}
    (early : ∀ head ∈ finiteFieldHeads, startsWith name head = false)
    (later : ∀ head ∈ laterHeads, startsWith name head = false) :
    classifyName name =
      if pqcReady name then .pqcReady else if namesCurve name then .tinggi
      else .info := by
  rw [classifyName_of_later early, curveHeads_of_apart later, Bool.false_or,
    classifySymmetric_of_apart later]

/-- No number ends a text that has a letter. -/
theorem trailingNumber_eq_none {text : List Char} {letter : Char}
    (member : letter ∈ text) (notDigit : letter.isDigit = false)
    (notBreak : letter ≠ '\n') : trailingNumber text = none := by
  have kept : letter ∈ if text.getLast? = some '\n' then text.dropLast else text := by
    split
    · next ends =>
      have whole := List.dropLast_append_getLast? '\n' ends
      rw [← whole, List.mem_append, List.mem_singleton] at member
      rcases member with front | last
      · exact front
      · exact absurd last notBreak
    · exact member
  rw [trailingNumber, if_neg]
  rintro ⟨-, digits⟩
  have digit := List.all_eq_true.mp digits letter kept
  rw [notDigit] at digit
  cases digit

/-- No size follows a head in a name with a letter that no head has. -/
theorem sizeAfter_eq_none_of_mem {heads : List String} {name : List Char} {letter : Char}
    (member : letter ∈ name) (notDigit : letter.isDigit = false)
    (notBreak : letter ≠ '\n') (notDash : letter ≠ '-')
    (foreign : ∀ head ∈ heads, letter ∉ head.toList) : sizeAfter heads name = none := by
  rw [sizeAfter, List.findSome?_eq_none_iff]
  intro head among
  split
  · next starts =>
    obtain ⟨rest, rfl⟩ := startsWith_iff.mp starts
    rw [List.drop_left]
    have after : letter ∈ rest := by
      rcases List.mem_append.mp member with front | back
      · exact absurd front (foreign head among)
      · exact back
    apply @trailingNumber_eq_none _ letter _ notDigit notBreak
    split
    · next dash =>
      cases rest with
      | nil => cases dash
      | cons first others =>
          rcases List.mem_cons.mp after with same | later
          · simp only [List.head?_cons, Option.some.injEq] at dash
            exact absurd (same.trans dash) notDash
          · exact later
    · exact after
  · rfl

/-- The gravest tier takes a broken primitive or a modulus. -/
theorem classifyName_ne_sangatTinggi {name : List Char}
    (notBroken : oneOf name broken = false) (notDsa : oneOf name ["DSA"] = false)
    (noModulus : ∀ heads ∈ [["RSA"], ["DH", "DHE", "FFDHE"], ["DSA"]],
      sizeAfter heads name = none) :
    classifyName name ≠ .sangatTinggi := by
  have symmetric : classifySymmetric name ≠ .sangatTinggi := by
    unfold classifySymmetric
    split_ifs <;> decide
  simp only [classifyName, modulusOr, notBroken, notDsa, noModulus ["RSA"] (by decide),
    noModulus ["DH", "DHE", "FFDHE"] (by decide), noModulus ["DSA"] (by decide),
    Bool.or_false, Bool.false_eq_true, if_false, Option.isSome_none]
  split_ifs
  · decide
  · decide
  · decide
  · exact symmetric

end Core
end PqcScan
