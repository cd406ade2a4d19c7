import PqcScan.Core.Bands
import PqcScan.Library.Patterns
import PqcScan.Probes.Elf
import PqcScan.Probes.MachO
import PqcScan.Probes.PeImports
import PqcScan.Python.Str
import Mathlib.Data.Char
import Mathlib.Data.Finset.Sort
import Mathlib.Data.List.Lex

/-!
# Libraries of a binary

`FsBinaryCrypto._scan_file`: the crypto libraries that a binary links or embeds, and for
an ELF file whether it imports a symbol of a library that it links.
-/

namespace PqcScan
namespace Probes
namespace FsBinaryCrypto

open Library Python PqcScan.Core

/-! ## Tables -/

/-- `_MAX_FILE_BYTES`. -/
def maxFileBytes : Nat := 96 * 1024 * 1024

/-- `_STRING_SCAN_BYTES`. -/
def stringScanBytes : Nat := 2 * 1024 * 1024

/-- `_LIB_RULES`. -/
def libRules : List (String × String) :=
  [("libssl", "openssl"), ("libcrypto", "openssl"), ("libeay32", "openssl"),
    ("ssleay32", "openssl"), ("boringssl", "boringssl"), ("gnutls", "gnutls"),
    ("libnss3", "nss"), ("nss3.dll", "nss"), ("libnss", "nss"),
    ("libsodium", "libsodium"), ("mbedcrypto", "mbedtls"), ("mbedtls", "mbedtls"),
    ("libwolfssl", "wolfssl"), ("wolfssl", "wolfssl"), ("libs2n", "s2n-tls"),
    ("libgcrypt", "libgcrypt"), ("libbotan", "botan"), ("botan", "botan"),
    ("commoncrypto", "commoncrypto"), ("security.framework", "security-framework"),
    ("bcrypt.dll", "bcrypt"), ("ncrypt.dll", "ncrypt"), ("crypt32.dll", "crypt32")]

/-- `_match_lib`; the names are ASCII. -/
def matchLib (raw : List Char) : Option String :=
  (libRules.find? fun rule => contains (lower raw) rule.1).map Prod.snd

/-- `_OPENSSL_SYMBOL_PREFIXES`. -/
def opensslSymbolPrefixes : List String :=
  ["EVP_", "SSL_", "RSA_", "EC_", "ECDSA_", "DH_", "DSA_", "SHA1", "MD5", "X509_",
    "PEM_", "BN_", "CRYPTO_", "OPENSSL_", "TLS_"]

/-- `_CRYPTO_SYMBOL_PREFIXES`. -/
def cryptoSymbolPrefixes : List (String × List String) :=
  [("openssl", opensslSymbolPrefixes), ("boringssl", opensslSymbolPrefixes),
    ("gnutls", ["gnutls_"]), ("nss", ["PK11_", "NSS_", "SEC_"]),
    ("libsodium", ["crypto_"]), ("mbedtls", ["mbedtls_"]),
    ("wolfssl", ["wolfSSL_", "wc_"]), ("s2n-tls", ["s2n_"]),
    ("aws-lc", opensslSymbolPrefixes)]

/-! ## Banners -/

/-- A literal. -/
def exactly (text : String) : List (Library.Piece Char) :=
  text.toList.map fun char => .one (· == char)

/-- `\d` among the characters of Latin-1. -/
def isLatinDigit (char : Char) : Bool := '0' ≤ char && char ≤ '9'

/-- `\d+\.\d+\.\d+`. -/
def dottedVersion : List (Library.Piece Char) :=
  [.one isLatinDigit, .many isLatinDigit, .one (· == '.'), .one isLatinDigit,
    .many isLatinDigit, .one (· == '.'), .one isLatinDigit, .many isLatinDigit]

/-- A name with `(?:[ /]?(\d+\.\d+\.\d+))?`. -/
def withVersion (name : List (Library.Piece Char)) : Matcher Char (Nat × List Char) :=
  Matcher.first
    [Matcher.capture (name ++ [.maybe fun char => char == ' ' || char == '/'])
      dottedVersion [], Matcher.capture name [] []]

/-- `_BANNER_PATTERNS`. -/
def bannerPatterns : List (String × Matcher Char (Nat × List Char)) :=
  [("openssl", Matcher.capture (exactly "OpenSSL" ++ [.one isSpace, .many isSpace])
      (dottedVersion ++ [.maybe fun char => 'a' ≤ char && char ≤ 'z']) []),
    ("boringssl", Matcher.capture (exactly "BoringSSL") [] []),
    ("gnutls", withVersion (exactly "GnuTLS")),
    ("libsodium", withVersion (exactly "libsodium")),
    ("mbedtls", withVersion ([.one fun char => char == 'M' || char == 'm'] ++
      exactly "bed" ++
      [.maybe (· == ' ')] ++ exactly "TLS")),
    ("wolfssl", withVersion (exactly "wolfSSL")),
    ("aws-lc", withVersion (exactly "AWS-LC"))]

/-- `_scan_banners`; a group that took nothing is `None`. -/
def scanBanners (data : Bytes) : List (String × Option (List Char)) :=
  let text := (data.take stringScanBytes).map fun byte => Char.ofNat byte.toNat
  bannerPatterns.filterMap fun banner =>
    (banner.2.search text).map fun found =>
      (banner.1, if found.detail.2 = [] then none else some found.detail.2)

/-! ## Constants -/

/-- `_ConstSig`. -/
structure ConstSig where
  algorithm : String
  needle : Bytes
  note : String

/-- `_AES_SBOX`. -/
def aesSbox : Bytes :=
  [0x63, 0x7c, 0x77, 0x7b, 0xf2, 0x6b, 0x6f, 0xc5, 0x30, 0x01, 0x67, 0x2b, 0xfe,
    0xd7, 0xab, 0x76, 0xca, 0x82, 0xc9, 0x7d, 0xfa, 0x59, 0x47, 0xf0, 0xad, 0xd4, 0xa2,
    0xaf, 0x9c, 0xa4, 0x72, 0xc0]

/-- `_AES_INV_SBOX`. -/
def aesInvSbox : Bytes :=
  [0x52, 0x09, 0x6a, 0xd5, 0x30, 0x36, 0xa5, 0x38, 0xbf, 0x40, 0xa3, 0x9e, 0x81,
    0xf3, 0xd7, 0xfb, 0x7c, 0xe3, 0x39, 0x82, 0x9b, 0x2f, 0xff, 0x87, 0x34, 0x8e, 0x43,
    0x44, 0xc4, 0xde, 0xe9, 0xcb]

/-- `_be` and `_le`. -/
def packWords (order : ByteOrder) (words : List Nat) (size : Nat) : Bytes :=
  words.flatMap fun word => order.pack size word

/-- A table of words in both byte orders. -/
def wordSigs (algorithm note : String) (words : List Nat) (size : Nat) : List ConstSig :=
  [⟨algorithm, packWords .big words size, note ++ " (BE)"⟩,
    ⟨algorithm, packWords .little words size, note ++ " (LE)"⟩]

/-- `_SIGNATURES`. -/
def signatures : List ConstSig :=
  [⟨"AES", aesSbox, "AES S-box"⟩, ⟨"AES", aesInvSbox, "AES inverse S-box"⟩] ++
    wordSigs "SHA-256" "SHA-256 round constants" [0x428a2f98, 0x71374491,
      0xb5c0fbcf, 0xe9b5dba5, 0x3956c25b, 0x59f111f1, 0x923f82a4, 0xab1c5ed5] 4 ++
    wordSigs "SHA-512" "SHA-512 round constants" [0x428a2f98d728ae22, 0x7137449123ef65cd,
      0xb5c0fbcfec4d3b2f] 8 ++
    wordSigs "SHA-1" "SHA-1 round constants" [0x5a827999, 0x6ed9eba1, 0x8f1bbcdc,
      0xca62c1d6] 4 ++
    wordSigs "MD5" "MD5 T-table" [0xd76aa478, 0xe8c7b756, 0x242070db, 0xc1bdceee] 4 ++
    wordSigs "Blowfish" "Blowfish P-array / pi" [0x243f6a88, 0x85a308d3, 0x13198a2e,
      0x03707344] 4 ++
    [⟨"ChaCha20", nameBytes "expand 32-byte k".toList, "ChaCha20/Salsa20 sigma"⟩,
      ⟨"ChaCha20", nameBytes "expand 16-byte k".toList, "ChaCha20/Salsa20 tau"⟩] ++
    wordSigs "SHA-3" "Keccak round constants" [0x0000000000000001, 0x0000000000008082,
      0x800000000000808a] 8

/-- `scan_crypto_constants`. -/
def scanCryptoConstants (data : Bytes) : List (String × String) :=
  signatures.foldl (fun found sig =>
    if found.any fun entry => entry.1 == sig.algorithm then found
    else if data.tails.any (sig.needle.isPrefixOf ·) then
      found ++ [(sig.algorithm, sig.note)]
    else found) []

/-! ## Hits -/

/-- The formats of executables. -/
inductive Format
  | elf
  | pe
  | macho
  deriving DecidableEq

/-- Where a piece of evidence is from. -/
inductive Origin
  | linked
  | embedded
  | constant
  deriving DecidableEq

/-- The values of `reachability`. -/
inductive Reachability
  | unknown
  | invoked
  | linkedOnly
  deriving DecidableEq

/-- `_Hit`. -/
structure Hit where
  library : String
  fmt : Format
  origin : Origin
  confidence : String
  kind : String := "library"
  version : Option (List Char) := none
  detail : Option (List Char) := none
  reachability : Reachability := .unknown
  importedCryptoSymbols : Option (List (List Char)) := none
  deriving DecidableEq

/-- `_detect_format`. -/
def detectFormat (data : Bytes) : Option Format :=
  if data.take 4 = elfMagic then some .elf
  else if data.take 2 = dosMagic then some .pe
  else if data.take 4 = machoFat ∨
      machoKinds.any (fun kind => machoMagic kind.1 kind.2 == data.take 4) then
        some .macho
  else none

/-- A library that is linked, under its first name. -/
def addLinked (fmt : Format) (hits : List (String × Hit)) (raw : List Char) :
    List (String × Hit) :=
  match matchLib raw with
  | none => hits
  | some libId =>
      if hits.any fun entry => entry.1 == libId then hits
      else
        hits ++ [(libId,
          { library := libId
            fmt
            origin := .linked
            confidence := "high"
            detail := some raw })]

/-- `s.startswith(prefixes)`. -/
def startsWithAny (prefixes : List String) (name : List Char) : Bool :=
  prefixes.any fun head => startsWith name head

/-- Whether a linked library is invoked. -/
def assess (imports : Finset (List Char)) (hit : Hit) : Hit :=
  match cryptoSymbolPrefixes.lookup hit.library with
  | none => hit
  | some prefixes =>
      let matched := (imports.filter fun name => startsWithAny prefixes name).sort (· ≤ ·)
      if matched = [] then { hit with reachability := .linkedOnly }
      else { hit with reachability := .invoked,
                      importedCryptoSymbols := some (matched.take 10) }

/-- A banner gives a version to a hit without one, or a hit of its own. -/
def addBanner (fmt : Format) (hits : List (String × Hit))
    (banner : String × Option (List Char)) : List (String × Hit) :=
  if hits.any fun entry => entry.1 == banner.1 then
    hits.map fun entry =>
      if entry.1 = banner.1 ∧ entry.2.version = none then
        (entry.1, { entry.2 with version := banner.2 })
      else entry
  else
    hits ++ [(banner.1,
      { library := banner.1
        fmt
        origin := .embedded
        confidence := "medium"
        version := banner.2 })]

/-- `FsBinaryCrypto._scan_file` of a file with these bytes. -/
def scanFile (content : Bytes) : List Hit :=
  match detectFormat (content.take 4) with
  | none => []
  | some _ =>
      let data := content.take maxFileBytes
      match detectFormat data with
      | none => []
      | some fmt =>
          let linked := match fmt with
            | .elf => elfNeeded data
            | .pe => peImports data
            | .macho => machoDylibs data
          let hits := linked.foldl (addLinked fmt) []
          let imports := elfDynsymImports data
          let hits :=
            if fmt = .elf ∧ hits ≠ [] ∧ imports ≠ ∅ then
              hits.map fun entry => (entry.1, assess imports entry.2)
            else hits
          let hits := (scanBanners data).foldl (addBanner fmt) hits
          let hits :=
            if hits = [] then
              (scanCryptoConstants data).map fun constant =>
                ("const:" ++ constant.1,
                  { library := constant.1
                    fmt
                    origin := .constant
                    confidence := "medium"
                    kind := "constant"
                    detail := some constant.2.toList })
            else hits
          hits.map Prod.snd

/-! ## Reachability -/

theorem exists_mem_map {α β : Type} {change : α → β} {items : List α} {holds : β → Prop} :
    (∃ changed ∈ items.map change, holds changed) ↔ ∃ item ∈ items, holds
      (change item) := by
  simp

/-- A hit of the library is marked as linked only. -/
def Marked (hits : List (String × Hit)) (library : String) : Prop :=
  ∃ entry ∈ hits, entry.2.library = library ∧ entry.2.reachability = .linkedOnly

/-- The hits are those of the linked libraries, not yet assessed. -/
structure Linkage (hits : List (String × Hit)) (linked : List (List Char)) : Prop where
  fresh : ∀ entry ∈ hits, entry.2.library = entry.1 ∧ entry.2.reachability = .unknown
  libraries : ∀ library, (∃ entry ∈ hits, entry.1 = library) ↔
    ∃ raw ∈ linked, matchLib raw = some library

theorem Linkage.addLinked {hits : List (String × Hit)} {linked : List (List Char)}
    (linkage : Linkage hits linked) (fmt : Format) (raw : List Char) :
    Linkage (addLinked fmt hits raw) (linked ++ [raw]) := by
  have more : ∀ library, (∃ other ∈ linked ++ [raw], matchLib other = some library) ↔
      (∃ entry ∈ hits, entry.1 = library) ∨ matchLib raw = some library := by
    intro library
    rw [linkage.libraries]
    simp only [List.mem_append, List.mem_singleton, or_and_right, exists_or,
      exists_eq_left]
  rw [FsBinaryCrypto.addLinked]
  cases matched : matchLib raw with
  | none =>
      refine ⟨linkage.fresh, fun library => ?_⟩
      rw [more, matched]
      simp
  | some libId =>
      dsimp only
      split
      · next known =>
        refine ⟨linkage.fresh, fun library => ?_⟩
        obtain ⟨entry, member, same⟩ := List.any_eq_true.mp known
        rw [more, matched]
        constructor
        · exact Or.inl
        · rintro (present | ⟨⟨⟩⟩)
          · exact present
          · exact ⟨entry, member, eq_of_beq same⟩
      · refine ⟨fun entry member => ?_, fun library => ?_⟩
        · rcases List.mem_append.mp member with inside | last
          · exact linkage.fresh entry inside
          · rw [List.mem_singleton.mp last]
            exact ⟨rfl, rfl⟩
        · rw [more, matched]
          simp only [List.mem_append, List.mem_singleton, or_and_right, exists_or,
            exists_eq_left, Option.some.injEq]

theorem linkage_foldl (fmt : Format) (linked : List (List Char)) :
    Linkage (linked.foldl (addLinked fmt) []) linked := by
  induction linked using List.reverseRecOn with
  | nil => exact ⟨by simp, by simp⟩
  | append_singleton linked raw inductionHypothesis =>
      rw [List.foldl_append]
      exact inductionHypothesis.addLinked fmt raw

/-- A hit is marked exactly when its library has prefixes that no import has. -/
theorem assess_iff {imports : Finset (List Char)} {hit : Hit}
    (fresh : hit.reachability = .unknown) :
    (assess imports hit).reachability = .linkedOnly ↔
      ∃ prefixes, cryptoSymbolPrefixes.lookup hit.library = some prefixes ∧
        ∀ name ∈ imports, startsWithAny prefixes name = false := by
  rw [assess]
  cases cryptoSymbolPrefixes.lookup hit.library with
  | none => simp [fresh]
  | some prefixes =>
      have none_ : (imports.filter fun name => startsWithAny prefixes name).sort (· ≤ ·) =
          [] ↔
          ∀ name ∈ imports, startsWithAny prefixes name = false := by
        rw [← List.toFinset_eq_empty_iff, Finset.sort_toFinset,
          Finset.filter_eq_empty_iff]
        simp only [Bool.not_eq_true]
      simp only [Option.some.injEq, exists_eq_left']
      rw [← none_]
      split
      · next empty => simp [empty]
      · next other => simp [other]

theorem assess_library (imports : Finset (List Char)) (hit : Hit) :
    (assess imports hit).library = hit.library := by
  rw [assess]
  cases cryptoSymbolPrefixes.lookup hit.library with
  | none => rfl
  | some prefixes =>
      dsimp only
      split <;> rfl

/-- A banner marks nothing and unmarks nothing. -/
theorem marked_addBanner (fmt : Format) (hits : List (String × Hit))
    (banner : String × Option (List Char)) (library : String) :
    Marked (addBanner fmt hits banner) library ↔ Marked hits library := by
  rw [addBanner]
  split
  · have same : ∀ entry : String × Hit,
        (if entry.1 = banner.1 ∧ entry.2.version = none then
          (entry.1, { entry.2 with version := banner.2 }) else entry).2.library =
            entry.2.library ∧
        (if entry.1 = banner.1 ∧ entry.2.version = none then
          (entry.1, { entry.2 with version := banner.2 }) else entry).2.reachability =
            entry.2.reachability := by
      intro entry
      split <;> exact ⟨rfl, rfl⟩
    rw [Marked, exists_mem_map]
    simp only [same, Marked]
  · simp only [Marked, List.mem_append, List.mem_singleton, or_and_right, exists_or,
      exists_eq_left]
    simp

theorem marked_banners (fmt : Format) (banners : List (String × Option (List Char)))
    (hits : List (String × Hit)) (library : String) :
    Marked (banners.foldl (addBanner fmt) hits) library ↔ Marked hits library := by
  induction banners generalizing hits with
  | nil => rfl
  | cons banner banners inductionHypothesis =>
      rw [List.foldl_cons, inductionHypothesis, marked_addBanner]

/-- The hits that the constants give are not marked. -/
theorem marked_constants {hits : List (String × Hit)} {constants : List (String × Hit)}
    (fresh : ∀ entry ∈ constants, entry.2.reachability = .unknown) (library : String) :
    Marked (if hits = [] then constants else hits) library ↔ Marked hits library := by
  split
  · next empty =>
    rw [empty]
    constructor
    · rintro ⟨entry, member, -, marked⟩
      rw [fresh entry member] at marked
      cases marked
    · rintro ⟨entry, member, -⟩
      cases member
  · rfl

/-- An ELF file within the read cap: which of its libraries are marked as linked only. -/
theorem linkedOnly_iff {content : Bytes} (small : content.length ≤ maxFileBytes)
    {file : ElfFile content} (dynamic : Dynamic file) (dynsym : Dynsym file)
    {libraries : List (List Char)}
    (named : List.Forall₂ (fun entry name =>
      HoldsName content dynamic.strings.toSection entry.2 name) dynamic.needed libraries)
    {nameOf : Symbol → List Char}
    (spelled : ∀ symbol ∈ dynsym.symbols, symbol.imported = true →
      HoldsName content dynsym.strings.toSection symbol.name (nameOf symbol))
    (library : String) :
    (∃ hit ∈ scanFile content, hit.library = library ∧ hit.reachability = .linkedOnly) ↔
      (∃ raw ∈ libraries, matchLib raw = some library) ∧
      (∃ symbol ∈ dynsym.symbols.take maxDynsym, symbol.imported = true) ∧
      ∃ prefixes, cryptoSymbolPrefixes.lookup library = some prefixes ∧
        ∀ symbol ∈ dynsym.symbols.take maxDynsym, symbol.imported = true →
          startsWithAny prefixes (nameOf symbol) = false := by
  have magic : content.take 4 = elfMagic := by
    have window := file.begins.left.left.window
    rwa [List.drop_zero] at window
  have detected : ∀ data : Bytes, data.take 4 = elfMagic →
      detectFormat data = some .elf :=
    fun data same => if_pos same
  have needed : elfNeeded content = libraries := elfNeeded_eq dynamic named
  have imports : elfDynsymImports content =
      (((dynsym.symbols.take maxDynsym).filter Symbol.imported).map nameOf).toFinset := by
    apply elfDynsymImports_eq dynsym
    rw [List.forall₂_map_right_iff, List.forall₂_same]
    intro symbol member
    obtain ⟨inside, imported⟩ := List.mem_filter.mp member
    exact spelled symbol (List.mem_of_mem_take inside) imported
  have linkage := linkage_foldl .elf libraries
  have some_ : elfDynsymImports content ≠ ∅ ↔
      ∃ symbol ∈ dynsym.symbols.take maxDynsym, symbol.imported = true := by
    rw [imports, Ne, List.toFinset_eq_empty_iff, List.map_eq_nil_iff,
      List.filter_eq_nil_iff]
    simp only [not_forall, Bool.not_eq_true, Bool.not_eq_false, exists_prop]
  have all : ∀ prefixes, (∀ name ∈ elfDynsymImports content,
      startsWithAny prefixes name = false) ↔
      ∀ symbol ∈ dynsym.symbols.take maxDynsym, symbol.imported = true →
        startsWithAny prefixes (nameOf symbol) = false := by
    intro prefixes
    rw [imports]
    simp only [List.mem_toFinset, List.forall_mem_map, List.mem_filter, and_imp]
  have scanned : (∃ hit ∈ scanFile content, hit.library = library ∧
      hit.reachability = .linkedOnly) ↔
      Marked (if Format.elf = .elf ∧ libraries.foldl (addLinked .elf) [] ≠ [] ∧
          elfDynsymImports content ≠ ∅ then
        (libraries.foldl (addLinked .elf) []).map fun entry =>
          (entry.1, assess (elfDynsymImports content) entry.2)
      else libraries.foldl (addLinked .elf) []) library := by
    rw [scanFile, detected _ (by rw [List.take_take]; exact magic)]
    dsimp only
    rw [List.take_of_length_le small, detected _ magic]
    dsimp only
    rw [needed, exists_mem_map]
    refine Iff.trans (marked_constants ?_ library) (marked_banners _ _ _ library)
    intro entry member
    obtain ⟨constant, -, rfl⟩ := List.mem_map.mp member
    rfl
  rw [scanned, ← some_]
  simp only [← all]
  split
  · next present =>
    rw [Marked, exists_mem_map]
    simp only [assess_library]
    constructor
    · rintro ⟨entry, member, same, marked⟩
      obtain ⟨key, fresh⟩ := linkage.fresh entry member
      refine ⟨(linkage.libraries library).mp ⟨entry, member, key ▸ same⟩, present.2.2, ?_⟩
      rw [← same]
      exact (assess_iff fresh).mp marked
    · rintro ⟨linked, -, marked⟩
      obtain ⟨entry, member, rfl⟩ := (linkage.libraries library).mpr linked
      obtain ⟨key, fresh⟩ := linkage.fresh entry member
      refine ⟨entry, member, key, (assess_iff fresh).mpr ?_⟩
      rwa [key]
  · next absent =>
    constructor
    · rintro ⟨entry, member, -, marked⟩
      rw [(linkage.fresh entry member).2] at marked
      cases marked
    · rintro ⟨linked, imported, -⟩
      obtain ⟨entry, member, -⟩ := (linkage.libraries library).mpr linked
      exact absurd ⟨trivial, List.ne_nil_of_mem member, imported⟩ absent

theorem linkedOnly_iff_openssl :
    (∃ hit ∈ scanFile sampleData, hit.library = "openssl" ∧
      hit.reachability = .linkedOnly) ↔
      (∃ raw ∈ ["libssl".toList], matchLib raw = some "openssl") ∧
      (∃ symbol ∈ sampleDynsymOf.symbols.take maxDynsym, symbol.imported = true) ∧
      ∃ prefixes, cryptoSymbolPrefixes.lookup "openssl" = some prefixes ∧
        ∀ symbol ∈ sampleDynsymOf.symbols.take maxDynsym, symbol.imported = true →
          startsWithAny prefixes "puts".toList = false :=
  linkedOnly_iff (by decide +kernel) sampleDynamicOf sampleDynsymOf
    (.cons libssl_held .nil)
    (by
      intro symbol member imported
      rcases List.mem_pair.mp member with rfl | rfl
      · cases imported
      · exact puts_held) "openssl"

end FsBinaryCrypto
end Probes
end PqcScan
