import PqcScan.Probes.CipherLists
import PqcScan.Core.Canonical

/-!
# Cipher suites in configuration files

How the probes for Envoy, F5, Caddy and NetScaler judge a cipher suite, from
`fs_conf_envoy.py`, `fs_conf_f5.py`, `fs_conf_caddy.py` and `fs_conf_netscaler.py`, and
when they agree with each other and with the probes that read cipher strings.
-/

namespace PqcScan
namespace Probes

open Library Python PqcScan.Core

section Tokens

variable (tables : CaseTables) (path : String) (now : DateTime)

/-- `classify_cipher_token`. -/
def suiteTier (token : List Char) : Option Classification :=
  (tables.classify (tables.normalise token)).map fun direct =>
    if direct ≠ .info then direct
    else
      match weakSubstr.find? fun entry => contains (tables.upper token) entry.1 with
      | some entry => entry.2
      | none => .info

/-! ## Envoy -/

/-- The loop of `FsConfEnvoy._scan_params` over a token of `cipher_suites`. -/
def envoyToken (raw : List Char) : Option (List Finding) :=
  let token := lstripChar '-' (lstripChar '+' (lstripChar '!' raw))
  if token = [] then some []
  else (tables.classify token).map fun cls =>
    if cls = .sangatTinggi ∨ cls = .tinggi then
      [{ probeId := "fs.conf.envoy"
         algorithm := String.ofList (tables.normalise token)
         classification := cls
         severity := sevFor cls
         title := "envoy cipher_suites includes " ++ String.ofList token
         evidence := Dict.ofList [("path", .str path),
           ("directive", .str "cipher_suites")]
         createdAt := now }]
    else []

/-! ## F5 -/

/-- `_ALIAS_WORDS`. -/
def aliasWords : List String :=
  ["DEFAULT", "ALL", "NATIVE", "HIGH", "MEDIUM", "LOW", "NONE"]

/-- `_WEAK_CIPHER_LITERALS`. -/
def weakCipherLiterals : List (String × String) :=
  [("SSLV3", "SSLV3"), ("TLSV1", "TLSV1"), ("TLSV1_1", "TLSV1.1"), ("TLSV1.1", "TLSV1.1"),
    ("RC4", "RC4"), ("DES", "DES"), ("3DES", "3DES"), ("MD5", "MD5"),
    ("EXPORT", "EXPORT"), ("NULL", "NULL")]

/-- The loop of `FsConfF5._scan_ciphers` over an element of `ciphers`. -/
def f5Token (profile : String) (cipherStr raw : List Char) : Option (List Finding) :=
  let token := bareToken raw
  let evidence := Dict.ofList [("path", .str path), ("profile", .str profile),
    ("directive", .str "ciphers"), ("list", .str (String.ofList cipherStr))]
  if token = [] ∨ oneOf (tables.upper token) aliasWords then some []
  else
    match lookupName weakCipherLiterals (tables.upper token) with
    | some literal => some
        [{ probeId := "fs.conf.f5"
           algorithm := String.ofList literal
           classification := .sangatTinggi
           severity := .crit
           title := "F5 ciphers includes weak token " ++ String.ofList token
           evidence := evidence
           createdAt := now }]
    | none => (tables.classify token).map fun cls =>
        if cls = .sangatTinggi ∨ cls = .tinggi then
          [{ probeId := "fs.conf.f5"
             algorithm := String.ofList (tables.normalise token)
             classification := cls
             severity := sevFor cls
             title := "F5 ciphers includes " ++ String.ofList token
             evidence := evidence
             createdAt := now }]
        else []

/-! ## Caddy -/

/-- The loop of `_classify_cipher` over the parts of a name: the
first part that is broken. -/
def caddyPart : List (List Char) → Option (Option (List Char))
  | [] => some none
  | part :: rest =>
      if part = [] then caddyPart rest
      else
        match tables.classify part with
        | none => none
        | some cls => if cls = .sangatTinggi then some (some part) else caddyPart rest

/-- `token.replace("-", "_").split("_")`. -/
def caddyParts (token : List Char) : List (List Char) :=
  (token.map fun char => if char = '-' then '_' else char).splitOn '_'

/-- `_classify_cipher` of the Caddy probe. -/
def caddyVerdict (token : List Char) : Option Verdict :=
  match tables.classify token with
  | none => none
  | some cls =>
      if cls = .sangatTinggi ∨ cls = .tinggi then some (tables.normalise token, cls)
      else
        match caddyPart tables (caddyParts token) with
        | none => none
        | some (some part) => some (tables.normalise part, .sangatTinggi)
        | some none => some (tables.normalise token, cls)

/-- `_emit_weak_cipher`. -/
def caddyToken (directive : String) (listing token : List Char) : Option (List Finding) :=
  (caddyVerdict tables token).map fun verdict =>
    if verdict.2 = .sangatTinggi ∨ verdict.2 = .tinggi then
      [{ probeId := "fs.conf.caddy"
         algorithm := String.ofList verdict.1
         classification := verdict.2
         severity := sevFor verdict.2
         title := "caddy " ++ directive ++ " includes " ++ String.ofList token
         evidence := Dict.ofList [("path", .str path), ("directive", .str directive),
           ("list", .str (String.ofList listing))]
         createdAt := now }]
    else []

/-! ## NetScaler -/

/-- `_BROKEN_FRAGMENTS`. -/
def brokenFragments : List String :=
  ["SSL3", "RC4", "DES-CBC3", "3DES", "DES-CBC-", "-DES-", "MD5", "EXPORT", "NULL"]

/-- The loop of `_classify_cipher` over the tokens of a name,
with the worst tier so far. -/
def worstTier : Option Classification → List (List Char) → Option (Option Classification)
  | worst, [] => some worst
  | worst, token :: rest =>
      if token = [] then worstTier worst rest
      else
        match tables.classify token with
        | none => none
        | some cls =>
            if cls = .sangatTinggi then some (some cls)
            else if cls = .tinggi then worstTier (some .tinggi) rest
            else worstTier worst rest

/-- `_classify_cipher` of the NetScaler probe. -/
def netscalerVerdict (name : List Char) : Option (Option Classification) :=
  let upperName := tables.upper name
  if brokenFragments.any (contains upperName) then some (some .sangatTinggi)
  else worstTier tables none (upperName.splitOn '-')

/-- `FsConfNetscaler._scan_cipher`. -/
def netscalerToken (kind entity : String) (name : List Char) : Option (List Finding) :=
  (netscalerVerdict tables name).map fun verdict =>
    match verdict with
    | none => []
    | some cls =>
        if cls = .sangatTinggi ∨ cls = .tinggi then
          [{ probeId := "fs.conf.netscaler"
             algorithm := String.ofList (tables.normalise name)
             classification := cls
             severity := sevFor cls
             title := "NetScaler ssl " ++ kind ++ " " ++ entity ++ " binds cipher " ++
               String.ofList name
             evidence := Dict.ofList [("path", .str path), ("entity", .str entity),
               ("directive", .str "cipherName")]
             createdAt := now }]
        else []

end Tokens

/-! ## One verdict -/

/-- A directive that enables cipher suites, by the probe that reads it. -/
inductive SuiteDirective
  | nginx
  | haproxyCiphers
  | haproxyCiphersuites
  | envoy
  | f5
  | caddy
  | netscaler

/-- Where a suite stands. -/
structure Place where
  path : String
  now : DateTime
  listing : List Char
  directive : String
  kind : String
  entity : String

/-- What the probe of a directive reports of a suite. -/
def judge (tables : CaseTables) (place : Place) (suite : List Char) :
    SuiteDirective → Option (List Finding)
  | .nginx => cipherToken tables nginxCiphers place.path place.now place.listing suite
  | .haproxyCiphers =>
      cipherToken tables haproxyCiphers place.path place.now place.listing suite
  | .haproxyCiphersuites =>
      cipherToken tables haproxyCiphersuites place.path place.now place.listing suite
  | .envoy => envoyToken tables place.path place.now suite
  | .f5 => f5Token tables place.path place.now place.entity place.listing suite
  | .caddy => caddyToken tables place.path place.now place.directive place.listing suite
  | .netscaler => netscalerToken tables place.path place.now place.kind place.entity suite

/-- A finding of the gravest tier is among the reports. -/
def Reports (reports : Option (List Finding)) : Prop :=
  ∃ findings, reports = some findings ∧
    ∃ finding ∈ findings, finding.classification = .sangatTinggi

/-- The probe of the directive reports the suite as broken. -/
def Critical (tables : CaseTables) (place : Place) (suite : List Char)
    (directive : SuiteDirective) : Prop :=
  Reports (judge tables place suite directive)

/-- A cipher-suite name: letters, digits, hyphens and underscores, and no keyword. -/
structure SuiteName (tables : CaseTables) where
  text : List Char
  chars : ∀ char ∈ text, char.isAlphanum = true ∨ char = '-' ∨ char = '_'
  bare : ∀ char ∈ text.head?, char ≠ '-'
  filled : text ≠ []
  noKeyword : oneOf (tables.upper text) cipherKeywords = false
  noAlias : oneOf (tables.upper text) aliasWords = false

/-- The probes judge the suite as one, and none misses what
`classify_cipher_token` finds. -/
structure OneVerdict (tables : CaseTables) (suite : List Char) : Prop where
  alike : ∀ place elsewhere directive other,
    Critical tables place suite directive → Critical tables elsewhere suite other
  shared : suiteTier tables suite = some .sangatTinggi →
    ∀ place directive, Critical tables place suite directive

/-- A part of a name is broken, and `int` reads the numbers of the parts before it. -/
def BrokenPart (tables : CaseTables) (parts : List (List Char)) : Prop :=
  ∃ front part back, parts = front ++ part :: back ∧
    (∀ before ∈ front, before = [] ∨ tables.classify before ≠ none) ∧
    part ≠ [] ∧ tables.classify part = some .sangatTinggi

/-- What the NetScaler probe looks for. -/
def BrokenWithin (tables : CaseTables) (suite : List Char) : Prop :=
  brokenFragments.any (contains (tables.upper suite)) = true ∨
    BrokenPart tables ((tables.upper suite).splitOn '-')

/-- No probe finds anything that the classifier of whole names does not. -/
structure NothingBroken (tables : CaseTables) (suite : List Char) : Prop where
  name : tables.classify suite ≠ some .sangatTinggi
  literal : lookupName weakCipherLiterals (tables.upper suite) = none
  within : ¬ BrokenWithin tables suite
  parts : ∀ cls, tables.classify suite = some cls → cls ≠ .tinggi →
    ¬ BrokenPart tables (caddyParts suite)
  needles : tables.classify suite = some .info →
    weakSubstr.any (fun entry => contains (tables.upper suite) entry.1) = false

/-! ## What each probe looks for -/

section Verdicts

variable {tables : CaseTables}

/-- A probe that reports the two gravest tiers. -/
theorem reports_ite {cls : Classification} {finding : Finding}
    (named : finding.classification = cls) :
    Reports (some (if cls = .sangatTinggi ∨ cls = .tinggi then [finding] else [])) ↔
      cls = .sangatTinggi := by
  constructor
  · rintro ⟨findings, equal, reported, member, grave⟩
    rw [Option.some_inj] at equal
    rw [← equal] at member
    split at member
    · rw [List.mem_singleton] at member
      rw [← named, ← member, grave]
    · cases member
  · intro grave
    exact ⟨_, rfl, by simp [grave, named]⟩

theorem reports_map {α : Type} {outcome : Option α} {tier : α → Classification}
    {finding : α → Finding}
    (named : ∀ value, (finding value).classification = tier value) :
    Reports (outcome.map fun value =>
        if tier value = .sangatTinggi ∨ tier value = .tinggi then [finding value]
        else []) ↔
      outcome.map tier = some .sangatTinggi := by
  cases outcome with
  | none => simp [Reports]
  | some value =>
      rw [Option.map_some, reports_ite (named value), Option.map_some, Option.some_inj]

theorem reports_singleton {finding : Finding}
    (grave : finding.classification = .sangatTinggi) :
    Reports (some [finding]) :=
  ⟨_, rfl, finding, List.mem_singleton_self _, grave⟩

theorem ascii_of_alphanum {char : Char} (alphanum : char.isAlphanum = true) :
    char.toNat < 128 := by
  delta Char.isAlphanum Char.isAlpha Char.isUpper Char.isLower Char.isDigit at alphanum
  simp only [Bool.or_eq_true, Bool.and_eq_true, decide_eq_true_eq, UInt32.le_iff_toNat_le,
    ge_iff_le] at alphanum
  have code : char.toNat = char.val.toNat := rfl
  rcases alphanum with (⟨-, bound⟩ | ⟨-, bound⟩) | ⟨-, bound⟩
  · simp at bound
    omega
  · simp at bound
    omega
  · simp at bound
    omega

theorem SuiteName.ascii (suite : SuiteName tables) : Ascii suite.text := by
  intro char member
  rcases suite.chars char member with alphanum | rfl | rfl
  · exact ascii_of_alphanum alphanum
  · decide
  · decide

/-- No character of a suite name is white space or an operator but the hyphen. -/
theorem plain_of_suite : ∀ char : Char, char.toNat < 128 →
    (char.isAlphanum = true ∨ char = '-' ∨ char = '_') →
      isSpace char = false ∧ char ≠ '!' ∧ char ≠ '+' := by
  have ascii : ∀ code : Fin 128,
      ((Char.ofNat code).isAlphanum = true ∨ Char.ofNat code = '-' ∨
      Char.ofNat code = '_') → isSpace (Char.ofNat code) = false ∧ Char.ofNat code ≠ '!' ∧
        Char.ofNat code ≠ '+' := by decide +kernel
  intro char low suited
  have same : Char.ofNat char.toNat = char := Char.ofNat_toNat char
  rw [← same] at suited ⊢
  exact ascii ⟨char.toNat, low⟩ suited

theorem SuiteName.plain (suite : SuiteName tables) : ∀ char ∈ suite.text,
    isSpace char = false ∧ char ≠ '!' ∧ char ≠ '+' :=
  fun char member =>
    plain_of_suite char (suite.ascii char member) (suite.chars char member)

/-- A suite name has no operator in front. -/
theorem SuiteName.lstrip (suite : SuiteName tables) :
    lstripChar '-' (lstripChar '+' (lstripChar '!' suite.text)) = suite.text := by
  have kept : ∀ mark, (∀ char ∈ suite.text.head?, char ≠ mark) →
      lstripChar mark suite.text = suite.text := by
    intro mark other
    cases equal : suite.text with
    | nil => rfl
    | cons first rest =>
        rw [equal] at other
        rw [lstripChar, List.dropWhile_cons_of_neg (by simpa using other first rfl)]
  have within : ∀ char ∈ suite.text.head?, char ∈ suite.text :=
    fun _ => List.mem_of_mem_head?
  rw [kept '!' fun char first => (suite.plain char (within char first)).2.1,
    kept '+' fun char first => (suite.plain char (within char first)).2.2,
    kept '-' suite.bare]

theorem SuiteName.bareToken (suite : SuiteName tables) :
    bareToken suite.text = suite.text := by
  have stripped : strip suite.text = suite.text := by
    apply trim_of_ends
    · exact fun char first => (suite.plain char (List.mem_of_mem_head? first)).1
    · exact fun char last => (suite.plain char (List.mem_of_getLast? last)).1
  rw [Probes.bareToken, stripped, suite.lstrip]

variable {place : Place} (suite : SuiteName tables)

theorem cipherToken_critical (directive : CipherDirective) :
    Reports (cipherToken tables directive place.path place.now place.listing suite.text) ↔
      tables.classify suite.text = some .sangatTinggi := by
  rw [cipherToken, suite.bareToken, if_neg (by simp [suite.filled, suite.noKeyword])]
  refine (@reports_map _ _ id _ fun _ => rfl).trans ?_
  rw [Option.map_id, id]

theorem envoyToken_critical :
    Reports (envoyToken tables place.path place.now suite.text) ↔
      tables.classify suite.text = some .sangatTinggi := by
  rw [envoyToken, suite.lstrip, if_neg suite.filled]
  refine (@reports_map _ _ id _ fun _ => rfl).trans ?_
  rw [Option.map_id, id]

theorem f5Token_critical :
    Reports (f5Token tables place.path place.now place.entity place.listing suite.text) ↔
      lookupName weakCipherLiterals (tables.upper suite.text) ≠ none ∨
        tables.classify suite.text = some .sangatTinggi := by
  rw [f5Token, suite.bareToken, if_neg (by simp [suite.filled, suite.noAlias])]
  cases lookupName weakCipherLiterals (tables.upper suite.text) with
  | some literal => exact iff_of_true (reports_singleton rfl) (Or.inl (by simp))
  | none =>
      rw [or_iff_right (by simp)]
      refine (@reports_map _ _ id _ fun _ => rfl).trans ?_
      rw [Option.map_id, id]

theorem brokenPart_cons {part : List Char} {rest : List (List Char)} :
    BrokenPart tables (part :: rest) ↔
      (part ≠ [] ∧ tables.classify part = some .sangatTinggi) ∨
        (part = [] ∨ tables.classify part ≠ none) ∧ BrokenPart tables rest := by
  constructor
  · rintro ⟨front, broken, back, equal, before, grave⟩
    cases front with
    | nil =>
        rw [List.nil_append, List.cons.injEq] at equal
        rw [equal.1]
        exact Or.inl grave
    | cons first front =>
        rw [List.cons_append, List.cons.injEq] at equal
        rw [List.forall_mem_cons] at before
        rw [equal.1]
        exact Or.inr ⟨before.1, front, broken, back, equal.2, before.2, grave⟩
  · rintro (grave | ⟨passed, front, broken, back, rfl, before, grave⟩)
    · exact ⟨[], part, rest, rfl, nofun, grave⟩
    · exact ⟨part :: front, broken, back, rfl,
        List.forall_mem_cons.mpr ⟨passed, before⟩, grave⟩

theorem not_brokenPart_nil : ¬ BrokenPart tables [] := by
  rintro ⟨front, part, back, equal, -⟩
  cases front <;> cases equal

theorem caddyPart_iff (parts : List (List Char)) :
    (∃ part, caddyPart tables parts = some (some part)) ↔ BrokenPart tables parts := by
  induction parts with
  | nil => exact iff_of_false (by simp [caddyPart]) not_brokenPart_nil
  | cons part rest inductionHypothesis =>
      rw [caddyPart, brokenPart_cons, ← inductionHypothesis]
      by_cases empty : part = []
      · simp [empty]
      · rw [if_neg empty]
        cases tier : tables.classify part with
        | none => simp [empty]
        | some cls =>
            by_cases grave : cls = .sangatTinggi
            · simp [empty, grave]
            · simp [empty, grave]

theorem caddyToken_critical :
    Reports (caddyToken tables place.path place.now place.directive place.listing
      suite.text) ↔
      tables.classify suite.text = some .sangatTinggi ∨
        ∃ cls, tables.classify suite.text = some cls ∧ cls ≠ .tinggi ∧
          BrokenPart tables (caddyParts suite.text) := by
  have verdict : Reports
      (caddyToken tables place.path place.now place.directive place.listing suite.text) ↔
        (caddyVerdict tables suite.text).map Prod.snd = some .sangatTinggi :=
    reports_map fun _ => rfl
  rw [verdict, caddyVerdict, ← caddyPart_iff]
  cases tier : tables.classify suite.text with
  | none => simp
  | some cls =>
      by_cases grave : cls = .sangatTinggi
      · simp [grave]
      · by_cases high : cls = .tinggi
        · simp [high]
        · cases found : caddyPart tables (caddyParts suite.text) with
          | none => simp [grave, high]
          | some part => cases part <;> simp [grave, high]

theorem worstTier_iff (worst : Option Classification) (parts : List (List Char))
    (fine : worst ≠ some .sangatTinggi) :
    worstTier tables worst parts = some (some .sangatTinggi) ↔
    BrokenPart tables parts := by
  induction parts generalizing worst with
  | nil => exact iff_of_false (by simp [worstTier, fine]) not_brokenPart_nil
  | cons part rest inductionHypothesis =>
      rw [worstTier, brokenPart_cons]
      by_cases empty : part = []
      · simp [empty, inductionHypothesis worst fine]
      · rw [if_neg empty]
        cases tier : tables.classify part with
        | none => simp [empty]
        | some cls =>
            by_cases grave : cls = .sangatTinggi
            · simp [empty, grave]
            · by_cases high : cls = .tinggi
              · simp [empty, high, inductionHypothesis (some .tinggi) (by decide)]
              · simp [empty, grave, high, inductionHypothesis worst fine]

theorem netscalerToken_critical :
    Reports (netscalerToken tables place.path place.now place.kind place.entity
      suite.text) ↔
      BrokenWithin tables suite.text := by
  have verdict : netscalerVerdict tables suite.text = some (some .sangatTinggi) ↔
      BrokenWithin tables suite.text := by
    rw [netscalerVerdict, BrokenWithin, ← worstTier_iff none _ (by decide)]
    cases brokenFragments.any (contains (tables.upper suite.text)) <;> simp
  rw [← verdict, netscalerToken]
  cases netscalerVerdict tables suite.text with
  | none => simp [Reports]
  | some outcome =>
      cases outcome with
      | none => simp [Reports]
      | some cls =>
          rw [Option.some_inj, Option.some_inj]
          exact reports_ite rfl

/-- What `classify_cipher_token` finds broken. -/
theorem suiteTier_iff (lowers : tables.LowersAscii) :
    suiteTier tables suite.text = some .sangatTinggi ↔
      tables.classify suite.text = some .sangatTinggi ∨
        tables.classify suite.text = some .info ∧
          weakSubstr.any (fun entry => contains (tables.upper suite.text) entry.1) =
            true := by
  have same : tables.classify (tables.normalise suite.text) =
      tables.classify suite.text := by
    rw [CaseTables.classify, CaseTables.canonical_normalise lowers suite.ascii,
      CaseTables.classify]
  rw [suiteTier, same, Option.map_eq_some_iff]
  cases tables.classify suite.text with
  | none => simp
  | some cls =>
      by_cases unknown : cls = .info
      · cases found : weakSubstr.find? fun entry =>
          contains (tables.upper suite.text) entry.1 with
        | some entry =>
            have member := List.mem_of_find?_eq_some found
            have within := List.find?_some found
            refine iff_of_true ⟨cls, rfl, ?_⟩ (Or.inr ⟨by rw [unknown], ?_⟩)
            · rw [if_neg (by simp [unknown])]
              exact weakSubstr_tier entry member
            · exact List.any_eq_true.mpr ⟨entry, member, within⟩
        | none =>
            rw [List.find?_eq_none] at found
            have absent : weakSubstr.any
                (fun entry => contains (tables.upper suite.text) entry.1) = false :=
              List.any_eq_false.mpr found
            simp [unknown, absent]
      · simp [unknown]

/-! ## When they agree -/

/-- The probes judge a suite as one exactly when both the classifier of whole names and
the tables of parts call it broken, or neither these nor any other table does. -/
theorem oneVerdict_iff (lowers : tables.LowersAscii) :
    OneVerdict tables suite.text ↔
      (tables.classify suite.text = some .sangatTinggi ∧ BrokenWithin tables suite.text) ∨
        NothingBroken tables suite.text := by
  have nginx : ∀ place, Critical tables place suite.text .nginx ↔
      tables.classify suite.text = some .sangatTinggi :=
    fun _ => cipherToken_critical suite nginxCiphers
  have netscaler : ∀ place, Critical tables place suite.text .netscaler ↔
      BrokenWithin tables suite.text :=
    fun _ => netscalerToken_critical suite
  have f5 : ∀ place, Critical tables place suite.text .f5 ↔
      lookupName weakCipherLiterals (tables.upper suite.text) ≠ none ∨
        tables.classify suite.text = some .sangatTinggi :=
    fun _ => f5Token_critical suite
  have caddy : ∀ place, Critical tables place suite.text .caddy ↔
      tables.classify suite.text = some .sangatTinggi ∨
        ∃ cls, tables.classify suite.text = some cls ∧ cls ≠ .tinggi ∧
          BrokenPart tables (caddyParts suite.text) :=
    fun _ => caddyToken_critical suite
  have whole : ∀ place directive, tables.classify suite.text = some .sangatTinggi →
      BrokenWithin tables suite.text → Critical tables place suite.text directive := by
    intro place directive grave within
    cases directive with
    | nginx => exact (nginx place).mpr grave
    | haproxyCiphers => exact (cipherToken_critical suite haproxyCiphers).mpr grave
    | haproxyCiphersuites =>
        exact (cipherToken_critical suite haproxyCiphersuites).mpr grave
    | envoy => exact (envoyToken_critical suite).mpr grave
    | f5 => exact (f5 place).mpr (Or.inr grave)
    | caddy => exact (caddy place).mpr (Or.inl grave)
    | netscaler => exact (netscaler place).mpr within
  constructor
  · rintro ⟨alike, shared⟩
    let place : Place := ⟨"", 0, [], "", "", ""⟩
    by_cases grave : tables.classify suite.text = some .sangatTinggi
    · refine Or.inl ⟨grave, ?_⟩
      exact (netscaler place).mp
        (alike place place .nginx .netscaler ((nginx place).mpr grave))
    · have silent : ∀ directive, ¬ Critical tables place suite.text directive :=
        fun directive critical =>
          grave ((nginx place).mp (alike place place _ .nginx critical))
      have literal := silent .f5
      have parts := silent .caddy
      rw [f5, not_or, not_not] at literal
      rw [caddy, not_or] at parts
      refine Or.inr ⟨grave, literal.1, ?_, ?_, ?_⟩
      · exact fun within => silent .netscaler ((netscaler place).mpr within)
      · exact fun cls tier other broken => parts.2 ⟨cls, tier, other, broken⟩
      · intro unknown
        rw [Bool.eq_false_iff]
        intro needle
        have tier := (suiteTier_iff suite lowers).mpr (Or.inr ⟨unknown, needle⟩)
        exact silent .nginx (shared tier place .nginx)
  · rintro (⟨grave, within⟩ | nothing)
    · exact ⟨fun _ elsewhere _ other _ => whole elsewhere other grave within,
        fun _ place directive => whole place directive grave within⟩
    · have silent : ∀ place directive, ¬ Critical tables place suite.text directive := by
        intro place directive critical
        cases directive with
        | nginx => exact nothing.name ((nginx place).mp critical)
        | haproxyCiphers =>
            exact nothing.name ((cipherToken_critical suite haproxyCiphers).mp critical)
        | haproxyCiphersuites =>
            exact nothing.name
              ((cipherToken_critical suite haproxyCiphersuites).mp critical)
        | envoy => exact nothing.name ((envoyToken_critical suite).mp critical)
        | f5 =>
            rcases (f5 place).mp critical with literal | grave
            · exact literal nothing.literal
            · exact nothing.name grave
        | caddy =>
            rcases (caddy place).mp critical with grave | ⟨cls, tier, other, broken⟩
            · exact nothing.name grave
            · exact nothing.parts cls tier other broken
        | netscaler => exact nothing.within ((netscaler place).mp critical)
      refine ⟨fun place _ directive _ critical =>
        absurd critical (silent place directive), ?_⟩
      intro tier place directive
      rcases (suiteTier_iff suite lowers).mp tier with grave | ⟨unknown, needle⟩
      · exact absurd grave nothing.name
      · rw [nothing.needles unknown] at needle
        cases needle

end Verdicts

/-- The suite that only some probes report. -/
def rc4Suite : SuiteName plainTables where
  text := "TLS_RSA_WITH_RC4_128_SHA".toList
  chars := by decide +kernel
  bare := by decide +kernel
  filled := by decide +kernel
  noKeyword := by decide +kernel
  noAlias := by decide +kernel

/-- A suite on which the probes agree. -/
def md5Suite : SuiteName plainTables where
  text := "RSA-MD5".toList
  chars := by decide +kernel
  bare := by decide +kernel
  filled := by decide +kernel
  noKeyword := by decide +kernel
  noAlias := by decide +kernel

theorem oneVerdict_md5 : OneVerdict plainTables "RSA-MD5".toList :=
  (oneVerdict_iff md5Suite CaseTables.plainTables_lowersAscii).mpr
    (Or.inl ⟨by decide, Or.inl (by decide)⟩)

/-- The suite is critical for NetScaler and not for nginx. -/
theorem rc4Suite_not_oneVerdict :
    ¬ ∀ suite : SuiteName plainTables, OneVerdict plainTables suite.text := by
  intro always
  have shared := (always rc4Suite).shared (by decide +kernel) ⟨"", 0, [], "",
    "", ""⟩ .nginx
  rw [Critical, judge, cipherToken_critical rc4Suite] at shared
  exact absurd shared (by decide +kernel)

end Probes
end PqcScan
