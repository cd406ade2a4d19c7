import PqcScan.Probes.SshTokens

/-!
# Cipher suites

The classification of cipher-suite names that the TLS probes share, from
`probes/_severity.py`, on names of the US-ASCII alphabet.
-/

namespace PqcScan
namespace Probes

open Library Python PqcScan.Core

/-- `sev_for`. -/
def sevFor : Classification → Severity
  | .sangatTinggi => .crit
  | .tinggi => .high
  | .sederhana => .med
  | .rendah => .low
  | .pqcReady => .info
  | .info => .info
  | .error => .info

/-- `_WEAK_SUBSTR`. -/
def weakSubstr : List (String × Classification) :=
  [("RC4", .sangatTinggi), ("RC2", .sangatTinggi), ("3DES", .sangatTinggi),
    ("DES_CBC", .sangatTinggi), ("_DES_", .sangatTinggi), ("EXPORT", .sangatTinggi),
    ("EXP_", .sangatTinggi), ("NULL", .sangatTinggi), ("ANON", .sangatTinggi),
    ("MD5", .sangatTinggi)]

/-- `classify_cipher_token`. -/
def classifyCipherToken (token : List Char) : Classification :=
  let direct := classify (normalise token)
  if direct ≠ .info then direct
  else
    match weakSubstr.find? fun entry => contains (upper token) entry.1 with
    | some entry => entry.2
    | none => .info

/-- `classify_suite`. -/
def classifySuite (name : List Char) : Classification :=
  let up := upper name
  let base := classifyCipherToken name
  if base = .sangatTinggi then base
  else if endsWith up "_CBC_SHA" then .sangatTinggi
  else if contains up "_RSA_WITH" && !contains up "DHE" then .tinggi
  else if contains up "ECDHE" || contains up "ECDH_" || contains up "DHE_" then .tinggi
  else base

/-- A weak primitive of the table stands in the name. -/
def NamesWeak (name : List Char) : Prop :=
  weakSubstr.any (fun entry => contains (upper name) entry.1) = true

instance (name : List Char) : Decidable (NamesWeak name) :=
  inferInstanceAs (Decidable (_ = _))

/-! ## The gravest tier -/

/-- A modulus that is too short, or no modulus and the test that follows. -/
def shortOr (size : Option Nat) (other : Bool) : Bool :=
  match size with
  | some bits => decide (bits < 3072)
  | none => other

/-- The rules of `classify` that give the gravest tier, each where no
rule before it applies. -/
def gravest (name : List Char) : Bool :=
  !pqcReady name && (oneOf name broken || oneOf name ["DSA"] ||
    shortOr (sizeAfter ["RSA"] name)
      (!(["RSA-", "RSA"].any (startsWith name) || oneOf name ["RSA"]) &&
        shortOr (sizeAfter ["DH", "DHE", "FFDHE"] name) (sizeAfter ["DSA"] name).isSome))

theorem modulusOr_eq_sangatTinggi {size : Option Nat} {other : Classification}
    {test : Bool}
    (same : other = .sangatTinggi ↔ test = true) :
    modulusOr size other = .sangatTinggi ↔ shortOr size test = true := by
  cases size with
  | none => exact same
  | some bits =>
      rw [modulusOr, shortOr, modulusTier, decide_eq_true_eq]
      split
      · next short => exact iff_of_true rfl short
      · next long => exact iff_of_false (by decide) long

theorem classifySymmetric_ne_sangatTinggi (name : List Char) :
    classifySymmetric name ≠ .sangatTinggi := by
  unfold classifySymmetric
  split_ifs <;> decide

/-- The gravest tier is that of the rules for it. -/
theorem classifyName_eq_sangatTinggi {name : List Char} :
    classifyName name = .sangatTinggi ↔ gravest name = true := by
  have later : (if ["ECDSA", "ECDH", "ED25519", "ED448", "SM2"].any (startsWith name) ||
      oneOf name ["ECDSA", "EDDSA"] || namesCurve name then .tinggi
      else classifySymmetric name) ≠ Classification.sangatTinggi := by
    split
    · decide
    · exact classifySymmetric_ne_sangatTinggi name
  rw [classifyName, gravest, ite_eq_tier (by decide), Bool.and_eq_true, Bool.not_eq_true']
  refine and_congr_right fun _ => ?_
  cases oneOf name broken || oneOf name ["DSA"] with
  | true => simp
  | false =>
      rw [if_neg Bool.false_ne_true, Bool.false_or]
      apply modulusOr_eq_sangatTinggi
      rw [ite_eq_tier (by decide), Bool.and_eq_true, Bool.not_eq_true']
      refine and_congr_right fun _ => ?_
      apply modulusOr_eq_sangatTinggi
      cases (sizeAfter ["DSA"] name).isSome with
      | true => simp
      | false => simpa using later

/-! ## Weak suites -/

/-- Every entry of the table is of the gravest tier. -/
theorem weakSubstr_tier : ∀ entry ∈ weakSubstr, entry.2 = .sangatTinggi := by
  decide

/-- A token is of the gravest tier by the rules of `classify`, or by the table. -/
theorem classifyCipherToken_eq_sangatTinggi {token : List Char} :
    classifyCipherToken token = .sangatTinggi ↔
      gravest (examinedName token) = true ∨
        recognised (examinedName token) = false ∧ NamesWeak token := by
  have direct : classify (normalise token) = classifyName (examinedName token) := rfl
  rw [classifyCipherToken, direct, ← classifyName_eq_sangatTinggi, ← classifyName_eq_info]
  by_cases unknown : classifyName (examinedName token) = .info
  · rw [if_neg (not_not.mpr unknown), unknown, NamesWeak, List.any_eq_true]
    cases found : weakSubstr.find? fun entry => contains (upper token) entry.1 with
    | some entry =>
        have member := List.mem_of_find?_eq_some found
        have within := List.find?_some found
        exact iff_of_true (weakSubstr_tier entry member)
          (Or.inr ⟨rfl, entry, member, within⟩)
    | none =>
        rw [List.find?_eq_none] at found
        refine iff_of_false (by decide) ?_
        rintro (impossible | ⟨-, entry, member, within⟩)
        · cases impossible
        · exact found entry member within
  · rw [if_pos unknown]
    constructor
    · exact Or.inl
    · rintro (high | ⟨info, -⟩)
      · exact high
      · exact absurd info unknown

/-- A suite that names a weak primitive is graded so by the token's rules exactly
when no rule of `classify` takes another part of it, and by the suite's rules also as
a CBC suite with SHA-1. -/
theorem weak_suite_iff {name : List Char} (weak : NamesWeak name) :
    (classifyCipherToken name = .sangatTinggi ↔
      gravest (examinedName name) = true ∨ recognised (examinedName name) = false) ∧
    (classifySuite name = .sangatTinggi ↔
      (gravest (examinedName name) = true ∨ recognised (examinedName name) = false) ∨
        endsWith (upper name) "_CBC_SHA" = true) ∧
    (classifySuite name = .sangatTinggi ∧ classifyCipherToken name = .sangatTinggi ↔
      gravest (examinedName name) = true ∨ recognised (examinedName name) = false) := by
  have token : classifyCipherToken name = .sangatTinggi ↔
      gravest (examinedName name) = true ∨ recognised (examinedName name) = false := by
    rw [classifyCipherToken_eq_sangatTinggi, and_iff_left weak]
  have suite : classifySuite name = .sangatTinggi ↔
      classifyCipherToken name = .sangatTinggi ∨
      endsWith (upper name) "_CBC_SHA" = true := by
    unfold classifySuite
    dsimp only
    by_cases base : classifyCipherToken name = .sangatTinggi
    · rw [if_pos base]
      exact ⟨Or.inl, fun _ => base⟩
    · rw [if_neg base]
      by_cases cbc : endsWith (upper name) "_CBC_SHA" = true
      · rw [if_pos cbc]
        exact iff_of_true rfl (Or.inr cbc)
      · rw [if_neg cbc]
        refine iff_of_false ?_ (not_or.mpr ⟨base, cbc⟩)
        split_ifs
        · decide
        · decide
        · exact base
  refine ⟨token, by rw [suite, token], ?_⟩
  rw [suite, token]
  constructor
  · exact And.right
  · exact fun both => ⟨Or.inl both, both⟩

theorem weak_suite_rc4 :
    classifySuite "TLS_RSA_WITH_RC4_128_SHA".toList = .sangatTinggi :=
  ((@weak_suite_iff "TLS_RSA_WITH_RC4_128_SHA".toList (by decide)).2.2.mpr
    (Or.inr (by decide))).1

/-- The key exchange of a suite hides its cipher. -/
theorem weak_suite_pre_empted :
    ¬ ∀ name : List Char, NamesWeak name →
      classifySuite name = .sangatTinggi ∧ classifyCipherToken name = .sangatTinggi := by
  intro always
  have both := always "ECDHE-RSA-RC4-SHA".toList (by decide +kernel)
  exact absurd both.1 (by decide +kernel)

end Probes
end PqcScan
