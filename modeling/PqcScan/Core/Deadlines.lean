import PqcScan.Core.Names

/-!
# Tier, exposure and deadline of a name

`suggest` of `core/remediation.py`, and when the threat tier, the
harvest-now-decrypt-later flag and the migration deadline of a name agree.
-/

namespace PqcScan
namespace Core

open Library Python

namespace CaseTables

variable (tables : CaseTables)

/-! ## Descriptors -/

/-- `_KEM_TARGET`. -/
def kemTarget : List (String × Json) :=
  [("replacement", .str "ML-KEM-768"), ("hybrid", .str "X25519MLKEM768"),
    ("standard", .str "FIPS 203"), ("kind", .str "key-establishment")]

/-- `_SIG_TARGET`. -/
def sigTarget : List (String × Json) :=
  [("replacement", .str "ML-DSA-65"),
    ("alternative", .str "SLH-DSA-SHA2-192s (FIPS 205, hash-based, for firmware/roots)"),
    ("standard", .str "FIPS 204"), ("kind", .str "signature")]

/-- The descriptor of AES-128. -/
def symmetricTarget : List (String × Json) :=
  [("replacement", .str "AES-256"), ("standard", .str "FIPS 197"),
    ("kind", .str "symmetric"),
    ("note", .str "Grover halves the effective key length; use a 256-bit key.")]

/-- The descriptor of a broken hash. -/
def hashTarget : List (String × Json) :=
  [("replacement", .str "SHA-256"), ("standard", .str "FIPS 180-4"),
    ("kind", .str "hash"),
    ("note", .str "Legacy hash is collision-broken; migrate before PQC work.")]

/-- `_target_for`. -/
def targetFor (alg : List Char) : Option (List (String × Json)) :=
  let name := tables.canonical alg
  if tables.isKeyEstablishment alg then some kemTarget
  else if ["RSA", "ECDSA", "ED25519", "ED448", "DSA", "SM2"].any (startsWith name) then
    some sigTarget
  else if startsWith name "AES-128" || oneOf name ["AES-128"] then some symmetricTarget
  else if oneOf name ["MD5", "MD4", "MD2", "SHA-1", "SHA1"] then some hashTarget
  else none

/-- The rationale of an exposed name. -/
def hndlRationale : String :=
  "Harvest-now-decrypt-later: traffic captured today is decryptable once a " ++
    "cryptographically-relevant quantum computer exists. Migrate key establishment first."

/-- `suggest` with the classification of the name. -/
def suggest (alg : List Char) (cls : Classification) : Option (Dict String Json) :=
  match tables.targetFor alg with
  | none => none
  | some target =>
      let out := Dict.ofList
        (("current", Json.str (String.ofList (tables.normalise alg))) :: target)
      let out := match tables.deadlineFor alg cls with
        | some deadline => out.set "deadline" (.str deadline)
        | none => out
      some (if tables.hndlExposed alg then
        (out.set "hndl" (.bool true)).set "rationale" (.str hndlRationale)
      else out)

/-! ## Heads of upper-case names -/

/-- Text that upper case leaves as it is. -/
def Settled (text : List Char) : Prop :=
  ∀ char ∈ text, tables.upperChar char = [char] ∧ char ≠ 'ſ' ∧ char ≠ 'ı'

theorem canonical_settled (alg : List Char) : tables.Settled (tables.canonical alg) :=
  fun _ member => tables.mem_upper_settled member

/-- An upper-case literal of which no letter is that of another character. -/
def Plain (literals : List Char) : Prop :=
  ∀ literal ∈ literals, literal.toNat < 128 ∧ literal.toUpper = literal ∧
    literal.toLower ≠ 'i' ∧ literal.toLower ≠ 'k'

instance (literals : List Char) : Decidable (Plain literals) :=
  inferInstanceAs (Decidable (∀ _ ∈ _, _))

variable {tables}

/-- In upper-case text the case of a literal does not matter. -/
theorem sameLetter_settled {literal char : Char} (plain : Plain [literal])
    (settled : tables.upperChar char = [char] ∧ char ≠ 'ſ' ∧ char ≠ 'ı') :
    sameLetter literal char = (literal == char) := by
  obtain ⟨ascii, upper, notI, notK⟩ := plain literal List.mem_cons_self
  obtain ⟨kept, notLong, -⟩ := settled
  have short : sameLetter literal char = (char.toLower == literal.toLower) := by
    rw [sameLetter, beq_false_of_ne notI, beq_false_of_ne notK, beq_false_of_ne notLong]
    simp
  rw [short, Bool.eq_iff_iff, beq_iff_eq, beq_iff_eq]
  constructor
  · intro lowered
    have small : char.toNat < 128 := by
      apply ascii_of_toLower
      rw [lowered]
      exact toLower_ascii literal ascii
    rw [tables.upperChar_ascii char small] at kept
    injection kept with same
    rw [← same, ← toUpper_toLower, lowered, toUpper_toLower, upper]
  · intro same
    rw [same]

theorem matchesHead_settled {head : String} {text : List Char} (plain : Plain head.toList)
    (settled : tables.Settled text) :
    matchesHead head.toList text = startsWith text head := by
  unfold startsWith
  generalize head.toList = literals at plain
  induction literals generalizing text with
  | nil => rfl
  | cons literal literals inductionHypothesis =>
      cases text with
      | nil => rfl
      | cons char text =>
          have first : Plain [literal] := by
            intro other member
            rw [List.mem_singleton.mp member]
            exact plain literal List.mem_cons_self
          rw [matchesHead, List.isPrefixOf_cons_cons,
            sameLetter_settled first (settled char List.mem_cons_self),
            inductionHypothesis
              (fun other member => settled other (List.mem_cons_of_mem _ member))
              (fun other member => plain other (List.mem_cons_of_mem _ member))]

/-- No size follows a head that is not there. -/
theorem sizeAfter_eq_none {heads : List String} {name : List Char}
    (settled : tables.Settled name) (plain : ∀ head ∈ heads, Plain head.toList)
    (absent : ∀ head ∈ heads, startsWith name head = false) :
    tables.sizeAfter heads name = none := by
  rw [sizeAfter, List.findSome?_eq_none_iff]
  intro head member
  rw [matchesHead_settled (plain head member) settled, absent head member]
  rfl

/-- No size is read of text that has another US-ASCII character. -/
theorem trailingDigits_eq_none {text : List Char} {letter : Char} (member : letter ∈ text)
    (ascii : letter.toNat < 128) (notDigit : letter.isDigit = false)
    (notBreak : letter ≠ '\n') :
    tables.trailingDigits text = none := by
  have kept : letter ∈ if text.getLast? = some '\n' then text.dropLast else text := by
    split
    · next ends =>
      have whole := List.dropLast_append_getLast? '\n' ends
      rw [← whole, List.mem_append, List.mem_singleton] at member
      exact member.resolve_right notBreak
    · exact member
  rw [trailingDigits, if_neg]
  rintro ⟨-, digits⟩
  have digit := List.all_eq_true.mp digits letter kept
  rw [isDigit, tables.digit_ascii letter ascii, notDigit] at digit
  cases digit

/-! ## Tiers of the exposed names -/

/-- The two gravest tiers. -/
def Grave (tier : Option Classification) : Prop :=
  tier = some .sangatTinggi ∨ tier = some .tinggi

theorem grave_modulusOr {size : Option (List Char)} {other : Option Classification} :
    Grave (tables.modulusOr size other) ↔
      match size with
      | some digits => tables.readable digits.length = true
      | none => Grave other := by
  cases size with
  | none => rfl
  | some digits =>
      rw [modulusOr, intOf]
      split
      · next readable =>
        refine iff_of_true ?_ readable
        rcases modulusTier_cases
          (digits.foldl (fun value char =>
            value * 10 + (tables.digit char).getD 0) 0) with
          high | high
        · exact Or.inl (congrArg some high)
        · exact Or.inr (congrArg some high)
      · next unreadable =>
        refine iff_of_false ?_ unreadable
        rintro (high | high)
        · cases high
        · cases high

/-- A broken name that begins as RSA has no size. -/
theorem broken_rsa {name : List Char} (starts : startsWith name "RSA" = true)
    (listed : oneOf name broken = true) : tables.sizeAfter ["RSA"] name = none := by
  obtain ⟨entry, member, same⟩ := List.any_eq_true.mp listed
  rw [beq_iff_eq] at same
  have lettered : ∀ entry ∈ broken, startsWith entry.toList "RSA" = true →
      ∃ letter ∈ (entry.toList.drop 3).tail, letter.toNat < 128 ∧ letter.isDigit = false ∧
        letter ≠ '\n' ∧ (entry.toList.drop 3).head? = some '-' := by
    decide +kernel
  obtain ⟨letter, inside, ascii, notDigit, notBreak, dash⟩ :=
    lettered entry member (by rw [same, starts])
  rw [sizeAfter, List.findSome?_eq_none_iff]
  intro head among
  rw [List.mem_singleton.mp among]
  split
  · rw [← same]
    change tables.trailingDigits (if (entry.toList.drop 3).head? =
      some '-' then _ else _) = none
    rw [if_pos dash]
    exact trailingDigits_eq_none inside ascii notDigit notBreak
  · rfl

theorem classifyName_rsa {name : List Char} (ready : pqcReady name = false)
    (starts : startsWith name "RSA" = true) :
    tables.classifyName name =
      if oneOf name broken then some .sangatTinggi
      else tables.modulusOr (tables.sizeAfter ["RSA"] name) (some .tinggi) := by
  have notDsa : oneOf name ["DSA"] = false := by
    apply oneOf_eq_false
    intro head member
    rw [List.mem_singleton.mp member]
    exact not_startsWith starts (by decide)
  have begins : (["RSA-", "RSA"].any (startsWith name) || oneOf name ["RSA"]) = true := by
    rw [List.any_cons, List.any_cons, starts]
    simp
  rw [classifyName, ready, notDsa, begins, Bool.or_false, if_pos rfl]
  rfl

/-- The heads of the other key-establishment names. -/
def finiteHeads : List String := ["DH", "FFDHE", "X25519", "X448"]

/-- No other rule reads a name that begins as one of these. -/
theorem classifyName_finite {name : List Char} {head : String}
    (settled : tables.Settled name)
    (ready : pqcReady name = false) (listed : head ∈ finiteHeads)
    (starts : startsWith name head = true) :
    tables.classifyName name =
      tables.modulusOr (tables.sizeAfter ["DH", "DHE", "FFDHE"] name)
        (if tables.namesCurve name then some .tinggi else some .info) := by
  have away : ∀ others : List String,
      (∀ head ∈ finiteHeads, ∀ other ∈ others, Apart head other) →
        ∀ other ∈ others, startsWith name other = false :=
    fun others apart other member =>
      not_startsWith starts (apart head listed other member)
  have notBroken := oneOf_eq_false (away broken (by decide +kernel))
  have notDsa := away ["DSA"] (by decide)
  have notRsa := away ["RSA-", "RSA"] (by decide)
  have later := away laterHeads (by decide +kernel)
  have rsaSize := sizeAfter_eq_none settled (by decide) (away ["RSA"] (by decide))
  have dsaSize := sizeAfter_eq_none settled (by decide) notDsa
  have rsaHeads : ["RSA-", "RSA"].any (startsWith name) = false := by
    rw [List.any_eq_false]
    intro head member
    rw [notRsa head member]
    exact Bool.false_ne_true
  rw [classifyName, ready, notBroken, oneOf_eq_false notDsa, rsaSize, rsaHeads,
    oneOf_eq_false (away ["RSA"] (by decide)), dsaSize, curveHeads_of_apart later,
    classifySymmetric_of_apart later, Bool.false_or]
  rfl

theorem classifyName_ecdh {name : List Char} (settled : tables.Settled name)
    (ready : pqcReady name = false) (starts : startsWith name "ECDH" = true) :
    tables.classifyName name = some .tinggi := by
  have away : ∀ others : List String, (∀ other ∈ others, Apart "ECDH" other) →
      ∀ other ∈ others, startsWith name other = false :=
    fun others apart other member => not_startsWith starts (apart other member)
  have notBroken := oneOf_eq_false (away broken (by decide))
  have notDsa := away ["DSA"] (by decide)
  have rsaHeads : ["RSA-", "RSA"].any (startsWith name) = false := by
    rw [List.any_eq_false]
    intro head member
    rw [away ["RSA-", "RSA"] (by decide) head member]
    exact Bool.false_ne_true
  have curve : ["ECDSA", "ECDH", "ED25519", "ED448", "SM2"].any (startsWith name) =
      true :=
    List.any_eq_true.mpr ⟨"ECDH", by decide, starts⟩
  rw [classifyName, ready, notBroken, oneOf_eq_false notDsa,
    sizeAfter_eq_none settled (by decide) (away ["RSA"] (by decide)), rsaHeads,
    oneOf_eq_false (away ["RSA"] (by decide)),
    sizeAfter_eq_none settled (by decide) (away ["DH", "DHE", "FFDHE"] (by decide)),
    sizeAfter_eq_none settled (by decide) notDsa, curve]
  rfl

/-! ## Exposure and tier -/

variable (tables)

/-- A size after RSA can be read; another exposed name has a size that can be read, or a
curve where it has no size. -/
def Graded (name : List Char) : Prop :=
  (startsWith name "RSA" = true →
    ∀ digits, tables.sizeAfter ["RSA"] name = some digits →
      tables.readable digits.length = true) ∧
  (finiteHeads.any (startsWith name) = true →
    match tables.sizeAfter ["DH", "DHE", "FFDHE"] name with
    | some digits => tables.readable digits.length = true
    | none => tables.namesCurve name = true)

variable {tables}

/-- The exposed names begin as RSA, as ECDH or as one of the others. -/
theorem hndlExposed_iff {alg : List Char} :
    tables.hndlExposed alg = true ↔
      pqcReady (tables.canonical alg) = false ∧
        (startsWith (tables.canonical alg) "RSA" = true ∨
          startsWith (tables.canonical alg) "ECDH" = true ∨
          finiteHeads.any (startsWith (tables.canonical alg)) = true) := by
  rw [hndlExposed, isKeyEstablishment]
  cases ready : pqcReady (tables.canonical alg) with
  | true => simp
  | false =>
      have plain : ∀ head ∈ keyEstablishmentHeads, Plain head.toList := by decide
      have same : keyEstablishmentHeads.any
          (fun head => matchesHead head.toList (tables.canonical alg)) =
            keyEstablishmentHeads.any (startsWith (tables.canonical alg)) := by
        rw [Bool.eq_iff_iff, List.any_eq_true, List.any_eq_true]
        refine exists_congr fun head => and_congr_right fun member => ?_
        rw [matchesHead_settled (plain head member) (tables.canonical_settled alg)]
      have shorter : ∀ {head other : String}, head.toList <+: other.toList →
          startsWith (tables.canonical alg) other = true →
            startsWith (tables.canonical alg) head = true := by
        intro head other short starts
        rw [startsWith_iff] at starts ⊢
        exact short.trans starts
      rw [if_neg (by decide), same]
      simp only [keyEstablishmentHeads, finiteHeads, List.any_cons, List.any_nil,
        Bool.or_false, Bool.or_eq_true, true_and]
      constructor
      · rintro (rsa | dh | dhe | ffdhe | ecdh | ecdhe | x25519 | x448)
        · exact Or.inl rsa
        · exact Or.inr (Or.inr (Or.inl dh))
        · exact Or.inr (Or.inr (Or.inl (@shorter "DH" "DHE" (by decide) dhe)))
        · exact Or.inr (Or.inr (Or.inr (Or.inl ffdhe)))
        · exact Or.inr (Or.inl ecdh)
        · exact Or.inr (Or.inl (@shorter "ECDH" "ECDHE" (by decide) ecdhe))
        · exact Or.inr (Or.inr (Or.inr (Or.inr (Or.inl x25519))))
        · exact Or.inr (Or.inr (Or.inr (Or.inr (Or.inr x448))))
      · rintro (rsa | ecdh | dh | ffdhe | x25519 | x448)
        · exact Or.inl rsa
        · exact Or.inr (Or.inr (Or.inr (Or.inr (Or.inl ecdh))))
        · exact Or.inr (Or.inl dh)
        · exact Or.inr (Or.inr (Or.inr (Or.inl ffdhe)))
        · exact Or.inr (Or.inr (Or.inr (Or.inr (Or.inr (Or.inr (Or.inl x25519))))))
        · exact Or.inr (Or.inr (Or.inr (Or.inr (Or.inr (Or.inr (Or.inr x448))))))

/-- An exposed name has one of the gravest tiers exactly when it is graded. -/
theorem grave_iff {alg : List Char} (exposed : tables.hndlExposed alg = true) :
    Grave (tables.classify alg) ↔ tables.Graded (tables.canonical alg) := by
  have settled := tables.canonical_settled alg
  obtain ⟨ready, begins⟩ := hndlExposed_iff.mp exposed
  unfold classify
  generalize tables.canonical alg = name at settled ready begins
  rcases begins with rsa | ecdh | other
  · have apart : finiteHeads.any (startsWith name) = false := by
      rw [List.any_eq_false]
      intro head member
      rw [not_startsWith rsa
        ((by decide : ∀ head ∈ finiteHeads, Apart "RSA" head) head member)]
      exact Bool.false_ne_true
    rw [classifyName_rsa ready rsa, Graded, apart]
    simp only [rsa, Bool.false_eq_true, false_implies, and_true, true_implies]
    cases listed : oneOf name broken with
    | true =>
        rw [broken_rsa rsa listed]
        simp [Grave]
    | false =>
        rw [if_neg (by decide), grave_modulusOr]
        cases tables.sizeAfter ["RSA"] name with
        | none => simp [Grave]
        | some digits => simp
  · have apart : finiteHeads.any (startsWith name) = false := by
      rw [List.any_eq_false]
      intro head member
      rw [not_startsWith ecdh
        ((by decide : ∀ head ∈ finiteHeads, Apart "ECDH" head) head member)]
      exact Bool.false_ne_true
    have notRsa : startsWith name "RSA" = false := not_startsWith ecdh (by decide)
    rw [classifyName_ecdh settled ready ecdh, Graded, apart, notRsa]
    simp [Grave]
  · obtain ⟨head, member, starts⟩ := List.any_eq_true.mp other
    have notRsa : startsWith name "RSA" = false :=
      not_startsWith starts
        ((by decide : ∀ head ∈ finiteHeads, Apart head "RSA") head member)
    rw [classifyName_finite settled ready member starts, grave_modulusOr, Graded,
      other, notRsa]
    simp only [Bool.false_eq_true, false_implies, true_and, true_implies]
    cases tables.sizeAfter ["DH", "DHE", "FFDHE"] name with
    | some digits => rfl
    | none =>
        cases tables.namesCurve name with
        | true => simp [Grave]
        | false => simp [Grave]

/-- The deadline of an exposed name of the gravest tiers is the earlier one. -/
theorem deadlineFor_of_grave {alg : List Char} {cls : Classification}
    (exposed : tables.hndlExposed alg = true) (grave : Grave (some cls)) :
    tables.deadlineFor alg cls = some cnsa2HndlDeadline := by
  rw [deadlineFor, if_pos exposed, if_neg]
  rcases grave with high | high
  · injection high with high
    rw [high]
    decide
  · injection high with high
    rw [high]
    decide

/-- The deadline of another name is the later one, or none. -/
theorem deadlineFor_of_not_exposed {alg : List Char} (cls : Classification)
    (safe : tables.hndlExposed alg = false) :
    tables.deadlineFor alg cls = none ∨
      tables.deadlineFor alg cls = some cnsa2FullDeadline := by
  rw [deadlineFor, safe]
  split
  · exact Or.inl rfl
  · exact Or.inr rfl

/-- A target states no deadline and no exposure of its own. -/
theorem targetFor_get? {alg : List Char} {target : List (String × Json)} (current : Json)
    (found : tables.targetFor alg = some target) :
    (Dict.ofList (("current", current) :: target)).get? "deadline" = none ∧
      (Dict.ofList (("current", current) :: target)).get? "hndl" = none := by
  rw [targetFor] at found
  split_ifs at found <;>
  · injection found with found
    rw [← found]
    constructor <;> rfl

/-- What a descriptor says of exposure and deadline. -/
theorem suggest_get? {alg : List Char} {cls : Classification}
    {descriptor : Dict String Json}
    (suggested : tables.suggest alg cls = some descriptor) :
    descriptor.get? "hndl" = (if tables.hndlExposed alg then some (.bool true)
      else none) ∧
      descriptor.get? "deadline" = (tables.deadlineFor alg cls).map .str := by
  rw [suggest] at suggested
  cases found : tables.targetFor alg with
  | none =>
      rw [found] at suggested
      cases suggested
  | some target =>
      rw [found] at suggested
      injection suggested with suggested
      obtain ⟨noDeadline, noHndl⟩ :=
        targetFor_get? (.str (String.ofList (tables.normalise alg))) found
      rw [← suggested]
      cases tables.hndlExposed alg with
      | true =>
          cases tables.deadlineFor alg cls with
          | none => simp [Dict.get?_set, noDeadline]
          | some deadline => simp [Dict.get?_set]
      | false =>
          cases tables.deadlineFor alg cls with
          | none => simp [noDeadline, noHndl]
          | some deadline => simp [Dict.get?_set, noHndl]

variable (tables)

/-- Tier, exposure, deadline and descriptors of a name agree. -/
structure Coherent (alg : List Char) : Prop where
  tier : tables.hndlExposed alg = true → Grave (tables.classify alg)
  deadline : tables.hndlExposed alg = true →
    tables.migrationDeadline alg none = some (some cnsa2HndlDeadline)
  descriptor : ∀ cls, tables.classify alg = some cls →
    ∀ found, tables.suggest alg cls = some found →
      (found.get? "hndl" = some (.bool true) →
        found.get? "deadline" = some (.str cnsa2HndlDeadline)) ∧
      (found.get? "hndl" ≠ some (.bool true) →
        found.get? "deadline" = none ∨
          found.get? "deadline" = some (.str cnsa2FullDeadline))

/-- A name is coherent exactly when it is post-quantum or graded. -/
theorem coherent_iff (alg : List Char) :
    tables.Coherent alg ↔
      (pqcReady (tables.canonical alg) = false →
        tables.Graded (tables.canonical alg)) := by
  have exposed_of_begins : pqcReady (tables.canonical alg) = false →
      (startsWith (tables.canonical alg) "RSA" = true ∨
        finiteHeads.any (startsWith (tables.canonical alg)) = true) →
      tables.hndlExposed alg = true := by
    intro ready begins
    exact hndlExposed_iff.mpr ⟨ready, begins.imp_right Or.inr⟩
  constructor
  · intro coherent ready
    cases exposed : tables.hndlExposed alg with
    | true => exact (grave_iff exposed).mp (coherent.tier exposed)
    | false =>
        constructor
        · intro rsa
          rw [exposed_of_begins ready (Or.inl rsa)] at exposed
          cases exposed
        · intro other
          rw [exposed_of_begins ready (Or.inr other)] at exposed
          cases exposed
  · intro graded
    have grave : tables.hndlExposed alg = true → Grave (tables.classify alg) := by
      intro exposed
      exact (grave_iff exposed).mpr (graded (hndlExposed_iff.mp exposed).1)
    refine ⟨grave, ?_, ?_⟩
    · intro exposed
      cases tier : tables.classify alg with
      | none =>
          have impossible := grave exposed
          rw [tier] at impossible
          rcases impossible with high | high
          · cases high
          · cases high
      | some cls =>
          rw [migrationDeadline, tier, Option.map_some,
            deadlineFor_of_grave exposed (tier ▸ grave exposed)]
    · intro cls tier found suggested
      obtain ⟨hndl, deadline⟩ := suggest_get? suggested
      rw [hndl, deadline]
      cases exposed : tables.hndlExposed alg with
      | true =>
          rw [deadlineFor_of_grave exposed (tier ▸ grave exposed)]
          simp
      | false =>
          rcases deadlineFor_of_not_exposed cls exposed with none | later
          · rw [none]
            simp
          · rw [later]
            simp

/-- A curve that names no three digits is exposed, and is of no grave tier. -/
theorem x25519_incoherent : ¬ plainTables.Coherent "X25519".toList := by
  intro coherent
  have exposed : plainTables.hndlExposed "X25519".toList = true := by decide +kernel
  have unknown : plainTables.classify "X25519".toList = some .info := by decide +kernel
  have grave := coherent.tier exposed
  rw [unknown] at grave
  rcases grave with high | high
  · cases high
  · cases high

end CaseTables

end Core
end PqcScan
