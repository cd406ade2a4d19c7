import PqcScan.Core.Alg

/-!
# Algorithm names in any script

`core/alg.py` on text of the whole Unicode alphabet: `classify`, the key-establishment
test and the migration calendar.  What depends on the Unicode database is a parameter,
`CaseTables`; US-ASCII text is the case of `Core.Alg`.
-/

namespace PqcScan
namespace Core

open Library Python

/-! ## Characters -/

/-- The Kelvin sign, whose lower case is `k`. -/
def kelvin : Char := Char.ofNat 0x212A

/-- A character as it reads in lower-case US-ASCII text. -/
def fold (char : Char) : Char := if char = kelvin then 'k' else char.toLower

/-- What the interpreter knows of the characters. -/
structure CaseTables where
  /-- `str.upper`, which maps each character apart from the others. -/
  upperChar : Char → List Char
  /-- `str.lower`. -/
  lower : List Char → List Char
  /-- The value of a decimal digit, what `\d` matches and `int` reads. -/
  digit : Char → Option Nat
  /-- Whether `int` reads so many digits: the interpreter may limit them. -/
  readable : Nat → Bool
  upperChar_ascii : ∀ char : Char, char.toNat < 128 → upperChar char = [char.toUpper]
  /-- Upper case is not changed again, and has neither a long s nor a dotless i. -/
  upperChar_settled : ∀ char, ∀ upper ∈ upperChar char,
    upperChar upper = [upper] ∧ upper ≠ 'ſ' ∧ upper ≠ 'ı'
  upperChar_space : ∀ char, isSpace char = true → upperChar char = [char]
  digit_ascii : ∀ char : Char, char.toNat < 128 → (digit char).isSome = char.isDigit
  /-- Text with the lower case of a US-ASCII word is spelled in US-ASCII, but for K. -/
  lower_word : ∀ text, (∀ char ∈ strip (lower text), char.toNat < 128) →
    (strip text).map fold = strip (lower text)

theorem ascii_of_toLower (char : Char) : char.toLower.toNat < 128 → char.toNat < 128 := by
  revert char
  apply forall_char
  · decide
  · intro char lower _
    rw [lower]
    exact id

theorem toLower_ascii (char : Char) : char.toNat < 128 → char.toLower.toNat < 128 := by
  revert char
  apply forall_char
  · decide
  · intro char lower _
    rw [lower]
    exact id

/-- What a literal of a pattern matches with `re.IGNORECASE`: its two cases, and the four
other characters that equal an ASCII letter but for their case. -/
def sameLetter (literal char : Char) : Bool :=
  char.toLower == literal.toLower ||
    (literal.toLower == 'i' && (char == 'İ' || char == 'ı')) ||
    (literal.toLower == 's' && char == 'ſ') || (literal.toLower == 'k' && char == kelvin)

/-- A literal at the head of a text, with `re.IGNORECASE`. -/
def matchesHead : List Char → List Char → Bool
  | [], _ => true
  | _ :: _, [] => false
  | literal :: literals, char :: text =>
      sameLetter literal char && matchesHead literals text

namespace CaseTables

variable (tables : CaseTables)

/-- `str.upper`. -/
def upper (text : List Char) : List Char := text.flatMap tables.upperChar

/-- `str.isdecimal` of one character. -/
def isDigit (char : Char) : Bool := (tables.digit char).isSome

/-- `int` of decimal digits, or nothing for a `ValueError`. -/
def intOf (digits : List Char) : Option Nat :=
  if tables.readable digits.length then
    some (digits.foldl (fun value char => value * 10 + (tables.digit char).getD 0) 0)
  else none

/-! ## Names -/

/-- `normalise`. -/
def normalise (name : List Char) : List Char :=
  match lookupOid name with
  | some canonical => canonical
  | none =>
      match lookupName friendlyMap (strip (tables.lower name)) with
      | some canonical => canonical
      | none => tables.upper name

/-- `normalise(alg).upper()`. -/
def canonical (name : List Char) : List Char := tables.upper (tables.normalise name)

/-- The digits of `(\d+)$`, up to the end or up to a last line break. -/
def trailingDigits (text : List Char) : Option (List Char) :=
  let digits := if text.getLast? = some '\n' then text.dropLast else text
  if digits ≠ [] ∧ digits.all tables.isDigit then some digits else none

/-- The group of `^(?:HEADS)-?(\d+)$`. -/
def sizeAfter (heads : List String) (name : List Char) : Option (List Char) :=
  heads.findSome? fun head =>
    if matchesHead head.toList name then
      let rest := name.drop head.toList.length
      tables.trailingDigits (if rest.head? = some '-' then rest.tail else rest)
    else none

/-- `_EC_BITS_RE.search`. -/
def namesCurve (name : List Char) : Bool :=
  name.tails.any fun tail =>
    ["P-", "P", "SECP", "PRIME"].any fun head =>
      matchesHead head.toList tail &&
        spans 3 3 tables.isDigit ((tail.drop head.toList.length).take 3)

/-- The tier of a matched modulus, or of the rules after the match. -/
def modulusOr (size : Option (List Char)) (other : Option Classification) :
    Option Classification :=
  match size with
  | some digits => (tables.intOf digits).map modulusTier
  | none => other

/-- `classify` after normalisation; nothing stands for the `ValueError` of `int`. -/
def classifyName (name : List Char) : Option Classification :=
  if pqcReady name then some .pqcReady
  else if oneOf name broken || oneOf name ["DSA"] then some .sangatTinggi
  else tables.modulusOr (tables.sizeAfter ["RSA"] name) <|
  if ["RSA-", "RSA"].any (startsWith name) || oneOf name ["RSA"] then some .tinggi
  else tables.modulusOr (tables.sizeAfter ["DH", "DHE", "FFDHE"] name) <|
  if (tables.sizeAfter ["DSA"] name).isSome then some .sangatTinggi
  else if ["ECDSA", "ECDH", "ED25519", "ED448", "SM2"].any (startsWith name) ||
      oneOf name ["ECDSA", "EDDSA"] || tables.namesCurve name then some .tinggi
  else some (classifySymmetric name)

/-- `classify`. -/
def classify (alg : List Char) : Option Classification :=
  tables.classifyName (tables.canonical alg)

/-! ## The migration calendar -/

/-- The alternatives of `_KEY_ESTABLISHMENT_RE`. -/
def keyEstablishmentHeads : List String :=
  ["RSA", "DH", "DHE", "FFDHE", "ECDH", "ECDHE", "X25519", "X448"]

/-- `is_key_establishment`. -/
def isKeyEstablishment (alg : List Char) : Bool :=
  let name := tables.canonical alg
  if pqcReady name then false
  else keyEstablishmentHeads.any fun head => matchesHead head.toList name

/-- `hndl_exposed`. -/
def hndlExposed (alg : List Char) : Bool := tables.isKeyEstablishment alg

/-- `CNSA2_HNDL_DEADLINE`. -/
def cnsa2HndlDeadline : String := "2030-01-01"

/-- `CNSA2_FULL_DEADLINE`. -/
def cnsa2FullDeadline : String := "2035-01-01"

/-- `migration_deadline` with the classification that is given or computed. -/
def deadlineFor (alg : List Char) (cls : Classification) : Option String :=
  if cls = .pqcReady ∨ cls = .rendah ∨ cls = .info ∨ cls = .error then none
  else if tables.hndlExposed alg then some cnsa2HndlDeadline
  else some cnsa2FullDeadline

/-- `migration_deadline`; the outer option is that of `classify`. -/
def migrationDeadline (alg : List Char) (classification : Option Classification) :
    Option (Option String) :=
  match classification with
  | some cls => some (tables.deadlineFor alg cls)
  | none => (tables.classify alg).map (tables.deadlineFor alg)

/-! ## Facts about the tables -/

theorem upper_append (left right : List Char) :
    tables.upper (left ++ right) = tables.upper left ++ tables.upper right :=
  List.flatMap_append

theorem upper_ascii {text : List Char} (ascii : ∀ char ∈ text, char.toNat < 128) :
    tables.upper text = Python.upper text := by
  induction text with
  | nil => rfl
  | cons char text inductionHypothesis =>
      have first := tables.upperChar_ascii char (ascii char List.mem_cons_self)
      have rest := inductionHypothesis fun other member =>
        ascii other (List.mem_cons_of_mem _ member)
      change tables.upperChar char ++ tables.upper text = _
      rw [first, rest]
      rfl

theorem upper_settled {text : List Char}
    (settled : ∀ char ∈ text, tables.upperChar char = [char]) :
    tables.upper text = text := by
  induction text with
  | nil => rfl
  | cons char text inductionHypothesis =>
      have rest := inductionHypothesis fun other member =>
        settled other (List.mem_cons_of_mem _ member)
      change tables.upperChar char ++ tables.upper text = _
      rw [settled char List.mem_cons_self, rest]
      rfl

theorem mem_upper_settled {text : List Char} {char : Char}
    (member : char ∈ tables.upper text) :
    tables.upperChar char = [char] ∧ char ≠ 'ſ' ∧ char ≠ 'ı' := by
  obtain ⟨source, -, image⟩ := List.mem_flatMap.mp member
  exact tables.upperChar_settled source char image

/-- Upper case twice is upper case. -/
@[simp] theorem upper_upper (text : List Char) :
    tables.upper (tables.upper text) = tables.upper text :=
  tables.upper_settled fun _ member => (tables.mem_upper_settled member).1

/-- A name that no table has is only put in upper case. -/
theorem canonical_of_unknown {name : List Char} (oid : lookupOid name = none)
    (friendly : lookupName friendlyMap (strip (tables.lower name)) = none) :
    tables.canonical name = tables.upper name := by
  have normalised : tables.normalise name = tables.upper name := by
    simp only [normalise, oid, friendly]
  rw [canonical, normalised, upper_upper]

theorem modulusOr_ne_ready {size : Option (List Char)} {other : Option Classification}
    (differs : other ≠ some .pqcReady) :
    tables.modulusOr size other ≠ some .pqcReady := by
  cases size with
  | none => exact differs
  | some digits =>
      rw [modulusOr, Ne, Option.map_eq_some_iff]
      rintro ⟨bits, -, tier⟩
      rcases modulusTier_cases bits with high | high
      · rw [high] at tier
        cases tier
      · rw [high] at tier
        cases tier

/-- Only the post-quantum test makes a name ready. -/
theorem classify_eq_pqcReady {alg : List Char} :
    tables.classify alg = some .pqcReady ↔ pqcReady (tables.canonical alg) = true := by
  rw [classify, classifyName]
  by_cases ready : pqcReady (tables.canonical alg) = true
  · rw [if_pos ready]
    exact iff_of_true rfl ready
  · rw [if_neg ready]
    refine iff_of_false ?_ ready
    split_ifs
    · simp
    · apply modulusOr_ne_ready
      simp
    · apply modulusOr_ne_ready
      apply modulusOr_ne_ready
      simp
    · apply modulusOr_ne_ready
      apply modulusOr_ne_ready
      simp
    · apply modulusOr_ne_ready
      apply modulusOr_ne_ready
      rw [Ne, Option.some_inj]
      exact classifySymmetric_ne_pqcReady _

theorem hndlExposed_of_ready {alg : List Char}
    (ready : pqcReady (tables.canonical alg) = true) :
    tables.hndlExposed alg = false := by
  rw [hndlExposed, isKeyEstablishment]
  exact if_pos ready

end CaseTables

/-! ## Aliases -/

theorem friendlyMap_bytes :
    ∀ entry ∈ friendlyMap, AsciiBytes entry.1 ∧ AsciiBytes entry.2 := by
  decide +kernel

theorem aliases_ascii : ∀ entry ∈ friendlyMap,
    (∀ char ∈ entry.1.toList, char.toNat < 128) ∧ ∀ char ∈ entry.2.toList,
      char.toNat < 128 :=
  fun entry member => ⟨ascii_of_bytes (friendlyMap_bytes entry member).1,
    ascii_of_bytes (friendlyMap_bytes entry member).2⟩

/-- `str.strip` drops white space only. -/
theorem mem_strip_or_space {text : List Char} {char : Char} (member : char ∈ text) :
    char ∈ strip text ∨ isSpace char = true := by
  have dropped : ∀ text : List Char, char ∈ text →
      char ∈ text.dropWhile isSpace ∨ isSpace char = true := by
    intro text member
    rw [← List.takeWhile_append_dropWhile (p := isSpace) (l := text),
      List.mem_append] at member
    rcases member with taken | kept
    · have spaces : (text.takeWhile isSpace).all isSpace = true := List.all_takeWhile
      exact Or.inr (List.all_eq_true.mp spaces char taken)
    · exact Or.inl kept
  rcases dropped text member with kept | space
  · rw [← List.mem_reverse] at kept
    rcases dropped _ kept with inside | space
    · exact Or.inl (List.mem_reverse.mpr inside)
    · exact Or.inr space
  · exact Or.inr space

theorem lettered_oid :
    ∀ entry ∈ oidMap, (dotted entry.1).all (fun char => !char.isAlpha) := by
  decide +kernel

theorem ascii_oid :
    ∀ entry ∈ oidMap, (dotted entry.1).all (fun char => char.toNat < 128) := by
  decide +kernel

theorem isAlpha_toUpper (char : Char) : char.toUpper.isAlpha = char.isAlpha := by
  revert char
  apply forall_char
  · decide
  · intro char _ upper
    rw [upper]

namespace CaseTables

variable (tables : CaseTables)

/-- A letter of a name that is an alias is spelled in the alias,
but for the Kelvin sign. -/
theorem letter_of_alias {text : List Char} {entry : String × String}
    (member : entry ∈ friendlyMap)
    (alias_ : entry.1.toList = strip (tables.lower text)) {letter : Char}
    (within : letter ∈ tables.upper text) (visible : isSpace letter = false) :
    'k' ∈ entry.1.toList ∨ letter.toLower ∈ entry.1.toList := by
  have ascii := (aliases_ascii entry member).1
  have folded : (strip text).map fold = entry.1.toList := by
    rw [alias_]
    apply tables.lower_word
    rw [← alias_]
    exact ascii
  obtain ⟨char, here, image⟩ := List.mem_flatMap.mp within
  rcases mem_strip_or_space here with kept | space
  · have spelled : fold char ∈ entry.1.toList := by
      rw [← folded]
      exact List.mem_map_of_mem kept
    by_cases isKelvin : char = kelvin
    · rw [fold, if_pos isKelvin] at spelled
      exact Or.inl spelled
    · rw [fold, if_neg isKelvin] at spelled
      have small := ascii_of_toLower char (ascii _ spelled)
      rw [tables.upperChar_ascii char small, List.mem_singleton] at image
      rw [image, toLower_toUpper]
      exact Or.inr spelled
  · rw [tables.upperChar_space char space, List.mem_singleton] at image
    rw [image, space] at visible
    cases visible

/-- A name with a letter is no object identifier. -/
theorem lookupOid_of_letter {text : List Char} {letter : Char}
    (within : letter ∈ tables.upper text) (alpha : letter.isAlpha = true) :
    lookupOid text = none := by
  simp only [lookupOid, Option.map_eq_none_iff, List.find?_eq_none, beq_iff_eq]
  intro entry member equal
  obtain ⟨char, here, image⟩ := List.mem_flatMap.mp within
  rw [← equal] at here
  have plain := List.all_eq_true.mp (lettered_oid entry member) char here
  have digit := List.all_eq_true.mp (ascii_oid entry member) char here
  rw [decide_eq_true_eq] at digit
  rw [tables.upperChar_ascii char digit, List.mem_singleton] at image
  rw [image, isAlpha_toUpper] at alpha
  rw [alpha] at plain
  cases plain

/-- A name with a fragment of ML-KEM or ML-DSA is ready, whether it is an alias or not. -/
theorem classify_of_fragment {alg : List Char} {fragment : String}
    (listed : fragment ∈ pqcHybridFragments)
    (within : contains (tables.upper alg) fragment = true) :
    tables.classify alg = some .pqcReady := by
  rw [classify_eq_pqcReady]
  have letters : ∀ fragment ∈ pqcHybridFragments, 'M' ∈ fragment.toList ∧
      'L' ∈ fragment.toList := by
    decide
  have m := (contains_iff.mp within).subset (letters fragment listed).1
  have l := (contains_iff.mp within).subset (letters fragment listed).2
  have oid := tables.lookupOid_of_letter m (by decide)
  cases friendly : lookupName friendlyMap (strip (tables.lower alg)) with
  | none =>
      rw [tables.canonical_of_unknown oid friendly, pqcReady, Bool.or_eq_true]
      exact Or.inr (List.any_eq_true.mpr ⟨fragment, listed, within⟩)
  | some canonical =>
      obtain ⟨entry, member, alias_, same⟩ := lookupName_mem friendly
      have ready : ∀ entry ∈ friendlyMap,
          'k' ∈ entry.1.toList ∨ ('m' ∈ entry.1.toList ∧ 'l' ∈ entry.1.toList) →
            pqcReady (Python.upper entry.2.toList) = true := by
        decide +kernel
      have normalised : tables.normalise alg = entry.2.toList := by
        simp only [normalise, oid, friendly]
        exact same.symm
      rw [CaseTables.canonical, normalised,
        tables.upper_ascii (aliases_ascii entry member).2]
      apply ready entry member
      rcases tables.letter_of_alias member alias_ m (by decide) with k | smallM
      · exact Or.inl k
      · rcases tables.letter_of_alias member alias_ l (by decide) with k | smallL
        · exact Or.inl k
        · exact Or.inr ⟨smallM, smallL⟩

end CaseTables

/-! ## Tables of an alphabet -/

theorem isSpace_fold (char : Char) : isSpace (fold char) = isSpace char := by
  have lowered : ∀ char : Char, isSpace char.toLower = isSpace char := by
    apply forall_char
    · decide
    · intro char lower _
      rw [lower]
  unfold fold
  split
  · next same =>
      rw [same]
      decide
  · exact lowered char

theorem strip_map_fold (text : List Char) :
    strip (text.map fold) = (strip text).map fold := by
  have same : isSpace ∘ fold = isSpace := by
    funext char
    exact isSpace_fold char
  rw [strip, strip, List.dropWhile_map, same, ← List.map_reverse,
    List.dropWhile_map, same, ← List.map_reverse]

/-- The upper case of a character that has none but in US-ASCII. -/
def plainUpper (char : Char) : Char :=
  if char = 'ſ' then 'S' else if char = 'ı' then 'I' else char.toUpper

/-- Tables in which only the letters of US-ASCII have cases, and
those that read as one. -/
def plainTables : CaseTables where
  upperChar := fun char => [plainUpper char]
  lower := fun text => text.map fold
  digit := fun char => if char.isDigit then some (char.toNat - 48) else none
  readable := fun _ => true
  upperChar_ascii := by
    intro char ascii
    have notLong : char ≠ 'ſ' := by
      intro same
      rw [same] at ascii
      exact absurd ascii (by decide)
    have notDotless : char ≠ 'ı' := by
      intro same
      rw [same] at ascii
      exact absurd ascii (by decide)
    rw [plainUpper, if_neg notLong, if_neg notDotless]
  upperChar_settled := by
    have settled : ∀ char, plainUpper (plainUpper char) = plainUpper char ∧
        plainUpper char ≠ 'ſ' ∧ plainUpper char ≠ 'ı' := by
      apply forall_char
      · decide +kernel
      · intro char _ upper
        by_cases long : char = 'ſ'
        · rw [long]
          decide
        · by_cases dotless : char = 'ı'
          · rw [dotless]
            decide
          · have same : plainUpper char = char := by
              rw [plainUpper, if_neg long, if_neg dotless, upper]
            rw [same, same]
            exact ⟨rfl, long, dotless⟩
    intro char upper member
    rw [List.mem_singleton.mp member]
    exact ⟨congrArg (fun upper => [upper]) (settled char).1, (settled char).2⟩
  upperChar_space := by
    intro char space
    have kept : ∀ char, isSpace char = true → plainUpper char = char := by
      apply forall_char
      · decide +kernel
      · intro char _ upper space
        unfold plainUpper
        split_ifs with long dotless
        · rw [long] at space
          exact absurd space (by decide)
        · rw [dotless] at space
          exact absurd space (by decide)
        · exact upper
    rw [kept char space]
  digit_ascii := by
    intro char _
    split
    · next digit =>
      exact digit.symm
    · next other =>
      exact (Bool.eq_false_iff.mpr other).symm
  lower_word := by
    intro text _
    exact (strip_map_fold text).symm

end Core
end PqcScan
