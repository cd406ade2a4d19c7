import Mathlib.Data.List.Find
import Mathlib.Data.List.Infix

/-!
# Text as lists of characters

The methods of `str` that the scanner calls on names of the US-ASCII alphabet.
Case conversion is the ASCII one.
-/

namespace PqcScan
namespace Python

/-- `str.lower` of US-ASCII text. -/
def lower (text : List Char) : List Char := text.map Char.toLower

/-- `str.upper` of US-ASCII text. -/
def upper (text : List Char) : List Char := text.map Char.toUpper

/-- `str.startswith`. -/
def startsWith (text : List Char) (head : String) : Bool :=
  head.toList.isPrefixOf text

/-- `str.endswith`. -/
def endsWith (text : List Char) (tail : String) : Bool :=
  tail.toList.isSuffixOf text

/-- `text in {names}`. -/
def oneOf (text : List Char) (names : List String) : Bool :=
  names.any (·.toList == text)

/-- `table.get(text)`. -/
def lookupName (table : List (String × String)) (text : List Char) :
    Option (List Char) :=
  (table.find? (·.1.toList == text)).map (·.2.toList)

/-- The text before and after the first separator. -/
def cut (separator : List Char) : List Char → Option (List Char × List Char)
  | [] => none
  | char :: rest =>
      if separator.isPrefixOf (char :: rest) then
        some ([], (char :: rest).drop separator.length)
      else (cut separator rest).map fun parts => (char :: parts.1, parts.2)

/-- `text.split(separator, 1)[0]` and `text.partition(separator)[0]`. -/
def beforeFirst (separator : Char) (text : List Char) : List Char :=
  match cut [separator] text with
  | some (before, _) => before
  | none => text

/-- `text.partition(separator)[2]`. -/
def afterFirst (separator : Char) (text : List Char) : List Char :=
  match cut [separator] text with
  | some (_, after) => after
  | none => []

/-- `str.isspace` of one character, the separators of `str.split`. -/
def isSpace (char : Char) : Bool :=
  let code := char.toNat
  (0x09 ≤ code && code ≤ 0x0d) || (0x1c ≤ code && code ≤ 0x20) ||
    code == 0x85 || code == 0xa0 || code == 0x1680 ||
    (0x2000 ≤ code && code ≤ 0x200a) || code == 0x2028 || code == 0x2029 ||
    code == 0x202f || code == 0x205f || code == 0x3000

/-- Between `low` and `high` characters, all of one class. -/
def spans (low high : Nat) (member : Char → Bool) (chars : List Char) : Bool :=
  low ≤ chars.length && chars.length ≤ high && chars.all member

/-- `str.strip`. -/
def strip (chars : List Char) : List Char :=
  ((chars.dropWhile isSpace).reverse.dropWhile isSpace).reverse

/-- `fragment in text`. -/
def contains (text : List Char) (fragment : String) : Bool :=
  text.tails.any (fragment.toList.isPrefixOf ·)

/-! ## Decidability

The two quantifiers over a text run through its characters, never through all
characters there are. -/

instance (priority := 2000) decidableForallMem {holds : Char → Prop} [DecidablePred holds]
    (text : List Char) : Decidable (∀ char ∈ text, holds char) :=
  List.decidableBAll holds text

instance (priority := 2000) decidableExistsMem {holds : Char → Prop} [DecidablePred holds]
    (text : List Char) : Decidable (∃ char ∈ text, holds char) :=
  List.decidableBEx holds text

instance (priority := 2000) decidableForallOption {holds : Char →
      Prop} [DecidablePred holds]
    (char? : Option Char) : Decidable (∀ char ∈ char?, holds char) :=
  Option.decidableForallMem char?

/-! ## Case -/

/-- A fact about every character is one about ASCII and one about the rest. -/
theorem forall_char {holds : Char → Prop}
    (ascii : ∀ code : Fin 128, holds (Char.ofNat code))
    (other : ∀ char : Char, char.toLower = char → char.toUpper = char → holds char)
    (char : Char) : holds char := by
  by_cases low : char.toNat < 128
  · simpa using ascii ⟨char.toNat, low⟩
  · apply other
    · refine dif_neg fun bounds => low ?_
      exact lt_of_le_of_lt bounds.2 (by decide)
    · refine dif_neg fun bounds => low ?_
      exact lt_of_le_of_lt bounds.2 (by decide)

theorem toLower_toUpper (char : Char) : char.toUpper.toLower = char.toLower := by
  revert char
  apply forall_char
  · decide
  · intro char _ upper
    rw [upper]

theorem toUpper_toUpper (char : Char) : char.toUpper.toUpper = char.toUpper := by
  revert char
  apply forall_char
  · decide
  · intro char _ upper
    rw [upper, upper]

theorem toUpper_toLower (char : Char) : char.toLower.toUpper = char.toUpper := by
  revert char
  apply forall_char
  · decide
  · intro char lower _
    rw [lower]

@[simp] theorem lower_upper (text : List Char) : lower (upper text) = lower text := by
  rw [lower, upper, List.map_map]
  exact List.map_congr_left fun char _ => toLower_toUpper char

@[simp] theorem upper_upper (text : List Char) : upper (upper text) = upper text := by
  rw [upper, upper, List.map_map]
  exact List.map_congr_left fun char _ => toUpper_toUpper char

@[simp] theorem upper_lower (text : List Char) : upper (lower text) = upper text := by
  rw [upper, lower, List.map_map]
  exact List.map_congr_left fun char _ => toUpper_toLower char

/-! ## Prefixes -/

theorem startsWith_iff {text : List Char} {head : String} :
    startsWith text head = true ↔ head.toList <+: text := by
  simp [startsWith]

/-- Text starts the same in upper case. -/
theorem startsWith_upper {text : List Char} {head other : String}
    (starts : startsWith (lower text) head = true)
    (same : other.toList = upper head.toList) : startsWith (upper text) other = true := by
  rw [startsWith_iff] at starts ⊢
  rw [same, ← upper_lower text]
  exact starts.map _

/-- Two literals of which neither starts with the other. -/
def Apart (left right : String) : Prop :=
  ¬ left.toList <+: right.toList ∧ ¬ right.toList <+: left.toList

instance (left right : String) : Decidable (Apart left right) :=
  inferInstanceAs (Decidable (_ ∧ _))

/-- Text that starts with one literal does not start with one apart from it. -/
theorem not_startsWith {text : List Char} {head other : String}
    (starts : startsWith text head = true) (apart : Apart head other) :
    startsWith text other = false := by
  rw [Bool.eq_false_iff, Ne, startsWith_iff]
  intro also
  rw [startsWith_iff] at starts
  rcases List.prefix_or_prefix_of_prefix starts also with first | second
  · exact apart.1 first
  · exact apart.2 second

/-- Text that starts with none of the names is none of them. -/
theorem oneOf_eq_false {text : List Char} {names : List String}
    (absent : ∀ name ∈ names, startsWith text name = false) :
    oneOf text names = false := by
  simp only [oneOf, List.any_eq_false, beq_iff_eq]
  intro name member equal
  have starts : startsWith text name = true := by
    rw [startsWith_iff, equal]
  rw [absent name member] at starts
  cases starts

/-! ## Tables of names -/

/-- A table whose names all lack what the text has does not list the text. -/
theorem lookupName_eq_none {table : List (String × String)} {text : List Char}
    {has : List Char → Bool} (holds : has text = true)
    (lacks : ∀ entry ∈ table, has entry.1.toList = false) :
    lookupName table text = none := by
  simp only [lookupName, Option.map_eq_none_iff, List.find?_eq_none, beq_iff_eq]
  intro entry member equal
  have absent := lacks entry member
  rw [equal, holds] at absent
  cases absent

theorem lookupName_mem {table : List (String × String)} {text name : List Char}
    (found : lookupName table text = some name) :
    ∃ entry ∈ table, entry.1.toList = text ∧ entry.2.toList = name := by
  simp only [lookupName, Option.map_eq_some_iff] at found
  obtain ⟨entry, located, named⟩ := found
  have same := List.find?_some located
  exact ⟨entry, List.mem_of_find?_eq_some located, by simpa using same, named⟩

/-! ## Cutting -/

/-- No separator starts in a front that its first character is not in. -/
theorem cut_append {first : Char} {others front : List Char} (free : first ∉ front)
    (text : List Char) :
    cut (first :: others) (front ++ text) =
      (cut (first :: others) text).map fun parts => (front ++ parts.1, parts.2) := by
  induction front with
  | nil => simp
  | cons char rest inductionHypothesis =>
      have differs : first ≠ char := fun same => free (by simp [same])
      have later : first ∉ rest := fun member => free (by simp [member])
      rw [List.cons_append, cut, if_neg (by simp [differs]), inductionHypothesis later,
        Option.map_map]
      rfl

theorem cut_of_starts {separator text : List Char} (filled : separator ≠ []) :
    cut separator (separator ++ text) = some ([], text) := by
  cases separator with
  | nil => exact absurd rfl filled
  | cons first others =>
      rw [List.cons_append, cut, if_pos (by simp)]
      simp

/-- The parts of a cut text. -/
theorem cut_eq_some {separator text before after : List Char}
    (found : cut separator text = some (before, after)) :
    text = before ++ separator ++ after := by
  induction text generalizing before with
  | nil => cases found
  | cons char rest inductionHypothesis =>
      rw [cut] at found
      split at found
      · next starts =>
        obtain ⟨rest', equal⟩ := List.isPrefixOf_iff_prefix.mp starts
        rw [← equal, List.drop_left, Option.some.injEq, Prod.mk.injEq] at found
        rw [← equal, ← found.1, ← found.2, List.nil_append]
      · rw [Option.map_eq_some_iff] at found
        obtain ⟨⟨front, later⟩, located, same⟩ := found
        obtain ⟨rfl, rfl⟩ := Prod.mk.inj same
        rw [inductionHypothesis located, List.cons_append, List.cons_append]

/-- What stands before the first separator is a part of the text. -/
theorem beforeFirst_subset (separator : Char) (text : List Char) :
    beforeFirst separator text ⊆ text := by
  unfold beforeFirst
  split
  · next before after found =>
    rw [cut_eq_some found]
    simp
  · exact List.Subset.refl text

theorem cut_cons (separator : Char) (text : List Char) :
    cut [separator] (separator :: text) = some ([], text) :=
  @cut_of_starts [separator] text (by simp)

theorem beforeFirst_append {separator : Char} {front : List Char}
    (free : separator ∉ front) (text : List Char) :
    beforeFirst separator (front ++ text) = front ++ beforeFirst separator text := by
  unfold beforeFirst
  rw [cut_append free]
  cases cut [separator] text with
  | none => rfl
  | some parts => rfl

theorem beforeFirst_cons (separator : Char) (text : List Char) :
    beforeFirst separator (separator :: text) = [] := by
  unfold beforeFirst
  rw [cut_cons]

theorem afterFirst_append {separator : Char} {front : List Char}
    (free : separator ∉ front) (text : List Char) :
    afterFirst separator (front ++ separator :: text) = text := by
  unfold afterFirst
  rw [cut_append free, cut_cons]
  rfl

theorem afterFirst_of_free {separator : Char} {text : List Char}
    (free : separator ∉ text) : afterFirst separator text = [] := by
  have alone := @cut_append separator [] text free []
  rw [List.append_nil] at alone
  unfold afterFirst
  rw [alone]
  rfl

/-! ## Literals

`String.toList` decodes UTF-8.  The characters of a US-ASCII literal are its bytes, which
are cheaper to compute. -/

/-- The characters of US-ASCII text, read from its bytes. -/
def spelled (text : String) : List Char :=
  text.toByteArray.data.toList.map fun byte => Char.ofNat byte.toNat

/-- Every byte of the text is below 128. -/
def AsciiBytes (text : String) : Prop :=
  ∀ byte ∈ text.toByteArray.data.toList, byte.toNat < 128

instance (text : String) : Decidable (AsciiBytes text) :=
  List.decidableBAll (fun byte : UInt8 => byte.toNat < 128) text.toByteArray.data.toList

theorem bytes_char {char : Char}
    (ascii : ∀ byte ∈ String.utf8EncodeChar char, byte.toNat < 128) :
    (String.utf8EncodeChar char).map (fun byte => Char.ofNat byte.toNat) = [char] := by
  unfold String.utf8EncodeChar at ascii ⊢
  dsimp only at ascii ⊢
  by_cases single : char.val.toNat ≤ 0x7f
  · have value : (UInt8.ofNat char.val.toNat).toNat = char.toNat := by
      rw [UInt8.toNat_ofNat']
      exact Nat.mod_eq_of_lt (by omega)
    rw [if_pos single, List.map_singleton, value, Char.ofNat_toNat]
  · rw [if_neg single] at ascii
    split_ifs at ascii <;> exfalso
    all_goals
      have first := ascii _ List.mem_cons_self
      rw [UInt8.toNat_ofNat'] at first
      omega

theorem bytes_chars {chars : List Char}
    (ascii : ∀ byte ∈ chars.flatMap String.utf8EncodeChar, byte.toNat < 128) :
    (chars.flatMap String.utf8EncodeChar).map
      (fun byte => Char.ofNat byte.toNat) = chars := by
  induction chars with
  | nil => rfl
  | cons char rest inductionHypothesis =>
      rw [List.flatMap_cons] at ascii ⊢
      rw [List.map_append,
        bytes_char fun byte member => ascii byte (List.mem_append_left _ member),
        inductionHypothesis fun byte member =>
          ascii byte (List.mem_append_right _ member)]
      rfl

/-- The bytes of US-ASCII text are its characters. -/
theorem toList_eq_spelled {text : String} (ascii : AsciiBytes text) :
    text.toList = spelled text := by
  obtain ⟨chars, rfl⟩ : ∃ chars, text = String.ofList chars :=
    ⟨text.toList, String.ofList_toList.symm⟩
  have bytes : (String.ofList chars).toByteArray.data.toList =
      chars.flatMap String.utf8EncodeChar := by
    rw [String.toByteArray_ofList, List.utf8Encode, List.data_toByteArray]
  unfold AsciiBytes at ascii
  rw [bytes] at ascii
  rw [String.toList_ofList, spelled, bytes, bytes_chars ascii]

/-- What the bytes of some US-ASCII names have, the names have. -/
theorem forall_spelled {names : List String} {P : List Char → Prop}
    (all : ∀ name ∈ names, AsciiBytes name ∧ P (spelled name)) : ∀ name ∈ names,
      P name.toList := by
  intro name member
  rw [toList_eq_spelled (all name member).1]
  exact (all name member).2

theorem ascii_of_bytes {text : String} (ascii : AsciiBytes text) :
    ∀ char ∈ text.toList, char.toNat < 128 := by
  intro char member
  rw [toList_eq_spelled ascii, spelled] at member
  obtain ⟨byte, listed, rfl⟩ := List.mem_map.mp member
  have all : ∀ code : Fin 128, (Char.ofNat code).toNat < 128 := by decide
  exact all ⟨byte.toNat, ascii byte listed⟩

/-- The bytes of a text as one number. -/
def byteCode (text : String) : Nat :=
  text.toByteArray.data.toList.foldl (fun code byte => code * 256 + byte.toNat) 1

/-- `lookupName` on the bytes of the table. -/
def lookupSpelled (table : List (String × String)) (text : List Char) :
    Option (List Char) :=
  (table.find? (spelled ·.1 == text)).map (spelled ·.2)

theorem lookupName_eq_spelled {table : List (String × String)} {text : List Char}
    (ascii : ∀ entry ∈ table, AsciiBytes entry.1 ∧ AsciiBytes entry.2) :
    lookupName table text = lookupSpelled table text := by
  have same : table.find? (·.1.toList == text) = table.find? (spelled ·.1 == text) :=
    List.find?_congr fun entry member => by rw [toList_eq_spelled (ascii entry member).1]
  rw [lookupName, lookupSpelled, same]
  cases found : table.find? (spelled ·.1 == text) with
  | none => rfl
  | some entry =>
      have member := List.mem_of_find?_eq_some found
      rw [Option.map_some, Option.map_some, toList_eq_spelled (ascii entry member).2]

/-! ## White space -/

/-- Text without white space is not trimmed. -/
theorem strip_eq_self {text : List Char}
    (spaceless : ∀ char ∈ text, isSpace char = false) :
    strip text = text := by
  have dropped : ∀ text : List Char, (∀ char ∈ text, isSpace char = false) →
      text.dropWhile isSpace = text := by
    intro text spaceless
    cases text with
    | nil => rfl
    | cons char rest =>
        apply List.dropWhile_cons_of_neg
        rw [spaceless char (by simp)]
        decide
  rw [strip, dropped text spaceless, dropped text.reverse (by simpa using spaceless),
    List.reverse_reverse]

/-- White space around a text is trimmed. -/
theorem strip_spaced {before after : List Char}
    (front : ∀ char ∈ before, isSpace char = true)
    (back : ∀ char ∈ after, isSpace char = true) (text : List Char) :
    strip (before ++ (text ++ after)) = strip text := by
  have reversed : ∀ char ∈ after.reverse, isSpace char = true := fun char member =>
    back char (List.mem_reverse.mp member)
  rw [strip, strip, List.dropWhile_append_of_pos front, List.dropWhile_append]
  split
  · next empty =>
      have none_ := @List.dropWhile_append_of_pos _ isSpace after [] back
      rw [List.append_nil] at none_
      rw [List.isEmpty_iff.mp empty, none_]
      rfl
  · rw [List.reverse_append, List.dropWhile_append_of_pos reversed]

end Python
end PqcScan
