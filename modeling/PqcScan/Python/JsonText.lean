import PqcScan.Python.Str
import PqcScan.Python.Value
import Mathlib.Data.List.TakeWhile

/-!
# JSON text

`json.dumps` of a flat object with its default separators, and `JSON.parse` of such text:
the strings of the reader are sequences of UTF-16 code units.
-/

namespace PqcScan
namespace Python
namespace JsonText

/-! ## Strings -/

/-- The code units of a character. -/
def utf16Units (char : Char) : List Nat :=
  if char.toNat ≤ 0xffff then [char.toNat]
  else
    [0xd800 + (char.toNat - 0x10000) / 0x400, 0xdc00 + (char.toNat - 0x10000) % 0x400]

/-- The code units of a text. -/
def utf16 (text : List Char) : List Nat := text.flatMap utf16Units

/-- Where the reader of a string is: in plain text, behind a backslash, or in front of
`more + 1` hexadecimal digits. -/
inductive Mode
  | plain
  | escape
  | hex (more value : Nat)

/-- The value of a hexadecimal digit. -/
def hexValue (char : Char) : Option Nat :=
  if char.isDigit then some (char.toNat - 48)
  else if 97 ≤ char.toNat ∧ char.toNat ≤ 102 then some (char.toNat - 87)
  else if 65 ≤ char.toNat ∧ char.toNat ≤ 70 then some (char.toNat - 55)
  else none

/-- The escapes of one letter. -/
def escaped (char : Char) : Option Nat :=
  if char = '\\' ∨ char = '/' ∨ char.toNat = 0x22 then some char.toNat
  else if char = 'n' then some 0x0a
  else if char = 'r' then some 0x0d
  else if char = 't' then some 0x09
  else if char = 'b' then some 0x08
  else if char = 'f' then some 0x0c
  else none

/-- Code units before what is read. -/
def before (units : List Nat) (later : Option (List Nat × List Char)) :
    Option (List Nat × List Char) :=
  later.map fun pair => (units ++ pair.1, pair.2)

/-- The code units up to the closing quote, and the text behind it. -/
def readUnits : Mode → List Char → Option (List Nat × List Char)
  | _, [] => none
  | .plain, char :: rest =>
      if char.toNat = 0x22 then some ([], rest)
      else if char = '\\' then readUnits .escape rest
      else if char.toNat < 0x20 then none
      else before (utf16Units char) (readUnits .plain rest)
  | .escape, char :: rest =>
      if char = 'u' then readUnits (.hex 3 0) rest
      else (escaped char).bind fun unit => before [unit] (readUnits .plain rest)
  | .hex 0 value, char :: rest =>
      (hexValue char).bind fun digit =>
        before [value * 16 + digit] (readUnits .plain rest)
  | .hex (more + 1) value, char :: rest =>
      (hexValue char).bind fun digit => readUnits (.hex more (value * 16 + digit)) rest

/-! ## Objects -/

/-- `JSON.parse` skips white space between tokens. -/
def skip (text : List Char) : List Char :=
  text.dropWhile fun char => char == ' ' || char == '\t' || char == '\n' || char == '\r'

/-- The text behind a token of one character. -/
def expect (token : Char) (text : List Char) : Option (List Char) :=
  if (skip text).head? = some token then some (skip text).tail else none

/-- The double quote. -/
def quote : Char := Char.ofNat 0x22

/-- The brace that opens an object. -/
def opening : Char := Char.ofNat 0x7b

/-- The brace that closes an object. -/
def closing : Char := Char.ofNat 0x7d

/-- Read a string. -/
def readString (text : List Char) : Option (List Nat × List Char) :=
  (expect quote text).bind (readUnits .plain)

/-- What a member of a flat object is to the reader. -/
inductive Value
  | units (text : List Nat)
  | number (value : Nat)
  deriving DecidableEq

/-- Read a number. -/
def readNumber (text : List Char) : Option (Nat × List Char) :=
  let digits := (skip text).takeWhile Char.isDigit
  if digits = [] then none
  else some (Nat.ofDigitChars 10 digits 0, (skip text).dropWhile Char.isDigit)

/-- Read a value. -/
def readValue (text : List Char) : Option (Value × List Char) :=
  if (skip text).head? = some quote then
    (readString text).map fun pair => (.units pair.1, pair.2)
  else (readNumber text).map fun pair => (.number pair.1, pair.2)

/-- A key, a colon and a value. -/
def readMember (text : List Char) : Option ((List Nat × Value) × List Char) :=
  (readString text).bind fun key =>
    (expect ':' key.2).bind fun rest =>
      (readValue rest).map fun value => ((key.1, value.1), value.2)

/-- Members with commas between them, up to the closing brace. -/
def readMembers : Nat → List Char → Option (List (List Nat × Value) × List Char)
  | 0, _ => none
  | fuel + 1, text =>
      (readMember text).bind fun first =>
        if (skip first.2).head? = some ',' then
          (readMembers fuel (skip first.2).tail).map fun pair =>
            (first.1 :: pair.1, pair.2)
        else (expect closing first.2).map fun rest => ([first.1], rest)

/-- `JSON.parse` of an object whose members are strings and natural numbers. -/
def readObject (text : List Char) : Option (List (List Nat × Value)) :=
  (expect opening text).bind fun rest =>
    ((readMembers rest.length rest).bind fun pair =>
      if skip pair.2 = [] then some pair.1 else none)

/-! ## `json.dumps` -/

/-- A member of an event. -/
inductive Scalar
  | text (value : String)
  | number (value : Nat)
  deriving DecidableEq

/-- `json.dumps` of a scalar. -/
def dumpScalar : Scalar → List Char
  | .text value => jsonString value
  | .number value => (toString value).toList

/-- A member of an object. -/
def dumpMember (member : String × Scalar) : List Char :=
  jsonString member.1 ++ ": ".toList ++ dumpScalar member.2

/-- `json.dumps` of a dictionary with the members in their order. -/
def dumps (members : List (String × Scalar)) : List Char :=
  opening :: ", ".toList.intercalate (members.map dumpMember) ++ [closing]

/-- What the reader makes of a member. -/
def Scalar.read : Scalar → Value
  | .text value => .units (utf16 value.toList)
  | .number value => .number value

/-! ## Strings are read back -/

theorem before_append (left right : List Nat) (later : Option (List Nat × List Char)) :
    before left (before right later) = before (left ++ right) later := by
  cases later with
  | none => rfl
  | some pair => simp [before]

theorem hexValue_digitChar :
    ∀ digit < 16, hexValue (Nat.digitChar digit) = some digit := by
  decide

theorem readUnits_hexDigits (width more value number : Nat) (rest : List Char)
    (small : number < 16 ^ width) :
    readUnits (.hex (width + more) value) (hexDigits width number ++ rest) =
      readUnits (.hex more (value * 16 ^ width + number)) rest := by
  induction width generalizing more number rest with
  | zero =>
      have nothing : number = 0 := Nat.lt_one_iff.mp small
      rw [hexDigits, List.nil_append, Nat.zero_add, nothing, Nat.pow_zero, Nat.mul_one,
        Nat.add_zero]
  | succ width inductionHypothesis =>
      have high : number / 16 < 16 ^ width := by
        rw [Nat.pow_succ] at small
        omega
      have digit : hexValue (Nat.digitChar (number % 16)) = some (number % 16) :=
        hexValue_digitChar _ (Nat.mod_lt _ (by decide))
      have sum : (value * 16 ^ width + number / 16) * 16 + number % 16 =
          value * 16 ^ (width + 1) + number := by
        rw [Nat.pow_succ, ← Nat.mul_assoc]
        omega
      have order : width + 1 + more = width + (more + 1) := by omega
      rw [hexDigits, List.append_assoc, order, inductionHypothesis (more + 1) _ _ high,
        List.singleton_append, readUnits, digit, Option.bind_some, sum]

/-- A unit with its four digits. -/
theorem readUnits_escapedUnit {unit : Nat} (small : unit < 0x10000) (rest : List Char) :
    readUnits .plain (['\\', 'u'] ++ hexDigits 4 unit ++ rest) =
      before [unit] (readUnits .plain rest) := by
  have high : unit / 16 < 16 ^ 3 := by omega
  have digits := readUnits_hexDigits 3 0 0 (unit / 16)
    (Nat.digitChar (unit % 16) :: rest) high
  have last : hexValue (Nat.digitChar (unit % 16)) = some (unit % 16) :=
    hexValue_digitChar _ (Nat.mod_lt _ (by decide))
  have sum : (0 * 16 ^ 3 + unit / 16) * 16 + unit % 16 = unit := by omega
  have text : ['\\', 'u'] ++ hexDigits 4 unit ++ rest =
      '\\' :: 'u' :: (hexDigits 3 (unit / 16) ++ Nat.digitChar (unit % 16) :: rest) := by
    simp [hexDigits]
  rw [text, readUnits, if_neg (by decide), if_pos rfl, readUnits, if_pos rfl,
    digits, readUnits, last, Option.bind_some, sum]

theorem readUnits_escapedLetter {char : Char} {unit : Nat} (letter : char ≠ 'u')
    (same : escaped char = some unit) (rest : List Char) :
    readUnits .plain (['\\', char] ++ rest) = before [unit] (readUnits .plain rest) := by
  rw [List.cons_append, List.singleton_append, readUnits, if_neg (by decide), if_pos rfl,
    readUnits, if_neg letter, same, Option.bind_some]

theorem utf16Units_of_small {char : Char} (small : char.toNat ≤ 0xffff) :
    utf16Units char = [char.toNat] := if_pos small

/-- Every escape is read as the code units of its character. -/
theorem readUnits_jsonEscape (char : Char) (rest : List Char) :
    readUnits .plain (jsonEscape char ++ rest) =
      before (utf16Units char) (readUnits .plain rest) := by
  unfold jsonEscape
  dsimp only
  split
  · next special =>
      have small : char.toNat ≤ 0xffff := by
        rcases special with rfl | code
        · decide
        · omega
      have letter : char ≠ 'u' := by
        rintro rfl
        exact absurd special (by decide)
      have same : escaped char = some char.toNat := by
        rw [escaped, if_pos]
        rcases special with same | code
        · exact Or.inl same
        · exact Or.inr (Or.inr code)
      rw [readUnits_escapedLetter letter same, utf16Units_of_small small]
  split
  · next same =>
      subst same
      exact readUnits_escapedLetter (by decide) (by decide) rest
  split
  · next same =>
      subst same
      exact readUnits_escapedLetter (by decide) (by decide) rest
  split
  · next same =>
      subst same
      exact readUnits_escapedLetter (by decide) (by decide) rest
  split
  · next code =>
      rw [utf16Units_of_small (by omega), code]
      exact readUnits_escapedLetter (by decide) (by decide) rest
  split
  · next code =>
      rw [utf16Units_of_small (by omega), code]
      exact readUnits_escapedLetter (by decide) (by decide) rest
  split
  · next special _ _ _ _ _ printable =>
      rw [not_or] at special
      rw [List.singleton_append, readUnits, if_neg special.2, if_neg special.1,
        if_neg (Nat.not_lt.mpr printable.1)]
  split
  · next small =>
      rw [readUnits_escapedUnit (by omega), utf16Units_of_small small]
  · next large =>
      have bound : char.toNat < 0x110000 := by
        have valid := char.valid
        rcases valid with low | ⟨-, high⟩
        · exact lt_trans low (by decide)
        · exact high
      have order : ∀ first second third fourth : List Char,
          first ++ second ++ third ++ fourth ++ rest =
            first ++ second ++ (third ++ fourth ++ rest) := by
        simp only [List.append_assoc, implies_true]
      rw [order, readUnits_escapedUnit (by omega), readUnits_escapedUnit (by omega),
        before_append, utf16Units, if_neg large]
      rfl

theorem readUnits_flatMap (text rest : List Char) :
    readUnits .plain (text.flatMap jsonEscape ++ quote :: rest) =
      some (utf16 text, rest) := by
  induction text with
  | nil => exact if_pos rfl
  | cons char text inductionHypothesis =>
      rw [List.flatMap_cons, List.append_assoc, readUnits_jsonEscape, inductionHypothesis]
      rfl

theorem expect_cons {token : Char} (solid : skip [token] = [token]) (rest : List Char) :
    expect token (token :: rest) = some rest := by
  have whole : skip (token :: rest) = token :: rest := by
    unfold skip at solid ⊢
    rw [List.dropWhile_cons] at solid ⊢
    split at solid
    · exact absurd (congrArg List.length solid) (by simp)
    · next no => rw [if_neg no]
  rw [expect, whole]
  exact if_pos rfl

theorem skip_quote (rest : List Char) : skip (quote :: rest) = quote :: rest := rfl

theorem jsonString_append (value : String) (rest : List Char) :
    jsonString value ++ rest =
      quote :: (value.toList.flatMap jsonEscape ++ quote :: rest) := by
  simp [jsonString, quote]

/-- A string is read back. -/
theorem readString_jsonString (value : String) (rest : List Char) :
    readString (jsonString value ++ rest) = some (utf16 value.toList, rest) := by
  rw [jsonString_append, readString, expect_cons rfl, Option.bind_some, readUnits_flatMap]

/-! ## Objects are read back -/

/-- No digit comes next. -/
def Ends (rest : List Char) : Prop := ∀ char ∈ rest.head?, char.isDigit = false

theorem toList_toString (value : Nat) :
    (toString value).toList = Nat.toDigits 10 value := by
  rw [Nat.toString_eq_repr, Nat.toList_repr]

theorem isDigit_of_mem {value : Nat} {char : Char}
    (member : char ∈ Nat.toDigits 10 value) :
    char.isDigit = true := Nat.isDigit_of_mem_toDigits (by decide) (by decide) member

theorem skip_digits (value : Nat) (rest : List Char) :
    skip (Nat.toDigits 10 value ++ rest) = Nat.toDigits 10 value ++ rest ∧
      (Nat.toDigits 10 value ++ rest).head? ≠ some quote := by
  obtain ⟨first, others, digits⟩ :=
    List.exists_cons_of_ne_nil (@Nat.toDigits_ne_nil value 10)
  have digit : first.isDigit = true := by
    apply @isDigit_of_mem value
    rw [digits]
    exact List.mem_cons_self
  rw [digits, List.cons_append]
  constructor
  · refine List.dropWhile_cons_of_neg fun space => ?_
    simp only [Bool.or_eq_true, beq_iff_eq] at space
    rcases space with ((rfl | rfl) | rfl) | rfl
    all_goals exact absurd digit (by decide)
  · intro same
    rw [List.head?_cons, Option.some_inj] at same
    subst same
    exact absurd digit (by decide)

theorem readValue_dumpScalar (scalar : Scalar) {rest : List Char} (ends : Ends rest) :
    readValue (dumpScalar scalar ++ rest) = some (scalar.read, rest) := by
  cases scalar with
  | text value =>
      rw [dumpScalar, readValue, if_pos, readString_jsonString]
      · rfl
      · rw [jsonString_append, skip_quote]
        rfl
  | number value =>
      have solid := skip_digits value rest
      have digits : ∀ char ∈ Nat.toDigits 10 value, char.isDigit = true := fun _ member =>
        isDigit_of_mem member
      have taken : (Nat.toDigits 10 value ++ rest).takeWhile Char.isDigit =
          Nat.toDigits 10 value := by
        rw [List.takeWhile_append_of_pos digits]
        cases rest with
        | nil => simp
        | cons char rest =>
            rw [List.takeWhile_cons_of_neg (by simp [ends char rfl]), List.append_nil]
      have left : (Nat.toDigits 10 value ++ rest).dropWhile Char.isDigit = rest := by
        rw [List.dropWhile_append_of_pos digits]
        cases rest with
        | nil => rfl
        | cons char rest => exact List.dropWhile_cons_of_neg (by simp [ends char rfl])
      rw [dumpScalar, toList_toString, readValue, solid.1, if_neg solid.2,
        readNumber, solid.1, taken, left, if_neg Nat.toDigits_ne_nil,
        Nat.ofDigitChars_ten_toDigits]
      rfl

theorem readValue_space (rest : List Char) :
    readValue (' ' :: rest) = readValue rest := rfl

theorem readMember_dumpMember (member : String × Scalar) {rest : List Char}
    (ends : Ends rest) :
    readMember (dumpMember member ++ rest) =
      some ((utf16 member.1.toList, member.2.read), rest) := by
  have text : dumpMember member ++ rest =
      jsonString member.1 ++ ':' :: ' ' :: (dumpScalar member.2 ++ rest) := by
    simp [dumpMember]
  rw [text, readMember, readString_jsonString, Option.bind_some, expect_cons rfl,
    Option.bind_some, readValue_space, readValue_dumpScalar _ ends]
  rfl

/-- The members behind the first, each with its comma. -/
def dumpLater (members : List (String × Scalar)) : List Char :=
  members.flatMap fun member => ", ".toList ++ dumpMember member

theorem ends_dumpLater (members : List (String × Scalar)) :
    Ends (dumpLater members ++ [closing]) := by
  intro char member
  cases members with
  | nil =>
      cases member
      decide
  | cons first members =>
      cases member
      decide

theorem readMembers_dump (first : String × Scalar) (members : List (String × Scalar))
    {fuel : Nat} (enough : members.length < fuel) :
    readMembers fuel (dumpMember first ++ (dumpLater members ++ [closing])) =
      some ((first :: members).map fun member => (utf16 member.1.toList, member.2.read),
        []) := by
  induction members generalizing first fuel with
  | nil =>
      obtain ⟨more, rfl⟩ := Nat.exists_eq_add_of_lt enough
      rw [readMembers, readMember_dumpMember _ (ends_dumpLater [])]
      rfl
  | cons second members inductionHypothesis =>
      obtain ⟨more, rfl⟩ := Nat.exists_eq_add_of_lt enough
      have text : dumpLater (second :: members) ++ [closing] =
          ',' :: ' ' :: (dumpMember second ++ (dumpLater members ++ [closing])) := by
        simp [dumpLater]
      have comma : skip
          (',' :: ' ' :: (dumpMember second ++ (dumpLater members ++ [closing]))) =
          ',' :: ' ' :: (dumpMember second ++ (dumpLater members ++ [closing])) := rfl
      have member : readMember
          (' ' :: (dumpMember second ++ (dumpLater members ++ [closing]))) =
            readMember (dumpMember second ++ (dumpLater members ++ [closing])) := rfl
      have spaced : ∀ fuel, readMembers fuel
          (' ' :: (dumpMember second ++ (dumpLater members ++ [closing]))) =
            readMembers fuel (dumpMember second ++ (dumpLater members ++ [closing])) := by
        intro fuel
        cases fuel with
        | zero => rfl
        | succ fuel => rw [readMembers, readMembers, member]
      have later := @inductionHypothesis second ((second :: members).length + more)
        (by rw [List.length_cons]; omega)
      rw [readMembers, readMember_dumpMember _ (ends_dumpLater _), Option.bind_some, text]
      dsimp only
      rw [comma, if_pos List.head?_cons, List.tail_cons, spaced, later]
      rfl

theorem intercalate_dump (first : String × Scalar) (members : List (String × Scalar)) :
    ", ".toList.intercalate ((first :: members).map dumpMember) =
      dumpMember first ++ dumpLater members := by
  induction members generalizing first with
  | nil => simp [dumpLater]
  | cons second members inductionHypothesis =>
      rw [List.map_cons, List.map_cons, List.intercalate_cons_cons, ← List.map_cons,
        inductionHypothesis]
      simp [dumpLater]

theorem length_dumpLater (members : List (String × Scalar)) :
    members.length ≤ (dumpLater members).length := by
  induction members with
  | nil => exact le_refl _
  | cons member members inductionHypothesis =>
      have text : dumpLater (member :: members) =
          ", ".toList ++ dumpMember member ++ dumpLater members := List.flatMap_cons
      have comma : ", ".toList.length = 2 := rfl
      rw [text, List.length_append, List.length_append, comma, List.length_cons]
      omega

/-- An object is read back, member by member. -/
theorem readObject_dumps {members : List (String × Scalar)} (some_ : members ≠ []) :
    readObject (dumps members) =
      some (members.map fun member => (utf16 member.1.toList, member.2.read)) := by
  obtain ⟨first, members, rfl⟩ := List.exists_cons_of_ne_nil some_
  have enough : members.length <
      (dumpMember first ++ (dumpLater members ++ [closing])).length := by
    have later := length_dumpLater members
    simp only [List.length_append, List.length_singleton]
    omega
  rw [dumps, intercalate_dump, List.cons_append, List.append_assoc, readObject,
    expect_cons rfl, Option.bind_some, readMembers_dump first members enough]
  rfl

/-! ## One line of ASCII -/

/-- A text of visible characters of US-ASCII and blanks. -/
def Printable (text : List Char) : Prop :=
  ∀ char ∈ text, 0x20 ≤ char.toNat ∧ char.toNat < 0x7f

theorem Printable.append {left right : List Char} (first : Printable left)
    (second : Printable right) : Printable (left ++ right) := by
  intro char member
  rcases List.mem_append.mp member with old | new
  · exact first char old
  · exact second char new

theorem Printable.flatMap {α : Type} {items : List α} {text : α → List Char}
    (each : ∀ item ∈ items, Printable (text item)) : Printable (items.flatMap text) := by
  intro char member
  obtain ⟨item, listed, inside⟩ := List.mem_flatMap.mp member
  exact each item listed char inside

theorem digitChar_printable : ∀ digit < 16,
    0x20 ≤ (Nat.digitChar digit).toNat ∧ (Nat.digitChar digit).toNat < 0x7f := by
  decide

theorem printable_hexDigits (width number : Nat) :
    Printable (hexDigits width number) := by
  induction width generalizing number with
  | zero =>
      intro char member
      cases member
  | succ width inductionHypothesis =>
      refine (inductionHypothesis _).append fun char member => ?_
      rw [List.mem_singleton.mp member]
      exact digitChar_printable _ (Nat.mod_lt _ (by decide))

theorem printable_of_letters {first second : Char}
    (both : (0x20 ≤ first.toNat ∧ first.toNat < 0x7f) ∧
      (0x20 ≤ second.toNat ∧ second.toNat < 0x7f)) : Printable [first, second] := by
  intro char member
  rcases List.mem_cons.mp member with rfl | member
  · exact both.1
  · rw [List.mem_singleton.mp member]
    exact both.2

theorem printable_unit (number : Nat) : Printable (['\\', 'u'] ++ hexDigits 4 number) :=
  (printable_of_letters (by decide)).append (printable_hexDigits 4 number)

theorem printable_jsonEscape (char : Char) : Printable (jsonEscape char) := by
  unfold jsonEscape
  dsimp only
  split
  · next special =>
      apply printable_of_letters
      rcases special with rfl | code
      · decide
      · rw [code]
        decide
  split
  · exact printable_of_letters (by decide)
  split
  · exact printable_of_letters (by decide)
  split
  · exact printable_of_letters (by decide)
  split
  · exact printable_of_letters (by decide)
  split
  · exact printable_of_letters (by decide)
  split
  · next printable =>
      intro other member
      rw [List.mem_singleton.mp member]
      exact ⟨printable.1, printable.2⟩
  split
  · exact printable_unit _
  · rw [List.append_assoc]
    exact (printable_unit _).append (printable_unit _)

theorem printable_jsonString (value : String) : Printable (jsonString value) := by
  have quoted : Printable [quote] := by
    unfold Printable
    decide
  exact (quoted.append (Printable.flatMap fun char _ =>
    printable_jsonEscape char)).append quoted

theorem printable_dumpScalar (scalar : Scalar) : Printable (dumpScalar scalar) := by
  cases scalar with
  | text value => exact printable_jsonString value
  | number value =>
      intro char member
      rw [dumpScalar, toList_toString] at member
      have digit := isDigit_of_mem member
      rw [Char.isDigit, Bool.and_eq_true, decide_eq_true_iff, decide_eq_true_iff] at digit
      have least : 48 ≤ char.toNat := digit.1
      have most : char.toNat ≤ 57 := digit.2
      omega

theorem printable_dumpMember (member : String × Scalar) :
    Printable (dumpMember member) := by
  have colon : Printable ": ".toList := by
    unfold Printable
    decide
  exact ((printable_jsonString member.1).append colon).append
    (printable_dumpScalar member.2)

/-- What is dumped is one line. -/
theorem printable_dumps {members : List (String × Scalar)} (some_ : members ≠ []) :
    Printable (dumps members) := by
  obtain ⟨first, members, rfl⟩ := List.exists_cons_of_ne_nil some_
  have comma : Printable ", ".toList := by
    unfold Printable
    decide
  have braces : Printable [opening] ∧ Printable [closing] := by
    unfold Printable
    decide
  have later : Printable (dumpLater members) :=
    Printable.flatMap fun member _ => comma.append (printable_dumpMember member)
  rw [dumps, intercalate_dump]
  exact (braces.1.append ((printable_dumpMember first).append later)).append braces.2

end JsonText
end Python
end PqcScan
