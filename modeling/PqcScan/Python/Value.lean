import PqcScan.Library.Dict
import Mathlib.Algebra.Group.Int.Defs
import Mathlib.Algebra.GroupWithZero.Nat

/-!
# Python values read from JSON

The values `json.loads` returns, and what the language does with them: truth
value, equality of dictionary keys, `str`, and the `dict` constructor.  What
depends on the interpreter's tables (the Unicode database, the shortest
representation of a float) is a parameter, `Text`.
-/

namespace PqcScan
namespace Python

open Library

/-- A binary64 value, kept exactly. -/
inductive PyFloat
  | nan
  | infinite (negative : Bool)
  | finite (negative : Bool) (mantissa : Nat) (exponent : Int)
  deriving DecidableEq, Repr

/-- A value of a JSON document. -/
inductive Json
  | null
  | bool (value : Bool)
  | int (value : Int)
  | float (value : PyFloat)
  | str (value : String)
  | array (items : List Json)
  | object (members : List (String × Json))
  deriving Repr

/-- The exceptions the modelled code catches. -/
inductive PyError
  | valueError (message : String)
  | keyError (key : String)
  | typeError (message : String)
  deriving DecidableEq, Repr

/-- `str(error)`. -/
def PyError.message : PyError → String
  | .valueError message => message
  | .keyError key => "'" ++ key ++ "'"
  | .typeError message => message

/-- The interpreter's character tables and float representation. -/
structure Text where
  isPrintable : Char → Bool
  isAlnum : Char → Bool
  isDecimal : Char → Bool
  sameCase : Char → Char → Bool
  floatRepr : PyFloat → String
  /-- A float prints as a sign, a digit, `inf` or `nan`. -/
  floatRepr_head : ∀ value, ∃ head,
    (floatRepr value).toList.head? = some head ∧
      (head.isDigit = true ∨ head ∈ ['-', 'i', 'n'])

/-- Microseconds of a naive timestamp. -/
abbrev DateTime := Int

/-- Day number of a date. -/
abbrev Date := Int

/-- `bytes`. -/
abbrev Bytes := List UInt8

/-- One byte can count that there are none. -/
theorem length_nil_lt : ([] : Bytes).length < 256 := by decide

/-- The parts of the standard library the model takes as given.
`decompress data limit` is what `decompressobj().decompress(data, limit)`
returns together with its `unconsumed_tail`. -/
structure Runtime extends Text where
  decompress : Bytes → Nat → Except String (Bytes × Bytes)
  jsonLoads : Bytes → Except String Json
  datetimeFromIso : String → Option DateTime
  dateFromIso : String → Option Date

namespace Json

/-- `type(value).__name__`. -/
def typeName : Json → String
  | .null => "NoneType"
  | .bool _ => "bool"
  | .int _ => "int"
  | .float _ => "float"
  | .str _ => "str"
  | .array _ => "list"
  | .object _ => "dict"

/-- `bool(value)`. -/
def truthy : Json → Bool
  | .null => false
  | .bool value => value
  | .int value => value != 0
  | .float (.finite _ mantissa _) => mantissa != 0
  | .float _ => true
  | .str value => value != ""
  | .array items => !items.isEmpty
  | .object members => !members.isEmpty

/-- A number as a multiple of a power of two; `True` is 1 and `False` is 0. -/
def number? : Json → Option (Int × Int)
  | .bool value => some (if value then 1 else 0, 0)
  | .int value => some (value, 0)
  | .float (.finite negative mantissa exponent) =>
      some (if negative then -(mantissa : Int) else mantissa, exponent)
  | _ => none

/-- Equality of numbers of different types. -/
def numberEq (left right : Int × Int) : Bool :=
  let low := min left.2 right.2
  left.1 * 2 ^ (left.2 - low).toNat == right.1 * 2 ^ (right.2 - low).toNat

/-- Equality of two scalars as dictionary keys.  The one NaN object of a
document is its own key. -/
def sameKey : Json → Json → Bool
  | .null, .null => true
  | .str left, .str right => left == right
  | .float .nan, .float .nan => true
  | .float (.infinite left), .float (.infinite right) => left == right
  | left, right =>
      match left.number?, right.number? with
      | some leftNumber, some rightNumber => numberEq leftNumber rightNumber
      | _, _ => false

/-- Lists and dictionaries cannot be dictionary keys. -/
def hashable : Json → Bool
  | .array _ => false
  | .object _ => false
  | _ => true

/-- What `for item in value` visits. -/
def iterate : Json → Option (List Json)
  | .array items => some items
  | .str value => some (value.toList.map fun char => .str (String.singleton char))
  | .object members => some (members.map fun member => .str member.1)
  | _ => none

/-- `value[key]` for a string key. -/
def subscript (value : Json) (key : String) : Except PyError Json :=
  match value with
  | .object members =>
      match lookupEntry key members with
      | some found => .ok found
      | none => .error (.keyError key)
  | .str _ => .error (.typeError "string indices must be integers, not 'str'")
  | .array _ =>
      .error (.typeError "list indices must be integers or slices, not str")
  | other =>
      .error (.typeError ("'" ++ other.typeName ++ "' object is not subscriptable"))

end Json

/-- The members of a JSON object. -/
abbrev JsonObject := List (String × Json)

/-- `mapping.get(key)`. -/
def JsonObject.get? (members : JsonObject) (key : String) : Option Json :=
  lookupEntry key members

/-- `mapping.get(key)` where `None` counts as absent. -/
def JsonObject.getOr (members : JsonObject) (key : String) (default : Json) :
    Json :=
  match members.get? key with
  | none => default
  | some .null => default
  | some value => value

/-! ## `str` and `repr` -/

/-- `width` hexadecimal digits of a number. -/
def hexDigits : Nat → Nat → List Char
  | 0, _ => []
  | width + 1, value => hexDigits width (value / 16) ++ [Nat.digitChar (value % 16)]

/-- The escape of one character in the `repr` of a string. -/
def escapeChar (text : Text) (quote char : Char) : List Char :=
  if char = '\\' ∨ char = quote then ['\\', char]
  else if char = '\t' then ['\\', 't']
  else if char = '\n' then ['\\', 'n']
  else if char = '\r' then ['\\', 'r']
  else if char.toNat < 0x20 ∨ char.toNat = 0x7f then
    ['\\', 'x'] ++ hexDigits 2 char.toNat
  else if char.toNat < 0x7f ∨ text.isPrintable char then [char]
  else if char.toNat ≤ 0xff then ['\\', 'x'] ++ hexDigits 2 char.toNat
  else if char.toNat ≤ 0xffff then ['\\', 'u'] ++ hexDigits 4 char.toNat
  else ['\\', 'U'] ++ hexDigits 8 char.toNat

/-- `repr` of a string: single quotes unless only those occur inside. -/
def reprStr (text : Text) (value : String) : String :=
  let single := Char.ofNat 0x27
  let double := Char.ofNat 0x22
  let quote :=
    if value.toList.contains single && !value.toList.contains double then double
    else single
  String.ofList
    (quote :: value.toList.flatMap (escapeChar text quote) ++ [quote])

mutual

/-- `repr(value)`. -/
def Json.repr (text : Text) : Json → String
  | .null => "None"
  | .bool true => "True"
  | .bool false => "False"
  | .int value => toString value
  | .float value => text.floatRepr value
  | .str value => reprStr text value
  | .array items => "[" ++ ", ".intercalate (reprItems text items) ++ "]"
  | .object members =>
      "\x7b" ++ ", ".intercalate (reprMembers text members) ++ "\x7d"

/-- The items of a list, each in `repr` form. -/
def reprItems (text : Text) : List Json → List String
  | [] => []
  | item :: rest => item.repr text :: reprItems text rest

/-- The members of a dictionary, each in `repr` form. -/
def reprMembers (text : Text) : List (String × Json) → List String
  | [] => []
  | (key, value) :: rest =>
      (reprStr text key ++ ": " ++ value.repr text) :: reprMembers text rest

end

/-- `str(value)`: a string is itself, everything else its `repr`. -/
def Json.toStr (text : Text) : Json → String
  | .str value => value
  | other => other.repr text

/-- The first character of the `repr` of anything but a string. -/
theorem Json.repr_head (text : Text) (value : Json)
    (notString : ∀ string, value ≠ .str string) :
    ∃ head, (value.repr text).toList.head? = some head ∧
      (head.isDigit = true ∨
        head ∈ ['-', 'i', 'n', 'N', 'T', 'F', '[', Char.ofNat 0x7b]) := by
  cases value with
  | null => exact ⟨'N', by simp [Json.repr], by simp⟩
  | bool value =>
      cases value with
      | false => exact ⟨'F', by simp [Json.repr], by simp⟩
      | true => exact ⟨'T', by simp [Json.repr], by simp⟩
  | int value =>
      cases value with
      | ofNat value =>
          obtain ⟨head, rest, digits⟩ :=
            List.exists_cons_of_ne_nil (Nat.toDigits_ne_nil (n := value) (b := 10))
          refine ⟨head, ?_, Or.inl ?_⟩
          · change (Nat.repr value).toList.head? = some head
            rw [Nat.toList_repr, digits]
            rfl
          · exact Nat.isDigit_of_mem_toDigits (by decide) (by decide)
              (digits ▸ List.mem_cons_self)
      | negSucc value =>
          refine ⟨'-', ?_, by simp⟩
          change ("-" ++ Nat.repr (value + 1)).toList.head? = some '-'
          simp
  | float value =>
      obtain ⟨head, first, allowed⟩ := text.floatRepr_head value
      exact ⟨head, first, allowed.imp_right (by simp; tauto)⟩
  | str value => exact absurd rfl (notString value)
  | array items => exact ⟨'[', by simp [Json.repr], by simp⟩
  | object members =>
      exact ⟨Char.ofNat 0x7b, by simp [Json.repr], by simp⟩

/-- A value whose `str` starts like no `repr` is the string itself. -/
theorem Json.eq_str_of_toStr (text : Text) {value : Json} {string : String}
    {head : Char} (printed : value.toStr text = string)
    (first : string.toList.head? = some head)
    (letter : head.isDigit = false)
    (foreign : head ∉ ['-', 'i', 'n', 'N', 'T', 'F', '[', Char.ofNat 0x7b]) :
    value = .str string := by
  by_cases isString : ∃ content, value = .str content
  · obtain ⟨content, rfl⟩ := isString
    exact congrArg Json.str printed
  · have notString : ∀ content, value ≠ .str content :=
      fun content equal => isString ⟨content, equal⟩
    have asRepr : value.toStr text = value.repr text := by
      cases value with
      | str content => exact absurd rfl (notString content)
      | _ => rfl
    obtain ⟨other, otherFirst, allowed⟩ := Json.repr_head text value notString
    rw [← asRepr, printed, first, Option.some_inj] at otherFirst
    subst otherFirst
    rw [letter] at allowed
    exact absurd (allowed.resolve_left Bool.false_ne_true) foreign

/-! ## `dict` -/

/-- `dict[key] = value` on keys of any hashable type. -/
def insertPair (key value : Json) : List (Json × Json) → List (Json × Json)
  | [] => [(key, value)]
  | entry :: rest =>
      if entry.1.sameKey key then (entry.1, value) :: rest
      else entry :: insertPair key value rest

/-- `dict(items)` for a sequence of pairs, from element number `index` on. -/
def dictOfPairs (index : Nat) :
    List Json → List (Json × Json) → Except PyError (List (Json × Json))
  | [], entries => .ok entries
  | item :: rest, entries =>
      match item.iterate with
      | none =>
          .error (.typeError
            s!"cannot convert dictionary update sequence element #{index} to a sequence")
      | some [key, value] =>
          if key.hashable then
            dictOfPairs (index + 1) rest (insertPair key value entries)
          else
            .error (.typeError ("unhashable type: '" ++ key.typeName ++ "'"))
      | some other =>
          .error (.valueError
            (s!"dictionary update sequence element #{index} has length {other.length}; " ++
              "2 is required"))

/-- `dict(value)`. -/
def dictOf (value : Json) : Except PyError (List (Json × Json)) :=
  match value with
  | .object members => .ok (members.map fun member => (.str member.1, member.2))
  | other =>
      match other.iterate with
      | some items => dictOfPairs 0 items []
      | none =>
          .error (.typeError ("'" ++ other.typeName ++ "' object is not iterable"))

/-- The key under which a JSON column stores a dictionary key. -/
def columnKey (text : Text) : Json → String
  | .null => "null"
  | .bool true => "true"
  | .bool false => "false"
  | .float .nan => "NaN"
  | .float (.infinite true) => "-Infinity"
  | .float (.infinite false) => "Infinity"
  | other => other.toStr text

/-- A dictionary as a JSON column stores it and gives it back. -/
def columnDict (text : Text) (entries : List (Json × Json)) : Dict String Json :=
  Dict.ofList (entries.map fun entry => (columnKey text entry.1, entry.2))

/-- `dict(value or {})`, as a JSON column stores it. -/
def dictOrEmpty (text : Text) : Option Json → Except PyError (Dict String Json)
  | none => .ok Dict.empty
  | some value =>
      if value.truthy then (dictOf value).map (columnDict text)
      else .ok Dict.empty

/-! ## Which keys `dict` builds -/

/-- Some entry has the string as its key. -/
def HasKey (key : String) (entries : List (Json × Json)) : Prop :=
  ∃ entry ∈ entries, entry.1 = .str key

/-- The element of a sequence that becomes an entry under the string. -/
def PairsKey (key : String) (item : Json) : Prop :=
  ∃ value, item.iterate = some [.str key, value]

@[simp] theorem not_hasKey_nil (key : String) : ¬ HasKey key [] := by
  simp [HasKey]

@[simp] theorem hasKey_cons (key : String) (entry : Json × Json)
    (rest : List (Json × Json)) :
    HasKey key (entry :: rest) ↔ entry.1 = .str key ∨ HasKey key rest := by
  simp [HasKey]

/-- Only a string equals a string as a key. -/
theorem Json.sameKey_str_right {left : Json} {content : String} :
    left.sameKey (.str content) = true ↔ left = .str content := by
  cases left <;> simp [Json.sameKey, Json.number?]

theorem hasKey_insertPair (string : String) (key value : Json)
    (entries : List (Json × Json)) :
    HasKey string (insertPair key value entries) ↔
      key = .str string ∨ HasKey string entries := by
  induction entries with
  | nil => simp [insertPair]
  | cons entry rest inductionHypothesis =>
      by_cases same : entry.1.sameKey key = true
      · have agree : key = .str string → entry.1 = .str string := by
          rintro rfl
          exact Json.sameKey_str_right.mp same
        rw [insertPair, if_pos same, hasKey_cons, hasKey_cons]
        tauto
      · rw [insertPair, if_neg same, hasKey_cons, hasKey_cons,
          inductionHypothesis]
        tauto

/-- The string keys of `dict(items)` are those that some pair carries. -/
theorem hasKey_dictOfPairs {string : String} {index : Nat} {items : List Json}
    {entries built : List (Json × Json)}
    (success : dictOfPairs index items entries = .ok built) :
    HasKey string built ↔
      HasKey string entries ∨ ∃ item ∈ items, PairsKey string item := by
  induction items generalizing index entries with
  | nil =>
      cases success
      simp
  | cons item rest inductionHypothesis =>
      rw [dictOfPairs] at success
      split at success
      · cases success
      · next key value visited =>
          split at success
          · have carried : PairsKey string item ↔ key = .str string := by
              simp [PairsKey, visited]
            rw [inductionHypothesis success, hasKey_insertPair]
            simp only [List.mem_cons, exists_eq_or_imp, carried]
            tauto
          · cases success
      · cases success

/-- A string is a dictionary only when it is empty. -/
theorem dictOfPairs_chars {index : Nat} {chars : List Char}
    {entries built : List (Json × Json)}
    (success : dictOfPairs index
      (chars.map fun char => .str (String.singleton char)) entries = .ok built) :
    built = entries := by
  cases chars with
  | nil =>
      cases success
      rfl
  | cons char rest => simp [dictOfPairs, Json.iterate] at success

/-- The string keys of `dict(value)`. -/
theorem hasKey_dictOf {string : String} {value : Json}
    {built : List (Json × Json)} (success : dictOf value = .ok built) :
    HasKey string built ↔
      (∃ members, value = .object members ∧ ∃ member ∈ members, member.1 = string) ∨
        ∃ items, value = .array items ∧ ∃ item ∈ items, PairsKey string item := by
  cases value with
  | object members =>
      cases success
      simp [HasKey]
  | array items =>
      rw [dictOf] at success
      · simp only [Json.iterate] at success
        simp [hasKey_dictOfPairs success]
      · simp
  | str content =>
      rw [dictOf] at success
      · simp only [Json.iterate] at success
        simp [dictOfPairs_chars success]
      · simp
  | _ => simp [dictOf, Json.iterate] at success

/-- A key that no scalar prints is stored only for the string itself. -/
theorem columnKey_eq_iff (text : Text) {key : Json} {string : String} {head : Char}
    (first : string.toList.head? = some head)
    (letter : head.isDigit = false)
    (foreign : head ∉ ['-', 'i', 'n', 'N', 'T', 'F', '[', Char.ofNat 0x7b])
    (notConstant : string ∉ ["null", "true", "false", "NaN", "-Infinity", "Infinity"]) :
    columnKey text key = string ↔ key = .str string := by
  constructor
  · intro stored
    have printed : key.toStr text = string → key = .str string := fun equal =>
      Json.eq_str_of_toStr text equal first letter foreign
    unfold columnKey at stored
    split at stored <;>
      first
        | exact printed stored
        | exact absurd (stored ▸ by simp) notConstant
  · rintro rfl
    rfl

theorem mem_keys_columnDict (text : Text) (entries : List (Json × Json))
    (string : String) :
    string ∈ (columnDict text entries).keys ↔
      ∃ entry ∈ entries, columnKey text entry.1 = string := by
  rw [columnDict, Dict.mem_keys_ofList, List.map_map]
  simp

/-! ## `json.dumps` -/

/-- One character of a string in ASCII JSON text. -/
def jsonEscape (char : Char) : List Char :=
  let code := char.toNat
  if char = '\\' ∨ code = 0x22 then ['\\', char]
  else if char = '\n' then ['\\', 'n']
  else if char = '\r' then ['\\', 'r']
  else if char = '\t' then ['\\', 't']
  else if code = 0x08 then ['\\', 'b']
  else if code = 0x0c then ['\\', 'f']
  else if 0x20 ≤ code ∧ code < 0x7f then [char]
  else if code ≤ 0xffff then ['\\', 'u'] ++ hexDigits 4 code
  else
    ['\\', 'u'] ++ hexDigits 4 (0xd800 + (code - 0x10000) / 0x400) ++
      ['\\', 'u'] ++ hexDigits 4 (0xdc00 + (code - 0x10000) % 0x400)

/-- `json.dumps` of a string. -/
def jsonString (value : String) : List Char :=
  let quote := Char.ofNat 0x22
  quote :: value.toList.flatMap jsonEscape ++ [quote]

mutual

/-- `json.dumps(value, separators=(",", ":"))`. -/
def jsonDumps (text : Text) : Json → List Char
  | .null => "null".toList
  | .bool true => "true".toList
  | .bool false => "false".toList
  | .int value => (toString value).toList
  | .float .nan => "NaN".toList
  | .float (.infinite true) => "-Infinity".toList
  | .float (.infinite false) => "Infinity".toList
  | .float value => (text.floatRepr value).toList
  | .str value => jsonString value
  | .array items => '[' :: [','].intercalate (dumpItems text items) ++ [']']
  | .object members =>
      Char.ofNat 0x7b :: [','].intercalate (dumpMembers text members) ++
        [Char.ofNat 0x7d]

/-- The items of an array. -/
def dumpItems (text : Text) : List Json → List (List Char)
  | [] => []
  | item :: rest => jsonDumps text item :: dumpItems text rest

/-- The members of an object. -/
def dumpMembers (text : Text) : List (String × Json) → List (List Char)
  | [] => []
  | (key, value) :: rest =>
      (jsonString key ++ ':' :: jsonDumps text value) :: dumpMembers text rest

end

/-! ## A runtime for given documents -/

/-- The ASCII part of the character tables.  The only floats printed are the
special values and zero. -/
def asciiText : Text where
  isPrintable char := 0x20 ≤ char.toNat && char.toNat < 0x7f
  isAlnum := Char.isAlphanum
  isDecimal := Char.isDigit
  sameCase left right := left.toLower == right.toLower
  floatRepr
    | .nan => "nan"
    | .infinite negative => if negative then "-inf" else "inf"
    | .finite negative _ _ => if negative then "-0.0" else "0.0"
  floatRepr_head value := by
    cases value with
    | nan => exact ⟨'n', by simp⟩
    | infinite negative => cases negative <;> simp
    | finite negative mantissa exponent => cases negative <;> simp

/-- The gzip stream with one stored block; `crc` is the CRC-32 of the content,
low byte first. -/
def storedGzip (raw crc : Bytes) : Bytes :=
  let low := UInt8.ofNat (raw.length % 256)
  let high := UInt8.ofNat (raw.length / 256)
  [0x1f, 0x8b, 8, 0, 0, 0, 0, 0, 0, 0xff, 1, low, high, 255 - low, 255 - high] ++
    raw ++ crc ++ [low, high, 0, 0]

/-- A document: its value, and the CRC-32 of its compact JSON text. -/
structure Document where
  value : Json
  crc : Bytes

namespace Document

/-- The JSON text. -/
def raw (document : Document) : Bytes :=
  (jsonDumps asciiText document.value).map fun char => UInt8.ofNat char.toNat

/-- The compressed document. -/
def data (document : Document) : Bytes := storedGzip document.raw document.crc

end Document

/-- A runtime that reads the given documents and nothing else. -/
def Runtime.ofDocuments (documents : List Document) : Runtime where
  toText := asciiText
  decompress data limit :=
    match documents.find? fun document => document.data == data with
    | some document => .ok (document.raw.take limit, document.raw.drop limit)
    | none =>
        .error "Error -3 while decompressing data: incorrect header check"
  jsonLoads raw :=
    match documents.find? fun document => document.raw == raw with
    | some document => .ok document.value
    | none => .error "Expecting value: line 1 column 1 (char 0)"
  datetimeFromIso _ := none
  dateFromIso _ := none

end Python
end PqcScan
