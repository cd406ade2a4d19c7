import PqcScan.Python.Value
import Mathlib.Data.List.Basic

/-!
# What `repr` tells apart

The `repr` of a string ends where its quote comes again, so strings, and lists of strings,
with the same `repr` are the same.
-/

namespace PqcScan
namespace Python

/-! ## Escapes -/

theorem digitChar_injective : ∀ digit < 16, ∀ other < 16,
    Nat.digitChar digit = Nat.digitChar other → digit = other := by
  decide

theorem hexDigits_length (width number : Nat) :
    (hexDigits width number).length = width := by
  induction width generalizing number with
  | zero => rfl
  | succ width inductionHypothesis =>
      rw [hexDigits, List.length_append, inductionHypothesis, List.length_singleton]

theorem hexDigits_injective {width number other : Nat} (small : number < 16 ^ width)
    (small' : other < 16 ^ width)
    (same : hexDigits width number = hexDigits width other) :
    number = other := by
  induction width generalizing number other with
  | zero => omega
  | succ width inductionHypothesis =>
      rw [hexDigits, hexDigits] at same
      rw [Nat.pow_succ] at small small'
      obtain ⟨high, low⟩ := List.append_inj' same rfl
      have high := inductionHypothesis (Nat.div_lt_of_lt_mul (by omega))
        (Nat.div_lt_of_lt_mul (by omega)) high
      have low := digitChar_injective _ (Nat.mod_lt _ (by decide))
        _ (Nat.mod_lt _ (by decide))
        (List.cons.inj low).1
      omega

/-- The character that a letter behind a backslash stands for, if it is no number. -/
def escapeMeaning (letter : Char) : Char :=
  if letter = 't' then '\t' else if letter = 'n' then '\n' else if letter = 'r' then '\r'
  else letter

/-- The number of digits behind a backslash and a letter. -/
def escapeWidth (letter : Char) : Nat :=
  if letter = 'x' then 2 else if letter = 'u' then 4 else 8

/-- The forms of a character in a `repr`. -/
inductive Escape (quote char : Char) : List Char → Prop
  | plain (solid : char ≠ '\\') (other : char ≠ quote) : Escape quote char [char]
  | letter (letter : Char) (short : letter ∉ ['x', 'u', 'U'])
      (meaning : escapeMeaning letter = char) : Escape quote char ['\\', letter]
  | number (letter : Char) (long : letter ∈ ['x', 'u', 'U'])
      (small : char.toNat < 16 ^ escapeWidth letter) :
      Escape quote char ('\\' :: letter :: hexDigits (escapeWidth letter) char.toNat)

/-- The quotes of `repr`. -/
def quotes : List Char := ['\'', '"']

theorem forall_quotes {property : Char → Prop} (single : property '\'')
    (double : property '"') :
    ∀ quote ∈ quotes, property quote := by
  intro quote member
  rw [quotes, List.mem_cons, List.mem_singleton] at member
  rcases member with rfl | rfl
  · exact single
  · exact double

theorem escapeChar_escape (text : Text) {quote : Char} (isQuote : quote ∈ quotes)
    (char : Char) :
    Escape quote char (escapeChar text quote char) := by
  have letters : ∀ quote ∈ quotes, quote ∉ ['x', 'u', 'U'] ∧
      escapeMeaning quote = quote :=
    forall_quotes (by decide) (by decide)
  have quoteLetter := letters quote isQuote
  have bound : char.toNat < 16 ^ 8 := char.val.toNat_lt
  rw [escapeChar]
  split
  · next special =>
    rcases special with rfl | rfl
    · exact .letter '\\' (by decide) (by decide)
    · exact .letter char quoteLetter.1 quoteLetter.2
  next common =>
  rw [not_or] at common
  split
  · next tab => exact .letter 't' (by decide) tab.symm
  split
  · next newline => exact .letter 'n' (by decide) newline.symm
  split
  · next carriage => exact .letter 'r' (by decide) carriage.symm
  split
  · next control => exact .number 'x' (by decide) (by change char.toNat < 256; omega)
  split
  · exact .plain common.1 common.2
  split
  · next byte => exact .number 'x' (by decide) (by change char.toNat < 256; omega)
  split
  · next word => exact .number 'u' (by decide) (by change char.toNat < 65536; omega)
  · exact .number 'U' (by decide) bound

section Escapes

variable {quote char other : Char} {front front' rest rest' : List Char}

/-- No escape begins another, and each stands for one character. -/
theorem Escape.append (escape : Escape quote char front)
    (escape' : Escape quote other front')
    (same : front ++ rest = front' ++ rest') : char = other ∧ rest = rest' := by
  cases escape with
  | plain solid _ =>
      cases escape' with
      | plain => exact List.cons.inj same
      | letter => exact absurd (List.cons.inj same).1 solid
      | number => exact absurd (List.cons.inj same).1 solid
  | letter letter short meaning =>
      cases escape' with
      | plain solid _ => exact absurd (List.cons.inj same).1.symm solid
      | letter letter' _ meaning' =>
          obtain ⟨rfl, tail⟩ := List.cons.inj (List.cons.inj same).2
          exact ⟨meaning.symm.trans meaning', tail⟩
      | number letter' long _ =>
          rw [(List.cons.inj (List.cons.inj same).2).1] at short
          exact absurd long short
  | number letter long small =>
      cases escape' with
      | plain solid _ => exact absurd (List.cons.inj same).1.symm solid
      | letter letter' short _ =>
          rw [← (List.cons.inj (List.cons.inj same).2).1] at short
          exact absurd long short
      | number letter' _ small' =>
          obtain ⟨rfl, tail⟩ := List.cons.inj (List.cons.inj same).2
          obtain ⟨digits, tail⟩ := List.append_inj tail
            (by rw [hexDigits_length, hexDigits_length])
          exact ⟨Char.toNat_inj.mp (hexDigits_injective small small' digits), tail⟩

/-- An escape does not begin with the quote. -/
theorem Escape.append_ne (isQuote : quote ∈ quotes) (escape : Escape quote char front) :
    front ++ rest ≠ quote :: rest' := by
  have other : ∀ quote ∈ quotes, '\\' ≠ quote := forall_quotes (by decide) (by decide)
  intro same
  cases escape with
  | plain _ solid => exact solid (List.cons.inj same).1
  | letter => exact other quote isQuote (List.cons.inj same).1
  | number => exact other quote isQuote (List.cons.inj same).1

end Escapes

/-! ## Strings -/

theorem flatMap_escape_append (text : Text) {quote : Char} (isQuote : quote ∈ quotes)
    {value value' rest rest' : List Char}
    (same : value.flatMap (escapeChar text quote) ++ quote :: rest =
      value'.flatMap (escapeChar text quote) ++ quote :: rest') :
        value = value' ∧ rest = rest' := by
  induction value generalizing value' with
  | nil =>
      cases value' with
      | nil => exact ⟨rfl, (List.cons.inj same).2⟩
      | cons char value' =>
          rw [List.flatMap_cons, List.append_assoc] at same
          exact absurd same.symm ((escapeChar_escape text isQuote char).append_ne isQuote)
  | cons char value inductionHypothesis =>
      rw [List.flatMap_cons, List.append_assoc] at same
      cases value' with
      | nil => exact absurd same ((escapeChar_escape text isQuote char).append_ne isQuote)
      | cons char' value' =>
          rw [List.flatMap_cons, List.append_assoc] at same
          obtain ⟨rfl, later⟩ := (escapeChar_escape text isQuote char).append
            (escapeChar_escape text isQuote char') same
          obtain ⟨rfl, tail⟩ := inductionHypothesis later
          exact ⟨rfl, tail⟩

/-- The quote of a string. -/
theorem reprStr_eq (text : Text) (value : List Char) : ∃ quote ∈ quotes,
    (reprStr text (String.ofList value)).toList =
      quote :: (value.flatMap (escapeChar text quote) ++ [quote]) := by
  rw [reprStr]
  simp only [String.toList_ofList, List.cons_append]
  split
  · exact ⟨'"', by simp [quotes], rfl⟩
  · exact ⟨'\'', by simp [quotes], rfl⟩

/-- A string is told from its `repr`, whatever follows. -/
theorem reprStr_append (text : Text) {value value' rest rest' : List Char}
    (same : (reprStr text (String.ofList value)).toList ++ rest =
      (reprStr text (String.ofList value')).toList ++ rest') :
        value = value' ∧ rest = rest' := by
  obtain ⟨quote, isQuote, shape⟩ := reprStr_eq text value
  obtain ⟨quote', -, shape'⟩ := reprStr_eq text value'
  rw [shape, shape', List.cons_append, List.cons_append, List.append_assoc,
    List.append_assoc]
    at same
  obtain ⟨rfl, later⟩ := List.cons.inj same
  exact flatMap_escape_append text isQuote later

/-! ## Lists of strings -/

/-- What stands between the brackets of a list of strings. -/
def reprStrings (text : Text) (items : List (List Char)) : List Char :=
  (", ".intercalate
    (reprItems text (items.map fun item => .str (String.ofList item)))).toList

theorem reprStrings_cons (text : Text) (item : List Char) (items : List (List Char)) :
    reprStrings text (item :: items) = (reprStr text (String.ofList item)).toList ++
      if items = [] then [] else ", ".toList ++ reprStrings text items := by
  cases items with
  | nil => simp [reprStrings, reprItems, Json.repr]
  | cons other items =>
      simp [reprStrings, reprItems, Json.repr, String.intercalate_cons_cons]

/-- A list of strings is told from its `repr`. -/
theorem reprStrings_injective (text : Text) {items items' : List (List Char)}
    (same : reprStrings text items ++ [']'] = reprStrings text items' ++ [']']) :
    items = items' := by
  have apart : ∀ quote ∈ quotes, ']' ≠ quote := forall_quotes (by decide) (by decide)
  have comma : ", ".toList = [',', ' '] := by decide
  have closed : ∀ item items, [']'] ≠ reprStrings text (item :: items) ++ [']'] := by
    intro item items same
    obtain ⟨quote, isQuote, shape⟩ := reprStr_eq text item
    rw [reprStrings_cons, shape] at same
    exact apart quote isQuote (List.cons.inj same).1
  induction items generalizing items' with
  | nil =>
      cases items' with
      | nil => rfl
      | cons item items' => exact absurd same (closed item items')
  | cons item items inductionHypothesis =>
      cases items' with
      | nil => exact absurd same.symm (closed item items)
      | cons item' items' =>
          rw [reprStrings_cons, reprStrings_cons, List.append_assoc,
            List.append_assoc] at same
          obtain ⟨rfl, later⟩ := reprStr_append text same
          refine congrArg (List.cons item) ?_
          by_cases last : items = [] <;> by_cases last' : items' = []
          · rw [last, last']
          · rw [if_pos last, if_neg last', comma] at later
            exact absurd (List.cons.inj later).1 (by decide)
          · rw [if_neg last, if_pos last', comma] at later
            exact absurd (List.cons.inj later).1 (by decide)
          · rw [if_neg last, if_neg last', List.append_assoc, List.append_assoc,
              List.append_cancel_left_eq] at later
            exact inductionHypothesis later

end Python
end PqcScan
