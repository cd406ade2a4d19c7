import Mathlib.Data.List.Basic

/-!
# Base64

Three bytes in four letters, with equals signs for what the last group lacks.
-/

namespace PqcScan
namespace Library
namespace Base64

/-- The letters in the order of their values. -/
def alphabet : List Char :=
  "ABCDEFGHIJKLMNOPQRSTUVWXYZabcdefghijklmnopqrstuvwxyz0123456789+/".toList

/-- The letter of six bits. -/
def letter (value : Nat) : Char := alphabet.getD value '='

/-- The six bits of a letter. -/
def value (char : Char) : Option Nat :=
  if alphabet.contains char then some (alphabet.idxOf char) else none

/-- The characters of the bytes, padded. -/
def encode : List UInt8 → List Char
  | [] => []
  | [a] => [letter (a.toNat / 4), letter (a.toNat % 4 * 16), '=', '=']
  | [a, b] =>
      [letter (a.toNat / 4), letter (a.toNat % 4 * 16 + b.toNat / 16),
        letter (b.toNat % 16 * 4), '=']
  | a :: b :: c :: rest =>
      letter (a.toNat / 4) :: letter (a.toNat % 4 * 16 + b.toNat / 16) ::
        letter (b.toNat % 16 * 4 + c.toNat / 64) :: letter (c.toNat % 64) :: encode rest

/-- The text of a whole number of groups, or nothing where another character or a sign of
a missing byte stands inside. -/
def decode : List Char → Option (List UInt8)
  | [] => some []
  | a :: b :: c :: d :: rest => do
      let a ← value a
      let b ← value b
      let first := UInt8.ofNat (a * 4 + b / 16)
      if c = '=' then if d = '=' ∧ rest = [] then some [first] else none
      else
        let c ← value c
        let second := UInt8.ofNat (b % 16 * 16 + c / 4)
        if d = '=' then if rest = [] then some [first, second] else none
        else
          let d ← value d
          let others ← decode rest
          pure (first :: second :: UInt8.ofNat (c % 4 * 64 + d) :: others)
  | _ => none

theorem letter_mem {value : Nat} (small : value < 64) : letter value ∈ alphabet := by
  have all : ∀ value : Fin 64, letter value ∈ alphabet := by decide +kernel
  exact all ⟨value, small⟩

theorem letter_ne_pad {value : Nat} (small : value < 64) : letter value ≠ '=' := by
  have all : ∀ value : Fin 64, letter value ≠ '=' := by decide +kernel
  exact all ⟨value, small⟩

theorem value_letter {bits : Nat} (small : bits < 64) :
    value (letter bits) = some bits := by
  have all : ∀ bits : Fin 64, value (letter bits) = some bits.val := by decide +kernel
  exact all ⟨bits, small⟩

/-- The characters of an encoded text. -/
theorem mem_encode {bytes : List UInt8} {char : Char} (member : char ∈ encode bytes) :
    char ∈ alphabet ∨ char = '=' := by
  fun_induction encode bytes with
  | case1 => cases member
  | case2 a =>
      have bound := a.toNat_lt
      simp only [List.mem_cons, List.not_mem_nil, or_false] at member
      rcases member with rfl | rfl | rfl | rfl
      · exact .inl (letter_mem (by omega))
      · exact .inl (letter_mem (by omega))
      · exact .inr rfl
      · exact .inr rfl
  | case3 a b =>
      have bound := a.toNat_lt
      have bound' := b.toNat_lt
      simp only [List.mem_cons, List.not_mem_nil, or_false] at member
      rcases member with rfl | rfl | rfl | rfl
      · exact .inl (letter_mem (by omega))
      · exact .inl (letter_mem (by omega))
      · exact .inl (letter_mem (by omega))
      · exact .inr rfl
  | case4 a b c rest inductionHypothesis =>
      have bound := a.toNat_lt
      have bound' := b.toNat_lt
      have bound'' := c.toNat_lt
      simp only [List.mem_cons] at member
      rcases member with rfl | rfl | rfl | rfl | later
      · exact .inl (letter_mem (by omega))
      · exact .inl (letter_mem (by omega))
      · exact .inl (letter_mem (by omega))
      · exact .inl (letter_mem (by omega))
      · exact inductionHypothesis later

theorem encode_ne_nil {bytes : List UInt8} (filled : bytes ≠ []) : encode bytes ≠ [] := by
  match bytes, filled with
  | [_], _ => exact List.cons_ne_nil _ _
  | [_, _], _ => exact List.cons_ne_nil _ _
  | _ :: _ :: _ :: _, _ => exact List.cons_ne_nil _ _

/-- What is encoded is decoded. -/
theorem decode_encode (bytes : List UInt8) : decode (encode bytes) = some bytes := by
  have join : ∀ {byte : UInt8} {n : Nat}, n = byte.toNat → UInt8.ofNat n = byte := by
    rintro byte _ rfl
    exact UInt8.ofNat_toNat
  fun_induction encode bytes with
  | case1 => rfl
  | case2 a =>
      have bound := a.toNat_lt
      rw [decode, value_letter (by omega), value_letter (by omega)]
      simp only [Option.bind_eq_bind, Option.bind_some, if_true, and_self]
      rw [@join a _ (by omega)]
  | case3 a b =>
      have bound := a.toNat_lt
      have bound' := b.toNat_lt
      rw [decode, value_letter (by omega), value_letter (by omega)]
      simp only [Option.bind_eq_bind, Option.bind_some]
      rw [if_neg (letter_ne_pad (by omega)), value_letter (by omega)]
      simp only [Option.bind_some, if_true]
      rw [@join a _ (by omega), @join b _ (by omega)]
  | case4 a b c rest inductionHypothesis =>
      have bound := a.toNat_lt
      have bound' := b.toNat_lt
      have bound'' := c.toNat_lt
      rw [decode, value_letter (by omega), value_letter (by omega)]
      simp only [Option.bind_eq_bind, Option.bind_some]
      rw [if_neg (letter_ne_pad (by omega)), value_letter (by omega)]
      simp only [Option.bind_some]
      rw [if_neg (letter_ne_pad (by omega)), value_letter (by omega), inductionHypothesis,
        @join a _ (by omega), @join b _ (by omega)]
      simp only [Option.bind_some]
      rw [@join c _ (by omega)]
      rfl

end Base64
end Library
end PqcScan
