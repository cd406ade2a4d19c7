import PqcScan.Python.Value

/-!
# UTF-8 with replacement

`bytes.decode("utf-8", errors="replace")`: every longest start of an ill-formed sequence
becomes one replacement character.
-/

namespace PqcScan
namespace Python

/-- The replacement character. -/
def replacement : Char := Char.ofNat 0xFFFD

/-- How many bytes continue a sequence that a byte starts, and the bounds of the first. -/
def leads (byte : Nat) : Option (Nat × Nat × Nat) :=
  if 0xC2 ≤ byte ∧ byte ≤ 0xDF then some (1, 0x80, 0xBF)
  else if byte = 0xE0 then some (2, 0xA0, 0xBF)
  else if byte = 0xED then some (2, 0x80, 0x9F)
  else if 0xE1 ≤ byte ∧ byte ≤ 0xEF then some (2, 0x80, 0xBF)
  else if byte = 0xF0 then some (3, 0x90, 0xBF)
  else if byte = 0xF4 then some (3, 0x80, 0x8F)
  else if 0xF1 ≤ byte ∧ byte ≤ 0xF3 then some (3, 0x80, 0xBF)
  else none

/-- The bytes that continue a sequence, at most as many as its first byte asks for. -/
def continuation : Nat → Nat → Nat → Bytes → List Nat
  | count + 1, low, high, byte :: rest =>
      if low ≤ byte.toNat ∧ byte.toNat ≤ high then
        byte.toNat :: continuation count 0x80 0xBF rest
      else []
  | _, _, _, _ => []

/-- The character of a sequence. -/
def sequenceChar (byte : Nat) (tail : List Nat) : Char :=
  Char.ofNat (tail.foldl (fun code next =>
    code * 64 + next % 64) (byte % 2 ^ (6 - tail.length)))

/-- The loop of the decoder; every round takes one byte at least. -/
def decodeLoop : Nat → Bytes → List Char
  | fuel + 1, byte :: rest =>
      if byte < 128 then Char.ofNat byte.toNat :: decodeLoop fuel rest
      else
        match leads byte.toNat with
        | none => replacement :: decodeLoop fuel rest
        | some (count, low, high) =>
            let tail := continuation count low high rest
            (if tail.length = count then sequenceChar byte.toNat tail else replacement) ::
              decodeLoop fuel (rest.drop tail.length)
  | _, _ => []

/-- `decode("utf-8", errors="replace")`. -/
def decodeUtf8 (raw : Bytes) : List Char := decodeLoop raw.length raw

/-- US-ASCII bytes are their characters. -/
theorem decodeUtf8_of_ascii {raw : Bytes} (ascii : ∀ byte ∈ raw, byte < 128) :
    decodeUtf8 raw = raw.map fun byte => Char.ofNat byte.toNat := by
  unfold decodeUtf8
  induction raw with
  | nil => rfl
  | cons byte rest inductionHypothesis =>
      rw [List.length_cons, decodeLoop, if_pos (ascii byte List.mem_cons_self),
        List.map_cons, inductionHypothesis fun other member =>
          ascii other (List.mem_cons_of_mem _ member)]

/-- A character of two bytes, one of three, and a sequence that is cut short. -/
example : decodeUtf8 [0xC3, 0xA9, 0xE2, 0x82, 0xAC, 0xE2, 0x82, 0x41] =
    [Char.ofNat 0xE9, Char.ofNat 0x20AC, replacement, 'A'] := by
  decide

end Python
end PqcScan
