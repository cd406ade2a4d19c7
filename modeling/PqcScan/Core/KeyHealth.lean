import Mathlib.FieldTheory.Finite.Basic

/-!
# Health of RSA moduli

`core/keyhealth.py`: the fingerprint of the keys that RSALib generated, and the verdict on
a public modulus.
-/

namespace PqcScan
namespace Core
namespace Moduli

/-- `_ROCA_PRIMES`. -/
def rocaPrimes : List Nat :=
  [3, 5, 7, 11, 13, 17, 19, 23, 29, 31, 37, 41, 43, 47, 53, 59, 61, 67, 71, 73, 79, 83,
    89, 97, 101, 103, 107, 109, 113, 127, 131, 137, 139, 149, 151, 157, 163, 167]

/-- The loop of `_multiplicative_order`, with a bound of the rounds that are left. -/
def orderLoop (a m : Nat) : Nat → Nat → Nat → Nat
  | 0, _, _ => 0
  | rounds + 1, val, order =>
      if val = 1 then order
      else if m < order + 1 then 0
      else orderLoop a m rounds (val * a % m) (order + 1)

/-- `_multiplicative_order`, for a positive modulus. -/
def multiplicativeOrder (a m : Nat) : Nat :=
  if Nat.gcd a m ≠ 1 then 0 else orderLoop a m (m + 1) (a % m) 1

/-- The residues that `is_roca_vulnerable` collects for a prime. -/
def powersLoop (generator prime : Nat) : Nat → Nat → List Nat
  | 0, _ => []
  | rounds + 1, val => val :: powersLoop generator prime rounds (val * generator % prime)

/-- The generator of the weak keys. -/
def generator : Nat := 65537

/-- The round of `is_roca_vulnerable` for a prime does not end the test. -/
def bearsFingerprint (modulus prime : Nat) : Bool :=
  let order := multiplicativeOrder generator prime
  order == 0 || (powersLoop generator prime order 1).contains (modulus % prime)

/-- `is_roca_vulnerable`. -/
def isRocaVulnerable (modulus : Nat) : Bool :=
  !decide (modulus < 3) && rocaPrimes.all (bearsFingerprint modulus)

/-- `KeyHealth`. -/
structure KeyHealth where
  ok : Bool
  issues : List String
  deriving DecidableEq

/-- The issue of a short modulus. -/
def smallIssue (bits : Nat) : String :=
  "RSA modulus is only " ++ toString bits ++ " bits — factorable with current compute"

/-- The issue of a ROCA key. -/
def rocaIssue : String :=
  "ROCA (CVE-2017-15361): Infineon RSALib key, practically factorable"

/-- `analyze_rsa_modulus`. -/
def analyzeRsaModulus (modulus : Nat) (bitLength : Option Nat) : KeyHealth :=
  let bits := bitLength.getD modulus.size
  let issues := (if bits < 1024 then [smallIssue bits] else []) ++
    if isRocaVulnerable modulus then [rocaIssue] else []
  ⟨issues.isEmpty, issues⟩

/-! ## Powers modulo a number -/

section Powers

variable {a m : Nat}

theorem pow_succ_mod (a m k : Nat) : a ^ k % m * a % m = a ^ (k + 1) % m := by
  rw [Nat.mod_mul_mod, Nat.pow_succ]

/-- The loop ends with an exponent that gives one, or there is none up to the modulus. -/
theorem orderLoop_cases {rounds order : Nat} (enough : m < order + rounds)
    (below : order ≤ m) :
    (∀ k, order ≤ k → k ≤ m → a ^ k % m ≠ 1) ∨
      order ≤ orderLoop a m rounds (a ^ order % m) order ∧
        a ^ orderLoop a m rounds (a ^ order % m) order % m = 1 := by
  induction rounds generalizing order with
  | zero => omega
  | succ rounds ih =>
      rw [orderLoop, pow_succ_mod]
      by_cases one : a ^ order % m = 1
      · rw [if_pos one]
        exact .inr ⟨le_rfl, one⟩
      · rw [if_neg one]
        by_cases last : m < order + 1
        · refine .inl fun k above within => ?_
          have same : k = order := by omega
          rwa [same]
        · rw [if_neg last]
          rcases @ih (order + 1) (by omega) (by omega) with none | ⟨above, found⟩
          · refine .inl fun k above within => ?_
            by_cases same : k = order
            · rwa [same]
            · exact none k (by omega) within
          · exact .inr ⟨by omega, found⟩

/-- A number without a common divisor with the modulus has an order, which is found. -/
theorem multiplicativeOrder_spec (coprime : Nat.Coprime a m) (large : 1 < m) :
    0 < multiplicativeOrder a m ∧ a ^ multiplicativeOrder a m % m = 1 := by
  have euler : a ^ m.totient % m = 1 := by
    have modOne := Nat.ModEq.pow_totient coprime
    rwa [Nat.ModEq, Nat.mod_eq_of_lt large] at modOne
  have positive : 0 < m.totient := Nat.totient_pos.mpr (by omega)
  have found : multiplicativeOrder a m = orderLoop a m (m + 1) (a ^ 1 % m) 1 := by
    rw [multiplicativeOrder, if_neg (not_not_intro coprime), Nat.pow_one]
  rw [found]
  rcases orderLoop_cases (a := a)
    (show m < 1 + (m + 1) by omega) large.le with none | ⟨above, one⟩
  · exact absurd euler (none m.totient positive (Nat.totient_le m))
  · exact ⟨above, one⟩

theorem mem_powersLoop {rounds start residue : Nat} :
    residue ∈ powersLoop a m rounds (a ^ start % m) ↔
      ∃ k, start ≤ k ∧ k < start + rounds ∧ residue = a ^ k % m := by
  induction rounds generalizing start with
  | zero =>
      simp only [powersLoop, List.not_mem_nil, false_iff]
      rintro ⟨k, above, below, -⟩
      omega
  | succ rounds ih =>
      rw [powersLoop, List.mem_cons, pow_succ_mod, ih]
      constructor
      · rintro (same | ⟨k, above, below, same⟩)
        · exact ⟨start, le_rfl, by omega, same⟩
        · exact ⟨k, by omega, by omega, same⟩
      · rintro ⟨k, above, below, same⟩
        by_cases first : k = start
        · exact .inl (first ▸ same)
        · exact .inr ⟨k, by omega, by omega, same⟩

/-- Exponents count up to the order only. -/
theorem pow_mod_order {n : Nat} (one : a ^ n % m = 1) (large : 1 < m) (k : Nat) :
    a ^ k % m = a ^ (k % n) % m := by
  have cycle : a ^ n ≡ 1 [MOD m] := by
    rw [Nat.ModEq, one, Nat.mod_eq_of_lt large]
  have split : a ^ k = (a ^ n) ^ (k / n) * a ^ (k % n) := by
    rw [← Nat.pow_mul, ← Nat.pow_add, Nat.div_add_mod]
  have turned : (a ^ n) ^ (k / n) * a ^ (k % n) ≡ 1 ^ (k / n) * a ^ (k % n) [MOD m] :=
    (cycle.pow _).mul_right _
  rw [split, turned, Nat.one_pow, Nat.one_mul]

/-- The collected residues are those of all powers. -/
theorem mem_powers_iff (coprime : Nat.Coprime a m) (large : 1 < m) {residue : Nat} :
    residue ∈ powersLoop a m (multiplicativeOrder a m) 1 ↔ ∃ k, residue = a ^ k % m := by
  obtain ⟨positive, one⟩ := multiplicativeOrder_spec coprime large
  have start : powersLoop a m (multiplicativeOrder a m) 1 =
      powersLoop a m (multiplicativeOrder a m) (a ^ 0 % m) := by
    rw [Nat.pow_zero, Nat.mod_eq_of_lt large]
  rw [start, mem_powersLoop]
  constructor
  · rintro ⟨k, -, -, same⟩
    exact ⟨k, same⟩
  · rintro ⟨k, same⟩
    have below := Nat.mod_lt k positive
    exact ⟨k % multiplicativeOrder a m, Nat.zero_le _, by omega,
      same.trans (pow_mod_order one large k)⟩

end Powers

/-! ## The fingerprint -/

theorem rocaPrimes_coprime :
    ∀ prime ∈ rocaPrimes, Nat.Coprime generator prime ∧ 1 < prime := by
  decide

theorem bearsFingerprint_iff {modulus prime : Nat} (listed : prime ∈ rocaPrimes) :
    bearsFingerprint modulus prime = true ↔ ∃ k, modulus ≡ generator ^ k [MOD prime] := by
  obtain ⟨coprime, large⟩ := rocaPrimes_coprime prime listed
  have positive := (multiplicativeOrder_spec coprime large).1
  have ordered : (multiplicativeOrder generator prime == 0) = false := by
    simpa using positive.ne'
  rw [bearsFingerprint, ordered, Bool.false_or, List.contains_iff_mem,
    mem_powers_iff coprime large]
  rfl

/-- The test takes exactly the moduli that are a power of 65537 modulo each of the primes,
though it compares with one cycle of powers only. -/
theorem isRocaVulnerable_iff (modulus : Nat) :
    isRocaVulnerable modulus = true ↔
      3 ≤ modulus ∧ ∀ prime ∈ rocaPrimes, ∃ k, modulus ≡ 65537 ^ k [MOD prime] := by
  simp only [isRocaVulnerable, Bool.and_eq_true, Bool.not_eq_true',
    decide_eq_false_iff_not, Nat.not_lt, List.all_eq_true]
  exact and_congr_right fun _ => forall₂_congr fun _ listed => bearsFingerprint_iff listed

/-- A prime factor as RSALib makes it: a power of the generator modulo the product of the
first primes, and a multiple of that product. -/
structure RsaLibFactor (product : Nat) where
  multiple : Nat
  exponent : Nat

/-- The number that the factor stands for. -/
def RsaLibFactor.value {product : Nat} (factor : RsaLibFactor product) : Nat :=
  factor.multiple * product + generator ^ factor.exponent % product

theorem RsaLibFactor.modEq {product prime : Nat} (factor : RsaLibFactor product)
    (divides : prime ∣ product) :
    factor.value ≡ generator ^ factor.exponent [MOD prime] := by
  have inProduct : factor.value ≡ generator ^ factor.exponent [MOD product] := by
    rw [RsaLibFactor.value, Nat.ModEq, Nat.mul_add_mod', Nat.mod_mod]
  exact inProduct.of_dvd divides

theorem isRocaVulnerable_mul {product : Nat} (left right : RsaLibFactor product)
    (divides : ∀ prime ∈ rocaPrimes, prime ∣ product)
    (large : 3 ≤ left.value * right.value) :
    isRocaVulnerable (left.value * right.value) = true := by
  rw [isRocaVulnerable, Bool.and_eq_true]
  refine ⟨by simpa using large, List.all_eq_true.mpr fun prime listed => ?_⟩
  have both := (left.modEq (divides prime listed)).mul
    (right.modEq (divides prime listed))
  rw [← Nat.pow_add] at both
  exact (bearsFingerprint_iff listed).mpr ⟨_, both⟩

/-- No key that RSALib made passes as healthy, whatever length is stated for it. -/
theorem analyzeRsaModulus_mul {product : Nat} (left right : RsaLibFactor product)
    (divides : ∀ prime ∈ rocaPrimes, prime ∣ product)
    (large : 3 ≤ left.value * right.value)
    (bitLength : Option Nat) :
    (analyzeRsaModulus (left.value * right.value) bitLength).ok = false ∧
      rocaIssue ∈ (analyzeRsaModulus (left.value * right.value) bitLength).issues := by
  simp [analyzeRsaModulus, isRocaVulnerable_mul left right divides large]

/-- The product of the first primes. -/
def firstPrimes : Nat := 2 * rocaPrimes.prod

theorem dvd_firstPrimes : ∀ prime ∈ rocaPrimes, prime ∣ firstPrimes := fun _ listed =>
  (List.dvd_prod listed).mul_left 2

theorem analyzeRsaModulus_mul_firstPrimes :
    (analyzeRsaModulus ((⟨1, 1⟩ : RsaLibFactor firstPrimes).value *
        (⟨2, 5⟩ : RsaLibFactor firstPrimes).value) (some 2048)).ok = false ∧
      rocaIssue ∈ (analyzeRsaModulus ((⟨1, 1⟩ : RsaLibFactor firstPrimes).value *
        (⟨2, 5⟩ : RsaLibFactor firstPrimes).value) (some 2048)).issues :=
  analyzeRsaModulus_mul ⟨1, 1⟩ ⟨2, 5⟩ dvd_firstPrimes (by decide) (some 2048)

end Moduli
end Core
end PqcScan
