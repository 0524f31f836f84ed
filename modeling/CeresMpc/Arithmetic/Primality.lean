import Mathlib.Data.List.Prime
import Mathlib.NumberTheory.LucasPrimality

/-!
# Primality by Lucas certificates

A certificate for `p` is a generator of the multiplicative group and the prime
factors of `p - 1`. Its powers are computed on numbers, so checking it is an
evaluation.
-/

set_option autoImplicit false

namespace CeresMpc.Arithmetic

/-- The power `base ^ exponent` modulo `modulus`, for exponents below `2 ^ bits`. -/
def powerMod (modulus : Nat) : (bits base exponent : Nat) → Nat
  | 0, _, _ => 1 % modulus
  | bits + 1, base, exponent =>
      let half := powerMod modulus bits (base * base % modulus) (exponent / 2)
      if exponent % 2 = 1 then base * half % modulus else half

theorem powerMod_eq (modulus : Nat) {bits base exponent : Nat} (bounded : exponent < 2 ^ bits) :
    powerMod modulus bits base exponent = base ^ exponent % modulus := by
  induction bits generalizing base exponent with
  | zero =>
      obtain rfl : exponent = 0 := by simpa using bounded
      rfl
  | succ bits ih =>
      have half : exponent / 2 < 2 ^ bits := by omega
      have squared : (base * base % modulus) ^ (exponent / 2) % modulus = base ^ (2 * (exponent / 2)) % modulus := by
        rw [← Nat.pow_mod, ← sq, ← pow_mul]
      rw [powerMod, ih half, squared]
      split
      · next odd =>
        have whole : exponent = 2 * (exponent / 2) + 1 := by omega
        conv_rhs => rw [whole, pow_succ']
        rw [Nat.mul_mod_mod]
      · next even =>
        have whole : exponent = 2 * (exponent / 2) := by omega
        conv_rhs => rw [whole]

/-- `generator` has order `p - 1`, if `factors` are primes. -/
def Certifies (p generator : Nat) (factors : List Nat) : Prop :=
  (1 < p ∧ factors.prod = p - 1) ∧ powerMod p (p.log2 + 1) generator (p - 1) = 1 ∧
    ∀ factor ∈ factors, powerMod p (p.log2 + 1) generator ((p - 1) / factor) ≠ 1

instance (p generator : Nat) (factors : List Nat) : Decidable (Certifies p generator factors) :=
  inferInstanceAs (Decidable (_ ∧ _))

theorem Certifies.prime {p generator : Nat} {factors : List Nat} (certifies : Certifies p generator factors)
    (primes : ∀ factor ∈ factors, factor.Prime) : p.Prime := by
  obtain ⟨⟨large, product⟩, full, parts⟩ := certifies
  have power {exponent : Nat} (fits : exponent ≤ p - 1) :
      (generator : ZMod p) ^ exponent = 1 ↔ powerMod p (p.log2 + 1) generator exponent = 1 := by
    have one : 1 % p = 1 := Nat.mod_eq_of_lt large
    have bounded : exponent < 2 ^ (p.log2 + 1) := by
      have size : p < 2 ^ (p.log2 + 1) := Nat.lt_log2_self
      omega
    rw [powerMod_eq p bounded, ← Nat.cast_pow, ← Nat.cast_one, ZMod.natCast_eq_natCast_iff', one]
  refine lucas_primality p generator ((power le_rfl).mpr full) fun q prime divides => ?_
  rw [← product] at divides
  obtain ⟨factor, listed, divides⟩ := (Prime.dvd_prod_iff prime.prime).mp divides
  obtain rfl : q = factor := (Nat.prime_dvd_prime_iff_eq prime (primes factor listed)).mp divides
  rw [ne_eq, power (Nat.div_le_self _ _)]
  exact parts q listed

/-- Certificates that rest on the ones after them. -/
def Chain : List (Nat × Nat × List Nat) → Prop
  | [] => True
  | (p, generator, factors) :: rest =>
      (Certifies p generator factors ∧ ∀ factor ∈ factors, factor = 2 ∨ factor ∈ rest.map Prod.fst) ∧ Chain rest

instance decidableChain : (entries : List (Nat × Nat × List Nat)) → Decidable (Chain entries)
  | [] => inferInstanceAs (Decidable True)
  | (_, _, _) :: rest =>
      have := decidableChain rest
      inferInstanceAs (Decidable ((_ ∧ _) ∧ _))

theorem Chain.prime {entries : List (Nat × Nat × List Nat)} (chain : Chain entries) :
    ∀ p ∈ entries.map Prod.fst, p.Prime := by
  induction entries with
  | nil =>
      intro p member
      cases member
  | cons entry rest ih =>
      obtain ⟨p, generator, factors⟩ := entry
      obtain ⟨⟨certifies, later⟩, chain⟩ := chain
      intro q member
      rcases List.mem_cons.mp member with rfl | member
      · refine certifies.prime fun factor listed => ?_
        rcases later factor listed with rfl | certified
        · exact Nat.prime_two
        · exact ih chain factor certified
      · exact ih chain q member

end CeresMpc.Arithmetic
