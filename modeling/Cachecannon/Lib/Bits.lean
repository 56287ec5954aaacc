import Mathlib.Data.Fintype.EquivFin
import Mathlib.Algebra.Order.Ring.Nat

/-!
# Mixing of machine words

The steps that 64-bit mixing functions are made of lose nothing: a word combined with itself
shifted right, and a product with a constant that has an inverse. `pack_inj` takes apart two
numbers put together in one word, the upper one shifted past the lower one.
-/

namespace Bits

variable {w : Nat}

/-- From the top bit down: the upper bits of `z` are those of `z ^^^ (z >>> k)`, and each lower
bit follows from the bit `k` places above it. -/
theorem xorShift_injective {k : Nat} (hk : 0 < k) :
    Function.Injective fun z : BitVec w => z ^^^ (z >>> k) := by
  intro x y hxy
  have hbits : ∀ n i, w - i ≤ n → x.getLsbD i = y.getLsbD i := by
    intro n
    induction n with
    | zero =>
      intro i hi
      rw [BitVec.getLsbD_of_ge x i (by omega), BitVec.getLsbD_of_ge y i (by omega)]
    | succ n ih =>
      intro i hi
      have habove : x.getLsbD (k + i) = y.getLsbD (k + i) := ih (k + i) (by omega)
      have hbit := congrArg (fun z : BitVec w => z.getLsbD i) hxy
      simp only [BitVec.getLsbD_xor, BitVec.getLsbD_ushiftRight] at hbit
      rw [habove] at hbit
      exact Bool.xor_left_inj.1 hbit
  exact BitVec.eq_of_getLsbD_eq fun i _ => hbits (w - i) i le_rfl

theorem mul_injective {m inv : BitVec w} (hinv : m * inv = 1#w) :
    Function.Injective fun z : BitVec w => z * m := by
  intro x y hxy
  have hback := congrArg (fun z : BitVec w => z * inv) hxy
  simpa only [BitVec.mul_assoc, hinv, BitVec.mul_one] using hback

theorem add_injective (c : BitVec w) : Function.Injective fun z : BitVec w => z + c :=
  fun _ _ hxy => (BitVec.add_left_inj c).1 hxy

/-- There are finitely many words, so a function that loses nothing reaches all of them. -/
theorem bijective_of_injective {f : BitVec w → BitVec w} (hf : Function.Injective f) :
    Function.Bijective f := by
  have hfin : Finite (BitVec w) :=
    Finite.of_injective BitVec.toFin fun _ _ h => BitVec.eq_of_toFin_eq h
  exact Finite.injective_iff_bijective.1 hf

theorem pack_inj {k a b a' b' : Nat} (hb : b < 2 ^ k) (hb' : b' < 2 ^ k)
    (h : (a <<< k) ^^^ b = (a' <<< k) ^^^ b') : a = a' ∧ b = b' := by
  have hupper : ∀ a, a <<< k / 2 ^ k = a := fun a => by
    rw [Nat.shiftLeft_eq, Nat.mul_div_cancel a (Nat.two_pow_pos k)]
  have hlower : ∀ a, a <<< k % 2 ^ k = 0 := fun a => by
    rw [Nat.shiftLeft_eq, Nat.mul_mod_left]
  constructor
  · have hdiv := congrArg (· / 2 ^ k) h
    simpa only [Nat.xor_div_two_pow, hupper, Nat.div_eq_of_lt hb, Nat.div_eq_of_lt hb',
      Nat.xor_zero] using hdiv
  · have hmod := congrArg (· % 2 ^ k) h
    simpa only [Nat.xor_mod_two_pow, hlower, Nat.mod_eq_of_lt hb, Nat.mod_eq_of_lt hb',
      Nat.zero_xor] using hmod

end Bits
