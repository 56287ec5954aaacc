import Cachecannon.Lib.Bits
import Cachecannon.Worker.Seed

/-!
# No two connections share a seed

`splitmix64` is made of steps that lose nothing, so both mixing steps of `connection_seed` can be
undone; what is left is that role, worker and index have their own bits of the position.
-/

namespace Worker

open Bits

theorem splitmix64_injective : Function.Injective splitmix64 := by
  -- the two multipliers, with their inverses modulo 2^64
  have hmul₁ : 0xBF58476D1CE4E5B9#64 * 0x96DE1B173F119089#64 = 1#64 := by decide
  have hmul₂ : 0x94D049BB133111EB#64 * 0x319642B2D24D8EC3#64 = 1#64 := by decide
  intro x y hxy
  apply add_injective 0x9E3779B97F4A7C15#64
  apply xorShift_injective (show 0 < 30 by decide)
  apply mul_injective hmul₁
  apply xorShift_injective (show 0 < 27 by decide)
  apply mul_injective hmul₂
  apply xorShift_injective (show 0 < 31 by decide)
  exact hxy

theorem SeedRole.toNat_injective : Function.Injective SeedRole.toNat := by
  intro a b h
  cases a <;> cases b <;> first | rfl | cases h

theorem SeedRole.toNat_lt (role : SeedRole) : role.toNat < 2 ^ 2 := by
  cases role <;> decide

/-- Within the bounds nothing is shifted out. -/
theorem seedPosition_toNat (role : SeedRole) {workerId i : Nat} (hw : workerId < 2 ^ 30)
    (hi : i < 2 ^ 32) :
    (seedPosition role workerId i).toNat =
      ((role.toNat <<< 30) ^^^ workerId) <<< 32 ^^^ i := by
  have hrole := role.toNat_lt
  rw [seedPosition, BitVec.toNat_xor, BitVec.toNat_xor, BitVec.toNat_shiftLeft,
    BitVec.toNat_shiftLeft, BitVec.toNat_ofNat, BitVec.toNat_ofNat, BitVec.toNat_ofNat,
    Nat.mod_eq_of_lt (show role.toNat < 2 ^ 64 by omega),
    Nat.mod_eq_of_lt (show workerId < 2 ^ 64 by omega),
    Nat.mod_eq_of_lt (show i < 2 ^ 64 by omega),
    Nat.mod_eq_of_lt (show role.toNat <<< 62 < 2 ^ 64 by rw [Nat.shiftLeft_eq]; omega),
    Nat.mod_eq_of_lt (show workerId <<< 32 < 2 ^ 64 by rw [Nat.shiftLeft_eq]; omega),
    Nat.shiftLeft_xor_distrib, ← Nat.shiftLeft_add]

theorem seedPosition_inj {role role' : SeedRole} {workerId workerId' i i' : Nat}
    (hw : workerId < 2 ^ 30) (hw' : workerId' < 2 ^ 30) (hi : i < 2 ^ 32) (hi' : i' < 2 ^ 32)
    (h : seedPosition role workerId i = seedPosition role' workerId' i') :
    role = role' ∧ workerId = workerId' ∧ i = i' := by
  have hnat := congrArg BitVec.toNat h
  rw [seedPosition_toNat role hw hi, seedPosition_toNat role' hw' hi'] at hnat
  obtain ⟨hupper, hindex⟩ := pack_inj hi hi' hnat
  obtain ⟨hrole, hworker⟩ := pack_inj hw hw' hupper
  exact ⟨SeedRole.toNat_injective hrole, hworker, hindex⟩

/-- **Seeds do not collide.** Within a run, distinct connections have distinct seeds, and at one
position distinct runs have. -/
theorem connectionSeed_injective :
    Function.Bijective splitmix64 ∧
    (∀ runSeed, Set.InjOn (fun c : SeedRole × Nat × Nat => connectionSeed runSeed c.1 c.2.1 c.2.2)
      {c | c.2.1 < 2 ^ 30 ∧ c.2.2 < 2 ^ 32}) ∧
    ∀ role workerId i,
      Function.Injective fun runSeed => connectionSeed runSeed role workerId i := by
  refine ⟨bijective_of_injective splitmix64_injective, fun runSeed => ?_,
    fun role workerId i => ?_⟩
  · rintro ⟨role, workerId, i⟩ ⟨hw, hi⟩ ⟨role', workerId', i'⟩ ⟨hw', hi'⟩ hseed
    have hinner := splitmix64_injective hseed
    have hposition := splitmix64_injective ((BitVec.xor_right_inj runSeed).1 hinner)
    obtain ⟨rfl, rfl, rfl⟩ := seedPosition_inj hw hw' hi hi' hposition
    rfl
  · intro runSeed runSeed' hseed
    exact (BitVec.xor_left_inj _).1 (splitmix64_injective hseed)

end Worker
