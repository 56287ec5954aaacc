import Mathlib.Data.List.Basic

/-!
# Seeds of the connections' generators (`src/worker.rs`)

Each connection of a run draws from a generator of its own. Its seed mixes the run's seed with
the connection's role and position, both `usize` on a 64-bit machine.
-/

namespace Worker

inductive SeedRole
  | reader
  | append
  /-- The routed dispatcher, which draws every routed request's key. -/
  | dispatcher
  deriving Repr, DecidableEq

/-- `role as u64` -/
def SeedRole.toNat : SeedRole → Nat
  | .reader => 0
  | .append => 1
  | .dispatcher => 2

/-- The SplitMix64 finalizer. -/
def splitmix64 (x : BitVec 64) : BitVec 64 :=
  let z := x + 0x9E3779B97F4A7C15#64
  let z := (z ^^^ (z >>> 30)) * 0xBF58476D1CE4E5B9#64
  let z := (z ^^^ (z >>> 27)) * 0x94D049BB133111EB#64
  z ^^^ (z >>> 31)

/-- A connection's role and place in the run, in one word. -/
def seedPosition (role : SeedRole) (workerId i : Nat) : BitVec 64 :=
  (BitVec.ofNat 64 role.toNat <<< 62) ^^^ (BitVec.ofNat 64 workerId <<< 32) ^^^ BitVec.ofNat 64 i

def connectionSeed (runSeed : BitVec 64) (role : SeedRole) (workerId i : Nat) : BitVec 64 :=
  splitmix64 (runSeed ^^^ splitmix64 (seedPosition role workerId i))

end Worker
