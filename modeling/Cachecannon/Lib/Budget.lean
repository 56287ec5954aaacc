import Mathlib.Data.Nat.Basic

/-!
# Spending a budget turn by turn

A loop is given a budget and spends at most one unit a turn. `Turn` is how a turn ends: a unit
was spent and the loop goes on, or the loop is left, with the unit spent (`failed`), with nothing
to spend it on (`empty`), or without spending it on what there was (`refused`).
For a sequence of turns and a budget, `tried` is the number of units spent, `rest` what is left
at the exit and `exit` the turn the loop was left at; `tried_add_rest` says that nothing else
happens to a unit, and `rest_eq_zero_iff` when nothing is left.
-/

namespace Budget

/-- How one turn of the loop ends. -/
inductive Turn
  | sent
  | failed
  | empty
  | refused
  deriving Repr, DecidableEq

def tried : (Nat → Turn) → Nat → Nat
  | _, 0 => 0
  | turns, b + 1 =>
    match turns 0 with
    | .sent => tried (fun i => turns (i + 1)) b + 1
    | .failed => 1
    | .empty | .refused => 0

def rest : (Nat → Turn) → Nat → Nat
  | _, 0 => 0
  | turns, b + 1 =>
    match turns 0 with
    | .sent => rest (fun i => turns (i + 1)) b
    | .failed => b
    | .empty | .refused => b + 1

def exit : (Nat → Turn) → Nat → Option Turn
  | _, 0 => none
  | turns, b + 1 =>
    match turns 0 with
    | .sent => exit (fun i => turns (i + 1)) b
    | turn => some turn

/-- The loop reaches its turn `i`. -/
def Reached (turns : Nat → Turn) (i : Nat) : Prop := ∀ j < i, turns j = .sent

theorem reached_succ {turns : Nat → Turn} (h : turns 0 = .sent) (i : Nat) :
    Reached turns (i + 1) ↔ Reached (fun i => turns (i + 1)) i := by
  constructor
  · exact fun hr j hj => hr (j + 1) (by omega)
  · intro hr j hj
    cases j with
    | zero => exact h
    | succ j => exact hr j (by omega)

theorem reached_zero (turns : Nat → Turn) : Reached turns 0 := fun _ hj => absurd hj (by omega)

theorem forall_reached_succ {turns : Nat → Turn} {b : Nat} {P : Nat → Prop}
    (h : turns 0 = .sent) : (∀ i < b + 1, Reached turns i → P i) ↔
      P 0 ∧ ∀ i < b, Reached (fun i => turns (i + 1)) i → P (i + 1) := by
  constructor
  · exact fun hall => ⟨hall 0 (by omega) (reached_zero _),
      fun i hi hr => hall (i + 1) (by omega) ((reached_succ h i).2 hr)⟩
  · rintro ⟨h0, hs⟩ i hi hr
    cases i with
    | zero => exact h0
    | succ i => exact hs i (by omega) ((reached_succ h i).1 hr)

theorem forall_reached_exit {turns : Nat → Turn} {b : Nat} {P : Nat → Prop}
    (h : turns 0 ≠ .sent) : (∀ i < b + 1, Reached turns i → P i) ↔ P 0 := by
  constructor
  · exact fun hall => hall 0 (by omega) (reached_zero _)
  · intro h0 i _ hr
    cases i with
    | zero => exact h0
    | succ i => exact absurd (hr 0 (by omega)) h

theorem tried_add_rest (turns : Nat → Turn) (b : Nat) : tried turns b + rest turns b = b := by
  induction b generalizing turns with
  | zero => rfl
  | succ b ih =>
    have := ih fun i => turns (i + 1)
    simp only [tried, rest]
    split <;> omega

/-- Nothing is left exactly when every turn spends a unit, and none before the last fails. -/
theorem rest_eq_zero_iff (turns : Nat → Turn) (b : Nat) : rest turns b = 0 ↔
    ∀ i < b, Reached turns i →
      turns i ≠ .empty ∧ turns i ≠ .refused ∧ (turns i = .failed → i + 1 = b) := by
  induction b generalizing turns with
  | zero => simp [rest]
  | succ b ih =>
    cases h : turns 0 with
    | sent =>
      rw [forall_reached_succ h, rest, h]
      simp [ih]
    | failed => rw [forall_reached_exit (by simp [h])]; simp [rest, h]
    | empty => rw [forall_reached_exit (by simp [h])]; simp [rest, h]
    | refused => rw [forall_reached_exit (by simp [h])]; simp [rest, h]

theorem exit_ne_empty_iff (turns : Nat → Turn) (b : Nat) : exit turns b ≠ some .empty ↔
    ∀ i < b, Reached turns i → turns i ≠ .empty := by
  induction b generalizing turns with
  | zero => simp [exit]
  | succ b ih =>
    cases h : turns 0 with
    | sent =>
      rw [forall_reached_succ h, exit, h]
      simp [ih]
    | failed => rw [forall_reached_exit (by simp [h])]; simp [exit, h]
    | empty => rw [forall_reached_exit (by simp [h])]; simp [exit, h]
    | refused => rw [forall_reached_exit (by simp [h])]; simp [exit, h]

theorem rest_pos_of_exit_empty (turns : Nat → Turn) (b : Nat) (h : exit turns b = some .empty) :
    0 < rest turns b := by
  induction b generalizing turns with
  | zero => cases h
  | succ b ih =>
    cases h0 : turns 0 with
    | sent =>
      simp only [exit, rest, h0] at h ⊢
      exact ih _ h
    | failed => simp [exit, h0] at h
    | empty => simp [rest, h0]
    | refused => simp [rest, h0]

/-- The units left are kept when the loop is left at an `empty` turn: none is lost exactly when
every other turn spends a unit, and none before the last fails. -/
theorem rest_or_empty_iff (turns : Nat → Turn) (b : Nat) :
    (rest turns b = 0 ∨ exit turns b = some .empty) ↔
      ∀ i < b, Reached turns i → turns i ≠ .refused ∧ (turns i = .failed → i + 1 = b) := by
  induction b generalizing turns with
  | zero => simp [rest]
  | succ b ih =>
    cases h : turns 0 with
    | sent =>
      rw [forall_reached_succ h, rest, exit, h]
      simp [ih]
    | failed => rw [forall_reached_exit (by simp [h])]; simp [rest, exit, h]
    | empty => rw [forall_reached_exit (by simp [h])]; simp [rest, exit, h]
    | refused => rw [forall_reached_exit (by simp [h])]; simp [rest, exit, h]

end Budget
