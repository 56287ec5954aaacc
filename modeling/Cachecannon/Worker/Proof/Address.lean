import Cachecannon.Worker.Address

/-!
# Numbers out of text: what is printed reads back

A number printed in decimal is read as itself, in every width it fits (`parseUnsigned_toDigits`).
-/

namespace Worker

theorem toDigit_digitChar {radix d : Nat} (hradix : radix ≤ 16) (h : d < radix) :
    toDigit radix d.digitChar = some d := by
  have hdigit : ∀ d < 16, toDigit 16 d.digitChar = some d := by decide
  have := hdigit d (by omega)
  simp only [toDigit, Option.filter_eq_some_iff] at this ⊢
  exact ⟨this.1, by simpa using h⟩

theorem ofDigits_append (radix : Nat) (ds : List Nat) (d : Nat) :
    ofDigits radix (ds ++ [d]) = ofDigits radix ds * radix + d := by
  simp [ofDigits]

/-- The digits of `n` are read one by one as `n`. -/
theorem mapM_toDigits {radix : Nat} (hone : 1 < radix) (hradix : radix ≤ 16) (n : Nat) :
    ∃ ds, (Nat.toDigits radix n).mapM (toDigit radix) = some ds ∧ ofDigits radix ds = n := by
  induction n using Nat.strongRecOn with
  | ind n ih =>
    by_cases h : n < radix
    · exact ⟨[n], by simp [Nat.toDigits_of_lt_base h, toDigit_digitChar hradix h],
        by simp [ofDigits]⟩
    · obtain ⟨ds, hds, hval⟩ := ih (n / radix) (Nat.div_lt_self (by omega) hone)
      refine ⟨ds ++ [n % radix], ?_, ?_⟩
      · rw [Nat.toDigits_of_base_le hone (by omega), List.mapM_append, hds]
        simp [toDigit_digitChar hradix (Nat.mod_lt n (by omega))]
      · rw [ofDigits_append, hval, Nat.mul_comm]
        exact Nat.div_add_mod n radix

theorem ofDigits_zero_cons (radix : Nat) (ds : List Nat) :
    ofDigits radix (0 :: ds) = ofDigits radix ds := by
  simp [ofDigits]

/-- Leading zeros do not count. -/
theorem mapM_zeros {radix : Nat} (hone : 1 < radix) (hradix : radix ≤ 16) {s : List Char}
    {n : Nat} (h : ∃ ds, s.mapM (toDigit radix) = some ds ∧ ofDigits radix ds = n) (k : Nat) :
    ∃ ds, (List.replicate k '0' ++ s).mapM (toDigit radix) = some ds ∧ ofDigits radix ds = n := by
  induction k with
  | zero => exact h
  | succ k ih =>
    obtain ⟨ds, hds, hval⟩ := ih
    have hzero : toDigit radix (Nat.digitChar 0) = some 0 := toDigit_digitChar hradix (by omega)
    have hchar : Nat.digitChar 0 = '0' := rfl
    rw [hchar] at hzero
    exact ⟨0 :: ds, by simp [List.replicate_succ, hzero, hds], by rw [ofDigits_zero_cons, hval]⟩

theorem mem_toDigits {radix n : Nat} {c : Char} (hone : 1 < radix)
    (h : c ∈ Nat.toDigits radix n) : ∃ d < radix, c = d.digitChar := by
  induction n using Nat.strongRecOn with
  | ind n ih =>
    by_cases hn : n < radix
    · rw [Nat.toDigits_of_lt_base hn, List.mem_singleton] at h
      exact ⟨n, hn, h⟩
    · rw [Nat.toDigits_of_base_le hone (by omega), List.mem_append, List.mem_singleton] at h
      rcases h with h | rfl
      · exact ih (n / radix) (Nat.div_lt_self (by omega) hone) h
      · exact ⟨n % radix, Nat.mod_lt n (by omega), rfl⟩

theorem ascii_of_mem_toDigits {radix n : Nat} {c : Char} (hone : 1 < radix) (hradix : radix ≤ 16)
    (h : c ∈ Nat.toDigits radix n) : c.toNat < 128 := by
  have hascii : ∀ d < 16, d.digitChar.toNat < 128 := by decide
  obtain ⟨d, hd, rfl⟩ := mem_toDigits hone h
  exact hascii d (by omega)

theorem digit_of_mem {n : Nat} {c : Char} (h : c ∈ Nat.toDigits 10 n) :
    48 ≤ c.toNat ∧ c.toNat ≤ 57 := by
  have hdigit : ∀ d < 10, 48 ≤ d.digitChar.toNat ∧ d.digitChar.toNat ≤ 57 := by decide
  obtain ⟨d, hd, rfl⟩ := mem_toDigits (by decide) h
  exact hdigit d hd

/-- What is not preceded by a sign is read from its first character. -/
theorem parseUnsigned_unsigned {bits : Nat} {s : List Char} {ds : List Nat} (hs : s ≠ [])
    (hplus : '+' ∉ s) (hds : s.mapM (toDigit 10) = some ds) :
    parseUnsigned bits s = if ofDigits 10 ds < 2 ^ bits then some (ofDigits 10 ds) else none := by
  simp only [parseUnsigned]
  split
  · rename_i rest hempty
    simp at hplus
  · simp [hds, hs]

theorem parseUnsigned_toDigits {bits n : Nat} (h : n < 2 ^ bits) :
    parseUnsigned bits (Nat.toDigits 10 n) = some n := by
  obtain ⟨ds, hds, hval⟩ := mapM_toDigits (by decide : 1 < 10) (by decide) n
  have hplus : '+' ∉ Nat.toDigits 10 n := fun hmem => by simpa using (digit_of_mem hmem).1
  rw [parseUnsigned_unsigned Nat.toDigits_ne_nil hplus hds, hval, if_pos h]

end Worker
