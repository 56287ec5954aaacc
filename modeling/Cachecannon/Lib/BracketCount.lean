import Cachecannon.Lib.Brackets
import Mathlib.Algebra.Order.Ring.Int

/-!
# Counting brackets

A counter stands in for `scan` where it sees how many brackets are open but not which. `Counts` is
what it accepts: from the first token to the last, the text is one pair of brackets by their
numbers. It accepts what `scan` does, and texts in which a bracket closes one of another kind
(`scan_iff_counts`).
-/

namespace Brackets

variable {α : Type*} (b : Brackets α)

def weight (t : α) : Int := if (b.closer t).isSome then 1 else if b.closing t then -1 else 0

/-- The brackets that a text leaves open, by their numbers. -/
def depth (ts : List α) : Int := (ts.map b.weight).sum

/-- The separators at the depths that `p` holds of. -/
def seps [DecidableEq α] (p : Int → Bool) (ts : List α) : Nat :=
  (List.range ts.length).countP fun i => ts[i]? = some b.sep && p (b.depth (ts.take i))

/-- A closing bracket after which `p` holds of the depth is the end of the text. -/
def Last (p : Int → Prop) (ts : List α) : Prop :=
  ∀ pre c post, ts = pre ++ c :: post → b.closing c = true → p (b.depth (pre ++ [c])) → post = []

/-- As many brackets are closed as are opened, at the end of the text and not before, and `n`
separators stand at depth 1. `wrap` is what the counter makes of a number. -/
structure Counts [DecidableEq α] (wrap : Int → Int) (n : Int) (ts : List α) : Prop where
  closes : wrap (b.depth ts) = 0
  last : b.Last (fun d => wrap d = 0) ts
  seps : wrap (b.seps (fun d => wrap d = 1) ts) = n

/-- By their numbers, `c` closes the bracket that was opened with `k` more before the text. -/
def Closes (k : Nat) (ts : List α) (c : α) : Prop :=
  ∃ pre post, ts = pre ++ c :: post ∧ b.closing c = true ∧ b.depth pre = -k ∧
    ∀ p, p <+: pre → -(k : Int) ≤ b.depth p

/-- A bracket closes one of another kind. -/
def Mispaired (ts : List α) : Prop :=
  ∃ pre o c rest c', ts = pre ++ o :: rest ∧ b.closer o = some c ∧ b.Closes 0 rest c' ∧ c' ≠ c

variable {b} {t o c c' : α} {ts : List α} {k : Nat}

/-! ## One token -/

@[simp] theorem depth_nil : b.depth [] = 0 := rfl

@[simp] theorem depth_cons (t : α) (ts : List α) : b.depth (t :: ts) = b.weight t + b.depth ts := by
  simp [depth]

theorem weight_opening (h : b.closer t = some c) : b.weight t = 1 := by simp [weight, h]

theorem weight_closing (h : b.closing t = true) : b.weight t = -1 := by
  simp [weight, b.closing_closer t h, h]

theorem weight_other (hopen : b.closer t = none) (hclose : b.closing t = false) :
    b.weight t = 0 := by
  simp [weight, hopen, hclose]

theorem seps_cons [DecidableEq α] (p : Int → Bool) (t : α) (ts : List α) :
    b.seps p (t :: ts) =
      b.seps (fun d => p (b.weight t + d)) ts + if t = b.sep && p 0 then 1 else 0 := by
  simp only [seps, List.length_cons, List.range_succ_eq_map, List.countP_cons, List.countP_map]
  simp [Function.comp_def]

theorem cons_eq_append {pre post : List α} (h : t :: ts = pre ++ c :: post) :
    (pre = [] ∧ t = c ∧ ts = post) ∨ ∃ pre', pre = t :: pre' ∧ ts = pre' ++ c :: post := by
  cases pre with
  | nil =>
    obtain ⟨rfl, rfl⟩ := List.cons.inj h
    exact .inl ⟨rfl, rfl, rfl⟩
  | cons t' pre' =>
    obtain ⟨rfl, rfl⟩ := List.cons.inj h
    exact .inr ⟨pre', rfl, rfl⟩

theorem last_cons {p : Int → Prop} : b.Last p (t :: ts) ↔
    (b.closing t = true → p (b.weight t) → ts = []) ∧ b.Last (fun d => p (b.weight t + d)) ts := by
  constructor
  · intro h
    refine ⟨fun hclose hp => h [] t ts rfl hclose ?_, fun pre c post hts hc hp =>
      h (t :: pre) c post (by rw [hts]; rfl) hc ?_⟩
    · rwa [List.nil_append, depth_cons, depth_nil, Int.add_zero]
    · rwa [List.cons_append, depth_cons]
  · rintro ⟨hfirst, hrest⟩ pre c post hts hc hp
    rcases cons_eq_append hts with ⟨rfl, rfl, rfl⟩ | ⟨pre, rfl, heq⟩
    · rw [List.nil_append, depth_cons, depth_nil, Int.add_zero] at hp
      exact hfirst hc hp
    · rw [List.cons_append, depth_cons] at hp
      exact hrest pre c post heq hc hp

/-- After a token that is no closing bracket as many more are to be closed as it opened. -/
theorem closes_cons (h : b.closing t = false) {j : Nat} (hj : (j : Int) = k + b.weight t)
    (hnonneg : 0 ≤ b.weight t) : b.Closes k (t :: ts) c ↔ b.Closes j ts c := by
  constructor
  · rintro ⟨pre, post, hts, hc, hdepth, hlow⟩
    rcases cons_eq_append hts with ⟨-, rfl, -⟩ | ⟨pre, rfl, hrest⟩
    · rw [h] at hc
      cases hc
    · refine ⟨pre, post, hrest, hc, ?_, fun p hp => ?_⟩
      · rw [depth_cons] at hdepth
        omega
      · have hle := hlow (t :: p) (List.cons_prefix_cons.2 ⟨rfl, hp⟩)
        rw [depth_cons] at hle
        omega
  · rintro ⟨pre, post, rfl, hc, hdepth, hlow⟩
    refine ⟨t :: pre, post, rfl, hc, ?_, fun p hp => ?_⟩
    · rw [depth_cons]
      omega
    · cases p with
      | nil =>
        rw [depth_nil]
        omega
      | cons t' p =>
        obtain ⟨rfl, hp'⟩ := List.cons_prefix_cons.1 hp
        have hle := hlow p hp'
        rw [depth_cons]
        omega

theorem closes_zero_closing (h : b.closing t = true) : b.Closes 0 (t :: ts) c ↔ c = t := by
  constructor
  · rintro ⟨pre, post, hts, -, hdepth, hlow⟩
    rcases cons_eq_append hts with ⟨-, rfl, -⟩ | ⟨pre, rfl, -⟩
    · rfl
    · have hle := hlow [t] (List.cons_prefix_cons.2 ⟨rfl, List.nil_prefix⟩)
      rw [depth_cons, weight_closing h] at hle
      simp at hle
  · rintro rfl
    refine ⟨[], ts, rfl, h, rfl, fun p hp => ?_⟩
    rw [List.prefix_nil.1 hp]
    exact Int.le_refl _

theorem closes_succ_closing (h : b.closing t = true) :
    b.Closes (k + 1) (t :: ts) c ↔ b.Closes k ts c := by
  constructor
  · rintro ⟨pre, post, hts, hc, hdepth, hlow⟩
    rcases cons_eq_append hts with ⟨rfl, -, -⟩ | ⟨pre, rfl, hrest⟩
    · rw [depth_nil] at hdepth
      omega
    · refine ⟨pre, post, hrest, hc, ?_, fun p hp => ?_⟩
      · rw [depth_cons, weight_closing h] at hdepth
        omega
      · have hle := hlow (t :: p) (List.cons_prefix_cons.2 ⟨rfl, hp⟩)
        rw [depth_cons, weight_closing h] at hle
        omega
  · rintro ⟨pre, post, rfl, hc, hdepth, hlow⟩
    refine ⟨t :: pre, post, rfl, hc, ?_, fun p hp => ?_⟩
    · rw [depth_cons, weight_closing h]
      omega
    · cases p with
      | nil =>
        rw [depth_nil]
        omega
      | cons t' p =>
        obtain ⟨rfl, hp'⟩ := List.cons_prefix_cons.1 hp
        have hle := hlow p hp'
        rw [depth_cons, weight_closing h]
        omega

theorem mispaired_cons : b.Mispaired (t :: ts) ↔
    (∃ c c', b.closer t = some c ∧ b.Closes 0 ts c' ∧ c' ≠ c) ∨ b.Mispaired ts := by
  constructor
  · rintro ⟨pre, o, c, rest, c', hts, ho, hcloses, hne⟩
    rcases cons_eq_append hts with ⟨-, rfl, rfl⟩ | ⟨pre, rfl, hrest⟩
    · exact .inl ⟨c, c', ho, hcloses, hne⟩
    · exact .inr ⟨pre, o, c, rest, c', hrest, ho, hcloses, hne⟩
  · rintro (⟨c, c', ho, hcloses, hne⟩ | ⟨pre, o, c, rest, c', rfl, ho, hcloses, hne⟩)
    · exact ⟨[], t, c, ts, c', rfl, ho, hcloses, hne⟩
    · exact ⟨t :: pre, o, c, rest, c', rfl, ho, hcloses, hne⟩

/-! ## The closing brackets to come -/

/-- `h` brackets are open, and the last of them is closed by the end of the text. -/
def Ends (b : Brackets α) (h : Int) (ts : List α) : Prop :=
  h + b.depth ts = 0 ∧ b.Last (fun d => h + d = 0) ts

/-- The separators where the last of `h` open brackets is the only one. -/
def sepsFrom [DecidableEq α] (b : Brackets α) (h : Int) (ts : List α) : Nat :=
  b.seps (fun d => h + d = 1) ts

theorem sepsFrom_cons [DecidableEq α] (h : Int) (t : α) (ts : List α) :
    b.sepsFrom h (t :: ts) =
      b.sepsFrom (h + b.weight t) ts + if t = b.sep ∧ h = 1 then 1 else 0 := by
  simp only [sepsFrom, seps_cons, Int.add_assoc, Int.add_zero, Bool.and_eq_true, decide_eq_true_eq]

/-- The brackets that close those of the stack are the ones it expects, and the others match. -/
def Matches (b : Brackets α) (stack ts : List α) : Prop :=
  ¬ b.Mispaired ts ∧ ∀ (k : Nat) c, b.Closes k ts c → stack[k]? = some c

theorem ends_cons {h : Int} (hclose : b.closing t = false) :
    b.Ends h (t :: ts) ↔ b.Ends (h + b.weight t) ts := by
  unfold Ends
  simp only [depth_cons, last_cons, hclose, Bool.false_eq_true, false_implies, true_and,
    Int.add_assoc]

theorem ends_closing {h : Nat} (hclose : b.closing t = true) :
    b.Ends (h + 1 : Nat) (t :: ts) ↔ (h = 0 → ts = []) ∧ b.Ends h ts := by
  have hsum (x : Int) : ((h + 1 : Nat) : Int) + (-1 + x) = h + x := by omega
  have hzero : ((h + 1 : Nat) : Int) + -1 = 0 ↔ h = 0 := by omega
  unfold Ends
  simp only [depth_cons, last_cons, hclose, weight_closing hclose, forall_const, hsum, hzero]
  exact and_left_comm

theorem ends_nil : b.Ends (0 : Nat) ([] : List α) :=
  ⟨rfl, fun pre c post hts => absurd hts (by simp)⟩

/-- No more brackets are closed than are open. -/
theorem Ends.closes_lt {h : Nat} (hends : b.Ends (h + 1 : Nat) ts) (hk : b.Closes k ts c) :
    k ≤ h := by
  induction ts generalizing h k with
  | nil => exact absurd hk.choose_spec.choose_spec.1 (by simp)
  | cons t ts ih =>
    rcases hclose : b.closing t with _ | _
    · rw [ends_cons hclose] at hends
      rcases hopen : b.closer t with _ | c'
      · have hweight := weight_other hopen hclose
        rw [hweight, Int.add_zero] at hends
        exact ih hends ((closes_cons hclose (by omega) (by omega)).1 hk)
      · have hweight := weight_opening hopen
        have hheight : ((h + 1 : Nat) : Int) + b.weight t = (h + 1 + 1 : Nat) := by omega
        rw [hheight] at hends
        have hle := ih hends ((closes_cons hclose (j := k + 1) (by omega) (by omega)).1 hk)
        omega
    · obtain ⟨hlast, hrest⟩ := (ends_closing hclose).1 hends
      cases k with
      | zero => exact Nat.zero_le h
      | succ k =>
        have hk := (closes_succ_closing hclose).1 hk
        cases h with
        | zero =>
          rw [hlast rfl] at hk
          exact absurd hk.choose_spec.choose_spec.1 (by simp)
        | succ h => exact Nat.succ_le_succ (ih hrest hk)

theorem matches_nil {stack : List α} : b.Matches stack [] := by
  constructor
  · rintro ⟨pre, o, c, rest, c', hts, -⟩
    exact absurd hts (by simp)
  · rintro k c ⟨pre, post, hts, -⟩
    exact absurd hts (by simp)

theorem matches_opening {stack : List α} (h : b.closer t = some c) :
    b.Matches stack (t :: ts) ↔ b.Matches (c :: stack) ts := by
  have hclose : b.closing t = false := Bool.eq_false_iff.2 fun hclose => by
    rw [b.closing_closer t hclose] at h
    cases h
  have hcloses (k : Nat) (c' : α) : b.Closes k (t :: ts) c' ↔ b.Closes (k + 1) ts c' :=
    closes_cons hclose (by rw [weight_opening h]; rfl) (by rw [weight_opening h]; decide)
  unfold Matches
  simp only [mispaired_cons, h, hcloses, Option.some.injEq]
  constructor
  · rintro ⟨hpaired, hstack⟩
    rw [not_or] at hpaired
    refine ⟨hpaired.2, fun k c' hk => ?_⟩
    cases k with
    | zero =>
      by_contra hne
      exact hpaired.1 ⟨c, c', rfl, hk, fun heq => hne (by rw [heq]; rfl)⟩
    | succ k => exact hstack k c' hk
  · rintro ⟨hpaired, hstack⟩
    refine ⟨?_, fun k c' hk => hstack (k + 1) c' hk⟩
    rintro (⟨_, c', rfl, hk, hne⟩ | hmis)
    · exact hne (Option.some.inj (hstack 0 c' hk)).symm
    · exact hpaired hmis

theorem matches_closing {stack : List α} (h : b.closing t = true) :
    b.Matches (c :: stack) (t :: ts) ↔ t = c ∧ b.Matches stack ts := by
  unfold Matches
  rw [mispaired_cons]
  simp only [b.closing_closer t h, reduceCtorEq, false_and, exists_false, false_or]
  constructor
  · rintro ⟨hpaired, hstack⟩
    refine ⟨(Option.some.inj (hstack 0 t ((closes_zero_closing h).2 rfl))).symm, hpaired,
      fun k c' hk => hstack (k + 1) c' ((closes_succ_closing h).2 hk)⟩
  · rintro ⟨rfl, hpaired, hstack⟩
    refine ⟨hpaired, fun k c' hk => ?_⟩
    cases k with
    | zero => rw [(closes_zero_closing h).1 hk]; rfl
    | succ k => exact hstack k c' ((closes_succ_closing h).1 hk)

theorem matches_other {stack : List α} (hopen : b.closer t = none) (hclose : b.closing t = false) :
    b.Matches stack (t :: ts) ↔ b.Matches stack ts := by
  have hcloses (k : Nat) (c : α) : b.Closes k (t :: ts) c ↔ b.Closes k ts c :=
    closes_cons hclose (by rw [weight_other hopen hclose, Int.add_zero])
      (Int.le_of_eq (weight_other hopen hclose).symm)
  unfold Matches
  simp only [mispaired_cons, hopen, hcloses, reduceCtorEq, false_and, exists_false, false_or]

/-- `scan` accepts a text exactly when the brackets to come are closed, by their numbers, at its
end and not before, and those that meet are of one kind. -/
theorem scan_iff_ends [DecidableEq α] {stack : List α} {n : Nat} :
    b.scan (c :: stack) ts = some n ↔ b.Ends ((stack.length + 1 : Nat) : Int) ts ∧
      b.Matches (c :: stack) ts ∧ b.sepsFrom ((stack.length + 1 : Nat) : Int) ts = n := by
  induction ts generalizing c stack n with
  | nil =>
    refine ⟨fun h => (by cases h), ?_⟩
    rintro ⟨⟨hdepth, -⟩, -⟩
    rw [depth_nil] at hdepth
    omega
  | cons t ts ih =>
    rw [sepsFrom_cons, scan]
    rcases hopen : b.closer t with _ | c'
    · rcases hclose : b.closing t with _ | _
      · -- neither: it may be a separator
        have hsep : (t = b.sep ∧ ((stack.length + 1 : Nat) : Int) = 1) ↔
            stack = [] ∧ t = b.sep := by
          rw [and_comm, ← List.length_eq_zero_iff]
          exact and_congr_left fun _ => by omega
        simp only [hsep, Bool.false_eq_true, if_false, Option.map_eq_some_iff, ih,
          ends_cons hclose, matches_other hopen hclose, weight_other hopen hclose, Int.add_zero]
        constructor
        · rintro ⟨m, ⟨hends, hmatches, rfl⟩, rfl⟩
          exact ⟨hends, hmatches, rfl⟩
        · rintro ⟨hends, hmatches, rfl⟩
          exact ⟨_, ⟨hends, hmatches, rfl⟩, rfl⟩
      · have hsep : ¬ (t = b.sep ∧ ((stack.length + 1 : Nat) : Int) = 1) := by
          rintro ⟨rfl, -⟩
          rw [b.closing_sep] at hclose
          cases hclose
        have hheight : ((stack.length + 1 : Nat) : Int) + b.weight t = (stack.length : Nat) := by
          rw [weight_closing hclose]
          omega
        rw [if_neg hsep, Nat.add_zero, hheight, if_pos rfl, ends_closing hclose,
          matches_closing hclose]
        by_cases htc : t = c
        · simp only [if_true, htc]
          cases stack with
          | nil =>
            -- the bracket that ends the text
            cases ts with
            | nil =>
              refine ⟨fun h => ⟨⟨fun _ => rfl, ends_nil⟩, ⟨trivial, matches_nil⟩, ?_⟩, fun h => ?_⟩
              · exact Option.some.inj h
              · exact congrArg some h.2.2
            | cons t' ts =>
              refine ⟨fun h => (by cases h), fun h => ?_⟩
              exact absurd (h.1.1 rfl) (List.cons_ne_nil _ _)
          | cons c' stack =>
            rw [ih]
            refine ⟨fun h => ⟨⟨fun hnil => (by cases hnil), h.1⟩, ⟨trivial, h.2.1⟩, h.2.2⟩, ?_⟩
            exact fun h => ⟨h.1.2, h.2.1.2, h.2.2⟩
        · rw [if_neg htc]
          exact ⟨fun h => (by cases h), fun h => absurd h.2.1.1 htc⟩
    · have hclose : b.closing t = false := Bool.eq_false_iff.2 fun hclose => by
        rw [b.closing_closer t hclose] at hopen
        cases hopen
      have hsep : ¬ (t = b.sep ∧ ((stack.length + 1 : Nat) : Int) = 1) := by
        rintro ⟨rfl, -⟩
        rw [b.closer_sep] at hopen
        cases hopen
      rw [if_neg hsep, ends_cons hclose, matches_opening hopen, weight_opening hopen]
      exact ih

/-- What stands after an opening bracket is read to its closing bracket at the end exactly when
the numbers say so and no bracket closes one of another kind. -/
theorem scan_iff_counts [DecidableEq α] (ho : b.closer o = some c) {n : Nat} :
    b.scan [c] ts = some n ↔ b.Counts id n (o :: ts) ∧ ¬ b.Mispaired (o :: ts) := by
  have hclose : b.closing o = false := Bool.eq_false_iff.2 fun hclose => by
    rw [b.closing_closer o hclose] at ho
    cases ho
  have hsep : ¬ (o = b.sep ∧ (0 : Int) = 1) := nofun
  have hends : b.Ends ((([] : List α).length + 1 : Nat) : Int) ts ↔ b.Ends 0 (o :: ts) := by
    rw [ends_cons hclose, weight_opening ho]
    rfl
  have hseps : b.sepsFrom ((([] : List α).length + 1 : Nat) : Int) ts = b.sepsFrom 0 (o :: ts) := by
    rw [sepsFrom_cons, if_neg hsep, weight_opening ho]
    rfl
  have hcounts : b.Counts id n (o :: ts) ↔ b.Ends 0 (o :: ts) ∧ b.sepsFrom 0 (o :: ts) = n := by
    unfold Ends sepsFrom
    simp only [Int.zero_add]
    constructor
    · intro h
      exact ⟨⟨h.closes, h.last⟩, Int.ofNat_inj.1 h.seps⟩
    · rintro ⟨⟨hcloses, hlast⟩, hn⟩
      exact ⟨hcloses, hlast, congrArg Nat.cast hn⟩
  rw [scan_iff_ends, hcounts, hseps, ← hends]
  constructor
  · rintro ⟨hends, ⟨hpaired, hstack⟩, hn⟩
    refine ⟨⟨hends, hn⟩, ?_⟩
    rw [mispaired_cons]
    rintro (⟨c', c'', hc', hk, hne⟩ | hmis)
    · rw [ho, Option.some.injEq] at hc'
      subst hc'
      exact hne (Option.some.inj (hstack 0 c'' hk)).symm
    · exact hpaired hmis
  · rintro ⟨⟨hends, hn⟩, hpaired⟩
    rw [mispaired_cons, not_or] at hpaired
    refine ⟨hends, ⟨hpaired.2, fun k c' hk => ?_⟩, hn⟩
    -- only the bracket before the text can be closed
    obtain rfl : k = 0 := Nat.le_zero.1 (hends.closes_lt hk)
    by_contra hne
    exact hpaired.1 ⟨c, c', ho, hk, fun heq => hne (by rw [heq]; rfl)⟩

end Brackets
