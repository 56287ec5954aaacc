import Mathlib.Data.List.Basic

/-!
# Bracketed texts

`Balanced` texts over any tokens whose brackets match by kind, and `scan`, which reads one with a
stack of the brackets to come. `scan` accepts what stands between an opening bracket and the
closing bracket at the end of the text, and counts its arguments (`scan_iff`).
-/

/-- `closer` gives the closing bracket of an opening one. -/
structure Brackets (α : Type*) where
  closer : α → Option α
  closing : α → Bool
  sep : α
  closer_closing : ∀ o c, closer o = some c → closing c
  closing_closer : ∀ c, closing c → closer c = none
  closer_sep : closer sep = none
  closing_sep : closing sep = false

namespace Brackets

variable {α : Type*} (b : Brackets α)

/-- A text whose brackets match; as an argument (`arg`) it has no separator outside of them. -/
inductive Balanced : (arg : Bool) → List α → Prop
  | nil {arg : Bool} : Balanced arg []
  | item {arg : Bool} {t : α} {ts : List α} (hopen : b.closer t = none)
    (hclose : b.closing t = false) (hsep : arg → t ≠ b.sep) (h : Balanced arg ts) :
    Balanced arg (t :: ts)
  | group {arg : Bool} {o c : α} {inner ts : List α} (hclose : b.closer o = some c)
    (hinner : Balanced false inner) (h : Balanced arg ts) :
    Balanced arg (o :: inner ++ c :: ts)

abbrev Argument (ts : List α) : Prop := b.Balanced true ts

/-- What an argument list puts between its brackets. -/
def join (args : List (List α)) : List α := List.intercalate [b.sep] args

/-- Read a text to the closing bracket that is its end, `stack` being the closing brackets to
come: the number of separators at the outermost level. -/
def scan [DecidableEq α] : (stack : List α) → List α → Option Nat
  | [], [] => some 0
  | [], _ :: _ => none
  | _ :: _, [] => none
  | c :: stack, t :: ts =>
    match b.closer t with
    | some c' => scan (c' :: c :: stack) ts
    | none =>
      if b.closing t then if t = c then scan stack ts else none
      else (scan (c :: stack) ts).map (· + if stack = [] ∧ t = b.sep then 1 else 0)

variable {b}

@[simp] theorem join_singleton (a : List α) : b.join [a] = a := by simp [join]

@[simp] theorem join_cons_cons (a a' : List α) (args : List (List α)) :
    b.join (a :: a' :: args) = a ++ b.sep :: b.join (a' :: args) := by
  simp [join, List.intercalate, List.intersperse]

theorem join_append (pre a : List α) (args : List (List α)) :
    b.join ((pre ++ a) :: args) = pre ++ b.join (a :: args) := by
  cases args <;> simp

/-- An argument has no separator behind text without brackets. -/
theorem not_argument_of_first {pre ts : List α} (hpre : ∀ t ∈ pre, b.closer t = none) :
    ¬ b.Argument (pre ++ b.sep :: ts) := by
  induction pre with
  | nil =>
    intro h
    generalize hlist : ([] : List α) ++ b.sep :: ts = list at h
    cases h with
    | nil => cases hlist
    | item _ _ hsep _ => exact hsep rfl (List.cons.inj hlist).1.symm
    | group hclose _ _ =>
      rw [← (List.cons.inj hlist).1, b.closer_sep] at hclose
      cases hclose
  | cons t pre ih =>
    intro h
    generalize hlist : t :: pre ++ b.sep :: ts = list at h
    cases h with
    | nil => cases hlist
    | item _ _ _ hrest =>
      rw [← (List.cons.inj hlist).2] at hrest
      exact ih (fun t' ht' => hpre t' (List.mem_cons_of_mem _ ht')) hrest
    | group hclose _ _ =>
      rw [← (List.cons.inj hlist).1, hpre t List.mem_cons_self] at hclose
      cases hclose

/-- An argument has no separator in front of text without brackets. -/
theorem Balanced.ne_of_last {arg : Bool} {list post : List α} (h : b.Balanced arg list)
    (harg : arg = true) (hpost : ∀ t ∈ post, b.closing t = false) (ts : List α) :
    ts ++ b.sep :: post ≠ list := by
  intro hlist
  induction h generalizing ts with
  | nil => exact absurd hlist (by simp)
  | item hopen hclose hsep _ ih =>
    cases ts with
    | nil => exact hsep harg (List.cons.inj hlist).1.symm
    | cons t ts => exact ih harg ts (List.cons.inj hlist).2
  | @group _ o c inner rest hclose _ _ _ ih =>
    have hne : b.sep ≠ c := fun heq => by
      have hclosing := b.closer_closing o c hclose
      rw [← heq, b.closing_sep] at hclosing
      cases hclosing
    -- the separator stands behind the group, since no bracket that closes one is in `post`
    rcases List.append_eq_append_iff.1 hlist with ⟨mid, -, hrest⟩ | ⟨mid, -, hrest⟩
    · cases mid with
      | nil => exact hne (List.cons.inj hrest).1
      | cons t mid =>
        have hmem : c ∈ post := by
          rw [(List.cons.inj hrest).2]
          simp
        have hclosing := b.closer_closing o c hclose
        rw [hpost c hmem] at hclosing
        cases hclosing
    · cases mid with
      | nil => exact hne (List.cons.inj hrest).1.symm
      | cons t mid => exact ih harg mid (List.cons.inj hrest).2.symm

/-! ## What `scan` accepts is read -/

/-- What is still to come when the closing brackets `stack` are. -/
def Remaining (b : Brackets α) : List α → Nat → List α → Prop
  | [], n, ts => n = 0 ∧ ts = []
  | [c], n, ts => ∃ a args, args.length = n ∧ (∀ a' ∈ a :: args, b.Argument a') ∧
      ts = b.join (a :: args) ++ [c]
  | c :: stack, n, ts => ∃ inner rest, b.Balanced false inner ∧ ts = inner ++ c :: rest ∧
      b.Remaining stack n rest

theorem remaining_close {c : α} {stack ts : List α} {n : Nat} (h : b.Remaining stack n ts) :
    b.Remaining (c :: stack) n (c :: ts) := by
  cases stack with
  | nil =>
    obtain ⟨rfl, rfl⟩ := h
    exact ⟨[], [], rfl, by simp [Balanced.nil], by simp⟩
  | cons c' stack => exact ⟨[], ts, .nil, rfl, h⟩

/-- Text in front of what is to come. -/
theorem remaining_append {c : α} {stack pre ts : List α} {n : Nat}
    (hpre : ∀ arg ts, (stack = [] → arg = true) → (stack ≠ [] → arg = false) →
      b.Balanced arg ts → b.Balanced arg (pre ++ ts))
    (h : b.Remaining (c :: stack) n ts) : b.Remaining (c :: stack) n (pre ++ ts) := by
  cases stack with
  | nil =>
    obtain ⟨a, args, hlen, hargs, rfl⟩ := h
    refine ⟨pre ++ a, args, hlen, ?_, ?_⟩
    · intro a' ha'
      rcases List.mem_cons.1 ha' with rfl | ha'
      · exact hpre true a (fun _ => rfl) (fun hne => absurd rfl hne) (hargs a List.mem_cons_self)
      · exact hargs a' (List.mem_cons_of_mem _ ha')
    · rw [join_append, List.append_assoc]
  | cons c' stack =>
    obtain ⟨inner, rest, hinner, rfl, hrest⟩ := h
    exact ⟨pre ++ inner, rest, hpre false inner (fun h => absurd h (by simp)) (fun _ => rfl) hinner,
      by rw [List.append_assoc], hrest⟩

theorem remaining_sep {c : α} {ts : List α} {n : Nat} (h : b.Remaining [c] n ts) :
    b.Remaining [c] (n + 1) (b.sep :: ts) := by
  obtain ⟨a, args, rfl, hargs, rfl⟩ := h
  refine ⟨[], a :: args, rfl, ?_, by simp⟩
  intro a' ha'
  rcases List.mem_cons.1 ha' with rfl | ha'
  · exact .nil
  · exact hargs a' ha'

theorem remaining_of_scan [DecidableEq α] {stack ts : List α} {n : Nat}
    (h : b.scan stack ts = some n) : b.Remaining stack n ts := by
  induction ts generalizing stack n with
  | nil =>
    cases stack with
    | nil => exact ⟨(Option.some.inj h).symm, rfl⟩
    | cons => cases h
  | cons t ts ih =>
    cases stack with
    | nil => cases h
    | cons c stack =>
      simp only [scan] at h
      split at h
      · rename_i c' hopen
        obtain ⟨inner, rest, hinner, rfl, hrest⟩ := ih h
        have hpre : ∀ arg ts, (stack = [] → arg = true) → (stack ≠ [] → arg = false) →
            b.Balanced arg ts → b.Balanced arg (t :: inner ++ [c'] ++ ts) :=
          fun arg ts _ _ hts => by simpa using Balanced.group hopen hinner hts
        simpa using remaining_append hpre hrest
      · rename_i hopen
        split at h
        · split at h
          · rename_i heq
            exact heq ▸ remaining_close (ih h)
          · cases h
        · rename_i hclose
          obtain ⟨m, hm, rfl⟩ := Option.map_eq_some_iff.1 h
          have hrest := ih hm
          by_cases hsep : stack = [] ∧ t = b.sep
          · obtain ⟨rfl, rfl⟩ := hsep
            simpa using remaining_sep hrest
          · rw [if_neg hsep, Nat.add_zero]
            have hpre : ∀ arg ts, (stack = [] → arg = true) → (stack ≠ [] → arg = false) →
                b.Balanced arg ts → b.Balanced arg ([t] ++ ts) := by
              intro arg ts _ hnarg hts
              refine .item hopen (by simpa using hclose) (fun harg ht => hsep ⟨?_, ht⟩) hts
              by_contra hne
              rw [hnarg hne] at harg
              cases harg
            exact remaining_append hpre hrest

/-! ## What is read `scan` accepts -/

variable [DecidableEq α]

theorem scan_close {c : α} (hc : b.closing c) (stack ts : List α) :
    b.scan (c :: stack) (c :: ts) = b.scan stack ts := by
  simp [scan, b.closing_closer c hc, hc]

/-- A text whose brackets match leaves `scan` where it was. -/
theorem scan_balanced {arg : Bool} {inner : List α} (h : b.Balanced arg inner) {c : α}
    {stack : List α} (harg : stack = [] → arg = true) (ts : List α) :
    b.scan (c :: stack) (inner ++ ts) = b.scan (c :: stack) ts := by
  induction h generalizing c stack ts with
  | nil => rfl
  | item hopen hclose hsep _ ih =>
    rename_i arg t _ _
    have hcount : ¬ (stack = [] ∧ t = b.sep) := fun ⟨hstack, ht⟩ => hsep (harg hstack) ht
    simp only [List.cons_append, scan, hopen, hclose, Bool.false_eq_true, if_false, hcount,
      Nat.add_zero, Option.map_id', ih harg]
  | group hclose _ _ ihinner ih =>
    rename_i _ o c' inner ts' _ _
    calc b.scan (c :: stack) (o :: inner ++ c' :: ts' ++ ts)
      _ = b.scan (c' :: c :: stack) (inner ++ c' :: (ts' ++ ts)) := by simp [scan, hclose]
      _ = b.scan (c' :: c :: stack) (c' :: (ts' ++ ts)) := ihinner (by simp) _
      _ = b.scan (c :: stack) (ts' ++ ts) := scan_close (b.closer_closing o c' hclose) _ _
      _ = b.scan (c :: stack) ts := ih harg ts

theorem scan_join {c : α} (hc : b.closing c) (a : List α) (args : List (List α))
    (hargs : ∀ a' ∈ a :: args, b.Argument a') :
    b.scan [c] (b.join (a :: args) ++ [c]) = some args.length := by
  induction args generalizing a with
  | nil =>
    rw [join_singleton, scan_balanced (hargs a (by simp)) (fun _ => rfl), scan_close hc]
    rfl
  | cons a' args ih =>
    have hrest := ih a' fun x hx => hargs x (List.mem_cons_of_mem _ hx)
    rw [join_cons_cons, List.append_assoc, scan_balanced (hargs a (by simp)) (fun _ => rfl)]
    simp [scan, b.closer_sep, b.closing_sep, hrest]

/-- `scan` accepts the argument lists, and counts their separators. -/
theorem scan_iff {c : α} (hc : b.closing c) {ts : List α} {n : Nat} :
    b.scan [c] ts = some n ↔ ∃ args : List (List α), args.length = n + 1 ∧
      (∀ a ∈ args, b.Argument a) ∧ ts = b.join args ++ [c] := by
  constructor
  · intro h
    obtain ⟨a, args, rfl, hargs, rfl⟩ := remaining_of_scan h
    exact ⟨a :: args, rfl, hargs, rfl⟩
  · rintro ⟨args, hlen, hargs, rfl⟩
    cases args with
    | nil => cases hlen
    | cons a args =>
      rw [scan_join hc a args hargs]
      exact congrArg some (Nat.succ.inj hlen)

end Brackets
