import Cachecannon.Lib.Ledger
import Cachecannon.Worker.RoutedQueues

/-!
# A push wakes the longest-waiting connection

The waiter list mixes live and dead entries. `EntriesInv`: the entries are in the order they were
registered, and a live slot is the slot of a wait that is pending, in the list of the wait's node.
So a wait has at most one live entry, and there are no more live entries on a node than waits
(`live_lt_concurrent`), which is what bounds the list when it is compacted. An operation that only
takes entries away keeps this (`EntriesInv.shrink`); a poll that registers adds the newest one.

`WakesInv` is the other way round: the entry of a wait that goes on is live until it is woken, so
the live entries are those of the pending waits (`live_iff_waiting`).
-/

namespace Worker

variable {n : Nat} {R W : Type}

namespace RoutedQueues

/-! ## Slots -/

section Slots

variable {s : RoutedQueues n R W} {j k : Nat}

theorem live_eq_true : s.live k = true ↔ ∃ slot, s.slots[k]? = some slot ∧ slot.live = true := by
  cases h : s.slots[k]? with
  | none => simp [live, h]
  | some slot => simp [live, h]

theorem getElem?_kill : (s.kill k).slots[j]? =
    s.slots[j]?.map fun slot => if k = j then { slot with live := false } else slot := by
  rw [kill, List.getElem?_modify]
  cases s.slots[j]? with
  | none => rfl
  | some slot => by_cases h : k = j <;> simp [h]

theorem live_kill : (s.kill k).live j = (s.live j && decide (j ≠ k)) := by
  rw [live, live, getElem?_kill]
  cases s.slots[j]? with
  | none => rfl
  | some slot =>
    by_cases h : k = j
    · simp [h]
    · simp [h, Ne.symm h]

/-- The slots of `s'` are those of `s`, some of them with a new waker or no longer live. -/
def SlotsShrink (s s' : RoutedQueues n R W) : Prop :=
  ∀ k, s'.slots[k]?.map WaitSlot.owner = s.slots[k]?.map WaitSlot.owner ∧
    (s'.live k = true → s.live k = true)

theorem slotsShrink_rfl : SlotsShrink s s := fun _ => ⟨rfl, id⟩

theorem SlotsShrink.trans {s₁ s₂ s₃ : RoutedQueues n R W} (h : SlotsShrink s₁ s₂)
    (h' : SlotsShrink s₂ s₃) : SlotsShrink s₁ s₃ :=
  fun k => ⟨(h' k).1.trans (h k).1, fun hk => (h k).2 ((h' k).2 hk)⟩

theorem SlotsShrink.length {s₁ s₂ : RoutedQueues n R W} (h : SlotsShrink s₁ s₂)
    (hk : k < s₁.slots.length) : k < s₂.slots.length := by
  have howner := (h k).1
  rw [List.getElem?_eq_getElem hk, Option.map_some] at howner
  obtain ⟨slot, hslot, -⟩ := Option.map_eq_some_iff.1 howner
  exact (List.getElem?_eq_some_iff.1 hslot).1

theorem slotsShrink_kill (s : RoutedQueues n R W) (k : Nat) : SlotsShrink s (s.kill k) := by
  refine fun j => ⟨?_, fun h => ?_⟩
  · rw [getElem?_kill, Option.map_map]
    cases s.slots[j]? with
    | none => rfl
    | some slot => by_cases h : k = j <;> simp [h]
  · rw [live_kill, Bool.and_eq_true] at h
    exact h.1

theorem slotsShrink_release (s : RoutedQueues n R W) (slot : Option Nat) :
    SlotsShrink s (s.release slot) := by
  cases slot with
  | none => exact slotsShrink_rfl
  | some k => exact slotsShrink_kill s k

theorem release_nodes (slot : Option Nat) : (s.release slot).nodes = s.nodes := by
  cases slot <;> rfl

theorem release_woken (slot : Option Nat) : (s.release slot).woken = s.woken := by
  cases slot <;> rfl

theorem release_closed (slot : Option Nat) : (s.release slot).closed = s.closed := by
  cases slot <;> rfl

theorem live_release {slot : Option Nat} (h : (s.release slot).live k = true) : slot ≠ some k := by
  rintro rfl
  rw [release, live_kill] at h
  simp at h

theorem live_release_of_ne {slot : Option Nat} (h : slot ≠ some k) :
    (s.release slot).live k = s.live k := by
  cases slot with
  | none => rfl
  | some j =>
    have hne : k ≠ j := fun heq => h (congrArg some heq.symm)
    simp [release, live_kill, hne]

end Slots

end RoutedQueues

open RoutedQueues

/-! ## The entries -/

structure EntriesInv (s : RoutedQueues n R W) : Prop where
  sorted : ∀ node, (s.nodes node).waiters.Pairwise (· < ·)
  entry : ∀ node, ∀ k ∈ (s.nodes node).waiters, ∃ w wait,
    s.slots[k]?.map WaitSlot.owner = some w ∧ s.waits[w]? = some wait ∧ wait.node = node
  live : ∀ k slot, s.slots[k]? = some slot → slot.live = true → ∃ wait,
    s.waits[slot.owner]? = some wait ∧ wait.done = false ∧ wait.slot = some k ∧
      k ∈ (s.nodes wait.node).waiters

/-- The slot is live, and a wait on the node registered it. -/
def LiveOn (s : RoutedQueues n R W) (node : Fin n) (k : Nat) : Prop :=
  s.live k = true ∧ ∃ w wait, s.slots[k]?.map WaitSlot.owner = some w ∧
    s.waits[w]? = some wait ∧ wait.node = node

variable {s s' : RoutedQueues n R W}

theorem EntriesInv.mem_waiters (h : EntriesInv s) {node : Fin n} {k : Nat} (hk : LiveOn s node k) :
    k ∈ (s.nodes node).waiters := by
  obtain ⟨hlive, w, wait, howner, hwait, rfl⟩ := hk
  obtain ⟨slot, hslot, hlive⟩ := live_eq_true.1 hlive
  obtain ⟨wait', hwait', -, -, hmem⟩ := h.live k slot hslot hlive
  rw [hslot, Option.map_some, Option.some.injEq] at howner
  rw [howner, hwait, Option.some.injEq] at hwait'
  rw [hwait']
  exact hmem

theorem EntriesInv.liveOn (h : EntriesInv s) {node : Fin n} {k : Nat}
    (hmem : k ∈ (s.nodes node).waiters) (hlive : s.live k = true) : LiveOn s node k :=
  ⟨hlive, h.entry node k hmem⟩

/-- A wait has at most one live entry. -/
theorem EntriesInv.live_unique (h : EntriesInv s) {j k w : Nat} (hj : s.live j = true)
    (hk : s.live k = true) (hownerj : s.slots[j]?.map WaitSlot.owner = some w)
    (hownerk : s.slots[k]?.map WaitSlot.owner = some w) : j = k := by
  obtain ⟨slotj, hslotj, hlivej⟩ := live_eq_true.1 hj
  obtain ⟨slotk, hslotk, hlivek⟩ := live_eq_true.1 hk
  obtain ⟨waitj, hwaitj, -, hj, -⟩ := h.live j slotj hslotj hlivej
  obtain ⟨waitk, hwaitk, -, hk, -⟩ := h.live k slotk hslotk hlivek
  rw [hslotj, Option.map_some, Option.some.injEq] at hownerj
  rw [hslotk, Option.map_some, Option.some.injEq] at hownerk
  rw [hownerj] at hwaitj
  rw [hownerk, hwaitj, Option.some.injEq] at hwaitk
  rw [hwaitk, hk, Option.some.injEq] at hj
  exact hj.symm

/-- An operation that takes entries away: the wait of a slot that stays live is as it was, and so
is the slot's place in the lists. -/
structure Shrinks (s s' : RoutedQueues n R W) : Prop where
  waiters : ∀ node, (s'.nodes node).waiters.Sublist (s.nodes node).waiters
  slots : SlotsShrink s s'
  waits : ∀ (w : Nat) wait, s.waits[w]? = some wait →
    ∃ wait', s'.waits[w]? = some wait' ∧ wait'.node = wait.node
  kept : ∀ k w, s'.live k = true → s'.slots[k]?.map WaitSlot.owner = some w →
    (∀ wait, s.waits[w]? = some wait → s'.waits[w]? = some wait) ∧
      ∀ node, k ∈ (s.nodes node).waiters → k ∈ (s'.nodes node).waiters

theorem EntriesInv.shrink (h : EntriesInv s) (hs : Shrinks s s') : EntriesInv s' where
  sorted node := (h.sorted node).sublist (hs.waiters node)
  entry := by
    intro node k hk
    obtain ⟨w, wait, howner, hwait, hnode⟩ := h.entry node k ((hs.waiters node).subset hk)
    obtain ⟨wait', hwait', hnode'⟩ := hs.waits w wait hwait
    exact ⟨w, wait', (hs.slots k).1.trans howner, hwait', hnode'.trans hnode⟩
  live := by
    intro k slot' hslot' hlive'
    have howner' : s'.slots[k]?.map WaitSlot.owner = some slot'.owner := by rw [hslot']; rfl
    have hlive : s'.live k = true := live_eq_true.2 ⟨slot', hslot', hlive'⟩
    obtain ⟨hsame, hstays⟩ := hs.kept k slot'.owner hlive howner'
    obtain ⟨slot, hslot, hslotlive⟩ := live_eq_true.1 ((hs.slots k).2 hlive)
    obtain ⟨wait, hwait, hdone, hat, hmem⟩ := h.live k slot hslot hslotlive
    have howner := (hs.slots k).1.symm.trans howner'
    rw [hslot, Option.map_some, Option.some.injEq] at howner
    rw [howner] at hwait
    exact ⟨wait, hsame wait hwait, hdone, hat, hstays _ hmem⟩

/-! ## Push -/

theorem popLive_cases (live : Nat → Bool) (ks : List Nat) :
    ((∀ k ∈ ks, live k = false) ∧ popLive live ks = (none, [])) ∨
    ∃ dead k rest, ks = dead ++ k :: rest ∧ (∀ j ∈ dead, live j = false) ∧ live k = true ∧
      popLive live ks = (some k, rest) := by
  induction ks with
  | nil => exact .inl ⟨nofun, rfl⟩
  | cons k ks ih =>
    rw [popLive]
    cases hlive : live k with
    | true => exact .inr ⟨[], k, ks, rfl, nofun, hlive, if_pos rfl⟩
    | false =>
      rw [if_neg Bool.false_ne_true]
      rcases ih with ⟨hall, hpop⟩ | ⟨dead, j, rest, rfl, hdead, hj, hpop⟩
      · refine .inl ⟨fun j hj => ?_, hpop⟩
        rcases List.mem_cons.1 hj with rfl | hj
        · exact hlive
        · exact hall j hj
      · refine .inr ⟨k :: dead, j, rest, rfl, fun i hi => ?_, hj, hpop⟩
        rcases List.mem_cons.1 hi with rfl | hi
        · exact hlive
        · exact hdead i hi

/-- What a push that is not refused does: it wakes the earliest of the live entries, if any. -/
theorem push_cases (h : EntriesInv s) {node : Fin n} {r : R}
    (hroom : (s.nodes node).requests.length < (s.nodes node).cap) :
    ((∀ k, ¬ LiveOn s node k) ∧ s.push node r = (true, s.setNode node
      { s.nodes node with requests := (s.nodes node).requests ++ [r], waiters := []
                          pushed := (s.nodes node).pushed ++ [r] })) ∨
    ∃ dead k rest, (s.nodes node).waiters = dead ++ k :: rest ∧
      (∀ j ∈ dead, s.live j = false) ∧ LiveOn s node k ∧
      (∀ j, LiveOn s node j → k ≤ j) ∧ s.push node r = (true, (s.setNode node
        { s.nodes node with requests := (s.nodes node).requests ++ [r], waiters := rest
                            pushed := (s.nodes node).pushed ++ [r] }).wake k) := by
  rcases popLive_cases s.live (s.nodes node).waiters with
    ⟨hall, hpop⟩ | ⟨dead, k, rest, hwaiters, hdead, hk, hpop⟩
  · refine .inl ⟨fun k hk => ?_, ?_⟩
    · have hlive := hall k (h.mem_waiters hk)
      rw [hk.1] at hlive
      cases hlive
    · rw [push, if_neg (Nat.not_le.2 hroom), hpop]
  · have hmem : k ∈ (s.nodes node).waiters := by
      rw [hwaiters]
      exact List.mem_append_right dead List.mem_cons_self
    refine .inr ⟨dead, k, rest, hwaiters, hdead, h.liveOn hmem hk, fun j hj => ?_, ?_⟩
    · have hmemj := h.mem_waiters hj
      have hsorted := h.sorted node
      rw [hwaiters] at hmemj hsorted
      rcases List.mem_append.1 hmemj with hmemj | hmemj
      · have hdeadj := hdead j hmemj
        rw [hj.1] at hdeadj
        cases hdeadj
      · rcases List.mem_cons.1 hmemj with rfl | hmemj
        · exact le_rfl
        · exact ((List.pairwise_cons.1 (List.pairwise_append.1 hsorted).2.1).1 j hmemj).le
    · rw [push, if_neg (Nat.not_le.2 hroom), hpop]

theorem setNode_nodes (node node' : Fin n) (q : NodeQueue R) :
    (s.setNode node q).nodes node' = if node' = node then q else s.nodes node' := by
  rw [setNode]
  by_cases h : node' = node
  · subst h
    simp
  · simp [h]

theorem setNode_waiters_nil {node : Fin n} {q : NodeQueue R}
    (h : ∀ node, (s.nodes node).waiters = []) (hq : q.waiters = []) (node' : Fin n) :
    ((s.setNode node q).nodes node').waiters = [] := by
  rw [setNode_nodes]
  split
  · exact hq
  · exact h node'

/-- New waiters of one node. -/
theorem setNode_waiters_sublist {node : Fin n} {q : NodeQueue R}
    (h : q.waiters.Sublist (s.nodes node).waiters) (node' : Fin n) :
    ((s.setNode node q).nodes node').waiters.Sublist (s.nodes node').waiters := by
  rw [setNode_nodes]
  split
  · rename_i heq
    rw [heq]
    exact h
  · exact List.Sublist.refl _

theorem shrinks_setNode {node : Fin n} {q : NodeQueue R}
    (hsub : q.waiters.Sublist (s.nodes node).waiters)
    (hkept : ∀ k ∈ (s.nodes node).waiters, s.live k = true → k ∈ q.waiters) :
    Shrinks s (s.setNode node q) where
  waiters := setNode_waiters_sublist hsub
  slots := slotsShrink_rfl
  waits _ wait hwait := ⟨wait, hwait, rfl⟩
  kept := by
    refine fun k w hlive _ => ⟨fun _ => id, fun node' hmem => ?_⟩
    rw [setNode_nodes]
    split
    · rename_i heq
      rw [heq] at hmem
      exact hkept k hmem hlive
    · exact hmem

/-- The entry that is woken leaves the list, with the dead ones before it. -/
theorem shrinks_wake {node : Fin n} {q : NodeQueue R} {dead rest : List Nat} {k : Nat}
    (hwaiters : (s.nodes node).waiters = dead ++ k :: rest) (hdead : ∀ j ∈ dead, s.live j = false)
    (hq : q.waiters = rest) : Shrinks s ((s.setNode node q).wake k) where
  waiters := by
    apply setNode_waiters_sublist
    rw [hq, hwaiters]
    exact (List.sublist_cons_self k rest).trans (List.sublist_append_right dead _)
  slots := slotsShrink_kill s k
  waits _ wait hwait := ⟨wait, hwait, rfl⟩
  kept := by
    refine fun j w hlive _ => ⟨fun _ => id, fun node' hmem => ?_⟩
    have hlive : (s.kill k).live j = true := hlive
    rw [live_kill, Bool.and_eq_true, decide_eq_true_eq] at hlive
    show j ∈ ((s.setNode node q).nodes node').waiters
    rw [setNode_nodes]
    split
    · rename_i heq
      rw [heq, hwaiters] at hmem
      rw [hq]
      rcases List.mem_append.1 hmem with hmem | hmem
      · rw [hdead j hmem] at hlive
        exact absurd hlive.1 Bool.false_ne_true
      · exact (List.mem_cons.1 hmem).resolve_left hlive.2
    · exact hmem

theorem entriesInv_push (h : EntriesInv s) (node : Fin n) (r : R) :
    EntriesInv (s.push node r).2 := by
  rcases Nat.lt_or_ge (s.nodes node).requests.length (s.nodes node).cap with hroom | hfull
  · rcases push_cases h (r := r) hroom with ⟨hnone, hpush⟩ | ⟨dead, k, rest, hw, hdead, -, -, hpush⟩
    · rw [hpush]
      refine h.shrink (shrinks_setNode (List.nil_sublist _) fun k hk hlive => ?_)
      exact absurd (h.liveOn hk hlive) (hnone k)
    · rw [hpush]
      exact h.shrink (shrinks_wake hw hdead rfl)
  · rw [push, if_pos hfull]
    exact h

/-! ## The waits -/

theorem getElem?_append_some {α : Type} {l l' : List α} {i : Nat} {a : α} (h : l[i]? = some a) :
    (l ++ l')[i]? = some a := by
  rw [List.getElem?_append_left (List.getElem?_eq_some_iff.1 h).1, h]

/-- A wait that ends takes its live entry with it. -/
theorem shrinks_endWait (h : EntriesInv s) {w : Nat} {wait wait' : NodeWait n}
    (hwait : s.waits[w]? = some wait) (hnode : wait'.node = wait.node) :
    Shrinks s { s.release wait.slot with waits := s.waits.set w wait' } where
  waiters node := by
    show ((s.release wait.slot).nodes node).waiters.Sublist _
    rw [release_nodes]
  slots := slotsShrink_release s wait.slot
  waits v wait'' hwait'' := by
    show ∃ _, (s.waits.set w wait')[v]? = _ ∧ _
    rcases eq_or_ne w v with rfl | hne
    · obtain ⟨hlt, -⟩ := List.getElem?_eq_some_iff.1 hwait
      rw [hwait, Option.some.injEq] at hwait''
      exact ⟨wait', List.getElem?_set_self hlt, by rw [hnode, hwait'']⟩
    · exact ⟨wait'', by rw [List.getElem?_set_ne hne, hwait''], rfl⟩
  kept := by
    intro k v hlive howner
    have hlive : (s.release wait.slot).live k = true := hlive
    refine ⟨?_, fun node hmem => ?_⟩
    · intro wait'' hwait''
      show (s.waits.set w wait')[v]? = _
      rw [← hwait'']
      refine List.getElem?_set_ne fun hv => ?_
      subst hv
      -- the live entry of this wait was its slot, which is released
      obtain ⟨slot, hslot, hslotlive⟩ :=
        live_eq_true.1 ((slotsShrink_release s wait.slot k).2 hlive)
      obtain ⟨owned, howned, -, hat, -⟩ := h.live k slot hslot hslotlive
      have howner := (slotsShrink_release s wait.slot k).1.symm.trans howner
      rw [hslot, Option.map_some, Option.some.injEq] at howner
      rw [howner, hwait, Option.some.injEq] at howned
      rw [← howned] at hat
      exact live_release hlive hat
    · show k ∈ ((s.release wait.slot).nodes node).waiters
      rw [release_nodes]
      exact hmem

theorem getElem?_setWaker (s : RoutedQueues n R W) (k : Nat) (waker : W) (j : Nat) :
    (s.slots.modify k fun slot => { slot with waker })[j]? =
      s.slots[j]?.map fun slot => if k = j then { slot with waker } else slot := by
  rw [List.getElem?_modify]
  cases s.slots[j]? with
  | none => rfl
  | some slot => by_cases h : k = j <;> simp [h]

theorem live_setWaker (s : RoutedQueues n R W) (k : Nat) (waker : W) (j : Nat) :
    ({ s with slots := s.slots.modify k fun slot => { slot with waker } } :
      RoutedQueues n R W).live j = s.live j := by
  rw [live, live, getElem?_setWaker]
  cases s.slots[j]? with
  | none => rfl
  | some slot => by_cases h : k = j <;> simp [h]

theorem shrinks_setWaker (s : RoutedQueues n R W) (k : Nat) (waker : W) :
    Shrinks s { s with slots := s.slots.modify k fun slot => { slot with waker } } where
  waiters _ := List.Sublist.refl _
  slots := by
    refine fun j => ⟨?_, fun hlive => live_setWaker s k waker j ▸ hlive⟩
    show (s.slots.modify k fun slot => { slot with waker })[j]?.map _ = _
    rw [getElem?_setWaker]
    cases s.slots[j]? with
    | none => rfl
    | some slot => by_cases h : k = j <;> simp [h]
  waits _ wait hwait := ⟨wait, hwait, rfl⟩
  kept _ _ _ _ := ⟨fun _ => id, fun _ => id⟩

/-- The wait that registers has no live entry, so the others with one are fewer than the waits. -/
theorem live_lt_concurrent (h : EntriesInv s) {w : Nat} {wait : NodeWait n}
    (hwait : s.waits[w]? = some wait) (hdone : wait.done = false)
    (hnone : wait.slot.filter s.live = none) :
    ((s.nodes wait.node).waiters.filter s.live).length < s.concurrent wait.node := by
  let owner (k : Nat) : Nat := (s.slots[k]?.map WaitSlot.owner).getD 0
  let pending (v : Nat) : Bool :=
    (fun wait' : NodeWait n => !wait'.done && wait'.node = wait.node)
      (s.waits.getD v ⟨wait.node, none, true⟩)
  have hlive : ∀ k ∈ (s.nodes wait.node).waiters.filter s.live, LiveOn s wait.node k := by
    intro k hk
    obtain ⟨hmem, hlive⟩ := List.mem_filter.1 hk
    exact h.liveOn hmem hlive
  have hnodup : (((s.nodes wait.node).waiters.filter s.live).map owner).Nodup := by
    refine List.pairwise_map.2 (((h.sorted wait.node).sublist
      List.filter_sublist).imp_of_mem fun {j k} hj hk hlt heq => ?_)
    obtain ⟨hlivej, wj, -, hownerj, -⟩ := hlive j hj
    obtain ⟨hlivek, wk, -, hownerk, -⟩ := hlive k hk
    have heq : wj = wk := by simpa [owner, hownerj, hownerk] using heq
    rw [heq] at hownerj
    have := h.live_unique hlivej hlivek hownerj hownerk
    omega
  have hsub : ∀ v ∈ ((s.nodes wait.node).waiters.filter s.live).map owner,
      v ∈ (List.range s.waits.length).filter pending ∧ v ≠ w := by
    intro v hv
    obtain ⟨k, hk, rfl⟩ := List.mem_map.1 hv
    obtain ⟨hlivek, v, wait', howner, hwait', hnode⟩ := hlive k hk
    obtain ⟨slot, hslot, hslotlive⟩ := live_eq_true.1 hlivek
    obtain ⟨wait'', hwait'', hdone'', hat, -⟩ := h.live k slot hslot hslotlive
    have hv : owner k = v := by simp [owner, howner]
    have howner' := howner
    rw [hslot, Option.map_some, Option.some.injEq] at howner'
    rw [howner', hwait', Option.some.injEq] at hwait''
    subst hwait''
    rw [hv]
    refine ⟨List.mem_filter.2 ⟨List.mem_range.2 (List.getElem?_eq_some_iff.1 hwait').1, ?_⟩, ?_⟩
    · simp [pending, hwait', hdone'', hnode]
    · rintro rfl
      rw [hwait, Option.some.injEq] at hwait'
      rw [hwait', hat, Option.filter_some, if_pos hlivek] at hnone
      cases hnone
  have hself : w ∈ (List.range s.waits.length).filter pending := by
    refine List.mem_filter.2 ⟨List.mem_range.2 (List.getElem?_eq_some_iff.1 hwait).1, ?_⟩
    simp [pending, hwait, hdone]
  have hnodup' : (w :: ((s.nodes wait.node).waiters.filter s.live).map owner).Nodup :=
    List.nodup_cons.2 ⟨fun hmem => (hsub w hmem).2 rfl, hnodup⟩
  have hsubset : w :: ((s.nodes wait.node).waiters.filter s.live).map owner ⊆
      (List.range s.waits.length).filter pending := fun v hv => by
    rcases List.mem_cons.1 hv with rfl | hv
    · exact hself
    · exact (hsub v hv).1
  have hle := (List.subperm_of_subset hnodup' hsubset).length_le
  rw [List.length_cons, List.length_map] at hle
  have hcount := Ledger.length_filter_range s.waits ⟨wait.node, none, true⟩
    fun wait' : NodeWait n => !wait'.done && wait'.node = wait.node
  exact Nat.lt_of_lt_of_eq (Nat.lt_of_succ_le hle) hcount

theorem shrinks_wait (s : RoutedQueues n R W) (node : Fin n) : Shrinks s (s.wait node) where
  waiters _ := List.Sublist.refl _
  slots := slotsShrink_rfl
  waits _ wait hwait := ⟨wait, getElem?_append_some hwait, rfl⟩
  kept _ _ _ _ := ⟨fun _ => getElem?_append_some, fun _ => id⟩

theorem EntriesInv.lt_length (h : EntriesInv s) {node : Fin n} {k : Nat}
    (hk : k ∈ (s.nodes node).waiters) : k < s.slots.length := by
  obtain ⟨w, wait, howner, -, -⟩ := h.entry node k hk
  obtain ⟨slot, hslot, -⟩ := Option.map_eq_some_iff.1 howner
  exact (List.getElem?_eq_some_iff.1 hslot).1

/-- The waiters of a node when a wait registers on it: compacted if there are too many. -/
def keptWaiters (s : RoutedQueues n R W) (node : Fin n) : List Nat :=
  if (s.nodes node).waitersCap ≤ (s.nodes node).waiters.length then
    (s.nodes node).waiters.filter s.live
  else (s.nodes node).waiters

theorem keptWaiters_sublist (s : RoutedQueues n R W) (node : Fin n) :
    (keptWaiters s node).Sublist (s.nodes node).waiters := by
  rw [keptWaiters]
  split
  · exact List.filter_sublist
  · exact List.Sublist.refl _

theorem mem_keptWaiters {node : Fin n} {k : Nat} (hk : k ∈ (s.nodes node).waiters)
    (hlive : s.live k = true) : k ∈ keptWaiters s node := by
  rw [keptWaiters]
  split
  · exact List.mem_filter.2 ⟨hk, hlive⟩
  · exact hk

theorem register_waiters (w : Nat) (wait : NodeWait n) (waker : W) (node : Fin n) :
    ((s.register w wait waker).nodes node).waiters =
      if node = wait.node then keptWaiters s wait.node ++ [s.slots.length]
      else (s.nodes node).waiters := by
  show ((s.setNode wait.node _).nodes node).waiters = _
  rw [setNode_nodes]
  split
  · rfl
  · rfl

theorem entriesInv_register (h : EntriesInv s) {w : Nat} {wait : NodeWait n} (waker : W)
    (hwait : s.waits[w]? = some wait) (hdone : wait.done = false)
    (hnone : wait.slot.filter s.live = none) : EntriesInv (s.register w wait waker) where
  sorted node := by
    rw [register_waiters]
    split
    · refine List.pairwise_append.2 ⟨(h.sorted wait.node).sublist (keptWaiters_sublist s wait.node),
        List.pairwise_singleton _ _, fun j hj k hk => ?_⟩
      rw [List.mem_singleton.1 hk]
      exact h.lt_length ((keptWaiters_sublist s wait.node).subset hj)
    · exact h.sorted node
  entry := by
    intro node k hk
    have hself : (s.waits.set w { wait with slot := some s.slots.length })[w]? =
        some { wait with slot := some s.slots.length } :=
      List.getElem?_set_self (List.getElem?_eq_some_iff.1 hwait).1
    -- an entry that was there before, whose wait may be the one that registers
    have hold : k ∈ (s.nodes node).waiters → ∃ v wait',
        (s.slots ++ [WaitSlot.mk true waker w])[k]?.map WaitSlot.owner = some v ∧
          (s.waits.set w { wait with slot := some s.slots.length })[v]? = some wait' ∧
            wait'.node = node := by
      intro hmem
      obtain ⟨v, wait', howner, hwait', hnode⟩ := h.entry node k hmem
      refine ⟨v, if v = w then { wait with slot := some s.slots.length } else wait', ?_, ?_, ?_⟩
      · rw [List.getElem?_append_left (h.lt_length hmem), howner]
      · split
        · rename_i heq
          rw [heq]
          exact hself
        · rename_i hne
          rw [List.getElem?_set_ne (Ne.symm hne), hwait']
      · split
        · rename_i heq
          rw [heq, hwait, Option.some.injEq] at hwait'
          show wait.node = node
          rw [hwait', hnode]
        · exact hnode
    rw [register_waiters] at hk
    split at hk
    · rename_i heq
      rcases List.mem_append.1 hk with hk | hk
      · rw [← heq] at hk
        exact hold ((keptWaiters_sublist s node).subset hk)
      · obtain rfl := List.mem_singleton.1 hk
        refine ⟨w, _, ?_, hself, heq.symm⟩
        show (s.slots ++ [WaitSlot.mk true waker w])[s.slots.length]?.map WaitSlot.owner = some w
        rw [List.getElem?_append_right le_rfl, Nat.sub_self]
        rfl
    · exact hold hk
  live := by
    intro k slot hslot hlive
    have hslot : (s.slots ++ [WaitSlot.mk true waker w])[k]? = some slot := hslot
    show ∃ wait', (s.waits.set w { wait with slot := some s.slots.length })[slot.owner]? =
      some wait' ∧ _
    rcases Nat.lt_or_ge k s.slots.length with hlt | hge
    · rw [List.getElem?_append_left hlt] at hslot
      obtain ⟨wait', hwait', hdone', hat, hmem⟩ := h.live k slot hslot hlive
      have hk : s.live k = true := live_eq_true.2 ⟨slot, hslot, hlive⟩
      have hne : w ≠ slot.owner := by
        intro heq
        rw [← heq, hwait, Option.some.injEq] at hwait'
        rw [hwait', hat, Option.filter_some, if_pos hk] at hnone
        cases hnone
      refine ⟨wait', by rw [List.getElem?_set_ne hne, hwait'], hdone', hat, ?_⟩
      rw [register_waiters]
      split
      · rename_i heq
        rw [heq] at hmem
        exact List.mem_append_left _ (mem_keptWaiters hmem hk)
      · exact hmem
    · obtain rfl : k = s.slots.length := by
        have hlt := (List.getElem?_eq_some_iff.1 hslot).1
        rw [List.length_append, List.length_singleton] at hlt
        omega
      rw [List.getElem?_append_right le_rfl, Nat.sub_self, List.getElem?_cons_zero,
        Option.some.injEq] at hslot
      subst hslot
      refine ⟨_, List.getElem?_set_self (List.getElem?_eq_some_iff.1 hwait).1, hdone, rfl, ?_⟩
      rw [register_waiters, if_pos rfl]
      exact List.mem_append_right _ List.mem_cons_self

/-! ## Close -/

/-- The loop of `close`: each entry that is live is woken once. -/
theorem wakeAll_spec (entries : List Nat) (s : RoutedQueues n R W) :
    ∃ woken : List (Nat × W),
      (entries.foldl (fun s k => if s.live k then s.wake k else s) s).woken = s.woken ++ woken ∧
      (woken.map (·.1)).Nodup ∧ (∀ k, k ∈ woken.map (·.1) ↔ k ∈ entries ∧ s.live k = true) ∧
      (∀ p ∈ woken, s.slots[p.1]?.map WaitSlot.waker = some p.2) ∧
      ∀ k, (entries.foldl (fun s k => if s.live k then s.wake k else s) s).live k =
        (s.live k && decide (k ∉ entries)) := by
  induction entries generalizing s with
  | nil => exact ⟨[], by simp, by simp, by simp, nofun, by simp⟩
  | cons k entries ih =>
    rw [List.foldl_cons]
    cases hk : s.live k with
    | false =>
      rw [if_neg Bool.false_ne_true]
      obtain ⟨woken, heq, hnodup, hmem, hwaker, hlive⟩ := ih s
      refine ⟨woken, heq, hnodup, fun j => ?_, hwaker, fun j => ?_⟩
      · rw [hmem, List.mem_cons, or_and_right]
        refine ⟨Or.inr, ?_⟩
        rintro (⟨rfl, hj⟩ | hj)
        · rw [hk] at hj
          cases hj
        · exact hj
      · rw [hlive]
        by_cases hjk : j = k
        · subst hjk
          simp [hk]
        · simp [hjk]
    | true =>
      rw [if_pos rfl]
      obtain ⟨slot, hslot, -⟩ := live_eq_true.1 hk
      obtain ⟨woken, heq, hnodup, hmem, hwaker, hlive⟩ := ih (s.wake k)
      have hwake : (s.wake k).woken = s.woken ++ [(k, slot.waker)] := by simp [wake, hslot]
      have hdead (j : Nat) : (s.wake k).live j = (s.live j && decide (j ≠ k)) := live_kill
      have hnot : k ∉ woken.map (·.1) := by
        rw [hmem, hdead]
        simp
      refine ⟨(k, slot.waker) :: woken, ?_, ?_, fun j => ?_, fun p hp => ?_, fun j => ?_⟩
      · rw [heq, hwake, List.append_assoc, List.singleton_append]
      · rw [List.map_cons, List.nodup_cons]
        exact ⟨hnot, hnodup⟩
      · rw [List.map_cons, List.mem_cons, hmem, hdead, List.mem_cons]
        by_cases hjk : j = k
        · subst hjk
          simp [hk]
        · simp [hjk]
      · rcases List.mem_cons.1 hp with rfl | hp
        · rw [hslot, Option.map_some]
        · rw [← hwaker p hp]
          show _ = (s.kill k).slots[p.1]?.map WaitSlot.waker
          rw [getElem?_kill]
          cases s.slots[p.1]? with
          | none => rfl
          | some slot' => by_cases h : k = p.1 <;> simp [h]
      · rw [hlive, hdead]
        by_cases hjk : j = k
        · subst hjk
          simp
        · simp [hjk]

/-- The loop changes the slots alone. -/
theorem wakeAll_frame (entries : List Nat) (s : RoutedQueues n R W) :
    (entries.foldl (fun s k => if s.live k then s.wake k else s) s).nodes = s.nodes ∧
      (entries.foldl (fun s k => if s.live k then s.wake k else s) s).waits = s.waits := by
  induction entries generalizing s with
  | nil => exact ⟨rfl, rfl⟩
  | cons k entries ih =>
    rw [List.foldl_cons, (ih _).1, (ih _).2]
    split <;> exact ⟨rfl, rfl⟩

theorem slotsShrink_wakeAll (entries : List Nat) (s : RoutedQueues n R W) :
    SlotsShrink s (entries.foldl (fun s k => if s.live k then s.wake k else s) s) := by
  induction entries generalizing s with
  | nil => exact slotsShrink_rfl
  | cons k entries ih =>
    rw [List.foldl_cons]
    refine SlotsShrink.trans ?_ (ih _)
    split
    · exact slotsShrink_kill s k
    · exact slotsShrink_rfl

theorem close_nodes (s : RoutedQueues n R W) (node : Fin n) :
    s.close.nodes node = { s.nodes node with waiters := [] } := by
  rw [close]
  simp only [(wakeAll_frame _ _).1]

/-- After `close` no slot is live, and each that was has been woken. -/
theorem close_spec (h : EntriesInv s) :
    (∃ woken : List (Nat × W), s.close.woken = s.woken ++ woken ∧ (woken.map (·.1)).Nodup ∧
      (∀ k, k ∈ woken.map (·.1) ↔ s.live k = true) ∧
      ∀ p ∈ woken, s.slots[p.1]?.map WaitSlot.waker = some p.2) ∧
    ∀ k, s.close.live k = false := by
  obtain ⟨woken, heq, hnodup, hmem, hwaker, hlive⟩ :=
    wakeAll_spec ((List.finRange n).flatMap fun node => (s.nodes node).waiters) s
  have hall (k : Nat) (hk : s.live k = true) :
      k ∈ (List.finRange n).flatMap fun node => (s.nodes node).waiters := by
    obtain ⟨slot, hslot, hslotlive⟩ := live_eq_true.1 hk
    obtain ⟨wait, -, -, -, hwaiters⟩ := h.live k slot hslot hslotlive
    exact List.mem_flatMap.2 ⟨wait.node, List.mem_finRange _, hwaiters⟩
  refine ⟨⟨woken, heq, hnodup, fun k => ?_, hwaker⟩, fun k => ?_⟩
  · rw [hmem]
    exact ⟨And.right, fun hk => ⟨hall k hk, hk⟩⟩
  · refine (hlive k).trans ?_
    cases hk : s.live k with
    | false => rfl
    | true => simp [hall k hk]

theorem entriesInv_close (h : EntriesInv s) : EntriesInv s.close where
  sorted _ := List.Pairwise.nil
  entry := nofun
  live k slot hslot hlive := by
    have hdead := (close_spec h).2 k
    rw [live_eq_true.2 ⟨slot, hslot, hlive⟩] at hdead
    cases hdead

/-! ## The waits that a push may wake -/

/-- The entry of a wait that is pending on the node: the wait that registered it has neither
returned nor been dropped, and the entry has not been woken. -/
def Waiting (s : RoutedQueues n R W) (node : Fin n) (k : Nat) : Prop :=
  (∃ w wait, s.slots[k]?.map WaitSlot.owner = some w ∧ s.waits[w]? = some wait ∧
    wait.done = false ∧ wait.node = node) ∧ k ∉ s.woken.map (·.1)

/-- A woken entry is dead, and an entry of a wait that goes on dies no other way. -/
structure WakesInv (s : RoutedQueues n R W) : Prop where
  owner : ∀ (k w : Nat), s.slots[k]?.map WaitSlot.owner = some w → w < s.waits.length
  slot : ∀ (w : Nat) wait (k : Nat), s.waits[w]? = some wait → wait.slot = some k →
    s.slots[k]?.map WaitSlot.owner = some w
  woken : ∀ k ∈ s.woken.map (·.1), k < s.slots.length ∧ s.live k = false
  pending : ∀ (k w : Nat) wait, s.slots[k]?.map WaitSlot.owner = some w →
    s.waits[w]? = some wait → wait.done = false → s.live k = true ∨ k ∈ s.woken.map (·.1)

theorem waiting_iff (h : EntriesInv s) (hw : WakesInv s) {node : Fin n} {k : Nat} :
    Waiting s node k ↔ LiveOn s node k := by
  constructor
  · rintro ⟨⟨w, wait, howner, hwait, hdone, hnode⟩, hwoken⟩
    exact ⟨(hw.pending k w wait howner hwait hdone).resolve_right hwoken,
      w, wait, howner, hwait, hnode⟩
  · rintro ⟨hlive, w, wait, howner, hwait, hnode⟩
    obtain ⟨slot, hslot, hslotlive⟩ := live_eq_true.1 hlive
    obtain ⟨wait', hwait', hdone, -, -⟩ := h.live k slot hslot hslotlive
    have howner' := howner
    rw [hslot, Option.map_some, Option.some.injEq] at howner'
    rw [howner', hwait, Option.some.injEq] at hwait'
    subst hwait'
    refine ⟨⟨w, wait, howner, hwait, hdone, hnode⟩, fun hmem => ?_⟩
    rw [(hw.woken k hmem).2] at hlive
    cases hlive

theorem live_iff_waiting (h : EntriesInv s) (hw : WakesInv s) {k : Nat} :
    s.live k = true ↔ ∃ node, Waiting s node k := by
  constructor
  · intro hlive
    obtain ⟨slot, hslot, hslotlive⟩ := live_eq_true.1 hlive
    obtain ⟨wait, hwait, -, -, -⟩ := h.live k slot hslot hslotlive
    refine ⟨wait.node, (waiting_iff h hw).2 ⟨hlive, slot.owner, wait, ?_, hwait, rfl⟩⟩
    rw [hslot, Option.map_some]
  · rintro ⟨node, hk⟩
    exact ((waiting_iff h hw).1 hk).1

/-- An operation that leaves the waits alone, and wakes exactly the entries it kills. -/
theorem WakesInv.wakes (hw : WakesInv s) (hslots : SlotsShrink s s') (hwaits : s'.waits = s.waits)
    {woken : List (Nat × W)} (hwoken : s'.woken = s.woken ++ woken)
    (hmem : ∀ k, k ∈ woken.map (·.1) ↔ s.live k = true ∧ s'.live k = false) : WakesInv s' where
  owner k w howner := by
    rw [hwaits]
    exact hw.owner k w ((hslots k).1.symm.trans howner)
  slot w wait k hwait hslot := by
    rw [hwaits] at hwait
    exact (hslots k).1.trans (hw.slot w wait k hwait hslot)
  woken k hk := by
    rw [hwoken, List.map_append, List.mem_append] at hk
    rcases hk with hk | hk
    · obtain ⟨hlt, hdead⟩ := hw.woken k hk
      refine ⟨hslots.length hlt, Bool.eq_false_iff.2 fun hlive => ?_⟩
      rw [(hslots k).2 hlive] at hdead
      cases hdead
    · obtain ⟨hlive, hdead⟩ := (hmem k).1 hk
      obtain ⟨slot, hslot, -⟩ := live_eq_true.1 hlive
      exact ⟨hslots.length (List.getElem?_eq_some_iff.1 hslot).1, hdead⟩
  pending k w wait howner hwait hdone := by
    rw [hwaits] at hwait
    rw [hwoken, List.map_append, List.mem_append]
    rcases hw.pending k w wait ((hslots k).1.symm.trans howner) hwait hdone with hlive | hk
    · cases hlive' : s'.live k with
      | true => exact .inl rfl
      | false => exact .inr (.inr ((hmem k).2 ⟨hlive, hlive'⟩))
    · exact .inr (.inl hk)

/-- An operation that leaves the waits alone and kills no entry. -/
theorem WakesInv.same (hw : WakesInv s) (hslots : SlotsShrink s s') (hwaits : s'.waits = s.waits)
    (hwoken : s'.woken = s.woken) (hlive : ∀ k, s'.live k = s.live k) : WakesInv s' := by
  have hnone : s'.woken = s.woken ++ [] := by rw [hwoken, List.append_nil]
  refine hw.wakes hslots hwaits hnone fun k => ?_
  rw [hlive]
  simp

theorem wakesInv_push (h : EntriesInv s) (hw : WakesInv s) (node : Fin n) (r : R) :
    WakesInv (s.push node r).2 := by
  rcases Nat.lt_or_ge (s.nodes node).requests.length (s.nodes node).cap with hroom | hfull
  · rcases push_cases h (r := r) hroom with ⟨-, hpush⟩ | ⟨dead, k, rest, -, -, hk, -, hpush⟩
    · rw [hpush]
      exact hw.same slotsShrink_rfl rfl rfl fun _ => rfl
    · obtain ⟨slot, hslot, -⟩ := live_eq_true.1 hk.1
      have hwoken : s.woken ++ (s.slots[k]?.map fun slot => (k, slot.waker)).toList =
          s.woken ++ [(k, slot.waker)] := by
        rw [hslot]
        rfl
      rw [hpush]
      refine hw.wakes (slotsShrink_kill s k) rfl hwoken fun j => ?_
      show _ ↔ s.live j = true ∧ (s.kill k).live j = false
      rw [live_kill]
      by_cases hj : j = k
      · simp [hj, hk.1]
      · simp [hj]
  · rw [push, if_pos hfull]
    exact hw

/-- A wait that ends kills its own entry. -/
theorem wakesInv_endWait {w : Nat} {wait wait' : NodeWait n} (hw : WakesInv s)
    (hwait : s.waits[w]? = some wait) (hdone : wait'.done = true)
    (hslot : ∀ k, wait'.slot = some k → wait.slot = some k) :
    WakesInv { s.release wait.slot with waits := s.waits.set w wait' } where
  owner k v howner := by
    show v < (s.waits.set w wait').length
    rw [List.length_set]
    exact hw.owner k v ((slotsShrink_release s wait.slot k).1.symm.trans howner)
  slot v wait'' k hwait'' hat := by
    have hwait'' : (s.waits.set w wait')[v]? = some wait'' := hwait''
    refine (slotsShrink_release s wait.slot k).1.trans ?_
    rcases eq_or_ne w v with rfl | hne
    · rw [List.getElem?_set_self (List.getElem?_eq_some_iff.1 hwait).1, Option.some.injEq]
        at hwait''
      subst hwait''
      exact hw.slot w wait k hwait (hslot k hat)
    · rw [List.getElem?_set_ne hne] at hwait''
      exact hw.slot v wait'' k hwait'' hat
  woken k hk := by
    have hk : k ∈ (s.release wait.slot).woken.map (·.1) := hk
    rw [release_woken] at hk
    obtain ⟨hlt, hdead⟩ := hw.woken k hk
    refine ⟨(slotsShrink_release s wait.slot).length hlt, Bool.eq_false_iff.2 fun hlive => ?_⟩
    rw [(slotsShrink_release s wait.slot k).2 hlive] at hdead
    cases hdead
  pending k v wait'' howner hwait'' hdone'' := by
    have hwait'' : (s.waits.set w wait')[v]? = some wait'' := hwait''
    have howner := (slotsShrink_release s wait.slot k).1.symm.trans howner
    show (s.release wait.slot).live k = true ∨ k ∈ (s.release wait.slot).woken.map (·.1)
    rcases eq_or_ne w v with rfl | hne
    · rw [List.getElem?_set_self (List.getElem?_eq_some_iff.1 hwait).1, Option.some.injEq]
        at hwait''
      rw [← hwait'', hdone] at hdone''
      cases hdone''
    · rw [List.getElem?_set_ne hne] at hwait''
      have hother : wait.slot ≠ some k := fun hat => by
        rw [hw.slot w wait k hwait hat, Option.some.injEq] at howner
        exact hne howner
      rw [live_release_of_ne hother, release_woken]
      exact hw.pending k v wait'' howner hwait'' hdone''

theorem wakesInv_wait (hw : WakesInv s) (node : Fin n) : WakesInv (s.wait node) where
  owner k w howner := by
    show w < (s.waits ++ [_]).length
    rw [List.length_append]
    exact Nat.lt_add_right _ (hw.owner k w howner)
  slot w wait k hwait hat := by
    have hwait : (s.waits ++ [NodeWait.mk node none false])[w]? = some wait := hwait
    rcases Nat.lt_or_ge w s.waits.length with hlt | hge
    · rw [List.getElem?_append_left hlt] at hwait
      exact hw.slot w wait k hwait hat
    · rw [List.getElem?_append_right hge] at hwait
      rw [List.mem_singleton.1 (List.mem_of_getElem? hwait)] at hat
      cases hat
  woken := hw.woken
  pending k w wait howner hwait := by
    have hwait : (s.waits ++ [NodeWait.mk node none false])[w]? = some wait := hwait
    rw [List.getElem?_append_left (hw.owner k w howner)] at hwait
    exact hw.pending k w wait howner hwait

theorem wakesInv_register {w : Nat} {wait : NodeWait n} (hw : WakesInv s) (waker : W)
    (hwait : s.waits[w]? = some wait) (hdone : wait.done = false) :
    WakesInv (s.register w wait waker) := by
  obtain ⟨hlt, -⟩ := List.getElem?_eq_some_iff.1 hwait
  have hself : (s.waits.set w { wait with slot := some s.slots.length })[w]? =
      some { wait with slot := some s.slots.length } := List.getElem?_set_self hlt
  have hnew : (s.slots ++ [WaitSlot.mk true waker w])[s.slots.length]? = some ⟨true, waker, w⟩ :=
    List.getElem?_concat_length
  have hold {k : Nat} (hk : k < s.slots.length) :
      (s.slots ++ [WaitSlot.mk true waker w])[k]? = s.slots[k]? := List.getElem?_append_left hk
  have hlive {k : Nat} (hk : k < s.slots.length) :
      (s.register w wait waker).live k = s.live k := by
    show (s.slots ++ [WaitSlot.mk true waker w])[k]?.any (·.live) = s.live k
    rw [hold hk, live]
  -- a slot is an old one, or the one that is registered
  have hcases {k v : Nat}
      (howner : (s.register w wait waker).slots[k]?.map WaitSlot.owner = some v) :
      (k < s.slots.length ∧ s.slots[k]?.map WaitSlot.owner = some v) ∨
        (k = s.slots.length ∧ v = w) := by
    have howner : (s.slots ++ [WaitSlot.mk true waker w])[k]?.map WaitSlot.owner = some v := howner
    rcases Nat.lt_trichotomy k s.slots.length with hk | rfl | hk
    · rw [hold hk] at howner
      exact .inl ⟨hk, howner⟩
    · rw [hnew, Option.map_some, Option.some.injEq] at howner
      exact .inr ⟨rfl, howner.symm⟩
    · rw [List.getElem?_eq_none (by rw [List.length_append]; exact hk)] at howner
      cases howner
  refine ⟨fun k v howner => ?_, fun v wait' k hwait' hat => ?_, fun k hk => ?_,
    fun k v wait' howner hwait' hdone' => ?_⟩
  · show v < (s.waits.set w _).length
    rw [List.length_set]
    rcases hcases howner with ⟨-, howner⟩ | ⟨-, rfl⟩
    · exact hw.owner k v howner
    · exact hlt
  · have hwait' : (s.waits.set w _)[v]? = some wait' := hwait'
    show (s.slots ++ [WaitSlot.mk true waker w])[k]?.map WaitSlot.owner = some v
    rcases eq_or_ne w v with rfl | hne
    · rw [hself, Option.some.injEq] at hwait'
      rw [← hwait', Option.some.injEq] at hat
      rw [← hat, hnew, Option.map_some]
    · rw [List.getElem?_set_ne hne] at hwait'
      have howner := hw.slot v wait' k hwait' hat
      obtain ⟨slot, hslot, -⟩ := Option.map_eq_some_iff.1 howner
      rw [hold (List.getElem?_eq_some_iff.1 hslot).1, howner]
  · obtain ⟨hk', hdead⟩ := hw.woken k hk
    refine ⟨?_, (hlive hk').trans hdead⟩
    show k < (s.slots ++ [_]).length
    rw [List.length_append]
    exact Nat.lt_add_right _ hk'
  · rcases hcases howner with ⟨hk, howner⟩ | ⟨rfl, rfl⟩
    · rw [hlive hk]
      have hwait' : (s.waits.set w _)[v]? = some wait' := hwait'
      rcases eq_or_ne w v with rfl | hne
      · exact hw.pending k w wait howner hwait hdone
      · rw [List.getElem?_set_ne hne] at hwait'
        exact hw.pending k v wait' howner hwait' hdone'
    · left
      exact live_eq_true.2 ⟨⟨true, waker, v⟩, hnew, rfl⟩

theorem wakesInv_close (h : EntriesInv s) (hw : WakesInv s) : WakesInv s.close := by
  obtain ⟨⟨woken, hwoken, -, hmem, -⟩, hdead⟩ := close_spec h
  refine hw.wakes (slotsShrink_wakeAll _ s) (wakeAll_frame _ s).2 hwoken fun k => ?_
  rw [hmem]
  exact ⟨fun hk => ⟨hk, hdead k⟩, And.left⟩

/-! ## The queues -/

structure QueueOk (c : Nat) (q : NodeQueue R) : Prop where
  full : q.requests.length ≤ q.cap
  order : q.popped ++ q.requests = q.pushed
  waitersCap : q.waitersCap = saturate (saturate (c * 2) + 16)
  length : q.waiters.length ≤ max q.waitersCap c

structure RoutedInv (connections : Fin n → Nat) (s : RoutedQueues n R W) : Prop where
  entries : EntriesInv s
  wakes : WakesInv s
  queue : ∀ node, QueueOk (connections node) (s.nodes node)
  closed : s.closed = true → ∀ node, (s.nodes node).waiters = []
  concurrent : ∀ node, s.concurrent node ≤ connections node

variable {connections : Fin n → Nat}

theorem routedInv_new (connections : Fin n → Nat) (pipelineDepth : Nat) :
    RoutedInv connections (new connections pipelineDepth : RoutedQueues n R W) where
  entries := ⟨fun _ => List.Pairwise.nil, nofun, nofun⟩
  wakes := ⟨nofun, nofun, nofun, nofun⟩
  queue _ := ⟨Nat.zero_le _, rfl, rfl, Nat.zero_le _⟩
  closed := nofun
  concurrent _ := Nat.zero_le _

theorem queueOk_setNode {node : Fin n} {q : NodeQueue R}
    (h : ∀ node, QueueOk (connections node) (s.nodes node)) (hq : QueueOk (connections node) q)
    (node' : Fin n) : QueueOk (connections node') ((s.setNode node q).nodes node') := by
  rw [setNode_nodes]
  split
  · rename_i heq
    rw [heq]
    exact hq
  · exact h node'

/-- A push to the queue of one node. -/
theorem QueueOk.push {c : Nat} {q : NodeQueue R} {waiters : List Nat} (h : QueueOk c q) (r : R)
    (hroom : q.requests.length < q.cap) (hwaiters : waiters.length ≤ q.waiters.length) :
    QueueOk c { q with requests := q.requests ++ [r], waiters, pushed := q.pushed ++ [r] } where
  full := by
    show (q.requests ++ [r]).length ≤ q.cap
    rw [List.length_append, List.length_singleton]
    exact hroom
  order := by
    show q.popped ++ (q.requests ++ [r]) = q.pushed ++ [r]
    rw [← List.append_assoc, h.order]
  waitersCap := h.waitersCap
  length := hwaiters.trans h.length

theorem QueueOk.pop {c : Nat} {q : NodeQueue R} (h : QueueOk c q) :
    QueueOk c { q with requests := q.requests.tail
                       popped := q.popped ++ q.requests.head?.toList } where
  full := by
    show q.requests.tail.length ≤ q.cap
    rw [List.length_tail]
    exact (Nat.sub_le _ _).trans h.full
  order := by
    show q.popped ++ q.requests.head?.toList ++ q.requests.tail = q.pushed
    rw [← h.order, List.append_assoc]
    cases q.requests <;> rfl
  waitersCap := h.waitersCap
  length := h.length

theorem routedInv_push (h : RoutedInv connections s) (node : Fin n) (r : R) :
    RoutedInv connections (s.push node r).2 := by
  rcases Nat.lt_or_ge (s.nodes node).requests.length (s.nodes node).cap with hroom | hfull
  · rcases push_cases h.entries (r := r) hroom with
      ⟨-, hpush⟩ | ⟨dead, k, rest, hwaiters, -, -, -, hpush⟩
    · have hentries := entriesInv_push h.entries node r
      have hwakes := wakesInv_push h.entries h.wakes node r
      rw [hpush] at hentries hwakes ⊢
      refine ⟨hentries, hwakes,
        queueOk_setNode h.queue ((h.queue node).push r hroom (Nat.zero_le _)),
        fun hclosed => setNode_waiters_nil (h.closed hclosed) rfl, h.concurrent⟩
    · have hentries := entriesInv_push h.entries node r
      have hwakes := wakesInv_push h.entries h.wakes node r
      rw [hpush] at hentries hwakes ⊢
      refine ⟨hentries, hwakes, queueOk_setNode h.queue ((h.queue node).push r hroom ?_),
        fun hclosed => ?_, h.concurrent⟩
      · rw [hwaiters, List.length_append, List.length_cons]
        omega
      · have hnil := h.closed hclosed node
        rw [hwaiters] at hnil
        simp at hnil
  · rw [push, if_pos hfull]
    exact h

/-- A wait that ends. -/
theorem routedInv_endWait {w : Nat} {wait wait' : NodeWait n} (h : RoutedInv connections s)
    (hwait : s.waits[w]? = some wait) (hnode : wait'.node = wait.node) (hdone : wait'.done = true)
    (hslot : ∀ k, wait'.slot = some k → wait.slot = some k) :
    RoutedInv connections { s.release wait.slot with waits := s.waits.set w wait' } where
  entries := h.entries.shrink (shrinks_endWait h.entries hwait hnode)
  wakes := wakesInv_endWait h.wakes hwait hdone hslot
  queue node := by
    show QueueOk _ ((s.release wait.slot).nodes node)
    rw [release_nodes]
    exact h.queue node
  closed := by
    show (s.release wait.slot).closed = true →
      ∀ node, ((s.release wait.slot).nodes node).waiters = _
    rw [release_closed, release_nodes]
    exact h.closed
  concurrent node := by
    show (s.waits.set w wait').countP _ ≤ _
    rw [List.countP_set (List.getElem?_eq_some_iff.1 hwait).1]
    have hle := h.concurrent node
    rw [concurrent] at hle
    simp only [hdone, Bool.not_true, Bool.false_and, Bool.false_eq_true, if_false, Nat.add_zero]
    exact (Nat.sub_le _ _).trans hle

theorem routedInv_register {w : Nat} {wait : NodeWait n} (waker : W)
    (h : RoutedInv connections s) (hopen : s.closed = false) (hwait : s.waits[w]? = some wait)
    (hdone : wait.done = false) (hnone : wait.slot.filter s.live = none) :
    RoutedInv connections (s.register w wait waker) where
  entries := entriesInv_register h.entries waker hwait hdone hnone
  wakes := wakesInv_register h.wakes waker hwait hdone
  queue := by
    refine queueOk_setNode h.queue ⟨(h.queue wait.node).full, (h.queue wait.node).order,
      (h.queue wait.node).waitersCap, ?_⟩
    show (keptWaiters s wait.node ++ [s.slots.length]).length ≤ _
    rw [List.length_append, List.length_singleton, keptWaiters]
    split
    · -- compacted: the others' live entries and this one
      have hlt := live_lt_concurrent h.entries hwait hdone hnone
      exact le_max_of_le_right (Nat.succ_le_of_lt (hlt.trans_le (h.concurrent wait.node)))
    · exact le_max_of_le_left (Nat.succ_le_of_lt (Nat.lt_of_not_le ‹_›))
  closed := fun hclosed =>
    absurd hclosed (by rw [register, setNode, hopen]; exact Bool.false_ne_true)
  concurrent node := by
    show (s.waits.set w _).countP _ ≤ _
    obtain ⟨hlt, hget⟩ := List.getElem?_eq_some_iff.1 hwait
    rw [List.countP_set hlt, hget]
    have hle := h.concurrent node
    rw [concurrent] at hle
    -- the wait counts as it did before
    have hpos : (if (!wait.done && decide (wait.node = node)) = true then 1 else 0) ≤
        s.waits.countP fun wait => !wait.done && decide (wait.node = node) := by
      split
      · exact List.countP_pos_iff.2 ⟨wait, List.mem_of_getElem? hwait, ‹_›⟩
      · exact Nat.zero_le _
    exact (Nat.sub_add_cancel hpos).trans_le hle

theorem routedInv_poll {w : Nat} {waker : W} {r : Bool × RoutedQueues n R W}
    (h : RoutedInv connections s) (hpoll : s.poll w waker = some r) :
    RoutedInv connections r.2 := by
  rw [RoutedQueues.poll] at hpoll
  split at hpoll
  · cases hpoll
  · rename_i wait hwait
    split at hpoll
    · cases hpoll
    · rename_i hdone
      split at hpoll
      · cases hpoll
        exact routedInv_endWait h hwait rfl rfl nofun
      · rename_i hopen
        rw [Bool.or_eq_true, not_or, Bool.not_eq_true] at hopen
        split at hpoll
        · cases hpoll
          have hshrinks := shrinks_setWaker s ‹_› waker
          exact ⟨h.entries.shrink hshrinks,
            h.wakes.same hshrinks.slots rfl rfl (live_setWaker s _ waker), h.queue, h.closed,
            h.concurrent⟩
        · cases hpoll
          exact routedInv_register waker h hopen.1 hwait (by simpa using hdone) ‹_›

theorem routedInv_step {op : QueueOp n R W} (h : RoutedInv connections s)
    (hstep : queueStep connections s op = some s') : RoutedInv connections s' := by
  cases op with
  | push node r =>
    cases hstep
    exact routedInv_push h node r
  | pop node =>
    cases hstep
    refine ⟨h.entries.shrink (shrinks_setNode (List.Sublist.refl _) fun _ hk _ => hk),
      h.wakes.same slotsShrink_rfl rfl rfl fun _ => rfl,
      queueOk_setNode h.queue (h.queue node).pop, fun hclosed => ?_, h.concurrent⟩
    exact setNode_waiters_nil (h.closed hclosed) (h.closed hclosed node)
  | wait node =>
    obtain ⟨hlt, hs'⟩ := Option.ite_none_right_eq_some.1 hstep
    cases hs'
    refine ⟨h.entries.shrink (shrinks_wait s node), wakesInv_wait h.wakes node, h.queue, h.closed,
      fun node' => ?_⟩
    show (s.waits ++ [_]).countP _ ≤ _
    rw [List.countP_append]
    have hle := h.concurrent node'
    rw [concurrent] at hlt hle
    by_cases heq : node = node'
    · subst heq
      simpa using Nat.succ_le_of_lt hlt
    · simpa [heq] using hle
  | poll w waker =>
    obtain ⟨r, hpoll, rfl⟩ := Option.map_eq_some_iff.1 hstep
    exact routedInv_poll h hpoll
  | drop w =>
    simp only [queueStep, drop] at hstep
    split at hstep
    · cases hstep
    · rename_i wait hwait
      split at hstep
      · cases hstep
      · cases hstep
        exact routedInv_endWait h hwait rfl rfl fun _ => id
  | close =>
    cases hstep
    refine ⟨entriesInv_close h.entries, wakesInv_close h.entries h.wakes, fun node => ?_,
      fun _ _ => rfl, fun node => ?_⟩
    · rw [close_nodes]
      exact ⟨(h.queue node).full, (h.queue node).order, (h.queue node).waitersCap, Nat.zero_le _⟩
    · show (List.foldl _ s _).concurrent node ≤ _
      rw [concurrent, (wakeAll_frame _ _).2]
      exact h.concurrent node

theorem routedInv_run {pipelineDepth : Nat} {ops : List (QueueOp n R W)}
    (hrun : Exec.run (queueStep connections) (new connections pipelineDepth) ops = some s) :
    RoutedInv connections s :=
  Exec.run_inv routedInv_step (routedInv_new connections pipelineDepth) hrun

/-- What a push does to the waits: nothing when it is refused; else it wakes the entry of a
pending wait that registered first, and no other. -/
structure PushWakes (s : RoutedQueues n R W) (node : Fin n) (r : R) : Prop where
  refused : (s.nodes node).cap ≤ (s.nodes node).requests.length → s.push node r = (false, s)
  taken : (s.nodes node).requests.length < (s.nodes node).cap → (s.push node r).1 = true
  idle : (s.nodes node).requests.length < (s.nodes node).cap → (∀ k, ¬ Waiting s node k) →
    (s.push node r).2.woken = s.woken ∧ ∀ k, (s.push node r).2.live k = s.live k
  wakes : (s.nodes node).requests.length < (s.nodes node).cap → (∃ k, Waiting s node k) →
    ∃ k waker, Waiting s node k ∧ (∀ j, Waiting s node j → k ≤ j) ∧
      s.slots[k]?.map WaitSlot.waker = some waker ∧
      (s.push node r).2.woken = s.woken ++ [(k, waker)] ∧
      ∀ j, (s.push node r).2.live j = (s.live j && decide (j ≠ k))

theorem pushWakes (h : EntriesInv s) (hw : WakesInv s) (node : Fin n) (r : R) :
    PushWakes s node r where
  refused hfull := if_pos hfull
  taken hroom := by
    rcases push_cases h (r := r) hroom with ⟨-, hpush⟩ | ⟨dead, k, rest, -, -, -, -, hpush⟩
    · rw [hpush]
    · rw [hpush]
  idle hroom hnone := by
    rcases push_cases h (r := r) hroom with ⟨-, hpush⟩ | ⟨dead, k, rest, -, -, hk, -, hpush⟩
    · rw [hpush]
      exact ⟨rfl, fun _ => rfl⟩
    · exact absurd ((waiting_iff h hw).2 hk) (hnone k)
  wakes hroom hsome := by
    rcases push_cases h (r := r) hroom with ⟨hnone, -⟩ | ⟨dead, k, rest, -, -, hk, hfirst, hpush⟩
    · obtain ⟨k, hk⟩ := hsome
      exact absurd ((waiting_iff h hw).1 hk) (hnone k)
    · obtain ⟨slot, hslot, -⟩ := live_eq_true.1 hk.1
      refine ⟨k, slot.waker, (waiting_iff h hw).2 hk,
        fun j hj => hfirst j ((waiting_iff h hw).1 hj), by rw [hslot]; rfl, ?_, fun j => ?_⟩
      · rw [hpush]
        show s.woken ++ (s.slots[k]?.map fun slot => (k, slot.waker)).toList = _
        rw [hslot]
        rfl
      · rw [hpush]
        exact live_kill

/-- A poll that is not ready leaves the wait with a live entry, which holds the polling task's
waker. -/
theorem poll_pending (hw : WakesInv s) {w : Nat} {waker : W}
    (hpoll : s.poll w waker = some (false, s')) :
    ∃ k : Nat, s'.slots[k]? = some ⟨true, waker, w⟩ := by
  rw [RoutedQueues.poll] at hpoll
  split at hpoll
  · cases hpoll
  · rename_i wait hwait
    split at hpoll
    · cases hpoll
    · split at hpoll
      · cases hpoll
      · split at hpoll
        · rename_i k hk
          cases hpoll
          obtain ⟨hat, hlive⟩ := Option.filter_eq_some_iff.1 hk
          have howner := hw.slot w wait k hwait hat
          obtain ⟨slot, hslot, hslotlive⟩ := live_eq_true.1 hlive
          rw [hslot, Option.map_some, Option.some.injEq] at howner
          refine ⟨k, ?_⟩
          show (s.slots.modify k fun slot => { slot with waker })[k]? = _
          rw [getElem?_setWaker, hslot, Option.map_some, if_pos rfl, ← hslotlive, ← howner]
        · cases hpoll
          exact ⟨s.slots.length, List.getElem?_concat_length⟩

/-- A pop gives the oldest request that was pushed and not given yet. -/
theorem pop_oldest {c : Nat} {node : Fin n} (h : QueueOk c (s.nodes node)) :
    (s.pop node).1 = (s.nodes node).pushed[(s.nodes node).popped.length]? ∧
      ((s.pop node).2.nodes node).popped = (s.nodes node).popped ++ (s.pop node).1.toList := by
  refine ⟨?_, ?_⟩
  · show (s.nodes node).requests.head? = _
    rw [← h.order, List.getElem?_append_right le_rfl, Nat.sub_self, List.head?_eq_getElem?]
  · show ((s.setNode node _).nodes node).popped = _
    rw [setNode_nodes, if_pos rfl]
    rfl

/-- Once closed, the queues stay closed. -/
theorem closed_step {op : QueueOp n R W} (h : s.closed = true)
    (hstep : queueStep connections s op = some s') : s'.closed = true := by
  cases op with
  | push node r =>
    cases hstep
    show (s.push node r).2.closed = true
    rw [RoutedQueues.push]
    split
    · exact h
    · dsimp only
      split
      · exact h
      · exact h
  | pop node =>
    cases hstep
    exact h
  | wait node =>
    obtain ⟨-, hs'⟩ := Option.ite_none_right_eq_some.1 hstep
    cases hs'
    exact h
  | poll w waker =>
    obtain ⟨r, hpoll, rfl⟩ := Option.map_eq_some_iff.1 hstep
    rw [RoutedQueues.poll] at hpoll
    split at hpoll
    · cases hpoll
    · split at hpoll
      · cases hpoll
      · rw [h, Bool.true_or, if_pos rfl] at hpoll
        cases hpoll
        show (s.release _).closed = true
        rw [release_closed]
        exact h
  | drop w =>
    simp only [queueStep, RoutedQueues.drop] at hstep
    split at hstep
    · cases hstep
    · split at hstep
      · cases hstep
      · cases hstep
        show (s.release _).closed = true
        rw [release_closed]
        exact h
  | close =>
    cases hstep
    rfl

theorem poll_ready_of_closed (h : s.closed = true) {w : Nat} {waker : W}
    {r : Bool × RoutedQueues n R W} (hpoll : s.poll w waker = some r) : r.1 = true := by
  rw [RoutedQueues.poll] at hpoll
  split at hpoll
  · cases hpoll
  · split at hpoll
    · cases hpoll
    · rw [h, Bool.true_or, if_pos rfl] at hpoll
      cases hpoll
      rfl

theorem QueueOk.length_le {c : Nat} {q : NodeQueue R} (h : QueueOk c q) :
    q.waiters.length ≤ 2 * c + 16 ∧ (c < 2 ^ 64 → q.waiters.length ≤ q.waitersCap) := by
  have hlength := h.length
  rw [h.waitersCap, saturate, saturate] at hlength
  refine ⟨by omega, fun hc => ?_⟩
  rw [h.waitersCap, saturate, saturate]
  omega

/-- **The wake law of the routed queues.** -/
theorem routed_queues_wake {pipelineDepth : Nat} {ops : List (QueueOp n R W)}
    (hrun : Exec.run (queueStep connections) (new connections pipelineDepth) ops = some s) :
    (∀ k, s.live k = true ↔ ∃ node, Waiting s node k) ∧
    (∀ node r, PushWakes s node r) ∧
    (∀ node, (s.nodes node).waiters.Nodup) ∧
    (∀ j k w, s.live j = true → s.live k = true → s.slots[j]?.map WaitSlot.owner = some w →
      s.slots[k]?.map WaitSlot.owner = some w → j = k) ∧
    (∀ w waker s', s.poll w waker = some (false, s') →
      ∃ k : Nat, s'.slots[k]? = some ⟨true, waker, w⟩) ∧
    (∀ node, (s.nodes node).popped ++ (s.nodes node).requests = (s.nodes node).pushed ∧
      (s.nodes node).requests.length ≤ (s.nodes node).cap ∧
      (s.pop node).1 = (s.nodes node).pushed[(s.nodes node).popped.length]? ∧
      ((s.pop node).2.nodes node).popped = (s.nodes node).popped ++ (s.pop node).1.toList) ∧
    (∀ node, (s.nodes node).waiters.length ≤ 2 * connections node + 16 ∧
      (connections node < 2 ^ 64 →
        (s.nodes node).waiters.length ≤ (s.nodes node).waitersCap)) ∧
    ((∃ woken : List (Nat × W), s.close.woken = s.woken ++ woken ∧ (woken.map (·.1)).Nodup ∧
        (∀ k, k ∈ woken.map (·.1) ↔ ∃ node, Waiting s node k) ∧
        ∀ p ∈ woken, s.slots[p.1]?.map WaitSlot.waker = some p.2) ∧
      (∀ k, s.close.live k = false) ∧
      ∀ later s', Exec.run (queueStep connections) s.close later = some s' →
        ∀ w waker r, s'.poll w waker = some r → r.1 = true) := by
  have h := routedInv_run hrun
  have hlive (k : Nat) := live_iff_waiting h.entries h.wakes (k := k)
  obtain ⟨⟨woken, hwoken, hnodup, hmem, hwaker⟩, hdead⟩ := close_spec h.entries
  refine ⟨hlive, pushWakes h.entries h.wakes, fun node => ?_, ?_, ?_, ?_, ?_,
    ⟨woken, hwoken, hnodup, fun k => (hmem k).trans (hlive k), hwaker⟩, hdead, ?_⟩
  · exact (h.entries.sorted node).imp fun hlt => hlt.ne
  · intro j k w hj hk hownerj hownerk
    exact h.entries.live_unique hj hk hownerj hownerk
  · intro w waker s' hpoll
    exact poll_pending h.wakes hpoll
  · exact fun node => ⟨(h.queue node).order, (h.queue node).full, pop_oldest (h.queue node)⟩
  · exact fun node => (h.queue node).length_le
  · intro later s' hlater w waker r hpoll
    have hclosed : s'.closed = true := Exec.run_inv closed_step rfl hlater
    exact poll_ready_of_closed hclosed hpoll

/-- Two waits on a node register, the first is dropped, and a request is pushed. -/
def twoWaits : List (QueueOp 1 Nat Nat) :=
  [.wait 0, .wait 0, .poll 0 7, .poll 1 8, .drop 0, .push 0 5]

/-- The push woke the second wait and not the dropped one, and a pop gives the request. -/
theorem routed_queues_wake_twoWaits :
    ∃ s, Exec.run (queueStep fun _ => 2) (new (fun _ => 2) 1) twoWaits = some s ∧
      s.woken = [(1, 8)] ∧ (∀ k, ¬ Waiting s 0 k) ∧ (s.nodes 0).pushed = [5] ∧
      (s.pop 0).1 = some 5 ∧ (s.push 0 6).2.woken = s.woken ∧
      (s.poll 1 8).map (·.1) = some true := by
  obtain ⟨s, hs⟩ : ∃ s, Exec.run (queueStep fun _ => 2) (new (fun _ => 2) 1) twoWaits = some s :=
    ⟨_, rfl⟩
  obtain ⟨hlive, hpush, -, -, -, hqueue, -⟩ := routed_queues_wake hs
  obtain rfl := Option.some.inj hs
  have hdead (k : Nat) : ¬ Waiting _ 0 k := fun hk => by
    have hk := (hlive k).2 ⟨0, hk⟩
    rcases k with _ | _ | k
    · cases hk
    · cases hk
    · cases hk
  exact ⟨_, rfl, rfl, hdead, rfl, (hqueue 0).2.2.1, ((hpush 0 6).idle (by decide) hdead).1, rfl⟩

end Worker
