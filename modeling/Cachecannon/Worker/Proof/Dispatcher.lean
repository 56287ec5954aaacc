import Cachecannon.Worker.Dispatcher
import Mathlib.Algebra.Order.Ring.Nat

/-!
# The dispatcher funds claims in order

`Served d queue debited`: the slots completed so far, followed by the queue, are all the slots in
the order they were queued; the grants of the completed ones add up to the tokens debited, and the
queued ones hold none. Completing the head of the queue keeps it (`Served.complete`), so the loops
of `dispatch` and `drain` do (`served_dispatchLoop`, `served_drainLoop`), and so does any
interleaving (`dispatcher_step`).
-/

namespace Worker

namespace TokenDispatcher

variable {L W : Type}

/-- What `complete` may grant a slot: what it wants, capped, or nothing. -/
def GrantOf (want granted : Nat) (cap : Option Nat) : Prop :=
  granted = 0 ∨ ∃ c, cap = some c ∧ granted = max 1 (min want c)

structure Served (d : TokenDispatcher W) (queue : List Nat) (debited : Nat) : Prop where
  order : d.completions.map Completion.slot ++ queue = List.range d.slots.length
  queued : ∀ i ∈ queue, d.grant i = 0
  grants : ∀ c ∈ d.completions, GrantOf (d.want c.slot) (d.grant c.slot) c.cap
  paid : (d.completions.map fun c => d.grant c.slot).sum = debited
  done : ∀ i slot, d.slots[i]? = some slot →
    (slot.done = true ↔ i ∈ d.completions.map Completion.slot)

/-! ## The store -/

theorem grant_complete {d : TokenDispatcher W} {i : Nat} (hi : i < d.slots.length) (g : Nat)
    (cap : Option Nat) (j : Nat) :
    (d.complete i g cap).grant j = if j = i then g else d.grant j := by
  unfold grant complete
  simp only [List.getElem?_modify]
  by_cases hji : j = i
  · subst hji
    simp [List.getElem?_eq_getElem hi]
  · simp [hji, Ne.symm hji]

@[simp] theorem want_complete (d : TokenDispatcher W) (i g : Nat) (cap : Option Nat) (j : Nat) :
    (d.complete i g cap).want j = d.want j := by
  unfold want complete
  simp only [List.getElem?_modify]
  by_cases hij : i = j
  · simp [hij, Function.comp_def]
  · simp [hij]

@[simp] theorem complete_frame (d : TokenDispatcher W) (i g : Nat) (cap : Option Nat) :
    (d.complete i g cap).slots.length = d.slots.length ∧
      (d.complete i g cap).closed = d.closed := by
  simp [complete]

theorem Served.nodup {d : TokenDispatcher W} {queue : List Nat} {n : Nat}
    (h : Served d queue n) : (d.completions.map Completion.slot ++ queue).Nodup := by
  rw [h.order]
  exact List.nodup_range

theorem Served.mem_lt {d : TokenDispatcher W} {queue : List Nat} {n i : Nat}
    (h : Served d queue n) (hi : i ∈ d.completions.map Completion.slot ++ queue) :
    i < d.slots.length := by
  rw [h.order] at hi
  exact List.mem_range.1 hi

/-! ## Completing the head -/

theorem Served.complete {d : TokenDispatcher W} {i : Nat} {rest : List Nat} {n g : Nat}
    {cap : Option Nat} (h : Served d (i :: rest) n) (hg : GrantOf (d.want i) g cap) :
    Served (d.complete i g cap) rest (n + g) := by
  have hi : i < d.slots.length := h.mem_lt (by simp)
  have hnodup := h.nodup
  have hdone : ∀ c ∈ d.completions, c.slot ≠ i := by
    intro c hc hci
    have hdisj := (List.nodup_append.1 hnodup).2.2 c.slot (List.mem_map_of_mem hc) i (by simp)
    exact hdisj hci
  have hrest : i ∉ rest := (List.nodup_cons.1 (List.nodup_append.1 hnodup).2.1).1
  have hkept : ∀ c ∈ d.completions, (d.complete i g cap).grant c.slot = d.grant c.slot := by
    intro c hc
    rw [grant_complete hi, if_neg (hdone c hc)]
  have hcompletions : (d.complete i g cap).completions = d.completions ++ [⟨i, cap⟩] := rfl
  refine ⟨?order, ?queued, ?grants, ?paid, ?done⟩
  case order =>
    rw [hcompletions, (complete_frame d i g cap).1, ← h.order]
    simp
  case queued =>
    intro j hj
    rw [grant_complete hi, if_neg (ne_of_mem_of_not_mem hj hrest)]
    exact h.queued j (List.mem_cons_of_mem _ hj)
  case grants =>
    intro c hc
    rw [want_complete]
    rcases List.mem_append.1 (hcompletions ▸ hc) with hc | hc
    · rw [hkept c hc]
      exact h.grants c hc
    · obtain rfl := List.mem_singleton.1 hc
      rw [grant_complete hi, if_pos rfl]
      exact hg
  case paid =>
    rw [hcompletions, List.map_append, List.sum_append, List.map_congr_left hkept, h.paid]
    simp [grant_complete hi]
  case done =>
    intro j slot hj
    simp only [TokenDispatcher.complete, List.getElem?_modify] at hj
    obtain ⟨slot', hslot, rfl⟩ := Option.map_eq_some_iff.1 hj
    rw [hcompletions, List.map_append, List.mem_append]
    by_cases hij : i = j
    · simp [hij]
    · rw [if_neg hij, h.done j slot' hslot]
      simp [Ne.symm hij]

/-! ## The loops -/

/-- `Served` looks at the store and at what was completed only. -/
theorem Served.congr {d d' : TokenDispatcher W} {queue : List Nat} {n : Nat}
    (h : Served d queue n) (hslots : d'.slots = d.slots)
    (hcompletions : d'.completions = d.completions) : Served d' queue n := by
  obtain ⟨slots, queue', closed, idle, woken, completions⟩ := d'
  cases hslots
  cases hcompletions
  exact ⟨h.order, h.queued, h.grants, h.paid, h.done⟩

theorem served_dispatchLoop (lim : Limiter L) :
    ∀ (queue : List Nat) (d : TokenDispatcher W) (rl : L) (n : Nat), Served d queue n →
      ∀ nap d' rl', dispatchLoop lim queue d rl = (nap, d', rl') →
        Served d' d'.queue (n + (lim.debited rl' - lim.debited rl)) ∧
          lim.debited rl ≤ lim.debited rl' ∧ d'.closed = d.closed ∧
          (queue = [] → d'.queue = []) := by
  intro queue
  induction queue with
  | nil =>
    rintro d rl n h nap d' rl' ⟨⟩
    refine ⟨?_, Nat.le_refl _, rfl, fun _ => rfl⟩
    rw [Nat.sub_self, Nat.add_zero]
    exact h.congr rfl rfl
  | cons i rest ih =>
    intro d rl n h nap d' rl' hloop
    -- the head is completed with `g`, for which the limiter was debited
    have hgo : ∀ (g : Nat) (rl₁ : L), GrantOf (d.want i) g (some (lim.maxTokens rl)) →
        lim.debited rl₁ = lim.debited rl + g →
        dispatchLoop lim rest (d.complete i g (some (lim.maxTokens rl))) rl₁ = (nap, d', rl') →
        Served d' d'.queue (n + (lim.debited rl' - lim.debited rl)) ∧
          lim.debited rl ≤ lim.debited rl' ∧ d'.closed = d.closed ∧
          (i :: rest = [] → d'.queue = []) := by
      intro g rl₁ hg hdebit hrest
      obtain ⟨hserved, hle, hclosed, -⟩ := ih _ rl₁ _ (h.complete hg) nap d' rl' hrest
      have hsum : n + g + (lim.debited rl' - lim.debited rl₁) =
          n + (lim.debited rl' - lim.debited rl) := by omega
      rw [hsum] at hserved
      exact ⟨hserved, by omega, by rw [hclosed, (complete_frame d i g _).2], nofun⟩
    -- the head is put back, and nothing was debited
    have hback : ∀ rl₁ : L, lim.debited rl₁ = lim.debited rl →
        Served { d with queue := i :: rest } (i :: rest)
          (n + (lim.debited rl₁ - lim.debited rl)) := by
      intro rl₁ hsame
      rw [hsame, Nat.sub_self, Nat.add_zero]
      exact h.congr rfl rfl
    simp only [dispatchLoop] at hloop
    split at hloop
    · rename_i rl₁ htry
      refine hgo _ rl₁ (.inr ⟨_, rfl, ?_⟩) (lim.debits htry) hloop
      rw [Nat.max_comm]
    · rename_i wait rl₁ htry
      have hsame := lim.refuses htry (by nofun)
      cases hloop
      exact ⟨hback _ hsame, Nat.le_of_eq hsame.symm, rfl, nofun⟩
    · rename_i rl₁ htry
      have hsame := lim.refuses htry (by nofun)
      exact hgo 0 rl₁ (.inl rfl) hsame hloop
    · rename_i rl₁ htry
      have hsame := lim.refuses htry (by nofun)
      cases hloop
      exact ⟨hback _ hsame, Nat.le_of_eq hsame.symm, rfl, nofun⟩

theorem served_drainLoop : ∀ (queue : List Nat) (d : TokenDispatcher W) (n : Nat),
    Served d queue n → Served (drainLoop queue d) [] n ∧ (drainLoop queue d).queue = [] ∧
      (drainLoop queue d).closed = d.closed := by
  intro queue
  induction queue with
  | nil => exact fun d n h => ⟨h.congr rfl rfl, rfl, rfl⟩
  | cons i rest ih =>
    intro d n h
    obtain ⟨hserved, hqueue, hclosed⟩ := ih (d.complete i 0 none) n (h.complete (.inl rfl))
    exact ⟨hserved, hqueue, hclosed⟩

theorem Served.drain {d : TokenDispatcher W} {n : Nat} (h : Served d d.queue n) :
    Served d.drain d.drain.queue n ∧ d.drain.queue = [] ∧ d.drain.closed = true := by
  obtain ⟨hserved, hqueue, hclosed⟩ :=
    served_drainLoop d.queue { d with closed := true } n (h.congr rfl rfl)
  refine ⟨?_, hqueue, hclosed⟩
  rw [TokenDispatcher.drain, hqueue]
  exact hserved

/-! ## Claims -/

theorem poll_frame (d : TokenDispatcher W) (i : Nat) (cx : W) :
    (d.poll i cx).2.completions = d.completions ∧ (d.poll i cx).2.queue = d.queue ∧
      (d.poll i cx).2.closed = d.closed ∧
      ∃ f : TokenSlot W → TokenSlot W, (d.poll i cx).2.slots = d.slots.modify i f ∧
        ∀ slot, (f slot).granted = slot.granted ∧ (f slot).want = slot.want ∧
          (f slot).done = slot.done := by
  unfold poll
  split
  · exact ⟨rfl, rfl, rfl, id, (List.modify_id _ _).symm, fun _ => ⟨rfl, rfl, rfl⟩⟩
  · split
    · exact ⟨rfl, rfl, rfl, id, (List.modify_id _ _).symm, fun _ => ⟨rfl, rfl, rfl⟩⟩
    · exact ⟨rfl, rfl, rfl, _, rfl, fun _ => ⟨rfl, rfl, rfl⟩⟩

theorem Served.poll {d : TokenDispatcher W} {queue : List Nat} {n : Nat} (h : Served d queue n)
    (i : Nat) (cx : W) : Served (d.poll i cx).2 queue n := by
  obtain ⟨hcompletions, -, -, f, hslots, hf⟩ := poll_frame d i cx
  have hget : ∀ j, (d.poll i cx).2.slots[j]? =
      (d.slots[j]?).map fun slot => if i = j then f slot else slot := by
    intro j
    rw [hslots, List.getElem?_modify]
    rfl
  have hgrant : (d.poll i cx).2.grant = d.grant := by
    funext j
    simp only [grant, hget, Option.map_map]
    congr 2
    funext slot
    by_cases hij : i = j <;> simp [hij, (hf slot).1]
  have hwant : (d.poll i cx).2.want = d.want := by
    funext j
    simp only [want, hget, Option.map_map]
    congr 2
    funext slot
    by_cases hij : i = j <;> simp [hij, (hf slot).2.1]
  refine ⟨?_, ?_, ?_, ?_, ?_⟩
  · rw [hcompletions, hslots, List.length_modify]
    exact h.order
  · rw [hgrant]
    exact h.queued
  · rw [hcompletions, hgrant, hwant]
    exact h.grants
  · rw [hcompletions, hgrant]
    exact h.paid
  · intro j slot hj
    obtain ⟨slot', hslot, rfl⟩ := Option.map_eq_some_iff.1 ((hget j).symm.trans hj)
    rw [hcompletions, ← h.done j slot' hslot]
    by_cases hij : i = j <;> simp [hij, (hf slot').2.2]

theorem Served.queueClaim {d : TokenDispatcher W} {n : Nat} (h : Served d d.queue n)
    (want : Nat) : Served (d.queueClaim want) (d.queueClaim want).queue n := by
  have hold : ∀ i, i < d.slots.length →
      (d.slots ++ [(⟨want, 0, false, none⟩ : TokenSlot W)])[i]? = d.slots[i]? :=
    fun i hi => List.getElem?_append_left hi
  have hnew : (d.slots ++ [(⟨want, 0, false, none⟩ : TokenSlot W)])[d.slots.length]? =
      some ⟨want, 0, false, none⟩ := by simp
  have hmem : ∀ c ∈ d.completions, c.slot < d.slots.length :=
    fun c hc => h.mem_lt (List.mem_append_left _ (List.mem_map_of_mem hc))
  refine ⟨?_, ?_, ?_, ?_, ?_⟩
  · simp only [TokenDispatcher.queueClaim]
    rw [← List.append_assoc, h.order]
    simp [List.range_succ]
  · intro i hi
    rcases List.mem_append.1 hi with hi | hi
    · simp only [grant, TokenDispatcher.queueClaim,
        hold i (h.mem_lt (List.mem_append_right _ hi))]
      exact h.queued i hi
    · simp only [grant, TokenDispatcher.queueClaim, List.mem_singleton.1 hi, hnew]
      rfl
  · intro c hc
    simp only [grant, TokenDispatcher.want, TokenDispatcher.queueClaim, hold _ (hmem c hc)]
    exact h.grants c hc
  · rw [← h.paid]
    congr 1
    apply List.map_congr_left
    intro c hc
    simp only [grant, TokenDispatcher.queueClaim, hold _ (hmem c hc)]
  · intro i slot hi
    simp only [TokenDispatcher.queueClaim] at hi ⊢
    rcases Nat.lt_or_ge i d.slots.length with hlt | hge
    · rw [hold i hlt] at hi
      exact h.done i slot hi
    · obtain ⟨hlen, -⟩ := List.getElem?_eq_some_iff.1 hi
      rw [List.length_append, List.length_singleton] at hlen
      obtain rfl : i = d.slots.length := by omega
      obtain rfl := Option.some.inj (hnew.symm.trans hi)
      have hnot : d.slots.length ∉ d.completions.map Completion.slot := fun hin =>
        absurd (h.mem_lt (List.mem_append_left _ hin)) (by omega)
      simpa using hnot

end TokenDispatcher

/-! ## Runs -/

open TokenDispatcher

variable {L W : Type} {lim : Limiter L}

structure DispatcherInv (s : DispatcherState L W) : Prop where
  served : Served s.d s.d.queue s.debited
  closed : s.d.closed = true → s.d.queue = []

theorem dispatcherInv_init (rl : L) : DispatcherInv (.init rl : DispatcherState L W) where
  served := ⟨rfl, nofun, nofun, rfl, nofun⟩
  closed := nofun

/-- **The step lemma.** Closing is sticky. -/
theorem dispatcher_step {s s' : DispatcherState L W} {op : DispatcherOp L W}
    (h : DispatcherInv s) (hstep : dispatcherStep lim s op = some s') :
    DispatcherInv s' ∧ (s.d.closed = true → s'.d.closed = true) := by
  obtain ⟨hserved, hclosed⟩ := h
  cases op with
  | acquire want cx =>
    cases hstep
    by_cases hc : s.d.closed = true
    · rw [acquire, if_pos hc]
      exact ⟨⟨hserved, hclosed⟩, fun _ => hc⟩
    · rw [acquire, if_neg hc]
      obtain ⟨-, hqueue, hclosed', -⟩ := poll_frame (s.d.queueClaim want) s.d.slots.length cx
      refine ⟨⟨?_, fun hc' => absurd (hclosed'.symm.trans hc') hc⟩, fun hc' => absurd hc' hc⟩
      rw [hqueue]
      exact (hserved.queueClaim want).poll _ cx
  | poll slot cx =>
    simp only [dispatcherStep] at hstep
    split at hstep
    · cases hstep
      obtain ⟨-, hqueue, hclosed', -⟩ := poll_frame s.d slot cx
      refine ⟨⟨?_, fun hc => ?_⟩, fun hc => hclosed'.trans hc⟩
      · rw [hqueue]
        exact hserved.poll slot cx
      · rw [hqueue]
        exact hclosed (hclosed' ▸ hc)
    · cases hstep
  | dispatch =>
    cases hstep
    obtain ⟨hserved', -, hclosed', hempty⟩ :=
      served_dispatchLoop lim s.d.queue s.d s.rl s.debited hserved _ _ _ rfl
    exact ⟨⟨hserved', fun hc => hempty (hclosed (hclosed' ▸ hc))⟩, fun hc => hclosed'.trans hc⟩
  | claimPending cx =>
    cases hstep
    unfold claimPending
    split
    · exact ⟨⟨hserved, hclosed⟩, id⟩
    · exact ⟨⟨hserved.congr rfl rfl, hclosed⟩, id⟩
  | clearIdle =>
    cases hstep
    exact ⟨⟨hserved.congr rfl rfl, hclosed⟩, id⟩
  | drain =>
    cases hstep
    obtain ⟨hserved', hqueue, hclosed'⟩ := hserved.drain
    exact ⟨⟨hserved', fun _ => hqueue⟩, fun _ => hclosed'⟩
  | limiter rl =>
    cases hstep
    exact ⟨⟨hserved, hclosed⟩, id⟩

theorem closed_of_drain {rl : L} {ops : List (DispatcherOp L W)} {s : DispatcherState L W}
    (hrun : Exec.run (dispatcherStep lim) (.init rl) ops = some s) (hdrain : .drain ∈ ops) :
    s.d.closed = true := by
  obtain ⟨before, after, rfl⟩ := List.append_of_mem hdrain
  rw [Exec.run_append, Option.bind_eq_some_iff] at hrun
  obtain ⟨t, ht, hrun⟩ := hrun
  rw [Exec.run_cons, Option.bind_eq_some_iff] at hrun
  obtain ⟨u, hu, hrun⟩ := hrun
  have hinv := Exec.run_inv (fun h hs => (dispatcher_step h hs).1) (dispatcherInv_init rl) ht
  have hclosed : u.d.closed = true := by
    cases hu
    exact hinv.served.drain.2.2
  have hsticky : ∀ {s s' : DispatcherState L W} {op}, DispatcherInv s ∧ s.d.closed = true →
      dispatcherStep lim s op = some s' → DispatcherInv s' ∧ s'.d.closed = true := by
    intro s s' op h hstep
    obtain ⟨hinv', hkept⟩ := dispatcher_step h.1 hstep
    exact ⟨hinv', hkept h.2⟩
  exact (Exec.run_inv hsticky ⟨(dispatcher_step hinv hu).1, hclosed⟩ hrun).2

/-- **The dispatcher conserves tokens and keeps order**, in every interleaving: the tokens that
`dispatch` debited are the grants of the completed slots; these and the queue are all the slots in
the order they were queued, each once; a queued slot holds nothing, and a completed one what it
wants, capped by the limiter's `max_tokens`, or nothing. After a `drain` no slot is queued, and
`acquire` returns 0 and changes nothing. -/
theorem dispatcher_conserves (lim : Limiter L) (rl : L) (ops : List (DispatcherOp L W))
    {s : DispatcherState L W}
    (hrun : Exec.run (dispatcherStep lim) (.init rl) ops = some s) :
    (s.d.completions.map fun c => s.d.grant c.slot).sum = s.debited ∧
      s.d.completions.map Completion.slot ++ s.d.queue = List.range s.d.slots.length ∧
      (s.d.completions.map Completion.slot).Nodup ∧
      (∀ i slot, s.d.slots[i]? = some slot →
        (slot.done = true ↔ i ∈ s.d.completions.map Completion.slot)) ∧
      (∀ i ∈ s.d.queue, s.d.grant i = 0) ∧
      (∀ c ∈ s.d.completions, s.d.grant c.slot = 0 ∨
        ∃ cap, c.cap = some cap ∧ s.d.grant c.slot = max 1 (min (s.d.want c.slot) cap)) ∧
      (.drain ∈ ops → s.d.queue = [] ∧ ∀ want cx, s.d.acquire want cx = (some 0, s.d)) := by
  have hinv := Exec.run_inv (fun h hs => (dispatcher_step h hs).1) (dispatcherInv_init rl) hrun
  refine ⟨hinv.served.paid, hinv.served.order, (List.nodup_append.1 hinv.served.nodup).1,
    hinv.served.done, hinv.served.queued, hinv.served.grants, fun hdrain => ?_⟩
  have hclosed := closed_of_drain hrun hdrain
  refine ⟨hinv.closed hclosed, fun want cx => ?_⟩
  rw [acquire, if_pos hclosed]

/-- A bucket that holds `available` of at most `capacity` tokens. -/
structure Bucket where
  available : Nat
  capacity : Nat
  spent : Nat
  deriving Repr, DecidableEq

def bucketTryWaitN (b : Bucket) (n : Nat) : TryWait × Bucket :=
  if b.capacity < n then (.exceedsCapacity, b)
  else if b.available < n then (.insufficient (n - b.available), b)
  else (.ok, { b with available := b.available - n, spent := b.spent + n })

def bucket : Limiter Bucket where
  maxTokens := Bucket.capacity
  tryWaitN := bucketTryWaitN
  debited := Bucket.spent
  debits := by
    intro b b' n h
    unfold bucketTryWaitN at h
    split at h
    · cases h
    · split at h
      · cases h
      · cases h
        rfl
  refuses := by
    intro b b' n e h he
    unfold bucketTryWaitN at h
    split at h
    · cases h
      rfl
    · split at h
      · cases h
        rfl
      · cases h
        exact absurd rfl he

/-- Three claims on a bucket of four, of which two are funded; the drain releases the third. -/
def bucketOps : List (DispatcherOp Bucket Nat) :=
  [.claimPending 9, .acquire 3 0, .acquire 1 1, .acquire 2 2, .dispatch, .poll 2 2, .drain,
    .acquire 5 3]

theorem bucket_conserves : ∃ s, Exec.run (dispatcherStep bucket) (.init ⟨4, 4, 0⟩) bucketOps =
    some s ∧ s.debited = 4 ∧ s.d.queue = [] ∧
      (s.d.completions.map fun c => s.d.grant c.slot).sum = s.debited := by
  refine ⟨_, rfl, by decide, by decide, ?_⟩
  exact (dispatcher_conserves bucket ⟨4, 4, 0⟩ bucketOps rfl).1

end Worker
