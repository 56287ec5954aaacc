import Cachecannon.Worker.Deadline

/-!
# A running timer is never late

`TimerKept`: a timer that runs expires by the deadline of every request in flight and of every
request that may still be pushed, or it was armed by a receive entered after a deadline, for no
time at all, and is ready already. Replies and discards take requests away, which keeps it; a
push is no older than the pushes before it. So a poll at or after the oldest request's deadline
finds the timer ready, and the clock read that follows finds nothing left.
-/

namespace Worker

def TimerKept (timeout clock : Nat) (times : List Nat) (t : SleepFuture) : Prop :=
  (t.after = 0 ∧ t.start ≤ clock) ∨ ∀ f ∈ times, t.expiry ≤ f + timeout

structure DeadlineInv (timeout : Nat) (s : Receiver) : Prop where
  limit : s.inflight.timeout = timeout
  sorted : s.inflight.fired.Pairwise (· ≤ ·)
  latest : ∀ f ∈ s.inflight.fired, f ≤ s.lastFired
  timer : ∀ t, s.inflight.timer = some t →
    TimerKept timeout s.clock (s.lastFired :: s.inflight.fired) t
  bounded : s.recv = some .bounded → s.inflight.timer.isSome ∧ s.inflight.fired ≠ []
  unbounded : s.recv = some .unbounded → s.inflight.fired = []

variable {timeout clock : Nat} {times : List Nat} {t : SleepFuture} {v : TimedInFlight}

/-! ## The timer -/

theorem TimerKept.mono {clock' : Nat} {times' : List Nat} (h : TimerKept timeout clock times t)
    (hclock : clock ≤ clock') (htimes : ∀ f' ∈ times', ∃ f ∈ times, f ≤ f') :
    TimerKept timeout clock' times' t := by
  rcases h with ⟨hafter, hstart⟩ | hall
  · exact .inl ⟨hafter, hstart.trans hclock⟩
  · refine .inr fun f' hf' => ?_
    obtain ⟨f, hf, hle⟩ := htimes f' hf'
    exact (hall f hf).trans (Nat.add_le_add_right hle _)

/-- The two ways to be in time, for one request. -/
theorem TimerKept.expiry_le {oldest : Nat} (h : TimerKept timeout clock times t)
    (hmem : oldest ∈ times) :
    t.expiry ≤ oldest + timeout ∨ t.after = 0 ∧ t.expiry ≤ clock := by
  rcases h with ⟨hafter, hstart⟩ | hall
  · refine .inr ⟨hafter, ?_⟩
    show t.start + t.after ≤ clock
    omega
  · exact .inl (hall oldest hmem)

theorem remaining_eq_some {now left : Nat} (h : v.remaining now = some left) :
    ∃ oldest rest, v.fired = oldest :: rest ∧ left = v.timeout - (now - oldest) := by
  rw [TimedInFlight.remaining] at h
  split at h
  · cases h
  · cases hfired : v.fired with
    | nil => simp [hfired] at h
    | cons oldest rest =>
      refine ⟨oldest, rest, rfl, ?_⟩
      simpa [hfired, eq_comm] using h

theorem remaining_eq_none {now : Nat} (hpos : 0 < v.timeout) (h : v.remaining now = none) :
    v.fired = [] := by
  rw [TimedInFlight.remaining, if_neg (by omega)] at h
  simpa using h

/-- Armed with what remains for the oldest request, the timer is kept. -/
theorem timerKept_arm {now left : Nat} (h : v.remaining now = some left)
    (hle : ∀ f' ∈ times, ∀ oldest, v.fired.head? = some oldest → oldest ≤ f') :
    TimerKept v.timeout now times ⟨now, left⟩ := by
  obtain ⟨oldest, rest, hfired, hleft⟩ := remaining_eq_some h
  rcases Nat.eq_zero_or_pos left with hzero | hpos
  · exact .inl ⟨hzero, le_rfl⟩
  · refine .inr fun f hf => ?_
    have holdest := hle f hf oldest (by rw [hfired]; rfl)
    show now + left ≤ f + v.timeout
    omega

theorem DeadlineInv.oldest_le {s : Receiver} (h : DeadlineInv timeout s) :
    ∀ f ∈ s.lastFired :: s.inflight.fired, ∀ oldest, s.inflight.fired.head? = some oldest →
      oldest ≤ f := by
  intro f hf oldest holdest
  obtain ⟨rest, hfired⟩ := List.head?_eq_some_iff.1 holdest
  have hlatest := h.latest oldest (by rw [hfired]; exact List.mem_cons_self)
  have hsorted := h.sorted
  rw [hfired, List.pairwise_cons] at hsorted
  rw [hfired] at hf
  rcases List.mem_cons.1 hf with rfl | hf
  · exact hlatest
  · rcases List.mem_cons.1 hf with rfl | hf
    · exact le_rfl
    · exact hsorted.1 f hf

/-! ## The poll -/

/-- What a poll's loop leaves: only the timer has changed. -/
structure PollOk (times : List Nat) (clock : Nat) (v : TimedInFlight) (r : PollResult) : Prop where
  rest : ∃ timer, r.inflight = { v with timer }
  clock : clock ≤ r.clock
  kept : ∀ t, r.inflight.timer = some t → TimerKept v.timeout r.clock times t
  pending : r.polled = .pending → r.inflight.timer.isSome
  expired : r.polled = .expired →
    ∃ oldest, v.fired.head? = some oldest ∧ oldest + v.timeout ≤ r.clock
  armed : ∀ after ∈ r.armed, 0 < after

/-- With no slot free, nothing is armed. -/
theorem arm_noSlot (v : TimedInFlight) (now after : Nat) : (v.arm now after false).getD v = v := rfl

theorem arm_slot (v : TimedInFlight) (now after : Nat) :
    (v.arm now after true).getD v = { v with timer := some ⟨now, after⟩ } := rfl

theorem pollTimer_noTimer (turns : List TimerTurn) (h : v.timer = none) :
    pollTimer clock turns v = some ⟨.noTimer, v, clock, []⟩ := by
  cases turns <;> simp [pollTimer, h]

/-- A turn: the timer is not ready, nothing is left, or what is left is armed. -/
theorem pollTimer_cons {turn : TimerTurn} {turns : List TimerTurn} {r : PollResult}
    {timer : SleepFuture} (htimer : v.timer = some timer)
    (h : pollTimer clock (turn :: turns) v = some r) :
    (turn.polledAt < timer.expiry ∧ r = ⟨.pending, v, turn.polledAt, []⟩) ∨
    ((v.remaining turn.now = none ∨ v.remaining turn.now = some 0) ∧
      r = ⟨.expired, { v with timer := none }, turn.now, []⟩) ∨
    (∃ left, v.remaining turn.now = some (left + 1) ∧ turn.slot = false ∧
      r = ⟨.noTimer, { v with timer := none }, turn.now, []⟩) ∨
    ∃ left r', v.remaining turn.now = some (left + 1) ∧
      pollTimer turn.now turns { v with timer := some ⟨turn.now, left + 1⟩ } = some r' ∧
      r = { r' with armed := (left + 1) :: r'.armed } := by
  have hsame : { v with timer := none }.remaining turn.now = v.remaining turn.now := rfl
  rw [pollTimer, htimer] at h
  dsimp only at h
  rw [hsame] at h
  split at h
  · cases h
    exact .inl ⟨‹_›, rfl⟩
  · refine .inr ?_
    split at h
    · rename_i left hleft
      cases hslot : turn.slot with
      | false =>
        rw [hslot, arm_noSlot, pollTimer_noTimer turns rfl] at h
        cases h
        exact .inr (.inl ⟨left, hleft, rfl, rfl⟩)
      | true =>
        rw [hslot, arm_slot] at h
        obtain ⟨r', hr', rfl⟩ := Option.map_eq_some_iff.1 h
        exact .inr (.inr ⟨left, r', hleft, hr', rfl⟩)
    · rename_i hnone
      cases h
      refine .inl ⟨?_, rfl⟩
      rcases hrem : v.remaining turn.now with _ | _ | left
      · exact .inl rfl
      · exact .inr rfl
      · exact absurd hrem (hnone left)

theorem pollTimer_ok {turns : List TimerTurn} {r : PollResult} (hpos : 0 < v.timeout)
    (hne : v.fired ≠ []) (hkept : ∀ t, v.timer = some t → TimerKept v.timeout clock times t)
    (hle : ∀ f' ∈ times, ∀ oldest, v.fired.head? = some oldest → oldest ≤ f')
    (hreads : readsFrom clock turns = true) (h : pollTimer clock turns v = some r) :
    PollOk times clock v r := by
  induction turns generalizing v clock r with
  | nil =>
    cases htimer : v.timer with
    | some timer => simp [pollTimer, htimer] at h
    | none =>
      rw [pollTimer_noTimer [] htimer] at h
      cases h
      exact ⟨⟨v.timer, rfl⟩, le_rfl, hkept, nofun, nofun, nofun⟩
  | cons turn turns ih =>
    simp only [readsFrom, Bool.and_eq_true, decide_eq_true_eq] at hreads
    obtain ⟨⟨hpolled, hnow⟩, hrest⟩ := hreads
    cases htimer : v.timer with
    | none =>
      rw [pollTimer_noTimer _ htimer] at h
      cases h
      exact ⟨⟨v.timer, rfl⟩, le_rfl, hkept, nofun, nofun, nofun⟩
    | some timer =>
      obtain ⟨-, rfl⟩ | ⟨hleft, rfl⟩ | ⟨left, -, -, rfl⟩ | ⟨left, r', hleft, hr', rfl⟩ :=
        pollTimer_cons htimer h
      · refine ⟨⟨v.timer, rfl⟩, hpolled, fun t ht => ?_, fun _ => by simp [htimer], nofun, nofun⟩
        exact (hkept t ht).mono hpolled fun f hf => ⟨f, hf, le_rfl⟩
      · refine ⟨⟨none, rfl⟩, hpolled.trans hnow, nofun, nofun, fun _ => ?_, nofun⟩
        rcases hleft with hnone | hzero
        · exact absurd (remaining_eq_none hpos hnone) hne
        · obtain ⟨oldest, rest, hfired, hzero⟩ := remaining_eq_some hzero
          refine ⟨oldest, by rw [hfired]; rfl, ?_⟩
          show oldest + v.timeout ≤ turn.now
          omega
      · exact ⟨⟨none, rfl⟩, hpolled.trans hnow, nofun, nofun, nofun, nofun⟩
      · -- the timer that the next turn polls was armed by this one
        have harmed : ∀ t, some (SleepFuture.mk turn.now (left + 1)) = some t →
            TimerKept v.timeout turn.now times t := by
          intro t ht
          cases ht
          exact timerKept_arm hleft hle
        obtain ⟨⟨timer', hv'⟩, hclock, hkept', hpending, hexpired, hall⟩ :=
          ih (v := { v with timer := some ⟨turn.now, left + 1⟩ }) hpos hne harmed hle hrest hr'
        refine ⟨⟨timer', hv'⟩, (hpolled.trans hnow).trans hclock, hkept', hpending, hexpired, ?_⟩
        intro after hafter
        rcases List.mem_cons.1 hafter with rfl | hafter
        · exact Nat.succ_pos left
        · exact hall after hafter

/-- A timer that is ready when the deadline has passed. -/
theorem pollTimer_expired {turn : TimerTurn} {turns : List TimerTurn} {timer : SleepFuture}
    {oldest : Nat} (hpos : 0 < v.timeout) (htimer : v.timer = some timer)
    (holdest : v.fired.head? = some oldest) (hready : timer.expiry ≤ turn.polledAt)
    (hdeadline : oldest + v.timeout ≤ turn.now) :
    pollTimer clock (turn :: turns) v =
      some ⟨.expired, { v with timer := none }, turn.now, []⟩ := by
  have hleft : { v with timer := none }.remaining turn.now = some 0 := by
    rw [TimedInFlight.remaining, if_neg (by simpa using hpos.ne')]
    show v.fired.head?.map _ = _
    rw [holdest, Option.map_some]
    show some (v.timeout - (turn.now - oldest)) = some 0
    exact congrArg some (by omega)
  rw [pollTimer, htimer]
  dsimp only
  rw [if_neg (by omega), hleft]

/-- Two turns are enough: the first arms the timer for the deadline itself. -/
theorem pollTimer_isSome {turn turn' : TimerTurn} {turns : List TimerTurn} {oldest : Nat}
    (hpos : 0 < v.timeout) (holdest : v.fired.head? = some oldest) (hfired : oldest ≤ turn.now)
    (hreads : turn.now ≤ turn'.polledAt ∧ turn'.polledAt ≤ turn'.now) :
    (pollTimer clock (turn :: turn' :: turns) v).isSome := by
  cases htimer : v.timer with
  | none => simp [pollTimer_noTimer _ htimer]
  | some timer =>
    rw [pollTimer, htimer]
    dsimp only
    split
    · rfl
    · split
      · rename_i left hleft
        rw [Option.isSome_map]
        cases hslot : turn.slot with
        | false =>
          rw [arm_noSlot, pollTimer_noTimer _ rfl]
          rfl
        | true =>
          rw [arm_slot]
          obtain ⟨oldest', rest, hcons, hleft⟩ := remaining_eq_some hleft
          obtain rfl : oldest' = oldest := by
            have hcons : v.fired = oldest' :: rest := hcons
            rw [hcons] at holdest
            exact Option.some.inj holdest
          have hleft : left + 1 = v.timeout - (turn.now - oldest') := hleft
          rcases Nat.lt_or_ge turn'.polledAt (oldest' + v.timeout) with hbefore | hafter
          · have hearly : turn'.polledAt < (SleepFuture.mk turn.now (left + 1)).expiry := by
              show turn'.polledAt < turn.now + (left + 1)
              omega
            rw [pollTimer]
            dsimp only
            rw [if_pos hearly]
            rfl
          · have hexpiry : (SleepFuture.mk turn.now (left + 1)).expiry ≤ turn'.polledAt := by
              show turn.now + (left + 1) ≤ turn'.polledAt
              omega
            rw [pollTimer_expired (v := { v with timer := some ⟨turn.now, left + 1⟩ }) hpos rfl
              holdest hexpiry (hafter.trans hreads.2)]
            rfl
      · rfl

/-! ## The calls -/

theorem deadlineInv_new (timeout : Nat) : DeadlineInv timeout (.new timeout) where
  limit := rfl
  sorted := List.Pairwise.nil
  latest := nofun
  timer := nofun
  bounded := nofun
  unbounded := nofun

/-- With fewer requests in flight. -/
theorem deadlineInv_sublist {s : Receiver} {fired queued : List Nat} (h : DeadlineInv timeout s)
    (hsub : fired.Sublist s.inflight.fired) (hrecv : s.recv = none) :
    DeadlineInv timeout { s with inflight := { s.inflight with fired, queued } } where
  limit := h.limit
  sorted := h.sorted.sublist hsub
  latest := fun f hf => h.latest f (hsub.subset hf)
  timer := fun t ht =>
    (h.timer t ht).mono le_rfl fun f hf => ⟨f, (hsub.cons_cons s.lastFired).subset hf, le_rfl⟩
  bounded := fun hb => by simp [hrecv] at hb
  unbounded := fun hu => by simp [hrecv] at hu

theorem deadlineInv_push {s : Receiver} {firedAt : Nat} (queuedNs : Nat)
    (h : DeadlineInv timeout s) (hrecv : s.recv = none) (hle : s.lastFired ≤ firedAt) :
    DeadlineInv timeout
      { s with inflight := s.inflight.pushQueued firedAt queuedNs, lastFired := firedAt } where
  limit := h.limit
  sorted := by
    refine List.pairwise_append.2 ⟨h.sorted, List.pairwise_singleton _ _, fun f hf f' hf' => ?_⟩
    rw [List.mem_singleton.1 hf']
    exact (h.latest f hf).trans hle
  latest := by
    intro f hf
    rcases List.mem_append.1 hf with hf | hf
    · exact (h.latest f hf).trans hle
    · exact (List.mem_singleton.1 hf).le
  timer := by
    refine fun t ht => (h.timer t ht).mono le_rfl fun f hf => ?_
    -- the newest request is no older than the one before it
    have hnew : ∃ f' ∈ s.lastFired :: s.inflight.fired, f' ≤ firedAt :=
      ⟨s.lastFired, List.mem_cons_self, hle⟩
    rcases List.mem_cons.1 hf with rfl | hf
    · exact hnew
    · rcases List.mem_append.1 hf with hf | hf
      · exact ⟨f, List.mem_cons_of_mem _ hf, le_rfl⟩
      · rw [List.mem_singleton.1 hf]
        exact hnew
  bounded := fun hb => by simp [hrecv] at hb
  unbounded := fun hu => by simp [hrecv] at hu

theorem recvWithTimeout_cases {now : Nat} {slot : Bool} {recv : Recv} {v' : TimedInFlight}
    (h : recvWithTimeout v now slot = some (recv, v')) :
    (v.remaining now = none ∧ recv = .unbounded ∧ v' = v) ∨
    (∃ timer, v.timer = some timer ∧ v.remaining now ≠ none ∧ recv = .bounded ∧ v' = v) ∨
    ∃ left, v.remaining now = some left ∧ recv = .bounded ∧
      v' = { v with timer := some ⟨now, left⟩ } := by
  rw [recvWithTimeout] at h
  split at h
  · cases h
    exact .inl ⟨‹_›, rfl, rfl⟩
  · rename_i left hleft
    refine .inr ?_
    cases htimer : v.timer with
    | some timer =>
      simp only [htimer, Option.isNone_some, Bool.false_eq_true, if_false, Option.some.injEq,
        Prod.mk.injEq] at h
      obtain ⟨rfl, rfl⟩ := h
      exact .inl ⟨timer, rfl, by simp [hleft], rfl, rfl⟩
    | none =>
      cases slot with
      | false => simp [htimer, TimedInFlight.arm] at h
      | true =>
        simp only [htimer, Option.isNone_none, if_true, TimedInFlight.arm, Option.map_some,
          Option.some.injEq, Prod.mk.injEq] at h
        obtain ⟨rfl, rfl⟩ := h
        exact .inr ⟨left, hleft, rfl, rfl⟩

theorem deadlineInv_recv {s : Receiver} {now : Nat} {slot : Bool} {recv : Recv}
    {v' : TimedInFlight} (hpos : 0 < timeout) (h : DeadlineInv timeout s) (hclock : s.clock ≤ now)
    (hcall : recvWithTimeout s.inflight now slot = some (recv, v')) :
    DeadlineInv timeout { s with inflight := v', recv := some recv, clock := now } := by
  have hsame : ∀ f ∈ s.lastFired :: s.inflight.fired,
      ∃ f' ∈ s.lastFired :: s.inflight.fired, f' ≤ f := fun f hf => ⟨f, hf, le_rfl⟩
  have hbusy {left : Nat} (hleft : s.inflight.remaining now = some left) :
      s.inflight.fired ≠ [] := by
    obtain ⟨oldest, rest, hfired, -⟩ := remaining_eq_some hleft
    rw [hfired]
    exact List.cons_ne_nil oldest rest
  obtain ⟨hnone, rfl, rfl⟩ | ⟨timer, htimer, hsome, rfl, rfl⟩ | ⟨left, hleft, rfl, rfl⟩ :=
    recvWithTimeout_cases hcall
  · refine ⟨h.limit, h.sorted, h.latest, fun t ht => (h.timer t ht).mono hclock hsame, nofun,
      fun _ => ?_⟩
    exact remaining_eq_none (by rw [h.limit]; exact hpos) hnone
  · refine ⟨h.limit, h.sorted, h.latest, fun t ht => (h.timer t ht).mono hclock hsame,
      fun _ => ?_, nofun⟩
    obtain ⟨left, hleft⟩ := Option.ne_none_iff_exists'.1 hsome
    exact ⟨by simp [htimer], hbusy hleft⟩
  · refine ⟨h.limit, h.sorted, h.latest, fun t ht => ?_, fun _ => ⟨rfl, hbusy hleft⟩, nofun⟩
    cases ht
    rw [← h.limit]
    exact timerKept_arm hleft h.oldest_le

theorem pollRecv_ok {s : Receiver} {recv : Recv} {ready : Bool} {turns : List TimerTurn}
    {r : PollResult} (hpos : 0 < timeout) (h : DeadlineInv timeout s) (hrecv : s.recv = some recv)
    (hreads : readsFrom s.clock turns = true)
    (hpoll : pollRecv recv ready s.clock turns s.inflight = some r)
    (hpending : r.polled = .pending → recv = .bounded) :
    PollOk (s.lastFired :: s.inflight.fired) s.clock s.inflight r := by
  have htimeout := h.limit
  subst htimeout
  cases ready with
  | true =>
    cases hpoll
    exact ⟨⟨s.inflight.timer, rfl⟩, le_rfl, h.timer, nofun, nofun, nofun⟩
  | false =>
    cases recv with
    | unbounded =>
      cases hpoll
      exact absurd (hpending rfl) nofun
    | bounded =>
      exact pollTimer_ok hpos (h.bounded hrecv).2 h.timer h.oldest_le hreads hpoll

theorem deadlineInv_finish {s : Receiver} {r : PollResult} (h : DeadlineInv timeout s)
    (hok : PollOk (s.lastFired :: s.inflight.fired) s.clock s.inflight r)
    (hbounded : r.polled = .pending → s.recv = some .bounded) :
    DeadlineInv timeout (s.finish r) := by
  have htimeout := h.limit
  subst htimeout
  obtain ⟨⟨timer, hv⟩, hclock, hkept, hpending, -, -⟩ := hok
  obtain ⟨polled, v', clock', armed⟩ := r
  subst hv
  cases polled with
  | pending =>
    refine ⟨rfl, h.sorted, h.latest, hkept, fun _ => ?_, fun hu => ?_⟩
    · exact ⟨hpending rfl, (h.bounded (hbounded rfl)).2⟩
    · have hu : s.recv = some .unbounded := hu
      rw [hbounded rfl] at hu
      cases hu
  | received | expired | noTimer => exact ⟨rfl, h.sorted, h.latest, hkept, nofun, nofun⟩

theorem deadlineInv_step (hpos : 0 < timeout) {s s' : Receiver} {call : Call}
    (h : DeadlineInv timeout s) (hstep : s.step call = some s') : DeadlineInv timeout s' := by
  cases call with
  | push firedAt queuedNs =>
    obtain ⟨⟨hrecv, hle⟩, hs'⟩ := Option.ite_none_right_eq_some.1 hstep
    cases hs'
    exact deadlineInv_push queuedNs h hrecv hle
  | pop =>
    obtain ⟨hrecv, hs'⟩ := Option.ite_none_right_eq_some.1 hstep
    cases hs'
    exact deadlineInv_sublist h (List.tail_sublist _) hrecv
  | forgetNewest n =>
    obtain ⟨hrecv, hs'⟩ := Option.ite_none_right_eq_some.1 hstep
    cases hs'
    exact deadlineInv_sublist h (List.take_sublist _ _) hrecv
  | recv now slot =>
    obtain ⟨⟨hrecv, hclock⟩, hs'⟩ := Option.ite_none_right_eq_some.1 hstep
    split at hs'
    · cases hs'
      exact deadlineInv_recv hpos h hclock ‹_›
    · cases hs'
      refine ⟨h.limit, h.sorted, h.latest, fun t ht => ?_, h.bounded, h.unbounded⟩
      exact (h.timer t ht).mono hclock fun f hf => ⟨f, hf, le_rfl⟩
  | poll ready turns =>
    cases hrecv : s.recv with
    | none => simp [Receiver.step, hrecv] at hstep
    | some recv =>
      simp only [Receiver.step, hrecv, Option.ite_none_right_eq_some,
        Option.map_eq_some_iff] at hstep
      obtain ⟨hreads, r, hpoll, rfl⟩ := hstep
      cases recv with
      | bounded =>
        exact deadlineInv_finish h (pollRecv_ok hpos h hrecv hreads hpoll fun _ => rfl)
          fun _ => hrecv
      | unbounded =>
        cases ready with
        | true =>
          cases hpoll
          exact ⟨h.limit, h.sorted, h.latest, h.timer, nofun, nofun⟩
        | false =>
          cases hpoll
          exact ⟨h.limit, h.sorted, h.latest, h.timer, h.bounded, h.unbounded⟩
  | drop =>
    cases hstep
    exact ⟨h.limit, h.sorted, h.latest, h.timer, nofun, nofun⟩

theorem deadlineInv_run (hpos : 0 < timeout) {calls : List Call} {s : Receiver}
    (hrun : Exec.run Receiver.step (.new timeout) calls = some s) : DeadlineInv timeout s :=
  Exec.run_inv (deadlineInv_step hpos) (deadlineInv_new timeout) hrun

/-- A receive with a request in flight is bounded. -/
theorem DeadlineInv.recv_bounded {s : Receiver} {recv : Recv} {oldest : Nat}
    (h : DeadlineInv timeout s) (hrecv : s.recv = some recv)
    (holdest : s.inflight.fired.head? = some oldest) : recv = .bounded := by
  cases recv with
  | bounded => rfl
  | unbounded =>
    rw [h.unbounded hrecv] at holdest
    cases holdest

theorem DeadlineInv.poll_expired {s : Receiver} {recv : Recv} {oldest : Nat} {turn : TimerTurn}
    {turns : List TimerTurn} (hpos : 0 < timeout) (h : DeadlineInv timeout s)
    (hrecv : s.recv = some recv) (holdest : s.inflight.fired.head? = some oldest)
    (hreads : readsFrom s.clock (turn :: turns) = true)
    (hdeadline : oldest + timeout ≤ turn.polledAt) :
    ∃ r, pollRecv recv false s.clock (turn :: turns) s.inflight = some r ∧
      r.polled = .expired := by
  obtain rfl := h.recv_bounded hrecv holdest
  have hlimit := h.limit
  subst hlimit
  simp only [readsFrom, Bool.and_eq_true, decide_eq_true_eq] at hreads
  obtain ⟨⟨hpolled, hnow⟩, -⟩ := hreads
  obtain ⟨timer, htimer⟩ := Option.isSome_iff_exists.1 (h.bounded hrecv).1
  have hready : timer.expiry ≤ turn.polledAt := by
    have hmem := List.mem_cons_of_mem s.lastFired (List.mem_of_head? holdest)
    rcases (h.timer timer htimer).expiry_le hmem with hle | ⟨-, hle⟩
    · exact hle.trans hdeadline
    · exact hle.trans hpolled
  refine ⟨_, pollTimer_expired hpos htimer holdest hready (hdeadline.trans hnow), rfl⟩

theorem DeadlineInv.poll_isSome {s : Receiver} {recv : Recv} {oldest : Nat}
    {turn turn' : TimerTurn} {turns : List TimerTurn} (hpos : 0 < timeout)
    (h : DeadlineInv timeout s) (hrecv : s.recv = some recv)
    (holdest : s.inflight.fired.head? = some oldest) (hfired : oldest ≤ s.clock)
    (hreads : readsFrom s.clock (turn :: turn' :: turns) = true) :
    (pollRecv recv false s.clock (turn :: turn' :: turns) s.inflight).isSome := by
  obtain rfl := h.recv_bounded hrecv holdest
  have hlimit := h.limit
  subst hlimit
  simp only [readsFrom, Bool.and_eq_true, decide_eq_true_eq] at hreads
  obtain ⟨⟨hpolled, hnow⟩, hreads', -⟩ := hreads
  exact pollTimer_isSome hpos holdest (hfired.trans (hpolled.trans hnow)) hreads'

theorem DeadlineInv.poll_sound {s : Receiver} {recv : Recv} {ready : Bool}
    {turns : List TimerTurn} {r : PollResult} (hpos : 0 < timeout) (h : DeadlineInv timeout s)
    (hrecv : s.recv = some recv) (hreads : readsFrom s.clock turns = true)
    (hpoll : pollRecv recv ready s.clock turns s.inflight = some r) :
    (r.polled = .expired →
      ∃ oldest, s.inflight.fired.head? = some oldest ∧ oldest + timeout ≤ r.clock) ∧
    ∀ after ∈ r.armed, 0 < after := by
  cases recv with
  | bounded =>
    have hok := pollRecv_ok hpos h hrecv hreads hpoll fun _ => rfl
    refine ⟨fun hexpired => ?_, hok.armed⟩
    rw [← h.limit]
    exact hok.expired hexpired
  | unbounded =>
    cases ready with
    | true | false =>
      cases hpoll
      exact ⟨nofun, nofun⟩

/-- **The request timeout.** A timer that runs with a request in flight expires by the oldest
request's deadline, or was armed for nothing, after that deadline, and is ready already. A receive
that is pending then times out by the first poll at or after the deadline, and never before it. -/
theorem recv_times_out (hpos : 0 < timeout) {calls : List Call} {s : Receiver}
    (hrun : Exec.run Receiver.step (.new timeout) calls = some s) :
    (∀ timer oldest, s.inflight.timer = some timer → s.inflight.fired.head? = some oldest →
      timer.expiry ≤ oldest + timeout ∨ timer.after = 0 ∧ timer.expiry ≤ s.clock) ∧
    ∀ recv, s.recv = some recv →
      (∀ oldest turn turns, s.inflight.fired.head? = some oldest →
        readsFrom s.clock (turn :: turns) = true → oldest + timeout ≤ turn.polledAt →
        ∃ r, pollRecv recv false s.clock (turn :: turns) s.inflight = some r ∧
          r.polled = .expired) ∧
      (∀ oldest turn turn' turns, s.inflight.fired.head? = some oldest → oldest ≤ s.clock →
        readsFrom s.clock (turn :: turn' :: turns) = true →
        (pollRecv recv false s.clock (turn :: turn' :: turns) s.inflight).isSome) ∧
      ∀ ready turns r, readsFrom s.clock turns = true →
        pollRecv recv ready s.clock turns s.inflight = some r →
        (r.polled = .expired →
          ∃ oldest, s.inflight.fired.head? = some oldest ∧ oldest + timeout ≤ r.clock) ∧
        ∀ after ∈ r.armed, 0 < after := by
  have h := deadlineInv_run hpos hrun
  refine ⟨fun timer oldest htimer holdest => ?_, fun recv hrecv => ⟨?_, ?_, ?_⟩⟩
  · exact (h.timer timer htimer).expiry_le
      (List.mem_cons_of_mem s.lastFired (List.mem_of_head? holdest))
  · intro oldest turn turns holdest hreads hdeadline
    exact h.poll_expired hpos hrecv holdest hreads hdeadline
  · intro oldest turn turn' turns holdest hfired hreads
    exact h.poll_isSome hpos hrecv holdest hfired hreads
  · intro ready turns r hreads hpoll
    exact h.poll_sound hpos hrecv hreads hpoll

/-- Two requests and a reply: the timer was armed for the first one, at 10, and the second one's
deadline is 16. -/
def lateReply : List Call :=
  [.push 0 0, .push 6 0, .recv 7 true, .poll true [], .pop, .recv 8 true]

/-- The timer fires at 10, is armed again for the rest, and the poll at 16 times out. -/
theorem recv_times_out_lateReply :
    0 < 10 ∧ ∃ s, Exec.run Receiver.step (.new 10) lateReply = some s ∧
      s.inflight.timer = some ⟨7, 3⟩ ∧
      (∃ s', s.step (.poll false [⟨11, 11, true⟩, ⟨11, 11, true⟩]) = some s' ∧
        s'.inflight.timer = some ⟨11, 5⟩) ∧
      ∃ r, pollRecv .bounded false s.clock [⟨16, 16, true⟩] s.inflight = some r ∧
        r.polled = .expired := by
  obtain ⟨s, hs⟩ : ∃ s, Exec.run Receiver.step (.new 10) lateReply = some s := ⟨_, rfl⟩
  have hall := recv_times_out (Nat.succ_pos 9) hs
  obtain rfl := Option.some.inj hs
  refine ⟨Nat.succ_pos 9, _, rfl, rfl, ⟨_, rfl, rfl⟩, ?_⟩
  exact (hall.2 .bounded rfl).1 6 ⟨16, 16, true⟩ [] rfl rfl (by decide)

/-- A receive entered after the deadline arms the timer past it: timeout 10, fired at 0, entered
at 20. -/
theorem recv_past_deadline_arms_late :
    ∃ s timer, Exec.run Receiver.step (.new 10) [.push 0 0, .recv 20 true] = some s ∧
      s.inflight.timer = some timer ∧ s.inflight.fired.head? = some 0 ∧
      ¬ timer.expiry ≤ 0 + 10 :=
  ⟨_, _, rfl, rfl, rfl, by decide⟩

end Worker
