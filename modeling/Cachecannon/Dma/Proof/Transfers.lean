import Cachecannon.Dma.Transfers
import Cachecannon.Worker.Proof.Prefill

/-!
# No key and no request gets lost in the transfer loop

`ConnMoves` is what a connection can do in one step. Each way keeps the occurrences of a key, so in
every interleaving a prefill key is in one queue, in the hands of one connection, in flight on one,
or confirmed (`dma_prefill_conserved`), and each keeps the books (`transfers_accounted`).
-/

namespace Dma

open Exec TransferState

variable {E C W : Type}

/-! ## What a connection has -/

def ConnAt.hand : ConnAt → List Nat
  | .popped key => [key]
  | _ => []

def ConnAt.inFlight : ConnAt → List Nat
  | .sent transfer => if transfer.source = .prefill then [transfer.key] else []
  | _ => []

/-- The transfers out. -/
def ConnAt.busy : ConnAt → Nat
  | .sent _ => 1
  | _ => 0

@[simp] theorem busy_sent (transfer : Transfer) : (ConnAt.sent transfer).busy = 1 := rfl

/-- Neither a key in its hands nor a transfer out. -/
def ConnAt.free : ConnAt → Prop
  | .down | .top | .returned => True
  | .popped _ | .sent _ => False

theorem ConnAt.free.hand {place : ConnAt} (h : place.free) : place.hand = [] := by
  cases place <;> first | rfl | cases h

theorem ConnAt.free.inFlight {place : ConnAt} (h : place.free) : place.inFlight = [] := by
  cases place <;> first | rfl | cases h

theorem ConnAt.free.busy {place : ConnAt} (h : place.free) : place.busy = 0 := by
  cases place <;> first | rfl | cases h

variable [DecidableEq E] [DecidableEq C] [DecidableEq W]

/-- The ways a connection goes on, with the state each leaves. -/
inductive ConnMoves (cfg : TransferConfig E C W) (s : TransferState E C W) (c : C) :
    TransferState E C W → Prop
  | stays : ConnMoves cfg s c s
  | goes {place : ConnAt} (hfrom : (s.conn c).free) (hto : place.free) :
      ConnMoves cfg s c (s.goTo c place)
  | pops {key : Nat} {rest : List Nat} (hfrom : (s.conn c).free)
      (hqueue : s.queue (cfg.endpoint c) = key :: rest) :
      ConnMoves cfg s c
        ({ s with queue := Function.update s.queue (cfg.endpoint c) rest }.goTo c (.popped key))
  | putsBack {key : Nat} (hfrom : s.conn c = .popped key) :
      ConnMoves cfg s c ((s.pushFront (cfg.endpoint c) key).goTo c .top)
  | sendsPrefill {key : Nat} (hfrom : s.conn c = .popped key) :
      ConnMoves cfg s c (s.send c ⟨key, .set, .prefill⟩)
  | sendsRepair {key : Nat} {rest : List Nat} (hfrom : (s.conn c).free)
      (hbackfill : s.backfill c = key :: rest) :
      ConnMoves cfg s c
        ({ s with backfill := Function.update s.backfill c rest }.send c ⟨key, .set, .backfill⟩)
  | sendsWorkload {key : Nat} {op : Op} (hfrom : (s.conn c).free) :
      ConnMoves cfg s c (s.send c ⟨key, op, .workload⟩)
  | timesOut {transfer : Transfer} (hfrom : s.conn c = .sent transfer) :
      ConnMoves cfg s c ({ s with counters := { s.counters with
        requestTimeouts := s.counters.requestTimeouts + 1
        requestErrors := s.counters.requestErrors + 1 } }.lose cfg c transfer)
  | losesTimer {transfer : Transfer} (hfrom : s.conn c = .sent transfer) :
      ConnMoves cfg s c ({ s with untimed := s.untimed + 1 }.lose cfg c transfer)
  | confirms {transfer : Transfer} {how : TransferEnd} {place : ConnAt}
      (hfrom : s.conn c = .sent transfer) (hsource : transfer.source = .prefill)
      (hto : place.free) : ConnMoves cfg s c
        (((s.answered cfg c transfer how).confirm cfg c transfer.key).goTo c place)
  | fails {transfer : Transfer} {how : TransferEnd} {place : ConnAt}
      (hfrom : s.conn c = .sent transfer) (hsource : transfer.source = .prefill)
      (hto : place.free) : ConnMoves cfg s c
        (((s.answered cfg c transfer how).pushFront (cfg.endpoint c) transfer.key).goTo c place)
  | ends {transfer : Transfer} {how : TransferEnd} {place : ConnAt}
      (hfrom : s.conn c = .sent transfer) (hsource : transfer.source ≠ .prefill)
      (hto : place.free) :
      ConnMoves cfg s c ((s.answered cfg c transfer how).goTo c place)

variable {cfg : TransferConfig E C W} {s s' : TransferState E C W} {c : C}

theorem turn_moves (hfrom : s.conn c = .top) (draw : Option (Nat × Op)) :
    ConnMoves cfg s c (s.turn cfg c draw) := by
  have hfree : (s.conn c).free := by
    rw [hfrom]
    trivial
  unfold turn
  split
  · exact .goes hfree trivial
  split
  · exact .stays
  split
  · split
    · exact .stays
    · rename_i key rest hqueue
      exact .pops hfree hqueue
  · split
    · rename_i key rest hbackfill
      exact .sendsRepair hfree hbackfill
    · split
      · exact .stays
      · exact .sendsWorkload hfree

theorem record_moves {transfer : Transfer} (hfrom : s.conn c = .sent transfer)
    (how : TransferEnd) {place : ConnAt} (hto : place.free) :
    ConnMoves cfg s c ((s.record cfg c transfer how).goTo c place) := by
  unfold record
  dsimp only
  split
  case isTrue hsource =>
    split
    · exact .confirms hfrom hsource hto
    · exact .fails hfrom hsource hto
  case isFalse hsource => exact .ends hfrom hsource hto

theorem transferEvent_moves {e : TransferEvent} (hstep : transferEvent cfg s c e = some s') :
    ConnMoves cfg s c s' := by
  cases e with
  | connect =>
    simp only [transferEvent] at hstep
    split at hstep
    case isFalse => cases hstep
    case isTrue hfrom =>
      cases hstep
      exact .goes (by rw [hfrom]; trivial) trivial
  | turn draw =>
    simp only [transferEvent] at hstep
    split at hstep
    case isFalse => cases hstep
    case isTrue hfrom =>
      cases hstep
      exact turn_moves hfrom draw
  | paced granted =>
    simp only [transferEvent] at hstep
    split at hstep
    · rename_i key hfrom
      split at hstep
      · cases hstep
        exact .sendsPrefill hfrom
      · split at hstep <;> cases hstep
        exact .putsBack hfrom
    · cases hstep
  | finish how =>
    simp only [transferEvent] at hstep
    split at hstep
    · rename_i transfer hfrom
      cases hstep
      cases how with
      | timedOut => exact .timesOut hfrom
      | noTimer => exact .losesTimer hfrom
      | failed => exact record_moves hfrom _ trivial
      | done bytes hit => exact record_moves hfrom _ trivial
      | errorReply => exact record_moves hfrom _ trivial
    · cases hstep

/-! ## Keys -/

/-- How often the key `k` occurs in a place. -/
def occurrences (s : TransferState E C W) (k : Nat) : Worker.Place E C → Nat
  | .queue e => (s.queue e).count k
  | .inFlight c => (s.conn c).inFlight.count k
  | .confirmed => s.acked.count k
  | .hand c => (s.conn c).hand.count k

/-- How often a connection has the key `k`. -/
def ConnAt.occurs (place : ConnAt) (k : Nat) : Nat := place.hand.count k + place.inFlight.count k

theorem ConnAt.free.occurs {place : ConnAt} (h : place.free) (k : Nat) : place.occurs k = 0 := by
  simp [ConnAt.occurs, h.hand, h.inFlight]

@[simp] theorem occurs_popped (key k : Nat) : (ConnAt.popped key).occurs k = [key].count k := rfl

@[simp] theorem occurs_prefill (key : Nat) (op : Op) (k : Nat) :
    (ConnAt.sent ⟨key, op, .prefill⟩).occurs k = [key].count k := by
  simp [ConnAt.occurs, ConnAt.hand, ConnAt.inFlight]

theorem occurs_sent_of_ne {transfer : Transfer} (h : transfer.source ≠ .prefill) (k : Nat) :
    (ConnAt.sent transfer).occurs k = 0 := by
  simp [ConnAt.occurs, ConnAt.hand, ConnAt.inFlight, h]

theorem occurs_sent_of_eq {transfer : Transfer} (h : transfer.source = .prefill) (k : Nat) :
    (ConnAt.sent transfer).occurs k = [transfer.key].count k := by
  simp [ConnAt.occurs, ConnAt.hand, ConnAt.inFlight, h]

/-- A step of the connection `c` as the keys see it. -/
structure KeyBalance (cfg : TransferConfig E C W) (s s' : TransferState E C W) (c : C) : Prop where
  conn : ∀ c', c' ≠ c → s'.conn c' = s.conn c'
  queue : ∀ e, e ≠ cfg.endpoint c → s'.queue e = s.queue e
  keys : ∀ k, (s'.queue (cfg.endpoint c)).count k + (s'.conn c).occurs k + s'.acked.count k =
    (s.queue (cfg.endpoint c)).count k + (s.conn c).occurs k + s.acked.count k
  confirmed : s'.keysConfirmed + s.acked.length = s.keysConfirmed + s'.acked.length

omit [DecidableEq E] [DecidableEq W] in
/-- A connection goes on with the keys that it has. -/
theorem keyBalance_goes {place : ConnAt} (hconn : s'.conn = Function.update s.conn c place)
    (hqueue : s'.queue = s.queue) (hacked : s'.acked = s.acked)
    (hconfirmed : s'.keysConfirmed = s.keysConfirmed)
    (hkeys : ∀ k, place.occurs k = (s.conn c).occurs k) : KeyBalance cfg s s' c where
  conn c' hc := by rw [hconn, Function.update_of_ne hc]
  queue e _ := by rw [hqueue]
  keys k := by rw [hconn, Function.update_self, hqueue, hacked, hkeys]
  confirmed := by rw [hacked, hconfirmed]

omit [DecidableEq W] in
/-- A connection puts its key back. -/
theorem keyBalance_back {place : ConnAt} {key : Nat} (hfree : place.free)
    (hconn : s'.conn = Function.update s.conn c place)
    (hqueue : s'.queue =
      Function.update s.queue (cfg.endpoint c) (key :: s.queue (cfg.endpoint c)))
    (hacked : s'.acked = s.acked) (hconfirmed : s'.keysConfirmed = s.keysConfirmed)
    (hkeys : ∀ k, (s.conn c).occurs k = [key].count k) : KeyBalance cfg s s' c where
  conn c' hc := by rw [hconn, Function.update_of_ne hc]
  queue e he := by rw [hqueue, Function.update_of_ne he]
  keys k := by
    have hcons : ([key] ++ s.queue (cfg.endpoint c)).count k =
        [key].count k + (s.queue (cfg.endpoint c)).count k := List.count_append
    rw [List.singleton_append] at hcons
    rw [hconn, Function.update_self, hqueue, Function.update_self, hacked, hkeys, hfree.occurs,
      hcons]
    omega
  confirmed := by rw [hacked, hconfirmed]

omit [DecidableEq W] in
/-- The key of a transfer that is given up goes back to its queue. -/
theorem lose_keys {t : TransferState E C W} {transfer : Transfer}
    (hfrom : s.conn c = .sent transfer) (hconn : t.conn = s.conn) (hqueue : t.queue = s.queue)
    (hacked : t.acked = s.acked) (hconfirmed : t.keysConfirmed = s.keysConfirmed) :
    KeyBalance cfg s (t.lose cfg c transfer) c := by
  have hdown : ConnAt.down.free := trivial
  unfold lose
  split
  case isTrue hsource =>
    refine keyBalance_back hdown (by rw [← hconn]; rfl) (by rw [← hqueue]; rfl) hacked hconfirmed
      fun k => ?_
    rw [hfrom, occurs_sent_of_eq hsource]
  case isFalse hsource =>
    refine keyBalance_goes (by rw [← hconn]; rfl) hqueue hacked hconfirmed fun k => ?_
    rw [hfrom, occurs_sent_of_ne hsource, hdown.occurs]

omit [DecidableEq E] [DecidableEq C] in
theorem confirm_keys (cfg : TransferConfig E C W) (s : TransferState E C W) (c : C) (key : Nat) :
    (s.confirm cfg c key).queue = s.queue ∧ (s.confirm cfg c key).conn = s.conn ∧
      (s.confirm cfg c key).acked = s.acked ++ [key] ∧
      (s.confirm cfg c key).keysConfirmed = s.keysConfirmed + 1 := by
  unfold confirm confirmWorker
  dsimp only
  split <;> exact ⟨rfl, rfl, rfl, rfl⟩

theorem moves_keys (h : ConnMoves cfg s c s') : KeyBalance cfg s s' c := by
  cases h with
  | stays => exact ⟨fun _ _ => rfl, fun _ _ => rfl, fun _ => rfl, rfl⟩
  | goes hfrom hto =>
    refine keyBalance_goes rfl rfl rfl rfl fun k => ?_
    rw [hfrom.occurs, hto.occurs]
  | pops hfrom hqueue =>
    refine ⟨fun c' hc => Function.update_of_ne hc _ _, fun e he => Function.update_of_ne he _ _,
      fun k => ?_, rfl⟩
    simp [goTo, hfrom.occurs, hqueue, List.count_cons]
  | putsBack hfrom =>
    refine keyBalance_back (by exact trivial : ConnAt.top.free) rfl rfl rfl rfl fun k => ?_
    rw [hfrom, occurs_popped]
  | sendsPrefill hfrom =>
    refine keyBalance_goes rfl rfl rfl rfl fun k => ?_
    rw [hfrom, occurs_popped, occurs_prefill]
  | sendsRepair hfrom hbackfill =>
    refine keyBalance_goes rfl rfl rfl rfl fun k => ?_
    rw [hfrom.occurs, occurs_sent_of_ne Source.noConfusion]
  | sendsWorkload hfrom =>
    refine keyBalance_goes rfl rfl rfl rfl fun k => ?_
    rw [hfrom.occurs, occurs_sent_of_ne Source.noConfusion]
  | timesOut hfrom => exact lose_keys hfrom rfl rfl rfl rfl
  | losesTimer hfrom => exact lose_keys hfrom rfl rfl rfl rfl
  | @confirms transfer how place hfrom hsource hto =>
    obtain ⟨hqueue, hconn, hacked, hconfirmed⟩ :=
      confirm_keys cfg (s.answered cfg c transfer how) c transfer.key
    refine ⟨fun c' hc => ?_, fun e _ => ?_, fun k => ?_, ?_⟩
    · simp only [goTo, hconn, Function.update_of_ne hc]
      rfl
    · simp only [goTo, hqueue]
      rfl
    · simp only [goTo, hqueue, hacked, Function.update_self, hto.occurs, hfrom,
        occurs_sent_of_eq hsource, List.count_append]
      simp only [answered]
      omega
    · simp only [goTo, hacked, hconfirmed, List.length_append, List.length_singleton]
      simp only [answered]
      omega
  | fails hfrom hsource hto =>
    refine keyBalance_back hto rfl rfl rfl rfl fun k => ?_
    rw [hfrom, occurs_sent_of_eq hsource]
  | ends hfrom hsource hto =>
    refine keyBalance_goes rfl rfl rfl rfl fun k => ?_
    rw [hfrom, occurs_sent_of_ne hsource, hto.occurs]

/-- How often the key `k` occurs in all. -/
def total [Fintype E] [Fintype C] (s : TransferState E C W) (k : Nat) : Nat :=
  (∑ e, (s.queue e).count k) + (∑ c, (s.conn c).occurs k) + s.acked.count k

omit [DecidableEq E] [DecidableEq C] [DecidableEq W] in
theorem sum_occurrences [Fintype E] [Fintype C] (s : TransferState E C W) (k : Nat) :
    ∑ p, occurrences s k p = total s k := by
  rw [← Worker.Place.equiv.sum_comp]
  simp only [Fintype.sum_sum_type, Worker.Place.equiv, Equiv.coe_fn_mk, occurrences, total,
    ConnAt.occurs, Finset.sum_add_distrib, Finset.univ_unique, Finset.sum_singleton]
  omega

omit [DecidableEq W] in
theorem KeyBalance.total_eq [Fintype E] [Fintype C] (h : KeyBalance cfg s s' c) (k : Nat) :
    total s' k = total s k := by
  have hqueues := Ledger.sum_of_eq_off (fun e => (s.queue e).count k)
    (fun e => (s'.queue e).count k) (cfg.endpoint c) fun e he => by rw [h.queue e he]
  have hconns := Ledger.sum_of_eq_off (fun c => (s.conn c).occurs k)
    (fun c => (s'.conn c).occurs k) c fun c' hc => by rw [h.conn c' hc]
  have hkeys := h.keys k
  unfold total
  omega

/-! ## The workers' shares -/

/-- What `confirm_prefill_key` counts, in all and for each worker. -/
structure SharesInv [Fintype W] (cfg : TransferConfig E C W) (s : TransferState E C W) : Prop where
  sum : s.keysConfirmed = ∑ w, s.prefillConfirmed w
  done : ∀ w, s.prefillDone w = true ↔
    0 < cfg.prefillTotal w ∧ cfg.prefillTotal w ≤ s.prefillConfirmed w
  complete : s.workersComplete = ∑ w, (s.prefillDone w).toNat

omit [DecidableEq E] [DecidableEq C] in
theorem sum_confirmed [Fintype W] (f : W → Nat) (w : W) :
    ∑ v, Function.update f w (f w + 1) v = (∑ v, f v) + 1 := by
  have hsum := Ledger.sum_update_add f w (f w + 1)
  omega

omit [DecidableEq E] [DecidableEq C] in
/-- A worker is done with the confirmation that fills its share, and counted once. -/
theorem confirm_shares [Fintype W] (h : SharesInv cfg s) (c : C) (key : Nat) :
    SharesInv cfg (s.confirm cfg c key) := by
  have hsum : s.keysConfirmed + 1 = ∑ w, Function.update s.prefillConfirmed (cfg.worker c)
      (s.prefillConfirmed (cfg.worker c) + 1) w := by
    rw [sum_confirmed, h.sum]
  have hdone := h.done (cfg.worker c)
  unfold confirm confirmWorker
  dsimp only
  split
  case isTrue hfull =>
    refine ⟨hsum, fun w => ?_, ?_⟩
    · by_cases hw : w = cfg.worker c
      · subst hw
        simp only [Function.update_self]
        exact iff_of_true trivial ⟨hfull.2.1, hfull.1⟩
      · simp only [Function.update_of_ne hw]
        exact h.done w
    · have hcount := Ledger.sum_of_eq_off (fun w => (s.prefillDone w).toNat)
        (fun w => (Function.update s.prefillDone (cfg.worker c) true w).toNat) (cfg.worker c)
        fun w hw => by rw [Function.update_of_ne hw]
      have hcomplete := h.complete
      simp only [Function.update_self, hfull.2.2, Bool.toNat_true, Bool.toNat_false] at hcount
      dsimp only
      omega
  case isFalse hnot =>
    refine ⟨hsum, fun w => ?_, h.complete⟩
    by_cases hw : w = cfg.worker c
    · subst hw
      simp only [Function.update_self]
      rw [hdone]
      refine ⟨fun hfull => ⟨hfull.1, by omega⟩, fun hfull => ⟨hfull.1, ?_⟩⟩
      by_contra hless
      have hopen : s.prefillDone (cfg.worker c) = false := by
        rw [Bool.eq_false_iff, Ne, hdone]
        exact fun hfilled => hless hfilled.2
      exact hnot ⟨hfull.2, hfull.1, hopen⟩
    · simp only [Function.update_of_ne hw]
      exact h.done w

omit [DecidableEq E] [DecidableEq C] [DecidableEq W] in
theorem SharesInv.of_eq [Fintype W] (h : SharesInv cfg s)
    (hkeys : s'.keysConfirmed = s.keysConfirmed)
    (hconfirmed : s'.prefillConfirmed = s.prefillConfirmed)
    (hdone : s'.prefillDone = s.prefillDone)
    (hcomplete : s'.workersComplete = s.workersComplete) : SharesInv cfg s' where
  sum := by rw [hkeys, hconfirmed, h.sum]
  done w := by rw [hdone, hconfirmed, h.done]
  complete := by rw [hcomplete, hdone, h.complete]

theorem moves_shares [Fintype W] (hmove : ConnMoves cfg s c s') (h : SharesInv cfg s) :
    SharesInv cfg s' := by
  cases hmove with
  | confirms hfrom hsource hto =>
    exact (confirm_shares (s := s.answered cfg c _ _) (h.of_eq rfl rfl rfl rfl) c _).of_eq
      rfl rfl rfl rfl
  | timesOut hfrom =>
    unfold lose
    split <;> exact h.of_eq rfl rfl rfl rfl
  | losesTimer hfrom =>
    unfold lose
    split <;> exact h.of_eq rfl rfl rfl rfl
  | stays => exact h
  | goes hfrom hto => exact h.of_eq rfl rfl rfl rfl
  | pops hfrom hqueue => exact h.of_eq rfl rfl rfl rfl
  | putsBack hfrom => exact h.of_eq rfl rfl rfl rfl
  | sendsPrefill hfrom => exact h.of_eq rfl rfl rfl rfl
  | sendsRepair hfrom hbackfill => exact h.of_eq rfl rfl rfl rfl
  | sendsWorkload hfrom => exact h.of_eq rfl rfl rfl rfl
  | fails hfrom hsource hto => exact h.of_eq rfl rfl rfl rfl
  | ends hfrom hsource hto => exact h.of_eq rfl rfl rfl rfl

/-! ## Conservation -/

structure TransferInv [Fintype E] [Fintype C] [Fintype W] (cfg : TransferConfig E C W)
    (count : Nat) (s : TransferState E C W) : Prop where
  total_eq : ∀ k, total s k = (List.range count).count k
  counted : s.keysConfirmed = s.acked.length
  shares : SharesInv cfg s

theorem transferStep_inv [Fintype E] [Fintype C] [Fintype W] {count : Nat} {e : TransferStep C}
    (h : TransferInv cfg count s) (hstep : transferStep cfg s e = some s') :
    TransferInv cfg count s' := by
  cases e with
  | setPhase phase =>
    cases hstep
    exact ⟨h.total_eq, h.counted, h.shares.of_eq rfl rfl rfl rfl⟩
  | conn c e =>
    have hmove := transferEvent_moves hstep
    have hkeys := moves_keys hmove
    have hconfirmed := hkeys.confirmed
    have hcounted := h.counted
    exact ⟨fun k => (hkeys.total_eq k).trans (h.total_eq k), by omega, moves_shares hmove h.shares⟩

omit [DecidableEq C] [DecidableEq W] in
theorem init_inv [Fintype E] [Fintype C] [Fintype W] (cfg : TransferConfig E C W)
    (route : Nat → E) (count : Nat) :
    TransferInv cfg count (.init (Worker.buildPrefillQueues route count)) where
  total_eq k := by
    have hdown : ConnAt.down.free := trivial
    simp [total, TransferState.init, Worker.sum_buildPrefillQueues, hdown.occurs]
  counted := rfl
  shares :=
    { sum := by simp [TransferState.init]
      done := fun w => by
        simp only [TransferState.init, Bool.false_eq_true, false_iff]
        omega
      complete := by simp [TransferState.init] }

/-- **No prefill key gets lost.** In every interleaving of the connections over all workers, with
any phases, pacer refusals, error replies, failures and timeouts, each key id is in one endpoint's
queue, in the hands of one connection, in flight on one, or confirmed, once; no more keys are
confirmed than there are, so all are when as many are counted. Each worker is done exactly when it
has confirmed its share, and counted once. -/
theorem dma_prefill_conserved [Fintype E] [Fintype C] [Fintype W] (cfg : TransferConfig E C W)
    (route : Nat → E) (count : Nat) (es : List (TransferStep C)) (s : TransferState E C W)
    (hrun : run (transferStep cfg) (.init (Worker.buildPrefillQueues route count)) es = some s) :
    (∀ k < count, Ledger.ExactlyOne (occurrences s k)) ∧
      (∀ k, count ≤ k → ∀ p, occurrences s k p = 0) ∧
      s.keysConfirmed ≤ count ∧
      (s.keysConfirmed = count → ∀ k < count, occurrences s k .confirmed = 1) ∧
      SharesInv cfg s := by
  have h : TransferInv cfg count s := run_inv transferStep_inv (init_inv cfg route count) hrun
  have hsum := fun k => (sum_occurrences s k).trans (h.total_eq k)
  have hacked : ∀ k, s.acked.count k ≤ (List.range count).count k := by
    intro k
    rw [← h.total_eq k]
    exact Nat.le_add_left _ _
  refine ⟨fun k hk => ?_, fun k hk p => ?_, ?_, fun hall k hk => ?_, h.shares⟩
  · exact Ledger.exactlyOne_of_sum ((hsum k).trans (Ledger.count_range hk))
  · have hnone : (List.range count).count k = 0 :=
      List.count_eq_zero.2 fun hmem => absurd (List.mem_range.1 hmem) (Nat.not_lt.2 hk)
    have hle := Finset.single_le_sum (f := occurrences s k) (fun _ _ => Nat.zero_le _)
      (Finset.mem_univ p)
    have hzero := hsum k
    omega
  · have hlen := Ledger.length_le_of_covered hacked
    rw [List.length_range] at hlen
    rw [h.counted]
    exact hlen
  · refine Ledger.count_eq_one_of_covered hacked List.nodup_range ?_ (List.mem_range.2 hk)
    rw [List.length_range, ← h.counted, hall]

/-- Two workers with a connection each to one endpoint. -/
def twoWorkers : TransferConfig Unit Bool Bool where
  endpoint _ := ()
  worker c := c
  prefillTotal _ := 1
  pacer := true
  backfillOnMiss := true

/-- One connection's key is refused by the pacer and put back; the other confirms one key, and loses
its next one to the deadline. -/
def refusedAndLost : List (TransferStep Bool) :=
  [.conn true .connect, .conn false .connect, .setPhase .prefill,
    .conn true (.turn none), .conn false (.turn none), .conn true (.paced false),
    .conn false (.paced true), .conn false (.finish (.done 8 true)),
    .setPhase .running, .conn false (.turn (some (5, .get))), .conn false (.finish (.done 0 false)),
    .conn false (.turn none), .conn false (.finish .timedOut)]

theorem dma_prefill_conserved_refusedAndLost : ∃ s,
    run (transferStep twoWorkers) (.init (Worker.buildPrefillQueues (fun _ => ()) 2))
      refusedAndLost = some s ∧ s.keysConfirmed ≤ 2 ∧
        Ledger.ExactlyOne (occurrences s 0) ∧ s.workersComplete = 1 := by
  have hrun : ∃ s, run (transferStep twoWorkers)
      (.init (Worker.buildPrefillQueues (fun _ => ()) 2)) refusedAndLost = some s ∧
        s.workersComplete = 1 := ⟨_, rfl, rfl⟩
  obtain ⟨s, hrun, hcomplete⟩ := hrun
  obtain ⟨hone, -, hle, -, -⟩ :=
    dma_prefill_conserved twoWorkers (fun _ => ()) 2 refusedAndLost s hrun
  exact ⟨s, hrun, hle, hone 0 (by decide), hcomplete⟩

/-! ## The books -/

/-- The misses that are to be repaired. -/
def missesNoted (cfg : TransferConfig E C W) (s : TransferState E C W) : Nat :=
  if cfg.backfillOnMiss then s.counters.cacheMisses else 0

/-- Every request that was sent has been answered, has timed out, had no timer, or is out; every
answer is of a kind, and only reads hit or miss; every miss has been repaired or is queued. -/
structure Books [Fintype C] (cfg : TransferConfig E C W) (s : TransferState E C W) : Prop where
  sent : s.counters.requestsSent = s.counters.responsesReceived + s.counters.requestTimeouts +
    s.untimed + ∑ c, (s.conn c).busy
  kinds : s.counters.responsesReceived =
    s.counters.getCount + s.counters.setCount + s.counters.deleteCount
  reads : s.counters.cacheHits + s.counters.cacheMisses ≤ s.counters.getCount
  repaired : missesNoted cfg s = s.repairs + ∑ c, (s.backfill c).length

/-- A step of the connection `c` as the books see it. -/
structure BookBalance (cfg : TransferConfig E C W) (s s' : TransferState E C W) (c : C) :
    Prop where
  conn : ∀ c', c' ≠ c → s'.conn c' = s.conn c' ∧ s'.backfill c' = s.backfill c'
  sent : s'.counters.requestsSent + s.counters.responsesReceived + s.counters.requestTimeouts +
      s.untimed + (s.conn c).busy =
    s.counters.requestsSent + s'.counters.responsesReceived + s'.counters.requestTimeouts +
      s'.untimed + (s'.conn c).busy
  kinds : s'.counters.responsesReceived + s.counters.getCount + s.counters.setCount +
      s.counters.deleteCount =
    s.counters.responsesReceived + s'.counters.getCount + s'.counters.setCount +
      s'.counters.deleteCount
  reads : s'.counters.cacheHits + s'.counters.cacheMisses + s.counters.getCount ≤
    s.counters.cacheHits + s.counters.cacheMisses + s'.counters.getCount
  repaired : missesNoted cfg s' + s.repairs + (s.backfill c).length =
    missesNoted cfg s + s'.repairs + (s'.backfill c).length

omit [DecidableEq E] [DecidableEq W] in
theorem BookBalance.books [Fintype C] (h : BookBalance cfg s s' c) (hbooks : Books cfg s) :
    Books cfg s' := by
  have hbusy := Ledger.sum_of_eq_off (fun c => (s.conn c).busy) (fun c => (s'.conn c).busy) c
    fun c' hc => by rw [(h.conn c' hc).1]
  have hqueued := Ledger.sum_of_eq_off (fun c => (s.backfill c).length)
    (fun c => (s'.backfill c).length) c fun c' hc => by rw [(h.conn c' hc).2]
  obtain ⟨-, hsent, hkinds, hreads, hrepaired⟩ := h
  obtain ⟨hsent', hkinds', hreads', hrepaired'⟩ := hbooks
  exact ⟨by omega, by omega, by omega, by omega⟩

omit [DecidableEq E] [DecidableEq W] in
/-- A connection goes on with no transfer out, before and after. -/
theorem bookBalance_goes {place : ConnAt} (hfrom : (s.conn c).busy = 0) (hto : place.busy = 0)
    (hconn : s'.conn = Function.update s.conn c place) (hbackfill : s'.backfill = s.backfill)
    (hcounters : s'.counters = s.counters) (hrepairs : s'.repairs = s.repairs)
    (huntimed : s'.untimed = s.untimed) : BookBalance cfg s s' c where
  conn c' hc := by rw [hconn, Function.update_of_ne hc, hbackfill]; exact ⟨rfl, rfl⟩
  sent := by rw [hconn, Function.update_self, hcounters, huntimed, hfrom, hto]
  kinds := by rw [hcounters]
  reads := by rw [hcounters]
  repaired := by rw [missesNoted, missesNoted, hcounters, hrepairs, hbackfill]

omit [DecidableEq E] [DecidableEq W] in
/-- A transfer goes out: of a backfill queue, or not. -/
theorem bookBalance_sends (transfer : Transfer) (keys : List Nat) (hfrom : (s.conn c).busy = 0)
    (hkeys : (s.backfill c).length =
      keys.length + if transfer.source = .backfill then 1 else 0) :
    BookBalance cfg s
      ({ s with backfill := Function.update s.backfill c keys }.send c transfer) c where
  conn c' hc := ⟨Function.update_of_ne hc _ _, Function.update_of_ne hc _ _⟩
  sent := by
    simp only [send, goTo, Function.update_self, hfrom, busy_sent]
    omega
  kinds := rfl
  reads := le_rfl
  repaired := by
    simp only [send, goTo, missesNoted, Function.update_self, hkeys]
    omega

omit [DecidableEq W] in
theorem lose_conn (cfg : TransferConfig E C W) (c : C) (t : TransferState E C W)
    (transfer : Transfer) :
    (t.lose cfg c transfer).conn = Function.update t.conn c .down ∧
      (t.lose cfg c transfer).counters = t.counters ∧
      (t.lose cfg c transfer).untimed = t.untimed ∧
      (t.lose cfg c transfer).repairs = t.repairs ∧
      (t.lose cfg c transfer).backfill = t.backfill := by
  unfold lose
  split <;> exact ⟨rfl, rfl, rfl, rfl, rfl⟩

/-- What an answer adds to the counters. -/
theorem record_counters (n : Counters) (op : Op) (how : TransferEnd) :
    (Counters.record n op how).requestsSent = n.requestsSent ∧
      (Counters.record n op how).requestTimeouts = n.requestTimeouts ∧
      (Counters.record n op how).responsesReceived = n.responsesReceived + 1 ∧
      (Counters.record n op how).getCount + (Counters.record n op how).setCount +
        (Counters.record n op how).deleteCount = n.getCount + n.setCount + n.deleteCount + 1 ∧
      (Counters.record n op how).cacheHits + (Counters.record n op how).cacheMisses +
        n.getCount ≤ n.cacheHits + n.cacheMisses + (Counters.record n op how).getCount ∧
      (Counters.record n op how).cacheMisses =
        n.cacheMisses + if hitOf op how = some false then 1 else 0 := by
  refine ⟨rfl, rfl, rfl, ?_, ?_, rfl⟩
  · simp only [Counters.record]
    cases op <;> simp <;> omega
  · simp only [Counters.record]
    cases how with
    | done bytes hit =>
      cases op <;> cases hit <;> simp [hitOf]
      all_goals omega
    | timedOut => simp [hitOf]
    | noTimer => simp [hitOf]
    | errorReply => simp [hitOf]
    | failed => simp [hitOf]

omit [DecidableEq W] in
/-- A transfer that came to no end is counted as timed out, or as without a timer. -/
theorem bookBalance_loses {t : TransferState E C W} {transfer : Transfer}
    (hfrom : s.conn c = .sent transfer) (hconn : t.conn = s.conn)
    (hbackfill : t.backfill = s.backfill) (hrepairs : t.repairs = s.repairs)
    (hcounters : ∃ timeouts errors, t.counters =
        { s.counters with requestTimeouts := timeouts, requestErrors := errors } ∧
      timeouts + t.untimed = s.counters.requestTimeouts + s.untimed + 1) :
    BookBalance cfg s (t.lose cfg c transfer) c := by
  obtain ⟨timeouts, errors, hcounters, hone⟩ := hcounters
  obtain ⟨hconn', hcounters', huntimed', hrepairs', hbackfill'⟩ :=
    lose_conn cfg c t transfer
  refine ⟨fun c' hc => ?_, ?_, ?_, ?_, ?_⟩
  · rw [hconn', Function.update_of_ne hc, hconn, hbackfill', hbackfill]
    exact ⟨rfl, rfl⟩
  · rw [hconn', Function.update_self, hcounters', hcounters, huntimed', hfrom, busy_sent]
    have hdown : ConnAt.down.busy = 0 := rfl
    dsimp only
    omega
  · rw [hcounters', hcounters]
  · rw [hcounters', hcounters]
  · rw [missesNoted, missesNoted, hcounters', hcounters, hrepairs', hrepairs, hbackfill', hbackfill]

omit [DecidableEq E] [DecidableEq W] in
/-- An answer is counted, and a miss is noted where it is to be repaired. -/
theorem bookBalance_answered {t : TransferState E C W} {transfer : Transfer} {how : TransferEnd}
    {place : ConnAt} (hfrom : s.conn c = .sent transfer) (hto : place.free)
    (hconn : t.conn = (s.answered cfg c transfer how).conn)
    (hbackfill : t.backfill = (s.answered cfg c transfer how).backfill)
    (hcounters : t.counters = (s.answered cfg c transfer how).counters)
    (hrepairs : t.repairs = s.repairs) (huntimed : t.untimed = s.untimed) :
    BookBalance cfg s (t.goTo c place) c := by
  obtain ⟨hsent, htimeouts, hresponses, hkinds, hreads, hmisses⟩ :=
    record_counters s.counters transfer.op how
  refine ⟨fun c' hc => ⟨?_, ?_⟩, ?_, ?_, ?_, ?_⟩
  · simp only [goTo, Function.update_of_ne hc, hconn]
    rfl
  · simp only [goTo, hbackfill, answered, Function.update_of_ne hc]
  · simp only [goTo, hcounters, answered, hsent, htimeouts, hresponses, huntimed,
      Function.update_self, hto.busy, hfrom, busy_sent]
    omega
  · simp only [goTo, hcounters, answered]
    omega
  · simp only [goTo, hcounters, answered]
    omega
  · simp only [goTo, missesNoted, hcounters, answered, hmisses, hrepairs, hbackfill,
      Function.update_self]
    cases cfg.backfillOnMiss with
    | false => simp
    | true =>
      by_cases hmiss : hitOf transfer.op how = some false
      · simp [hmiss]
        omega
      · simp [hmiss]

omit [DecidableEq E] [DecidableEq C] in
theorem confirm_books (cfg : TransferConfig E C W) (s : TransferState E C W) (c : C) (key : Nat) :
    (s.confirm cfg c key).conn = s.conn ∧ (s.confirm cfg c key).backfill = s.backfill ∧
      (s.confirm cfg c key).counters = s.counters ∧ (s.confirm cfg c key).repairs = s.repairs ∧
      (s.confirm cfg c key).untimed = s.untimed := by
  unfold confirm confirmWorker
  dsimp only
  split <;> exact ⟨rfl, rfl, rfl, rfl, rfl⟩

theorem moves_books (h : ConnMoves cfg s c s') : BookBalance cfg s s' c := by
  have hsame : ∀ (t : TransferState E C W) (c : C),
      { t with backfill := Function.update t.backfill c (t.backfill c) } = t := by
    intro t c
    rw [Function.update_eq_self]
  cases h with
  | stays => exact ⟨fun _ _ => ⟨rfl, rfl⟩, rfl, rfl, le_rfl, rfl⟩
  | goes hfrom hto => exact bookBalance_goes hfrom.busy hto.busy rfl rfl rfl rfl rfl
  | pops hfrom hqueue => exact bookBalance_goes hfrom.busy rfl rfl rfl rfl rfl rfl
  | putsBack hfrom => exact bookBalance_goes (by rw [hfrom]; rfl) rfl rfl rfl rfl rfl rfl
  | @sendsPrefill key hfrom =>
    have hsend : BookBalance cfg s _ c :=
      bookBalance_sends ⟨key, .set, .prefill⟩ (s.backfill c) (by rw [hfrom]; rfl) rfl
    rwa [hsame] at hsend
  | sendsRepair hfrom hbackfill =>
    exact bookBalance_sends _ _ hfrom.busy (by rw [hbackfill]; rfl)
  | @sendsWorkload key op hfrom =>
    have hsend : BookBalance cfg s _ c :=
      bookBalance_sends ⟨key, op, .workload⟩ (s.backfill c) hfrom.busy rfl
    rwa [hsame] at hsend
  | timesOut hfrom =>
    exact bookBalance_loses hfrom rfl rfl rfl ⟨_, _, rfl, Nat.add_right_comm _ 1 _⟩
  | losesTimer hfrom =>
    exact bookBalance_loses hfrom rfl rfl rfl ⟨_, _, rfl, (Nat.add_assoc _ _ 1).symm⟩
  | @confirms transfer how place hfrom hsource hto =>
    obtain ⟨hconn, hbackfill, hcounters, hrepairs, huntimed⟩ :=
      confirm_books cfg (s.answered cfg c transfer how) c transfer.key
    exact bookBalance_answered hfrom hto hconn hbackfill hcounters hrepairs huntimed
  | fails hfrom hsource hto => exact bookBalance_answered hfrom hto rfl rfl rfl rfl rfl
  | ends hfrom hsource hto => exact bookBalance_answered hfrom hto rfl rfl rfl rfl rfl

/-- **The books of the transfer loop.** In every interleaving, whatever the queues, `REQUESTS_SENT`
is the answers counted, the timeouts, the transfers without a timer and those that are out; the
answers are the reads, writes and deletes counted, and no more reads hit or miss than were answered;
and with `backfill_on_miss` every miss has had its repair sent or is in a connection's backfill
queue. -/
theorem transfers_accounted [Fintype C] (cfg : TransferConfig E C W) (queue : E → List Nat)
    (es : List (TransferStep C)) (s : TransferState E C W)
    (hrun : run (transferStep cfg) (.init queue) es = some s) : Books cfg s := by
  have hinit : Books cfg (.init queue) :=
    ⟨by simp [TransferState.init, ConnAt.busy], rfl, le_rfl,
      by simp [TransferState.init, missesNoted]⟩
  refine run_inv (I := Books cfg) (fun {s e s'} h hstep => ?_) hinit hrun
  cases e with
  | setPhase phase =>
    cases hstep
    exact ⟨h.sent, h.kinds, h.reads, h.repaired⟩
  | conn c e => exact (moves_books (transferEvent_moves hstep)).books h

theorem transfers_accounted_refusedAndLost : ∃ s,
    run (transferStep twoWorkers) (.init fun _ => [0, 1]) refusedAndLost = some s ∧
      s.counters.requestTimeouts = 1 ∧ s.counters.responsesReceived = 2 ∧
      s.counters.requestsSent = 2 + 1 + s.untimed + ∑ c, (s.conn c).busy := by
  have hrun : ∃ s, run (transferStep twoWorkers) (.init fun _ => [0, 1]) refusedAndLost = some s ∧
      s.counters.requestTimeouts = 1 ∧ s.counters.responsesReceived = 2 := ⟨_, rfl, rfl, rfl⟩
  obtain ⟨s, hrun, htimeouts, hresponses⟩ := hrun
  have hsent := (transfers_accounted twoWorkers _ _ s hrun).sent
  rw [htimeouts, hresponses] at hsent
  exact ⟨s, hrun, htimeouts, hresponses, hsent⟩

end Dma
