import Cachecannon.Lib.Ledger
import Cachecannon.TraceReplay.Model

/-!
# Row conservation

Every row the reader sent is at all times in one channel batch, one worker's claimed rows,
`returned`, one connection's `sent`, or done (`rows_conserved`).

* `requeue_count`: the rows a failed send takes off `sent` are put back or given up.
* `Moves`: a turn of a connection only moves rows between the places it works on, and keeps
  `sent` the requests its client has in flight (`fireTurn_moves`, `flushTurn_moves`).
* `TraceInv`: the invariant of the replay; `traceStep_inv` is its step lemma.
-/

namespace TraceReplay

open Pipeline Ledger

/-- How often the row `k` is in flight. -/
def sentCount (k : Nat) (sent : List Sent) : Nat := countBy Row.index k (sentRows sent)

@[simp] theorem sentCount_nil (k : Nat) : sentCount k [] = 0 := rfl

@[simp] theorem sentCount_append (k : Nat) (l l' : List Sent) :
    sentCount k (l ++ l') = sentCount k l + sentCount k l' := by
  simp [sentCount, sentRows]

theorem sentCount_cons (k : Nat) (r : Sent) (l : List Sent) :
    sentCount k (r :: l) = sentCount k [r] + sentCount k l := sentCount_append k [r] l

@[simp] theorem sentCount_row (k : Nat) (row : Row) :
    sentCount k [.row row] = countBy Row.index k [row] := rfl

@[simp] theorem sentCount_backfill (k objId size : Nat) :
    sentCount k [.backfill objId size] = 0 := rfl

/-! ## Sending again -/

theorem chargeRow_row (charge : Charge) (n : Nat) (row : Row) (i : Nat) :
    ∃ row', chargeRow charge n (.row row, i) = some row' ∧ row'.index = row.index := by
  refine ⟨_, rfl, ?_⟩
  rw [apply_ite Row.index, ite_self]

/-- Charging a row keeps its place in the file, and drops the backfills. -/
theorem map_index_chargeRow (charge : Charge) (n : Nat) (l : List Sent) (i : Nat) :
    ((l.zipIdx i).filterMap (chargeRow charge n)).map Row.index =
      (sentRows l).map Row.index := by
  induction l generalizing i with
  | nil => rfl
  | cons s l ih =>
    rw [List.zipIdx_cons, List.filterMap_cons]
    cases s with
    | row row =>
      obtain ⟨row', hrow, hindex⟩ := chargeRow_row charge n row i
      simp only [hrow, List.map_cons, hindex, ih]
      rfl
    | backfill objId size => exact ih (i + 1)

theorem countBy_chargeRow (k : Nat) (charge : Charge) (n : Nat) (l : List Sent) (i : Nat) :
    countBy Row.index k ((l.zipIdx i).filterMap (chargeRow charge n)) = sentCount k l :=
  congrArg (List.count k) (map_index_chargeRow charge n l i)

/-- **What a failed send takes off `sent`**, and the request that failed, is put back or given
up. -/
theorem requeue_count (k : Nat) (sent : List Sent) (discarded : Nat) (failed : Option Sent)
    (charge : Charge) :
    let out := requeue sent discarded failed charge
    sentCount k out.sent + countBy Row.index k out.unclaimed + countBy Row.index k out.givenUp =
      sentCount k sent + sentCount k failed.toList := by
  intro out
  have hsplit := sentCount_append k (sent.take (sent.length - discarded))
    (sent.drop (sent.length - discarded))
  have hrows := countBy_chargeRow k charge (sent.length - (sent.length - discarded))
    (sent.drop (sent.length - discarded) ++ failed.toList) 0
  have hparts := countBy_perm Row.index k (List.filter_append_perm
    (fun row => decide (row.failedSends < maxSendAttempts))
    ((sent.drop (sent.length - discarded) ++ failed.toList).zipIdx.filterMap
      (chargeRow charge (sent.length - (sent.length - discarded)))))
  rw [List.take_append_drop] at hsplit
  rw [countBy_append] at hparts
  rw [sentCount_append] at hrows
  simp only [out, requeue]
  omega

theorem requeueWithNext_count (k : Nat) (sent : List Sent) (discarded : Nat) (next : Sent)
    (charge : Charge) :
    let out := requeueWithNext sent discarded next charge
    sentCount k out.sent + countBy Row.index k out.unclaimed + countBy Row.index k out.givenUp =
      sentCount k sent + sentCount k [next] := by
  have h := requeue_count k sent discarded none charge
  cases next with
  | row row =>
    simp only [requeueWithNext, countBy_append, sentCount_row, Option.toList_none,
      sentCount_nil] at h ⊢
    omega
  | backfill objId size => simpa [requeueWithNext] using h

theorem requeue_sent {conn : TraceConn} (h : conn.sent = conn.client.outstanding)
    (failed : Option Sent) (charge : Charge) :
    (requeue conn.sent (discarded conn.client) failed charge).sent =
      conn.client.discard.outstanding := by
  simp [requeue, discarded, Client.pendingCount_sub_discard, h, Client.outstanding]

theorem requeueWithNext_sent (sent : List Sent) (n : Nat) (next : Sent) (charge : Charge) :
    (requeueWithNext sent n next charge).sent = (requeue sent n none charge).sent := by
  cases next <;> rfl

/-! ## A turn of a connection -/

def View.occurs (k : Nat) (v : View) : Nat :=
  countBy Row.index k v.channel.flatten + countBy Row.index k v.claimed +
    countBy Row.index k v.returned + sentCount k v.conn.sent + countBy Row.index k v.givenUp

/-- `sent` is what the client has in flight. -/
def TraceConn.Aligned (conn : TraceConn) : Prop := conn.sent = conn.client.outstanding

/-- Rows only move from `v` to `w`, but for `next`, which the turn has in hand. -/
structure Moves (v : View) (next : List Sent) (w : View) : Prop where
  occurs : ∀ k, w.occurs k = v.occurs k + sentCount k next
  aligned : v.conn.Aligned → w.conn.Aligned
  running : w.conn.running = v.conn.running

theorem nextRow_occurs (k : Nat) (v : View) :
    (nextRow v).2.occurs k + countBy Row.index k (nextRow v).1.toList = v.occurs k := by
  unfold nextRow
  split
  · rename_i row claimed hclaimed
    simp only [View.occurs, hclaimed, Option.toList_some]
    rw [countBy_cons Row.index k row claimed]
    omega
  · rename_i hclaimed
    split
    · rename_i hreturned
      split
      · simp
      · rename_i batch channel hchannel
        simp only [View.occurs, hclaimed, hchannel, List.flatten_cons, countBy_append]
        cases batch with
        | nil => simp
        | cons row batch =>
          simp only [List.head?_cons, List.tail_cons, Option.toList_some]
          rw [countBy_cons Row.index k row batch]
          simp only [countBy_nil]
          omega
    · rename_i row rest hreturned
      have hsplit := countBy_append Row.index k (v.returned.take claimBatch)
        (v.returned.drop claimBatch)
      have htake : v.returned.take claimBatch = row :: rest.take 63 := by rw [hreturned]; rfl
      rw [List.take_append_drop] at hsplit
      simp only [View.occurs, hclaimed, htake, List.head?_cons, List.tail_cons,
        Option.toList_some, countBy_nil] at hsplit ⊢
      rw [countBy_cons Row.index k row] at hsplit
      omega

theorem nextRow_conn (v : View) : (nextRow v).2.conn = v.conn := by
  unfold nextRow
  split
  · rfl
  · split
    · split <;> rfl
    · rfl

theorem requeued_moves {v : View} {out : Requeued} {next : List Sent}
    (hcount : ∀ k, sentCount k out.sent + countBy Row.index k out.unclaimed +
      countBy Row.index k out.givenUp = sentCount k v.conn.sent + sentCount k next)
    (hsent : v.conn.Aligned → out.sent = v.conn.client.discard.outstanding) :
    Moves v next (v.requeued out) := by
  refine ⟨fun k => ?_, hsent, rfl⟩
  have := hcount k
  simp only [View.occurs, View.requeued, countBy_append]
  omega

theorem Moves.resetBatch {v w : View} {next : List Sent} (h : Moves v next w) :
    Moves v next w.resetBatch := ⟨h.occurs, h.aligned, h.running⟩

theorem fireNext_moves (keyLen : Nat → Nat) (v : View) (next : Sent) (fire : SendResult) :
    Moves v [next] (fireNext keyLen v next fire) := by
  cases fire with
  | sent flushes =>
    refine ⟨fun k => ?_, fun h => ?_, rfl⟩
    · simp only [View.occurs, fireNext, sentCount_append]
      omega
    · have hsent : v.conn.sent = v.conn.client.outstanding := h
      simp [TraceConn.Aligned, fireNext, hsent]
  | failed never =>
    exact requeued_moves (fun k => requeue_count k _ _ (some next) _)
      fun h => requeue_sent h (some next) _

theorem flushed_moves (v : View) : Moves v [] v.flushed := by
  refine ⟨fun k => rfl, fun h => ?_, rfl⟩
  have hsent : v.conn.sent = v.conn.client.outstanding := h
  simp [TraceConn.Aligned, View.flushed, hsent, Client.outstanding]

theorem sendNext_moves (keyLen : Nat → Nat) (v : View) (next : Sent) (preFlush fire : SendResult) :
    Moves v [next] (sendNext keyLen v next preFlush fire) := by
  unfold sendNext
  split
  · cases preFlush with
    | sent flushes =>
      have hflush := flushed_moves v
      have hfire := fireNext_moves keyLen v.flushed next fire
      refine ⟨fun k => ?_, fun h => hfire.aligned (hflush.aligned h), hfire.running⟩
      rw [hfire.occurs, hflush.occurs, sentCount_nil, Nat.add_zero]
    | failed never =>
      refine (requeued_moves (fun k => requeueWithNext_count k _ _ next _) fun h => ?_).resetBatch
      rw [requeueWithNext_sent]
      exact requeue_sent h none _
  · exact fireNext_moves keyLen v next fire

/-- **A turn of the fire loop** only moves rows. -/
theorem fireTurn_moves (keyLen : Nat → Nat) (v : View) (preFlush fire : SendResult) :
    Moves v [] (fireTurn keyLen v preFlush fire) := by
  unfold fireTurn
  split
  · rename_i objId size rest hbackfill
    have hsend := sendNext_moves keyLen { v with conn := { v.conn with backfill := rest } }
      (.backfill objId size) preFlush fire
    exact ⟨hsend.occurs, hsend.aligned, hsend.running⟩
  · split
    · rename_i row w hnext
      have hconn : w.conn = v.conn := by simpa [hnext] using nextRow_conn v
      have hsend := sendNext_moves keyLen w (.row row) preFlush fire
      refine ⟨fun k => ?_, fun h => hsend.aligned (hconn ▸ h), hconn ▸ hsend.running⟩
      have hocc := nextRow_occurs k v
      rw [hnext] at hocc
      rw [hsend.occurs]
      simpa using hocc
    · rename_i w hnext
      have hconn : w.conn = v.conn := by simpa [hnext] using nextRow_conn v
      refine ⟨fun k => ?_, fun h => hconn ▸ h, congrArg _ hconn⟩
      have hocc := nextRow_occurs k v
      rw [hnext] at hocc
      simpa using hocc

/-- **The flush that ends an iteration** only moves rows. -/
theorem flushTurn_moves (v : View) (result : SendResult) : Moves v [] (flushTurn v result) := by
  cases result with
  | sent flushes => exact flushed_moves v
  | failed never =>
    exact (requeued_moves (fun k => requeue_count k _ _ none _)
      fun h => requeue_sent h none _).resetBatch

/-! ## The invariant -/

variable {W C : Type}

/-- How many rows the channel has taken: those the reader sent. -/
def TraceState.delivered (s : TraceState W C) : Nat := s.readerSent - s.sending.length

def total [Fintype W] [Fintype C] (s : TraceState W C) (k : Nat) : Nat :=
  countBy Row.index k s.channel.flatten + (∑ w, countBy Row.index k (s.claimed w)) +
    countBy Row.index k s.returned + (∑ c, sentCount k (s.conn c).sent) +
    (s.answered ++ s.failed).count k

/-- A connection's `sent` is what its client has in flight, nothing outside `run`. -/
structure ConnOk (conn : TraceConn) : Prop where
  aligned : conn.Aligned
  idle : conn.running = false → conn.sent = []

/-- **The invariant of the replay.** -/
structure TraceInv [Fintype W] [Fintype C] (cfg : TraceConfig W C) (s : TraceState W C) :
    Prop where
  conns : ∀ c, ConnOk (s.conn c)
  claimed : ∀ w, s.claimed w ≠ [] → ∃ c, cfg.worker c = w ∧ (s.conn c).running = true
  counted : s.sending.length ≤ s.readerSent
  sending : s.sending.map Row.index = List.range' s.delivered s.sending.length
  stopped : s.stopped = true → s.sending = []
  done : s.done = s.answered.length + s.failed.length
  total_eq : ∀ k, total s k = (List.range s.delivered).count k

theorem init_inv [Fintype W] [Fintype C] (cfg : TraceConfig W C) :
    TraceInv cfg (TraceState.init : TraceState W C) where
  conns _ := ⟨rfl, fun _ => rfl⟩
  claimed _ h := absurd rfl h
  counted := Nat.le_refl 0
  sending := rfl
  stopped _ := rfl
  done := rfl
  total_eq k := by simp [total, TraceState.init, TraceConn.new, TraceState.delivered]

variable [DecidableEq W] [DecidableEq C] [Fintype W] [Fintype C] {cfg : TraceConfig W C}
  {s t : TraceState W C}

/-- A step of the connection `c`: rows move between its `sent`, its worker's claimed rows, the
shared queues and the done rows, and none stay claimed when it leaves `run`. -/
theorem conn_inv {c : C} {claimed returned : List Row} {channel : List (List Row)}
    {conn : TraceConn} {done : Nat} {answered failed : List Nat} (h : TraceInv cfg s)
    (hconn : ConnOk conn) (hrun : conn.running = true ∨ claimed = [])
    (hdone : done + (s.answered.length + s.failed.length) =
      s.done + (answered.length + failed.length))
    (hmoved : ∀ k, countBy Row.index k channel.flatten + countBy Row.index k claimed +
        countBy Row.index k returned + sentCount k conn.sent + (answered ++ failed).count k =
      countBy Row.index k s.channel.flatten + countBy Row.index k (s.claimed (cfg.worker c)) +
        countBy Row.index k s.returned + sentCount k (s.conn c).sent +
        (s.answered ++ s.failed).count k) :
    TraceInv cfg { s with
      claimed := Function.update s.claimed (cfg.worker c) claimed
      returned, channel
      conn := Function.update s.conn c conn
      done, answered, failed } where
  conns := (Function.forall_update_iff s.conn fun _ => ConnOk).2 ⟨hconn, fun d _ => h.conns d⟩
  claimed w hw := by
    by_cases hwc : w = cfg.worker c
    · subst hwc
      rcases hrun with hrun | hrun
      · exact ⟨c, rfl, by simpa using hrun⟩
      · exact absurd (by simpa using hrun) hw
    · obtain ⟨d, hd, hdrun⟩ := h.claimed w (by simpa [hwc] using hw)
      have hdc : d ≠ c := fun hdc => hwc (hdc ▸ hd.symm)
      exact ⟨d, hd, by simpa [hdc] using hdrun⟩
  counted := h.counted
  sending := h.sending
  stopped := h.stopped
  done := by
    have := h.done
    simp only
    omega
  total_eq k := by
    have hclaimed := sum_map_update_add (countBy Row.index k) s.claimed (cfg.worker c) claimed
    have hsent := sum_map_update_add (fun conn : TraceConn => sentCount k conn.sent) s.conn c conn
    have := h.total_eq k
    have := hmoved k
    simp only [total, TraceState.delivered] at *
    omega

theorem own_inv {c : C} {conn : TraceConn} {done : Nat} {answered : List Nat}
    (h : TraceInv cfg s) (haligned : conn.Aligned) (hrun : conn.running = true)
    (hdone : done + s.answered.length = s.done + answered.length)
    (hmoved : ∀ k, sentCount k conn.sent + answered.count k =
      sentCount k (s.conn c).sent + s.answered.count k) :
    TraceInv cfg { s with conn := Function.update s.conn c conn, done, answered } := by
  have hok : ConnOk conn := ⟨haligned, fun hidle => absurd (hrun.symm.trans hidle) (by decide)⟩
  have hinv : TraceInv cfg { s with
      claimed := Function.update s.claimed (cfg.worker c) (s.claimed (cfg.worker c))
      conn := Function.update s.conn c conn
      done, answered } := by
    refine conn_inv h hok (.inl hrun) (by omega) fun k => ?_
    have := hmoved k
    simp only [List.count_append]
    omega
  rwa [Function.update_eq_self] at hinv

theorem setView_inv {c : C} {w : View} (h : TraceInv cfg s) (hrun : (s.conn c).running = true)
    (hmoves : Moves (s.view cfg c) [] w) : TraceInv cfg (s.setView cfg c w) := by
  have hstays : w.conn.running = true := hmoves.running.trans hrun
  refine conn_inv h ⟨hmoves.aligned (h.conns c).aligned, fun hidle => ?_⟩ (.inl hstays) ?_
    fun k => ?_
  · exact absurd (hstays.symm.trans hidle) (by decide)
  · simp only [List.length_append, List.length_map]
    omega
  · have hocc := hmoves.occurs k
    simp only [View.occurs, TraceState.view, sentCount_nil, countBy_nil] at hocc
    simp only [List.count_append, count_map_eq]
    omega

omit [DecidableEq W] [DecidableEq C] [Fintype W] [Fintype C] in
theorem replyRow_eq (cfg : TraceConfig W C) (conn : TraceConn) (row : Row) (miss : Bool) :
    ∃ backfill, replyRow cfg conn row miss = { conn with backfill } := by
  unfold replyRow
  split
  · exact ⟨_, rfl⟩
  · exact ⟨conn.backfill, rfl⟩

theorem reply_aligned {conn : TraceConn} {answered request : Sent} {wire sent : List Sent}
    (h : conn.Aligned) (hwire : conn.client.wire = answered :: wire)
    (hsent : conn.sent = request :: sent) :
    request = answered ∧ sent = conn.client.reply.outstanding := by
  have : request :: sent = answered :: (wire ++ conn.client.buffered) := by
    rw [← hsent, h, Client.outstanding, hwire, List.cons_append]
  rw [List.cons.injEq] at this
  exact ⟨this.1, by simp [this.2, Client.reply, Client.outstanding, hwire]⟩

omit [DecidableEq W] [DecidableEq C] in
theorem reader_inv (h : TraceInv cfg s) {sending : List Row} {channel : List (List Row)}
    {readerSent : Nat} {stopped : Bool} (hcounted : sending.length ≤ readerSent)
    (hsending : sending.map Row.index = List.range' (readerSent - sending.length) sending.length)
    (hstopped : stopped = true → sending = [])
    (htotal : ∀ k, countBy Row.index k channel.flatten + (List.range s.delivered).count k =
      countBy Row.index k s.channel.flatten + (List.range (readerSent - sending.length)).count k) :
    TraceInv cfg { s with sending, channel, readerSent, stopped } where
  conns := h.conns
  claimed := h.claimed
  counted := hcounted
  sending := hsending
  stopped := hstopped
  done := h.done
  total_eq k := by
    have := h.total_eq k
    have := htotal k
    simp only [total, TraceState.delivered] at *
    omega

theorem range_delivered (k m n : Nat) :
    (List.range (m + n)).count k = (List.range m).count k + (List.range' m n).count k := by
  rw [List.range_eq_range', List.range_eq_range', ← List.count_append]
  simpa using congrArg (List.count k) (List.range'_append_1 (s := 0) (m := m) (n := n)).symm

/-- **The step lemma.** -/
theorem traceStep_inv {e : TraceStep C} (h : TraceInv cfg s) (hstep : traceStep cfg s e = some t) :
    TraceInv cfg t := by
  cases e with
  | read n =>
    simp only [traceStep] at hstep
    split at hstep <;> cases hstep
    rename_i hguard
    obtain ⟨hrunning, hempty, -, -, hrows⟩ := hguard
    have hlen : ((cfg.rows.drop s.readerSent).take n).length = n := by simp; omega
    refine reader_inv h (by omega) ?_ (fun hs => absurd (hs.symm.trans hrunning) (by decide)) ?_
    · rw [List.map_take, List.map_drop, cfg.rows_index, hlen, List.range_eq_range',
        List.drop_range', List.take_range'_of_length_ge (by omega)]
      simp
    · intro k
      simp [hlen, TraceState.delivered, hempty]
  | deliver =>
    simp only [traceStep] at hstep
    split at hstep <;> cases hstep
    refine reader_inv h (Nat.zero_le _) rfl (fun _ => rfl) fun k => ?_
    have hrange := range_delivered k s.delivered s.sending.length
    have hcount : countBy Row.index k s.sending = _ := congrArg (List.count k) h.sending
    have := h.counted
    rw [show s.delivered + s.sending.length = s.readerSent by
      unfold TraceState.delivered; omega] at hrange
    simp only [List.flatten_append, countBy_append, List.flatten_cons, List.flatten_nil,
      List.append_nil, List.length_nil, Nat.sub_zero]
    omega
  | stopReader =>
    simp only [traceStep] at hstep
    split at hstep <;> cases hstep
    rename_i hempty
    exact reader_inv h h.counted h.sending (fun _ => hempty) fun k => by
      simp [TraceState.delivered]
  | connect c =>
    simp only [traceStep] at hstep
    split at hstep <;> cases hstep
    rename_i hidle
    refine own_inv h rfl rfl rfl fun k => ?_
    simp [(h.conns c).idle hidle, TraceConn.new]
  | fireTurn c preFlush fire =>
    simp only [traceStep] at hstep
    split at hstep <;> cases hstep
    rename_i hguard
    exact setView_inv h hguard.1 (fireTurn_moves cfg.keyLen _ preFlush fire)
  | flush c result =>
    simp only [traceStep] at hstep
    split at hstep <;> cases hstep
    rename_i hrun
    exact setView_inv h hrun (flushTurn_moves _ result)
  | reply c miss =>
    simp only [traceStep] at hstep
    split at hstep
    · rename_i answered wire request sent hrun hwire hsent
      obtain ⟨rfl, hrest⟩ := reply_aligned (h.conns c).aligned hwire hsent
      cases request with
      | row row =>
        cases hstep
        obtain ⟨backfill, hreply⟩ := replyRow_eq cfg
          { s.conn c with client := (s.conn c).client.reply, sent } row miss
        rw [hreply]
        refine own_inv h hrest hrun ?_ fun k => ?_
        · simp only [sentRows, List.filterMap_cons, List.filterMap_nil, List.length_append,
            List.length_map, List.length_singleton]
          omega
        · rw [hsent, sentCount_cons, List.count_append, count_map_eq]
          simp only [sentCount]
          omega
      | backfill objId size =>
        cases hstep
        refine own_inv h hrest hrun rfl fun k => ?_
        rw [hsent, sentCount_cons, sentCount_backfill, Nat.zero_add]
    · cases hstep
  | fail c =>
    simp only [traceStep] at hstep
    split at hstep <;> cases hstep
    refine conn_inv h ⟨rfl, fun _ => rfl⟩ (.inr rfl) ?_ fun k => ?_
    · simp only [List.length_append, List.length_map]
      omega
    · simp only [TraceConn.new, List.count_append, countBy_append, countBy_nil, sentCount_nil,
        count_map_eq]
      unfold sentCount
      omega

/-! ## Places -/

inductive Place (W C : Type)
  | channel
  | claimed (w : W)
  | returned
  | sent (c : C)
  | done

def Place.equiv : W ⊕ C ⊕ Unit ⊕ Unit ⊕ Unit ≃ Place W C where
  toFun
    | .inl w => .claimed w
    | .inr (.inl c) => .sent c
    | .inr (.inr (.inl ())) => .channel
    | .inr (.inr (.inr (.inl ()))) => .returned
    | .inr (.inr (.inr (.inr ()))) => .done
  invFun
    | .claimed w => .inl w
    | .sent c => .inr (.inl c)
    | .channel => .inr (.inr (.inl ()))
    | .returned => .inr (.inr (.inr (.inl ())))
    | .done => .inr (.inr (.inr (.inr ())))
  left_inv := by rintro (w | c | ⟨⟩ | ⟨⟩ | ⟨⟩) <;> rfl
  right_inv := by rintro (_ | w | _ | c | _) <;> rfl

instance : Fintype (Place W C) := .ofEquiv _ Place.equiv

/-- How often the row `k` is in a place; it is done when it was answered or counted failed. -/
def occurrences (s : TraceState W C) (k : Nat) : Place W C → Nat
  | .channel => countBy Row.index k s.channel.flatten
  | .claimed w => countBy Row.index k (s.claimed w)
  | .returned => countBy Row.index k s.returned
  | .sent c => sentCount k (s.conn c).sent
  | .done => s.answered.count k + s.failed.count k

omit [DecidableEq W] [DecidableEq C] in
theorem sum_occurrences (s : TraceState W C) (k : Nat) :
    ∑ p, occurrences s k p = total s k := by
  rw [← Place.equiv.sum_comp]
  simp only [Fintype.sum_sum_type, Finset.univ_unique, Finset.sum_singleton, Place.equiv,
    Equiv.coe_fn_mk, occurrences, total, List.count_append]
  omega

omit [DecidableEq W] [DecidableEq C] in
theorem TraceInv.done_le (h : TraceInv cfg s) (k : Nat) :
    (s.answered ++ s.failed).count k ≤ (List.range s.delivered).count k := by
  rw [← h.total_eq k]
  exact Nat.le_add_left _ _

/-- **Row conservation.** In every run, each row the reader sent is in exactly one place. `done`
is the rows answered and those counted failed, at most those sent. A worker with no connection
inside `run` has no claimed rows. So when the replay is finished, every row sent was answered or
counted failed, exactly once. -/
theorem rows_conserved (cfg : TraceConfig W C) (es : List (TraceStep C)) (s : TraceState W C)
    (hrun : Exec.run (traceStep cfg) .init es = some s) :
    (∀ k < s.delivered, ExactlyOne (occurrences s k)) ∧
      s.done = s.answered.length + s.failed.length ∧ s.done ≤ s.readerSent ∧
      (∀ w, (∀ c, cfg.worker c = w → (s.conn c).running = false) → s.claimed w = []) ∧
      (s.isFinished = true →
        ∀ k < s.readerSent, s.answered.count k + s.failed.count k = 1) := by
  have h : TraceInv cfg s := Exec.run_inv traceStep_inv (init_inv cfg) hrun
  have hlen := length_le_of_covered h.done_le
  rw [List.length_range, List.length_append, ← h.done] at hlen
  refine ⟨fun k hk => exactlyOne_of_sum ?_, h.done, ?_, fun w hw => ?_, fun hfin k hk => ?_⟩
  · rw [sum_occurrences, h.total_eq]
    exact count_range hk
  · exact hlen.trans (Nat.sub_le _ _)
  · by_contra hne
    obtain ⟨c, hc, hcrun⟩ := h.claimed w hne
    exact absurd (hcrun.symm.trans (hw c hc)) (by decide)
  · -- the reader has stopped, so it is not sending: all it counted was sent
    simp only [TraceState.isFinished, Bool.and_eq_true, decide_eq_true_eq] at hfin
    have hall : s.delivered = s.readerSent := by
      simp [TraceState.delivered, h.stopped hfin.1]
    rw [← List.count_append]
    refine count_eq_one_of_covered h.done_le List.nodup_range ?_ (List.mem_range.2 (hall ▸ hk))
    rw [List.length_range, List.length_append, ← h.done, hall]
    exact hfin.2

/-- A reply never comes with nothing recorded in flight: the oldest of `sent` is the request it
answers. -/
theorem reply_recorded (cfg : TraceConfig W C) (es : List (TraceStep C)) (s : TraceState W C)
    (hrun : Exec.run (traceStep cfg) .init es = some s) {c : C} {answered : Sent}
    {wire : List Sent} (hwire : (s.conn c).client.wire = answered :: wire) :
    (s.conn c).sent.head? = some answered := by
  have h : TraceInv cfg s := Exec.run_inv traceStep_inv (init_inv cfg) hrun
  have haligned : (s.conn c).sent = _ := (h.conns c).aligned
  simp [haligned, Client.outstanding, hwire]

/-! ## A run of two workers -/

def fourRows : TraceConfig Bool Bool where
  worker := id
  pipelineDepth := 2
  backfillOnMiss := true
  keyLen _ := 16
  rows := [⟨7, 100, .get, 0, 0⟩, ⟨8, 5000, .set, 0, 1⟩, ⟨7, 100, .get, 0, 2⟩, ⟨9, 0, .del, 0, 3⟩]
  rows_index := rfl

/-- A connection is answered, then fails with a row in flight and one claimed. -/
def failingRun : List (TraceStep Bool) :=
  [.connect false, .fireTurn false (.sent false) (.sent false),
    .fireTurn false (.sent false) (.sent false), .flush false (.sent true), .reply false false,
    .fail false]

/-- The other worker's connection takes over; its first flush fails for now. -/
def takeOverRun : List (TraceStep Bool) :=
  [.connect true, .fireTurn true (.sent false) (.sent false),
    .fireTurn true (.sent false) (.sent false), .flush true (.failed false),
    .fireTurn true (.sent false) (.sent false), .fireTurn true (.sent false) (.sent false),
    .flush true (.sent true), .reply true true, .reply true false]

def fourRowRun : List (TraceStep Bool) :=
  [.read 3, .deliver, .read 1, .deliver, .stopReader] ++ failingRun ++ takeOverRun

theorem rows_conserved_fourRows : ∃ s : TraceState Bool Bool,
    Exec.run (traceStep fourRows) .init fourRowRun = some s ∧
      s.answered = [0, 2, 3] ∧ s.failed = [1] ∧ s.isFinished = true ∧
      ∀ k < s.readerSent, s.answered.count k + s.failed.count k = 1 := by
  have hrun : (Exec.run (traceStep fourRows) .init fourRowRun).map
      (fun s => (s.answered, s.failed, s.isFinished)) = some ([0, 2, 3], [1], true) := by
    decide +kernel
  obtain ⟨s, hs, hends⟩ := Option.map_eq_some_iff.1 hrun
  simp only [Prod.mk.injEq] at hends
  obtain ⟨hanswered, hfailed, hfin⟩ := hends
  refine ⟨s, hs, hanswered, hfailed, hfin, ?_⟩
  exact (rows_conserved fourRows fourRowRun s hs).2.2.2.2 hfin

end TraceReplay
