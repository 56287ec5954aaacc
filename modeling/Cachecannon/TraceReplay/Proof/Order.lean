import Cachecannon.TraceReplay.Order
import Cachecannon.TraceReplay.Proof.Conserve

/-!
# A worker sends in file order

For every worker, the rows it put on the wire, the rows its active connection has buffered, the
rows it claimed, and the rows in the channel and with the reader are in strictly increasing file
order, in this sequence (`OrderInv.sorted`). A turn of a connection only moves rows forward in it,
keeps them in order, and gives some up (`Forward`, `fireTurn_forward`, `flushTurn_forward`).
-/

namespace TraceReplay

open Pipeline

/-! ## A turn of a connection -/

def rowIndices (sent : List Sent) : List Nat := (sentRows sent).map Row.index

@[simp] theorem rowIndices_append (l l' : List Sent) :
    rowIndices (l ++ l') = rowIndices l ++ rowIndices l' := by
  simp [rowIndices, sentRows]

@[simp] theorem rowIndices_nil : rowIndices [] = [] := rfl

/-- What a connection's worker has yet to put on the wire, the connection's buffer first. -/
def View.unsent (v : View) : List Nat :=
  rowIndices v.conn.client.buffered ++ (v.claimed ++ v.channel.flatten).map Row.index

/-- From `v`, with `next` in hand, a turn put `put` on the wire and left `w`: what it sent and what
it left to send was there before, in this order. -/
structure Forward (v : View) (next put : List Sent) (w : View) : Prop where
  wire : w.conn.client.wire = v.conn.client.wire ++ put
  unsent : (rowIndices put ++ w.unsent).Sublist
    (rowIndices (v.conn.client.buffered ++ next) ++ (v.claimed ++ v.channel.flatten).map Row.index)
  channel : w.channel.flatten.Sublist v.channel.flatten
  returned : w.returned = v.returned

theorem requeue_indices {conn : TraceConn} (h : conn.Aligned) (failed : Option Sent)
    (charge : Charge) :
    ((requeue conn.sent (discarded conn.client) failed charge).unclaimed.map Row.index).Sublist
      (rowIndices (conn.client.buffered ++ failed.toList)) := by
  have hsent : conn.sent = conn.client.outstanding := h
  have hdrop : conn.sent.drop (conn.sent.length - discarded conn.client) =
      conn.client.buffered := by
    simp [hsent, discarded, Client.pendingCount_sub_discard, Client.outstanding]
  simp only [requeue, hdrop]
  rw [rowIndices, ← map_index_chargeRow charge _ _ 0]
  exact List.filter_sublist.map Row.index

theorem requeued_forward {v : View} {out : Requeued} {next : List Sent}
    (h : (out.unclaimed.map Row.index).Sublist (rowIndices (v.conn.client.buffered ++ next))) :
    Forward v next [] (v.requeued out) := by
  refine ⟨(List.append_nil _).symm, ?_, List.Sublist.refl _, rfl⟩
  simp only [View.unsent, View.requeued, Client.discard_buffered, rowIndices_nil,
    List.nil_append, List.append_assoc, List.map_append]
  exact h.append (List.Sublist.refl _)

theorem Forward.resetBatch {v w : View} {next put : List Sent} (h : Forward v next put w) :
    Forward v next put w.resetBatch := ⟨h.wire, h.unsent, h.channel, h.returned⟩

theorem fireNext_forward (keyLen : Nat → Nat) (v : View) (next : Sent) (fire : SendResult)
    (h : v.conn.Aligned) : ∃ put, Forward v [next] put (fireNext keyLen v next fire) := by
  cases fire with
  | failed never => exact ⟨[], requeued_forward (requeue_indices h (some next) _)⟩
  | sent flushes =>
    cases flushes with
    | false =>
      refine ⟨[], (List.append_nil _).symm, ?_, List.Sublist.refl _, rfl⟩
      simp [View.unsent, fireNext, Client.fire]
    | true =>
      refine ⟨v.conn.client.buffered ++ [next], ?_, ?_, List.Sublist.refl _, rfl⟩
      · simp [fireNext, Client.fire, Client.outstanding]
      · simp [View.unsent, fireNext, Client.fire]

theorem flushed_forward (v : View) : Forward v [] v.conn.client.buffered v.flushed := by
  refine ⟨rfl, ?_, List.Sublist.refl _, rfl⟩
  simp [View.unsent, View.flushed]

theorem sendNext_forward (keyLen : Nat → Nat) (v : View) (next : Sent)
    (preFlush fire : SendResult) (h : v.conn.Aligned) :
    ∃ put, Forward v [next] put (sendNext keyLen v next preFlush fire) := by
  unfold sendNext
  split
  · cases preFlush with
    | sent flushes =>
      -- the buffer is sent first, then `next` is fired from an empty one
      have hflush := flushed_forward v
      obtain ⟨put, hfire⟩ :=
        fireNext_forward keyLen v.flushed next fire ((flushed_moves v).aligned h)
      refine ⟨v.conn.client.buffered ++ put, ?_, ?_, hfire.channel, hfire.returned⟩
      · rw [hfire.wire, hflush.wire, List.append_assoc]
      · have hunsent := hfire.unsent
        simp only [View.flushed, Client.flush_buffered, List.nil_append] at hunsent
        rw [rowIndices_append, rowIndices_append, List.append_assoc, List.append_assoc]
        exact hunsent.append_left _
    | failed never =>
      refine ⟨[], (requeued_forward ?_).resetBatch⟩
      have hrows := requeue_indices h none (if never then .all else .nothing)
      rw [Option.toList_none, List.append_nil] at hrows
      cases next with
      | row row =>
        simp only [requeueWithNext, List.map_append, rowIndices_append]
        exact hrows.append (List.Sublist.refl _)
      | backfill objId size => simpa [requeueWithNext, rowIndices, sentRows] using hrows
  · exact fireNext_forward keyLen v next fire h

/-- With nothing returned, `next_row` takes the first row the worker and the channel hold. -/
theorem nextRow_front {v : View} (h : v.returned = []) :
    (nextRow v).1.toList ++ ((nextRow v).2.claimed ++ (nextRow v).2.channel.flatten) =
        v.claimed ++ v.channel.flatten ∧
      (nextRow v).2.channel.flatten.Sublist v.channel.flatten ∧ (nextRow v).2.returned = [] := by
  obtain ⟨claimed, returned, channel, conn, givenUp⟩ := v
  obtain rfl : returned = [] := h
  cases claimed with
  | cons row claimed => exact ⟨rfl, List.Sublist.refl _, rfl⟩
  | nil =>
    cases channel with
    | nil => exact ⟨rfl, List.Sublist.refl _, rfl⟩
    | cons batch channel =>
      refine ⟨?_, List.sublist_append_right batch _, rfl⟩
      cases batch <;> rfl

/-- **A turn of the fire loop** keeps the order. -/
theorem fireTurn_forward (keyLen : Nat → Nat) (v : View) (preFlush fire : SendResult)
    (h : v.conn.Aligned) (hret : v.returned = []) :
    ∃ put, Forward v [] put (fireTurn keyLen v preFlush fire) := by
  unfold fireTurn
  split
  · rename_i objId size rest hbackfill
    obtain ⟨put, hsend⟩ := sendNext_forward keyLen
      { v with conn := { v.conn with backfill := rest } } (.backfill objId size) preFlush fire h
    refine ⟨put, hsend.wire, ?_, hsend.channel, hsend.returned⟩
    have hunsent := hsend.unsent
    rwa [rowIndices_append] at hunsent ⊢
  · obtain ⟨hfront, hchannel, hreturned⟩ := nextRow_front hret
    have hconn := nextRow_conn v
    split
    · rename_i row w hnext
      rw [hnext] at hfront hchannel hreturned hconn
      simp only at hfront hchannel hreturned hconn
      obtain ⟨put, hsend⟩ := sendNext_forward keyLen w (.row row) preFlush fire (hconn ▸ h)
      refine ⟨put, hconn ▸ hsend.wire, ?_, hsend.channel.trans hchannel, ?_⟩
      · have hunsent := hsend.unsent
        rw [hconn, rowIndices_append, List.append_assoc] at hunsent
        rw [List.append_nil, ← hfront, List.map_append]
        exact hunsent
      · rw [hsend.returned, hreturned, hret]
    · rename_i w hnext
      rw [hnext] at hfront hchannel hreturned hconn
      simp only [Option.toList_none, List.nil_append] at hfront hchannel hreturned hconn
      refine ⟨[], by rw [hconn, List.append_nil], ?_, hchannel, by rw [hreturned, hret]⟩
      rw [View.unsent, hfront, hconn]
      simp

/-- **The flush that ends an iteration** keeps the order, and leaves nothing buffered. -/
theorem flushTurn_forward (v : View) (result : SendResult) (h : v.conn.Aligned) :
    (∃ put, Forward v [] put (flushTurn v result)) ∧
      (flushTurn v result).conn.client.buffered = [] := by
  cases result with
  | sent flushes => exact ⟨⟨_, flushed_forward v⟩, rfl⟩
  | failed never =>
    exact ⟨⟨[], (requeued_forward (requeue_indices h none _)).resetBatch⟩, rfl⟩

/-! ## The invariant -/

variable {W C : Type}

/-- The rows that the worker's active connection has buffered. -/
def OrderState.bufferedRows (s : OrderState W C) (w : W) : List Nat :=
  match s.active w with
  | some c => rowIndices (s.base.conn c).client.buffered
  | none => []

/-- The rows that are with the reader: the batch it is sending and those it has not read. -/
def unreadRows (cfg : TraceConfig W C) (s : TraceState W C) : List Row :=
  s.sending ++ cfg.rows.drop s.readerSent

/-- A worker's rows, from those put on the wire to those not yet read. -/
def OrderState.sequence (cfg : TraceConfig W C) (s : OrderState W C) (w : W) : List Nat :=
  s.onWire w ++ (s.bufferedRows w ++
    ((s.base.claimed w ++ s.base.channel.flatten).map Row.index ++
      (unreadRows cfg s.base).map Row.index))

structure OrderInv (cfg : TraceConfig W C) (s : OrderState W C) : Prop where
  aligned : ∀ c, (s.base.conn c).Aligned
  returned : s.base.returned = []
  active : ∀ w c, s.active w = some c → cfg.worker c = w
  idle : ∀ c, s.active (cfg.worker c) ≠ some c → (s.base.conn c).client.buffered = []
  sorted : ∀ w, (s.sequence cfg w).Pairwise (· < ·)

theorem orderInv_init (cfg : TraceConfig W C) :
    OrderInv cfg (OrderState.init : OrderState W C) where
  aligned _ := rfl
  returned := rfl
  active _ _ h := by cases h
  idle _ _ := rfl
  sorted w := by
    simp only [OrderState.sequence, OrderState.init, OrderState.bufferedRows, TraceState.init,
      unreadRows, List.flatten_nil, List.nil_append, List.map_nil, List.drop_zero]
    rw [cfg.rows_index]
    exact List.pairwise_lt_range

section Steps

variable {cfg : TraceConfig W C} {s t : OrderState W C}

/-- What a step of the reader changes is the border between the channel and the rows not read. -/
theorem reader_order {base : TraceState W C} (h : OrderInv cfg s)
    (hconn : base.conn = s.base.conn) (hclaimed : base.claimed = s.base.claimed)
    (hreturned : base.returned = s.base.returned)
    (hrows : base.channel.flatten ++ unreadRows cfg base =
      s.base.channel.flatten ++ unreadRows cfg s.base) :
    OrderInv cfg { s with base } where
  aligned := hconn ▸ h.aligned
  returned := hreturned.trans h.returned
  active := h.active
  idle := hconn ▸ h.idle
  sorted w := by
    have hsorted := h.sorted w
    simp only [OrderState.sequence, OrderState.bufferedRows, List.map_append,
      List.append_assoc] at hsorted ⊢
    rw [hconn, hclaimed, ← List.map_append, hrows, List.map_append]
    exact hsorted

/-- What a worker has buffered is what its active connection has. -/
theorem bufferedRows_congr {w : W} (hactive : t.active w = s.active w)
    (hconn : ∀ d, s.active w = some d → t.base.conn d = s.base.conn d) :
    t.bufferedRows w = s.bufferedRows w := by
  unfold OrderState.bufferedRows
  rw [hactive]
  cases hw : s.active w with
  | none => rfl
  | some d => simp only [hconn d hw]

/-- A step of an idle connection that sends nothing. -/
theorem idle_order [DecidableEq C] {c : C} {conn : TraceConn} {done : Nat} {answered : List Nat}
    (h : OrderInv cfg s) (hidle : s.active (cfg.worker c) = none) (haligned : conn.Aligned)
    (hbuffered : conn.client.buffered = []) :
    OrderInv cfg { s with
      base := { s.base with conn := Function.update s.base.conn c conn, done, answered } } where
  aligned := (Function.forall_update_iff s.base.conn fun _ => TraceConn.Aligned).2
    ⟨haligned, fun d _ => h.aligned d⟩
  returned := h.returned
  active := h.active
  idle d hd := by
    by_cases hdc : d = c
    · subst hdc
      simpa using hbuffered
    · simpa [hdc] using h.idle d hd
  sorted w := by
    have hbuf : OrderState.bufferedRows { s with
        base := { s.base with conn := Function.update s.base.conn c conn, done, answered } } w =
        s.bufferedRows w := by
      refine bufferedRows_congr rfl fun d hd => Function.update_of_ne ?_ _ _
      rintro rfl
      rw [h.active w d hd, hd] at hidle
      cases hidle
    have hsorted := h.sorted w
    simp only [OrderState.sequence] at hsorted ⊢
    rw [hbuf]
    exact hsorted

/-- The connection that may run has what its worker has buffered. -/
theorem OrderInv.bufferedRows_eq (h : OrderInv cfg s) {c : C} (hrun : s.mayRun cfg c) :
    s.bufferedRows (cfg.worker c) = rowIndices (s.base.conn c).client.buffered := by
  unfold OrderState.bufferedRows
  rcases hrun with hnone | hsome
  · rw [hnone, h.idle c (by simp [hnone])]
    rfl
  · rw [hsome]

variable [DecidableEq W] [DecidableEq C]

section Send

variable {c : C} {w : View} {put : List Sent} {next : Option C}

/-- A send of a connection keeps its worker's sequence, less what it gives up. -/
theorem send_sequence_own (h : OrderInv cfg s) (hrun : s.mayRun cfg c)
    (hforward : Forward (s.base.view cfg c) [] put w)
    (hnext : next = some c ∨ next = none ∧ w.conn.client.buffered = []) :
    ((s.afterSend cfg c next (s.base.setView cfg c w)).sequence cfg (cfg.worker c)).Sublist
      (s.sequence cfg (cfg.worker c)) := by
  have hput : newOnWire (s.base.conn c).client w.conn.client = rowIndices put := by
    have hwire : w.conn.client.wire = (s.base.conn c).client.wire ++ put := hforward.wire
    rw [newOnWire, hwire, List.drop_left]
    rfl
  have hbuf : OrderState.bufferedRows (s.afterSend cfg c next (s.base.setView cfg c w))
      (cfg.worker c) = rowIndices w.conn.client.buffered := by
    unfold OrderState.bufferedRows
    simp only [OrderState.afterSend, Function.update_self]
    rcases hnext with rfl | ⟨rfl, hempty⟩
    · simp [TraceState.setView]
    · rw [hempty]
      rfl
  have hunsent := hforward.unsent
  rw [List.append_nil] at hunsent
  simp only [OrderState.sequence, hbuf, h.bufferedRows_eq hrun]
  simp only [OrderState.afterSend, TraceState.setView, Function.update_self, hput,
    List.append_assoc]
  refine List.Sublist.append_left ?_ _
  rw [← List.append_assoc, ← List.append_assoc, ← List.append_assoc]
  refine List.Sublist.append_right ?_ _
  rw [List.append_assoc]
  exact hunsent

/-- Another worker shares only the channel. -/
theorem send_sequence_other (h : OrderInv cfg s) (hforward : Forward (s.base.view cfg c) [] put w)
    {u : W} (hu : u ≠ cfg.worker c) :
    ((s.afterSend cfg c next (s.base.setView cfg c w)).sequence cfg u).Sublist
      (s.sequence cfg u) := by
  have hbuf : OrderState.bufferedRows (s.afterSend cfg c next (s.base.setView cfg c w)) u =
      s.bufferedRows u := by
    refine bufferedRows_congr (Function.update_of_ne hu _ _) fun d hd =>
      Function.update_of_ne ?_ _ _
    rintro rfl
    exact hu (h.active u d hd).symm
  simp only [OrderState.sequence, hbuf]
  simp only [OrderState.afterSend, TraceState.setView, Function.update_of_ne hu,
    List.map_append, List.append_assoc]
  refine List.Sublist.append_left (List.Sublist.append_left (List.Sublist.append_left ?_ _) _) _
  exact List.Sublist.append_right (hforward.channel.map Row.index) _

/-- **A send.** The connection `c`, whose worker's thread is its own, turns `v` into `w`. -/
theorem send_order (h : OrderInv cfg s) (hrun : s.mayRun cfg c) (haligned : w.conn.Aligned)
    (hforward : Forward (s.base.view cfg c) [] put w)
    (hnext : next = some c ∨ next = none ∧ w.conn.client.buffered = []) :
    OrderInv cfg (s.afterSend cfg c next (s.base.setView cfg c w)) := by
  refine ⟨?aligned, ?returned, ?active, ?idle, ?sorted⟩
  case aligned =>
    exact (Function.forall_update_iff s.base.conn fun _ => TraceConn.Aligned).2
      ⟨haligned, fun d _ => h.aligned d⟩
  case returned => exact hforward.returned.trans h.returned
  case active =>
    intro u d hd
    by_cases hu : u = cfg.worker c
    · subst hu
      simp only [OrderState.afterSend, Function.update_self] at hd
      rcases hnext with rfl | ⟨rfl, -⟩
      · cases hd
        rfl
      · cases hd
    · exact h.active u d (by simpa [OrderState.afterSend, hu] using hd)
  case idle =>
    intro d hd
    simp only [OrderState.afterSend, TraceState.setView] at hd ⊢
    by_cases hdc : d = c
    · subst hdc
      rw [Function.update_self] at hd ⊢
      rcases hnext with rfl | ⟨-, hempty⟩
      · exact absurd rfl hd
      · exact hempty
    · rw [Function.update_of_ne hdc]
      by_cases hw : cfg.worker d = cfg.worker c
      · refine h.idle d fun hact => ?_
        rw [hw] at hact
        rcases hrun with hnone | hsome
        · rw [hnone] at hact
          cases hact
        · exact hdc (Option.some.inj (hact.symm.trans hsome))
      · rw [Function.update_of_ne hw] at hd
        exact h.idle d hd
  case sorted =>
    intro u
    by_cases hu : u = cfg.worker c
    · subst hu
      exact (h.sorted _).sublist (send_sequence_own h hrun hforward hnext)
    · exact (h.sorted u).sublist (send_sequence_other h hforward hu)

end Send

theorem reply_order {c : C} {miss : Bool} {base : TraceState W C} (h : OrderInv cfg s)
    (hidle : s.active (cfg.worker c) = none)
    (hstep : traceStep cfg s.base (.reply c miss) = some base) : OrderInv cfg { s with base } := by
  have hbuffered : (s.base.conn c).client.buffered = [] := h.idle c (by simp [hidle])
  simp only [traceStep] at hstep
  split at hstep
  · rename_i answered wire request sent hrun hwire hsent
    obtain ⟨-, hrest⟩ := reply_aligned (h.aligned c) hwire hsent
    cases request with
    | row row =>
      cases hstep
      obtain ⟨backfill, hreply⟩ := replyRow_eq cfg
        { s.base.conn c with client := (s.base.conn c).client.reply, sent } row miss
      rw [hreply]
      exact idle_order h hidle hrest hbuffered
    | backfill objId size =>
      cases hstep
      exact idle_order h hidle hrest hbuffered
  · cases hstep

/-- **The step lemma.** -/
theorem orderStep_inv {e : TraceStep C} (h : OrderInv cfg s) (hstep : orderStep cfg s e = some t) :
    OrderInv cfg t := by
  cases e with
  | read n =>
    simp only [orderStep, traceStep] at hstep
    split at hstep
    · rename_i hguard
      cases hstep
      refine reader_order h rfl rfl rfl ?_
      obtain ⟨-, hempty, -⟩ := hguard
      simp only [unreadRows, hempty, List.nil_append]
      rw [← List.drop_drop, List.take_append_drop]
    · cases hstep
  | deliver =>
    simp only [orderStep, traceStep] at hstep
    split at hstep
    · cases hstep
      exact reader_order h rfl rfl rfl (by simp [unreadRows])
    · cases hstep
  | stopReader =>
    simp only [orderStep, traceStep] at hstep
    split at hstep
    · cases hstep
      exact reader_order h rfl rfl rfl rfl
    · cases hstep
  | connect c =>
    simp only [orderStep, traceStep] at hstep
    split at hstep
    · rename_i hidle
      split at hstep
      · cases hstep
        exact idle_order h hidle rfl rfl
      · cases hstep
    · cases hstep
  | reply c miss =>
    simp only [orderStep] at hstep
    split at hstep
    · rename_i hidle
      obtain ⟨base, hbase, rfl⟩ := Option.map_eq_some_iff.1 hstep
      exact reply_order h hidle hbase
    · cases hstep
  | fireTurn c preFlush fire =>
    simp only [orderStep, traceStep] at hstep
    split at hstep
    · rename_i hrun
      split at hstep
      · cases hstep
        obtain ⟨put, hforward⟩ := fireTurn_forward cfg.keyLen (s.base.view cfg c) preFlush fire
          (h.aligned c) h.returned
        have haligned := (fireTurn_moves cfg.keyLen (s.base.view cfg c) preFlush fire).aligned
          (h.aligned c)
        exact send_order h hrun haligned hforward (.inl rfl)
      · cases hstep
    · cases hstep
  | flush c result =>
    simp only [orderStep, traceStep] at hstep
    split at hstep
    · rename_i hrun
      split at hstep
      · cases hstep
        obtain ⟨⟨put, hforward⟩, hempty⟩ := flushTurn_forward (s.base.view cfg c) result
          (h.aligned c)
        have haligned := (flushTurn_moves (s.base.view cfg c) result).aligned (h.aligned c)
        exact send_order h hrun haligned hforward (.inr ⟨rfl, hempty⟩)
      · cases hstep
    · cases hstep
  | fail c => cases hstep

end Steps

variable [DecidableEq W] [DecidableEq C]

/-- **A worker sends in file order**, in every run in which no connection fails: the rows it
claimed, then those in the channel, are in strictly increasing file order, those it claimed come
after all it put on the wire, and what it put on the wire is in strictly increasing file order. -/
theorem rows_in_order (cfg : TraceConfig W C) (es : List (TraceStep C)) (s : OrderState W C)
    (hrun : Exec.run (orderStep cfg) .init es = some s) (w : W) :
    ((s.base.claimed w ++ s.base.channel.flatten).map Row.index).Pairwise (· < ·) ∧
      (∀ row ∈ s.base.claimed w, ∀ k ∈ s.onWire w, k < row.index) ∧
      (s.onWire w).Pairwise (· < ·) := by
  have h : OrderInv cfg s := Exec.run_inv orderStep_inv (orderInv_init cfg) hrun
  obtain ⟨hwire, hrest, hbefore⟩ := List.pairwise_append.1 (h.sorted w)
  refine ⟨?_, fun row hrow k hk => ?_, hwire⟩
  · refine hrest.sublist ((List.sublist_append_left _ _).trans (List.sublist_append_right _ _))
  · refine hbefore k hk row.index (List.mem_append_right _ (List.mem_append_left _ ?_))
    exact List.mem_map_of_mem (List.mem_append_left _ hrow)

/-! ## Two connections of a worker -/

def threeRows : TraceConfig Unit Bool where
  worker _ := ()
  pipelineDepth := 2
  backfillOnMiss := false
  keyLen _ := 16
  rows := [⟨7, 100, .get, 0, 0⟩, ⟨8, 100, .set, 0, 1⟩, ⟨9, 100, .del, 0, 2⟩]
  rows_index := rfl

/-- A connection fires two rows, and its flush fails; the other then sends the first. -/
def threeRowsRun : List (TraceStep Bool) :=
  [.read 2, .deliver, .read 1, .connect true, .connect false,
    .fireTurn true (.sent false) (.sent false), .deliver,
    .fireTurn true (.sent false) (.sent false), .flush true (.failed true),
    .fireTurn false (.sent false) (.sent true), .flush false (.sent true)]

theorem rows_in_order_threeRows : ∃ s : OrderState Unit Bool,
    Exec.run (orderStep threeRows) .init threeRowsRun = some s ∧ s.onWire () = [0] ∧
      (∀ row ∈ s.base.claimed (), ∀ k ∈ s.onWire (), k < row.index) :=
  ⟨_, rfl, rfl, (rows_in_order threeRows threeRowsRun _ rfl ()).2.1⟩

end TraceReplay
