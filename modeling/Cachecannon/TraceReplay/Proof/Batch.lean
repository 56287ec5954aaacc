import Cachecannon.TraceReplay.Batch
import Cachecannon.TraceReplay.Proof.Conserve
import Mathlib.Algebra.Order.BigOperators.Group.List
import Mathlib.Algebra.Order.Ring.Nat

/-!
# A batch with a zero-copy value fits one send slot

`batch_copied` and `batch_guard` bound what the client has buffered (`BatchInv`): a request is added
to both, the client alone only takes away, and where the loop resets them the buffer is empty. So
`must_flush_first` errs on the side of a flush, and the batch it lets grow fits (`fits_fire`). What
is counted for a request is no less than the protocol copies for it (`wireCopied_le`), and a
connection of a replay takes no other steps than these (`trace_batches`).
-/

namespace TraceReplay

open Pipeline

variable {keyLen : Nat → Nat} {batch batch' : List Sent} {next : Sent} {conn : TraceConn}

/-- The bytes of a batch that are copied: keys, framing and copied values. -/
def copiedBytes (keyLen : Nat → Nat) (batch : List Sent) : Nat :=
  (batch.map (Sent.copied keyLen)).sum

/-- The batch has a zero-copy value. -/
def hasGuard (batch : List Sent) : Prop := ∃ r ∈ batch, r.guarded

/-- A batch with a zero-copy value fits one slot, or is a single request. -/
def Fits (keyLen : Nat → Nat) (batch : List Sent) : Prop :=
  hasGuard batch → copiedBytes keyLen batch ≤ sendSlotSize ∨ batch.length = 1

structure BatchInv (keyLen : Nat → Nat) (conn : TraceConn) : Prop where
  copied : copiedBytes keyLen conn.client.buffered ≤ conn.batchCopied
  guard : hasGuard conn.client.buffered → conn.batchGuard
  fits : Fits keyLen conn.client.buffered

/-! ## Batches -/

@[simp] theorem copiedBytes_nil : copiedBytes keyLen [] = 0 := rfl

@[simp] theorem copiedBytes_append : copiedBytes keyLen (batch ++ batch') =
    copiedBytes keyLen batch + copiedBytes keyLen batch' := by
  simp [copiedBytes]

theorem copied_pos (keyLen : Nat → Nat) (next : Sent) : 0 < next.copied keyLen := by
  simp only [Sent.copied, requestFraming]
  omega

theorem eq_nil_of_copiedBytes (h : copiedBytes keyLen batch = 0) : batch = [] := by
  cases batch with
  | nil => rfl
  | cons r batch =>
    have := copied_pos keyLen r
    simp only [copiedBytes, List.map_cons, List.sum_cons] at h
    omega

theorem hasGuard_append_singleton :
    hasGuard (batch ++ [next]) ↔ hasGuard batch ∨ next.guarded = true := by
  simp [hasGuard, or_and_right, exists_or]

theorem fits_nil : Fits keyLen [] := fun ⟨_, hr, _⟩ => absurd hr List.not_mem_nil

theorem fits_singleton : Fits keyLen [next] := fun _ => .inr rfl

/-- A part of a batch that fits does. -/
theorem Fits.sublist (h : Fits keyLen batch) (hsub : batch'.Sublist batch) :
    Fits keyLen batch' := by
  intro hguard
  obtain ⟨r, hr, hguarded⟩ := hguard
  rcases h ⟨r, hsub.subset hr, hguarded⟩ with hcopied | hone
  · exact .inl ((hsub.map _).sum_le_sum (by simp) |>.trans hcopied)
  · right
    have hpos := List.length_pos_of_mem hr
    have hle := hsub.length_le
    omega

/-- **The split.** Where the loop adds a request without a flush, the batch still fits. -/
theorem fits_fire (h : BatchInv keyLen conn)
    (hmust : mustFlushFirst conn.batchCopied conn.batchGuard (next.copied keyLen) next.guarded
      sendSlotSize = false) : Fits keyLen (conn.client.buffered ++ [next]) := by
  intro hguard
  rw [hasGuard_append_singleton] at hguard
  have hany : conn.batchGuard = true ∨ next.guarded = true := hguard.imp_left h.guard
  by_cases hempty : conn.batchCopied = 0
  · have hcopied := h.copied
    rw [hempty, Nat.le_zero] at hcopied
    exact .inr (by simp [eq_nil_of_copiedBytes hcopied])
  · have hslot : conn.batchCopied + next.copied keyLen ≤ sendSlotSize := by
      have hanyGuard : (conn.batchGuard || next.guarded) = true := by simpa using hany
      rw [mustFlushFirst, hanyGuard, decide_eq_true (Nat.pos_of_ne_zero hempty)] at hmust
      simpa using hmust
    have hcopied := h.copied
    simp only [copiedBytes_append]
    have hone : copiedBytes keyLen [next] = next.copied keyLen := by simp [copiedBytes]
    omega

/-! ## Requests on the wire -/

/-- The lengths of the key and the value of a request, which are words. -/
structure Lengths (keyLen : Nat → Nat) (next : Sent) (key value : List UInt8) : Prop where
  key_eq : key.length = keyLen next.objId
  value_eq : value.length = next.size
  key_lt : key.length < 2 ^ 64
  value_lt : value.length < 2 ^ 64

/-- `REQUEST_FRAMING` has room for all that the protocol puts around a key and a value. -/
theorem wireCopied_le {key value : List UInt8} (h : Lengths keyLen next key value) :
    next.wireCopied key value ≤ next.copied keyLen := by
  have hwords : ∀ word ∈ ["GET", "SET", "DEL"], (Text.encode word.toList).length = 3 := by decide
  have hdigits : ∀ n ∈ [2, 3], (Nat.toDigits 10 n).length = 1 := by decide
  have hkey : (Nat.toDigits 10 key.length).length ≤ 20 :=
    Codec.length_digits_le (by decide) (h.key_lt.trans (by decide))
  have hvalue : (Nat.toDigits 10 value.length).length ≤ 20 :=
    Codec.length_digits_le (by decide) (h.value_lt.trans (by decide))
  rw [Sent.wireCopied, Codec.length_command, Sent.copied, requestFraming, ← h.key_eq, ← h.value_eq]
  cases hop : next.op with
  | get | del =>
    have hguarded : next.guarded = false := by simp [Sent.guarded, hop]
    simp only [Sent.command, hop, hguarded, List.map_cons, List.map_nil, List.length_cons,
      List.length_nil, List.sum_cons, List.sum_nil, hwords "GET" (by simp),
      hwords "DEL" (by simp), hdigits 2 (by simp), hdigits 3 (by simp), Bool.false_eq_true,
      if_false]
    omega
  | set =>
    simp only [Sent.command, hop, List.map_cons, List.map_nil, List.length_cons, List.length_nil,
      List.sum_cons, List.sum_nil, hwords "SET" (by simp), hdigits 3 (by simp)]
    cases next.guarded <;> simp <;> omega

/-- What the protocol copies of a batch is no more than what is counted. -/
theorem wireCopied_batch_le {key value : Sent → List UInt8}
    (h : ∀ r ∈ batch, Lengths keyLen r (key r) (value r)) :
    (batch.map fun r => r.wireCopied (key r) (value r)).sum ≤ copiedBytes keyLen batch :=
  List.sum_le_sum fun r hr => wireCopied_le (h r hr)

/-! ## The steps of a connection -/

theorem batchInv_new : BatchInv keyLen .new where
  copied := le_rfl
  guard h := absurd h (by simp [hasGuard, TraceConn.new, Client.new])
  fits := fits_nil

/-- With nothing buffered any counts are upper bounds. -/
theorem batchInv_empty (h : conn.client.buffered = []) : BatchInv keyLen conn where
  copied := by simp [h]
  guard hguard := by simp [h, hasGuard] at hguard
  fits := h ▸ fits_nil

/-- What is buffered may become less. -/
theorem BatchInv.sublist (h : BatchInv keyLen conn) {conn' : TraceConn}
    (hsub : conn'.client.buffered.Sublist conn.client.buffered)
    (hcopied : conn'.batchCopied = conn.batchCopied) (hguard : conn'.batchGuard = conn.batchGuard) :
    BatchInv keyLen conn' where
  copied := hcopied ▸ ((hsub.map _).sum_le_sum (by simp)).trans h.copied
  guard := fun ⟨r, hr, hguarded⟩ => hguard ▸ h.guard ⟨r, hsub.subset hr, hguarded⟩
  fits := h.fits.sublist hsub

variable {v : View}

theorem fireNext_batch (h : BatchInv keyLen v.conn)
    (hfits : Fits keyLen (v.conn.client.buffered ++ [next])) (result : SendResult) :
    BatchInv keyLen (fireNext keyLen v next result).conn := by
  cases result with
  | failed never => exact batchInv_empty rfl
  | sent flushes =>
    cases flushes with
    | true => exact batchInv_empty rfl
    | false =>
      refine ⟨?_, ?_, hfits⟩
      · have hcopied := h.copied
        simp only [fireNext, Client.fire, Bool.false_eq_true, if_false, copiedBytes_append]
        have hone : copiedBytes keyLen [next] = next.copied keyLen := by simp [copiedBytes]
        omega
      · intro hguard
        replace hguard : hasGuard (v.conn.client.buffered ++ [next]) := hguard
        rw [hasGuard_append_singleton] at hguard
        simp only [fireNext, Bool.or_eq_true]
        exact hguard.imp_left h.guard

theorem sendNext_batch (h : BatchInv keyLen v.conn) (preFlush fire : SendResult) :
    BatchInv keyLen (sendNext keyLen v next preFlush fire).conn := by
  unfold sendNext
  split
  · cases preFlush with
    | sent => exact fireNext_batch (batchInv_empty rfl) fits_singleton fire
    | failed never => exact batchInv_empty rfl
  · rename_i hmust
    exact fireNext_batch h (fits_fire h (by simpa using hmust)) fire

theorem flushTurn_batch (v : View) (result : SendResult) :
    BatchInv keyLen (flushTurn v result).conn := by
  cases result <;> exact batchInv_empty rfl

/-- Every batch that sending a request hands to a flush fits. -/
theorem handedNext_fits (h : BatchInv keyLen conn) (preFlush fire : SendResult)
    (hbatch : batch ∈ handedNext keyLen conn next preFlush fire) : Fits keyLen batch := by
  simp only [handedNext] at hbatch
  split at hbatch
  · cases preFlush with
    | failed never =>
      rw [List.mem_singleton] at hbatch
      exact hbatch ▸ h.fits
    | sent =>
      rcases List.mem_cons.1 hbatch with rfl | hbatch
      · exact h.fits
      · cases fire with
        | sent flushes =>
          cases flushes with
          | false => cases hbatch
          | true => exact List.mem_singleton.1 hbatch ▸ fits_singleton
        | failed never => exact List.mem_singleton.1 hbatch ▸ fits_singleton
  · rename_i hmust
    have hfits := fits_fire h (by simpa using hmust)
    cases fire with
    | sent flushes =>
      cases flushes with
      | false => cases hbatch
      | true => exact List.mem_singleton.1 hbatch ▸ hfits
    | failed never => exact List.mem_singleton.1 hbatch ▸ hfits

theorem batchStep_inv {s s' : BatchState} {e : BatchStep}
    (h : BatchInv keyLen s.conn ∧ ∀ batch ∈ s.handed, Fits keyLen batch)
    (hstep : batchStep keyLen s e = some s') :
    BatchInv keyLen s'.conn ∧ ∀ batch ∈ s'.handed, Fits keyLen batch := by
  obtain ⟨hinv, hhanded⟩ := h
  have hadd : ∀ {batches : List (List Sent)}, (∀ batch ∈ batches, Fits keyLen batch) →
      ∀ batch ∈ s.handed ++ batches, Fits keyLen batch := by
    intro batches hfits batch hbatch
    exact (List.mem_append.1 hbatch).elim (hhanded batch) (hfits batch)
  cases e with
  | fire next preFlush fire =>
    obtain rfl := Option.some.inj hstep
    exact ⟨sendNext_batch (v := s.conn.view) hinv preFlush fire,
      hadd fun batch => handedNext_fits hinv preFlush fire⟩
  | flush result =>
    obtain rfl := Option.some.inj hstep
    refine ⟨flushTurn_batch _ result, hadd fun batch hbatch => ?_⟩
    rw [List.mem_singleton] at hbatch
    exact hbatch ▸ hinv.fits
  | clientFlush n =>
    obtain rfl := Option.some.inj hstep
    refine ⟨hinv.sublist (List.drop_sublist _ _) rfl rfl, hadd fun batch hbatch => ?_⟩
    rw [List.mem_singleton] at hbatch
    exact hbatch ▸ hinv.fits.sublist (List.take_sublist _ _)
  | reply =>
    obtain rfl := Option.some.inj hstep
    exact ⟨hinv.sublist (List.Sublist.refl _) rfl rfl, hhanded⟩

/-! ## The replay -/

/-- Two connections have buffered the same and count the same. -/
structure SameBatch (conn conn' : TraceConn) : Prop where
  client : conn'.client = conn.client
  copied : conn'.batchCopied = conn.batchCopied
  guard : conn'.batchGuard = conn.batchGuard

theorem SameBatch.refl (conn : TraceConn) : SameBatch conn conn := ⟨rfl, rfl, rfl⟩

theorem SameBatch.trans {conn'' : TraceConn} (h : SameBatch conn conn')
    (h' : SameBatch conn' conn'') : SameBatch conn conn'' :=
  ⟨h'.client.trans h.client, h'.copied.trans h.copied, h'.guard.trans h.guard⟩

/-- Sending looks at nothing else of a connection. -/
theorem fireNext_same {v w : View} (h : SameBatch v.conn w.conn) (result : SendResult) :
    SameBatch (fireNext keyLen v next result).conn (fireNext keyLen w next result).conn := by
  obtain ⟨hclient, hcopied, hguard⟩ := h
  cases result with
  | sent flushes =>
    constructor
    · simp only [fireNext, hclient]
    · simp only [fireNext, hcopied]
    · simp only [fireNext, hguard]
  | failed never =>
    constructor
    · simp only [fireNext, View.requeued, hclient]
    · exact hcopied
    · exact hguard

theorem sendNext_same {v w : View} (h : SameBatch v.conn w.conn) (preFlush fire : SendResult) :
    SameBatch (sendNext keyLen v next preFlush fire).conn
      (sendNext keyLen w next preFlush fire).conn := by
  unfold sendNext
  rw [h.copied, h.guard]
  split
  · cases preFlush with
    | sent flushes =>
      have hflushed : SameBatch v.flushed.conn w.flushed.conn :=
        ⟨by simp only [View.flushed, h.client], rfl, rfl⟩
      exact fireNext_same hflushed fire
    | failed never =>
      exact ⟨by simp only [View.requeued, View.resetBatch, h.client], rfl, rfl⟩
  · exact fireNext_same h fire

theorem flushTurn_same {v w : View} (h : SameBatch v.conn w.conn) (result : SendResult) :
    SameBatch (flushTurn v result).conn (flushTurn w result).conn := by
  cases result with
  | sent flushes => exact ⟨by simp only [flushTurn, View.flushed, h.client], rfl, rfl⟩
  | failed never =>
    exact ⟨by simp only [flushTurn, View.requeued, View.resetBatch, h.client], rfl, rfl⟩

/-- A turn of the fire loop sends one request, or none. -/
theorem fireTurn_same (keyLen : Nat → Nat) (v : View) (preFlush fire : SendResult) :
    SameBatch v.conn (fireTurn keyLen v preFlush fire).conn ∨
      ∃ next, ∀ w : View, SameBatch w.conn v.conn →
        SameBatch (sendNext keyLen w next preFlush fire).conn
          (fireTurn keyLen v preFlush fire).conn := by
  unfold fireTurn
  split
  · rename_i objId size rest _
    refine .inr ⟨.backfill objId size, fun w hw => sendNext_same ?_ preFlush fire⟩
    exact ⟨hw.client, hw.copied, hw.guard⟩
  · have hconn := nextRow_conn v
    split
    · rename_i row v' hnext
      rw [hnext] at hconn
      replace hconn : v'.conn = v.conn := hconn
      exact .inr ⟨.row row, fun w hw => sendNext_same (hconn ▸ hw) preFlush fire⟩
    · rename_i v' hnext
      rw [hnext] at hconn
      replace hconn : v'.conn = v.conn := hconn
      exact .inl (hconn ▸ SameBatch.refl _)

section Replay

variable {W C : Type} {cfg : TraceConfig W C}

theorem replyRow_same (cfg : TraceConfig W C) (conn : TraceConn) (row : Row) (miss : Bool) :
    SameBatch conn (replyRow cfg conn row miss) := by
  unfold replyRow
  split <;> exact ⟨rfl, rfl, rfl⟩

variable [DecidableEq W] [DecidableEq C] {s s' : TraceState W C} {e : TraceStep C}

/-- The batch of a connection is left as it is, started anew, or what a step of it makes of it. -/
def BatchMoves (keyLen : Nat → Nat) (conn conn' : TraceConn) : Prop :=
  SameBatch conn conn' ∨ SameBatch .new conn' ∨
    ∃ be, ∀ b : BatchState, SameBatch b.conn conn →
      ∃ b', batchStep keyLen b be = some b' ∧ SameBatch b'.conn conn'

omit [DecidableEq W] in
/-- A step of one connection leaves the others. -/
theorem BatchMoves.update {c : C} {conn : TraceConn} (h : BatchMoves keyLen (s.conn c) conn)
    (d : C) : BatchMoves keyLen (s.conn d) (Function.update s.conn c conn d) := by
  by_cases hd : d = c
  · subst hd
    rwa [Function.update_self]
  · rw [Function.update_of_ne hd]
    exact .inl (.refl _)

theorem fireTurn_batchMoves (keyLen : Nat → Nat) (v : View) (preFlush fire : SendResult) :
    BatchMoves keyLen v.conn (fireTurn keyLen v preFlush fire).conn := by
  rcases fireTurn_same keyLen v preFlush fire with hsame | ⟨next, hsend⟩
  · exact .inl hsame
  · exact .inr (.inr ⟨.fire next preFlush fire, fun b hb => ⟨_, rfl, hsend b.conn.view hb⟩⟩)

theorem flushTurn_batchMoves (keyLen : Nat → Nat) (v : View) (result : SendResult) :
    BatchMoves keyLen v.conn (flushTurn v result).conn := by
  refine .inr (.inr ⟨.flush result, fun b hb => ⟨_, rfl, ?_⟩⟩)
  exact flushTurn_same (v := b.conn.view) hb result

theorem traceStep_batchMoves (hstep : traceStep cfg s e = some s') (c : C) :
    BatchMoves cfg.keyLen (s.conn c) (s'.conn c) := by
  cases e with
  | read n | deliver | stopReader =>
    simp only [traceStep] at hstep
    split at hstep <;> cases hstep
    exact .inl (.refl _)
  | connect c' | fail c' =>
    simp only [traceStep] at hstep
    split at hstep <;> cases hstep
    apply BatchMoves.update
    exact .inr (.inl ⟨rfl, rfl, rfl⟩)
  | fireTurn c' preFlush fire =>
    simp only [traceStep] at hstep
    split at hstep <;> cases hstep
    apply BatchMoves.update
    exact fireTurn_batchMoves cfg.keyLen (s.view cfg c') preFlush fire
  | flush c' result =>
    simp only [traceStep] at hstep
    split at hstep <;> cases hstep
    apply BatchMoves.update
    exact flushTurn_batchMoves cfg.keyLen (s.view cfg c') result
  | reply c' miss =>
    simp only [traceStep] at hstep
    split at hstep
    case h_2 => cases hstep
    rename_i request sent hrunning hwire hsent
    have hreply : ∀ b : BatchState, SameBatch b.conn (s.conn c') →
        SameBatch { b.conn with client := b.conn.client.reply }
          { s.conn c' with client := (s.conn c').client.reply, sent } := fun b hb =>
      ⟨by simp only [hb.client], hb.copied, hb.guard⟩
    split at hstep <;> cases hstep <;> apply BatchMoves.update
    · exact .inr (.inr ⟨.reply, fun b hb =>
        ⟨_, rfl, (hreply b hb).trans (replyRow_same cfg _ _ miss)⟩⟩)
    · exact .inr (.inr ⟨.reply, fun b hb => ⟨_, rfl, hreply b hb⟩⟩)

/-- **The batches of a replay.** In every run, what a connection has buffered and counted is what
some steps of a connection alone lead to. -/
theorem trace_batches (cfg : TraceConfig W C) {es : List (TraceStep C)} {s : TraceState W C}
    (hrun : Exec.run (traceStep cfg) .init es = some s) (c : C) :
    ∃ bes b, Exec.run (batchStep cfg.keyLen) .new bes = some b ∧ SameBatch b.conn (s.conn c) := by
  have hnew : ∃ bes b, Exec.run (batchStep cfg.keyLen) .new bes = some b ∧
      SameBatch b.conn .new := ⟨[], .new, rfl, .refl _⟩
  refine Exec.run_inv (I := fun s : TraceState W C => ∀ c, ∃ bes b,
    Exec.run (batchStep cfg.keyLen) .new bes = some b ∧ SameBatch b.conn (s.conn c))
    (fun {s e s'} h hstep c => ?_) (fun _ => hnew) hrun c
  obtain ⟨bes, b, hbes, hb⟩ := h c
  rcases traceStep_batchMoves hstep c with hsame | hfresh | ⟨be, hbe⟩
  · exact ⟨bes, b, hbes, hb.trans hsame⟩
  · exact ⟨[], .new, rfl, hfresh⟩
  · obtain ⟨b', hstep', hb'⟩ := hbe b hb
    refine ⟨bes ++ [be], b', ?_, hb'⟩
    rw [Exec.run_append, hbes, Option.bind_some, Exec.run_cons, hstep']
    rfl

end Replay

/-- **The batches.** Whatever requests a connection sends and however its flushes end, every batch
handed to a flush that has a zero-copy value copies at most one slot, or is a single request; and
`batch_copied` and `batch_guard` bound what is buffered. What is counted for a batch is no less than
what the protocol copies for it, and a connection of a replay is, in every run, where such steps
lead. -/
theorem batches_fit (keyLen : Nat → Nat) (es : List BatchStep) (s : BatchState)
    (hrun : Exec.run (batchStep keyLen) .new es = some s) :
    (∀ batch ∈ s.handed, (∃ r ∈ batch, r.guarded) →
      copiedBytes keyLen batch ≤ sendSlotSize ∨ batch.length = 1) ∧
    copiedBytes keyLen s.conn.client.buffered ≤ s.conn.batchCopied ∧
    ((∃ r ∈ s.conn.client.buffered, r.guarded) → s.conn.batchGuard) ∧
    (∀ (batch : List Sent) (key value : Sent → List UInt8),
      (∀ r ∈ batch, Lengths keyLen r (key r) (value r)) →
        (batch.map fun r => r.wireCopied (key r) (value r)).sum ≤ copiedBytes keyLen batch) ∧
    ∀ (W C : Type) [DecidableEq W] [DecidableEq C] (cfg : TraceConfig W C)
      (steps : List (TraceStep C)) (t : TraceState W C), cfg.keyLen = keyLen →
      Exec.run (traceStep cfg) .init steps = some t → ∀ c, ∃ bes b,
        Exec.run (batchStep keyLen) .new bes = some b ∧ SameBatch b.conn (t.conn c) := by
  have hnew : BatchInv keyLen BatchState.new.conn ∧
      ∀ batch ∈ BatchState.new.handed, Fits keyLen batch :=
    ⟨batchInv_new, by simp [BatchState.new]⟩
  have h := Exec.run_inv batchStep_inv hnew hrun
  refine ⟨h.2, h.1.copied, h.1.guard, fun batch key value => wireCopied_batch_le, ?_⟩
  rintro W C _ _ cfg steps t rfl htrace c
  exact trace_batches cfg htrace c

/-- Four copied values of 4000 bytes. -/
def fourCopied : List Sent := (List.range 4).map (Sent.backfill · 4000)

/-- They leave no room for a zero-copy value: they are flushed first. -/
def splitRun : List BatchStep :=
  (fourCopied ++ [Sent.backfill 4 5000]).map (.fire · (.sent true) (.sent false)) ++
    [.flush (.sent true)]

theorem batches_fit_split : ∃ s, Exec.run (batchStep fun _ => 200) .new splitRun = some s ∧
    s.handed = [fourCopied, [.backfill 4 5000]] ∧
    (∀ batch ∈ s.handed, (∃ r ∈ batch, r.guarded) →
      copiedBytes (fun _ => 200) batch ≤ sendSlotSize ∨ batch.length = 1) ∧
    copiedBytes (fun _ => 200) s.conn.client.buffered ≤ s.conn.batchCopied ∧
    ((∃ r ∈ s.conn.client.buffered, r.guarded) → s.conn.batchGuard) := by
  have hrun : ∃ s, Exec.run (batchStep fun _ => 200) .new splitRun = some s ∧
      s.handed = [fourCopied, [.backfill 4 5000]] := ⟨_, rfl, rfl⟩
  obtain ⟨s, hrun, hhanded⟩ := hrun
  obtain ⟨hfits, hcopied, hguard, -⟩ := batches_fit (fun _ => 200) splitRun s hrun
  exact ⟨s, hrun, hhanded, hfits, hcopied, hguard⟩

end TraceReplay
