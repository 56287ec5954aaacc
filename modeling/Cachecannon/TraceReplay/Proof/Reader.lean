import Cachecannon.TraceReplay.Proof.Conserve
import Cachecannon.TraceReplay.Reader

/-!
# The reader and what the replay reports

The reader thread refines the reader of the replay (`replay_refines`): what it counts and sends is
the next rows of the file, so what holds of every run of the replay holds of a file read while it is
replayed.

* `skippedIn`, `firstError`: what the entries of a file say should be reported.
* `ReaderInv`: the rows not yet counted are the batch and those of the entries not yet read, and
  the entries skipped and the error are of those read; `replayStep_inv` is its step lemma.
-/

namespace TraceReplay

/-- The entries that no row is sent for, up to one that cannot be read. -/
def skippedIn (opKind : Nat → OpKind) : List (Except String TraceEntry) → Nat
  | [] => 0
  | .error _ :: _ => 0
  | .ok entry :: entries =>
    (if (Row.fromEntry opKind entry valuePoolSize 0).isNone then 1 else 0) +
      skippedIn opKind entries

def firstError : List (Except String TraceEntry) → Option String
  | [] => none
  | .error e :: _ => some e
  | .ok _ :: entries => firstError entries

theorem fromEntry_isNone (opKind : Nat → OpKind) (entry : TraceEntry) (maxValue i j : Nat) :
    (Row.fromEntry opKind entry maxValue i).isNone =
      (Row.fromEntry opKind entry maxValue j).isNone := by
  unfold Row.fromEntry
  split
  · rfl
  · split <;> rfl

/-- An entry is sent, skipped, or not read for an entry before it that cannot be. -/
theorem rowsFrom_add_skippedIn (opKind : Nat → OpKind) (index : Nat)
    (entries : List (Except String TraceEntry)) :
    ∃ unread, (rowsFrom opKind index entries).length + skippedIn opKind entries + unread =
        entries.length ∧ (unread = 0 ↔ firstError entries = none) := by
  induction entries generalizing index with
  | nil => exact ⟨0, rfl, by simp [firstError]⟩
  | cons entry entries ih =>
    cases entry with
    | error e => exact ⟨entries.length + 1, by simp [rowsFrom, skippedIn], by simp [firstError]⟩
    | ok entry =>
      rw [rowsFrom, skippedIn, firstError, fromEntry_isNone opKind entry valuePoolSize 0 index]
      split
      · rename_i row hrow
        obtain ⟨unread, hlen, hunread⟩ := ih (index + 1)
        refine ⟨unread, ?_, hunread⟩
        simp only [hrow, Option.isNone_some, Bool.false_eq_true, if_false, List.length_cons]
        omega
      · rename_i hrow
        obtain ⟨unread, hlen, hunread⟩ := ih index
        refine ⟨unread, ?_, hunread⟩
        simp only [hrow, Option.isNone_none, if_true, List.length_cons]
        omega

variable {W C : Type} {cfg : ReplayConfig W C}

/-! ## The invariant -/

/-- The entries whose rows are not in a batch yet. -/
def Reader.rest (r : Reader) : List (Except String TraceEntry) := if r.last then [] else r.todo

/-- What the loop keeps: the rows of the file from `index` on are those of the batch and of the
entries not read, and what is reported is of the entries read. -/
structure Loop (cfg : ReplayConfig W C) (r : Reader) (index : Nat) : Prop where
  rows : cfg.trace.rows.drop index =
    r.batch ++ rowsFrom cfg.opKind (index + r.batch.length) r.rest
  skipped : r.skipped + skippedIn cfg.opKind r.rest = skippedIn cfg.opKind cfg.entries
  error : r.error.or ((firstError r.rest).map cfg.message) =
    (firstError cfg.entries).map cfg.message
  none_yet : r.last = false → r.error = none
  batch_le : r.batch.length ≤ claimBatch

/-- What the thread's place in the closure says of its batch, and of what it has told the
replay. -/
structure At (r : Reader) (s : TraceState W C) : Prop where
  reading : r.pc = .reading → r.last = false ∧ r.batch.length < claimBatch
  counting : r.pc = .counting → r.batch ≠ []
  left : r.pc ≠ .reading → r.pc ≠ .counting → r.batch = []
  finished : r.pc = .stopping ∨ r.pc = .returned → r.last = true
  sending : r.pc = .sending ↔ s.sending ≠ []
  stopped : r.pc = .returned ↔ s.stopped = true

/-- The next entry is skipped, joins the batch, or ends the loop. -/
theorem readEntry_loop {r : Reader} {index : Nat} (h : Loop cfg r index) (hlast : r.last = false)
    (hlen : r.batch.length < claimBatch) : Loop cfg (r.readEntry cfg index) index := by
  obtain ⟨hrows, hskipped, herror, hnone, -⟩ := h
  have hrest : r.rest = r.todo := by simp [Reader.rest, hlast]
  have hempty := hnone hlast
  rw [hrest] at hrows hskipped herror
  unfold Reader.readEntry
  split
  · rename_i htodo
    rw [htodo] at hrows hskipped herror
    exact ⟨hrows, hskipped, herror, fun hlast => (by cases hlast), hlen.le⟩
  · rename_i e todo htodo
    rw [htodo] at hrows hskipped herror
    rw [hempty] at herror
    exact ⟨hrows, hskipped, herror, fun hlast => (by cases hlast), hlen.le⟩
  · rename_i entry todo htodo
    rw [htodo] at hrows hskipped herror
    rw [rowsFrom] at hrows
    rw [firstError] at herror
    rw [skippedIn, fromEntry_isNone _ entry valuePoolSize 0 (index + r.batch.length)] at hskipped
    split
    · rename_i hrow
      simp only [hrow, Option.isNone_none, if_true] at hrows hskipped
      refine ⟨?_, ?_, ?_, fun _ => hempty, hlen.le⟩
      · simpa [Reader.rest, hlast] using hrows
      · simp only [Reader.rest, hlast]
        exact (Nat.add_assoc _ _ _).trans hskipped
      · simpa [Reader.rest, hlast] using herror
    · rename_i row hrow
      simp only [hrow, Option.isNone_some] at hrows hskipped
      refine ⟨?_, ?_, ?_, fun _ => hempty, ?_⟩
      · simpa [Reader.rest, hlast, Nat.add_assoc] using hrows
      · simpa [Reader.rest, hlast] using hskipped
      · simpa [Reader.rest, hlast] using herror
      · simpa using Nat.succ_le_of_lt hlen

theorem readEntry_at {r : Reader} {s : TraceState W C} {index : Nat} (h : At r s)
    (hpc : r.pc = .reading) : At (r.readEntry cfg index) s := by
  obtain ⟨hlast, hlen⟩ := h.reading hpc
  have hsending : s.sending = [] := by
    by_contra hne
    cases hpc.symm.trans (h.sending.2 hne)
  have hstopped : ¬s.stopped = true := fun hs => by cases hpc.symm.trans (h.stopped.2 hs)
  have hleave : ∀ r : Reader, At r.leave s := by
    intro r
    unfold Reader.leave
    by_cases hbatch : r.batch = []
    · constructor <;> simp [hbatch, hsending, hstopped]
    · constructor <;> simp [hbatch, hsending, hstopped]
  unfold Reader.readEntry
  split
  · exact hleave _
  · exact hleave _
  · split
    · constructor <;> simp [hpc, hlast, hlen, hsending, hstopped]
    · rename_i row hrow
      by_cases hfull : (r.batch ++ [row]).length = claimBatch
      · constructor <;> simp [hfull, hsending, hstopped]
      · have : (r.batch ++ [row]).length < claimBatch :=
          lt_of_le_of_ne (by simpa using Nat.succ_le_of_lt hlen) hfull
        constructor <;> simp_all

/-- **The invariant of a replay and its reader.** -/
structure ReaderInv (cfg : ReplayConfig W C) (s : ReplayState W C) : Prop where
  loop : Loop cfg s.reader s.trace.readerSent
  at_pc : At s.reader s.trace
  sent_le : s.trace.readerSent ≤ cfg.trace.rows.length

theorem replay_init_inv (cfg : ReplayConfig W C) : ReaderInv cfg (.init cfg) where
  loop := {
    rows := rfl
    skipped := Nat.zero_add _
    error := by simp [ReplayState.init, Reader.rest]
    none_yet _ := rfl
    batch_le := Nat.zero_le _ }
  at_pc := by
    constructor <;> simp [ReplayState.init, TraceState.init, claimBatch]
  sent_le := Nat.zero_le _

variable [DecidableEq W] [DecidableEq C]

/-- **The thread refines the reader of the replay.** A step of it is one of the replay's reader,
or one that the replay does not see. -/
theorem readerStep_refines {s t : ReplayState W C} (h : ReaderInv cfg s)
    (hstep : readerStep cfg s = some t) :
    t.trace = s.trace ∨
      ∃ e, e.ofReader = true ∧ traceStep cfg.trace s.trace e = some t.trace := by
  have hpc := h.at_pc
  cases hat : s.reader.pc with
  | reading =>
    simp only [readerStep, hat, Option.some.injEq] at hstep
    exact .inl (hstep ▸ rfl)
  | counting =>
    simp only [readerStep, hat, Option.some.injEq] at hstep
    subst hstep
    have hsending : s.trace.sending = [] := by
      by_contra hne
      cases hat.symm.trans (hpc.sending.2 hne)
    have hstopped : s.trace.stopped = false := by
      by_contra hne
      cases hat.symm.trans (hpc.stopped.2 (by simpa using hne))
    have hne := hpc.counting hat
    have hrows := h.loop.rows
    have hlen := congrArg List.length hrows
    have hpos := List.length_pos_of_ne_nil hne
    rw [List.length_drop, List.length_append] at hlen
    refine .inr ⟨.read s.reader.batch.length, rfl, ?_⟩
    rw [traceStep, if_pos ⟨hstopped, hsending, hpos, h.loop.batch_le, by omega⟩, hrows,
      List.take_left]
  | sending =>
    simp only [readerStep, hat] at hstep
    split at hstep <;> cases hstep
    rename_i hroom
    exact .inr ⟨.deliver, rfl, if_pos ⟨hpc.sending.1 hat, hroom⟩⟩
  | stopping =>
    simp only [readerStep, hat, Option.some.injEq] at hstep
    subst hstep
    refine .inr ⟨.stopReader, rfl, if_pos ?_⟩
    by_contra hne
    cases hat.symm.trans (hpc.sending.2 hne)
  | returned => simp [readerStep, hat] at hstep

/-- A connection's step leaves what the reader tells the replay. -/
theorem traceStep_reader {cfg : TraceConfig W C} {s t : TraceState W C} {e : TraceStep C}
    (he : e.ofReader = false) (hstep : traceStep cfg s e = some t) :
    t.readerSent = s.readerSent ∧ t.sending = s.sending ∧ t.stopped = s.stopped := by
  cases e with
  | read n => cases he
  | deliver => cases he
  | stopReader => cases he
  | connect c | fireTurn c preFlush fire | flush c result | fail c =>
    simp only [traceStep] at hstep
    split at hstep <;> cases hstep
    exact ⟨rfl, rfl, rfl⟩
  | reply c miss =>
    simp only [traceStep] at hstep
    split at hstep
    · split at hstep <;> cases hstep <;> exact ⟨rfl, rfl, rfl⟩
    · cases hstep

omit [DecidableEq W] [DecidableEq C] in
theorem readerStep_inv {s t : ReplayState W C} (h : ReaderInv cfg s)
    (hstep : readerStep cfg s = some t) : ReaderInv cfg t := by
  obtain ⟨hloop, hpc, hle⟩ := h
  cases hat : s.reader.pc with
  | reading =>
    simp only [readerStep, hat, Option.some.injEq] at hstep
    subst hstep
    obtain ⟨hlast, hlen⟩ := hpc.reading hat
    exact ⟨readEntry_loop hloop hlast hlen, readEntry_at hpc hat, hle⟩
  | counting =>
    simp only [readerStep, hat, Option.some.injEq] at hstep
    subst hstep
    have hrows := hloop.rows
    have hlen := congrArg List.length hrows
    have hpos := List.length_pos_of_ne_nil (hpc.counting hat)
    rw [List.length_drop, List.length_append] at hlen
    refine ⟨?_, ?_, ?_⟩
    · refine ⟨?_, hloop.skipped, hloop.error, hloop.none_yet, Nat.zero_le _⟩
      rw [← List.drop_drop, hrows, List.drop_left]
      rfl
    · have := hpc.counting hat
      have hrunning : ¬s.trace.stopped = true := fun hs => by
        cases hat.symm.trans (hpc.stopped.2 hs)
      constructor <;> simp [this, hrunning]
    · simp only
      omega
  | sending =>
    simp only [readerStep, hat] at hstep
    split at hstep <;> cases hstep
    have hbatch := hpc.left (by simp [hat]) (by simp [hat])
    refine ⟨⟨hloop.rows, hloop.skipped, hloop.error, hloop.none_yet, hloop.batch_le⟩, ?_, hle⟩
    have hrunning : ¬s.trace.stopped = true := fun hs => by
      cases hat.symm.trans (hpc.stopped.2 hs)
    cases hlast : s.reader.last
    · constructor <;> simp [hbatch, hrunning, claimBatch]
    · constructor <;> simp [hbatch, hrunning]
  | stopping =>
    simp only [readerStep, hat, Option.some.injEq] at hstep
    subst hstep
    have hbatch := hpc.left (by simp [hat]) (by simp [hat])
    refine ⟨⟨hloop.rows, hloop.skipped, hloop.error, hloop.none_yet, hloop.batch_le⟩, ?_, hle⟩
    have hsent : s.trace.sending = [] := by
      by_contra hne
      cases hat.symm.trans (hpc.sending.2 hne)
    constructor <;> simp [hpc.finished (.inl hat), hbatch, hsent]
  | returned => simp [readerStep, hat] at hstep

/-- **The step lemma.** -/
theorem replayStep_inv {s t : ReplayState W C} {e : ReplayStep C} (h : ReaderInv cfg s)
    (hstep : replayStep cfg s e = some t) : ReaderInv cfg t := by
  cases e with
  | reader => exact readerStep_inv h hstep
  | conn e =>
    simp only [replayStep] at hstep
    split at hstep
    · cases hstep
    · rename_i he
      obtain ⟨trace, htrace, rfl⟩ := Option.map_eq_some_iff.1 hstep
      obtain ⟨hsent, hsending, hstopped⟩ := traceStep_reader (by simpa using he) htrace
      obtain ⟨hloop, hpc, hle⟩ := h
      refine ⟨?_, ?_, ?_⟩
      · exact hsent.symm ▸ hloop
      · exact ⟨hpc.reading, hpc.counting, hpc.left, hpc.finished, hsending.symm ▸ hpc.sending,
          hstopped.symm ▸ hpc.stopped⟩
      · exact hsent.symm ▸ hle

/-- **A run of the thread is a run of the replay's own reader**, with the same steps of the
connections in the same order. -/
theorem replay_refines {s t : ReplayState W C} {es : List (ReplayStep C)} (h : ReaderInv cfg s)
    (hrun : Exec.run (replayStep cfg) s es = some t) :
    ∃ es', Exec.run (traceStep cfg.trace) s.trace es' = some t.trace ∧
      es'.filter (!·.ofReader) = es.filterMap ReplayStep.conn? := by
  induction es generalizing s with
  | nil =>
    cases hrun
    exact ⟨[], rfl, rfl⟩
  | cons e es ih =>
    rw [Exec.run_cons, Option.bind_eq_some_iff] at hrun
    obtain ⟨u, hu, hrun⟩ := hrun
    obtain ⟨es', hes', hconn⟩ := ih (replayStep_inv h hu) hrun
    cases e with
    | reader =>
      rcases readerStep_refines h hu with heq | ⟨e, he, hstep⟩
      · rw [heq] at hes'
        exact ⟨es', hes', hconn⟩
      · refine ⟨e :: es', ?_, ?_⟩
        · rw [Exec.run_cons, hstep]
          exact hes'
        · rw [List.filter_cons_of_neg (by simp [he])]
          exact hconn
    | conn e =>
      simp only [replayStep] at hu
      split at hu
      · cases hu
      · rename_i he
        obtain ⟨trace, htrace, rfl⟩ := Option.map_eq_some_iff.1 hu
        refine ⟨e :: es', ?_, ?_⟩
        · rw [Exec.run_cons, htrace]
          exact hes'
        · rw [List.filter_cons_of_pos (by simpa using he), hconn]
          rfl

/-! ## What is reported -/

omit [DecidableEq W] [DecidableEq C] in
theorem trace_rows (cfg : ReplayConfig W C) :
    cfg.trace.rows = rowsFrom cfg.opKind 0 cfg.entries := rfl

omit [DecidableEq W] [DecidableEq C] in
/-- Once the reader has stopped, it has sent the whole file and reports what is in it. -/
theorem ReaderInv.stopped {s : ReplayState W C} (h : ReaderInv cfg s)
    (hstopped : s.trace.stopped = true) :
    s.trace.readerSent = cfg.trace.rows.length ∧
      s.reader.skipped = skippedIn cfg.opKind cfg.entries ∧
      s.reader.error = (firstError cfg.entries).map cfg.message := by
  obtain ⟨hloop, hpc, hle⟩ := h
  have hreturned := hpc.stopped.2 hstopped
  have hbatch := hpc.left (by simp [hreturned]) (by simp [hreturned])
  have hrest : s.reader.rest = [] := by simp [Reader.rest, hpc.finished (.inr hreturned)]
  have hrows := hloop.rows
  have hskipped := hloop.skipped
  have herror := hloop.error
  rw [hrest] at hrows hskipped herror
  rw [hbatch] at hrows
  refine ⟨le_antisymm hle (List.drop_eq_nil_iff.1 hrows), hskipped, ?_⟩
  rw [← herror]
  simp [firstError]

omit [DecidableEq W] [DecidableEq C] in
/-- A replay that is finished has done every row the reader sent, exactly once. -/
theorem TraceInv.finished {cfg : TraceConfig W C} {s : TraceState W C} [Fintype W] [Fintype C]
    (h : TraceInv cfg s) (hfin : s.isFinished = true) {k : Nat} (hk : k < s.readerSent) :
    s.answered.count k + s.failed.count k = 1 := by
  simp only [TraceState.isFinished, Bool.and_eq_true, decide_eq_true_eq] at hfin
  have hall : s.delivered = s.readerSent := by simp [TraceState.delivered, h.stopped hfin.1]
  rw [← List.count_append]
  refine Ledger.count_eq_one_of_covered h.done_le List.nodup_range ?_
    (List.mem_range.2 (hall ▸ hk))
  rw [List.length_range, List.length_append, ← h.done, hall]
  exact hfin.2

/-- **What the results of a trace replay say.** The reader runs beside the connections, a file of
any entries under it, in any interleaving, and a run of it is one of the replay's own reader; so a
reply is to the oldest request its connection has recorded. While it runs it has reported no more
rows than the file has. When the replay is over every row of the file was answered or counted
failed, once, and what is reported as skipped, and as the error, is what the file has up to its
first unreadable entry. It reports `finished` only of a file that was read to the end, all of whose
entries are done or skipped, and `all_skipped` only of one that has no row. -/
theorem replay_reported [Fintype W] [Fintype C] (cfg : ReplayConfig W C)
    (es : List (ReplayStep C)) (s : ReplayState W C)
    (hrun : Exec.run (replayStep cfg) (.init cfg) es = some s) :
    (∃ es', Exec.run (traceStep cfg.trace) .init es' = some s.trace ∧
        es'.filter (!·.ofReader) = es.filterMap ReplayStep.conn?) ∧
      (∀ c answered wire, (s.trace.conn c).client.wire = answered :: wire →
        (s.trace.conn c).sent.head? = some answered) ∧
      s.trace.readerSent ≤ cfg.trace.rows.length ∧
      (s.trace.isFinished = true →
        (∀ k < cfg.trace.rows.length, s.trace.answered.count k + s.trace.failed.count k = 1) ∧
          s.trace.done = cfg.trace.rows.length ∧
          s.reader.skipped = skippedIn cfg.opKind cfg.entries ∧
          s.reader.error = (firstError cfg.entries).map cfg.message) ∧
      (s.finished = true ↔ s.trace.isFinished = true ∧ firstError cfg.entries = none) ∧
      (s.finished = true → s.trace.done + s.reader.skipped = cfg.entries.length) ∧
      (s.allSkipped = true ↔ s.trace.stopped = true ∧ s.reader.skipped = cfg.entries.length) := by
  have h : ReaderInv cfg s := Exec.run_inv replayStep_inv (replay_init_inv cfg) hrun
  obtain ⟨es', hes', hconn⟩ := replay_refines (replay_init_inv cfg) hrun
  have htrace : TraceInv cfg.trace s.trace := Exec.run_inv traceStep_inv (init_inv _) hes'
  have hover : s.trace.isFinished = true → s.trace.stopped = true := fun hfin => by
    simp only [TraceState.isFinished, Bool.and_eq_true] at hfin
    exact hfin.1
  have hdone : s.trace.isFinished = true → s.trace.done = cfg.trace.rows.length := by
    intro hfin
    have hle := Ledger.length_le_of_covered htrace.done_le
    have hsent := (h.stopped (hover hfin)).1
    simp only [TraceState.isFinished, Bool.and_eq_true, decide_eq_true_eq] at hfin
    rw [List.length_range, List.length_append, ← htrace.done] at hle
    simp only [TraceState.delivered] at hle
    omega
  have hfinished : s.finished = true ↔
      s.trace.isFinished = true ∧ firstError cfg.entries = none := by
    simp only [ReplayState.finished, Bool.and_eq_true]
    refine and_congr_right fun hfin => ?_
    rw [(h.stopped (hover hfin)).2.2, Option.isNone_iff_eq_none, Option.map_eq_none_iff]
  refine ⟨⟨es', hes', hconn⟩, fun c answered wire => reply_recorded cfg.trace es' s.trace hes',
    h.sent_le, fun hfin => ?_, hfinished, fun hfin => ?_, ?_⟩
  · obtain ⟨hsent, hreport⟩ := h.stopped (hover hfin)
    exact ⟨fun k hk => htrace.finished hfin (hsent.symm ▸ hk), hdone hfin, hreport⟩
  · obtain ⟨hfin', herror⟩ := hfinished.1 hfin
    obtain ⟨unread, hlen, hunread⟩ := rowsFrom_add_skippedIn cfg.opKind 0 cfg.entries
    have hnone := hunread.2 herror
    have hrows : cfg.trace.rows.length = _ := congrArg List.length (trace_rows cfg)
    rw [hdone hfin', (h.stopped (hover hfin')).2.1]
    omega
  · simp only [ReplayState.allSkipped, Bool.and_eq_true, decide_eq_true_eq]
    rw [and_comm (a := s.trace.readerSent = 0), and_assoc]
    refine and_congr_right fun hstopped => ?_
    obtain ⟨hsent, hskipped, herror⟩ := h.stopped hstopped
    obtain ⟨unread, hlen, hunread⟩ := rowsFrom_add_skippedIn cfg.opKind 0 cfg.entries
    have hrows : cfg.trace.rows.length = _ := congrArg List.length (trace_rows cfg)
    rw [herror, Option.isNone_iff_eq_none, Option.map_eq_none_iff, ← hunread, hsent, hskipped]
    omega

/-! ## A file of a row and an op that is not sent -/

def twoEntries : ReplayConfig Unit Unit where
  worker := id
  pipelineDepth := 1
  backfillOnMiss := false
  keyLen _ := 16
  opKind code := if code = 1 then .read else .other
  path := "trace.parquet"
  entries := [.ok ⟨7, 100, some 1⟩, .ok ⟨8, 0, some 20⟩]

/-- The connection starts before the reader has sent the row. -/
def twoEntriesRun : List (ReplayStep Unit) :=
  [.reader, .conn (.connect ()), .reader, .reader, .reader, .reader,
    .conn (.fireTurn () (.sent false) (.sent true)), .reader, .conn (.reply () true)]

theorem replay_reported_twoEntries : ∃ s : ReplayState Unit Unit,
    Exec.run (replayStep twoEntries) (.init twoEntries) twoEntriesRun = some s ∧
      s.finished = true ∧ s.trace.done + s.reader.skipped = 2 ∧
      ∃ es', Exec.run (traceStep twoEntries.trace) .init es' = some s.trace ∧
        es'.filter (!·.ofReader) =
          [.connect (), .fireTurn () (.sent false) (.sent true), .reply () true] := by
  have hrun : ∃ s : ReplayState Unit Unit,
      Exec.run (replayStep twoEntries) (.init twoEntries) twoEntriesRun = some s ∧
        s.finished = true := ⟨_, rfl, rfl⟩
  obtain ⟨s, hrun, hfin⟩ := hrun
  obtain ⟨⟨es', hes', hconn⟩, -, -, -, -, hdone, -⟩ := replay_reported twoEntries _ s hrun
  exact ⟨s, hrun, hfin, hdone hfin, es', hes', hconn⟩

end TraceReplay
