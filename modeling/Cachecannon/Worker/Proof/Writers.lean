import Cachecannon.Lib.Ledger
import Cachecannon.Worker.Writers

/-!
# Key ids are moved, never lost or doubled

Two facts about the connections that drain key queues, for any interleaving of their steps:

* `WriterOk`: a connection's `in_flight` is the keys of the requests its client has in flight, in
  order, so the key a reply pops is the key the server answered for, and the newest keys are
  those a failed flush discarded.
* `total`: how often an id occurs in the queues, in the hands and in flight on the connections,
  and among the acknowledged ids. Every step keeps it (`writerStep_total`).
-/

namespace Worker

open Pipeline

/-! ## The invariant of a connection -/

/-- The keys of the queues among requests in flight. -/
def keysOf (requests : List (Option Nat)) : List Nat := requests.filterMap id

@[simp] theorem keysOf_append (l l' : List (Option Nat)) :
    keysOf (l ++ l') = keysOf l ++ keysOf l' := List.filterMap_append

@[simp] theorem keysOf_some (key : Nat) (l : List (Option Nat)) :
    keysOf (some key :: l) = key :: keysOf l := rfl

@[simp] theorem keysOf_none (l : List (Option Nat)) : keysOf (none :: l) = keysOf l := rfl

@[simp] theorem keysOf_nil : keysOf [] = [] := rfl

theorem keysOf_length {l : List (Option Nat)} (h : ∀ r ∈ l, r.isSome = true) :
    (keysOf l).length = l.length := by
  induction l with
  | nil => rfl
  | cons r l ih =>
    obtain ⟨key, rfl⟩ := Option.isSome_iff_exists.1 (h r (by simp))
    simp [ih fun x hx => h x (by simp [hx])]

theorem keysOf_eq_nil {l : List (Option Nat)} (h : ∀ r ∈ l, r.isSome = false) :
    keysOf l = [] := by
  induction l with
  | nil => rfl
  | cons r l ih =>
    have hr : r = none := by simpa using h r (by simp)
    simp [hr, ih fun x hx => h x (by simp [hx])]

/-- The keys in flight are the keys of the requests in flight, and a batch is all keys of the
queues or all other requests. -/
structure Aligned (v : Writer) : Prop where
  inFlight : v.inFlight = keysOf v.client.outstanding
  batch : ∀ r ∈ v.client.buffered, r.isSome = v.writes

/-- **The invariant of a connection**, by where it is in its loop. -/
def WriterOk (v : Writer) : Prop :=
  match v.pc with
  | .top | .flushed => v.client.buffered = [] ∧ v.inFlight = keysOf v.client.wire
  | .firing | .sending => Aligned v
  | .holding _ => Aligned v ∧ v.writes = true
  -- the keys still to be requeued are the newest
  | .requeueNewest n _ => v.client.buffered = [] ∧
      ∃ newest, v.inFlight = keysOf v.client.wire ++ newest ∧ newest.length = n
  | .draining => True
  | .closed => v.inFlight = []

/-- The key in a connection's hands. -/
def Writer.hand (v : Writer) : List Nat :=
  match v.pc with
  | .holding key => [key]
  | _ => []

def Writer.occurs (v : Writer) (k : Nat) : Nat := v.hand.count k + v.inFlight.count k

/-! ## The total -/

variable {E C W : Type}

/-- How often the id `k` occurs, in all places. -/
def total [Fintype E] [Fintype C] (s : WriteState E C W) (k : Nat) : Nat :=
  (∑ e, (s.queue e).count k) + (∑ c, (s.conn c).occurs k) + s.acked.count k

variable [DecidableEq E] [DecidableEq C]

/-- What a step of the connection `c` does: it touches one queue, `c` and the acknowledged ids,
and ids only move between them. -/
structure Effect (s t : WriteState E C W) (c : C) (e : E) (q : List Nat) (v : Writer) : Prop where
  queue : t.queue = Function.update s.queue e q
  conn : t.conn = Function.update s.conn c v
  ok : WriterOk v
  moved : ∀ k, q.count k + v.occurs k + t.acked.count k =
    (s.queue e).count k + (s.conn c).occurs k + s.acked.count k
  counted : t.confirmed + s.acked.length = s.confirmed + t.acked.length
  acked : s.acked <+: t.acked

theorem Effect.total_eq [Fintype E] [Fintype C] {s t : WriteState E C W} {c : C} {e : E}
    {q : List Nat} {v : Writer} (h : Effect s t c e q v) (k : Nat) : total t k = total s k := by
  have hq := Ledger.sum_map_update_add (List.count k) s.queue e q
  have hc := Ledger.sum_map_update_add (Writer.occurs · k) s.conn c v
  have hm := h.moved k
  unfold total
  rw [h.queue, h.conn]
  omega

theorem Effect.conn_ok {s t : WriteState E C W} {c : C} {e : E} {q : List Nat} {v : Writer}
    (h : Effect s t c e q v) (hs : ∀ d, WriterOk (s.conn d)) (d : C) : WriterOk (t.conn d) := by
  rw [h.conn]
  exact (Function.forall_update_iff s.conn fun _ => WriterOk).2 ⟨h.ok, fun d _ => hs d⟩ d

/-- A step with the connection's own data touches no queue; take its endpoint's. -/
theorem effect_conn (cfg : WriterConfig E C W) {s : WriteState E C W} {c : C} {v : Writer}
    (hok : WriterOk v) (hocc : ∀ k, v.occurs k = (s.conn c).occurs k) :
    ∃ e q v', Effect s (s.setConn c v) c e q v' := by
  refine ⟨cfg.endpoint c, s.queue (cfg.endpoint c), v, by simp [WriteState.setConn], rfl, hok, ?_,
    rfl, List.prefix_refl _⟩
  intro k
  simp [WriteState.setConn, hocc k]

theorem effect_queue {s : WriteState E C W} {c : C} {e : E} {q : List Nat} {v : Writer}
    (hok : WriterOk v) (hocc : ∀ k, q.count k + v.occurs k =
      (s.queue e).count k + (s.conn c).occurs k) :
    Effect s ((s.setQueue e q).setConn c v) c e q v :=
  ⟨rfl, rfl, hok, fun k => by simp [WriteState.setConn, WriteState.setQueue, hocc k], rfl,
    List.prefix_refl _⟩

/-! ## The steps -/

variable [DecidableEq W]

/-- Rolling back a batch of keys: the newest keys in flight are those discarded. -/
theorem requeue_ok {v : Writer} (h : Aligned v) (hw : v.writes = true) (flush : Bool) :
    WriterOk { v with
      pc := .requeueNewest (v.client.pendingCount - v.client.discard.pendingCount) flush
      client := v.client.discard } := by
  refine ⟨rfl, keysOf v.client.buffered, ?_, ?_⟩
  · simp [h.inFlight, Client.outstanding]
  · rw [Client.pendingCount_sub_discard]
    exact keysOf_length fun r hr => (h.batch r hr).trans hw

omit [DecidableEq W] in
theorem reply_effect (cfg : WriterConfig E C W) {s : WriteState E C W} {c : C} {r : Option Nat}
    {rest : List (Option Nat)} (hok : WriterOk (s.conn c)) (hpc : (s.conn c).pc = .flushed)
    (hwire : (s.conn c).client.wire = r :: rest) (success : Bool) :
    ∃ e q v, Effect s (writerReply cfg s c r success) c e q v := by
  simp only [WriterOk, hpc] at hok
  obtain ⟨hbuf, hflight⟩ := hok
  rw [hwire] at hflight
  cases r with
  | none =>
    refine effect_conn cfg ⟨hbuf, ?_⟩ fun k => ?_
    · simp [Client.reply, hwire, hflight]
    · simp [Writer.occurs, Writer.hand, hpc]
  | some key =>
    have hcons : (s.conn c).inFlight = key :: keysOf rest := by simpa using hflight
    have hok' : WriterOk { s.conn c with pc := .top, client := (s.conn c).client.reply,
                                         inFlight := (s.conn c).inFlight.tail } :=
      ⟨hbuf, by simp [Client.reply, hwire, hcons]⟩
    cases success with
    | true =>
      refine ⟨cfg.endpoint c, s.queue (cfg.endpoint c), _, by
        simp [writerReply, WriteState.setConn, WriteState.confirm], rfl, hok', fun k => ?_, ?_,
        List.prefix_append _ _⟩
      · simp only [writerReply, WriteState.setConn, WriteState.confirm, if_true, hpc, hcons,
          Writer.occurs, Writer.hand, List.tail_cons, List.count_nil, List.count_append,
          List.count_cons]
        omega
      · simp only [writerReply, WriteState.setConn, WriteState.confirm, if_true,
          List.length_append, List.length_singleton]
        omega
    | false =>
      refine ⟨cfg.endpoint c, s.queue (cfg.endpoint c) ++ [key], _, ?_, rfl, hok', fun k => ?_, rfl,
        List.prefix_refl _⟩
      · simp [writerReply, WriteState.setConn, WriteState.pushBack, WriteState.setQueue, hcons]
      · simp only [writerReply, WriteState.setConn, WriteState.pushBack, WriteState.setQueue,
          Bool.false_eq_true, if_false, hpc, hcons, Writer.occurs, Writer.hand, List.tail_cons,
          List.count_nil, List.count_append, List.count_cons]
        omega

/-- Keys are requeued from the newest in flight to the oldest of the batch, one a step. -/
theorem requeueNewest_effect {cfg : WriterConfig E C W} {s t : WriteState E C W} {c : C}
    (hok : WriterOk (s.conn c)) (h : writerStep cfg s c .requeueNewest = some t) :
    ∃ e q v, Effect s t c e q v := by
  simp only [writerStep] at h
  split at h
  · rename_i flush hpc
    cases h
    simp only [WriterOk, hpc] at hok
    obtain ⟨hbuf, newest, hflight, hlen⟩ := hok
    obtain rfl := List.length_eq_zero_iff.1 hlen
    cases flush with
    | true =>
      refine effect_conn cfg ⟨hbuf, by simpa using hflight⟩ fun k => ?_
      simp [Writer.occurs, Writer.hand, hpc]
    | false =>
      refine effect_conn cfg ⟨?_, by simp [hbuf]⟩ fun k => by simp [Writer.occurs, Writer.hand, hpc]
      simpa [Client.outstanding, hbuf] using hflight
  · rename_i n flush hpc
    simp only [WriterOk, hpc] at hok
    obtain ⟨hbuf, newest, hflight, hlen⟩ := hok
    -- the newest key in flight is the last of those to requeue
    rcases List.eq_nil_or_concat newest with rfl | ⟨older, key, rfl⟩
    · cases hlen
    rw [List.concat_eq_append, ← List.append_assoc] at hflight
    simp only [hflight, List.getLast?_concat, List.dropLast_concat] at h
    cases h
    refine ⟨_, _, _, effect_queue ⟨hbuf, older, rfl, by simpa using hlen⟩ fun k => ?_⟩
    simp only [Writer.occurs, Writer.hand, hpc, hflight, List.count_append, List.count_cons,
      List.count_nil]
    omega
  · cases h

/-- **The step lemma.** Every step of a connection only moves ids, and keeps its in-flight keys
aligned with its client. -/
theorem writerStep_effect {cfg : WriterConfig E C W} {s t : WriteState E C W} {c : C}
    {e : WriterStep E} (hok : WriterOk (s.conn c)) (h : writerStep cfg s c e = some t) :
    ∃ e q v, Effect s t c e q v := by
  cases e with
  | begin writes =>
    simp only [writerStep] at h
    split at h <;> cases h
    rename_i hpc
    simp only [WriterOk, hpc] at hok
    refine effect_conn cfg ⟨?_, ?_⟩ fun k => ?_
    · simp [Client.outstanding, hok.1, hok.2]
    · simp [hok.1]
    · simp [Writer.occurs, Writer.hand, hpc]
  | eof =>
    simp only [writerStep] at h
    split at h <;> cases h
    rename_i hguard
    obtain ⟨hpc, -⟩ := hguard
    exact effect_conn cfg trivial fun k => by simp [Writer.occurs, Writer.hand, hpc]
  | pop =>
    simp only [writerStep] at h
    split at h
    · rename_i key rest hq
      split at h <;> cases h
      rename_i hguard
      obtain ⟨hpc, hwrites, -⟩ := hguard
      simp only [WriterOk, hpc] at hok
      refine ⟨_, _, _, effect_queue ⟨⟨hok.inFlight, hok.batch⟩, hwrites⟩ fun k => ?_⟩
      simp only [hq, Writer.occurs, Writer.hand, hpc, List.count_cons, List.count_nil]
      omega
    · cases h
  | handOff =>
    simp only [writerStep] at h
    split at h
    · rename_i key hpc
      split at h <;> cases h
      simp only [WriterOk, hpc] at hok
      refine ⟨_, _, _, effect_queue ⟨hok.1.inFlight, hok.1.batch⟩ fun k => ?_⟩
      simp only [Writer.occurs, Writer.hand, hpc, List.count_append, List.count_nil]
      omega
    · cases h
  | refuse =>
    simp only [writerStep] at h
    split at h
    · rename_i key hpc
      split at h <;> cases h
      simp only [WriterOk, hpc] at hok
      refine ⟨_, _, _, effect_queue ⟨hok.1.inFlight, hok.1.batch⟩ fun k => ?_⟩
      simp only [Writer.occurs, Writer.hand, hpc, List.count_cons, List.count_nil]
      omega
    · cases h
  | fire flushes =>
    simp only [writerStep] at h
    split at h
    · rename_i key hpc
      split at h <;> cases h
      simp only [WriterOk, hpc] at hok
      refine effect_conn cfg ⟨by simp [hok.1.inFlight], fun r hr => ?_⟩ fun k => ?_
      · rcases Client.mem_buffered_fire hr with hr | rfl
        · exact hok.1.batch r hr
        · exact hok.2.symm
      · simp only [Writer.occurs, Writer.hand, hpc, List.count_append, List.count_nil]
        omega
    · cases h
  | failFire =>
    simp only [writerStep] at h
    split at h
    · rename_i key hpc
      split at h <;> cases h
      simp only [WriterOk, hpc] at hok
      refine ⟨_, _, _, effect_queue (requeue_ok hok.1 hok.2 false) fun k => ?_⟩
      simp only [Writer.occurs, Writer.hand, hpc, List.count_cons, List.count_nil]
      omega
    · cases h
  | fireOther flushes =>
    simp only [writerStep] at h
    split at h <;> cases h
    rename_i hguard
    obtain ⟨hpc, hwrites⟩ := hguard
    simp only [WriterOk, hpc] at hok
    refine effect_conn cfg ?_ fun k => by simp [Writer.occurs, Writer.hand]
    simp only [WriterOk, hpc]
    refine ⟨by simp [hok.inFlight], fun r hr => ?_⟩
    rcases Client.mem_buffered_fire hr with hr | rfl
    · exact hok.batch r hr
    · exact hwrites.symm
  | failOther =>
    simp only [writerStep] at h
    split at h <;> cases h
    rename_i hguard
    obtain ⟨hpc, hwrites⟩ := hguard
    simp only [WriterOk, hpc] at hok
    refine effect_conn cfg ⟨?_, by simp⟩ fun k => by simp [Writer.occurs, Writer.hand, hpc]
    simpa [Client.outstanding, keysOf_eq_nil fun r hr => (hok.batch r hr).trans hwrites]
      using hok.inFlight
  | flush =>
    simp only [writerStep] at h
    split at h <;> cases h
    rename_i hpc
    have hal : Aligned (s.conn c) := by
      rcases hpc with hpc | hpc <;> simpa only [WriterOk, hpc] using hok
    refine effect_conn cfg ⟨rfl, by simpa using hal.inFlight⟩ fun k => ?_
    rcases hpc with hpc | hpc <;> simp [Writer.occurs, Writer.hand, hpc]
  | failFlush =>
    simp only [writerStep] at h
    split at h <;> cases h
    rename_i hpc
    have hal : Aligned (s.conn c) := by
      rcases hpc with hpc | hpc <;> simpa only [WriterOk, hpc] using hok
    cases hw : (s.conn c).writes with
    | true =>
      refine effect_conn cfg (requeue_ok hal hw true) fun k => ?_
      rcases hpc with hpc | hpc <;> simp [Writer.occurs, Writer.hand, hpc]
    | false =>
      refine effect_conn cfg ⟨rfl, ?_⟩ fun k => ?_
      · simpa [Client.outstanding, keysOf_eq_nil fun r hr => (hal.batch r hr).trans hw]
          using hal.inFlight
      · rcases hpc with hpc | hpc <;> simp [Writer.occurs, Writer.hand, hpc]
  | requeueNewest => exact requeueNewest_effect hok h
  | reply success moved =>
    simp only [writerStep] at h
    split at h
    · rename_i r rest hpc hwire
      cases h
      obtain ⟨e, q, v, heff⟩ := reply_effect cfg hok hpc hwire success
      refine ⟨e, q, v, ?_⟩
      cases moved with
      | none => exact heff
      | some m => exact ⟨heff.queue, heff.conn, heff.ok, heff.moved, heff.counted, heff.acked⟩
    · cases h
  | sleep =>
    simp only [writerStep] at h
    split at h <;> cases h
    rename_i hguard
    obtain ⟨hpc, -⟩ := hguard
    simp only [WriterOk, hpc] at hok
    exact effect_conn cfg hok fun k => by simp [Writer.occurs, Writer.hand, hpc]
  | disconnect =>
    simp only [writerStep] at h
    split at h <;> cases h
    rename_i hpc
    exact effect_conn cfg trivial fun k => by simp [Writer.occurs, Writer.hand, hpc]
  | drain =>
    simp only [writerStep] at h
    split at h
    · rename_i hpc
      split at h
      · rename_i key rest hflight
        cases h
        refine ⟨_, _, _, effect_queue (by simp [WriterOk, hpc]) fun k => ?_⟩
        simp only [Writer.occurs, Writer.hand, hpc, hflight, List.count_append, List.count_cons,
          List.count_nil]
        omega
      · rename_i hflight
        cases h
        exact effect_conn cfg hflight fun k => by simp [Writer.occurs, Writer.hand, hpc]
    · cases h
  | connect =>
    simp only [writerStep] at h
    split at h <;> cases h
    rename_i hpc
    simp only [WriterOk, hpc] at hok
    exact effect_conn cfg ⟨rfl, hok⟩ fun k => by simp [Writer.occurs, Writer.hand, hpc]

end Worker
