import Cachecannon.KvReplay.Request

/-!
# The GET and SET loops

What the inner loop does (`fireLoop_fills`), what an iteration does (`turn_turns`) and, by
induction on the operations to be done, what a loop does (`opLoop_loops`). Between iterations
everything is flushed (`Steady`), so only an iteration that fires two requests can fail a fire
with one buffered, and that is the first of a loop (`loopFlushed_start`).
-/

namespace KvReplay

open Pipeline

/-! ## Accounts -/

/-- Every operation tried from `s` to `s'` was counted once, as sent or as failed. -/
def Settles (s s' : Sending) : Prop :=
  s'.tried.length + s.requestsSent + s.sendFailed =
    s.tried.length + s'.requestsSent + s'.sendFailed

def InFlightAligned (s : Sending) : Prop := s.inflight.fired.length = s.client.pendingCount

structure Steady (s : Sending) : Prop where
  inflight : InFlightAligned s
  buffered : s.client.buffered = []

theorem steady_outstanding {s : Sending} (h : Steady s) : s.client.outstanding = s.client.wire := by
  simp [Client.outstanding, h.buffered]

theorem pendingCount_eq (cl : Client Op) : cl.pendingCount = cl.outstanding.length := by
  simp [Client.pendingCount, Client.outstanding]

theorem settles_trans {s s₁ s₂ : Sending} (h : Settles s s₁) : Settles s s₂ ↔ Settles s₁ s₂ := by
  unfold Settles at *
  omega

/-! ## The inner loop -/

/-- How many of `todo` requests an iteration fires when none fails. -/
def room (pipelineDepth pending todo : Nat) : Nat := min todo (pipelineDepth - pending)

/-- After `k` fires of `ops` from `s₀`. -/
structure Filled (it : Iteration) (ops : List Op) (s₀ : Sending) (k : Nat) (s : Sending) :
    Prop where
  sent : ∀ j < k, it.fires j ≠ .failed
  outstanding : s.client.outstanding = s₀.client.outstanding ++ ops.take k
  inflight : InFlightAligned s
  buffered : s.client.buffered.length ≤ k
  flushed : s.client.buffered = [] ↔ k = 0 ∨ it.fires (k - 1) = .sent true
  tried : s.tried = s₀.tried ++ ops.take k
  requestsSent : s.requestsSent = s₀.requestsSent
  sendFailed : s.sendFailed = s₀.sendFailed

theorem filled_zero {s : Sending} (h : Steady s) (it : Iteration) (ops : List Op) :
    Filled it ops s 0 s where
  sent j hj := absurd hj (Nat.not_lt_zero j)
  outstanding := by simp
  inflight := h.inflight
  buffered := by simp [h.buffered]
  flushed := by simp [h.buffered]
  tried := by simp
  requestsSent := rfl
  sendFailed := rfl

theorem take_succ_of_drop {α : Type} {l rest : List α} {k : Nat} {a : α}
    (h : l.drop k = a :: rest) : l.take (k + 1) = l.take k ++ [a] := by
  have hget : l[k]? = some a := by rw [← List.head?_drop, h]; rfl
  rw [List.take_add_one, hget]
  rfl

theorem filled_succ {it : Iteration} {ops rest : List Op} {s₀ s : Sending} {k : Nat} {op : Op}
    {flushes : Bool} (h : Filled it ops s₀ k s) (hop : ops.drop k = op :: rest)
    (hfire : it.fires k = .sent flushes) :
    Filled it ops s₀ (k + 1) (s.sendOne op it.firedAt flushes) where
  sent j hj := by
    rcases Nat.lt_succ_iff_lt_or_eq.mp hj with hlt | rfl
    · exact h.sent j hlt
    · simp [hfire]
  outstanding := by
    rw [take_succ_of_drop hop, ← List.append_assoc, ← h.outstanding]
    simp [Sending.sendOne]
  inflight := by
    have hinflight := h.inflight
    unfold InFlightAligned at *
    rw [pendingCount_eq] at *
    simp only [Sending.sendOne, Worker.InFlight.push, Worker.InFlight.pushQueued,
      Client.outstanding_fire, List.length_append, List.length_singleton]
    omega
  buffered := by
    have hbuffered := h.buffered
    cases flushes with
    | false => simpa [Sending.sendOne, Client.fire] using hbuffered
    | true => simp [Sending.sendOne, Client.fire]
  flushed := by
    cases flushes with
    | false => simp [Sending.sendOne, Client.fire, hfire]
    | true => simp [Sending.sendOne, Client.fire, hfire]
  tried := by
    rw [take_succ_of_drop hop, ← List.append_assoc, ← h.tried]
    rfl
  requestsSent := h.requestsSent
  sendFailed := h.sendFailed

/-- What the inner loop does from `s₀` with `ops` to fire: it fires what there is room for, or
the fire of number `k` fails. -/
inductive Fills (pipelineDepth : Nat) (it : Iteration) (ops : List Op) (s₀ : Sending) :
    Except Sending (List Op × Nat × Sending) → Prop
  | full (m : Nat) (s : Sending) (hroom : m = room pipelineDepth s₀.client.pendingCount ops.length)
      (filled : Filled it ops s₀ m s) :
      Fills pipelineDepth it ops s₀ (.ok (ops.drop m, m, s))
  | failed (k : Nat) (op : Op) (s : Sending)
      (hroom : k < room pipelineDepth s₀.client.pendingCount ops.length)
      (failed : it.fires k = .failed) (filled : Filled it ops s₀ k s) :
      Fills pipelineDepth it ops s₀ (.error (s.failOne op k))

theorem filled_pendingCount {it : Iteration} {ops : List Op} {s₀ s : Sending} {k : Nat}
    (h : Filled it ops s₀ k s) (hk : k ≤ ops.length) :
    s.client.pendingCount = s₀.client.pendingCount + k := by
  rw [pendingCount_eq, pendingCount_eq, h.outstanding, List.length_append, List.length_take,
    Nat.min_eq_left hk]

theorem fireLoop_fills (pipelineDepth : Nat) (it : Iteration) (ops : List Op) (s₀ : Sending) :
    ∀ (next : List Op) (k : Nat) (s : Sending), ops.drop k = next → Filled it ops s₀ k s →
      k ≤ room pipelineDepth s₀.client.pendingCount ops.length →
      Fills pipelineDepth it ops s₀ (fireLoop pipelineDepth it next k s)
  | [], k, s, hdrop, hfilled, hroom => by
    have hlen : ops.length ≤ k := List.drop_eq_nil_iff.mp hdrop
    rw [fireLoop, ← hdrop]
    refine .full k s ?_ hfilled
    unfold room at *
    omega
  | op :: next, k, s, hdrop, hfilled, hroom => by
    have hlt : k < ops.length := by
      by_contra hge
      rw [List.drop_eq_nil_of_le (Nat.le_of_not_lt hge)] at hdrop
      cases hdrop
    have hpending := filled_pendingCount hfilled hlt.le
    rw [fireLoop]
    split
    · rename_i hdepth
      have hmore : k < room pipelineDepth s₀.client.pendingCount ops.length := by
        unfold room
        omega
      split
      · rename_i flushes hfire
        refine fireLoop_fills pipelineDepth it ops s₀ next (k + 1) _ ?_
          (filled_succ hfilled hdrop hfire) hmore
        rw [← List.tail_drop, hdrop]
        rfl
      · rename_i hfail
        exact .failed k op s hmore hfail hfilled
    · rename_i hdepth
      rw [← hdrop]
      refine .full k s ?_ hfilled
      unfold room at *
      omega

/-! ## An iteration -/

/-- A fire among the first `m` that fails does so with nothing buffered: it is the first, or the
client flushed within the one before. -/
def FailsFlushed (fires : Nat → Worker.Fire) (m : Nat) : Prop :=
  ∀ k < m, (∀ j < k, fires j ≠ .failed) → fires k = .failed →
    k = 0 ∨ fires (k - 1) = .sent true

/-- An iteration that fires `m` requests, flushes them and receives a reply. -/
structure Goes (it : Iteration) (m : Nat) : Prop where
  fires : ∀ k < m, it.fires k ≠ .failed
  flush : it.flush = true
  recv : it.recv.isSome

theorem failsFlushed_of_sent {fires : Nat → Worker.Fire} {m : Nat}
    (h : ∀ k < m, fires k ≠ .failed) : FailsFlushed fires m :=
  fun k hk _ hfail => absurd hfail (h k hk)

theorem failsFlushed_of_le_one {fires : Nat → Worker.Fire} {m : Nat} (h : m ≤ 1) :
    FailsFlushed fires m :=
  fun _ hk _ _ => .inl (by omega)

/-- The first fire that fails decides. -/
theorem failsFlushed_iff {fires : Nat → Worker.Fire} {k m : Nat} (hk : k < m)
    (hsent : ∀ j < k, fires j ≠ .failed) (hfail : fires k = .failed) :
    FailsFlushed fires m ↔ k = 0 ∨ fires (k - 1) = .sent true := by
  refine ⟨fun h => h k hk hsent hfail, fun h k' _ hsent' hfail' => ?_⟩
  have hkk : k' = k := by
    rcases Nat.lt_trichotomy k' k with hlt | heq | hgt
    · exact absurd hfail' (hsent k' hlt)
    · exact heq
    · exact absurd hfail (hsent' k hgt)
  rw [hkk]
  exact h

theorem forgetNewest_length {v : Worker.InFlight} {n : Nat} :
    (v.forgetNewest n).fired.length = v.fired.length - n := by
  simp [Worker.InFlight.forgetNewest]

/-- A fire that fails is counted once, and every request it discards twice. -/
theorem filled_failOne {it : Iteration} {ops : List Op} {s₀ s : Sending} {k : Nat}
    (h : Filled it ops s₀ k s) (hk : k < ops.length) (op : Op) :
    InFlightAligned (s.failOne op k) ∧
      (Settles s₀ (s.failOne op k) ↔ s.client.buffered = []) := by
  have hinflight := h.inflight
  unfold InFlightAligned Client.pendingCount at hinflight
  constructor
  · simp only [InFlightAligned, Sending.failOne, Sending.noteFailedFire, Sending.noteDiscarded,
      forgetNewest_length, Client.pendingCount, Client.discard_wire, Client.discard_buffered,
      List.length_nil]
    omega
  · rw [← List.length_eq_zero_iff]
    simp only [Settles, Sending.failOne, Sending.noteFailedFire, Sending.noteDiscarded,
      Client.pendingCount_sub_discard, h.tried, h.requestsSent, h.sendFailed, List.length_append,
      List.length_take, List.length_singleton, Nat.min_eq_left hk.le]
    omega

theorem filled_flush_fails {it : Iteration} {ops : List Op} {s₀ s : Sending} {m : Nat}
    (h : Filled it ops s₀ m s) (hm : m ≤ ops.length) :
    ∃ s', s.flush m false = some (.error .disconnect, s') ∧ InFlightAligned s' ∧
      Settles s₀ s' := by
  have hinflight := h.inflight
  have hbuffered := h.buffered
  unfold InFlightAligned Client.pendingCount at hinflight
  simp only [Sending.flush, Bool.false_eq_true, if_false, Sending.noteDiscarded,
    Client.pendingCount_sub_discard, hbuffered, if_true]
  refine ⟨_, rfl, ?_, ?_⟩
  · simp only [InFlightAligned, forgetNewest_length, Client.pendingCount, Client.discard_wire,
      Client.discard_buffered, List.length_nil]
    omega
  · simp only [Settles, h.tried, h.requestsSent, h.sendFailed, List.length_append,
      List.length_take, Nat.min_eq_left hm]
    omega

theorem filled_flush {it : Iteration} {ops : List Op} {s₀ s : Sending} {m : Nat}
    (h : Filled it ops s₀ m s) (hm : m ≤ ops.length) :
    ∃ s', s.flush m true = some (.ok (), s') ∧ Steady s' ∧ Settles s₀ s' ∧
      s'.client.wire = s₀.client.outstanding ++ ops.take m ∧
      s'.tried = s₀.tried ++ ops.take m := by
  refine ⟨_, rfl, ⟨?_, rfl⟩, ?_, h.outstanding, h.tried⟩
  · have hinflight := h.inflight
    simpa [InFlightAligned, Client.pendingCount, Client.outstanding] using hinflight
  · simp only [Settles, h.tried, h.requestsSent, h.sendFailed, List.length_append,
      List.length_take, Nat.min_eq_left hm]
    omega

theorem steady_received {s : Sending} {op : Op} {wire : List Op} (h : Steady s)
    (hwire : s.client.wire = op :: wire) :
    Steady s.received ∧ s.received.client.wire = wire := by
  have hinflight := h.inflight
  refine ⟨⟨?_, h.buffered⟩, by simp [Sending.received, Client.reply, hwire]⟩
  simp only [InFlightAligned, Client.pendingCount, hwire, h.buffered, List.length_cons,
    List.length_nil] at hinflight
  simp only [InFlightAligned, Sending.received, Client.reply, Client.pendingCount, hwire,
    h.buffered, Worker.InFlight.pop, List.length_tail, List.tail_cons, List.length_nil]
  omega

/-- What an iteration does from `s₀` with `ops` to fire: it receives a reply to the oldest
operation, or the connection fails. -/
inductive Turns (it : Iteration) (m : Nat) (ops : List Op) (s₀ : Sending) :
    Ran (List Op × Op × OpReply) → Prop
  | answered (op : Op) (reply : OpReply) (s : Sending) (goes : Goes it m)
      (recv : it.recv = some reply) (wire : s₀.client.wire ++ ops.take m = op :: s.client.wire)
      (steady : Steady s) (settles : Settles s₀ s) (tried : s.tried = s₀.tried ++ ops.take m) :
      Turns it m ops s₀ (some (.ok (ops.drop m, op, reply), s))
  | failed (s : Sending) (stops : ¬ Goes it m) (inflight : InFlightAligned s)
      (settles : Settles s₀ s ↔ FailsFlushed it.fires m) :
      Turns it m ops s₀ (some (.error .disconnect, s))

theorem turn_turns {pipelineDepth : Nat} (hdepth : 1 ≤ pipelineDepth) (it : Iteration)
    (ops : List Op) {s₀ : Sending} (h : Steady s₀)
    (hops : 0 < s₀.client.pendingCount + ops.length) :
    Turns it (room pipelineDepth s₀.client.pendingCount ops.length) ops s₀
      (turn pipelineDepth it ops s₀) := by
  have hfills := fireLoop_fills pipelineDepth it ops s₀ ops 0 s₀ rfl (filled_zero h it ops)
    (Nat.zero_le _)
  have hle : room pipelineDepth s₀.client.pendingCount ops.length ≤ ops.length :=
    Nat.min_le_left _ _
  unfold turn
  generalize fireLoop pipelineDepth it ops 0 s₀ = filled at hfills
  cases hfills with
  | failed k op s hroom hfail hfilled =>
    obtain ⟨hinflight, hsettles⟩ := filled_failOne hfilled (hroom.trans_le hle) op
    refine .failed _ (fun hgoes => hgoes.fires k hroom hfail) hinflight ?_
    rw [hsettles, hfilled.flushed, failsFlushed_iff hroom hfilled.sent hfail]
  | full m s hroom hfilled =>
    rw [← hroom] at hle ⊢
    cases hflush : it.flush with
    | false =>
      obtain ⟨s', hs', hinflight, hsettles⟩ := filled_flush_fails hfilled hle
      simp only [hs', Ran.andThen]
      refine .failed s' (fun hgoes => ?_) hinflight
        ⟨fun _ => failsFlushed_of_sent hfilled.sent, fun _ => hsettles⟩
      simp [hgoes.flush] at hflush
    | true =>
      obtain ⟨s', hs', hsteady, hsettles, hwire, htried⟩ := filled_flush hfilled hle
      simp only [hs', Ran.andThen]
      rw [steady_outstanding h] at hwire
      cases hrecv : it.recv with
      | none =>
        have hnone : recvReply it s' = some (.error .disconnect, s') := by
          unfold recvReply
          rw [hrecv]
          split <;> simp_all
        rw [hnone]
        refine .failed s' (fun hgoes => ?_) hsteady.inflight
          ⟨fun _ => failsFlushed_of_sent hfilled.sent, fun _ => hsettles⟩
        have hsome := hgoes.recv
        simp [hrecv] at hsome
      | some reply =>
        -- something is in flight
        obtain ⟨op, wire, hcons⟩ : ∃ op wire, s'.client.wire = op :: wire := by
          apply List.exists_cons_of_length_pos
          rw [hwire, List.length_append, List.length_take, Nat.min_eq_left hle, hroom]
          rw [pendingCount_eq, steady_outstanding h] at hops ⊢
          unfold room
          omega
        obtain ⟨hsteady', hwire'⟩ := steady_received hsteady hcons
        have hsome : recvReply it s' = some (.ok (op, reply), s'.received) := by
          simp [recvReply, hcons, hrecv]
        rw [hsome]
        refine .answered op reply s'.received ⟨hfilled.sent, hflush, by simp [hrecv]⟩ hrecv ?_
          hsteady' hsettles htried
        rw [hwire', ← hwire, hcons]

/-! ## A loop -/

/-- Every iteration goes, from one with `pending` operations in flight and `todo` to fire. -/
def Answered (pipelineDepth : Nat) : Nat → Nat → Nat → (Nat → Iteration) → Prop
  | 0, _, _, _ => True
  | left + 1, pending, todo, its =>
    let m := room pipelineDepth pending todo
    Goes (its 0) m ∧
      Answered pipelineDepth left (pending + m - 1) (todo - m) fun t => its (t + 1)

/-- No iteration that is reached fails a fire with a request buffered. -/
def LoopFlushed (pipelineDepth : Nat) : Nat → Nat → Nat → (Nat → Iteration) → Prop
  | 0, _, _, _ => True
  | left + 1, pending, todo, its =>
    let m := room pipelineDepth pending todo
    FailsFlushed (its 0).fires m ∧
      (Goes (its 0) m →
        LoopFlushed pipelineDepth left (pending + m - 1) (todo - m) fun t => its (t + 1))

/-- The replies to `ops`, each taken by `onReply`. -/
def foldReplies {α : Type} (onReply : Op → OpReply → α → α) :
    List Op → (Nat → Iteration) → α → α
  | [], _, acc => acc
  | op :: ops, its, acc =>
    foldReplies onReply ops (fun t => its (t + 1))
      ((its 0).recv.elim acc fun reply => onReply op reply acc)

/-- What a loop does from `s₀` with `next` to fire, the operations in flight and these to be
done: it does them all, in order, or the connection fails. -/
inductive Loops {α : Type} (pipelineDepth : Nat) (onReply : Op → OpReply → α → α) (left : Nat)
    (its : Nat → Iteration) (next : List Op) (s₀ : Sending) (acc : α) : Ran α → Prop
  | done (s : Sending)
      (answered : Answered pipelineDepth left s₀.client.pendingCount next.length its)
      (steady : Steady s) (idle : s.client.wire = []) (settles : Settles s₀ s)
      (flushed : LoopFlushed pipelineDepth left s₀.client.pendingCount next.length its)
      (tried : s.tried = s₀.tried ++ next) :
      Loops pipelineDepth onReply left its next s₀ acc
        (some (.ok (foldReplies onReply (s₀.client.wire ++ next) its acc), s))
  | failed (s : Sending)
      (stops : ¬ Answered pipelineDepth left s₀.client.pendingCount next.length its)
      (inflight : InFlightAligned s)
      (settles : Settles s₀ s ↔
        LoopFlushed pipelineDepth left s₀.client.pendingCount next.length its) :
      Loops pipelineDepth onReply left its next s₀ acc (some (.error .disconnect, s))

theorem opLoop_loops {α : Type} {pipelineDepth : Nat} (hdepth : 1 ≤ pipelineDepth)
    (onReply : Op → OpReply → α → α) :
    ∀ (left : Nat) (its : Nat → Iteration) (next : List Op) (s₀ : Sending) (acc : α),
      Steady s₀ → s₀.client.wire.length + next.length = left →
      Loops pipelineDepth onReply left its next s₀ acc
        (opLoop pipelineDepth onReply left its next s₀ acc)
  | 0, its, next, s₀, acc, h, hleft => by
    obtain ⟨hwire, hnext⟩ := Nat.add_eq_zero_iff.mp hleft
    rw [List.length_eq_zero_iff] at hwire hnext
    subst hnext
    have hdone : Loops pipelineDepth onReply 0 its [] s₀ acc
        (some (.ok (foldReplies onReply (s₀.client.wire ++ []) its acc), s₀)) :=
      .done s₀ trivial h hwire rfl trivial (List.append_nil _).symm
    rw [hwire] at hdone
    exact hdone
  | left + 1, its, next, s₀, acc, h, hleft => by
    have hpending : s₀.client.pendingCount = s₀.client.wire.length := by
      simp [Client.pendingCount, h.buffered]
    have hturns := turn_turns hdepth (its 0) next h (by omega)
    rw [opLoop]
    generalize turn pipelineDepth (its 0) next s₀ = turned at hturns
    cases hturns with
    | failed s hstops hinflight hsettles =>
      refine .failed s (fun hanswered => hstops hanswered.1) hinflight ?_
      rw [hsettles]
      exact ⟨fun hflushed => ⟨hflushed, fun hgoes => absurd hgoes hstops⟩, fun hall => hall.1⟩
    | answered op reply s hgoes hrecv hwire hsteady hsettles htried =>
      have hm : room pipelineDepth s₀.client.pendingCount next.length ≤ next.length :=
        Nat.min_le_left _ _
      have hlen := congrArg List.length hwire
      simp only [List.length_append, List.length_take, List.length_cons] at hlen
      have hpending' : s.client.pendingCount = s₀.client.pendingCount +
          room pipelineDepth s₀.client.pendingCount next.length - 1 := by
        rw [pendingCount_eq s.client, steady_outstanding hsteady]
        omega
      have hrest := opLoop_loops hdepth onReply left (fun t => its (t + 1))
        (next.drop (room pipelineDepth s₀.client.pendingCount next.length)) s
        (onReply op reply acc) hsteady (by rw [List.length_drop]; omega)
      have hops : s₀.client.wire ++ next = op :: (s.client.wire ++
          next.drop (room pipelineDepth s₀.client.pendingCount next.length)) := by
        rw [← List.cons_append, ← hwire, List.append_assoc, List.take_append_drop]
      simp only [Ran.andThen]
      generalize opLoop pipelineDepth onReply left _ _ s _ = rest at hrest
      have hflushed := failsFlushed_of_sent hgoes.fires
      cases hrest with
      | failed s' hstops hinflight hsettles' =>
        rw [hpending', List.length_drop] at hstops hsettles'
        refine .failed s' (fun hanswered => hstops hanswered.2) hinflight ?_
        rw [settles_trans hsettles, hsettles']
        exact ⟨fun hloop => ⟨hflushed, fun _ => hloop⟩, fun hall => hall.2 hgoes⟩
      | done s' hanswered hsteady' hidle hsettles' hloop htried' =>
        rw [hpending', List.length_drop] at hanswered hloop
        have hfold : foldReplies onReply (s₀.client.wire ++ next) its acc =
            foldReplies onReply (s.client.wire ++
              next.drop (room pipelineDepth s₀.client.pendingCount next.length))
              (fun t => its (t + 1)) (onReply op reply acc) := by
          rw [hops, foldReplies, hrecv]
          rfl
        rw [← hfold]
        refine .done s' ⟨hgoes, hanswered⟩ hsteady' hidle ((settles_trans hsettles).mpr hsettles')
          ⟨hflushed, fun _ => hloop⟩ ?_
        rw [htried', htried, List.append_assoc, List.take_append_drop]

/-- With the pipeline full, or nothing to fire, an iteration fires one request at most. -/
theorem loopFlushed_full (pipelineDepth : Nat) :
    ∀ (left pending todo : Nat) (its : Nat → Iteration), pipelineDepth ≤ pending + 1 ∨ todo = 0 →
      LoopFlushed pipelineDepth left pending todo its
  | 0, _, _, _, _ => trivial
  | left + 1, pending, todo, its, hfull => by
    refine ⟨failsFlushed_of_le_one ?_, fun _ => loopFlushed_full pipelineDepth left _ _ _ ?_⟩
    · unfold room
      omega
    · unfold room
      omega

/-- **Only the first iteration of a loop can fail a fire with a request buffered.** -/
theorem loopFlushed_start {pipelineDepth : Nat} (n : Nat) (its : Nat → Iteration) :
    LoopFlushed pipelineDepth n 0 n its ↔ FailsFlushed (its 0).fires (min n pipelineDepth) := by
  cases n with
  | zero => exact ⟨fun _ => failsFlushed_of_le_one (by omega), fun _ => trivial⟩
  | succ n =>
    refine ⟨fun h => h.1, fun h => ⟨h, fun _ => loopFlushed_full pipelineDepth n _ _ _ ?_⟩⟩
    unfold room
    omega

/-- A loop from an idle connection. -/
theorem opLoop_start {α : Type} {pipelineDepth : Nat} (hdepth : 1 ≤ pipelineDepth)
    (onReply : Op → OpReply → α → α) (its : Nat → Iteration) (ops : List Op) {s₀ : Sending}
    (h : Steady s₀) (hidle : s₀.client.wire = []) (acc : α) :
    Loops pipelineDepth onReply ops.length its ops s₀ acc
      (opLoop pipelineDepth onReply ops.length its ops s₀ acc) :=
  opLoop_loops hdepth onReply ops.length its ops s₀ acc h (by simp [hidle])

end KvReplay
