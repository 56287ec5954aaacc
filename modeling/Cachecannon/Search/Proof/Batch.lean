import Cachecannon.Search.Proof.Load
import Mathlib.Data.Bool.AllAny

/-!
# The batches of the load

A batch is one send. What it is on the wire is within the byte budget (`batch_fits`), although the
load works with an estimate of a row's bytes: the estimate is never too low (`hset_fits`). A row is
sent once, in order.
-/

namespace Search

theorem length_docKey {i : Nat} (h : i < 2 ^ 64) : (docKey i).length ≤ 24 := by
  have hprefix : ∀ c ∈ keyPrefix, c.toNat < 128 :=
    List.all_iff_forall_prop.1 (by decide)
  have hascii : ∀ c ∈ keyPrefix ++ Nat.toDigits 10 i, c.toNat < 128 := by
    intro c hc
    rcases List.mem_append.1 hc with hc | hc
    · exact hprefix c hc
    · exact Worker.ascii_of_mem_toDigits (by decide) (by decide) hc
  have hdigits : (Nat.toDigits 10 i).length ≤ 20 :=
    Codec.length_digits_le (by decide) (h.trans_le (by decide))
  rw [docKey, Text.encode_ascii hascii, List.length_map, List.length_append]
  exact Nat.add_le_add_left hdigits 4

theorem length_blob (train : Train) {i : Nat} (hi : i < train.rows.length) :
    (f32LeBlob (train.rows.getD i [])).length = 4 * train.ncols := by
  have hrow : train.rows.getD i [] = train.rows[i] := by simp [hi]
  rw [f32LeBlob, Codec.length_word32_stream, hrow, train.length_row _ (List.getElem_mem hi)]

/-- **The estimate of a row's bytes** is never too low. -/
theorem hset_fits {train : Train} {i : Nat} (hi : i < train.rows.length)
    (hrows : train.rows.length ≤ 2 ^ 64) (hcost : rowCost train ≤ loadBatchByteBudget) :
    (Codec.command.encode (hsetRequest train i)).length ≤ rowCost train := by
  have hkey := length_docKey (hi.trans_le hrows)
  have hblob := length_blob train hi
  have hcols : 4 * train.ncols < 10 ^ 6 := by
    unfold rowCost loadBatchByteBudget at hcost
    omega
  have hkeyDigits : (Nat.toDigits 10 (docKey i).length).length ≤ 2 :=
    Codec.length_digits_le (by decide) (hkey.trans_lt (by decide))
  have hblobDigits : (Nat.toDigits 10 (4 * train.ncols)).length ≤ 6 :=
    Codec.length_digits_le (by decide) hcols
  have hname : (bytes "HSET").length = 4 := by decide
  have hfield : vectorField.length = 3 := by decide
  have hprefix : prefixBytes.length = 4 := by decide
  have hdigits : ∀ n ∈ [3, 4], (Nat.toDigits 10 n).length = 1 := by decide
  rw [Codec.length_command, rowCost, hprefix, hsetOverheadBytes]
  simp only [hsetRequest, List.length_cons, List.length_nil, List.map_cons, List.map_nil,
    List.sum_cons, List.sum_nil, hname, hfield, hblob, hdigits 3 (by simp), hdigits 4 (by simp)]
  omega

theorem length_flatMap_le {α : Type} {f : α → List UInt8} {cost : Nat} {l : List α}
    (h : ∀ a ∈ l, (f a).length ≤ cost) : (l.flatMap f).length ≤ l.length * cost := by
  induction l with
  | nil => exact Nat.zero_le _
  | cons a l ih =>
    obtain ⟨ha, hl⟩ := List.forall_mem_cons.1 h
    have := ih hl
    rw [List.flatMap_cons, List.length_append, List.length_cons, Nat.succ_mul]
    omega

variable {server : Server} {link : Nat → Link} {job : LoadJob} {s : Session}

def LoadJob.batchBytes (job : LoadJob) (row : Nat) : List UInt8 :=
  ((job.batchAt row).map (hsetRequest job.train)).flatMap Codec.command.encode

theorem length_batchAt_le (row : Nat) : (job.batchAt row).length ≤ job.batch := by
  rw [LoadJob.batchAt, List.length_range']
  omega

theorem readCommands_batch (job : LoadJob) (row : Nat) :
    readCommands (job.batchBytes row) = (job.batchAt row).map (hsetRequest job.train) :=
  readCommands_stream _

/-- A batch on the wire is within the budget. -/
theorem batch_fits (hrows : job.train.rows.length ≤ 2 ^ 64)
    (hcost : rowCost job.train ≤ loadBatchByteBudget) (row : Nat) :
    (job.batchBytes row).length ≤ loadBatchByteBudget := by
  have hpos : 0 < rowCost job.train := by
    unfold rowCost hsetOverheadBytes
    omega
  have hone : 1 ≤ loadBatchByteBudget / rowCost job.train := (Nat.one_le_div_iff hpos).2 hcost
  have hbatch : job.batch ≤ loadBatchByteBudget / rowCost job.train := by
    unfold LoadJob.batch
    omega
  have hwire : ∀ request ∈ (job.batchAt row).map (hsetRequest job.train),
      (Codec.command.encode request).length ≤ rowCost job.train := by
    intro request hmem
    obtain ⟨i, hi, rfl⟩ := List.mem_map.1 hmem
    exact hset_fits (mem_batchAt.1 hi).2.2 hrows hcost
  have hlen := length_flatMap_le hwire
  rw [List.length_map] at hlen
  calc (job.batchBytes row).length
      ≤ (job.batchAt row).length * rowCost job.train := hlen
    _ ≤ loadBatchByteBudget / rowCost job.train * rowCost job.train :=
        Nat.mul_le_mul_right _ ((length_batchAt_le row).trans hbatch)
    _ ≤ loadBatchByteBudget := Nat.div_mul_le_self _ _

/-- What the load sends from `row` on: the rows up to some row, all if it succeeds. -/
structure Sends (job : LoadJob) (row : Nat) (batches : List (List UInt8)) (stop : Nat) : Prop where
  stop_le : row ≤ stop ∧ stop ≤ max row job.train.rows.length
  commands : batches.flatMap readCommands =
    (List.range' row (stop - row)).map (hsetRequest job.train)
  each : ∀ batch ∈ batches, ∃ row < job.train.rows.length, batch = job.batchBytes row

theorem Sends.append {batch : List UInt8} {batches : List (List UInt8)} {row mid stop : Nat}
    (h : Sends job row [batch] mid) (hrest : Sends job mid batches stop)
    (hmid : mid ≤ job.train.rows.length) : Sends job row (batch :: batches) stop where
  stop_le := by
    have := h.stop_le
    have := hrest.stop_le
    omega
  commands := by
    have hfirst := h.commands
    rw [List.flatMap_cons, List.flatMap_nil, List.append_nil] at hfirst
    rw [List.flatMap_cons, hfirst, hrest.commands, ← List.map_append]
    have hstart := h.stop_le
    have hstop := hrest.stop_le
    have hrange := List.range'_append_1 (s := row) (m := mid - row) (n := stop - mid)
    have hlen : mid - row + (stop - mid) = stop - row := by omega
    rw [Nat.add_sub_cancel' hstart.1, hlen] at hrange
    rw [hrange]
  each := List.forall_mem_cons.2 ⟨h.each batch List.mem_cons_self, hrest.each⟩

theorem loadRows_sends (server : Server) (link : Nat → Link) (job : LoadJob) (s : Session)
    (fuel row : Nat) (hfuel : job.train.rows.length ≤ fuel + row) :
    ∃ batches stop, (loadRows server link job fuel row s).1.sent = s.sent ++ batches ∧
      Sends job row batches stop ∧
      ((loadRows server link job fuel row s).2 = .ok () → job.train.rows.length ≤ stop) := by
  have hnone : ∀ row, Sends job row [] row := fun row =>
    ⟨⟨le_rfl, le_max_left _ _⟩, by simp, fun batch hmem => by cases hmem⟩
  induction fuel generalizing row s with
  | zero => exact ⟨[], row, by simp [loadRows], hnone row, fun _ => by omega⟩
  | succ fuel ih =>
    rw [loadRows]
    split
    · rename_i hrow
      have hbatch := job.batch_pos
      have hsent : (server.roundTrip link
          ((job.batchAt row).map (hsetRequest job.train)) s).1.sent =
            s.sent ++ [job.batchBytes row] := roundTrip_sent _
      have hread := readCommands_batch job row
      -- the batch alone, where nothing follows it
      have hlast : Sends job row [job.batchBytes row]
          (min (row + job.batch) job.train.rows.length) :=
        ⟨⟨by omega, by omega⟩, by simp [hread, LoadJob.batchAt], by
          simpa using ⟨row, hrow, rfl⟩⟩
      rw [LoadJob.batchAt] at hsent
      dsimp only
      generalize server.roundTrip link _ s = out at hsent
      split
      · exact ⟨_, _, hsent, hlast, fun h => (by cases h)⟩
      · split
        · exact ⟨_, _, hsent, hlast, fun h => (by cases h)⟩
        · obtain ⟨batches, stop, hsends, hrest, hok⟩ := ih _
            (min (row + job.batch) job.train.rows.length) (by omega)
          refine ⟨_, stop, hsends.trans ?_, hlast.append hrest (min_le_right _ _), hok⟩
          rw [hsent, List.append_assoc]
          rfl
    · exact ⟨[], row, by simp, hnone row, fun _ => by omega⟩

/-- **The load on the wire.** Whatever the server replies and whenever the connection breaks, the
estimate of a row's bytes is never too low where a row may be sent, so each send is within the byte
budget; it carries a batch of one row to `batch` rows. Together the sends are the commands of the
rows in order, each row once, up to some row, and up to the last one if the load succeeds. -/
theorem load_sends (server : Server) (link : Nat → Link) (job : LoadJob) (s : Session)
    (hrows : job.train.rows.length ≤ 2 ^ 64) :
    (rowCost job.train ≤ loadBatchByteBudget → ∀ i < job.train.rows.length,
      (Codec.command.encode (hsetRequest job.train i)).length ≤ rowCost job.train) ∧
    ∃ batches stop, (loadPhase server link job s).1.sent = s.sent ++ batches ∧
      stop ≤ job.train.rows.length ∧
      batches.flatMap readCommands = (List.range stop).map (hsetRequest job.train) ∧
      (∀ batch ∈ batches, batch.length ≤ loadBatchByteBudget ∧ readCommands batch ≠ [] ∧
        (readCommands batch).length ≤ max job.loadBatch 1) ∧
      ((loadPhase server link job s).2 = .ok () → stop = job.train.rows.length) := by
  refine ⟨fun hcost i hi => hset_fits hi hrows hcost, ?_⟩
  unfold loadPhase
  dsimp only
  split
  · exact ⟨[], 0, by simp, Nat.zero_le _, rfl, fun batch hmem => (by cases hmem),
      fun h => (by cases h)⟩
  · rename_i hcost
    obtain ⟨batches, stop, hsent, hsends, hok⟩ :=
      loadRows_sends server link job s job.train.rows.length 0 (Nat.le_add_right _ _)
    have hstop : stop ≤ job.train.rows.length := by simpa using hsends.stop_le.2
    refine ⟨batches, stop, hsent, hstop, ?_, fun batch hmem => ?_, fun h => ?_⟩
    · rw [hsends.commands, List.range_eq_range', Nat.sub_zero]
    · obtain ⟨row, hrow, rfl⟩ := hsends.each batch hmem
      refine ⟨batch_fits hrows (Nat.le_of_not_lt hcost) row, ?_, ?_⟩
      · have hmem : row ∈ job.batchAt row :=
          mem_batchAt.2 ⟨le_rfl, Nat.lt_add_of_pos_right job.batch_pos, hrow⟩
        rw [readCommands_batch, Ne, List.map_eq_nil_iff]
        exact List.ne_nil_of_mem hmem
      · rw [readCommands_batch, List.length_map]
        exact (length_batchAt_le row).trans (min_le_left _ _)
    · exact le_antisymm hstop (hok h)

/-- Two rows, one in each send. -/
theorem load_sends_oneColumn : ∃ batches,
    (loadPhase smallServer (fun _ => .up) oneColumn staleSession).1.sent = batches ∧
      batches.flatMap readCommands =
        [hsetRequest oneColumn.train 0, hsetRequest oneColumn.train 1] ∧
      (∀ batch ∈ batches, batch.length ≤ 262144 ∧ (readCommands batch).length ≤ 1) ∧
      (Codec.command.encode (hsetRequest oneColumn.train 1)).length ≤ 92 := by
  have hok : (loadPhase smallServer (fun _ => .up) oneColumn staleSession).2.toBool = true := by
    decide +kernel
  obtain ⟨hestimate, batches, stop, hsent, -, hcommands, hfits, hall⟩ :=
    load_sends smallServer (fun _ => .up) oneColumn staleSession (by decide)
  have hstop : stop = 2 := by
    cases hresult : (loadPhase smallServer (fun _ => .up) oneColumn staleSession).2 with
    | error e =>
      rw [hresult] at hok
      cases hok
    | ok value => exact hall hresult
  rw [hstop] at hcommands
  refine ⟨batches, hsent, hcommands, fun batch hmem => ?_, hestimate (by decide) 1 (by decide)⟩
  exact ⟨(hfits batch hmem).1, (hfits batch hmem).2.2⟩

end Search
