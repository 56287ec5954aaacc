import Cachecannon.Worker.Proof.Append
import Mathlib.Order.Interval.Set.Defs

/-!
# What a draw from the head can return

A draw never asks for an empty range (`trySample_eq`). Generation `a` covers the batch of ids that
ends `a` batches below the head, clipped at 0 (`covers_eq`); the body lies below all generations,
and one more batch turns each generation into the next older one.
-/

namespace Worker

variable {r : Recency} {head : Nat} {draw : RecencyDraw}

theorem tryRandomRange_eq {lo hi : Nat} (offset : Nat) (h : lo < hi) :
    tryRandomRange lo hi offset = some (randomRange lo hi offset) := if_pos h

theorem le_randomRange (lo hi offset : Nat) : lo ≤ randomRange lo hi offset :=
  Nat.le_add_right lo _

/-- Every range that is asked for has an element. -/
theorem Recency.trySample_eq (r : Recency) (head : Nat) (draw : RecencyDraw) :
    r.trySample head draw = some (r.sample head draw) := by
  unfold Recency.trySample Recency.sample
  split
  · rfl
  · rename_i hhead
    have hall := tryRandomRange_eq (draw.offset) (Nat.pos_of_ne_zero hhead)
    dsimp only [Recency.sampleGeneration]
    split
    · split
      · exact tryRandomRange_eq _ ‹_›
      · exact hall
    · split
      · exact hall
      · exact tryRandomRange_eq _ (Nat.pos_of_ne_zero ‹_›)

/-- `generations * batch` fits in a `usize`, and there is a generation. -/
structure Recency.Fits (r : Recency) : Prop where
  batch : 1 ≤ r.batch
  generations : 1 ≤ r.generations
  span : r.generations * r.batch < 2 ^ 64

theorem Recency.sampleGeneration_lt (hr : r.Fits) (draw : RecencyDraw) :
    r.sampleGeneration draw < r.generations := by
  have hpos := hr.generations
  rw [Recency.sampleGeneration]
  omega

/-- No product wraps. -/
theorem Recency.Fits.mul_mod (hr : r.Fits) {a : Nat} (ha : a ≤ r.generations) :
    a * r.batch % 2 ^ 64 = a * r.batch := by
  have hle : a * r.batch ≤ r.generations * r.batch := Nat.mul_le_mul_right _ ha
  exact Nat.mod_eq_of_lt (hle.trans_lt hr.span)

theorem Recency.sample_hot (hr : r.Fits) (hhot : draw.hot = true)
    (hhead : r.sampleGeneration draw * r.batch < head) :
    r.sample head draw = randomRange (head - (r.sampleGeneration draw + 1) * r.batch)
      (head - r.sampleGeneration draw * r.batch) draw.offset := by
  have ha := Recency.sampleGeneration_lt hr draw
  have hbatch := hr.batch
  have hlt : head - (r.sampleGeneration draw + 1) * r.batch <
      head - r.sampleGeneration draw * r.batch := by
    rw [Nat.add_mul]
    omega
  have hgen : min draw.point (r.generations - 1) = r.sampleGeneration draw := rfl
  rw [Recency.sample, if_neg (by omega)]
  simp only [hgen, hr.mul_mod ha, hr.mul_mod ha.le]
  rw [if_pos hhot, if_pos hlt]

theorem Recency.sample_body (hr : r.Fits) (hbody : draw.hot = false)
    (hhead : r.generations * r.batch < head) :
    r.sample head draw = randomRange 0 (head - r.generations * r.batch) draw.offset := by
  have hspan : min (r.generations * r.batch) (2 ^ 64 - 1) = r.generations * r.batch :=
    min_eq_left (Nat.le_sub_one_of_lt hr.span)
  rw [Recency.sample, if_neg (by omega)]
  dsimp only
  rw [hbody, hspan, if_neg Bool.false_ne_true, if_neg (by omega)]

/-- The ids that hot draws of generation `a` return, where it is not clipped to nothing. -/
def Recency.covers (r : Recency) (head a : Nat) : Set Nat :=
  {id | a * r.batch < head ∧ ∃ draw : RecencyDraw, draw.hot = true ∧
    r.sampleGeneration draw = a ∧ r.trySample head draw = some id}

theorem Recency.covers_eq (hr : r.Fits) {a : Nat} (ha : a < r.generations) (head : Nat) :
    r.covers head a = Set.Ico (head - (a + 1) * r.batch) (head - a * r.batch) := by
  have hbatch := hr.batch
  have hnext : (a + 1) * r.batch = a * r.batch + r.batch := by rw [Nat.add_mul, Nat.one_mul]
  ext id
  constructor
  · rintro ⟨hhead, draw, hhot, rfl, hsample⟩
    rw [Recency.trySample_eq, Recency.sample_hot hr hhot hhead, Option.some.injEq] at hsample
    rw [← hsample]
    exact ⟨le_randomRange _ _ _, randomRange_lt (by omega)⟩
  · rintro ⟨hlo, hhi⟩
    -- the draw of this generation at the id's own offset
    let draw : RecencyDraw := ⟨true, a, id - (head - (a + 1) * r.batch)⟩
    have hgen : r.sampleGeneration draw = a := by
      show min a (r.generations - 1) = a
      omega
    have hhead : a * r.batch < head := by omega
    refine ⟨hhead, draw, rfl, hgen, ?_⟩
    rw [Recency.trySample_eq, Recency.sample_hot hr rfl (by rw [hgen]; exact hhead), hgen,
      randomRange]
    show some (head - (a + 1) * r.batch + (id - (head - (a + 1) * r.batch)) % _) = some id
    rw [Nat.mod_eq_of_lt (by omega), Nat.add_sub_cancel' hlo]

/-- **What a draw returns.** An id below the head, of the generation drawn or of the body; and the
ids of a generation are those of the next older one after one more batch. -/
theorem recency_ranges (hr : r.Fits) (hhead : 1 ≤ head) :
    (∀ draw, ∃ id, r.trySample head draw = some id ∧ id < head ∧
      (draw.hot = true → r.sampleGeneration draw * r.batch < head →
        head - (r.sampleGeneration draw + 1) * r.batch ≤ id ∧
        id < head - r.sampleGeneration draw * r.batch) ∧
      (draw.hot = false → r.generations * r.batch < head →
        id < head - r.generations * r.batch)) ∧
    (∀ a draw id, a < r.generations → r.generations * r.batch < head → draw.hot = false →
      r.trySample head draw = some id → id ∉ r.covers head a) ∧
    ∀ k a, a + 1 < r.generations →
      r.covers (head + (k + 1) * r.batch) (a + 1) = r.covers (head + k * r.batch) a := by
  refine ⟨fun draw => ⟨_, Recency.trySample_eq r head draw, Recency.sample_lt r hhead draw,
    fun hhot hclip => ?_, fun hbody hspan => ?_⟩, ?_, ?_⟩
  · rw [Recency.sample_hot hr hhot hclip]
    have hbatch := hr.batch
    have hnext : (r.sampleGeneration draw + 1) * r.batch =
        r.sampleGeneration draw * r.batch + r.batch := by rw [Nat.add_mul, Nat.one_mul]
    exact ⟨le_randomRange _ _ _, randomRange_lt (by omega)⟩
  · rw [Recency.sample_body hr hbody hspan]
    exact randomRange_lt (by omega)
  · intro a draw id ha hspan hbody hsample hcovers
    rw [Recency.trySample_eq, Recency.sample_body hr hbody hspan, Option.some.injEq] at hsample
    have hbelow : randomRange 0 (head - r.generations * r.batch) draw.offset <
        head - r.generations * r.batch := randomRange_lt (Nat.sub_pos_of_lt hspan)
    rw [hsample] at hbelow
    rw [Recency.covers_eq hr ha] at hcovers
    have hoff : (a + 1) * r.batch ≤ r.generations * r.batch := Nat.mul_le_mul_right _ ha
    have hlo := hcovers.1
    omega
  · intro k a ha
    rw [Recency.covers_eq hr ha, Recency.covers_eq hr (Nat.lt_of_succ_lt ha)]
    have hgrow : head + (k + 1) * r.batch = head + k * r.batch + r.batch := by
      rw [Nat.add_mul, Nat.one_mul, Nat.add_assoc]
    have holder (n : Nat) : (n + 1) * r.batch = n * r.batch + r.batch := by
      rw [Nat.add_mul, Nat.one_mul]
    rw [hgrow, holder (a + 1), holder a, Nat.add_sub_add_right, Nat.add_sub_add_right]

/-- Two generations of 100 ids, with 250 keys and then 350. -/
theorem recency_ranges_clipped :
    Recency.Fits ⟨100, 2⟩ ∧ 1 ≤ 150 ∧
      Recency.covers ⟨100, 2⟩ (150 + (1 + 1) * 100) (0 + 1) =
        Recency.covers ⟨100, 2⟩ (150 + 1 * 100) 0 :=
  have hfits : Recency.Fits ⟨100, 2⟩ := ⟨by decide, by decide, by decide⟩
  ⟨hfits, by decide, (recency_ranges hfits (by decide)).2.2 1 0 (by decide)⟩

end Worker
