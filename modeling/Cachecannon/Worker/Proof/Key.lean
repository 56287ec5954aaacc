import Cachecannon.Config.Validate
import Cachecannon.Worker.Key
import Cachecannon.Worker.Proof.Append
import Mathlib.Data.Finset.Card

/-!
# Distinct ids and distinct keys

`write_key` keeps as many low hex digits of an id as the buffer has places for
(`writeDigits_eq_iff`). A UUID has places for all digits of a `usize`, but `Config::validate` does
not compare the number of ids with the places of a `hex` key: the keys of a run are distinct exactly
when there are enough of them (`keys_distinct_iff`).
-/

namespace Worker

open Config (KeyFormat)

/-! ## The digits written -/

/-- The places of a buffer that get a digit. -/
def digitCount (dash : Nat → Bool) (len : Nat) : Nat := (List.range len).countP (!dash ·)

theorem digitCount_succ (dash : Nat → Bool) (len : Nat) :
    digitCount dash (len + 1) = digitCount dash len + if dash len then 0 else 1 := by
  simp only [digitCount, List.range_succ, List.countP_append, List.countP_singleton]
  cases dash len <;> rfl

theorem hexDigit_inj {a b : Nat} (ha : a < 16) (hb : b < 16) (h : hexDigit a = hexDigit b) :
    a = b := by
  have hall : ∀ a < 16, ∀ b < 16, hexDigit a = hexDigit b → a = b := by decide
  exact hall a ha b hb h

/-- Ids agree below a factor and a power exactly when they agree below the factor, and without that
digit below the power. -/
theorem mod_mul_eq_iff (a b m n : Nat) (hm : 0 < m) :
    a % (m * n) = b % (m * n) ↔ a / m % n = b / m % n ∧ a % m = b % m := by
  rw [Nat.mod_mul, Nat.mod_mul]
  constructor
  · intro h
    have hlow : a % m = b % m := by
      have := congrArg (· % m) h
      simpa [Nat.add_mul_mod_self_left] using this
    rw [hlow] at h
    exact ⟨Nat.eq_of_mul_eq_mul_left hm (Nat.add_left_cancel h), hlow⟩
  · rintro ⟨hhigh, hlow⟩
    rw [hhigh, hlow]

/-- **The buffer holds the low digits of an id**, and nothing else of it. -/
theorem writeDigits_eq_iff (dash : Nat → Bool) (len a b : Nat) :
    writeDigits dash len a = writeDigits dash len b ↔
      a % 16 ^ digitCount dash len = b % 16 ^ digitCount dash len := by
  -- the last place is written first, so the induction peels the low digit
  induction len generalizing a b with
  | zero => simp [writeDigits, digitCount, Nat.mod_one]
  | succ len ih =>
    rw [digitCount_succ, writeDigits, writeDigits]
    cases dash len with
    | true => simpa using ih a b
    | false =>
      simp only [Bool.false_eq_true, if_false]
      rw [List.append_singleton_inj, ih, pow_succ', mod_mul_eq_iff _ _ _ _ (by decide)]
      refine and_congr_right fun _ => ⟨fun h => ?_, fun h => by rw [h]⟩
      exact hexDigit_inj (Nat.mod_lt _ (by decide)) (Nat.mod_lt _ (by decide)) h

theorem writeKey_hex_eq_iff (length a b : Nat) :
    writeKey .hex length a = writeKey .hex length b ↔ a % 16 ^ length = b % 16 ^ length := by
  have hplaces : digitCount (fun _ => false) length = length := by simp [digitCount]
  have h := writeDigits_eq_iff (fun _ => false) length a b
  rw [hplaces] at h
  simpa [writeKey] using h

theorem writeKey_uuid_eq_iff {a b : Nat} (ha : a < 2 ^ 64) (hb : b < 2 ^ 64) :
    writeKey .uuid 36 a = writeKey .uuid 36 b ↔ a = b := by
  have hplaces : digitCount uuidDash 36 = 32 := by decide
  have hfits : (2 : Nat) ^ 64 ≤ 16 ^ 32 := by decide
  have h := writeDigits_eq_iff uuidDash 36 a b
  rw [hplaces, Nat.mod_eq_of_lt (by omega), Nat.mod_eq_of_lt (by omega)] at h
  simpa [writeKey] using h

/-! ## The ids of a run -/

/-- The number of ids that a run has used when its append stream has opened `batches` batches: the
keyspace, and the ids that follow it. -/
def idCount (cfg : Config) (batches : Nat) : Nat :=
  cfg.workload.keyspace.count + cfg.workload.append.elim 0 fun append => append.batch * batches

/-- The ids of the keyspace and those that the append stream has in its queues, at its writers or
confirmed are the ids below `idCount`. -/
theorem appended_ids {E C W : Type} [Fintype E] [Fintype C] [DecidableEq E] [DecidableEq C]
    [DecidableEq W] (cfg : Config) (append : Config.Append)
    (happend : cfg.workload.append = some append) (stream : AppendConfig E C W)
    (hcount : stream.keyCount = cfg.workload.keyspace.count) (hbatch : stream.batch = append.batch)
    (es : List (AppendStep E C)) (s : AppendState E C W)
    (hrun : Exec.run (appendStep stream) (.init stream) es = some s) (hidle : s.enqueuing = none)
    (id : Nat) :
    id < cfg.workload.keyspace.count ∨ 0 < Worker.total s.toWriteState id ↔
      id < idCount cfg s.batches.length := by
  have h : AppendInv stream s := Exec.run_inv appendStep_inv (init_appendInv stream) hrun
  rw [h.total_eq, List.count_pos_iff, AppendState.appended, List.mem_range'_1]
  simp only [AppendState.enqueued, hidle, idCount, happend, hcount, hbatch, Option.map_none,
    Option.getD_none, List.length_nil, Option.elim_some]
  omega

/-- The number of distinct keys that the ids of a run are written as. -/
def distinctKeys (cfg : Config) (batches : Nat) : Nat :=
  ((Finset.range (idCount cfg batches)).image
    (writeKey cfg.workload.keyspace.format cfg.workload.keyspace.length)).card

/-- Low digits are distinct on an initial segment exactly when it is no longer than there are
digits. -/
theorem injOn_mod_iff (f : Nat → List UInt8) (m n : Nat) (hm : 0 < m)
    (hf : ∀ a b, f a = f b ↔ a % m = b % m) :
    Set.InjOn f (Finset.range n) ↔ n ≤ m := by
  constructor
  · intro hinj
    by_contra hlt
    have hmem : m ∈ Finset.range n := Finset.mem_range.2 (by omega)
    have hzero : 0 ∈ Finset.range n := Finset.mem_range.2 (by omega)
    have : m = 0 := hinj hmem hzero ((hf m 0).2 (by simp))
    omega
  · intro hle a ha b hb hab
    have ha : a < n := Finset.mem_range.1 ha
    have hb : b < n := Finset.mem_range.1 hb
    have := (hf a b).1 hab
    rwa [Nat.mod_eq_of_lt (by omega), Nat.mod_eq_of_lt (by omega)] at this

theorem injOn_keys_iff {fmt : Config.F64Format} {cfg : Config} {dmaFeature : Bool}
    (h : cfg.validate fmt dmaFeature = .ok ()) {batches : Nat}
    (hids : idCount cfg batches ≤ 2 ^ 64) :
    Set.InjOn (writeKey cfg.workload.keyspace.format cfg.workload.keyspace.length)
        (Finset.range (idCount cfg batches)) ↔
      cfg.workload.keyspace.format = .uuid ∨
        idCount cfg batches ≤ 16 ^ cfg.workload.keyspace.length := by
  cases hformat : cfg.workload.keyspace.format with
  | hex =>
    rw [injOn_mod_iff _ _ _ (Nat.pow_pos (by decide)) (writeKey_hex_eq_iff _)]
    simp
  | uuid =>
    rw [Config.accepted_uuid h hformat]
    refine ⟨fun _ => .inl rfl, fun _ a ha b hb hab => ?_⟩
    have ha : a < idCount cfg batches := Finset.mem_range.1 ha
    have hb : b < idCount cfg batches := Finset.mem_range.1 hb
    exact (writeKey_uuid_eq_iff (by omega) (by omega)).1 hab

/-- **Distinct ids have distinct keys exactly when the keys are long enough.** A `hex` key tells
ids apart modulo `16 ^ length`, a UUID tells all ids apart. In a run of an accepted configuration
no two ids share a key, and there are as many keys as ids, exactly with UUIDs or with no more ids
than there are keys of that length. The ids are those of the keyspace and those that the append
stream has in its queues, at its writers or confirmed. -/
theorem keys_distinct_iff (fmt : Config.F64Format) (cfg : Config) (dmaFeature : Bool)
    (haccepted : cfg.validate fmt dmaFeature = .ok ()) (batches : Nat)
    (hids : idCount cfg batches ≤ 2 ^ 64) :
    (∀ length a b, writeKey .hex length a = writeKey .hex length b ↔
      a % 16 ^ length = b % 16 ^ length) ∧
    (∀ a b, a < 2 ^ 64 → b < 2 ^ 64 → (writeKey .uuid 36 a = writeKey .uuid 36 b ↔ a = b)) ∧
    ((∀ a b, a < idCount cfg batches → b < idCount cfg batches →
          writeKey cfg.workload.keyspace.format cfg.workload.keyspace.length a =
            writeKey cfg.workload.keyspace.format cfg.workload.keyspace.length b → a = b) ∧
        distinctKeys cfg batches = idCount cfg batches ↔
      cfg.workload.keyspace.format = .uuid ∨
        idCount cfg batches ≤ 16 ^ cfg.workload.keyspace.length) ∧
    ∀ (E C W : Type) [Fintype E] [Fintype C] [DecidableEq E] [DecidableEq C] [DecidableEq W]
      (append : Config.Append) (stream : AppendConfig E C W) (es : List (AppendStep E C))
      (s : AppendState E C W), cfg.workload.append = some append →
      stream.keyCount = cfg.workload.keyspace.count → stream.batch = append.batch →
      Exec.run (appendStep stream) (.init stream) es = some s → s.enqueuing = none →
      s.batches.length = batches → ∀ id,
        id < cfg.workload.keyspace.count ∨ 0 < Worker.total s.toWriteState id ↔
          id < idCount cfg batches := by
  refine ⟨writeKey_hex_eq_iff, fun a b => writeKey_uuid_eq_iff, ?_,
    fun E C W _ _ _ _ _ append stream es s happend hcount hbatch hrun hidle hbatches id =>
      hbatches ▸ appended_ids cfg append happend stream hcount hbatch es s hrun hidle id⟩
  rw [← injOn_keys_iff haccepted hids]
  have hcard := Finset.card_image_iff (s := Finset.range (idCount cfg batches))
    (f := writeKey cfg.workload.keyspace.format cfg.workload.keyspace.length)
  rw [Finset.card_range] at hcard
  constructor
  · rintro ⟨-, hkeys⟩
    exact hcard.1 hkeys
  · intro hinj
    exact ⟨fun a b ha hb => hinj (Finset.mem_range.2 ha) (Finset.mem_range.2 hb), hcard.2 hinj⟩

/-! ## Short keys -/

/-- Hex keys of a million ids, of the length given. -/
def millionKeys (length : Nat) : Config :=
  { Config.minimal with workload := { Config.minimal.workload with
      keyspace := { Config.minimal.workload.keyspace with length, count := 1000000 } } }

theorem millionKeys_accepted (length : Nat) :
    (millionKeys length).validate .exact false = .ok () := rfl

theorem keys_distinct_million :
    (millionKeys 16).validate .exact false = .ok () ∧
      distinctKeys (millionKeys 16) 0 = 1000000 :=
  ⟨millionKeys_accepted 16, ((keys_distinct_iff .exact (millionKeys 16) false
    (millionKeys_accepted 16) 0 (by decide)).2.2.1.2 (.inr (by decide))).2⟩

/-- Four digits are too few for a million ids: the ids 0 and 65536 have the key `0000`. -/
theorem keys_shared_million :
    (millionKeys 4).validate .exact false = .ok () ∧ 65536 < idCount (millionKeys 4) 0 ∧
      writeKey .hex 4 0 = writeKey .hex 4 65536 ∧
      distinctKeys (millionKeys 4) 0 ≠ idCount (millionKeys 4) 0 := by
  refine ⟨millionKeys_accepted 4, by decide, by decide, fun hkeys => ?_⟩
  have hinj : Set.InjOn (writeKey .hex 4) (Finset.range (idCount (millionKeys 4) 0)) :=
    Finset.card_image_iff.1 (hkeys.trans (Finset.card_range _).symm)
  have hmem : ∀ id < 65537, id ∈ Finset.range (idCount (millionKeys 4) 0) := fun id hid =>
    Finset.mem_range.2 (Nat.lt_of_lt_of_le hid (by decide))
  exact absurd (hinj (hmem 0 (by decide)) (hmem 65536 (by decide)) (by decide)) (by decide)

end Worker
