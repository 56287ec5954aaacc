import Cachecannon.KvReplay.Keys
import Cachecannon.Worker.Proof.Address

/-!
# The key table is the keys

The table holds the prefix and the formatted id of every object, in order, whatever the buffers
held before (`key_fill`); a format has room for every id and tells any two apart. `decimalLen` is
the number of digits, so the bytes counted for an `EXISTS` are those of the command
(`length_existsCommand`).
-/

namespace KvReplay

/-! ## Formatted ids -/

theorem formatId_ascii {format : KvKeyFormat} {id : UInt64} {c : Char}
    (h : c ∈ formatId format id) : c.toNat < 128 := by
  cases format with
  | hex =>
    simp only [formatId, List.leftpad, List.mem_append, List.mem_replicate] at h
    rcases h with ⟨-, rfl⟩ | h
    · decide
    · exact Worker.ascii_of_mem_toDigits (by decide) (by decide) h
  | decimal => exact Worker.ascii_of_mem_toDigits (by decide) (by decide) h

def KvKeyFormat.radix : KvKeyFormat → Nat
  | .hex => 16
  | .decimal => 10

theorem formatId_injective (format : KvKeyFormat) : Function.Injective (formatId format) := by
  intro a b h
  have hread : ∀ id : UInt64, ∃ ds,
      (formatId format id).mapM (Worker.toDigit format.radix) = some ds ∧
        Worker.ofDigits format.radix ds = id.toNat := by
    intro id
    cases format with
    | hex =>
      exact Worker.mapM_zeros (by decide) (by decide)
        (Worker.mapM_toDigits (by decide) (by decide) id.toNat) _
    | decimal => exact Worker.mapM_toDigits (by decide) (by decide) id.toNat
  obtain ⟨ds, hds, ha⟩ := hread a
  obtain ⟨ds', hds', hb⟩ := hread b
  rw [h, hds'] at hds
  obtain rfl := Option.some.inj hds
  exact UInt64.toNat_inj.1 (ha.symm.trans hb)

theorem length_formatId (format : KvKeyFormat) (id : UInt64) :
    (formatId format id).length ≤ match format with | .hex => 16 | .decimal => 20 := by
  cases format with
  | hex =>
    have hfits : id.toNat < 16 ^ 16 := id.toNat_lt.trans_le (by decide)
    have := (Nat.length_toDigits_le_iff (by decide) (by decide)).2 hfits
    rw [formatId, List.length_leftpad]
    exact max_le le_rfl this
  | decimal =>
    have hfits : id.toNat < 10 ^ 20 := id.toNat_lt.trans_le (by decide)
    exact (Nat.length_toDigits_le_iff (by decide) (by decide)).2 hfits

/-! ## Keys -/

/-- The key of an object. -/
def KeyConfig.keyBytes (kv : KeyConfig) (id : UInt64) : List UInt8 :=
  kv.keyPrefix ++ Text.encode (formatId kv.keyFormat id)

variable (kv : KeyConfig)

theorem keyBytes_injective : Function.Injective kv.keyBytes := by
  intro a b h
  exact formatId_injective _ (Text.encode_injective (List.append_cancel_left h))

theorem length_keyBytes (id : UInt64) : (kv.keyBytes id).length ≤ kv.maxKeyLen := by
  have hlen := length_formatId kv.keyFormat id
  rw [KeyConfig.keyBytes, List.length_append, Text.encode_ascii fun c => formatId_ascii,
    List.length_map]
  exact Nat.add_le_add_left hlen _

/-! ## The table -/

theorem pushObjects_keys (objects : List UInt64) (s : Scratch) :
    (objects.foldl (Scratch.pushObject kv) s).keys = s.keys ++ objects.flatMap kv.keyBytes := by
  induction objects generalizing s with
  | nil => simp
  | cons id objects ih =>
    rw [List.foldl_cons, ih]
    simp [Scratch.pushObject, KeyConfig.pushKey, KeyConfig.keyBytes]

/-- Where the keys of `objects` end, after `keys`. -/
theorem pushObjects_keyEnds (objects : List UInt64) (s : Scratch) :
    (objects.foldl (Scratch.pushObject kv) s).keyEnds =
      s.keyEnds ++ (List.range objects.length).map fun i =>
        (s.keys ++ (objects.take (i + 1)).flatMap kv.keyBytes).length := by
  induction objects generalizing s with
  | nil => simp
  | cons id objects ih =>
    rw [List.foldl_cons, ih, List.length_cons, List.range_succ_eq_map]
    simp [Scratch.pushObject, KeyConfig.pushKey, KeyConfig.keyBytes, Function.comp_def,
      List.append_assoc]

section Fill

variable (s : Scratch) (objects : List UInt64)

theorem fill_keys : (s.fill kv objects).keys = objects.flatMap kv.keyBytes := by
  simp [Scratch.fill, pushObjects_keys]

theorem fill_keyEnds : (s.fill kv objects).keyEnds =
    (List.range objects.length).map fun i =>
      ((objects.take (i + 1)).flatMap kv.keyBytes).length := by
  simp [Scratch.fill, pushObjects_keyEnds]

theorem fill_objects : (s.fill kv objects).objects = objects := by
  have hkeeps : ∀ (ids : List UInt64) (s : Scratch),
      (ids.foldl (Scratch.pushObject kv) s).objects = s.objects := by
    intro ids
    induction ids with
    | nil => exact fun _ => rfl
    | cons id ids ih => exact fun s => ih _
  exact hkeeps objects _

/-- **The table.** After the fill `key(i)` is the key of object `i`. -/
theorem key_fill (i : Nat) : (s.fill kv objects).key i = objects[i]?.map kv.keyBytes := by
  cases hi : objects[i]? with
  | none =>
    have hlen : objects.length ≤ i := List.getElem?_eq_none_iff.1 hi
    have hend : (s.fill kv objects).keyEnds[i]? = none := by
      rw [fill_keyEnds]
      exact List.getElem?_eq_none_iff.2 (by simpa using hlen)
    simp only [Scratch.key, hend]
    simp
  | some id =>
    obtain ⟨hlt, hget⟩ := List.getElem?_eq_some_iff.1 hi
    have hstart : (if i = 0 then some 0 else (s.fill kv objects).keyEnds[i - 1]?) =
        some ((objects.take i).flatMap kv.keyBytes).length := by
      split
      · rename_i hzero
        subst hzero
        rfl
      · rename_i hpos
        rw [fill_keyEnds, List.getElem?_map, List.getElem?_range (by omega)]
        simp [Nat.sub_add_cancel (Nat.one_le_iff_ne_zero.2 hpos)]
    have hstop : (s.fill kv objects).keyEnds[i]? =
        some ((objects.take i).flatMap kv.keyBytes ++ kv.keyBytes id).length := by
      rw [fill_keyEnds, List.getElem?_map, List.getElem?_range hlt]
      simp [List.take_add_one, hi]
    have hkeys : (s.fill kv objects).keys = (objects.take i).flatMap kv.keyBytes ++
        kv.keyBytes id ++ (objects.drop (i + 1)).flatMap kv.keyBytes := by
      rw [fill_keys, ← hget, List.append_assoc, ← List.flatMap_cons,
        ← List.drop_eq_getElem_cons hlt, ← List.flatMap_append, List.take_append_drop]
    simp only [Scratch.key, hstart, hstop, hkeys, Option.bind_some]
    exact Text.slice_middle _ _ _

end Fill

/-! ## The bytes of the lookup -/

theorem decimalLenFrom_eq (v digits : Nat) :
    decimalLenFrom v digits + 1 = digits + (Nat.toDigits 10 v).length := by
  induction v using Nat.strongRecOn generalizing digits with
  | ind v ih =>
    rw [decimalLenFrom]
    split
    · rename_i h
      rw [ih (v / 10) (by omega), Nat.toDigits_of_base_le (by decide) h]
      simp
      omega
    · rw [Nat.toDigits_of_lt_base (by omega)]
      rfl

theorem decimalLen_eq (v : Nat) : decimalLen v = (Nat.toDigits 10 v).length := by
  have := decimalLenFrom_eq v 1
  rw [decimalLen]
  omega

theorem length_encode_ascii {s : List Char} (h : ∀ c ∈ s, c.toNat < 128) :
    (Text.encode s).length = s.length := by
  rw [Text.encode_ascii h, List.length_map]

theorem length_bulkString (arg : List UInt8) :
    (bulkString arg).length = 1 + decimalLen arg.length + 2 + arg.length + 2 := by
  have hascii : ∀ c ∈ '$' :: Nat.toDigits 10 arg.length ++ ['\r', '\n'], c.toNat < 128 := by
    intro c hc
    simp only [List.cons_append, List.mem_cons, List.mem_append, List.not_mem_nil, or_false] at hc
    rcases hc with rfl | hc | rfl | rfl
    · decide
    · exact Worker.ascii_of_mem_toDigits (by decide) (by decide) hc
    · decide
    · decide
  have hend : (Text.encode ['\r', '\n']).length = 2 := by decide
  rw [bulkString, List.length_append, List.length_append, length_encode_ascii hascii, hend,
    decimalLen_eq]
  simp only [List.cons_append, List.length_cons, List.length_append, List.length_nil]
  omega

theorem length_existsCommand (key : List UInt8) : (existsCommand key).length = existsLen key := by
  have hstart : (Text.encode ('*' :: Nat.toDigits 10 2 ++ ['\r', '\n']) ++
      bulkString (Text.encode "EXISTS".toList)).length = 16 := by decide
  have hargs : [Text.encode "EXISTS".toList, key].flatMap bulkString =
      bulkString (Text.encode "EXISTS".toList) ++ bulkString key := by simp
  rw [existsCommand, encodeCommand, hargs, ← List.append_assoc, List.length_append,
    length_bulkString]
  exact congrArg (· + _) hstart

theorem txBytes_fill (s : Scratch) (objects : List UInt64) :
    (s.fill kv objects).txBytes =
      some (objects.flatMap fun id => existsCommand (kv.keyBytes id)).length := by
  have hloop : ∀ n ≤ objects.length, (List.range n).foldlM (fun txBytes i => do
        let key ← (s.fill kv objects).key i
        return txBytes + existsLen key) 0 =
      some ((objects.take n).flatMap fun id => existsCommand (kv.keyBytes id)).length := by
    intro n
    induction n with
    | zero => exact fun _ => rfl
    | succ n ih =>
      intro hn
      have hget : objects[n]? = some objects[n] := List.getElem?_eq_getElem hn
      rw [List.range_succ, List.foldlM_append, ih (by omega)]
      rw [List.take_add_one, hget, Option.toList_some, List.flatMap_append, List.length_append,
        List.flatMap_singleton, length_existsCommand]
      simp only [List.foldlM_cons, List.foldlM_nil, key_fill, hget, Option.map_some]
      rfl
  rw [Scratch.txBytes, fill_objects, hloop _ le_rfl, List.take_length]

/-- **The key table.** After a request filled the buffers, whatever they held, `key(i)` is the
prefix and the formatted id of object `i`; the keys of different ids differ and none is longer than
`max_key_len`; the bytes counted are those of the `EXISTS` commands. -/
theorem key_table (s : Scratch) (objects : List UInt64) :
    (∀ i, (s.fill kv objects).key i = objects[i]?.map fun id =>
      kv.keyPrefix ++ Text.encode (formatId kv.keyFormat id)) ∧
    (∀ i j key, (s.fill kv objects).key i = some key → (s.fill kv objects).key j = some key →
      objects[i]? = objects[j]?) ∧
    (∀ i key, (s.fill kv objects).key i = some key → key.length ≤ kv.maxKeyLen) ∧
    (s.fill kv objects).txBytes =
      some (objects.flatMap fun id => existsCommand (kv.keyBytes id)).length ∧
    ∀ n, decimalLen n = (Nat.toDigits 10 n).length := by
  refine ⟨key_fill kv s objects, fun i j key hi hj => ?_, fun i key hi => ?_,
    txBytes_fill kv s objects, decimalLen_eq⟩
  · rw [key_fill, Option.map_eq_some_iff] at hi hj
    obtain ⟨a, ha, rfl⟩ := hi
    obtain ⟨b, hb, hkey⟩ := hj
    rw [ha, hb, keyBytes_injective kv hkey]
  · rw [key_fill, Option.map_eq_some_iff] at hi
    obtain ⟨id, -, rfl⟩ := hi
    exact length_keyBytes kv id

end KvReplay
