import Cachecannon.Search.Load
import Cachecannon.Worker.Proof.Address

/-!
# What the queries of a search run find

Cleanup and load leave under the prefix the rows of the dataset, and nothing else, whatever was
there before, and touch no other key.

* `deletePrefix_empties` turns a full iteration of the scan into an empty prefix.
* `Kept`, `OnlyRows`: what every command keeps, also in a run that fails.
* `loadRows_loads`: the rows are there once the loop ends well.
-/

namespace Search

/-! ## Keys -/

theorem prefix_docKey (i : Nat) : prefixBytes <+: docKey i := by
  rw [docKey, Text.encode_append]
  exact List.prefix_append _ _

theorem docKey_injective : Function.Injective docKey := by
  intro i j h
  have hdigits := List.append_cancel_left (Text.encode_injective h)
  obtain ⟨ds, hds, hi⟩ := Worker.mapM_toDigits (by decide : 1 < 10) (by decide) i
  obtain ⟨es, hes, hj⟩ := Worker.mapM_toDigits (by decide : 1 < 10) (by decide) j
  rw [hdigits, hes] at hds
  obtain rfl := Option.some.inj hds
  exact hi.symm.trans hj

/-- The number of a row is read back from its key. -/
theorem parseKey_docKey {i : Nat} (h : i < 2 ^ 63) : parseKey (docKey i) = .ok (i : Int) := by
  obtain ⟨ds, hds, hi⟩ := Worker.mapM_toDigits (by decide : 1 < 10) (by decide) i
  have hsign : ∀ c ∈ Nat.toDigits 10 i, c ≠ '-' ∧ c ≠ '+' := fun c hc => by
    obtain ⟨hlow, -⟩ := Worker.digit_of_mem hc
    constructor <;> rintro rfl <;> exact absurd hlow (by decide)
  have hparse : parseI64 (Nat.toDigits 10 i) = some (i : Int) := by
    cases hdigits : Nat.toDigits 10 i with
    | nil => exact absurd hdigits Nat.toDigits_ne_nil
    | cons c rest =>
      obtain ⟨hminus, hplus⟩ := hsign c (by simp [hdigits])
      rw [hdigits] at hds
      simp [parseI64, hminus, hplus, hds, hi]
      omega
  have hdrop : (keyPrefix ++ Nat.toDigits 10 i).dropPrefix? keyPrefix =
      some (Nat.toDigits 10 i) := by
    simp [keyPrefix, List.dropPrefix?]
  simp only [parseKey, docKey, Text.decode_encode, Option.bind_eq_bind, Option.bind_some, hdrop,
    hparse]

theorem parseKnnReply_docKeys (count : Item) {ids : List Nat} (h : ∀ i ∈ ids, i < 2 ^ 63) :
    parseKnnReply (.array (count :: ids.map fun i => .bulkString (docKey i))) =
      .ok (ids.map fun i => (i : Int)) := by
  rw [parseKnnReply, List.drop_one, List.tail_cons]
  induction ids with
  | nil => rfl
  | cons i ids ih =>
    rw [List.map_cons, List.mapM_cons, parseItem, parseKey_docKey (h i (by simp)),
      ih fun j hj => h j (by simp [hj])]
    rfl

/-! ## Commands -/

theorem readCommands_stream (requests : List (List (List UInt8))) :
    readCommands (requests.flatMap Codec.command.encode) = requests := by
  have hne := Codec.command_encode_ne_nil
  rw [readCommands,
    Codec.command.decodeAll_stream hne (Codec.command.length_le_stream hne requests)]
  rfl

theorem executeAll_cons {server : Server} (time : Nat) (ks : Keyspace)
    (command : List (List UInt8)) (commands : List (List (List UInt8))) :
    server.executeAll time ks (command :: commands) =
      let (ks, value) := server.execute time ks command
      ((server.executeAll time ks commands).1, value :: (server.executeAll time ks commands).2) :=
  rfl

/-- What every command of a send keeps, the send keeps, also when the connection breaks. -/
theorem executeAll_inv {server : Server} {time : Nat} {I : Keyspace → Prop} {ks : Keyspace}
    {commands : List (List (List UInt8))}
    (h : ∀ command ∈ commands, ∀ ks, I ks → I (server.execute time ks command).1) (hI : I ks) :
    I (server.executeAll time ks commands).1 := by
  induction commands generalizing ks with
  | nil => exact hI
  | cons command commands ih =>
    exact ih (fun c hc => h c (List.mem_cons_of_mem command hc))
      (h command List.mem_cons_self ks hI)

variable {server : Server} {link : Nat → Link} {job : LoadJob} {s : Session}

theorem roundTrip_inv {I : Keyspace → Prop} {requests : List (List (List UInt8))}
    (h : ∀ request ∈ requests, ∀ time ks, I ks → I (server.execute time ks request).1)
    (hI : I s.keyspace) : I (server.roundTrip link requests s).1.keyspace := by
  unfold Server.roundTrip
  dsimp only
  rw [readCommands_stream]
  split
  · exact executeAll_inv (fun c hc => h c hc _) hI
  · exact executeAll_inv (fun c hc => h c (List.mem_of_mem_take hc) _) hI

theorem roundTrip_unchanged {request : List (List UInt8)}
    (h : ∀ time, (server.execute time s.keyspace request).1 = s.keyspace) :
    (server.roundTrip link [request] s).1.keyspace = s.keyspace := by
  refine roundTrip_inv (I := fun ks => ks = s.keyspace) (fun r hr time ks hks => ?_) rfl
  obtain rfl := List.mem_singleton.1 hr
  rw [hks]
  exact h time

theorem roundTrip_sent (requests : List (List (List UInt8))) :
    (server.roundTrip link requests s).1.sent =
      s.sent ++ [requests.flatMap Codec.command.encode] := by
  unfold Server.roundTrip
  dsimp only
  split <;> rfl

/-- A send that has replies has those of all its commands. -/
theorem roundTrip_ok {requests : List (List (List UInt8))} {t : Session} {values : List Value}
    (h : server.roundTrip link requests s = (t, .ok values)) :
    server.executeAll s.sent.length s.keyspace requests = (t.keyspace, values) := by
  unfold Server.roundTrip at h
  dsimp only at h
  rw [readCommands_stream] at h
  split at h
  · obtain ⟨rfl, hvalues⟩ := Prod.mk.inj h
    exact Prod.ext rfl (Except.ok.inj hvalues)
  · cases (Prod.mk.inj h).2

theorem roundTrip_one {request : List (List UInt8)} {t : Session} {values : List Value}
    (h : server.roundTrip link [request] s = (t, .ok values)) :
    ∃ value, values = [value] ∧
      server.execute s.sent.length s.keyspace request = (t.keyspace, value) := by
  have hexec := roundTrip_ok h
  simp only [Server.executeAll] at hexec
  obtain ⟨hks, rfl⟩ := Prod.mk.inj hexec
  exact ⟨_, rfl, Prod.ext hks rfl⟩

/-! ## Cleanup -/

theorem mem_eval {time : Nat} {cursor : List UInt8} {ks ks' : Keyspace}
    (h : ∀ key, ks'.lookup key =
      if key ∈ (server.scan time cursor docPattern ks).1 then none else ks.lookup key) {key : Key} :
    key ∈ ks' ↔ key ∉ (server.scan time cursor docPattern ks).1 ∧ key ∈ ks := by
  rw [← AList.lookup_isSome, ← AList.lookup_isSome, h key]
  split
  · rename_i hmem
    simp [hmem]
  · rename_i hmem
    simp [hmem]

/-- Cleanup iterates to the end: what it leaves was there all the time and never returned. -/
theorem deletePrefix_iterates (hserver : server.Documented job) {fuel : Nat} {cursor : List UInt8}
    {t : Session} (h : deletePrefix server link prefixBytes fuel cursor s = (t, some (.ok ()))) :
    ∃ stores, stores ≠ [] ∧ (server.iterate cursor stores).2 = bytes "0" ∧
      ∀ key ∈ t.keyspace, key ∈ s.keyspace ∧ (∀ store ∈ stores, key ∈ store.2) ∧
        key ∉ (server.iterate cursor stores).1 := by
  induction fuel generalizing cursor s with
  | zero => cases h
  | succ fuel ih =>
    have hpattern : prefixBytes ++ bytes "*" = docPattern := rfl
    rw [deletePrefix] at h
    cases htrip : server.roundTrip link [evalRequest cursor docPattern] s with
    | mk u result =>
      simp only [hpattern, htrip] at h
      cases result with
      | error message => cases h
      | ok values =>
        obtain ⟨value, rfl, hexec⟩ := roundTrip_one htrip
        rcases hserver.eval s.sent.length s.keyspace cursor with ⟨e, he⟩ | ⟨ks', he, hdeleted⟩
        · obtain ⟨-, rfl⟩ := Prod.mk.inj (hexec.symm.trans he)
          cases h
        · obtain ⟨hks, rfl⟩ := Prod.mk.inj (hexec.symm.trans he)
          rw [← hks] at hdeleted
          dsimp only at h
          split at h
          · -- the cursor is back at the start
            rename_i hzero
            cases h
            refine ⟨[(s.sent.length, s.keyspace)], List.cons_ne_nil _ _, hzero, fun key hkey => ?_⟩
            obtain ⟨hnever, hthere⟩ := (mem_eval hdeleted).1 hkey
            exact ⟨hthere, by simpa using hthere, by simpa [Server.iterate] using hnever⟩
          · obtain ⟨stores, hne, hlast, hleft⟩ := ih h
            refine ⟨(s.sent.length, s.keyspace) :: stores, List.cons_ne_nil _ _, hlast,
              fun key hkey => ?_⟩
            obtain ⟨hthere, hall, hrest⟩ := hleft key hkey
            obtain ⟨hnever, hthere⟩ := (mem_eval hdeleted).1 hthere
            refine ⟨hthere, List.forall_mem_cons.2 ⟨hthere, hall⟩, fun hmem => ?_⟩
            rcases List.mem_append.1 hmem with hmem | hmem
            · exact hnever hmem
            · exact hrest hmem

/-- **Cleanup leaves nothing under the prefix.** -/
theorem deletePrefix_empties (hserver : server.Documented job) {fuel : Nat} {t : Session}
    (h : deletePrefix server link prefixBytes fuel (bytes "0") s = (t, some (.ok ()))) :
    ∀ key ∈ t.keyspace, ¬prefixBytes <+: key := by
  obtain ⟨stores, hne, hlast, hleft⟩ := deletePrefix_iterates hserver h
  intro key hkey hpre
  obtain ⟨-, hall, hnever⟩ := hleft key hkey
  exact hnever (hserver.full stores hne hlast key hpre hall)

/-- What the script keeps, cleanup keeps, however far it is. -/
theorem deletePrefix_inv {I : Keyspace → Prop}
    (h : ∀ cursor time ks, I ks → I (server.execute time ks (evalRequest cursor docPattern)).1)
    (fuel : Nat) (cursor : List UInt8) (hI : I s.keyspace) :
    I (deletePrefix server link prefixBytes fuel cursor s).1.keyspace := by
  induction fuel generalizing cursor s with
  | zero => exact hI
  | succ fuel ih =>
    have htrip : I (server.roundTrip link [evalRequest cursor docPattern] s).1.keyspace :=
      roundTrip_inv (by simpa using h cursor) hI
    have hpattern : prefixBytes ++ bytes "*" = docPattern := rfl
    rw [deletePrefix]
    simp only [hpattern]
    generalize server.roundTrip link [evalRequest cursor docPattern] s = out at htrip
    split
    · exact htrip
    · split
      · exact htrip
      · exact ih _ htrip
    · split
      · exact htrip
      · exact ih _ htrip
    · exact htrip
    · exact htrip

/-! ## What every command keeps -/

/-- No key outside the prefix is touched. -/
def Kept (ks₀ ks : Keyspace) : Prop :=
  ∀ key, ¬prefixBytes <+: key → ks.lookup key = ks₀.lookup key

def rowHash (train : Train) (i : Nat) : Stored :=
  .hash (AList.singleton vectorField (f32LeBlob (train.rows.getD i [])))

/-- Under the prefix are rows of the dataset. -/
def OnlyRows (train : Train) (ks : Keyspace) : Prop :=
  ∀ key ∈ ks, prefixBytes <+: key →
    ∃ i < train.rows.length, key = docKey i ∧ ks.lookup key = some (rowHash train i)

theorem eval_kept (hserver : server.Documented job) {ks₀ ks : Keyspace} (cursor : List UInt8)
    (time : Nat) (h : Kept ks₀ ks) :
    Kept ks₀ (server.execute time ks (evalRequest cursor docPattern)).1 := by
  rcases hserver.eval time ks cursor with ⟨e, he⟩ | ⟨ks', he, hdeleted⟩
  · rw [he]
    exact h
  · rw [he]
    intro key hkey
    rw [hdeleted, if_neg fun hmem => hkey (hserver.matching time cursor ks key hmem)]
    exact h key hkey

/-- Where only rows are under the prefix, loading a row again changes nothing. -/
theorem execute_hset (hserver : server.Documented job) {train : Train} {ks : Keyspace}
    (h : OnlyRows train ks) (time i : Nat) :
    (∃ e, server.execute time ks (hsetRequest train i) = (ks, .error e)) ∨
      ∃ n, server.execute time ks (hsetRequest train i) =
        (ks.insert (docKey i) (rowHash train i), .integer n) := by
  cases hlookup : ks.lookup (docKey i) with
  | none => exact hserver.hset (.inl ⟨hlookup, rfl⟩) time vectorField _
  | some stored =>
    have hmem : docKey i ∈ ks := AList.lookup_isSome.1 (by rw [hlookup]; rfl)
    obtain ⟨j, -, hj, hrow⟩ := h _ hmem (prefix_docKey i)
    obtain rfl := docKey_injective hj
    have hset := hserver.hset (.inr hrow) time vectorField (f32LeBlob (train.rows.getD i []))
    rwa [AList.insert_singleton_eq] at hset

theorem insert_onlyRows {train : Train} {ks : Keyspace} {i : Nat} (h : OnlyRows train ks)
    (hi : i < train.rows.length) : OnlyRows train (ks.insert (docKey i) (rowHash train i)) := by
  intro key hkey hpre
  by_cases heq : key = docKey i
  · subst heq
    exact ⟨i, hi, rfl, AList.lookup_insert ks⟩
  · obtain hmem := ((AList.mem_insert ks).1 hkey).resolve_left heq
    obtain ⟨j, hj, rfl, hrow⟩ := h key hmem hpre
    exact ⟨j, hj, rfl, (AList.lookup_insert_ne heq).trans hrow⟩

theorem hset_onlyRows (hserver : server.Documented job) {train : Train} {i : Nat}
    (hi : i < train.rows.length) (time : Nat) (ks : Keyspace) (h : OnlyRows train ks) :
    OnlyRows train (server.execute time ks (hsetRequest train i)).1 := by
  rcases execute_hset hserver h time i with ⟨e, he⟩ | ⟨n, he⟩
  · rw [he]
    exact h
  · rw [he]
    exact insert_onlyRows h hi

theorem hset_kept (hserver : server.Documented job) {train : Train} {ks₀ : Keyspace} {i : Nat}
    (hi : i < train.rows.length) (time : Nat) (ks : Keyspace)
    (h : OnlyRows train ks ∧ Kept ks₀ ks) :
    OnlyRows train (server.execute time ks (hsetRequest train i)).1 ∧
      Kept ks₀ (server.execute time ks (hsetRequest train i)).1 := by
  refine ⟨hset_onlyRows hserver hi time ks h.1, ?_⟩
  rcases execute_hset hserver h.1 time i with ⟨e, he⟩ | ⟨n, he⟩
  · rw [he]
    exact h.2
  · rw [he]
    intro key hkey
    have hne : key ≠ docKey i := fun heq => hkey (heq ▸ prefix_docKey i)
    exact (AList.lookup_insert_ne hne).trans (h.2 key hkey)

/-! ## Load -/

/-- The rows of the batch at `row`. -/
def LoadJob.batchAt (job : LoadJob) (row : Nat) : List Nat :=
  List.range' row (min (row + job.batch) job.train.rows.length - row)

theorem LoadJob.batch_pos (job : LoadJob) : 1 ≤ job.batch := by
  unfold LoadJob.batch
  omega

theorem mem_batchAt {row i : Nat} :
    i ∈ job.batchAt row ↔ row ≤ i ∧ i < row + job.batch ∧ i < job.train.rows.length := by
  rw [LoadJob.batchAt, List.mem_range'_1]
  omega

theorem batch_inv {I : Keyspace → Prop}
    (h : ∀ i < job.train.rows.length, ∀ time ks, I ks →
      I (server.execute time ks (hsetRequest job.train i)).1) (row : Nat) (hI : I s.keyspace) :
    I (server.roundTrip link ((job.batchAt row).map (hsetRequest job.train)) s).1.keyspace := by
  refine roundTrip_inv (fun request hmem => ?_) hI
  obtain ⟨i, hi, rfl⟩ := List.mem_map.1 hmem
  exact h i (mem_batchAt.1 hi).2.2

/-- What the commands of all rows keep, the load keeps, also one that fails. -/
theorem loadRows_inv {I : Keyspace → Prop}
    (h : ∀ i < job.train.rows.length, ∀ time ks, I ks →
      I (server.execute time ks (hsetRequest job.train i)).1) (fuel row : Nat)
    (hI : I s.keyspace) : I (loadRows server link job fuel row s).1.keyspace := by
  induction fuel generalizing row s with
  | zero => exact hI
  | succ fuel ih =>
    rw [loadRows]
    split
    · have htrip : I (server.roundTrip link
          ((job.batchAt row).map (hsetRequest job.train)) s).1.keyspace := batch_inv h row hI
      rw [LoadJob.batchAt] at htrip
      dsimp only
      split
      · rename_i heq
        rw [heq] at htrip
        exact htrip
      · rename_i heq
        rw [heq] at htrip
        split
        · exact htrip
        · exact ih _ htrip
    · exact hI

/-- A batch without an error reply stores its rows, and no row is lost. -/
theorem executeAll_loads (hserver : server.Documented job) {train : Train} {time : Nat}
    {indices : List Nat} {ks ks' : Keyspace} {values : List Value}
    (hrows : ∀ i ∈ indices, i < train.rows.length) (h : OnlyRows train ks)
    (hexec : server.executeAll time ks (indices.map (hsetRequest train)) = (ks', values))
    (hvalues : firstErrorReply values = none) :
    (∀ i ∈ indices, docKey i ∈ ks') ∧ ∀ key ∈ ks, key ∈ ks' := by
  induction indices generalizing ks values with
  | nil =>
    obtain ⟨rfl, -⟩ := Prod.mk.inj hexec
    exact ⟨fun i hi => (by cases hi), fun _ => id⟩
  | cons i indices ih =>
    obtain ⟨hi, hrest⟩ := List.forall_mem_cons.1 hrows
    rw [List.map_cons, executeAll_cons] at hexec
    rcases execute_hset hserver h time i with ⟨e, he⟩ | ⟨n, he⟩
    · rw [he] at hexec
      obtain ⟨-, rfl⟩ := Prod.mk.inj hexec
      cases hvalues
    · rw [he] at hexec
      obtain ⟨hks, rfl⟩ := Prod.mk.inj hexec
      obtain ⟨hloaded, hkept⟩ := ih hrest (insert_onlyRows h hi) (Prod.ext hks rfl) hvalues
      refine ⟨List.forall_mem_cons.2 ⟨hkept _ ?_, hloaded⟩, fun key hkey => hkept key ?_⟩
      · exact (AList.mem_insert ks).2 (.inl rfl)
      · exact (AList.mem_insert ks).2 (.inr hkey)

/-- **The load stores every row.** The rows before `row` are there; each turn adds those of its
batch. -/
theorem loadRows_loads (hserver : server.Documented job) {fuel row : Nat} {t : Session}
    (h : loadRows server link job fuel row s = (t, .ok ()))
    (hfuel : job.train.rows.length ≤ fuel + row) (honly : OnlyRows job.train s.keyspace)
    (hbefore : ∀ i < row, docKey i ∈ s.keyspace) :
    ∀ i < job.train.rows.length, docKey i ∈ t.keyspace := by
  induction fuel generalizing row s with
  | zero =>
    obtain ⟨rfl, -⟩ := Prod.mk.inj h
    exact fun i hi => hbefore i (by omega)
  | succ fuel ih =>
    rw [loadRows] at h
    have hbatch := job.batch_pos
    split at h
    · rename_i hrow
      dsimp only at h
      split at h
      · cases (Prod.mk.inj h).2
      · rename_i u values htrip
        split at h
        · cases (Prod.mk.inj h).2
        · rename_i hvalues
          rw [← LoadJob.batchAt] at htrip
          have honly' : OnlyRows job.train (server.roundTrip link
              ((job.batchAt row).map (hsetRequest job.train)) s).1.keyspace :=
            batch_inv (fun i hi time ks => hset_onlyRows hserver hi time ks) row honly
          rw [htrip] at honly'
          obtain ⟨hloaded, hkept⟩ := executeAll_loads hserver
            (fun i hi => (mem_batchAt.1 hi).2.2) honly (roundTrip_ok htrip) hvalues
          refine ih h (by omega) honly' fun i hi => ?_
          by_cases hold : i < row
          · exact hkept _ (hbefore i hold)
          · exact hloaded i (mem_batchAt.2 ⟨by omega, by omega, by omega⟩)
    · obtain ⟨rfl, -⟩ := Prod.mk.inj h
      exact fun i hi => hbefore i (by omega)

/-! ## A whole run -/

theorem pollInfo_keyspace (hserver : server.Documented job) (fuel : Nat) (s : Session) :
    (pollInfo server link job fuel s).1.keyspace = s.keyspace := by
  induction fuel generalizing s with
  | zero => rfl
  | succ fuel ih =>
    have htrip : (server.roundTrip link [infoRequest job] s).1.keyspace = s.keyspace :=
      roundTrip_unchanged fun time => hserver.info time s.keyspace
    rw [pollInfo]
    generalize server.roundTrip link [infoRequest job] s = out at htrip
    split
    · exact htrip
    · split
      · exact htrip
      · exact htrip
      · exact (ih _).trans htrip
    · exact htrip
    · exact htrip

theorem indexPhase_keyspace (hserver : server.Documented job) (fuel : Nat) (s : Session) :
    (indexPhase server link job fuel s).1.keyspace = s.keyspace := by
  unfold indexPhase
  split
  · rfl
  · rename_i metric hmetric
    have htrip : (server.roundTrip link [createRequest job metric] s).1.keyspace = s.keyspace :=
      roundTrip_unchanged fun time => hserver.create time s.keyspace metric
    generalize server.roundTrip link [createRequest job metric] s = out at htrip
    split
    · exact htrip
    · exact (pollInfo_keyspace hserver fuel _).trans htrip
    · exact htrip

/-- What the keyspace is once cleanup and load are over. -/
structure Loaded (train : Train) (ks₀ ks : Keyspace) : Prop where
  kept : Kept ks₀ ks
  only : OnlyRows train ks
  all : ∀ i < train.rows.length, docKey i ∈ ks

theorem loadPhase_keyspace (hserver : server.Documented job) {ks₀ : Keyspace} {t : Session}
    {result : Except LoadError Unit} (h : loadPhase server link job s = (t, result))
    (honly : OnlyRows job.train s.keyspace) (hkept : Kept ks₀ s.keyspace) :
    Kept ks₀ t.keyspace ∧ (result = .ok () → Loaded job.train ks₀ t.keyspace) := by
  unfold loadPhase at h
  dsimp only at h
  split at h
  · obtain ⟨rfl, rfl⟩ := Prod.mk.inj h
    exact ⟨hkept, fun hok => by cases hok⟩
  · have hinv : OnlyRows job.train
          (loadRows server link job job.train.rows.length 0 s).1.keyspace ∧
        Kept ks₀ (loadRows server link job job.train.rows.length 0 s).1.keyspace :=
      loadRows_inv (fun i hi => hset_kept hserver hi) _ 0 ⟨honly, hkept⟩
    rw [h] at hinv
    refine ⟨hinv.2, fun hok => ⟨hinv.2, hinv.1, ?_⟩⟩
    subst hok
    exact loadRows_loads hserver h (by omega) honly fun i hi => absurd hi (Nat.not_lt_zero i)

theorem prepare_keyspace (hserver : server.Documented job) {fuel : Nat} {t : Session}
    {result : Option (Except LoadError Unit)} (h : prepare server link job fuel s = (t, result)) :
    Kept s.keyspace t.keyspace ∧
      (result = some (.ok ()) → Loaded job.train s.keyspace t.keyspace) := by
  have hdrop : (server.roundTrip link [dropRequest job] s).1.keyspace = s.keyspace :=
    roundTrip_unchanged fun time => hserver.dropIndex time s.keyspace
  unfold prepare at h
  generalize server.roundTrip link [dropRequest job] s = out at hdrop h
  have hstart : Kept s.keyspace out.1.keyspace := fun key _ => by rw [hdrop]
  have hclean : ∀ {u result}, deletePrefix server link prefixBytes fuel (bytes "0") out.1 =
      (u, result) → Kept s.keyspace u.keyspace := by
    intro u result hrun
    have hinv : Kept s.keyspace
        (deletePrefix server link prefixBytes fuel (bytes "0") out.1).1.keyspace :=
      deletePrefix_inv (fun cursor time ks => eval_kept hserver cursor time) fuel (bytes "0") hstart
    rwa [hrun] at hinv
  dsimp only at h
  split at h
  · rename_i hrun
    cases h
    exact ⟨hclean hrun, fun hok => by cases hok⟩
  · rename_i hrun
    cases h
    exact ⟨hclean hrun, fun hok => by cases hok⟩
  · rename_i u hrun
    have honly : OnlyRows job.train u.keyspace := fun key hkey hpre =>
      absurd hpre (deletePrefix_empties hserver hrun key hkey)
    split at h
    · rename_i e hload
      cases h
      exact ⟨(loadPhase_keyspace hserver hload honly (hclean hrun)).1, fun hok => by cases hok⟩
    · rename_i w hload
      have hloaded := (loadPhase_keyspace hserver hload honly (hclean hrun)).2 rfl
      have hsame : (indexPhase server link job fuel w).1.keyspace = w.keyspace :=
        indexPhase_keyspace hserver fuel w
      rw [h] at hsame
      rw [hsame]
      exact ⟨hloaded.kept, fun _ => hloaded⟩

/-! ## The number of keys -/

/-- The keys that are not under the prefix. -/
def otherKeys (ks : Keyspace) : List Key := ks.keys.filter fun key => !(prefixBytes.isPrefixOf key)

theorem mem_otherKeys {ks : Keyspace} {key : Key} :
    key ∈ otherKeys ks ↔ key ∈ ks ∧ ¬prefixBytes <+: key := by
  rw [otherKeys, List.mem_filter, ← AList.mem_keys, Bool.not_eq_true', ← Bool.not_eq_true,
    List.isPrefixOf_iff_prefix]

theorem Kept.mem {ks₀ ks : Keyspace} (h : Kept ks₀ ks) {key : Key} (hkey : ¬prefixBytes <+: key) :
    key ∈ ks ↔ key ∈ ks₀ := by
  rw [← AList.lookup_isSome, ← AList.lookup_isSome, h key hkey]

/-- The keys are those of the rows and the others there were. -/
theorem Loaded.size {train : Train} {ks₀ ks : Keyspace} (h : Loaded train ks₀ ks) :
    ks.entries.length = train.rows.length + (otherKeys ks₀).length := by
  have hrows : ((List.range train.rows.length).map docKey).Nodup :=
    List.nodup_range.map docKey_injective
  have hothers : (otherKeys ks₀).Nodup := ks₀.keys_nodup.filter _
  have hdisjoint : ∀ key ∈ (List.range train.rows.length).map docKey, ∀ other ∈ otherKeys ks₀,
      key ≠ other := by
    rintro key hkey other hother rfl
    obtain ⟨i, -, rfl⟩ := List.mem_map.1 hkey
    exact (mem_otherKeys.1 hother).2 (prefix_docKey i)
  have hperm : ks.keys.Perm ((List.range train.rows.length).map docKey ++ otherKeys ks₀) := by
    refine (List.perm_ext_iff_of_nodup ks.keys_nodup
      (List.nodup_append.2 ⟨hrows, hothers, hdisjoint⟩)).2 fun key => ?_
    rw [← AList.mem_keys, List.mem_append, mem_otherKeys, List.mem_map]
    by_cases hpre : prefixBytes <+: key
    · constructor
      · intro hkey
        obtain ⟨i, hi, rfl, -⟩ := h.only key hkey hpre
        exact .inl ⟨i, List.mem_range.2 hi, rfl⟩
      · rintro (⟨i, hi, rfl⟩ | ⟨-, hother⟩)
        · exact h.all i (List.mem_range.1 hi)
        · exact absurd hpre hother
    · rw [h.kept.mem hpre]
      constructor
      · exact fun hkey => .inr ⟨hkey, hpre⟩
      · rintro (⟨i, -, rfl⟩ | ⟨hkey, -⟩)
        · exact absurd (prefix_docKey i) hpre
        · exact hkey
  have hlength := hperm.length_eq
  rw [List.length_append, List.length_map, List.length_range] at hlength
  rw [← hlength]
  simp [AList.keys, List.keys]

theorem indexReady_error {fields : List Element} {e : LoadError} {n : Int} {rows : Nat}
    (h : indexReady job.atLeastOne fields = .error e) : e ≠ .dbSizeMismatch n rows := by
  unfold indexReady at h
  split at h
  · cases h
  · split at h
    · cases h
      exact LoadError.noConfusion
    · split at h <;> cases h
      exact LoadError.noConfusion

/-- A reuse is accepted, or refused for the number of keys, by whether there were other keys. -/
theorem verify_size (hserver : server.Documented job) {ks₀ : Keyspace}
    (hload : Loaded job.train ks₀ s.keyspace) :
    ((verifyReusableIndex server link job s).2 = .ok () → otherKeys ks₀ = []) ∧
      (otherKeys ks₀ = [] → ∀ n rows,
        (verifyReusableIndex server link job s).2 ≠ .error (.dbSizeMismatch n rows)) := by
  have hinfo : (server.roundTrip link [infoRequest job] s).1.keyspace = s.keyspace :=
    roundTrip_unchanged fun time => hserver.info time s.keyspace
  have hsize := hload.size
  unfold verifyReusableIndex
  generalize server.roundTrip link [infoRequest job] s = out at hinfo
  split
  · simp
  · rename_i u fields
    split
    · rename_i e hready
      refine ⟨fun h => (by cases h), fun _ n rows h => ?_⟩
      exact indexReady_error hready (Except.error.inj h)
    · simp
    · split
      · simp
      · rename_i n hcount
        obtain ⟨value, hvalue, hexec⟩ := roundTrip_one hcount
        obtain rfl := List.singleton_inj.1 hvalue
        have hn : n = (s.keyspace.entries.length : Int) := by
          rw [show u.keyspace = s.keyspace from hinfo] at hexec
          rcases hserver.dbSize u.sent.length s.keyspace with ⟨e, he⟩ | he
          · cases (Prod.mk.inj (hexec.symm.trans he)).2
          · exact Value.integer.inj (Prod.mk.inj (hexec.symm.trans he)).2
        split
        · rename_i heq
          refine ⟨fun _ => List.eq_nil_of_length_eq_zero (by omega), by simp⟩
        · rename_i hne
          refine ⟨fun h => (by cases h), fun hnone => absurd ?_ hne⟩
          rw [hnone, List.length_nil] at hsize
          omega
      · simp
  · simp
  · simp

/-- What the server reads in a row's field is the row. -/
theorem decode_blob (train : Train) {i : Nat} (hi : i < train.rows.length) :
    Codec.word32.decodeMany train.ncols (f32LeBlob (train.rows.getD i [])) =
      some (train.rows[i], []) := by
  have hstream := Codec.word32.decodeMany_stream train.rows[i] []
  rw [train.length_row _ (List.getElem_mem hi), List.append_nil] at hstream
  have hrow : train.rows.getD i [] = train.rows[i] := by simp [hi]
  rw [hrow]
  exact hstream

theorem Loaded.keys_rows {train : Train} {ks₀ ks : Keyspace} (h : Loaded train ks₀ ks)
    {keys : List Key} (hkeys : ∀ key ∈ keys, key ∈ ks ∧ prefixBytes <+: key) :
    ∃ ids : List Nat, keys = ids.map docKey ∧ ∀ i ∈ ids, i < train.rows.length := by
  induction keys with
  | nil => exact ⟨[], rfl, fun i hi => (by cases hi)⟩
  | cons key keys ih =>
    obtain ⟨⟨hkey, hpre⟩, hrest⟩ := List.forall_mem_cons.1 hkeys
    obtain ⟨i, hi, rfl, -⟩ := h.only key hkey hpre
    obtain ⟨ids, rfl, hids⟩ := ih hrest
    exact ⟨i :: ids, rfl, List.forall_mem_cons.2 ⟨hi, hids⟩⟩

/-- **Load, then query.** Against a server that does what it documents, whatever it held, whatever
fails on the way and however far the run is, no key outside the prefix is touched. A run that
succeeds leaves under the prefix one key for each row, with the row's floats as the server reads
them, and nothing else, so the keys of any reply to a query are read back as numbers of rows. A
later run that reuses the index is accepted only if there was no other key, and with none it is not
refused for the number of keys. -/
theorem prepare_replaces (hserver : server.Documented job) {fuel : Nat} {t : Session}
    {result : Option (Except LoadError Unit)} (h : prepare server link job fuel s = (t, result)) :
    Kept s.keyspace t.keyspace ∧
      (result = some (.ok ()) →
        (∀ key, prefixBytes <+: key →
          (key ∈ t.keyspace ↔ ∃ i < job.train.rows.length, key = docKey i)) ∧
        (∀ i (hi : i < job.train.rows.length), ∃ fields blob,
          t.keyspace.lookup (docKey i) = some (.hash fields) ∧
            fields.lookup vectorField = some blob ∧
            Codec.word32.decodeMany job.train.ncols blob = some (job.train.rows[i], [])) ∧
        (job.train.rows.length ≤ 2 ^ 63 → ∀ (count : Item) (keys : List Key),
          (∀ key ∈ keys, key ∈ t.keyspace ∧ prefixBytes <+: key) → ∃ ids : List Nat,
            keys = ids.map docKey ∧ (∀ i ∈ ids, i < job.train.rows.length) ∧
              parseKnnReply (.array (count :: keys.map .bulkString)) =
                .ok (ids.map fun i => (i : Int))) ∧
        (∀ u link, u.keyspace = t.keyspace →
          ((verifyReusableIndex server link job u).2 = .ok () → otherKeys s.keyspace = []) ∧
            (otherKeys s.keyspace = [] → ∀ n rows,
              (verifyReusableIndex server link job u).2 ≠ .error (.dbSizeMismatch n rows)))) := by
  obtain ⟨hkept, hload⟩ := prepare_keyspace hserver h
  refine ⟨hkept, fun hok => ?_⟩
  have hloaded := hload hok
  refine ⟨fun key hpre => ⟨fun hkey => ?_, ?_⟩, fun i hi => ?_,
    fun hrows count keys hkeys => ?_, fun u link hu => ?_⟩
  · obtain ⟨i, hi, rfl, -⟩ := hloaded.only key hkey hpre
    exact ⟨i, hi, rfl⟩
  · rintro ⟨i, hi, rfl⟩
    exact hloaded.all i hi
  · obtain ⟨j, -, hj, hrow⟩ := hloaded.only _ (hloaded.all i hi) (prefix_docKey i)
    obtain rfl := docKey_injective hj
    refine ⟨_, _, hrow, ?_, decode_blob job.train hi⟩
    exact AList.mem_lookup_iff.2 (List.mem_singleton_self _)
  · obtain ⟨ids, rfl, hids⟩ := hloaded.keys_rows hkeys
    refine ⟨ids, rfl, hids, ?_⟩
    rw [List.map_map]
    exact parseKnnReply_docKeys count fun i hi => (hids i hi).trans_le hrows
  · exact verify_size hserver (hu ▸ hloaded)

/-! ## A run over a stale key -/

/-- It refuses nothing, and has few keys, so one scan finds all. -/
def smallServer : Server where
  scan _ _ pattern ks := (ks.keys.filter fun key => pattern.dropLast.isPrefixOf key, bytes "0")
  execute _ ks
    | [name, key, field, value] =>
      if name = bytes "HSET" then
        match ks.lookup key with
        | none => (ks.insert key (.hash (AList.singleton field value)), .integer 1)
        | some (.hash fields) => (ks.insert key (.hash (fields.insert field value)), .integer 0)
        | some .other => (ks, .error (bytes "WRONGTYPE"))
      else (ks, .simpleString (bytes "OK"))
    | [_, _, _, _, pattern] =>
      let keys := ks.keys.filter fun key => pattern.dropLast.isPrefixOf key
      (keys.foldl (fun ks key => ks.erase key) ks, .bulkString (bytes "0"))
    | [name, _] =>
      (ks, if name = bytes "FT.INFO" then
        .array [.bulkString (bytes "state"), .bulkString (bytes "ready"),
          .bulkString (bytes "backfill_in_progress"), .integer 0,
          .bulkString (bytes "mutation_queue_size"), .integer 0]
        else .simpleString (bytes "OK"))
    | [_] => (ks, .integer ks.entries.length)
    | _ => (ks, .simpleString (bytes "OK"))

theorem lookup_eraseAll (keys : List Key) (ks : Keyspace) (key : Key) :
    (keys.foldl (fun ks key => ks.erase key) ks).lookup key =
      if key ∈ keys then none else ks.lookup key := by
  induction keys generalizing ks with
  | nil => rfl
  | cons k keys ih =>
    rw [List.foldl_cons, ih]
    by_cases hk : key = k
    · subst hk
      simp [AList.lookup_erase]
    · simp [hk, AList.lookup_erase_ne hk]

theorem smallServer_documented (job : LoadJob) : smallServer.Documented job where
  hset {ks key fields} hfields time field value := by
    refine .inr ?_
    rcases hfields with ⟨hnone, rfl⟩ | hhash
    · exact ⟨1, by simp [smallServer, hnone]⟩
    · exact ⟨0, by simp [smallServer, hhash]⟩
  eval time ks cursor := .inr ⟨_, rfl, lookup_eraseAll _ ks⟩
  matching time cursor ks key hkey := List.isPrefixOf_iff_prefix.1 (List.mem_filter.1 hkey).2
  full stores hne _ key hpre hall := by
    cases stores with
    | nil => exact absurd rfl hne
    | cons store stores =>
      refine List.mem_append_left _ (List.mem_filter.2 ⟨?_, ?_⟩)
      · exact AList.mem_keys.1 (hall store List.mem_cons_self)
      · exact List.isPrefixOf_iff_prefix.2 hpre
  dropIndex _ _ := rfl
  create _ _ _ := rfl
  info _ _ := rfl
  dbSize _ _ := .inr rfl

def oneColumn : LoadJob where
  train := ⟨[[1065353216], [0]], 1, by decide⟩
  metric := "euclidean"
  loadBatch := 1
  index := "idx"
  m := 16
  efConstruction := 64
  atLeastOne _ := none

/-- A row of a longer dataset is left from before, and a key that is not the run's. -/
def staleSession : Session where
  keyspace := (AList.singleton (docKey 7) .other).insert (bytes "user") .other
  sent := []

theorem stale_run : ∃ t : Session,
    prepare smallServer (fun _ => .up) oneColumn 1 staleSession = (t, some (.ok ())) := by
  have hrun : (prepare smallServer (fun _ => .up) oneColumn 1 staleSession).2.any
      Except.toBool = true := by decide +kernel
  generalize prepare smallServer (fun _ => .up) oneColumn 1 staleSession = out at hrun
  obtain ⟨t, result⟩ := out
  obtain ⟨outcome, rfl, hok⟩ := (Option.any_eq_true _ _).1 hrun
  cases outcome with
  | error e => cases hok
  | ok value => exact ⟨t, rfl⟩

theorem prepare_replaces_stale : ∃ t : Session,
    prepare smallServer (fun _ => .up) oneColumn 1 staleSession = (t, some (.ok ())) ∧
      docKey 7 ∉ t.keyspace ∧ docKey 1 ∈ t.keyspace ∧
      t.keyspace.lookup (bytes "user") = some .other := by
  obtain ⟨t, ht⟩ := stale_run
  obtain ⟨hkept, hrows⟩ := prepare_replaces (smallServer_documented oneColumn) ht
  obtain ⟨hkeys, -⟩ := hrows rfl
  refine ⟨t, ht, fun hkey => ?_, (hkeys _ (prefix_docKey 1)).2 ⟨1, by decide, rfl⟩, ?_⟩
  · obtain ⟨i, hi, h7⟩ := (hkeys _ (prefix_docKey 7)).1 hkey
    have hi2 : i < 2 := hi
    have := docKey_injective h7
    omega
  · exact hkept _ (by decide)

end Search
