import Cachecannon.Worker.IpAddr
import Cachecannon.Worker.Proof.Address

/-!
# The text of an IP address reads back

`readNumber_toDigits` reads one group, `readGroups_groupsText` a run of groups and
`parseIpAddr_display` an address.
-/

namespace Worker

variable {radix : Nat} {s rest : List Char}

/-! ## Numbers -/

theorem filterMap_of_mapM {α β : Type} {f : α → Option β} {l : List α} {m : List β}
    (h : l.mapM f = some m) : l.filterMap f = m ∧ ∀ a ∈ l, (f a).isSome := by
  induction l generalizing m with
  | nil =>
    obtain rfl : [] = m := by simpa using h
    simp
  | cons a l ih =>
    rw [List.mapM_cons] at h
    cases ha : f a with
    | none => simp [ha] at h
    | some b =>
      cases hl : l.mapM f with
      | none => simp [ha, hl] at h
      | some m' =>
        obtain rfl : b :: m' = m := by simpa [ha, hl] using h
        obtain ⟨hmap, hall⟩ := ih hl
        simp only [List.filterMap_cons, ha, hmap, List.mem_cons, forall_eq_or_imp, true_and]
        exact ⟨rfl, hall⟩

/-- What follows a number does not go on with a digit. -/
def Stops (radix : Nat) (rest : List Char) : Prop :=
  ∀ c, rest.head? = some c → toDigit radix c = none

theorem stops_nil : Stops radix [] := fun c h => by cases h

theorem readNumber_toDigits (hone : 1 < radix) (hradix : radix ≤ 16) {n bound : Nat}
    (hn : n < bound) {maxDigits : Option Nat} {allowZeroPrefix : Bool}
    (hlen : maxDigits.any (· < (Nat.toDigits radix n).length) = false)
    (hzero : (!allowZeroPrefix && (Nat.toDigits radix n).head? == some '0' &&
      decide (1 < (Nat.toDigits radix n).length)) = false)
    (hrest : Stops radix rest) :
    readNumber radix maxDigits allowZeroPrefix bound (Nat.toDigits radix n ++ rest) =
      some (n, rest) := by
  obtain ⟨ds, hds, hval⟩ := mapM_toDigits hone hradix n
  obtain ⟨hmap, hall⟩ := filterMap_of_mapM hds
  have htake : rest.takeWhile (fun c => (toDigit radix c).isSome) = [] := by
    cases rest with
    | nil => rfl
    | cons c rest => simp [hrest c rfl]
  have hdrop : rest.dropWhile (fun c => (toDigit radix c).isSome) = rest := by
    cases rest with
    | nil => rfl
    | cons c rest => simp [hrest c rfl]
  have hne : Nat.toDigits radix n ≠ [] := Nat.toDigits_ne_nil
  simp only [readNumber, List.takeWhile_append_of_pos hall, List.dropWhile_append_of_pos hall,
    htake, hdrop, List.append_nil, hmap, hval, hlen, hzero, decide_eq_false (Nat.not_le.2 hn)]
  simp

theorem readNumber_octet {octet : Nat} (h : octet < 256) (hrest : Stops 10 rest) :
    readNumber 10 (some 3) false 256 (Nat.toDigits 10 octet ++ rest) = some (octet, rest) := by
  have hdigits : ∀ octet < 256, (Nat.toDigits 10 octet).length ≤ 3 ∧
      ((Nat.toDigits 10 octet).head? == some '0' &&
        decide (1 < (Nat.toDigits 10 octet).length)) = false := by decide +kernel
  obtain ⟨hlen, hzero⟩ := hdigits octet h
  exact readNumber_toDigits (by decide) (by decide) h (by simpa using hlen) (by simpa using hzero)
    hrest

theorem readNumber_segment {segment : Nat} (h : segment < 2 ^ 16) (hrest : Stops 16 rest) :
    readNumber 16 (some 4) true (2 ^ 16) (Nat.toDigits 16 segment ++ rest) =
      some (segment, rest) := by
  have hlen := (Nat.length_toDigits_le_iff (b := 16) (by decide) (by decide : 0 < 4)).2 h
  exact readNumber_toDigits (by decide) (by decide) h (by simpa using hlen) rfl hrest

theorem readNumber_stops {maxDigits : Option Nat} {allowZeroPrefix : Bool} {bound : Nat}
    (h : Stops radix s) : readNumber radix maxDigits allowZeroPrefix bound s = none := by
  cases s with
  | nil => simp [readNumber]
  | cons c s => simp [readNumber, h c rfl]

/-! ## IPv4 -/

theorem stops_cons {c : Char} (h : toDigit radix c = none) : Stops radix (c :: rest) :=
  fun _ hc => Option.some.inj hc ▸ h

theorem readIpv4Addr_display {a b c d : Nat} (ha : a < 256) (hb : b < 256) (hc : c < 256)
    (hd : d < 256) (hrest : Stops 10 rest) :
    readIpv4Addr (displayIpv4 [a, b, c, d] ++ rest) = some ([a, b, c, d], rest) := by
  have hdot : ∀ rest, Stops 10 ('.' :: rest) := fun rest => stops_cons rfl
  simp [displayIpv4, List.intercalate, readIpv4Addr, readOctet, readSeparator, readGivenChar,
    readNumber_octet ha (hdot _), readNumber_octet hb (hdot _), readNumber_octet hc (hdot _),
    readNumber_octet hd hrest]

theorem readNumber_rest {maxDigits : Option Nat} {allowZeroPrefix : Bool} {bound n : Nat}
    (h : readNumber radix maxDigits allowZeroPrefix bound s = some (n, rest)) :
    rest = s.dropWhile fun c => (toDigit radix c).isSome := by
  simp only [readNumber] at h
  split at h
  · cases h
  · exact (congrArg Prod.snd (Option.some.inj h)).symm

/-- Where a number is not followed by a dot there is no IPv4 address. -/
theorem readIpv4Addr_none
    (h : (s.dropWhile fun c => (toDigit 10 c).isSome).head? ≠ some '.') :
    readIpv4Addr s = none := by
  cases hoctet : readNumber 10 (some 3) false 256 s with
  | none => simp [readIpv4Addr, readOctet, readSeparator, hoctet]
  | some read =>
    obtain ⟨octet, rest⟩ := read
    have hdot : readGivenChar '.' rest = none := by
      rw [← readNumber_rest hoctet] at h
      cases rest with
      | nil => rfl
      | cons c rest =>
        simp only [readGivenChar]
        exact if_neg fun hc => h (by rw [hc]; rfl)
    simp [readIpv4Addr, readOctet, readSeparator, hoctet, hdot]

/-! ## Segments -/

/-- The text of a run of segments, the first of them with index `i`. -/
def groupsText : Nat → List Nat → List Char
  | _, [] => []
  | i, segment :: segments =>
    (if 0 < i then [':'] else []) ++ Nat.toDigits 16 segment ++ groupsText (i + 1) segments

theorem groupsText_zero (chunk : List Nat) : groupsText 0 chunk = fmtSubslice chunk := by
  have hsucc : ∀ i segment segments, groupsText (i + 1) (segment :: segments) =
      ':' :: fmtSubslice (segment :: segments) := by
    intro i segment segments
    induction segments generalizing i segment with
    | nil => simp [groupsText, fmtSubslice, List.intercalate]
    | cons segment' segments ih =>
      rw [groupsText, ih]
      simp [fmtSubslice, List.intercalate]
  cases chunk with
  | nil => rfl
  | cons segment segments =>
    cases segments with
    | nil => simp [groupsText, fmtSubslice, List.intercalate]
    | cons segment' segments =>
      rw [groupsText, hsucc]
      simp [fmtSubslice, List.intercalate]

/-- What may follow a run of segments: nothing, or a colon. -/
def Ends (rest : List Char) : Prop := ∀ c, rest.head? = some c → c = ':'

theorem Ends.stops (h : Ends rest) : Stops radix rest := by
  intro c hc
  obtain rfl := h c hc
  rfl

theorem ends_groupsText (h : Ends rest) {i : Nat} (hi : 0 < i) (segments : List Nat) :
    Ends (groupsText i segments ++ rest) := by
  cases segments with
  | nil => exact h
  | cons segment segments =>
    intro c hc
    simpa [groupsText, hi, eq_comm] using hc

/-- A segment is no IPv4 address. -/
theorem readIpv4Addr_segment (segment : Nat) (h : Ends rest) :
    readIpv4Addr (Nat.toDigits 16 segment ++ rest) = none := by
  apply readIpv4Addr_none
  have hdigits : ∀ c ∈ Nat.toDigits 16 segment, c ≠ '.' := by
    have hall : ∀ d < 16, d.digitChar ≠ '.' := by decide
    intro c hc
    obtain ⟨d, hd, rfl⟩ := mem_toDigits (by decide) hc
    exact hall d hd
  generalize Nat.toDigits 16 segment = digits at hdigits
  induction digits with
  | nil =>
    cases rest with
    | nil => simp
    | cons c rest =>
      obtain rfl := h c rfl
      simp [toDigit]
  | cons c digits ih =>
    rw [List.cons_append, List.dropWhile_cons]
    split
    · exact ih fun c hc => hdigits c (List.mem_cons_of_mem _ hc)
    · simpa using hdigits c List.mem_cons_self

theorem readSeparator_group {α : Type} (inner : List Char → Option (α × List Char)) (i : Nat)
    (s : List Char) : readSeparator ':' i inner ((if 0 < i then [':'] else []) ++ s) = inner s := by
  unfold readSeparator
  split <;> rfl

/-- Reading goes on behind a run of segments. -/
theorem readGroups_groupsText {segments : List Nat} (hsegments : ∀ s ∈ segments, s < 2 ^ 16)
    (hrest : Ends rest) (limit i : Nat) :
    readGroups (segments.length + limit) i (groupsText i segments ++ rest) =
      let (groups, ipv4, rest) := readGroups limit (i + segments.length) rest
      (segments ++ groups, ipv4, rest) := by
  induction segments generalizing i with
  | nil => simp [groupsText]
  | cons segment segments ih =>
    have htail : Ends (groupsText (i + 1) segments ++ rest) :=
      ends_groupsText hrest (Nat.succ_pos i) segments
    have hread := readNumber_segment (hsegments segment List.mem_cons_self) (htail.stops)
    have hnext := ih (fun s hs => hsegments s (List.mem_cons_of_mem _ hs)) (i + 1)
    rw [show (segment :: segments).length + limit = segments.length + limit + 1 by
      simp only [List.length_cons]; omega, groupsText, List.append_assoc, List.append_assoc,
      readGroups, readSeparator_group, readSeparator_group, readIpv4Addr_segment segment htail,
      hread]
    simp only [ite_self, hnext]
    rw [show i + 1 + segments.length = i + (segment :: segments).length by
      simp only [List.length_cons]; omega]
    rfl

theorem readGroups_none {limit i : Nat} (hipv4 : readSeparator ':' i readIpv4Addr s = none)
    (hgroup : readSeparator ':' i (readNumber 16 (some 4) true (2 ^ 16)) s = none) :
    readGroups limit i s = ([], false, s) := by
  cases limit with
  | zero => rfl
  | succ limit => rw [readGroups, hipv4, ite_self, hgroup]

theorem readGroups_nil (limit i : Nat) : readGroups limit i [] = ([], false, []) := by
  cases i with
  | zero => exact readGroups_none rfl rfl
  | succ i => exact readGroups_none rfl rfl

/-- No group starts at `::`. -/
theorem readGroups_colons (limit i : Nat) (s : List Char) :
    readGroups limit i (':' :: ':' :: s) = ([], false, ':' :: ':' :: s) := by
  have hipv4 : ∀ s, readIpv4Addr (':' :: s) = none := fun s => readIpv4Addr_none (by simp [toDigit])
  have hgroup : ∀ s, readNumber 16 (some 4) true (2 ^ 16) (':' :: s) = none :=
    fun s => readNumber_stops (stops_cons rfl)
  cases i with
  | zero => exact readGroups_none (hipv4 (':' :: s)) (hgroup (':' :: s))
  | succ i => exact readGroups_none (hipv4 s) (hgroup s)

theorem readIpv6Addr_full {segments : List Nat} (hsegments : ∀ s ∈ segments, s < 2 ^ 16)
    (hlen : segments.length = 8) : readIpv6Addr (fmtSubslice segments) = some (segments, []) := by
  have hends : Ends [] := fun c hc => by cases hc
  have hread := readGroups_groupsText hsegments hends 0 0
  rw [readGroups_nil, List.append_nil, groupsText_zero, Nat.add_zero, hlen] at hread
  simp [readIpv6Addr, hread, hlen]

/-- Segments, `::` for the zeros, and more groups. -/
theorem readIpv6Addr_compressed {head tail : List Nat} (hhead : ∀ s ∈ head, s < 2 ^ 16)
    {tailText : List Char} {ipv4 : Bool} (hlen : head.length ≤ 6)
    (htail : readGroups (7 - head.length) 0 tailText = (tail, ipv4, [])) :
    readIpv6Addr (fmtSubslice head ++ "::".toList ++ tailText) =
      some (head ++ List.replicate (8 - head.length - tail.length) 0 ++ tail, []) := by
  have hcolons : Ends (':' :: ':' :: tailText) := fun c hc => (Option.some.inj hc).symm
  have hread := readGroups_groupsText hhead hcolons (8 - head.length) 0
  rw [readGroups_colons, groupsText_zero, show head.length + (8 - head.length) = 8 by omega]
    at hread
  simp only [List.append_nil] at hread
  have hlimit : 8 - (head.length + 1) = 7 - head.length := by omega
  simp [readIpv6Addr, hread, show head.length ≠ 8 by omega, readGivenChar, hlimit, htail]

/-! ## The run of zeros -/

/-- The segments of the span are there, and zero. -/
structure Span.Zeros (span : Span) (segments : List Nat) : Prop where
  fits : span.start + span.len ≤ segments.length
  zeros : ∀ k, span.start ≤ k → k < span.start + span.len → segments[k]? = some 0

theorem zeroSpan_zeros {done segments : List Nat} {longest current : Span}
    (hlongest : longest.Zeros (done ++ segments)) (hcurrent : current.Zeros (done ++ segments))
    (hend : current.len = 0 ∨ current.start + current.len = done.length) :
    (zeroSpan done.length longest current segments).Zeros (done ++ segments) := by
  induction segments generalizing done longest current with
  | nil => exact hlongest
  | cons segment segments ih =>
    have hsplit : done ++ segment :: segments = (done ++ [segment]) ++ segments := by simp
    have hlen : (done ++ [segment]).length = done.length + 1 := by simp
    have hnext : ∀ {longest current : Span}, longest.Zeros (done ++ segment :: segments) →
        current.Zeros (done ++ segment :: segments) →
        (current.len = 0 ∨ current.start + current.len = done.length + 1) →
        (zeroSpan (done.length + 1) longest current segments).Zeros
          (done ++ segment :: segments) := by
      intro longest current hlongest hcurrent hend
      rw [hsplit] at hlongest hcurrent ⊢
      rw [← hlen] at hend ⊢
      exact ih hlongest hcurrent hend
    have hnone : (Span.mk 0 0).Zeros (done ++ segment :: segments) :=
      ⟨by simp, fun k _ hk => absurd hk (by simp)⟩
    rw [zeroSpan]
    split
    · rename_i hzero
      have hstart : (if current.len = 0 then done.length else current.start) + current.len =
          done.length := by
        split <;> omega
      have hgrown : (Span.mk (if current.len = 0 then done.length else current.start)
          (current.len + 1)).Zeros (done ++ segment :: segments) := by
        refine ⟨?_, fun k hk hlt => ?_⟩
        · simp only [List.length_append, List.length_cons]
          omega
        · by_cases hlast : k = done.length
          · simp [hlast, hzero]
          · have hpos : current.len ≠ 0 := by
              intro h0
              simp only [h0, if_true] at hk hlt
              omega
            simp only [hpos, if_false] at hk hlt hstart
            exact hcurrent.zeros k hk (by omega)
      refine hnext ?_ hgrown (.inr (by simp only; omega))
      exact iteInduction (motive := fun span => Span.Zeros span _) (fun _ => hgrown)
        fun _ => hlongest
    · exact hnext hlongest hnone (.inl rfl)

theorem Span.Zeros.split {span : Span} {segments : List Nat} (h : span.Zeros segments) :
    segments = segments.take span.start ++ List.replicate span.len 0 ++
      segments.drop (span.start + span.len) := by
  have hfits := h.fits
  have hmiddle : (segments.drop span.start).take span.len = List.replicate span.len 0 := by
    apply List.ext_getElem?
    intro k
    by_cases hk : k < span.len
    · rw [List.getElem?_take_of_lt hk, List.getElem?_drop, List.getElem?_replicate, if_pos hk]
      exact h.zeros _ (by omega) (by omega)
    · rw [List.getElem?_eq_none (by simp; omega), List.getElem?_eq_none (by simp; omega)]
  rw [← hmiddle, List.append_assoc, ← List.drop_drop, List.take_append_drop,
    List.take_append_drop]

/-! ## Addresses -/

/-- The IPv4 part of an address, in its last two segments. -/
theorem readGroups_mapped {x y : Nat} (hx : x < 2 ^ 16) (hy : y < 2 ^ 16) :
    readGroups 7 0 ("ffff:".toList ++ displayIpv4 [x / 256, x % 256, y / 256, y % 256]) =
      ([0xffff, x, y], true, []) := by
  have hread := readIpv4Addr_display (show x / 256 < 256 by omega) (show x % 256 < 256 by omega)
    (show y / 256 < 256 by omega) (show y % 256 < 256 by omega) stops_nil
  rw [List.append_nil] at hread
  generalize displayIpv4 [x / 256, x % 256, y / 256, y % 256] = text at hread
  have hends : Ends (':' :: text) := fun c hc => (Option.some.inj hc).symm
  have hgroup : ∀ s ∈ [0xffff], s < 2 ^ 16 := by simp
  have hfirst := readGroups_groupsText hgroup hends 6 0
  have htext : groupsText 0 [0xffff] ++ ':' :: text = "ffff:".toList ++ text := by
    have hdigits : Nat.toDigits 16 0xffff = "ffff".toList := by decide
    simp [groupsText, hdigits]
  have hrest : readGroups 6 1 (':' :: text) = ([x, y], true, []) := by
    have hseparated : readSeparator ':' 1 readIpv4Addr (':' :: text) =
        some ([x / 256, x % 256, y / 256, y % 256], []) := hread
    simp [readGroups, hseparated]
    omega
  rw [htext] at hfirst
  simpa [hrest] using hfirst

theorem readIpv6Addr_display {segments : List Nat} (hlen : segments.length = 8)
    (hsegments : ∀ s ∈ segments, s < 2 ^ 16) :
    readIpv6Addr (displayIpv6 segments) = some (segments, []) := by
  unfold displayIpv6
  split
  · rename_i x y
    have hread := @readIpv6Addr_compressed [] _ (by simp) _ _ (by simp)
      (readGroups_mapped (hsegments x (by simp)) (hsegments y (by simp)))
    exact hread
  · dsimp only
    have hnone : (Span.mk 0 0).Zeros segments := ⟨by simp, fun k _ hk => absurd hk (by simp)⟩
    have hzeros : (zeroSpan 0 ⟨0, 0⟩ ⟨0, 0⟩ segments).Zeros segments :=
      @zeroSpan_zeros [] segments _ _ hnone hnone (.inl rfl)
    generalize zeroSpan 0 ⟨0, 0⟩ ⟨0, 0⟩ segments = zeroes at hzeros
    split
    · rename_i hlong
      have hfits := hzeros.fits
      have hhead : (segments.take zeroes.start).length = zeroes.start := by simp; omega
      have htail : (segments.drop (zeroes.start + zeroes.len)).length =
          8 - (zeroes.start + zeroes.len) := by simp [hlen]
      have hends : Ends [] := fun c hc => by cases hc
      have hvalid : ∀ s ∈ segments.drop (zeroes.start + zeroes.len), s < 2 ^ 16 :=
        fun s hs => hsegments s (List.mem_of_mem_drop hs)
      have hread := readGroups_groupsText hvalid hends (zeroes.len - 1) 0
      have hgroups : readGroups (7 - (segments.take zeroes.start).length) 0
          (fmtSubslice (segments.drop (zeroes.start + zeroes.len))) =
            (segments.drop (zeroes.start + zeroes.len), false, []) := by
        rw [readGroups_nil, List.append_nil, groupsText_zero, htail,
          show 8 - (zeroes.start + zeroes.len) + (zeroes.len - 1) = 7 - zeroes.start by omega]
          at hread
        rw [hhead, hread]
        simp
      rw [readIpv6Addr_compressed (fun s hs => hsegments s (List.mem_of_mem_take hs)) (by omega)
        hgroups, hhead, htail,
        show 8 - zeroes.start - (8 - (zeroes.start + zeroes.len)) = zeroes.len by omega,
        ← hzeros.split]
    · exact readIpv6Addr_full hsegments hlen

/-- A run of segments does not start with an IPv4 address. -/
theorem readIpv4Addr_groupsText (segments : List Nat) (hrest : Ends rest) :
    readIpv4Addr (groupsText 0 segments ++ rest) = none := by
  cases segments with
  | nil =>
    apply readIpv4Addr_none
    cases rest with
    | nil => simp [groupsText]
    | cons c rest =>
      obtain rfl := hrest c rfl
      simp [groupsText, toDigit]
  | cons segment segments =>
    rw [groupsText, List.append_assoc, List.append_assoc]
    exact readIpv4Addr_segment segment (ends_groupsText hrest (by decide) segments)

theorem readIpv4Addr_displayIpv6 (segments : List Nat) :
    readIpv4Addr (displayIpv6 segments) = none := by
  have hcolon : ∀ text, Ends (':' :: text) := fun text c hc => (Option.some.inj hc).symm
  unfold displayIpv6
  split
  · exact readIpv4Addr_groupsText [] (hcolon _)
  · dsimp only
    split
    · rw [List.append_assoc, ← groupsText_zero (segments.take _)]
      exact readIpv4Addr_groupsText _ (hcolon _)
    · have hends : Ends [] := fun c hc => by cases hc
      have hnone := readIpv4Addr_groupsText segments hends
      rwa [List.append_nil, groupsText_zero] at hnone

/-- **Round trip.** The text of an address is read as it. -/
theorem parseIpAddr_display {ip : IpAddr} (h : ip.Valid) : parseIpAddr ip.display = some ip := by
  cases ip with
  | v4 octets =>
    obtain ⟨hlen, hoctets⟩ := h
    match octets, hlen with
    | [a, b, c, d], _ =>
      have hread := readIpv4Addr_display (hoctets a (by simp)) (hoctets b (by simp))
        (hoctets c (by simp)) (hoctets d (by simp)) stops_nil
      rw [List.append_nil] at hread
      simp [parseIpAddr, readIpAddr, IpAddr.display, hread]
  | v6 segments =>
    obtain ⟨hlen, hsegments⟩ := h
    simp [parseIpAddr, readIpAddr, IpAddr.display, readIpv4Addr_displayIpv6,
      readIpv6Addr_display hlen hsegments]

/-! ## Characters -/

theorem mem_intercalate {sep c : Char} {parts : List (List Char)}
    (h : c ∈ List.intercalate [sep] parts) : c = sep ∨ ∃ part ∈ parts, c ∈ part := by
  induction parts with
  | nil => simp [List.intercalate] at h
  | cons part parts ih =>
    cases parts with
    | nil => exact .inr ⟨part, by simp, by simpa [List.intercalate] using h⟩
    | cons part' parts =>
      have hcons : List.intercalate [sep] (part :: part' :: parts) =
          part ++ sep :: List.intercalate [sep] (part' :: parts) := by simp [List.intercalate]
      rw [hcons, List.mem_append, List.mem_cons] at h
      rcases h with h | h | h
      · exact .inr ⟨part, by simp, h⟩
      · exact .inl h
      · rcases ih h with h | ⟨part, hpart, hc⟩
        · exact .inl h
        · exact .inr ⟨part, List.mem_cons_of_mem _ hpart, hc⟩

section Characters

variable {P : Char → Prop} (hdigit : ∀ d < 16, P d.digitChar) (hdot : P '.') (hcolon : P ':')

include hdigit

theorem forall_mem_join {sep : Char} (hsep : P sep) (hone : 1 < radix) (hradix : radix ≤ 16)
    (parts : List Nat) : ∀ c ∈ List.intercalate [sep] (parts.map (Nat.toDigits radix)), P c := by
  intro c hc
  rcases mem_intercalate hc with rfl | ⟨part, hpart, hc⟩
  · exact hsep
  · obtain ⟨n, -, rfl⟩ := List.mem_map.1 hpart
    obtain ⟨d, hd, rfl⟩ := mem_toDigits hone hc
    exact hdigit d (hd.trans_le hradix)

include hdot hcolon

/-- The text of an address has hex digits, dots and colons. -/
theorem display_forall (ip : IpAddr) : ∀ c ∈ ip.display, P c := by
  have hcolons : ∀ c ∈ "::".toList, P c := by simpa using hcolon
  have hf : P 'f' := hdigit 15 (by decide)
  cases ip with
  | v4 octets => exact forall_mem_join hdigit hdot (by decide) (by decide) octets
  | v6 segments =>
    show ∀ c ∈ displayIpv6 segments, P c
    unfold displayIpv6
    split
    · refine List.forall_mem_append.2 ⟨by simp [hcolon, hf], ?_⟩
      exact forall_mem_join hdigit hdot (by decide) (by decide) _
    · dsimp only
      have hrun := forall_mem_join hdigit hcolon (by decide : 1 < 16) (by decide)
      split
      · exact List.forall_mem_append.2 ⟨List.forall_mem_append.2 ⟨hrun _, hcolons⟩, hrun _⟩
      · exact hrun segments

end Characters

theorem display_ne_nil {ip : IpAddr} (h : ip.Valid) : ip.display ≠ [] := by
  intro hnil
  have hread := parseIpAddr_display h
  have hnone : parseIpAddr [] = none := by decide
  rw [hnil, hnone] at hread
  cases hread

end Worker
