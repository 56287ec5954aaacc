import Cachecannon.Admin.Exposition
import Mathlib.Data.Bool.AllAny
import Mathlib.Data.Multiset.ZeroCons

/-!
# A scrape reads the registry

What is written of a metric is lines, each of which is read back as itself (`readLine_render`): no
description and no label value, whatever its characters, ends its line or its quotes.

* `Line.render`, `Metric.lines`: the text as lines; `writeMetric_lines`.
* `collect_lines`: the lines of a metric are one family.
-/

namespace Admin

/-! ## Escapes -/

theorem unescapeHelp_escape (text : Chars) : unescapeHelp (escapeHelp text) = text := by
  induction text with
  | nil => rfl
  | cons c text ih =>
    rw [escapeHelp, List.flatMap_cons, ← escapeHelp]
    split
    · simp [unescapeHelp, ih]
    · simp [unescapeHelp, ih]
    · rename_i hslash hline
      have hne : c ≠ '\\' := fun h => hslash h
      simp [unescapeHelp, ih, hne]

theorem readQuoted_escape (value rest : Chars) :
    readQuoted (escapeLabelValue value ++ '"' :: rest) = some (value, rest) := by
  induction value with
  | nil => rfl
  | cons c value ih =>
    rw [escapeLabelValue, List.flatMap_cons, ← escapeLabelValue, List.append_assoc]
    split
    · simp [readQuoted, ih]
    · simp [readQuoted, ih]
    · simp [readQuoted, ih]
    · rename_i hslash hquote hline
      have hne : c ≠ '\\' := fun h => hslash h
      simp [readQuoted, ih, hne]

theorem newline_escapeHelp (text : Chars) : '\n' ∉ escapeHelp text := by
  intro h
  obtain ⟨c, -, hc⟩ := List.mem_flatMap.1 h
  split at hc
  · simp at hc
  · simp at hc
  · rename_i hslash hline
    exact hline (List.mem_singleton.1 hc).symm

theorem newline_escapeLabelValue (value : Chars) : '\n' ∉ escapeLabelValue value := by
  intro h
  obtain ⟨c, -, hc⟩ := List.mem_flatMap.1 h
  split at hc
  · simp at hc
  · simp at hc
  · simp at hc
  · rename_i hslash hquote hline
    exact hline (List.mem_singleton.1 hc).symm

/-! ## Names and numbers -/

/-- A name that a scrape reads: of legal characters, the first no digit. -/
structure LegalName (isChar : Char → Bool) (name : Chars) : Prop where
  chars : ∀ c ∈ name, isChar c = true
  head : ∃ c, name.head? = some c ∧ c.isDigit = false

theorem readName_append {isChar : Char → Bool} {name rest : Chars} (h : LegalName isChar name)
    (hrest : ∀ c, rest.head? = some c → isChar c = false) :
    readName isChar (name ++ rest) = some (name, rest) := by
  have hstop : rest.takeWhile isChar = [] ∧ rest.dropWhile isChar = rest := by
    cases rest with
    | nil => exact ⟨rfl, rfl⟩
    | cons c rest => simp [hrest c rfl]
  have htake : (name ++ rest).takeWhile isChar = name := by
    rw [List.takeWhile_append_of_pos h.chars, hstop.1, List.append_nil]
  have hdrop : (name ++ rest).dropWhile isChar = rest := by
    rw [List.dropWhile_append_of_pos h.chars, hstop.2]
  obtain ⟨c, hc, hdigit⟩ := h.head
  rw [readName, htake, hdrop]
  cases name with
  | nil => cases hc
  | cons d name =>
    obtain rfl := Option.some.inj hc
    simp [hdigit]

theorem readNat_format (n : Nat) : readNat (formatNat n) = some n := by
  have hdigits : (formatNat n).all Char.isDigit = true :=
    List.all_eq_true.2 fun _ hc => Nat.isDigit_of_mem_toDigits (by decide) (by decide) hc
  rw [readNat, if_pos ⟨Nat.toDigits_ne_nil, hdigits⟩, formatNat, Nat.ofDigitChars_ten_toDigits]

theorem readInt_format (n : Int) : readInt (formatInt n) = some n := by
  unfold formatInt
  split
  · have hread : readInt ('-' :: formatNat n.natAbs) = some (-(n.natAbs : Int)) := by
      simp [readInt, readNat_format]
    rw [hread]
    exact congrArg some (by omega)
  · have hminus : ∀ c ∈ formatNat n.natAbs, c ≠ '-' := fun c hc => by
      have := Nat.isDigit_of_mem_toDigits (by decide) (by decide) hc
      rintro rfl
      revert this
      decide
    have hread : readInt (formatNat n.natAbs) = some (n.natAbs : Int) := by
      have hnat := readNat_format n.natAbs
      cases hs : formatNat n.natAbs with
      | nil => exact absurd hs Nat.toDigits_ne_nil
      | cons c s =>
        have hne := hminus c (by simp [hs])
        rw [hs] at hnat
        simp [readInt, hne, hnat]
    rw [hread]
    exact congrArg some (by omega)

/-! ## Lines -/

def renderLabels (labels : List (Chars × Chars)) : Chars :=
  if labels = [] then []
  else ['{'] ++ List.intercalate [','] (labels.map formatPair) ++ ['}']

theorem renderLabels_nil : renderLabels [] = [] := rfl

/-- A line as it is written, without its end. -/
def Line.render : Line → Chars
  | .help name text => "# HELP ".toList ++ name ++ [' '] ++ escapeHelp text
  | .type name kind => "# TYPE ".toList ++ name ++ [' '] ++ kind
  | .sample name labels value => name ++ renderLabels labels ++ [' '] ++ formatInt value

theorem render_help (name text : Chars) :
    (Line.help name text).render = "# HELP ".toList ++ (name ++ [' '] ++ escapeHelp text) := by
  rw [← List.append_assoc, ← List.append_assoc]
  rfl

theorem render_type (name kind : Chars) :
    (Line.type name kind).render = "# TYPE ".toList ++ (name ++ [' '] ++ kind) := by
  rw [← List.append_assoc, ← List.append_assoc]
  rfl

/-- The names in a line are legal, and its kind is a word. -/
def Line.Legal : Line → Prop
  | .help name _ => LegalName isNameChar name
  | .type name kind => LegalName isNameChar name ∧ '\n' ∉ kind
  | .sample name labels _ =>
    LegalName isNameChar name ∧ ∀ pair ∈ labels, LegalName isLabelChar pair.1

theorem intercalate_pairs (pair pair' : Chars × Chars) (labels : List (Chars × Chars)) :
    List.intercalate [','] ((pair :: pair' :: labels).map formatPair) =
      formatPair pair ++ ',' :: List.intercalate [','] ((pair' :: labels).map formatPair) := by
  simp [List.intercalate]

theorem length_le_pairs (labels : List (Chars × Chars)) :
    labels.length ≤ (List.intercalate [','] (labels.map formatPair)).length := by
  induction labels with
  | nil => exact Nat.zero_le _
  | cons pair labels ih =>
    have hpair : 1 ≤ (formatPair pair).length := by
      simp only [formatPair, List.length_append, List.length_singleton]
      omega
    cases labels with
    | nil => simpa [List.intercalate] using hpair
    | cons pair' labels =>
      rw [intercalate_pairs, List.length_append]
      simp only [List.length_cons] at ih ⊢
      omega

theorem readPairs_render {fuel : Nat} {labels : List (Chars × Chars)} (rest : Chars)
    (hfuel : labels.length ≤ fuel) (hne : labels ≠ [])
    (hlegal : ∀ pair ∈ labels, LegalName isLabelChar pair.1) :
    readPairs fuel (List.intercalate [','] (labels.map formatPair) ++ '}' :: rest) =
      some (labels, rest) := by
  induction labels generalizing fuel with
  | nil => exact absurd rfl hne
  | cons pair labels ih =>
    obtain ⟨hpair, hlabels⟩ := List.forall_mem_cons.1 hlegal
    cases fuel with
    | zero => cases hfuel
    | succ fuel =>
      -- a pair, read up to the quote that closes it
      have hread : ∀ rest, readName isLabelChar (formatPair pair ++ rest) =
          some (pair.1, "=\"".toList ++ (escapeLabelValue pair.2 ++ '"' :: rest)) := fun rest => by
        have hequals : ∀ c, ("=\"".toList ++ (escapeLabelValue pair.2 ++ '"' :: rest)).head? =
            some c → isLabelChar c = false := by
          intro c hc
          obtain rfl : '=' = c := Option.some.inj hc
          rfl
        rw [← readName_append hpair hequals]
        simp [formatPair]
      cases labels with
      | nil =>
        simp only [List.map_cons, List.map_nil, List.intercalate_singleton, readPairs, hread,
          Option.bind_eq_bind, Option.bind_some, Codec.skip_append, readQuoted_escape]
      | cons pair' labels =>
        rw [intercalate_pairs, List.append_assoc, List.cons_append]
        simp only [readPairs, hread, Option.bind_eq_bind, Option.bind_some, Codec.skip_append,
          readQuoted_escape, ih (Nat.le_of_succ_le_succ hfuel) (List.cons_ne_nil _ _) hlabels]
        rfl

theorem readName_char {name rest : Chars} {c : Char} (h : LegalName isNameChar name)
    (hc : isNameChar c = false) :
    readName isNameChar (name ++ c :: rest) = some (name, c :: rest) :=
  readName_append h fun d hd => by
    obtain rfl := Option.some.inj hd
    exact hc

theorem readSample_render {name : Chars} {labels : List (Chars × Chars)} {value : Int}
    (h : (Line.sample name labels value).Legal) :
    readSample (name ++ renderLabels labels ++ [' '] ++ formatInt value) =
      some (.sample name labels value) := by
  obtain ⟨hname, hlabels⟩ := h
  have hblank : isNameChar ' ' = false := rfl
  have hbrace : isNameChar '{' = false := rfl
  have hvalue : Codec.skip [' '] (' ' :: formatInt value) = some (formatInt value) :=
    Codec.skip_append [' '] _
  unfold readSample renderLabels
  split
  · rename_i hnone
    subst hnone
    simp only [List.append_assoc, List.cons_append, List.nil_append, readName_char hname hblank,
      Option.bind_eq_bind, Option.bind_some]
    simp [hvalue, readInt_format]
  · rename_i hsome
    have hfuel : labels.length ≤ (List.intercalate [','] (labels.map formatPair) ++
        '}' :: ' ' :: formatInt value).length :=
      (length_le_pairs labels).trans (by simp)
    simp only [List.append_assoc, List.cons_append, List.nil_append, readName_char hname hbrace,
      Option.bind_eq_bind, Option.bind_some, readPairs_render _ hfuel hsome hlabels, hvalue,
      readInt_format]
    rfl

theorem readComment_append {name : Chars} (text : Chars) (h : LegalName isNameChar name) :
    readComment (name ++ [' '] ++ text) = some (name, text) := by
  have hblank : isNameChar ' ' = false := rfl
  have hskip : Codec.skip [' '] (' ' :: text) = some text := Codec.skip_append [' '] _
  simp only [readComment, List.append_assoc, List.cons_append, List.nil_append,
    readName_char h hblank, Option.bind_eq_bind, Option.bind_some, hskip]
  rfl

theorem help_text : "# HELP ".toList = ['#', ' ', 'H', 'E', 'L', 'P', ' '] := rfl

theorem type_text : "# TYPE ".toList = ['#', ' ', 'T', 'Y', 'P', 'E', ' '] := rfl

/-- **A line is read back as itself.** -/
theorem readLine_render {line : Line} (h : line.Legal) : readLine line.render = some line := by
  cases line with
  | help name text =>
    have hskip : Codec.skip "# HELP ".toList (Line.help name text).render =
        some (name ++ [' '] ++ escapeHelp text) := by
      rw [render_help, Codec.skip_append]
    simp only [readLine, hskip, readComment_append _ h, unescapeHelp_escape, Option.map_some]
  | type name kind =>
    have hhelp : Codec.skip "# HELP ".toList (Line.type name kind).render = none := by
      rw [render_type, help_text, type_text]
      rfl
    have hskip : Codec.skip "# TYPE ".toList (Line.type name kind).render =
        some (name ++ [' '] ++ kind) := by
      rw [render_type, Codec.skip_append]
    simp only [readLine, hhelp, hskip, readComment_append _ h.1, Option.map_some]
  | sample name labels value =>
    obtain ⟨c, hc, -⟩ := h.1.head
    obtain ⟨name', rfl⟩ : ∃ name', name = c :: name' := by
      cases name with
      | nil => cases hc
      | cons d name' => exact ⟨name', by rw [Option.some.inj hc]⟩
    have hne : '#' ≠ c := by
      rintro rfl
      have := h.1.chars '#' List.mem_cons_self
      revert this
      decide
    have hnone : ∀ s : Chars,
        Codec.skip ('#' :: s) (Line.sample (c :: name') labels value).render = none :=
      fun s => if_neg hne
    rw [readLine, help_text, type_text, hnone, hnone]
    exact readSample_render h

theorem newline_of_legal {isChar : Char → Bool} {name : Chars} (h : LegalName isChar name)
    (hline : isChar '\n' = false) : '\n' ∉ name := by
  intro hmem
  have := h.chars '\n' hmem
  rw [hline] at this
  cases this

theorem newline_formatNat (n : Nat) : '\n' ∉ formatNat n := by
  intro hmem
  have := Nat.isDigit_of_mem_toDigits (by decide) (by decide) hmem
  revert this
  decide

theorem newline_formatInt (n : Int) : '\n' ∉ formatInt n := by
  unfold formatInt
  split
  · simpa using newline_formatNat n.natAbs
  · exact newline_formatNat n.natAbs

theorem newline_formatPair {pair : Chars × Chars} (h : LegalName isLabelChar pair.1) :
    '\n' ∉ formatPair pair := by
  have hkey := newline_of_legal h rfl
  have hvalue := newline_escapeLabelValue pair.2
  have hequals : '\n' ∉ "=\"".toList := by decide
  simp only [formatPair, List.mem_append, List.mem_singleton, not_or]
  exact ⟨⟨⟨hkey, hequals⟩, hvalue⟩, by decide⟩

theorem newline_intercalate {labels : List (Chars × Chars)}
    (h : ∀ pair ∈ labels, LegalName isLabelChar pair.1) :
    '\n' ∉ List.intercalate [','] (labels.map formatPair) := by
  induction labels with
  | nil => simp [List.intercalate]
  | cons pair labels ih =>
    obtain ⟨hpair, hlabels⟩ := List.forall_mem_cons.1 h
    have hfirst := newline_formatPair hpair
    cases labels with
    | nil => simpa [List.intercalate] using hfirst
    | cons pair' labels =>
      rw [intercalate_pairs, List.mem_append, List.mem_cons]
      rintro (hmem | hmem | hmem)
      · exact hfirst hmem
      · exact absurd hmem (by decide)
      · exact ih hlabels hmem

theorem newline_render {line : Line} (h : line.Legal) : '\n' ∉ line.render := by
  cases line with
  | help name text =>
    have hname : '\n' ∉ name := newline_of_legal h rfl
    have htext := newline_escapeHelp text
    have hstart : '\n' ∉ "# HELP ".toList := by decide
    rw [render_help]
    simp only [List.mem_append, List.mem_singleton, not_or]
    exact ⟨hstart, ⟨hname, by decide⟩, htext⟩
  | type name kind =>
    have hname : '\n' ∉ name := newline_of_legal h.1 rfl
    have hstart : '\n' ∉ "# TYPE ".toList := by decide
    rw [render_type]
    simp only [List.mem_append, List.mem_singleton, not_or]
    exact ⟨hstart, ⟨hname, by decide⟩, h.2⟩
  | sample name labels value =>
    have hname : '\n' ∉ name := newline_of_legal h.1 rfl
    have hvalue := newline_formatInt value
    have hlabels : '\n' ∉ renderLabels labels := by
      unfold renderLabels
      split
      · exact List.not_mem_nil
      · have := newline_intercalate h.2
        simp only [List.mem_append, List.mem_singleton, not_or]
        exact ⟨⟨by decide, this⟩, by decide⟩
    show '\n' ∉ name ++ renderLabels labels ++ [' '] ++ formatInt value
    simp only [List.mem_append, List.mem_singleton, not_or]
    exact ⟨⟨⟨hname, hlabels⟩, by decide⟩, hvalue⟩

/-- Lines one after the other, each with its end. -/
def renderLines (lines : List Line) : Chars := lines.flatMap fun line => line.render ++ ['\n']

theorem splitOn_renderLines {lines : List Line} (h : ∀ line ∈ lines, line.Legal) :
    (renderLines lines).splitOn '\n' = lines.map Line.render ++ [[]] := by
  induction lines with
  | nil => rfl
  | cons line lines ih =>
    obtain ⟨hline, hlines⟩ := List.forall_mem_cons.1 h
    rw [renderLines, List.flatMap_cons, List.append_assoc, List.singleton_append,
      List.splitOn_append_cons_self_of_not_mem (newline_render hline), ← renderLines, ih hlines]
    rfl

theorem textLines_renderLines {lines : List Line} (h : ∀ line ∈ lines, line.Legal) :
    textLines (renderLines lines) = some (lines.map Line.render) := by
  have hsplit := splitOn_renderLines h
  unfold textLines
  split
  · rename_i hempty
    cases lines with
    | nil => rfl
    | cons line lines => simp [renderLines] at hempty
  · simp [hsplit]

theorem mapM_readLine {lines : List Line} (h : ∀ line ∈ lines, line.Legal) :
    (lines.map Line.render).mapM readLine = some lines := by
  induction lines with
  | nil => rfl
  | cons line lines ih =>
    obtain ⟨hline, hlines⟩ := List.forall_mem_cons.1 h
    rw [List.map_cons, List.mapM_cons, readLine_render hline, ih hlines]
    rfl

/-! ## The lines of a metric -/

def labelLe (a b : Chars × Chars) : Bool := formatPair a ≤ formatPair b

theorem formatLabels_eq (metadata : List (Chars × Chars)) :
    formatLabels metadata = renderLabels (metadata.mergeSort labelLe) := by
  have hsort : (metadata.mergeSort labelLe).map formatPair =
      (metadata.map formatPair).mergeSort (· ≤ ·) := List.map_mergeSort fun _ _ _ _ => rfl
  have hnil : metadata.mergeSort labelLe = [] ↔ metadata = [] := by
    rw [← List.length_eq_zero_iff, List.length_mergeSort, List.length_eq_zero_iff]
  unfold formatLabels renderLabels
  simp only [hnil, hsort]

def Sample.line (sample : Sample) : Line := .sample sample.name sample.labels sample.value

/-- The slots of a group that have a value. -/
def shownSlots (slots : List Slot) : List (List (Chars × Chars) × UInt64) :=
  slots.filterMap fun slot => slot.value.map fun v => (slot.labels, v)

def slotRow (slot : List (Chars × Chars) × UInt64) : Chars × UInt64 := (formatLabels slot.1, slot.2)

def slotLe (a b : List (Chars × Chars) × UInt64) : Bool := rowLe (slotRow a) (slotRow b)

def slotSample (name : Chars) (slot : List (Chars × Chars) × UInt64) : Sample :=
  ⟨name, slot.1.mergeSort labelLe, slot.2.toNat⟩

def quantileSample (name : Chars) (row : Chars × UInt64) : Sample :=
  ⟨name, [("quantile".toList, row.1)], row.2.toNat⟩

def totalSamples (name : Chars) (snapshot : Histogram) : List Sample :=
  [⟨name ++ "_count".toList, [], snapshot.count⟩, ⟨name ++ "_sum".toList, [], snapshot.sum⟩]

/-- The kind and the samples of a metric, in the order they are written. -/
def Metric.body (metric : Metric) : Option (Chars × List Sample) :=
  let name := sanitizeName metric.name
  match metric.value with
  | none | some (.histogram none) | some .other => none
  | some (.counter v) => some ("counter".toList, [⟨name, [], v.toNat⟩])
  | some (.gauge v) => some ("gauge".toList, [⟨name, [], v.toInt⟩])
  | some (.counterGroup slots) =>
    if shownSlots slots = [] then none
    else
      some ("counter".toList, ((shownSlots slots).mergeSort slotLe).map (slotSample name))
  | some (.histogram (some snapshot)) =>
    some ("summary".toList,
      snapshot.quantileRows.map (quantileSample name) ++ totalSamples name snapshot)

def helpLines (name : Chars) (description : Option Chars) : List Line :=
  match description.filter (· ≠ []) with
  | none => []
  | some text => [.help name text]

def Metric.lines (metric : Metric) : List Line :=
  match metric.body with
  | none => []
  | some (kind, samples) =>
    helpLines (sanitizeName metric.name) metric.description ++
      .type (sanitizeName metric.name) kind :: samples.map Sample.line

theorem renderLines_append (a b : List Line) :
    renderLines (a ++ b) = renderLines a ++ renderLines b := by
  simp [renderLines]

theorem writeHelp_lines (name : Chars) (description : Option Chars) :
    writeHelp name description = renderLines (helpLines name description) := by
  unfold writeHelp helpLines
  cases description with
  | none => rfl
  | some desc =>
    by_cases hempty : desc = []
    · subst hempty
      rfl
    · simp only [Option.filter_some, hempty, ne_eq, not_false_eq_true, decide_true, if_true,
        if_false, renderLines, List.flatMap_cons, List.flatMap_nil, List.append_nil]
      rfl

theorem writeType_lines (name kind : Chars) :
    writeType name kind = renderLines [.type name kind] := by
  simp only [renderLines, List.flatMap_cons, List.flatMap_nil, List.append_nil]
  rfl

theorem formatInt_natCast (n : Nat) : formatInt n = formatNat n := by
  rw [formatInt, if_neg (by omega), Int.natAbs_natCast]

/-- Samples without labels, and the rows of a group. -/
theorem renderLines_samples (samples : List Sample) :
    renderLines (samples.map Sample.line) = samples.flatMap fun sample =>
      sample.name ++ renderLabels sample.labels ++ [' '] ++ formatInt sample.value ++ ['\n'] := by
  rw [renderLines, List.flatMap_map]
  rfl

theorem rows_eq (slots : List Slot) :
    (slots.filterMap fun slot => slot.value.map fun v => (formatLabels slot.labels, v)) =
      (shownSlots slots).map slotRow := by
  rw [shownSlots, List.map_filterMap]
  congr 1
  funext slot
  cases slot.value <;> rfl

theorem escape_quantile {quantile : Chars} (h : quantile ∈ quantileTexts) :
    escapeLabelValue quantile = quantile := by
  have hall : ∀ quantile ∈ quantileTexts, escapeLabelValue quantile = quantile := by decide
  exact hall quantile h

theorem quantile_row (name : Chars) {row : Chars × UInt64} (h : row.1 ∈ quantileTexts) :
    name ++ "\x7bquantile=\"".toList ++ row.1 ++ "\"\x7d ".toList ++ formatNat row.2.toNat ++
        ['\n'] =
      name ++ renderLabels [("quantile".toList, row.1)] ++ [' '] ++ formatInt row.2.toNat ++
        ['\n'] := by
  have hlabels : renderLabels [("quantile".toList, row.1)] ++ [' '] =
      "\x7bquantile=\"".toList ++ row.1 ++ "\"\x7d ".toList := by
    simp [renderLabels, formatPair, List.intercalate, escape_quantile h]
  have hhead : name ++ renderLabels [("quantile".toList, row.1)] ++ [' '] =
      name ++ "\x7bquantile=\"".toList ++ row.1 ++ "\"\x7d ".toList := by
    rw [List.append_assoc name, hlabels]
    simp only [List.append_assoc]
  rw [formatInt_natCast, hhead]

theorem writeSummary_lines (name : Chars) (description : Option Chars) (snapshot : Histogram) :
    writeHistogramSummary name description snapshot =
      writeHelp name description ++ writeType name "summary".toList ++
        renderLines ((snapshot.quantileRows.map (quantileSample name) ++
          totalSamples name snapshot).map Sample.line) := by
  have hmem : ∀ row ∈ snapshot.quantileRows, row.1 ∈ quantileTexts := by
    intro row hrow
    unfold Histogram.quantileRows at hrow
    split at hrow
    · cases hrow
    · exact (List.of_mem_zip hrow).1
  have hrows : (snapshot.quantileRows.flatMap fun row =>
      name ++ "\x7bquantile=\"".toList ++ row.1 ++ "\"\x7d ".toList ++ formatNat row.2.toNat ++
        ['\n']) =
      snapshot.quantileRows.flatMap fun row =>
        name ++ renderLabels [("quantile".toList, row.1)] ++ [' '] ++ formatInt row.2.toNat ++
          ['\n'] :=
    List.flatMap_congr fun row hrow => quantile_row name (hmem row hrow)
  have hcount : "_count ".toList = "_count".toList ++ [' '] := rfl
  have hsum : "_sum ".toList = "_sum".toList ++ [' '] := rfl
  rw [renderLines_samples, List.flatMap_append, List.flatMap_map, writeHistogramSummary, hrows,
    hcount, hsum]
  simp only [quantileSample, totalSamples, List.flatMap_cons, List.flatMap_nil, formatInt_natCast,
    renderLabels_nil, List.append_nil, List.nil_append, List.append_assoc]

theorem writeGroup_lines (name : Chars) (slots : List Slot) :
    (((shownSlots slots).map slotRow).mergeSort rowLe).flatMap (fun row =>
        name ++ row.1 ++ [' '] ++ formatNat row.2.toNat ++ ['\n']) =
      renderLines ((((shownSlots slots).mergeSort slotLe).map (slotSample name)).map
        Sample.line) := by
  have hsort : ((shownSlots slots).mergeSort slotLe).map slotRow =
      ((shownSlots slots).map slotRow).mergeSort rowLe := List.map_mergeSort fun _ _ _ _ => rfl
  rw [← hsort, renderLines_samples, List.flatMap_map, List.flatMap_map]
  congr 1
  funext slot
  simp only [slotRow, slotSample, formatLabels_eq, formatInt_natCast]

/-- **What is written of a metric** is its lines. -/
theorem writeMetric_lines (metric : Metric) : writeMetric metric = renderLines metric.lines := by
  have hcons : ∀ name kind samples, renderLines (helpLines name metric.description ++
      .type name kind :: List.map Sample.line samples) =
      writeHelp name metric.description ++ writeType name kind ++
        renderLines (List.map Sample.line samples) := fun name kind samples => by
    rw [renderLines_append, ← List.singleton_append, renderLines_append, writeHelp_lines,
      writeType_lines, List.append_assoc]
  unfold writeMetric Metric.lines Metric.body
  cases metric.value with
  | none => rfl
  | some value =>
    cases value with
    | counter v =>
      simp only [hcons, renderLines_samples, List.flatMap_cons, List.flatMap_nil,
        formatInt_natCast, renderLabels_nil, List.append_nil]
    | gauge v =>
      simp only [hcons, renderLines_samples, List.flatMap_cons, List.flatMap_nil,
        renderLabels_nil, List.append_nil]
    | counterGroup slots =>
      simp only [rows_eq, List.map_eq_nil_iff]
      split
      · rfl
      · simp only [hcons, ← writeGroup_lines]
    | histogram snapshot =>
      cases snapshot with
      | none => rfl
      | some snapshot => simp only [hcons, writeSummary_lines]
    | other => rfl

/-! ## Families -/

/-- The names that a metric's lines have. -/
structure Metric.Legal (metric : Metric) : Prop where
  name : ∃ c, metric.name.head? = some c ∧ c.isDigit = false
  labels : ∀ slots, metric.value = some (.counterGroup slots) →
    ∀ slot ∈ slots, ∀ pair ∈ slot.labels, LegalName isLabelChar pair.1

theorem sanitizeName_legal {name : Chars} (h : ∃ c, name.head? = some c ∧ c.isDigit = false) :
    LegalName isNameChar (sanitizeName name) where
  chars c hc := by
    obtain ⟨d, -, rfl⟩ := List.mem_map.1 hc
    split
    · assumption
    · rfl
  head := by
    obtain ⟨c, hc, hdigit⟩ := h
    refine ⟨if isNameChar c then c else '_', by simp [sanitizeName, hc], ?_⟩
    split
    · exact hdigit
    · rfl

theorem append_legal {name suffix : Chars} (h : LegalName isNameChar name)
    (hsuffix : ∀ c ∈ suffix, isNameChar c = true) : LegalName isNameChar (name ++ suffix) where
  chars c hc := (List.mem_append.1 hc).elim (h.chars c) (hsuffix c)
  head := by
    obtain ⟨c, hc, hdigit⟩ := h.head
    refine ⟨c, ?_, hdigit⟩
    cases name with
    | nil => cases hc
    | cons d name => exact hc

theorem LegalName.of_mem_perm {labels labels' : List (Chars × Chars)} (h : labels'.Perm labels)
    (hlegal : ∀ pair ∈ labels, LegalName isLabelChar pair.1) :
    ∀ pair ∈ labels', LegalName isLabelChar pair.1 := fun pair hpair =>
  hlegal pair (h.mem_iff.1 hpair)

theorem mem_shownSlots {slots : List Slot} {slot : List (Chars × Chars) × UInt64}
    (h : slot ∈ shownSlots slots) : ∃ s ∈ slots, s.labels = slot.1 ∧ s.value = some slot.2 := by
  obtain ⟨s, hs, hslot⟩ := List.mem_filterMap.1 h
  obtain ⟨v, hv, rfl⟩ := Option.map_eq_some_iff.1 hslot
  exact ⟨s, hs, rfl, hv⟩

theorem body_legal {metric : Metric} (h : metric.Legal) {kind : Chars} {samples : List Sample}
    (hbody : metric.body = some (kind, samples)) :
    '\n' ∉ kind ∧ ∀ sample ∈ samples, sample.line.Legal := by
  have hname := sanitizeName_legal h.name
  have hplain : ∀ value, (Line.sample (sanitizeName metric.name) [] value).Legal := fun value =>
    ⟨hname, fun pair hpair => by cases hpair⟩
  unfold Metric.body at hbody
  cases hvalue : metric.value with
  | none => simp [hvalue] at hbody
  | some value =>
    cases value with
    | counter v =>
      simp only [hvalue, Option.some.injEq, Prod.mk.injEq] at hbody
      obtain ⟨rfl, rfl⟩ := hbody
      exact ⟨by decide, List.forall_mem_singleton.2 (hplain _)⟩
    | gauge v =>
      simp only [hvalue, Option.some.injEq, Prod.mk.injEq] at hbody
      obtain ⟨rfl, rfl⟩ := hbody
      exact ⟨by decide, List.forall_mem_singleton.2 (hplain _)⟩
    | counterGroup slots =>
      simp only [hvalue] at hbody
      split at hbody <;> cases hbody
      refine ⟨by decide, fun sample hsample => ?_⟩
      obtain ⟨slot, hslot, rfl⟩ := List.mem_map.1 hsample
      obtain ⟨s, hs, hlabels, -⟩ := mem_shownSlots ((List.mergeSort_perm _ _).mem_iff.1 hslot)
      refine ⟨hname, LegalName.of_mem_perm (List.mergeSort_perm _ _) ?_⟩
      exact hlabels ▸ h.labels slots hvalue s hs
    | histogram snapshot =>
      cases snapshot with
      | none => simp [hvalue] at hbody
      | some snapshot =>
        simp only [hvalue, Option.some.injEq, Prod.mk.injEq] at hbody
        obtain ⟨rfl, rfl⟩ := hbody
        have hquantile : LegalName isLabelChar "quantile".toList :=
          ⟨List.all_iff_forall_prop.1 (by decide), 'q', rfl, by decide⟩
        refine ⟨by decide, fun sample hsample => ?_⟩
        rcases List.mem_append.1 hsample with hsample | hsample
        · obtain ⟨row, -, rfl⟩ := List.mem_map.1 hsample
          exact ⟨hname, List.forall_mem_singleton.2 hquantile⟩
        · rcases List.mem_pair.1 hsample with rfl | rfl
          · exact ⟨append_legal hname (List.all_iff_forall_prop.1 (by decide)),
              fun pair hpair => by cases hpair⟩
          · exact ⟨append_legal hname (List.all_iff_forall_prop.1 (by decide)),
              fun pair hpair => by cases hpair⟩
    | other => simp [hvalue] at hbody

theorem lines_legal {metric : Metric} (h : metric.Legal) : ∀ line ∈ metric.lines, line.Legal := by
  have hname := sanitizeName_legal h.name
  intro line hline
  unfold Metric.lines at hline
  split at hline
  · cases hline
  · rename_i kind samples hbody
    obtain ⟨hkind, hsamples⟩ := body_legal h hbody
    simp only [List.mem_append, List.mem_cons, List.mem_map] at hline
    rcases hline with hhelp | rfl | ⟨sample, hsample, rfl⟩
    · unfold helpLines at hhelp
      split at hhelp
      · cases hhelp
      · obtain rfl := List.mem_singleton.1 hhelp
        exact hname
    · exact ⟨hname, hkind⟩
    · exact hsamples sample hsample

/-- What a metric's lines are read as. -/
def Metric.family (metric : Metric) : Option Family :=
  metric.body.map fun (kind, samples) =>
    ⟨sanitizeName metric.name, metric.description.filter (· ≠ []), kind, samples⟩

theorem collect_samples (samples : List Sample) {lines : List Line} {families : List Family}
    (h : collect lines = some ([], families)) :
    collect (samples.map Sample.line ++ lines) = some (samples, families) := by
  induction samples with
  | nil => exact h
  | cons sample samples ih =>
    rw [List.map_cons, List.cons_append, Sample.line, collect, ih]
    rfl

theorem collect_lines (metric : Metric) {lines : List Line} {families : List Family}
    (h : collect lines = some ([], families)) :
    collect (metric.lines ++ lines) = some ([], metric.family.toList ++ families) := by
  unfold Metric.lines Metric.family
  cases metric.body with
  | none => exact h
  | some body =>
    obtain ⟨kind, samples⟩ := body
    have htype : collect (.type (sanitizeName metric.name) kind ::
        (samples.map Sample.line ++ lines)) =
        some ([], ⟨sanitizeName metric.name, none, kind, samples⟩ :: families) := by
      rw [collect, collect_samples samples h]
      rfl
    unfold helpLines
    cases metric.description.filter (· ≠ []) with
    | none => exact htype
    | some text =>
      simp only [List.cons_append, List.nil_append, Option.map_some, Option.toList_some]
      rw [collect, htype]
      simp

theorem collect_metrics (metrics : List Metric) :
    collect (metrics.flatMap Metric.lines) = some ([], metrics.filterMap Metric.family) := by
  induction metrics with
  | nil => rfl
  | cons metric metrics ih =>
    rw [List.flatMap_cons, collect_lines metric ih]
    cases hfamily : metric.family <;> simp [hfamily]

/-! ## What a family shows -/

/-- A sample: its name, its labels in no order and its value. -/
abbrev Content := Chars × Multiset (Chars × Chars) × Int

def Sample.content (sample : Sample) : Content := (sample.name, sample.labels, sample.value)

/-- What the registry says of a metric: its kind, and its samples in no order. -/
def Metric.content (metric : Metric) : Option (Chars × Multiset Content) :=
  let name := sanitizeName metric.name
  match metric.value with
  | none | some (.histogram none) | some .other => none
  | some (.counter v) => some ("counter".toList, {((name, 0, v.toNat) : Content)})
  | some (.gauge v) => some ("gauge".toList, {((name, 0, v.toInt) : Content)})
  | some (.counterGroup slots) =>
    let shown := shownSlots slots
    if shown = [] then none
    else
      some ("counter".toList,
        (shown.map fun slot => ((name, slot.1, slot.2.toNat) : Content) : List Content))
  | some (.histogram (some snapshot)) =>
    let rows := snapshot.quantileRows.map fun row =>
      ((name, {("quantile".toList, row.1)}, row.2.toNat) : Content)
    let totals : List Content :=
      [(name ++ "_count".toList, 0, snapshot.count), (name ++ "_sum".toList, 0, snapshot.sum)]
    some ("summary".toList, (rows ++ totals : List Content))

/-- The family shows the metric. -/
structure Shows (metric : Metric) (family : Family) : Prop where
  name : family.name = sanitizeName metric.name
  help : family.help = metric.description.filter (· ≠ [])
  content : metric.content =
    some (family.kind, Multiset.ofList (family.samples.map Sample.content))

theorem slot_content (name : Chars) (slot : List (Chars × Chars) × UInt64) :
    (slotSample name slot).content = (name, Multiset.ofList slot.1, (slot.2.toNat : Int)) := by
  have hlabels : Multiset.ofList (slot.1.mergeSort labelLe) = Multiset.ofList slot.1 :=
    Multiset.coe_eq_coe.2 (List.mergeSort_perm _ _)
  simp only [Sample.content, slotSample, hlabels]

theorem body_content (metric : Metric) :
    metric.content = metric.body.map fun body =>
      (body.1, Multiset.ofList (body.2.map Sample.content)) := by
  unfold Metric.content Metric.body
  cases metric.value with
  | none => rfl
  | some value =>
    cases value with
    | counter v => rfl
    | gauge v => rfl
    | counterGroup slots =>
      dsimp only
      split
      · rfl
      · have hperm : ((((shownSlots slots).mergeSort slotLe).map
            (slotSample (sanitizeName metric.name))).map Sample.content).Perm
              ((shownSlots slots).map fun slot =>
                (sanitizeName metric.name, Multiset.ofList slot.1, (slot.2.toNat : Int))) := by
          rw [List.map_map]
          simp only [Function.comp_def, slot_content]
          exact (List.mergeSort_perm _ _).map _
        rw [Option.map_some, Multiset.coe_eq_coe.2 hperm]
    | histogram snapshot =>
      cases snapshot with
      | none => rfl
      | some snapshot =>
        dsimp only
        rw [Option.map_some, List.map_append, List.map_map]
        rfl
    | other => rfl

/-- A label value that would end its quotes and its line, were it not escaped. -/
def poolGroup : Metric where
  name := "ringline/pool".toList
  description := some "a\nb".toList
  value := some (.counterGroup [⟨[("op".toList, "x\"\x7d 1\ny 2".toList)], some 7⟩])

end Admin
