import Cachecannon.Lib.BracketCount
import Cachecannon.Viewer.Stride
import Cachecannon.Worker.Proof.Address
import Mathlib.Data.Bool.AllAny

/-!
# A stride is only added to a single call

`bracketLoop` counts brackets of any kind, inside quotes too, in `i32` (`bracketLoop_iff`), and the
query that it takes for a call is changed (`Counted.changed`). It is one (`IsCall`) unless it is
misread in one of the ways of `Misread`, which say what counting does not see
(`stride_keeps_others`).
-/

namespace Viewer

open Config (F64)

variable {inside : Option (Char × Bool)} {s t f : List Char} {ts us : List Token} {c : Char}

/-! ## Tokens -/

theorem tokens_eq_nil (h : tokens inside s = some []) : inside = none ∧ s = [] := by
  fun_induction tokens inside s with
  | case1 => exact ⟨rfl, rfl⟩
  | case2 => cases h
  | case3 c cs hquote ih => exact absurd (ih h).1 (by simp)
  | case4 c cs hquote ih =>
    obtain ⟨_, -, hcons⟩ := Option.map_eq_some_iff.1 h
    cases hcons
  | case5 q c cs ih => exact absurd (ih h).1 (by simp)
  | case6 q cs ih =>
    obtain ⟨_, -, hcons⟩ := Option.map_eq_some_iff.1 h
    cases hcons
  | case7 q c cs hclose ih => exact absurd (ih h).1 (by simp)

/-- A text whose last token is a character ends with it. -/
theorem eq_concat_of_tokens (h : tokens inside s = some (ts ++ [.char c])) :
    ∃ init, s = init ++ [c] ∧ tokens inside init = some ts := by
  fun_induction tokens inside s generalizing ts with
  | case1 => simp at h
  | case2 => cases h
  | case3 c' cs hquote ih =>
    obtain ⟨init, rfl, hinit⟩ := ih h
    exact ⟨c' :: init, rfl, by simp [tokens, hquote, hinit]⟩
  | case4 c' cs hquote ih =>
    obtain ⟨rest, hrest, hcons⟩ := Option.map_eq_some_iff.1 h
    cases ts with
    | nil =>
      obtain ⟨hchar, rfl⟩ := List.cons.inj hcons
      obtain rfl := Token.char.inj hchar
      obtain ⟨-, rfl⟩ := tokens_eq_nil hrest
      exact ⟨[], rfl, rfl⟩
    | cons t ts =>
      obtain ⟨rfl, rfl⟩ := List.cons.inj hcons
      obtain ⟨init, rfl, hinit⟩ := ih hrest
      exact ⟨c' :: init, rfl, by simp [tokens, hquote, hinit]⟩
  | case5 q c' cs ih =>
    obtain ⟨init, rfl, hinit⟩ := ih h
    exact ⟨c' :: init, rfl, by simpa [tokens] using hinit⟩
  | case6 q cs ih =>
    obtain ⟨rest, hrest, hcons⟩ := Option.map_eq_some_iff.1 h
    cases ts with
    | nil => simp at hcons
    | cons t ts =>
      obtain ⟨rfl, rfl⟩ := List.cons.inj hcons
      obtain ⟨init, rfl, hinit⟩ := ih hrest
      exact ⟨q :: init, rfl, by simp [tokens, hinit]⟩
  | case7 q c' cs hclose ih =>
    obtain ⟨init, rfl, hinit⟩ := ih h
    exact ⟨c' :: init, rfl, by rw [tokens, if_neg hclose, hinit]⟩

theorem tokens_append (h : tokens inside s = some ts) :
    tokens inside (s ++ t) = (tokens none t).map (ts ++ ·) := by
  fun_induction tokens inside s generalizing ts with
  | case1 =>
    obtain rfl := Option.some.inj h
    simp
  | case2 => cases h
  | case3 c cs hquote ih => simp [tokens, hquote, ih h]
  | case4 c cs hquote ih =>
    obtain ⟨rest, hrest, rfl⟩ := Option.map_eq_some_iff.1 h
    simp [tokens, hquote, ih hrest, Function.comp_def]
  | case5 q c cs ih => simpa [tokens] using ih h
  | case6 q cs ih =>
    obtain ⟨rest, hrest, rfl⟩ := Option.map_eq_some_iff.1 h
    simp [tokens, ih hrest, Function.comp_def]
  | case7 q c cs hclose ih => rw [List.cons_append, tokens, if_neg hclose, ih h]

theorem tokens_plain (h : ∀ c ∈ s, isQuote c = false) : tokens none s = some (s.map .char) := by
  induction s with
  | nil => rfl
  | cons c s ih =>
    simp [tokens, h c (by simp), ih fun d hd => h d (List.mem_cons_of_mem _ hd)]

theorem tokens_call (hf : ∀ c ∈ f, isQuote c = false) :
    tokens none (f ++ s) = (tokens none s).map (f.map .char ++ ·) := tokens_append (tokens_plain hf)

/-! ## Counting in `i32` -/

/-- What an `i32` counter makes of a number. -/
def wrap32 (z : Int) : Int := (Int32.ofInt z).toInt

theorem wrap32_eq_zero {z : Int} : wrap32 z = 0 ↔ Int32.ofInt z = 0 :=
  Int32.toInt_inj (y := 0)

theorem wrap32_eq_one {z : Int} : wrap32 z = 1 ↔ Int32.ofInt z = 1 :=
  Int32.toInt_inj (y := 1)

theorem char_opening (h : c ∈ ['(', '[', '\x7b']) : callBrackets.weight (.char c) = 1 ∧
    callBrackets.closing (.char c) = false ∧ Token.char c ≠ callBrackets.sep := by
  simp only [List.mem_cons, List.not_mem_nil, or_false] at h
  rcases h with rfl | rfl | rfl <;> exact ⟨rfl, rfl, by decide⟩

theorem char_closing (h : c ∈ [')', ']', '\x7d']) : callBrackets.weight (.char c) = -1 ∧
    callBrackets.closing (.char c) = true ∧ Token.char c ≠ callBrackets.sep := by
  simp only [List.mem_cons, List.not_mem_nil, or_false] at h
  rcases h with rfl | rfl | rfl <;> exact ⟨rfl, rfl, by decide⟩

theorem char_plain (h : c ∉ ['(', '[', '\x7b', ')', ']', '\x7d']) :
    callBrackets.closer (.char c) = none ∧ callBrackets.closing (.char c) = false := by
  simp only [List.mem_cons, List.not_mem_nil, or_false, not_or] at h
  refine ⟨?_, by simp [callBrackets, h]⟩
  simp only [callBrackets]
  split <;> simp_all

/-- One turn of the loop: the character's weight, and whether it is a comma at depth 1. -/
theorem bracketLoop_cons (depth commas : Int32) (ch : Char) (rest : List Char) :
    bracketLoop depth commas (ch :: rest) =
      if callBrackets.closing (.char ch) ∧
          depth + Int32.ofInt (callBrackets.weight (.char ch)) = 0 ∧ rest ≠ [] then none
      else bracketLoop (depth + Int32.ofInt (callBrackets.weight (.char ch)))
        (if Token.char ch = callBrackets.sep ∧ depth = 1 then commas + 1 else commas) rest := by
  have hopening (c : Char) (hc : c ∈ ['(', '[', '\x7b']) : bracketLoop (depth + 1) commas rest =
      if callBrackets.closing (.char c) ∧
          depth + Int32.ofInt (callBrackets.weight (.char c)) = 0 ∧ rest ≠ [] then none
      else bracketLoop (depth + Int32.ofInt (callBrackets.weight (.char c)))
        (if Token.char c = callBrackets.sep ∧ depth = 1 then commas + 1 else commas) rest := by
    obtain ⟨hweight, hclose, hsep⟩ := char_opening hc
    rw [hweight, if_neg (by simp [hclose]), if_neg fun h => hsep h.1]
    rfl
  have hclosing (c : Char) (hc : c ∈ [')', ']', '\x7d']) :
      (if depth - 1 = 0 && rest ≠ [] then none else bracketLoop (depth - 1) commas rest) =
      if callBrackets.closing (.char c) ∧
          depth + Int32.ofInt (callBrackets.weight (.char c)) = 0 ∧ rest ≠ [] then none
      else bracketLoop (depth + Int32.ofInt (callBrackets.weight (.char c)))
        (if Token.char c = callBrackets.sep ∧ depth = 1 then commas + 1 else commas) rest := by
    obtain ⟨hweight, hclose, hsep⟩ := char_closing hc
    have hdepth : depth + Int32.ofInt (-1) = depth - 1 := (Int32.sub_eq_add_neg depth 1).symm
    rw [hweight, hdepth]
    simp [hclose, hsep]
  by_cases hbracket : ch ∈ ['(', '[', '\x7b', ')', ']', '\x7d']
  · simp only [List.mem_cons, List.not_mem_nil, or_false] at hbracket
    rcases hbracket with rfl | rfl | rfl | rfl | rfl | rfl
    · exact hopening '(' (by decide)
    · exact hopening '[' (by decide)
    · exact hopening '\x7b' (by decide)
    · exact hclosing ')' (by decide)
    · exact hclosing ']' (by decide)
    · exact hclosing '\x7d' (by decide)
  · obtain ⟨hopen, hclose⟩ := char_plain hbracket
    have hweight : depth + Int32.ofInt (callBrackets.weight (.char ch)) = depth := by
      rw [Brackets.weight_other hopen hclose]
      exact Int32.add_zero depth
    rw [hweight, if_neg (by simp [hclose])]
    by_cases hcomma : ch = ','
    · subst hcomma
      simp [bracketLoop, callBrackets]
    · simp only [List.mem_cons, List.not_mem_nil, or_false, not_or] at hbracket
      rw [if_neg fun h => hcomma (Token.char.inj h.1)]
      simp [bracketLoop, hbracket]

/-- What the loop accepts, and its numbers. -/
theorem bracketLoop_iff {depth commas depth' commas' : Int32} :
    bracketLoop depth commas s = some (depth', commas') ↔
      callBrackets.Last (fun d => depth + Int32.ofInt d = 0) (s.map .char) ∧
      depth' = depth + Int32.ofInt (callBrackets.depth (s.map .char)) ∧
      commas' = commas + Int32.ofNat
        (callBrackets.seps (fun d => depth + Int32.ofInt d = 1) (s.map .char)) := by
  induction s generalizing depth commas with
  | nil =>
    have hlast : callBrackets.Last (fun d => depth + Int32.ofInt d = 0) [] :=
      fun pre c post hts => absurd hts (by simp)
    simp [bracketLoop, hlast, Brackets.seps, eq_comm]
  | cons ch s ih =>
    have hsum (d : Int) : depth + Int32.ofInt (callBrackets.weight (.char ch)) + Int32.ofInt d =
        depth + Int32.ofInt (callBrackets.weight (.char ch) + d) := by
      rw [Int32.ofInt_add, Int32.add_assoc]
    have hcommas (n : Nat) : (if Token.char ch = callBrackets.sep ∧ depth = 1 then commas + 1
        else commas) + Int32.ofNat n = commas + Int32.ofNat
          (n + if Token.char ch = callBrackets.sep ∧ depth = 1 then 1 else 0) := by
      rw [Int32.ofNat_add]
      split
      · rw [Int32.add_assoc, Int32.add_comm 1]
        rfl
      · simp
    rw [bracketLoop_cons, List.map_cons, Brackets.last_cons, Brackets.depth_cons,
      Brackets.seps_cons]
    by_cases hearly : callBrackets.closing (.char ch) = true ∧
        depth + Int32.ofInt (callBrackets.weight (.char ch)) = 0 ∧ s ≠ []
    · rw [if_pos hearly]
      refine ⟨fun h => (by cases h), fun h => absurd (h.1.1 hearly.1 hearly.2.1) ?_⟩
      simpa using hearly.2.2
    · have hfirst : callBrackets.closing (.char ch) = true →
          depth + Int32.ofInt (callBrackets.weight (.char ch)) = 0 → s.map Token.char = [] :=
        fun hclose hzero => by
          rw [List.map_eq_nil_iff]
          exact not_not.1 fun hne => hearly ⟨hclose, hzero, hne⟩
      have hzero : depth + Int32.ofInt 0 = depth := Int32.add_zero depth
      rw [if_neg hearly, ih, and_iff_right hfirst]
      simp only [hsum, hcommas, hzero, Bool.and_eq_true, decide_eq_true_eq]

/-! ## Calls -/

/-- The text from a call's bracket on is the two arguments of one. -/
def TwoArguments (s : List Char) : Prop :=
  ∃ a b : List Token, (∀ x ∈ [a, b], callBrackets.Argument x) ∧
    (∀ x ∈ [a, b], ∃ t ∈ x, t.blank = false) ∧
    tokens none s = some (.char '(' :: (callBrackets.join [a, b] ++ [.char ')']))

/-- There is only white space between a bracket and a comma: behind the first bracket, or in front
of the last. -/
def BlankArgument (ts : List Token) : Prop :=
  (∃ o ws rest, ts = o :: (ws ++ .char ',' :: rest) ∧ ∀ t ∈ ws, t.blank = true) ∨
    ∃ rest ws c, ts = rest ++ .char ',' :: (ws ++ [c]) ∧ ∀ t ∈ ws, t.blank = true

/-- What counting brackets and commas does not see in a text from a call's bracket on: a quote
that does not close, quoted brackets and commas without which the numbers are not those of two
arguments, a bracket that closes one of another kind, an argument that is blank. -/
inductive Misread (s : List Char) : Prop
  | openQuote (h : tokens none s = none)
  | quoted (ts : List Token) (h : tokens none s = some ts) (hcounts : ¬ callBrackets.Counts id 1 ts)
  | mispaired (ts : List Token) (h : tokens none s = some ts) (hpair : callBrackets.Mispaired ts)
  | blank (ts : List Token) (h : tokens none s = some ts) (hblank : BlankArgument ts)

theorem blank_plain {t : Token} (h : t.blank = true) :
    callBrackets.closer t = none ∧ callBrackets.closing t = false ∧ t ≠ callBrackets.sep := by
  cases t with
  | quoted => cases h
  | char c =>
    have hall : ∀ d ∈ ['(', '[', '\x7b', ')', ']', '\x7d', ','], Text.isWhitespace d = false :=
      List.all_iff_forall_prop.1 (by decide)
    have hne (d : Char) (hd : d ∈ ['(', '[', '\x7b', ')', ']', '\x7d', ',']) : c ≠ d := by
      rintro rfl
      rw [Token.blank, hall c hd] at h
      cases h
    obtain ⟨hopen, hclose⟩ := char_plain (c := c) fun hmem =>
      hne c (List.mem_append_left [','] hmem) rfl
    exact ⟨hopen, hclose, fun heq => hne ',' (by decide) (Token.char.inj heq)⟩

theorem not_mem_blank {ws : List Token} (h : ∀ t ∈ ws, t.blank = true) :
    callBrackets.sep ∉ ws := fun hmem => (blank_plain (h _ hmem)).2.2 rfl

/-- An argument that starts with white space up to a comma is what stands before the comma. -/
theorem eq_of_first {a ws rest rest' : List Token} (ha : callBrackets.Argument a)
    (hws : ∀ t ∈ ws, t.blank = true)
    (h : a ++ callBrackets.sep :: rest' = ws ++ callBrackets.sep :: rest) : a = ws := by
  rcases List.append_eq_append_iff.1 h with ⟨mid, rfl, hmid⟩ | ⟨mid, rfl, hmid⟩
  · cases mid with
    | nil => simp
    | cons t mid =>
      obtain ⟨rfl, -⟩ := List.cons.inj hmid
      exact absurd (by simp) (not_mem_blank hws)
  · cases mid with
    | nil => simp
    | cons t mid =>
      obtain ⟨rfl, -⟩ := List.cons.inj hmid
      exact absurd ha (Brackets.not_argument_of_first fun t ht => (blank_plain (hws t ht)).1)

/-- An argument that ends with a comma and white space is the white space. -/
theorem eq_of_last {b ws pre pre' : List Token} (hb : callBrackets.Argument b)
    (hws : ∀ t ∈ ws, t.blank = true)
    (h : pre' ++ callBrackets.sep :: b = pre ++ callBrackets.sep :: ws) : b = ws := by
  rcases List.append_eq_append_iff.1 h with ⟨mid, rfl, hmid⟩ | ⟨mid, rfl, hmid⟩
  · cases mid with
    | nil => exact (List.cons.inj hmid).2
    | cons t mid =>
      obtain ⟨rfl, rfl⟩ := List.cons.inj hmid
      exact absurd rfl (hb.ne_of_last rfl (fun t ht => (blank_plain (hws t ht)).2.1) mid)
  · cases mid with
    | nil => exact (List.cons.inj hmid).2.symm
    | cons t mid =>
      obtain ⟨rfl, rfl⟩ := List.cons.inj hmid
      exact absurd (by simp) (not_mem_blank hws)

theorem blankArgument_iff {a b : List Token} (ha : callBrackets.Argument a)
    (hb : callBrackets.Argument b) :
    BlankArgument (.char '(' :: (callBrackets.join [a, b] ++ [.char ')'])) ↔
      (∀ t ∈ a, t.blank = true) ∨ ∀ t ∈ b, t.blank = true := by
  have hjoin : callBrackets.join [a, b] ++ [.char ')'] =
      a ++ callBrackets.sep :: (b ++ [.char ')']) := by simp
  rw [hjoin]
  constructor
  · rintro (⟨o, ws, rest, heq, hws⟩ | ⟨rest, ws, c, heq, hws⟩)
    · exact .inl (eq_of_first ha hws (List.cons.inj heq).2 ▸ hws)
    · right
      cases rest with
      | nil => exact absurd (List.cons.inj heq).1 (by decide)
      | cons o rest =>
        have hlast := (List.cons.inj heq).2
        have hcut : (a ++ callBrackets.sep :: b) ++ [.char ')'] =
            (rest ++ callBrackets.sep :: ws) ++ [c] := by simpa [callBrackets] using hlast
        exact eq_of_last hb hws (List.append_inj' hcut rfl).1 ▸ hws
  · rintro (hblank | hblank)
    · exact .inl ⟨.char '(', a, b ++ [.char ')'], rfl, hblank⟩
    · exact .inr ⟨.char '(' :: a, b, .char ')', rfl, hblank⟩

/-- The text from a call's bracket on is two arguments exactly where counting sees all there is. -/
theorem twoArguments_iff : TwoArguments ('(' :: s) ↔ ¬ Misread ('(' :: s) := by
  have hopen : callBrackets.closer (.char '(') = some (.char ')') := rfl
  have hclose : callBrackets.closing (.char ')') = true := rfl
  constructor
  · rintro ⟨a, b, hargs, hblank, hts⟩ hmis
    have hscan := (Brackets.scan_iff_counts hopen (n := 1)).1
      ((Brackets.scan_iff hclose).2 ⟨[a, b], rfl, hargs, rfl⟩)
    cases hmis with
    | openQuote h =>
      rw [h] at hts
      cases hts
    | quoted ts h hcounts =>
      obtain rfl := Option.some.inj (h.symm.trans hts)
      exact hcounts hscan.1
    | mispaired ts h hpair =>
      obtain rfl := Option.some.inj (h.symm.trans hts)
      exact hscan.2 hpair
    | blank ts h hb =>
      obtain rfl := Option.some.inj (h.symm.trans hts)
      rcases (blankArgument_iff (hargs a (by simp)) (hargs b (by simp))).1 hb with hb | hb
      · obtain ⟨t, ht, hnot⟩ := hblank a (by simp)
        rw [hb t ht] at hnot
        cases hnot
      · obtain ⟨t, ht, hnot⟩ := hblank b (by simp)
        rw [hb t ht] at hnot
        cases hnot
  · intro h
    obtain ⟨ts, hts⟩ := Option.ne_none_iff_exists'.1 fun hnone => h (.openQuote hnone)
    obtain ⟨rest, -, rfl⟩ : ∃ rest, tokens none s = some rest ∧ .char '(' :: rest = ts :=
      Option.map_eq_some_iff.1 hts
    have hcounts := not_not.1 fun hcounts => h (.quoted _ hts hcounts)
    have hscan := (Brackets.scan_iff_counts hopen (n := 1)).2
      ⟨hcounts, fun hpair => h (.mispaired _ hts hpair)⟩
    obtain ⟨args, hlen, hargs, rfl⟩ := (Brackets.scan_iff hclose).1 hscan
    obtain ⟨a, b, rfl⟩ := List.length_eq_two.1 hlen
    have hblank := (blankArgument_iff (hargs a (by simp)) (hargs b (by simp))).not.1
      fun hblank => h (.blank _ hts hblank)
    rw [not_or] at hblank
    refine ⟨a, b, hargs, fun x hx => ?_, hts⟩
    simp only [List.mem_cons, List.not_mem_nil, or_false] at hx
    rcases hx with rfl | rfl
    · simpa using hblank.1
    · simpa using hblank.2

variable {pre : List Char}

theorem histogramCalls_plain (h : pre ∈ histogramCalls) : ∀ c ∈ pre, isQuote c = false := by
  have hall : ∀ pre ∈ histogramCalls, pre.all fun c => !isQuote c := by decide
  simpa using List.all_eq_true.1 (hall pre h)

theorem histogramCalls_name (h : pre ∈ histogramCalls) : ∃ f, pre = f ++ ['('] := by
  refine ⟨pre.dropLast, ?_⟩
  revert pre
  decide

theorem histogramCalls_head (h : pre ∈ histogramCalls) : pre.head? = some 'h' := by
  revert pre
  decide

theorem histogramCalls_length (h : pre ∈ histogramCalls) : 2 ≤ (Text.encode pre).length := by
  revert pre
  decide

/-- Neither name starts with the other. -/
theorem histogramCalls_unambiguous {pre' : List Char} (h : pre ∈ histogramCalls)
    (h' : pre' ∈ histogramCalls) (hpre : pre.map Token.char <+: pre'.map Token.char) :
    pre = pre' := by
  have hall : ∀ a ∈ histogramCalls, ∀ b ∈ histogramCalls,
      a.map Token.char <+: b.map Token.char → a = b := by decide
  exact hall pre h pre' h' hpre

theorem eq_of_reads {pre' : List Char} (h : pre ∈ histogramCalls) (h' : pre' ∈ histogramCalls)
    (heq : pre.map Token.char ++ ts = pre'.map Token.char ++ us) : pre = pre' ∧ ts = us := by
  have hname : pre = pre' :=
    (List.prefix_or_prefix_of_prefix (List.prefix_append _ ts) (heq ▸ List.prefix_append _ us)).elim
      (histogramCalls_unambiguous h h') fun hpre => (histogramCalls_unambiguous h' h hpre).symm
  subst hname
  exact ⟨rfl, List.append_cancel_left heq⟩

theorem histogramCalls_split (h : pre ∈ histogramCalls) (hpre : pre <+: s) :
    ∃ f rest, pre = f ++ ['('] ∧ s = f ++ '(' :: rest ∧ s.drop (pre.length - 1) = '(' :: rest := by
  obtain ⟨f, rfl⟩ := histogramCalls_name h
  obtain ⟨rest, rfl⟩ := hpre
  exact ⟨f, rest, rfl, by simp, by simp⟩

/-! ## The result -/

variable {arith : StrideArith} {query : List Char} {step interval stride : F64}

/-- The step is a number above 0, and more than one interval when rounded to intervals. -/
def GetsStride (arith : StrideArith) (step interval : F64) : Prop :=
  step ≠ .nan ∧ step.le (.finite 0) = false ∧ (F64.lt (.finite 0) interval = true →
    (arith.round (arith.div step interval)).le (.finite 1) = false)

theorem getsStride_iff :
    GetsStride arith step interval ↔ ∃ stride, strideOf arith step interval = some stride := by
  unfold GetsStride strideOf
  by_cases hstep : step = .nan ∨ step.le (.finite 0) = true
  · rcases hstep with rfl | hle
    · simp
    · simp [hle]
  · rw [not_or, Bool.not_eq_true] at hstep
    cases hinterval : F64.lt (.finite 0) interval with
    | false => simp [hstep]
    | true =>
      cases hround : (arith.round (arith.div step interval)).le (.finite 1) with
      | false => simp [hstep, hround]
      | true => simp [hstep, hround]

/-- The query starts as a histogram call that gets a stride, and by the numbers of its brackets and
commas, in quotes too, the call ends with it and has two arguments. -/
structure Rewritten (arith : StrideArith) (query : List Char) (step interval : F64)
    (pre : List Char) : Prop where
  call : pre ∈ histogramCalls
  starts : pre <+: Text.trim query
  stride : GetsStride arith step interval
  counts : callBrackets.Counts wrap32 1 (((Text.trim query).drop (pre.length - 1)).map .char)

/-- The query gets a stride, and the bracket loop takes it for a call of two arguments. -/
structure Counted (arith : StrideArith) (query : List Char) (step interval : F64)
    (pre : List Char) (stride : F64) : Prop where
  call : histogramCalls.find? (·.isPrefixOf (Text.trim query)) = some pre
  stride : strideOf arith step interval = some stride
  loop : bracketLoop 0 0 ((Text.trim query).drop (pre.length - 1)) = some (0, 1)

theorem starts_of_find (h : histogramCalls.find? (·.isPrefixOf s) = some pre) : pre <+: s := by
  have hpre := List.find?_some h
  exact List.isPrefixOf_iff_prefix.1 hpre

theorem find_histogramCalls (h : pre ∈ histogramCalls) (hpre : pre <+: s) :
    histogramCalls.find? (·.isPrefixOf s) = some pre := by
  cases hfind : histogramCalls.find? (·.isPrefixOf s) with
  | none =>
    have hnot := List.find?_eq_none.1 hfind pre h
    exact absurd (List.isPrefixOf_iff_prefix.2 hpre) hnot
  | some pre' =>
    have hmem' := List.mem_of_find?_eq_some hfind
    rcases List.prefix_or_prefix_of_prefix (starts_of_find hfind) hpre with hle | hle
    · rw [histogramCalls_unambiguous hmem' h (hle.map Token.char)]
    · rw [histogramCalls_unambiguous h hmem' (hle.map Token.char)]

theorem counts_iff : callBrackets.Counts wrap32 1 (s.map .char) ↔
    bracketLoop 0 0 s = some (0, 1) := by
  have hseps (p q : Int → Bool) (h : ∀ d, p d = q d) :
      callBrackets.seps p (s.map .char) = callBrackets.seps q (s.map .char) := by
    rw [funext h]
  have hcount := hseps (fun d => wrap32 d = 1) (fun d => (0 : Int32) + Int32.ofInt d = 1)
    fun d => by rw [Int32.zero_add, decide_eq_decide.2 wrap32_eq_one]
  rw [bracketLoop_iff]
  simp only [Int32.zero_add] at hcount ⊢
  constructor
  · rintro ⟨hcloses, hlast, hcommas⟩
    refine ⟨?_, (wrap32_eq_zero.1 hcloses).symm, ?_⟩
    · simpa only [wrap32_eq_zero] using hlast
    · rw [hcount] at hcommas
      rw [← Int32.ofInt_eq_ofNat]
      exact (wrap32_eq_one.1 hcommas).symm
  · rintro ⟨hlast, hcloses, hcommas⟩
    refine ⟨wrap32_eq_zero.2 hcloses.symm, by simpa only [wrap32_eq_zero] using hlast, ?_⟩
    rw [hcount]
    rw [← Int32.ofInt_eq_ofNat] at hcommas
    exact wrap32_eq_one.2 hcommas.symm

theorem rewritten_iff : Rewritten arith query step interval pre ↔
    ∃ stride, Counted arith query step interval pre stride := by
  constructor
  · rintro ⟨hcall, hstarts, hstride, hcounts⟩
    obtain ⟨stride, hstride⟩ := getsStride_iff.1 hstride
    exact ⟨stride, find_histogramCalls hcall hstarts, hstride, counts_iff.1 hcounts⟩
  · rintro ⟨stride, hcall, hstride, hloop⟩
    exact ⟨List.mem_of_find?_eq_some hcall, starts_of_find hcall,
      getsStride_iff.2 ⟨stride, hstride⟩,
      counts_iff.2 hloop⟩

theorem unchanged_of_not_counted
    (h : ∀ pre stride, ¬ Counted arith query step interval pre stride) :
    withHistogramStride arith query step interval = some query := by
  cases hcall : histogramCalls.find? (·.isPrefixOf (Text.trim query)) with
  | none => simp [withHistogramStride, hcall]
  | some pre =>
    cases hstride : strideOf arith step interval with
    | none => simp [withHistogramStride, hcall, hstride]
    | some stride =>
      cases hloop : bracketLoop 0 0 ((Text.trim query).drop (pre.length - 1)) with
      | none => simp [withHistogramStride, hcall, hstride, hloop]
      | some counts =>
        obtain ⟨depth, commas⟩ := counts
        by_cases hcounts : depth = 0 ∧ commas = 1
        · obtain ⟨rfl, rfl⟩ := hcounts
          exact absurd ⟨hcall, hstride, hloop⟩ (h pre stride)
        · have hrefused : depth ≠ 0 ∨ commas ≠ 1 := not_and_or.1 hcounts
          simp [withHistogramStride, hcall, hstride, hloop, hrefused]

theorem Counted.result (h : Counted arith query step interval pre stride) :
    withHistogramStride arith query step interval =
      (Text.sliceTo (Text.trim query) ((Text.encode (Text.trim query)).length - 1)).map fun s =>
        s ++ ", ".toList ++ arith.display stride ++ ")".toList := by
  simp [withHistogramStride, h.call, h.stride, h.loop]

theorem Counted.mem (h : Counted arith query step interval pre stride) : pre ∈ histogramCalls :=
  List.mem_of_find?_eq_some h.call

theorem Counted.starts (h : Counted arith query step interval pre stride) :
    pre <+: Text.trim query := starts_of_find h.call

theorem Counted.trim_eq (h : Counted arith query step interval pre stride) :
    Text.trim query = pre ++ (Text.trim query).drop pre.length := by
  obtain ⟨rest, hrest⟩ := h.starts
  rw [← hrest]
  simp

/-- A query that is counted is never returned as it is. -/
theorem Counted.changed (h : Counted arith query step interval pre stride) :
    withHistogramStride arith query step interval ≠ some query := by
  intro hsame
  rw [h.result, Option.map_eq_some_iff] at hsame
  obtain ⟨init, hinit, hquery⟩ := hsame
  obtain ⟨last, hlast⟩ := Text.sliceTo_prefix hinit
  have hcut := congrArg List.length (Text.encode_of_decode hinit)
  have hpre := congrArg (fun s => (Text.encode s).length) h.trim_eq
  have hwhole := congrArg (fun s => (Text.encode s).length) hlast
  simp only [List.length_take, Text.encode_append, List.length_append] at hcut hpre hwhole
  have htwo := histogramCalls_length h.mem
  -- the text that is kept starts as the query does, so that nothing was trimmed
  have htrim : Text.trim query = query := by
    cases init with
    | nil =>
      rw [Text.encode_nil, List.length_nil] at hcut
      omega
    | cons c init =>
      have hhead := congrArg List.head? (h.trim_eq.symm.trans hlast)
      rw [List.head?_append, histogramCalls_head h.mem] at hhead
      obtain rfl : 'h' = c := Option.some.inj hhead
      rw [← hquery]
      refine Text.trim_eq (fun c hc => ?_) (fun c hc => ?_)
      · obtain rfl := Option.some.inj hc
        rfl
      · rw [List.getLast?_append_of_ne_nil _ (by simp)] at hc
        obtain rfl := Option.some.inj hc
        rfl
  rw [htrim, ← hquery, List.append_assoc, List.append_assoc] at hlast
  have hadded := congrArg (fun s => (Text.encode s).length) (List.append_cancel_left hlast)
  have hcomma : (Text.encode ", ".toList).length = 2 := by decide
  simp only [Text.encode_append, List.length_append, hcomma] at hadded
  omega

/-! ## Other queries are kept -/

/-- The query is kept, or it is one call of a histogram function with two arguments and gets the
stride as a third. -/
def KeepsOthers (arith : StrideArith) (query : List Char) (step interval : F64)
    (result : Option (List Char)) : Prop :=
  result = some query ∨ ∃ f a b init stride text, f ++ ['('] ∈ histogramCalls ∧
    IsCall f [a, b] (Text.trim query) ∧ Text.trim query = init ++ [')'] ∧
    strideOf arith step interval = some stride ∧
    text = init ++ ", ".toList ++ arith.display stride ++ ")".toList ∧ result = some text ∧
    IsCall f [a, b, (' ' :: arith.display stride).map .char] text

/-- A call of two arguments starts with its name, and has them from its bracket on. -/
theorem twoArguments_of_isCall {f' : List Char} {a b : List Token}
    (hcall : f' ++ ['('] ∈ histogramCalls) (hmem : f ++ ['('] ∈ histogramCalls)
    (h : IsCall f' [a, b] (f ++ '(' :: s)) : TwoArguments ('(' :: s) := by
  have hreads := h.reads
  rw [List.append_cons, tokens_call (histogramCalls_plain hmem), Option.map_eq_some_iff] at hreads
  obtain ⟨ts, hts, heq⟩ := hreads
  have hsplit : (f ++ ['(']).map Token.char ++ ts =
      (f' ++ ['(']).map Token.char ++ (callBrackets.join [a, b] ++ [.char ')']) := by
    simpa using heq
  obtain ⟨-, rfl⟩ := eq_of_reads hmem hcall hsplit
  exact ⟨a, b, h.arguments, h.notBlank, congrArg (Option.map (Token.char '(' :: ·)) hts⟩

theorem argument_of_plain (h : ∀ c ∈ s, c ∉ "()[]\x7b\x7d,".toList) :
    callBrackets.Argument (s.map .char) := by
  induction s with
  | nil => exact .nil
  | cons c s ih =>
    have hc := h c List.mem_cons_self
    simp only [String.reduceToList, List.mem_cons, List.not_mem_nil, or_false, not_or] at hc
    refine .item ?_ (by simp [callBrackets, hc]) (fun _ => by simp [callBrackets, hc])
      (ih fun d hd => h d (List.mem_cons_of_mem _ hd))
    simp only [callBrackets]
    split <;> simp_all

/-- The stride that is inserted reads as one more argument. -/
theorem stride_argument (arith : StrideArith) (stride : F64) :
    callBrackets.Argument ((' ' :: arith.display stride).map .char) := by
  refine argument_of_plain fun c hc => ?_
  rcases List.mem_cons.1 hc with rfl | hc
  · decide
  · exact (arith.display_plain stride c hc).2

/-- What is inserted has no quotes. -/
theorem tokens_inserted (arith : StrideArith) (stride : F64) :
    tokens none (", ".toList ++ arith.display stride ++ ")".toList) =
      some (.char ',' :: (' ' :: arith.display stride).map .char ++ [.char ')']) := by
  rw [tokens_plain]
  · simp
  · intro c hc
    simp only [List.mem_append] at hc
    rcases hc with (hc | hc) | hc
    · have hall : (", ".toList.all fun c => !isQuote c) = true := by decide
      simpa using List.all_eq_true.1 hall c hc
    · exact (arith.display_plain stride c hc).1
    · obtain rfl := List.mem_singleton.1 hc
      rfl

/-- A counted query of two arguments gets the stride behind the second. -/
theorem Counted.keeps (h : Counted arith query step interval pre stride)
    (htwo : TwoArguments ((Text.trim query).drop (pre.length - 1))) :
    KeepsOthers arith query step interval (withHistogramStride arith query step interval) := by
  obtain ⟨f, rest, rfl, hrest, hbody⟩ := histogramCalls_split h.mem h.starts
  rw [hbody] at htwo
  obtain ⟨a, b, hargs, hblank, hts⟩ := htwo
  obtain ⟨ts, hts, heq⟩ : ∃ ts, tokens none rest = some ts ∧ Token.char '(' :: ts = _ :=
    Option.map_eq_some_iff.1 hts
  obtain rfl := (List.cons.inj heq).2
  obtain ⟨init, rfl, hreads⟩ := eq_concat_of_tokens hts
  have htrim : Text.trim query = f ++ ['('] ++ init ++ [')'] := by
    rw [hrest]
    simp
  have hplain := histogramCalls_plain h.mem
  obtain ⟨c, hc, hcblank⟩ := arith.display_notBlank stride
  refine .inr ⟨f, a, b, f ++ ['('] ++ init, stride, _, h.mem, ⟨hargs, hblank, ?_⟩, htrim, h.stride,
    rfl, ?_, ?_, ?_, ?_⟩
  · rw [htrim, List.append_assoc, tokens_call hplain, hts]
    simp
  · have hslice := Text.sliceTo_append (f ++ ['('] ++ init) [')']
    have hend : (Text.encode [')']).length = 1 := by decide
    rw [h.result, htrim, Text.encode_append, List.length_append, hend, Nat.add_sub_cancel, hslice]
    rfl
  · intro x hx
    simp only [List.mem_cons, List.not_mem_nil, or_false] at hx
    rcases hx with rfl | rfl | rfl
    · exact hargs _ (by simp)
    · exact hargs _ (by simp)
    · exact stride_argument arith stride
  · intro x hx
    simp only [List.mem_cons, List.not_mem_nil, or_false] at hx
    rcases hx with rfl | rfl | rfl
    · exact hblank _ (by simp)
    · exact hblank _ (by simp)
    · exact ⟨.char c, List.mem_map_of_mem (List.mem_cons_of_mem _ hc), hcblank⟩
  · have hadded := tokens_inserted arith stride
    have hwhole : tokens none (init ++ (", ".toList ++ arith.display stride ++ ")".toList)) = _ :=
      tokens_append hreads
    simp only [List.append_assoc] at hwhole hadded ⊢
    rw [← List.append_assoc f, tokens_call hplain, hwhole, hadded]
    simp [callBrackets]

/-- A counted query that is kept, or has its stride in the one call it is, has two arguments. -/
theorem KeepsOthers.twoArguments
    (h : KeepsOthers arith query step interval (withHistogramStride arith query step interval))
    (hcounted : Counted arith query step interval pre stride) :
    TwoArguments ((Text.trim query).drop (pre.length - 1)) := by
  obtain ⟨f, rest, rfl, hrest, hbody⟩ := histogramCalls_split hcounted.mem hcounted.starts
  rcases h with hsame | ⟨f', a, b, init, -, text, hf', hcall, -⟩
  · exact absurd hsame hcounted.changed
  · rw [hrest] at hcall
    rw [hbody]
    exact twoArguments_of_isCall hf' hcounted.mem hcall

/-- **The stride.** The query is kept or a single call gets one more argument, exactly where no
query that is rewritten is misread. -/
theorem stride_keeps_others (arith : StrideArith) (query : List Char) (step interval : F64) :
    KeepsOthers arith query step interval (withHistogramStride arith query step interval) ↔
      ∀ pre, Rewritten arith query step interval pre →
        ¬ Misread ((Text.trim query).drop (pre.length - 1)) := by
  have htwo (pre : List Char) (h : Rewritten arith query step interval pre) :
      TwoArguments ((Text.trim query).drop (pre.length - 1)) ↔
        ¬ Misread ((Text.trim query).drop (pre.length - 1)) := by
    obtain ⟨f, rest, -, -, hbody⟩ := histogramCalls_split h.call h.starts
    rw [hbody]
    exact twoArguments_iff
  constructor
  · intro h pre hrewritten
    obtain ⟨stride, hcounted⟩ := rewritten_iff.1 hrewritten
    exact (htwo pre hrewritten).1 (h.twoArguments hcounted)
  · intro h
    by_cases hcounted : ∃ pre stride, Counted arith query step interval pre stride
    · obtain ⟨pre, stride, hcounted⟩ := hcounted
      have hrewritten := rewritten_iff.2 ⟨stride, hcounted⟩
      exact hcounted.keeps ((htwo pre hrewritten).2 (h pre hrewritten))
    · exact .inl (unchanged_of_not_counted fun pre stride hc => hcounted ⟨pre, stride, hc⟩)

/-- Exact arithmetic, and the text of whole numbers and halves. -/
def exactArith : StrideArith where
  div
    | .finite a, .finite b => .finite (a / b)
    | _, _ => .nan
  sub
    | .finite a, .finite b => .finite (a - b)
    | _, _ => .nan
  mul
    | .finite a, .finite b => .finite (a * b)
    | _, _ => .nan
  round
    | .finite a => .finite (if 0 ≤ a then (a + 1 / 2).floor else -(1 / 2 - a).floor)
    | x => x
  display
    | .finite a => Nat.toDigits 10 a.floor.toNat ++ (if a.den = 1 then [] else ".5".toList)
    | _ => "NaN".toList
  display_notBlank := by
    have hdigit : ∀ d < 10, Text.isWhitespace d.digitChar = false := by decide
    intro x
    split
    · rename_i a
      have hne : Nat.toDigits 10 a.floor.toNat ≠ [] := Nat.toDigits_ne_nil
      obtain ⟨c, hc⟩ := List.exists_mem_of_ne_nil _ hne
      obtain ⟨d, hd, rfl⟩ := Worker.mem_toDigits (by decide) hc
      exact ⟨_, List.mem_append_left _ hc, hdigit d hd⟩
    · exact ⟨'N', by decide, by decide⟩
  display_plain := by
    have hdigit : ∀ d < 10, isQuote d.digitChar = false ∧
        d.digitChar ∉ "()[]\x7b\x7d,".toList := by decide
    have hhalf : (".5".toList.all fun c => !isQuote c && c ∉ "()[]\x7b\x7d,".toList) = true := by
      decide
    have hnan : ("NaN".toList.all fun c => !isQuote c && c ∉ "()[]\x7b\x7d,".toList) = true := by
      decide
    intro x c hc
    split at hc
    · rcases List.mem_append.1 hc with hc | hc
      · obtain ⟨d, hd, rfl⟩ := Worker.mem_toDigits (by decide) hc
        exact hdigit d hd
      · split at hc
        · cases hc
        · simpa using List.all_eq_true.1 hhalf c hc
    · simpa using List.all_eq_true.1 hnan c hc

example : withHistogramStride exactArith "histogram_quantiles([0.5, 0.99], x) ".toList (.finite 14)
    (.finite 1) = some "histogram_quantiles([0.5, 0.99], x, 13.5)".toList := by decide +kernel

def twoCalls : List Char :=
  ("histogram_percentiles([0.5], a\x7bx=\"(\"\x7d) + " ++
    "histogram_percentiles([0.5], b\x7bx=\")\"\x7d)").toList

/-- Two calls whose label values are brackets are counted as one. -/
theorem stride_two_calls : ¬ KeepsOthers exactArith twoCalls (.finite 14) (.finite 1)
    (withHistogramStride exactArith twoCalls (.finite 14) (.finite 1)) := by
  have hcounted : Counted exactArith twoCalls (.finite 14) (.finite 1)
      "histogram_percentiles(".toList (.finite (27 / 2)) :=
    ⟨by decide +kernel, by decide +kernel, by decide +kernel⟩
  intro h
  obtain ⟨a, b, hargs, -, hts⟩ := h.twoArguments hcounted
  -- outside of the quotes the bracket of the first call closes before its end
  have hscan : callBrackets.scan [.char ')'] (callBrackets.join [a, b] ++ [.char ')']) = some 1 :=
    (Brackets.scan_iff rfl).2 ⟨[a, b], rfl, hargs, rfl⟩
  have hnone : ((tokens none (twoCalls.drop 21)).map List.tail).bind
      (callBrackets.scan [.char ')']) = none := by decide +kernel
  rw [show (Text.trim twoCalls).drop ("histogram_percentiles(".toList.length - 1) =
    twoCalls.drop 21 by decide +kernel] at hts
  rw [hts] at hnone
  exact absurd (hscan.symm.trans hnone) nofun

end Viewer
