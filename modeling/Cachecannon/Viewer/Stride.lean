import Cachecannon.Config.Model
import Cachecannon.Lib.Text
import Cachecannon.Viewer.Call

/-!
# The stride of a histogram query (`src/viewer/api.rs`, `with_histogram_stride`)

`f64` arithmetic and its text are parameters (`StrideArith`). The bracket loop counts in `i32`.
-/

namespace Viewer

open Config (F64)

/-- `f64` as the stride uses it. The text of one is not blank, and has no bracket, comma or
quote. -/
structure StrideArith where
  div : F64 → F64 → F64
  sub : F64 → F64 → F64
  mul : F64 → F64 → F64
  round : F64 → F64
  display : F64 → List Char
  display_notBlank : ∀ x, ∃ c ∈ display x, Text.isWhitespace c = false
  display_plain : ∀ x, ∀ c ∈ display x, isQuote c = false ∧ c ∉ "()[]\x7b\x7d,".toList

def histogramCalls : List (List Char) :=
  ["histogram_percentiles(".toList, "histogram_quantiles(".toList]

/-- The stride for a step, if it gets one. -/
def strideOf (arith : StrideArith) (step interval : F64) : Option F64 :=
  if step = .nan || step.le (.finite 0) then none
  else if F64.lt (.finite 0) interval then
    let k := arith.round (arith.div step interval)
    if k.le (.finite 1) then none else some (arith.mul (arith.sub k (.finite (1 / 2))) interval)
  else some step

/-- The loop over the brackets: the depth and the commas at depth 1, unless the depth is back at 0
before the last character. -/
def bracketLoop : (depth commas : Int32) → List Char → Option (Int32 × Int32)
  | depth, commas, [] => some (depth, commas)
  | depth, commas, ch :: rest =>
    match ch with
    | '(' | '[' | '{' => bracketLoop (depth + 1) commas rest
    | ')' | ']' | '}' =>
      if depth - 1 = 0 && rest ≠ [] then none else bracketLoop (depth - 1) commas rest
    | ',' => bracketLoop depth (if depth = 1 then commas + 1 else commas) rest
    | _ => bracketLoop depth commas rest

/-- `none` is a slice inside a character. -/
def withHistogramStride (arith : StrideArith) (query : List Char) (step interval : F64) :
    Option (List Char) :=
  let trimmed := Text.trim query
  match histogramCalls.find? (·.isPrefixOf trimmed) with
  | none => some query
  | some pre =>
    let openAt := pre.length - 1
    match strideOf arith step interval with
    | none => some query
    | some stride =>
      match bracketLoop 0 0 (trimmed.drop openAt) with
      | none => some query
      | some (depth, commas) =>
        if depth ≠ 0 || commas ≠ 1 then some query
        else
          (Text.sliceTo trimmed ((Text.encode trimmed).length - 1)).map fun s =>
            s ++ ", ".toList ++ arith.display stride ++ ")".toList

end Viewer
