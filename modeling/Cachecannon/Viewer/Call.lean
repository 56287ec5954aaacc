import Cachecannon.Lib.Brackets
import Cachecannon.Lib.Text

/-!
# Calls in a query

A query is read as its tokens, in which a quoted label value is one token whatever it contains.
Quotes are `"`, `'` and the backquote; in the first two a backslash escapes the next character.
An argument is more than white space.
-/

namespace Viewer

inductive Token
  | char (c : Char)
  | quoted
  deriving Repr, DecidableEq

def Token.blank : Token → Bool
  | .char c => Text.isWhitespace c
  | .quoted => false

def backquote : Char := Char.ofNat 96

def isQuote (c : Char) : Bool := c = '"' || c = Char.ofNat 39 || c = backquote

/-- The tokens of a text, whose quotes all close; `inside` is the quote open so far and whether
the next character is escaped. -/
def tokens : (inside : Option (Char × Bool)) → List Char → Option (List Token)
  | none, [] => some []
  | some _, [] => none
  | none, c :: cs =>
    if isQuote c then tokens (some (c, false)) cs else (tokens none cs).map (.char c :: ·)
  | some (q, true), _ :: cs => tokens (some (q, false)) cs
  | some (q, false), c :: cs =>
    if c = q then (tokens none cs).map (.quoted :: ·)
    else tokens (some (q, c = '\\' && q ≠ backquote)) cs

def callBrackets : Brackets Token where
  closer
    | .char '(' => some (.char ')')
    | .char '[' => some (.char ']')
    | .char '{' => some (.char '}')
    | _ => none
  closing t := t = .char ')' || t = .char ']' || t = .char '}'
  sep := .char ','
  closer_closing := by
    intro o c h
    split at h <;> cases h <;> rfl
  closing_closer := by
    intro c h
    simp only [Bool.or_eq_true, decide_eq_true_eq] at h
    rcases h with (rfl | rfl) | rfl <;> rfl
  closer_sep := rfl
  closing_sep := rfl

/-- `text` is one call `f(args)`, with the arguments between its top-level commas. -/
structure IsCall (f : List Char) (args : List (List Token)) (text : List Char) : Prop where
  arguments : ∀ a ∈ args, callBrackets.Argument a
  notBlank : ∀ a ∈ args, ∃ t ∈ a, t.blank = false
  reads : tokens none text =
    some (f.map .char ++ .char '(' :: (callBrackets.join args ++ [.char ')']))

end Viewer
