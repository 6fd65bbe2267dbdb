import Asm65.Feature

/-!
# Configuration

What changes how a line is read and matched: the enabled features, and what
happens when no expression follows an opening delimiter.
-/

namespace Asm65

/-- What happens when the expression after `(` or `[` cannot be read. -/
inductive DelimiterPolicy
  /-- The statement is rejected. -/
  | fatal
  /-- Reading goes on just after the delimiter. -/
  | fallThrough
deriving DecidableEq

namespace DelimiterPolicy

/-- A text that names no delimiter policy. -/
structure Unknown where
  text : String
deriving DecidableEq

/-- The wording of the error for an unknown delimiter policy. -/
def Unknown.message (unknown : Unknown) : String :=
  "unknown delimiter policy '" ++ unknown.text ++ "', expected 'fatal' or 'fall-through'"

/-- The names of the policies. -/
def names : List (String × DelimiterPolicy) :=
  [("fatal", fatal), ("fall-through", fallThrough), ("fallthrough", fallThrough)]

/-- The policy of a name, in any letter case. -/
def parse (text : String) : Except Unknown DelimiterPolicy :=
  match names.lookup text.toLower with
  | some policy => .ok policy
  | none => .error ⟨text⟩

end DelimiterPolicy

/-- The configuration of the assembler. -/
structure Config where
  features : FeatureSet := {.mos6502}
  policy : DelimiterPolicy := .fatal
deriving DecidableEq

end Asm65
