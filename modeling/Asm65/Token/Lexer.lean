import Asm65.Diagnostic
import Asm65.Text.Whitespace
import Asm65.Token

/-!
# Reading tokens

Source text becomes a list of tokens that ends with an end of statement, or a
malformed literal stops it. Blanks and comments leave no token.

## Implementation notes

`%` starts a binary numeral where an operand may stand, and is the remainder
operator after one. `Mode` is all that this needs of the tokens already read.
`scan` looks at one lexeme, and says how many characters follow its first one.
-/

namespace Asm65

open Text (Radix)

namespace Token

/-- Where the next token stands in its statement. -/
inductive Mode
  /-- At the start of the text, or after an end of statement or a label's colon. -/
  | statementStart
  | operandExpected
  | operandEnded
deriving DecidableEq

/-- Where the token after one of this kind stands. A name that starts a statement is no operand. -/
def Mode.next : Mode → TokenKind → Mode
  | _, .endOfStatement | _, .punct .colon => statementStart
  | statementStart, .name _ => operandExpected
  | _, .name _ | _, .number .. | _, .char _ | _, .punct .closeParen | _, .punct .closeBracket =>
    operandEnded
  | _, .punct _ | _, .unknown _ => operandExpected

/-- The characters that start a name. -/
def isNameStart (c : Char) : Bool :=
  c.isAlpha || c = '_' || c = '.'

/-- The characters that continue a name. -/
def isNameChar (c : Char) : Bool :=
  c.isAlphanum || c = '_' || c = '.' || c = '@'

/-- Operators and delimiters of one character that start no longer one. -/
def punctOfChar? : Char → Option Punct
  | '+' => some .plus
  | '-' => some .dash
  | '*' => some .star
  | '/' => some .slash
  | '&' => some .amp
  | '|' => some .pipe
  | '^' => some .caret
  | '~' => some .tilde
  | '#' => some .hash
  | '(' => some .openParen
  | ')' => some .closeParen
  | '[' => some .openBracket
  | ']' => some .closeBracket
  | ',' => some .comma
  | ':' => some .colon
  | '=' => some .equals
  | _ => none

/-- What a lexeme is. -/
inductive Lexeme
  | blank
  | token (kind : TokenKind)
  | malformed
deriving DecidableEq

/-- A numeral with digits already read, after `skip` characters of its radix mark in `rest`.
Letters glued to the digits spoil it, and so does the lack of any digit. -/
def scanNumeral (radix : Radix) (read : List Char) (skip : Nat) (rest : List Char) :
    Lexeme × Nat :=
  let digits := (rest.drop skip).takeWhile radix.isNumeralChar
  let tail := (rest.drop (skip + digits.length)).takeWhile isNameChar
  let lexeme :=
    if read ++ digits = [] ∨ tail ≠ [] then .malformed
    else .token (.number radix (String.ofList (read ++ digits)))
  (lexeme, skip + digits.length + tail.length)

/-- A decimal numeral, or one with a radix mark after its leading `0`. -/
def scanDigit (c : Char) (rest : List Char) : Lexeme × Nat :=
  match c, rest with
  | '0', 'x' :: _ | '0', 'X' :: _ => scanNumeral .hexadecimal [] 1 rest
  | '0', 'b' :: d :: _ | '0', 'B' :: d :: _ =>
    if d = '0' ∨ d = '1' then scanNumeral .binary [] 1 rest else scanNumeral .decimal [c] 0 rest
  | _, _ => scanNumeral .decimal [c] 0 rest

/-- A quoted character, after its opening quote. A malformed one runs to the next white space. -/
def scanQuoted (rest : List Char) : Lexeme × Nat :=
  match rest with
  | [] => (.malformed, 0)
  | c :: more =>
    if more.head? = some '\'' ∧ c ≠ '\'' ∧ c ≠ '\n' then (.token (.char c), 2)
    else (.malformed, 1 + (more.takeWhile (!Text.isWhitespace ·)).length)

/-- A character that may be written twice in a row to form another operator. -/
def scanDoubled (c : Char) (single double : Punct) (rest : List Char) : Lexeme × Nat :=
  if rest.head? = some c then (.token (.punct double), 1) else (.token (.punct single), 0)

/-- Whether a binary digit stands next. -/
def startsBinary (rest : List Char) : Bool :=
  rest.head? = some '0' || rest.head? = some '1'

/-- The lexeme that starts with `c`, and how many characters of `rest` belong to it. -/
def scan (mode : Mode) (c : Char) (rest : List Char) : Lexeme × Nat :=
  match c with
  | ' ' | '\t' | '\r' => (.blank, 0)
  | '\n' => (.token .endOfStatement, 0)
  | ';' => (.blank, (rest.takeWhile (· ≠ '\n')).length)
  | '$' => scanNumeral .hexadecimal [] 0 rest
  | '%' =>
    if mode ≠ .operandEnded ∧ startsBinary rest then scanNumeral .binary [] 0 rest
    else (.token (.punct .percent), 0)
  | '\'' => scanQuoted rest
  | '<' => scanDoubled c .less .shl rest
  | '>' => scanDoubled c .greater .shr rest
  | _ =>
    if c.isDigit then scanDigit c rest
    else if isNameStart c then
      let tail := rest.takeWhile isNameChar
      (.token (.name (String.ofList (c :: tail))), tail.length)
    else
      match punctOfChar? c with
      | some punct => (.token (.punct punct), 0)
      | none => (.token (.unknown c), 0)

/-- The tokens of a text that starts at an offset. -/
def lexFrom (mode : Mode) (offset : Nat) (text : List Char) : Except Diagnostic (List Token) :=
  match text with
  | [] => .ok []
  | c :: rest =>
    let found := scan mode c rest
    let span : Span := ⟨offset, utf8Length (c :: rest.take found.2)⟩
    match found.1 with
    | .blank => lexFrom mode span.stop (rest.drop found.2)
    | .token kind =>
      match lexFrom (mode.next kind) span.stop (rest.drop found.2) with
      | .ok tokens => .ok (⟨kind, span⟩ :: tokens)
      | .error diagnostic => .error diagnostic
    | .malformed => .error ⟨.malformedNumber, span⟩
termination_by text.length
decreasing_by all_goals simp only [List.length_drop, List.length_cons]; omega

/-- Whether the last of some tokens ends a statement. -/
def EndsStatement (tokens : List Token) : Prop :=
  tokens.getLast?.map Token.kind = some .endOfStatement

instance (tokens : List Token) : Decidable (EndsStatement tokens) :=
  inferInstanceAs (Decidable (_ = _))

/-- The tokens with an empty end of statement at an offset, unless they end with one. -/
def closeStatement (offset : Nat) (tokens : List Token) : List Token :=
  if EndsStatement tokens then tokens else tokens ++ [⟨.endOfStatement, .empty offset⟩]

theorem endsStatement_closeStatement (offset : Nat) (tokens : List Token) :
    EndsStatement (closeStatement offset tokens) := by
  unfold closeStatement
  split
  · assumption
  · simp [EndsStatement]

/-- The tokens of a source, the last of which ends a statement. -/
def lex (source : String) : Except Diagnostic (List Token) :=
  match lexFrom .statementStart 0 source.toList with
  | .ok tokens => .ok (closeStatement (utf8Length source.toList) tokens)
  | .error diagnostic => .error diagnostic

end Token

end Asm65
