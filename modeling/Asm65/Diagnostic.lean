import Asm65.Feature
import Asm65.Span

/-!
# Diagnostics

Why a statement was rejected, and where. Each cause has a message, a code, a
label for the place it points to, and one of them a help text.
-/

namespace Asm65

/-- What was looked for when reading a statement failed. -/
inductive Expected
  | immediate
  | afterParen
  | afterBracket
  | expression
  | closeParen
  | charCount
  | absoluteExpression
  | endOfStatement
  | statement
deriving DecidableEq

/-- The wording for what was expected. -/
def Expected.message : Expected → String
  | immediate =>
    "immediate operand must be an expression evaluating to a value between 0 and 255 inclusive"
  | afterParen => "expression expected after left parenthesis"
  | afterBracket => "expression expected after left bracket"
  | expression => "expression expected"
  | closeParen => "expected ')'"
  | charCount => "expected `, <char-count>`"
  | absoluteExpression => "expected absolute expression"
  | endOfStatement => "expected end of statement"
  | statement => "expected instruction, label or directive"

/-- Why a statement was rejected. -/
inductive Cause
  | malformedNumber
  | literalRange
  | expected (what : Expected)
  | unknownModifier (name : String)
  | charCountRange (count : Int64)
  | literalWidth
  | unsupportedDirective (name : String)
  | unknownMnemonic
  | missingFeature (missing : FeatureSet)
  | invalidOperand
  | tooFewOperands
  | invalidAddr8
  | invalidAddr16
  | invalidPcRel8
  | invalidImm8To16
  | nearMisses
deriving DecidableEq

namespace Cause

/-- The wording of a diagnostic. -/
def message : Cause → String
  | malformedNumber => "malformed numeric literal"
  | literalRange => "numeric literal out of range"
  | expected what => what.message
  | unknownModifier _ => "unknown modifier"
  | charCountRange _ => "char count out of range [1,8]"
  | literalWidth => "out of range literal value"
  | unsupportedDirective _ => "unsupported directive"
  | unknownMnemonic => "invalid instruction"
  | missingFeature _ => "instruction requires a CPU feature not currently enabled"
  | invalidOperand => "invalid operand for instruction"
  | tooFewOperands => "too few operands for instruction"
  | invalidAddr8 => "operand must be an 8-bit address"
  | invalidAddr16 => "operand must be a 16-bit address"
  | invalidPcRel8 => "operand must be an 8-bit PC relative address"
  | invalidImm8To16 =>
    "operand must be an 8 to 16 bit value (between 256 and 65535 inclusive)"
  | nearMisses => "found some near misses"

/-- The code a diagnostic is filed under. -/
def code : Cause → String
  | malformedNumber => "mos_asm::lex::number"
  | literalRange => "mos_asm::lex::range"
  | expected _ => "mos_asm::syntax"
  | unknownModifier _ => "mos_asm::modifier"
  | charCountRange _ => "mos_asm::range::char_count"
  | literalWidth => "mos_asm::range::literal"
  | unsupportedDirective _ => "mos_asm::directive"
  | unknownMnemonic => "mos_asm::matcher::mnemonic"
  | missingFeature _ => "mos_asm::matcher::feature"
  | invalidOperand | tooFewOperands => "mos_asm::matcher::operand"
  | invalidAddr8 => "mos_asm::matcher::addr8"
  | invalidAddr16 => "mos_asm::matcher::addr16"
  | invalidPcRel8 => "mos_asm::matcher::pcrel8"
  | invalidImm8To16 => "mos_asm::matcher::imm8to16"
  | nearMisses => "mos_asm::matcher::near_miss"

/-- The label written at the place a diagnostic points to. -/
def label : Cause → String
  | unknownModifier _ => "not a relocation modifier"
  | literalWidth => "does not fit the requested width"
  | unknownMnemonic => "unknown mnemonic"
  | nearMisses => "no template matches this instruction exactly"
  | _ => "here"

/-- The help text of a diagnostic, if it has one. -/
def help? : Cause → Option String
  | unknownModifier _ =>
    some ("known modifiers: lo, hi, mos8, mos13, mos16, mos16lo, mos16hi, mos24, " ++
      "mos24bank, mos24segment, mos24segmentlo, mos24segmenthi")
  | _ => none

end Cause

/-- A cause and the place it points to. -/
structure Diagnostic where
  cause : Cause
  span : Span
deriving DecidableEq

end Asm65
