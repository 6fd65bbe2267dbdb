import Asm65.Text.Whitespace
import Asm65.Text.Case
import Asm65.Text.Numeral
import Asm65.Span
import Asm65.Feature
import Asm65.Config
import Asm65.Token
import Asm65.Diagnostic
import Asm65.Token.Lexer
import Asm65.Cursor
import Asm65.Expr
import Asm65.Expr.Reader
import Asm65.Modifier
import Asm65.OperandExpr
import Asm65.OperandExpr.Reader
import Asm65.Register
import Asm65.Operand
import Asm65.Operand.Reader
import Asm65.Template
import Asm65.Table
import Asm65.Table.Reader
import Asm65.Table.Builtin
import Asm65.Match
import Asm65.AddressText
import Asm65.Statement
import Asm65.Assembly
import Asm65.CommandLine
import Asm65.Main
import Asm65.Proofs.Placement
import Asm65.Proofs.Placement.Match
import Asm65.Proofs.Alignment
import Asm65.Proofs.Alignment.OperandExpr
import Asm65.Proofs.Alignment.Operand
import Asm65.Proofs.Alignment.Statement
import Asm65.Proofs.Lines
import Asm65.Proofs.Lexer
import Asm65.Proofs.Concatenation
import Asm65.Proofs.Accounting
import Asm65.Proofs.Spelling
import Asm65.Proofs.Tiling
import Asm65.Proofs.Provenance
import Asm65.Proofs.Instruction
import Asm65.Proofs.OperandWidth
import Asm65.Proofs.ReadBack.Expr
import Asm65.Proofs.ReadBack.Text
import Asm65.Proofs.ReadBack.OperandText
import Asm65.Proofs.ReadBack.Standing
import Asm65.Proofs.ReadBack.Items
import Asm65.Proofs.ReadBack.Operands
import Asm65.Proofs.ReadBack
import Asm65.Proofs.Blocks
import Asm65.Proofs.BareExpressions
import Asm65.Proofs.Grammar
import Asm65.Proofs.NamedModifiers
import Asm65.Proofs.Causes
import Asm65.Proofs.Unresolved
import Asm65.Proofs.Features.Reading
import Asm65.Proofs.Features.Matching
import Asm65.Proofs.Features
import Asm65.Proofs.TableText
import Asm65.Proofs.TableText.Extension
import Asm65.Proofs.TableText.Listing
import Asm65.Proofs.LetterCase
import Asm65.Proofs.LetterCase.Lexer
import Asm65.Proofs.LetterCase.OperandExpr
import Asm65.Proofs.LetterCase.Operand
import Asm65.Proofs.LetterCase.Assembly
import Asm65.Proofs.Priority
import Asm65.Proofs.Priority.Blame
import Asm65.Proofs.Delimiters
import Asm65.Proofs.Checked.Lexer
import Asm65.Proofs.Checked.Reader
import Asm65.Proofs.Checked.Match
import Asm65.Proofs.Checked
import Asm65.Proofs.WidthClasses
import Asm65.Proofs.ModifierSigns
import Asm65.Proofs.Settling
import Asm65.Proofs.Settling.Expr
import Asm65.Proofs.Settling.OperandExpr
import Asm65.Proofs.ErrorAnchors
import Asm65.Proofs.Resolution
import Asm65.Proofs.TokenText
import Asm65.Proofs.WrittenAddresses
import Asm65.Proofs.OperandGrammar
import Asm65.Proofs.Splicing
import Asm65.Proofs.BinaryLiterals.Lexer
import Asm65.Proofs.BinaryLiterals
import Asm65.Proofs.Spacing
import Asm65.Proofs.Labels
import Asm65.Proofs.MalformedLiterals
import Asm65.Proofs.LiteralValues
import Asm65.Proofs.FeatureLists
import Asm65.Proofs.RegisterNames
import Asm65.Proofs.Folding
import Asm65.Proofs.ParsingExpression
import Asm65.Proofs.TableText.Layout
import Asm65.Proofs.TableText.Expression
import Asm65.Proofs.TableText.Derivation
import Asm65.Proofs.TableText.Language
import Asm65.Proofs.Rejections
import Asm65.Proofs.Features.Lines
import Asm65.Proofs.StubForms
import Asm65.Proofs.TableIndex
