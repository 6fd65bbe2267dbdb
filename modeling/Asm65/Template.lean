import Asm65.Operand

/-!
# Instruction templates

A template is one addressing mode of one instruction: its mnemonic, the shape
of each operand, its opcode, and the features it needs.

## Implementation notes

Mnemonics are kept in lower case by the type, so equal templates have equal
mnemonics however their tables spell them.
-/

namespace Asm65

/-- The classes of values an operand may have to be of. -/
inductive OperandClass
  | imm8
  | imm16
  | imm24
  | imm8To16
  | imm16To24
  | pcRel8
  | pcRel16
  | addr8
  | addr16
  | addr24
deriving DecidableEq

namespace OperandClass

/-- All operand classes. -/
def all : List OperandClass :=
  [imm8, imm16, imm24, imm8To16, imm16To24, pcRel8, pcRel16, addr8, addr16, addr24]

/-- The name of an operand class. -/
def name : OperandClass → String
  | imm8 => "imm8"
  | imm16 => "imm16"
  | imm24 => "imm24"
  | imm8To16 => "imm8to16"
  | imm16To24 => "imm16to24"
  | pcRel8 => "pcrel8"
  | pcRel16 => "pcrel16"
  | addr8 => "addr8"
  | addr16 => "addr16"
  | addr24 => "addr24"

/-- The operand class of a name, in any letter case. -/
def ofName? (name : String) : Option OperandClass :=
  (all.map fun operandClass => (operandClass.name, operandClass)).lookup name.toLower

theorem ofName?_name (operandClass : OperandClass) :
    ofName? operandClass.name = some operandClass := by
  cases operandClass <;> decide +kernel

/-- Whether an operand may have a value of a class. The two classes that name a range take
what the smaller width does not. -/
def admits : OperandClass → Operand → Bool
  | imm8, operand | pcRel8, operand | addr8, operand => operand.fits 0 max8
  | imm16, operand | pcRel16, operand | addr16, operand => operand.fits 0 max16
  | imm24, operand | addr24, operand => operand.fits 0 max24
  | imm8To16, operand => !operand.fits 0 max8 && operand.fits 0 max16
  | imm16To24, operand => !operand.fits 0 max16 && operand.fits 0 max24

end OperandClass

/-- What a template has at one operand position. -/
inductive Shape
  /-- A token with this text, in any letter case. -/
  | literal (text : String)
  | register (wanted : Register)
  | value (operandClass : OperandClass)
deriving DecidableEq

namespace Shape

/-- Whether an operand has a shape. -/
def admits : Shape → Operand → Bool
  | literal text, operand => operand.isToken text
  | register wanted, operand => operand.isRegister wanted
  | value operandClass, operand => operandClass.admits operand

/-- The text of a shape in a table. -/
def text : Shape → String
  | literal text => "'" ++ text ++ "'"
  | register wanted => "%" ++ wanted.text
  | value operandClass => operandClass.name

end Shape

/-- One addressing mode of one instruction. -/
structure Template where
  mnemonic : String
  shapes : List Shape
  opcode : UInt8
  /-- The features that all have to be enabled. -/
  requires : FeatureSet
  mnemonic_lower : mnemonic.toLower = mnemonic
deriving DecidableEq

namespace Template

/-- A template with a mnemonic in any letter case. -/
def ofMnemonic (mnemonic : String) (shapes : List Shape) (opcode : UInt8)
    (requires : FeatureSet) : Template where
  mnemonic := mnemonic.toLower
  shapes := shapes
  opcode := opcode
  requires := requires
  mnemonic_lower := Text.toLower_toLower mnemonic

/-- Whether the features that a template needs are enabled. -/
def IsEnabled (template : Template) (features : FeatureSet) : Prop :=
  template.requires ⊆ features

instance (template : Template) (features : FeatureSet) :
    Decidable (template.IsEnabled features) :=
  inferInstanceAs (Decidable (template.requires ⊆ features))

/-- The text of a template in a table. -/
def text (template : Template) : String :=
  String.intercalate " " (template.mnemonic :: template.shapes.map Shape.text) ++
    " => $" ++ Text.hexByte template.opcode ++
    if template.requires = ∅ then ""
    else " : " ++ String.intercalate " " template.requires.items

end Template

end Asm65
