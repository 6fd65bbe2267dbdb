/-!
# Relocation modifiers

A modifier selects part of an address. It has names in source text, a number
of bits, and a function that selects its bits from a value.
-/

namespace Asm65

/-- The parts of an address that can be selected. -/
inductive Modifier
  | low8
  | high8
  | addr8
  | addr13
  | addr16
  | addr16Low
  | addr16High
  | addr24
  | addr24Bank
  | addr24Segment
  | addr24SegmentLow
  | addr24SegmentHigh
  | low8Stub
  | high8Stub
  | addr16LowStub
  | addr16HighStub
  /-- A whole address as text; no name in source text stands for it. -/
  | addressText
deriving DecidableEq

namespace Modifier

/-- The names of modifiers in source text. -/
def names : List (String × Modifier) :=
  [("lo", low8), ("lo8", low8), ("hi", high8), ("hi8", high8),
    ("mos8", addr8), ("mos13", addr13),
    ("mos16", addr16), ("mos16lo", addr16Low), ("mos16hi", addr16High),
    ("mos24", addr24), ("mos24bank", addr24Bank),
    ("mos24segment", addr24Segment), ("mos24segmentlo", addr24SegmentLow),
    ("mos24segmenthi", addr24SegmentHigh),
    ("lo_gs", low8Stub), ("lo8_gs", low8Stub), ("hi_gs", high8Stub), ("hi8_gs", high8Stub),
    ("mos16lo_gs", addr16LowStub), ("mos16hi_gs", addr16HighStub)]

/-- The modifier of a name, in any letter case. -/
def ofName? (name : String) : Option Modifier :=
  names.lookup name.toLower

/-- The word that asks for a stub inside a modifier. -/
def stubWord : String := "gs"

/-- The stub form of the modifier with a name, if there is one. -/
def stub? (name : String) : Option Modifier :=
  ofName? (name ++ "_" ++ stubWord)

/-- The text a modifier is written with. -/
def text : Modifier → String
  | low8 => "lo"
  | high8 => "hi"
  | addr8 => "mos8"
  | addr13 => "mos13"
  | addr16 => "mos16"
  | addr16Low => "mos16lo"
  | addr16High => "mos16hi"
  | addr24 => "mos24"
  | addr24Bank => "mos24bank"
  | addr24Segment => "mos24segment"
  | addr24SegmentLow => "mos24segmentlo"
  | addr24SegmentHigh => "mos24segmenthi"
  | low8Stub => "lo_gs"
  | high8Stub => "hi_gs"
  | addr16LowStub => "mos16lo_gs"
  | addr16HighStub => "mos16hi_gs"
  | addressText => "mos_addr_asciz"

/-- A modifier is read back from its text, except the one without a name. -/
theorem ofName?_text {kind : Modifier} (h : kind ≠ addressText) :
    ofName? kind.text = some kind := by
  cases kind
  case addressText => exact absurd rfl h
  all_goals decide +kernel

/-- The number of bits of the values a modifier makes. -/
def width : Modifier → Nat
  | addr13 => 13
  | addr16 | addr24Segment => 16
  | addr24 => 24
  | _ => 8

/-- The largest value a modifier makes. -/
def maxValue (kind : Modifier) : Int :=
  (1 <<< kind.width : Nat) - 1

/-- Selects the bits of a value. -/
def apply : Modifier → Int64 → Int64
  | low8, value | low8Stub, value | addr8, value | addr16Low, value | addr16LowStub, value
  | addr24SegmentLow, value => value &&& 0xFF
  | high8, value | high8Stub, value | addr16High, value | addr16HighStub, value
  | addr24SegmentHigh, value => (value >>> 8) &&& 0xFF
  | addr13, value => value &&& 0x1FFF
  | addr16, value | addr24Segment, value => value &&& 0xFFFF
  | addr24, value => value &&& 0xFFFFFF
  | addr24Bank, value => (value >>> 16) &&& 0xFF
  | addressText, value => value

end Modifier

end Asm65
