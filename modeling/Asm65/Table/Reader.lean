import Asm65.Table

/-!
# Reading template tables

A table is a text of lines. A line is blank, or a template

    mnemonic shape* => $hh [: feature+]

with blanks between its items, and a comment from `;` may end it. A shape is a
quoted literal, a register behind `%`, or the name of an operand class.

## Implementation notes

Lines are read into written templates first, so a malformed line anywhere in
the text is reported before an unknown name. Nothing in a line crosses its
end; a line ends with a line feed, a carriage return, or both in this order.
-/

namespace Asm65

/-- What would have been accepted where a table is malformed. -/
inductive Awaited
  | table
  | template
  | quotedLiteral
  | register
  | shape
  | opcode
  | featureList
  | endOfFeatures
deriving DecidableEq

/-- The wording for what would have been accepted. -/
def Awaited.message : Awaited → String
  | table => "expected table"
  | template => "expected end of table or template"
  | quotedLiteral => "expected quoted literal"
  | register => "expected register"
  | shape => "expected quoted literal, register, or operand class"
  | opcode => "expected opcode"
  | featureList => "expected feature list"
  | endOfFeatures => "expected end of table or feature list"

/-- A place in a text: its line, and its character in that line, both from 1. -/
structure Place where
  line : Nat
  column : Nat
deriving DecidableEq

namespace Place

/-- The first place of a text. -/
def start : Place := ⟨1, 1⟩

/-- The place behind one character. Only a line feed starts a new line. -/
def step (place : Place) (c : Char) : Place :=
  if c = '\n' then ⟨place.line + 1, 1⟩ else ⟨place.line, place.column + 1⟩

/-- The place behind some characters. -/
def advance (place : Place) (text : List Char) : Place :=
  text.foldl step place

theorem advance_append (place : Place) (first second : List Char) :
    place.advance (first ++ second) = (place.advance first).advance second :=
  List.foldl_append

end Place

/-- Why a text is no table. -/
inductive TableError
  | malformed (place : Place) (awaited : Awaited)
  | unknownClass (name : String) (line : Nat)
  | unknownRegister (name : String) (line : Nat)
  | unknownFeature (name : String) (line : Nat)
deriving DecidableEq

namespace TableError

/-- The wording of a table error. -/
def message : TableError → String
  | malformed .. => "malformed template table"
  | unknownClass name line =>
    "line " ++ Text.decimal line ++ ": unknown operand class '" ++ name ++ "'"
  | unknownRegister name line =>
    "line " ++ Text.decimal line ++ ": unknown register '%" ++ name ++ "'"
  | unknownFeature name line =>
    "line " ++ Text.decimal line ++ ": unknown CPU feature '" ++ name ++ "'"

/-- The code a table error is filed under. -/
def code : TableError → String
  | malformed .. => "mos_asm::table::syntax"
  | unknownClass .. => "mos_asm::table::class"
  | unknownRegister .. => "mos_asm::table::register"
  | unknownFeature .. => "mos_asm::table::feature"

/-- The help text of a table error, if it has one. -/
def help? : TableError → Option String
  | unknownClass .. =>
    some ("classes: " ++ String.intercalate " " (OperandClass.all.map OperandClass.name))
  | _ => none

end TableError

namespace Table

/-- A shape as it is written. -/
inductive WrittenShape
  | literal (text : String)
  | register (name : String)
  | operandClass (name : String)
deriving DecidableEq

/-- A template as it is written. -/
structure WrittenTemplate where
  line : Nat
  mnemonic : String
  shapes : List WrittenShape
  opcode : UInt8
  features : List String
deriving DecidableEq

/-- Where a line is malformed: what is left of it there, and what was awaited. -/
structure LineFailure where
  rest : List Char
  awaited : Awaited
deriving DecidableEq

/-- The text of a line behind blanks and a comment. -/
def skip : List Char → List Char
  | [] => []
  | c :: rest =>
    if c = ' ' ∨ c = '\t' then skip rest
    else if c = ';' then []
    else c :: rest

theorem length_skip_le (text : List Char) : (skip text).length ≤ text.length := by
  induction text with
  | nil => exact Nat.le_refl 0
  | cons c rest ih =>
    rw [skip]
    split
    · exact Nat.le_succ_of_le ih
    · split
      · exact Nat.zero_le _
      · exact Nat.le_refl _

/-- A word that starts with a letter, and the text behind it. -/
def word? (continues : Char → Bool) : List Char → Option (String × List Char)
  | [] => none
  | c :: rest =>
    if c.isAlpha then
      some (String.ofList (c :: rest.takeWhile continues), rest.dropWhile continues)
    else none

theorem length_word?_lt {continues : Char → Bool} {text rest : List Char} {word : String}
    (h : word? continues text = some (word, rest)) : rest.length < text.length := by
  cases text with
  | nil => simp [word?] at h
  | cons c more =>
    simp only [word?, Option.ite_none_right_eq_some, Option.some.injEq, Prod.mk.injEq] at h
    obtain ⟨_, _, rfl⟩ := h
    exact Nat.lt_succ_of_le (List.dropWhile_sublist continues).length_le

/-- The characters that continue the name of a feature. -/
def isFeatureChar (c : Char) : Bool :=
  c.isAlphanum || c = '-'

/-- One shape, and the text behind it, if a shape starts here. -/
def readShape (text : List Char) : Except LineFailure (Option (WrittenShape × List Char)) :=
  match text with
  | '\'' :: rest =>
    if rest.takeWhile (· ≠ '\'') = [] then .error ⟨rest, .quotedLiteral⟩
    else
      match rest.dropWhile (· ≠ '\'') with
      | _ :: after => .ok (some (.literal (String.ofList (rest.takeWhile (· ≠ '\''))), after))
      | [] => .error ⟨text, .shape⟩
  | '%' :: rest =>
    match word? Char.isAlphanum rest with
    | some (name, after) => .ok (some (.register name, after))
    | none => .error ⟨rest, .register⟩
  | _ =>
    match word? Char.isAlphanum text with
    | some (name, after) => .ok (some (.operandClass name, after))
    | none => .ok none

theorem readShape_shorter {text after : List Char} {shape : WrittenShape}
    (h : readShape text = .ok (some (shape, after))) : after.length < text.length := by
  unfold readShape at h
  split at h
  · next rest =>
    split at h
    · simp at h
    · split at h
      · next found =>
        have bound := (List.dropWhile_sublist (l := rest) (· ≠ '\'')).length_le
        rw [found] at bound
        simp only [Except.ok.injEq, Option.some.injEq, Prod.mk.injEq] at h
        obtain ⟨_, rfl⟩ := h
        simp only [List.length_cons] at bound ⊢
        omega
      · simp at h
  · split at h
    · next found =>
      simp only [Except.ok.injEq, Option.some.injEq, Prod.mk.injEq] at h
      obtain ⟨_, rfl⟩ := h
      exact Nat.lt_succ_of_lt (length_word?_lt found)
    · simp at h
  · split at h
    · next found =>
      simp only [Except.ok.injEq, Option.some.injEq, Prod.mk.injEq] at h
      obtain ⟨_, rfl⟩ := h
      exact length_word?_lt found
    · simp at h

/-- The shapes from here on, and the text behind them and the blanks that follow. -/
def readShapes (text : List Char) : Except LineFailure (List WrittenShape × List Char) :=
  match _ : readShape text with
  | .error failure => .error failure
  | .ok none => .ok ([], text)
  | .ok (some (shape, after)) =>
    match readShapes (skip after) with
    | .ok (shapes, rest) => .ok (shape :: shapes, rest)
    | .error failure => .error failure
termination_by text.length
decreasing_by exact Nat.lt_of_le_of_lt (length_skip_le _) (readShape_shorter ‹_›)

/-- The opcode behind `=>`, and the text behind it and the blanks that follow. -/
def readOpcode (text : List Char) : Except LineFailure (UInt8 × List Char) :=
  match text with
  | '=' :: '>' :: rest =>
    match skip rest with
    | '$' :: digits =>
      match digits with
      | high :: low :: after =>
        if Text.Radix.hexadecimal.isDigit high ∧ Text.Radix.hexadecimal.isDigit low then
          .ok (UInt8.ofNat (Text.positionalValue 16 [high, low]), skip after)
        else .error ⟨digits, .opcode⟩
      | _ => .error ⟨digits, .opcode⟩
    | other => .error ⟨other, .opcode⟩
  | _ => .error ⟨text, .shape⟩

/-- The names of features from here on, and the text behind them. -/
def readNames (text : List Char) : List String × List Char :=
  match _ : word? isFeatureChar text with
  | some (name, after) =>
    let names := readNames (skip after)
    (name :: names.1, names.2)
  | none => ([], text)
termination_by text.length
decreasing_by exact Nat.lt_of_le_of_lt (length_skip_le _) (length_word?_lt ‹_›)

/-- The features behind `:`, if there is one, and the text behind them. -/
def readFeatures (text : List Char) : Except LineFailure (List String × List Char) :=
  match text with
  | ':' :: rest =>
    match readNames (skip rest) with
    | ([], _) => .error ⟨skip rest, .featureList⟩
    | names => .ok names
  | _ => .ok ([], text)

/-- The template of a line behind its mnemonic. -/
def readTemplate (line : Nat) (mnemonic : String) (text : List Char) :
    Except LineFailure WrittenTemplate := do
  let (shapes, text) ← readShapes text
  let (opcode, text) ← readOpcode text
  let (features, text) ← readFeatures text
  if text = [] then return ⟨line, mnemonic, shapes, opcode, features⟩
  else throw ⟨text, .endOfFeatures⟩

/-- The template of a line, if it is not blank. -/
def readLine (place : Place) (line : List Char) :
    Except LineFailure (Option WrittenTemplate) :=
  let text := skip line
  match word? Char.isAlphanum text with
  | some (mnemonic, rest) => do
    let template ← readTemplate place.line mnemonic (skip rest)
    return some template
  | none =>
    if text = [] then .ok none
    else if place = .start ∧ text.length = line.length then .error ⟨text, .table⟩
    else .error ⟨text, .template⟩

/-- The lines of a text, each with the characters that end it. -/
def splitLines : List Char → List (List Char × List Char)
  | [] => [([], [])]
  | '\n' :: rest => ([], ['\n']) :: splitLines rest
  | '\r' :: '\n' :: rest => ([], ['\r', '\n']) :: splitLines rest
  | '\r' :: rest => ([], ['\r']) :: splitLines rest
  | c :: rest =>
    match splitLines rest with
    | (line, ending) :: lines => (c :: line, ending) :: lines
    | [] => [([c], [])]

/-- The templates of some lines, the first of which starts at a place. -/
def readLines (place : Place) :
    List (List Char × List Char) → Except TableError (List WrittenTemplate)
  | [] => .ok []
  | (line, ending) :: lines =>
    match readLine place line with
    | .error failure =>
      let read := line.take (line.length - failure.rest.length)
      .error (.malformed (place.advance read) failure.awaited)
    | .ok template => do
      let templates ← readLines (place.advance (line ++ ending)) lines
      return template.toList ++ templates

/-- The written templates of a text. -/
def readWritten (text : String) : Except TableError (List WrittenTemplate) :=
  readLines .start (splitLines text.toList)

/-- The shape that a written one names. -/
def resolveShape (line : Nat) : WrittenShape → Except TableError Shape
  | .literal text => .ok (.literal text)
  | .register name =>
    match Register.ofName? {.canonicalRegisterNamesOnly} name with
    | some register => .ok (.register register)
    | none => .error (.unknownRegister name line)
  | .operandClass name =>
    match OperandClass.ofName? name with
    | some operandClass => .ok (.value operandClass)
    | none => .error (.unknownClass name line)

/-- The feature of a name in a table. -/
def resolveFeature (line : Nat) (name : String) : Except TableError Feature :=
  match Feature.ofName? name with
  | some feature => .ok feature
  | none => .error (.unknownFeature name line)

/-- The template that a written one stands for. -/
def resolve (written : WrittenTemplate) : Except TableError Template := do
  let shapes ← written.shapes.mapM (resolveShape written.line)
  let features ← written.features.mapM (resolveFeature written.line)
  return .ofMnemonic written.mnemonic shapes written.opcode (.ofList features)

/-- Reads a table from its text. -/
def read (text : String) : Except TableError Table := do
  let written ← readWritten text
  let templates ← written.mapM resolve
  return .ofTemplates templates

end Table

end Asm65
