import Asm65.Assembly
import Mathlib

/-!
# Placements

The same tokens may stand at different places of two texts. A placement
relates the spans of the one to the spans of the other, and two results agree
under it when they differ in related spans only.

## Implementation notes

A placement is a relation, so that it can also restrict spans: `within` relates
a span to itself when it lies between two offsets.
-/

namespace Asm65

namespace Span

/-- The span the same number of bytes further on. -/
def shift (count : Nat) (span : Span) : Span :=
  ⟨span.offset + count, span.length⟩

@[simp] theorem stop_shift (count : Nat) (span : Span) :
    (span.shift count).stop = span.stop + count := by
  simp only [stop, shift]
  omega

theorem through_shift (count : Nat) (first last : Span) :
    (first.shift count).through (last.shift count) = (first.through last).shift count := by
  simp only [through, stop_shift]
  simp only [shift, mk.injEq, true_and]
  omega

/-- Whether a span lies between two offsets. -/
def Inside (low high : Nat) (span : Span) : Prop :=
  low ≤ span.offset ∧ span.stop ≤ high

theorem Inside.through {low high : Nat} {first last : Span} (h : first.Inside low high)
    (h' : last.Inside low high) : (first.through last).Inside low high := by
  obtain ⟨after, before⟩ := h
  obtain ⟨_, before'⟩ := h'
  simp only [Inside, Span.through, stop] at *
  omega

end Span

/-- A relation between the spans of two texts that the readers of tokens keep. -/
structure Placement where
  Rel : Span → Span → Prop
  through : ∀ {first first' last last' : Span}, Rel first first' → Rel last last' →
    Rel (first.through last) (first'.through last')
  start : ∀ {span span' : Span}, Rel span span' → Rel (.empty span.offset) (.empty span'.offset)
  stop : ∀ {span span' : Span}, Rel span span' → Rel (.empty span.stop) (.empty span'.stop)

namespace Placement

/-- Nothing has moved. -/
def same : Placement where
  Rel := Eq
  through := by rintro _ _ _ _ rfl rfl; rfl
  start := by rintro _ _ rfl; rfl
  stop := by rintro _ _ rfl; rfl

/-- Everything stands a number of bytes further on. -/
def shift (count : Nat) : Placement where
  Rel span span' := span' = span.shift count
  through := by
    rintro first _ last _ rfl rfl
    exact Span.through_shift count first last
  start := by rintro span _ rfl; rfl
  stop := by
    rintro span _ rfl
    rw [Span.stop_shift]
    rfl

/-- Nothing is said about places. -/
def anywhere : Placement where
  Rel _ _ := True
  through _ _ := trivial
  start _ := trivial
  stop _ := trivial

/-- Nothing has moved, and everything lies between two offsets. -/
def within (low high : Nat) : Placement where
  Rel span span' := span = span' ∧ span.Inside low high
  through := by
    rintro _ _ _ _ ⟨rfl, h⟩ ⟨rfl, h'⟩
    exact ⟨rfl, h.through h'⟩
  start := by
    rintro span _ ⟨rfl, after, before⟩
    refine ⟨rfl, after, Nat.le_trans ?_ before⟩
    exact Nat.le_add_right span.offset span.length
  stop := by
    rintro span _ ⟨rfl, after, before⟩
    refine ⟨rfl, Nat.le_trans after ?_, before⟩
    exact Nat.le_add_right span.offset span.length

/-- The same relation with the two texts exchanged. -/
def swap (place : Placement) : Placement where
  Rel span span' := place.Rel span' span
  through h h' := place.through h h'
  start h := place.start h
  stop h := place.stop h

end Placement

theorem eq_map_of_forall₂ {α β : Type} {related : α → β → Prop} {move : α → β} {list : List α}
    {list' : List β} (h : List.Forall₂ related list list')
    (moves : ∀ {value value'}, related value value' → value' = move value) :
    list' = list.map move := by
  have equal : List.Forall₂ (fun value value' => move value = value') list list' :=
    h.imp fun _ _ agree => (moves agree).symm
  rw [← List.forall₂_map_left_iff (R := Eq), List.forall₂_eq_eq_eq] at equal
  exact equal.symm

theorem rel_getElem? {α β : Type} {related : α → β → Prop} {list : List α} {list' : List β}
    (h : List.Forall₂ related list list') (index : Nat) :
    Option.Rel related list[index]? list'[index]? := by
  induction h generalizing index with
  | nil => exact .none
  | cons head _ ih =>
    cases index with
    | zero => exact .some head
    | succ index => exact ih index

theorem rel_getLast? {α β : Type} {related : α → β → Prop} {list : List α} {list' : List β}
    (h : List.Forall₂ related list list') :
    Option.Rel related list.getLast? list'.getLast? := by
  induction h with
  | nil => exact .none
  | cons head tail ih =>
    cases tail with
    | nil => exact .some head
    | cons => simpa only [List.getLast?_cons_cons] using ih

variable {place : Placement}

/-- Two tokens of one kind at related places. -/
structure Token.Agree (place : Placement) (token token' : Token) : Prop where
  kind : token.kind = token'.kind
  span : place.Rel token.span token'.span

theorem Token.Agree.swap {token token' : Token} (h : token.Agree place token') :
    token'.Agree place.swap token :=
  ⟨h.kind.symm, h.span⟩

theorem Token.agree_anywhere_iff {tokens tokens' : List Token} :
    List.Forall₂ (Token.Agree .anywhere) tokens tokens' ↔
      tokens.map Token.kind = tokens'.map Token.kind := by
  rw [← List.forall₂_eq_eq_eq, List.forall₂_map_left_iff, List.forall₂_map_right_iff]
  constructor
  · exact List.Forall₂.imp fun _ _ agree => agree.kind
  · exact List.Forall₂.imp fun _ _ kind => ⟨kind, trivial⟩

/-- Two diagnostics with one cause at related places. -/
structure Diagnostic.Agree (place : Placement) (diagnostic diagnostic' : Diagnostic) : Prop where
  cause : diagnostic.cause = diagnostic'.cause
  span : place.Rel diagnostic.span diagnostic'.span

theorem Diagnostic.Agree.expecting {diagnostic diagnostic' : Diagnostic} (what : Expected)
    (h : diagnostic.Agree place diagnostic') :
    (diagnostic.expecting what).Agree place (diagnostic'.expecting what) := by
  unfold Diagnostic.expecting
  rw [h.cause]
  split
  · exact ⟨rfl, h.span⟩
  · exact ⟨h.cause, h.span⟩

namespace Operand

/-- Two operands that differ in related spans only. -/
inductive Agree (place : Placement) : Operand → Operand → Prop
  | token (text : String) {span span' : Span} (h : place.Rel span span') :
      Agree place (.token text span) (.token text span')
  | register (found : Register) {span span' : Span} (h : place.Rel span span') :
      Agree place (.register found span) (.register found span')
  | immediate (expr : OperandExpr) {span span' : Span} (h : place.Rel span span') :
      Agree place (.immediate expr span) (.immediate expr span')

namespace Agree

variable {operand operand' : Operand}

theorem span (h : operand.Agree place operand') : place.Rel operand.span operand'.span := by
  cases h <;> assumption

theorem isToken_eq (h : operand.Agree place operand') (text : String) :
    operand.isToken text = operand'.isToken text := by
  cases h <;> rfl

theorem fits_eq (h : operand.Agree place operand') (low high : Int) :
    operand.fits low high = operand'.fits low high := by
  cases h <;> rfl

theorem admits_eq (h : operand.Agree place operand') (shape : Shape) :
    shape.admits operand = shape.admits operand' := by
  cases shape with
  | literal text => exact h.isToken_eq text
  | register wanted => cases h <;> rfl
  | value operandClass =>
    cases operandClass <;> simp only [Shape.admits, OperandClass.admits, h.fits_eq]

end Agree

/-- The operand with its span put elsewhere. -/
def mapSpan (move : Span → Span) : Operand → Operand
  | token text span => .token text (move span)
  | register found span => .register found (move span)
  | immediate expr span => .immediate expr (move span)

theorem mapSpan_id (operand : Operand) : operand.mapSpan id = operand := by
  cases operand <;> rfl

theorem Agree.eq_mapSpan {move : Span → Span} {operand operand' : Operand}
    (moves : ∀ {span span'}, place.Rel span span' → span' = move span)
    (h : operand.Agree place operand') : operand' = operand.mapSpan move := by
  cases h with
  | token text h | register found h | immediate expr h => rw [moves h]; rfl

end Operand

namespace AddressText

/-- Two addresses as text that differ in related spans only. -/
inductive Agree (place : Placement) : AddressText → AddressText → Prop
  | bytes (written : List UInt8) {span span' : Span} (h : place.Rel span span') :
      Agree place (.bytes written span) (.bytes written span')
  | deferred (address : OperandExpr) (chars : Nat) {span span' : Span} (h : place.Rel span span') :
      Agree place (.deferred address chars span) (.deferred address chars span')

/-- Where the operands of the directive stand. -/
def span : AddressText → Span
  | bytes _ span | deferred _ _ span => span

/-- The address with its span put elsewhere. -/
def mapSpan (move : Span → Span) : AddressText → AddressText
  | bytes written span => .bytes written (move span)
  | deferred address chars span => .deferred address chars (move span)

end AddressText

/-- The instruction with its spans put elsewhere. -/
def Instruction.mapSpan (move : Span → Span) (found : Instruction) : Instruction :=
  ⟨found.template, found.operands.map (Operand.mapSpan move)⟩

namespace Statement

/-- Two statements that differ in related spans only. -/
inductive Agree (place : Placement) : Statement → Statement → Prop
  | label (name : String) {span span' : Span} (h : place.Rel span span') :
      Agree place (.label name span) (.label name span')
  | instruction (template : Template) {operands operands' : List Operand}
      (h : List.Forall₂ (Operand.Agree place) operands operands') :
      Agree place (.instruction ⟨template, operands⟩) (.instruction ⟨template, operands'⟩)
  | addressText {found found' : AddressText} (h : found.Agree place found') :
      Agree place (.addressText found) (.addressText found')

/-- Whether a statement is a label. -/
def IsLabel (statement : Statement) : Prop :=
  ∃ name span, statement = .label name span

/-- The spans of a label, of the operands of an instruction, or of the directive. -/
def spans : Statement → List Span
  | label _ span => [span]
  | instruction found => found.operands.map Operand.span
  | addressText found => [found.span]

/-- The statement with its spans put elsewhere. -/
def mapSpan (move : Span → Span) : Statement → Statement
  | label name span => .label name (move span)
  | instruction found => .instruction (found.mapSpan move)
  | addressText found => .addressText (found.mapSpan move)

theorem mapSpan_id (statement : Statement) : statement.mapSpan id = statement := by
  cases statement with
  | label name span => rfl
  | instruction found =>
    have operands := List.map_congr_left fun operand (_ : operand ∈ found.operands) =>
      operand.mapSpan_id
    rw [List.map_id'] at operands
    simp only [mapSpan, Instruction.mapSpan, operands]
  | addressText found => cases found <;> rfl

theorem Agree.eq_mapSpan {move : Span → Span} {statement statement' : Statement}
    (moves : ∀ {span span'}, place.Rel span span' → span' = move span)
    (h : statement.Agree place statement') : statement' = statement.mapSpan move := by
  cases h with
  | label name h => rw [moves h]; rfl
  | instruction template h =>
    rw [eq_map_of_forall₂ h fun agree => agree.eq_mapSpan moves]
    rfl
  | addressText h => cases h with
    | bytes written h | deferred address chars h => rw [moves h]; rfl

theorem Agree.spans {statement statement' : Statement} (h : statement.Agree place statement') :
    List.Forall₂ place.Rel statement.spans statement'.spans := by
  cases h with
  | label name h => exact .cons h .nil
  | instruction template h =>
    simp only [Statement.spans, List.forall₂_map_left_iff, List.forall₂_map_right_iff]
    exact h.imp fun _ _ agree => agree.span
  | addressText h => cases h with
    | bytes written h | deferred address chars h => exact .cons h .nil

end Statement

/-- The diagnostic with its span put elsewhere. -/
def Diagnostic.mapSpan (move : Span → Span) (diagnostic : Diagnostic) : Diagnostic :=
  ⟨diagnostic.cause, move diagnostic.span⟩

theorem Diagnostic.Agree.eq_mapSpan {move : Span → Span} {diagnostic diagnostic' : Diagnostic}
    (moves : ∀ {span span'}, place.Rel span span' → span' = move span)
    (h : diagnostic.Agree place diagnostic') : diagnostic' = diagnostic.mapSpan move := by
  obtain ⟨cause, span⟩ := diagnostic'
  simp only [Diagnostic.mapSpan, Diagnostic.mk.injEq]
  exact ⟨h.cause.symm, moves h.span⟩

namespace Assembly

/-- Two assemblies that differ in related spans only. -/
structure Agree (place : Placement) (assembly assembly' : Assembly) : Prop where
  statements : List.Forall₂ (Statement.Agree place) assembly.statements assembly'.statements
  diagnostics : List.Forall₂ (Diagnostic.Agree place) assembly.diagnostics assembly'.diagnostics

/-- The spans of the statements, then of the diagnostics. -/
def spans (assembly : Assembly) : List Span :=
  assembly.statements.flatMap Statement.spans ++ assembly.diagnostics.map Diagnostic.span

/-- The assembly with its spans put elsewhere. -/
def mapSpan (move : Span → Span) (assembly : Assembly) : Assembly :=
  ⟨assembly.statements.map (Statement.mapSpan move),
    assembly.diagnostics.map (Diagnostic.mapSpan move)⟩

theorem Agree.eq_mapSpan {move : Span → Span} {assembly assembly' : Assembly}
    (moves : ∀ {span span'}, place.Rel span span' → span' = move span)
    (h : assembly.Agree place assembly') : assembly' = assembly.mapSpan move := by
  obtain ⟨statements, diagnostics⟩ := assembly'
  simp only [mapSpan, mk.injEq]
  exact ⟨eq_map_of_forall₂ h.statements fun agree => agree.eq_mapSpan moves,
    eq_map_of_forall₂ h.diagnostics fun agree => agree.eq_mapSpan moves⟩

theorem Agree.eq_of_same {assembly assembly' : Assembly} (h : assembly.Agree .same assembly') :
    assembly' = assembly := by
  have statements := List.map_congr_left fun statement (_ : statement ∈ assembly.statements) =>
    statement.mapSpan_id
  rw [List.map_id'] at statements
  have diagnostics : assembly.diagnostics.map (Diagnostic.mapSpan id) = assembly.diagnostics :=
    List.map_id' assembly.diagnostics
  have moved : assembly' = assembly.mapSpan id := h.eq_mapSpan Eq.symm
  rw [moved, mapSpan, statements, diagnostics]

theorem Agree.empty : Agree place ∅ ∅ := ⟨.nil, .nil⟩

theorem Agree.ofStatement {statement statement' : Statement}
    (h : statement.Agree place statement') :
    (Assembly.ofStatement statement).Agree place (Assembly.ofStatement statement') :=
  ⟨.cons h .nil, .nil⟩

theorem Agree.ofDiagnostic {diagnostic diagnostic' : Diagnostic}
    (h : diagnostic.Agree place diagnostic') :
    (Assembly.ofDiagnostic diagnostic).Agree place (Assembly.ofDiagnostic diagnostic') :=
  ⟨.nil, .cons h .nil⟩

theorem Agree.append {first first' second second' : Assembly} (h : first.Agree place first')
    (h' : second.Agree place second') : (first ++ second).Agree place (first' ++ second') :=
  ⟨List.rel_append h.statements h'.statements, List.rel_append h.diagnostics h'.diagnostics⟩

end Assembly

end Asm65
