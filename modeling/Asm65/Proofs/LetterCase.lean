import Asm65.Proofs.Spelling

/-!
# Letter case

Tokens, operands, statements and diagnostics in lower case: the names in them
and the texts of tokens, but no quoted character, no value and no span. Two of
them differ in letter case at most when they are equal in lower case.

## Implementation notes

Classes of characters are compared with those of their lower case letter by
letter (`apply_toLower`), since only 26 characters change.
-/

namespace Asm65

open Text (Radix)

namespace Text

/-- The letters that lower case changes. -/
def upperLetters : List Char :=
  (List.range 26).map fun index => Char.ofNat ('A'.toNat + index)

theorem toLower_eq_or_mem (c : Char) : c.toLower = c ∨ c ∈ upperLetters := by
  unfold Char.toLower
  split
  · next upper =>
    have low : 65 ≤ c.toNat := UInt32.le_iff_toNat_le.1 upper.1
    have high : c.toNat ≤ 90 := UInt32.le_iff_toNat_le.1 upper.2
    refine .inr (List.mem_map.2 ⟨c.toNat - 65, List.mem_range.2 (by omega), ?_⟩)
    have whole : 'A'.toNat + (c.toNat - 65) = c.toNat := by
      change 65 + (c.toNat - 65) = c.toNat
      omega
    rw [whole, Char.ofNat_toNat]
  · exact .inl rfl

/-- What is the same for every letter in both cases is the same for every character. -/
theorem apply_toLower {α : Type} [DecidableEq α] (f : Char → α)
    (h : upperLetters.all fun c => f c.toLower = f c) (c : Char) : f c.toLower = f c := by
  rcases toLower_eq_or_mem c with same | letter
  · rw [same]
  · exact of_decide_eq_true (List.all_eq_true.1 h c letter)

theorem utf8Size_toLower : ∀ c : Char, c.toLower.utf8Size = c.utf8Size :=
  apply_toLower _ (by decide)

theorem isNumeralChar_toLower (radix : Radix) :
    ∀ c : Char, radix.isNumeralChar c.toLower = radix.isNumeralChar c :=
  apply_toLower _ (by cases radix <;> decide)

theorem digitValue_toLower : ∀ c : Char, digitValue c.toLower = digitValue c :=
  apply_toLower _ (by decide)

theorem utf8Length_toLower (text : List Char) :
    utf8Length (text.map Char.toLower) = utf8Length text := by
  induction text with
  | nil => rfl
  | cons c rest ih => rw [List.map_cons, utf8Length_cons, utf8Length_cons, utf8Size_toLower, ih]

theorem toLower_ofList (text : List Char) :
    (String.ofList text).toLower = String.ofList (text.map Char.toLower) := by
  rw [← String.toList_inj, toList_toLower, String.toList_ofList, String.toList_ofList]

theorem toLower_append (first second : String) :
    (first ++ second).toLower = first.toLower ++ second.toLower := by
  rw [← String.toList_inj]
  simp only [toList_toLower, String.toList_append, List.map_append]

/-- A character that is no letter is the lower case of no other. -/
theorem toLower_eq_iff {c d : Char} (other : d.isLower = false) (kept : d.toLower = d) :
    c.toLower = d ↔ c = d :=
  ⟨fun same => eq_of_toLower_eq same other, fun same => same ▸ kept⟩

theorem mem_toLower_iff {d : Char} (other : d.isLower = false) (kept : d.toLower = d)
    {text : String} : d ∈ text.toLower.toList ↔ d ∈ text.toList := by
  simp only [toList_toLower, List.mem_map, toLower_eq_iff other kept, exists_eq_right]

theorem SameIgnoringCase.mem_iff {d : Char} (other : d.isLower = false) (kept : d.toLower = d)
    {first second : String} (same : SameIgnoringCase first second) :
    d ∈ first.toList ↔ d ∈ second.toList := by
  rw [← mem_toLower_iff other kept, same, mem_toLower_iff other kept]

theorem sameIgnoringCase_toLower_iff {first second : String} :
    SameIgnoringCase first.toLower second ↔ SameIgnoringCase first second := by
  rw [SameIgnoringCase, toLower_toLower]
  rfl

theorem isDigit_toLower (radix : Radix) :
    ∀ c : Char, radix.isDigit c.toLower = radix.isDigit c :=
  apply_toLower _ (by cases radix <;> decide)

theorem numeralDigits_toLower (numeral : String) :
    numeralDigits numeral.toLower = (numeralDigits numeral).map Char.toLower := by
  have separator : ∀ c : Char, decide (c.toLower ≠ '_') = decide (c ≠ '_') :=
    apply_toLower (fun c => decide (c ≠ '_')) (by decide)
  simp only [numeralDigits, toList_toLower, List.filter_map, Function.comp_def, separator]

theorem dropPlus_map_toLower (digits : List Char) :
    dropPlus (digits.map Char.toLower) = (dropPlus digits).map Char.toLower := by
  cases digits with
  | nil => rfl
  | cons c rest =>
    have plus : c.toLower = '+' ↔ c = '+' := toLower_eq_iff (by decide) (by decide)
    simp only [dropPlus, List.map_cons, List.head?_cons, Option.some.injEq, plus, List.tail_cons]
    split <;> rfl

theorem positionalValue_map_toLower (base : Nat) (digits : List Char) :
    positionalValue base (digits.map Char.toLower) = positionalValue base digits := by
  simp only [positionalValue, List.foldl_map, digitValue_toLower]

/-- A numeral has the same value in lower case. -/
theorem numeralValue?_toLower (radix : Radix) (numeral : String) :
    numeralValue? radix numeral.toLower = numeralValue? radix numeral := by
  unfold numeralValue?
  rw [numeralDigits_toLower, dropPlus_map_toLower]
  cases dropPlus (numeralDigits numeral) with
  | nil => rfl
  | cons c rest =>
    have whole := positionalValue_map_toLower radix.base (c :: rest)
    have digits : ((c :: rest).map Char.toLower).all radix.isDigit =
        (c :: rest).all radix.isDigit := by
      simp only [List.all_map, Function.comp_def, isDigit_toLower]
    rw [List.map_cons] at whole digits
    simp only [List.map_cons, digits, whole]

end Text

namespace TokenKind

/-- A kind of token in lower case. A quoted character keeps its case, which its value depends on. -/
def toLower : TokenKind → TokenKind
  | name text => name text.toLower
  | number radix numeral => number radix numeral.toLower
  | unknown c => unknown c.toLower
  | endOfStatement => endOfStatement
  | char c => char c
  | punct p => punct p

variable {kind : TokenKind}

theorem toLower_eq_endOfStatement_iff : kind.toLower = endOfStatement ↔ kind = endOfStatement := by
  cases kind <;> simp [toLower]

theorem toLower_eq_punct_iff {p : Punct} : kind.toLower = punct p ↔ kind = punct p := by
  cases kind <;> simp [toLower]

theorem toLower_eq_name_iff {text : String} :
    kind.toLower = name text ↔ ∃ spelling, kind = name spelling ∧ spelling.toLower = text := by
  cases kind <;> simp [toLower]

theorem value?_toLower (kind : TokenKind) : kind.toLower.value? = kind.value? := by
  cases kind with
  | number radix numeral => simp only [toLower, value?, Text.numeralValue?_toLower]
  | endOfStatement | name | char | punct | unknown => rfl

theorem name?_toLower (kind : TokenKind) : kind.toLower.name? = kind.name?.map String.toLower := by
  cases kind <;> rfl

theorem isName_toLower_iff {text : String} : kind.toLower.IsName text ↔ kind.IsName text := by
  constructor
  · rintro ⟨_, named, same⟩
    obtain ⟨spelling, rfl, rfl⟩ := toLower_eq_name_iff.1 named
    exact ⟨spelling, rfl, Text.sameIgnoringCase_toLower_iff.1 same⟩
  · rintro ⟨spelling, rfl, same⟩
    exact ⟨spelling.toLower, rfl, Text.sameIgnoringCase_toLower_iff.2 same⟩

/-- Lower case comes through in the text of every token but a quoted character. -/
theorem text_toLower (h : ∀ c, kind ≠ char c) : kind.toLower.text = kind.text.toLower := by
  cases kind with
  | endOfStatement => cbv
  | name => rfl
  | number radix numeral =>
    have plain : ∀ mark ∈ ["%", "$"], mark.toLower = mark := by decide +kernel
    cases radix <;> simp [toLower, text, Text.toLower_append, plain]
  | char c => exact absurd rfl (h c)
  | punct p => cases p <;> cbv
  | unknown c => exact (Text.toLower_ofList [c]).symm

end TokenKind

/-- A token in lower case. -/
def Token.toLower (token : Token) : Token :=
  ⟨token.kind.toLower, token.span⟩

@[simp] theorem Token.kind_toLower (token : Token) : token.toLower.kind = token.kind.toLower := rfl

@[simp] theorem Token.span_toLower (token : Token) : token.toLower.span = token.span := rfl

/-- Tokens in lower case, at the same place. -/
def Cursor.toLower (cursor : Cursor) : Cursor :=
  ⟨cursor.position, cursor.rest.map Token.toLower, cursor.stop⟩

/-- An expression with its symbols in lower case. -/
def Expr.toLower : Expr → Expr
  | constant value => constant value
  | symbol name => symbol name.toLower
  | unary op operand => unary op operand.toLower
  | binary op left right => binary op left.toLower right.toLower

/-- An operand expression with its symbols in lower case. -/
def OperandExpr.toLower : OperandExpr → OperandExpr
  | plain expr => plain expr.toLower
  | modified kind inner negated => modified kind inner.toLower negated

/-- An operand with the text of its token, or its symbols, in lower case. -/
def Operand.toLower : Operand → Operand
  | token text span => token text.toLower span
  | register found span => register found span
  | immediate expr span => immediate expr.toLower span

/-- An address as text with its symbols in lower case. Bytes are kept. -/
def AddressText.toLower : AddressText → AddressText
  | bytes written span => bytes written span
  | deferred address chars span => deferred address.toLower chars span

/-- An instruction with its operands in lower case. The template is kept. -/
def Instruction.toLower (found : Instruction) : Instruction :=
  ⟨found.template, found.operands.map Operand.toLower⟩

/-- A statement with its names in lower case. -/
def Statement.toLower : Statement → Statement
  | label name span => label name.toLower span
  | instruction found => instruction found.toLower
  | addressText found => addressText found.toLower

/-- A cause with the name in it in lower case, if it has one. -/
def Cause.toLower : Cause → Cause
  | unknownModifier name => unknownModifier name.toLower
  | unsupportedDirective name => unsupportedDirective name.toLower
  | cause => cause

/-- A diagnostic with the name in it in lower case. -/
def Diagnostic.toLower (diagnostic : Diagnostic) : Diagnostic :=
  ⟨diagnostic.cause.toLower, diagnostic.span⟩

/-- An assembly with its names in lower case. -/
def Assembly.toLower (assembly : Assembly) : Assembly :=
  ⟨assembly.statements.map Statement.toLower, assembly.diagnostics.map Diagnostic.toLower⟩

/-- Two operands that differ in the letter case of a token or of symbols at most. -/
inductive Operand.SameIgnoringCase : Operand → Operand → Prop
  | token {text text' : String} (h : Text.SameIgnoringCase text text') (span : Span) :
      SameIgnoringCase (.token text span) (.token text' span)
  | register (found : Register) (span : Span) :
      SameIgnoringCase (.register found span) (.register found span)
  | immediate {expr expr' : OperandExpr} (h : expr.toLower = expr'.toLower)
      (value : expr.value? = expr'.value?) (range : expr.range? = expr'.range?) (span : Span) :
      SameIgnoringCase (.immediate expr span) (.immediate expr' span)

/-- Two statements of one kind that differ in the letter case of names at most. -/
inductive Statement.SameIgnoringCase : Statement → Statement → Prop
  | label {name name' : String} (h : Text.SameIgnoringCase name name') (span : Span) :
      SameIgnoringCase (.label name span) (.label name' span)
  | instruction (template : Template) {operands operands' : List Operand}
      (h : List.Forall₂ Operand.SameIgnoringCase operands operands') :
      SameIgnoringCase (.instruction ⟨template, operands⟩) (.instruction ⟨template, operands'⟩)
  | bytes (written : List UInt8) (span : Span) :
      SameIgnoringCase (.addressText (.bytes written span)) (.addressText (.bytes written span))
  | deferred {address address' : OperandExpr} (h : address.toLower = address'.toLower)
      (chars : Nat) (span : Span) : SameIgnoringCase (.addressText (.deferred address chars span))
        (.addressText (.deferred address' chars span))

/-- Two causes of one kind that differ in the letter case of a name at most. -/
inductive Cause.SameIgnoringCase : Cause → Cause → Prop
  | refl (cause : Cause) : SameIgnoringCase cause cause
  | unknownModifier {name name' : String} (h : Text.SameIgnoringCase name name') :
      SameIgnoringCase (.unknownModifier name) (.unknownModifier name')
  | unsupportedDirective {name name' : String} (h : Text.SameIgnoringCase name name') :
      SameIgnoringCase (.unsupportedDirective name) (.unsupportedDirective name')

/-- Two diagnostics at one place that differ in the letter case of a name at most. -/
def Diagnostic.SameIgnoringCase (diagnostic diagnostic' : Diagnostic) : Prop :=
  diagnostic.cause.SameIgnoringCase diagnostic'.cause ∧ diagnostic.span = diagnostic'.span

theorem Expr.value?_toLower (expr : Expr) : expr.toLower.value? = expr.value? := by
  induction expr with
  | constant | symbol => rfl
  | unary op operand ih => rw [toLower, value?, value?, ih]
  | binary op left right ih ih' => rw [toLower, value?, value?, ih, ih']

theorem OperandExpr.value?_toLower (expr : OperandExpr) : expr.toLower.value? = expr.value? := by
  cases expr <;> simp only [toLower, value?, Expr.value?_toLower]

theorem OperandExpr.fits_toLower (low high : Int) (expr : OperandExpr) :
    expr.toLower.fits low high = expr.fits low high := by
  cases expr with
  | plain expr => simp only [toLower, fits, Expr.value?_toLower]
  | modified kind inner negated =>
    have value := value?_toLower (modified kind inner negated)
    simp only [toLower] at value
    simp only [toLower, fits, value]

theorem OperandExpr.range?_toLower (expr : OperandExpr) : expr.toLower.range? = expr.range? := by
  have symbolic : expr.toLower.isSymbolic = expr.isSymbolic := by
    cases expr <;> simp only [toLower, isSymbolic, Expr.value?_toLower]
  simp only [range?, symbolic, fits_toLower]

namespace Operand

theorem span_toLower (operand : Operand) : operand.toLower.span = operand.span := by
  cases operand <;> rfl

theorem admits_toLower (shape : Shape) (operand : Operand) :
    shape.admits operand.toLower = shape.admits operand := by
  have fits (low high : Int) : operand.toLower.fits low high = operand.fits low high := by
    cases operand with
    | token | register => rfl
    | immediate expr => exact expr.fits_toLower low high
  cases shape with
  | literal text =>
    cases operand with
    | token spelling =>
      simp only [toLower, Shape.admits, isToken, Text.sameIgnoringCase_toLower_iff]
    | register | immediate => rfl
  | register wanted => cases operand <;> rfl
  | value operandClass => cases operandClass <;> simp only [Shape.admits, OperandClass.admits, fits]

end Operand

theorem forall₂_of_map_eq {α β : Type} {f : α → β} {first second : List α}
    (h : first.map f = second.map f) : List.Forall₂ (fun a b => f a = f b) first second := by
  rw [← List.forall₂_map_right_iff, ← List.forall₂_map_left_iff, h, List.forall₂_eq_eq_eq]

theorem Operand.sameIgnoringCase_of_toLower {operand operand' : Operand}
    (h : operand.toLower = operand'.toLower) : operand.SameIgnoringCase operand' := by
  cases operand with
  | token text span =>
    cases operand' with
    | token text' span' =>
      injection h with letters place
      exact place ▸ .token letters span
    | register | immediate => cases h
  | register found span =>
    cases operand' with
    | register found' span' =>
      cases h
      exact .register found span
    | token | immediate => cases h
  | immediate expr span =>
    cases operand' with
    | immediate expr' span' =>
      injection h with letters place
      have value := congrArg OperandExpr.value? letters
      have range := congrArg OperandExpr.range? letters
      rw [OperandExpr.value?_toLower, OperandExpr.value?_toLower] at value
      rw [OperandExpr.range?_toLower, OperandExpr.range?_toLower] at range
      exact place ▸ .immediate letters value range span
    | token | register => cases h

theorem Operand.forall₂_sameIgnoringCase {operands operands' : List Operand}
    (h : operands.map toLower = operands'.map toLower) :
    List.Forall₂ SameIgnoringCase operands operands' :=
  (forall₂_of_map_eq h).imp fun _ _ => sameIgnoringCase_of_toLower

theorem Statement.sameIgnoringCase_of_toLower {statement statement' : Statement}
    (h : statement.toLower = statement'.toLower) : statement.SameIgnoringCase statement' := by
  cases statement with
  | label name span =>
    cases statement' with
    | label name' span' =>
      injection h with letters place
      exact place ▸ .label letters span
    | instruction | addressText => cases h
  | instruction found =>
    cases statement' with
    | instruction found' =>
      obtain ⟨template, operands⟩ := found
      obtain ⟨template', operands'⟩ := found'
      injection h with same
      injection same with chosen letters
      cases chosen
      exact .instruction template (Operand.forall₂_sameIgnoringCase letters)
    | label | addressText => cases h
  | addressText found =>
    cases statement' with
    | addressText found' =>
      injection h with same
      cases found with
      | bytes written span =>
        cases found' with
        | bytes => cases same; exact .bytes written span
        | deferred => cases same
      | deferred address chars span =>
        cases found' with
        | bytes => cases same
        | deferred address' chars' span' =>
          injection same with letters count place
          cases count
          exact place ▸ .deferred letters chars span
    | label | instruction => cases h

theorem Cause.sameIgnoringCase_of_toLower {cause cause' : Cause}
    (h : cause.toLower = cause'.toLower) : cause.SameIgnoringCase cause' := by
  cases cause with
  | unknownModifier name =>
    cases cause' with
    | unknownModifier name' =>
      injection h with letters
      exact .unknownModifier letters
    | _ => cases h
  | unsupportedDirective name =>
    cases cause' with
    | unsupportedDirective name' =>
      injection h with letters
      exact .unsupportedDirective letters
    | _ => cases h
  -- The other causes hold no name, so lower case does nothing to them.
  | _ =>
    cases cause' <;> cases h
    exact .refl _

theorem Diagnostic.sameIgnoringCase_of_toLower {diagnostic diagnostic' : Diagnostic}
    (h : diagnostic.toLower = diagnostic'.toLower) : diagnostic.SameIgnoringCase diagnostic' := by
  injection h with cause span
  exact ⟨Cause.sameIgnoringCase_of_toLower cause, span⟩

namespace Assembly

theorem toLower_append (first second : Assembly) :
    (first ++ second).toLower = first.toLower ++ second.toLower :=
  congrArg₂ mk List.map_append List.map_append

end Assembly

end Asm65
