import Asm65.Proofs.Unresolved

/-!
# Constant folding

An expression has no value exactly if a symbol occurs in it, or a division, a
remainder or a shift whose operands have values that it is not defined on. The value
of an expression of signs, complements, sums, differences and products is the value
over the unbounded integers, up to multiples of 2^64 (`Expr.value?_exact`).

## Implementation notes

The unbounded value is a second evaluator (`Expr.integer?`), in which nothing wraps.
The two agree modulo 2^64 operator by operator, and no two words are congruent.
-/

namespace Asm65

theorem eq_of_toInt_modEq {first second : Int64}
    (h : first.toInt ≡ second.toInt [ZMOD 2 ^ 64]) : first = second := by
  apply Int64.toInt_inj.1
  calc
    first.toInt = first.toInt.bmod (2 ^ 64) := first.toInt_bmod.symm
    _ = (first.toInt % (2 ^ 64 : Nat)).bmod (2 ^ 64) := (Int.emod_bmod _ _).symm
    _ = (second.toInt % (2 ^ 64 : Nat)).bmod (2 ^ 64) := congrArg (Int.bmod · (2 ^ 64)) h
    _ = second.toInt.bmod (2 ^ 64) := Int.emod_bmod _ _
    _ = second.toInt := second.toInt_bmod

theorem toInt_modEq_of_eq_bmod {value : Int64} {exact n : Int}
    (wrapped : value.toInt = exact.bmod (2 ^ 64)) (h : exact ≡ n [ZMOD 2 ^ 64]) :
    value.toInt ≡ n [ZMOD 2 ^ 64] := by
  rw [wrapped]
  exact Int.ModEq.trans Int.bmod_emod h

namespace UnaryOp

/-- The value of an operator over the unbounded integers. -/
def integer : UnaryOp → Int → Int
  | neg, n => -n
  | plus, n => n
  | not, n => -n - 1

theorem toInt_apply (op : UnaryOp) {value : Int64} {n : Int}
    (h : value.toInt ≡ n [ZMOD 2 ^ 64]) :
    (op.apply value).toInt ≡ op.integer n [ZMOD 2 ^ 64] := by
  cases op with
  | neg => exact toInt_modEq_of_eq_bmod value.toInt_neg h.neg
  | plus => exact h
  | not => exact toInt_modEq_of_eq_bmod value.toInt_not (h.neg.sub_right 1)

end UnaryOp

namespace BinaryOp

/-- The value of an operator over the unbounded integers, for those that never divide, shift or
look at single bits. -/
def integer? : BinaryOp → Int → Int → Option Int
  | add, m, n => some (m + n)
  | sub, m, n => some (m - n)
  | mul, m, n => some (m * n)
  | or, _, _ | xor, _, _ | and, _, _ | shl, _, _ | shr, _, _ | div, _, _ | mod, _, _ => none

theorem exists_value?_of_integer? {op : BinaryOp} {left right : Int64} {m n exact : Int}
    (h : left.toInt ≡ m [ZMOD 2 ^ 64]) (h' : right.toInt ≡ n [ZMOD 2 ^ 64])
    (known : op.integer? m n = some exact) :
    ∃ value, op.value? left right = some value ∧ value.toInt ≡ exact [ZMOD 2 ^ 64] := by
  cases op with
  | add =>
    cases known
    exact ⟨_, rfl, toInt_modEq_of_eq_bmod (left.toInt_add right) (h.add h')⟩
  | sub =>
    cases known
    exact ⟨_, rfl, toInt_modEq_of_eq_bmod (left.toInt_sub right) (h.sub h')⟩
  | mul =>
    cases known
    exact ⟨_, rfl, toInt_modEq_of_eq_bmod (left.toInt_mul right) (h.mul h')⟩
  | or | xor | and | shl | shr | div | mod => cases known

theorem isShiftAmount_iff {amount : Int64} :
    IsShiftAmount amount ↔ 0 ≤ amount.toInt ∧ amount.toInt ≤ 63 := by
  have bound : (64 : Int64).toInt = 63 + 1 := by decide
  rw [IsShiftAmount, Int64.le_iff_toInt_le, Int64.lt_iff_toInt_lt, bound, Int.lt_add_one_iff]
  exact Iff.rfl

theorem not_hasQuotient_iff {left right : Int64} :
    ¬HasQuotient left right ↔ right = 0 ∨ left = Int64.minValue ∧ right = -1 := by
  simp only [HasQuotient, ne_eq]
  tauto

end BinaryOp

namespace Expr

/-- The expressions that an expression is built of, with the expression itself in front. -/
def nodes : Expr → List Expr
  | constant value => [constant value]
  | symbol name => [symbol name]
  | unary op operand => unary op operand :: operand.nodes
  | binary op left right => binary op left right :: (left.nodes ++ right.nodes)

/-- The value of an expression over the unbounded integers, where nothing wraps. -/
def integer? : Expr → Option Int
  | constant value => some value.toInt
  | symbol _ => none
  | unary op operand => operand.integer?.map op.integer
  | binary op left right =>
    match left.integer?, right.integer? with
    | some left, some right => op.integer? left right
    | _, _ => none

/-- Whether a node is a constant, a sign, a complement, a sum, a difference or a product. -/
def IsIntegral : Expr → Prop
  | constant _ | unary _ _ => True
  | binary op _ _ => op ∈ [.add, .sub, .mul]
  | symbol _ => False

variable {expr : Expr}

theorem hasSymbol_iff : expr.HasSymbol ↔ ∃ name, symbol name ∈ expr.nodes := by
  induction expr with
  | constant value => simp [HasSymbol, nodes]
  | symbol name => simp [HasSymbol, nodes]
  | unary op operand ih => simp [HasSymbol, nodes, ih]
  | binary op left right ihLeft ihRight =>
    simp only [HasSymbol, nodes, ihLeft, ihRight, List.mem_cons, List.mem_append, reduceCtorEq,
      false_or, exists_or]

theorem hasFailure_iff : expr.HasFailure ↔ ∃ op left right first second,
    binary op left right ∈ expr.nodes ∧ left.value? = some first ∧ right.value? = some second ∧
      op.Fails first second := by
  induction expr with
  | constant value => simp [HasFailure, nodes]
  | symbol name => simp [HasFailure, nodes]
  | unary op operand ih => simp [HasFailure, nodes, ih]
  | binary op left right ihLeft ihRight =>
    rw [HasFailure, ihLeft, ihRight]
    constructor
    · rintro (⟨op', left', right', first, second, among, fails⟩ |
        ⟨op', left', right', first, second, among, fails⟩ | ⟨first, second, fails⟩)
      · exact ⟨op', left', right', first, second,
          List.mem_cons_of_mem _ (List.mem_append_left _ among), fails⟩
      · exact ⟨op', left', right', first, second,
          List.mem_cons_of_mem _ (List.mem_append_right _ among), fails⟩
      · exact ⟨op, left, right, first, second, List.mem_cons_self, fails⟩
    · rintro ⟨op', left', right', first, second, among, fails⟩
      rcases List.mem_cons.1 among with same | inside
      · cases same
        exact .inr (.inr ⟨first, second, fails⟩)
      · rcases List.mem_append.1 inside with inside | inside
        · exact .inl ⟨op', left', right', first, second, inside, fails⟩
        · exact .inr (.inl ⟨op', left', right', first, second, inside, fails⟩)

/-- What has no value leaves everything around it without one. -/
theorem value?_eq_none_of_mem_nodes {node : Expr} (among : node ∈ expr.nodes)
    (unknown : node.value? = none) : expr.value? = none := by
  induction expr with
  | constant value =>
    cases List.mem_singleton.1 among
    exact unknown
  | symbol name => rfl
  | unary op operand ih =>
    rcases List.mem_cons.1 among with rfl | inside
    · exact unknown
    · rw [value?, ih inside, Option.map_none]
  | binary op left right ihLeft ihRight =>
    rcases List.mem_cons.1 among with rfl | inside
    · exact unknown
    · apply value?_binary_eq_none_iff.2
      rcases List.mem_append.1 inside with inside | inside
      · exact .inl (ihLeft inside)
      · exact .inr (.inl (ihRight inside))

/-- A shift by an amount out of range has no value, whatever is shifted. -/
theorem value?_shift_eq_none {op : BinaryOp} (shift : op ∈ [.shl, .shr]) {left right : Expr}
    {amount : Int64} (known : right.value? = some amount)
    (outside : ¬BinaryOp.IsShiftAmount amount) : (binary op left right).value? = none := by
  apply value?_binary_eq_none_iff.2
  cases shifted : left.value? with
  | none => exact .inl rfl
  | some value =>
    refine .inr (.inr ⟨value, amount, rfl, known, ?_⟩)
    simp only [List.mem_cons, List.not_mem_nil, or_false] at shift
    rcases shift with rfl | rfl
    · exact outside
    · exact outside

theorem exists_integer? (h : ∀ node ∈ expr.nodes, node.IsIntegral) :
    ∃ n, expr.integer? = some n := by
  induction expr with
  | constant value => exact ⟨_, rfl⟩
  | symbol name => exact (h _ (List.mem_singleton_self _)).elim
  | unary op operand ih =>
    obtain ⟨-, inside⟩ := List.forall_mem_cons.1 h
    obtain ⟨n, known⟩ := ih inside
    exact ⟨op.integer n, by rw [integer?, known, Option.map_some]⟩
  | binary op left right ihLeft ihRight =>
    obtain ⟨here, inside⟩ := List.forall_mem_cons.1 h
    obtain ⟨insideLeft, insideRight⟩ := List.forall_mem_append.1 inside
    obtain ⟨m, first⟩ := ihLeft insideLeft
    obtain ⟨n, second⟩ := ihRight insideRight
    simp only [IsIntegral, List.mem_cons, List.not_mem_nil, or_false] at here
    simp only [integer?, first, second]
    rcases here with rfl | rfl | rfl <;> exact ⟨_, rfl⟩

/-- Wrapping at every node comes to the same as wrapping once at the end. -/
theorem exists_value?_of_integer? {n : Int} (h : expr.integer? = some n) :
    ∃ value, expr.value? = some value ∧ value.toInt ≡ n [ZMOD 2 ^ 64] := by
  induction expr generalizing n with
  | constant value =>
    cases h
    exact ⟨value, rfl, rfl⟩
  | symbol name => cases h
  | unary op operand ih =>
    obtain ⟨m, known, rfl⟩ := Option.map_eq_some_iff.1 h
    obtain ⟨value, found, same⟩ := ih known
    exact ⟨op.apply value, by rw [value?, found, Option.map_some], op.toInt_apply same⟩
  | binary op left right ihLeft ihRight =>
    simp only [integer?] at h
    split at h
    · next m m' known known' =>
      obtain ⟨first, found, same⟩ := ihLeft known
      obtain ⟨second, found', same'⟩ := ihRight known'
      simp only [value?, found, found']
      exact BinaryOp.exists_value?_of_integer? same same' h
    · cases h

/-- When an expression has a value, and which one. It has none if a symbol occurs in it, or a
quotient or remainder by zero, or of the least word by minus one, or a shift by an amount that is
not from 0 to 63. Without other operators than signs, complements, sums, differences and products it
has a value, the one word that is congruent modulo 2^64 to the value over the integers. -/
theorem value?_exact (expr : Expr) :
    (expr.value? = none ↔
      (∃ name, symbol name ∈ expr.nodes) ∨
      (∃ op left right first second, op ∈ [BinaryOp.div, .mod] ∧
        binary op left right ∈ expr.nodes ∧ left.value? = some first ∧
        right.value? = some second ∧
        (second = 0 ∨ first = Int64.minValue ∧ second = -1)) ∨
      ∃ op left right amount, op ∈ [BinaryOp.shl, .shr] ∧ binary op left right ∈ expr.nodes ∧
        right.value? = some amount ∧ ¬(0 ≤ amount.toInt ∧ amount.toInt ≤ 63)) ∧
    ((∀ node ∈ expr.nodes, node.IsIntegral) →
      ∃ n value, expr.integer? = some n ∧ expr.value? = some value ∧
        ∀ other : Int64, other.toInt ≡ n [ZMOD 2 ^ 64] ↔ other = value) := by
  refine ⟨⟨fun unknown => ?_, ?_⟩, fun integral => ?_⟩
  · rcases value?_eq_none_iff.1 unknown with symbols | failure
    · exact .inl (hasSymbol_iff.1 symbols)
    · obtain ⟨op, left, right, first, second, among, known, known', fails⟩ :=
        hasFailure_iff.1 failure
      right
      cases op with
      | div | mod =>
        exact .inl ⟨_, left, right, first, second, by decide, among, known, known',
          BinaryOp.not_hasQuotient_iff.1 fails⟩
      | shl | shr =>
        exact .inr ⟨_, left, right, second, by decide, among, known',
          mt BinaryOp.isShiftAmount_iff.2 fails⟩
      | or | xor | and | add | sub | mul => exact fails.elim
  · rintro (symbols | ⟨op, left, right, first, second, quotient, among, known, known', fails⟩ |
      ⟨op, left, right, amount, shift, among, known, outside⟩)
    · exact value?_eq_none_iff.2 (.inl (hasSymbol_iff.2 symbols))
    · apply value?_eq_none_of_mem_nodes among
      refine value?_binary_eq_none_iff.2 (.inr (.inr ⟨first, second, known, known', ?_⟩))
      simp only [List.mem_cons, List.not_mem_nil, or_false] at quotient
      rcases quotient with rfl | rfl <;> exact BinaryOp.not_hasQuotient_iff.2 fails
    · apply value?_eq_none_of_mem_nodes among
      exact value?_shift_eq_none shift known (mt BinaryOp.isShiftAmount_iff.1 outside)
  · obtain ⟨n, exact⟩ := exists_integer? integral
    obtain ⟨value, known, same⟩ := exists_value?_of_integer? exact
    refine ⟨n, value, exact, known, fun other => ⟨fun h => ?_, fun h => h ▸ same⟩⟩
    exact eq_of_toInt_modEq (h.trans same.symm)

/-- In `-(-2^63) * ~2 - 1` the sign of the least word wraps, and so do the product and the
difference. -/
theorem value?_exact_wrapped :
    let expr : Expr := .binary .sub (.binary .mul (.unary .neg (.constant Int64.minValue))
      (.unary .not (.constant 2))) (.constant 1)
    (∀ node ∈ expr.nodes, node.IsIntegral) ∧ expr.integer? = some (-3 * 2 ^ 63 - 1) ∧
      expr.value? = some Int64.maxValue ∧
      ∀ other : Int64, other.toInt ≡ -3 * 2 ^ 63 - 1 [ZMOD 2 ^ 64] ↔ other = Int64.maxValue := by
  intro expr
  have integral : ∀ node ∈ expr.nodes, node.IsIntegral := by
    simp [expr, nodes, IsIntegral]
  have exact : expr.integer? = some (-3 * 2 ^ 63 - 1) := by decide
  have known : expr.value? = some Int64.maxValue := by decide
  obtain ⟨n, value, exact', known', unique⟩ := (value?_exact expr).2 integral
  cases exact.symm.trans exact'
  cases known.symm.trans known'
  exact ⟨integral, exact, known, unique⟩

end Expr

end Asm65
