import Asm65.Proofs.Blocks
import Asm65.Proofs.Features.Reading

/-!
# Lines under other features

Whether the long chips are enabled decides about brackets, and no other feature has an
influence on how a line is read (`Operand.readLine_features`). Features do decide which
names are registers, but not about those that are operands.
-/

namespace Asm65.Operand

variable {features features' : FeatureSet} {policy : DelimiterPolicy} {first : Bool}
  {line line' : List Token} {token : Token} {cursor after : Cursor} {item : Item}

/-- Whether two feature sets agree about what a line has to do with features: the long chips, if
there is a bracket. -/
def AlikeOn (features features' : FeatureSet) (line : List Token) : Prop :=
  (.mosw65816 ∈ features ↔ .mosw65816 ∈ features') ∨
    ∀ token ∈ line, token.kind ≠ .punct .openBracket

theorem AlikeOn.subset (h : AlikeOn features features' line) (inside : line' ⊆ line) :
    AlikeOn features features' line' :=
  h.imp_right fun plain token among => plain token (inside among)

theorem AlikeOn.delimiter?_eq (h : AlikeOn features features' line) (among : token ∈ line) :
    delimiter? features token.kind = delimiter? features' token.kind := by
  refine delimiter?_features fun bracket => ?_
  rcases h with same | plain
  · exact same
  · exact absurd bracket (plain token among)

/-- At a token of the line, both feature sets lead to the same. -/
theorem AlikeOn.readItem_eq (alike : AlikeOn features features' cursor.line)
    (here : cursor.peek? = some token) (inside : token.kind ≠ .endOfStatement) :
    readItem ⟨features', policy⟩ first token cursor =
      readItem ⟨features, policy⟩ first token cursor :=
  (readItem_features (alike.delimiter?_eq (Cursor.mem_line_of_peek here inside))).symm

/-- Behind an item, less of the line is left. -/
theorem AlikeOn.behind {config : Config} (alike : AlikeOn features features' cursor.line)
    (here : cursor.peek? = some token) (inside : token.kind ≠ .endOfStatement)
    (read : readItem config first token cursor = .ok item after) :
    AlikeOn features features' after.line := by
  have stays := inStatement_readItem config first here inside
  rw [read] at stays
  exact alike.subset stays.line_suffix.subset

/-- The two runs go together item by item. -/
theorem AlikeOn.readItems_eq (alike : AlikeOn features features' cursor.line) :
    readItems ⟨features', policy⟩ first cursor = readItems ⟨features, policy⟩ first cursor := by
  fun_induction readItems ⟨features, policy⟩ first cursor with
  | case1 first cursor missing =>
    exact readItems_of_end _ first (by simp [Cursor.AtEndOfStatement, missing])
  | case2 first cursor current here closed =>
    exact readItems_of_end _ first (by simp [Cursor.AtEndOfStatement, here, closed])
  | case3 first cursor current here inside item after found operands stop rest ih =>
    have same := (alike.readItem_eq here inside).trans found
    rw [readItems_of_ok here inside same, ih (alike.behind here inside found), rest]
  | case4 first cursor current here inside item after found diagnostic stop rest ih =>
    have same := (alike.readItem_eq here inside).trans found
    rw [readItems_of_ok here inside same, ih (alike.behind here inside found), rest]
  | case5 first cursor current here inside diagnostic after found =>
    exact readItems_of_error here inside ((alike.readItem_eq here inside).trans found)

theorem AlikeOn.readLine_eq (alike : AlikeOn features features' cursor.line) (mnemonic : Token) :
    readLine ⟨features, policy⟩ mnemonic cursor = readLine ⟨features', policy⟩ mnemonic cursor := by
  unfold readLine
  rw [alike.readItems_eq]

/-- Feature sets that agree about the long chips, or about a line without a bracket, read a line
to the same operands or the same diagnostic, up to the same place. In particular it makes no
difference whether only the full names of registers are accepted. -/
theorem readLine_features (features features' : FeatureSet) (policy : DelimiterPolicy)
    (name : String) (place : Span) (tokens : List Token) (start : Nat)
    (alike : (.mosw65816 ∈ features ↔ .mosw65816 ∈ features') ∨
      ∀ token ∈ (Cursor.atIndex tokens start).line, token.kind ≠ .punct .openBracket) :
    readLine ⟨features, policy⟩ ⟨.name name, place⟩ (.atIndex tokens start) =
        readLine ⟨features', policy⟩ ⟨.name name, place⟩ (.atIndex tokens start) ∧
      readLine ⟨features ∪ {.canonicalRegisterNamesOnly}, policy⟩ ⟨.name name, place⟩
          (.atIndex tokens start) =
        readLine ⟨features \ {.canonicalRegisterNamesOnly}, policy⟩ ⟨.name name, place⟩
          (.atIndex tokens start) := by
  have same : AlikeOn (features ∪ {.canonicalRegisterNamesOnly})
      (features \ {.canonicalRegisterNamesOnly}) (Cursor.atIndex tokens start).line := by
    refine .inl ?_
    simp [FeatureSet.mem_union, FeatureSet.mem_sdiff, FeatureSet.mem_singleton]
  exact ⟨AlikeOn.readLine_eq alike _, same.readLine_eq _⟩

/-- In `lda [rc4]` the name is a register or not, and an expression all the same. -/
theorem readLine_features_alias :
    let long : FeatureSet := .ofList [.mosw65816]
    let full : FeatureSet := .ofList [.mosw65816, .canonicalRegisterNamesOnly]
    let mnemonic : Token := ⟨.name "lda", ⟨0, 3⟩⟩
    let tokens : List Token := [mnemonic, ⟨.punct .openBracket, ⟨4, 1⟩⟩, ⟨.name "rc4", ⟨5, 3⟩⟩,
      ⟨.punct .closeBracket, ⟨8, 1⟩⟩, ⟨.endOfStatement, ⟨9, 0⟩⟩]
    Register.ofName? long "rc4" ≠ Register.ofName? full "rc4" ∧
      (.mosw65816 ∈ long ↔ .mosw65816 ∈ full) ∧
      readLine ⟨long, .fatal⟩ mnemonic (.atIndex tokens 1) =
        readLine ⟨full, .fatal⟩ mnemonic (.atIndex tokens 1) := by
  intro long full mnemonic tokens
  have alike : .mosw65816 ∈ long ↔ .mosw65816 ∈ full := by decide
  have same := readLine_features long full .fatal "lda" ⟨0, 3⟩ tokens 1 (.inl alike)
  exact ⟨by decide +kernel, alike, same.1⟩

end Asm65.Operand
