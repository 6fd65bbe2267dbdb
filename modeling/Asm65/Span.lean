/-!
# Spans

A stretch of source text, measured in bytes of its UTF-8 form. The length of
a list of characters is that of the string they form (`utf8ByteSize_ofList`).
-/

namespace Asm65

/-- A stretch of source text: where it starts, and how many bytes it has. -/
structure Span where
  offset : Nat
  length : Nat
deriving DecidableEq

namespace Span

/-- The offset just after the last byte. -/
def stop (span : Span) : Nat :=
  span.offset + span.length

/-- The empty span at an offset. -/
def empty (offset : Nat) : Span :=
  ⟨offset, 0⟩

/-- The span from the start of one span to the end of a later one. The spans are meant to stand in
order: where the last ends before the first starts, the length is cut off at zero. -/
def through (first last : Span) : Span :=
  ⟨first.offset, last.stop - first.offset⟩

end Span

/-- The number of bytes of a text in UTF-8. -/
def utf8Length (text : List Char) : Nat :=
  text.foldr (fun c length => c.utf8Size + length) 0

@[simp] theorem utf8Length_nil : utf8Length [] = 0 := rfl

@[simp] theorem utf8Length_cons (c : Char) (text : List Char) :
    utf8Length (c :: text) = c.utf8Size + utf8Length text := rfl

@[simp] theorem utf8Length_append (first second : List Char) :
    utf8Length (first ++ second) = utf8Length first + utf8Length second := by
  induction first with
  | nil => simp
  | cons c rest ih => rw [List.cons_append, utf8Length_cons, utf8Length_cons, ih, Nat.add_assoc]

theorem utf8ByteSize_ofList (text : List Char) :
    (String.ofList text).utf8ByteSize = utf8Length text := by
  induction text with
  | nil => simp [String.ofList_nil]
  | cons c rest ih =>
    have cut : String.ofList (c :: rest) = String.ofList [c] ++ String.ofList rest := by
      rw [← String.ofList_append]
      rfl
    have one : (String.ofList [c]).utf8ByteSize = c.utf8Size := by
      rw [← String.singleton_eq_ofList]
      exact String.utf8ByteSize_singleton
    rw [cut, String.utf8ByteSize_append, one, ih, utf8Length_cons]

theorem utf8Length_toList (text : String) : utf8Length text.toList = text.utf8ByteSize := by
  rw [← utf8ByteSize_ofList, String.ofList_toList]

end Asm65
