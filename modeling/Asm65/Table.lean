import Asm65.Template
import Std.Data.HashMap

/-!
# Template tables

A table is a list of templates with an index by mnemonic. The index holds, for
each mnemonic of the table, the positions of its templates in table order, so a
look-up is a scan of the table (`lookup_eq_filter`).
-/

namespace Asm65

namespace Table

/-- The positions of the templates with a mnemonic, counted from a start. -/
def positionsFrom (mnemonic : String) (start : Nat) : List Template → List Nat
  | [] => []
  | template :: rest =>
    if template.mnemonic = mnemonic then start :: positionsFrom mnemonic (start + 1) rest
    else positionsFrom mnemonic (start + 1) rest

/-- The positions under a mnemonic, or nothing if there are none. -/
def positions? (mnemonic : String) (start : Nat) (templates : List Template) : Option (List Nat) :=
  (some (positionsFrom mnemonic start templates)).filter (· ≠ [])

theorem positions?_getD (mnemonic : String) (start : Nat) (templates : List Template) :
    (positions? mnemonic start templates).getD [] = positionsFrom mnemonic start templates := by
  unfold positions?
  cases positionsFrom mnemonic start templates with
  | nil => rfl
  | cons position rest => rfl

theorem filterMap_positionsFrom (mnemonic : String) (before templates : List Template) :
    (positionsFrom mnemonic before.length templates).filterMap
        (fun position => (before ++ templates)[position]?) =
      templates.filter (·.mnemonic = mnemonic) := by
  induction templates generalizing before with
  | nil => rfl
  | cons template rest ih =>
    have later := ih (before ++ [template])
    simp only [List.length_append, List.length_singleton, List.append_assoc,
      List.singleton_append] at later
    rw [positionsFrom]
    by_cases same : template.mnemonic = mnemonic
    · simp [same, later]
    · simp [same, later]

/-- The index of templates whose positions are counted from a start. -/
def indexFrom (start : Nat) : List Template → Std.HashMap String (List Nat)
  | [] => ∅
  | template :: rest =>
    let index := indexFrom (start + 1) rest
    index.insert template.mnemonic (start :: index.getD template.mnemonic [])

theorem indexFrom_getElem? (start : Nat) (templates : List Template) (mnemonic : String) :
    (indexFrom start templates)[mnemonic]? = positions? mnemonic start templates := by
  induction templates generalizing start with
  | nil => simp [indexFrom, positions?, positionsFrom, Option.filter]
  | cons template rest ih =>
    simp only [indexFrom, Std.HashMap.getElem?_insert, beq_iff_eq]
    by_cases same : template.mnemonic = mnemonic
    · have found := ih (start + 1)
      rw [same, Std.HashMap.getD_eq_getD_getElem?, found]
      cases h : positionsFrom mnemonic (start + 1) rest <;>
        simp [positions?, positionsFrom, same, h, Option.filter]
    · simp [same, positions?, positionsFrom, ih]

end Table

/-- A table of templates. -/
structure Table where
  templates : Array Template
  index : Std.HashMap String (List Nat)
  index_agrees : ∀ mnemonic, index[mnemonic]? = Table.positions? mnemonic 0 templates.toList

namespace Table

/-- The table of some templates. -/
def ofTemplates (templates : List Template) : Table where
  templates := templates.toArray
  index := indexFrom 0 templates
  index_agrees := indexFrom_getElem? 0 templates

/-- The templates of a mnemonic in any letter case, in table order. -/
def lookup (table : Table) (mnemonic : String) : List Template :=
  (table.index.getD mnemonic.toLower []).filterMap fun position => table.templates[position]?

theorem lookup_eq_filter (table : Table) (mnemonic : String) :
    table.lookup mnemonic = table.templates.toList.filter (·.mnemonic = mnemonic.toLower) := by
  have agrees := filterMap_positionsFrom mnemonic.toLower [] table.templates.toList
  rw [lookup, Std.HashMap.getD_eq_getD_getElem?, table.index_agrees, positions?_getD]
  simpa using agrees

/-- A look-up finds the templates whose mnemonic is spelled alike, which are in lower case. -/
theorem lookup_eq_filter_sameIgnoringCase (table : Table) (mnemonic : String) :
    table.lookup mnemonic =
      table.templates.toList.filter (Text.SameIgnoringCase ·.mnemonic mnemonic) := by
  rw [lookup_eq_filter]
  refine List.filter_congr fun template _ => decide_eq_decide.2 ?_
  rw [Text.SameIgnoringCase, template.mnemonic_lower]

/-- Whether a table has a template of a mnemonic in any letter case. -/
def contains (table : Table) (mnemonic : String) : Bool :=
  table.index.contains mnemonic.toLower

theorem positionsFrom_eq_nil_iff (mnemonic : String) (start : Nat) (templates : List Template) :
    positionsFrom mnemonic start templates = [] ↔
      templates.filter (·.mnemonic = mnemonic) = [] := by
  induction templates generalizing start with
  | nil => simp [positionsFrom]
  | cons template rest ih =>
    rw [positionsFrom]
    by_cases same : template.mnemonic = mnemonic
    · simp [same]
    · simp [same, ih]

/-- A table has the mnemonics that it has templates of. -/
theorem contains_iff (table : Table) (mnemonic : String) :
    table.contains mnemonic ↔ table.lookup mnemonic ≠ [] := by
  rw [lookup_eq_filter, Ne, ← positionsFrom_eq_nil_iff _ 0, contains,
    Std.HashMap.contains_eq_isSome_getElem?, table.index_agrees, positions?]
  simp [Option.filter, Option.isSome_iff_ne_none]

/-- The number of templates in a table. -/
def size (table : Table) : Nat :=
  table.templates.size

/-- Whether a table has no template. -/
def isEmpty (table : Table) : Bool :=
  table.templates.isEmpty

end Table

end Asm65
