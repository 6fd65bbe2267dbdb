import Asm65.Table
import Mathlib

/-!
# The index of a table

A look-up goes through an index of positions and finds what a scan of the table finds,
so the look-ups of all mnemonics take the table apart (`Table.ofTemplates_lookup`).

## Implementation notes

The index is defined by recursion on the templates. Entering their positions one by one,
from the first template to the last, makes the same index (`Table.foldl_enter`).
-/

namespace Asm65

/-- Distinct keys take the entries apart that have one of them. -/
theorem flatMap_filter_perm {α β : Type} [DecidableEq β] (key : α → β) (entries : List α)
    {keys : List β} (distinct : keys.Nodup) :
    (keys.flatMap fun k => entries.filter (key · = k)).Perm (entries.filter (key · ∈ keys)) := by
  induction keys with
  | nil => simp
  | cons k keys ih =>
    obtain ⟨new, distinct⟩ := List.nodup_cons.1 distinct
    have parts := List.filter_append_perm (key · = k) (entries.filter (key · ∈ k :: keys))
    have here : (entries.filter (key · ∈ k :: keys)).filter (key · = k) =
        entries.filter (key · = k) := by
      rw [List.filter_filter]
      exact List.filter_congr fun entry _ => by simp +contextual
    have later :
        (entries.filter (key · ∈ k :: keys)).filter (fun entry => !decide (key entry = k)) =
          entries.filter (key · ∈ keys) := by
      rw [List.filter_filter]
      refine List.filter_congr fun entry _ => ?_
      by_cases same : key entry = k
      · simp [same, new]
      · simp [same]
    rw [here, later] at parts
    rw [List.flatMap_cons]
    exact ((ih distinct).append_left _).trans parts

namespace Table

variable {index : Std.HashMap String (List Nat)} {before : List Template}

theorem positionsFrom_append (mnemonic : String) (start : Nat) (before templates : List Template) :
    positionsFrom mnemonic start (before ++ templates) =
      positionsFrom mnemonic start before ++
        positionsFrom mnemonic (start + before.length) templates := by
  induction before generalizing start with
  | nil => rfl
  | cons template before ih =>
    simp only [List.cons_append, positionsFrom, ih, List.length_cons, Nat.add_assoc,
      Nat.add_comm before.length 1]
    split <;> rfl

/-- Enters the position of a template behind the others of its mnemonic. -/
def enter (index : Std.HashMap String (List Nat)) (entry : Template × Nat) :
    Std.HashMap String (List Nat) :=
  index.alter entry.1.mnemonic fun positions => some (positions.getD [] ++ [entry.2])

/-- An index of the templates so far becomes one of these and the next. -/
theorem enter_agrees (agrees : ∀ mnemonic, index[mnemonic]? = positions? mnemonic 0 before)
    (template : Template) (mnemonic : String) :
    (enter index (template, before.length))[mnemonic]? =
      positions? mnemonic 0 (before ++ [template]) := by
  have added := positionsFrom_append mnemonic 0 before [template]
  rw [enter, Std.HashMap.getElem?_alter]
  by_cases same : template.mnemonic = mnemonic
  · subst same
    rw [Nat.zero_add, positionsFrom, if_pos rfl, positionsFrom] at added
    rw [if_pos (by simp), agrees, positions?_getD, positions?, added]
    simp [Option.filter]
  · rw [positionsFrom, if_neg same, positionsFrom, List.append_nil] at added
    simp [same, agrees, positions?, added]

/-- The positions that are entered one by one make an index of all templates. -/
theorem foldl_enter (agrees : ∀ mnemonic, index[mnemonic]? = positions? mnemonic 0 before)
    (templates : List Template) (mnemonic : String) :
    ((templates.zipIdx before.length).foldl enter index)[mnemonic]? =
      positions? mnemonic 0 (before ++ templates) := by
  -- What has been entered is an index of the templates before those that are left.
  induction templates generalizing index before with
  | nil => simpa using agrees mnemonic
  | cons template templates ih =>
    have later := ih (enter_agrees agrees template)
    rw [List.length_append, List.append_assoc] at later
    exact later

/-- The look-ups of the distinct mnemonics of a table find every template once. -/
theorem flatMap_lookup_perm (table : Table) :
    ((table.templates.toList.map Template.mnemonic).dedup.flatMap table.lookup).Perm
      table.templates.toList := by
  let templates := table.templates.toList
  let mnemonics := (templates.map Template.mnemonic).dedup
  have listed : ∀ template ∈ templates, template.mnemonic ∈ mnemonics := fun template among =>
    List.mem_dedup.2 (List.mem_map_of_mem among)
  have found : ∀ mnemonic ∈ mnemonics,
      table.lookup mnemonic = templates.filter (·.mnemonic = mnemonic) := by
    intro mnemonic among
    obtain ⟨template, -, rfl⟩ := List.mem_map.1 (List.mem_dedup.1 among)
    rw [lookup_eq_filter, template.mnemonic_lower]
  have distinct : mnemonics.Nodup := List.nodup_dedup _
  have apart := flatMap_filter_perm Template.mnemonic templates distinct
  rw [List.filter_eq_self.2 fun template among => decide_eq_true (listed template among)] at apart
  rwa [List.flatMap_congr found]

/-- A table of some templates has the index that entering their positions one by one makes. A
look-up in it finds the templates whose mnemonic is the same up to letter case, each once and in
their order, and the table contains a mnemonic if there are any. The look-ups of the distinct
mnemonics together find every template once. -/
theorem ofTemplates_lookup (templates : List Template) :
    let table := ofTemplates templates
    (∀ mnemonic : String, table.index[mnemonic]? = (templates.zipIdx.foldl enter ∅)[mnemonic]?) ∧
      (∀ mnemonic, table.lookup mnemonic =
          templates.filter (Text.SameIgnoringCase ·.mnemonic mnemonic)) ∧
      (∀ mnemonic, table.contains mnemonic ↔ table.lookup mnemonic ≠ []) ∧
      ((templates.map Template.mnemonic).dedup.flatMap table.lookup).Perm templates := by
  intro table
  have same : table.templates.toList = templates := List.toList_toArray
  have empty (mnemonic : String) :
      (∅ : Std.HashMap String (List Nat))[mnemonic]? = positions? mnemonic 0 [] := by
    simp [positions?, positionsFrom, Option.filter]
  have entered (mnemonic : String) :
      table.index[mnemonic]? = (templates.zipIdx.foldl enter ∅)[mnemonic]? := by
    rw [table.index_agrees, same]
    exact (foldl_enter empty templates mnemonic).symm
  have scanned := table.lookup_eq_filter_sameIgnoringCase
  have apart := table.flatMap_lookup_perm
  rw [same] at scanned apart
  exact ⟨entered, scanned, table.contains_iff, apart⟩

end Table

end Asm65
