import COutline.Outline.Basic
import COutline.Proofs.Data.SortedMap

/-!
# Lookups in a program

Programs are maps from names to definitions.  A lookup after an insertion sees the inserted
definition under its name and the earlier map under every other name, and a name is listed
exactly when a lookup finds it.
-/

namespace COutline

namespace SortedMap

variable {α : Type}

/-- Names compare equal only when they are equal, so a lookup after an insertion sees the new
    definition under its own name alone. -/
@[simp] theorem get?_insert (m : SortedMap String α) (k k' : String) (v : α) :
    (m.insert k v).get? k' = if k' = k then some v else m.get? k' := by
  rw [get?_insert_of_trans]
  simp only [Std.compare_eq_iff_eq]

theorem entryOf?_isSome_iff (k : String) (l : List (String × α)) :
    (entryOf? k l).isSome ↔ k ∈ l.map Prod.fst := by
  induction l with
  | nil => simp [entryOf?]
  | cons e rest ih =>
    simp only [entryOf?, Std.compare_eq_iff_eq, List.map_cons, List.mem_cons]
    split
    · next h => simp [h]
    · next h => simp [ih, h]

end SortedMap

namespace Program

/-- A name is listed exactly when a lookup finds a definition under it. -/
theorem mem_names_iff (p : Program) (name : String) : name ∈ p.names ↔ (p.get? name).isSome := by
  simp [names, get?, SortedMap.get?, SortedMap.keys, SortedMap.entryOf?_isSome_iff]

/-- Inserting under the overwrite policy always stores the definition. -/
theorem get?_insert_overwrite (p : Program) (d : FunctionDefinition) (name : String) :
    (p.insert d .overwrite).2.get? name = if name = d.name then some d else p.get? name := by
  unfold insert insertAs
  split <;> simp_all [get?]

/-- An insertion that is not refused stores the definition under its name. -/
theorem get?_insert_of_not_rejected (p : Program) (d : FunctionDefinition) (policy : DuplicatePolicy)
    (name : String) (h : ∀ d', (p.insert d policy).1 ≠ .rejected d') :
    (p.insert d policy).2.get? name = if name = d.name then some d else p.get? name := by
  unfold insert insertAs at *
  split
  · next hget => exact absurd (by rw [hget]) (h d)
  · simp [get?]
  · simp [get?]

end Program

end COutline
