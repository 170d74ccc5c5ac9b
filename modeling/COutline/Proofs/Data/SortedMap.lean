import COutline.Data.SortedMap

/-!
# Sorted maps over a lawful key order

When the keys' `compare` is a lawful order (`Std.TransOrd`), two keys that compare equal name
the same entry.  A lookup after an insertion then sees the inserted value under every key equal
to the inserted one and the earlier map under every other key (`get?_insert_of_trans`), and
insertion keeps the entries in strictly increasing key order (`Sorted.insertEntry`).  In a
sorted map the inserted value takes the place of the one it replaces, so a sum over the values
moves by the difference of the two (`sumOf_insertEntry`).  Keys that compare equal find the
same value (`get?_congr`).
-/

namespace COutline

namespace SortedMap

variable {κ α : Type} [Ord κ]

/-- The keys strictly increase along the entries. -/
def Sorted (l : List (κ × α)) : Prop := l.Pairwise fun a b => compare a.1 b.1 = .lt

/-- The sum of `w` over the values of the entries. -/
def sumOf (w : α → Nat) (l : List (κ × α)) : Nat := l.foldr (fun e n => w e.2 + n) 0

theorem sorted_empty : Sorted (empty : SortedMap κ α).entries := List.Pairwise.nil

theorem mem_insertEntry {k : κ} {v : α} {e : κ × α} {l : List (κ × α)}
    (h : e ∈ insertEntry k v l) : e = (k, v) ∨ e ∈ l := by
  induction l with
  | nil => simpa [insertEntry] using h
  | cons x l ih =>
    rw [insertEntry] at h
    split at h
    · simpa using h
    · simp only [List.mem_cons] at h
      exact h.imp_right (List.mem_cons_of_mem _)
    · simp only [List.mem_cons] at h
      rcases h with rfl | h
      · exact .inr List.mem_cons_self
      · exact (ih h).imp_right (List.mem_cons_of_mem _)

/-- A key below every key of the entries has no entry. -/
theorem entryOf?_eq_none_of_lt {k : κ} {l : List (κ × α)}
    (h : ∀ e ∈ l, compare k e.1 = .lt) :
    entryOf? k l = none := by
  induction l with
  | nil => rfl
  | cons x l ih =>
    have hne : compare k x.1 ≠ .eq := by rw [h x List.mem_cons_self]; decide
    rw [entryOf?, if_neg hne]
    exact ih fun e he => h e (List.mem_cons_of_mem _ he)

variable [Std.TransOrd κ]

/-- Insertion keeps the keys strictly increasing. -/
theorem Sorted.insertEntry {l : List (κ × α)} (hl : Sorted l) (k : κ) (v : α) :
    Sorted (SortedMap.insertEntry k v l) := by
  induction l with
  | nil => exact List.pairwise_singleton _ _
  | cons x l ih =>
    have hx := List.pairwise_cons.1 hl
    rw [SortedMap.insertEntry]
    split
    · next hlt =>
      refine List.pairwise_cons.2 ⟨fun e he => ?_, hl⟩
      rcases List.mem_cons.1 he with rfl | he
      · exact hlt
      · exact Std.TransCmp.lt_trans hlt (hx.1 e he)
    · next heq =>
      exact List.pairwise_cons.2 ⟨fun e he => Std.TransCmp.lt_of_eq_of_lt heq (hx.1 e he), hx.2⟩
    · next hgt =>
      refine List.pairwise_cons.2 ⟨fun e he => ?_, ih hx.2⟩
      rcases mem_insertEntry he with rfl | he
      · exact Std.OrientedCmp.lt_of_gt hgt
      · exact hx.1 e he

/-- A lookup after an insertion sees the new value under every key equal to the inserted one. -/
theorem entryOf?_insertEntry_of_trans (k k' : κ) (v : α) (l : List (κ × α)) :
    entryOf? k' (insertEntry k v l) =
      if compare k' k = .eq then some (k, v) else entryOf? k' l := by
  induction l with
  | nil => simp [insertEntry, entryOf?]
  | cons x l ih =>
    rw [insertEntry]
    split
    · rfl
    · next heq =>
      -- the replaced key is equal to the inserted one, so a key equals one exactly when the other
      by_cases hk : compare k' k = .eq
      · simp [entryOf?, hk]
      · have hx : compare k' x.1 ≠ .eq := fun h =>
          hk (Std.TransCmp.eq_trans h (Std.OrientedCmp.eq_symm heq))
        simp [entryOf?, hk, hx]
    · next hgt =>
      by_cases hk : compare k' k = .eq
      · have hx : compare k' x.1 ≠ .eq := fun h =>
          absurd (Std.TransCmp.eq_trans (Std.OrientedCmp.eq_symm hk) h) (by rw [hgt]; decide)
        simp only [entryOf?, if_neg hx, ih, if_pos hk]
      · simp only [entryOf?, ih, if_neg hk]

/-- Keys that compare equal find the same entry. -/
theorem entryOf?_congr {k k' : κ} (h : compare k k' = .eq) (l : List (κ × α)) :
    entryOf? k l = entryOf? k' l := by
  induction l with
  | nil => rfl
  | cons x l ih =>
    have hiff : compare k x.1 = .eq ↔ compare k' x.1 = .eq :=
      ⟨Std.TransCmp.eq_trans (Std.OrientedCmp.eq_symm h), Std.TransCmp.eq_trans h⟩
    by_cases hx : compare k x.1 = .eq
    · rw [entryOf?, if_pos hx, entryOf?, if_pos (hiff.1 hx)]
    · rw [entryOf?, if_neg hx, entryOf?, if_neg (mt hiff.2 hx), ih]

theorem get?_congr (m : SortedMap κ α) {k k' : κ} (h : compare k k' = .eq) :
    m.get? k = m.get? k' := by
  rw [get?, get?, entryOf?_congr h]

@[simp] theorem get?_insert_of_trans (m : SortedMap κ α) (k k' : κ) (v : α) :
    (m.insert k v).get? k' = if compare k' k = .eq then some v else m.get? k' := by
  simp only [get?, insert, entryOf?_insertEntry_of_trans]
  split <;> rfl

/-- In a sorted map the inserted value takes the place of the one it replaces, if any. -/
theorem sumOf_insertEntry (w : α → Nat) {l : List (κ × α)} (hl : Sorted l) (k : κ) (v : α) :
    sumOf w (insertEntry k v l) + ((entryOf? k l).map fun e => w e.2).getD 0 =
      sumOf w l + w v := by
  induction l with
  | nil => simp [insertEntry, entryOf?, sumOf]
  | cons x l ih =>
    have hx := List.pairwise_cons.1 hl
    rw [insertEntry]
    split
    · next hlt =>
      -- every later key is above the head, so above the inserted key too
      have hnone : entryOf? k l = none :=
        entryOf?_eq_none_of_lt fun e he => Std.TransCmp.lt_trans hlt (hx.1 e he)
      have hne : compare k x.1 ≠ .eq := by rw [hlt]; decide
      simp only [sumOf, List.foldr_cons, entryOf?, if_neg hne, hnone, Option.map_none,
        Option.getD_none] at ih ⊢
      omega
    · next heq =>
      simp only [sumOf, List.foldr_cons, entryOf?, if_pos heq, Option.map_some, Option.getD_some]
      omega
    · next hgt =>
      have hne : compare k x.1 ≠ .eq := by rw [hgt]; decide
      have := ih hx.2
      simp only [sumOf, List.foldr_cons, entryOf?, if_neg hne] at this ⊢
      omega

end SortedMap

end COutline
