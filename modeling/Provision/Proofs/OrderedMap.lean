import Mathlib.Data.List.Induction
import Provision.OrderedMap

/-!
# Maps in key order

Inserting and erasing change the value of their key and of no other (`get?_insert_of_ne`,
`get?_erase_of_ne`) and keep the order.  In a map in ascending order an entry is what is found
under its key (`mem_iff_get?`), and the map is the map of its entries (`ofList_of_ascending`).
-/
namespace Provision.OrderedMap

variable {κ α : Type} [Ord κ] {map : OrderedMap κ α} {key other : κ} {value : α} {entry : κ × α}

/-- The keys of the entries go strictly up. -/
def Ascending (map : OrderedMap κ α) : Prop :=
  map.Pairwise fun a b => compare a.1 b.1 = .lt

theorem mem_insert (h : entry ∈ insert key value map) : entry = (key, value) ∨ entry ∈ map := by
  induction map with
  | nil => exact Or.inl (List.mem_singleton.mp h)
  | cons e rest ih =>
    rw [insert] at h
    split at h
    · exact List.mem_cons.mp h
    · exact (List.mem_cons.mp h).imp_right (List.mem_cons_of_mem _)
    · rcases List.mem_cons.mp h with rfl | h
      · exact Or.inr List.mem_cons_self
      · exact (ih h).imp_right (List.mem_cons_of_mem _)

theorem mem_of_mem_erase (h : entry ∈ erase key map) : entry ∈ map :=
  (List.mem_filter.mp h).1

theorem mem_of_mem_ofList {entries : List (κ × α)} (h : entry ∈ ofList entries) :
    entry ∈ entries := by
  induction entries using List.reverseRecOn with
  | nil => exact h
  | append_singleton entries e ih =>
    rw [ofList, List.foldl_append] at h
    rcases mem_insert h with rfl | h
    · exact List.mem_append_right _ List.mem_cons_self
    · exact List.mem_append_left _ (ih h)

theorem Ascending.erase (h : Ascending map) (key : κ) : Ascending (erase key map) :=
  List.Pairwise.filter _ h

/-! ## Looking up -/

section LawfulEqOrd

variable [Std.LawfulEqOrd κ]

theorem get?_insert_self (key : κ) (value : α) (map : OrderedMap κ α) :
    get? (insert key value map) key = some value := by
  induction map with
  | nil => simp [insert, get?]
  | cons e rest ih =>
    rw [insert]
    split
    · simp [get?]
    · simp [get?]
    · rename_i hgt
      simpa [get?, hgt] using ih

theorem get?_insert_of_ne (hne : other ≠ key) (value : α) (map : OrderedMap κ α) :
    get? (insert key value map) other = get? map other := by
  have hother : compare other key ≠ .eq := fun h => hne (Std.LawfulEqCmp.eq_of_compare h)
  induction map with
  | nil => simp [insert, get?, hother]
  | cons e rest ih =>
    rw [insert]
    split
    · simp [get?, hother]
    · rename_i heq
      have he : compare other e.1 ≠ .eq := Std.LawfulEqCmp.eq_of_compare heq ▸ hother
      simp [get?, hother, he]
    · simp only [get?, List.find?_cons] at ih ⊢
      split
      · rfl
      · exact ih

theorem get?_erase_self (key : κ) (map : OrderedMap κ α) : get? (erase key map) key = none := by
  simp [get?, erase]

theorem get?_erase_of_ne (hne : other ≠ key) (map : OrderedMap κ α) :
    get? (erase key map) other = get? map other := by
  have hkey {k : κ} (h : compare other k = .eq) : compare key k ≠ .eq := fun hk =>
    hne ((Std.LawfulEqCmp.eq_of_compare h).trans (Std.LawfulEqCmp.eq_of_compare hk).symm)
  induction map with
  | nil => rfl
  | cons e rest ih =>
    rw [get?, get?, erase, List.filter_cons] at *
    by_cases hother : compare other e.1 = .eq
    · simp [hother, hkey hother]
    · rw [List.find?_cons_of_neg (by simpa using hother), ← ih]
      split
      · rw [List.find?_cons_of_neg (by simpa using hother)]
      · rfl

/-- What is found under a key is an entry. -/
theorem mem_of_get? (h : get? map key = some value) : (key, value) ∈ map := by
  obtain ⟨e, hfind, rfl⟩ := Option.map_eq_some_iff.mp h
  have hkey : compare key e.1 = .eq := by simpa using List.find?_some hfind
  rw [Std.LawfulEqCmp.eq_of_compare hkey]
  exact List.mem_of_find?_eq_some hfind

/-- In a map in ascending order an entry is what is found under its key. -/
theorem mem_iff_get? (h : Ascending map) : (key, value) ∈ map ↔ get? map key = some value := by
  induction map with
  | nil => simp [get?]
  | cons e rest ih =>
    obtain ⟨he, hrest⟩ := List.pairwise_cons.mp h
    rw [List.mem_cons, ih hrest]
    by_cases heq : compare key e.1 = .eq
    · obtain rfl := Std.LawfulEqCmp.eq_of_compare heq
      have hnone : get? rest e.1 = none := by
        simp only [get?, Option.map_eq_none_iff, List.find?_eq_none, beq_iff_eq]
        intro a ha
        rw [he a ha]
        nofun
      rw [hnone]
      simp [get?, Prod.ext_iff, eq_comm]
    · have hne : (key, value) ≠ e := by
        rintro rfl
        exact heq Std.ReflCmp.compare_self
      simp [get?, hne, heq]

theorem nodup_keys (h : Ascending map) : (map.map Prod.fst).Nodup := by
  refine List.pairwise_map.mpr (List.Pairwise.imp (fun {a b} hlt heq => ?_) h)
  have hself : compare b.1 b.1 = .eq := Std.ReflCmp.compare_self
  cases hself.symm.trans (heq ▸ hlt)

end LawfulEqOrd

/-! ## The order -/

section TransOrd

variable [Std.TransOrd κ]

/-- A key above all others comes last. -/
theorem insert_of_forall_lt (h : ∀ e ∈ map, compare e.1 key = .lt) :
    insert key value map = map ++ [(key, value)] := by
  induction map with
  | nil => rfl
  | cons e rest ih =>
    have hgt : compare key e.1 = .gt := Std.OrientedCmp.gt_of_lt (h e List.mem_cons_self)
    rw [insert, hgt]
    exact congrArg (e :: ·) (ih fun a ha => h a (List.mem_cons_of_mem _ ha))

/-- A map in ascending order is the map of its entries. -/
theorem ofList_of_ascending (h : Ascending map) : ofList map = map := by
  induction map using List.reverseRecOn with
  | nil => rfl
  | append_singleton map e ih =>
    obtain ⟨hmap, -, hlt⟩ := List.pairwise_append.mp h
    rw [ofList, List.foldl_append, ← ofList, ih hmap]
    exact insert_of_forall_lt fun a ha => hlt a ha e List.mem_cons_self

variable [Std.LawfulEqOrd κ]

theorem Ascending.insert (h : Ascending map) (key : κ) (value : α) :
    Ascending (insert key value map) := by
  induction map with
  | nil => exact List.pairwise_singleton _ _
  | cons e rest ih =>
    obtain ⟨he, hrest⟩ := List.pairwise_cons.mp h
    rw [OrderedMap.insert]
    split
    · rename_i hlt
      refine List.pairwise_cons.mpr ⟨fun a ha => ?_, h⟩
      rcases List.mem_cons.mp ha with rfl | ha
      · exact hlt
      · exact Std.TransCmp.lt_trans hlt (he a ha)
    · rename_i heq
      refine List.pairwise_cons.mpr ⟨fun a ha => ?_, hrest⟩
      rw [Std.LawfulEqCmp.eq_of_compare heq]
      exact he a ha
    · rename_i hgt
      refine List.pairwise_cons.mpr ⟨fun a ha => ?_, ih hrest⟩
      rcases mem_insert ha with rfl | ha
      · exact Std.OrientedCmp.lt_of_gt hgt
      · exact he a ha

end TransOrd

end Provision.OrderedMap
