/-!
# Looking up by key

What is installed and what stands in a file system are lists of entries with keys, searched with
`List.lookup`.  Taking entries away by their keys, and giving them other keys, changes what is
found in the way one expects.
-/
namespace Provision
variable {α β : Type} [BEq α] [LawfulBEq α]

theorem lookup_filter_fst (p : α → Bool) (x : α) (entries : List (α × β)) :
    (entries.filter fun e => p e.1).lookup x =
      if p x = true then entries.lookup x else none := by
  induction entries with
  | nil => simp
  | cons e entries ih =>
    obtain ⟨y, z⟩ := e
    by_cases hxy : x = y
    · subst hxy
      by_cases hp : p x = true
      · simp [hp]
      · simp [hp, ih]
    · have hne : (x == y) = false := beq_eq_false_iff_ne.mpr hxy
      by_cases hp : p y = true
      · simp [hp, List.lookup_cons, hne, ih]
      · simp [hp, List.lookup_cons, hne, ih]

/-- What got the key `y` is what had the key `x`, if no other key became `y`. -/
theorem lookup_map_fst {f : α → α} {x y : α} {entries : List (α × β)}
    (h : ∀ e ∈ entries, y = f e.1 ↔ x = e.1) :
    (entries.map fun e => (f e.1, e.2)).lookup y = entries.lookup x := by
  induction entries with
  | nil => rfl
  | cons e entries ih =>
    obtain ⟨z, b⟩ := e
    have hbeq : (y == f z) = (x == z) := by
      rw [Bool.eq_iff_iff, beq_iff_eq, beq_iff_eq]
      exact h (z, b) List.mem_cons_self
    rw [List.map_cons, List.lookup_cons, List.lookup_cons, hbeq,
      ih fun e he => h e (List.mem_cons_of_mem _ he)]

end Provision
