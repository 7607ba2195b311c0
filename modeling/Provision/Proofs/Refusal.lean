/-!
# Computations that may refuse

Planning is written with `Except`: a list is worked off in order and the first refusal is
the outcome.  The lemmas here take such a computation apart when it succeeds, find the entry
that is refused when it does not, and put one together from steps that cannot refuse.
-/
namespace Provision
variable {ε α β : Type}

theorem bind_eq_ok {x : Except ε α} {f : α → Except ε β} {b : β} :
    (x >>= f) = .ok b ↔ ∃ a, x = .ok a ∧ f a = .ok b := by
  cases x <;> simp [bind, Except.bind]

theorem bind_eq_error {x : Except ε α} {f : α → Except ε β} {e : ε} :
    (x >>= f) = .error e ↔ x = .error e ∨ ∃ a, x = .ok a ∧ f a = .error e := by
  cases x <;> simp [bind, Except.bind]

/-- Telling a refusal otherwise changes no value. -/
theorem mapError_eq_ok {ε' : Type} {x : Except ε α} {f : ε → ε'} {a : α} :
    x.mapError f = .ok a ↔ x = .ok a := by
  cases x with
  | error cause => exact iff_of_false nofun nofun
  | ok value => exact ⟨fun h => congrArg _ (Except.ok.inj h), fun h => congrArg _ (Except.ok.inj h)⟩

theorem map_eq_ok {x : Except ε α} {f : α → β} {b : β} :
    x.map f = .ok b ↔ ∃ a, x = .ok a ∧ f a = b := by
  cases x <;> simp [Except.map]

theorem foldlM_concat_eq_ok {f : β → α → Except ε β} {xs : List α} {x : α} {b b' : β} :
    (xs ++ [x]).foldlM f b = .ok b' ↔ ∃ c, xs.foldlM f b = .ok c ∧ f c x = .ok b' := by
  rw [List.foldlM_append, bind_eq_ok]
  simp

/-- What every entry leaves in good order is in good order at the end. -/
theorem invariant_of_foldlM {f : β → α → Except ε β} {invariant : β → Prop}
    (hstep : ∀ b x b', invariant b → f b x = .ok b' → invariant b') {xs : List α} {b b' : β}
    (hb : invariant b) (h : xs.foldlM f b = .ok b') : invariant b' := by
  induction xs generalizing b with
  | nil =>
    cases h
    exact hb
  | cons x xs ih =>
    rw [List.foldlM_cons, bind_eq_ok] at h
    obtain ⟨c, hc, h⟩ := h
    exact ih (hstep b x c hb hc) h

/-- A list that is not worked off has an entry that is refused where its turn comes. -/
theorem exists_of_foldlM_eq_error {f : β → α → Except ε β} {e : ε} :
    ∀ {xs : List α} {b : β}, xs.foldlM f b = .error e → ∃ x ∈ xs, ∃ c, f c x = .error e := by
  intro xs
  induction xs with
  | nil => exact fun h => nomatch h
  | cons x xs ih =>
    intro b h
    rw [List.foldlM_cons, bind_eq_error] at h
    rcases h with h | ⟨c, -, h⟩
    · exact ⟨x, List.mem_cons_self, b, h⟩
    · obtain ⟨y, hy, hrefused⟩ := ih h
      exact ⟨y, List.mem_cons_of_mem _ hy, hrefused⟩

/-- A list is worked off when no entry is refused, whatever came before it. -/
theorem exists_foldlM_eq_ok {f : β → α → Except ε β} :
    ∀ (xs : List α) (b : β), (∀ x ∈ xs, ∀ c, ∃ c', f c x = .ok c') →
      ∃ b', xs.foldlM f b = .ok b' := by
  intro xs
  induction xs with
  | nil => exact fun b _ => ⟨b, rfl⟩
  | cons x xs ih =>
    intro b h
    obtain ⟨c, hc⟩ := h x (List.mem_cons_self ..) b
    obtain ⟨b', hb'⟩ := ih c fun y hy => h y (List.mem_cons_of_mem _ hy)
    exact ⟨b', by rw [List.foldlM_cons, bind_eq_ok]; exact ⟨c, hc, hb'⟩⟩

/-- The outcome of working a list off depends on what is done to its entries. -/
theorem foldlM_congr {f g : β → α → Except ε β} :
    ∀ (xs : List α) (b : β), (∀ x ∈ xs, ∀ c, f c x = g c x) → xs.foldlM f b = xs.foldlM g b := by
  intro xs
  induction xs with
  | nil => exact fun _ _ => rfl
  | cons x xs ih =>
    intro b h
    rw [List.foldlM_cons, List.foldlM_cons, h x (List.mem_cons_self ..) b]
    exact bind_congr fun c => ih c fun y hy => h y (List.mem_cons_of_mem _ hy)

/-- A list is mapped when each entry is, to the values in order. -/
theorem mapM_eq_ok_iff {f : α → Except ε β} {xs : List α} {ys : List β} :
    xs.mapM f = .ok ys ↔ xs.map f = ys.map Except.ok := by
  induction xs generalizing ys with
  | nil => cases ys <;> simp [pure, Except.pure]
  | cons x xs ih =>
    rw [List.mapM_cons, bind_eq_ok]
    constructor
    · rintro ⟨y, hy, h⟩
      obtain ⟨ys', hys', h⟩ := bind_eq_ok.mp h
      cases h
      rw [List.map_cons, List.map_cons, hy, ih.mp hys']
    · intro h
      cases ys with
      | nil => cases h
      | cons y ys =>
        obtain ⟨hy, hys⟩ := List.cons.inj h
        exact ⟨y, hy, bind_eq_ok.mpr ⟨ys, ih.mpr hys, rfl⟩⟩

/-- The entries of a mapped list, each with its value. -/
theorem zip_of_mapM_eq_ok {f : α → Except ε β} {xs : List α} {ys : List β}
    (h : xs.mapM f = .ok ys) :
    (xs.zip ys).map Prod.fst = xs ∧ ∀ e ∈ xs.zip ys, f e.1 = .ok e.2 := by
  rw [mapM_eq_ok_iff] at h
  induction xs generalizing ys with
  | nil => exact ⟨rfl, by simp⟩
  | cons x xs ih =>
    cases ys with
    | nil => cases h
    | cons y ys =>
      obtain ⟨hy, hys⟩ := List.cons.inj h
      obtain ⟨hfst, hall⟩ := ih hys
      exact ⟨congrArg (x :: ·) hfst, List.forall_mem_cons.mpr ⟨hy, hall⟩⟩

theorem exists_mapM_eq_ok_iff {f : α → Except ε β} {xs : List α} :
    (∃ ys, xs.mapM f = .ok ys) ↔ ∀ x ∈ xs, ∃ y, f x = .ok y := by
  simp only [mapM_eq_ok_iff]
  induction xs with
  | nil => exact ⟨fun _ => by simp, fun _ => ⟨[], rfl⟩⟩
  | cons x xs ih =>
    rw [List.forall_mem_cons, ← ih]
    constructor
    · rintro ⟨ys, h⟩
      cases ys with
      | nil => cases h
      | cons y ys =>
        obtain ⟨hy, hys⟩ := List.cons.inj h
        exact ⟨⟨y, hy⟩, ys, hys⟩
    · rintro ⟨⟨y, hy⟩, ys, hys⟩
      exact ⟨y :: ys, by rw [List.map_cons, List.map_cons, hy, hys]⟩

/-- A list that is not mapped has an entry that is refused. -/
theorem exists_of_mapM_eq_error {f : α → Except ε β} {e : ε} :
    ∀ {xs : List α}, xs.mapM f = .error e → ∃ x ∈ xs, f x = .error e := by
  intro xs
  induction xs with
  | nil => exact fun h => nomatch h
  | cons x xs ih =>
    intro h
    rw [List.mapM_cons, bind_eq_error] at h
    rcases h with h | ⟨y, -, h⟩
    · exact ⟨x, List.mem_cons_self, h⟩
    · rcases bind_eq_error.mp h with h | ⟨ys, -, h⟩
      · obtain ⟨z, hz, hrefused⟩ := ih h
        exact ⟨z, List.mem_cons_of_mem _ hz, hrefused⟩
      · cases h

/-- What a list is mapped to comes from its entries. -/
theorem exists_of_mem_mapM {f : α → Except ε β} {xs : List α} {ys : List β} {y : β}
    (h : xs.mapM f = .ok ys) (hy : y ∈ ys) : ∃ x ∈ xs, f x = .ok y := by
  have hmem := List.mem_map_of_mem (f := (Except.ok : β → Except ε β)) hy
  rw [← mapM_eq_ok_iff.mp h] at hmem
  exact List.mem_map.mp hmem

/-- What is written entry by entry and read back entry by entry is read back. -/
theorem mapM_map_of_mapM {ε' γ : Type} {write : α → Except ε β} {read : γ → Except ε' α} {f : β → γ}
    {xs : List α} {ys : List β} (h : xs.mapM write = .ok ys)
    (hread : ∀ x ∈ xs, ∀ y, write x = .ok y → read (f y) = .ok x) :
    (ys.map f).mapM read = .ok xs := by
  rw [mapM_eq_ok_iff, List.map_map]
  rw [mapM_eq_ok_iff] at h
  induction xs generalizing ys with
  | nil =>
    cases ys with
    | nil => rfl
    | cons y ys => cases h
  | cons x xs ih =>
    cases ys with
    | nil => cases h
    | cons y ys =>
      obtain ⟨hy, hys⟩ := List.cons.inj h
      rw [List.map_cons, List.map_cons, ih hys fun x hx => hread x (List.mem_cons_of_mem _ hx)]
      exact congrArg (· :: _) (hread x List.mem_cons_self y hy)

end Provision
