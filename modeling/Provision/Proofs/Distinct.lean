import Mathlib.Data.List.Induction
import Mathlib.Data.List.Nodup

/-!
# Lists that hold each entry once

A plan's steps are known by their places in lists without repetitions.  In such a list
every entry has one place (`idxOf?_eq_some_of_nodup`).  `List.eraseDups` makes one of any
list and keeps first occurrences, so it commutes with selecting entries
(`eraseDups_filter`) and whatever precedes an entry precedes it before the repetitions are
erased, too (`exists_prefix_of_eraseDups`).
-/
namespace Provision
variable {α : Type}

/-- In a list without repetitions, the place of an entry is where it stands. -/
theorem idxOf?_eq_some_of_nodup [BEq α] [LawfulBEq α] {l : List α} (h : l.Nodup) {x : α}
    {i : Nat} : l.idxOf? x = some i ↔ l[i]? = some x := by
  rw [List.idxOf?_eq_some_iff]
  constructor
  · rintro ⟨hi, rfl, -⟩
    exact List.getElem?_eq_getElem hi
  · intro hx
    obtain ⟨hi, hx⟩ := List.getElem?_eq_some_iff.mp hx
    refine ⟨hi, hx, fun j hj heq => ?_⟩
    exact absurd (h.getElem_inj_iff.mp (heq.trans hx.symm)) (Nat.ne_of_lt hj)

theorem eq_of_getElem?_of_nodup {l : List α} (h : l.Nodup) {x : α} {i j : Nat}
    (hi : l[i]? = some x) (hj : l[j]? = some x) : i = j := by
  obtain ⟨hi, hx⟩ := List.getElem?_eq_some_iff.mp hi
  obtain ⟨hj, hy⟩ := List.getElem?_eq_some_iff.mp hj
  exact h.getElem_inj_iff.mp (hx.trans hy.symm)

theorem getElem?_concat_eq_some {l : List α} {x y : α} {i : Nat} :
    (l ++ [x])[i]? = some y ↔ l[i]? = some y ∨ (i = l.length ∧ y = x) := by
  rcases Nat.lt_trichotomy i l.length with hi | rfl | hi
  · rw [List.getElem?_append_left hi]
    simp [Nat.ne_of_lt hi]
  · simp [eq_comm]
  · rw [List.getElem?_eq_none (by rw [List.length_append, List.length_singleton]; omega),
      List.getElem?_eq_none (Nat.le_of_lt hi)]
    simp [Nat.ne_of_gt hi]

theorem nodup_concat_iff {l : List α} {x : α} : (l ++ [x]).Nodup ↔ l.Nodup ∧ x ∉ l := by
  rw [← List.concat_eq_append, List.nodup_concat]
  exact and_comm

/-- The prefix before a place. -/
theorem prefix_of_getElem? {l : List α} {x : α} {i : Nat} (h : l[i]? = some x) :
    l.take i ++ [x] <+: l := by
  obtain ⟨hi, rfl⟩ := List.getElem?_eq_some_iff.mp h
  rw [← List.take_succ_eq_append_getElem hi]
  exact List.take_prefix _ _

/-- A prefix goes on with what stands after it. -/
theorem concat_isPrefix {l l' : List α} {x : α} (h : l <+: l') (hx : l'[l.length]? = some x) :
    l ++ [x] <+: l' := by
  rw [List.prefix_iff_eq_take.mp h]
  exact prefix_of_getElem? hx

/-- What is among the first `i` entries has a place before `i`. -/
theorem exists_lt_of_mem_take {l : List α} {x : α} {i : Nat} (h : x ∈ l.take i) :
    ∃ j < i, l[j]? = some x := by
  obtain ⟨j, hj⟩ := List.mem_iff_getElem?.mp h
  rw [List.getElem?_take] at hj
  split at hj
  · rename_i hlt
    exact ⟨j, hlt, hj⟩
  · cases hj

/-- In a list without repetitions a prefix has every place of its entries. -/
theorem getElem?_eq_some_of_isPrefix {l l' : List α} (h : l <+: l') (hnodup : l'.Nodup) {x : α}
    {i : Nat} : l[i]? = some x ↔ l'[i]? = some x ∧ x ∈ l := by
  have hgrow : ∀ {i : Nat}, l[i]? = some x → l'[i]? = some x := by
    intro i hi
    obtain ⟨rest, rfl⟩ := h
    rw [List.getElem?_append_left (List.getElem?_eq_some_iff.mp hi).1]
    exact hi
  constructor
  · exact fun hi => ⟨hgrow hi, List.mem_of_getElem? hi⟩
  · rintro ⟨hi, hx⟩
    obtain ⟨j, hj⟩ := List.mem_iff_getElem?.mp hx
    rw [eq_of_getElem?_of_nodup hnodup hi (hgrow hj)]
    exact hj

/-- The prefixes of a range are ranges. -/
theorem eq_range_of_isPrefix {pre : List Nat} {i n : Nat} (h : pre ++ [i] <+: List.range n) :
    pre = List.range i := by
  have hle : pre.length + 1 ≤ n := by simpa using h.length_le
  have heq := List.prefix_iff_eq_take.mp h
  rw [List.length_append, List.length_singleton, List.take_range, Nat.min_eq_left hle,
    List.range_succ] at heq
  obtain ⟨hpre, hi⟩ := List.append_inj' heq rfl
  rw [List.singleton_inj.mp hi]
  exact hpre

/-- Two strictly ascending lists with the same members are equal. -/
theorem eq_of_ascending {l l' : List Nat} (h : l.Pairwise (· < ·)) (h' : l'.Pairwise (· < ·))
    (hmem : ∀ i, i ∈ l ↔ i ∈ l') : l = l' := by
  refine List.Perm.eq_of_pairwise (fun a b _ _ hab hba => absurd hba (Nat.lt_asymm hab)) h h' ?_
  exact (List.perm_ext_iff_of_nodup (h.imp Nat.ne_of_lt) (h'.imp Nat.ne_of_lt)).mpr hmem

/-- A selection from several lists put together that takes each of them whole or not at all. -/
theorem filter_flatMap_eq_flatMap_filter {β : Type} {p : β → Bool} {q : α → Bool}
    {f : β → List α} {xs : List β} (h : ∀ x ∈ xs, ∀ y ∈ f x, q y = p x) :
    (xs.flatMap f).filter q = (xs.filter p).flatMap f := by
  induction xs with
  | nil => rfl
  | cons x xs ih =>
    obtain ⟨hx, hxs⟩ := List.forall_mem_cons.mp h
    rw [List.flatMap_cons, List.filter_append, ih hxs]
    by_cases hp : p x = true
    · rw [List.filter_eq_self.mpr fun y hy => (hx y hy).trans hp, List.filter_cons_of_pos hp,
        List.flatMap_cons]
    · rw [List.filter_eq_nil_iff.mpr fun y hy => hx y hy ▸ hp, List.filter_cons_of_neg hp,
        List.nil_append]

/-! ## What precedes an entry -/

/-- What holds of everything that precedes an entry goes on to hold if it holds of the list. -/
theorem forall_front_concat {l : List α} {x : α} {P : List α → Prop}
    (h : ∀ front y back, l = front ++ y :: back → P front) (hl : P l) :
    ∀ front y back, l ++ [x] = front ++ y :: back → P front := by
  intro front y back heq
  rcases List.eq_nil_or_concat' back with rfl | ⟨back, last, rfl⟩
  · obtain ⟨rfl, -⟩ := List.append_inj' heq rfl
    exact hl
  · rw [← List.cons_append, ← List.append_assoc] at heq
    exact h front y back (List.append_inj' heq rfl).1

/-- What precedes an entry of several lists put together precedes it in one of them. -/
theorem exists_prefix_of_flatMap {β : Type} {f : β → List α} {xs : List β} {pre : List α} {y : α}
    (h : pre ++ [y] <+: xs.flatMap f) :
    ∃ x ∈ xs, ∃ pre', pre' ++ [y] <+: f x ∧ ∀ z ∈ pre', z ∈ pre := by
  induction xs generalizing pre with
  | nil => exact absurd (List.prefix_nil.mp h) (by simp)
  | cons x xs ih =>
    obtain ⟨post, heq⟩ := h
    rw [List.flatMap_cons] at heq
    rcases List.append_eq_append_iff.mp heq with ⟨rest, hx, -⟩ | ⟨rest, hpre, hxs⟩
    · exact ⟨x, List.mem_cons_self .., pre, ⟨rest, hx.symm⟩, fun z hz => hz⟩
    · rcases List.eq_nil_or_concat rest with rfl | ⟨init, last, rfl⟩
      · rw [List.append_nil] at hpre
        exact ⟨x, List.mem_cons_self .., pre, hpre ▸ List.prefix_refl _, fun z hz => hz⟩
      · rw [List.concat_eq_append] at hpre hxs
        rw [← List.append_assoc] at hpre
        obtain ⟨rfl, hlast⟩ := List.append_inj' hpre rfl
        obtain rfl := List.singleton_inj.mp hlast
        obtain ⟨x', hx', pre', hpre', hsubset⟩ := ih ⟨post, hxs.symm⟩
        exact ⟨x', List.mem_cons_of_mem _ hx', pre', hpre',
          fun z hz => List.mem_append_right _ (hsubset z hz)⟩

/-- What precedes an entry of a selection precedes it in the list that was selected from. -/
theorem exists_prefix_of_map_filter {β : Type} {f : β → α} {p : β → Bool} {xs : List β}
    {pre : List α} {y : α} (h : pre ++ [y] <+: (xs.filter p).map f) :
    ∃ init x, f x = y ∧ init ++ [x] <+: xs ∧ ∀ z ∈ init, p z = true → f z ∈ pre := by
  induction xs using List.reverseRecOn with
  | nil => exact absurd (List.prefix_nil.mp h) (by simp)
  | append_singleton xs x ih =>
    have earlier : pre ++ [y] <+: (xs.filter p).map f →
        ∃ init x', f x' = y ∧ init ++ [x'] <+: xs ++ [x] ∧ ∀ z ∈ init, p z = true → f z ∈ pre := by
      intro h
      obtain ⟨init, x', hx', hpre, hinit⟩ := ih h
      exact ⟨init, x', hx', hpre.trans (List.prefix_append _ _), hinit⟩
    rw [List.filter_append, List.map_append] at h
    by_cases hx : p x = true
    · rw [List.filter_cons_of_pos hx, List.filter_nil, List.map_singleton] at h
      rcases List.prefix_concat_iff.mp h with heq | h
      · obtain ⟨rfl, hy⟩ := List.append_inj' heq rfl
        refine ⟨xs, x, (List.singleton_inj.mp hy).symm, List.prefix_refl _, fun z hz hp => ?_⟩
        exact List.mem_map_of_mem (List.mem_filter.mpr ⟨hz, hp⟩)
      · exact earlier h
    · rw [List.filter_cons_of_neg hx, List.filter_nil, List.map_nil, List.append_nil] at h
      exact earlier h

/-! ## First occurrences -/

variable [BEq α] [LawfulBEq α]

theorem eraseDups_concat (l : List α) (x : α) :
    (l ++ [x]).eraseDups = if x ∈ l then l.eraseDups else l.eraseDups ++ [x] := by
  rw [List.eraseDups_append]
  by_cases hx : x ∈ l
  · simp [List.removeAll, hx]
  · simp [List.removeAll, hx, List.eraseDups_cons]

theorem nodup_eraseDups (l : List α) : l.eraseDups.Nodup := by
  induction l using List.reverseRecOn with
  | nil => exact List.nodup_nil
  | append_singleton l x ih =>
    rw [eraseDups_concat]
    split
    · exact ih
    · rename_i hx
      exact nodup_concat_iff.mpr ⟨ih, fun hmem => hx (List.mem_eraseDups.mp hmem)⟩

theorem eraseDups_of_nodup {l : List α} (h : l.Nodup) : l.eraseDups = l := by
  induction l using List.reverseRecOn with
  | nil => rfl
  | append_singleton l x ih =>
    obtain ⟨hl, hx⟩ := nodup_concat_iff.mp h
    rw [eraseDups_concat, if_neg hx, ih hl]

theorem eraseDups_filter (p : α → Bool) (l : List α) :
    (l.filter p).eraseDups = l.eraseDups.filter p := by
  induction l using List.reverseRecOn with
  | nil => rfl
  | append_singleton l x ih =>
    by_cases hp : p x = true
    · rw [List.filter_append, List.filter_cons_of_pos hp, List.filter_nil, eraseDups_concat,
        eraseDups_concat, ih]
      by_cases hx : x ∈ l
      · simp [hx, hp]
      · simp [hx, hp, List.filter_append]
    · rw [List.filter_append, List.filter_cons_of_neg hp, List.filter_nil, List.append_nil,
        eraseDups_concat, ih]
      split
      · rfl
      · simp [List.filter_append, hp]

theorem eraseDups_append_of_nodup {l l' : List α} (h : l.Nodup) (h' : l'.Nodup) :
    (l ++ l').eraseDups = l ++ l'.filter (! l.contains ·) := by
  rw [List.eraseDups_append, eraseDups_of_nodup h, List.removeAll]
  refine congrArg (l ++ ·) (eraseDups_of_nodup ?_)
  exact h'.filter _

/-- Erasing repetitions early makes no difference. -/
theorem eraseDups_eraseDups_append (l l' : List α) :
    (l.eraseDups ++ l').eraseDups = (l ++ l').eraseDups := by
  rw [List.eraseDups_append, List.eraseDups_append, eraseDups_of_nodup (nodup_eraseDups l)]
  refine congrArg (_ ++ ·) (congrArg List.eraseDups (List.filter_congr fun x _ => ?_))
  simp [List.mem_eraseDups]

/-- What only follows from repeated entries is repeated, too. -/
theorem eraseDups_flatMap_eraseDups {β : Type} [BEq β] [LawfulBEq β] (f : β → List α)
    (l : List β) : (l.eraseDups.flatMap f).eraseDups = (l.flatMap f).eraseDups := by
  induction l using List.reverseRecOn with
  | nil => rfl
  | append_singleton l x ih =>
    rw [eraseDups_concat, List.flatMap_append, List.flatMap_singleton]
    split
    · rename_i hx
      have hnothing : (f x).removeAll (l.flatMap f) = [] := by
        refine List.filter_eq_nil_iff.mpr fun y hy => ?_
        simpa using ⟨x, hx, hy⟩
      rw [ih, List.eraseDups_append, hnothing, List.eraseDups_nil, List.append_nil]
    · rw [List.flatMap_append, List.flatMap_singleton, ← eraseDups_eraseDups_append, ih,
        eraseDups_eraseDups_append]

/-- What precedes the first occurrence of an entry precedes it among the first occurrences. -/
theorem exists_prefix_of_eraseDups {l pre : List α} {x : α} (h : pre ++ [x] <+: l.eraseDups) :
    ∃ pre', pre' ++ [x] <+: l ∧ x ∉ pre' ∧ ∀ y ∈ pre', y ∈ pre := by
  induction l using List.reverseRecOn with
  | nil => exact absurd (List.prefix_nil.mp h) (by simp)
  | append_singleton l z ih =>
    have earlier : pre ++ [x] <+: l.eraseDups →
        ∃ pre', pre' ++ [x] <+: l ++ [z] ∧ x ∉ pre' ∧ ∀ y ∈ pre', y ∈ pre := by
      intro h
      obtain ⟨pre', hpre', hx⟩ := ih h
      exact ⟨pre', hpre'.trans (List.prefix_append _ _), hx⟩
    rw [eraseDups_concat] at h
    split at h
    · exact earlier h
    · rename_i hz
      rcases List.prefix_concat_iff.mp h with heq | h
      · obtain ⟨rfl, hxz⟩ := List.append_inj' heq rfl
        obtain rfl := List.singleton_inj.mp hxz
        exact ⟨l, List.prefix_refl _, hz, fun y hy => List.mem_eraseDups.mpr hy⟩
      · exact earlier h

end Provision
