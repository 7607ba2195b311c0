import Mathlib.Logic.Relation
import Provision.Snapshot

/-!
# The dependency relation of a snapshot

`Snapshot.DependsOn` is what installs follow: the package that `get?` finds for a key lists
another key.  Removals follow `dependentsOf`, which knows every package of every
repository.  The second relation always holds the converse of the first
(`DependsOn.mem_dependentsOf`) and is exactly that when each package is the one its key
names (`Faithful`, `Faithful.mem_dependentsOf_iff`).

A plan looks through packages that need no step of their own: `DependsVia through` is a
dependency by way of such packages.  Cutting a chain of dependencies at the others gives a
chain of these (`transGen_dependsVia`), and looking through more packages makes no
difference as long as they are not met from either end (`DependsVia.of_first`,
`DependsVia.of_last`).
-/
namespace Provision.Snapshot
open Relation
variable {s : Snapshot} {key key' : PackageKey}

/-- The package of `key` lists `dependency`. -/
def DependsOn (s : Snapshot) (key dependency : PackageKey) : Prop :=
  dependency ∈ s.dependenciesOf key

instance (s : Snapshot) : DecidableRel s.DependsOn :=
  fun key dependency => inferInstanceAs (Decidable (dependency ∈ s.dependenciesOf key))

/-- Every package of every repository is the one its key names. -/
def Faithful (s : Snapshot) : Prop :=
  ∀ repo ∈ s.repositories, ∀ p ∈ repo.packages, s.get? p.key = some p

theorem mem_packages {p : Package} :
    p ∈ s.packages ↔ ∃ repo ∈ s.repositories, p ∈ repo.packages :=
  List.mem_flatMap

theorem mem_of_get? {p : Package} (h : s.get? key = some p) : p ∈ s.packages ∧ p.key = key := by
  obtain ⟨repo, hrepo, hget⟩ := List.exists_of_findSome?_eq_some h
  refine ⟨mem_packages.mpr ⟨repo, (List.mem_filter.mp hrepo).1, List.mem_of_find?_eq_some hget⟩, ?_⟩
  simpa using List.find?_some hget

theorem dependsOn_iff :
    s.DependsOn key key' ↔ ∃ p, s.get? key = some p ∧ key' ∈ p.dependencies := by
  unfold DependsOn dependenciesOf
  cases s.get? key <;> simp

theorem dependsOn_of_get? {p : Package} (h : s.get? key = some p) :
    s.DependsOn key key' ↔ key' ∈ p.dependencies := by
  rw [dependsOn_iff, h]
  simp

theorem mem_dependentsOf :
    key ∈ s.dependentsOf key' ↔ ∃ p ∈ s.packages, p.key = key ∧ key' ∈ p.dependencies := by
  simp only [dependentsOf, List.mem_flatMap, List.mem_map, List.mem_filter, decide_eq_true_eq]
  constructor
  · rintro ⟨p, hp, d, ⟨hd, rfl⟩, rfl⟩
    exact ⟨p, hp, rfl, hd⟩
  · rintro ⟨p, hp, rfl, hd⟩
    exact ⟨p, hp, key', ⟨hd, rfl⟩, rfl⟩

/-- What depends on a package is among its dependents. -/
theorem DependsOn.mem_dependentsOf (h : s.DependsOn key key') : key ∈ s.dependentsOf key' := by
  obtain ⟨p, hp, hd⟩ := dependsOn_iff.mp h
  obtain ⟨hmem, hkey⟩ := mem_of_get? hp
  exact Snapshot.mem_dependentsOf.mpr ⟨p, hmem, hkey, hd⟩

namespace Faithful

theorem get?_eq (h : s.Faithful) {p : Package} (hp : p ∈ s.packages) : s.get? p.key = some p := by
  obtain ⟨repo, hrepo, hp⟩ := mem_packages.mp hp
  exact h repo hrepo p hp

/-- **Installs and removals follow one relation** when every key names its package. -/
theorem mem_dependentsOf_iff (h : s.Faithful) :
    key ∈ s.dependentsOf key' ↔ s.DependsOn key key' := by
  refine ⟨fun hd => ?_, DependsOn.mem_dependentsOf⟩
  obtain ⟨p, hp, rfl, hlists⟩ := Snapshot.mem_dependentsOf.mp hd
  exact dependsOn_iff.mpr ⟨p, h.get?_eq hp, hlists⟩

end Faithful

/-! ## Dependencies by way of other packages -/

/-- `key` depends on `dependency`, directly or by way of packages that satisfy `through`. -/
def DependsVia (s : Snapshot) (through : PackageKey → Prop) (key dependency : PackageKey) : Prop :=
  ∃ first, s.DependsOn key first ∧
    ReflTransGen (fun x y => through x ∧ s.DependsOn x y) first dependency

variable {through through' : PackageKey → Prop}

theorem DependsOn.via (h : s.DependsOn key key') : s.DependsVia through key key' :=
  ⟨key', h, ReflTransGen.refl⟩

theorem reach_of_through {x y : PackageKey}
    (h : ReflTransGen (fun x y => through x ∧ s.DependsOn x y) x y) :
    ReflTransGen s.DependsOn x y :=
  ReflTransGen.mono (fun _ _ h => h.2) x y h

theorem DependsVia.transGen (h : s.DependsVia through key key') :
    TransGen s.DependsOn key key' := by
  obtain ⟨first, hfirst, hrest⟩ := h
  exact TransGen.head' hfirst (reach_of_through hrest)

/-- A dependency before one that is looked through. -/
theorem DependsVia.head {x : PackageKey} (hx : s.DependsOn key x) (hthrough : through x)
    (h : s.DependsVia through x key') : s.DependsVia through key key' := by
  obtain ⟨first, hfirst, hrest⟩ := h
  exact ⟨x, hx, ReflTransGen.head ⟨hthrough, hfirst⟩ hrest⟩

/-- Only the packages that `key` depends on matter for what it depends on by way of. -/
theorem DependsVia.mono (h : s.DependsVia through key key')
    (himp : ∀ x, TransGen s.DependsOn key x → through x → through' x) :
    s.DependsVia through' key key' := by
  obtain ⟨first, hfirst, hrest⟩ := h
  refine ⟨first, hfirst, ?_⟩
  induction hrest with
  | refl => exact ReflTransGen.refl
  | tail hxy hyz ih =>
    exact ih.tail ⟨himp _ (TransGen.head' hfirst (reach_of_through hxy)) hyz.1, hyz.2⟩

/-- Only the packages that depend on `key'` matter for what depends on it by way of. -/
theorem DependsVia.mono_last (h : s.DependsVia through key key')
    (himp : ∀ x, TransGen s.DependsOn x key' → through x → through' x) :
    s.DependsVia through' key key' := by
  obtain ⟨first, hfirst, hrest⟩ := h
  refine ⟨first, hfirst, ?_⟩
  clear hfirst
  induction hrest using ReflTransGen.head_induction_on with
  | refl => exact ReflTransGen.refl
  | @head x y hxy hrest ih =>
    exact ReflTransGen.head ⟨himp x (TransGen.head' hxy.2 (reach_of_through hrest)) hxy.1, hxy.2⟩ ih

theorem DependsVia.congr (hiff : ∀ x, TransGen s.DependsOn key x → (through x ↔ through' x)) :
    s.DependsVia through key key' ↔ s.DependsVia through' key key' :=
  ⟨fun h => h.mono fun x hx => (hiff x hx).mp, fun h => h.mono fun x hx => (hiff x hx).mpr⟩

/-- **A chain of dependencies is a chain of dependencies between the packages that are not
looked through.** -/
theorem transGen_dependsVia (through : PackageKey → Prop) (hkey' : ¬ through key')
    (h : TransGen s.DependsOn key key') :
    TransGen (fun x y => s.DependsVia through x y ∧ ¬ through y) key key' := by
  induction h using TransGen.head_induction_on with
  | single h => exact TransGen.single ⟨h.via, hkey'⟩
  | @head key x hx _ ih =>
    by_cases hthrough : through x
    · obtain ⟨y, ⟨hxy, hy⟩, hrest⟩ := TransGen.head'_iff.mp ih
      exact TransGen.head' ⟨DependsVia.head hx hthrough hxy, hy⟩ hrest
    · exact TransGen.head ⟨hx.via, hthrough⟩ ih

/-- A chain may skip what it looks through only if `key` itself meets none of it first. -/
theorem DependsVia.of_first (h : s.DependsVia through' key key')
    (hfirst : ∀ x, through' x → ¬ through x → ¬ s.DependsVia through key x) :
    s.DependsVia through key key' := by
  obtain ⟨first, hkey, hrest⟩ := h
  refine ⟨first, hkey, ?_⟩
  induction hrest with
  | refl => exact ReflTransGen.refl
  | @tail x y _ hxy ih =>
    refine ih.tail ⟨?_, hxy.2⟩
    -- Up to `x` nothing else has been looked through, so `key` would meet it first.
    exact Classical.byContradiction fun hx => hfirst x hxy.1 hx ⟨first, hkey, ih⟩

/-- A chain may skip what it looks through only if none of it meets `key'` last. -/
theorem DependsVia.of_last (h : s.DependsVia through' key key')
    (hlast : ∀ x, through' x → ¬ through x → ¬ s.DependsVia through x key') :
    s.DependsVia through key key' := by
  obtain ⟨first, hkey, hrest⟩ := h
  refine ⟨first, hkey, ?_⟩
  clear hkey
  induction hrest using ReflTransGen.head_induction_on with
  | refl => exact ReflTransGen.refl
  | @head x y hxy _ ih =>
    refine ReflTransGen.head ⟨?_, hxy.2⟩ ih
    exact Classical.byContradiction fun hx => hlast x hxy.1 hx ⟨y, hxy.2, ih⟩

end Provision.Snapshot
