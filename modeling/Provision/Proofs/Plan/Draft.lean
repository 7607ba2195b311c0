import Provision.Proofs.Plan.Planned
import Provision.Proofs.Plan.StepGraph
import Provision.Proofs.Refusal

/-!
# What a draft knows

A `Draft` carries, for every package that an install needs present, the steps to wait for
before anything that depends on it.  The invariant `Linked` says what these numbers mean,
with no reference to the actions that led to the draft: they are the installs that the
package reaches by way of packages that are up to date, itself included.  The orders of
the graph are then exactly the dependencies by way of such packages.

The needed packages are `Grounded`: each was added after everything it depends on.  That
is how a draft excludes cycles among them.

One install keeps the invariant (`Linked.addInstall`), and so do removals, which no install
waits for (`Linked.adds`).
-/
namespace Provision
open Plan Relation

/-- Whether a store can tell the status of a package. -/
def InstallStatus.Known (status : InstallStatus) : Prop :=
  ∀ reason, status ≠ .unknown reason

theorem InstallStatus.exists_reason_of_not_known {status : InstallStatus} (h : ¬ status.Known) :
    ∃ reason, status = .unknown reason := by
  obtain ⟨reason, hreason⟩ := Classical.not_forall.mp h
  exact ⟨reason, Classical.not_not.mp hreason⟩

namespace Plan
open Resolver StepGraph

/-- What an install asks of every package it needs. -/
def Resolver.Installable (r : Resolver) (key : PackageKey) (target : Target) : Prop :=
  ∃ p, r.snapshot.get? key = some p ∧ p.supports target = true ∧ (r.status key target).Known

/-- Needed packages, the latest first: each is installable and new, and what it depends on
is further down. -/
inductive Grounded (r : Resolver) : List (PackageKey × Target) → Prop
  | nil : Grounded r []
  | cons {key target rest} : Grounded r rest → (key, target) ∉ rest →
      r.Installable key target →
      (∀ dependency, r.snapshot.DependsOn key dependency → (dependency, target) ∈ rest) →
      Grounded r ((key, target) :: rest)

namespace Grounded
variable {r : Resolver} {places : List (PackageKey × Target)} {key key' : PackageKey}
  {target : Target}

theorem installable (h : Grounded r places) (hmem : (key, target) ∈ places) :
    r.Installable key target := by
  induction h with
  | nil => cases hmem
  | cons _ _ hinst _ ih =>
    rcases List.mem_cons.mp hmem with heq | hmem
    · cases heq
      exact hinst
    · exact ih hmem

theorem mem_of_dependsOn (h : Grounded r places) (hmem : (key, target) ∈ places)
    (hdep : r.snapshot.DependsOn key key') : (key', target) ∈ places := by
  induction h with
  | nil => cases hmem
  | cons _ _ _ hdeps ih =>
    rcases List.mem_cons.mp hmem with heq | hmem
    · cases heq
      exact List.mem_cons_of_mem _ (hdeps key' hdep)
    · exact List.mem_cons_of_mem _ (ih hmem)

theorem mem_of_reach (h : Grounded r places) (hmem : (key, target) ∈ places)
    (hreach : ReflTransGen r.snapshot.DependsOn key key') : (key', target) ∈ places := by
  induction hreach with
  | refl => exact hmem
  | tail _ hdep ih => exact h.mem_of_dependsOn ih hdep

/-- **Needed packages lie on no cycle.** -/
theorem acyclic (h : Grounded r places) (hmem : (key, target) ∈ places) :
    ¬ TransGen r.snapshot.DependsOn key key := by
  induction h with
  | nil => cases hmem
  | cons hrest hnew _ hdeps ih =>
    rcases List.mem_cons.mp hmem with heq | hmem
    · cases heq
      intro hcycle
      -- A cycle would come back to the latest place from further down.
      obtain ⟨first, hfirst, hback⟩ := TransGen.head'_iff.mp hcycle
      exact hnew (hrest.mem_of_reach (hdeps first hfirst) hback)
    · exact ih hmem

end Grounded

namespace Draft
variable {d : Draft} {key : PackageKey} {target : Target}

/-- The packages that installs need present, each with its target, the latest first. -/
def places (d : Draft) : List (PackageKey × Target) :=
  d.present.map Prod.fst

theorem lookup_eq_none_iff :
    d.present.lookup (key, target) = none ↔ (key, target) ∉ d.places := by
  rw [List.lookup_eq_none_iff, places, List.mem_map]
  constructor
  · rintro h ⟨entry, hentry, heq⟩
    exact absurd (h entry hentry) (by simp [heq])
  · intro h entry hentry
    rw [bne_iff_ne]
    exact fun heq => h ⟨entry, hentry, heq.symm⟩

theorem needs_iff : d.needs key target = true ↔ (key, target) ∈ d.places := by
  rw [needs, Option.isSome_iff_ne_none, ne_eq, lookup_eq_none_iff, Classical.not_not]

theorem mem_presentAt : key ∈ d.presentAt target ↔ (key, target) ∈ d.places := by
  simp only [presentAt, places, List.mem_filterMap, List.mem_map]
  constructor
  · rintro ⟨⟨⟨key', target'⟩, steps⟩, hentry, h⟩
    split at h
    · rename_i htarget
      cases htarget
      cases Option.some.inj h
      exact ⟨_, hentry, rfl⟩
    · cases h
  · rintro ⟨⟨⟨key', target'⟩, steps⟩, hentry, h⟩
    cases h
    exact ⟨_, hentry, if_pos rfl⟩

theorem exists_mem_present (h : (key, target) ∈ d.places) :
    ∃ steps, d.present.lookup (key, target) = some steps ∧ ((key, target), steps) ∈ d.present := by
  cases hlookup : d.present.lookup (key, target) with
  | none => exact absurd h (lookup_eq_none_iff.mp hlookup)
  | some steps =>
    obtain ⟨pre, post, hsplit, -⟩ := List.lookup_eq_some_iff.mp hlookup
    exact ⟨steps, rfl, by rw [hsplit]; simp⟩

end Draft

/-- Leading on from a package that is up to date. -/
def Resolver.Passes (r : Resolver) (target : Target) (key dependency : PackageKey) : Prop :=
  r.status key target = .upToDate ∧ r.snapshot.DependsOn key dependency

/-- **The invariant of drafts.** -/
structure Linked (r : Resolver) (d : Draft) : Prop where
  nodup : (changes d.graph).Nodup
  packages : ∀ p ∈ d.graph.packages, r.snapshot.get? p.key = some p
  grounded : Grounded r d.places
  /-- What is needed and not up to date gets installed, and nothing else. -/
  installs : ∀ key target, (key, target, .install) ∈ changes d.graph ↔
    (key, target) ∈ d.places ∧ r.status key target ≠ .upToDate
  waits : ∀ key target steps, ((key, target), steps) ∈ d.present → ∀ i, i ∈ steps ↔
    ∃ key', (changes d.graph)[i]? = some (key', target, .install) ∧
      ReflTransGen (r.Passes target) key key'
  orders : ∀ i j, (j, i) ∈ d.graph.orders ↔
    ∃ key key' target, (changes d.graph)[i]? = some (key, target, .install) ∧
      (changes d.graph)[j]? = some (key', target, .install) ∧
      r.snapshot.DependsVia (fun x => r.status x target = .upToDate) key key'

theorem linked_empty (r : Resolver) : Linked r Draft.empty where
  nodup := List.nodup_nil
  packages := by simp [Draft.empty, StepGraph.empty, StepGraph.packages]
  grounded := Grounded.nil
  installs := by simp [Draft.empty, StepGraph.empty, Draft.places, changes]
  waits := by simp [Draft.empty]
  orders := by simp [Draft.empty, StepGraph.empty, changes]

/-! ## Removals -/

/-- Marks and removals leave the installs of a graph where they are. -/
theorem Linked.of_installs {r : Resolver} {d : Draft} (h : Linked r d) {g : StepGraph}
    (hnodup : (changes g).Nodup) (hpackages : ∀ p ∈ g.packages, r.snapshot.get? p.key = some p)
    (hinstalls : ∀ (key : PackageKey) (target : Target) (i : Nat),
      (changes g)[i]? = some (key, target, ActionKind.install) ↔
        (changes d.graph)[i]? = some (key, target, ActionKind.install))
    (horders : g.orders = d.graph.orders) : Linked r { d with graph := g } where
  nodup := hnodup
  packages := hpackages
  grounded := h.grounded
  installs := by
    intro key target
    refine Iff.trans ?_ (h.installs key target)
    rw [List.mem_iff_getElem?, List.mem_iff_getElem?]
    exact exists_congr (hinstalls key target)
  waits := by
    intro key target steps hentry i
    rw [h.waits key target steps hentry i]
    simp only [hinstalls]
  orders := by
    intro i j
    rw [horders, h.orders i j]
    simp only [hinstalls]

theorem Linked.markExplicit {r : Resolver} {d : Draft} (h : Linked r d) (i : Nat) :
    Linked r { d with graph := d.graph.markExplicit i } := by
  refine h.of_installs ?_ ?_ ?_ rfl
  · rw [changes_markExplicit]
    exact h.nodup
  · rw [packages_markExplicit]
    exact h.packages
  · simp

/-- A removal keeps the invariant. -/
theorem Linked.adds {r : Resolver} {d : Draft} (h : Linked r d) {g : StepGraph} {s : PlannedStep}
    (hadds : Adds d.graph g s) (hkind : s.kind = .uninstall)
    (hs : r.snapshot.get? s.package.key = some s.package) : Linked r { d with graph := g } := by
  refine h.of_installs ?_ ?_ ?_ hadds.orders
  · rw [hadds.changes]
    split
    · exact h.nodup
    · rename_i hnew
      exact nodup_concat_iff.mpr ⟨h.nodup, hnew⟩
  · intro p hp
    rcases hadds.packages p hp with hp | rfl
    · exact h.packages p hp
    · exact hs
  · intro key target i
    rw [hadds.changes]
    split
    · exact Iff.rfl
    · rw [getElem?_concat_eq_some]
      simp [PlannedStep.change, hkind]

end Plan
end Provision
