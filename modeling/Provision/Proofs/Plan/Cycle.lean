import Mathlib.Data.List.Nodup
import Provision.Proofs.Plan.Reachability

/-!
# The cycles that a walk reports

A walk that comes upon a node of its path reports the way from there back to it.  What it
reports is a cycle of the graph (`Digraph.Trail.isCycle`): the way ends where it began, meets
no other node twice, and each of its nodes leads to the next.  All of it can be reached from
one root.

A cycle remains one when its nodes are told by other names (`IsCycle.map`), as long as the
names differ; and whoever lies on it depends on itself (`IsCycle.transGen`).
-/
namespace Provision.Plan
open Relation

variable {α β : Type} {R : α → α → Prop} {path : List α}

/-- **A way that leads back to its start** and meets nothing else twice. -/
structure IsCycle (R : α → α → Prop) (path : List α) : Prop where
  long : 2 ≤ path.length
  returns : path.head? = path.getLast?
  distinct : path.dropLast.Nodup
  chain : path.IsChain R

namespace IsCycle

/-- Telling the nodes by other names. -/
theorem map (h : IsCycle R path) {S : β → β → Prop} {f : α → β}
    (hinj : ∀ x ∈ path, ∀ y ∈ path, f x = f y → x = y)
    (hstep : ∀ x ∈ path, ∀ y ∈ path, R x y → S (f x) (f y)) : IsCycle S (path.map f) where
  long := by simpa using h.long
  returns := by rw [List.head?_map, List.getLast?_map, h.returns]
  distinct := by
    rw [← List.map_dropLast]
    refine List.Nodup.map_on (fun x hx y hy heq => ?_) h.distinct
    exact hinj x (List.dropLast_subset _ hx) y (List.dropLast_subset _ hy) heq
  chain := by
    rw [List.isChain_map]
    exact h.chain.imp_of_mem_imp fun x y hx hy => hstep x hx y hy

/-- Only the steps between its nodes matter. -/
theorem imp (h : IsCycle R path) {S : α → α → Prop}
    (hstep : ∀ x ∈ path, ∀ y ∈ path, R x y → S x y) : IsCycle S path where
  long := h.long
  returns := h.returns
  distinct := h.distinct
  chain := h.chain.imp_of_mem_imp fun x y hx hy => hstep x hx y hy

/-- A cycle starts with a node that leads back to itself. -/
theorem transGen (h : IsCycle R path) : ∃ x ∈ path, TransGen R x x := by
  obtain ⟨hlong, hreturns, -, hchain⟩ := h
  match path with
  | x :: y :: rest =>
    have hpairwise : (x :: y :: rest).Pairwise (TransGen R) :=
      (hchain.imp fun _ _ h => TransGen.single h).pairwise
    have hlast : x ∈ y :: rest := by
      rw [List.getLast?_cons_cons, List.head?_cons] at hreturns
      exact List.mem_of_getLast? hreturns.symm
    exact ⟨x, List.mem_cons_self, (List.pairwise_cons.mp hpairwise).1 x hlast⟩

end IsCycle

namespace Digraph
open Visit
variable [DecidableEq α] {g : Digraph α} {settled roots : List α} {visits : List (Visit α)}

/-- **The way back to a node of the path is a cycle.** -/
theorem isCycle_cycleTo {x y : α} (hnodup : (x :: path).Nodup)
    (hchain : (x :: path).IsChain fun x y => R y x) (hy : y ∈ x :: path) (hback : R x y) :
    IsCycle R (cycleTo (x :: path) y) := by
  obtain ⟨pre, post, hsplit, hnew⟩ := List.eq_append_cons_of_mem hy
  have hpre : (x :: path).takeWhile (· ≠ y) = pre := by
    rw [hsplit, List.takeWhile_append_of_pos]
    · simp
    · intro z hz
      refine decide_eq_true ?_
      rintro rfl
      exact hnew hz
  -- Up to `y` the path is walked back; its latest node `x` leads to `y`.
  have hbackward : (y :: pre.reverse).IsChain R := by
    have hprefix : (pre ++ [y]).IsChain fun x y => R y x :=
      hchain.prefix ⟨post, by simp [hsplit]⟩
    rw [← List.isChain_reverse, List.reverse_append, List.reverse_singleton] at hprefix
    exact hprefix
  have hlatest : (y :: pre.reverse).getLast? = some x := by
    have hhead := congrArg List.head? hsplit
    rw [List.head?_cons, List.head?_append, List.head?_cons] at hhead
    rw [show y :: pre.reverse = (pre ++ [y]).reverse by simp, List.getLast?_reverse,
      List.head?_append, List.head?_singleton, ← hhead]
  rw [hsplit] at hnodup
  rw [cycleTo, hpre]
  constructor
  case long => simp
  case returns => rw [List.getLast?_concat, List.cons_append, List.head?_cons]
  case distinct =>
    rw [List.cons_append, ← List.cons_append, List.dropLast_concat, List.nodup_cons,
      List.mem_reverse, List.nodup_reverse]
    exact ⟨hnew, (List.nodup_append.mp hnodup).1⟩
  case chain =>
    refine List.isChain_append.mpr ⟨hbackward, List.isChain_singleton y, fun z hz w hw => ?_⟩
    rw [hlatest, Option.mem_some_iff] at hz
    rw [List.head?_singleton, Option.mem_some_iff] at hw
    exact hz ▸ hw ▸ hback

/-- **A closed cycle of a walk is a cycle**, and one root leads to all of it. -/
theorem Trail.isCycle {path : List α} (h : Trail g settled roots path visits) {cycle : List α}
    (hc : .closed cycle ∈ visits) :
    IsCycle g.Leads cycle ∧ ∃ root ∈ roots, ∀ x ∈ cycle, ReflTransGen g.Leads root x := by
  induction h with
  | start => cases hc
  | enter _ _ _ _ _ ih => exact ih (by simpa using hc)
  | @close path visits x y ht hy hpath ih =>
    rcases List.mem_append.mp hc with hc | hc
    · exact ih hc
    · cases List.mem_singleton.mp hc
      have hcycle := isCycle_cycleTo (List.nodup_append.mp ht.fresh.1).1 ht.chain hpath hy
      obtain ⟨root, hroot, hreach⟩ := ht.reached (Or.inl hpath)
      exact ⟨hcycle, root, hroot, hcycle.chain.induction _ _ (fun _ _ hstep h => h.tail hstep)
        fun _ => hreach⟩
  | leave _ _ ih => exact ih (by simpa using hc)

end Digraph
end Provision.Plan
