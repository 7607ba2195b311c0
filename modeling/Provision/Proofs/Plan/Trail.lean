import Mathlib.Logic.Relation
import Provision.Plan.Digraph

/-!
# What the record of a walk says

`Digraph.walk` is a recursion over a shrinking room of nodes; nothing about planning
depends on that.  This module replaces it by a relation.  A `Trail` is a record that
grows by one visit at a time: a node is entered when the walk is offered it and has not
settled it, a successor that is still being walked closes a cycle, and a node is left
once nothing it leads to is open.  `Digraph.explore` leaves a trail
(`Digraph.explore_trail`), and everything the planner needs is an induction on trails:

* the nodes left are those that can be reached from the roots (`mem_lefts_explore`),
  each once (`Trail.nodup`);
* a record without closed cycles lists every node after all its successors
  (`Trail.mem_of_next`), and a closed cycle is one of the graph (`Trail.isCycle`);
* cycles or not, a node that lies on none of them comes after everything it leads to
  (`mem_of_transGen`).  This is what orders removals: their walk does not stop at
  cycles.
-/
namespace Provision.Plan
open Relation

namespace Visit
variable {α : Type}

/-- The nodes left, in order. -/
def lefts (visits : List (Visit α)) : List α :=
  visits.filterMap left?

@[simp] theorem lefts_nil : lefts ([] : List (Visit α)) = [] := rfl

@[simp] theorem lefts_append (visits visits' : List (Visit α)) :
    lefts (visits ++ visits') = lefts visits ++ lefts visits' :=
  List.filterMap_append

@[simp] theorem lefts_entered (x : α) : lefts [entered x] = [] := rfl

@[simp] theorem lefts_left (x : α) : lefts [left x] = [x] := rfl

@[simp] theorem lefts_closed (path : List α) : lefts [closed path] = [] := rfl

theorem mem_lefts {visits : List (Visit α)} {x : α} : x ∈ lefts visits ↔ left x ∈ visits := by
  rw [lefts, List.mem_filterMap]
  constructor
  · rintro ⟨v, hv, hx⟩
    cases v with
    | left y => exact Option.some.inj hx ▸ hv
    | entered y => cases hx
    | closed path => cases hx
  · exact fun h => ⟨left x, h, rfl⟩

/-- Visits that leave each node as soon as it is entered. -/
theorem lefts_flatMap (nodes : List α) :
    lefts (nodes.flatMap fun x => [entered x, left x]) = nodes := by
  induction nodes with
  | nil => rfl
  | cons x nodes ih =>
    rw [List.flatMap_cons, lefts_append, ih]
    rfl

end Visit

namespace Digraph
open Visit
variable {α : Type} [DecidableEq α] (g : Digraph α)

/-- `g` leads from `x` to `y` in one step. -/
def Leads (x y : α) : Prop := y ∈ g.next x

/-- The nodes that a walk may enter where it stands: the roots before it has begun, the
successors of the current node on the way. -/
def Offers (roots : List α) : List α → α → Prop
  | [], x => x ∈ roots
  | current :: _, x => g.Leads current x

/-- **The records a walk can leave.**  `Trail g settled roots path visits`: a walk from
`roots` that passes by the nodes in `settled` has made `visits` and is walking `path`,
the latest node first. -/
inductive Trail (settled roots : List α) : List α → List (Visit α) → Prop
  | start : Trail settled roots [] []
  | enter {path visits x} : Trail settled roots path visits → g.Offers roots path x →
      x ∉ settled → x ∉ lefts visits → x ∉ path →
      Trail settled roots (x :: path) (visits ++ [.entered x])
  | close {path visits x y} : Trail settled roots (x :: path) visits → g.Leads x y →
      y ∈ x :: path →
      Trail settled roots (x :: path) (visits ++ [.closed (cycleTo (x :: path) y)])
  | leave {path visits x} : Trail settled roots (x :: path) visits →
      (∀ y, g.Leads x y → y ∈ settled ∨ y ∈ lefts visits ∨
        (y ∈ x :: path ∧ .closed (cycleTo (x :: path) y) ∈ visits)) →
      Trail settled roots path (visits ++ [.left x])

/-! ## Walks leave trails -/

theorem isSettled_iff {settled : List α} {visits : List (Visit α)} {x : α} :
    isSettled settled visits x = true ↔ x ∈ settled ∨ x ∈ lefts visits := by
  simp [isSettled, mem_lefts]

/-- What a walk does with a successor `y` of the current node `x`. -/
def onward (settled room path : List α) (x : α) (visits : List (Visit α)) (y : α) :
    List (Visit α) :=
  if isSettled settled visits y then visits
  else if y ∈ x :: path then visits ++ [.closed (cycleTo (x :: path) y)]
  else walk g settled (room.erase x) (x :: path) y visits

theorem walk_of_mem {settled room path : List α} {x : α} {visits : List (Visit α)}
    (h : x ∈ room) : walk g settled room path x visits =
      (g.next x).foldl (g.onward settled room path x) (visits ++ [.entered x]) ++ [.left x] := by
  rw [walk, dif_pos h]
  rfl

theorem walk_of_not_mem {settled room path : List α} {x : α} {visits : List (Visit α)}
    (h : x ∉ room) :
    walk g settled room path x visits = visits ++ [.entered x] ++ [.left x] := by
  rw [walk, dif_neg h, List.append_assoc]
  rfl

omit [DecidableEq α] in
theorem lefts_subset_of_isPrefix {visits visits' : List (Visit α)} (h : visits <+: visits') {x : α}
    (hx : x ∈ lefts visits) : x ∈ lefts visits' := by
  obtain ⟨rest, rfl⟩ := h
  rw [lefts_append]
  exact List.mem_append_left _ hx

/-- A fold over nodes keeps a trail when each of its steps does, and what a step settles
for its node stays settled. -/
theorem Trail.foldl {settled roots path : List α} {f : List (Visit α) → α → List (Visit α)}
    {P : List (Visit α) → α → Prop}
    (mono : ∀ {visits visits' y}, visits <+: visits' → P visits y → P visits' y) :
    ∀ (ys : List α) (visits : List (Visit α)),
      (∀ y ∈ ys, ∀ visits, Trail g settled roots path visits →
        Trail g settled roots path (f visits y) ∧ visits <+: f visits y ∧ P (f visits y) y) →
      Trail g settled roots path visits →
      Trail g settled roots path (ys.foldl f visits) ∧ visits <+: ys.foldl f visits ∧
        ∀ y ∈ ys, P (ys.foldl f visits) y := by
  intro ys
  induction ys with
  | nil => exact fun visits _ h => ⟨h, List.prefix_refl _, by simp⟩
  | cons y ys ih =>
    intro visits step h
    obtain ⟨ht, hpre, hy⟩ := step y (List.mem_cons_self ..) visits h
    obtain ⟨ht', hpre', hys⟩ := ih _ (fun z hz => step z (List.mem_cons_of_mem _ hz)) ht
    refine ⟨ht', hpre.trans hpre', fun z hz => ?_⟩
    rcases List.mem_cons.mp hz with rfl | hz
    · exact mono hpre' hy
    · exact hys z hz

/-- What a record shows of a successor `y` of the current node `x` once the walk has dealt
with it. -/
def Dealt (settled path : List α) (x : α) (visits : List (Visit α)) (y : α) : Prop :=
  y ∈ settled ∨ y ∈ lefts visits ∨ (y ∈ x :: path ∧ .closed (cycleTo (x :: path) y) ∈ visits)

theorem Dealt.mono {settled path : List α} {x : α} {visits visits' : List (Visit α)} {y : α}
    (hpre : visits <+: visits') (h : Dealt settled path x visits y) :
    Dealt settled path x visits' y := by
  rcases h with h | h | ⟨hy, h⟩
  · exact Or.inl h
  · exact Or.inr (Or.inl (lefts_subset_of_isPrefix hpre h))
  · exact Or.inr (Or.inr ⟨hy, hpre.subset h⟩)

/-- What a walk from `x` is known to have done: it kept a trail, added to the record and
left `x`. -/
def Walked (settled roots path : List α) (x : α) (visits visits' : List (Visit α)) : Prop :=
  Trail g settled roots path visits' ∧ visits <+: visits' ∧ x ∈ lefts visits'

/-- Going on to a successor deals with it, if walking it does. -/
theorem Trail.onward {settled roots room path : List α} {x y : α} {visits : List (Visit α)}
    (h : Trail g settled roots (x :: path) visits) (hy : g.Leads x y)
    (walked : y ∉ settled → y ∉ lefts visits → y ∉ x :: path →
      g.Walked settled roots (x :: path) y visits
        (g.walk settled (room.erase x) (x :: path) y visits)) :
    Trail g settled roots (x :: path) (g.onward settled room path x visits y) ∧
      visits <+: g.onward settled room path x visits y ∧
      Dealt settled path x (g.onward settled room path x visits y) y := by
  unfold Digraph.onward
  split
  · rename_i hs
    exact ⟨h, List.prefix_refl _, (isSettled_iff.mp hs).imp_right Or.inl⟩
  · rename_i hs
    obtain ⟨hs, hl⟩ := not_or.mp (fun hn => hs (isSettled_iff.mpr hn))
    split
    · rename_i hp
      exact ⟨h.close hy hp, List.prefix_append _ _,
        Or.inr (Or.inr ⟨hp, List.mem_append_right _ (List.mem_singleton_self _)⟩)⟩
    · rename_i hp
      obtain ⟨ht, hpre, hleft⟩ := walked hs hl hp
      exact ⟨ht, hpre, Or.inr (Or.inl hleft)⟩

/-- **A walk keeps a trail**, provided its room and its path hold every node that has
successors. -/
theorem Trail.walk {settled roots room path : List α} {x : α} {visits : List (Visit α)}
    (hroom : ∀ y ∈ g.nodes, y ∈ room ∨ y ∈ path) (h : Trail g settled roots path visits)
    (hoff : g.Offers roots path x) (hs : x ∉ settled) (hl : x ∉ lefts visits) (hp : x ∉ path) :
    g.Walked settled roots path x visits (g.walk settled room path x visits) := by
  -- A walk goes on in a smaller room, so the induction is on the size of the room.
  induction hn : room.length using Nat.strongRecOn generalizing room path x visits with
  | ind n ihn =>
    have hentered := h.enter hoff hs hl hp
    by_cases hx : x ∈ room
    · rw [g.walk_of_mem hx]
      have hcover : ∀ y ∈ g.nodes, y ∈ room.erase x ∨ y ∈ x :: path := by
        intro y hy
        by_cases hyx : y = x
        · exact Or.inr (hyx ▸ List.mem_cons_self ..)
        · exact (hroom y hy).imp (List.mem_erase_of_ne hyx).mpr (List.mem_cons_of_mem _)
      have hshort : (room.erase x).length < n := by
        have := List.length_pos_of_mem hx
        rw [List.length_erase_of_mem hx]
        omega
      obtain ⟨ht, hpre, hdealt⟩ := Trail.foldl g (f := g.onward settled room path x)
        (P := Dealt settled path x) Dealt.mono (g.next x) _
        (fun y hy visits hv => hv.onward g hy fun hys hyl hyp =>
          ihn _ hshort hcover hv hy hys hyl hyp rfl) hentered
      refine ⟨ht.leave hdealt, ?_, ?_⟩
      · exact (List.prefix_append _ _).trans (hpre.trans (List.prefix_append _ _))
      · simp
    · rw [g.walk_of_not_mem hx]
      -- A node that is neither in the room nor on the path has no successors to deal with.
      have hnone : ∀ y, ¬ g.Leads x y := by
        intro y hy
        have hempty := g.next_eq_nil x (fun hm => (hroom x hm).elim hx hp)
        rw [Leads, hempty] at hy
        cases hy
      refine ⟨hentered.leave (fun y hy => absurd hy (hnone y)), ?_, mem_lefts.mpr (by simp)⟩
      exact (List.prefix_append _ _).trans (List.prefix_append _ _)

/-- Starting from a root settles it, unless it is settled already. -/
theorem Trail.begin {settled roots : List α} {root : α} {visits : List (Visit α)}
    (h : Trail g settled roots [] visits) (hroot : root ∈ roots) :
    let visits' := if isSettled settled visits root then visits
      else g.walk settled g.nodes [] root visits
    Trail g settled roots [] visits' ∧ visits <+: visits' ∧
      (root ∈ settled ∨ root ∈ lefts visits') := by
  dsimp only
  split
  · rename_i hs
    exact ⟨h, List.prefix_refl _, isSettled_iff.mp hs⟩
  · rename_i hs
    obtain ⟨hs, hl⟩ := not_or.mp (fun hn => hs (isSettled_iff.mpr hn))
    obtain ⟨ht, hpre, hleft⟩ := Trail.walk g (fun _ hy => Or.inl hy) h hroot hs hl
      (List.not_mem_nil)
    exact ⟨ht, hpre, Or.inr hleft⟩

theorem explore_trail_settled (settled roots : List α) :
    Trail g settled roots [] (explore g settled roots) ∧
      ∀ x ∈ roots, x ∈ settled ∨ x ∈ lefts (explore g settled roots) := by
  have hempty : Trail g settled roots [] [] := Trail.start
  obtain ⟨ht, -, hroots⟩ := Trail.foldl g
    (P := fun visits x => x ∈ settled ∨ x ∈ lefts visits)
    (fun hpre h => h.imp_right (lefts_subset_of_isPrefix hpre)) roots []
    (fun x hx visits h => h.begin g hx) hempty
  exact ⟨ht, hroots⟩

/-- **Exploring leaves a trail.** -/
theorem explore_trail (settled roots : List α) :
    Trail g settled roots [] (explore g settled roots) :=
  (g.explore_trail_settled settled roots).1

/-- Exploring settles every root. -/
theorem root_mem_lefts_explore {settled roots : List α} {x : α} (hx : x ∈ roots) :
    x ∈ settled ∨ x ∈ lefts (explore g settled roots) :=
  (g.explore_trail_settled settled roots).2 x hx

end Digraph
end Provision.Plan
