import Provision.Proofs.Distinct
import Provision.Proofs.Plan.Reachability

/-!
# The order in which a walk leaves its nodes

`Digraph.reachable` lists nodes in the order in which one long walk leaves them.  This
module says of what that order is made.

* Roots are explored one by one: a root contributes what exploring it alone would list,
  without what was listed before (`reachable_eq_eraseDups`).  So more roots add to the end
  (`reachable_isPrefix`), and parts of the graph that no edge connects are walked
  independently (`filter_reachable`).
* A walk looks at nothing but the successors of the nodes it gets to.  A graph that mirrors
  another one on these nodes, under other names perhaps, is walked in the same order
  (`Mirrors.reachable`); in particular the list of nodes that a graph is given with plays
  no part.

Together they let the order of one plan be read off the order of another, of which it
shows a part.
-/
namespace Provision.Plan.Digraph
open Relation Visit
variable {α β : Type} [DecidableEq α] [DecidableEq β] {g : Digraph α} {g' : Digraph β}
  {settled roots room path : List α} {x : α} {visits : List (Visit α)}

/-! ## Root by root -/

omit [DecidableEq β] in
theorem isSettled_append {before : List (Visit α)} :
    isSettled settled (before ++ visits) x = isSettled (settled ++ lefts before) visits x := by
  rw [Bool.eq_iff_iff, isSettled_iff, isSettled_iff, lefts_append, List.mem_append,
    List.mem_append, or_assoc]

/-- What was left before a walk counts as settled on it. -/
theorem walk_append (before : List (Visit α)) :
    g.walk settled room path x (before ++ visits) =
      before ++ g.walk (settled ++ lefts before) room path x visits := by
  induction room, path, x, visits using Digraph.walk.induct with
  | case1 room path x visits hx ih =>
    have step : ∀ visits y, g.onward settled room path x (before ++ visits) y =
        before ++ g.onward (settled ++ lefts before) room path x visits y := by
      intro visits y
      unfold onward
      rw [isSettled_append]
      split
      · rfl
      · split
        · exact List.append_assoc ..
        · exact ih visits y
    rw [g.walk_of_mem hx, g.walk_of_mem hx, List.append_assoc before,
      List.foldl_hom (before ++ ·) step, List.append_assoc]
  | case2 room path x visits hx =>
    rw [g.walk_of_not_mem hx, g.walk_of_not_mem hx]
    simp only [List.append_assoc]

/-- A further root adds what exploring it alone lists, as far as it is new. -/
theorem reachable_concat (roots : List α) (x : α) :
    g.reachable (roots ++ [x]) =
      g.reachable roots ++ (g.reachable [x]).filter (· ∉ g.reachable roots) := by
  have hclosed : g.Closed (g.reachable roots) := by
    intro y hy z hz
    obtain ⟨root, hroot, hreach⟩ := mem_reachable.mp hy
    exact mem_reachable.mpr ⟨root, hroot, hreach.tail hz⟩
  have hlast : g.explore [] (roots ++ [x]) =
      g.explore [] roots ++ g.explore (g.reachable roots) [x] := by
    have hsettled : isSettled [] (g.explore [] roots ++ []) x =
        isSettled (g.reachable roots) [] x := isSettled_append
    have hwalk : g.walk [] g.nodes [] x (g.explore [] roots ++ []) =
        g.explore [] roots ++ g.walk (g.reachable roots) g.nodes [] x [] := g.walk_append _
    rw [List.append_nil] at hsettled hwalk
    rw [explore_concat, hwalk, hsettled]
    show _ = _ ++ (if isSettled (g.reachable roots) [] x then [] else _)
    split
    · exact (List.append_nil _).symm
    · rfl
  rw [reachable_eq, hlast, lefts_append, lefts_explore_settled hclosed]
  rfl

/-- **Roots are explored one by one.** -/
theorem reachable_eq_eraseDups (roots : List α) :
    g.reachable roots = (roots.flatMap fun x => g.reachable [x]).eraseDups := by
  induction roots using List.reverseRecOn with
  | nil => rfl
  | append_singleton roots x ih =>
    rw [reachable_concat, List.flatMap_append, List.flatMap_singleton, ← eraseDups_eraseDups_append,
      ← ih, eraseDups_append_of_nodup (g.nodup_reachable roots) (g.nodup_reachable [x])]
    refine congrArg (_ ++ ·) (List.filter_congr fun y _ => ?_)
    simp

/-- Further roots come after everything that was listed without them. -/
theorem reachable_isPrefix (roots roots' : List α) :
    g.reachable roots <+: g.reachable (roots ++ roots') := by
  induction roots' using List.reverseRecOn with
  | nil => exact (List.append_nil roots).symm ▸ List.prefix_refl _
  | append_singleton roots' x ih =>
    rw [← List.append_assoc, reachable_concat]
    exact ih.trans (List.prefix_append _ _)

/-- **On either side of a divide that no edge crosses** a walk lists what a walk from the roots
on that side lists. -/
theorem filter_reachable {p : α → Bool} (h : ∀ x y, g.Leads x y → p x = p y) (roots : List α) :
    (g.reachable roots).filter p = g.reachable (roots.filter p) := by
  have hside : ∀ x ∈ roots, ∀ y ∈ g.reachable [x], p y = p x := by
    intro x _ y hy
    have hreach : ReflTransGen g.Leads x y := mem_reachable_singleton.mp hy
    clear hy
    induction hreach with
    | refl => rfl
    | tail _ hlead ih => exact (h _ _ hlead).symm.trans ih
  rw [reachable_eq_eraseDups, reachable_eq_eraseDups, ← eraseDups_filter,
    filter_flatMap_eq_flatMap_filter hside]

/-! ## Graphs that mirror each other -/

/-- **One graph mirrors another** on a set of nodes that is closed under successors: they have
different names there, and the successors of a name are the names of the successors. -/
structure Mirrors (g : Digraph α) (g' : Digraph β) (name : α → β) (nodes : α → Prop) : Prop where
  closed : ∀ x y, nodes x → g.Leads x y → nodes y
  injective : ∀ x y, nodes x → nodes y → name x = name y → x = y
  next : ∀ x, nodes x → g'.next (name x) = (g.next x).map name

/-- A record of one walk and a record of the other under the names. -/
def Matches (name : α → β) (nodes : α → Prop) (visits : List (Visit α))
    (visits' : List (Visit β)) : Prop :=
  lefts visits' = (lefts visits).map name ∧ ∀ x ∈ lefts visits, nodes x

variable {name : α → β} {nodes : α → Prop} {visits' : List (Visit β)}

omit [DecidableEq α] [DecidableEq β] in
theorem Matches.append {added : List (Visit α)} {added' : List (Visit β)}
    (h : Matches name nodes visits visits') (h' : Matches name nodes added added') :
    Matches name nodes (visits ++ added) (visits' ++ added') := by
  constructor
  · rw [lefts_append, lefts_append, h.1, h'.1, List.map_append]
  · rw [lefts_append]
    exact List.forall_mem_append.mpr ⟨h.2, h'.2⟩

omit [DecidableEq α] [DecidableEq β] in
/-- A fold over nodes and one over their names keep two records matching when each of their
steps does. -/
theorem Matches.foldl {f : List (Visit α) → α → List (Visit α)}
    {f' : List (Visit β) → β → List (Visit β)} :
    ∀ (ys : List α) (visits : List (Visit α)) (visits' : List (Visit β)),
      (∀ y ∈ ys, ∀ visits visits', Matches name nodes visits visits' →
        Matches name nodes (f visits y) (f' visits' (name y))) →
      Matches name nodes visits visits' →
      Matches name nodes (ys.foldl f visits) ((ys.map name).foldl f' visits') := by
  intro ys
  induction ys with
  | nil => exact fun _ _ _ h => h
  | cons y ys ih =>
    intro visits visits' step h
    exact ih _ _ (fun z hz => step z (List.mem_cons_of_mem _ hz))
      (step y (List.mem_cons_self ..) visits visits' h)

omit [DecidableEq β] in
/-- Going on from a node moves it from the room to the path, so both still hold every node. -/
theorem covered_erase {all : List α} (h : ∀ y ∈ all, y ∈ room ∨ y ∈ path) (x : α) :
    ∀ y ∈ all, y ∈ room.erase x ∨ y ∈ x :: path := by
  intro y hy
  by_cases hyx : y = x
  · exact Or.inr (hyx ▸ List.mem_cons_self ..)
  · exact (h y hy).imp (List.mem_erase_of_ne hyx).mpr (List.mem_cons_of_mem _)

/-- A walk whose room and path hold every node with successors goes on to all of them. -/
theorem walk_of_covered (hroom : ∀ y ∈ g.nodes, y ∈ room ∨ y ∈ path) (hx : x ∉ path) :
    g.walk settled room path x visits =
      (g.next x).foldl (g.onward settled room path x) (visits ++ [.entered x]) ++ [.left x] := by
  by_cases hmem : x ∈ room
  · exact g.walk_of_mem hmem
  · have hnone := g.next_eq_nil x fun h => (hroom x h).elim hmem hx
    rw [g.walk_of_not_mem hmem, hnone]
    rfl

namespace Mirrors

omit [DecidableEq α] [DecidableEq β] in
/-- A list of nodes holds a node if the list of their names holds its name. -/
theorem mem_map_iff (h : Mirrors g g' name nodes) {xs : List α} (hxs : ∀ y ∈ xs, nodes y)
    (hx : nodes x) : name x ∈ xs.map name ↔ x ∈ xs := by
  constructor
  · intro hmem
    obtain ⟨y, hy, heq⟩ := List.mem_map.mp hmem
    exact h.injective y x (hxs y hy) hx heq ▸ hy
  · exact fun hmem => List.mem_map_of_mem hmem

theorem isSettled_eq (h : Mirrors g g' name nodes) (hmatch : Matches name nodes visits visits')
    (hx : nodes x) : isSettled [] visits' (name x) = isSettled [] visits x := by
  rw [Bool.eq_iff_iff, isSettled_iff, isSettled_iff, hmatch.1, h.mem_map_iff hmatch.2 hx]
  simp

/-- The rooms of a walk and of its mirror image differ, but both hold what has successors. -/
theorem walk (h : Mirrors g g' name nodes) {room' : List β}
    (hroom : ∀ y ∈ g.nodes, y ∈ room ∨ y ∈ path)
    (hroom' : ∀ y ∈ g'.nodes, y ∈ room' ∨ y ∈ path.map name)
    (hpath : ∀ y ∈ path, nodes y) (hx : nodes x) (hnew : x ∉ path)
    (hmatch : Matches name nodes visits visits') :
    Matches name nodes (g.walk [] room path x visits)
      (g'.walk [] room' (path.map name) (name x) visits') := by
  induction room, path, x, visits using Digraph.walk.induct generalizing room' visits' with
  | case1 room path x visits hmem ih =>
    have hpath' : ∀ y ∈ x :: path, nodes y := List.forall_mem_cons.mpr ⟨hx, hpath⟩
    have hnew' : name x ∉ path.map name := (h.mem_map_iff hpath hx).not.mpr hnew
    rw [g.walk_of_mem hmem, walk_of_covered hroom' hnew', h.next x hx]
    refine Matches.append ?_ ⟨rfl, by simpa using hx⟩
    refine Matches.foldl _ _ _ ?_ (hmatch.append ⟨rfl, by simp⟩)
    intro y hy visits visits' hmatch
    have hynodes := h.closed x y hx hy
    unfold onward
    rw [h.isSettled_eq hmatch hynodes, ← List.map_cons]
    simp only [h.mem_map_iff hpath' hynodes]
    split
    · exact hmatch
    · split
      · exact hmatch.append ⟨rfl, by simp⟩
      · rename_i hyp
        exact ih visits y (covered_erase hroom x) (covered_erase hroom' (name x)) hpath' hynodes
          hyp hmatch
  | case2 room path x visits hmem =>
    -- Outside of its room a node has no successors, under either name.
    have hnone : g.next x = [] := g.next_eq_nil x fun hn => (hroom x hn).elim hmem hnew
    have hnew' : name x ∉ path.map name := (h.mem_map_iff hpath hx).not.mpr hnew
    rw [walk_of_covered hroom hnew, walk_of_covered hroom' hnew', h.next x hx, hnone]
    exact (hmatch.append ⟨rfl, by simp⟩).append ⟨rfl, by simpa using hx⟩

/-- **A mirrored graph is walked in the same order.** -/
theorem reachable (h : Mirrors g g' name nodes) (hroots : ∀ x ∈ roots, nodes x) :
    g'.reachable (roots.map name) = (g.reachable roots).map name := by
  have hmatch : Matches name nodes (g.explore [] roots) (g'.explore [] (roots.map name)) := by
    refine Matches.foldl roots [] [] ?_ ⟨rfl, by simp⟩
    intro x hx visits visits' hmatch
    rw [h.isSettled_eq hmatch (hroots x hx)]
    split
    · exact hmatch
    · exact h.walk (fun y hy => Or.inl hy) (fun y hy => Or.inl hy) (by simp) (hroots x hx)
        (by simp) hmatch
  rw [reachable_eq, reachable_eq, hmatch.1]

end Mirrors

end Provision.Plan.Digraph
