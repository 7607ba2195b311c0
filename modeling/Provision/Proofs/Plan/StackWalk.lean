import Mathlib.Algebra.GroupWithZero.Nat
import Provision.Proofs.Loop
import Provision.Proofs.Plan.Reachability

/-!
# Walks by a loop with a stack

A walk can be made by a loop that keeps the nodes being walked on a stack, each with those of its
successors that it has not looked at yet.  How such a loop knows which nodes it has passed already
is its own business: `Walks` only asks that it does with the next successor what a walk does, and
that it takes over the visits one by one.  Then it ends, cycles or not, and what it answers is what
comes of taking over the whole record of the walk (`Walks.exists_ends`).

Every node costs it one turn, and so does every successor that a node lists (`Digraph.effort`).
-/
namespace Provision.Plan
open Visit

variable {α β ε σ : Type}

/-! ## Taking over visits -/

section Taking

variable (turn : σ → σ ⊕ Except ε β) (take : β → Visit α → Except ε β)

/-- A turn takes a visit over, or ends the loop with the refusal of the visit. -/
def Takes (s : σ) (b : β) (v : Visit α) (after : β → σ → Prop) : Prop :=
  match take b v with
  | .ok b' => ∃ s', turn s = .inl s' ∧ after b' s'
  | .error cause => turn s = .inr (.error cause)

/-- **A loop takes visits over** in so many turns, or ends with the first refusal. -/
def Carries (n : Nat) (s : σ) (b : β) (visits : List (Visit α)) (after : β → σ → Prop) : Prop :=
  match visits.foldlM take b with
  | .ok b' => ∃ s', Turns turn n s s' ∧ after b' s'
  | .error cause => ∃ k ≤ n, Ends turn k s (.error cause)

end Taking

namespace Carries

variable {turn : σ → σ ⊕ Except ε β} {take : β → Visit α → Except ε β} {n m : Nat} {s s' : σ}
  {b : β} {v : Visit α} {visits visits' : List (Visit α)} {after after' : β → σ → Prop}

theorem refl (h : after b s) : Carries turn take 0 s b [] after :=
  ⟨s, .none, h⟩

theorem of_turn (hturn : turn s = .inl s') (h : after b s') : Carries turn take 1 s b [] after :=
  ⟨s', .one hturn, h⟩

theorem of_takes (h : Takes turn take s b v after) : Carries turn take 1 s b [v] after := by
  have hfold : [v].foldlM take b = take b v := by
    rw [List.foldlM_cons]
    cases take b v <;> rfl
  rw [Takes] at h
  rw [Carries, hfold]
  split at h
  · obtain ⟨s', hturn, hafter⟩ := h
    exact ⟨s', .one hturn, hafter⟩
  · exact ⟨0, Nat.zero_le 1, .now h⟩

/-- Visits are taken over one after the other. -/
theorem append (h : Carries turn take n s b visits fun b' s' =>
    Carries turn take m s' b' visits' after) :
    Carries turn take (n + m) s b (visits ++ visits') after := by
  rw [Carries, List.foldlM_append]
  rw [Carries] at h
  cases hfirst : visits.foldlM take b with
  | error cause =>
    rw [hfirst] at h
    obtain ⟨k, hk, hends⟩ := h
    exact ⟨k, Nat.le_add_right_of_le hk, hends⟩
  | ok b' =>
    rw [hfirst] at h
    obtain ⟨s', hturns, hrest⟩ := h
    change match visits'.foldlM take b' with
      | .ok b' => ∃ s', Turns turn (n + m) s s' ∧ after b' s'
      | .error cause => ∃ k ≤ n + m, Ends turn k s (.error cause)
    rw [Carries] at hrest
    split at hrest
    · obtain ⟨s'', hturns', hafter⟩ := hrest
      exact ⟨s'', hturns.trans hturns', hafter⟩
    · obtain ⟨k, hk, hends⟩ := hrest
      exact ⟨n + k, Nat.add_le_add_left hk n, hturns.ends hends⟩

theorem mono (h : Carries turn take n s b visits after)
    (hafter : ∀ b' s', after b' s' → after' b' s') : Carries turn take n s b visits after' := by
  rw [Carries] at h ⊢
  split at h
  · obtain ⟨s', hturns, hb⟩ := h
    exact ⟨s', hturns, hafter _ _ hb⟩
  · exact h

/-- A loop that ends after the visits answers what comes of taking them over. -/
theorem exists_ends (h : Carries turn take n s b visits after)
    (hlast : ∀ b' s', after b' s' → turn s' = .inr (.ok b')) :
    ∃ k ≤ n, Ends turn k s (visits.foldlM take b) := by
  rw [Carries] at h
  split at h
  · rename_i b' hfold
    obtain ⟨s', hturns, hafter⟩ := h
    rw [hfold]
    exact ⟨n, Nat.le_refl n, hturns.ends (.now (hlast b' s' hafter))⟩
  · rename_i cause hfold
    rw [hfold]
    exact h

end Carries

namespace Digraph

variable [DecidableEq α]

/-! ## The turns of a loop -/

/-- **What walking nodes costs**: a turn for each, and one for each successor that it lists. -/
def effort (g : Digraph α) (nodes : List α) : Nat :=
  (nodes.map fun x => (g.next x).length + 1).sum

omit [DecidableEq α] in
@[simp] theorem effort_nil (g : Digraph α) : g.effort [] = 0 := rfl

omit [DecidableEq α] in
theorem effort_append (g : Digraph α) (nodes nodes' : List α) :
    g.effort (nodes ++ nodes') = g.effort nodes + g.effort nodes' := by
  rw [effort, List.map_append, List.sum_append]
  rfl

omit [DecidableEq α] in
theorem effort_singleton (g : Digraph α) (x : α) : g.effort [x] = (g.next x).length + 1 := rfl

/-- **A loop that walks.**  `At stack visits b s` says that in state `s` the loop has the nodes of
`stack` open, each with the successors that it still has to look at, has made `visits` and has come
to `b` with them.  Whatever it remembers of the way, it does with the next successor what a walk
does. -/
structure Walks (g : Digraph α) (settled roots : List α) (turn : σ → σ ⊕ Except ε β)
    (take : β → Visit α → Except ε β)
    (At : List (α × List α) → List (Visit α) → β → σ → Prop) : Prop where
  /-- A successor that is settled is passed by. -/
  skip : ∀ {x y : α} {ys : List α} {below : List (α × List α)} {visits : List (Visit α)} {b : β}
    {s : σ}, Trail g settled roots (x :: below.map Prod.fst) visits →
    At ((x, y :: ys) :: below) visits b s → y ∈ settled ∨ y ∈ lefts visits →
    ∃ s', turn s = .inl s' ∧ At ((x, ys) :: below) visits b s'
  /-- A successor that is on the stack closes a cycle. -/
  close : ∀ {x y : α} {ys : List α} {below : List (α × List α)} {visits : List (Visit α)} {b : β}
    {s : σ}, Trail g settled roots (x :: below.map Prod.fst) visits →
    At ((x, y :: ys) :: below) visits b s → y ∉ settled → y ∉ lefts visits →
    y ∈ x :: below.map Prod.fst →
    Takes turn take s b (.closed (cycleTo (x :: below.map Prod.fst) y))
      (At ((x, ys) :: below) (visits ++ [.closed (cycleTo (x :: below.map Prod.fst) y)]))
  /-- Any other successor is put on the stack. -/
  enter : ∀ {x y : α} {ys : List α} {below : List (α × List α)} {visits : List (Visit α)} {b : β}
    {s : σ}, Trail g settled roots (x :: below.map Prod.fst) visits →
    At ((x, y :: ys) :: below) visits b s → y ∉ settled → y ∉ lefts visits →
    y ∉ x :: below.map Prod.fst →
    Takes turn take s b (.entered y)
      (At ((y, g.next y) :: (x, ys) :: below) (visits ++ [.entered y]))
  /-- A node without a successor to look at is taken off. -/
  leave : ∀ {x : α} {below : List (α × List α)} {visits : List (Visit α)} {b : β} {s : σ},
    Trail g settled roots (x :: below.map Prod.fst) visits → At ((x, []) :: below) visits b s →
    Takes turn take s b (.left x) (At below (visits ++ [.left x]))

/-! ## What is on the stack -/

/-- The nodes of a stack from the lowest `y` up to the top, and `y` again. -/
def backTo (path : List α) (y : α) : List α :=
  path.reverse.drop ((path.reverse.findIdx? (· = y)).getD 0) ++ [y]

/-- This is how a walk records the cycle. -/
theorem backTo_eq_cycleTo {path : List α} {y : α} (hnodup : path.Nodup) (hy : y ∈ path) :
    backTo path y = cycleTo path y := by
  obtain ⟨pre, post, rfl, hpre⟩ := List.eq_append_cons_of_mem hy
  have hpost : y ∉ post := (List.nodup_cons.mp (List.nodup_append.mp hnodup).2.1).1
  have hfind : (pre ++ y :: post).reverse.findIdx? (· = y) = some post.length := by
    have hnone : post.reverse.findIdx? (· = y) = none := by
      rw [List.findIdx?_eq_none_iff]
      intro z hz
      rw [decide_eq_false_iff_not]
      rintro rfl
      exact hpost (List.mem_reverse.mp hz)
    rw [List.reverse_append, List.reverse_cons, List.append_assoc, List.findIdx?_append, hnone]
    simp [List.findIdx?_cons]
  have htake : (pre ++ y :: post).takeWhile (· ≠ y) = pre := by
    rw [List.takeWhile_append_of_pos, List.takeWhile_cons_of_neg (by simp), List.append_nil]
    intro z hz
    rw [decide_eq_true_eq]
    rintro rfl
    exact hpre hz
  rw [backTo, cycleTo, hfind, htake]
  simp

namespace Trail

variable {g : Digraph α} {settled roots path : List α} {x root : α} {visits : List (Visit α)}

theorem nodup_path (h : Trail g settled roots path visits) : path.Nodup :=
  (List.nodup_append.mp h.fresh.1).1

/-- The root of a walk is at the bottom of its stack. -/
theorem getLast?_path (h : Trail g settled [root] path visits) (hne : path ≠ []) :
    path.getLast? = some root := by
  induction h with
  | start => exact absurd rfl hne
  | @enter path visits x _ hoffers _ _ _ ih =>
    cases path with
    | nil => rw [List.mem_singleton.mp hoffers, List.getLast?_singleton]
    | cons y path => rw [List.getLast?_cons_cons, ih (by simp)]
  | close _ _ _ ih => exact ih hne
  | leave ht _ ih =>
    rw [← ih (by simp), List.getLast?_cons_of_ne_nil hne]

/-- A node is the root if nothing is below it. -/
theorem below_eq_nil_iff (h : Trail g settled [root] (x :: path) visits) :
    path = [] ↔ x = root := by
  have hlast := h.getLast?_path (by simp)
  constructor
  · rintro rfl
    exact Option.some.inj hlast
  · rintro rfl
    by_contra hne
    rw [List.getLast?_cons_of_ne_nil hne] at hlast
    exact (List.nodup_cons.mp h.nodup_path).1 (List.mem_of_getLast? hlast)

end Trail

/-! ## A walk adds to its record -/

section Records

variable {g : Digraph α} {settled room path : List α} {x : α} {visits : List (Visit α)}

theorem prefix_onward (y : α) : visits <+: g.onward settled room path x visits y := by
  unfold onward
  split
  · exact List.prefix_rfl
  · split
    · exact List.prefix_append _ _
    · obtain ⟨added, hadded, -⟩ := g.prolongs_walk settled (room.erase x) (x :: path) y visits
      exact ⟨added, hadded.symm⟩

omit [DecidableEq α] in
/-- So does one that is made step by step. -/
theorem prefix_foldl {γ : Type} {f : List (Visit α) → γ → List (Visit α)}
    (h : ∀ visits y, visits <+: f visits y) (ys : List γ) (visits : List (Visit α)) :
    visits <+: ys.foldl f visits := by
  induction ys generalizing visits with
  | nil => exact List.prefix_rfl
  | cons y ys ih => exact (h visits y).trans (ih _)

theorem prefix_walk : visits ++ [.entered x] <+: g.walk settled room path x visits := by
  by_cases hx : x ∈ room
  · rw [g.walk_of_mem hx]
    exact (prefix_foldl (fun _ => prefix_onward) _ _).trans (List.prefix_append _ _)
  · rw [g.walk_of_not_mem hx]
    exact List.prefix_append _ _

end Records

/-! ## The whole loop -/

omit [DecidableEq α] in
/-- **One item after the other.**  A loop that deals with any item in a turn, and in the turns for
what the item adds to the record, deals with a whole list of them. -/
theorem carries_items {γ : Type} {g : Digraph α} {turn : σ → σ ⊕ Except ε β}
    {take : β → Visit α → Except ε β} {f : List (Visit α) → γ → List (Visit α)}
    (Fine : List (Visit α) → Prop) (At : List γ → List (Visit α) → β → σ → Prop) {items : List γ}
    (hadds : ∀ visits y, visits <+: f visits y)
    (hfine : ∀ y ∈ items, ∀ visits, Fine visits → Fine (f visits y))
    (hone : ∀ y ∈ items, ∀ ys visits added b s, Fine visits → f visits y = visits ++ added →
      At (y :: ys) visits b s →
      Carries turn take (1 + g.effort (lefts added)) s b added (At ys (visits ++ added)))
    {visits added : List (Visit α)} {b : β} {s : σ} (hvisits : Fine visits)
    (hadded : items.foldl f visits = visits ++ added) (hs : At items visits b s) :
    Carries turn take (items.length + g.effort (lefts added)) s b added
      (At [] (visits ++ added)) := by
  induction items generalizing visits added b s with
  | nil =>
    obtain rfl : added = [] := List.self_eq_append_right.mp hadded
    exact .refl (by simpa using hs)
  | cons y ys ih =>
    obtain ⟨first, hfirst⟩ := hadds visits y
    rw [List.foldl_cons, ← hfirst] at hadded
    obtain ⟨rest, rfl⟩ := (List.prefix_append_right_inj visits).mp
      (hadded ▸ prefix_foldl hadds ys (visits ++ first))
    have hcount : (y :: ys).length + g.effort (lefts (first ++ rest)) =
        (1 + g.effort (lefts first)) + (ys.length + g.effort (lefts rest)) := by
      rw [List.length_cons, lefts_append, effort_append]
      omega
    rw [hcount, ← List.append_assoc]
    refine ((hone y List.mem_cons_self ys visits first b s hvisits hfirst.symm hs).mono
      fun b' s' hs' => ?_).append
    refine ih (fun z hz => hfine z (List.mem_cons_of_mem _ hz))
      (fun z hz => hone z (List.mem_cons_of_mem _ hz)) ?_ (by rw [hadded, List.append_assoc]) hs'
    exact hfirst ▸ hfine y List.mem_cons_self visits hvisits

namespace Walks

variable {g : Digraph α} {settled roots room : List α} {turn : σ → σ ⊕ Except ε β}
  {take : β → Visit α → Except ε β} {At : List (α × List α) → List (Visit α) → β → σ → Prop}
  {x y : α} {ys : List α} {below : List (α × List α)} {visits added : List (Visit α)} {b : β}
  {s : σ}

/-- What has to be known of the walks of successors: the loop makes them. -/
def Inner (g : Digraph α) (settled roots : List α) (turn : σ → σ ⊕ Except ε β)
    (take : β → Visit α → Except ε β)
    (At : List (α × List α) → List (Visit α) → β → σ → Prop) (room : List α)
    (below : List (α × List α)) : Prop :=
  ∀ (x : α) (visits added : List (Visit α)) (b : β) (s : σ),
    Trail g settled roots (x :: below.map Prod.fst) (visits ++ [.entered x]) →
    g.walk settled room (below.map Prod.fst) x visits = visits ++ [.entered x] ++ added →
    At ((x, g.next x) :: below) (visits ++ [.entered x]) b s →
    Carries turn take (g.effort (lefts added)) s b added
      (At below (visits ++ [.entered x] ++ added))

/-- **One successor** costs a turn, and what walking it costs. -/
theorem carries_onward (h : g.Walks settled roots turn take At)
    (hinner : ∀ ys, Inner g settled roots turn take At (room.erase x) ((x, ys) :: below))
    (ht : Trail g settled roots (x :: below.map Prod.fst) visits) (hy : g.Leads x y)
    (hadded : g.onward settled room (below.map Prod.fst) x visits y = visits ++ added)
    (hs : At ((x, y :: ys) :: below) visits b s) :
    Carries turn take (1 + g.effort (lefts added)) s b added
      (At ((x, ys) :: below) (visits ++ added)) := by
  rw [onward] at hadded
  split at hadded
  · rename_i hsettled
    obtain rfl : added = [] := (List.self_eq_append_right.mp hadded)
    obtain ⟨s', hturn, hs'⟩ := h.skip ht hs (isSettled_iff.mp hsettled)
    exact .of_turn hturn (by simpa using hs')
  · rename_i hsettled
    obtain ⟨hns, hnl⟩ := not_or.mp fun hor => hsettled (isSettled_iff.mpr hor)
    split at hadded
    · rename_i hpath
      obtain rfl := List.append_cancel_left hadded
      simpa using Carries.of_takes (h.close ht hs hns hnl hpath)
    · rename_i hpath
      obtain ⟨more, rfl⟩ := (List.prefix_append_right_inj visits).mp (hadded ▸ prefix_walk)
      rw [← List.append_assoc] at hadded ⊢
      rw [lefts_append, lefts_entered, List.nil_append]
      refine ((Carries.of_takes (h.enter ht hs hns hnl hpath)).mono fun b' s' hs' => ?_).append
      exact hinner ys y visits more b' s' (ht.enter hy hns hnl hpath) hadded hs'

/-- **All successors.** -/
theorem carries_next (h : g.Walks settled roots turn take At)
    (hinner : ∀ ys, Inner g settled roots turn take At (room.erase x) ((x, ys) :: below))
    (hcover : ∀ y ∈ g.nodes, y ∈ room.erase x ∨ y ∈ x :: below.map Prod.fst)
    (ht : Trail g settled roots (x :: below.map Prod.fst) visits)
    (hadded : (g.next x).foldl (g.onward settled room (below.map Prod.fst) x) visits =
      visits ++ added)
    (hs : At ((x, g.next x) :: below) visits b s) :
    Carries turn take ((g.next x).length + g.effort (lefts added)) s b added
      (At ((x, []) :: below) (visits ++ added)) := by
  refine carries_items (Trail g settled roots (x :: below.map Prod.fst))
    (fun ys => At ((x, ys) :: below)) (fun _ => prefix_onward) (fun y hy visits hv => ?_)
    (fun y hy ys visits added b s hv => h.carries_onward hinner hv hy) ht hadded hs
  exact (hv.onward g hy fun hns hnl hpath => Trail.walk g hcover hv hy hns hnl hpath).1

/-- **A walk from a node that was put on the stack** ends with the node taken off. -/
theorem inner (h : g.Walks settled roots turn take At)
    (hroom : ∀ y ∈ g.nodes, y ∈ room ∨ y ∈ below.map Prod.fst) :
    Inner g settled roots turn take At room below := by
  -- A walk goes on in a smaller room, so the induction is on the size of the room.
  induction hn : room.length using Nat.strongRecOn generalizing room below with
  | ind n ih =>
    intro x visits added b s ht hadded hs
    by_cases hx : x ∈ room
    · have hcover : ∀ y ∈ g.nodes, y ∈ room.erase x ∨ y ∈ x :: below.map Prod.fst := by
        intro y hy
        by_cases hyx : y = x
        · exact Or.inr (hyx ▸ List.mem_cons_self)
        · exact (hroom y hy).imp (List.mem_erase_of_ne hyx).mpr (List.mem_cons_of_mem _)
      have hshort : (room.erase x).length < n := by
        have := List.length_pos_of_mem hx
        rw [List.length_erase_of_mem hx]
        omega
      rw [g.walk_of_mem hx] at hadded
      obtain ⟨children, hchildren⟩ : visits ++ [.entered x] <+: (g.next x).foldl
          (g.onward settled room (below.map Prod.fst) x) (visits ++ [.entered x]) :=
        prefix_foldl (fun _ => prefix_onward) _ _
      obtain rfl : added = children ++ [.left x] := by
        rw [← hchildren, List.append_assoc] at hadded
        exact (List.append_cancel_left hadded).symm
      have hcount : g.effort (lefts (children ++ [.left x])) =
          ((g.next x).length + g.effort (lefts children)) + 1 := by
        rw [lefts_append, lefts_left, effort_append, effort_singleton]
        omega
      have hinner (ys : List α) :
          Inner g settled roots turn take At (room.erase x) ((x, ys) :: below) :=
        ih _ hshort hcover rfl
      have hcarries := h.carries_next hinner hcover ht hchildren.symm hs
      rw [hcount, ← List.append_assoc]
      refine (hcarries.mono fun b' s' hs' => .of_takes (h.leave ?_ hs')).append
      rw [hchildren]
      exact (Trail.foldl g (P := fun _ _ => True) (fun _ => id) (g.next x) _ (fun y hy visits hv =>
        ⟨(hv.onward g hy fun hns hnl hpath => Trail.walk g hcover hv hy hns hnl hpath).1,
          prefix_onward y, trivial⟩) ht).1
    · -- A node that is neither in the room nor below has no successors.
      have hnext : g.next x = [] := by
        refine g.next_eq_nil x fun hmem => (hroom x hmem).elim hx fun hbelow => ?_
        exact (List.nodup_cons.mp (List.nodup_append.mp ht.fresh.1).1).1 hbelow
      rw [g.walk_of_not_mem hx] at hadded
      obtain rfl := List.append_cancel_left hadded
      rw [hnext] at hs
      rw [lefts_left, effort_singleton, hnext]
      exact .of_takes (h.leave ht hs)

/-- The walk from a root. -/
theorem carries_root (h : g.Walks settled roots turn take At)
    (ht : Trail g settled roots [] visits) (hroot : x ∈ roots) (hns : x ∉ settled)
    (hnl : x ∉ lefts visits)
    (hadded : g.walk settled g.nodes [] x visits = visits ++ [.entered x] ++ added)
    (hs : At [(x, g.next x)] (visits ++ [.entered x]) b s) :
    Carries turn take (g.effort (lefts added)) s b added
      (At [] (visits ++ [.entered x] ++ added)) := by
  have hinner : Inner g settled roots turn take At g.nodes [] := h.inner fun _ hy => Or.inl hy
  exact hinner x visits added b s (ht.enter hroot hns hnl List.not_mem_nil) hadded hs

/-- **A loop that has put a single root on its stack ends**, and answers what comes of the visits
after that. -/
theorem exists_ends (h : g.Walks settled [x] turn take At) (hx : x ∉ settled)
    (hlast : ∀ visits b s, At [] visits b s → turn s = .inr (.ok b))
    (hs : At [(x, g.next x)] [.entered x] b s) : ∃ added,
      g.explore settled [x] = .entered x :: added ∧
        ∃ n ≤ g.effort (lefts (g.explore settled [x])), Ends turn n s (added.foldlM take b) := by
  have hexplore : g.explore settled [x] = g.walk settled g.nodes [] x [] :=
    if_neg fun hsettled => hx ((isSettled_iff.mp hsettled).resolve_right List.not_mem_nil)
  obtain ⟨added, hadded⟩ : [] ++ [.entered x] <+: g.walk settled g.nodes [] x [] := prefix_walk
  refine ⟨added, hexplore.trans hadded.symm, ?_⟩
  rw [hexplore, ← hadded, lefts_append, List.nil_append, lefts_entered, List.nil_append]
  exact (h.carries_root .start List.mem_cons_self hx List.not_mem_nil hadded.symm hs).exists_ends
    fun b' s' => hlast _ b' s'

end Walks

end Digraph

end Provision.Plan
