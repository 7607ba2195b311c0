import Mathlib.Algebra.Order.BigOperators.Group.List
import Mathlib.Algebra.Order.Group.Nat
import Provision.Proofs.Plan.InstallLoop

/-!
# Removals with a stack

Two loops look for the removals that go together.  One collects the installed packages that depend
on a package: it keeps the keys it has come by, and otherwise walks as the loop of an install does
(`DependentLoop.walks`).  The other looks for the removals that a removal has to be followed by: it
puts all dependencies of a package on a plain stack, drops those it has come by, and stops at
removals.  It does not walk depth first, so it finds what is waited for in an order of its own
(`exists_ends_waitingLoop`), which makes no difference to how the steps are lined up
(`StepGraph.ordered_of_perm`); what it takes from the stack is never more than what packages list.
-/
open Provision.Plan.Digraph

namespace Provision.Plan
open Visit Resolver
open Relation (ReflTransGen)

/-! ## Collecting dependents -/

/-- **The state of the loop** that collects the installed dependents of a package. -/
structure DependentLoop where
  /-- The keys being walked, the latest first, each with the number of its dependents that have
  been looked at. -/
  stack : List (PackageKey × Nat)
  /-- The keys that the loop has come by. -/
  visited : List PackageKey
  found : List Package

namespace DependentLoop

/-- The loop before its first turn. -/
def start (root : PackageKey) : DependentLoop :=
  ⟨[(root, 0)], [root], []⟩

variable (r : Resolver) (root : PackageKey) (target : Target)

/-- **One turn**: the key on top looks at its next dependent, or is taken off and collected. -/
def turn (l : DependentLoop) : DependentLoop ⊕ Except TransactionError (List Package) :=
  match l.stack with
  | [] => .inr (.ok l.found)
  | (key, next) :: below =>
    match (r.snapshot.dependentsOf key)[next]? with
    | some dependent =>
      if dependent ∈ l.visited then .inl { l with stack := (key, next + 1) :: below }
      else .inl ⟨(dependent, 0) :: (key, next + 1) :: below, dependent :: l.visited, l.found⟩
    | none =>
      if below.isEmpty then .inl { l with stack := below }
      else
        match r.collectDependent target l.found key with
        | .ok found => .inl { l with stack := below, found }
        | .error cause => .inr (.error cause)

/-- Takes over a visit on the walk of dependents: any package that is left is collected, but for
the one that they depend on. -/
def take (found : List Package) : Visit PackageKey → Except TransactionError (List Package)
  | .left key => if key = root then .ok found else r.collectDependent target found key
  | _ => .ok found

/-- A key of the stack as the walk knows it: with the dependents still to look at. -/
def Shows (x : PackageKey × List PackageKey) (e : PackageKey × Nat) : Prop :=
  x.1 = e.1 ∧ x.2 = (r.snapshot.dependentsOf e.1).drop e.2

/-- Where the loop is on its walk. -/
structure At (nodes : List (PackageKey × List PackageKey)) (visits : List (Visit PackageKey))
    (found : List Package) (l : DependentLoop) : Prop where
  stack : List.Forall₂ (Shows r) nodes l.stack
  visited : ∀ key, key ∈ l.visited ↔ key ∈ nodes.map Prod.fst ∨ key ∈ lefts visits
  found : l.found = found

variable {r root target} {x y : PackageKey} {ys : List PackageKey}
  {below : List (PackageKey × List PackageKey)} {visits : List (Visit PackageKey)}
  {found : List Package} {l : DependentLoop}

/-- A key that looks at a dependent does so in one turn. -/
theorem At.exists_look (h : At r ((x, y :: ys) :: below) visits found l) (target : Target) :
    ∃ stack,
    (turn r target l = if y ∈ l.visited then .inl { l with stack }
      else .inl ⟨(y, 0) :: stack, y :: l.visited, l.found⟩) ∧
      At r ((x, ys) :: below) visits found { l with stack } := by
  obtain ⟨hstack, hvisited, hfound⟩ := h
  rcases l with ⟨stack, visited, found⟩
  cases hstack with
  | @cons _ e _ rest hshows hrest =>
    obtain ⟨key, next⟩ := e
    obtain ⟨hkey, hnext⟩ := hshows
    obtain ⟨hdependent, hys⟩ := getElem?_of_cons_eq_drop hnext
    refine ⟨(key, next + 1) :: rest, ?_, ⟨.cons ⟨hkey, hys⟩ hrest, hvisited, hfound⟩⟩
    rw [turn]
    simp only [hdependent]

/-- The loop starts with the root on its stack. -/
theorem at_start (r : Resolver) (root : PackageKey) :
    At r [(root, r.dependents.next root)] [.entered root] [] (start root) :=
  ⟨.cons ⟨rfl, rfl⟩ .nil, fun key => by simp [start], rfl⟩

/-- It ends with an empty stack. -/
theorem At.turn_of_nil (h : At r [] visits found l) : turn r target l = .inr (.ok found) := by
  rcases l with ⟨stack, visited, found⟩
  obtain ⟨hstack, -, rfl⟩ := h
  cases hstack
  rfl

/-- **The loop walks** the dependents. -/
theorem walks : r.dependents.Walks [] [root] (turn r target) (take r root target) (At r) where
  skip _ h hsettled := by
    obtain ⟨stack, hturn, hat⟩ := h.exists_look target
    have hvisited := (hat.visited _).mpr (Or.inr (hsettled.resolve_left List.not_mem_nil))
    exact ⟨_, hturn.trans (if_pos hvisited), hat⟩
  close {x y ys below visits found l} _ h _ _ hpath := by
    -- The loop does not tell keys on the stack from keys that were taken off: it passes by both.
    obtain ⟨stack, hturn, hat⟩ := h.exists_look target
    refine ⟨_, hturn.trans (if_pos ((hat.visited y).mpr (Or.inl hpath))), hat.stack, fun key => ?_,
      hat.found⟩
    rw [hat.visited, lefts_append, lefts_closed, List.append_nil]
  enter {x y ys below visits found l} _ h _ hnl hpath := by
    obtain ⟨stack, hturn, hat⟩ := h.exists_look target
    have hvisited : y ∉ l.visited := fun hy => ((hat.visited y).mp hy).elim hpath hnl
    refine ⟨_, hturn.trans (if_neg hvisited), .cons ⟨rfl, rfl⟩ hat.stack, fun key => ?_,
      hat.found⟩
    rw [List.mem_cons, hat.visited, lefts_append, lefts_entered, List.append_nil]
    simp only [List.map_cons, List.mem_cons, or_assoc]
  leave {x below visits found l} ht h := by
    have hroot := ht.below_eq_nil_iff
    obtain ⟨hstack, hvisited, rfl⟩ := h
    rcases l with ⟨stack, visited, found⟩
    cases hstack with
    | @cons _ e _ rest hshows hrest =>
      obtain ⟨key, next⟩ := e
      obtain ⟨rfl, hnext⟩ := hshows
      have hempty : rest.isEmpty = true ↔ x = root := by
        rw [List.isEmpty_iff, ← hroot, List.map_eq_nil_iff]
        cases hrest <;> simp
      have hafter (found' : List Package) :
          At r below (visits ++ [.left x]) found' ⟨rest, visited, found'⟩ := by
        refine ⟨hrest, fun key => ?_, rfl⟩
        rw [hvisited, lefts_append, lefts_left, List.mem_append, List.mem_singleton, List.map_cons,
          List.mem_cons]
        tauto
      rw [Takes, turn, take]
      simp only [getElem?_of_nil_eq_drop hnext, hempty]
      by_cases hx : x = root
      · rw [if_pos hx, if_pos hx]
        exact ⟨_, rfl, hafter found⟩
      · rw [if_neg hx, if_neg hx]
        cases r.collectDependent target found x with
        | error cause => rfl
        | ok found' => exact ⟨_, rfl, hafter found'⟩

/-- Taking over the visits collects the packages that are left. -/
theorem foldlM_take (visits : List (Visit PackageKey)) (found : List Package) :
    visits.foldlM (take r root target) found =
      ((lefts visits).filter (· ≠ root)).foldlM (r.collectDependent target) found := by
  induction visits generalizing found with
  | nil => rfl
  | cons v visits ih =>
    rw [List.foldlM_cons, ← List.singleton_append, lefts_append]
    cases v with
    | entered key => exact ih found
    | closed path => exact ih found
    | left key =>
      rw [take, lefts_left, List.singleton_append]
      by_cases hkey : key = root
      · rw [if_pos hkey, List.filter_cons_of_neg (by simpa using hkey)]
        exact ih found
      · rw [if_neg hkey, List.filter_cons_of_pos (by simpa using hkey), List.foldlM_cons]
        exact bind_congr ih

end DependentLoop

/-- **The loop that collects dependents ends**, and answers what `installedDependents` does. -/
theorem exists_ends_dependentLoop (r : Resolver) (root : PackageKey) (target : Target) :
    ∃ n ≤ r.dependents.effort (r.dependents.reachable [root]),
      Ends (DependentLoop.turn r target) n (.start root) (r.installedDependents root target) := by
  obtain ⟨added, hexplore, n, hn, hends⟩ :=
    DependentLoop.walks.exists_ends List.not_mem_nil (fun _ _ _ hlast => hlast.turn_of_nil)
      (DependentLoop.at_start r root)
  refine ⟨n, hn, ?_⟩
  have hfold : added.foldlM (DependentLoop.take r root target) [] =
      (r.dependents.explore [] [root]).foldlM (DependentLoop.take r root target) [] := by
    rw [hexplore]
    rfl
  rw [hfold, DependentLoop.foldlM_take] at hends
  exact hends

/-! ## Looking for what is waited for -/

/-- **The state of the loop** that looks for the removals that wait for one. -/
structure WaitingLoop where
  /-- The keys to look at, the next one first. -/
  stack : List PackageKey
  /-- The keys that have been looked at, the latest first. -/
  visited : List PackageKey
  found : List Nat

namespace WaitingLoop

/-- The loop before its first turn: the dependencies of the package, the last one on top. -/
def start (p : Package) : WaitingLoop :=
  ⟨p.dependencies.reverse, [], []⟩

variable (r : Resolver) (graph : StepGraph) (target : Target)

/-- **One turn**: the key on top is dropped, taken for a removal, or replaced by what it depends
on. -/
def turn (l : WaitingLoop) : WaitingLoop ⊕ List Nat :=
  match l.stack with
  | [] => .inr l.found
  | key :: below =>
    if key ∈ l.visited then .inl { l with stack := below }
    else
      match graph.find? key target .uninstall with
      | some before => .inl ⟨below, key :: l.visited, l.found ++ [before]⟩
      | none =>
        match r.snapshot.get? key with
        | some p => .inl ⟨p.dependencies.reverse ++ below, key :: l.visited, l.found⟩
        | none => .inl ⟨below, key :: l.visited, l.found⟩

variable {r graph target} {key : PackageKey} {below visited : List PackageKey} {found : List Nat}

/-- What a turn does with a key that has not been looked at. -/
theorem turn_of_notMem (hkey : key ∉ visited) : turn r graph target ⟨key :: below, visited, found⟩ =
    .inl ⟨((r.lookThrough graph target).next key).reverse ++ below, key :: visited,
      found ++ (graph.find? key target .uninstall).toList⟩ := by
  rw [turn]
  simp only [if_neg hkey, lookThrough, dependencies, Snapshot.dependenciesOf]
  cases graph.find? key target .uninstall with
  | some before => rfl
  | none =>
    rw [Option.toList_none, List.append_nil]
    cases r.snapshot.get? key <;> rfl

/-- **What the loop keeps in order**: it looks at what can be reached from the dependencies, at each
key once, and has whatever follows a key on its stack unless it has looked at it, too. -/
structure Keeps (r : Resolver) (graph : StepGraph) (target : Target) (roots : List PackageKey)
    (l : WaitingLoop) : Prop where
  nodup : l.visited.Nodup
  found : l.found = l.visited.reverse.filterMap fun key => graph.find? key target .uninstall
  reached : ∀ key, key ∈ l.visited ∨ key ∈ l.stack →
    key ∈ (r.lookThrough graph target).reachable roots
  roots : ∀ key ∈ roots, key ∈ l.visited ∨ key ∈ l.stack
  closed : ∀ key ∈ l.visited, ∀ key', (r.lookThrough graph target).Leads key key' →
    key' ∈ l.visited ∨ key' ∈ l.stack

variable {roots : List PackageKey} {l l' : WaitingLoop}

theorem keeps_start (r : Resolver) (graph : StepGraph) (target : Target) (p : Package) :
    Keeps r graph target p.dependencies (start p) where
  nodup := List.nodup_nil
  found := rfl
  reached key hkey := by
    have hroot := List.mem_reverse.mp (hkey.resolve_left List.not_mem_nil)
    exact mem_reachable.mpr ⟨key, hroot, .refl⟩
  roots key hkey := Or.inr (List.mem_reverse.mpr hkey)
  closed key hkey := absurd hkey List.not_mem_nil

theorem Keeps.drop (h : Keeps r graph target roots ⟨key :: below, visited, found⟩)
    (hkey : key ∈ visited) : Keeps r graph target roots ⟨below, visited, found⟩ where
  nodup := h.nodup
  found := h.found
  reached x hx := h.reached x (hx.imp_right (List.mem_cons_of_mem _))
  roots x hx := (h.roots x hx).elim Or.inl fun hstack =>
    (List.mem_cons.mp hstack).elim (fun heq => Or.inl (heq ▸ hkey)) Or.inr
  closed x hx y hy := (h.closed x hx y hy).elim Or.inl fun hstack =>
    (List.mem_cons.mp hstack).elim (fun heq => Or.inl (heq ▸ hkey)) Or.inr

theorem Keeps.visit (h : Keeps r graph target roots ⟨key :: below, visited, found⟩)
    (hkey : key ∉ visited) : Keeps r graph target roots
      ⟨((r.lookThrough graph target).next key).reverse ++ below, key :: visited,
        found ++ (graph.find? key target .uninstall).toList⟩ where
  nodup := List.nodup_cons.mpr ⟨hkey, h.nodup⟩
  found := by
    have hfound := h.found
    dsimp only at hfound ⊢
    rw [List.reverse_cons, List.filterMap_append, ← hfound, List.filterMap_cons,
      List.filterMap_nil]
    cases graph.find? key target .uninstall <;> rfl
  reached x hx := by
    dsimp only at hx
    rw [List.mem_cons, List.mem_append, List.mem_reverse] at hx
    rcases hx with (rfl | hx) | hx | hx
    · exact h.reached x (Or.inr List.mem_cons_self)
    · exact h.reached x (Or.inl hx)
    · obtain ⟨root, hroot, hreach⟩ := mem_reachable.mp (h.reached key (Or.inr List.mem_cons_self))
      exact mem_reachable.mpr ⟨root, hroot, hreach.tail hx⟩
    · exact h.reached x (Or.inr (List.mem_cons_of_mem _ hx))
  roots x hx := by
    have hold := h.roots x hx
    rw [List.mem_cons] at hold
    rw [List.mem_cons, List.mem_append]
    tauto
  closed x hx y hy := by
    rw [List.mem_cons] at hx
    rw [List.mem_cons, List.mem_append, List.mem_reverse]
    rcases hx with rfl | hx
    · exact Or.inr (Or.inl hy)
    · have hold := h.closed x hx y hy
      rw [List.mem_cons] at hold
      tauto

/-- What the loop may still have to look at: its stack, and what can be put there. -/
def remaining (r : Resolver) (graph : StepGraph) (target : Target) (l : WaitingLoop) : Nat :=
  l.stack.length + ((r.lookThrough graph target).nodes.map fun key =>
    if key ∈ l.visited then 0 else ((r.lookThrough graph target).next key).length).sum

/-- A key that is looked at is no longer to be looked at, and nor is any key that was not. -/
theorem sum_visit_le {f : PackageKey → Nat} (hkey : key ∉ visited) (nodes : List PackageKey)
    (hnodes : key ∉ nodes → f key = 0) :
    f key + (nodes.map fun x => if x ∈ key :: visited then 0 else f x).sum ≤
      (nodes.map fun x => if x ∈ visited then 0 else f x).sum := by
  have hmono (nodes : List PackageKey) :
      (nodes.map fun x => if x ∈ key :: visited then 0 else f x).sum ≤
        (nodes.map fun x => if x ∈ visited then 0 else f x).sum := by
    refine List.sum_le_sum fun x _ => ?_
    by_cases hx : x ∈ visited
    · rw [if_pos (List.mem_cons_of_mem _ hx)]
      exact Nat.zero_le _
    · rw [if_neg hx]
      split
      · exact Nat.zero_le _
      · exact Nat.le_refl _
  induction nodes with
  | nil => simp [hnodes List.not_mem_nil]
  | cons x nodes ih =>
    rw [List.map_cons, List.map_cons, List.sum_cons, List.sum_cons]
    by_cases hx : x = key
    · subst hx
      rw [if_pos List.mem_cons_self, if_neg hkey, Nat.zero_add]
      exact Nat.add_le_add_left (hmono nodes) _
    · have hiff : x ∈ key :: visited ↔ x ∈ visited := by
        rw [List.mem_cons, or_iff_right hx]
      have hrest := ih fun hnot => hnodes fun hmem =>
        (List.mem_cons.mp hmem).elim (fun heq => hx heq.symm) hnot
      simp only [hiff]
      omega

/-- **Every turn takes something away** of what there is to look at, and keeps the rest in order. -/
theorem Keeps.turn (h : Keeps r graph target roots l) (hturn : turn r graph target l = .inl l') :
    Keeps r graph target roots l' ∧ remaining r graph target l' < remaining r graph target l := by
  obtain ⟨_ | ⟨key, below⟩, visited, found⟩ := l
  · cases hturn
  by_cases hkey : key ∈ visited
  · have hdrop : WaitingLoop.turn r graph target ⟨key :: below, visited, found⟩ =
        .inl ⟨below, visited, found⟩ := if_pos hkey
    obtain rfl := Sum.inl.inj (hdrop.symm.trans hturn)
    refine ⟨h.drop hkey, ?_⟩
    simp only [remaining, List.length_cons]
    omega
  · obtain rfl := Sum.inl.inj ((turn_of_notMem hkey).symm.trans hturn)
    refine ⟨h.visit hkey, ?_⟩
    have hsum := sum_visit_le hkey (f := fun x => ((r.lookThrough graph target).next x).length)
      (r.lookThrough graph target).nodes fun hnot => by
        rw [(r.lookThrough graph target).next_eq_nil key hnot]
        rfl
    simp only [remaining, List.length_append, List.length_reverse, List.length_cons]
    omega

/-- When the stack is empty, the loop has found what there is to find. -/
theorem Keeps.perm (h : Keeps r graph target roots l) (hempty : l.stack = []) :
    l.found.Perm (((r.lookThrough graph target).reachable roots).filterMap
      fun key => graph.find? key target .uninstall) := by
  have hvisited : ∀ key, key ∈ l.visited ↔ key ∈ (r.lookThrough graph target).reachable roots := by
    have hstack : ∀ {key}, key ∈ l.visited ∨ key ∈ l.stack → key ∈ l.visited := by
      rintro key (hkey | hkey)
      · exact hkey
      · exact absurd (hempty ▸ hkey) List.not_mem_nil
    intro key
    refine ⟨fun hkey => h.reached key (Or.inl hkey), fun hkey => ?_⟩
    obtain ⟨root, hroot, hreach⟩ := mem_reachable.mp hkey
    have hclosed : (r.lookThrough graph target).Closed l.visited :=
      fun x hx y hy => hstack (h.closed x hx y hy)
    exact hclosed.mem_of_reach (hstack (h.roots root hroot)) hreach
  rw [h.found]
  refine List.Perm.filterMap _ ((List.perm_ext_iff_of_nodup ?_ ?_).mpr fun key => ?_)
  · exact List.nodup_reverse.mpr h.nodup
  · exact nodup_reachable roots
  · rw [List.mem_reverse, hvisited]

end WaitingLoop

/-- **The loop that looks for what is waited for ends**, with what `waiting` says but for the
order. -/
theorem exists_ends_waitingLoop (r : Resolver) (graph : StepGraph) (p : Package)
    (target : Target) :
    ∃ n ≤ p.dependencies.length + (r.lookThrough graph target).effort
        (r.lookThrough graph target).nodes,
      ∃ found, Ends (WaitingLoop.turn r graph target) n (.start p) found ∧
        found.Perm (r.waiting graph p target) := by
  obtain ⟨n, hn, l, found, hends, hlast, hturn⟩ :=
    exists_ends_of_decreasing (WaitingLoop.remaining r graph target)
      (fun _ _ hl hturn => hl.turn hturn)
      (WaitingLoop.keeps_start r graph target p)
  obtain ⟨hempty, rfl⟩ : l.stack = [] ∧ l.found = found := by
    obtain ⟨_ | ⟨key, below⟩, visited, found'⟩ := l
    · exact ⟨rfl, Sum.inr.inj hturn⟩
    · by_cases hkey : key ∈ visited
      · have hdrop : WaitingLoop.turn r graph target ⟨key :: below, visited, found'⟩ =
            .inl ⟨below, visited, found'⟩ := if_pos hkey
        cases hdrop.symm.trans hturn
      · cases (WaitingLoop.turn_of_notMem hkey).symm.trans hturn
  refine ⟨n, hn.trans ?_, _, hends, hlast.perm hempty⟩
  rw [WaitingLoop.remaining, WaitingLoop.start, List.length_reverse]
  refine Nat.add_le_add_left (List.sum_le_sum fun key _ => ?_) _
  exact Nat.le_succ _

/-! ## The order of what is found -/

namespace Digraph
variable {α : Type} [DecidableEq α] {g g' : Digraph α} {settled roots path room room' : List α}

/-- A walk depends on what leads where, and on what there is room for. -/
theorem walk_of_perm (hnext : g'.next = g.next) (hroom : room'.Perm room) (x : α)
    (visits : List (Visit α)) :
    g'.walk settled room' path x visits = g.walk settled room path x visits := by
  induction hn : room.length using Nat.strongRecOn generalizing room room' path x visits with
  | ind n ih =>
    by_cases hx : x ∈ room
    · have hshort : (room.erase x).length < n := by
        have := List.length_pos_of_mem hx
        rw [List.length_erase_of_mem hx]
        omega
      have honward : g'.onward settled room' path x = g.onward settled room path x := by
        funext visits y
        rw [onward, onward, ih _ hshort (hroom.erase x) y visits rfl]
      rw [g'.walk_of_mem (hroom.mem_iff.mpr hx), g.walk_of_mem hx, hnext, honward]
    · rw [g'.walk_of_not_mem (mt hroom.mem_iff.mp hx), g.walk_of_not_mem hx]

theorem explore_of_perm (hnext : g'.next = g.next) (hnodes : g'.nodes.Perm g.nodes) :
    g'.explore settled roots = g.explore settled roots := by
  simp only [explore, walk_of_perm hnext hnodes]

end Digraph

namespace StepGraph
variable {g g' : StepGraph}

theorem predecessors_of_perm (hsteps : g'.steps = g.steps) (horders : g'.orders.Perm g.orders) :
    g'.predecessors = g.predecessors := by
  funext i
  rw [predecessors, predecessors, hsteps]
  refine List.filter_congr fun j _ => ?_
  rw [Bool.eq_iff_iff, List.contains_iff_mem, List.contains_iff_mem, horders.mem_iff]

/-- **Steps are lined up the same way** in whatever order their waits were found. -/
theorem ordered_of_perm (hsteps : g'.steps = g.steps) (horders : g'.orders.Perm g.orders) :
    g'.ordered = g.ordered := by
  have hvisit : g'.orderVisit = g.orderVisit := by
    funext order v
    cases v <;> simp only [orderVisit, keys, hsteps]
  rw [ordered, ordered, hvisit, hsteps,
    explore_of_perm (g := g.waits) (predecessors_of_perm hsteps horders) (horders.map Prod.snd)]

/-- And they are written down the same way. -/
theorem toSteps_of_perm (hsteps : g'.steps = g.steps) (horders : g'.orders.Perm g.orders) :
    toSteps g' = toSteps g := by
  funext order
  simp only [toSteps, hsteps, predecessors_of_perm hsteps horders]

end StepGraph

end Provision.Plan
