import Provision.Plan.StepGraph
import Provision.Proofs.Plan.StackWalk

/-!
# Lining steps up with a stack

The loop that lines steps up goes through them in the order of their creation and walks from each
that it has not marked yet.  The steps being walked are on a stack, each with those that it still
has to see done; a mark tells whether a step is on the stack or done.

The loop walks (`OrderLoop.walks`), each time from the next step without a mark
(`OrderLoop.carries_roots`).  So it ends, also where steps wait for each other in a circle, and
answers what `ordered` does (`exists_ends_orderLoop`).
-/
open Provision.Plan.Digraph

namespace Provision.Plan
open Visit StepGraph

/-- How far the loop is with a step. -/
inductive Mark
  | visiting
  | done
deriving DecidableEq, Repr

/-- **The state of the loop** that lines steps up. -/
structure OrderLoop where
  /-- The steps to walk from, the next one first. -/
  roots : List Nat
  /-- The steps being walked, the latest first, each with the steps that it still waits for. -/
  stack : List (Nat × List Nat)
  /-- The marks that were set, the latest first. -/
  marks : List (Nat × Mark)
  order : List Nat

namespace OrderLoop

/-- The loop before its first turn. -/
def start (g : StepGraph) : OrderLoop :=
  ⟨List.range g.steps.length, [], [], []⟩

variable (g : StepGraph)

/-- **One turn**: the step on top sees to the next step that it waits for, or is done; without a
step on the stack, the next step that has no mark is put there. -/
def turn (l : OrderLoop) : OrderLoop ⊕ Except DependencyError (List Nat) :=
  match l.stack with
  | [] =>
    match l.roots with
    | [] => .inr (.ok l.order)
    | root :: roots =>
      match l.marks.lookup root with
      -- With nothing on the stack, a step that has a mark is done.
      | some _ => .inl { l with roots }
      | none => .inl ⟨roots, [(root, g.predecessors root)], (root, .visiting) :: l.marks, l.order⟩
  | (i, []) :: below => .inl ⟨l.roots, below, (i, .done) :: l.marks, l.order ++ [i]⟩
  | (i, before :: pending) :: below =>
    match l.marks.lookup before with
    | none =>
      .inl ⟨l.roots, (before, g.predecessors before) :: (i, pending) :: below,
        (before, .visiting) :: l.marks, l.order⟩
    | some .visiting => .inr (.error (.cycle (g.keys (backTo (l.stack.map Prod.fst) before))))
    | some .done => .inl { l with stack := (i, pending) :: below }

/-- **Marks that say where a walk is**: the steps on its path are being visited, those that it left
are done, and no other has a mark. -/
def Marked (path : List Nat) (visits : List (Visit Nat)) (marks : List (Nat × Mark)) : Prop :=
  ∀ i, marks.lookup i =
    if i ∈ path then some .visiting else if i ∈ lefts visits then some .done else none

/-- Where the loop is on the walks from its roots, of which `rest` are left. -/
def At (rest : List Nat) (stack : List (Nat × List Nat)) (visits : List (Visit Nat))
    (order : List Nat) (l : OrderLoop) : Prop :=
  ∃ marks, Marked (stack.map Prod.fst) visits marks ∧ l = ⟨rest, stack, marks, order⟩

variable {g} {rest roots order path : List Nat} {stack below : List (Nat × List Nat)}
  {marks : List (Nat × Mark)} {visits added : List (Visit Nat)} {x y : Nat} {ys : List Nat}
  {l : OrderLoop}

namespace Marked

theorem lookup_of_mem (h : Marked path visits marks) (hy : y ∈ path) :
    marks.lookup y = some .visiting := by
  rw [h, if_pos hy]

theorem lookup_of_left (h : Marked path visits marks) (hpath : y ∉ path) (hy : y ∈ lefts visits) :
    marks.lookup y = some .done := by
  rw [h, if_neg hpath, if_pos hy]

theorem lookup_of_fresh (h : Marked path visits marks) (hpath : y ∉ path)
    (hy : y ∉ lefts visits) : marks.lookup y = none := by
  rw [h, if_neg hpath, if_neg hy]

theorem enter (h : Marked path visits marks) (y : Nat) :
    Marked (y :: path) (visits ++ [.entered y]) ((y, .visiting) :: marks) := by
  intro i
  rw [List.lookup_cons, lefts_append, lefts_entered, List.append_nil]
  by_cases hi : i = y
  · rw [beq_iff_eq.mpr hi, if_pos (hi ▸ List.mem_cons_self)]
  · simp only [beq_false_of_ne hi, h i, List.mem_cons, hi, false_or]

theorem leave (h : Marked (x :: path) visits marks) (hx : x ∉ path) :
    Marked path (visits ++ [.left x]) ((x, .done) :: marks) := by
  intro i
  rw [List.lookup_cons, lefts_append, lefts_left]
  by_cases hi : i = x
  · subst hi
    rw [beq_self_eq_true, if_neg hx, if_pos (List.mem_append_right _ List.mem_cons_self)]
  · simp only [beq_false_of_ne hi, h i, List.mem_cons, List.mem_append, List.not_mem_nil, hi,
      false_or, or_false]

end Marked

/-- **The loop walks** from a step to those that it waits for. -/
theorem walks : g.waits.Walks [] roots (turn g) g.orderVisit (At rest) where
  skip {x y ys below visits order l} ht h hsettled := by
    obtain ⟨marks, hmarks, rfl⟩ := h
    have hleft := hsettled.resolve_left List.not_mem_nil
    -- A step that was left is not on the stack any more, so its mark is that of a step done.
    have hpath : y ∉ x :: below.map Prod.fst := fun hy =>
      (List.nodup_append.mp ht.fresh.1).2.2 y hy y hleft rfl
    refine ⟨⟨rest, (x, ys) :: below, marks, order⟩, ?_, marks, hmarks, rfl⟩
    simp only [turn, hmarks.lookup_of_left hpath hleft]
  close {x y ys below visits order l} ht h _ _ hpath := by
    obtain ⟨marks, hmarks, rfl⟩ := h
    rw [← backTo_eq_cycleTo ht.nodup_path hpath]
    simp only [Takes, orderVisit, turn, hmarks.lookup_of_mem hpath, List.map_cons]
  enter {x y ys below visits order l} _ h _ hnl hpath := by
    obtain ⟨marks, hmarks, rfl⟩ := h
    refine ⟨⟨rest, (y, g.predecessors y) :: (x, ys) :: below, (y, .visiting) :: marks, order⟩, ?_,
      _, hmarks.enter y, rfl⟩
    simp only [turn, hmarks.lookup_of_fresh hpath hnl]
  leave {x below visits order l} ht h := by
    obtain ⟨marks, hmarks, rfl⟩ := h
    exact ⟨_, rfl, _, hmarks.leave (List.nodup_cons.mp ht.nodup_path).1, rfl⟩

/-! ## From one root to the next -/

/-- What a walk does with a root. -/
def outset (g : StepGraph) (visits : List (Visit Nat)) (root : Nat) : List (Visit Nat) :=
  if isSettled [] visits root then visits else g.waits.walk [] g.waits.nodes [] root visits

theorem prefix_outset (root : Nat) : visits <+: outset g visits root := by
  unfold outset
  split
  · exact List.prefix_rfl
  · exact (List.prefix_append _ _).trans prefix_walk

/-- **The next root** costs a turn, and what walking from it costs. -/
theorem carries_outset (ht : g.waits.Trail [] roots [] visits) (hx : x ∈ roots)
    (hadded : outset g visits x = visits ++ added) (hl : At (x :: rest) [] visits order l) :
    Carries (turn g) g.orderVisit (1 + g.waits.effort (lefts added)) l order added
      (At rest [] (visits ++ added)) := by
  obtain ⟨marks, hmarks, rfl⟩ := hl
  rw [outset] at hadded
  split at hadded
  · rename_i hsettled
    have hleft := (isSettled_iff.mp hsettled).resolve_left List.not_mem_nil
    obtain rfl : added = [] := List.self_eq_append_right.mp hadded
    have hturn : turn g ⟨x :: rest, [], marks, order⟩ = .inl ⟨rest, [], marks, order⟩ := by
      simp only [turn, hmarks.lookup_of_left List.not_mem_nil hleft]
    exact .of_turn hturn ⟨marks, by simpa using hmarks, rfl⟩
  · rename_i hsettled
    have hfresh : x ∉ lefts visits := fun hleft => hsettled (isSettled_iff.mpr (Or.inr hleft))
    obtain ⟨more, rfl⟩ := (List.prefix_append_right_inj visits).mp (hadded ▸ prefix_walk)
    rw [← List.append_assoc] at hadded ⊢
    have henter : Takes (turn g) g.orderVisit ⟨x :: rest, [], marks, order⟩ order (.entered x)
        (At rest [(x, g.waits.next x)] (visits ++ [.entered x])) := by
      refine ⟨⟨rest, [(x, g.predecessors x)], (x, .visiting) :: marks, order⟩, ?_, _,
        hmarks.enter x, rfl⟩
      simp only [turn, hmarks.lookup_of_fresh List.not_mem_nil hfresh]
    rw [lefts_append, lefts_entered, List.nil_append]
    refine ((Carries.of_takes henter).mono fun b' s' hs' => ?_).append
    exact walks.carries_root ht hx List.not_mem_nil hfresh hadded hs'

/-- **All roots.** -/
theorem carries_roots (ht : g.waits.Trail [] roots [] visits)
    (hadded : roots.foldl (outset g) visits = visits ++ added) (hl : At roots [] visits order l) :
    Carries (turn g) g.orderVisit (roots.length + g.waits.effort (lefts added)) l order added
      (At [] [] (visits ++ added)) :=
  carries_items (g.waits.Trail [] roots []) (fun rest => At rest []) (fun _ => prefix_outset)
    (fun _ hx _ hv => (hv.begin g.waits hx).1) (fun _ hx _ _ _ _ _ hv => carries_outset hv hx)
    ht hadded hl

end OrderLoop

/-- **The loop that lines steps up ends**, and answers what `ordered` does. -/
theorem exists_ends_orderLoop (g : StepGraph) :
    ∃ n ≤ g.steps.length +
        g.waits.effort (lefts (g.waits.explore [] (List.range g.steps.length))),
      Ends (OrderLoop.turn g) n (.start g) g.ordered := by
  have hstart : OrderLoop.At (List.range g.steps.length) [] [] [] (.start g) :=
    ⟨[], fun i => by simp, rfl⟩
  have hcarries := OrderLoop.carries_roots (g := g) .start rfl hstart
  obtain ⟨n, hn, hends⟩ := hcarries.exists_ends fun order l hl => by
    obtain ⟨marks, -, rfl⟩ := hl
    rfl
  rw [List.length_range] at hn
  exact ⟨n, hn, hends⟩

end Provision.Plan
