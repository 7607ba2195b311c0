import Mathlib.Data.List.Chain
import Mathlib.Tactic.Tauto
import Provision.Proofs.Plan.Trail

/-!
# Which nodes a walk reaches, and in which order

The consequences of `Digraph.explore_trail`.  The nodes that exploring leaves are the ones
that can be reached and were not settled before (`mem_lefts_explore`), so exploring on
from settled nodes lists what exploring afresh would, without the settled ones
(`lefts_explore_settled`).  Of the order of that list two things are needed:

* without closed cycles, the successors of a node precede it (`Trail.mem_of_next`);
* in any case, a node that lies on no cycle is preceded by everything it leads to
  (`mem_of_transGen`).  A walk that ignores cycles may leave a node before one of its
  successors, but then the two lie on a cycle.
-/
namespace Provision.Plan.Digraph
open Relation Visit
variable {α : Type} [DecidableEq α] {g : Digraph α} {settled roots path : List α}
  {visits : List (Visit α)}

/-! ## Facts about every trail -/

/-- The nodes on the path and the nodes left are all different, and none was settled
before. -/
theorem Trail.fresh (h : Trail g settled roots path visits) :
    (path ++ lefts visits).Nodup ∧ ∀ x ∈ path ++ lefts visits, x ∉ settled := by
  induction h with
  | start => exact ⟨List.nodup_nil, by simp⟩
  | @enter path visits x _ _ hs hl hp ih =>
    rw [lefts_append, lefts_entered, List.append_nil, List.cons_append]
    refine ⟨List.nodup_cons.mpr ⟨?_, ih.1⟩, List.forall_mem_cons.mpr ⟨hs, ih.2⟩⟩
    exact fun hx => (List.mem_append.mp hx).elim hp hl
  | close _ _ _ ih => simpa using ih
  | @leave path visits x _ _ ih =>
    -- Leaving moves a node from the path to the nodes left.
    have hperm : (path ++ lefts (visits ++ [Visit.left x])).Perm (x :: path ++ lefts visits) := by
      rw [lefts_append, lefts_left, ← List.append_assoc]
      exact List.perm_append_singleton x _
    exact ⟨hperm.nodup_iff.mpr ih.1, fun y hy => ih.2 y (hperm.mem_iff.mp hy)⟩

theorem Trail.nodup (h : Trail g settled roots path visits) : (lefts visits).Nodup :=
  (List.nodup_append.mp h.fresh.1).2.1

theorem Trail.not_mem_settled (h : Trail g settled roots path visits) {x : α}
    (hx : x ∈ lefts visits) : x ∉ settled :=
  h.fresh.2 x (List.mem_append_right _ hx)

/-- Each node of the path leads to the one that was entered after it. -/
theorem Trail.chain (h : Trail g settled roots path visits) :
    path.IsChain fun x y => g.Leads y x := by
  induction h with
  | start => exact List.IsChain.nil
  | @enter path visits x _ hoff _ _ _ ih =>
    cases path with
    | nil => exact List.IsChain.singleton x
    | cons y path => exact List.isChain_cons_cons.mpr ⟨hoff, ih⟩
  | close _ _ _ ih => exact ih
  | leave _ _ ih => exact ih.of_cons

omit [DecidableEq α] in
theorem reaches_head {x : α} {path : List α}
    (h : (x :: path).IsChain fun x y => g.Leads y x) :
    ∀ y ∈ x :: path, ReflTransGen g.Leads y x := by
  induction path generalizing x with
  | nil =>
    intro y hy
    rw [List.mem_singleton.mp hy]
  | cons z path ih =>
    obtain ⟨hzx, hchain⟩ := List.isChain_cons_cons.mp h
    intro y hy
    rcases List.mem_cons.mp hy with rfl | hy
    · exact ReflTransGen.refl
    · exact (ih hchain y hy).tail hzx

/-- Every node of the path leads to the current one. -/
theorem Trail.reaches_current {x : α} (h : Trail g settled roots (x :: path) visits) {y : α}
    (hy : y ∈ x :: path) : ReflTransGen g.Leads y x :=
  reaches_head h.chain y hy

/-- A walk only enters what can be reached from its roots. -/
theorem Trail.reached (h : Trail g settled roots path visits) {x : α}
    (hx : x ∈ path ∨ x ∈ lefts visits) : ∃ root ∈ roots, ReflTransGen g.Leads root x := by
  induction h generalizing x with
  | start => exact absurd hx (by simp)
  | @enter path visits y _ hoff _ _ _ ih =>
    rw [lefts_append, lefts_entered, List.append_nil, List.mem_cons, or_assoc] at hx
    rcases hx with rfl | hx
    · cases path with
      | nil => exact ⟨x, hoff, ReflTransGen.refl⟩
      | cons z path =>
        obtain ⟨root, hroot, hz⟩ := ih (Or.inl (List.mem_cons_self ..))
        exact ⟨root, hroot, hz.tail hoff⟩
    · exact ih hx
  | close _ _ _ ih => exact ih (by simpa using hx)
  | @leave path visits y _ _ ih =>
    rw [lefts_append, lefts_left, List.mem_append, List.mem_singleton] at hx
    exact ih (by rw [List.mem_cons]; tauto)

theorem Trail.entered_iff (h : Trail g settled roots path visits) {x : α} :
    .entered x ∈ visits ↔ x ∈ path ∨ x ∈ lefts visits := by
  induction h with
  | start => simp
  | enter _ _ _ _ _ ih =>
    simp only [List.mem_append, ih, lefts_append, lefts_entered, List.append_nil,
      Visit.entered.injEq, List.mem_cons, List.not_mem_nil, or_false]
    tauto
  | close _ _ _ ih => simpa using ih
  | leave _ _ ih =>
    simp only [List.mem_append, ih, lefts_append, lefts_left, List.mem_cons, reduceCtorEq,
      List.not_mem_nil, or_false]
    tauto

/-- What a node leads to is settled, left or still being walked once the node is left. -/
theorem Trail.next_of_left (h : Trail g settled roots path visits) {x y : α}
    (hx : x ∈ lefts visits) (hy : g.Leads x y) :
    y ∈ settled ∨ y ∈ lefts visits ∨ y ∈ path := by
  induction h with
  | start => cases hx
  | enter _ _ _ _ _ ih =>
    rw [lefts_append, lefts_entered, List.append_nil] at hx ⊢
    exact (ih hx).imp_right (Or.imp_right (List.mem_cons_of_mem _))
  | close _ _ _ ih =>
    rw [lefts_append, lefts_closed, List.append_nil] at hx ⊢
    exact ih hx
  | @leave path visits z _ hdealt ih =>
    have key : y ∈ settled ∨ y ∈ lefts visits ∨ y ∈ z :: path := by
      rw [lefts_append, lefts_left, List.mem_append, List.mem_singleton] at hx
      rcases hx with hx | rfl
      · exact ih hx
      · exact (hdealt y hy).imp_right (Or.imp_right And.left)
    rw [lefts_append, lefts_left, List.mem_append, List.mem_singleton]
    rw [List.mem_cons] at key
    tauto

/-- **The order of the nodes left.**  When `x` is left, what it and the nodes before it lead
to is settled, was left before `x`, or leads to `x` itself. -/
theorem Trail.order (h : Trail g settled roots path visits) {pre : List α} {x : α}
    (hpre : pre ++ [x] <+: lefts visits) {w y : α} (hw : w ∈ pre ++ [x]) (hy : g.Leads w y) :
    y ∈ settled ∨ y ∈ pre ∨ ReflTransGen g.Leads y x := by
  induction h with
  | start => exact absurd (List.prefix_nil.mp hpre) (by simp)
  | enter _ _ _ _ _ ih => exact ih (by simpa using hpre)
  | close _ _ _ ih => exact ih (by simpa using hpre)
  | @leave path visits z ht hdealt ih =>
    rw [lefts_append, lefts_left] at hpre
    rcases List.prefix_concat_iff.mp hpre with heq | hpre
    · obtain ⟨rfl, hxz⟩ := List.append_inj' heq rfl
      obtain rfl : x = z := by simpa using hxz
      have key : y ∈ settled ∨ y ∈ lefts visits ∨ y ∈ x :: path := by
        rcases List.mem_append.mp hw with hw | hw
        · exact ht.next_of_left hw hy
        · rw [List.mem_singleton.mp hw] at hy
          exact (hdealt y hy).imp_right (Or.imp_right And.left)
      exact key.imp_right (Or.imp_right ht.reaches_current)
    · exact ih hpre

/-- **Without closed cycles, successors come first.** -/
theorem Trail.mem_of_next (h : Trail g settled roots path visits)
    (hno : ∀ cycle, .closed cycle ∉ visits) {pre : List α} {x : α}
    (hpre : pre ++ [x] <+: lefts visits) {y : α} (hy : g.Leads x y) :
    y ∈ settled ∨ y ∈ pre := by
  induction h with
  | start => exact absurd (List.prefix_nil.mp hpre) (by simp)
  | enter _ _ _ _ _ ih =>
    exact ih (fun c hc => hno c (List.mem_append_left _ hc)) (by simpa using hpre)
  | close _ _ _ ih =>
    exact ih (fun c hc => hno c (List.mem_append_left _ hc)) (by simpa using hpre)
  | @leave path visits z _ hdealt ih =>
    have hno' : ∀ cycle, .closed cycle ∉ visits := fun c hc => hno c (List.mem_append_left _ hc)
    rw [lefts_append, lefts_left] at hpre
    rcases List.prefix_concat_iff.mp hpre with heq | hpre
    · obtain ⟨rfl, hxz⟩ := List.append_inj' heq rfl
      obtain rfl : x = z := by simpa using hxz
      rcases hdealt y hy with hs | hl | ⟨-, hc⟩
      · exact Or.inl hs
      · exact Or.inr hl
      · exact absurd hc (hno' _)
    · exact ih hno' hpre

/-! ## What exploring reaches -/

/-- Whether whatever a list of nodes leads to is in it, too. -/
def Closed (g : Digraph α) (nodes : List α) : Prop :=
  ∀ x ∈ nodes, ∀ y, g.Leads x y → y ∈ nodes

omit [DecidableEq α] in
theorem Closed.mem_of_reach {nodes : List α} (h : g.Closed nodes) {x y : α} (hx : x ∈ nodes)
    (hxy : ReflTransGen g.Leads x y) : y ∈ nodes := by
  induction hxy with
  | refl => exact hx
  | tail _ hyz ih => exact h _ ih _ hyz

/-- **Exploring leaves what can be reached and was not settled.** -/
theorem mem_lefts_explore (hclosed : g.Closed settled) {x : α} :
    x ∈ lefts (g.explore settled roots) ↔
      x ∉ settled ∧ ∃ root ∈ roots, ReflTransGen g.Leads root x := by
  have ht := g.explore_trail settled roots
  constructor
  · exact fun hx => ⟨ht.not_mem_settled hx, ht.reached (Or.inr hx)⟩
  · rintro ⟨hx, root, hroot, hreach⟩
    -- What was settled and what is left are closed together, so no way leads out of them.
    have hall : g.Closed (settled ++ lefts (g.explore settled roots)) := by
      intro y hy z hz
      rcases List.mem_append.mp hy with hy | hy
      · exact List.mem_append_left _ (hclosed y hy z hz)
      · rcases ht.next_of_left hy hz with h | h | h
        · exact List.mem_append_left _ h
        · exact List.mem_append_right _ h
        · cases h
    have hmem := hall.mem_of_reach (List.mem_append.mpr (g.root_mem_lefts_explore hroot)) hreach
    exact (List.mem_append.mp hmem).resolve_left hx

theorem reachable_eq (roots : List α) : g.reachable roots = lefts (g.explore [] roots) := rfl

theorem mem_reachable {x : α} :
    x ∈ g.reachable roots ↔ ∃ root ∈ roots, ReflTransGen g.Leads root x := by
  rw [reachable_eq, mem_lefts_explore (fun _ h => absurd h List.not_mem_nil)]
  simp

theorem mem_reachable_singleton {x root : α} :
    x ∈ g.reachable [root] ↔ ReflTransGen g.Leads root x := by
  rw [mem_reachable]
  simp

theorem nodup_reachable (roots : List α) : (g.reachable roots).Nodup :=
  (g.explore_trail [] roots).nodup

/-- **A node that lies on no cycle comes after everything it leads to**, whatever cycles
there are among the others. -/
theorem mem_of_transGen {pre : List α} {x : α} (hpre : pre ++ [x] <+: g.reachable roots)
    (hx : ¬ TransGen g.Leads x x) {y : α} (hxy : TransGen g.Leads x y) : y ∈ pre := by
  have order := fun {w z : α} => (g.explore_trail [] roots).order hpre (w := w) (y := z)
  -- Along the way from `x` to `y`; a node that is not among the earlier ones leads back to `x`.
  induction hxy with
  | single hy =>
    rcases order (List.mem_append_right _ (List.mem_singleton_self _)) hy with h | h | h
    · cases h
    · exact h
    · exact absurd (TransGen.head' hy h) hx
  | tail hxz hzy ih =>
    rcases order (List.mem_append_left _ ih) hzy with h | h | h
    · cases h
    · exact h
    · exact absurd (hxz.trans_left (ReflTransGen.head hzy h)) hx

/-! ## Exploring on from settled nodes -/

/-- Adding to a record visits that leave nothing but what can be reached from `x`. -/
def Prolongs (g : Digraph α) (x : α) (visits visits' : List (Visit α)) : Prop :=
  ∃ added, visits' = visits ++ added ∧ ∀ y ∈ lefts added, ReflTransGen g.Leads x y

omit [DecidableEq α] in
theorem Prolongs.refl (x : α) (visits : List (Visit α)) : g.Prolongs x visits visits :=
  ⟨[], by simp, by simp⟩

omit [DecidableEq α] in
theorem Prolongs.trans {x : α} {visits visits' visits'' : List (Visit α)}
    (h : g.Prolongs x visits visits') (h' : g.Prolongs x visits' visits'') :
    g.Prolongs x visits visits'' := by
  obtain ⟨added, rfl, hadded⟩ := h
  obtain ⟨added', rfl, hadded'⟩ := h'
  refine ⟨added ++ added', List.append_assoc .., fun y hy => ?_⟩
  rw [lefts_append, List.mem_append] at hy
  exact hy.elim (hadded y) (hadded' y)

omit [DecidableEq α] in
theorem Prolongs.foldl {f : List (Visit α) → α → List (Visit α)} {x : α} :
    ∀ (ys : List α) (visits : List (Visit α)),
      (∀ y ∈ ys, ∀ visits, g.Prolongs x visits (f visits y)) →
      g.Prolongs x visits (ys.foldl f visits) := by
  intro ys
  induction ys with
  | nil => exact fun visits _ => Prolongs.refl x visits
  | cons y ys ih =>
    intro visits step
    exact (step y (List.mem_cons_self ..) visits).trans
      (ih _ fun z hz => step z (List.mem_cons_of_mem _ hz))

/-- A walk adds to its record, and leaves nothing that cannot be reached from its start. -/
theorem prolongs_walk (settled room path : List α) (x : α) (visits : List (Visit α)) :
    g.Prolongs x visits (g.walk settled room path x visits) := by
  induction room, path, x, visits using Digraph.walk.induct with
  | case1 room path x visits hx ih =>
    have step : ∀ y ∈ g.next x, ∀ visits,
        g.Prolongs x visits (g.onward settled room path x visits y) := by
      intro y hy visits
      unfold onward
      split
      · exact Prolongs.refl x visits
      · split
        · exact ⟨_, rfl, by simp⟩
        · obtain ⟨added, heq, hadded⟩ := ih visits y
          exact ⟨added, heq, fun z hz => ReflTransGen.head hy (hadded z hz)⟩
    have hentered : g.Prolongs x visits (visits ++ [.entered x]) := ⟨_, rfl, by simp⟩
    rw [g.walk_of_mem hx]
    refine (hentered.trans (Prolongs.foldl (g.next x) _ step)).trans ⟨_, rfl, fun y hy => ?_⟩
    rw [lefts_left, List.mem_singleton] at hy
    rw [hy]
  | case2 room path x visits hx =>
    refine ⟨[.entered x, .left x], ?_, fun y hy => ?_⟩
    · rw [g.walk_of_not_mem hx, List.append_assoc]
      rfl
    · rw [show lefts [.entered x, .left x] = [x] from rfl, List.mem_singleton] at hy
      rw [hy]

/-- Two records that differ in the settled nodes only. -/
def Agree (settled : List α) (visits visits' : List (Visit α)) : Prop :=
  lefts visits = (lefts visits').filter (· ∉ settled)

theorem Agree.append {visits visits' added added' : List (Visit α)}
    (h : Agree settled visits visits') (h' : Agree settled added added') :
    Agree settled (visits ++ added) (visits' ++ added') := by
  rw [Agree, lefts_append, lefts_append, List.filter_append, h, h']

theorem Agree.isSettled_eq {visits visits' : List (Visit α)} (h : Agree settled visits visits')
    {x : α} (hx : x ∉ settled) : isSettled settled visits x = isSettled [] visits' x := by
  rw [Bool.eq_iff_iff, isSettled_iff, isSettled_iff, h]
  simp [hx]

/-- A fold over nodes keeps two records in agreement when each of its steps does. -/
theorem Agree.foldl {f f' : List (Visit α) → α → List (Visit α)} :
    ∀ (ys : List α) (visits visits' : List (Visit α)),
      (∀ y ∈ ys, ∀ visits visits', Agree settled visits visits' →
        Agree settled (f visits y) (f' visits' y)) →
      Agree settled visits visits' → Agree settled (ys.foldl f visits) (ys.foldl f' visits') := by
  intro ys
  induction ys with
  | nil => exact fun _ _ _ h => h
  | cons y ys ih =>
    intro visits visits' step h
    exact ih _ _ (fun z hz => step z (List.mem_cons_of_mem _ hz))
      (step y (List.mem_cons_self ..) visits visits' h)

/-- Walking a settled node afresh leaves settled nodes only. -/
theorem Agree.walk_settled (hclosed : g.Closed settled) {visits visits' : List (Visit α)}
    (h : Agree settled visits visits') {x : α} (hx : x ∈ settled) (room path : List α) :
    Agree settled visits (g.walk [] room path x visits') := by
  obtain ⟨added, heq, hadded⟩ := g.prolongs_walk [] room path x visits'
  have hnone : (lefts added).filter (· ∉ settled) = [] := by
    refine List.filter_eq_nil_iff.mpr fun y hy => ?_
    simpa using hclosed.mem_of_reach hx (hadded y hy)
  rw [heq, Agree, lefts_append, List.filter_append, hnone, List.append_nil]
  exact h

/-- Walking on from settled nodes and walking afresh agree. -/
theorem Agree.walk (hclosed : g.Closed settled) {room path : List α} {x : α}
    {visits visits' : List (Visit α)} (h : Agree settled visits visits') (hx : x ∉ settled)
    (hpath : ∀ y ∈ path, y ∉ settled) :
    Agree settled (g.walk settled room path x visits) (g.walk [] room path x visits') := by
  induction room, path, x, visits using Digraph.walk.induct generalizing visits' with
  | case1 room path x visits hroom ih =>
    have hpath' : ∀ y ∈ x :: path, y ∉ settled := List.forall_mem_cons.mpr ⟨hx, hpath⟩
    rw [g.walk_of_mem hroom, g.walk_of_mem hroom]
    refine Agree.append ?_ (by simp [Agree, hx])
    refine Agree.foldl _ _ _ ?_ (h.append (by simp [Agree]))
    intro y _ visits visits' h
    unfold onward
    -- The one walk passes by a settled successor, the other may walk it.
    by_cases hy : y ∈ settled
    · rw [if_pos (isSettled_iff.mpr (Or.inl hy)), if_neg (fun hp => hpath' y hp hy)]
      split
      · exact h
      · exact h.walk_settled hclosed hy _ _
    · rw [h.isSettled_eq hy]
      split
      · exact h
      · split
        · exact h.append (by simp [Agree])
        · exact ih visits y h hy hpath'
  | case2 room path x visits hroom =>
    rw [g.walk_of_not_mem hroom, g.walk_of_not_mem hroom]
    exact (h.append (by simp [Agree])).append (by simp [Agree, hx])

/-- **Exploring on lists what exploring afresh does, without the settled nodes.** -/
theorem lefts_explore_settled (hclosed : g.Closed settled) :
    lefts (g.explore settled roots) = (g.reachable roots).filter (· ∉ settled) := by
  refine Agree.foldl roots [] [] ?_ (by simp [Agree])
  intro root _ visits visits' h
  by_cases hroot : root ∈ settled
  · rw [if_pos (isSettled_iff.mpr (Or.inl hroot))]
    split
    · exact h
    · exact h.walk_settled hclosed hroot _ _
  · rw [h.isSettled_eq hroot]
    split
    · exact h
    · exact h.walk hclosed hroot (fun _ hy => absurd hy List.not_mem_nil)

/-- The root of a walk is left last. -/
theorem reachable_singleton (x : α) :
    g.reachable [x] = (g.reachable [x]).filter (· ≠ x) ++ [x] := by
  have hlast : ∃ init, g.reachable [x] = init ++ [x] := by
    rw [reachable_eq, show g.explore [] [x] = g.walk [] g.nodes [] x [] from rfl]
    by_cases hx : x ∈ g.nodes
    · rw [g.walk_of_mem hx, lefts_append, lefts_left]
      exact ⟨_, rfl⟩
    · rw [g.walk_of_not_mem hx, lefts_append, lefts_left]
      exact ⟨_, rfl⟩
  obtain ⟨init, hinit⟩ := hlast
  have hnodup := g.nodup_reachable [x]
  rw [hinit] at hnodup ⊢
  have hx : x ∉ init := fun hx =>
    (List.nodup_append.mp hnodup).2.2 x hx x (List.mem_singleton_self x) rfl
  have hkeep : init.filter (· ≠ x) = init := by
    refine List.filter_eq_self.mpr fun y hy => decide_eq_true ?_
    rintro rfl
    exact hx hy
  rw [List.filter_append, hkeep]
  simp

/-! ## Roots in order -/

/-- Exploring from a further root. -/
theorem explore_concat (roots : List α) (x : α) :
    g.explore settled (roots ++ [x]) =
      if isSettled settled (g.explore settled roots) x then g.explore settled roots
      else g.walk settled g.nodes [] x (g.explore settled roots) := by
  rw [explore, List.foldl_append]
  rfl

/-- Going on to settled successors changes nothing. -/
theorem foldl_onward_of_settled {room : List α} {x : α} :
    ∀ ys : List α, (∀ y ∈ ys, isSettled settled visits y = true) →
      ys.foldl (g.onward settled room path x) visits = visits := by
  intro ys
  induction ys with
  | nil => exact fun _ => rfl
  | cons y ys ih =>
    intro h
    rw [List.foldl_cons, onward, if_pos (h y (List.mem_cons_self ..))]
    exact ih fun z hz => h z (List.mem_cons_of_mem _ hz)

/-- **Roots that follow whatever they lead to are visited one by one**, in their order. -/
theorem explore_of_ordered (roots : List α) (hnodup : roots.Nodup)
    (hordered : ∀ pre x, pre ++ [x] <+: roots → ∀ y, g.Leads x y → y ∈ pre) :
    g.explore [] roots = roots.flatMap fun x => [.entered x, .left x] := by
  induction roots using List.reverseRecOn with
  | nil => rfl
  | append_singleton roots x ih =>
    obtain ⟨hnodup, -, hdisjoint⟩ := List.nodup_append.mp hnodup
    have hx : x ∉ roots := fun h => hdisjoint x h x (List.mem_singleton_self x) rfl
    have hih := ih hnodup fun pre y hpre => hordered pre y (hpre.trans (List.prefix_append _ _))
    -- Walking `x` finds all its successors left, so it goes on to none of them.
    have hsettled : ∀ y ∈ g.next x,
        isSettled [] ((roots.flatMap fun x => [.entered x, .left x]) ++ [.entered x]) y = true := by
      intro y hy
      rw [isSettled_iff, lefts_append, lefts_flatMap, lefts_entered, List.append_nil]
      exact Or.inr (hordered roots x (List.prefix_refl _) y hy)
    rw [explore_concat, hih, if_neg (by rw [isSettled_iff, lefts_flatMap]; simpa using hx),
      List.flatMap_append]
    by_cases hmem : x ∈ g.nodes
    · rw [g.walk_of_mem hmem, foldl_onward_of_settled _ hsettled, List.append_assoc]
      rfl
    · rw [g.walk_of_not_mem hmem, List.append_assoc]
      rfl

end Provision.Plan.Digraph
