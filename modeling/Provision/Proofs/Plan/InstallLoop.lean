import Provision.Proofs.Plan.Inquiry
import Provision.Proofs.Plan.StackWalk

/-!
# Expanding an install with a stack

The loop that expands an install keeps the packages being walked on a stack, each with the number
of the next dependency to look at, and their keys as a set of its own.  It passes by a dependency
that is present, stops at one that is on the stack, unknown or not made for the target, and puts
any other on the stack; a package without a further dependency is taken off and added.

The loop walks (`InstallLoop.walks`), so it ends whatever packages depend on, and answers what
`expandInstallNoting` does (`exists_ends_installLoop`).
-/
open Provision.Plan.Digraph

namespace Provision.Plan
open Visit Resolver

/-- A list whose rest from the `n`th entry on starts with an entry. -/
theorem getElem?_of_cons_eq_drop {α : Type} {xs ys : List α} {y : α} {n : Nat}
    (h : y :: ys = xs.drop n) : xs[n]? = some y ∧ ys = xs.drop (n + 1) := by
  rw [← List.head?_drop, ← List.tail_drop, ← h]
  exact ⟨rfl, rfl⟩

theorem getElem?_of_nil_eq_drop {α : Type} {xs : List α} {n : Nat} (h : [] = xs.drop n) :
    xs[n]? = none := by
  rw [← List.head?_drop, ← h]
  rfl

/-- **The state of the loop** that expands an install. -/
structure InstallLoop where
  /-- The packages being walked, the latest first, each with the number of its dependencies that
  have been looked at. -/
  path : List (Package × Nat)
  /-- The keys of these packages. -/
  onPath : List PackageKey
  draft : Draft
  inquiries : Inquiries

namespace InstallLoop

/-- The loop before its first turn. -/
def start (s : Draft × Inquiries) (root : Package) : InstallLoop where
  path := [(root, 0)]
  onPath := [root.key]
  draft := s.1
  inquiries := s.2

variable (r : Resolver) (root : PackageKey) (target : Target)

/-- What is done about a dependency of the package on top of the stack. -/
def look (l : InstallLoop) (dependency : PackageKey) :
    InstallLoop ⊕ Noted (Draft × Inquiries) :=
  if l.draft.needs dependency target then .inl l
  else if dependency ∈ l.onPath then
    .inr (.error (.dependency (.cycle (backTo (l.path.map fun e => e.1.key) dependency)),
      l.inquiries))
  else
    match r.snapshot.get? dependency with
    | none => .inr (.error (.unknownPackage dependency, l.inquiries))
    | some required =>
      if required.supports target then
        .inl { l with path := (required, 0) :: l.path, onPath := dependency :: l.onPath }
      else .inr (.error (unsupported required target, l.inquiries))

/-- **One turn**: the package on top looks at its next dependency, or is taken off and added. -/
def turn (l : InstallLoop) : InstallLoop ⊕ Noted (Draft × Inquiries) :=
  match l.path with
  | [] => .inr (.ok (l.draft, l.inquiries))
  | (p, next) :: below =>
    match p.dependencies[next]? with
    | some dependency => look r target { l with path := (p, next + 1) :: below } dependency
    | none =>
      match r.addInstallNoting (l.draft, l.inquiries) p target below.isEmpty with
      | .ok (draft, inquiries) =>
        .inl ⟨below, l.onPath.filter (· ≠ p.key), draft, inquiries⟩
      | .error refusal => .inr (.error refusal)

/-- A package of the stack as the walk knows it: with the dependencies still to look at. -/
def Shows (x : PackageKey × List PackageKey) (e : Package × Nat) : Prop :=
  r.snapshot.get? x.1 = some e.1 ∧ x.2 = e.1.dependencies.drop e.2

/-- Where the loop is on a walk that passes by the packages in `settled`. -/
structure At (settled : List PackageKey) (stack : List (PackageKey × List PackageKey))
    (visits : List (Visit PackageKey)) (s : Draft × Inquiries) (l : InstallLoop) : Prop where
  path : List.Forall₂ (Shows r) stack l.path
  onPath : ∀ key, key ∈ l.onPath ↔ key ∈ stack.map Prod.fst
  draft : (l.draft, l.inquiries) = s
  present : ∀ key, (key, target) ∈ s.1.places ↔ key ∈ settled ∨ key ∈ lefts visits

variable {r root target} {settled : List PackageKey} {x y : PackageKey} {ys : List PackageKey}
  {stack below : List (PackageKey × List PackageKey)} {visits : List (Visit PackageKey)}
  {s : Draft × Inquiries} {l : InstallLoop}

theorem map_key_of_shows {path : List (Package × Nat)} (h : List.Forall₂ (Shows r) stack path) :
    path.map (fun e => e.1.key) = stack.map Prod.fst := by
  induction h with
  | nil => rfl
  | cons hshows _ ih =>
    rw [List.map_cons, List.map_cons, ih, (Snapshot.mem_of_get? hshows.1).2]

/-- A package that looks at a dependency does so in one turn. -/
theorem At.exists_look (h : At r target settled ((x, y :: ys) :: below) visits s l) :
    ∃ path, turn r target l = look r target { l with path } y ∧
      At r target settled ((x, ys) :: below) visits s { l with path } := by
  obtain ⟨hpath, honPath, hdraft, hpresent⟩ := h
  rcases l with ⟨path, onPath, draft, inquiries⟩
  cases hpath with
  | @cons _ e _ rest hshows hrest =>
    obtain ⟨p, next⟩ := e
    obtain ⟨hget, hnext⟩ := hshows
    obtain ⟨hdependency, hys⟩ := getElem?_of_cons_eq_drop hnext
    refine ⟨(p, next + 1) :: rest, ?_, ⟨.cons ⟨hget, hys⟩ hrest, honPath, hdraft, hpresent⟩⟩
    rw [turn]
    simp only [hdependency]

theorem At.needs_iff (h : At r target settled stack visits s l) :
    l.draft.needs y target = true ↔ y ∈ settled ∨ y ∈ lefts visits := by
  rw [Draft.needs_iff, ← h.present, ← h.draft]

theorem At.enter (h : At r target settled stack visits s l) {p : Package}
    (hget : r.snapshot.get? y = some p) :
    At r target settled ((y, r.dependencies.next y) :: stack) (visits ++ [.entered y]) s
      { l with path := (p, 0) :: l.path, onPath := y :: l.onPath } where
  path := by
    refine .cons ⟨hget, ?_⟩ h.path
    rw [List.drop_zero]
    change r.snapshot.dependenciesOf y = p.dependencies
    rw [Snapshot.dependenciesOf, hget]
  onPath key := by rw [List.mem_cons, List.map_cons, List.mem_cons, h.onPath]
  draft := h.draft
  present key := by rw [h.present, lefts_append, lefts_entered, List.append_nil]

/-- The loop starts with the root on its stack. -/
theorem at_start (s : Draft × Inquiries) {p : Package} (hget : r.snapshot.get? root = some p) :
    At r target (s.1.presentAt target) [(root, r.dependencies.next root)] [.entered root] s
      (.start s p) := by
  obtain rfl := (Snapshot.mem_of_get? hget).2
  have hbefore : At r target (s.1.presentAt target) [] [] s ⟨[], [], s.1, s.2⟩ :=
    ⟨.nil, by simp, rfl, fun key => by simp [Draft.mem_presentAt]⟩
  exact hbefore.enter hget

/-- It ends with an empty stack. -/
theorem At.turn_of_nil (h : At r target settled [] visits s l) :
    turn r target l = .inr (.ok s) := by
  obtain ⟨path, onPath, draft, inquiries⟩ := l
  obtain ⟨hpath, -, rfl, -⟩ := h
  cases hpath
  rfl

/-- A package that is present now is taken off the stack. -/
theorem At.leave {rest : List (Package × Nat)} {draft' : Draft} {inquiries' : Inquiries}
    (h : At r target settled ((x, []) :: below) visits s l)
    (ht : (x :: below.map Prod.fst).Nodup) (hrest : List.Forall₂ (Shows r) below rest)
    (hplaces : draft'.places = (x, target) :: s.1.places) :
    At r target settled below (visits ++ [.left x]) (draft', inquiries')
      ⟨rest, l.onPath.filter (· ≠ x), draft', inquiries'⟩ where
  path := hrest
  onPath key := by
    have hx := (List.nodup_cons.mp ht).1
    rw [List.mem_filter, h.onPath, List.map_cons, List.mem_cons, decide_eq_true_eq]
    constructor
    · rintro ⟨rfl | hkey, hne⟩
      · exact absurd rfl hne
      · exact hkey
    · intro hkey
      refine ⟨Or.inr hkey, ?_⟩
      rintro rfl
      exact hx hkey
  draft := rfl
  present key := by
    rw [hplaces, List.mem_cons, h.present, lefts_append, lefts_left, List.mem_append,
      List.mem_singleton, Prod.mk.injEq, and_iff_left rfl]
    tauto

/-- **The loop walks** the dependencies. -/
theorem walks : r.dependencies.Walks settled [root] (turn r target)
    (r.installVisitNoting root target) (At r target settled) where
  skip _ h hsettled := by
    obtain ⟨path, hturn, hat⟩ := h.exists_look
    refine ⟨_, hturn.trans ?_, hat⟩
    rw [look, if_pos (hat.needs_iff.mpr hsettled)]
  close {x y ys below visits s l} ht h hns hnl hpath := by
    obtain ⟨path, hturn, hat⟩ := h.exists_look
    have hkeys := map_key_of_shows hat.path
    rw [Takes, hturn, look, if_neg fun hneeds => (hat.needs_iff.mp hneeds).elim hns hnl,
      if_pos ((hat.onPath y).mpr hpath), hkeys]
    change Sum.inr (Except.error (TransactionError.dependency (.cycle
      (backTo (x :: below.map Prod.fst) y)), l.inquiries)) = _
    rw [backTo_eq_cycleTo ht.nodup_path hpath, ← hat.draft]
  enter {x y ys below visits s l} ht h hns hnl hpath := by
    obtain ⟨path, hturn, hat⟩ := h.exists_look
    have hinquiries : l.inquiries = s.2 := congrArg Prod.snd hat.draft
    rw [Takes, hturn, look, if_neg fun hneeds => (hat.needs_iff.mp hneeds).elim hns hnl,
      if_neg fun honPath => hpath ((hat.onPath y).mp honPath), installVisitNoting_entered,
      installVisit]
    cases hget : r.snapshot.get? y with
    | none => exact congrArg (fun i => Sum.inr (Except.error (_, i))) hinquiries
    | some p =>
      by_cases hsupports : p.supports target = true
      · simp only [hsupports, if_true]
        exact ⟨_, rfl, hat.enter hget⟩
      · simp only [hsupports]
        exact congrArg (fun i => Sum.inr (Except.error (_, i))) hinquiries
  leave {x below visits s l} ht h := by
    have hnodup := ht.nodup_path
    have hroot := ht.below_eq_nil_iff
    obtain ⟨path, onPath, draft, inquiries⟩ := l
    have hpath := h.path
    cases hpath with
    | @cons _ e _ rest hshows hrest =>
      obtain ⟨p, next⟩ := e
      obtain ⟨hget, hnext⟩ := hshows
      obtain rfl := (Snapshot.mem_of_get? hget).2
      -- Only the package that was asked for has nothing below it.
      have hexplicit : rest.isEmpty = decide (p.key = root) := by
        rw [Bool.eq_iff_iff, List.isEmpty_iff, decide_eq_true_eq, ← hroot, List.map_eq_nil_iff]
        cases hrest <;> simp
      have hs := h.draft
      dsimp only at hs
      rw [Takes, turn, installVisitNoting]
      simp only [getElem?_of_nil_eq_drop hnext, hget, hs, hexplicit]
      rcases hadd : r.addInstallNoting s p target (decide (p.key = root)) with
        refusal | ⟨draft', inquiries'⟩
      · rfl
      · obtain ⟨hok, -⟩ := Noted.noting_eq_ok_iff.mp hadd
        exact ⟨_, rfl, h.leave hnodup hrest (places_addInstall hok)⟩

end InstallLoop

/-- **The loop that expands an install ends**, and answers what `expandInstallNoting` does. -/
theorem exists_ends_installLoop {r : Resolver} {p : Package} {root : PackageKey} {target : Target}
    (s : Draft × Inquiries) (hget : r.snapshot.get? root = some p)
    (hsupports : p.supports target = true) (hneeds : s.1.needs root target = false) :
    ∃ n ≤ r.dependencies.effort (lefts (r.dependencies.explore (s.1.presentAt target) [root])),
      Ends (InstallLoop.turn r target) n (.start s p) (r.expandInstallNoting s root target) := by
  have hroot : root ∉ s.1.presentAt target := by
    rw [Draft.mem_presentAt, ← Draft.needs_iff, hneeds]
    exact Bool.false_ne_true
  obtain ⟨added, hexplore, n, hn, hends⟩ :=
    InstallLoop.walks.exists_ends hroot (fun _ _ _ hlast => hlast.turn_of_nil)
      (InstallLoop.at_start s hget)
  refine ⟨n, hn, ?_⟩
  have hentered : r.installVisitNoting root target s (.entered root) = .ok s := by
    rw [installVisitNoting_entered, installVisit, hget]
    simp only [hsupports, if_true]
    rfl
  rw [expandInstallNoting, if_neg (by simp [hneeds]), hexplore, List.foldlM_cons, hentered]
  exact hends

end Provision.Plan
