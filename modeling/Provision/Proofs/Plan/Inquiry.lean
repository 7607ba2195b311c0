import Provision.Proofs.Plan.Resolution

/-!
# What the store is asked for installs

Adding an install asks the store for the status of the package, once.  `resolveNoting` is
`resolve` with a note of each of these questions, also of those that came before a refusal
(`answer_resolveNoting`).  A package is only added at a target where it was not present, and is
present from then on, so no question is asked twice (`nodup_resolveNoting`).
-/
namespace Provision.Plan
open Visit Resolver

variable {α β γ : Type}

/-! ## Notes -/

/-- What the store has been asked for: the status of a package at a target. -/
abbrev Inquiries := List (PackageKey × Target)

/-- Work whose answer comes with a note of the questions that were asked before, whether it is
refused or not. -/
abbrev Noted := Except (TransactionError × Inquiries)

/-- Puts a note on an answer. -/
def noting (inquiries : Inquiries) : Except TransactionError α → Noted (α × Inquiries)
  | .ok value => .ok (value, inquiries)
  | .error cause => .error (cause, inquiries)

namespace Noted

/-- The answer without the note. -/
def answer : Noted (α × Inquiries) → Except TransactionError α
  | .ok (value, _) => .ok value
  | .error (cause, _) => .error cause

/-- The note. -/
def inquiries : Noted (α × Inquiries) → Inquiries
  | .ok (_, inquiries) => inquiries
  | .error (_, inquiries) => inquiries

theorem answer_noting (inquiries : Inquiries) (x : Except TransactionError α) :
    answer (noting inquiries x) = x := by
  cases x <;> rfl

theorem inquiries_noting (inquiries : Inquiries) (x : Except TransactionError α) :
    Noted.inquiries (noting inquiries x) = inquiries := by
  cases x <;> rfl

theorem noting_eq_ok_iff {x : Except TransactionError α} {inquiries inquiries' : Inquiries}
    {value : α} : noting inquiries x = .ok (value, inquiries') ↔
      x = .ok value ∧ inquiries' = inquiries := by
  cases x with
  | ok value' => simp [noting, eq_comm (a := inquiries)]
  | error cause => simp [noting]

theorem answer_bind {x : Noted (α × Inquiries)} {f : α × Inquiries → Noted (β × Inquiries)}
    {g : α → Except TransactionError β} (h : ∀ value, answer (f value) = g value.1) :
    answer (x >>= f) = answer x >>= g := by
  rcases x with ⟨cause, inquiries⟩ | value
  · rfl
  · exact h value

/-- Notes make no difference to what a list comes to. -/
theorem answer_foldlM {f : α × Inquiries → γ → Noted (α × Inquiries)}
    {g : α → γ → Except TransactionError α} (h : ∀ s x, answer (f s x) = g s.1 x) (xs : List γ)
    (s : α × Inquiries) : answer (xs.foldlM f s) = xs.foldlM g s.1 := by
  induction xs generalizing s with
  | nil => rfl
  | cons x xs ih =>
    rw [List.foldlM_cons, List.foldlM_cons, answer_bind (g := fun b => xs.foldlM g b) ih, h]

end Noted

/-! ## Resolving with notes -/

namespace Resolver

variable (r : Resolver)

/-- `addInstall`, with a note of the package that it asks for. -/
def addInstallNoting (s : Draft × Inquiries) (p : Package) (target : Target) (explicit : Bool) :
    Noted (Draft × Inquiries) :=
  noting (s.2 ++ [(p.key, target)]) (r.addInstall s.1 p target explicit)

/-- `installVisit`, with a note. -/
def installVisitNoting (root : PackageKey) (target : Target) (s : Draft × Inquiries) :
    Visit PackageKey → Noted (Draft × Inquiries)
  | .left key =>
    match r.snapshot.get? key with
    | none => .error (.unknownPackage key, s.2)
    | some p => r.addInstallNoting s p target (key = root)
  | visit => noting s.2 (r.installVisit root target s.1 visit)

/-- `expandInstall`, with notes. -/
def expandInstallNoting (s : Draft × Inquiries) (root : PackageKey) (target : Target) :
    Noted (Draft × Inquiries) :=
  if s.1.needs root target then noting s.2 (r.expandInstall s.1 root target)
  else
    (r.dependencies.explore (s.1.presentAt target) [root]).foldlM
      (r.installVisitNoting root target) s

/-- `expand`, with notes. -/
def expandNoting (requested : List (PackageKey × Target)) (s : Draft × Inquiries)
    (a : Action × Package) : Noted (Draft × Inquiries) :=
  match a.1.kind with
  | .install => r.expandInstallNoting s a.2.key a.1.target
  | .uninstall => noting s.2 (r.expand requested s.1 a)

/-- What is done with a draft once all actions have been expanded. -/
def conclude (requested : List (PackageKey × Target)) (draft : Draft) :
    Except TransactionError (List Step) := do
  let draft := { draft with graph := r.orderUninstalls draft.graph }
  checkContradictions draft requested
  match draft.graph.ordered with
  | .error e => .error (.dependency e)
  | .ok order => .ok (toSteps draft.graph order)

/-- **`resolve`, with notes** of what the store was asked for installs. -/
def resolveNoting (actions : List Action) : Noted (List Step × Inquiries) := do
  let (packages, inquiries) ← noting [] (actions.mapM r.requestedPackage)
  let requested := requestedRemovals actions
  let (draft, inquiries) ←
    (actions.zip packages).foldlM (r.expandNoting requested) (Draft.empty, inquiries)
  noting inquiries (r.conclude requested draft)

end Resolver

variable {r : Resolver} {s s' : Draft × Inquiries} {root : PackageKey} {target : Target}
  {requested : List (PackageKey × Target)} {v : Visit PackageKey}
  {visits : List (Visit PackageKey)}

/-! ## Notes make no difference -/

theorem answer_installVisitNoting (s : Draft × Inquiries) (v : Visit PackageKey) :
    Noted.answer (r.installVisitNoting root target s v) = r.installVisit root target s.1 v := by
  cases v with
  | left key =>
    rw [installVisitNoting, installVisit]
    cases r.snapshot.get? key with
    | none => rfl
    | some p => exact Noted.answer_noting _ _
  | entered key => exact Noted.answer_noting _ _
  | closed path => rfl

theorem answer_expandInstallNoting (s : Draft × Inquiries) (root : PackageKey) (target : Target) :
    Noted.answer (r.expandInstallNoting s root target) = r.expandInstall s.1 root target := by
  rw [expandInstallNoting]
  split
  · exact Noted.answer_noting _ _
  · rename_i hneeds
    rw [Noted.answer_foldlM answer_installVisitNoting, expandInstall, if_neg hneeds]

theorem answer_expandNoting (s : Draft × Inquiries) (a : Action × Package) :
    Noted.answer (r.expandNoting requested s a) = r.expand requested s.1 a := by
  rw [expandNoting]
  cases hkind : a.1.kind with
  | install =>
    rw [expand, hkind]
    exact answer_expandInstallNoting _ _ _
  | uninstall => exact Noted.answer_noting _ _

/-- **Notes make no difference to what is resolved.** -/
theorem answer_resolveNoting (actions : List Action) :
    Noted.answer (r.resolveNoting actions) = r.resolve actions := by
  rw [resolveNoting, Noted.answer_bind (g := fun packages =>
    (actions.zip packages).foldlM (r.expand (requestedRemovals actions)) Draft.empty >>=
      r.conclude (requestedRemovals actions)), Noted.answer_noting]
  · rfl
  · rintro ⟨packages, inquiries⟩
    rw [Noted.answer_bind (g := r.conclude (requestedRemovals actions)),
      Noted.answer_foldlM answer_expandNoting]
    exact fun _ => Noted.answer_noting _ _

/-! ## No question is asked twice -/

/-- What the packages left on a walk are asked for. -/
def asking (target : Target) (visits : List (Visit PackageKey)) : Inquiries :=
  (lefts visits).map (·, target)

theorem asking_cons (target : Target) (v : Visit PackageKey) (visits : List (Visit PackageKey)) :
    asking target (v :: visits) = asking target [v] ++ asking target visits := by
  rw [asking, ← List.singleton_append, lefts_append, List.map_append]
  rfl

theorem places_addInstall {d d' : Draft} {p : Package} {explicit : Bool}
    (h : r.addInstall d p target explicit = .ok d') : d'.places = (p.key, target) :: d.places := by
  have hknown := known_of_addInstall h
  by_cases hstatus : r.status p.key target = .upToDate
  · rw [addInstall_of_upToDate hstatus] at h
    cases h
    rfl
  · rw [addInstall_of_known hknown hstatus] at h
    cases h
    rfl

/-- A package that is entered is not asked for. -/
theorem installVisitNoting_entered (s : Draft × Inquiries) (key : PackageKey) :
    r.installVisitNoting root target s (.entered key) =
      noting s.2 (r.installVisit root target s.1 (.entered key)) := rfl

/-- A package that is left is asked for, if there is one. -/
theorem installVisitNoting_left (s : Draft × Inquiries) {p : Package} {key : PackageKey}
    (hget : r.snapshot.get? key = some p) :
    r.installVisitNoting root target s (.left key) =
      noting (s.2 ++ [(key, target)]) (r.addInstall s.1 p target (key = root)) := by
  obtain rfl := (Snapshot.mem_of_get? hget).2
  rw [installVisitNoting, hget]
  rfl

/-- A visit that is taken over asks for the package that was left, which is present then. -/
theorem installVisitNoting_eq_ok (h : r.installVisitNoting root target s v = .ok s') :
    s'.1.places = (asking target [v]).reverse ++ s.1.places ∧ s'.2 = s.2 ++ asking target [v] := by
  cases v with
  | left key =>
    cases hget : r.snapshot.get? key with
    | none =>
      rw [installVisitNoting, hget] at h
      cases h
    | some p =>
      rw [installVisitNoting_left s hget] at h
      obtain ⟨hadd, hnote⟩ := Noted.noting_eq_ok_iff.mp h
      obtain rfl := (Snapshot.mem_of_get? hget).2
      exact ⟨places_addInstall hadd, hnote⟩
  | entered key =>
    rw [installVisitNoting_entered] at h
    obtain ⟨hvisit, hnote⟩ := Noted.noting_eq_ok_iff.mp h
    obtain ⟨hdraft, -⟩ := installVisit_entered.mp hvisit
    exact ⟨congrArg Draft.places hdraft, hnote.trans (List.append_nil _).symm⟩
  | closed path => cases h

/-- A visit asks for no more, whether it is taken over or refused. -/
theorem inquiries_installVisitNoting (s : Draft × Inquiries) (v : Visit PackageKey) :
    Noted.inquiries (r.installVisitNoting root target s v) <+: s.2 ++ asking target [v] := by
  cases v with
  | left key =>
    cases hget : r.snapshot.get? key with
    | none =>
      rw [installVisitNoting, hget]
      exact List.prefix_append _ _
    | some p =>
      rw [installVisitNoting_left s hget, Noted.inquiries_noting]
      exact List.prefix_rfl
  | entered key =>
    rw [installVisitNoting_entered, Noted.inquiries_noting]
    exact List.prefix_append _ _
  | closed path => exact List.prefix_append _ _

/-- What a walk asks for, if its visits are taken over. -/
theorem foldlM_installVisitNoting_eq_ok
    (h : visits.foldlM (r.installVisitNoting root target) s = .ok s') :
    s'.1.places = (asking target visits).reverse ++ s.1.places ∧
      s'.2 = s.2 ++ asking target visits := by
  induction visits generalizing s with
  | nil =>
    cases h
    exact ⟨rfl, (List.append_nil _).symm⟩
  | cons v visits ih =>
    rw [List.foldlM_cons, bind_eq_ok] at h
    obtain ⟨c, hc, h⟩ := h
    obtain ⟨hplaces, hnote⟩ := installVisitNoting_eq_ok hc
    obtain ⟨hplaces', hnote'⟩ := ih h
    rw [asking_cons, List.reverse_append]
    refine ⟨by rw [hplaces', hplaces, List.append_assoc], by rw [hnote', hnote, List.append_assoc]⟩

/-- It asks for no more, if one of them is refused. -/
theorem inquiries_foldlM_installVisitNoting (visits : List (Visit PackageKey))
    (s : Draft × Inquiries) :
    Noted.inquiries (visits.foldlM (r.installVisitNoting root target) s) <+:
      s.2 ++ asking target visits := by
  induction visits generalizing s with
  | nil => exact List.prefix_append _ _
  | cons v visits ih =>
    have hasked : Noted.inquiries (r.installVisitNoting root target s v) <+: _ :=
      inquiries_installVisitNoting s v
    rw [List.foldlM_cons, asking_cons, ← List.append_assoc]
    rcases hvisit : r.installVisitNoting root target s v with ⟨cause, inquiries⟩ | s'
    · rw [hvisit] at hasked
      exact hasked.trans (List.prefix_append _ _)
    · rw [← (installVisitNoting_eq_ok hvisit).2]
      exact ih s'

/-- **A draft whose notes are in order**: the packages that were asked for are those that are
present, each once. -/
structure Accounted (s : Draft × Inquiries) : Prop where
  inquiries : s.2 = s.1.places.reverse
  nodup : s.1.places.Nodup

theorem Accounted.nodup_inquiries (h : Accounted s) : s.2.Nodup := by
  rw [h.inquiries]
  exact List.nodup_reverse.mpr h.nodup

/-- **Work that asks for nothing again**: what it has asked for is noted once, and the draft that it
comes to is in order. -/
structure Sparing (x : Noted (Draft × Inquiries)) : Prop where
  nodup : (Noted.inquiries x).Nodup
  accounted : ∀ s', x = .ok s' → Accounted s'

/-- Work that asks for nothing, and leaves as they are the packages that are present. -/
theorem Accounted.sparing_noting (h : Accounted s) {x : Except TransactionError Draft}
    (hplaces : ∀ d', x = .ok d' → d'.places = s.1.places) : Sparing (noting s.2 x) where
  nodup := by
    rw [Noted.inquiries_noting]
    exact h.nodup_inquiries
  accounted s' hs' := by
    obtain ⟨hok, hnote⟩ := Noted.noting_eq_ok_iff.mp hs'
    have hsame := hplaces _ hok
    exact ⟨by rw [hnote, hsame, h.inquiries], hsame ▸ h.nodup⟩

/-- A walk from settled packages asks for none of them, and for no other twice. -/
theorem Accounted.nodup_asking (h : Accounted s) {path : List PackageKey} {roots : List PackageKey}
    (ht : Digraph.Trail r.dependencies (s.1.presentAt target) roots path visits) :
    (s.2 ++ asking target visits).Nodup := by
  refine List.nodup_append.mpr ⟨h.nodup_inquiries, ?_, ?_⟩
  · exact ht.nodup.map fun x y heq => (Prod.mk.inj heq).1
  · rintro place hplace _ hasked rfl
    obtain ⟨key, hkey, rfl⟩ := List.mem_map.mp hasked
    rw [h.inquiries, List.mem_reverse] at hplace
    exact ht.not_mem_settled hkey (Draft.mem_presentAt.mpr hplace)

theorem places_expandInstall_of_needs {d d' : Draft} (hneeds : d.needs root target = true)
    (h : r.expandInstall d root target = .ok d') : d'.places = d.places := by
  rw [expandInstall, if_pos hneeds] at h
  cases hfind : d.graph.find? root target .install with
  | none =>
    rw [hfind] at h
    cases h
    rfl
  | some i =>
    rw [hfind] at h
    cases h
    rfl

/-- **An install asks for no package again.** -/
theorem Accounted.sparing_expandInstallNoting (h : Accounted s) (r : Resolver) (root : PackageKey)
    (target : Target) : Sparing (r.expandInstallNoting s root target) := by
  rw [expandInstallNoting]
  split
  · rename_i hneeds
    exact h.sparing_noting fun d' => places_expandInstall_of_needs hneeds
  · have hnodup := h.nodup_asking (r.dependencies.explore_trail (s.1.presentAt target) [root])
    refine ⟨hnodup.sublist (inquiries_foldlM_installVisitNoting _ s).sublist, fun s' hs' => ?_⟩
    obtain ⟨hplaces, hnote⟩ := foldlM_installVisitNoting_eq_ok hs'
    have hreverse : s'.2 = s'.1.places.reverse := by
      rw [hplaces, List.reverse_append, List.reverse_reverse, ← h.inquiries, hnote]
    rw [← hnote] at hnodup
    exact ⟨hreverse, List.nodup_reverse.mp (hreverse ▸ hnodup)⟩

theorem present_expandUninstall {d d' : Draft} {p : Package} {names : List PackageKey}
    (h : r.expandUninstall d p target names = .ok d') : d'.present = d.present := by
  have hnames : ∀ key, key ∈ names ↔ (key, target) ∈ names.map (·, target) := by simp
  rw [((expandUninstall_eq_ok_iff hnames).mp h).2]
  split <;> rfl

theorem Accounted.sparing_expandNoting (h : Accounted s) (r : Resolver)
    (requested : List (PackageKey × Target)) (a : Action × Package) :
    Sparing (r.expandNoting requested s a) := by
  rw [expandNoting]
  cases hkind : a.1.kind with
  | install => exact h.sparing_expandInstallNoting r a.2.key a.1.target
  | uninstall =>
    refine h.sparing_noting fun d' hexpand => ?_
    rw [expand, hkind] at hexpand
    exact congrArg (List.map Prod.fst) (present_expandUninstall hexpand)

theorem Accounted.nodup_foldlM_expandNoting (h : Accounted s) (r : Resolver)
    (requested : List (PackageKey × Target)) (pairs : List (Action × Package)) :
    (Noted.inquiries (pairs.foldlM (r.expandNoting requested) s)).Nodup := by
  induction pairs generalizing s with
  | nil => exact h.nodup_inquiries
  | cons a pairs ih =>
    have hsparing := h.sparing_expandNoting r requested a
    rw [List.foldlM_cons]
    rcases hexpand : r.expandNoting requested s a with ⟨cause, inquiries⟩ | s'
    · rw [hexpand] at hsparing
      exact hsparing.nodup
    · exact ih (hsparing.accounted s' hexpand)

/-- **For installs, the store is asked at most once** for each package and target. -/
theorem nodup_resolveNoting (actions : List Action) :
    (Noted.inquiries (r.resolveNoting actions)).Nodup := by
  have hempty : Accounted (Draft.empty, []) := ⟨rfl, List.nodup_nil⟩
  rw [resolveNoting]
  cases actions.mapM r.requestedPackage with
  | error cause => exact List.nodup_nil
  | ok packages =>
    have hnodup := hempty.nodup_foldlM_expandNoting r (requestedRemovals actions)
      (actions.zip packages)
    change (Noted.inquiries ((actions.zip packages).foldlM
      (r.expandNoting (requestedRemovals actions)) (Draft.empty, []) >>= _)).Nodup
    rcases hfold : (actions.zip packages).foldlM (r.expandNoting (requestedRemovals actions))
        (Draft.empty, []) with ⟨cause, inquiries⟩ | ⟨draft, inquiries⟩
    · rw [hfold] at hnodup
      exact hnodup
    · rw [hfold] at hnodup
      change (Noted.inquiries (noting inquiries _)).Nodup
      rw [Noted.inquiries_noting]
      exact hnodup

end Provision.Plan
