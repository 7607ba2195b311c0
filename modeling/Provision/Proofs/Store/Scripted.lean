import Provision.Execution.Step
import Provision.Proofs.Lookup
import Provision.Store.Scripted

/-!
# What applying a step does to the scripted store

The calls of the scripted store write themselves down, and a successful one changes what is
installed; nothing else of the store changes.  `ScriptedStore.carryOut` is the change alone.
Applying a step either succeeds and carries it out, or fails and changes nothing but the
list of calls (`applyStep_ends`), whatever the script makes fail.
-/
namespace Provision.ScriptedStore
open Execution

variable {s s' s'' : ScriptedStore} {key key' : PackageKey} {target target' : Target}

/-! ## What is installed -/

theorem installed?_markAbsent : (s.markAbsent key target).installed? key' target' =
    if (key', target') = (key, target) then none else s.installed? key' target' := by
  rw [installed?, markAbsent, lookup_filter_fst (fun place => decide (place ≠ (key, target)))]
  by_cases h : (key', target') = (key, target)
  · simp [h]
  · simp only [h, ne_eq, not_false_eq_true, decide_true, if_true, if_false]
    rfl

theorem installed?_markInstalled {upToDate : Bool} :
    (s.markInstalled key target upToDate).installed? key' target' =
      if (key', target') = (key, target) then some upToDate else s.installed? key' target' := by
  rw [installed?, markInstalled, List.lookup_cons]
  by_cases h : (key', target') = (key, target)
  · simp [h]
  · have hne : ((key', target') == (key, target)) = false := beq_eq_false_iff_ne.mpr h
    rw [hne, if_neg h]
    change (s.markAbsent key target).installed? key' target' = _
    rw [installed?_markAbsent, if_neg h]

/-- Whether the statuses of a store tell what is installed. -/
def Tells (s : ScriptedStore) : Prop :=
  s.unknown = [] ∧ s.fixedStatus = []

theorem Tells.status_eq (h : s.Tells) : s.status key target =
    match s.installed? key target with
    | some true => .upToDate
    | some false => .needsUpdate
    | none => .notInstalled := by
  rw [status, h.2, h.1]
  rfl

theorem Tells.isInstalled_iff (h : s.Tells) :
    (s.status key target).isInstalled = true ↔ (s.installed? key target).isSome = true := by
  rw [h.status_eq]
  rcases s.installed? key target with _ | _ | _ <;> simp [InstallStatus.isInstalled]

theorem Tells.upToDate_iff (h : s.Tells) :
    s.status key target = .upToDate ↔ s.installed? key target = some true := by
  rw [h.status_eq]
  rcases s.installed? key target with _ | _ | _ <;> simp

theorem Tells.ne_unknown (h : s.Tells) (reason : String) :
    s.status key target ≠ .unknown reason := by
  rw [h.status_eq]
  rcases s.installed? key target with _ | _ | _ <;> simp

/-- A status that the store can tell and that is not fixed tells what is installed. -/
theorem status_of_known (hfixed : s.fixedStatus = [])
    (hknown : ∀ reason, s.status key target ≠ .unknown reason) : s.status key target =
    match s.installed? key target with
    | some true => .upToDate
    | some false => .needsUpdate
    | none => .notInstalled := by
  have hstatus : s.status key target =
      if s.unknown.contains key then .unknown "scripted"
      else
        match s.installed? key target with
        | some true => .upToDate
        | some false => .needsUpdate
        | none => .notInstalled := by
    rw [status, hfixed]
    rfl
  by_cases h : s.unknown.contains key = true
  · rw [if_pos h] at hstatus
    exact absurd hstatus (hknown "scripted")
  · rwa [if_neg h] at hstatus

theorem upToDate_iff_of_known (hfixed : s.fixedStatus = [])
    (hknown : ∀ reason, s.status key target ≠ .unknown reason) :
    s.status key target = .upToDate ↔ s.installed? key target = some true := by
  rw [status_of_known hfixed hknown]
  rcases s.installed? key target with _ | _ | _ <;> simp

theorem isInstalled_iff_of_known (hfixed : s.fixedStatus = [])
    (hknown : ∀ reason, s.status key target ≠ .unknown reason) :
    (s.status key target).isInstalled = true ↔ s.installed? key target ≠ none := by
  rw [status_of_known hfixed hknown]
  rcases s.installed? key target with _ | _ | _ <;> simp [InstallStatus.isInstalled]

/-! ## Steps -/

/-- The change that a step makes. -/
def carryOut (s : ScriptedStore) (step : Step) : ScriptedStore :=
  match step.kind with
  | .install => s.markInstalled step.key step.target true
  | .uninstall => s.markAbsent step.key step.target

/-- Two stores that answer alike when asked for statuses. -/
structure Alike (s s' : ScriptedStore) : Prop where
  installed : s'.installed = s.installed
  unknown : s'.unknown = s.unknown
  fixedStatus : s'.fixedStatus = s.fixedStatus

theorem Alike.refl (s : ScriptedStore) : Alike s s := ⟨rfl, rfl, rfl⟩

theorem Alike.trans (h : Alike s s') (h' : Alike s' s'') : Alike s s'' :=
  ⟨h'.installed.trans h.installed, h'.unknown.trans h.unknown,
    h'.fixedStatus.trans h.fixedStatus⟩

theorem Alike.carryOut (h : Alike s s') (step : Step) :
    Alike (s.carryOut step) (s'.carryOut step) := by
  unfold ScriptedStore.carryOut
  split
  · exact ⟨by simp only [markInstalled, markAbsent, h.installed], h.unknown, h.fixedStatus⟩
  · exact ⟨by simp only [markAbsent, h.installed], h.unknown, h.fixedStatus⟩

theorem script_carryOut (s : ScriptedStore) (step : Step) :
    (s.carryOut step).unknown = s.unknown ∧ (s.carryOut step).fixedStatus = s.fixedStatus := by
  unfold carryOut
  split <;> exact ⟨rfl, rfl⟩

theorem installed?_carryOut {step : Step} : (s.carryOut step).installed? key target =
    if (key, target) = (step.key, step.target) then
      match step.kind with
      | .install => some true
      | .uninstall => none
    else s.installed? key target := by
  unfold carryOut
  cases step.kind with
  | install => exact installed?_markInstalled
  | uninstall => exact installed?_markAbsent

/-! ## Calls -/

theorem download_alike (key : PackageKey) (target : Target) (s : ScriptedStore) :
    Alike s (s.download key target).2 ∧
      ∀ artifact, (s.download key target).1.outcome = .done artifact → artifact.key = key := by
  unfold download
  split
  · exact ⟨Alike.refl s, fun artifact h => by cases h⟩
  · dsimp only
    split
    · exact ⟨⟨rfl, rfl, rfl⟩, fun artifact h => by cases h⟩
    · exact ⟨⟨rfl, rfl, rfl⟩, fun artifact h => by cases h; rfl⟩

/-- How a call ends that is to turn `s` into `s'`: it succeeds and does so, or it fails and
leaves what is installed alone. -/
def Ends {ε : Type} (s s' : ScriptedStore) (outcome : Outcome ε Unit) (state : ScriptedStore) :
    Prop :=
  (outcome = .done () ∧ Alike s' state) ∨ (outcome ≠ .done () ∧ Alike s state)

theorem Ends.alike_of_done {ε : Type} (h : Ends s s' (.done () : Outcome ε Unit) s'') :
    Alike s' s'' :=
  h.elim And.right fun hfailed => absurd rfl hfailed.1

theorem Ends.alike_of_ne {ε : Type} {outcome : Outcome ε Unit} (h : Ends s s' outcome s'')
    (hne : outcome ≠ .done ()) : Alike s s'' :=
  h.elim (fun hdone => absurd hdone.1 hne) And.right

theorem install_ends (artifact : Artifact) (target : Target) (s : ScriptedStore) :
    Ends s (s.markInstalled artifact.key target true) (s.install artifact target).1
      (s.install artifact target).2 := by
  unfold install
  dsimp only
  split
  · exact Or.inr ⟨by simp, Alike.refl s⟩
  · split
    · exact Or.inr ⟨by simp, Alike.refl s⟩
    · split
      · exact Or.inr ⟨by simp, ⟨rfl, rfl, rfl⟩⟩
      · exact Or.inl ⟨rfl, ⟨rfl, rfl, rfl⟩⟩

theorem uninstall_ends (key : PackageKey) (target : Target) (s : ScriptedStore) :
    Ends s (s.markAbsent key target) (s.uninstall key target).1 (s.uninstall key target).2 := by
  unfold uninstall
  dsimp only
  split
  · exact Or.inr ⟨by simp, Alike.refl s⟩
  · split
    · exact Or.inr ⟨by simp, Alike.refl s⟩
    · split
      · exact Or.inr ⟨by simp, ⟨rfl, rfl, rfl⟩⟩
      · split
        · exact Or.inl ⟨rfl, ⟨rfl, rfl, rfl⟩⟩
        · exact Or.inr ⟨by simp, ⟨rfl, rfl, rfl⟩⟩

/-- What steps are applied with. -/
def context (snapshot : Snapshot) (id : UInt32) : Context ScriptedStore :=
  ⟨store, snapshot, id⟩

variable (snapshot : Snapshot) (id : UInt32)

theorem remove_ends (step : Step) (s : ScriptedStore) :
    Ends s (s.markAbsent step.key step.target) (remove (context snapshot id) step s).outcome
      (remove (context snapshot id) step s).state := by
  have hcall := uninstall_ends step.key step.target s
  have heq : (context snapshot id).store.uninstall (context snapshot id).snapshot step.key
      step.target s = s.uninstall step.key step.target := rfl
  rw [remove, heq]
  rcases hresult : s.uninstall step.key step.target with ⟨outcome, state⟩
  rw [hresult] at hcall
  cases outcome with
  | done value => exact Or.inl ⟨rfl, hcall.alike_of_done⟩
  | failed cause => exact Or.inr ⟨by simp, hcall.alike_of_ne (by simp)⟩
  | crashed => exact Or.inr ⟨by simp, hcall.alike_of_ne (by simp)⟩

theorem place_ends (step : Step) (artifact : Artifact) (s : ScriptedStore) :
    Ends s (s.markInstalled artifact.key step.target true)
      (place (context snapshot id) step artifact s).outcome
      (place (context snapshot id) step artifact s).state := by
  have hcall := install_ends artifact step.target s
  have heq : (context snapshot id).store.install (context snapshot id).snapshot artifact
      step.target s = s.install artifact step.target := rfl
  rw [place, heq]
  rcases hresult : s.install artifact step.target with ⟨outcome, state⟩
  rw [hresult] at hcall
  cases outcome with
  | done value => exact Or.inl ⟨rfl, hcall.alike_of_done⟩
  | failed cause => exact Or.inr ⟨by simp, hcall.alike_of_ne (by simp)⟩
  | crashed => exact Or.inr ⟨by simp, hcall.alike_of_ne (by simp)⟩

/-- What is fetched for a step is its package. -/
theorem key_of_fetch {step : Step} {artifact : Artifact}
    (h : (fetch (context snapshot id) step s).outcome = .done artifact) :
    artifact.key = step.key := by
  have hkey := (download_alike step.key step.target s).2
  have heq : (context snapshot id).store.download (context snapshot id).snapshot step.key
      step.target s = s.download step.key step.target := rfl
  rw [fetch, heq] at h
  rcases hresult : s.download step.key step.target with ⟨⟨progress, outcome⟩, state⟩
  rw [hresult] at h hkey
  cases outcome with
  | done artifact' =>
    cases h
    exact hkey artifact rfl
  | failed cause => cases h
  | crashed => cases h

/-- **Applying a step carries it out or changes nothing.** -/
theorem applyStep_ends (step : Step) (s : ScriptedStore) :
    Ends s (s.carryOut step) (applyStep (context snapshot id) step s).outcome
      (applyStep (context snapshot id) step s).state := by
  unfold applyStep
  cases hkind : step.kind with
  | uninstall =>
    have hcarry : s.carryOut step = s.markAbsent step.key step.target := by
      rw [carryOut, hkind]
    rw [hcarry]
    exact remove_ends snapshot id step s
  | install =>
    have halike : Alike s (fetch (context snapshot id) step s).state :=
      (download_alike step.key step.target s).1
    dsimp only
    cases houtcome : (fetch (context snapshot id) step s).outcome with
    | failed cause => exact Or.inr ⟨by simp, halike⟩
    | crashed => exact Or.inr ⟨by simp, halike⟩
    | done artifact =>
      have hcarry : (fetch (context snapshot id) step s).state.carryOut step =
          (fetch (context snapshot id) step s).state.markInstalled artifact.key step.target
            true := by
        rw [carryOut, hkind, key_of_fetch snapshot id houtcome]
      have hplaced := place_ends snapshot id step artifact
        (fetch (context snapshot id) step s).state
      rw [← hcarry] at hplaced
      rcases hplaced with ⟨hdone, hplaced⟩ | ⟨hfailed, hplaced⟩
      · exact Or.inl ⟨hdone, (halike.carryOut step).trans hplaced⟩
      · exact Or.inr ⟨hfailed, halike.trans hplaced⟩

end Provision.ScriptedStore
