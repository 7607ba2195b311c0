import Provision.Proofs.Store.Scripted

/-!
# Calls that keep to one package

Every call of the scripted store is about one package at one target.  What it answers depends
on the script and on that package's entry alone, and besides the list of calls it changes
nothing but that entry (`Local`).  So is each call of a step (`local_advance`).
-/
namespace Provision.ScriptedStore
open Execution

variable {s s' : ScriptedStore} {key : PackageKey} {target : Target} {α β : Type}

/-- What a store was told to do, without what it has done. -/
def script (s : ScriptedStore) : ScriptedStore :=
  { s with installed := [], calls := [] }

/-- Whether two stores treat a package at a target alike. -/
structure Agree (key : PackageKey) (target : Target) (s s' : ScriptedStore) : Prop where
  script : s'.script = s.script
  entry : s'.installed? key target = s.installed? key target

theorem Agree.refl (key : PackageKey) (target : Target) (s : ScriptedStore) :
    Agree key target s s := ⟨rfl, rfl⟩

/-- Stores with one script differ in what they have done. -/
theorem exists_eq_of_script (h : s'.script = s.script) :
    ∃ installed calls, s' = { s with installed, calls } := by
  refine ⟨s'.installed, s'.calls, ?_⟩
  cases s
  cases s'
  simp only [ScriptedStore.script, mk.injEq] at h ⊢
  exact h

/-- **A call that keeps to one package.** -/
structure Local (key : PackageKey) (target : Target)
    (call : ScriptedStore → α × ScriptedStore) : Prop where
  script : ∀ s, (call s).2.script = s.script
  elsewhere : ∀ s key' target', (key', target') ≠ (key, target) →
    (call s).2.installed? key' target' = s.installed? key' target'
  /-- Stores that agree give one answer, agree afterwards and write down the same calls. -/
  mirrored : ∀ s s', Agree key target s s' → (call s').1 = (call s).1 ∧
    (call s').2.installed? key target = (call s).2.installed? key target ∧
      ∃ made, (call s).2.calls = s.calls ++ made ∧ (call s').2.calls = s'.calls ++ made

namespace Local

variable {call : ScriptedStore → α × ScriptedStore}

theorem agree (h : Local key target call) (hagree : Agree key target s s') :
    Agree key target (call s).2 (call s').2 :=
  ⟨by rw [h.script, h.script, hagree.script], (h.mirrored s s' hagree).2.1⟩

theorem pure (a : α) : Local key target fun s => (a, s) where
  script _ := rfl
  elsewhere _ _ _ _ := rfl
  mirrored _ _ h := ⟨rfl, h.entry, [], (List.append_nil _).symm, (List.append_nil _).symm⟩

theorem map (h : Local key target call) (f : α → β) :
    Local key target fun s => (f (call s).1, (call s).2) where
  script := h.script
  elsewhere := h.elsewhere
  mirrored s s' hagree := by
    obtain ⟨hresult, hafter⟩ := h.mirrored s s' hagree
    exact ⟨congrArg f hresult, hafter⟩

theorem congr {call' : ScriptedStore → α × ScriptedStore} (h : Local key target call)
    (heq : ∀ s, call' s = call s) : Local key target call' :=
  funext heq ▸ h

end Local

/-! ## The calls of the store -/

theorem local_download (key : PackageKey) (target : Target) :
    Local key target (download key target) where
  script s := by
    simp only [download]
    repeat' split
    all_goals rfl
  elsewhere s key' target' _ := by
    simp only [download]
    repeat' split
    all_goals rfl
  mirrored s s' hagree := by
    obtain ⟨installed, calls, rfl⟩ := exists_eq_of_script hagree.script
    cases herror : s.downloadErrors.lookup key with
    | some cause =>
      simp only [download, herror]
      exact ⟨trivial, hagree.entry, [], by simp⟩
    | none =>
      cases hfails : s.failDownload.contains key with
      | true =>
        simp only [download, herror, record, hfails, reduceIte]
        exact ⟨trivial, hagree.entry, [_], rfl, rfl⟩
      | false =>
        simp only [download, herror, record, hfails]
        exact ⟨rfl, hagree.entry, [_], rfl, rfl⟩

theorem local_install (artifact : Artifact) (target : Target) :
    Local artifact.key target (install artifact target) where
  script s := by
    simp only [install]
    repeat' split
    all_goals rfl
  elsewhere s key' target' hne := by
    simp only [install]
    repeat' split
    · rfl
    · rfl
    · rfl
    · exact installed?_markInstalled.trans (if_neg hne)
  mirrored s s' hagree := by
    obtain ⟨installed, calls, rfl⟩ := exists_eq_of_script hagree.script
    cases hcrashing : s.crashing.contains artifact.key with
    | true =>
      simp only [install, hcrashing, reduceIte]
      exact ⟨trivial, hagree.entry, [], by simp⟩
    | false =>
      cases herror : s.installErrors.lookup artifact.key with
      | some cause =>
        simp only [install, hcrashing, herror]
        exact ⟨rfl, hagree.entry, [], by simp⟩
      | none =>
        cases hfails : s.failInstall.contains artifact.key with
        | true =>
          simp only [install, hcrashing, herror, record, hfails, reduceIte]
          exact ⟨rfl, hagree.entry, [_], rfl, rfl⟩
        | false =>
          simp only [install, hcrashing, herror, record, hfails]
          refine ⟨rfl, ?_, [_], rfl, rfl⟩
          exact (installed?_markInstalled.trans (if_pos rfl)).trans
            (installed?_markInstalled.trans (if_pos rfl)).symm

theorem local_uninstall (key : PackageKey) (target : Target) :
    Local key target (uninstall key target) where
  script s := by
    simp only [uninstall]
    repeat' split
    all_goals rfl
  elsewhere s key' target' hne := by
    simp only [uninstall]
    repeat' split
    · rfl
    · rfl
    · rfl
    · exact installed?_markAbsent.trans (if_neg hne)
    · rfl
  mirrored s s' hagree := by
    obtain ⟨installed, calls, rfl⟩ := exists_eq_of_script hagree.script
    cases hcrashing : s.crashing.contains key with
    | true =>
      simp only [uninstall, hcrashing, reduceIte]
      exact ⟨trivial, hagree.entry, [], by simp⟩
    | false =>
      cases herror : s.uninstallErrors.lookup key with
      | some cause =>
        simp only [uninstall, hcrashing, herror]
        exact ⟨rfl, hagree.entry, [], by simp⟩
      | none =>
        cases hfails : s.failUninstall.contains key with
        | true =>
          simp only [uninstall, hcrashing, herror, record, hfails, reduceIte]
          exact ⟨rfl, hagree.entry, [_], rfl, rfl⟩
        | false =>
          have hentry : ∀ calls',
              ({ s with installed, calls := calls' } : ScriptedStore).installed? key target =
                s.installed? key target := fun _ => hagree.entry
          have hentry' : ∀ calls', ({ s with calls := calls' } : ScriptedStore).installed? key target =
              s.installed? key target := fun _ => rfl
          cases hinstalled : (s.installed? key target).isSome with
          | true =>
            simp only [uninstall, hcrashing, herror, record, hfails, hentry, hentry', hinstalled,
              reduceIte]
            refine ⟨rfl, ?_, [_], rfl, rfl⟩
            exact (installed?_markAbsent.trans (if_pos rfl)).trans
              (installed?_markAbsent.trans (if_pos rfl)).symm
          | false =>
            simp only [uninstall, hcrashing, herror, record, hfails, hentry, hentry', hinstalled]
            exact ⟨rfl, hagree.entry, [_], rfl, rfl⟩

/-! ## The calls of a step -/

variable (snapshot : Snapshot) (id : UInt32) (step : Step)

/-- What a step makes of its download. -/
def ofDownload (download : Download) : Outcome TransactionError Artifact × List Event :=
  (match download.outcome with
    | .done artifact => .done artifact
    | .failed cause => .failed (.download step.key cause)
    | .crashed => .crashed,
  download.progress.map fun progress => .download id step.key progress)

/-- What a step makes of its installation. -/
def ofInstall : Outcome InstallError Unit → Outcome TransactionError Unit × List Event
  | .done _ => (.done (), [.step id step.key .install])
  | .failed cause => (.failed (.install step.key cause), [])
  | .crashed => (.crashed, [])

/-- What a step makes of its removal. -/
def ofUninstall : Outcome UninstallError Unit → Outcome TransactionError Unit × List Event
  | .done _ => (.done (), [.step id step.key .uninstall])
  | .failed cause => (.failed (.uninstall step.key cause), [])
  | .crashed => (.crashed, [])

/-- The job of a step after its download. -/
def fetchedJob (reported : Outcome TransactionError Artifact × List Event) : Job × List Event :=
  let stage :=
    match reported.1 with
    | .done artifact => .fetched artifact
    | .failed cause => .ended (.failed cause)
    | .crashed => .ended .crashed
  (⟨step, stage⟩, reported.2)

/-- The job of a step after its last call. -/
def endedJob (reported : Outcome TransactionError Unit × List Event) : Job × List Event :=
  (⟨step, .ended reported.1⟩, reported.2)

theorem local_fetch : Local step.key step.target fun s =>
    let fetched := fetch (context snapshot id) step s
    ((fetched.outcome, fetched.events), fetched.state) :=
  (local_download step.key step.target).map (ofDownload id step)

theorem local_place {artifact : Artifact} (hkey : artifact.key = step.key) :
    Local step.key step.target fun s =>
      let placed := place (context snapshot id) step artifact s
      ((placed.outcome, placed.events), placed.state) := by
  rw [← hkey]
  refine ((local_install artifact step.target).map (ofInstall id step)).congr fun s => ?_
  have hcall : (context snapshot id).store.install (context snapshot id).snapshot artifact
      step.target s = s.install artifact step.target := rfl
  rw [place, hcall]
  rcases s.install artifact step.target with ⟨_ | _ | _, state⟩ <;> rfl

theorem local_remove : Local step.key step.target fun s =>
    let removed := remove (context snapshot id) step s
    ((removed.outcome, removed.events), removed.state) := by
  refine ((local_uninstall step.key step.target).map (ofUninstall id step)).congr fun s => ?_
  have hcall : (context snapshot id).store.uninstall (context snapshot id).snapshot step.key
      step.target s = s.uninstall step.key step.target := rfl
  rw [remove, hcall]
  rcases s.uninstall step.key step.target with ⟨_ | _ | _, state⟩ <;> rfl

/-- **The next call of a step keeps to its package.** -/
theorem local_advance {stage : Stage}
    (hstage : ∀ artifact, stage = .fetched artifact → artifact.key = step.key) :
    Local step.key step.target fun s =>
      let (job, events, state) := Job.advance (context snapshot id) ⟨step, stage⟩ s
      ((job, events), state) := by
  cases stage with
  | ended outcome => exact .pure _
  | fetched artifact =>
    exact (local_place snapshot id step (hstage artifact rfl)).map (endedJob step)
  | waiting =>
    cases hkind : step.kind with
    | uninstall =>
      refine ((local_remove snapshot id step).map (endedJob step)).congr fun s => ?_
      simp only [Job.advance, hkind, endedJob]
    | install =>
      refine ((local_fetch snapshot id step).map (fetchedJob step)).congr fun s => ?_
      simp only [Job.advance, hkind]
      rfl

end Provision.ScriptedStore
