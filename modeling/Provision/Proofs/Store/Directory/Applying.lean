import Provision.Proofs.Plan.Running
import Provision.Proofs.Request
import Provision.Proofs.Store.Directory.Downloading

/-!
# What a transaction leaves recorded

A plan is made of what is on offer when it is made, and its steps show the versions of that
moment.  A run looks every package up again, in what is on offer then.  So once a transaction has
run well, the records hold the versions on offer at the run (`Client.recorded_of_run`): these are
the versions that the steps show as long as nothing else has come to be on offer for them, and
other versions after a refresh that has brought some (`Client.refresh_changes_what_is_recorded`).

A run makes one call after the other.  Every call leaves the store in good order (`Standing`), and
tells of its step what its new stage says (`Told`); as the steps of a plan are for different
packages or targets, it leaves alone what is told of the others.
-/
namespace Provision

open FileSystem (SameExcept)
open DirectoryStore (Agrees Downloaded History OfTargets Scene Separate Stirred)

namespace DirectoryStore

/-- **A package is recorded at a target**, in the given version and no other. -/
def Holds (s : DirectoryStore) (target : Target) (fs : FileSystem) (key : PackageKey)
    (version : Version) : Prop :=
  ∃ entries, s.installed target fs = .ok entries ∧
    ∀ version', (key, version') ∈ entries ↔ version' = version

/-- What is recorded is what the history says. -/
theorem Agrees.holds_iff {s : DirectoryStore} {base : Location} {σ : Scene} {target : Target}
    {key : PackageKey} {version : Version} (h : Agrees s base σ) :
    s.Holds target σ.fs key version ↔ σ.history.version? target key = some version := by
  obtain ⟨entries, hentries, -, hmem⟩ := (h.tells target).installed
  constructor
  · rintro ⟨entries', hentries', hversion⟩
    obtain rfl := Except.ok.inj (hentries.symm.trans hentries')
    exact (hmem key version).mp ((hversion version).mpr rfl)
  · intro hversion
    refine ⟨entries, hentries, fun version' => ?_⟩
    rw [hmem, hversion, Option.some_inj, eq_comm]

end DirectoryStore

namespace Execution

variable {s : DirectoryStore} {base place : Location} {index : RepositoryIndex} {id : UInt32}
  {history : History} {fs fs' : FileSystem} {step : Step} {stage : Stage}

/-! ## Calls -/

/-- **What a step leaves recorded** of its package once it has been applied: the version on offer,
or none if it has been removed. -/
inductive Leaves (snapshot : Snapshot) (step : Step) : Option Version → Prop
  | install {package : Package} (kind : step.kind = .install)
    (offered : snapshot.get? step.key = some package) : Leaves snapshot step (some package.version)
  | uninstall (kind : step.kind = .uninstall) : Leaves snapshot step none

/-- **A store in good order**: its records tell its history, and packages and downloads are out
of each other's way. -/
structure Standing (s : DirectoryStore) (base place : Location) (σ : Scene) : Prop where
  agrees : Agrees s base σ
  separate : Separate s base place σ.fs

/-- **What is told of a step** by the stage it has come to. -/
def Told (s : DirectoryStore) (snapshot : Snapshot) (history : History) (step : Step) :
    Stage → Prop
  | .waiting => True
  | .fetched artifact => step.kind = .install ∧ Downloaded s step.key artifact
  | .ended outcome => outcome = .done () →
    Leaves snapshot step (history.version? step.target step.key)

/-- **What a call for a step has led to.** -/
structure Led (s : DirectoryStore) (base place : Location) (index : RepositoryIndex)
    (history : History) (step : Step) (stage : Stage) (fs : FileSystem) (history' : History) :
    Prop where
  standing : Standing s base place ⟨index, fs, history'⟩
  told : Told s index.snapshot history' step stage
  frame : ∀ target key, (key, target) ≠ step.place →
    history'.version? target key = history.version? target key

namespace Standing

theorem of_stirred {σ : Scene} (h : Standing s base place σ)
    (hstirred : Stirred base place σ.fs fs') : Standing s base place { σ with fs := fs' } :=
  ⟨h.agrees.of_downloads h.separate hstirred, h.separate.of_downloads hstirred.same⟩

/-- A call that fails is not part of the history. -/
theorem led_of_failed {outcome : Outcome TransactionError Unit}
    (h : Standing s base place ⟨index, fs, history⟩) (hne : outcome ≠ .done ()) :
    Led s base place index history step (.ended outcome) fs history :=
  ⟨h, fun hdone => absurd hdone hne, fun _ _ _ => rfl⟩

/-- A call that succeeds is the latest of the history. -/
theorem led_of_done {version : Option Version}
    (h : Standing s base place ⟨index, fs, ((step.target, step.key), version) :: history⟩)
    (hleaves : Leaves index.snapshot step version) :
    Led s base place index history step (.ended (.done ())) fs
      (((step.target, step.key), version) :: history) := by
  refine ⟨h, fun _ => ?_, fun target key hne => ?_⟩
  · rw [History.version?_cons_self]
    exact hleaves
  · refine History.version?_cons_of_ne fun heq => hne ?_
    obtain ⟨rfl, rfl⟩ := Prod.mk.inj heq
    rfl

/-- **A package is downloaded.** -/
theorem led_fetch (h : Standing s base place ⟨index, fs, history⟩) (hkind : step.kind = .install)
    (id : UInt32) : Led s base place index history step
      (Job.advance ⟨s.store, index.snapshot, id⟩ ⟨step, .waiting⟩ fs).1.stage
      (Job.advance ⟨s.store, index.snapshot, id⟩ ⟨step, .waiting⟩ fs).2.2 history := by
  obtain ⟨hstirred, hdownloaded⟩ :=
    h.separate.download step.target (h.agrees.slash_notMem step.key)
  have hstanding := h.of_stirred hstirred
  have hdownload : s.store.download = s.download := rfl
  simp only [Job.advance, hkind, fetch, hdownload]
  refine ⟨hstanding, ?_, fun _ _ _ => rfl⟩
  cases houtcome : (s.download index.snapshot step.key step.target fs).1.outcome with
  | done artifact => exact ⟨hkind, hdownloaded artifact houtcome⟩
  | failed cause =>
    intro hdone
    cases hdone
  | crashed =>
    intro hdone
    cases hdone

/-- **A package is installed** from its download, which is given up. -/
theorem led_place (h : Standing s base place ⟨index, fs, history⟩) (hkind : step.kind = .install)
    {artifact : Artifact} (hartifact : Downloaded s step.key artifact) : ∃ history',
    Led s base place index history step
      (.ended (Execution.place ⟨s.store, index.snapshot, id⟩ step artifact fs).outcome)
      (Execution.place ⟨s.store, index.snapshot, id⟩ step artifact fs).state history' := by
  have hsame : SameExcept (OfTargets base) fs
      (s.install index.snapshot artifact step.target fs).2 :=
    h.agrees.layout.sameExcept_install step.target (h.agrees.slash_notMem artifact.key)
  rcases hrun : s.install index.snapshot artifact step.target fs with ⟨cause | ⟨⟩, fs'⟩
  · have hplace : Execution.place ⟨s.store, index.snapshot, id⟩ step artifact fs =
        ⟨.failed (.install step.key cause), [], DirectoryStore.discard artifact fs'⟩ := by
      simp only [Execution.place, DirectoryStore.store, hrun]
      rfl
    rw [hrun] at hsame
    have hinstalled : Standing s base place ⟨index, fs', history⟩ :=
      ⟨h.agrees.step (.installFailed hrun), h.separate.of_targets hsame⟩
    rw [hplace]
    have hdiscarded := hinstalled.of_stirred (hinstalled.separate.discard hartifact)
    exact ⟨history, hdiscarded.led_of_failed (by simp)⟩
  · have hplace : Execution.place ⟨s.store, index.snapshot, id⟩ step artifact fs =
        ⟨.done (), [.step id step.key .install], DirectoryStore.discard artifact fs'⟩ := by
      simp only [Execution.place, DirectoryStore.store, hrun]
      rfl
    rw [hrun] at hsame
    obtain ⟨package, hpackage⟩ := DirectoryStore.exists_package_of_install hrun
    have hinstalled : Standing s base place
        ⟨index, fs', ((step.target, artifact.key), some package.version) :: history⟩ :=
      ⟨h.agrees.step (.install hpackage hrun), h.separate.of_targets hsame⟩
    have hdiscarded := hinstalled.of_stirred (hinstalled.separate.discard hartifact)
    rw [hartifact.key] at hpackage hdiscarded
    rw [hplace]
    exact ⟨_, hdiscarded.led_of_done (.install hkind hpackage)⟩

/-- **A package is removed.** -/
theorem led_remove (h : Standing s base place ⟨index, fs, history⟩) (hkind : step.kind = .uninstall) :
    ∃ history', Led s base place index history step
      (.ended (Execution.remove ⟨s.store, index.snapshot, id⟩ step fs).outcome)
      (Execution.remove ⟨s.store, index.snapshot, id⟩ step fs).state history' := by
  have hsame := h.agrees.layout.sameExcept_uninstall step.key step.target
  rcases hrun : s.uninstall step.key step.target fs with ⟨cause | ⟨⟩, fs'⟩
  · have hremove : Execution.remove ⟨s.store, index.snapshot, id⟩ step fs =
        ⟨.failed (.uninstall step.key cause), [], fs'⟩ := by
      simp only [Execution.remove, DirectoryStore.store, hrun]
      rfl
    rw [hrun] at hsame
    have hstanding : Standing s base place ⟨index, fs', history⟩ :=
      ⟨h.agrees.step (.uninstallFailed hrun), h.separate.of_targets hsame⟩
    rw [hremove]
    exact ⟨history, hstanding.led_of_failed (by simp)⟩
  · have hremove : Execution.remove ⟨s.store, index.snapshot, id⟩ step fs =
        ⟨.done (), [.step id step.key .uninstall], fs'⟩ := by
      simp only [Execution.remove, DirectoryStore.store, hrun]
      rfl
    rw [hrun] at hsame
    have hstanding : Standing s base place
        ⟨index, fs', ((step.target, step.key), none) :: history⟩ :=
      ⟨h.agrees.step (.uninstall hrun), h.separate.of_targets hsame⟩
    rw [hremove]
    exact ⟨_, hstanding.led_of_done (.uninstall hkind)⟩

/-- **Whatever call is next for a step**, the store stays in good order. -/
theorem led_advance (h : Standing s base place ⟨index, fs, history⟩)
    (htold : Told s index.snapshot history step stage) {job : Job} {more : List Event}
    (hadvance : Job.advance ⟨s.store, index.snapshot, id⟩ ⟨step, stage⟩ fs = (job, more, fs')) :
    ∃ history', Led s base place index history step job.stage fs' history' := by
  cases stage with
  | ended outcome =>
    cases hadvance
    exact ⟨history, h, htold, fun _ _ _ => rfl⟩
  | fetched artifact =>
    cases hadvance
    exact h.led_place htold.1 htold.2
  | waiting =>
    cases hkind : step.kind with
    | install =>
      have hled := h.led_fetch hkind id
      rw [hadvance] at hled
      exact ⟨history, hled⟩
    | uninstall =>
      rw [Job.advance, hkind] at hadvance
      cases hadvance
      exact h.led_remove hkind

end Standing

/-! ## Runs -/

variable {steps : List Step} {stages : Nat → Stage} {start : FileSystem} {events : List Event}

/-- **A run under way**: the store is in good order, and of every step is told what its stage
says. -/
structure Recording (s : DirectoryStore) (base place : Location) (index : RepositoryIndex)
    (steps : List Step) (stages : Nat → Stage) (fs : FileSystem) (history : History) : Prop where
  standing : Standing s base place ⟨index, fs, history⟩
  told : ∀ i step, steps[i]? = some step → Told s index.snapshot history step (stages i)

/-- What is told of a step depends on the history of its package only. -/
theorem Told.congr {snapshot : Snapshot} {history' : History}
    (h : Told s snapshot history step stage)
    (hversion : history'.version? step.target step.key = history.version? step.target step.key) :
    Told s snapshot history' step stage := by
  cases stage with
  | waiting => exact h
  | fetched artifact => exact h
  | ended outcome => exact fun hdone => hversion ▸ h hdone

theorem Recording.advanced (h : Recording s base place index steps stages fs history)
    (hdistinct : (steps.map Step.place).Nodup) {i : Nat} (hi : steps[i]? = some step) {job : Job}
    {more : List Event} (hadvance :
      Job.advance ⟨s.store, index.snapshot, id⟩ ⟨step, stages i⟩ fs = (job, more, fs')) :
    ∃ history', Recording s base place index steps (Function.update stages i job.stage) fs'
      history' := by
  obtain ⟨history', hled⟩ := h.standing.led_advance (h.told i step hi) hadvance
  refine ⟨history', hled.standing, forall_of_place hi ?_ fun k hki step' hk => ?_⟩
  · rw [Function.update_self]
    exact hled.told
  · rw [Function.update_of_ne hki]
    exact (h.told k step' hk).congr (hled.frame _ _ (place_ne hdistinct hi hk hki))

/-- **Whatever a run does**, the store stays in good order. -/
theorem Standing.underway (h : Standing s base place ⟨index, start, history⟩)
    (hdistinct : (steps.map Step.place).Nodup)
    (hunderway : Underway ⟨s.store, index.snapshot, id⟩ steps start stages events fs) :
    ∃ history', Recording s base place index steps stages fs history' := by
  induction hunderway with
  | initially => exact ⟨history, h, fun _ _ _ => trivial⟩
  | advanced _ hi _ hadvance ih =>
    obtain ⟨history', hrecording⟩ := ih
    exact hrecording.advanced hdistinct hi hadvance

end Execution

/-! ## Transactions -/

namespace Client

open Execution (Conclusion Recording Standing)

variable {client client' later : Client FileSystem} {actions : List Action}
  {transaction : Transaction} {s : DirectoryStore} {base place : Location} {history : History}

section Running

variable (hcreated : client.createTransaction actions = (.ok transaction, client'))
  (hstore : later.store = s.store)
  (hstanding : Standing s base place ⟨later.index, later.state, history⟩) (id : Option UInt32)
  (turns : Nat → List Nat) (cancelled : Execution.Cancellation)
include hcreated hstore hstanding

/-- The records after a run tell which steps have been applied. -/
theorem exists_recording : ∃ stages history',
    Recording s base place later.index transaction.steps stages
      (later.runTransaction transaction id turns cancelled).1.state history' ∧
    Conclusion transaction.steps cancelled stages
      (later.runTransaction transaction id turns cancelled).1.outcome := by
  obtain ⟨⟨actions', -, hresolve⟩, hnew, -⟩ := createTransaction_eq_ok hcreated
  obtain ⟨hgranted, planned, hperm, hrealizes, -⟩ := Plan.realizes_of_resolve hresolve
  rw [runTransaction_eq hnew, hstore]
  have hconcludes : Execution.Concludes ⟨s.store, later.snapshot, id.getD transaction.id⟩
      transaction.steps later.state cancelled _ :=
    Execution.runSteps_concludes (later.mode turns) cancelled
  obtain ⟨stages, hunderway, hconclusion⟩ := hconcludes
  obtain ⟨history', hrecording⟩ :=
    hstanding.underway (hrealizes.distinct hgranted hperm) hunderway
  exact ⟨stages, history', hrecording, hconclusion⟩

/-- **However a run ends**, it leaves the store in good order. -/
theorem exists_standing_after_run : ∃ history', Standing s base place
    ⟨later.index, (later.runTransaction transaction id turns cancelled).1.state, history'⟩ := by
  obtain ⟨stages, history', hrecording, -⟩ :=
    exists_recording hcreated hstore hstanding id turns cancelled
  exact ⟨history', hrecording.standing⟩

/-- **What a transaction leaves recorded.**  Whatever has happened since it was created, as long as
what is on offer can be recorded, a run that succeeds leaves the package of each install step
recorded in the version that is on offer at the run, and in no other.  That is the version of the
step if the package on offer is still the one that the plan was made with. -/
theorem recorded_of_run
    (hrun : (later.runTransaction transaction id turns cancelled).1.outcome = .done ()) :
    let after := (later.runTransaction transaction id turns cancelled).1.state
    ∀ step ∈ transaction.steps, step.kind = .install →
      ∃ package, later.snapshot.get? step.key = some package ∧
        (∀ version, s.Holds step.target after step.key version ↔ version = package.version) ∧
        (later.snapshot.get? step.key = client.snapshot.get? step.key →
          s.Holds step.target after step.key step.version) := by
  intro after step hstep hkind
  obtain ⟨⟨actions', -, hresolve⟩, -, -⟩ := createTransaction_eq_ok hcreated
  obtain ⟨-, planned, -, hrealizes, -⟩ := Plan.realizes_of_resolve hresolve
  obtain ⟨stages, history', hrecording, hconclusion⟩ :=
    exists_recording hcreated hstore hstanding id turns cancelled
  obtain ⟨i, hi⟩ := List.mem_iff_getElem?.mp hstep
  have htold := hrecording.told i step hi
  rw [hconclusion.done_iff.mp hrun i (List.getElem?_eq_some_iff.mp hi).1] at htold
  have hleaves := htold rfl
  have hholds (version : Version) : s.Holds step.target after step.key version ↔
      history'.version? step.target step.key = some version := hrecording.standing.agrees.holds_iff
  generalize history'.version? step.target step.key = recorded at hleaves hholds
  cases hleaves with
  | uninstall kind => exact nomatch hkind.symm.trans kind
  | @install package kind offered =>
    refine ⟨package, offered, fun version => ?_, fun hsame => ?_⟩
    · rw [hholds, Option.some_inj, eq_comm]
    · obtain ⟨package', hpackage', hversion⟩ := hrealizes.version step hstep
      obtain rfl := Option.some.inj (hpackage'.symm.trans (hsame.symm.trans offered))
      rw [hholds, hversion]

end Running

end Client

namespace Client.Sample

open FileSystem
open DirectoryStore (Reachable Separate targetPlace)
open Execution (Standing)
open DirectoryStore.Sample (archive keyOf root)

/-- The place of the download directory. -/
def downloads : Location := [Utf8.ofString "downloads"]

/-- A store that finds an archive behind every url. -/
def store : DirectoryStore :=
  ⟨.ofString "/root", .ofString "/downloads", true, fun _ _ => ⟨[], .ok archive⟩,
    Tar.readCompressed, .numbers⟩

def disk : FileSystem where
  entries := [(root, .directory), (downloads, .directory)]
  working := []

/-- A repository file with one package in the given version. -/
def document (version : String) : List Char :=
  ("\x7b\"url\":\"r\",\"packages\":\x7b\"app\":\x7b\"version\":\"" ++ version ++
    "\",\"payload\":\x7b\"url\":\"app.tar.gz\"\x7d\x7d\x7d\x7d").toList

/-- Its package. -/
def package (version : String) : Package :=
  ⟨keyOf "app", ⟨0, version⟩, [], .full, some ⟨"app.tar.gz", none, none⟩⟩

def repository (version : String) : Repository :=
  (Repository.empty "r" none).insert (package version)

/-- A client of the store, with the first version on offer. -/
def client : Client FileSystem :=
  Client.new (Config.default ⟨none, none, none, none, none⟩) store.store
    (.ofRepositories [repository "1"]) disk

def request : List Action := [⟨.install, .user, keyOf "app"⟩]

/-- The step that the client makes of the request. -/
def step : Step := ⟨keyOf "app", .user, .install, ⟨0, "1"⟩, true, 0, []⟩

def transaction : Transaction := ⟨1, [step], false⟩

/-- The client once it has made the transaction. -/
def planned : Client FileSystem :=
  { client with builder := (client.builder.build [step]).2 }

/-- The client once the second version has come to be on offer. -/
def later : Client FileSystem :=
  planned.refresh [repository "2"]

theorem createTransaction_request :
    client.createTransaction request = (.ok transaction, planned) := by
  have hplan : client.plan request = .ok [step] := by decide +kernel
  rw [createTransaction, hplan]
  rfl

/-- What comes of the transaction. -/
def run : Applied FileSystem Unit :=
  (later.runTransaction transaction none (fun _ => []) fun _ => false).1

theorem run_eq : (run.outcome, (store.installed .user run.state).toOption) =
    (.done (), some [(keyOf "app", ⟨0, "2"⟩)]) := by
  decide +kernel

/-- What a repository consists of. -/
def contents (r : Repository) : String × Option String × List Package :=
  (r.url, r.channel, r.packages)

theorem contents_injective {r r' : Repository} (h : contents r = contents r') : r = r' := by
  cases r
  cases r'
  cases h
  rfl

theorem lasting_repository {version : String}
    (haccepted : (Repository.ofJson (document version)).toOption.map contents =
      some (contents (repository version)))
    (hversion : Version.Readable ⟨0, version⟩) : (repository version).Lasting := by
  have hmem {p : Package} (hp : p ∈ (repository version).packages) : p = package version :=
    List.mem_singleton.mp hp
  refine ⟨⟨document version, ?_⟩, fun p hp => ?_, fun p hp => ?_⟩
  · cases hr : Repository.ofJson (document version) with
    | error cause =>
      rw [hr] at haccepted
      cases haccepted
    | ok r =>
      rw [hr] at haccepted
      rw [contents_injective (Option.some.inj haccepted)]
  · rw [hmem hp]
    change (keyOf "app").Readable
    exact ⟨by decide, by decide, by decide, by decide, by decide⟩
  · rw [hmem hp]
    exact hversion

theorem lasting_first : (repository "1").Lasting :=
  lasting_repository (by decide +kernel) (Version.ofString_toString_iff.mp (by decide +kernel))

theorem lasting_second : (repository "2").Lasting :=
  lasting_repository (by decide +kernel) (Version.ofString_toString_iff.mp (by decide +kernel))

theorem get?_below_root {x : Location} (h : Below root x) : disk.get? x = none := by
  obtain ⟨name, rest, rfl⟩ := h
  have hne : ∀ e ∈ disk.entries, root ++ name :: rest ≠ e.1 := by
    have hdownloads : Utf8.ofString "root" ≠ Utf8.ofString "downloads" := by decide
    simp [disk, root, downloads, hdownloads]
  rw [FileSystem.get?, if_neg (by simp [root]), List.lookup_eq_none_iff]
  exact fun e he => bne_iff_ne.mpr (hne e he)

/-- Both directories stand at the root of the file system. -/
theorem steady_top {zone : Location → Prop} {name : FileName} (hname : Path.Ordinary name)
    (hlength : name.length ≤ longestName) (hentry : disk.get? [name] = some .directory)
    (hzone : ¬ zone [name]) : Steady zone disk ((Path.ofString "/").join ⟨name⟩) [name] :=
  (steady_root zone disk).child hname hlength hentry hzone

theorem separate_later : Separate store root downloads later.state where
  root := by
    have hname : Path.Ordinary (Utf8.ofString "root") :=
      Path.ordinary_ofString (by decide) (by decide) (by decide) (by decide)
    refine steady_top hname (by decide) rfl ?_
    rintro (hbelow | ⟨name, -, hname⟩)
    · exact not_below_self _ hbelow
    · exact absurd hname.length_le (by simp [downloads])
  downloads := by
    have hname : Path.Ordinary (Utf8.ofString "downloads") :=
      Path.ordinary_ofString (by decide) (by decide) (by decide) (by decide)
    refine steady_top hname (by decide) (by decide) ?_
    rintro (⟨target, htarget⟩ | ⟨name, -, hname⟩)
    · exact absurd htarget.length_le (by simp [targetPlace, root])
    · exact absurd hname.length_le (by simp [downloads])

theorem standing_later : Standing store root downloads ⟨later.index, later.state, []⟩ := by
  have hroot : Enters disk store.root root := enters_of_find? (by decide +kernel)
  have hfirst := (Reachable.start hroot fun _ => get?_below_root).step
    (.refresh (List.forall_mem_singleton.mpr lasting_first))
  have hsecond := hfirst.step (.refresh (List.forall_mem_singleton.mpr lasting_second))
  exact ⟨hsecond.agrees, separate_later⟩

end Client.Sample

namespace Client

/-- A transaction that is created while the first version of an application is on offer, and run
once the second is. -/
theorem sample_recorded :
    Sample.client.createTransaction Sample.request = (.ok Sample.transaction, Sample.planned) ∧
      Sample.later.store = Sample.store.store ∧
      Execution.Standing Sample.store DirectoryStore.Sample.root Sample.downloads
        ⟨Sample.later.index, Sample.later.state, []⟩ ∧
      Sample.run.outcome = .done () ∧
      ∀ step ∈ Sample.transaction.steps, step.kind = .install →
        ∃ package, Sample.later.snapshot.get? step.key = some package ∧
          (∀ version, Sample.store.Holds step.target Sample.run.state step.key version ↔
            version = package.version) ∧
          (Sample.later.snapshot.get? step.key = Sample.client.snapshot.get? step.key →
            Sample.store.Holds step.target Sample.run.state step.key step.version) := by
  have hrun : Sample.run.outcome = .done () := (Prod.mk.inj Sample.run_eq).1
  exact ⟨Sample.createTransaction_request, rfl, Sample.standing_later, hrun,
    recorded_of_run Sample.createTransaction_request rfl Sample.standing_later none (fun _ => [])
      (fun _ => false) hrun⟩

/-- **A refresh changes what is recorded.**  The transaction is run well, and the records hold the
second version of the application, where its step shows the first. -/
theorem refresh_changes_what_is_recorded :
    (∀ r ∈ [Sample.repository "1", Sample.repository "2"], r.Lasting) ∧
      Sample.client.createTransaction Sample.request = (.ok Sample.transaction, Sample.planned) ∧
      Sample.later = Sample.planned.refresh [Sample.repository "2"] ∧
      (Sample.later.runTransaction Sample.transaction none (fun _ => []) fun _ => false).1 =
        Sample.run ∧
      Sample.run.outcome = .done () ∧ ∃ step ∈ Sample.transaction.steps, step.kind = .install ∧
        ∃ entries, Sample.store.installed step.target Sample.run.state = .ok entries ∧
          (step.key, step.version) ∉ entries := by
  have hlasting : ∀ r ∈ [Sample.repository "1", Sample.repository "2"], r.Lasting :=
    List.forall_mem_cons.mpr
      ⟨Sample.lasting_first, List.forall_mem_singleton.mpr Sample.lasting_second⟩
  obtain ⟨hrun, hinstalled⟩ := Prod.mk.inj Sample.run_eq
  refine ⟨hlasting, Sample.createTransaction_request, rfl, rfl, hrun, Sample.step,
    List.mem_cons_self, rfl, ?_⟩
  cases hentries : Sample.store.installed .user Sample.run.state with
  | error cause =>
    rw [hentries] at hinstalled
    cases hinstalled
  | ok entries =>
    rw [hentries] at hinstalled
    refine ⟨entries, hentries, ?_⟩
    rw [Option.some.inj hinstalled]
    decide

end Client

end Provision
