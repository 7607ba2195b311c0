import Provision.Proofs.Dependency
import Provision.Proofs.Repository
import Provision.Proofs.Store.Directory.Containment

/-!
# The records of a store are its history

A store reads and rewrites all the records of a target whenever a package is installed or
uninstalled there.  If the keys and the versions on offer are read back from their texts
(`Repository.Lasting`), the records always tell which packages were installed last and in which
versions (`Reachable.records_tell_history`).  Otherwise a single package can make the records of
a target unreadable (`nameless_package_hides_records`).
-/
namespace Provision

/-- A repository that a file describes. -/
def Repository.Accepted (r : Repository) : Prop :=
  ∃ text, Repository.ofJson text = .ok r

/-- **A repository whose packages can be recorded**: their keys and versions are read back. -/
structure Repository.Lasting (r : Repository) : Prop where
  accepted : r.Accepted
  key : ∀ p ∈ r.packages, p.key.Readable
  version : ∀ p ∈ r.packages, p.version.Readable

/-- What repositories offer can be recorded. -/
structure Snapshot.Lasting (snapshot : Snapshot) : Prop where
  normal : ∀ p ∈ snapshot.packages, p.key.Normal
  key : ∀ p ∈ snapshot.packages, p.key.Readable
  version : ∀ p ∈ snapshot.packages, p.version.Readable

theorem Snapshot.lasting_refresh {index : RepositoryIndex} {repositories : List Repository}
    (h : ∀ r ∈ repositories, r.Lasting) : (index.refresh repositories).snapshot.Lasting := by
  have hmem {p : Package} (hp : p ∈ (index.refresh repositories).snapshot.packages) :
      ∃ r ∈ repositories, p ∈ r.packages := List.mem_flatMap.mp hp
  refine ⟨fun p hp => ?_, fun p hp => ?_, fun p hp => ?_⟩
  all_goals obtain ⟨r, hr, hp⟩ := hmem hp
  · obtain ⟨text, htext⟩ := (h r hr).accepted
    rw [(Repository.own_of_ofJson htext).1 p hp]
    exact PackageKey.normal_make _ _ _
  · exact (h r hr).key p hp
  · exact (h r hr).version p hp

namespace DirectoryStore

open FileSystem
open Provision.Path (Fits)

/-! ## Histories -/

/-- The successful calls on a store, the latest first: for each the target, the key and the version
that was installed, or none if the package was uninstalled. -/
abbrev History := List ((Target × PackageKey) × Option Version)

/-- The version that the last successful call for a key at a target installed. -/
def History.version? (history : History) (target : Target) (key : PackageKey) : Option Version :=
  (history.lookup (target, key)).join

theorem History.version?_cons_self (history : History) (target : Target) (key : PackageKey)
    (version : Option Version) :
    History.version? (((target, key), version) :: history) target key = version := by
  rw [History.version?, List.lookup_cons_self]
  rfl

theorem History.version?_cons_of_ne {history : History} {target target' : Target}
    {key key' : PackageKey} {version : Option Version} (h : (target, key) ≠ (target', key')) :
    History.version? (((target', key'), version) :: history) target key =
      history.version? target key := by
  rw [History.version?, List.lookup_cons, beq_eq_false_iff_ne.mpr h]
  rfl

/-- A store at work: the repositories it is offered, the file system, and what it has done. -/
structure Scene where
  index : RepositoryIndex
  fs : FileSystem
  history : History

section Steps

variable (allowed : Repository → Prop) (s : DirectoryStore) (base : Location)

/-- **What may happen to a store** whose root leads to `base`. -/
inductive Step : Scene → Scene → Prop
  | refresh {σ : Scene} {repositories : List Repository} (h : ∀ r ∈ repositories, allowed r) :
    Step σ { σ with index := σ.index.refresh repositories }
  /-- Files come and go elsewhere, while the root still leads to its place. -/
  | elsewhere {σ : Scene} {fs : FileSystem} (same : ∀ x, base <+: x → fs.get? x = σ.fs.get? x)
      (root : Anchored fs s.root base) : Step σ { σ with fs }
  | install {σ : Scene} {artifact : Artifact} {target : Target} {package : Package}
      {fs : FileSystem} (offered : σ.index.snapshot.get? artifact.key = some package)
      (run : s.install σ.index.snapshot artifact target σ.fs = (.ok (), fs)) :
    Step σ ⟨σ.index, fs, ((target, artifact.key), some package.version) :: σ.history⟩
  | installFailed {σ : Scene} {artifact : Artifact} {target : Target} {cause : InstallError}
      {fs : FileSystem}
      (run : s.install σ.index.snapshot artifact target σ.fs = (.error cause, fs)) :
    Step σ { σ with fs }
  | uninstall {σ : Scene} {key : PackageKey} {target : Target} {fs : FileSystem}
      (run : s.uninstall key target σ.fs = (.ok (), fs)) :
    Step σ ⟨σ.index, fs, ((target, key), none) :: σ.history⟩
  | uninstallFailed {σ : Scene} {key : PackageKey} {target : Target} {cause : UninstallError}
      {fs : FileSystem} (run : s.uninstall key target σ.fs = (.error cause, fs)) :
    Step σ { σ with fs }

/-- **The scenes that a store may come to**, from a root below which nothing stands. -/
inductive Reachable : Scene → Prop
  | start {fs : FileSystem} (root : Enters fs s.root base)
      (empty : ∀ x, Below base x → fs.get? x = none) : Reachable ⟨.empty, fs, []⟩
  | step {σ σ' : Scene} (h : Reachable σ) (step : Step allowed s base σ σ') : Reachable σ'

end Steps

variable {s : DirectoryStore} {base : Location} {target : Target} {fs fs' : FileSystem}
  {key : PackageKey} {versions : PackageKey → Option Version} {σ σ' : Scene}

/-! ## What is recorded -/

/-- **The records of a target tell these versions**, and will be read back. -/
inductive Recorded (s : DirectoryStore) (base : Location) (target : Target)
    (versions : PackageKey → Option Version) (fs : FileSystem) : Prop
  | nothing (place : fs.get? (recordsPlace base target) = none)
      (versions_eq : ∀ key, versions key = none)
  | written {records : InstalledRecords} {json : Json} (fits : Fits (s.recordsPath target))
      (readable : records.Readable) (json_eq : records.toJson = .ok json)
      (place : fs.get? (recordsPlace base target) = some (.file (Utf8.encode (json.pretty 0))))
      (versions_eq : ∀ key, versions key = (records.get? key).map InstalledRecord.version)

/-- **What is recorded is read back.** -/
theorem Recorded.exists_records (h : Recorded s base target versions fs) (hfs : Layout s base fs) :
    ∃ records, s.records target fs = .ok records ∧ records.Readable ∧
      ∀ key, versions key = (records.get? key).map InstalledRecord.version := by
  cases h with
  | nothing hplace hversions =>
    exact ⟨[], hfs.records_of_none hplace, InstalledRecords.readable_nil, hversions⟩
  | @written records json hfits hreadable hjson hplace hversions =>
    refine ⟨records, ?_, hreadable, hversions⟩
    rw [hfs.records_of_file hfits hplace, Json.decodeBytes_pretty,
      InstalledRecords.decode_toJson hreadable hjson]
    rfl

theorem Recorded.of_get?_eq (h : Recorded s base target versions fs)
    (hplace : fs'.get? (recordsPlace base target) = fs.get? (recordsPlace base target)) :
    Recorded s base target versions fs' := by
  cases h with
  | nothing hnone hversions => exact .nothing (hplace.trans hnone) hversions
  | written hfits hreadable hjson hfile hversions =>
    exact .written hfits hreadable hjson (hplace.trans hfile) hversions

theorem Saved.recorded_versions {records : InstalledRecords} {zone : Location → Prop}
    (h : Saved s base target records zone fs fs') (hreadable : records.Readable)
    (hversions : ∀ key, versions key = (records.get? key).map InstalledRecord.version) :
    Recorded s base target versions fs' := by
  obtain ⟨json, hjson, hplace⟩ := h.recorded
  exact .written h.fits hreadable hjson hplace hversions

theorem not_zone_recordsPlace (target target' : Target) :
    ¬ Zone base target fs (recordsPlace base target') := by
  rintro (⟨heq | heq, -⟩ | hbelow)
  · exact recordsPlace_ne_targetPlace _ _ heq
  · exact recordsPlace_ne_packagesPlace _ _ heq
  · exact not_below_packagesPlace (by simp [recordsPlace, targetPlace]) hbelow

theorem recordsPlace_injective {target' : Target}
    (h : recordsPlace base target = recordsPlace base target') : target = target' :=
  targetPlace_injective (List.append_cancel_right h)

/-! ## The history is recorded -/

/-- **The records of both targets tell the history.** -/
structure Agrees (s : DirectoryStore) (base : Location) (σ : Scene) : Prop where
  layout : Layout s base σ.fs
  offers : σ.index.snapshot.Lasting
  recorded : ∀ target, Recorded s base target (σ.history.version? target) σ.fs

theorem agrees_start (hroot : Enters fs s.root base)
    (hempty : ∀ x, Below base x → fs.get? x = none) : Agrees s base ⟨.empty, fs, []⟩ where
  layout := layout_of_empty hroot hempty
  offers := ⟨nofun, nofun, nofun⟩
  recorded target := .nothing (hempty _ (below_recordsPlace base target)) fun _ => rfl

namespace Agrees

/-- After a failure the records are what they were. -/
theorem of_kept (h : Agrees s base σ) (hfs : Kept s base target σ.fs fs') :
    Agrees s base { σ with fs := fs' } where
  layout := hfs.layout
  offers := h.offers
  recorded target' := (h.recorded target').of_get?_eq
    (hfs.same.get? _ (not_zone_recordsPlace target target'))

/-- After the records of a target have been replaced, they tell the new history. -/
theorem of_saved {records : InstalledRecords} {version : Option Version} (h : Agrees s base σ)
    (hfs : Saved s base target records (Zone base target σ.fs) σ.fs fs')
    (hreadable : records.Readable)
    (hkey : (records.get? key).map InstalledRecord.version = version)
    (hother : ∀ other, other ≠ key → (records.get? other).map InstalledRecord.version =
      σ.history.version? target other) :
    Agrees s base ⟨σ.index, fs', ((target, key), version) :: σ.history⟩ where
  layout := hfs.layout
  offers := h.offers
  recorded target' := by
    by_cases htarget : target' = target
    · subst htarget
      refine hfs.recorded_versions hreadable fun other => ?_
      by_cases heq : other = key
      · rw [heq, hkey, History.version?_cons_self]
      · rw [hother other heq, History.version?_cons_of_ne fun h => heq (Prod.mk.inj h).2]
    · have hversions : History.version? (((target, key), version) :: σ.history) target' =
          σ.history.version? target' :=
        funext fun other => History.version?_cons_of_ne fun h => htarget (Prod.mk.inj h).1
      rw [hversions]
      refine (h.recorded target').of_get?_eq (hfs.same.get? _ fun hx => hx.elim ?_ fun heq => ?_)
      · exact not_zone_recordsPlace target target'
      · exact htarget (recordsPlace_injective heq)

variable {snapshot : Snapshot} {artifact : Artifact}

theorem slash_notMem (h : Agrees s base σ) (key : PackageKey)
    (hoffered : (σ.index.snapshot.get? key).isSome) : '/' ∉ key.id.toList := by
  obtain ⟨p, hp⟩ := Option.isSome_iff_exists.mp hoffered
  obtain ⟨hmem, rfl⟩ := Snapshot.mem_of_get? hp
  exact (h.offers.key p hmem).id_slash

theorem install {package : Package} (h : Agrees s base σ)
    (hoffered : σ.index.snapshot.get? artifact.key = some package)
    (hrun : s.install σ.index.snapshot artifact target σ.fs = (.ok (), fs')) :
    Agrees s base ⟨σ.index, fs', ((target, artifact.key), some package.version) :: σ.history⟩ := by
  have hmeets := (h.layout.meets_install target (h.slash_notMem artifact.key)).run _ rfl
  rw [hrun] at hmeets
  obtain ⟨package', records, files, hpackage, hrecords, hsaved⟩ := hmeets
  obtain rfl := Option.some.inj (hoffered.symm.trans hpackage)
  obtain ⟨records', hread, hreadable, hversions⟩ := (h.recorded target).exists_records h.layout
  obtain rfl := Except.ok.inj (hrecords.symm.trans hread)
  obtain ⟨hmem, hkey⟩ := Snapshot.mem_of_get? hoffered
  refine h.of_saved hsaved ?_ ?_ fun other hne => ?_
  · exact hreadable.insert (hkey ▸ h.offers.normal _ hmem) (hkey ▸ h.offers.key _ hmem)
      (h.offers.version _ hmem)
  · rw [OrderedMap.get?_insert_self]
    rfl
  · rw [OrderedMap.get?_insert_of_ne hne, hversions]

theorem uninstall (h : Agrees s base σ) (hrun : s.uninstall key target σ.fs = (.ok (), fs')) :
    Agrees s base ⟨σ.index, fs', ((target, key), none) :: σ.history⟩ := by
  have hmeets := (h.layout.meets_uninstall key target).run _ rfl
  rw [hrun] at hmeets
  obtain ⟨records, hrecords, hsaved⟩ := hmeets
  obtain ⟨records', hread, hreadable, hversions⟩ := (h.recorded target).exists_records h.layout
  obtain rfl := Except.ok.inj (hrecords.symm.trans hread)
  refine h.of_saved hsaved (hreadable.erase key) ?_ fun other hne => ?_
  · rw [OrderedMap.get?_erase_self]
    rfl
  · rw [OrderedMap.get?_erase_of_ne hne, hversions]

/-- **Whatever happens to a store, its records tell its history.** -/
theorem step (h : Agrees s base σ) (hstep : Step Repository.Lasting s base σ σ') :
    Agrees s base σ' := by
  cases hstep with
  | refresh hrepositories =>
    exact ⟨h.layout, Snapshot.lasting_refresh hrepositories, h.recorded⟩
  | @elsewhere fs hsame hroot =>
    refine ⟨h.layout.of_elsewhere hsame hroot, h.offers, fun target => ?_⟩
    exact (h.recorded target).of_get?_eq (hsame _ (below_recordsPlace base target).isPrefix)
  | install hoffered hrun => exact h.install hoffered hrun
  | @installFailed artifact target cause fs hrun =>
    have hmeets := (h.layout.meets_install target (h.slash_notMem artifact.key)).run _ rfl
    rw [hrun] at hmeets
    exact h.of_kept hmeets
  | uninstall hrun => exact h.uninstall hrun
  | @uninstallFailed key target cause fs hrun =>
    have hmeets := (h.layout.meets_uninstall key target).run _ rfl
    rw [hrun] at hmeets
    exact h.of_kept hmeets

end Agrees

theorem Reachable.agrees (h : Reachable Repository.Lasting s base σ) : Agrees s base σ := by
  induction h with
  | start hroot hempty => exact agrees_start hroot hempty
  | step _ hstep ih => exact ih.step hstep

/-! ## What the store tells -/

/-- What a package that was installed in a version counts as, next to the one on offer. -/
def statusOf (offered : Option Package) : Option Version → InstallStatus
  | none => .notInstalled
  | some version =>
    if offered.any (·.version.isNewer version) then .needsUpdate else .upToDate

/-- **What a store tells of a target is its history**: it lists what was installed there last,
each key once, and knows the status of every key. -/
structure Tells (s : DirectoryStore) (target : Target) (σ : Scene) : Prop where
  installed : ∃ entries, s.installed target σ.fs = .ok entries ∧
    (entries.map Prod.fst).Nodup ∧
    ∀ key version, (key, version) ∈ entries ↔ σ.history.version? target key = some version
  status : ∀ key, s.status σ.index.snapshot key target σ.fs =
    statusOf (σ.index.snapshot.get? key) (σ.history.version? target key)

theorem Agrees.tells (h : Agrees s base σ) (target : Target) : Tells s target σ := by
  obtain ⟨records, hread, hreadable, hversions⟩ := (h.recorded target).exists_records h.layout
  refine ⟨⟨records.map fun e => (e.1, e.2.version), ?_, ?_, ?_⟩, ?_⟩
  · rw [installed, hread]
    rfl
  · rw [List.map_map]
    exact OrderedMap.nodup_keys hreadable.ascending
  · intro key version
    rw [hversions, Option.map_eq_some_iff, List.mem_map]
    constructor
    · rintro ⟨⟨key', r⟩, hmem, heq⟩
      obtain ⟨rfl, rfl⟩ := Prod.mk.inj heq
      exact ⟨r, (OrderedMap.mem_iff_get? hreadable.ascending).mp hmem, rfl⟩
    · rintro ⟨r, hr, rfl⟩
      exact ⟨(key, r), (OrderedMap.mem_iff_get? hreadable.ascending).mpr hr, rfl⟩
  · intro key
    rw [hversions]
    delta DirectoryStore.status
    rw [hread]
    dsimp only
    cases records.get? key with
    | none => rfl
    | some r => cases σ.index.snapshot.get? key <;> rfl

/-- What has just been installed is up to date. -/
theorem Agrees.upToDate {artifact : Artifact} (h : Agrees s base σ)
    (hrun : s.install σ.index.snapshot artifact target σ.fs = (.ok (), fs')) :
    s.status σ.index.snapshot artifact.key target fs' = .upToDate := by
  have hmeets := (h.layout.meets_install target (h.slash_notMem artifact.key)).run _ rfl
  rw [hrun] at hmeets
  obtain ⟨package, -, -, hpackage, -⟩ := hmeets
  have hstatus := ((h.install hpackage hrun).tells target).status artifact.key
  rw [History.version?_cons_self] at hstatus
  have hnewer : ¬ (some package).any (·.version.isNewer package.version) = true := by
    rw [Option.any_some, Version.not_isNewer_self]
    exact Bool.false_ne_true
  rw [hstatus, hpackage, statusOf, if_neg hnewer]

theorem statusOf_ne_unknown (offered : Option Package) (version : Option Version)
    (reason : String) : statusOf offered version ≠ .unknown reason := by
  cases version with
  | none => nofun
  | some version =>
    rw [statusOf]
    split <;> nofun

/-- **The records are the history.**  Whatever a store has been through, as long as the packages
on offer can be recorded, it lists at each target what was installed there last, with the versions
that were on offer then, it knows the status of every key, and a package is up to date once it has
been installed. -/
theorem Reachable.records_tell_history (h : Reachable Repository.Lasting s base σ)
    (target : Target) : Tells s target σ ∧
      (∀ key reason, s.status σ.index.snapshot key target σ.fs ≠ .unknown reason) ∧
      ∀ artifact fs', s.install σ.index.snapshot artifact target σ.fs = (.ok (), fs') →
        s.status σ.index.snapshot artifact.key target fs' = .upToDate := by
  have htells := h.agrees.tells target
  refine ⟨htells, fun key reason => ?_, fun artifact fs' hrun => h.agrees.upToDate hrun⟩
  rw [htells.status]
  exact statusOf_ne_unknown _ _ reason

namespace Sample

/-- A store that has installed the package of a file. -/
def installed (r : Repository) (id : String) : Scene where
  index := .ofRepositories [r]
  fs := (installing r (keyOf id)).2
  history := [((.user, keyOf id), some ⟨0, "1"⟩)]

/-- The version on offer of the package of a file, whether it can be installed, and whether the
records can be read then. -/
def attempt (id : String) : Option (Option Version × Bool × Bool) :=
  (Repository.ofJson (document id)).toOption.map fun r =>
    (((RepositoryIndex.ofRepositories [r]).snapshot.get? (keyOf id)).map Package.version,
      (installing r (keyOf id)).1.isOk, (store.records .user (installed r id).fs).isOk)

/-- A file whose package can be installed leads to a store that has done so. -/
theorem exists_reachable (allowed : Repository → Prop) (id : String) {readable : Bool}
    (hallowed : ∀ r, Repository.ofJson (document id) = .ok r → allowed r)
    (hattempt : attempt id = some (some ⟨0, "1"⟩, true, readable)) :
    ∃ r, Reachable allowed store root (installed r id) ∧
      (store.records .user (installed r id).fs).isOk = readable := by
  cases hr : Repository.ofJson (document id) with
  | error cause =>
    rw [attempt, hr] at hattempt
    cases hattempt
  | ok r =>
    rw [attempt, hr] at hattempt
    obtain ⟨hversion, hrest⟩ := Prod.mk.inj (Option.some.inj hattempt)
    obtain ⟨hok, hreadable⟩ := Prod.mk.inj hrest
    obtain ⟨package, hpackage, hpackage_version⟩ := Option.map_eq_some_iff.mp hversion
    have hrun : store.install (RepositoryIndex.ofRepositories [r]).snapshot (artifact (keyOf id))
        .user disk = (.ok (), (installing r (keyOf id)).2) := by
      refine Prod.ext ?_ rfl
      change (installing r (keyOf id)).1 = .ok ()
      revert hok
      cases (installing r (keyOf id)).1 with
      | error cause => nofun
      | ok value => exact fun _ => rfl
    have hstart : Reachable allowed store root ⟨.empty, disk, []⟩ :=
      .start enters_root fun _ => get?_below_root
    have hrefresh := hstart.step (.refresh (List.forall_mem_singleton.mpr (hallowed r hr)))
    refine ⟨r, hrefresh.step ?_, hreadable⟩
    rw [installed, ← hpackage_version]
    exact Step.install (σ := ⟨.ofRepositories [r], disk, []⟩) hpackage hrun

theorem lasting_of_ofJson {r : Repository} (hr : Repository.ofJson (document "app") = .ok r) :
    r.Lasting := by
  have hpackages : (Repository.ofJson (document "app")).toOption.map (fun r =>
      r.packages.map fun p => (p.key, p.version)) = some [(keyOf "app", ⟨0, "1"⟩)] := by
    decide +kernel
  rw [hr] at hpackages
  have hpackages : r.packages.map (fun p => (p.key, p.version)) = [(keyOf "app", ⟨0, "1"⟩)] :=
    Option.some.inj hpackages
  have hmem {p : Package} (hp : p ∈ r.packages) : p.key = keyOf "app" ∧ p.version = ⟨0, "1"⟩ := by
    have h := List.mem_map_of_mem (f := fun p : Package => (p.key, p.version)) hp
    rw [hpackages] at h
    exact Prod.mk.inj (List.mem_singleton.mp h)
  refine ⟨⟨_, hr⟩, fun p hp => ?_, fun p hp => ?_⟩
  · rw [(hmem hp).1]
    exact ⟨by decide, by decide, by decide, by decide, by decide⟩
  · rw [(hmem hp).2]
    exact Version.ofString_toString_iff.mp (by decide +kernel)

end Sample

/-- A store that has installed an application. -/
theorem sample_tells : ∃ σ, Reachable Repository.Lasting Sample.store Sample.root σ ∧
    σ.history = [((.user, Sample.keyOf "app"), some ⟨0, "1"⟩)] ∧ Tells Sample.store .user σ ∧
      (∀ key reason, Sample.store.status σ.index.snapshot key .user σ.fs ≠ .unknown reason) ∧
      ∀ artifact fs', Sample.store.install σ.index.snapshot artifact .user σ.fs = (.ok (), fs') →
        Sample.store.status σ.index.snapshot artifact.key .user fs' = .upToDate := by
  have hattempt : Sample.attempt "app" = some (some ⟨0, "1"⟩, true, true) := by decide +kernel
  obtain ⟨r, hreachable, -⟩ := Sample.exists_reachable Repository.Lasting "app"
    (fun _ => Sample.lasting_of_ofJson) hattempt
  exact ⟨_, hreachable, rfl, hreachable.records_tell_history .user⟩

/-- **An accepted package may hide all records**: one without an id is installed, and then no
package of the target can be listed or told the status of. -/
theorem nameless_package_hides_records :
    ∃ σ, Reachable Repository.Accepted Sample.store Sample.root σ ∧
      σ.history = [((.user, Sample.keyOf ""), some ⟨0, "1"⟩)] ∧ ¬ Tells Sample.store .user σ ∧
        ∀ key, ∃ reason, Sample.store.status σ.index.snapshot key .user σ.fs = .unknown reason := by
  have hattempt : Sample.attempt "" = some (some ⟨0, "1"⟩, true, false) := by decide +kernel
  obtain ⟨r, hreachable, hunreadable⟩ := Sample.exists_reachable Repository.Accepted ""
    (fun _ hr => ⟨_, hr⟩) hattempt
  cases hrecords : Sample.store.records .user (Sample.installed r "").fs with
  | ok records =>
    rw [hrecords] at hunreadable
    cases hunreadable
  | error cause =>
    refine ⟨_, hreachable, rfl, fun htells => ?_, fun key => ⟨cause.message, ?_⟩⟩
    · obtain ⟨entries, hentries, -⟩ := htells.installed
      rw [DirectoryStore.installed, hrecords] at hentries
      cases hentries
    · delta DirectoryStore.status
      rw [hrecords]

end DirectoryStore

end Provision
