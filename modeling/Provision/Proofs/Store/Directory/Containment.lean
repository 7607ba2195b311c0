import Provision.Proofs.Store.Directory.Installing
import Provision.Repository.Json

/-!
# Packages stay below the directory of the packages

The directory of a package is named after its id, and ids are not checked when a repository is
read.  An id without slashes makes one ordinary name (`contains_iff`), and then installing and
uninstalling change nothing outside of the directory of the packages but the records
(`confined_of_slash_notMem`).  An accepted file may name a package whose id has slashes, and
installing that one replaces a directory beside the root (`climbing_package_escapes`); it cannot
be uninstalled, since such a key is never read from the records (`slash_notMem_of_records`).
-/
namespace Provision.DirectoryStore

open FileSystem
open Provision.Path (Ordinary)

variable {s : DirectoryStore} {base : Location} {target : Target} {fs fs' : FileSystem}
  {key : PackageKey}

/-! ## Where the directory of a package lies -/

/-- **The directory of a package lies in the directory of the packages**: its path goes on from
the root by the names of the target and of that directory, and by one more ordinary name. -/
structure Contains (s : DirectoryStore) (key : PackageKey) (target : Target) : Prop where
  names : (s.packageDir key target).names =
    s.root.names ++ [Utf8.ofString target.name, Utf8.ofString "pkg", packageName key]
  isAbsolute : (s.packageDir key target).isAbsolute = s.root.isAbsolute
  ordinary : Ordinary (packageName key)

/-- The packages that are contained are those with an id without slashes. -/
theorem contains_iff : s.Contains key target ↔ '/' ∉ key.id.toList := by
  constructor
  · intro h hmem
    refine h.ordinary.slash_notMem (List.mem_flatMap.mpr ⟨'/', ?_, by decide⟩)
    have hname : s!"{key.id}-{keyHash key}" = key.id ++ "-" ++ keyHash key := rfl
    simp [hname, hmem]
  · intro hid
    have hname := ordinary_packageName hid
    have hdir : s.packageDir key target = (s.packagesDir target).join ⟨packageName key⟩ := rfl
    have hpackages : s.packagesDir target =
        (s.root.join ⟨Utf8.ofString target.name⟩).join ⟨Utf8.ofString "pkg"⟩ := rfl
    refine ⟨?_, ?_, hname⟩
    · rw [hdir, Path.names_child hname, hpackages, Path.names_child ordinary_pkg,
        Path.names_child (ordinary_name target)]
      simp
    · rw [hdir, Path.isAbsolute_child hname, hpackages, Path.isAbsolute_child ordinary_pkg,
        Path.isAbsolute_child (ordinary_name target)]

/-! ## What work on a package may change -/

/-- **A store that has only worked within the directory of the packages**: what stands elsewhere
is as it was, but for the records, and for directories of the store that have been made. -/
structure Confined (s : DirectoryStore) (base : Location) (target : Target)
    (fs fs' : FileSystem) : Prop where
  layout : Layout s base fs'
  same : ∀ x, ¬ Below (packagesPlace base target) x → x ≠ recordsPlace base target →
    fs'.get? x = fs.get? x ∨ fs.get? x = none ∧ fs'.get? x = some .directory ∧
      (x = targetPlace base target ∨ x = packagesPlace base target)

theorem Confined.of_sameExcept (hlayout : Layout s base fs')
    (hsame : SameExcept (fun x => Zone base target fs x ∨ x = recordsPlace base target) fs fs') :
    Confined s base target fs fs' := by
  refine ⟨hlayout, fun x hbelow hrecords => ?_⟩
  by_cases habsent : Layout.Absent base target fs x
  · obtain ⟨hx, hnone⟩ := habsent
    rw [hnone]
    rcases hx with rfl | rfl
    · exact (hlayout.target target).imp_right fun h => ⟨rfl, h, Or.inl rfl⟩
    · exact (hlayout.packages target).imp_right fun h => ⟨rfl, h, Or.inr rfl⟩
  · exact Or.inl (hsame.get? x fun hx => hx.elim (Or.rec habsent hbelow) hrecords)

theorem Kept.confined (h : Kept s base target fs fs') : Confined s base target fs fs' :=
  .of_sameExcept h.layout (h.same.mono fun _ => Or.inl)

theorem Saved.confined {records : InstalledRecords}
    (h : Saved s base target records (Zone base target fs) fs fs') :
    Confined s base target fs fs' :=
  .of_sameExcept h.layout h.same

/-- **Uninstalling stays within**, whatever the key. -/
theorem Layout.confined_uninstall (h : Layout s base fs) (key : PackageKey) (target : Target) :
    Confined s base target fs (s.uninstall key target fs).2 := by
  have hrun := (h.meets_uninstall key target).run fs rfl
  revert hrun
  rcases s.uninstall key target fs with ⟨cause | ⟨⟩, fs'⟩
  · exact Kept.confined
  · rintro ⟨records, -, hsaved⟩
    exact hsaved.confined

/-- **Installing stays within**, if the id has no slashes. -/
theorem Layout.confined_install (h : Layout s base fs) (snapshot : Snapshot) {artifact : Artifact}
    (hid : '/' ∉ artifact.key.id.toList) (target : Target) :
    Confined s base target fs (s.install snapshot artifact target fs).2 := by
  have hoffered : (snapshot.get? artifact.key).isSome → '/' ∉ artifact.key.id.toList := fun _ => hid
  have hrun := (h.meets_install target hoffered).run fs rfl
  revert hrun
  rcases s.install snapshot artifact target fs with ⟨cause | ⟨⟩, fs'⟩
  · exact Kept.confined
  · rintro ⟨package, records, files, -, -, hsaved⟩
    exact hsaved.confined

/-- **A package stays below the directory of the packages, if its id has no slashes**: that is
where its directory lies, and installing or uninstalling it changes nothing outside but the
records, whether or not it succeeds. -/
theorem confined_of_slash_notMem (hid : '/' ∉ key.id.toList) (h : Layout s base fs)
    (target : Target) : s.Contains key target ∧
      Confined s base target fs (s.uninstall key target fs).2 ∧
      ∀ snapshot artifact, artifact.key = key →
        Confined s base target fs (s.install snapshot artifact target fs).2 := by
  refine ⟨contains_iff.mpr hid, h.confined_uninstall key target, ?_⟩
  rintro snapshot artifact rfl
  exact h.confined_install snapshot hid target

namespace Sample

/-- A repository file with one package. -/
def document (id : String) : List Char :=
  ("\x7b\"url\":\"r\",\"packages\":\x7b\"" ++ id ++ "\":\x7b\"version\":\"1\"\x7d\x7d\x7d").toList

/-- The key of its package. -/
def keyOf (id : String) : PackageKey := ⟨"r", id, none⟩

def store : DirectoryStore :=
  ⟨.ofString "/root", .ofString "/downloads", true, fun _ _ => ⟨[], .ok []⟩, Tar.readCompressed,
    .numbers⟩

/-- The place of the root. -/
def root : Location := [Utf8.ofString "root"]

/-- An archive with nothing in it, compressed. -/
def archive : Bytes :=
  [0x1f, 0x8b, 8, 0, 0, 0, 0, 0, 0, 3, 3, 0, 0, 0, 0, 0, 0, 0, 0, 0]

/-- Somebody's notes, beside the root. -/
def notes : Location := [Utf8.ofString "keep-8096c4adf533", Utf8.ofString "notes"]

def disk : FileSystem where
  entries := [(root, .directory), ([Utf8.ofString "archive"], .file archive),
    ([Utf8.ofString "keep-8096c4adf533"], .directory), (notes, .file [])]
  working := []

/-- The archive, as a download of a package. -/
def artifact (key : PackageKey) : Artifact :=
  ⟨key, .user, .ofString "/archive", false⟩

/-- Installing a package of a repository, which is the only one. -/
def installing (r : Repository) (key : PackageKey) : Except InstallError Unit × FileSystem :=
  store.install (RepositoryIndex.ofRepositories [r]).snapshot (artifact key) .user disk

theorem enters_root : Enters disk store.root root :=
  enters_of_find? (by decide +kernel)

theorem get?_below_root {x : Location} (h : Below root x) : disk.get? x = none := by
  obtain ⟨name, rest, rfl⟩ := h
  have hne : ∀ e ∈ disk.entries, root ++ name :: rest ≠ e.1 := by
    have harchive : Utf8.ofString "root" ≠ Utf8.ofString "archive" := by decide
    have hkeep : Utf8.ofString "root" ≠ Utf8.ofString "keep-8096c4adf533" := by decide
    simp [disk, root, notes, harchive, hkeep]
  rw [FileSystem.get?, if_neg (by simp [root]), List.lookup_eq_none_iff]
  exact fun e he => bne_iff_ne.mpr (hne e he)

theorem layout_disk : Layout store root disk :=
  layout_of_empty enters_root fun _ => get?_below_root

end Sample

/-- An application, on a disk with somebody else's notes beside the root. -/
theorem sample_confined : '/' ∉ (Sample.keyOf "app").id.toList ∧
    Layout Sample.store Sample.root Sample.disk ∧
    Sample.store.Contains (Sample.keyOf "app") .user ∧
      Confined Sample.store Sample.root .user Sample.disk
        (Sample.store.uninstall (Sample.keyOf "app") .user Sample.disk).2 ∧
      ∀ snapshot artifact, artifact.key = Sample.keyOf "app" →
        Confined Sample.store Sample.root .user Sample.disk
          (Sample.store.install snapshot artifact .user Sample.disk).2 := by
  have hid : '/' ∉ (Sample.keyOf "app").id.toList := by decide
  exact ⟨hid, Sample.layout_disk, confined_of_slash_notMem hid Sample.layout_disk .user⟩

/-- **An accepted package may lie elsewhere**, and installing it takes away what stands there. -/
theorem climbing_package_escapes :
    ∃ r, Repository.ofJson (Sample.document "../../../keep") = .ok r ∧
      ∃ p ∈ r.packages, ¬ Sample.store.Contains p.key .user ∧
        ∃ content, Sample.disk.get? Sample.notes = some (.file content) ∧
          (Sample.installing r p.key).2.get? Sample.notes = none := by
  have hrun : (Repository.ofJson (Sample.document "../../../keep")).toOption.map (fun r =>
      (r.packages.map Package.key,
        (Sample.installing r (Sample.keyOf "../../../keep")).2.get? Sample.notes)) =
      some ([Sample.keyOf "../../../keep"], none) := by
    decide +kernel
  cases hr : Repository.ofJson (Sample.document "../../../keep") with
  | error cause =>
    rw [hr] at hrun
    cases hrun
  | ok r =>
    rw [hr] at hrun
    obtain ⟨hkeys, hgone⟩ := Prod.mk.inj (Option.some.inj hrun)
    obtain ⟨p, hp, hkey⟩ := List.mem_map.mp (hkeys ▸ List.mem_cons_self (l := []))
    refine ⟨r, rfl, p, hp, ?_, [], by decide +kernel, hkey ▸ hgone⟩
    rw [hkey, contains_iff]
    decide

end Provision.DirectoryStore
