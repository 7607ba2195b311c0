import Provision.Proofs.Archive.Growth
import Provision.Proofs.Store.Directory.Failing

/-!
# The files that are recorded of a package

The records list the files of a package by the paths that its archive has for them, and the archive
is extracted without the root that such a path may start at.  None of the paths goes up.  One that
is relative names what was extracted for it as seen from the directory of the package, if the way
there is still the one that was taken (`Listed`), as it is if the archive has no links.  There are
exceptions.  A path may stand for the directory itself, and then nothing is extracted for it.  One
that ends in a slash names a directory or nothing.  And an absolute path is recorded as well, though
it does not name the file that was extracted for it (`absolute_path_is_recorded`).
-/
namespace Provision.DirectoryStore

open FileSystem
open Provision.Path (Ordinary Fits)

variable {s : DirectoryStore} {base place : Location} {target : Target}
  {fs fs' fs₁ fs₂ start : FileSystem} {name last : FileName} {key : PackageKey} {r : ArchiveReading}
  {files : List Path} {records : InstalledRecords} {directory root path : Path}
  {front : List FileName} {rest : Location}

/-! ## What an installation leaves -/

theorem Staged.extracted (h : Staged s base target name fs fs₁)
    (hrun : Archive.extract ((s.packagesDir target).join ⟨name⟩) r fs₁ = (.ok files, fs₂)) :
    Archive.Extracted ((s.packagesDir target).join ⟨name⟩) fs₁ r
      (packagesPlace base target ++ [name]) fs₂ :=
  Archive.extracted_of_run h.anchored h.beside.names.fits (Path.trimmed_child h.ordinary) h.empty
    hrun

theorem Unpacked.exists_extracted (h : Unpacked s base target key r files fs fs') :
    ∃ name start, Staged s base target name fs start ∧
      Archive.Extracted ((s.packagesDir target).join ⟨name⟩) start r (packagePlace base target key)
        fs' := by
  obtain ⟨name, start, fs₂, hstaged, hrun, hget⟩ := h.contents
  exact ⟨name, start, hstaged, (hstaged.extracted hrun).of_get?_eq hget⟩

/-- **A package that is installed**: its archive was unpacked, and then nothing changed but the
records, which were replaced. -/
structure Installed (s : DirectoryStore) (base : Location) (target : Target) (key : PackageKey)
    (r : ArchiveReading) (records : InstalledRecords) (fs fs' : FileSystem) : Prop where
  unpacked : ∃ mid, Unpacked s base target key r r.filePaths fs mid ∧
    SameExcept (· = recordsPlace base target) mid fs'
  saved : Saved s base target records (Zone base target fs) fs fs'
  enters : Enters fs' (s.packageDir key target) (packagePlace base target key)

theorem Unpacked.installed (h : Unpacked s base target key r files fs fs₁)
    (hname : Ordinary (packageName key)) (recordsOf : List Path → InstalledRecords)
    (hsaved : s.saveRecords target (recordsOf files) fs₁ = (.ok (), fs')) :
    Installed s base target key r (recordsOf r.filePaths) fs fs' := by
  obtain rfl := h.files_eq
  obtain ⟨hlayout, hsame⟩ := h.layout.sameExcept_saveRecords h.names.enters.directory hsaved
  have hget {x : Location} (hx : Below (packagesPlace base target) x) : fs'.get? x = fs₁.get? x :=
    hsame.get? x (ne_recordsPlace_of_below hx target)
  refine ⟨⟨fs₁, h, hsame⟩, (h.kept.meets_saveRecords _).of_run_eq_ok rfl hsaved, ?_⟩
  have hpackages : fs'.get? (packagesPlace base target) = some .directory := by
    rw [hsame.get? _ fun heq => recordsPlace_ne_packagesPlace _ _ heq.symm,
      h.names.enters.directory]
  refine (hlayout.enters_packagesDir hpackages).child hname h.names.length_le ?_
  exact (hget (below_of_isPrefix_child List.prefix_rfl)).trans h.made

theorem Installed.exists_extracted (h : Installed s base target key r records fs fs') :
    ∃ name start, Staged s base target name fs start ∧
      Archive.Extracted ((s.packagesDir target).join ⟨name⟩) start r (packagePlace base target key)
        fs' := by
  obtain ⟨mid, hunpacked, hsame⟩ := h.unpacked
  obtain ⟨name, start, hstaged, hextracted⟩ := hunpacked.exists_extracted
  refine ⟨name, start, hstaged, hextracted.of_get?_eq fun rest => hsame.get? _ ?_⟩
  exact ne_recordsPlace_of_below (below_of_isPrefix_child (List.prefix_append _ _)) target

/-! ## Where the files are found -/

/-- **A file is found in a directory**: something stands at the last name of its path, in the place
below the directory (`rest`) that the names before the last one (`front`) led to when the file was
extracted. -/
structure FoundIn (fs : FileSystem) (directory : Path) (place : Location) (path : Path)
    (front : List FileName) (last : FileName) (rest : Location) : Prop where
  there : fs.get? (place ++ rest ++ [last]) ≠ none
  /-- Where nothing but directories is on the way, the names lead along themselves. -/
  direct : Open fs place path.localNames →
    rest = front ∧ Enters fs (directory.descend front) (place ++ rest)
  /-- While the names lead where they led, a relative path names what stands there.  A path that
  does not end in a name only does so if that is a directory. -/
  named : path.isAbsolute = false → Fits (directory.join path) →
    Enters fs (directory.descend front) (place ++ rest) →
    ((∃ entry, fs.find? (directory.join path) false = .ok (place ++ rest ++ [last], entry)) ↔
      path.EndsInName ∨ fs.get? (place ++ rest ++ [last]) = some .directory)

/-- **A path is listed truly**: it does not go up, and it is found in the directory of the package,
for every entry of the archive with this path, unless it has no names.  The archive was extracted to
`root`, and only links of the archive may bar the way. -/
structure Listed (fs : FileSystem) (directory : Path) (place : Location) (r : ArchiveReading)
    (root : Path) (start : FileSystem) (path : Path) : Prop where
  goesUp : path.goesUp = false
  /-- A path without names is not that of anything in the directory, but of the directory. -/
  itself : path.localNames = [] → path.isAbsolute = false → Fits (directory.join path) →
    fs.find? (directory.join path) = .ok (place, .directory)
  found : path.localNames ≠ [] → ∀ before e after, r.entries = before ++ e :: after →
    e.path = path → ∃ front last rest, path.localNames = front ++ [last] ∧
      Archive.LedTo root start (before ++ [e]) front rest ∧
      FoundIn fs directory place path front last rest
  unlinked : (∀ e ∈ r.entries, ¬ e.IsLink) → Open fs place path.localNames

/-- Something that stands where the names of a path led is found. -/
theorem foundIn_of_enters (h : Enters fs directory place)
    (hnames : path.localNames = front ++ [last])
    (hordinary : ∀ name ∈ path.localNames, Ordinary name)
    (hlength : ∀ name ∈ path.localNames, name.length ≤ longestName)
    (hthere : fs.get? (place ++ rest ++ [last]) ≠ none)
    (hdirect : Open fs place path.localNames → rest = front) :
    FoundIn fs directory place path front last rest := by
  rw [hnames] at hordinary hlength
  have hfront : ∀ name ∈ front, Ordinary name :=
    fun name hname => hordinary name (List.mem_append_left _ hname)
  refine ⟨hthere, fun hopen => ?_, fun hrelative hfits henters => ?_⟩
  · obtain rfl := hdirect hopen
    rw [hnames] at hopen
    exact ⟨rfl, h.descend hfront (fun name hname => hlength name (List.mem_append_left _ hname))
      fun names => hopen.directory⟩
  · rw [← Path.endsInName_join_iff (p := directory) hrelative]
    refine henters.exists_find?_iff ?_ ?_ (hordinary last (by simp)) hfits (hlength last (by simp))
      hthere
    · rw [Path.isAbsolute_join hrelative, Path.isAbsolute_descend hfront]
    · rw [Path.localNames_join hrelative, hnames, Path.localNames_descend hfront,
        List.append_assoc]

theorem listed_of_extracted (h : Archive.Extracted root start r place fs)
    (henters : Enters fs directory place) :
    ∀ path ∈ r.filePaths, Listed fs directory place r root start path := by
  intro path hpath
  obtain ⟨e, he, rfl⟩ := List.mem_map.mp hpath
  replace he : e ∈ r.entries := List.mem_of_mem_filter he
  have hup := h.goesUp e he
  refine ⟨hup, fun hnil hrelative hfits => ?_, fun hne before e' after hsplit hpath => ?_,
    fun hunlinked => h.unlinked hunlinked e he⟩
  · refine Enters.find? ((enters_congr ?_ ?_).mp henters) hfits
    · rw [Path.isAbsolute_join hrelative]
    · rw [Path.localNames_join hrelative, hnil, List.append_nil]
  · obtain ⟨front, last, rest, hnames, hled, hthere, hdirect⟩ :=
      h.stands before e' after hsplit (hpath ▸ hne)
    rw [hpath] at hnames hdirect
    exact ⟨front, last, rest, hnames, hled, foundIn_of_enters henters hnames
      (fun _ => Path.ordinary_of_mem_localNames hup) (h.length_le e he) hthere hdirect⟩

/-- **What is recorded of a package's files.**  The files that are recorded are those of the
archive, and none of their paths goes up.  Each is found in the directory of the package, where its
names led when it was extracted to a directory beside the packages.  If it is relative, it names
what stands there, as long as its names lead there, as they do if the archive has no links. -/
theorem Layout.files_of_install (h : Layout s base fs) {snapshot : Snapshot} {artifact : Artifact}
    (hid : (snapshot.get? artifact.key).isSome → '/' ∉ artifact.key.id.toList)
    (hrun : s.install snapshot artifact target fs = (.ok (), fs')) :
    ∃ package records content, snapshot.get? artifact.key = some package ∧
      s.records target fs = .ok records ∧ NamesFile fs artifact.path content ∧
      Installed s base target artifact.key (s.readArchive content)
        (records.insert artifact.key
          ⟨package.version, (s.readArchive content).filePaths⟩) fs fs' ∧
      ∃ name start, Staged s base target name fs start ∧
        ∀ path ∈ (s.readArchive content).filePaths,
          Listed fs' (s.packageDir artifact.key target) (packagePlace base target artifact.key)
            (s.readArchive content) ((s.packagesDir target).join ⟨name⟩) start path := by
  rcases h.install_cases hid hrun with ⟨⟨cause, hcause⟩, -⟩ | hsaved
  · cases hcause
  obtain ⟨package, records, content, files, mid, saved, hpackage, hrecords, hcontent, hunpacked,
    hsaved, hresult⟩ := hsaved
  cases saved with
  | error refused => cases hresult
  | ok value =>
    have hname := ordinary_packageName (hid (by rw [hpackage]; rfl))
    have hinstalled := hunpacked.installed hname
      (fun files => records.insert artifact.key ⟨package.version, files⟩) hsaved
    obtain ⟨name, start, hstaged, hextracted⟩ := hinstalled.exists_extracted
    exact ⟨package, records, content, hpackage, hrecords, hcontent, hinstalled, name, start,
      hstaged, listed_of_extracted hextracted hinstalled.enters⟩

/-- The path of a program. -/
def Sample.program : Bytes := Utf8.ofString "bin/app"

set_option maxRecDepth 100000 in
/-- An archive with a program. -/
theorem sample_files_of_install : ∃ fs',
    Layout Sample.store Sample.root (Sample.upgrading (Sample.archiveOf Sample.program)) ∧
    ((Sample.offer.get? (Sample.keyOf "app")).isSome → '/' ∉ (Sample.keyOf "app").id.toList) ∧
    Sample.upgrade (Sample.archiveOf Sample.program) = (.ok (), fs') ∧
    ∃ package records content, Sample.offer.get? (Sample.keyOf "app") = some package ∧
      Sample.store.records .user (Sample.upgrading (Sample.archiveOf Sample.program)) =
        .ok records ∧
      NamesFile (Sample.upgrading (Sample.archiveOf Sample.program)) (.ofString "/archive")
        content ∧
      Installed Sample.store Sample.root .user (Sample.keyOf "app") (Tar.readCompressed content)
        (records.insert (Sample.keyOf "app")
          ⟨package.version, (Tar.readCompressed content).filePaths⟩)
        (Sample.upgrading (Sample.archiveOf Sample.program)) fs' ∧
      ∃ name start, Staged Sample.store Sample.root .user name
          (Sample.upgrading (Sample.archiveOf Sample.program)) start ∧
        ∀ path ∈ (Tar.readCompressed content).filePaths,
          Listed fs' (Sample.store.packageDir (Sample.keyOf "app") .user)
            (packagePlace Sample.root .user (Sample.keyOf "app")) (Tar.readCompressed content)
            ((Sample.store.packagesDir .user).join ⟨name⟩) start path := by
  have hdone : (Sample.upgrade (Sample.archiveOf Sample.program)).1.isOk = true := by
    decide +kernel
  have hid : (Sample.offer.get? (Sample.keyOf "app")).isSome →
      '/' ∉ (Sample.keyOf "app").id.toList := fun _ => by decide
  rcases hrun : Sample.upgrade (Sample.archiveOf Sample.program) with ⟨cause | ⟨⟩, fs'⟩
  · rw [hrun] at hdone
    cases hdone
  · have hinstall : Sample.store.install Sample.offer (Sample.artifact (Sample.keyOf "app")) .user
        (Sample.upgrading (Sample.archiveOf Sample.program)) = (.ok (), fs') := hrun
    exact ⟨fs', Sample.layout_upgrading _, hid, rfl,
      (Sample.layout_upgrading _).files_of_install hid hinstall⟩

namespace Sample

/-- What an archive holds that puts a file through a link, and one whose path ends in a slash. -/
def linked : List ArchiveEntry :=
  [⟨.ofString "e", .directory, []⟩, ⟨.ofString "d", .symbolicLink (.ofString "e"), []⟩,
    ⟨.ofString "d/f", .file, []⟩, ⟨.ofString "g/", .file, []⟩]

/-- The store after it was installed. -/
def linkedInstalled : FileSystem :=
  ({ store with readArchive := fun _ => ⟨linked, none⟩ }.install offer (artifact (keyOf "app"))
    .user (upgrading [])).2

end Sample

set_option maxRecDepth 100000 in
/-- The file is found through the link, which has stayed; the other path names nothing. -/
example :
    Sample.linkedInstalled.find? ((Sample.store.packageDir (Sample.keyOf "app") .user).join
        (.ofString "d/f")) false =
      .ok (Sample.appPlace ++ [Utf8.ofString "e", Utf8.ofString "f"], .file []) ∧
    Sample.linkedInstalled.find? ((Sample.store.packageDir (Sample.keyOf "app") .user).join
        (.ofString "g/")) false = .error .notDirectory ∧
    Sample.linkedInstalled.get? (Sample.appPlace ++ [Utf8.ofString "g"]) = some (.file []) := by
  decide +kernel

set_option maxRecDepth 100000 in
/-- **An absolute path is recorded as it is**, and does not name what was extracted for it, which
is in the directory of the package. -/
theorem absolute_path_is_recorded :
    Layout Sample.store Sample.root (Sample.upgrading (Sample.archiveOf (Utf8.ofString "/x"))) ∧
      '/' ∉ (Sample.keyOf "app").id.toList ∧
      ∃ fs', Sample.upgrade (Sample.archiveOf (Utf8.ofString "/x")) = (.ok (), fs') ∧
        (Sample.store.records .user fs').toOption.map (·.map fun e => e.2.files) =
          some [[.ofString "/x"]] ∧
        (Path.ofString "/x").isAbsolute = true ∧
        fs'.contains ((Sample.store.packageDir (Sample.keyOf "app") .user).join (.ofString "/x")) =
          false ∧
        fs'.get? (Sample.appPlace ++ [Utf8.ofString "x"]) = some (.file []) := by
  have hall : ((Sample.upgrade (Sample.archiveOf (Utf8.ofString "/x"))).1.isOk,
      (Sample.store.records .user (Sample.upgrade (Sample.archiveOf
        (Utf8.ofString "/x"))).2).toOption.map (·.map fun e => e.2.files),
      (Sample.upgrade (Sample.archiveOf (Utf8.ofString "/x"))).2.contains
        ((Sample.store.packageDir (Sample.keyOf "app") .user).join (.ofString "/x")),
      (Sample.upgrade (Sample.archiveOf (Utf8.ofString "/x"))).2.get?
        (Sample.appPlace ++ [Utf8.ofString "x"])) =
      (true, some [[.ofString "/x"]], false, some (.file [])) := by
    decide +kernel
  refine ⟨Sample.layout_upgrading _, by decide, ?_⟩
  rcases hrun : Sample.upgrade (Sample.archiveOf (Utf8.ofString "/x")) with ⟨cause | ⟨⟩, fs'⟩
  · rw [hrun] at hall
    cases hall
  · rw [hrun] at hall
    obtain ⟨-, hrest⟩ := Prod.mk.inj hall
    obtain ⟨hrecords, hrest⟩ := Prod.mk.inj hrest
    obtain ⟨hcontains, hthere⟩ := Prod.mk.inj hrest
    exact ⟨fs', rfl, hrecords, by decide, hcontains, hthere⟩

end Provision.DirectoryStore
