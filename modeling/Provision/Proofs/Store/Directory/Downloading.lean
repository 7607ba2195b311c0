import Provision.Proofs.Store.Directory.History

/-!
# What downloading changes

A download is a file of its own in the download directory, with a name that neither the
directories of a store nor its records have.  As long as that directory does not lie within the
directory of a target (`Separate`), downloading and giving up a download change nothing but such
files (`Separate.download`, `Separate.discard`), and what is recorded stays recorded
(`Agrees.of_downloads`).  The other way round, what a store does to packages does not lead the
path of the download directory elsewhere (`Separate.of_targets`).
-/
namespace Provision

open FileSystem
open Provision.Path (Ordinary Fits)

namespace FileSystem

variable {zone : Location → Prop} {fs fs' : FileSystem} {p : Path} {place : Location}

/-- **A path leads into a directory, whatever changes in a zone.** -/
def Steady (zone : Location → Prop) (fs : FileSystem) (p : Path) (place : Location) : Prop :=
  ∀ fs', SameExcept zone fs fs' → Enters fs' p place

theorem Steady.enters (h : Steady zone fs p place) : Enters fs p place :=
  h fs (.refl _ fs)

theorem Steady.of_sameExcept (h : Steady zone fs p place) (hfs : SameExcept zone fs fs') :
    Steady zone fs' p place :=
  fun _ hfs' => h _ (hfs.trans hfs')

/-- The directory does not come and go with the zone. -/
theorem Steady.not_isPrefix (h : Steady zone fs p place) {x : Location} (hne : x ≠ [])
    (hx : ∀ y, x <+: y → zone y) : ¬ x <+: place := by
  intro hprefix
  have hdirectory := (h _ ((sameExcept_prune hne).mono hx)).directory
  rw [get?_prune hne, if_pos hprefix] at hdirectory
  cases hdirectory

theorem steady_root (zone : Location → Prop) (fs : FileSystem) :
    Steady zone fs (.ofString "/") [] :=
  fun _ _ => ⟨get?_root _, mostLinks, .done⟩

theorem Steady.child {name : FileName} (h : Steady zone fs p place) (hname : Ordinary name)
    (hlength : name.length ≤ longestName) (hentry : fs.get? (place ++ [name]) = some .directory)
    (hzone : ¬ zone (place ++ [name])) : Steady zone fs (p.join ⟨name⟩) (place ++ [name]) :=
  fun fs' hfs' =>
    (h fs' hfs').child hname hlength (by rw [hfs'.get? _ hzone, hentry])

end FileSystem

namespace DirectoryStore

variable {s : DirectoryStore} {base place x : Location} {target : Target}
  {fs fs' fs'' : FileSystem} {name : FileName} {key : PackageKey}

/-! ## Where packages and downloads are put -/

/-- What the names of downloads end in. -/
def extension : FileName :=
  Utf8.ofString ".tar.gz"

/-- The places of the directories of the targets, and those below. -/
def OfTargets (base x : Location) : Prop :=
  ∃ target, targetPlace base target <+: x

/-- The places of downloads in a directory. -/
def OfDownloads (place x : Location) : Prop :=
  ∃ name, extension <:+ name ∧ place ++ [name] <+: x

theorem OfTargets.below (h : OfTargets base x) : Below base x := by
  obtain ⟨target, hx⟩ := h
  exact below_of_isPrefix_child hx

theorem ofTargets_targetPlace (base : Location) (target : Target) :
    OfTargets base (targetPlace base target) :=
  ⟨target, List.prefix_rfl⟩

theorem ofTargets_packagesPlace (base : Location) (target : Target) :
    OfTargets base (packagesPlace base target) :=
  ⟨target, List.prefix_append _ _⟩

theorem ofTargets_recordsPlace (base : Location) (target : Target) :
    OfTargets base (recordsPlace base target) :=
  ⟨target, List.prefix_append _ _⟩

/-- Work on a package changes nothing outside of the directory of its target. -/
theorem ofTargets_of_zone (h : Zone base target fs x ∨ x = recordsPlace base target) :
    OfTargets base x := by
  rcases h with (⟨rfl | rfl, -⟩ | hbelow) | rfl
  · exact ofTargets_targetPlace base target
  · exact ofTargets_packagesPlace base target
  · exact ⟨target, (List.prefix_append _ _).trans hbelow.isPrefix⟩
  · exact ofTargets_recordsPlace base target

theorem name_ne_of_extension (hname : extension <:+ name) (target : Target) :
    name ≠ Utf8.ofString target.name := by
  rintro rfl
  have hnot : ∀ target : Target, ¬ extension <:+ Utf8.ofString target.name := by
    rintro (_ | _) <;> decide
  exact hnot target hname

/-- **Packages and downloads are out of each other's way**: the root of the store leads to its
place whatever the store keeps there and whatever is downloaded, and so does the path of the
download directory. -/
structure Separate (s : DirectoryStore) (base place : Location) (fs : FileSystem) : Prop where
  root : Steady (fun x => Below base x ∨ OfDownloads place x) fs s.root base
  downloads : Steady (fun x => OfTargets base x ∨ OfDownloads place x) fs s.downloadDir place

namespace Separate

theorem not_ofDownloads (h : Separate s base place fs) (hx : OfTargets base x) :
    ¬ OfDownloads place x := by
  obtain ⟨target, hx⟩ := hx
  rintro ⟨name, hname, hx'⟩
  have hne : place ++ [name] ≠ targetPlace base target := fun heq =>
    name_ne_of_extension hname target (List.singleton_inj.mp (List.append_inj' heq rfl).2)
  rcases List.prefix_or_prefix_of_prefix hx hx' with hprefix | hprefix
  · refine h.downloads.not_isPrefix (by simp [targetPlace])
      (fun y hy => Or.inl ⟨target, hy⟩) ?_
    exact (List.prefix_concat_iff.mp hprefix).resolve_left hne.symm
  · refine h.root.not_isPrefix (by simp) (fun y hy => Or.inr ⟨name, hname, hy⟩) ?_
    exact (List.prefix_concat_iff.mp hprefix).resolve_left hne

theorem of_targets (h : Separate s base place fs) (hsame : SameExcept (OfTargets base) fs fs') :
    Separate s base place fs' where
  root := h.root.of_sameExcept (hsame.mono fun _ hx => Or.inl hx.below)
  downloads := h.downloads.of_sameExcept (hsame.mono fun _ => Or.inl)

theorem of_downloads (h : Separate s base place fs)
    (hsame : SameExcept (OfDownloads place) fs fs') : Separate s base place fs' where
  root := h.root.of_sameExcept (hsame.mono fun _ => Or.inr)
  downloads := h.downloads.of_sameExcept (hsame.mono fun _ => Or.inr)

end Separate

/-! ## What stays while packages are downloaded -/

/-- **Nothing but downloads has come or gone.** -/
structure Stirred (base place : Location) (fs fs' : FileSystem) : Prop where
  same : SameExcept (OfDownloads place) fs fs'
  grounded : Grounded base fs → Grounded base fs'

namespace Stirred

theorem refl (base place : Location) (fs : FileSystem) : Stirred base place fs fs :=
  ⟨.refl _ fs, id⟩

theorem trans (h : Stirred base place fs fs') (h' : Stirred base place fs' fs'') :
    Stirred base place fs fs'' :=
  ⟨h.same.trans h'.same, h'.grounded ∘ h.grounded⟩

theorem put {content : Bytes} (hplace : fs.get? place = some .directory)
    (hname : extension <:+ name) (hfree : fs.get? (place ++ [name]) = none) :
    Stirred base place fs (fs.put (place ++ [name]) (.file content)) := by
  refine ⟨(sameExcept_put (by simp)).mono ?_, fun hgrounded => hgrounded.put hplace hfree⟩
  rintro x rfl
  exact ⟨name, hname, List.prefix_rfl⟩

theorem prune (hname : extension <:+ name) : Stirred base place fs (fs.prune (place ++ [name])) :=
  ⟨(sameExcept_prune (by simp)).mono fun _ hx => ⟨name, hname, hx⟩,
    fun hgrounded => hgrounded.prune (by simp)⟩

/-- A download that is taken away, if it is there. -/
theorem removeFile (hplace : Enters fs s.downloadDir place) (hordinary : Ordinary name)
    (hname : extension <:+ name) : Stirred base place fs
      ((fs.removeFile (s.downloadDir.join ⟨name⟩)).toOption.getD fs) := by
  cases hcall : fs.removeFile (s.downloadDir.join ⟨name⟩) with
  | error cause => exact .refl base place fs
  | ok fs' =>
    obtain ⟨place', entry, hnames, -, -, rfl⟩ := (removeFile_child_iff hordinary).mp hcall
    obtain rfl := hnames.enters.unique hplace
    exact prune hname

end Stirred

theorem Layout.of_downloads (h : Layout s base fs) (hseparate : Separate s base place fs)
    (hstirred : Stirred base place fs fs') : Layout s base fs' := by
  have hget {x : Location} (hx : OfTargets base x) : fs'.get? x = fs.get? x :=
    hstirred.same.get? x (hseparate.not_ofDownloads hx)
  refine ⟨?_, hstirred.grounded h.grounded, fun target => ?_, fun target => ?_, fun target => ?_⟩
  · exact fun fs'' hsame =>
      (hseparate.of_downloads hstirred.same).root fs'' (hsame.mono fun _ => Or.inl)
  · rw [hget (ofTargets_targetPlace base target)]
    exact h.target target
  · rw [hget (ofTargets_packagesPlace base target)]
    exact h.packages target
  · rw [hget (ofTargets_recordsPlace base target)]
    exact h.records target

/-- **What is recorded stays recorded** while packages are downloaded. -/
theorem Agrees.of_downloads {σ : Scene} (h : Agrees s base σ)
    (hseparate : Separate s base place σ.fs) (hstirred : Stirred base place σ.fs fs') :
    Agrees s base { σ with fs := fs' } where
  layout := h.layout.of_downloads hseparate hstirred
  offers := h.offers
  recorded target := (h.recorded target).of_get?_eq
    (hstirred.same.get? _ (hseparate.not_ofDownloads (ofTargets_recordsPlace base target)))

/-! ## What work on packages stays within -/

variable {artifact : Artifact} {snapshot : Snapshot}

/-- What has been installed is on offer. -/
theorem exists_package_of_install (h : s.install snapshot artifact target fs = (.ok (), fs')) :
    ∃ package, snapshot.get? artifact.key = some package := by
  cases hpackage : snapshot.get? artifact.key with
  | none =>
    rw [install, hpackage] at h
    cases h
  | some package => exact ⟨package, rfl⟩

theorem Layout.sameExcept_install (h : Layout s base fs) (target : Target)
    (hid : (snapshot.get? artifact.key).isSome → '/' ∉ artifact.key.id.toList) :
    SameExcept (OfTargets base) fs (s.install snapshot artifact target fs).2 := by
  have hrun := (h.meets_install target hid).run fs rfl
  revert hrun
  rcases s.install snapshot artifact target fs with ⟨cause | ⟨⟩, fs'⟩
  · exact fun hkept => hkept.same.mono fun _ hx => ofTargets_of_zone (Or.inl hx)
  · rintro ⟨package, records, files, -, -, hsaved⟩
    exact hsaved.same.mono fun _ => ofTargets_of_zone

theorem Layout.sameExcept_uninstall (h : Layout s base fs) (key : PackageKey) (target : Target) :
    SameExcept (OfTargets base) fs (s.uninstall key target fs).2 := by
  have hrun := (h.meets_uninstall key target).run fs rfl
  revert hrun
  rcases s.uninstall key target fs with ⟨cause | ⟨⟩, fs'⟩
  · exact fun hkept => hkept.same.mono fun _ hx => ofTargets_of_zone (Or.inl hx)
  · rintro ⟨records, -, hsaved⟩
    exact hsaved.same.mono fun _ => ofTargets_of_zone

/-! ## Downloading -/

/-- **A download of a package**: a file in the download directory. -/
structure Downloaded (s : DirectoryStore) (key : PackageKey) (artifact : Artifact) : Prop where
  key : artifact.key = key
  path : ∃ name, artifact.path = s.downloadDir.join ⟨name⟩ ∧ Ordinary name ∧ extension <:+ name

/-- A file has been made for a download. -/
structure Prepared (s : DirectoryStore) (place : Location) (path : Path) (fs fs' : FileSystem) :
    Prop where
  made : ∃ name, path = s.downloadDir.join ⟨name⟩ ∧ Ordinary name ∧ extension <:+ name ∧
    Names fs s.downloadDir name place ∧ fs.get? (place ++ [name]) = none ∧
    ∃ content, fs' = fs.put (place ++ [name]) (.file content)

theorem Prepared.stirred {path : Path} (h : Prepared s place path fs fs') :
    Stirred base place fs fs' := by
  obtain ⟨name, -, -, hname, hnames, hfree, content, rfl⟩ := h.made
  exact .put hnames.enters.directory hname hfree

/-- The name of a download says that it is one. -/
theorem extension_isSuffix (before : String) :
    extension <:+ Utf8.ofString (before ++ ".tar.gz") := by
  rw [Utf8.ofString, String.toList_append, Utf8.encode, List.flatMap_append]
  exact List.suffix_append _ _

theorem meets_prepareDownload (hplace : Enters fs s.downloadDir place)
    (hid : (snapshot.get? key).isSome → '/' ∉ key.id.toList) :
    Disk.Meets (· = fs) (s.prepareDownload snapshot key)
      (fun found => Prepared s place found.2 fs) (· = fs) := by
  rw [prepareDownload]
  refine .lift_bind (fun payload hpayload => ?_) fun _ => id
  have hid : '/' ∉ key.id.toList := by
    refine hid ?_
    rw [DirectoryStore.payload] at hpayload
    cases hpackage : snapshot.get? key with
    | none =>
      rw [hpackage] at hpayload
      cases hpayload
    | some package => rfl
  refine (Disk.meets_makeDirectories_of_enters hplace).adapt.bind fun _ => .look_bind fun path =>
    .of_forall ?_
  rintro fs' ⟨rfl, rfl⟩
  have hname := s.naming.ordinary_choose fs' s.downloadDir (key.id ++ "-") ".tar.gz" (c := '-')
    (by simp) (by decide) (by simp [hid]) (by simp)
  refine Disk.Meets.bind (.adapt (.change ?_ ?_)) fun _ => .pure fun _ => id
  · rintro _ fs'' rfl hcall
    obtain ⟨place', hnames, hfree, rfl⟩ := (writeNew_child_iff hname).mp hcall
    obtain rfl := hnames.enters.unique hplace
    exact ⟨_, rfl, hname, extension_isSuffix _, hnames, hfree, _, rfl⟩
  · rintro _ rfl
    rfl

theorem Prepared.meets_receive {path : Path} (h : Prepared s place path fs fs') (payload : Payload)
    (fetched : Fetched) : Disk.Meets (· = fs') (s.receive payload path fetched)
      (fun _ => Prepared s place path fs) (Prepared s place path fs) := by
  rw [receive]
  refine .lift_bind (fun content _ => ?_) fun _ hfs => hfs ▸ h
  have hwrite : Disk.Meets (· = fs') ((Disk.change (·.write path content)).adapt
      fun cause => DownloadError.io cause.message)
      (fun _ => Prepared s place path fs) (Prepared s place path fs) := by
    refine .adapt (.change ?_ fun _ hfs => hfs ▸ h)
    rintro _ fs'' rfl hcall
    obtain ⟨name, rfl, hordinary, hname, hnames, hfree, content', rfl⟩ := h.made
    rw [write_child_of_put hordinary hnames hfree] at hcall
    cases hcall
    exact ⟨name, rfl, hordinary, hname, hnames, hfree, content, rfl⟩
  exact hwrite.bind fun _ => .lift (fun _ _ hfs _ => hfs) fun _ => id

/-- **What downloading does.** -/
theorem Separate.download (h : Separate s base place fs) (target : Target)
    (hid : (snapshot.get? key).isSome → '/' ∉ key.id.toList) :
    Stirred base place fs (s.download snapshot key target fs).2 ∧
      ∀ artifact, (s.download snapshot key target fs).1.outcome = .done artifact →
        Downloaded s key artifact := by
  rw [DirectoryStore.download]
  have hprepare := (meets_prepareDownload h.downloads.enters hid).run fs rfl
  revert hprepare
  rcases s.prepareDownload snapshot key fs with ⟨cause | ⟨payload, path⟩, fs₁⟩
  · rintro rfl
    exact ⟨.refl base place _, nofun⟩
  intro hprepared
  have hreceive := (hprepared.meets_receive payload (s.fetch payload.url fs₁)).run fs₁ rfl
  revert hreceive
  dsimp only
  rcases s.receive payload path (s.fetch payload.url fs₁) fs₁ with ⟨cause | ⟨⟩, fs₂⟩
  · intro hreceived
    obtain ⟨name, hpath, hordinary, hname, -⟩ := hreceived.made
    have hstirred : Stirred base place fs fs₂ := hreceived.stirred
    refine ⟨hstirred.trans ?_, nofun⟩
    rw [hpath]
    exact .removeFile (h.of_downloads hstirred.same).downloads.enters hordinary hname
  · intro hreceived
    obtain ⟨name, hpath, hordinary, hname, -⟩ := hreceived.made
    refine ⟨hreceived.stirred, fun artifact hartifact => ?_⟩
    cases hartifact
    exact ⟨rfl, name, hpath, hordinary, hname⟩

/-- **What giving up a download does.** -/
theorem Separate.discard (h : Separate s base place fs)
    (hartifact : Downloaded s key artifact) :
    Stirred base place fs (discard artifact fs) := by
  obtain ⟨name, hpath, hordinary, hname⟩ := hartifact.path
  rw [DirectoryStore.discard]
  split
  · rw [hpath]
    exact .removeFile h.downloads.enters hordinary hname
  · exact .refl base place fs

end DirectoryStore

end Provision
