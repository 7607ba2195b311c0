import Provision.Proofs.Files.Growth
import Provision.Proofs.Store.Directory.Downloading
import Provision.Proofs.Store.Fetch

/-!
# What a download delivers

A file is made for a download, the payload is fetched into it and the digest is compared
(`FileMade.meets_receive`).  If all of this succeeds, the file holds what the file holds that the
url of the payload leads to, with the declared digest (`Delivered`).  If anything fails, the file
is taken away again, as it is when the artifact is given up, and then nothing is left of the
download but directories that were missing (`Tidy`).  Both are told of every store that fetches
from the local file system, whatever the ids of packages are (`delivered_or_tidy_of_download`).
-/
namespace Provision

open FileSystem
open Provision.Path (Ordinary)

/-! ## A file that is made, written and taken away -/

namespace FileSystem

variable {fs fs' fs'' : FileSystem} {path p : Path} {place goal : Location}
  {content content' old : Bytes}

/-- **A file has been made** by its path, where nothing stood. -/
structure FileMade (fs : FileSystem) (path : Path) (place : Location) (content : Bytes)
    (fs' : FileSystem) : Prop where
  named : ∃ front name directory, path = Path.join front ⟨name⟩ ∧ Ordinary name ∧
    Names fs front name directory ∧ place = directory ++ [name]
  free : fs.get? place = none
  made : fs' = fs.put place (.file content)

namespace FileMade

theorem get? (h : FileMade fs path place content fs') (x : Location) :
    fs'.get? x = if x = place then some (.file content) else fs.get? x := by
  obtain ⟨front, name, directory, -, -, -, rfl⟩ := h.named
  rw [h.made, get?_put (by simp)]

theorem working (h : FileMade fs path place content fs') : fs'.working = fs.working := by
  rw [h.made]
  rfl

/-- The file is found by its path. -/
theorem find? (h : FileMade fs path place content fs') :
    fs'.find? path = .ok (place, .file content) := by
  have hfile := h.get? place
  rw [if_pos rfl] at hfile
  obtain ⟨front, name, directory, rfl, hname, hnames, rfl⟩ := h.named
  refine find?_eq_ok_iff.mpr ⟨?_, hfile⟩
  obtain rfl := h.made
  exact (hnames.put h.free).enters.locate_child hname hnames.fits hnames.length_le
    fun _ link hlink => nomatch hfile.symm.trans hlink

/-- Whatever was found before is still found. -/
theorem find?_of_find? (h : FileMade fs path place content fs') {found : Location × FileEntry}
    (hfound : fs.find? p = .ok found) : fs'.find? p = .ok found := by
  refine find?_mono h.working (fun x e hx => ?_) hfound
  rw [h.get?, if_neg, hx]
  rintro rfl
  exact nomatch h.free.symm.trans hx

/-- The file is written. -/
theorem of_write (h : FileMade fs path place content fs')
    (hcall : fs'.write path content' = .ok fs'') : FileMade fs path place content' fs'' := by
  obtain ⟨front, name, directory, rfl, hname, hnames, rfl⟩ := h.named
  rw [h.made, write_child_of_put hname hnames h.free] at hcall
  exact ⟨h.named, h.free, (Except.ok.inj hcall).symm⟩

/-- A file that was found is found where the file that was made has another content, unless it is
that file. -/
theorem find?_of_rewritten (h : FileMade fs path place content fs')
    (h' : FileMade fs path place content' fs'') (hfound : fs'.find? p = .ok (goal, .file old)) :
    fs.get? goal = some (.file old) ∧ fs''.find? p = .ok (goal, .file old) ∨
      goal = place ∧ old = content ∧ fs''.find? p = .ok (goal, .file content') := by
  have halike (x : Location) (e : FileEntry) (hx : fs'.get? x = some e) :
      ∃ e', fs''.get? x = some e' ∧ Alike e e' := by
    rw [h.get?] at hx
    rw [h'.get?]
    split at hx
    · cases hx
      exact ⟨_, if_pos ‹_›, .file _ _⟩
    · exact ⟨e, by rw [if_neg ‹_›, hx], .refl e⟩
  have hrewritten {entry : FileEntry} (hentry : fs''.get? goal = some entry) :
      fs''.find? p = .ok (goal, entry) :=
    find?_of_alike (h'.working.trans h.working.symm) halike hfound hentry
  have hgoal := (find?_eq_ok_iff.mp hfound).2
  rw [h.get?] at hgoal
  by_cases heq : goal = place
  · rw [if_pos heq] at hgoal
    cases hgoal
    exact Or.inr ⟨heq, rfl, hrewritten (by rw [h'.get?, if_pos heq])⟩
  · rw [if_neg heq] at hgoal
    exact Or.inl ⟨hgoal, hrewritten (by rw [h'.get?, if_neg heq, hgoal])⟩

/-- **The file is taken away**, and everything is as it was. -/
theorem removeFile (h : FileMade fs path place content fs') (hfs : Grounded [] fs) :
    ((fs'.removeFile path).toOption.getD fs').working = fs.working ∧
      ∀ x, ((fs'.removeFile path).toOption.getD fs').get? x = fs.get? x := by
  have hfile := h.get? place
  rw [if_pos rfl] at hfile
  obtain ⟨front, name, directory, rfl, hname, hnames, rfl⟩ := h.named
  obtain rfl := h.made
  rw [(removeFile_child_iff hname).mpr
    ⟨directory, _, hnames.put h.free, hfile, nofun, rfl⟩]
  exact ⟨rfl, get?_prune_put (hfs.mono List.nil_prefix) h.free⟩

end FileMade

end FileSystem

namespace DirectoryStore

variable {s : DirectoryStore} {snapshot : Snapshot} {key : PackageKey} {payload : Payload}
  {path source : Path} {place : Location} {content : Bytes} {fs fs' fs'' mid : FileSystem}

/-! ## Making the file of a download -/

/-- **No file has come or gone**: there are new directories at most, and if the download directory
was there, nothing has changed at all. -/
structure Tidy (s : DirectoryStore) (fs fs' : FileSystem) : Prop where
  furnished : Furnished fs fs'
  unchanged : ∀ place, Enters fs s.downloadDir place → ∀ x, fs'.get? x = fs.get? x

theorem Tidy.refl (s : DirectoryStore) (fs : FileSystem) : Tidy s fs fs :=
  ⟨.refl fs, fun _ _ _ => rfl⟩

/-- A file that was made afterwards is taken away. -/
theorem Tidy.removeFile (h : Tidy s fs mid) (hfs : Grounded [] fs)
    (hmade : FileMade mid path place content fs') :
    Tidy s fs ((fs'.removeFile path).toOption.getD fs') := by
  obtain ⟨hworking, hsame⟩ := hmade.removeFile (h.furnished.grounded hfs)
  exact ⟨h.furnished.of_get?_eq hworking hsame,
    fun place hplace x => (hsame x).trans (h.unchanged place hplace x)⟩

theorem payload_eq_ok_iff : DirectoryStore.payload snapshot key = .ok payload ↔
    ∃ package, snapshot.get? key = some package ∧ package.payload = some payload := by
  rw [DirectoryStore.payload]
  cases hpackage : snapshot.get? key with
  | none => simp
  | some package => cases hpayload : package.payload <;> simp [hpayload]

theorem meets_makeDownloadDir (s : DirectoryStore) (fs : FileSystem) :
    Disk.Meets (· = fs) (Disk.makeDirectories s.downloadDir) (fun _ => Tidy s fs) (Tidy s fs) := by
  by_cases hthere : ∃ place, Enters fs s.downloadDir place
  · obtain ⟨place, hplace⟩ := hthere
    refine (Disk.meets_makeDirectories_of_enters hplace).weaken (fun _ => id) ?_ ?_
    · rintro _ fs rfl
      exact .refl s fs
    · rintro fs rfl
      exact .refl s fs
  · have htidy (fs' : FileSystem) (hfs' : Furnished fs fs') : Tidy s fs fs' :=
      ⟨hfs', fun place hplace => absurd ⟨place, hplace⟩ hthere⟩
    exact (Disk.meets_makeDirectories_furnished s.downloadDir).weaken (fun _ => id)
      (fun _ => htidy) htidy

/-- The path of a download ends in a name, whatever the id of the package is. -/
theorem fileMade_of_writeNew (hpath : extension <:+ path.bytes)
    (hcall : fs.writeNew path content = .ok fs') : ∃ place, FileMade fs path place content fs' := by
  obtain ⟨front, name, rfl, hname, -⟩ :=
    Path.exists_child_of_suffix hpath (by decide) (b := 0x74) (by decide) (by decide)
  obtain ⟨directory, hnames, hfree, rfl⟩ := (writeNew_child_iff hname).mp hcall
  exact ⟨directory ++ [name], ⟨front, name, directory, rfl, hname, hnames, rfl⟩, hfree, rfl⟩

theorem extension_isSuffix_path (n : Naming) (fs : FileSystem) (directory : Path)
    (before : String) : extension <:+ (n.path fs directory before ".tar.gz").bytes :=
  (extension_isSuffix _).trans (Path.suffix_join _ _)

theorem meets_prepareDownload_fileMade (s : DirectoryStore) (snapshot : Snapshot)
    (key : PackageKey) (fs : FileSystem) :
    Disk.Meets (· = fs) (s.prepareDownload snapshot key)
      (fun found fs' => DirectoryStore.payload snapshot key = .ok found.1 ∧
        ∃ mid place, Tidy s fs mid ∧ FileMade mid found.2 place [] fs')
      (Tidy s fs) := by
  rw [prepareDownload]
  refine .lift_bind (fun payload hpayload => ?_) fun _ hfs => hfs ▸ .refl s fs
  refine (meets_makeDownloadDir s fs).adapt.bind fun _ => .look_bind fun path => ?_
  have hmade : Disk.Meets (fun mid => Tidy s fs mid ∧
      s.naming.path mid s.downloadDir s!"{key.id}-" ".tar.gz" = path)
      ((Disk.change (·.writeNew path [])).adapt fun cause =>
        DownloadError.io s!"{cause.message} at path \"{path}\"")
      (fun _ fs' => ∃ mid place, Tidy s fs mid ∧ FileMade mid path place [] fs') (Tidy s fs) := by
    refine .adapt (.change ?_ fun _ hmid => hmid.1)
    rintro mid fs' ⟨htidy, rfl⟩ hcall
    obtain ⟨place, hmade⟩ :=
      fileMade_of_writeNew (extension_isSuffix_path s.naming mid s.downloadDir _) hcall
    exact ⟨mid, place, htidy, hmade⟩
  exact hmade.bind fun _ => .pure fun _ hfs' => ⟨hpayload, hfs'⟩

/-! ## Filling it -/

theorem checkDigest_eq_ok_iff : s.checkDigest payload content = .ok () ↔
    (s.doChecksums = true → ∀ expected, payload.sha256 = some expected →
      (Sha256.hexDigest content).toList.map Char.toLower = expected.toList.map Char.toLower) := by
  rw [checkDigest]
  cases hdeclared : payload.sha256 with
  | none => simp
  | some expected =>
    simp only [Option.some.injEq, forall_eq']
    by_cases hsame : Text.sameLetters (Sha256.hexDigest content) expected = true
    · rw [if_neg fun hboth => hboth.2 hsame]
      exact iff_of_true rfl fun _ => of_decide_eq_true hsame
    · by_cases hchecks : s.doChecksums = true
      · rw [if_pos ⟨hchecks, hsame⟩]
        exact iff_of_false nofun fun h => hsame (decide_eq_true (h hchecks))
      · rw [if_neg fun hboth => hchecks hboth.1]
        exact iff_of_true rfl fun h => absurd h hchecks

/-- **The file of a download is filled** with what was fetched, which has the declared digest, if
nothing fails.  It stays the file that was made in either case. -/
theorem meets_receive_fileMade {old : Bytes} (h : FileMade mid path place old fs')
    (payload : Payload) (fetched : Fetched) :
    Disk.Meets (· = fs') (s.receive payload path fetched)
      (fun _ fs'' => ∃ content, fetched.content = .ok content ∧
        s.checkDigest payload content = .ok () ∧ FileMade mid path place content fs'')
      (fun fs'' => ∃ content, FileMade mid path place content fs'') := by
  rw [receive]
  refine .lift_bind (fun content hcontent => ?_) fun _ hfs => ⟨old, hfs ▸ h⟩
  have hwrite : Disk.Meets (· = fs') ((Disk.change (·.write path content)).adapt
      fun cause => DownloadError.io cause.message)
      (fun _ => FileMade mid path place content)
      (fun fs'' => ∃ content, FileMade mid path place content fs'') := by
    refine .adapt (.change ?_ fun _ hfs => ⟨old, hfs ▸ h⟩)
    rintro _ fs'' rfl hcall
    exact h.of_write hcall
  refine hwrite.bind fun _ => .lift (fun _ fs'' hmade hdigest => ?_) fun fs'' hmade => ?_
  · exact ⟨content, hcontent, hdigest, hmade⟩
  · exact ⟨content, hmade⟩

/-! ## What a download delivers -/

/-- **A payload that was delivered**: the artifact is a new file with the content of the file that
the url leads to, of which every byte was reported, and its digest is the declared one. -/
structure Delivered (s : DirectoryStore) (payload : Payload) (source : Path) (content : Bytes)
    (artifact : Artifact) (progress : List Progress) (fs fs' : FileSystem) : Prop where
  url : LeadsTo payload.url source
  file : ∃ place, fs.get? place = none ∧ fs'.find? artifact.path = .ok (place, .file content)
  /-- The file that the url leads to is as it was.  If it was not there, it is the artifact itself,
  which was empty when it was read: nothing keeps the name that is made up for a download from
  being the one in the url. -/
  origin : ∃ origin, fs'.find? source = .ok (origin, .file content) ∧
    (fs.get? origin = some (.file content) ∨
      content = [] ∧ fs'.find? artifact.path = fs'.find? source)
  /-- If the url led to something before, that was it. -/
  before : ∀ found, fs.find? source = .ok found → found.2 = .file content
  digest : s.doChecksums = true → ∀ expected, payload.sha256 = some expected →
    (Sha256.hexDigest content).toList.map Char.toLower = expected.toList.map Char.toLower
  counted : CountsUp content.length progress

/-- What was fetched into the file that was made is delivered. -/
theorem Tidy.delivered {arrival : Arrival} (h : Tidy s fs mid)
    (hmade : FileMade mid path place [] fs') (hfilled : FileMade mid path place content fs'')
    (hdigest : s.checkDigest payload content = .ok ())
    (hfetched : (fetchLocal arrival payload.url fs').content = .ok content)
    (key : PackageKey) (target : Target) :
    ∃ source, Delivered s payload source content ⟨key, target, path, true⟩
      (fetchLocal arrival payload.url fs').progress fs fs'' := by
  obtain ⟨source, origin, hurl, hfound, hprogress⟩ := fetchLocal_eq_ok hfetched
  have hbefore : ∀ found, fs.find? source = .ok found → found.2 = .file content := by
    intro found hsource
    have hmid := find?_mono h.furnished.working h.furnished.get?_of_some hsource
    rw [Except.ok.inj ((hmade.find?_of_find? hmid).symm.trans hfound)]
  refine ⟨source, hurl, ⟨place, h.furnished.get?_of_none hmade.free, hfilled.find?⟩, ?_, hbefore,
    checkDigest_eq_ok_iff.mp hdigest, hprogress⟩
  rcases hmade.find?_of_rewritten hfilled hfound with
    ⟨horigin, hsource⟩ | ⟨rfl, hempty, hsource⟩
  · exact ⟨origin, hsource, Or.inl (h.furnished.get?_of_ne_directory horigin nofun)⟩
  · exact ⟨origin, hsource, Or.inr ⟨hempty, hfilled.find?.trans hsource.symm⟩⟩

/-- **A download delivers the payload or leaves nothing behind.**  This is so for every store that
fetches from the local file system, in whichever pieces files arrive there.  If an artifact is
returned, the package is on offer with a payload, and that was delivered; when the artifact is
given up, no file has come or gone.  So it is, too, if the download fails. -/
theorem delivered_or_tidy_of_download {arrival : Arrival} (hfetch : s.fetch = fetchLocal arrival)
    (hfs : Grounded [] fs) (snapshot : Snapshot) (key : PackageKey) (target : Target) :
    match s.download snapshot key target fs with
    | (⟨progress, .done artifact⟩, fs') => artifact.key = key ∧ artifact.target = target ∧
        (∃ package payload source content, snapshot.get? key = some package ∧
          package.payload = some payload ∧
          Delivered s payload source content artifact progress fs fs') ∧
        Tidy s fs (discard artifact fs')
    | (⟨_, .failed _⟩, fs') => Tidy s fs fs'
    | (⟨_, .crashed⟩, _) => False := by
  rw [download]
  have hprepare := (meets_prepareDownload_fileMade s snapshot key fs).run fs rfl
  revert hprepare
  rcases s.prepareDownload snapshot key fs with ⟨cause | ⟨payload, path⟩, fs₁⟩
  · exact id
  rintro ⟨hpayload, mid, place, htidy, hmade⟩
  have hreceive := (meets_receive_fileMade (s := s) hmade payload
    (s.fetch payload.url fs₁)).run fs₁ rfl
  revert hreceive
  dsimp only
  rcases s.receive payload path (s.fetch payload.url fs₁) fs₁ with ⟨cause | ⟨⟩, fs₂⟩
  · rintro ⟨content, hfilled⟩
    exact htidy.removeFile hfs hfilled
  · rintro ⟨content, hfetched, hdigest, hfilled⟩
    rw [hfetch] at hfetched ⊢
    obtain ⟨package, hpackage, hoffered⟩ := payload_eq_ok_iff.mp hpayload
    obtain ⟨source, hdelivered⟩ := htidy.delivered hmade hfilled hdigest hfetched key target
    exact ⟨rfl, rfl, ⟨package, payload, source, content, hpackage, hoffered, hdelivered⟩,
      htidy.removeFile hfs hfilled⟩

namespace Sample

/-- A store to which files come byte by byte. -/
def fetching : DirectoryStore :=
  { store with fetch := fetchLocal (.blocks 1 Nat.one_pos) }

/-- A disk with a payload, but without a download directory. -/
def payloads : FileSystem where
  entries := [([Utf8.ofString "payload"], .file (Utf8.ofString "hi"))]
  working := []

/-- An application on offer, with the digest of its payload written in capitals. -/
def declared : Snapshot :=
  (RepositoryIndex.ofRepositories [(Repository.empty "r" none).insert
    ⟨keyOf "app", ⟨0, "1"⟩, [], .full, some ⟨"file:///payload",
      some "8F434346648F6B96DF89DDA901C5176B10A6D83961DD3C1AC88B59B2DC327AA4", none⟩⟩]).snapshot

/-- Downloading it. -/
def fetched : Download × FileSystem :=
  fetching.download declared (keyOf "app") .user payloads

theorem grounded_payloads : Grounded [] payloads :=
  .of_entries fun e he _ => by
    obtain rfl := List.mem_singleton.mp he
    rfl

end Sample

set_option maxRecDepth 100000 in
/-- A package that is downloaded. -/
theorem sample_delivered : Sample.fetching.fetch = fetchLocal (.blocks 1 Nat.one_pos) ∧
    Grounded [] Sample.payloads ∧
    ∃ progress artifact fs', Sample.fetched = (⟨progress, .done artifact⟩, fs') ∧
      artifact.key = Sample.keyOf "app" ∧ artifact.target = .user ∧
      (∃ package payload source content,
        Sample.declared.get? (Sample.keyOf "app") = some package ∧
        package.payload = some payload ∧
        Delivered Sample.fetching payload source content artifact progress Sample.payloads fs') ∧
      Tidy Sample.fetching Sample.payloads (discard artifact fs') := by
  have hdone : Sample.fetched.1.outcome = .done
      ⟨Sample.keyOf "app", .user, .ofString "/downloads/app-0.tar.gz", true⟩ := by decide +kernel
  have hfetch : Sample.fetching.fetch = fetchLocal (.blocks 1 Nat.one_pos) := rfl
  have hdownload := delivered_or_tidy_of_download hfetch Sample.grounded_payloads
    Sample.declared (Sample.keyOf "app") .user
  refine ⟨hfetch, Sample.grounded_payloads, ?_⟩
  rcases hrun : Sample.fetched with ⟨⟨progress, outcome⟩, fs'⟩
  rw [hrun] at hdone
  obtain rfl : outcome = _ := hdone
  rw [Sample.fetched] at hrun
  rw [hrun] at hdownload
  exact ⟨progress, _, fs', rfl, hdownload⟩

end DirectoryStore

end Provision
