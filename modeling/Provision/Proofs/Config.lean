import Provision.Config.Json
import Provision.Failure.Json
import Provision.Package.Json
import Provision.Proofs.Files.Directories
import Provision.Proofs.Files.Writing
import Provision.Proofs.Json.Number
import Provision.Proofs.Store.Directory.Records

/-!
# Settings and reports are read back

Saved settings are loaded as they were, in whatever environment that is done: every member is
written, so nothing is left to the environment, and the number of concurrent steps, which loading
raises to one, is never less (`Config.Reachable.one_le`).  Payloads leave out the members that
they do not have, and are read back all the same, as are error reports.
-/
namespace Provision

open FileSystem
open Provision.Path (Ordinary Fits)

/-! ## Members of an object -/

namespace Json

variable {α δ : Type} {record : Record δ α} {draft draft' : δ} {name : String} {r : Reading}
  {value : α}

/-- A member is taken into a draft that does not have it. -/
theorem Record.takeMember_of_find? {m : Member δ}
    (hfind : (record.members.find? fun m => m.name = name) = some m)
    (hgiven : m.given draft = false) (h : m.decode r draft = .ok draft') :
    record.takeMember draft (.ok name, r) = .ok draft' := by
  refine bind_eq_ok.mpr ⟨name, rfl, ?_⟩
  dsimp only
  rw [hfind]
  dsimp only
  rw [hgiven]
  exact h

/-- A structure is read from its members. -/
theorem Record.decode_object {members : List (String × Json)} (draft : δ)
    (hmembers : (memberReadings members).foldlM record.takeMember record.empty = .ok draft)
    (hbuild : record.build draft = .ok value) :
    record.decode (object members).reading = .ok value := by
  rw [reading, Record.decode, hmembers]
  dsimp only [bind, Except.bind, ObjectEnd.check]
  rw [hbuild]
  rfl

/-- **Values are read back** from the texts that they are written as. -/
def ReadBack (toJson : α → Json) (decoder : Decoder α) : Prop :=
  ∀ value, decode decoder (toJson value).compact = .ok value ∧
    decode decoder ((toJson value).pretty 0) = .ok value

theorem readBack_of_reading {toJson : α → Json} {decoder : Decoder α}
    (h : ∀ value, decoder (toJson value).reading = .ok value) : ReadBack toJson decoder :=
  fun value =>
    ⟨(decode_compact decoder _).trans (h value), (decode_pretty decoder _).trans (h value)⟩

end Json

/-! ## Payloads and reports -/

namespace Payload

variable {url : String}

theorem takeMembers_sha256 (sha256 : Option String) :
    (Json.memberReadings (sha256.map fun digest => ("sha256", Json.string digest)).toList).foldlM
      record.takeMember ⟨some url, none, none⟩ = .ok ⟨some url, sha256.map some, none⟩ := by
  cases sha256 <;> rfl

theorem takeMembers_size (sha256 : Option (Option String)) (size : Option UInt64) :
    (Json.memberReadings (size.map fun size => ("size", Json.number size.toNat)).toList).foldlM
      record.takeMember ⟨some url, sha256, none⟩ = .ok ⟨some url, sha256, size.map some⟩ := by
  cases size with
  | none => rfl
  | some size =>
    have hsize : record.takeMember ⟨some url, sha256, none⟩
        (.ok "size", (Json.number size.toNat).reading) = .ok ⟨some url, sha256, some (some size)⟩ :=
      Json.Record.takeMember_of_find? rfl rfl (map_eq_ok.mpr
        ⟨some size, map_eq_ok.mpr ⟨size, Json.decodeUInt64_reading size, rfl⟩, rfl⟩)
    exact bind_eq_ok.mpr ⟨_, hsize, rfl⟩

/-- **A payload is read from what is written of it.** -/
theorem decode_toJson (p : Payload) : decode p.toJson.reading = .ok p := by
  have hurl : record.takeMember record.empty (.ok "url", (Json.string p.url).reading) =
      .ok ⟨some p.url, none, none⟩ := rfl
  refine Json.Record.decode_object ⟨some p.url, p.sha256.map some, p.size.map some⟩ ?_ ?_
  · rw [Json.memberReadings, List.foldlM_cons, hurl, Json.memberReadings_eq_map, List.map_append,
      ← Json.memberReadings_eq_map, ← Json.memberReadings_eq_map]
    refine bind_eq_ok.mpr ⟨_, rfl, ?_⟩
    rw [List.foldlM_append, takeMembers_sha256]
    exact bind_eq_ok.mpr ⟨_, rfl, takeMembers_size _ _⟩
  · obtain ⟨url, _ | sha256, _ | size⟩ := p <;> rfl

end Payload

namespace ErrorReport

/-- **A report is read from what is written of it.** -/
theorem decode_toJson (r : ErrorReport) : decode r.toJson.reading = .ok r := by
  have hcode : record.takeMember record.empty (.ok "code", (Json.number r.code.toNat).reading) =
      .ok ⟨some r.code, none⟩ :=
    Json.Record.takeMember_of_find? rfl rfl
      (map_eq_ok.mpr ⟨_, Json.decodeUInt32_reading r.code, rfl⟩)
  refine Json.Record.decode_object ⟨some r.code, some r.message⟩ ?_ rfl
  exact bind_eq_ok.mpr ⟨_, hcode, rfl⟩

end ErrorReport

namespace Path

theorem exists_toJson {p : Path} (h : p.text? ≠ none) : ∃ json, p.toJson = .ok json := by
  cases htoJson : p.toJson with
  | ok json => exact ⟨json, rfl⟩
  | error cause => exact absurd (text?_of_toJson htoJson) h

end Path

namespace Config

variable {config config' : Config} {json : Json} {path : Path} {fs fs' mid : FileSystem}
  {name : FileName} {p : Path} {place : Location}

/-! ## Settings -/

/-- **Settings that a program comes to have**: those of an environment or of a file, and whatever
is made of them by setting members. -/
inductive Reachable : Config → Prop
  | default (env : Environment) : Reachable (default env)
  | load {env : Environment} {path : Path} {fs : FileSystem} {config : Config}
    (hload : load env path fs = .ok config) : Reachable config
  | setDataDir {config config' : Config} {path : Path} {fs : FileSystem} (h : Reachable config)
    (hset : config.setDataDir? path fs = some config') : Reachable config'
  | setDownloadDir {config config' : Config} {path : Path} {fs : FileSystem} (h : Reachable config)
    (hset : config.setDownloadDir? path fs = some config') : Reachable config'
  | setCascadeUninstall {config : Config} (h : Reachable config) (value : Bool) :
    Reachable (config.setCascadeUninstall value)
  | setMaxConcurrentSteps {config : Config} (h : Reachable config) (value : UInt64) :
    Reachable (config.setMaxConcurrentSteps value)
  | setHttpsOnly {config : Config} (h : Reachable config) (value : Bool) :
    Reachable (config.setHttpsOnly value)
  | setDoChecksums {config : Config} (h : Reachable config) (value : Bool) :
    Reachable (config.setDoChecksums value)

theorem one_le_setMaxConcurrentSteps (config : Config) (value : UInt64) :
    1 ≤ (config.setMaxConcurrentSteps value).maxConcurrentSteps := by
  change 1 ≤ (if value ≤ 1 then 1 else value)
  split
  · exact UInt64.le_refl 1
  · exact UInt64.le_of_lt (UInt64.not_le.mp ‹_›)

theorem setMaxConcurrentSteps_of_one_le (h : 1 ≤ config.maxConcurrentSteps) :
    config.setMaxConcurrentSteps config.maxConcurrentSteps = config := by
  have hmax : (if config.maxConcurrentSteps ≤ 1 then 1 else config.maxConcurrentSteps) =
      config.maxConcurrentSteps := by
    split
    · exact UInt64.le_antisymm h ‹_›
    · rfl
  change { config with maxConcurrentSteps := if config.maxConcurrentSteps ≤ 1 then 1
    else config.maxConcurrentSteps } = config
  rw [hmax]

/-- **At least one step is applied at a time**, whatever was set and loaded. -/
theorem Reachable.one_le (h : Reachable config) : 1 ≤ config.maxConcurrentSteps := by
  induction h with
  | default env => exact UInt64.le_refl 1
  | load hload =>
    obtain ⟨read, -, hread⟩ := bind_eq_ok.mp hload
    cases hread
    exact one_le_setMaxConcurrentSteps read _
  | setDataDir _ hset ih =>
    obtain ⟨-, hset⟩ := Option.ite_none_right_eq_some.mp hset
    cases hset
    exact ih
  | setDownloadDir _ hset ih =>
    obtain ⟨-, hset⟩ := Option.ite_none_right_eq_some.mp hset
    cases hset
    exact ih
  | setMaxConcurrentSteps _ value => exact one_le_setMaxConcurrentSteps _ value
  | setCascadeUninstall _ _ ih => exact ih
  | setHttpsOnly _ _ ih => exact ih
  | setDoChecksums _ _ ih => exact ih

/-- Settings whose directories are texts. -/
structure Textual (config : Config) : Prop where
  dataDir : config.dataDir.text? ≠ none
  downloadDir : config.downloadDir.text? ≠ none

theorem exists_toJson (h : Textual config) : ∃ json, config.toJson = .ok json := by
  obtain ⟨dataDir, hdata⟩ := Path.exists_toJson h.dataDir
  obtain ⟨downloadDir, hdownload⟩ := Path.exists_toJson h.downloadDir
  exact ⟨_, bind_eq_ok.mpr ⟨dataDir, hdata, bind_eq_ok.mpr ⟨downloadDir, hdownload, rfl⟩⟩⟩

/-- **Settings are read from what is written of them**, in any environment. -/
theorem decode_toJson (h : config.toJson = .ok json) (env : Environment) :
    decode env json.reading = .ok config := by
  obtain ⟨dataDir, hdata, h⟩ := bind_eq_ok.mp h
  obtain ⟨downloadDir, hdownload, h⟩ := bind_eq_ok.mp h
  cases h
  refine Json.Record.decode_object ⟨some config.dataDir, some config.downloadDir,
    some config.cascadeUninstall, some config.maxConcurrentSteps, some config.httpsOnly,
    some config.doChecksums⟩ ?_ rfl
  simp only [Json.memberReadings, List.foldlM_cons, List.foldlM_nil]
  refine bind_eq_ok.mpr ⟨_, Json.Record.takeMember_of_find? rfl rfl
    (map_eq_ok.mpr ⟨_, Path.decode_toJson hdata, rfl⟩), ?_⟩
  refine bind_eq_ok.mpr ⟨_, Json.Record.takeMember_of_find? rfl rfl
    (map_eq_ok.mpr ⟨_, Path.decode_toJson hdownload, rfl⟩), ?_⟩
  refine bind_eq_ok.mpr ⟨_, rfl, ?_⟩
  exact bind_eq_ok.mpr ⟨_, Json.Record.takeMember_of_find? rfl rfl
    (map_eq_ok.mpr ⟨_, Json.decodeUInt64_reading config.maxConcurrentSteps, rfl⟩), rfl⟩

/-! ## The settings file -/

/-- **Makes the file that settings are saved in**, with the directories that it lies in. -/
def create (path : Path) : Disk DocumentError Unit := do
  if let some directory := path.parent? then
    (Disk.makeDirectories directory).adapt .io
  (Disk.change (·.write path [])).adapt .io

/-- The settings are written to the file that was made. -/
theorem run_save (hjson : config.toJson = .ok json) (path : Path) (fs : FileSystem) :
    config.save path fs = match create path fs with
      | (.ok (), mid) =>
        (Disk.change (·.write path (Utf8.encode (json.pretty 0)))).adapt DocumentError.io mid
      | (.error cause, mid) => (.error cause, mid) := by
  rw [save, create]
  cases path.parent? with
  | none =>
    simp only [Disk.run_bind, hjson]
    rcases (Disk.change (·.write path [])).adapt DocumentError.io fs with ⟨_ | ⟨⟩, mid⟩ <;> rfl
  | some directory =>
    simp only [Disk.run_bind, hjson]
    rcases (Disk.makeDirectories directory).adapt DocumentError.io fs with ⟨_ | ⟨⟩, mid⟩
    · rfl
    · dsimp only
      rcases (Disk.change (·.write path [])).adapt DocumentError.io mid with ⟨_ | ⟨⟩, mid'⟩ <;> rfl

/-- The last thing that is done to make the file is to write it. -/
theorem exists_write_of_create (h : create path fs = (.ok (), mid)) :
    ∃ before : FileSystem, before.write path [] = .ok mid := by
  rw [create] at h
  cases hparent : path.parent? with
  | none =>
    rw [hparent] at h
    exact ⟨fs, Disk.run_adapt_change_eq_ok.mp h⟩
  | some directory =>
    rw [hparent] at h
    dsimp only at h
    rw [Disk.run_bind] at h
    split at h
    · exact ⟨_, Disk.run_adapt_change_eq_ok.mp h⟩
    · cases h

/-- Settings are saved where their file can be made. -/
theorem save_of_create (hjson : config.toJson = .ok json) (h : create path fs = (.ok (), mid)) :
    ∃ fs', mid.write path (Utf8.encode (json.pretty 0)) = .ok fs' ∧
      config.save path fs = (.ok (), fs') := by
  obtain ⟨before, hbefore⟩ := exists_write_of_create h
  obtain ⟨hslash, place, hplace, hentry, -⟩ := write_eq_ok_iff.mp hbefore
  have hwrite : mid.write path (Utf8.encode (json.pretty 0)) =
      .ok (before.put place (.file (Utf8.encode (json.pretty 0)))) := by
    rw [write_of_write hbefore]
    exact write_eq_ok_iff.mpr ⟨hslash, place, hplace, hentry, rfl⟩
  refine ⟨_, hwrite, ?_⟩
  rw [run_save hjson, h]
  exact Disk.run_adapt_change_eq_ok.mpr hwrite

/-- What was written of settings is loaded. -/
theorem load_of_write (hjson : config.toJson = .ok json) (hone : 1 ≤ config.maxConcurrentSteps)
    (h : mid.write path (Utf8.encode (json.pretty 0)) = .ok fs') (env : Environment) :
    load env path fs' = .ok config := by
  obtain ⟨place, hfind⟩ := find?_of_write h
  have hread : fs'.readJson (decode env) path = .ok config := by
    refine bind_eq_ok.mpr ⟨_, mapError_eq_ok.mpr hfind, mapError_eq_ok.mpr ?_⟩
    rw [Json.decodeBytes_pretty, decode_toJson hjson]
  refine bind_eq_ok.mpr ⟨config, hread, ?_⟩
  rw [setMaxConcurrentSteps_of_one_le hone]
  rfl

/-- A file is made in a directory that is there, in the place of a file at most. -/
theorem create_child (hname : Ordinary name) (h : Names fs p name place)
    (hentry : ∀ entry, fs.get? (place ++ [name]) = some entry → ∃ content, entry = .file content) :
    create (p.join ⟨name⟩) fs = (.ok (), fs.put (place ++ [name]) (.file [])) := by
  have hparent : (p.join ⟨name⟩).parent? = some p.normal := by
    rw [Path.parent?, Path.names_child hname, if_neg (by simp), List.dropLast_concat,
      Path.isAbsolute_child hname]
    rfl
  have hdirectories : Disk.makeDirectories p.normal fs = (.ok (), fs) :=
    Disk.makeDirectories_of_enters (enters_normal_iff.mpr h.enters)
      fun hne => h.fits.normal_of_child hname hne
  have hlocate : fs.locate (p.join ⟨name⟩).trimmed true = .ok (place ++ [name]) := by
    rw [Path.trimmed_child hname]
    refine h.enters.locate_child hname h.fits h.length_le fun _ link hlink => ?_
    obtain ⟨content, hcontent⟩ := hentry _ hlink
    cases hcontent
  have hwrite : fs.write (p.join ⟨name⟩) [] = .ok (fs.put (place ++ [name]) (.file [])) := by
    refine write_eq_ok_iff.mpr ⟨Path.endsInSlash_child hname, _, hlocate, fun hdirectory => ?_, rfl⟩
    obtain ⟨content, hcontent⟩ := hentry _ hdirectory
    cases hcontent
  rw [create, hparent]
  dsimp only
  rw [Disk.run_bind, Disk.run_adapt, hdirectories]
  exact Disk.run_adapt_change_eq_ok.mpr hwrite

/-! ## Saving and loading -/

/-- **Settings that survive being saved.** -/
structure Survives (config : Config) : Prop where
  one_le : 1 ≤ config.maxConcurrentSteps
  /-- What was saved is loaded from there, in any environment. -/
  loaded : ∀ path fs fs', config.save path fs = (.ok (), fs') →
    ∀ env, load env path fs' = .ok config
  /-- Saving fails where no file can be made at the path, and for no other reason. -/
  refused : ∀ path fs cause fs', config.save path fs = (.error cause, fs') →
    create path fs = (.error cause, fs')
  /-- A file can be made in a directory that is there, in the place of a file at most. -/
  saved : ∀ fs p name place, Ordinary name → Names fs p name place →
    (∀ entry, fs.get? (place ++ [name]) = some entry → ∃ content, entry = .file content) →
    ∃ fs', config.save (p.join ⟨name⟩) fs = (.ok (), fs')

theorem Reachable.survives (h : Reachable config) (htext : Textual config) : Survives config := by
  obtain ⟨json, hjson⟩ := exists_toJson htext
  refine ⟨h.one_le, fun path fs fs' hsave => ?_, fun path fs cause fs' hsave => ?_,
    fun fs p name place hname hnames hentry => ?_⟩
  · rcases hcreate : create path fs with ⟨cause | ⟨⟩, mid⟩
    · rw [run_save hjson, hcreate] at hsave
      cases hsave
    · obtain ⟨saved, hwrite, hsaved⟩ := save_of_create hjson hcreate
      cases hsaved.symm.trans hsave
      exact load_of_write hjson h.one_le hwrite
  · rcases hcreate : create path fs with ⟨cause' | ⟨⟩, mid⟩
    · rw [run_save hjson, hcreate] at hsave
      exact hsave
    · obtain ⟨saved, -, hsaved⟩ := save_of_create hjson hcreate
      cases hsaved.symm.trans hsave
  · obtain ⟨saved, -, hsaved⟩ := save_of_create hjson (create_child hname hnames hentry)
    exact ⟨saved, hsaved⟩

/-- **Settings and reports survive being written.**  Settings that a program comes to have, with
directories that are texts, are loaded as they were saved; payloads and error reports are read
back from their texts. -/
theorem settings_and_reports_readBack :
    (∀ config, Reachable config → Textual config → Survives config) ∧
      Json.ReadBack Payload.toJson Payload.decode ∧
      Json.ReadBack ErrorReport.toJson ErrorReport.decode :=
  ⟨fun _ h htext => h.survives htext, Json.readBack_of_reading Payload.decode_toJson,
    Json.readBack_of_reading ErrorReport.decode_toJson⟩

namespace Sample

/-- An environment in which only a home is set, whose name is written with escapes. -/
def environment : Environment where
  home := some "/home/\"\\"
  dataHome := none
  cacheHome := none
  configHome := none
  temporary := none

/-- Its settings with two members set, of which one is raised. -/
def settings : Config :=
  ((default environment).setHttpsOnly false).setMaxConcurrentSteps 0

/-- The name of a settings file. -/
def fileName : FileName :=
  Utf8.ofString "c.json"

theorem names_fileName : Names .empty ⟨[Path.slash]⟩ fileName [] where
  fits := ⟨by decide, by decide, by decide⟩
  length_le := by decide
  enters := enters_of_find? (by decide)

end Sample

/-- Settings that are saved in the root of an empty disk, and loaded where nothing is set. -/
theorem sample_settings_readBack : Reachable Sample.settings ∧ Textual Sample.settings ∧
    ∃ fs', Sample.settings.save (.ofString "/c.json") .empty = (.ok (), fs') ∧
      load ⟨none, none, none, none, none⟩ (.ofString "/c.json") fs' = .ok Sample.settings := by
  have hreachable : Reachable Sample.settings :=
    .setMaxConcurrentSteps (.setHttpsOnly (.default Sample.environment) false) 0
  have htext : Textual Sample.settings := ⟨by decide +kernel, by decide +kernel⟩
  have hsurvives := settings_and_reports_readBack.1 _ hreachable htext
  have hname : Ordinary Sample.fileName :=
    Path.ordinary_ofString (by decide) (by decide) (by decide) (by decide)
  have hfree : FileSystem.empty.get? ([] ++ [Sample.fileName]) = none := rfl
  obtain ⟨fs', hsaved⟩ := hsurvives.saved .empty ⟨[Path.slash]⟩ Sample.fileName [] hname
    Sample.names_fileName fun entry hentry => nomatch hfree.symm.trans hentry
  exact ⟨hreachable, htext, fs', hsaved, hsurvives.loaded _ _ _ hsaved _⟩

end Config

end Provision
