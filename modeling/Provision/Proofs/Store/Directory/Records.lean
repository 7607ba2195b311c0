import Provision.Proofs.Bytes
import Provision.Proofs.Json.Reading
import Provision.Proofs.Key
import Provision.Proofs.OrderedMap
import Provision.Proofs.Refusal
import Provision.Proofs.Version
import Provision.Store.Directory.Records

/-!
# Records are read back

The records of a target are written as one text and read as a whole, so a single key that is not
read back makes all of them unreadable.  Records in the order of their keys are read back when
their keys and their versions are (`InstalledRecords.decode_toJson`); the paths of their files
are written as texts and always are.
-/
namespace Provision

namespace Json

/-- **The bytes of a written value are decoded as the value says.** -/
theorem decodeBytes_pretty {α : Type} (decoder : Decoder α) (v : Json) :
    decodeBytes decoder (Utf8.encode (v.pretty 0)) = decoder v.reading := by
  rw [decodeBytes, Utf8.decodeLossy_encode, decode_pretty, Utf8.decode?_eq_some_iff.mpr rfl]
  cases decoder v.reading <;> rfl

theorem exists_reading_of_decodeBytes {α : Type} {decoder : Decoder α} {content : Bytes} {value : α}
    (h : decodeBytes decoder content = .ok value) : ∃ r, decoder r = .ok value := by
  obtain ⟨value', hvalue, hrest⟩ := bind_eq_ok.mp h
  split at hrest
  · cases hrest
    exact exists_reading_of_decode hvalue
  · cases hrest

end Json

namespace Path

/-- A path that can be written is read back. -/
theorem decode_toJson {p : Path} {json : Json} (h : p.toJson = .ok json) :
    decode json.reading = .ok p := by
  rw [toJson] at h
  split at h
  · rename_i text htext
    cases h
    obtain ⟨cs, hcs, rfl⟩ := Option.map_eq_some_iff.mp htext
    have hbytes := Utf8.decode?_eq_some_iff.mp hcs
    change Except.ok (ofString (String.ofList cs)) = .ok p
    rw [ofString, Utf8.ofString, String.toList_ofList, ← hbytes]
  · cases h

/-- A path that has been read can be written. -/
theorem text?_of_decode {p : Path} {reading : Json.Reading} (h : decode reading = .ok p) :
    p.text? ≠ none := by
  obtain ⟨text, -, rfl⟩ := map_eq_ok.mp h
  rw [text?, ofString, Utf8.ofString, Utf8.decode?_eq_some_iff.mpr rfl]
  exact Option.some_ne_none _

theorem text?_of_toJson {p : Path} {cause : DocumentError} (h : p.toJson = .error cause) :
    p.text? = none := by
  rw [toJson] at h
  split at h
  · cases h
  · assumption

end Path

namespace Version

theorem decode_toJson {v : Version} (h : v.Readable) : decode v.toJson.reading = .ok v := by
  change Except.ok (ofString v.toString) = .ok v
  rw [ofString_toString_iff.mpr h]

end Version

namespace InstalledRecord

variable {r : InstalledRecord} {json : Json}

theorem takeMember_version {x : Json.Reading} {v : Version} (h : Version.decode x = .ok v) :
    record.takeMember record.empty (.ok "version", x) = .ok ⟨some v, none⟩ := by
  have hmember : record.takeMember record.empty (.ok "version", x) =
      (Version.decode x).map fun v => ⟨some v, none⟩ := rfl
  rw [hmember, h]
  rfl

theorem takeMember_files {x : Json.Reading} {v : Version} {files : List Path}
    (h : Json.decodeList Path.decode x = .ok files) :
    record.takeMember ⟨some v, none⟩ (.ok "files", x) = .ok ⟨some v, some files⟩ := by
  have hmember : record.takeMember ⟨some v, none⟩ (.ok "files", x) =
      (Json.decodeList Path.decode x).map fun files => ⟨some v, some files⟩ := rfl
  rw [hmember, h]
  rfl

/-- A record is read back, if its version is. -/
theorem decode_toJson (hversion : r.version.Readable) (h : r.toJson = .ok json) :
    decode json.reading = .ok r := by
  obtain ⟨items, hitems, hjson⟩ := bind_eq_ok.mp h
  cases hjson
  have hfiles : Json.decodeList Path.decode (Json.array items).reading = .ok r.files := by
    rw [Json.reading, Json.readings_eq_map, Json.decodeList,
      mapM_map_of_mapM hitems fun p _ json hp => Path.decode_toJson hp]
    rfl
  have hmembers : [(.ok "version", r.version.toJson.reading),
      (.ok "files", (Json.array items).reading)].foldlM record.takeMember record.empty =
        .ok ⟨some r.version, some r.files⟩ := by
    rw [List.foldlM_cons, takeMember_version (Version.decode_toJson hversion)]
    exact bind_eq_ok.mpr ⟨_, rfl, bind_eq_ok.mpr ⟨_, takeMember_files hfiles, rfl⟩⟩
  rw [Json.reading, Json.memberReadings_eq_map, decode, Json.Record.decode]
  simp only [List.map_cons, List.map_nil, hmembers]
  rfl

/-- The files of a record that has been read can be written. -/
theorem text?_of_decode {reading : Json.Reading} (h : decode reading = .ok r) :
    ∀ p ∈ r.files, p.text? ≠ none := by
  have hmember : ∀ m ∈ record.members, ∀ reading (draft draft' : Draft),
      (∀ files, draft.files = some files → ∀ p ∈ files, p.text? ≠ none) →
      m.decode reading draft = .ok draft' →
      ∀ files, draft'.files = some files → ∀ p ∈ files, p.text? ≠ none := by
    intro m hm reading draft draft' hdraft hdecode
    rcases List.mem_cons.mp hm with rfl | hm
    · obtain ⟨version, -, rfl⟩ := map_eq_ok.mp hdecode
      exact hdraft
    · obtain rfl := List.mem_singleton.mp hm
      obtain ⟨files, hfiles, rfl⟩ := map_eq_ok.mp hdecode
      intro files' heq p hp
      obtain rfl := Option.some.inj heq
      obtain ⟨_, hpath⟩ := Json.exists_of_mem_decodeList hfiles hp
      exact Path.text?_of_decode hpath
  obtain ⟨draft, hdraft, hbuild⟩ := Json.Record.exists_draft_of_decode _ nofun hmember h
  obtain ⟨_ | version, _ | files⟩ := draft
  · cases hbuild
  · cases hbuild
  · cases hbuild
  · cases hbuild
    exact hdraft files rfl

theorem exists_of_toJson_eq_error {cause : DocumentError} (h : r.toJson = .error cause) :
    ∃ p ∈ r.files, p.text? = none := by
  rcases bind_eq_error.mp h with h | ⟨items, -, h⟩
  · obtain ⟨p, hp, hrefused⟩ := exists_of_mapM_eq_error h
    exact ⟨p, hp, Path.text?_of_toJson hrefused⟩
  · cases h

end InstalledRecord

namespace InstalledRecords

variable {records : InstalledRecords} {json : Json}

/-- **Records that are read back**: they stand in the order of their keys, which are read back,
and so are the versions. -/
structure Readable (records : InstalledRecords) : Prop where
  ascending : OrderedMap.Ascending records
  normal : ∀ e ∈ records, e.1.Normal
  key : ∀ e ∈ records, e.1.Readable
  version : ∀ e ∈ records, e.2.version.Readable

theorem readable_nil : Readable [] where
  ascending := List.Pairwise.nil
  normal := by simp
  key := by simp
  version := by simp

theorem Readable.insert (h : Readable records) {key : PackageKey} {r : InstalledRecord}
    (hnormal : key.Normal) (hkey : key.Readable) (hversion : r.version.Readable) :
    Readable (OrderedMap.insert key r records) where
  ascending := h.ascending.insert key r
  normal e he := (OrderedMap.mem_insert he).elim (fun heq => heq ▸ hnormal) (h.normal e)
  key e he := (OrderedMap.mem_insert he).elim (fun heq => heq ▸ hkey) (h.key e)
  version e he := (OrderedMap.mem_insert he).elim (fun heq => heq ▸ hversion) (h.version e)

theorem Readable.erase (h : Readable records) (key : PackageKey) :
    Readable (OrderedMap.erase key records) where
  ascending := h.ascending.erase key
  normal e he := h.normal e (OrderedMap.mem_of_mem_erase he)
  key e he := h.key e (OrderedMap.mem_of_mem_erase he)
  version e he := h.version e (OrderedMap.mem_of_mem_erase he)

theorem ofWritten_toString {key : PackageKey} (hnormal : key.Normal) (h : key.Readable) :
    PackageKey.ofWritten key.toString = .ok key := by
  rw [PackageKey.ofWritten, (PackageKey.parse_toString_iff hnormal).mpr h]
  rfl

/-- **Records are read back from their text.** -/
theorem decode_toJson (hrecords : Readable records) (h : records.toJson = .ok json) :
    decode json.reading = .ok records := by
  obtain ⟨members, hmembers, hjson⟩ := bind_eq_ok.mp h
  cases hjson
  have hread : Json.decodeMembers PackageKey.ofWritten InstalledRecord.decode
      (Json.object members).reading = .ok records := by
    rw [Json.reading, Json.memberReadings_eq_map, Json.decodeMembers, mapM_map_of_mapM hmembers]
    · rfl
    · rintro ⟨key, r⟩ he ⟨name, value⟩ hm
      obtain ⟨value', hvalue, hm⟩ := bind_eq_ok.mp hm
      obtain ⟨rfl, rfl⟩ := Prod.mk.inj (Except.ok.inj hm)
      have hkey := ofWritten_toString (hrecords.normal _ he) (hrecords.key _ he)
      have hvalue := InstalledRecord.decode_toJson (hrecords.version _ he) hvalue
      exact bind_eq_ok.mpr ⟨_, rfl, bind_eq_ok.mpr ⟨key, hkey, bind_eq_ok.mpr ⟨r, hvalue, rfl⟩⟩⟩
  rw [decode, hread]
  exact congrArg Except.ok (OrderedMap.ofList_of_ascending hrecords.ascending)

/-- The files of records that have been read can be written. -/
theorem text?_of_decode {reading : Json.Reading} {e : PackageKey × InstalledRecord}
    (h : decode reading = .ok records) (he : e ∈ records) : ∀ p ∈ e.2.files, p.text? ≠ none := by
  obtain ⟨entries, hentries, rfl⟩ := map_eq_ok.mp h
  obtain ⟨-, _, hrecord⟩ :=
    Json.exists_of_mem_decodeMembers hentries (OrderedMap.mem_of_mem_ofList he)
  exact InstalledRecord.text?_of_decode hrecord

/-- Records that cannot be written have a file whose path is no text. -/
theorem exists_of_toJson_eq_error {cause : DocumentError} (h : records.toJson = .error cause) :
    ∃ e ∈ records, ∃ p ∈ e.2.files, p.text? = none := by
  rcases bind_eq_error.mp h with h | ⟨members, -, h⟩
  · obtain ⟨e, he, hrefused⟩ := exists_of_mapM_eq_error h
    rcases bind_eq_error.mp hrefused with hrefused | ⟨json, -, hrefused⟩
    · exact ⟨e, he, InstalledRecord.exists_of_toJson_eq_error hrefused⟩
    · cases hrefused
  · cases h

/-- Only keys that a text names are recorded, and these have no slashes in their ids. -/
theorem slash_notMem_of_decode {reading : Json.Reading} {e : PackageKey × InstalledRecord}
    (h : decode reading = .ok records) (he : e ∈ records) : '/' ∉ e.1.id.toList := by
  obtain ⟨entries, hentries, rfl⟩ := map_eq_ok.mp h
  obtain ⟨⟨text, hkey⟩, -⟩ :=
    Json.exists_of_mem_decodeMembers hentries (OrderedMap.mem_of_mem_ofList he)
  exact (PackageKey.marks_of_parse (mapError_eq_ok.mp hkey)).2.2.1

end InstalledRecords

theorem FileSystem.readJson_eq_ok {α : Type} {fs : FileSystem} {decoder : Json.Decoder α}
    {path : Path} {value : α} (h : fs.readJson decoder path = .ok value) :
    ∃ content, Json.decodeBytes decoder content = .ok value := by
  obtain ⟨⟨place, entry⟩, -, h⟩ := bind_eq_ok.mp h
  cases entry with
  | file content => exact ⟨content, mapError_eq_ok.mp h⟩
  | directory => cases h
  | link path => cases h

namespace DirectoryStore

variable {s : DirectoryStore} {target : Target} {fs : FileSystem} {records : InstalledRecords}

/-- Records are nothing or what is decoded from a file. -/
theorem decode_of_records (h : s.records target fs = .ok records) :
    records = [] ∨ ∃ reading, InstalledRecords.decode reading = .ok records := by
  rw [DirectoryStore.records] at h
  split at h
  · obtain ⟨content, hcontent⟩ := FileSystem.readJson_eq_ok h
    exact Or.inr (Json.exists_reading_of_decodeBytes hcontent)
  · cases h
    exact Or.inl rfl

/-- **A key that is recorded has no slashes in its id**, whoever wrote the records. -/
theorem slash_notMem_of_records {key : PackageKey} (h : s.records target fs = .ok records)
    (hkey : (records.get? key).isSome) : '/' ∉ key.id.toList := by
  obtain ⟨r, hr⟩ := Option.isSome_iff_exists.mp hkey
  have hmem := OrderedMap.mem_of_get? hr
  rcases decode_of_records h with rfl | ⟨reading, hreading⟩
  · cases hmem
  · exact InstalledRecords.slash_notMem_of_decode hreading hmem

/-- **Records that were read cannot be written any more** only for the files that were added. -/
theorem exists_of_insert_toJson_eq_error {key : PackageKey} {r : InstalledRecord}
    {cause : DocumentError} (h : s.records target fs = .ok records)
    (hjson : InstalledRecords.toJson (records.insert key r) = .error cause) :
    ∃ p ∈ r.files, p.text? = none := by
  obtain ⟨e, he, p, hp, htext⟩ := InstalledRecords.exists_of_toJson_eq_error hjson
  rcases OrderedMap.mem_insert he with rfl | he
  · exact ⟨p, hp, htext⟩
  · rcases decode_of_records h with rfl | ⟨reading, hreading⟩
    · cases he
    · exact absurd htext (InstalledRecords.text?_of_decode hreading he p hp)

end DirectoryStore

end Provision
