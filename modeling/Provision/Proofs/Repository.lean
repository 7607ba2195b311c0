import Provision.Proofs.Json.Reading
import Provision.Proofs.Key
import Provision.Repository.Json

/-!
# What an accepted repository holds

A repository file names its packages by their ids, and the repository makes the keys
(`own_of_ofJson`).  References to other packages are checked when a file is read; the ids and
the url are not.  So a file may be accepted although the text of one of its keys names another
package, or none (`marked_key_not_read_back`).  Which keys are safe can be told from the id
and the url alone (`parse_toString_iff_of_ofJson`).
-/
namespace Provision
namespace Repository

/-- Every package of the repository has the key that the repository makes of its id. -/
def Own (r : Repository) : Prop :=
  ∀ p ∈ r.packages, p.key = r.keyFor p.key.id

theorem own_empty (url : String) (channel : Option String) : Own (empty url channel) :=
  fun _ hp => absurd hp List.not_mem_nil

/-- A described package comes under the key that the repository makes of its id. -/
theorem own_of_addPackage {r r' : Repository} {entry : String × PackageDescription}
    (h : RepositoryDescription.addPackage r entry = .ok r') (hown : Own r) :
    Own r' ∧ r'.url = r.url ∧ r'.channel = r.channel := by
  obtain ⟨dependencies, -, heq⟩ := bind_eq_ok.mp h
  cases heq
  refine ⟨fun p hp => ?_, rfl, rfl⟩
  rcases PackageList.mem_insert hp with rfl | hp
  · rfl
  · exact hown p hp

theorem own_of_foldlM {entries : OrderedMap String PackageDescription} {r r' : Repository}
    (h : entries.foldlM RepositoryDescription.addPackage r = .ok r') (hown : Own r) :
    Own r' ∧ r'.url = r.url ∧ r'.channel = r.channel := by
  induction entries generalizing r with
  | nil =>
    cases h
    exact ⟨hown, rfl, rfl⟩
  | cons entry rest ih =>
    rw [List.foldlM_cons] at h
    obtain ⟨next, hnext, hrest⟩ := bind_eq_ok.mp h
    obtain ⟨hown', hurl, hchannel⟩ := own_of_addPackage hnext hown
    obtain ⟨hown'', hurl', hchannel'⟩ := ih hrest hown'
    exact ⟨hown'', hurl'.trans hurl, hchannel'.trans hchannel⟩

/-- What is read as a repository is the repository of some description. -/
theorem exists_description {text : List Char} {r : Repository} (h : ofJson text = .ok r) :
    ∃ d : RepositoryDescription, d.toRepository = .ok r := by
  obtain ⟨reading, hreading⟩ := Json.exists_reading_of_decode h
  obtain ⟨d, -, hd⟩ := bind_eq_ok.mp hreading
  exact ⟨d, mapError_eq_ok.mp hd⟩

/-- An accepted repository keeps its url and channel as keys have them. -/
theorem normal_of_ofJson {text : List Char} {r : Repository} (h : ofJson text = .ok r) :
    Own r ∧ PackageKey.normalizeUrl r.url = r.url ∧
      PackageKey.normalizeChannel r.channel = r.channel := by
  obtain ⟨d, hd⟩ := exists_description h
  obtain ⟨hown, hurl, hchannel⟩ := own_of_foldlM hd (own_empty d.url d.channel)
  refine ⟨hown, ?_, ?_⟩
  · rw [hurl]
    exact PackageKey.normalizeUrl_normalizeUrl d.url
  · rw [hchannel]
    exact PackageKey.normalizeChannel_normalizeChannel d.channel

/-- **An accepted repository makes the keys of its packages itself**, all with its own url. -/
theorem own_of_ofJson {text : List Char} {r : Repository} (h : ofJson text = .ok r) :
    Own r ∧ PackageKey.normalizeUrl r.url = r.url :=
  ⟨(normal_of_ofJson h).1, (normal_of_ofJson h).2.1⟩

/-- The keys of an accepted repository name it by its url and its channel. -/
theorem place_of_ofJson {text : List Char} {r : Repository} (h : ofJson text = .ok r)
    {p : Package} (hp : p ∈ r.packages) :
    p.key.repositoryUrl = r.url ∧ p.key.channel = r.channel := by
  obtain ⟨hown, hurl, hchannel⟩ := normal_of_ofJson h
  rw [hown p hp]
  exact ⟨hurl, hchannel⟩

/-- **Which keys of an accepted repository are read back from their texts**: those with an id
that is a single name without marks, in a repository whose url is there and has no mark. -/
theorem parse_toString_iff_of_ofJson {text : List Char} {r : Repository}
    (h : ofJson text = .ok r) {p : Package} (hp : p ∈ r.packages) :
    PackageKey.parse p.key.toString = .ok p.key ↔
      (r.url ≠ "" ∧ '#' ∉ r.url.toList) ∧
        p.key.id ≠ "" ∧ '/' ∉ p.key.id.toList ∧ '#' ∉ p.key.id.toList := by
  obtain ⟨hown, hnormal⟩ := own_of_ofJson h
  have hurl : p.key.repositoryUrl = r.url := by
    rw [hown p hp]
    exact hnormal
  have hkey : PackageKey.Normal p.key := by
    rw [hown p hp]
    exact PackageKey.normal_make r.url p.key.id r.channel
  rw [PackageKey.parse_toString_iff hkey, ← hurl]
  constructor
  · rintro ⟨hne, hmark, hid_ne, hslash, hid_mark⟩
    exact ⟨⟨hne, hmark⟩, hid_ne, hslash, hid_mark⟩
  · rintro ⟨⟨hne, hmark⟩, hid_ne, hslash, hid_mark⟩
    exact ⟨hne, hmark, hid_ne, hslash, hid_mark⟩

namespace Sample

/-- A repository file with a package whose id holds a mark. -/
def document : List Char :=
  ("\x7b\"url\":\"r\",\"packages\":\x7b\"a#b\":\x7b\"version\":\"1\"\x7d," ++
    "\"app\":\x7b\"version\":\"2\"\x7d\x7d\x7d").toList

theorem keys_document : (ofJson document).toOption.map (fun r => r.packages.map Package.key) =
    some (["a#b", "app"].map fun id => ⟨"r", id, none⟩) := by
  decide +kernel

theorem exists_package {id : String} (hid : id ∈ ["a#b", "app"]) :
    ∃ r, ofJson document = .ok r ∧ ∃ p ∈ r.packages, p.key = ⟨"r", id, none⟩ := by
  have hkeys := keys_document
  cases hr : ofJson document with
  | error cause =>
    rw [hr] at hkeys
    cases hkeys
  | ok r =>
    rw [hr] at hkeys
    have hmem := List.mem_map_of_mem (f := fun id => (⟨"r", id, none⟩ : PackageKey)) hid
    rw [← Option.some.inj hkeys] at hmem
    exact ⟨r, rfl, List.mem_map.mp hmem⟩

end Sample

/-- The application of the sample file is read back. -/
theorem sample_parse_toString_iff : ∃ r, ofJson Sample.document = .ok r ∧
    ∃ p ∈ r.packages, p.key = ⟨"r", "app", none⟩ ∧
      (PackageKey.parse p.key.toString = .ok p.key ↔
        (r.url ≠ "" ∧ '#' ∉ r.url.toList) ∧
          p.key.id ≠ "" ∧ '/' ∉ p.key.id.toList ∧ '#' ∉ p.key.id.toList) := by
  obtain ⟨r, hr, p, hp, hkey⟩ := Sample.exists_package (List.mem_cons_of_mem _ List.mem_cons_self)
  exact ⟨r, hr, p, hp, hkey, parse_toString_iff_of_ofJson hr hp⟩

/-- Its neighbour has a key whose text names a package of another channel. -/
theorem marked_key_not_read_back : ∃ r, ofJson Sample.document = .ok r ∧
    ∃ p ∈ r.packages, PackageKey.parse p.key.toString = .ok ⟨"r", "a", some "b"⟩ ∧
      PackageKey.parse p.key.toString ≠ .ok p.key := by
  obtain ⟨r, hr, p, hp, hkey⟩ := Sample.exists_package List.mem_cons_self
  refine ⟨r, hr, p, hp, ?_⟩
  rw [hkey]
  decide +kernel

end Repository
end Provision
