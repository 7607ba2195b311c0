import Mathlib.Data.List.Infix
import Provision.CommandLine.Program
import Provision.Proofs.Dependents

/-!
# Naming packages on the command line

An argument that names a package is a whole key or a bare id.  `findKey` takes it for a key
only if `://` stands in it, so a key is found by its text exactly if its url or its channel
holds these characters (`findKey_toString_iff`).  The text of any other key is looked up as an
id and found nowhere.

What is found can be relied upon: it is in the index, and the argument is its id or a text that
is read as the key (`named_of_findKey`).
-/
namespace Provision.CommandLine

/-- What an argument needs to be taken for a key. -/
def addressMark : List Char :=
  "://".toList

/-- **A key that shows where its repository is**: its url has an address mark, or its channel. -/
def Addressed (key : PackageKey) : Prop :=
  addressMark <:+: key.repositoryUrl.toList ∨
    ∃ channel, key.channel = some channel ∧ addressMark <:+: channel.toList

instance (key : PackageKey) : Decidable (Addressed key) :=
  match hchannel : key.channel with
  | none =>
    decidable_of_iff (addressMark <:+: key.repositoryUrl.toList) (by simp [Addressed, hchannel])
  | some channel =>
    decidable_of_iff (addressMark <:+: key.repositoryUrl.toList ∨ addressMark <:+: channel.toList)
      (by simp [Addressed, hchannel])

/-- **Repositories that were read from files** and do not use the marks of keys in their urls
and ids. -/
structure WellNamed (repositories : List Repository) : Prop where
  read : ∀ r ∈ repositories, ∃ text, Repository.ofJson text = .ok r
  url : ∀ r ∈ repositories, r.url ≠ "" ∧ '#' ∉ r.url.toList
  id : ∀ r ∈ repositories, ∀ p ∈ r.packages,
    p.key.id ≠ "" ∧ '/' ∉ p.key.id.toList ∧ '#' ∉ p.key.id.toList

variable {s : Snapshot} {key : PackageKey} {p : Package} {reference : String}

/-! ## Where the mark can stand in a written key -/

/-- The id and the segment before it do not bring an address mark about. -/
theorem addressMark_infix_body_iff (hurl : key.repositoryUrl.toList.getLast? ≠ some '/')
    (hid : '/' ∉ key.id.toList) :
    addressMark <:+: key.body ↔ addressMark <:+: key.repositoryUrl.toList := by
  have hbody : key.body = (key.repositoryUrl.toList ++ ['/']) ++
      'p' :: (['a', 'c', 'k', 'a', 'g', 'e'] ++ 's' :: '/' :: key.id.toList) := by
    rw [PackageKey.body, List.append_assoc, List.append_assoc]
    rfl
  have htail : ¬ addressMark <:+: '/' :: key.id.toList := by
    rw [List.infix_cons_iff, not_or]
    refine ⟨fun hprefix => ?_, fun hlater => hid (hlater.subset (by decide))⟩
    exact absurd (List.cons_prefix_cons.mp hprefix).1 (by decide)
  have hfront : addressMark <:+: key.repositoryUrl.toList ++ ['/'] ↔
      addressMark <:+: key.repositoryUrl.toList := by
    rw [List.infix_concat_iff]
    refine or_iff_right fun hsuffix => ?_
    obtain ⟨before, hbefore⟩ := hsuffix
    have hsplit : (before ++ [':', '/']) ++ ['/'] = key.repositoryUrl.toList ++ ['/'] := by
      rw [← hbefore, List.append_assoc]
      rfl
    rw [← List.append_cancel_right hsplit] at hurl
    simp at hurl
  rw [hbody, Text.infix_append_cons_iff (c := 'p') (by decide),
    Text.infix_append_cons_iff (c := 's') (by decide), hfront]
  refine or_iff_left ?_
  rintro (h | h)
  · exact absurd h (by decide)
  · exact htail h

/-- **A written key shows an address mark** where its url or its channel does. -/
theorem addressMark_infix_toString_iff (hurl : key.repositoryUrl.toList.getLast? ≠ some '/')
    (hid : '/' ∉ key.id.toList) : addressMark <:+: key.toString.toList ↔ Addressed key := by
  rw [PackageKey.toList_toString, Addressed]
  cases key.channel with
  | none => simp [addressMark_infix_body_iff hurl hid]
  | some channel =>
    rw [Text.infix_append_cons_iff (by decide), addressMark_infix_body_iff hurl hid]
    simp

/-! ## What is found -/

theorem findKey_of_mark (h : addressMark <:+: reference.toList) : findKey s reference =
    match PackageKey.parse reference with
    | .error cause => .error (.key cause)
    | .ok key => if s.contains key then .ok key else .error (.unknownPackage reference) := by
  exact if_pos (Text.holds_iff.mpr h)

theorem findKey_of_no_mark (h : ¬ addressMark <:+: reference.toList) : findKey s reference =
    match s.findById? reference with
    | some package => .ok package.key
    | none => .error (.unknownPackage reference) := by
  exact if_neg fun hholds => h (Text.holds_iff.mp hholds)

/-- A package is found under its key if the key is of the url of its repository. -/
theorem contains_of_mem {repo : Repository} (hrepo : repo ∈ s.repositories) (hp : p ∈ repo.packages)
    (hurl : p.key.repositoryUrl = repo.url) : s.contains p.key = true := by
  rw [Snapshot.contains, Snapshot.get?, List.findSome?_isSome_iff]
  refine ⟨repo, List.mem_filter.mpr ⟨hrepo, by simpa using hurl.symm⟩, ?_⟩
  rw [Repository.get?_eq_some_iff.mpr ⟨hp, rfl⟩]
  rfl

namespace WellNamed
variable (h : WellNamed s.repositories)
include h

theorem contains (hp : p ∈ s.packages) : s.contains p.key = true := by
  obtain ⟨repo, hrepo, hp⟩ := Snapshot.mem_packages.mp hp
  obtain ⟨text, htext⟩ := h.read repo hrepo
  exact contains_of_mem hrepo hp (Repository.place_of_ofJson htext hp).1

/-- The texts of all keys are read back. -/
theorem parse_toString (hp : p ∈ s.packages) : PackageKey.parse p.key.toString = .ok p.key := by
  obtain ⟨repo, hrepo, hp⟩ := Snapshot.mem_packages.mp hp
  obtain ⟨text, htext⟩ := h.read repo hrepo
  exact (Repository.parse_toString_iff_of_ofJson htext hp).mpr
    ⟨h.url repo hrepo, h.id repo hrepo p hp⟩

theorem slash_notMem (hp : p ∈ s.packages) : '/' ∉ p.key.id.toList := by
  obtain ⟨repo, hrepo, hp⟩ := Snapshot.mem_packages.mp hp
  exact (h.id repo hrepo p hp).2.1

theorem mark_iff (hp : p ∈ s.packages) :
    addressMark <:+: p.key.toString.toList ↔ Addressed p.key := by
  refine addressMark_infix_toString_iff ?_ (h.slash_notMem hp)
  obtain ⟨repo, hrepo, hp⟩ := Snapshot.mem_packages.mp hp
  obtain ⟨text, htext⟩ := h.read repo hrepo
  rw [(Repository.place_of_ofJson htext hp).1, ← (Repository.own_of_ofJson htext).2,
    PackageKey.normalizeUrl, String.toList_ofList]
  exact Text.getLast?_trimEnd

/-- No id is the text of a key. -/
theorem findById?_toString (key : PackageKey) : s.findById? key.toString = none := by
  refine List.find?_eq_none.mpr fun p hp hid => h.slash_notMem hp ?_
  rw [decide_eq_true_eq] at hid
  rw [hid, PackageKey.toList_toString, PackageKey.body]
  have hslash : '/' ∈ PackageKey.segment := by decide
  simp [hslash]

/-- **A key with an address mark is found by its text.** -/
theorem findKey_of_addressed (hp : p ∈ s.packages) (haddressed : Addressed p.key) :
    findKey s p.key.toString = .ok p.key := by
  rw [findKey_of_mark ((h.mark_iff hp).mpr haddressed), h.parse_toString hp]
  exact if_pos (h.contains hp)

/-- The text of any other key is taken for an id, which no package has. -/
theorem findKey_of_not_addressed (hp : p ∈ s.packages) (haddressed : ¬ Addressed p.key) :
    findKey s p.key.toString = .error (.unknownPackage p.key.toString) := by
  rw [findKey_of_no_mark fun hmark => haddressed ((h.mark_iff hp).mp hmark),
    h.findById?_toString]

/-- **Which keys are found by their texts.** -/
theorem findKey_toString_iff (hp : p ∈ s.packages) :
    findKey s p.key.toString = .ok p.key ↔ Addressed p.key := by
  refine ⟨fun hfound => ?_, h.findKey_of_addressed hp⟩
  by_contra haddressed
  rw [h.findKey_of_not_addressed hp haddressed] at hfound
  cases hfound

/-- **What is found is in the index**, and the argument names it. -/
theorem named_of_findKey (hfound : findKey s reference = .ok key) :
    s.contains key = true ∧ (reference = key.id ∨ PackageKey.parse reference = .ok key) := by
  by_cases hmark : addressMark <:+: reference.toList
  · rw [findKey_of_mark hmark] at hfound
    split at hfound
    · cases hfound
    · rename_i parsed hparse
      split at hfound
      · rename_i hcontains
        cases hfound
        exact ⟨hcontains, Or.inr hparse⟩
      · cases hfound
  · rw [findKey_of_no_mark hmark] at hfound
    split at hfound
    · rename_i p hp
      cases hfound
      refine ⟨h.contains (List.mem_of_find?_eq_some hp), Or.inl ?_⟩
      simpa [eq_comm] using List.find?_some hp
    · cases hfound

end WellNamed

/-! ## The index of a refresh -/

/-- **Which packages can be named by the texts of their keys**, in an index of repositories whose
keys can be read back: those whose url or channel shows an address mark.  The text of any other
key is refused as unknown.  Whatever argument finds a key is its id or a text that is read as it,
and the key is in the index. -/
theorem findKey_refresh {repositories : List Repository} (h : WellNamed repositories)
    (index : RepositoryIndex) :
    let s := (index.refresh repositories).snapshot
    (∀ p ∈ s.packages,
      (findKey s p.key.toString = .ok p.key ↔ Addressed p.key) ∧
      (¬ Addressed p.key →
        findKey s p.key.toString = .error (.unknownPackage p.key.toString))) ∧
    ∀ reference key, findKey s reference = .ok key →
      s.contains key = true ∧ (reference = key.id ∨ PackageKey.parse reference = .ok key) := by
  intro s
  have hs : WellNamed s.repositories := h
  refine ⟨fun p hp => ⟨hs.findKey_toString_iff hp, hs.findKey_of_not_addressed hp⟩, ?_⟩
  exact fun reference key hfound => hs.named_of_findKey hfound

namespace Sample

/-- An application in a repository with a whole address, and one in a repository without. -/
def remote : List Char :=
  "\x7b\"url\":\"https://x.org/\",\"packages\":\x7b\"app\":\x7b\"version\":\"1\"\x7d\x7d\x7d".toList

def plain : List Char :=
  "\x7b\"url\":\"r\",\"packages\":\x7b\"app\":\x7b\"version\":\"1\"\x7d\x7d\x7d".toList

def repositories : List Repository :=
  ([remote, plain].mapM Repository.ofJson).toOption.getD []

theorem mapM_ofJson : [remote, plain].mapM Repository.ofJson = .ok repositories := by
  have hsome : ([remote, plain].mapM Repository.ofJson).toOption.isSome = true := by decide +kernel
  rw [repositories]
  cases hread : [remote, plain].mapM Repository.ofJson with
  | error cause =>
    rw [hread] at hsome
    cases hsome
  | ok repositories => rfl

theorem wellNamed : WellNamed repositories where
  read r hr := by
    obtain ⟨text, -, htext⟩ := exists_of_mem_mapM mapM_ofJson hr
    exact ⟨text, htext⟩
  url := by decide +kernel
  id := by decide +kernel

end Sample

/-- With both repositories loaded, the application at the whole address is found by the text of
its key. -/
theorem sample_findKey : let s := (RepositoryIndex.empty.refresh Sample.repositories).snapshot
    WellNamed Sample.repositories ∧
      ∃ p ∈ s.packages, p.key = ⟨"https://x.org", "app", none⟩ ∧ Addressed p.key ∧
        findKey s p.key.toString = .ok p.key ∧
        s.contains p.key = true ∧
        (p.key.toString = p.key.id ∨ PackageKey.parse p.key.toString = .ok p.key) := by
  intro s
  obtain ⟨hnames, hfound⟩ := findKey_refresh Sample.wellNamed RepositoryIndex.empty
  have hmem : (⟨"https://x.org", "app", none⟩ : PackageKey) ∈ s.packages.map Package.key := by
    decide +kernel
  obtain ⟨p, hp, hkey⟩ := List.mem_map.mp hmem
  have haddressed : Addressed p.key := by
    rw [hkey]
    decide +kernel
  have hok := (hnames p hp).1.mpr haddressed
  exact ⟨Sample.wellNamed, p, hp, hkey, haddressed, hok, hfound _ _ hok⟩

/-- The one without has a key that is read back from its text; but the text does not name it,
and its id names the other application. -/
theorem plain_key_not_found : let s := (RepositoryIndex.empty.refresh Sample.repositories).snapshot
    WellNamed Sample.repositories ∧
      ∃ p ∈ s.packages, p.key = ⟨"r", "app", none⟩ ∧
        PackageKey.parse p.key.toString = .ok p.key ∧
        findKey s p.key.toString ≠ .ok p.key ∧ findKey s p.key.id ≠ .ok p.key := by
  intro s
  have hmem : (⟨"r", "app", none⟩ : PackageKey) ∈ s.packages.map Package.key := by
    decide +kernel
  obtain ⟨p, hp, hkey⟩ := List.mem_map.mp hmem
  refine ⟨Sample.wellNamed, p, hp, hkey, ?_⟩
  rw [hkey]
  have hread : PackageKey.parse (PackageKey.toString ⟨"r", "app", none⟩) =
      .ok ⟨"r", "app", none⟩ := by
    decide +kernel
  have htext : (findKey s (PackageKey.toString ⟨"r", "app", none⟩)).toOption = none := by
    decide +kernel
  have hid : (findKey s "app").toOption = some ⟨"https://x.org", "app", none⟩ := by
    decide +kernel
  refine ⟨hread, fun hfound => ?_, fun hfound => ?_⟩
  · rw [hfound] at htext
    cases htext
  · rw [hfound] at hid
    exact absurd hid (by decide)

end Provision.CommandLine
