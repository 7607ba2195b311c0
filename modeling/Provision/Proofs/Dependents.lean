import Mathlib.Data.List.Nodup
import Provision.Proofs.Dependency
import Provision.Proofs.Repository

/-!
# Who depends on a package

`Snapshot.dependentsOf` looks at every package of every repository, `Snapshot.get?` takes a
key to the first repository under its url that has it.  A package that no key leads to is
`Hidden`: it is kept under another url than its key says, or a repository that was loaded
before has a package with its key.

The dependents of a package are those that `get?` shows to depend on it, and besides them
what hidden packages list (`mem_dependentsOf_iff`).  So the two describe one relation exactly
if every hidden package lists nothing but what the package in its place lists
(`dependentsOf_inverse_iff`).  Both hold of whatever a refresh loads (`dependentsOf_refresh`).
Repositories that were read from files with different urls or channels hide nothing
(`faithful_of_ofJson`); two files for the same url and channel may
(`replaced_package_depends`).
-/
namespace Provision

namespace Repository
variable {r : Repository} {key : PackageKey} {p : Package}

/-- A repository has one package a key. -/
theorem eq_of_key_eq {q : Package} (hp : p ∈ r.packages) (hq : q ∈ r.packages)
    (h : p.key = q.key) : p = q := by
  have hnodup : (r.packages.map Package.key).Nodup := by
    refine List.pairwise_map.mpr (r.sorted.imp fun {a b} hlt heq => ?_)
    have hself : compare b.key b.key = .eq := Std.ReflCmp.compare_self
    rw [heq, hself] at hlt
    cases hlt
  exact List.inj_on_of_nodup_map hnodup hp hq h

theorem get?_eq_some_iff : r.get? key = some p ↔ p ∈ r.packages ∧ p.key = key := by
  constructor
  · intro h
    exact ⟨List.mem_of_find?_eq_some h, by simpa using List.find?_some h⟩
  · rintro ⟨hp, rfl⟩
    obtain ⟨q, hq⟩ : ∃ q, r.get? p.key = some q :=
      Option.isSome_iff_exists.mp (List.find?_isSome.mpr ⟨p, hp, by simp⟩)
    have hkey : q.key = p.key := by simpa using List.find?_some hq
    rw [hq, eq_of_key_eq (List.mem_of_find?_eq_some hq) hp hkey]

end Repository

namespace Snapshot
variable {s : Snapshot} {key dependency : PackageKey} {p : Package}

/-- The package of a key is that of the first repository which stands for the key and has it. -/
theorem get?_eq_some_iff : s.get? key = some p ↔ ∃ before repo after,
    s.repositories = before ++ repo :: after ∧ repo.url = key.repositoryUrl ∧
      repo.get? key = some p ∧
      ∀ earlier ∈ before, earlier.url = key.repositoryUrl → earlier.get? key = none := by
  have hfilter : s.get? key = s.repositories.findSome? fun repo =>
      if repo.url = key.repositoryUrl then repo.get? key else none := by
    rw [get?]
    induction s.repositories with
    | nil => rfl
    | cons repo rest ih =>
      by_cases hurl : repo.url = key.repositoryUrl
      · simp [hurl, List.findSome?_cons, ih]
      · simp [hurl, ih]
  rw [hfilter, List.findSome?_eq_some_iff]
  simp only [ite_eq_right_iff, Option.ite_none_right_eq_some, and_assoc]

/-- **A package that its key does not lead to**: it is kept under another url, or an earlier
repository has the key. -/
def Hidden (s : Snapshot) (p : Package) : Prop :=
  ∃ before repo after, s.repositories = before ++ repo :: after ∧ p ∈ repo.packages ∧
    (repo.url ≠ p.key.repositoryUrl ∨ ∃ earlier ∈ before,
      earlier.url = p.key.repositoryUrl ∧ (earlier.get? p.key).isSome = true)

/-- Every package is shown under its key or hidden. -/
theorem mem_packages_iff : p ∈ s.packages ↔ s.get? p.key = some p ∨ s.Hidden p := by
  constructor
  · intro hp
    obtain ⟨repo, hrepo, hp⟩ := mem_packages.mp hp
    obtain ⟨before, after, hsplit⟩ := List.append_of_mem hrepo
    by_cases hurl : repo.url = p.key.repositoryUrl
    · by_cases hearlier : ∃ earlier ∈ before,
          earlier.url = p.key.repositoryUrl ∧ (earlier.get? p.key).isSome = true
      · exact Or.inr ⟨before, repo, after, hsplit, hp, Or.inr hearlier⟩
      · refine Or.inl (get?_eq_some_iff.mpr ⟨before, repo, after, hsplit, hurl,
          Repository.get?_eq_some_iff.mpr ⟨hp, rfl⟩, fun earlier hmem heq => ?_⟩)
        exact Option.not_isSome_iff_eq_none.mp fun hsome => hearlier ⟨earlier, hmem, heq, hsome⟩
    · exact Or.inr ⟨before, repo, after, hsplit, hp, Or.inl hurl⟩
  · rintro (h | ⟨before, repo, after, hsplit, hp, -⟩)
    · exact (mem_of_get? h).1
    · exact mem_packages.mpr ⟨repo, by simp [hsplit], hp⟩

/-- A snapshot is faithful if what it hides is shown elsewhere. -/
theorem faithful_iff : s.Faithful ↔ ∀ p, s.Hidden p → s.get? p.key = some p := by
  have hpackages : s.Faithful ↔ ∀ p ∈ s.packages, s.get? p.key = some p := by
    simp only [Faithful, mem_packages]
    exact ⟨fun h p ⟨repo, hrepo, hp⟩ => h repo hrepo p hp,
      fun h repo hrepo p hp => h p ⟨repo, hrepo, hp⟩⟩
  rw [hpackages]
  simp only [mem_packages_iff]
  exact ⟨fun h p hp => h p (Or.inr hp), fun h p hp => hp.elim id (h p)⟩

/-- **The dependents of a package** are the packages that show to depend on it, and those
that hidden packages make depend on it. -/
theorem mem_dependentsOf_iff : key ∈ s.dependentsOf dependency ↔
    (∃ p, s.get? key = some p ∧ dependency ∈ p.dependencies) ∨
      ∃ p, s.Hidden p ∧ p.key = key ∧ dependency ∈ p.dependencies := by
  rw [mem_dependentsOf]
  constructor
  · rintro ⟨p, hp, rfl, hlists⟩
    rcases mem_packages_iff.mp hp with hget | hhidden
    · exact Or.inl ⟨p, hget, hlists⟩
    · exact Or.inr ⟨p, hhidden, rfl, hlists⟩
  · rintro (⟨p, hget, hlists⟩ | ⟨p, hhidden, rfl, hlists⟩)
    · obtain ⟨hp, hkey⟩ := mem_of_get? hget
      exact ⟨p, hp, hkey, hlists⟩
    · exact ⟨p, mem_packages_iff.mpr (Or.inr hhidden), rfl, hlists⟩

/-- **When dependents and dependencies are one relation**: a hidden package lists nothing but
what the package in its place lists, too. -/
theorem dependentsOf_inverse_iff :
    (∀ key dependency, key ∈ s.dependentsOf dependency ↔
      ∃ p, s.get? key = some p ∧ dependency ∈ p.dependencies) ↔
    ∀ p, s.Hidden p → ∀ dependency ∈ p.dependencies,
      ∃ shown, s.get? p.key = some shown ∧ dependency ∈ shown.dependencies := by
  simp only [mem_dependentsOf_iff, or_iff_left_iff_imp]
  constructor
  · exact fun h p hp dependency hlists => h p.key dependency ⟨p, hp, rfl, hlists⟩
  · rintro h _ dependency ⟨p, hp, rfl, hlists⟩
    exact h p hp dependency hlists

/-! ## Repositories that were read from files -/

/-- **Accepted repositories at different places hide nothing.** -/
theorem faithful_of_ofJson
    (haccepted : ∀ repo ∈ s.repositories, ∃ text, Repository.ofJson text = .ok repo)
    (hplaces : s.repositories.Pairwise fun a b => (a.url, a.channel) ≠ (b.url, b.channel)) :
    s.Faithful := by
  refine faithful_iff.mpr ?_
  rintro p ⟨before, repo, after, hsplit, hp, hreason⟩
  have hkey : ∀ repo ∈ s.repositories, ∀ p ∈ repo.packages,
      p.key.repositoryUrl = repo.url ∧ p.key.channel = repo.channel := by
    intro repo hrepo p hp
    obtain ⟨text, htext⟩ := haccepted repo hrepo
    exact Repository.place_of_ofJson htext hp
  obtain ⟨hurl, hchannel⟩ := hkey repo (by simp [hsplit]) p hp
  rcases hreason with hne | ⟨earlier, hmem, -, hsome⟩
  · exact absurd hurl.symm hne
  · obtain ⟨q, hq⟩ := Option.isSome_iff_exists.mp hsome
    obtain ⟨hq, heq⟩ := Repository.get?_eq_some_iff.mp hq
    obtain ⟨hurl', hchannel'⟩ := hkey earlier (by simp [hsplit, hmem]) q hq
    rw [hsplit] at hplaces
    refine absurd ?_ ((List.pairwise_append.mp hplaces).2.2 earlier hmem repo List.mem_cons_self)
    rw [← hurl', ← hchannel', ← hurl, ← hchannel, heq]

/-! ## The index of a refresh -/

/-- **Whatever repositories are loaded**, in whichever order: the dependents of a package are
the packages that are shown to list it, and those that are hidden and list it.  So the index
is the inverse of what is shown exactly if hidden packages list nothing of their own. -/
theorem dependentsOf_refresh (index : RepositoryIndex) (repositories : List Repository) :
    let s := (index.refresh repositories).snapshot
    (∀ key dependency, key ∈ s.dependentsOf dependency ↔
      (∃ p, s.get? key = some p ∧ dependency ∈ p.dependencies) ∨
        ∃ p, s.Hidden p ∧ p.key = key ∧ dependency ∈ p.dependencies) ∧
    ((∀ key dependency, key ∈ s.dependentsOf dependency ↔
        ∃ p, s.get? key = some p ∧ dependency ∈ p.dependencies) ↔
      ∀ p, s.Hidden p → ∀ dependency ∈ p.dependencies,
        ∃ shown, s.get? p.key = some shown ∧ dependency ∈ shown.dependencies) :=
  ⟨fun _ _ => mem_dependentsOf_iff, dependentsOf_inverse_iff⟩

namespace Sample

/-- Two files for one repository.  In the first the application stands alone, in the second it
lists a library. -/
def alone : List Char :=
  "\x7b\"url\":\"r\",\"packages\":\x7b\"app\":\x7b\"version\":\"1\"\x7d\x7d\x7d".toList

def listing : List Char :=
  ("\x7b\"url\":\"r\",\"packages\":\x7b\"app\":\x7b\"version\":\"1\",\"dependencies\":[\"lib\"]\x7d," ++
    "\"lib\":\x7b\"version\":\"1\"\x7d\x7d\x7d").toList

def app : PackageKey := ⟨"r", "app", none⟩

def lib : PackageKey := ⟨"r", "lib", none⟩

/-- What both files make of the application. -/
theorem refresh_both : ([alone, listing].mapM Repository.ofJson).toOption.any (fun repositories =>
    let s := (RepositoryIndex.empty.refresh repositories).snapshot
    (s.dependentsOf lib).contains app && ! (s.dependenciesOf app).contains lib) = true := by
  decide +kernel

end Sample

/-- With both files loaded the application depends on the library for the one who asks who
depends on the library, and not for the one who looks at the application. -/
theorem replaced_package_depends : ∃ repositories,
    [Sample.alone, Sample.listing].mapM Repository.ofJson = .ok repositories ∧
      Sample.app ∈ (RepositoryIndex.empty.refresh repositories).snapshot.dependentsOf Sample.lib ∧
      ¬ ∃ p, (RepositoryIndex.empty.refresh repositories).snapshot.get? Sample.app = some p ∧
        Sample.lib ∈ p.dependencies := by
  have hboth := Sample.refresh_both
  cases hr : [Sample.alone, Sample.listing].mapM Repository.ofJson with
  | error cause =>
    rw [hr] at hboth
    cases hboth
  | ok repositories =>
    rw [hr] at hboth
    obtain ⟨hdependents, hlists⟩ := Bool.and_eq_true_iff.mp hboth
    refine ⟨repositories, rfl, List.contains_iff_mem.mp hdependents, ?_⟩
    rw [← dependsOn_iff, DependsOn, ← List.contains_iff_mem]
    simpa using hlists

end Snapshot
end Provision
