import Provision.Proofs.Dependents

/-!
# In which order dependents are listed

A repository keeps its packages in the order of their keys, so what it lists for a dependency goes
up; but a package that repeats the dependency is repeated (`Repository.ascending_listing_iff`).  A
snapshot puts these lists together as the repositories were loaded.  What `Snapshot.dependentsOf`
lists therefore goes strictly up only if no package repeats the dependency and the repositories
were loaded in the order of what they list (`Snapshot.ascending_dependentsOf_iff`); loaded in
another order they give the same keys, but not in their order (`later_key_listed_first`).
-/
namespace Provision

/-- Keys that go strictly up. -/
def PackageKey.Ascending (keys : List PackageKey) : Prop :=
  keys.Pairwise fun a b => compare a b = .lt

instance (keys : List PackageKey) : Decidable (PackageKey.Ascending keys) :=
  inferInstanceAs (Decidable (List.Pairwise _ _))

open PackageKey (Ascending)

variable {key other : PackageKey} {s : Snapshot}

namespace Repository
variable {r : Repository}

/-- The packages of a repository that list `key` as a dependency, as often as they do. -/
def listing (r : Repository) (key : PackageKey) : List PackageKey :=
  r.packages.flatMap fun p => List.replicate (p.dependencies.count key) p.key

theorem mem_listing :
    other ∈ r.listing key ↔ ∃ p ∈ r.packages, key ∈ p.dependencies ∧ p.key = other := by
  simp only [listing, List.mem_flatMap, List.mem_replicate, ne_eq, List.count_eq_zero,
    Classical.not_not, eq_comm]

/-- **Within a repository** the listing goes strictly up unless a package repeats the
dependency. -/
theorem ascending_listing_iff :
    Ascending (r.listing key) ↔ ∀ p ∈ r.packages, p.dependencies.count key ≤ 1 := by
  rw [Ascending, listing, List.pairwise_flatMap]
  constructor
  · rintro ⟨hsingle, -⟩ p hp
    refine (List.pairwise_replicate.mp (hsingle p hp)).resolve_right fun hlt => ?_
    have hself : compare p.key p.key = .eq := Std.ReflCmp.compare_self
    cases hlt.symm.trans hself
  · intro hsingle
    refine ⟨fun p hp => List.pairwise_replicate.mpr (Or.inl (hsingle p hp)), ?_⟩
    refine r.sorted.imp fun {p q} hlt a ha b hb => ?_
    rw [List.eq_of_mem_replicate ha, List.eq_of_mem_replicate hb]
    exact hlt

end Repository

namespace Snapshot

theorem dependentsOf_eq_flatMap (s : Snapshot) (key : PackageKey) :
    s.dependentsOf key = s.repositories.flatMap fun repo => repo.listing key := by
  rw [dependentsOf, packages, List.flatMap_assoc]
  refine List.flatMap_congr fun repo _ => List.flatMap_congr fun p _ => ?_
  rw [List.map_const', ← List.countP_eq_length_filter]
  rfl

/-- **When dependents are listed in the order of their keys.**  Whatever repositories are loaded,
in whichever order: a snapshot lists for each repository in turn, and for each of its packages in
the order of their keys, the key as often as the package lists the dependency.  So the list goes
strictly up exactly if no package repeats the dependency and no package of an earlier repository
comes after one of a later repository.  Another order of loading lists the same keys, as often. -/
theorem ascending_dependentsOf_iff (index : RepositoryIndex) (repositories : List Repository)
    (key : PackageKey) :
    let s := (index.refresh repositories).snapshot
    s.dependentsOf key = (repositories.flatMap fun repo => repo.packages.flatMap fun p =>
      List.replicate (p.dependencies.count key) p.key) ∧
    (Ascending (s.dependentsOf key) ↔ (∀ p ∈ s.packages, p.dependencies.count key ≤ 1) ∧
      repositories.Pairwise fun earlier later => ∀ p ∈ earlier.packages, ∀ q ∈ later.packages,
        key ∈ p.dependencies → key ∈ q.dependencies → compare p.key q.key = .lt) ∧
    ∀ repositories' : List Repository, repositories'.Perm repositories →
      ((index.refresh repositories').snapshot.dependentsOf key).Perm (s.dependentsOf key) := by
  intro s
  have hlisted := s.dependentsOf_eq_flatMap key
  refine ⟨hlisted, ?_, fun repositories' hperm => ?_⟩
  · have hrepositories : Ascending (s.dependentsOf key) ↔
        (∀ repo ∈ repositories, Ascending (repo.listing key)) ∧
          repositories.Pairwise fun earlier later =>
            ∀ a ∈ earlier.listing key, ∀ b ∈ later.listing key, compare a b = .lt := by
      rw [hlisted]
      exact List.pairwise_flatMap
    rw [hrepositories]
    refine and_congr ?_ ?_
    · simp only [Repository.ascending_listing_iff, mem_packages]
      exact ⟨fun h p ⟨repo, hrepo, hp⟩ => h repo hrepo p hp,
        fun h repo hrepo p hp => h p ⟨repo, hrepo, hp⟩⟩
    · refine ⟨fun h => h.imp fun {earlier later} hlt p hp q hq hlistsp hlistsq => ?_,
        fun h => h.imp fun {earlier later} hlt a ha b hb => ?_⟩
      · exact hlt _ (Repository.mem_listing.mpr ⟨p, hp, hlistsp, rfl⟩)
          _ (Repository.mem_listing.mpr ⟨q, hq, hlistsq, rfl⟩)
      · obtain ⟨p, hp, hlistsp, rfl⟩ := Repository.mem_listing.mp ha
        obtain ⟨q, hq, hlistsq, rfl⟩ := Repository.mem_listing.mp hb
        exact hlt p hp q hq hlistsp hlistsq
  · rw [hlisted, dependentsOf_eq_flatMap]
    exact hperm.flatMap_right _

namespace Sample

/-- Two files.  In the first an application lists a library of the second, in the second a tool
lists it twice. -/
def distant : List Char :=
  ("\x7b\"url\":\"b\",\"packages\":\x7b\"app\":\x7b\"version\":\"1\"," ++
    "\"dependencies\":[\"a/packages/lib\"]\x7d\x7d\x7d").toList

def near : List Char :=
  ("\x7b\"url\":\"a\",\"packages\":\x7b\"lib\":\x7b\"version\":\"1\"\x7d," ++
    "\"tool\":\x7b\"version\":\"1\",\"dependencies\":[\"lib\",\"lib\"]\x7d\x7d\x7d").toList

/-- What the files make of the library. -/
theorem dependentsOf_lib : ([distant, near].mapM Repository.ofJson).toOption.map (fun repositories =>
    (RepositoryIndex.empty.refresh repositories).snapshot.dependentsOf ⟨"a", "lib", none⟩) =
      some [⟨"b", "app", none⟩, ⟨"a", "tool", none⟩, ⟨"a", "tool", none⟩] := by
  decide +kernel

end Sample

/-- With both files loaded the dependents of the library are not in the order of their keys, and
one of them is listed twice. -/
theorem later_key_listed_first : ∃ repositories,
    [Sample.distant, Sample.near].mapM Repository.ofJson = .ok repositories ∧
      ¬ Ascending ((RepositoryIndex.empty.refresh repositories).snapshot.dependentsOf
        ⟨"a", "lib", none⟩) := by
  have hlisted := Sample.dependentsOf_lib
  cases hread : [Sample.distant, Sample.near].mapM Repository.ofJson with
  | error cause =>
    rw [hread] at hlisted
    cases hlisted
  | ok repositories =>
    rw [hread] at hlisted
    have hkeys : (RepositoryIndex.empty.refresh repositories).snapshot.dependentsOf
        ⟨"a", "lib", none⟩ = [⟨"b", "app", none⟩, ⟨"a", "tool", none⟩, ⟨"a", "tool", none⟩] :=
      Option.some.inj hlisted
    refine ⟨repositories, rfl, ?_⟩
    rw [hkeys]
    decide +kernel

end Snapshot
end Provision
