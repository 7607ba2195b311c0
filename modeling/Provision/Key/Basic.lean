import Provision.Text

/-!
# Package keys

A key names a package everywhere: the repository it comes from, its id there and
the channel of the repository, if it has one.  Keys are written
`<repository>/packages/<id>` or `<repository>/packages/<id>#<channel>`, and ordered
by repository, id and channel, a key without channel coming first.
-/

namespace Provision

/-- The name of a package. -/
structure PackageKey where
  repositoryUrl : String
  id : String
  channel : Option String
deriving DecidableEq, Hashable, Repr

namespace PackageKey

/-- What stands between the repository and the id of a written key. -/
def segment : List Char :=
  "/packages/".toList

/-- A repository's url without the slashes at its end. -/
def normalizeUrl (url : String) : String :=
  String.ofList (Text.trimEnd '/' url.toList)

/-- An empty channel is no channel. -/
def normalizeChannel (channel : Option String) : Option String :=
  channel.filter (· ≠ "")

/-- The key of a package in the repository at `url`. -/
def make (url id : String) (channel : Option String) : PackageKey :=
  ⟨normalizeUrl url, id, normalizeChannel channel⟩

/-- Writes a key. -/
def toString (key : PackageKey) : String :=
  key.repositoryUrl ++ "/packages/" ++ key.id ++
    match key.channel with
    | some channel => "#" ++ channel
    | none => ""

instance : ToString PackageKey := ⟨toString⟩

/-- Keys are ordered by repository, then id, then channel. -/
def compare : PackageKey → PackageKey → Ordering :=
  compareLex (compareOn PackageKey.repositoryUrl)
    (compareLex (compareOn PackageKey.id) (compareOn PackageKey.channel))

instance : Ord PackageKey := ⟨compare⟩

instance : Std.TransOrd PackageKey :=
  inferInstanceAs (Std.TransCmp (compareLex (compareOn PackageKey.repositoryUrl)
    (compareLex (compareOn PackageKey.id) (compareOn PackageKey.channel))))

/-- Only equal keys stand at the same place of the order. -/
instance : Std.LawfulEqOrd PackageKey where
  eq_of_compare {a b} h := by
    have h : compare a b = .eq := h
    simp only [compare, compareLex_eq_eq, compareOn] at h
    obtain ⟨hurl, hid, hchannel⟩ := h
    cases a
    cases b
    simp_all

/-- Sorts keys, leaving equal ones in the order they were given in. -/
def sort (keys : List PackageKey) : List PackageKey :=
  keys.mergeSort fun a b => (compare a b).isLE

end PackageKey

end Provision
