import Provision.Proofs.Key

/-!
# Keys that are written and read again

A key is checked as it is written and kept as it is trimmed.  For a key that was put together, what
matters is what is left of the url (`parse_toString_make_iff`).  For one that was read, marks and
slashes have been looked for, so only the url can be in the way: a text whose url is nothing but
slashes is read, and the key that is kept has no url (`repositoryUrl_eq_empty_iff`).  The text of
that key is refused; every other key that was read is stable (`stable_iff_of_read`).
-/
namespace Provision

namespace PackageKey

variable {key base : PackageKey} {text : String}

/-! ## Keys that were put together -/

/-- **Which keys are read back from their texts**, told by the parts that they are made of.  The
channel may be anything. -/
theorem parse_toString_make_iff (url id : String) (channel : Option String) :
    parse (make url id channel).toString = .ok (make url id channel) ↔
      (url.toList.rdropWhile (· == '/') ≠ [] ∧ '#' ∉ url.toList.rdropWhile (· == '/')) ∧
        id ≠ "" ∧ '/' ∉ id.toList ∧ '#' ∉ id.toList := by
  have hurl : (make url id channel).repositoryUrl =
      String.ofList (url.toList.rdropWhile (· == '/')) := rfl
  have hne : (make url id channel).repositoryUrl ≠ "" ↔ url.toList.rdropWhile (· == '/') ≠ [] := by
    rw [hurl, ne_eq, String.ofList_eq_empty_iff]
  have hmark : '#' ∉ (make url id channel).repositoryUrl.toList ↔
      '#' ∉ url.toList.rdropWhile (· == '/') := by
    rw [hurl, String.toList_ofList]
  rw [parse_toString_iff (normal_make url id channel), ← hne, ← hmark]
  constructor
  · rintro ⟨hurl_ne, hurl_mark, hid_ne, hid_slash, hid_mark⟩
    exact ⟨⟨hurl_ne, hurl_mark⟩, hid_ne, hid_slash, hid_mark⟩
  · rintro ⟨⟨hurl_ne, hurl_mark⟩, hid_ne, hid_slash, hid_mark⟩
    exact ⟨hurl_ne, hurl_mark, hid_ne, hid_slash, hid_mark⟩

/-! ## Keys that were read -/

/-- **A text that has nothing but slashes for a url.** -/
def Slashed (text : String) : Prop :=
  ∃ slashes id rest, text.toList = slashes ++ segment ++ id ++ rest ∧ (∀ c ∈ slashes, c = '/') ∧
    '/' ∉ id ∧ '#' ∉ id ∧ (rest = [] ∨ ∃ channel, rest = '#' :: channel)

/-- What a written key is cut into: a part without marks and a channel, if there is one. -/
theorem splitChannel_fst_eq_iff {text body : List Char} : (splitChannel text).1 = body ↔
    ∃ rest, text = body ++ rest ∧ '#' ∉ body ∧ (rest = [] ∨ ∃ channel, rest = '#' :: channel) := by
  rw [splitChannel]
  constructor
  · intro h
    split at h
    · rename_i before channel hcut
      obtain ⟨htext, hmark⟩ := Text.splitFirst?_eq_some_iff.mp hcut
      exact ⟨'#' :: channel, h ▸ htext, h ▸ hmark, Or.inr ⟨channel, rfl⟩⟩
    · rename_i hcut
      exact ⟨[], by rw [← h, List.append_nil], h ▸ Text.splitFirst?_eq_none_iff.mp hcut, Or.inl rfl⟩
  · rintro ⟨rest, rfl, hmark, rfl | ⟨channel, rfl⟩⟩
    · rw [List.append_nil, Text.splitFirst?_eq_none_iff.mpr hmark]
    · rw [Text.splitFirst?_eq_some_iff.mpr ⟨rfl, hmark⟩]

/-- **Nothing is left of a url of slashes**, and of no other. -/
theorem repositoryUrl_eq_empty_iff (h : parse text = .ok key) :
    key.repositoryUrl = "" ↔ Slashed text := by
  obtain ⟨url, id, channel, hsplit, -, hslash, rfl⟩ := parse_eq_ok h
  have hbody : (splitChannel text.toList).1 = url ++ segment ++ id := by rw [hsplit]
  have hurl : (make (String.ofList url) (String.ofList id) channel).repositoryUrl = "" ↔
      ∀ c ∈ url, c = '/' := by
    rw [make, normalizeUrl, String.toList_ofList, String.ofList_eq_empty_iff,
      Text.trimEnd_eq_nil_iff]
  rw [hurl]
  constructor
  · intro hall
    obtain ⟨rest, htext, hmark, hrest⟩ := splitChannel_fst_eq_iff.mp hbody
    refine ⟨url, id, rest, htext, hall, hslash, fun hmem => hmark ?_, hrest⟩
    exact List.mem_append_right _ hmem
  · rintro ⟨slashes, id', rest, htext, hall, hslash', hmark, hrest⟩
    have hslashes : '#' ∉ slashes := fun hmem => absurd (hall _ hmem) (by decide)
    have hbody' : (splitChannel text.toList).1 = slashes ++ segment ++ id' := by
      refine splitChannel_fst_eq_iff.mpr ⟨rest, htext, ?_, hrest⟩
      simp only [List.mem_append, not_or]
      exact ⟨⟨hslashes, by decide⟩, hmark⟩
    -- Both are cut at the last segment, so they are cut at the same place.
    have hcut : Text.splitLast? segment (url ++ segment ++ id) = some (url, id) :=
      Text.splitLast?_append_of_notMem rfl hslash
    rw [← hbody, hbody', Text.splitLast?_append_of_notMem rfl hslash'] at hcut
    rw [← (Prod.mk.inj (Option.some.inj hcut)).1]
    exact hall

/-- A full key is read in the same way wherever it stands. -/
theorem resolveReference_of_segment (base : PackageKey) (h : segment <:+: text.toList) :
    resolveReference base text = parse text := by
  rw [resolveReference, if_pos (Text.holds_iff.mpr h)]

/-- A key without a url has a text that is refused. -/
theorem parse_toString_of_empty (hempty : key.repositoryUrl = "") (hslash : '/' ∉ key.id.toList)
    (hmark : '#' ∉ key.id.toList) :
    parse key.toString = .error (.emptyRepository key.toString) := by
  rw [parse, splitChannel_toString (by simp [hempty]) hmark]
  simp [splitLast?_body hslash, hempty]

/-- **A key that was read is stable**, be it on its own or as a reference, unless its text had
nothing but slashes for a url; and then the text of the key is refused for want of a url. -/
theorem stable_iff_of_read (h : parse text = .ok key ∨
      ∃ base, segment <:+: text.toList ∧ resolveReference base text = .ok key) :
    (key.repositoryUrl ≠ "" ∧ parse key.toString = .ok key ↔ ¬ Slashed text) ∧
      (Slashed text → parse key.toString = .error (.emptyRepository key.toString)) := by
  have hread : parse text = .ok key := by
    rcases h with h | ⟨base, hsegment, h⟩
    · exact h
    · rwa [resolveReference_of_segment base hsegment] at h
  obtain ⟨hurl, hne, hslash, hmark⟩ := marks_of_parse hread
  rw [← repositoryUrl_eq_empty_iff hread]
  refine ⟨⟨And.left, fun hurl_ne => ⟨hurl_ne, ?_⟩⟩, fun hempty => ?_⟩
  · obtain ⟨url, id, channel, -, -, -, rfl⟩ := parse_eq_ok hread
    exact (parse_toString_iff (normal_make _ _ _)).mpr ⟨hurl_ne, hurl, hne, hslash, hmark⟩
  · exact parse_toString_of_empty hempty hslash hmark

namespace Sample

/-- A key whose url, id and channel all have something that a reader might cut at. -/
def written : String := "x/packages//packages/app#a#/packages/b"

def kept : PackageKey := ⟨"x/packages", "app", some "a#/packages/b"⟩

end Sample

/-- A segment within the url and another within the channel, as a reference. -/
theorem sample_stable : resolveReference ⟨"r", "lib", none⟩ Sample.written = .ok Sample.kept ∧
    (Sample.kept.repositoryUrl ≠ "" ∧ parse Sample.kept.toString = .ok Sample.kept ↔
      ¬ Slashed Sample.written) ∧
    (Slashed Sample.written →
      parse Sample.kept.toString = .error (.emptyRepository Sample.kept.toString)) := by
  have hread : resolveReference ⟨"r", "lib", none⟩ Sample.written = .ok Sample.kept := by
    decide +kernel
  have hsegment : segment <:+: Sample.written.toList := Text.holds_iff.mp (by decide +kernel)
  exact ⟨hread, stable_iff_of_read (Or.inr ⟨_, hsegment, hread⟩)⟩

/-- The url of `//packages/app` is `/`, of which nothing is kept. -/
theorem slashed_key_not_read_back :
    parse "//packages/app" = .ok ⟨"", "app", none⟩ ∧
      parse (toString ⟨"", "app", none⟩) = .error (.emptyRepository "/packages/app") := by
  decide +kernel

end PackageKey

end Provision
