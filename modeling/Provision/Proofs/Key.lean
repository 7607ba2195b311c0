import Provision.Key.Parser
import Provision.Proofs.Refusal
import Provision.Proofs.Text

/-!
# Keys that can be read back

A key is written as a text, but not every key is the one that its text is read as: an id or a
url may hold the marks that a reader cuts at.  `Readable` says which marks these are, and
`parse_toString_iff` that nothing else is in the way.
-/
namespace Provision.PackageKey

variable {key : PackageKey} {text : String}

/-- **A key whose text names it**: its parts are there and do not hold the marks between
them.  The channel may be anything. -/
structure Readable (key : PackageKey) : Prop where
  repositoryUrl_ne : key.repositoryUrl ≠ ""
  repositoryUrl_mark : '#' ∉ key.repositoryUrl.toList
  id_ne : key.id ≠ ""
  id_slash : '/' ∉ key.id.toList
  id_mark : '#' ∉ key.id.toList

/-- A key as `make` makes it. -/
def Normal (key : PackageKey) : Prop :=
  make key.repositoryUrl key.id key.channel = key

theorem normalizeUrl_normalizeUrl (url : String) :
    normalizeUrl (normalizeUrl url) = normalizeUrl url := by
  rw [normalizeUrl, normalizeUrl, String.toList_ofList, Text.trimEnd_trimEnd]

theorem normalizeChannel_normalizeChannel (channel : Option String) :
    normalizeChannel (normalizeChannel channel) = normalizeChannel channel := by
  simp [normalizeChannel]

theorem normal_make (url id : String) (channel : Option String) : Normal (make url id channel) := by
  simp only [Normal, make, normalizeUrl_normalizeUrl, normalizeChannel_normalizeChannel]

/-- What stands before the channel of a written key. -/
def body (key : PackageKey) : List Char :=
  key.repositoryUrl.toList ++ segment ++ key.id.toList

theorem toList_toString (key : PackageKey) : key.toString.toList = key.body ++
    match key.channel with
    | some channel => '#' :: channel.toList
    | none => [] := by
  unfold toString body segment
  cases key.channel <;> simp

/-- Without a mark before it, the channel is cut off where it starts. -/
theorem splitChannel_toString (hurl : '#' ∉ key.repositoryUrl.toList)
    (hid : '#' ∉ key.id.toList) :
    splitChannel key.toString.toList = (key.body, key.channel) := by
  have hbody : '#' ∉ key.body := by
    simp only [body, List.mem_append, not_or]
    exact ⟨⟨hurl, by decide⟩, hid⟩
  rw [splitChannel, toList_toString]
  cases hchannel : key.channel with
  | none => simp [Text.splitFirst?_eq_none_iff.mpr hbody]
  | some channel => simp [Text.splitFirst?_eq_some_iff.mpr ⟨rfl, hbody⟩]

/-- Without a slash in it, the id is cut off where it starts. -/
theorem splitLast?_body (hid : '/' ∉ key.id.toList) :
    Text.splitLast? segment key.body = some (key.repositoryUrl.toList, key.id.toList) :=
  Text.splitLast?_append_of_notMem (c := '/') rfl hid

/-- What a text is that is read as a key. -/
theorem parse_eq_ok (h : parse text = .ok key) : ∃ url id channel,
    splitChannel text.toList = (url ++ segment ++ id, channel) ∧ id ≠ [] ∧ '/' ∉ id ∧
      key = make (String.ofList url) (String.ofList id) channel := by
  rw [parse] at h
  rcases hchannel : splitChannel text.toList with ⟨body, channel⟩
  rw [hchannel] at h
  dsimp only at h
  split at h
  · cases h
  · rename_i url id hcut
    split at h
    · cases h
    · split at h
      · cases h
      · rename_i hid
        cases h
        refine ⟨url, id, channel, ?_, fun heq => hid (Or.inl heq), fun hmem => hid (Or.inr hmem),
          rfl⟩
        rw [Text.eq_of_splitLast? hcut]

/-- No mark of the channel stands before it. -/
theorem mark_notMem_of_splitChannel {text body : List Char} {channel : Option String}
    (h : splitChannel text = (body, channel)) : '#' ∉ body := by
  rw [splitChannel] at h
  split at h
  · rename_i hcut
    cases h
    exact (Text.splitFirst?_eq_some_iff.mp hcut).2
  · rename_i hcut
    cases h
    exact Text.splitFirst?_eq_none_iff.mp hcut

/-- A key that is read from a text has no marks in its parts, and has an id. -/
theorem marks_of_parse (h : parse text = .ok key) : '#' ∉ key.repositoryUrl.toList ∧
    key.id ≠ "" ∧ '/' ∉ key.id.toList ∧ '#' ∉ key.id.toList := by
  obtain ⟨url, id, channel, hsplit, hne, hslash, rfl⟩ := parse_eq_ok h
  have hmark := mark_notMem_of_splitChannel hsplit
  simp only [List.mem_append, not_or] at hmark
  refine ⟨?_, ?_, ?_, ?_⟩
  · simpa [make, normalizeUrl] using fun hmem => hmark.1.1 (Text.mem_of_mem_trimEnd hmem)
  · simpa [make] using hne
  · simpa [make] using hslash
  · simpa [make] using hmark.2

/-- **Which keys are read back from their texts.** -/
theorem parse_toString_iff (hnormal : Normal key) :
    parse key.toString = .ok key ↔ Readable key := by
  constructor
  · intro h
    obtain ⟨hurl, hne, hslash, hid⟩ := marks_of_parse h
    refine ⟨fun hempty => ?_, hurl, hne, hslash, hid⟩
    rw [parse, splitChannel_toString hurl hid] at h
    simp [splitLast?_body hslash, hempty] at h
  · rintro ⟨hurl_ne, hurl, hne, hslash, hid⟩
    rw [parse, splitChannel_toString hurl hid]
    simpa [splitLast?_body hslash, hurl_ne, hne, hslash, Normal] using hnormal

end Provision.PackageKey
