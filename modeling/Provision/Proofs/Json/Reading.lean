import Provision.Json.Decode
import Provision.Proofs.Json.Token
import Provision.Proofs.Refusal

/-!
# Written values are read back

`reading` is what a reader finds where a value is written.  The tokens of a value are read as
its reading, whatever stands around them (`readValue_marks`), so whoever decodes the text of a
value is told what the value says (`decode_pretty`).
-/
namespace Provision.Json

/-! ## The reading of a value -/

mutual

/-- What is read where a value is written. -/
def reading : Json → Reading
  | null => .null
  | bool b => .bool b
  | number n => .number ⟨false, Nat.toDigits 10 n, none, none⟩
  | string s => .text (.ok s)
  | array items => .array (readings items) .closed
  | object members => .object (memberReadings members) .closed

/-- What is read where items are written. -/
def readings : List Json → List Reading
  | [] => []
  | item :: rest => reading item :: readings rest

/-- What is read where members are written. -/
def memberReadings : List (String × Json) → List (Quoted × Reading)
  | [] => []
  | (name, value) :: rest => (.ok name, reading value) :: memberReadings rest

end

theorem readings_eq_map (items : List Json) : readings items = items.map reading := by
  induction items with
  | nil => rfl
  | cons item rest ih => rw [readings, ih, List.map_cons]

theorem memberReadings_eq_map (members : List (String × Json)) :
    memberReadings members = members.map fun m => (.ok m.1, reading m.2) := by
  induction members with
  | nil => rfl
  | cons member rest ih => rw [memberReadings, ih, List.map_cons]

/-- A value does not start like the end of an array. -/
theorem exists_marks (v : Json) : ∃ token rest, v.marks = token :: rest ∧ token ≠ .closeArray := by
  cases v with
  | array items => exact ⟨_, _, rfl, nofun⟩
  | object members => exact ⟨_, _, rfl, nofun⟩
  | _ => exact ⟨_, _, rfl, nofun⟩

theorem exists_marksOfItems (item : Json) (items : List Json) :
    ∃ token rest, marksOfItems (item :: items) = token :: rest ∧ token ≠ .closeArray := by
  obtain ⟨token, rest, hmarks, hne⟩ := exists_marks item
  cases items with
  | nil => exact ⟨token, rest ++ [.closeArray], by rw [marksOfItems, hmarks]; rfl, hne⟩
  | cons next items =>
    refine ⟨token, rest ++ .comma :: marksOfItems (next :: items), ?_, hne⟩
    rw [marksOfItems, hmarks]
    · rfl
    · simp

/-- A member starts with its name. -/
theorem exists_marksOfMembers (member : String × Json) (members : List (String × Json)) :
    ∃ rest, marksOfMembers (member :: members) = .text (.ok member.1) :: rest := by
  obtain ⟨name, value⟩ := member
  cases members with
  | nil => exact ⟨_, rfl⟩
  | cons next members =>
    refine ⟨.colon :: marks value ++ .comma :: marksOfMembers (next :: members), ?_⟩
    rw [marksOfMembers]
    · rfl
    · simp

theorem readValue_openArray {token : Token} {tokens : List Token} {frames : List Reading.Frame}
    (h : token ≠ .closeArray) : Reading.readValue (.openArray :: token :: tokens) frames =
      Reading.readValue (token :: tokens) (.item [] :: frames) := by
  rw [Reading.readValue]
  · simp
  · simp [h]

theorem readOn_comma {token : Token} {tokens : List Token} {frames : List Reading.Frame}
    {value : Reading} {before : List Reading} (h : token ≠ .closeArray) :
    Reading.readOn value (.comma :: token :: tokens) (.item before :: frames) =
      Reading.readValue (token :: tokens) (.item (value :: before) :: frames) := by
  rw [Reading.readOn]
  · simp
  · simp [h]

mutual

/-- **A value is read from its tokens**, whatever is open around it. -/
theorem readValue_marks (v : Json) (rest : List Token) (frames : List Reading.Frame) :
    Reading.readValue (v.marks ++ rest) frames = Reading.readOn v.reading rest frames := by
  match v with
  | null => rw [marks, List.singleton_append, Reading.readValue, reading]
  | bool b => rw [marks, List.singleton_append, Reading.readValue, reading]
  | number n => rw [marks, List.singleton_append, Reading.readValue, reading]
  | string s => rw [marks, List.singleton_append, Reading.readValue, reading]
  | array [] =>
    rw [marks, marksOfItems, List.cons_append, List.singleton_append, Reading.readValue, reading,
      readings]
  | array (item :: items) =>
    obtain ⟨token, tail, hmarks, hne⟩ := exists_marksOfItems item items
    rw [marks, hmarks, List.cons_append, List.cons_append, readValue_openArray hne,
      ← List.cons_append, ← hmarks, readValue_marksOfItems (item :: items) (by simp), reading]
    rfl
  | object [] =>
    rw [marks, marksOfMembers, List.cons_append, List.singleton_append, Reading.readValue, reading,
      memberReadings]
  | object ((name, value) :: members) =>
    obtain ⟨tail, hmarks⟩ := exists_marksOfMembers (name, value) members
    rw [marks, hmarks, List.cons_append, List.cons_append, Reading.readValue,
      ← List.cons_append, ← hmarks, readName_marksOfMembers (_ :: members) (by simp), reading]
    · rfl
    · simp

theorem readValue_marksOfItems (items : List Json) (hitems : items ≠ []) (rest : List Token)
    (frames : List Reading.Frame) (before : List Reading) :
    Reading.readValue (marksOfItems items ++ rest) (.item before :: frames) =
      Reading.readOn (.array (before.reverse ++ readings items) .closed) rest frames := by
  match items with
  | [] => contradiction
  | [item] =>
    rw [marksOfItems, List.append_assoc, readValue_marks item, List.singleton_append,
      Reading.readOn]
    simp [readings]
  | item :: next :: items =>
    obtain ⟨token, tail, hmarks, hne⟩ := exists_marksOfItems next items
    rw [marksOfItems, List.append_assoc, readValue_marks item, hmarks, List.cons_append,
      List.cons_append, readOn_comma hne, ← List.cons_append, ← hmarks,
      readValue_marksOfItems (next :: items) (by simp)]
    · simp [readings]
    · simp

theorem readName_marksOfMembers (members : List (String × Json)) (hmembers : members ≠ [])
    (rest : List Token) (frames : List Reading.Frame) (before : List (Quoted × Reading)) :
    Reading.readName before (marksOfMembers members ++ rest) frames =
      Reading.readOn (.object (before.reverse ++ memberReadings members) .closed) rest frames := by
  match members with
  | [] => contradiction
  | [(name, value)] =>
    rw [marksOfMembers, marksOfMember, List.append_assoc, List.cons_append, List.cons_append,
      Reading.readName, readValue_marks value, List.singleton_append, Reading.readOn]
    simp [memberReadings]
  | (name, value) :: next :: members =>
    rw [marksOfMembers, marksOfMember, List.append_assoc, List.cons_append, List.cons_append,
      Reading.readName, readValue_marks value, List.cons_append, Reading.readOn,
      readName_marksOfMembers (next :: members) (by simp)]
    · simp [memberReadings]
    · simp

end

/-! ## Whole texts -/

variable {α : Type} (decoder : Decoder α) (v : Json)

/-- A text with the tokens of a value is read as the value. -/
theorem ofText_of_tokens {cs : List Char} (h : tokens cs = v.marks) :
    Reading.ofText cs = (v.reading, []) := by
  rw [Reading.ofText, h, ← List.append_nil v.marks, readValue_marks]
  rfl

theorem decode_of_tokens {cs : List Char} (h : tokens cs = v.marks) :
    decode decoder cs = decoder v.reading := by
  rw [decode, ofText_of_tokens v h]
  dsimp only
  cases decoder v.reading <;> rfl

/-- **A decoder finds in the text of a value what the value says.** -/
theorem decode_pretty : decode decoder (v.pretty 0) = decoder v.reading := by
  have htokens := tokens_pretty 0 v (show EndsNumber [] from nofun)
  rw [List.append_nil, tokens, List.append_nil] at htokens
  exact decode_of_tokens decoder v htokens

/-- It finds the same in the compact text. -/
theorem decode_compact : decode decoder v.compact = decoder v.reading := by
  have htokens := tokens_compact v (show EndsNumber [] from nofun)
  rw [List.append_nil, tokens, List.append_nil] at htokens
  exact decode_of_tokens decoder v htokens

/-! ## What is decoded -/

variable {decoder} {value : α}

/-- What is decoded from a text is decoded from its reading. -/
theorem exists_reading_of_decode {cs : List Char} (h : decode decoder cs = .ok value) :
    ∃ r, decoder r = .ok value := by
  obtain ⟨value', hvalue, hrest⟩ := bind_eq_ok.mp h
  split at hrest
  · cases hrest
    exact ⟨_, hvalue⟩
  · cases hrest

theorem unexpected_ne_ok (expected : String) (r : Reading) (value : α) :
    unexpected expected r ≠ .ok value := by
  rw [unexpected.eq_def]
  repeat' split
  all_goals nofun

/-- Keys of members are read from their names, and what they stand for from their values. -/
theorem exists_of_mem_decodeMembers {κ : Type} {name : String → Except ReadError κ}
    {r : Reading} {entries : List (κ × α)} {entry : κ × α}
    (h : decodeMembers name decoder r = .ok entries) (hmem : entry ∈ entries) :
    (∃ text, name text = .ok entry.1) ∧ ∃ r', decoder r' = .ok entry.2 := by
  rw [decodeMembers.eq_def] at h
  split at h
  · obtain ⟨entries', hmap, hrest⟩ := bind_eq_ok.mp h
    obtain ⟨-, -, hrest⟩ := bind_eq_ok.mp hrest
    cases hrest
    obtain ⟨⟨written, value⟩, -, hmember⟩ := exists_of_mem_mapM hmap hmem
    obtain ⟨text, -, hmember⟩ := bind_eq_ok.mp hmember
    obtain ⟨key, hkey, hmember⟩ := bind_eq_ok.mp hmember
    obtain ⟨value', hvalue, hmember⟩ := bind_eq_ok.mp hmember
    cases hmember
    exact ⟨⟨text, hkey⟩, value, hvalue⟩
  · exact absurd h (unexpected_ne_ok _ _ _)

theorem exists_of_mem_decodeList {r : Reading} {values : List α}
    (h : decodeList decoder r = .ok values) (hmem : value ∈ values) :
    ∃ r', decoder r' = .ok value := by
  rw [decodeList.eq_def] at h
  split at h
  · obtain ⟨values', hmap, hrest⟩ := bind_eq_ok.mp h
    obtain ⟨-, -, hrest⟩ := bind_eq_ok.mp hrest
    cases hrest
    obtain ⟨r', -, hvalue⟩ := exists_of_mem_mapM hmap hmem
    exact ⟨r', hvalue⟩
  · exact absurd h (unexpected_ne_ok _ _ _)

/-! ## Structures -/

section Record

variable {δ : Type} {record : Record δ α} {invariant : δ → Prop}

theorem Record.invariant_of_takeMember
    (hmember : ∀ m ∈ record.members, ∀ r draft draft', invariant draft →
      m.decode r draft = .ok draft' → invariant draft')
    {draft draft' : δ} {entry : Quoted × Reading} (hdraft : invariant draft)
    (h : record.takeMember draft entry = .ok draft') : invariant draft' := by
  obtain ⟨name, -, h⟩ := bind_eq_ok.mp h
  split at h
  · obtain ⟨-, -, h⟩ := bind_eq_ok.mp h
    cases h
    exact hdraft
  · rename_i m hfind
    split at h
    · cases h
    · exact hmember m (List.mem_of_find?_eq_some hfind) _ _ _ hdraft h

theorem Record.invariant_of_takeItems {members : List (Member δ)}
    (hmember : ∀ m ∈ members, ∀ r draft draft', invariant draft →
      m.decode r draft = .ok draft' → invariant draft') {items : List Reading} {stop : ArrayEnd}
    {draft draft' : δ} (hdraft : invariant draft)
    (h : takeItems draft members items stop = .ok draft') : invariant draft' := by
  induction members generalizing draft items with
  | nil =>
    obtain ⟨-, -, h⟩ := bind_eq_ok.mp h
    cases h
    exact hdraft
  | cons m members ih =>
    cases items with
    | nil =>
      obtain ⟨-, -, h⟩ := bind_eq_ok.mp h
      cases h
      exact hdraft
    | cons item items =>
      obtain ⟨next, hnext, h⟩ := bind_eq_ok.mp h
      exact ih (fun m hm => hmember m (List.mem_cons_of_mem _ hm))
        (hmember m List.mem_cons_self _ _ _ hdraft hnext) h

/-- **A structure is built of a draft** that every member leaves in good order. -/
theorem Record.exists_draft_of_decode (invariant : δ → Prop) (hempty : invariant record.empty)
    (hmember : ∀ m ∈ record.members, ∀ r draft draft', invariant draft →
      m.decode r draft = .ok draft' → invariant draft')
    {r : Reading} (h : record.decode r = .ok value) :
    ∃ draft, invariant draft ∧ record.build draft = .ok value := by
  rw [Record.decode.eq_def] at h
  split at h
  · obtain ⟨draft, hdraft, h⟩ := bind_eq_ok.mp h
    obtain ⟨-, -, h⟩ := bind_eq_ok.mp h
    refine ⟨draft, invariant_of_foldlM (fun _ _ _ => invariant_of_takeMember hmember) hempty hdraft,
      ?_⟩
    split at h
    · cases h
      assumption
    · cases h
  · obtain ⟨draft, hdraft, h⟩ := bind_eq_ok.mp h
    refine ⟨draft, invariant_of_takeItems hmember hempty hdraft, ?_⟩
    split at h
    · cases h
      assumption
    · cases h
  · exact absurd h (unexpected_ne_ok _ _ _)

end Record

end Provision.Json
