import Provision.Proofs.Text
import Provision.Version.Order

/-!
# Versions that can be read back

The epoch of a version is written only when it is not zero, so a version without one must not
have a text that starts like one: `0:1.2` cannot be the text of a version in epoch zero.
Every other version is read back as it was written (`ofString_toString_iff`).
-/
namespace Provision.Version

variable {v : Version} {text : List Char}

/-- A text that is read as an epoch and a text after it. -/
def StartsWithEpoch (text : List Char) : Prop :=
  ∃ digits rest, text = digits ++ ':' :: rest ∧ digits ≠ [] ∧ ∀ c ∈ digits, c.isDigit = true

/-- **A version whose text names it.** -/
def Readable (v : Version) : Prop :=
  v.epoch = 0 → ¬ StartsWithEpoch v.text.toList

theorem colon_notMem_of_isDigit {digits : List Char} (h : ∀ c ∈ digits, c.isDigit = true) :
    ':' ∉ digits :=
  fun hmem => absurd (h _ hmem) (by decide)

/-- A text with an epoch is cut after the epoch. -/
theorem ofString_of_epoch {digits rest : List Char} (hne : digits ≠ [])
    (hdigits : ∀ c ∈ digits, c.isDigit = true) {s : String}
    (hs : s.toList = digits ++ ':' :: rest) :
    ofString s = ⟨epochOfDigits digits, String.ofList rest⟩ := by
  have hcut := Text.splitFirst?_eq_some_iff.mpr ⟨hs, colon_notMem_of_isDigit hdigits⟩
  simp only [ofString, hcut]
  rw [if_pos ⟨hne, List.all_eq_true.mpr hdigits⟩]

/-- A text without an epoch is the whole version. -/
theorem ofString_of_not_startsWithEpoch {s : String} (h : ¬ StartsWithEpoch s.toList) :
    ofString s = ⟨0, s⟩ := by
  rw [ofString]
  split
  · rename_i digits rest hcut
    rw [if_neg]
    rintro ⟨hne, hdigits⟩
    exact h ⟨digits, rest, (Text.splitFirst?_eq_some_iff.mp hcut).1, hne,
      List.all_eq_true.mp hdigits⟩
  · rfl

theorem digitsValue_toDigits (n : Nat) : digitsValue (Nat.toDigits 10 n) = n := by
  have h := @Nat.ofDigitChars_ten_toDigits n
  rw [Nat.ofDigitChars_eq_foldl] at h
  simpa only [digitsValue, Nat.mul_comm] using h

theorem epochOfDigits_toDigits (epoch : UInt32) :
    epochOfDigits (Nat.toDigits 10 epoch.toNat) = epoch := by
  have hle : epoch.toNat ≤ UInt32.size - 1 := Nat.le_sub_one_of_lt epoch.toNat_lt
  rw [epochOfDigits, digitsValue_toDigits, Nat.min_eq_left hle, UInt32.ofNat_toNat]

theorem toList_toString_of_epoch (h : v.epoch ≠ 0) :
    v.toString.toList = Nat.toDigits 10 v.epoch.toNat ++ ':' :: v.text.toList := by
  have hconcat : v.toString = v.epoch.toNat.repr ++ ":" ++ v.text := by
    rw [toString, if_neg h]
    rfl
  simp [hconcat]

/-- **Which versions are read back from their texts.** -/
theorem ofString_toString_iff : ofString v.toString = v ↔ Readable v := by
  by_cases hepoch : v.epoch = 0
  · have htext : v.toString = v.text := by rw [toString, if_pos hepoch]
    rw [htext]
    constructor
    · rintro h - ⟨digits, rest, heq, hne, hdigits⟩
      rw [ofString_of_epoch hne hdigits heq] at h
      -- The text after the epoch is too short to be the whole text.
      have hlength := congrArg (fun v => v.text.toList.length) h
      simp only [heq, String.toList_ofList, List.length_append, List.length_cons] at hlength
      omega
    · intro h
      rw [ofString_of_not_startsWithEpoch (h hepoch), ← hepoch]
  · refine iff_of_true ?_ fun heq => absurd heq hepoch
    rw [ofString_of_epoch Nat.toDigits_ne_nil
      (fun c hc => Nat.isDigit_of_mem_toDigits (by decide) (by decide) hc)
      (toList_toString_of_epoch hepoch), epochOfDigits_toDigits, String.ofList_toList]

/-! ### Versions that were read -/

/-- A text with an epoch that is zero, in front of a text that starts with an epoch, too. -/
def HidesEpoch (text : List Char) : Prop :=
  ∃ zeros rest, text = zeros ++ ':' :: rest ∧ zeros ≠ [] ∧ (∀ c ∈ zeros, c = '0') ∧
    StartsWithEpoch rest

theorem isDigit_of_eq_zero {digits : List Char} (h : ∀ c ∈ digits, c = '0') :
    ∀ c ∈ digits, c.isDigit = true := by
  intro c hc
  rw [h c hc]
  rfl

/-- There is one epoch to cut off. -/
theorem hidesEpoch_iff {digits rest : List Char} (hne : digits ≠ [])
    (hdigits : ∀ c ∈ digits, c.isDigit = true) :
    HidesEpoch (digits ++ ':' :: rest) ↔ (∀ c ∈ digits, c = '0') ∧ StartsWithEpoch rest := by
  constructor
  · rintro ⟨zeros, rest', heq, -, hzeros, hstarts⟩
    have hcut : Text.splitFirst? ':' (digits ++ ':' :: rest) = some (digits, rest) :=
      Text.splitFirst?_eq_some_iff.mpr ⟨rfl, colon_notMem_of_isDigit hdigits⟩
    rw [Text.splitFirst?_eq_some_iff.mpr
      ⟨heq, colon_notMem_of_isDigit (isDigit_of_eq_zero hzeros)⟩] at hcut
    cases hcut
    exact ⟨hzeros, hstarts⟩
  · rintro ⟨hzeros, hstarts⟩
    exact ⟨digits, rest, rfl, hne, hzeros, hstarts⟩

theorem HidesEpoch.startsWithEpoch (h : HidesEpoch text) : StartsWithEpoch text := by
  obtain ⟨zeros, rest, rfl, hne, hzeros, -⟩ := h
  exact ⟨zeros, rest, rfl, hne, isDigit_of_eq_zero hzeros⟩

theorem foldl_digits_eq_zero_iff {digits : List Char} (h : ∀ c ∈ digits, c.isDigit = true)
    (n : Nat) : digits.foldl (fun n d => n * 10 + (d.toNat - '0'.toNat)) n = 0 ↔
      n = 0 ∧ ∀ c ∈ digits, c = '0' := by
  induction digits generalizing n with
  | nil => simp
  | cons d digits ih =>
    obtain ⟨hd, hdigits⟩ := List.forall_mem_cons.mp h
    have hvalue : d.toNat - '0'.toNat = 0 ↔ d = '0' := by
      rw [Nat.sub_eq_zero_iff_le, ← Char.toNat_inj]
      exact ⟨fun hle => Nat.le_antisymm hle (Char.isDigit_iff_toNat.mp hd).1, Nat.le_of_eq⟩
    have hten : n * 10 = 0 ↔ n = 0 := by omega
    rw [List.foldl_cons, ih hdigits, List.forall_mem_cons, Nat.add_eq_zero_iff, hvalue, hten,
      and_assoc]

/-- An epoch is zero if it is written with zeros. -/
theorem epochOfDigits_eq_zero_iff {digits : List Char} (h : ∀ c ∈ digits, c.isDigit = true) :
    epochOfDigits digits = 0 ↔ ∀ c ∈ digits, c = '0' := by
  have hvalue : digitsValue digits = 0 ↔ ∀ c ∈ digits, c = '0' :=
    (foldl_digits_eq_zero_iff h 0).trans (and_iff_right rfl)
  have hlt : min (digitsValue digits) (UInt32.size - 1) < UInt32.size :=
    Nat.lt_of_le_of_lt (Nat.min_le_right ..) (by decide)
  rw [← hvalue, ← UInt32.toNat_inj, epochOfDigits, UInt32.toNat_ofNat_of_lt' hlt,
    UInt32.toNat_zero]
  simp only [UInt32.size]
  omega

theorem readable_ofString_iff (s : String) :
    Readable (ofString s) ↔ ¬ HidesEpoch s.toList := by
  by_cases hstarts : StartsWithEpoch s.toList
  · obtain ⟨digits, rest, hs, hne, hdigits⟩ := hstarts
    rw [ofString_of_epoch hne hdigits hs, hs, hidesEpoch_iff hne hdigits, not_and,
      ← epochOfDigits_eq_zero_iff hdigits, Readable, String.toList_ofList]
  · rw [ofString_of_not_startsWithEpoch hstarts]
    exact iff_of_true (fun _ => hstarts) fun h => hstarts h.startsWithEpoch

/-- **Which texts are read as versions that survive being written**: all but those that hide an
epoch behind an epoch zero, which is not written. -/
theorem ofString_toString_ofString_iff (s : String) :
    ofString (ofString s).toString = ofString s ↔ ¬ HidesEpoch s.toList := by
  rw [ofString_toString_iff, readable_ofString_iff]

/-- The text of `0:0:1` is `0:1`, and this is read as `1` in epoch zero. -/
theorem hidden_epoch_not_read_back :
    ofString (ofString "0:0:1").toString ≠ ofString "0:0:1" := by
  decide

/-! ## The order -/

instance : Std.ReflCmp compareChars :=
  inferInstanceAs (Std.ReflCmp (compareLex (compareOn isMark) (compareOn Char.toNat)))

theorem compareTexts_self (text : List Char) : compareTexts text text = .eq := by
  induction text using WellFounded.induction (measure List.length).wf with
  | _ text ih =>
    rw [compareTexts]
    split
    · rfl
    · rename_i hne
      have hwords : compareWords (word text) (word text) = .eq := by
        rw [compareWords]
        exact Std.ReflCmp.compare_self
      have hnumerals : compareNumerals ((afterWord text).takeWhile Char.isDigit)
          ((afterWord text).takeWhile Char.isDigit) = .eq := by
        simp [compareNumerals, Std.ReflCmp.compare_self]
      rw [hwords, hnumerals]
      exact ih _ (length_afterRuns_lt fun heq => hne ⟨heq, heq⟩)

/-- No version is later than itself. -/
theorem not_isNewer_self (v : Version) : v.isNewer v = false := by
  simp [isNewer, compare, compareTexts_self]

end Provision.Version
