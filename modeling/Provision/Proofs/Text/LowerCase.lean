import Provision.Proofs.Bytes
import Provision.Text.LowerCase

/-!
# Lower case brings no other letters in

Every character has a form in lower case.  Of the letters beyond ASCII only the Kelvin sign has one
in ASCII (`eq_toLower_of_ofChar`), so a text that is a single letter of ASCII in lower case was that
letter before, small or capital (`lowerCase_eq_singleton_iff`).
-/
namespace Provision.Text.LowerCase

/-- Whether a row of a table leads to characters beyond ASCII.  One for a single code point may lead
to the letter `k`. -/
def leadsBeyondAscii (r : Replacement) : Bool :=
  match r.target with
  | [] => false
  | [low] =>
    let high := low + (r.span.last - r.span.first)
    (high < 0xD800 ∨ 0xDFFF < low ∧ high < 0x110000) ∧
      (0x80 ≤ low ∨ low = 'k'.toNat ∧ high = low)
  | _ => true

theorem leadsBeyondAscii_of_mem : ∀ r ∈ smallLetters.rows, leadsBeyondAscii r = true := by
  rw [smallLetters, Replacements.ofText, entries, String.toList_ofList]
  decide +kernel

variable {r : Replacement} {n m : Nat} {small : List Nat} {c d : Char} {text : List Char}

theorem raise_eq_nil_iff {distance : Nat} {target : List Nat} :
    Replacement.raise distance target = [] ↔ target = [] := by
  match target with
  | [] => simp [Replacement.raise]
  | [_] => simp [Replacement.raise]
  | _ :: _ :: _ => simp [Replacement.raise]

theorem raise_eq_singleton {distance : Nat} {target : List Nat}
    (h : Replacement.raise distance target = [m]) :
    ∃ low, target = [low] ∧ m = low + distance := by
  match target, h with
  | [low], h => exact ⟨low, rfl, (List.singleton_inj.mp h).symm⟩
  | _ :: second :: rest, h =>
    have hnil := (List.cons.inj h).2
    rw [raise_eq_nil_iff] at hnil
    cases hnil

theorem exists_row_of_find? (h : smallLetters.find? n = some small) :
    ∃ r ∈ smallLetters.rows, n ≤ r.span.last ∧
      small = Replacement.raise (n - r.span.first) r.target := by
  obtain ⟨r, hr, himage⟩ := List.exists_of_findSome?_eq_some h
  rw [Replacement.image?] at himage
  split at himage
  · rename_i hspan
    refine ⟨r, hr, ?_, (Option.some.inj himage).symm⟩
    have hholds := hspan.1
    rw [Span.holds, Bool.and_eq_true, decide_eq_true_eq, decide_eq_true_eq] at hholds
    exact hholds.2
  · cases himage

theorem small_ne_nil (h : smallLetters.find? n = some small) : small ≠ [] := by
  obtain ⟨r, hr, -, rfl⟩ := exists_row_of_find? h
  rw [Ne, raise_eq_nil_iff]
  intro hnil
  have hleads := leadsBeyondAscii_of_mem r hr
  rw [leadsBeyondAscii, hnil] at hleads
  cases hleads

/-- A small form of one code point is a character beyond ASCII, but for the letter `k`. -/
theorem small_singleton (h : smallLetters.find? n = some [m]) :
    (m < 0xD800 ∨ 0xDFFF < m ∧ m < 0x110000) ∧ (0x80 ≤ m ∨ m = 'k'.toNat) := by
  obtain ⟨r, hr, hlast, hraise⟩ := exists_row_of_find? h
  obtain ⟨low, htarget, rfl⟩ := raise_eq_singleton hraise.symm
  have hleads := leadsBeyondAscii_of_mem r hr
  rw [leadsBeyondAscii, htarget, decide_eq_true_eq] at hleads
  have hk : 'k'.toNat = 107 := rfl
  omega

theorem ofChar_ne_nil (c : Char) : ofChar c ≠ [] := by
  rw [ofChar]
  split
  · exact List.cons_ne_nil _ _
  · split
    · rename_i small hsmall
      rw [Ne, List.map_eq_nil_iff]
      exact small_ne_nil hsmall
    · exact List.cons_ne_nil _ _

/-- **Of the letters beyond ASCII only the Kelvin sign has a small form in ASCII.** -/
theorem eq_toLower_of_ofChar (h : ofChar c = [d]) (hd : d.toNat < 0x80) (hk : d ≠ 'k') :
    c.toNat < 0x80 ∧ c.toLower = d := by
  rw [ofChar] at h
  split at h
  · rename_i hc
    exact ⟨hc, List.singleton_inj.mp h⟩
  · rename_i hc
    split at h
    · rename_i small hsmall
      obtain ⟨m, rfl, rfl⟩ := List.map_eq_singleton_iff.mp h
      obtain ⟨hvalid, hm | rfl⟩ := small_singleton hsmall
      · rw [Char.toNat, Utf8.val_ofNat hvalid] at hd
        omega
      · exact absurd rfl hk
    · rw [List.singleton_inj.mp h] at hc
      exact absurd hd hc

end LowerCase

theorem lowerCase_eq_nil_iff {text : List Char} : lowerCase text = [] ↔ text = [] := by
  cases text with
  | nil => exact iff_of_true rfl rfl
  | cons c rest => simp [lowerCase, LowerCase.ofChar_ne_nil]

/-- **Where a text in lower case is a letter of ASCII**, the text is that letter, small or
capital. -/
theorem lowerCase_eq_singleton_iff {text : List Char} {d : Char} (hd : d.toNat < 0x80)
    (hk : d ≠ 'k') :
    lowerCase text = [d] ↔ ∃ c, text = [c] ∧ c.toNat < 0x80 ∧ c.toLower = d := by
  constructor
  · intro h
    cases text with
    | nil => cases h
    | cons c rest =>
      rw [lowerCase, List.flatMap_cons, List.append_eq_singleton_iff] at h
      rcases h with ⟨hnil, -⟩ | ⟨hc, hrest⟩
      · exact absurd hnil (LowerCase.ofChar_ne_nil c)
      · rw [← lowerCase, lowerCase_eq_nil_iff] at hrest
        exact ⟨c, by rw [hrest], LowerCase.eq_toLower_of_ofChar hc hd hk⟩
  · rintro ⟨c, rfl, hc, rfl⟩
    simp [lowerCase, LowerCase.ofChar, hc]

end Provision.Text
