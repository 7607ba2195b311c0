import Mathlib.Data.List.Basic
import Mathlib.Tactic.SplitIfs
import Provision.Bytes

/-!
# UTF-8 loses nothing

A text is read back from its bytes (`decodeLossy_encode`), and the bytes of a text are the only
ones that it is read from (`decode?_eq_some_iff`).  Both ways go character by character:
`scan_utf8EncodeChar` reads one that was written, `eq_of_scan_cons` tells what one was read from.
-/
namespace Provision.Utf8

variable {n v acc : Nat} {low high b : UInt8} {bytes rest : Bytes} {c : Char}

theorem continuation_succ (hlow : low.toNat ≤ v) (hhigh : v ≤ high.toNat) :
    continuation (n + 1) low high acc (UInt8.ofNat v :: bytes) =
      continuation n 0x80 0xBF (acc * 64 + (v - 0x80)) bytes := by
  have hv : v < 256 := Nat.lt_of_le_of_lt hhigh high.toNat_lt
  have hnat : (UInt8.ofNat v).toNat = v := UInt8.toNat_ofNat_of_lt' hv
  rw [continuation, if_pos, hnat]
  rw [UInt8.le_iff_toNat_le, UInt8.le_iff_toNat_le, hnat]
  exact ⟨hlow, hhigh⟩

/-- A byte of six bits. -/
theorem continuation_tail :
    continuation (n + 1) 0x80 0xBF acc (UInt8.ofNat (v % 64 + 0x80) :: bytes) =
      continuation n 0x80 0xBF (acc * 64 + v % 64) bytes := by
  have hv : v % 64 < 64 := Nat.mod_lt v (by decide)
  rw [continuation_succ (Nat.le_add_left 128 _) (Nat.le_of_lt_succ (Nat.add_lt_add_right hv 128)),
    Nat.add_sub_cancel]

theorem scan_cons {value : Nat} {tail : Bytes} {bits : Nat}
    (hlead : lead? b = some (n, low, high, bits))
    (hcont : continuation n low high bits bytes = (some value, tail)) :
    scan (b :: bytes) = some (Char.ofNat value) :: scan tail := by
  rw [scan]
  simp [hlead, hcont]

theorem lead?_ofNat (hv : v < 256) : lead? (UInt8.ofNat v) =
    if v < 0x80 then some (0, 0, 0, v)
    else if v < 0xC2 then none
    else if v < 0xE0 then some (1, 0x80, 0xBF, v - 0xC0)
    else if v = 0xE0 then some (2, 0xA0, 0xBF, 0)
    else if v = 0xED then some (2, 0x80, 0x9F, 0xD)
    else if v < 0xF0 then some (2, 0x80, 0xBF, v - 0xE0)
    else if v = 0xF0 then some (3, 0x90, 0xBF, 0)
    else if v < 0xF4 then some (3, 0x80, 0xBF, v - 0xF0)
    else if v = 0xF4 then some (3, 0x80, 0x8F, 4)
    else none := by
  simp only [lead?, UInt8.toNat_ofNat_of_lt' hv]

/-! ## Reading what was written -/

theorem lead?_of_two (hlow : 0x80 ≤ v) (hhigh : v < 0x800) :
    lead? (UInt8.ofNat (v / 64 % 32 + 0xC0)) = some (1, 0x80, 0xBF, v / 64) := by
  obtain ⟨d, hd⟩ : ∃ d, v / 64 = d := ⟨_, rfl⟩
  rw [hd, Nat.mod_eq_of_lt (by omega), lead?_ofNat (by omega), if_neg (by omega),
    if_neg (by omega), if_pos (by omega), Nat.add_sub_cancel]

theorem lead?_of_three (hlow : 0x800 ≤ v) (hhigh : v < 0x10000)
    (hvalid : v < 0xD800 ∨ 0xDFFF < v) : ∃ low high : UInt8,
    lead? (UInt8.ofNat (v / 4096 % 16 + 0xE0)) = some (2, low, high, v / 4096) ∧
      low.toNat ≤ v / 64 % 64 + 0x80 ∧ v / 64 % 64 + 0x80 ≤ high.toNat := by
  obtain ⟨d, hd⟩ : ∃ d, v / 4096 = d := ⟨_, rfl⟩
  rw [hd, Nat.mod_eq_of_lt (by omega), lead?_ofNat (by omega)]
  by_cases hfirst : d = 0
  · exact ⟨0xA0, 0xBF, by simp [hfirst], by simp; omega, by simp; omega⟩
  · by_cases hsurrogates : d = 13
    · exact ⟨0x80, 0x9F, by simp [hsurrogates], by simp, by simp; omega⟩
    · exact ⟨0x80, 0xBF, by grind, by simp, by simp; omega⟩

theorem lead?_of_four (hlow : 0x10000 ≤ v) (hhigh : v < 0x110000) : ∃ low high : UInt8,
    lead? (UInt8.ofNat (v / 262144 % 8 + 0xF0)) = some (3, low, high, v / 262144) ∧
      low.toNat ≤ v / 4096 % 64 + 0x80 ∧ v / 4096 % 64 + 0x80 ≤ high.toNat := by
  obtain ⟨d, hd⟩ : ∃ d, v / 262144 = d := ⟨_, rfl⟩
  rw [hd, Nat.mod_eq_of_lt (by omega), lead?_ofNat (by omega)]
  by_cases hfirst : d = 0
  · exact ⟨0x90, 0xBF, by simp [hfirst], by simp; omega, by simp; omega⟩
  · by_cases hlast : d = 4
    · exact ⟨0x80, 0x8F, by simp [hlast], by simp, by simp; omega⟩
    · exact ⟨0x80, 0xBF, by grind, by simp, by simp; omega⟩

theorem scan_utf8EncodeChar (c : Char) (rest : Bytes) :
    scan (String.utf8EncodeChar c ++ rest) = some c :: scan rest := by
  obtain ⟨v, hv⟩ : ∃ v, c.val.toNat = v := ⟨_, rfl⟩
  have hvalid : v < 0xD800 ∨ 0xDFFF < v ∧ v < 0x110000 := hv ▸ c.valid
  have hc : c = Char.ofNat v := hv ▸ (Char.ofNat_toNat c).symm
  simp only [String.utf8EncodeChar, hv]
  split_ifs with hone htwo hthree <;> simp only [List.cons_append, List.nil_append]
  · have hlead : lead? (UInt8.ofNat v) = some (0, 0, 0, v) := by
      rw [lead?_ofNat (by omega), if_pos (by omega)]
    rw [hc]
    exact scan_cons hlead rfl
  · have hvalue : v / 64 * 64 + v % 64 = v := by omega
    rw [hc, scan_cons (lead?_of_two (by omega) (by omega)) continuation_tail, hvalue]
  · obtain ⟨low, high, hlead, hle, hge⟩ := lead?_of_three (v := v) (by omega) (by omega) (by omega)
    have hvalue : (v / 4096 * 64 + (v / 64 % 64 + 128 - 128)) * 64 + v % 64 = v := by omega
    rw [hc, scan_cons hlead ((continuation_succ hle hge).trans continuation_tail), hvalue]
  · obtain ⟨low, high, hlead, hle, hge⟩ := lead?_of_four (v := v) (by omega) (by omega)
    have hvalue : ((v / 262144 * 64 + (v / 4096 % 64 + 128 - 128)) * 64 + v / 64 % 64) * 64 +
        v % 64 = v := by omega
    rw [hc, scan_cons hlead ((continuation_succ hle hge).trans
      (continuation_tail.trans continuation_tail)), hvalue]

/-- **What is written is read back.** -/
theorem scan_encode (text : List Char) : scan (encode text) = text.map some := by
  induction text with
  | nil => rw [encode, List.flatMap_nil, scan, List.map_nil]
  | cons c rest ih =>
    rw [encode, List.flatMap_cons, scan_utf8EncodeChar, List.map_cons]
    exact congrArg _ ih

theorem decodeLossy_encode (text : List Char) : decodeLossy (encode text) = text := by
  rw [decodeLossy, scan_encode, List.map_map]
  exact List.map_id text

theorem mapM_id_eq_some_iff {found : List (Option Char)} {text : List Char} :
    found.mapM id = some text ↔ found = text.map some := by
  induction found generalizing text with
  | nil => cases text <;> simp
  | cons c rest ih =>
    rw [List.mapM_cons]
    cases c with
    | none => cases text <;> simp
    | some c =>
      cases hrest : rest.mapM id with
      | none => cases text <;> simp [← ih, hrest]
      | some found => cases text <;> simp [← ih, hrest]

theorem decode?_eq_some_iff_scan {text : List Char} :
    decode? bytes = some text ↔ scan bytes = text.map some :=
  mapM_id_eq_some_iff

/-! ## What was read -/

theorem continuation_zero_eq_some {bits : Nat} :
    continuation 0 low high acc bytes = (some bits, rest) ↔ acc = bits ∧ bytes = rest := by
  simp [continuation]

theorem continuation_eq_some {bits : Nat}
    (h : continuation (n + 1) low high acc bytes = (some bits, rest)) :
    ∃ v tail, bytes = UInt8.ofNat v :: tail ∧ low.toNat ≤ v ∧ v ≤ high.toNat ∧
      continuation n 0x80 0xBF (acc * 64 + (v - 0x80)) tail = (some bits, rest) := by
  cases bytes with
  | nil => cases h
  | cons b tail =>
    rw [continuation] at h
    split at h
    · rename_i hrange
      exact ⟨b.toNat, tail, by rw [UInt8.ofNat_toNat], hrange.1, hrange.2, h⟩
    · cases h

theorem val_ofNat (hvalid : v < 0xD800 ∨ 0xDFFF < v ∧ v < 0x110000) :
    (Char.ofNat v).val.toNat = v := by
  rw [Char.ofNat, dif_pos hvalid]
  rfl

theorem utf8EncodeChar_of_one (hv : v < 0x80) :
    String.utf8EncodeChar (Char.ofNat v) = [UInt8.ofNat v] := by
  simp only [String.utf8EncodeChar, val_ofNat (Or.inl (show v < 0xD800 by omega))]
  rw [if_pos (by omega)]

theorem utf8EncodeChar_of_two {bits x : Nat} (hlow : 2 ≤ bits) (hhigh : bits < 32)
    (hx : 0x80 ≤ x) (hx' : x ≤ 0xBF) :
    String.utf8EncodeChar (Char.ofNat (bits * 64 + (x - 0x80))) =
      [UInt8.ofNat (bits + 0xC0), UInt8.ofNat x] := by
  obtain ⟨v, hv⟩ : ∃ v, bits * 64 + (x - 0x80) = v := ⟨_, rfl⟩
  have hbits : v / 64 % 32 = bits := by omega
  have htail : v % 64 + 0x80 = x := by omega
  simp only [hv, String.utf8EncodeChar, val_ofNat (Or.inl (show v < 0xD800 by omega))]
  rw [if_neg (by omega), if_pos (by omega), hbits, htail]

theorem utf8EncodeChar_of_three {bits x y : Nat} (hbits : bits < 16) (hx : 0x80 ≤ x)
    (hx' : x ≤ 0xBF) (hy : 0x80 ≤ y) (hy' : y ≤ 0xBF) (hlong : bits = 0 → 0xA0 ≤ x)
    (hsurrogates : bits = 13 → x < 0xA0) :
    String.utf8EncodeChar (Char.ofNat ((bits * 64 + (x - 0x80)) * 64 + (y - 0x80))) =
      [UInt8.ofNat (bits + 0xE0), UInt8.ofNat x, UInt8.ofNat y] := by
  obtain ⟨v, hv⟩ : ∃ v, (bits * 64 + (x - 0x80)) * 64 + (y - 0x80) = v := ⟨_, rfl⟩
  have hvalid : v < 0xD800 ∨ 0xDFFF < v ∧ v < 0x110000 := by omega
  have hbits : v / 4096 % 16 = bits := by omega
  have hfirst : v / 64 % 64 + 0x80 = x := by omega
  have hsecond : v % 64 + 0x80 = y := by omega
  simp only [hv, String.utf8EncodeChar, val_ofNat hvalid]
  rw [if_neg (by omega), if_neg (by omega), if_pos (by omega), hbits, hfirst, hsecond]

theorem utf8EncodeChar_of_four {bits x y z : Nat} (hbits : bits < 5) (hx : 0x80 ≤ x)
    (hx' : x ≤ 0xBF) (hy : 0x80 ≤ y) (hy' : y ≤ 0xBF) (hz : 0x80 ≤ z) (hz' : z ≤ 0xBF)
    (hlong : bits = 0 → 0x90 ≤ x) (hlast : bits = 4 → x < 0x90) :
    String.utf8EncodeChar (Char.ofNat
        (((bits * 64 + (x - 0x80)) * 64 + (y - 0x80)) * 64 + (z - 0x80))) =
      [UInt8.ofNat (bits + 0xF0), UInt8.ofNat x, UInt8.ofNat y, UInt8.ofNat z] := by
  obtain ⟨v, hv⟩ : ∃ v, ((bits * 64 + (x - 0x80)) * 64 + (y - 0x80)) * 64 + (z - 0x80) = v :=
    ⟨_, rfl⟩
  have hvalid : v < 0xD800 ∨ 0xDFFF < v ∧ v < 0x110000 := by omega
  have hbits : v / 262144 % 8 = bits := by omega
  have hfirst : v / 4096 % 64 + 0x80 = x := by omega
  have hsecond : v / 64 % 64 + 0x80 = y := by omega
  have hthird : v % 64 + 0x80 = z := by omega
  simp only [hv, String.utf8EncodeChar, val_ofNat hvalid]
  rw [if_neg (by omega), if_neg (by omega), if_neg (by omega), hbits, hfirst, hsecond, hthird]

/-- What a leading byte is, by the number of bytes that it announces. -/
theorem lead?_eq_some {bits : Nat} (h : lead? b = some (n, low, high, bits)) :
    n = 0 ∧ b = UInt8.ofNat bits ∧ bits < 0x80 ∨
    n = 1 ∧ b = UInt8.ofNat (bits + 0xC0) ∧ 2 ≤ bits ∧ bits < 32 ∧
      0x80 ≤ low.toNat ∧ high.toNat ≤ 0xBF ∨
    n = 2 ∧ b = UInt8.ofNat (bits + 0xE0) ∧ bits < 16 ∧ 0x80 ≤ low.toNat ∧ high.toNat ≤ 0xBF ∧
      (bits = 0 → 0xA0 ≤ low.toNat) ∧ (bits = 13 → high.toNat < 0xA0) ∨
    n = 3 ∧ b = UInt8.ofNat (bits + 0xF0) ∧ bits < 5 ∧ 0x80 ≤ low.toNat ∧ high.toNat ≤ 0xBF ∧
      (bits = 0 → 0x90 ≤ low.toNat) ∧ (bits = 4 → high.toNat < 0x90) := by
  obtain ⟨v, hv⟩ : ∃ v, b.toNat = v := ⟨_, rfl⟩
  have hb : b = UInt8.ofNat v := by rw [← hv, UInt8.ofNat_toNat]
  have hlead {bits k : Nat} (hbits : v = bits + k) : b = UInt8.ofNat (bits + k) := by
    rw [← hbits, hb]
  rw [hb, lead?_ofNat (hv ▸ b.toNat_lt)] at h
  split_ifs at h with h1 h2 h3 h4 h5 h6 h7 h8 h9 <;> cases h
  · exact .inl ⟨rfl, hb, h1⟩
  · exact .inr (.inl ⟨rfl, hlead (by omega), by omega, by omega, by decide, by decide⟩)
  · exact .inr (.inr (.inl ⟨rfl, hlead h4, by decide, by decide, by decide, by decide, by decide⟩))
  · exact .inr (.inr (.inl ⟨rfl, hlead h5, by decide, by decide, by decide, by decide, by decide⟩))
  · exact .inr (.inr (.inl ⟨rfl, hlead (by omega), by omega, by decide, by decide, by omega,
      by omega⟩))
  · exact .inr (.inr (.inr ⟨rfl, hlead h7, by decide, by decide, by decide, by decide, by decide⟩))
  · exact .inr (.inr (.inr ⟨rfl, hlead (by omega), by omega, by decide, by decide, by omega,
      by omega⟩))
  · exact .inr (.inr (.inr ⟨rfl, hlead h9, by decide, by decide, by decide, by decide, by decide⟩))

/-- The bytes of a character that is read first. -/
theorem eq_of_scan_cons {more : List (Option Char)} (h : scan bytes = some c :: more) :
    ∃ rest, bytes = String.utf8EncodeChar c ++ rest ∧ scan rest = more := by
  cases bytes with
  | nil =>
    rw [scan] at h
    cases h
  | cons b bytes =>
    rw [scan] at h
    cases hlead : lead? b with
    | none => simp [hlead] at h
    | some lead =>
      obtain ⟨n, low, high, bits⟩ := lead
      rcases hcont : continuation n low high bits bytes with ⟨value, rest⟩
      simp only [hlead, hcont, List.cons.injEq] at h
      obtain ⟨hc, hmore⟩ := h
      obtain ⟨value, rfl, rfl⟩ := Option.map_eq_some_iff.mp hc
      refine ⟨rest, ?_, hmore⟩
      rcases lead?_eq_some hlead with ⟨rfl, rfl, hbits⟩ | ⟨rfl, rfl, hleast, hbits, hlow, hhigh⟩ |
          ⟨rfl, rfl, hbits, hlow, hhigh, hlong, hsurrogates⟩ |
          ⟨rfl, rfl, hbits, hlow, hhigh, hlong, hlast⟩
      · obtain ⟨rfl, rfl⟩ := continuation_zero_eq_some.mp hcont
        rw [utf8EncodeChar_of_one hbits]
        simp
      · obtain ⟨x, tail, rfl, hx, hx', hcont⟩ := continuation_eq_some hcont
        obtain ⟨rfl, rfl⟩ := continuation_zero_eq_some.mp hcont
        rw [utf8EncodeChar_of_two hleast hbits (by omega) (by omega)]
        simp
      · obtain ⟨x, tail, rfl, hx, hx', hcont⟩ := continuation_eq_some hcont
        obtain ⟨y, tail, rfl, hy, hy', hcont⟩ := continuation_eq_some hcont
        obtain ⟨rfl, rfl⟩ := continuation_zero_eq_some.mp hcont
        rw [utf8EncodeChar_of_three hbits (by omega) (by omega) hy hy'
          (by omega) (by omega)]
        simp
      · obtain ⟨x, tail, rfl, hx, hx', hcont⟩ := continuation_eq_some hcont
        obtain ⟨y, tail, rfl, hy, hy', hcont⟩ := continuation_eq_some hcont
        obtain ⟨z, tail, rfl, hz, hz', hcont⟩ := continuation_eq_some hcont
        obtain ⟨rfl, rfl⟩ := continuation_zero_eq_some.mp hcont
        rw [utf8EncodeChar_of_four hbits (by omega) (by omega) hy hy' hz hz'
          (by omega) (by omega)]
        simp

/-- **What was read is what was written.** -/
theorem eq_encode_of_scan {text : List Char} (h : scan bytes = text.map some) :
    bytes = encode text := by
  induction text generalizing bytes with
  | nil =>
    cases bytes with
    | nil => rfl
    | cons b bytes =>
      rw [scan] at h
      cases hlead : lead? b <;> simp [hlead] at h
  | cons c text ih =>
    obtain ⟨rest, rfl, hrest⟩ := eq_of_scan_cons h
    rw [ih hrest, encode, encode, List.flatMap_cons]

/-- **Which bytes a text is read from.** -/
theorem decode?_eq_some_iff {text : List Char} :
    decode? bytes = some text ↔ bytes = encode text := by
  rw [decode?_eq_some_iff_scan]
  exact ⟨eq_encode_of_scan, fun h => h ▸ scan_encode text⟩

theorem ofString_injective {s t : String} (h : ofString s = ofString t) : s = t := by
  have hdecode := congrArg decode? h
  rw [ofString, ofString, decode?_eq_some_iff.mpr rfl, decode?_eq_some_iff.mpr rfl] at hdecode
  exact String.toList_injective (Option.some.inj hdecode)

/-- A byte below 128 is a character of its own. -/
theorem toNat_of_mem_utf8EncodeChar {c : Char} {b : UInt8} (hb : b ∈ String.utf8EncodeChar c)
    (hlt : b.toNat < 0x80) : c.toNat = b.toNat := by
  have hvalid := c.valid
  have hhigh {v : Nat} (hv : 0x80 ≤ v) (hv' : v < 256) : b ≠ UInt8.ofNat v := by
    rintro rfl
    rw [UInt8.toNat_ofNat_of_lt' hv'] at hlt
    omega
  simp only [String.utf8EncodeChar] at hb
  split_ifs at hb with hone htwo hthree
  · rw [List.mem_singleton] at hb
    rw [hb, UInt8.toNat_ofNat_of_lt' (Nat.lt_of_le_of_lt hone (by decide))]
    rfl
  · simp only [List.mem_cons, List.not_mem_nil, or_false] at hb
    rcases hb with hb | hb <;> exact absurd hb (hhigh (by omega) (by omega))
  · simp only [List.mem_cons, List.not_mem_nil, or_false] at hb
    rcases hb with hb | hb | hb <;> exact absurd hb (hhigh (by omega) (by omega))
  · simp only [List.mem_cons, List.not_mem_nil, or_false] at hb
    rcases hb with hb | hb | hb | hb <;> exact absurd hb (hhigh (by omega) (by omega))

end Provision.Utf8
