import Provision.Proofs.Json.Reading

/-!
# Written numbers are read back

A number of up to 64 bits is written with its digits, which are collected without any being left
over (`Numeral.value_toDigits`), so it is decoded whole.
-/
namespace Provision.Json

namespace Numeral

theorem digitValue_digitChar {d : Nat} (hd : d < 10) : digitValue (Nat.digitChar d) = d := by
  have hdigit : ∀ d : Fin 10, digitValue (Nat.digitChar d.val) = d.val := by decide
  exact hdigit ⟨d, hd⟩

theorem takeWhole_digitChar {n d : Nat} (hd : d < 10) (hn : n * 10 + d ≤ most) :
    takeWhole ⟨n, 0⟩ (Nat.digitChar d) = ⟨n * 10 + d, 0⟩ := by
  rw [takeWhole, digitValue_digitChar hd]
  exact if_pos ⟨rfl, hn⟩

/-- **All digits of a number are collected**, if it has no more than 64 bits. -/
theorem foldl_takeWhole_toDigits {n : Nat} (hn : n ≤ most) :
    (Nat.toDigits 10 n).foldl takeWhole ⟨0, 0⟩ = ⟨n, 0⟩ := by
  induction n using Nat.strongRecOn with
  | ind n ih =>
    rw [Nat.toDigits_eq_if (by decide)]
    split
    · rename_i hlt
      rw [List.foldl_cons, List.foldl_nil, takeWhole_digitChar hlt (by omega)]
      simp
    · rename_i hle
      have hdigits : n / 10 * 10 + n % 10 = n := Nat.div_add_mod' n 10
      rw [List.foldl_append, ih (n / 10) (by omega) (by omega), List.foldl_cons, List.foldl_nil,
        takeWhole_digitChar (Nat.mod_lt n (by decide)) (by omega), hdigits]

theorem value_toDigits {n : Nat} (hn : n ≤ most) :
    value ⟨false, Nat.toDigits 10 n, none, none⟩ = .ok (.natural n) := by
  rw [value]
  simp only [foldl_takeWhole_toDigits hn]
  rfl

end Numeral

variable {expected : String}

/-- **A number is decoded as it was written**, where it is not too large. -/
theorem decodeNat_reading {n most : Nat} (hn : n ≤ most) (hmost : most ≤ Numeral.most) :
    decodeNat most expected (number n).reading = .ok n := by
  rw [reading, decodeNat, Numeral.value_toDigits (Nat.le_trans hn hmost)]
  exact if_pos hn

theorem decodeUInt32_reading (n : UInt32) :
    decodeUInt32 (number n.toNat).reading = .ok n := by
  have hn : n.toNat ≤ UInt32.size - 1 := Nat.le_sub_one_of_lt n.toNat_lt_size
  rw [decodeUInt32, decodeNat_reading hn (by decide)]
  exact congrArg Except.ok UInt32.ofNat_toNat

theorem decodeUInt64_reading (n : UInt64) :
    decodeUInt64 expected (number n.toNat).reading = .ok n := by
  have hn : n.toNat ≤ UInt64.size - 1 := Nat.le_sub_one_of_lt n.toNat_lt_size
  rw [decodeUInt64, decodeNat_reading hn (by decide)]
  exact congrArg Except.ok UInt64.ofNat_toNat

end Provision.Json
