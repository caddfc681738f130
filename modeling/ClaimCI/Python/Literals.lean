import ClaimCI.Python.Text

/-!
# Literals

Two literals denote one string exactly if they are one literal, which is decided without unfolding
their characters.
-/

namespace Python

theorem codePoint_char_injective {c d : Char} (same : codePoint c.toNat = codePoint d.toNat) :
    c = d := by
  have small : ∀ c : Char, c.toNat < 0x110000 := by
    intro c
    have valid := c.valid
    simp only [UInt32.isValidChar, Nat.isValidChar] at valid
    unfold Char.toNat
    omega
  have values := congrArg Fin.val same
  simp only [codePoint, Fin.val_ofNat, Nat.mod_eq_of_lt (small c), Nat.mod_eq_of_lt (small d)]
    at values
  exact Char.toNat_inj.mp values

theorem lit_inj {a b : String} : lit a = lit b ↔ a = b := by
  constructor
  · intro same
    have chars : a.toList = b.toList :=
      List.map_injective_iff.mpr (fun _ _ => codePoint_char_injective) same
    exact String.toList_inj.mp chars
  · rintro rfl
    rfl

end Python
