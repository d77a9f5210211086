import Mathlib

/-!
# Two-byte little-endian integers
-/

namespace Foundation

/-- The bytes of a 16-bit integer, low byte first. -/
def encode16 (v : UInt16) : List UInt8 :=
  [UInt8.ofNat (v.toNat % 256), UInt8.ofNat (v.toNat / 256)]

/-- The 16-bit integer with the given low and high byte. -/
def decode16 (lo hi : UInt8) : UInt16 :=
  UInt16.ofNat (lo.toNat + 256 * hi.toNat)

@[simp] theorem length_encode16 (v : UInt16) : (encode16 v).length = 2 := rfl

@[simp] theorem toNat_decode16 (lo hi : UInt8) :
    (decode16 lo hi).toNat = lo.toNat + 256 * hi.toNat := by
  have hlo : lo.toNat < 256 := lo.toNat_lt
  have hhi : hi.toNat < 256 := hi.toNat_lt
  simp only [decode16, UInt16.toNat_ofNat']
  omega

theorem decode16_encode16 (v : UInt16) :
    decode16 (UInt8.ofNat (v.toNat % 256)) (UInt8.ofNat (v.toNat / 256)) = v := by
  have hv : v.toNat < 65536 := v.toNat_lt
  apply UInt16.toNat_inj.mp
  rw [toNat_decode16]
  simp only [UInt8.toNat_ofNat']
  omega

end Foundation
