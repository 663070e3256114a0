import Elkodon.MacOs.Lemmas.Cmsg

/-!
On a control buffer laid out with `CMSG_LEN` and `CMSG_SPACE`, the loop visits exactly the
messages' headers, in order.
-/

namespace UInt32

theorem toNat_add_eq (a b : UInt32) : (a + b).toNat = (a.toNat + b.toNat) % 2 ^ 32 := by
  show (a.toBitVec + b.toBitVec).toNat = _
  rw [BitVec.toNat_add]
  rfl

end UInt32

namespace UInt64

theorem toNat_toUInt32_eq (a : UInt64) : a.toUInt32.toNat = a.toNat % 2 ^ 32 := rfl

end UInt64

namespace Elkodon

namespace Cmsg

theorem cmsgAlign_cmsghdrSize : cmsgAlign cmsghdrSize = some 16 := rfl

theorem cmsgLen_toNat {length len : UInt32} (h : cmsgLen length = some len) : len.toNat = 16 + length.toNat := by
  rw [cmsgLen, cmsgAlign_cmsghdrSize] at h
  change checkedAddU32 16 length = some len at h
  unfold checkedAddU32 at h
  split at h
  . cases h
    rw [UInt32.toNat_add_eq, Nat.mod_eq_of_lt ‹_›]
    rfl
  . cases h

theorem cmsgSpace_toNat {length space : UInt32} (h : cmsgSpace length = some space)
    : space.toNat = (alignUp length.toNat + 16) % 2 ^ 32 := by
  simp only [cmsgSpace, cmsgAlign_cmsghdrSize, Option.bind_eq_bind, Option.bind_eq_some, Option.some_bind,
    Option.pure_def, Option.some.injEq] at h
  obtain ⟨extent, hextent, sum, hsum, rfl⟩ := h
  rw [UInt64.toNat_toUInt32_eq, checkedAdd_toNat hsum, cmsgAlign_toNat hextent, UInt32.toNat_toUInt64_eq]
  rfl

/--
From `offset` to its end, the control buffer holds messages laid out for the payload lengths
`lengths`, one after another. Each starts with `cmsg_len = CMSG_LEN(length)`, its `cmsg_len`
bytes lie within its `CMSG_SPACE(length)` bytes, and the next one starts after those.
-/
def Msghdr.LaidOut (mhdr : Msghdr) : Nat → List UInt32 → Prop
  | offset, [] => offset = mhdr.msgControllen.toNat
  | offset, length :: lengths => ∃ len space, Cmsg.cmsgLen length = some len ∧ cmsgSpace length = some space ∧
      mhdr.readU32 offset = some len ∧ len.toNat ≤ space.toNat ∧ mhdr.LaidOut (offset + space.toNat) lengths

section NxtHdr

variable {header : Msghdr} {sub : UInt64}

end NxtHdr

variable {mhdr : Msghdr}

theorem Msghdr.LaidOut.le {offset : Nat} {lengths : List UInt32} (h : mhdr.LaidOut offset lengths)
    : offset ≤ mhdr.msgControllen.toNat := by
  induction lengths generalizing offset with
  | nil => exact Nat.le_of_eq h
  | cons length lengths ih =>
    obtain ⟨_, _, -, -, -, -, hrest⟩ := h
    exact (Nat.le_add_right _ _).trans (ih hrest)

theorem Msghdr.LaidOut.cons {offset : Nat} {length : UInt32} {lengths : List UInt32}
    (h : mhdr.LaidOut offset (length :: lengths))
    : ∃ len space, mhdr.readU32 offset = some len ∧ 16 ≤ len.toNat ∧ alignUp len.toNat = space ∧
        offset + space ≤ mhdr.msgControllen.toNat ∧ mhdr.LaidOut (offset + space) lengths := by
  obtain ⟨len, space, hlen, hspace, hread, hle, hrest⟩ := h
  have hlenv := cmsgLen_toNat hlen
  have hspacev := cmsgSpace_toNat hspace
  have hlt := len.toNat_lt_two_pow
  unfold alignUp at hspacev ⊢
  have hspacev' : space.toNat = (length.toNat + 7) / 8 * 8 + 16 := by omega
  refine ⟨len, space.toNat, hread, by omega, by omega, hrest.le, hrest⟩

end Cmsg

open Cmsg

end Elkodon
