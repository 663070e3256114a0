import Elkodon.MacOs.Impl.Cmsg

/-!
The loop over the control messages on macOS reads only inside the control buffer, for any buffer
and any contents.
-/

namespace UInt32

theorem toNat_toUInt64_eq (a : UInt32) : a.toUInt64.toNat = a.toNat := rfl

theorem toNat_lt_two_pow (a : UInt32) : a.toNat < 2 ^ 32 := a.toNat_lt_size

end UInt32

namespace Elkodon

namespace Cmsg

section Except

variable {α β : Type} {x : Except CmsgFault α} {f : α → Except CmsgFault β}

theorem ok_bind (a : α) : (Except.ok a >>= f) = f a := rfl

theorem bind_eq_ok {b : β} (h : x >>= f = .ok b) : ∃ a, x = .ok a ∧ f a = .ok b := by
  cases x with
  | error e => cases h
  | ok a => exact ⟨a, rfl, h⟩

theorem bind_eq_error {e : CmsgFault} (h : x >>= f = .error e)
    : x = .error e ∨ ∃ a, x = .ok a ∧ f a = .error e := by
  cases x with
  | error e' =>
    cases h
    exact .inl rfl
  | ok a => exact .inr ⟨a, rfl, h⟩

end Except

theorem orOverflow_eq_ok {o : Option UInt64} {v : UInt64} (h : orOverflow o = .ok v) : o = some v := by
  cases o <;> cases h
  rfl

theorem orOverflow_eq_error {o : Option UInt64} {e : CmsgFault} (h : orOverflow o = .error e)
    : e = .overflow ∧ o = none := by
  cases o <;> cases h
  exact ⟨rfl, rfl⟩

def alignUp (len : Nat) : Nat := (len + 7) / 8 * 8

theorem toNat_and_not_seven (x : UInt64) : (x &&& ~~~(8 - 1)).toNat = x.toNat / 8 * 8 := by
  have hmask : (~~~(8 - 1) : UInt64).toNat = (2 ^ 61 - 1) <<< 3 := rfl
  have hx := x.toNat_lt_two_pow
  rw [UInt64.and_toNat, hmask, show x.toNat / 8 * 8 = x.toNat >>> 3 <<< 3 by
    rw [Nat.shiftLeft_eq, Nat.shiftRight_eq_div_pow]]
  refine Nat.eq_of_testBit_eq fun i => ?_
  simp only [Nat.testBit_and, Nat.testBit_shiftLeft, Nat.testBit_two_pow_sub_one, Nat.testBit_shiftRight]
  by_cases hi : 3 ≤ i
  . rw [Nat.add_sub_cancel' hi]
    by_cases hi' : i < 64
    . simp [hi, show i - 3 < 61 by omega]
    . have : x.toNat < 2 ^ i := hx.trans_le (Nat.pow_le_pow_right (by decide) (by omega))
      simp [Nat.testBit_lt_two_pow this]
  . simp [hi]

theorem cmsgAlign_toNat {len a : UInt64} (h : cmsgAlign len = some a) : a.toNat = alignUp len.toNat := by
  simp only [cmsgAlign, Option.bind_eq_bind, Option.bind_eq_some, Option.pure_def, Option.some.injEq] at h
  obtain ⟨sum, hsum, rounded, hrounded, rfl⟩ := h
  rw [toNat_and_not_seven, checkedSub_toNat hrounded, checkedAdd_toNat hsum, alignUp]
  rfl

theorem cmsgAlign_of_lt {len : UInt64} (h : len.toNat + 8 < 2 ^ 64) : ∃ a, cmsgAlign len = some a := by
  obtain ⟨sum, hsum, hsumv⟩ := checkedAdd_eq_some (b := 8) h
  obtain ⟨rounded, hrounded, -⟩ := checkedSub_eq_some (a := sum) (b := 1)
    (by rw [hsumv, UInt64.toNat_one_eq, show (8 : UInt64).toNat = 8 from rfl]; omega)
  exact ⟨_, by simp only [cmsgAlign, hsum, hrounded, Option.bind_eq_bind, Option.some_bind]; rfl⟩

def Msghdr.controlEnd (mhdr : Msghdr) : Nat := mhdr.msgControl.toNat + mhdr.msgControllen.toNat

theorem Msghdr.readU32_of_le {mhdr : Msghdr} {offset : Nat} (h : offset + 4 ≤ mhdr.control.length)
    : ∃ v, mhdr.readU32 offset = some v := by
  simp only [readU32, List.getElem?_eq_getElem (show offset < mhdr.control.length by omega),
    List.getElem?_eq_getElem (show offset + 1 < mhdr.control.length by omega),
    List.getElem?_eq_getElem (show offset + 2 < mhdr.control.length by omega),
    List.getElem?_eq_getElem (show offset + 3 < mhdr.control.length by omega), Option.bind_eq_bind, Option.some_bind]
  exact ⟨_, rfl⟩

theorem Msghdr.cmsgLen_of_inside {mhdr : Msghdr} {cmsg : UInt64} (hlo : mhdr.msgControl.toNat ≤ cmsg.toNat)
    (hhi : cmsg.toNat + 4 ≤ mhdr.controlEnd) : ∃ len, mhdr.cmsgLen cmsg = .ok len := by
  obtain ⟨len, hlen⟩ := mhdr.readU32_of_le
    (show cmsg.toNat - mhdr.msgControl.toNat + 4 ≤ _ by rw [mhdr.control_length]; unfold controlEnd at hhi; omega)
  exact ⟨len, by simp only [Msghdr.cmsgLen, if_pos ((UInt64.le_iff_toNat_le _ _).mpr hlo), hlen]⟩

def Msghdr.FixedInside (mhdr : Msghdr) (cmsg : UInt64) : Prop :=
  mhdr.msgControl.toNat ≤ cmsg.toNat ∧ cmsg.toNat + cmsghdrSize.toNat ≤ mhdr.controlEnd

/-- The header at `cmsg`, to the end of its `CMSG_ALIGN(cmsg_len)` bytes, lies in the control buffer. -/
def Msghdr.ExtentInside (mhdr : Msghdr) (cmsg : UInt64) : Prop :=
  ∃ len extent, mhdr.cmsgLen cmsg = .ok len ∧ cmsgAlign len.toUInt64 = some extent ∧
    mhdr.msgControl.toNat ≤ cmsg.toNat ∧ cmsg.toNat + extent.toNat ≤ mhdr.controlEnd

theorem cmsghdrSize_toNat : cmsghdrSize.toNat = 12 := rfl

theorem orOverflow_checkedAdd_eq_ok {a b s : UInt64} (h : orOverflow (checkedAdd a b) = .ok s)
    : s.toNat = a.toNat + b.toNat :=
  checkedAdd_toNat (orOverflow_eq_ok h)

theorem orOverflow_addAlign_eq_ok {a len s : UInt64} (h : orOverflow (checkedAdd a =<< cmsgAlign len) = .ok s)
    : ∃ extent, cmsgAlign len = some extent ∧ s.toNat = a.toNat + extent.toNat := by
  obtain ⟨extent, hextent, hs⟩ := Option.bind_eq_some.mp (orOverflow_eq_ok h)
  exact ⟨extent, hextent, checkedAdd_toNat hs⟩

theorem orOverflow_addAlign_eq_error {a : UInt64} {len : UInt32} {e : CmsgFault}
    (h : orOverflow (checkedAdd a =<< cmsgAlign len.toUInt64) = .error e)
    : e = .overflow ∧ 2 ^ 64 ≤ a.toNat + alignUp len.toNat := by
  obtain ⟨rfl, hnone⟩ := orOverflow_eq_error h
  have hlen := len.toNat_lt_two_pow
  obtain ⟨extent, hextent⟩ := cmsgAlign_of_lt (show len.toUInt64.toNat + 8 < 2 ^ 64 by
    rw [UInt32.toNat_toUInt64_eq]; omega)
  rw [hextent] at hnone
  have := le_of_checkedAdd_eq_none hnone
  rw [cmsgAlign_toNat hextent, UInt32.toNat_toUInt64_eq] at this
  exact ⟨rfl, this⟩

section NxtHdr

variable {header : Msghdr} {sub next : UInt64}

theorem alignUp_le {len : Nat} (h : len < 2 ^ 32) : len ≤ alignUp len ∧ alignUp len ≤ 2 ^ 32 := by
  unfold alignUp
  omega

theorem cmsgNxtHdr_eq_ok (hsub : header.FixedInside sub) (h : cmsgNxtHdr header sub = .ok next) (hne : next ≠ 0)
    : sub.toNat < next.toNat ∧ header.FixedInside next ∧ header.ExtentInside next ∧
        ∃ len, header.cmsgLen sub = .ok len ∧ next.toNat = sub.toNat + alignUp len.toNat := by
  simp only [cmsgNxtHdr, pure_bind] at h
  obtain ⟨len, hlen, h⟩ := bind_eq_ok h
  split at h
  . exact absurd (Except.ok.inj h).symm hne
  rw [hlen, ok_bind] at h
  obtain ⟨nextSubHeader, hnext, h⟩ := bind_eq_ok h
  obtain ⟨endOfMessage, hend, h⟩ := bind_eq_ok h
  obtain ⟨headerEnd, hheaderEnd, h⟩ := bind_eq_ok h
  split at h
  . exact absurd (Except.ok.inj h).symm hne
  obtain ⟨nextLen, hnextLen, h⟩ := bind_eq_ok h
  obtain ⟨extentEnd, hextentEnd, h⟩ := bind_eq_ok h
  split at h
  . exact absurd (Except.ok.inj h).symm hne
  cases h
  obtain ⟨extent, hextent, hnextv⟩ := orOverflow_addAlign_eq_ok hnext
  obtain ⟨nextExtent, hnextExtent, hextentEndv⟩ := orOverflow_addAlign_eq_ok hextentEnd
  have hendv := orOverflow_checkedAdd_eq_ok hend
  have hheaderEndv := orOverflow_checkedAdd_eq_ok hheaderEnd
  have hheaderEnd_le : headerEnd.toNat ≤ endOfMessage.toNat := Nat.le_of_not_lt ‹_›
  have hextentEnd_le : extentEnd.toNat ≤ endOfMessage.toNat := Nat.le_of_not_lt ‹_›
  have hlong : 12 ≤ len.toNat := Nat.le_of_not_lt ‹_›
  have hextent_ge := (alignUp_le len.toNat_lt_two_pow).1
  rw [cmsgAlign_toNat hextent, UInt32.toNat_toUInt64_eq] at hnextv
  rw [UInt32.toNat_toUInt64_eq] at hendv
  unfold Msghdr.FixedInside Msghdr.controlEnd at hsub ⊢
  unfold Msghdr.ExtentInside Msghdr.controlEnd
  rw [cmsghdrSize_toNat] at hsub hheaderEndv ⊢
  exact ⟨by omega, ⟨by omega, by omega⟩, ⟨nextLen, nextExtent, hnextLen, hnextExtent, by omega, by omega⟩,
    len, hlen, hnextv⟩

theorem cmsgNxtHdr_eq_error (hsub : header.FixedInside sub) {e : CmsgFault} (h : cmsgNxtHdr header sub = .error e)
    : e = .overflow ∧ 2 ^ 64 ≤ header.controlEnd + 2 ^ 32 := by
  unfold Msghdr.FixedInside at hsub
  unfold Msghdr.controlEnd at hsub ⊢
  rw [cmsghdrSize_toNat] at hsub
  obtain ⟨len, hlen⟩ := header.cmsgLen_of_inside hsub.1 (by unfold Msghdr.controlEnd; omega)
  simp only [cmsgNxtHdr, pure_bind, hlen, ok_bind] at h
  split at h
  . cases h
  have hextent := alignUp_le len.toNat_lt_two_pow
  rcases bind_eq_error h with h | ⟨nextSubHeader, hnext, h⟩
  . have := orOverflow_addAlign_eq_error h
    exact ⟨this.1, by omega⟩
  rcases bind_eq_error h with h | ⟨endOfMessage, hend, h⟩
  . obtain ⟨rfl, hnone⟩ := orOverflow_eq_error h
    have := le_of_checkedAdd_eq_none hnone
    rw [UInt32.toNat_toUInt64_eq] at this
    exact ⟨rfl, by omega⟩
  obtain ⟨extent, hextent', hnextv⟩ := orOverflow_addAlign_eq_ok hnext
  rw [cmsgAlign_toNat hextent', UInt32.toNat_toUInt64_eq] at hnextv
  rcases bind_eq_error h with h | ⟨headerEnd, hheaderEnd, h⟩
  . obtain ⟨rfl, hnone⟩ := orOverflow_eq_error h
    have := le_of_checkedAdd_eq_none hnone
    rw [cmsghdrSize_toNat] at this
    exact ⟨rfl, by omega⟩
  split at h
  . cases h
  have hendv := orOverflow_checkedAdd_eq_ok hend
  have hheaderEndv := orOverflow_checkedAdd_eq_ok hheaderEnd
  have hheaderEnd_le : headerEnd.toNat ≤ endOfMessage.toNat := Nat.le_of_not_lt ‹_›
  rw [UInt32.toNat_toUInt64_eq] at hendv
  rw [cmsghdrSize_toNat] at hheaderEndv
  rcases bind_eq_error h with h | ⟨nextLen, -, h⟩
  . obtain ⟨_, hok⟩ := header.cmsgLen_of_inside (show _ ≤ nextSubHeader.toNat by omega)
      (by unfold Msghdr.controlEnd; omega)
    rw [hok] at h
    cases h
  rcases bind_eq_error h with h | ⟨extentEnd, -, h⟩
  . have herr := orOverflow_addAlign_eq_error h
    have hnextExtent := alignUp_le nextLen.toNat_lt_two_pow
    exact ⟨herr.1, by omega⟩
  split at h <;> cases h

end NxtHdr

section Walk

variable {mhdr : Msghdr} {n : Nat}

/--
What holds after `n` rounds of the loop: it holds null, or a header whose fixed part is in the
control buffer, at least `n` bytes past `msg_control`; or it has stopped at an overflow, which needs
a buffer that ends less than `2 ^ 32` below the top of the address space.
-/
def Msghdr.WalkInv (mhdr : Msghdr) (n : Nat) : Except CmsgFault UInt64 → Prop
  | .ok cmsg => cmsg = 0 ∨ mhdr.FixedInside cmsg ∧ mhdr.msgControl.toNat + n ≤ cmsg.toNat
  | .error e => e = .overflow ∧ 2 ^ 64 ≤ mhdr.controlEnd + 2 ^ 32

theorem walk_succ_of_ne_zero {cmsg : UInt64} (h : walk mhdr n = .ok cmsg) (hne : cmsg ≠ 0)
    : walk mhdr (n + 1) = cmsgNxtHdr mhdr cmsg := by
  rw [walk, h, ok_bind, if_neg hne]

theorem Msghdr.WalkInv.succ (hinv : mhdr.WalkInv n (walk mhdr n)) : mhdr.WalkInv (n + 1) (walk mhdr (n + 1)) := by
  cases hw : walk mhdr n with
  | error e =>
    rw [hw] at hinv
    rw [walk, hw]
    exact hinv
  | ok cmsg =>
    by_cases hzero : cmsg = 0
    . rw [walk, hw, ok_bind, if_pos hzero]
      exact .inl rfl
    obtain ⟨hfixed, hpast⟩ := (hw ▸ hinv : mhdr.WalkInv n (.ok cmsg)).resolve_left hzero
    rw [walk_succ_of_ne_zero hw hzero]
    cases hnext : cmsgNxtHdr mhdr cmsg with
    | error e => exact cmsgNxtHdr_eq_error hfixed hnext
    | ok next =>
      by_cases hnull : next = 0
      . exact .inl hnull
      . obtain ⟨hlt, hfixed', -⟩ := cmsgNxtHdr_eq_ok hfixed hnext hnull
        exact .inr ⟨hfixed', by omega⟩

end Walk

end Cmsg

open Cmsg

example : walk ⟨0x1000, 32, [16, 0, 0, 0, 1, 0, 0, 0, 1, 0, 0, 0, 7, 0, 0, 0,
    16, 0, 0, 0, 1, 0, 0, 0, 1, 0, 0, 0, 9, 0, 0, 0], rfl⟩ 1 = .ok 0x1010 ∧
    walk ⟨0x1000, 32, [16, 0, 0, 0, 1, 0, 0, 0, 1, 0, 0, 0, 7, 0, 0, 0,
    16, 0, 0, 0, 1, 0, 0, 0, 1, 0, 0, 0, 9, 0, 0, 0], rfl⟩ 2 = .ok 0 :=
  ⟨rfl, rfl⟩

end Elkodon

