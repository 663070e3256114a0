import Elkodon.Elementary.Math

/-!
The control-message helpers of the macOS platform layer and the loop over them, on Darwin's
`msghdr` and `cmsghdr`; a read outside the control buffer is `outOfBounds`, an overflow `overflow`.
-/

namespace Elkodon

inductive CmsgFault where
  /-- An integer overflow: a debug build panics. For `offset`, undefined behaviour. -/
  | overflow
  /-- A read of `cmsg_len` at this address, outside the control buffer: undefined behaviour. -/
  | outOfBounds (address : UInt64)
  deriving DecidableEq, Repr

namespace Cmsg

/-- The part of a `msghdr` the helpers read: `msg_control`, `msg_controllen` and the buffer. -/
structure Msghdr where
  msgControl : UInt64
  msgControllen : UInt32
  control : List UInt8
  control_length : control.length = msgControllen.toNat

/-- `std::mem::size_of::<cmsghdr>()`. -/
def cmsghdrSize : UInt64 := 12

def Msghdr.readU32 (mhdr : Msghdr) (offset : Nat) : Option UInt32 := do
  let b0 ← mhdr.control[offset]?
  let b1 ← mhdr.control[offset + 1]?
  let b2 ← mhdr.control[offset + 2]?
  let b3 ← mhdr.control[offset + 3]?
  pure (UInt32.ofNat (b0.toNat + 256 * b1.toNat + 65536 * b2.toNat + 16777216 * b3.toNat))

def Msghdr.cmsgLen (mhdr : Msghdr) (cmsg : UInt64) : Except CmsgFault UInt32 :=
  match if mhdr.msgControl ≤ cmsg then mhdr.readU32 (cmsg.toNat - mhdr.msgControl.toNat) else none with
  | some len => .ok len
  | none => .error (.outOfBounds cmsg)

/-- A `usize` operation of the helpers, whose `none` is a debug build's overflow panic. -/
def orOverflow : Option UInt64 → Except CmsgFault UInt64
  | some value => .ok value
  | none => .error .overflow

def cmsgAlign (len : UInt64) : Option UInt64 := do
  let sum ← checkedAdd len 8
  let rounded ← checkedSub sum 1
  pure (rounded &&& ~~~(8 - 1))

def cmsgFirstHdr (mhdr : Msghdr) : UInt64 :=
  if mhdr.msgControllen.toUInt64 < cmsghdrSize then 0 else mhdr.msgControl

/--
`CMSG_NXTHDR(header, sub_header)`. It reads `(*sub_header).cmsg_len` twice, as the source does,
and `next_sub_header.offset(1)` is `next_sub_header + size_of::<cmsghdr>()`.
-/
def cmsgNxtHdr (header : Msghdr) (subHeader : UInt64) : Except CmsgFault UInt64 := do
  -- no header contained
  if (← header.cmsgLen subHeader) < cmsghdrSize.toUInt32 then
    return 0
  let nextSubHeader ←
    orOverflow (checkedAdd subHeader =<< cmsgAlign (← header.cmsgLen subHeader).toUInt64)
  let endOfMessage ← orOverflow (checkedAdd header.msgControl header.msgControllen.toUInt64)
  if (← orOverflow (checkedAdd nextSubHeader cmsghdrSize)) > endOfMessage then
    return 0
  if (← orOverflow (checkedAdd nextSubHeader =<< cmsgAlign (← header.cmsgLen nextSubHeader).toUInt64)) >
      endOfMessage then
    return 0
  return nextSubHeader

def checkedAddU32 (a b : UInt32) : Option UInt32 :=
  if a.toNat + b.toNat < 2 ^ 32 then some (a + b) else none

def cmsgSpace (length : UInt32) : Option UInt32 := do
  let space ← checkedAdd (← cmsgAlign length.toUInt64) (← cmsgAlign cmsghdrSize)
  pure space.toUInt32

/-- `CMSG_SPACE_NON_CONST(length)`: the body of `CMSG_SPACE` outside a `const fn`. -/
def cmsgSpaceNonConst (length : UInt32) : Option UInt32 :=
  cmsgSpace length

def cmsgLen (length : UInt32) : Option UInt32 := do
  checkedAddU32 (← cmsgAlign cmsghdrSize).toUInt32 length

/--
The header a loop over the control messages holds after `n` rounds. It starts at
`CMSG_FIRSTHDR(mhdr)`; each round replaces a non-null header `cmsg` by `CMSG_NXTHDR(mhdr, cmsg)`,
and from null on the loop has ended.
-/
def walk (mhdr : Msghdr) : Nat → Except CmsgFault UInt64
  | 0 => .ok (cmsgFirstHdr mhdr)
  | n + 1 => do
    let cmsg ← walk mhdr n
    if cmsg = 0 then pure 0 else cmsgNxtHdr mhdr cmsg

end Cmsg

end Elkodon
