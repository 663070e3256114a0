import Elkodon.Elementary.Math

/-!
`shm_list` of the FreeBSD platform layer: the walk over the `kinfo_file` records the second
`sysctl` writes into a `malloc`'d block, a read outside it being `outOfBounds`.
-/

namespace Elkodon

/--
The layout of `kinfo_file` the walk relies on. The type is declared outside this repository:
`kf_structsize` is an `int` at offset `0`, `kf_path` starts at `pathOffset`.
-/
structure KinfoFileLayout where
  pathOffset : Nat
  alignment : Nat
  size_le : 4 ≤ pathOffset
  alignment_pos : 0 < alignment
  alignment_lt : alignment < 2 ^ 64

namespace ShmList

def readByte (block : List UInt8) (offset : Int) : Option UInt8 :=
  if 0 ≤ offset then block[offset.toNat]? else none

def readInt32 (block : List UInt8) (offset : Int) : Option Int := do
  let b0 ← readByte block offset
  let b1 ← readByte block (offset + 1)
  let b2 ← readByte block (offset + 2)
  let b3 ← readByte block (offset + 3)
  let raw := b0.toNat + 256 * b1.toNat + 65536 * b2.toNat + 16777216 * b3.toNat
  pure (if raw < 2 ^ 31 then (raw : Int) else (raw : Int) - 2 ^ 32)

/-- `strncpy(dst, src, n)`: copies up to the first NUL and pads `dst` with NULs to `n` bytes. -/
def strncpy (block : List UInt8) (src : Int) : Nat → Option (List UInt8)
  | 0 => some []
  | n + 1 => do
    let c ← readByte block src
    if c = 0 then some (List.replicate (n + 1) 0)
    else (strncpy block (src + 1) n).map (c :: ·)

/-- `value as usize` for an `int`: sign extension to 64 bits. -/
def toUsize (value : Int) : UInt64 := UInt64.ofNat (value % 2 ^ 64).toNat

def toIsize (value : UInt64) : Int :=
  if value.toNat < 2 ^ 63 then value.toNat else (value.toNat : Int) - 2 ^ 64

inductive Outcome where
  /-- The loop met a zero `kf_structsize` or an empty `kf_path` and returns the names. -/
  | returned (names : List (List UInt8))
  /-- A read outside the `malloc`'d block: undefined behaviour. -/
  | outOfBounds
  /-- The local `align` overflowed: a panic in a debug build. -/
  | overflow
  deriving DecidableEq, Repr

def Outcome.push (name : List UInt8) : Outcome → Outcome
  | .returned names => .returned (name :: names)
  | other => other

/--
The `loop` of `shm_list` from the record at `temp`, with `fuel` iterations. It stops on a
zero `kf_structsize` or an empty `kf_path` only; it never consults the length that the
second `sysctl` returned.
-/
def walk (layout : KinfoFileLayout) (block : List UInt8) : Nat → Int → Option Outcome
  | 0, _ => none
  | fuel + 1, temp =>
    match readInt32 block temp with
    | none => some .outOfBounds
    | some structsize =>
      if structsize = 0 then some (.returned [])
      else
        match readByte block (temp + layout.pathOffset) with
        | none => some .outOfBounds
        | some first =>
          if first = 0 then some (.returned [])
          else
            match strncpy block (temp + layout.pathOffset + 1) 256 with
            | none => some .outOfBounds
            | some name =>
              match align (toUsize structsize) (UInt64.ofNat layout.alignment) with
              | none => some .overflow
              | some step => (walk layout block fuel (temp + toIsize step)).map (Outcome.push name)

end ShmList

end Elkodon
