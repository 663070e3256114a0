import Mathlib.Logic.Function.Basic
import Mathlib.Data.List.Basic

/-!
The POSIX calls `SharedMemory` makes, each coming out as the environment chooses: any errno, or
what POSIX says.
-/

namespace Elkodon

/-- The errnos the builder tells apart; `other` is any other value. -/
inductive Errno where
  | eacces
  | einval
  | eexist
  | emfile
  | enfile
  | enametoolong
  | enoent
  | eagain
  | other (value : Int)
  deriving DecidableEq, Repr

/-- `errno as i32`, with the values of Linux. -/
def Errno.value : Errno → Int
  | .eacces => 13
  | .einval => 22
  | .eexist => 17
  | .emfile => 24
  | .enfile => 23
  | .enametoolong => 36
  | .enoent => 2
  | .eagain => 11
  | .other value => value

abbrev FileName := List UInt8

def mapFailed : UInt64 := 0xffffffffffffffff

/--
What all processes share. Segments are kept in order of creation, so that a segment outlives its
name while descriptors refer to it; descriptor numbers are never reused.
-/
structure Kernel where
  names : FileName → Option Nat
  segments : Nat → List UInt8
  nextSegment : Nat
  fds : Nat → Option Nat
  nextFd : Nat
  /-- `POSIX_SUPPORT_ADVANCED_SIGNAL_HANDLING`: a signal during `memset` is caught. -/
  advancedSignalHandling : Bool

/--
The address space of one process: the segment and length mapped at each address, and the length
locked there. Only a mapped range is locked, and a second lock replaces the first.
-/
structure Space where
  mappings : UInt64 → Option (Nat × Nat)
  locks : UInt64 → Option Nat
  locks_mapped : ∀ address, locks address ≠ none → mappings address ≠ none

/-- The OS as one process sees it. -/
structure Os extends Kernel, Space

inductive Answer where
  | succeed
  | succeedAt (address : UInt64)
  /-- A signal interrupts `memset` after this many bytes. -/
  | interrupt (zeroed : Nat)
  | fail (errno : Errno)
  deriving DecidableEq, Repr

def resize (data : List UInt8) (length : Nat) : List UInt8 :=
  data.take length ++ List.replicate (length - data.length) 0

def zeroPrefix (data : List UInt8) (length : Nat) : List UInt8 :=
  List.replicate (min length data.length) 0 ++ data.drop length

namespace Space

variable (sp : Space)

def covers (address : UInt64) (length : Nat) : Bool :=
  match sp.mappings address with
  | some (_, mapped) => decide (length ≤ mapped)
  | none => false

theorem mappings_ne_none_of_covers {address : UInt64} {length : Nat} (h : sp.covers address length = true)
    : sp.mappings address ≠ none := by
  unfold covers at h
  split at h <;> simp_all

def mapAt (address : UInt64) (segment length : Nat) : Space where
  mappings := Function.update sp.mappings address (some (segment, length))
  locks := sp.locks
  locks_mapped a h := by
    by_cases ha : a = address
    . subst ha; simp
    . rw [Function.update_noteq ha]; exact sp.locks_mapped a h

/-- `munmap`: the mapping at `address` is gone, and with it the lock on its range. -/
def unmap (address : UInt64) : Space where
  mappings := Function.update sp.mappings address none
  locks := Function.update sp.locks address none
  locks_mapped a h := by
    by_cases ha : a = address
    . subst ha; simp at h
    . rw [Function.update_noteq ha] at h ⊢; exact sp.locks_mapped a h

def lock (address : UInt64) (length : Nat) (h : sp.covers address length = true) : Space where
  mappings := sp.mappings
  locks := Function.update sp.locks address (some length)
  locks_mapped a ha := by
    by_cases hx : a = address
    . subst hx; exact sp.mappings_ne_none_of_covers h
    . rw [Function.update_noteq hx] at ha; exact sp.locks_mapped a ha

def unlock (address : UInt64) : Space where
  mappings := sp.mappings
  locks := Function.update sp.locks address none
  locks_mapped a ha := by
    by_cases hx : a = address
    . subst hx; simp at ha
    . rw [Function.update_noteq hx] at ha; exact sp.locks_mapped a ha

def empty : Space where
  mappings _ := none
  locks _ := none
  locks_mapped _ h := absurd rfl h

end Space

namespace Os

variable (os : Os)

def openFd (segment : Nat) : Os :=
  { os with fds := Function.update os.fds os.nextFd (some segment), nextFd := os.nextFd + 1 }

def createSegment (name : FileName) : Os :=
  openFd { os with
    names := Function.update os.names name (some os.nextSegment)
    segments := Function.update os.segments os.nextSegment []
    nextSegment := os.nextSegment + 1 } os.nextSegment

/-- `shm_open`, with `O_CREAT | O_EXCL` when `exclusive`: the new descriptor. -/
def shmOpen (name : FileName) (exclusive : Bool) : Answer → Option (Except Errno (Nat × Os))
  | .succeed =>
    match exclusive, os.names name with
    | true, none => some (.ok (os.nextFd, os.createSegment name))
    | false, some segment => some (.ok (os.nextFd, os.openFd segment))
    | _, _ => none
  | .fail errno => some (.error errno)
  | _ => none

def unbind (name : FileName) : Os :=
  { os with names := Function.update os.names name none }

def mapAt (address : UInt64) (segment length : Nat) : Os :=
  { os with toSpace := os.toSpace.mapAt address segment length }

def shmUnlink (name : FileName) : Answer → Option (Except Errno Os)
  | .succeed => (os.names name).map fun _ => .ok (os.unbind name)
  | .fail errno => some (.error errno)
  | _ => none

/-- `mmap(NULL, length, .., MAP_SHARED, fd, 0)`: the address of the mapping. -/
def mmap (fd length : Nat) : Answer → Option (Except Errno (UInt64 × Os))
  | .succeedAt address =>
    match os.fds fd with
    | some segment =>
      if 0 < length ∧ address ≠ 0 ∧ address ≠ mapFailed ∧ os.mappings address = none then
        some (.ok (address, os.mapAt address segment length))
      else none
    | none => none
  | .fail errno => some (.error errno)
  | _ => none

def fstat (fd : Nat) : Answer → Option (Except Errno Nat)
  | .succeed => (os.fds fd).map fun segment => .ok (os.segments segment).length
  | .fail errno => some (.error errno)
  | _ => none

def ftruncate (fd length : Nat) : Answer → Option (Except Errno Os)
  | .succeed =>
    (os.fds fd).map fun segment =>
      .ok { os with
        segments := Function.update os.segments segment (resize (os.segments segment) length) }
  | .fail errno => some (.error errno)
  | _ => none

/-- `mlock`, which succeeds only on a mapped range. -/
def mlock (address : UInt64) (length : Nat) : Answer → Option (Except Errno Os)
  | .succeed =>
    if h : os.covers address length = true then some (.ok { os with toSpace := os.toSpace.lock address length h })
    else none
  | .fail errno => some (.error errno)
  | _ => none

/--
`memset(address, 0, length)` over the mapping at `address`: whether a signal interrupted it.
Past the end of the segment it faults; a fault is caught only with advanced signal handling,
otherwise the process dies and the call does not return.
-/
def memset (address : UInt64) (length : Nat) : Answer → Option (Bool × Os)
  | .succeed =>
    match os.mappings address with
    | some (segment, _) =>
      if length ≤ (os.segments segment).length then
        some (false, { os with
          segments := Function.update os.segments segment (zeroPrefix (os.segments segment) length) })
      else none
    | none => none
  | .interrupt zeroed =>
    match os.mappings address with
    | some (segment, _) =>
      if os.advancedSignalHandling ∧ zeroed ≤ length then
        some (true, { os with
          segments := Function.update os.segments segment (zeroPrefix (os.segments segment) zeroed) })
      else none
    | none => none
  | _ => none

/--
A load of `length` bytes from `address`, where a mapping starts: the start of the mapped segment.
Past the end of the mapping, or past the end of the segment, a load faults (`none`).
-/
def read (address : UInt64) (length : Nat) : Option (List UInt8) :=
  match os.mappings address with
  | some (segment, mapped) =>
    if length ≤ mapped ∧ length ≤ (os.segments segment).length then some ((os.segments segment).take length)
    else none
  | none => none

def munmap (address : UInt64) : Os :=
  { os with toSpace := os.toSpace.unmap address }

def close (fd : Nat) : Os :=
  { os with fds := Function.update os.fds fd none }

/-- `munlock`, which fails with `ENOMEM` on a range that is not mapped. -/
def munlock (address : UInt64) (length : Nat) : Answer → Option (Except Errno Os)
  | .succeed =>
    if os.covers address length then some (.ok { os with toSpace := os.toSpace.unlock address }) else none
  | .fail errno => some (.error errno)
  | _ => none

def empty (advancedSignalHandling : Bool) : Os where
  names _ := none
  segments _ := []
  nextSegment := 0
  fds _ := none
  nextFd := 0
  advancedSignalHandling := advancedSignalHandling
  toSpace := .empty

end Os

/--
Every segment in use was created before `nextSegment`, and no descriptor at or after `nextFd`
is open.
-/
structure Kernel.WellFormed (k : Kernel) : Prop where
  names_lt : ∀ name segment, k.names name = some segment → segment < k.nextSegment
  fds_lt : ∀ fd segment, k.fds fd = some segment → segment < k.nextSegment
  fds_ge : ∀ fd, k.nextFd ≤ fd → k.fds fd = none

end Elkodon
