import Elkodon.Elementary.Math
import Mathlib.Data.Fintype.Basic

/-!
The Windows port-to-UDS-name directory run in one thread: `Entry`, `PortToUdsNameMap` and
`PortToUds`, a panic being `none`.
-/

namespace Elkodon

def maxUdsNameLen : Nat := 108

def isInitialized : UInt64 := 0xaffedeadbeef

def initializationInProgress : UInt64 := 0xbebebebebebebebe

def udsNamesLen : Nat := 65535

abbrev UdsName := Fin maxUdsNameLen → UInt8

def UdsName.zero : UdsName := fun _ => 0

/-- A name of at most `MAX_UDS_NAME_LEN` bytes followed by zero bytes, as a specification. -/
def UdsName.pad (name : List UInt8) : UdsName := fun i => name.getD i.val 0

def UdsName.copyFromSlice (buffer : UdsName) (value : List UInt8) : UdsName :=
  fun i => if i.val < value.length then value.getD i.val 0 else buffer i

def bufferIndex (counter : UInt64) : Fin 2 :=
  ⟨(counter % 2).toNat, by rw [UInt64.toNat_mod]; exact Nat.mod_lt _ (by decide)⟩

structure Entry where
  abaCounter : UInt64
  value : Fin 2 → UdsName

namespace Entry

def initialized : Entry := { abaCounter := 1, value := fun _ => UdsName.zero }

/--
`Entry::set` run without interference: zero the buffer `current % 2`, copy the value into
it and increment the counter (`fetch_add` wraps). A value longer than the buffer panics.
-/
def set (e : Entry) (value : List UInt8) : Option Entry :=
  let current := e.abaCounter
  if value.length ≤ maxUdsNameLen then
    some {
      abaCounter := current + 1
      value := Function.update e.value (bufferIndex current) (UdsName.zero.copyFromSlice value)
    }
  else
    none

/--
`Entry::get` run without interference: the loop compares the counter it loaded with an
unchanged counter and leaves after copying the buffer `(current - 1) % 2` once.
-/
def get (e : Entry) : Option UdsName := do
  let previous ← checkedSub e.abaCounter 1
  pure (e.value (bufferIndex previous))

end Entry

structure PortToUdsNameMap where
  initCheck : UInt64
  udsNames : Fin udsNamesLen → Entry

namespace PortToUdsNameMap

def initialized : PortToUdsNameMap :=
  { initCheck := isInitialized, udsNames := fun _ => Entry.initialized }

/-- The index `port as usize` into `uds_names`, `none` where indexing panics. -/
def index? (port : Nat) : Option (Fin udsNamesLen) :=
  if h : port < udsNamesLen then some ⟨port, h⟩ else none

def set (m : PortToUdsNameMap) (port : UInt16) (name : List UInt8) : Option PortToUdsNameMap := do
  let i ← index? port.toNat
  let e ← (m.udsNames i).set name
  pure { m with udsNames := Function.update m.udsNames i e }

def get (m : PortToUdsNameMap) (port : UInt16) : Option UdsName := do
  let i ← index? port.toNat
  (m.udsNames i).get

/-- `entry_name.iter().position(|c| *c == 0).unwrap_or(0)`. -/
def nulPosition (entryName : UdsName) : Nat :=
  ((List.ofFn entryName).findIdx? (· == 0)).getD 0

/-- The loop body's test: `entry_name[..pos] == name[..pos]` after the two skips. -/
def matchesName (entryName : UdsName) (name : List UInt8) : Bool :=
  let pos := nulPosition entryName
  if pos = 0 ∨ pos > name.length then false
  else (List.ofFn entryName).take pos == name.take pos

def getPort.go (m : PortToUdsNameMap) (name : List UInt8) : List (Fin udsNamesLen) → Option UInt16
  | [] => some 0
  | i :: rest => do
    let entryName ← (m.udsNames i).get
    if matchesName entryName name then some i.val.toUInt16 else getPort.go m name rest

def getPort (m : PortToUdsNameMap) (name : List UInt8) : Option UInt16 :=
  getPort.go m name (List.finRange udsNamesLen)

end PortToUdsNameMap

namespace PortToUds

def set (m : PortToUdsNameMap) (port : UInt16) (name : List UInt8) : Option PortToUdsNameMap :=
  m.set port name

def getPort (m : PortToUdsNameMap) (name : List UInt8) : Option UInt16 :=
  m.getPort name

def reset (m : PortToUdsNameMap) (port : UInt16) : Option PortToUdsNameMap :=
  set m port (List.replicate maxUdsNameLen 0)

end PortToUds

end Elkodon
