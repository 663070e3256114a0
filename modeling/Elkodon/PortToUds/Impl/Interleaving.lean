import Elkodon.PortToUds.Impl.Entry

/-!
One `Entry` shared by one writer and any number of readers, every load, store and byte copy a
step of its own.
-/

namespace Elkodon

namespace Entry

def writeByte (e : Entry) (buffer : Fin 2) (i : Fin maxUdsNameLen) (byte : UInt8) : Entry :=
  { e with value := Function.update e.value buffer (Function.update (e.value buffer) i byte) }

end Entry

inductive SetPc where
  | idle
  | zeroing (current : UInt64) (value : List UInt8) (pos : Nat)
  | copying (current : UInt64) (value : List UInt8) (pos : Nat)
  | incrementing (current : UInt64) (value : List UInt8)

/--
A reader's position in `Entry::get`. The field `since` is ghost state: the number of `set`
calls that had completed when the reader loaded the counter.
-/
inductive GetPc where
  | idle
  | copying (current : UInt64) (result : UdsName) (pos : Nat) (since : Nat)
  | comparing (current : UInt64) (result : UdsName) (since : Nat)
  /-- `current - 1` underflowed. -/
  | panicked

def GetPc.since : GetPc → Nat
  | .copying _ _ _ since => since
  | .comparing _ _ since => since
  | _ => 0

structure EntrySystem where
  entry : Entry
  writer : SetPc
  readers : Nat → GetPc
  /-- Ghost state: the values of the completed `set` calls, oldest first. -/
  history : List (List UInt8)

namespace EntrySystem

def init : EntrySystem :=
  { entry := Entry.initialized, writer := .idle, readers := fun _ => .idle, history := [] }

def setReader (s : EntrySystem) (r : Nat) (pc : GetPc) : EntrySystem :=
  { s with readers := Function.update s.readers r pc }

inductive Event where
  | write
  | read (reader : Nat)
  | returned (reader : Nat) (value : UdsName)

inductive Step : EntrySystem → Event → EntrySystem → Prop where
  | load (s : EntrySystem) (value : List UInt8) (hidle : s.writer = .idle)
      (hlen : value.length ≤ maxUdsNameLen)
      : Step s .write { s with writer := .zeroing s.entry.abaCounter value 0 }
  | zero (s : EntrySystem) {current value pos} (hw : s.writer = .zeroing current value pos)
      (hpos : pos < maxUdsNameLen)
      : Step s .write
          { s with
            entry := s.entry.writeByte (bufferIndex current) ⟨pos, hpos⟩ 0
            writer := .zeroing current value (pos + 1) }
  | zeroDone (s : EntrySystem) {current value} (hw : s.writer = .zeroing current value maxUdsNameLen)
      : Step s .write { s with writer := .copying current value 0 }
  | copy (s : EntrySystem) {current value pos} (hw : s.writer = .copying current value pos)
      (hpos : pos < value.length) (hfit : pos < maxUdsNameLen)
      : Step s .write
          { s with
            entry := s.entry.writeByte (bufferIndex current) ⟨pos, hfit⟩ (value.getD pos 0)
            writer := .copying current value (pos + 1) }
  | copyDone (s : EntrySystem) {current value} (hw : s.writer = .copying current value value.length)
      : Step s .write { s with writer := .incrementing current value }
  /-- `self.aba_counter.fetch_add(1, Release)`; the ghost history records the completed `set`. -/
  | fetchAdd (s : EntrySystem) {current value} (hw : s.writer = .incrementing current value)
      : Step s .write
          { s with
            entry := { s.entry with abaCounter := s.entry.abaCounter + 1 }
            writer := .idle
            history := s.history ++ [value] }
  | readerLoad (s : EntrySystem) (r : Nat) (hidle : s.readers r = .idle)
      (hpos : 0 < s.entry.abaCounter.toNat)
      : Step s (.read r) (s.setReader r (.copying s.entry.abaCounter (fun _ => 0) 0 s.history.length))
  | readerPanic (s : EntrySystem) (r : Nat) (hidle : s.readers r = .idle)
      (hzero : s.entry.abaCounter = 0)
      : Step s (.read r) (s.setReader r .panicked)
  | readerCopy (s : EntrySystem) (r : Nat) {current result pos since}
      (hr : s.readers r = .copying current result pos since) (hpos : pos < maxUdsNameLen)
      : Step s (.read r)
          (s.setReader r
            (.copying current
              (Function.update result ⟨pos, hpos⟩
                (s.entry.value (bufferIndex (current - 1)) ⟨pos, hpos⟩))
              (pos + 1) since))
  | readerCopyDone (s : EntrySystem) (r : Nat) {current result since}
      (hr : s.readers r = .copying current result maxUdsNameLen since)
      : Step s (.read r) (s.setReader r (.comparing current result since))
  | readerRetry (s : EntrySystem) (r : Nat) {current result since}
      (hr : s.readers r = .comparing current result since) (hne : s.entry.abaCounter ≠ current)
      : Step s (.read r) (s.setReader r (.copying current result 0 since))
  | readerReturn (s : EntrySystem) (r : Nat) {current result since}
      (hr : s.readers r = .comparing current result since) (heq : s.entry.abaCounter = current)
      : Step s (.returned r result) (s.setReader r .idle)

inductive Reachable : EntrySystem → Prop where
  | init : Reachable init
  | step {s s' : EntrySystem} {ev : Event} : Reachable s → Step s ev s' → Reachable s'

inductive Steps : EntrySystem → List Event → EntrySystem → Prop where
  | refl (s : EntrySystem) : Steps s [] s
  | cons {s s' s'' : EntrySystem} {ev : Event} {evs : List Event}
      : Step s ev s' → Steps s' evs s'' → Steps s (ev :: evs) s''

end EntrySystem

end Elkodon
