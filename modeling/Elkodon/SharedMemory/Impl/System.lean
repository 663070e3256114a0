import Elkodon.SharedMemory.Impl.SharedMemory

/-!
Processes sharing the kernel, each with its own address space, interleaving their calls one OS
call at a time.
-/

namespace Elkodon

/-- A process: where its current call stands, the handle in each of its variables, its mappings. -/
structure Process where
  pc : Pc
  handles : Nat → Option SharedMemory
  space : Space

/-- The calls a process makes between two OS steps of other processes. -/
inductive Call where
  | create (b : SharedMemoryCreationBuilder)
  | openExisting (b : SharedMemoryBuilder)
  | releaseOwnership (slot : Nat)
  | acquireOwnership (slot : Nat)
  | drop (slot : Nat)
  | remove (name : FileName)

namespace Process

def start (pr : Process) : Call → Option Process
  | .create b => some { pr with pc := b.create }
  | .openExisting b => some { pr with pc := b.openExisting }
  | .releaseOwnership slot =>
    (pr.handles slot).map fun shm =>
      { pr with handles := Function.update pr.handles slot (some shm.releaseOwnership) }
  | .acquireOwnership slot =>
    (pr.handles slot).map fun shm =>
      { pr with handles := Function.update pr.handles slot (some shm.acquireOwnership) }
  | .drop slot =>
    (pr.handles slot).map fun shm =>
      { pr with pc := .unmapping shm none, handles := Function.update pr.handles slot none }
  | .remove name => some { pr with pc := .removing name }

/-- The call returned: a handle it returned goes to the empty variable `slot`. -/
def finish (pr : Process) (slot : Nat) : Option Process :=
  match pr.pc, pr.handles slot with
  | .returned (.ok shm), none =>
    some { pr with pc := .idle, handles := Function.update pr.handles slot (some shm) }
  | .returned (.error _), _ => some { pr with pc := .idle }
  | .removeReturned _, _ => some { pr with pc := .idle }
  | _, _ => none

end Process

structure System where
  os : Kernel
  procs : Nat → Process

/-- The OS as process `p` sees it. -/
def System.osOf (s : System) (p : Nat) : Os :=
  ⟨s.os, (s.procs p).space⟩

def System.setProc (s : System) (p : Nat) (pr : Process) : System :=
  { s with procs := Function.update s.procs p pr }

inductive Event where
  | call (p : Nat) (call : Call)
  | os (p : Nat) (answer : Answer)
  | finish (p : Nat) (slot : Nat)

inductive Step : System → Event → System → Prop
  | call (s : System) (p : Nat) (call : Call) (pr : Process) :
      (s.procs p).pc = .idle → (s.procs p).start call = some pr →
      Step s (.call p call) (s.setProc p pr)
  | os (s : System) (p : Nat) (answer : Answer) (pc : Pc) (os : Os) :
      (s.procs p).pc.step (s.osOf p) answer = some (pc, os) →
      Step s (.os p answer) { s.setProc p { s.procs p with pc := pc, space := os.toSpace } with os := os.toKernel }
  | finish (s : System) (p slot : Nat) (pr : Process) :
      (s.procs p).finish slot = some pr → Step s (.finish p slot) (s.setProc p pr)

def System.init (os : Os) : System where
  os := os.toKernel
  procs _ := { pc := .idle, handles := fun _ => none, space := os.toSpace }

/-- The states reached by any interleaving of calls that `allowed` admits. -/
inductive Reachable (allowed : Call → Prop) : System → Prop
  | init (os : Os) : os.WellFormed → Reachable allowed (System.init os)
  | call {s s' : System} {p : Nat} {call : Call} :
      Reachable allowed s → allowed call → Step s (.call p call) s' → Reachable allowed s'
  | os {s s' : System} {p : Nat} {answer : Answer} :
      Reachable allowed s → Step s (.os p answer) s' → Reachable allowed s'
  | finish {s s' : System} {p slot : Nat} :
      Reachable allowed s → Step s (.finish p slot) s' → Reachable allowed s'

/--
The calls that never unlink a name they do not own: `create` with CreateExclusive or
OpenOrCreate, opens, releases and drops, but no PurgeAndCreate, `acquire_ownership` or
`SharedMemory::remove`.
-/
def Call.NonPurging : Call → Prop
  | .create b =>
    b.config.creationMode = some .createExclusive ∨ b.config.creationMode = some .openOrCreate
  | .openExisting _ | .releaseOwnership _ | .drop _ => True
  | .acquireOwnership _ | .remove _ => False

end Elkodon
