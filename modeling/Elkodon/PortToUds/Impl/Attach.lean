import Elkodon.PortToUds.Impl.Entry

/-!
Processes attaching to the directory with `PortToUds::new` and calling it, with the named file
mapping shared between them.
-/

namespace Elkodon

def PortToUdsNameMap.zeroed : PortToUdsNameMap :=
  { initCheck := 0, udsNames := fun _ => { abaCounter := 0, value := fun _ => UdsName.zero } }

inductive DirectoryCall where
  | set (port : UInt16) (name : List UInt8)
  | reset (port : UInt16)
  | get (port : UInt16)
  | getPort (name : List UInt8)

/-- The directory after the call, `none` where the call panics. -/
def DirectoryCall.apply (m : PortToUdsNameMap) : DirectoryCall → Option PortToUdsNameMap
  | .set port name => PortToUds.set m port name
  | .reset port => PortToUds.reset m port
  | .get port => (m.get port).map fun _ => m
  | .getPort name => (PortToUds.getPort m name).map fun _ => m

/-- A process's position in `PortToUds::new`, `PortToUdsNameMap::initialize` and its calls. -/
inductive AttachPc where
  | start
  | mapping (hasCreatedShm : Bool)
  | committing (hasCreatedShm : Bool)
  | loadingInitCheck
  | exchangingInitCheck (current : UInt64)
  | initializingEntry (i : Nat)
  | storingInitialized
  /-- `initialize`: the exchange failed; spinning until `init_check` is `IS_INITIALIZED`. -/
  | spinning
  | ready
  | failed
  | panicked
  | dropped

structure Machine where
  /-- The named mapping `"/port_to_uds_name_map"`, if it exists. -/
  mapping : Option PortToUdsNameMap
  /-- The open handles and views of the mapping, over all processes. -/
  references : Nat
  procs : Nat → AttachPc

namespace Machine

def init : Machine := { mapping := none, references := 0, procs := fun _ => .start }

def setProc (s : Machine) (p : Nat) (pc : AttachPc) : Machine :=
  { s with procs := Function.update s.procs p pc }

/-- Close `n` handles or views; the mapping disappears with its last one. -/
def close (s : Machine) (n : Nat) : Machine :=
  { s with
    references := s.references - n
    mapping := if s.references - n = 0 then none else s.mapping }

def updateDirectory (s : Machine) (f : PortToUdsNameMap → PortToUdsNameMap) : Machine :=
  { s with mapping := s.mapping.map f }

inductive Event where
  | proc (p : Nat)
  | call (p : Nat) (c : DirectoryCall)

inductive Step : Machine → Event → Machine → Prop where
  | create (s : Machine) (p : Nat) (hpc : s.procs p = .start) (hnone : s.mapping = none)
      : Step s (.proc p)
          ({ s with mapping := some PortToUdsNameMap.zeroed, references := 1 }.setProc p (.mapping true))
  /-- `CreateFileMappingA` opens the existing mapping: `ERROR_ALREADY_EXISTS`. -/
  | attach (s : Machine) (p : Nat) (hpc : s.procs p = .start) (hsome : s.mapping.isSome)
      : Step s (.proc p) ({ s with references := s.references + 1 }.setProc p (.mapping false))
  | createFailed (s : Machine) (p : Nat) (hpc : s.procs p = .start)
      : Step s (.proc p) (s.setProc p .failed)
  | mapView (s : Machine) (p : Nat) {created} (hpc : s.procs p = .mapping created)
      : Step s (.proc p) ({ s with references := s.references + 1 }.setProc p (.committing created))
  | mapViewFailed (s : Machine) (p : Nat) {created} (hpc : s.procs p = .mapping created)
      : Step s (.proc p) ((s.close 1).setProc p .failed)
  /-- The view is committed; only the creator runs `initialize`. -/
  | commit (s : Machine) (p : Nat) {created} (hpc : s.procs p = .committing created)
      : Step s (.proc p) (s.setProc p (if created then .loadingInitCheck else .ready))
  | commitFailed (s : Machine) (p : Nat) {created} (hpc : s.procs p = .committing created)
      : Step s (.proc p) ((s.close 2).setProc p .failed)
  | loadInitCheck (s : Machine) (p : Nat) {m} (hpc : s.procs p = .loadingInitCheck)
      (hm : s.mapping = some m)
      : Step s (.proc p) (s.setProc p (.exchangingInitCheck m.initCheck))
  | exchangeSucceeded (s : Machine) (p : Nat) {m current} (hpc : s.procs p = .exchangingInitCheck current)
      (hm : s.mapping = some m) (heq : m.initCheck = current)
      : Step s (.proc p)
          ((s.updateDirectory fun m => { m with initCheck := initializationInProgress }).setProc p
            (.initializingEntry 0))
  | exchangeFailed (s : Machine) (p : Nat) {m current} (hpc : s.procs p = .exchangingInitCheck current)
      (hm : s.mapping = some m) (hne : m.initCheck ≠ current)
      : Step s (.proc p) (s.setProc p .spinning)
  | initializeEntry (s : Machine) (p : Nat) {i} (hpc : s.procs p = .initializingEntry i)
      (hi : i < udsNamesLen)
      : Step s (.proc p)
          ((s.updateDirectory fun m =>
            { m with udsNames := Function.update m.udsNames ⟨i, hi⟩ Entry.initialized }).setProc p
            (.initializingEntry (i + 1)))
  | entriesInitialized (s : Machine) (p : Nat) (hpc : s.procs p = .initializingEntry udsNamesLen)
      : Step s (.proc p) (s.setProc p .storingInitialized)
  | storeInitialized (s : Machine) (p : Nat) (hpc : s.procs p = .storingInitialized)
      : Step s (.proc p)
          ((s.updateDirectory fun m => { m with initCheck := isInitialized }).setProc p .ready)
  | spinDone (s : Machine) (p : Nat) {m} (hpc : s.procs p = .spinning) (hm : s.mapping = some m)
      (hinit : m.initCheck = isInitialized)
      : Step s (.proc p) (s.setProc p .ready)
  | call (s : Machine) (p : Nat) (c : DirectoryCall) {m m'} (hpc : s.procs p = .ready)
      (hm : s.mapping = some m) (happ : c.apply m = some m')
      : Step s (.call p c) ({ s with mapping := some m' })
  /-- The call panics; the process ends and its handle and view close. -/
  | callPanicked (s : Machine) (p : Nat) (c : DirectoryCall) {m} (hpc : s.procs p = .ready)
      (hm : s.mapping = some m) (happ : c.apply m = none)
      : Step s (.call p c) ((s.close 2).setProc p .panicked)
  | drop (s : Machine) (p : Nat) (hpc : s.procs p = .ready)
      : Step s (.proc p) ((s.close 2).setProc p .dropped)

inductive Reachable : Machine → Prop where
  | init : Reachable init
  | step {s s' : Machine} {ev : Event} : Reachable s → Step s ev s' → Reachable s'

inductive Steps : Machine → List Event → Machine → Prop where
  | refl (s : Machine) : Steps s [] s
  | cons {s s' s'' : Machine} {ev : Event} {evs : List Event}
      : Step s ev s' → Steps s' evs s'' → Steps s (ev :: evs) s''

end Machine

end Elkodon
