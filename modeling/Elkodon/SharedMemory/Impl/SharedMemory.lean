import Elkodon.SharedMemory.Impl.Os

/-!
`open`, `create` and `Drop for SharedMemory` as a machine with one stage per OS call, the drops
Rust inserts on early returns included.
-/

namespace Elkodon

inductive CreationMode where
  | createExclusive
  | purgeAndCreate
  | openOrCreate
  deriving DecidableEq, Repr

inductive SharedMemoryRemoveError where
  | insufficientPermissions
  | doesNotExist
  | unknownError (code : Int)
  deriving DecidableEq, Repr

/--
The nested `FileTruncateError`, `FileStatError` and `MemoryLockCreationError` are declared
outside this repository; they carry the errno here.
-/
inductive SharedMemoryCreationError where
  | sizeDoesNotFit
  | insufficientMemory
  | insufficientMemoryToBeMemoryLocked
  | unsupportedSizeOfZero
  | insufficientPermissions
  | mappedRegionLimitReached
  | perProcessFileHandleLimitReached
  | systemWideFileHandleLimitReached
  | nameTooLong
  | invalidName
  | alreadyExist
  | doesNotExist
  | unableToMapAtEnforcedBaseAddress
  | unknownError (code : Int)
  | fileTruncateError (errno : Errno)
  | fileStatError (errno : Errno)
  | memoryLockCreationError (errno : Errno)
  | sharedMemoryRemoveError (error : SharedMemoryRemoveError)
  deriving DecidableEq, Repr

def shmCreateError : Errno → SharedMemoryCreationError
  | .eacces => .insufficientPermissions
  | .einval => .invalidName
  | .eexist => .alreadyExist
  | .emfile => .perProcessFileHandleLimitReached
  | .enfile => .systemWideFileHandleLimitReached
  | .enametoolong => .nameTooLong
  | errno => .unknownError errno.value

def shmOpenError : Errno → SharedMemoryCreationError
  | .enoent => .doesNotExist
  | .eacces => .insufficientPermissions
  | .einval => .invalidName
  | .emfile => .perProcessFileHandleLimitReached
  | .enfile => .systemWideFileHandleLimitReached
  | .enametoolong => .nameTooLong
  | errno => .unknownError errno.value

def mmapError : Errno → SharedMemoryCreationError
  | .eagain => .insufficientMemoryToBeMemoryLocked
  | .einval => .unsupportedSizeOfZero
  | .emfile => .mappedRegionLimitReached
  | errno => .unknownError errno.value

inductive UnlinkMode where
  | quietWhenNotExisting
  | printErrorWhenNotExisting
  deriving DecidableEq, Repr

/-- The errno match of `shm_unlink`: `none` is `Ok(())`. -/
def unlinkError (mode : UnlinkMode) : Errno → Option SharedMemoryRemoveError
  | .eacces => some .insufficientPermissions
  | .enoent =>
    if mode = .printErrorWhenNotExisting then some .doesNotExist else none
  | errno => some (.unknownError errno.value)

structure SharedMemoryBuilder where
  name : FileName
  size : Nat
  isMemoryLocked : Bool
  hasOwnership : Bool
  creationMode : Option CreationMode
  zeroMemory : Bool
  enforceBaseAddress : Option UInt64

namespace SharedMemoryBuilder

def new (name : FileName) : SharedMemoryBuilder where
  name := name
  size := 0
  isMemoryLocked := false
  hasOwnership := true
  creationMode := none
  zeroMemory := true
  enforceBaseAddress := none

def setIsMemoryLocked (b : SharedMemoryBuilder) (value : Bool) : SharedMemoryBuilder :=
  { b with isMemoryLocked := value }

def setEnforceBaseAddress (b : SharedMemoryBuilder) (value : UInt64) : SharedMemoryBuilder :=
  { b with enforceBaseAddress := some value }

def baseAddressMismatch (b : SharedMemoryBuilder) (address : UInt64) : Bool :=
  b.enforceBaseAddress.isSome && b.enforceBaseAddress != some address

end SharedMemoryBuilder

structure SharedMemoryCreationBuilder where
  config : SharedMemoryBuilder

def SharedMemoryBuilder.setCreationMode (b : SharedMemoryBuilder) (mode : CreationMode)
    : SharedMemoryCreationBuilder :=
  ⟨{ b with creationMode := some mode }⟩

namespace SharedMemoryCreationBuilder

def setZeroMemory (b : SharedMemoryCreationBuilder) (value : Bool) : SharedMemoryCreationBuilder :=
  ⟨{ b.config with zeroMemory := value }⟩

def setSize (b : SharedMemoryCreationBuilder) (size : Nat) : SharedMemoryCreationBuilder :=
  ⟨{ b.config with size := size }⟩

def setHasOwnership (b : SharedMemoryCreationBuilder) (value : Bool) : SharedMemoryCreationBuilder :=
  ⟨{ b.config with hasOwnership := value }⟩

end SharedMemoryCreationBuilder

structure SharedMemory where
  name : FileName
  size : Nat
  baseAddress : UInt64
  hasOwnership : Bool
  fileDescriptor : Nat
  /-- The `MemoryLock` over an address and a length. -/
  memoryLock : Option (UInt64 × Nat)
  deriving DecidableEq, Repr

namespace SharedMemory

def releaseOwnership (shm : SharedMemory) : SharedMemory :=
  { shm with hasOwnership := false }

def acquireOwnership (shm : SharedMemory) : SharedMemory :=
  { shm with hasOwnership := true }

/-- `as_slice` and `as_mut_slice`: the `size` bytes at `base_address`. -/
def asSlice (shm : SharedMemory) (os : Os) : Option (List UInt8) :=
  os.read shm.baseAddress shm.size

end SharedMemory

def SharedMemoryBuilder.handle (b : SharedMemoryBuilder) (fd : Nat) (address : UInt64)
    : SharedMemory where
  name := b.name
  size := b.size
  baseAddress := address
  hasOwnership := b.hasOwnership
  fileDescriptor := fd
  memoryLock := none

/-- Where a call of the builder, of a handle's drop or of `SharedMemory::remove` stands. -/
inductive Pc where
  | idle
  | creating (b : SharedMemoryBuilder) (mode : CreationMode)
  /-- `shm_create` after PurgeAndCreate's unlink or OpenOrCreate's probe. -/
  | shmCreating (b : SharedMemoryBuilder)
  | mapping (b : SharedMemoryBuilder) (fd : Nat) (created : Bool)
  /-- The size check of a segment OpenOrCreate opened. -/
  | statingOpened (b : SharedMemoryBuilder) (shm : SharedMemory)
  | truncating (b : SharedMemoryBuilder) (shm : SharedMemory)
  | statingCreated (b : SharedMemoryBuilder) (shm : SharedMemory)
  | locking (b : SharedMemoryBuilder) (shm : SharedMemory)
  | zeroing (b : SharedMemoryBuilder) (shm : SharedMemory)
  | opening (b : SharedMemoryBuilder)
  | statingOpen (b : SharedMemoryBuilder) (fd : Nat)
  | mappingOpen (b : SharedMemoryBuilder) (fd : Nat)
  /-- The drop of a `FileDescriptor` on an early return with `error`. -/
  | closingFd (fd : Nat) (error : SharedMemoryCreationError)
  /--
  `Drop for SharedMemory`, then its fields; `error` is what the call returns after it, `none`
  for the drop of a handle the process held.
  -/
  | unmapping (shm : SharedMemory) (error : Option SharedMemoryCreationError)
  | unlinking (shm : SharedMemory) (error : Option SharedMemoryCreationError)
  | closingHandle (shm : SharedMemory) (error : Option SharedMemoryCreationError)
  | unlocking (shm : SharedMemory) (error : Option SharedMemoryCreationError)
  | removing (name : FileName)
  | returned (result : Except SharedMemoryCreationError SharedMemory)
  | removeReturned (result : Except SharedMemoryRemoveError Unit)
  /-- `expect("CreationMode must be set on creation")` failed. -/
  | panicked

namespace Pc

def afterDrop : Option SharedMemoryCreationError → Pc
  | none => .idle
  | some error => .returned (.error error)

def afterLock (b : SharedMemoryBuilder) (shm : SharedMemory) : Pc :=
  if b.zeroMemory then .zeroing b shm else .returned (.ok shm)

def afterSizeCheck (b : SharedMemoryBuilder) (shm : SharedMemory) : Pc :=
  if b.isMemoryLocked then .locking b shm else afterLock b shm

/-- The drop of `shm` after `munmap`: `shm_unlink` when it owns the segment. -/
def afterUnmap (shm : SharedMemory) (error : Option SharedMemoryCreationError) : Pc :=
  if shm.hasOwnership then .unlinking shm error else .closingHandle shm error

/-- The drop of `shm` after its descriptor is closed: the `MemoryLock`, if any. -/
def afterClose (shm : SharedMemory) (error : Option SharedMemoryCreationError) : Pc :=
  if shm.memoryLock.isSome then .unlocking shm error else afterDrop error

/-- One OS call of the stage `pc`, coming out as `answer`, and the stage after it. -/
def step (os : Os) : Pc → Answer → Option (Pc × Os)
  | .creating b .createExclusive, answer =>
    (os.shmOpen b.name true answer).map fun
      | .ok (fd, os') => (.mapping b fd true, os')
      | .error errno => (.returned (.error (shmCreateError errno)), os)
  | .creating b .purgeAndCreate, answer =>
    (os.shmUnlink b.name answer).map fun
      | .ok os' => (.shmCreating b, os')
      | .error errno =>
        match unlinkError .quietWhenNotExisting errno with
        | none => (.shmCreating b, os)
        | some error => (.returned (.error (.sharedMemoryRemoveError error)), os)
  | .creating b .openOrCreate, answer =>
    (os.shmOpen b.name false answer).map fun
      | .ok (fd, os') => (.mapping { b with hasOwnership := false } fd false, os')
      | .error errno =>
        match shmOpenError errno with
        | .doesNotExist => (.shmCreating b, os)
        | error => (.returned (.error error), os)
  | .shmCreating b, answer =>
    (os.shmOpen b.name true answer).map fun
      | .ok (fd, os') => (.mapping b fd true, os')
      | .error errno => (.returned (.error (shmCreateError errno)), os)
  | .mapping b fd created, answer =>
    (os.mmap fd b.size answer).map fun
      | .ok (address, os') =>
        if b.baseAddressMismatch address then
          (.closingFd fd .unableToMapAtEnforcedBaseAddress, os')
        else if created then (.truncating b (b.handle fd address), os')
        else (.statingOpened b (b.handle fd address), os')
      | .error errno => (.closingFd fd (mmapError errno), os)
  | .statingOpened b shm, answer =>
    (os.fstat shm.fileDescriptor answer).map fun
      | .ok size =>
        if size ≠ b.size then (.unmapping shm (some .sizeDoesNotFit), os)
        else (.returned (.ok shm), os)
      | .error errno => (.unmapping shm (some (.fileStatError errno)), os)
  | .truncating b shm, answer =>
    (os.ftruncate shm.fileDescriptor b.size answer).map fun
      | .ok os' => (.statingCreated b shm, os')
      | .error errno => (.unmapping shm (some (.fileTruncateError errno)), os)
  | .statingCreated b shm, answer =>
    (os.fstat shm.fileDescriptor answer).map fun
      | .ok size =>
        if size ≠ b.size then (.unmapping shm (some .sizeDoesNotFit), os)
        else (afterSizeCheck b shm, os)
      | .error errno => (.unmapping shm (some (.fileStatError errno)), os)
  | .locking b shm, answer =>
    (os.mlock shm.baseAddress shm.size answer).map fun
      | .ok os' => (afterLock b { shm with memoryLock := some (shm.baseAddress, shm.size) }, os')
      | .error errno => (.unmapping shm (some (.memoryLockCreationError errno)), os)
  | .zeroing b shm, answer =>
    (os.memset shm.baseAddress b.size answer).map fun
      | (false, os') => (.returned (.ok shm), os')
      | (true, os') => (.unmapping shm (some .insufficientMemory), os')
  | .opening b, answer =>
    (os.shmOpen b.name false answer).map fun
      | .ok (fd, os') => (.statingOpen b fd, os')
      | .error errno => (.returned (.error (shmOpenError errno)), os)
  | .statingOpen b fd, answer =>
    (os.fstat fd answer).map fun
      | .ok size => (.mappingOpen { b with size := size } fd, os)
      | .error errno => (.closingFd fd (.fileStatError errno), os)
  | .mappingOpen b fd, answer =>
    (os.mmap fd b.size answer).map fun
      | .ok (address, os') =>
        if b.baseAddressMismatch address then
          (.closingFd fd .unableToMapAtEnforcedBaseAddress, os')
        else (.returned (.ok { b.handle fd address with hasOwnership := false }), os')
      | .error errno => (.closingFd fd (mmapError errno), os)
  | .closingFd fd error, .succeed => some (.returned (.error error), os.close fd)
  | .unmapping shm error, .succeed =>
    some (afterUnmap shm error, if shm.baseAddress = 0 then os else os.munmap shm.baseAddress)
  | .unlinking shm error, answer =>
    (os.shmUnlink shm.name answer).map fun
      | .ok os' => (.closingHandle shm error, os')
      | .error _ => (.closingHandle shm error, os)
  | .closingHandle shm error, .succeed => some (afterClose shm error, os.close shm.fileDescriptor)
  | .unlocking shm error, answer =>
    shm.memoryLock.bind fun (address, length) =>
      (os.munlock address length answer).map fun
        | .ok os' => (afterDrop error, os')
        | .error _ => (afterDrop error, os)
  | .removing name, answer =>
    (os.shmUnlink name answer).map fun
      | .ok os' => (.removeReturned (.ok ()), os')
      | .error errno =>
        match unlinkError .printErrorWhenNotExisting errno with
        | none => (.removeReturned (.ok ()), os)
        | some error => (.removeReturned (.error error), os)
  | _, _ => none

/-- The stages one call goes through while no other process runs. -/
inductive Run : Pc → Os → Pc → Os → Prop
  | refl (pc : Pc) (os : Os) : Run pc os pc os
  | step {pc pc' pc'' : Pc} {os os' os'' : Os} (answer : Answer) :
      step os pc answer = some (pc', os') → Run pc' os' pc'' os'' → Run pc os pc'' os''

end Pc

def SharedMemoryCreationBuilder.create (b : SharedMemoryCreationBuilder) : Pc :=
  match b.config.creationMode with
  | some mode => .creating b.config mode
  | none => .panicked

/-- `open_existing` and `try_open_existing`, which differ in what they log. -/
def SharedMemoryBuilder.openExisting (b : SharedMemoryBuilder) : Pc :=
  .opening b

end Elkodon
