import Elkodon.SharedMemory.Lemmas.Step

/-!
What a stage holds of the kernel, and what one step of it can do to the names and descriptors.
-/

namespace Elkodon

/--
What a stage or a variable holds: a descriptor, the name of the segment it owns (or is about to
unlink), and whether its drop has passed `shm_unlink`.
-/
structure Holding where
  fd : Nat
  owner : Option FileName
  unlinked : Bool
  deriving DecidableEq

/-- `h'` holds the descriptor of `h`, and owns a name still to unlink only where `h` did. -/
def Holding.Within (h' h : Holding) : Prop :=
  h'.fd = h.fd ∧
    ∀ name, h'.owner = some name → h.owner = some name ∧ (h'.unlinked = false → h.unlinked = false)

theorem Holding.Within.refl (h : Holding) : h.Within h := ⟨rfl, fun _ hn => ⟨hn, id⟩⟩

theorem Holding.within_of_owner_none {h' h : Holding} (hfd : h'.fd = h.fd) (howner : h'.owner = none)
    : h'.Within h :=
  ⟨hfd, fun _ hn => by simp [howner] at hn⟩

def SharedMemory.holding (shm : SharedMemory) : Holding where
  fd := shm.fileDescriptor
  owner := if shm.hasOwnership then some shm.name else none
  unlinked := false

/-- `k'` has the names, descriptors and counters of `k`: only the bytes of segments differ. -/
structure Kernel.Agrees (k' k : Kernel) : Prop where
  names : k'.names = k.names
  fds : k'.fds = k.fds
  nextSegment : k'.nextSegment = k.nextSegment
  nextFd : k'.nextFd = k.nextFd

theorem Kernel.Agrees.rfl {k : Kernel} : k.Agrees k := ⟨Eq.refl _, Eq.refl _, Eq.refl _, Eq.refl _⟩

theorem Kernel.WellFormed.agrees {k k' : Kernel} (hwf : k.WellFormed) (h : k'.Agrees k) : k'.WellFormed :=
  hwf.congr h.names h.fds h.nextSegment h.nextFd

namespace Pc

def handle? : Pc → Option SharedMemory
  | .statingOpened _ shm | .truncating _ shm | .statingCreated _ shm | .locking _ shm
  | .zeroing _ shm | .unmapping shm _ | .unlinking shm _ | .closingHandle shm _
  | .returned (.ok shm) => some shm
  | _ => none

/--
What a stage holds: the descriptor `create` or `open` took, alone or in the handle being built or
dropped. `mapping` owns what the handle it builds will own, and `unlinking` the name it unlinks.
-/
def holding? : Pc → Option Holding
  | .mapping b fd _ => some ⟨fd, if b.hasOwnership then some b.name else none, false⟩
  | .statingOpen _ fd | .mappingOpen _ fd | .closingFd fd _ => some ⟨fd, none, false⟩
  | .statingOpened _ shm | .truncating _ shm | .statingCreated _ shm | .locking _ shm
  | .zeroing _ shm | .unmapping shm _ | .returned (.ok shm) => some shm.holding
  | .unlinking shm _ => some ⟨shm.fileDescriptor, some shm.name, false⟩
  | .closingHandle shm _ => some { shm.holding with unlinked := true }
  | _ => none

/-- The stages of PurgeAndCreate's unlink and of `SharedMemory::remove`. -/
def purging : Pc → Bool
  | .creating _ .purgeAndCreate | .removing _ => true
  | _ => false

theorem holding?_of_handle? {pc : Pc} {shm : SharedMemory} (h : pc.handle? = some shm)
    (hown : shm.hasOwnership = true)
    : ∃ held, pc.holding? = some held ∧ held.fd = shm.fileDescriptor ∧ held.owner = some shm.name := by
  have howner : shm.holding.owner = some shm.name := by simp [SharedMemory.holding, hown]
  cases pc with
  | returned result =>
    cases result with
    | error => cases h
    | ok => cases h; exact ⟨_, rfl, rfl, howner⟩
  | unlinking => cases h; exact ⟨_, rfl, rfl, rfl⟩
  | statingOpened | truncating | statingCreated | locking | zeroing | unmapping | closingHandle =>
    cases h; exact ⟨_, rfl, rfl, howner⟩
  | _ => cases h

theorem holding?_afterLock (b : SharedMemoryBuilder) (shm : SharedMemory)
    : (afterLock b shm).holding? = some shm.holding ∧ (afterLock b shm).purging = false := by
  unfold afterLock; split <;> exact ⟨rfl, rfl⟩

theorem holding?_afterSizeCheck (b : SharedMemoryBuilder) (shm : SharedMemory)
    : (afterSizeCheck b shm).holding? = some shm.holding ∧ (afterSizeCheck b shm).purging = false := by
  unfold afterSizeCheck; split
  . exact ⟨rfl, rfl⟩
  . exact holding?_afterLock b shm

theorem holding?_afterDrop (error : Option SharedMemoryCreationError)
    : (afterDrop error).holding? = none ∧ (afterDrop error).purging = false := by
  cases error <;> exact ⟨rfl, rfl⟩

theorem holding?_afterClose (shm : SharedMemory) (error : Option SharedMemoryCreationError)
    : (afterClose shm error).holding? = none ∧ (afterClose shm error).purging = false := by
  unfold afterClose; split
  . exact ⟨rfl, rfl⟩
  . exact holding?_afterDrop error

/-- What one step of a stage does to the names, the descriptors and what the stage holds. -/
inductive Footprint (os : Os) (pc : Pc) : Os → Pc → Prop
  | create {pc' : Pc} {name : FileName} (owns : Bool) :
      os.names name = none → pc.holding? = none →
      pc'.holding? = some ⟨os.nextFd, if owns then some name else none, false⟩ →
      Footprint os pc (os.createSegment name) pc'
  | openFd {pc' : Pc} {name : FileName} {segment : Nat} :
      os.names name = some segment → pc.holding? = none → pc'.holding? = some ⟨os.nextFd, none, false⟩ →
      Footprint os pc (os.openFd segment) pc'
  | close {pc' : Pc} (held : Holding) :
      pc.holding? = some held → pc'.holding? = none → Footprint os pc (os.close held.fd) pc'
  | unlink {pc' : Pc} (held held' : Holding) {name : FileName} :
      pc.holding? = some held → held.owner = some name → held.unlinked = false →
      pc'.holding? = some held' → held'.Within held → held'.unlinked = true →
      Footprint os pc (os.unbind name) pc'
  | keep {pc' : Pc} {os' : Os} :
      os'.toKernel.Agrees os.toKernel → (∀ held', pc'.holding? = some held' → ∃ held, pc.holding? = some held ∧ held'.Within held) →
      Footprint os pc os' pc'

variable {os os' : Os} {pc pc' : Pc} {answer : Answer}

theorem Footprint.keep_eq (ha : os'.toKernel.Agrees os.toKernel) (h : pc'.holding? = pc.holding?) : Footprint os pc os' pc' :=
  .keep ha fun held' h' => ⟨held', h ▸ h', .refl _⟩

theorem Footprint.keep_none (ha : os'.toKernel.Agrees os.toKernel) (h : pc'.holding? = none) : Footprint os pc os' pc' :=
  .keep ha fun _ h' => by simp [h] at h'

theorem Footprint.keep_within (ha : os'.toKernel.Agrees os.toKernel) {held held' : Holding} (hpc : pc.holding? = some held)
    (hpc' : pc'.holding? = some held') (hw : held'.Within held) : Footprint os pc os' pc' :=
  .keep ha fun _ h' => ⟨held, hpc, Option.some.inj (hpc'.symm.trans h') ▸ hw⟩

theorem step_footprint (hpurging : pc.purging = false) (h : step os pc answer = some (pc', os'))
    : pc'.purging = false ∧ Footprint os pc os' pc' := by
  cases pc with
  | creating b mode =>
    cases mode with
    | createExclusive =>
      rcases step_creating_createExclusive h with ⟨error, rfl, rfl⟩ | ⟨hname, rfl, rfl⟩
      . exact ⟨rfl, .keep_none .rfl rfl⟩
      . exact ⟨rfl, .create b.hasOwnership hname rfl rfl⟩
    | purgeAndCreate => cases hpurging
    | openOrCreate =>
      rcases step_creating_openOrCreate h with ⟨error, rfl, rfl⟩ | ⟨rfl, rfl⟩ | ⟨segment, hname, rfl, rfl⟩
      . exact ⟨rfl, .keep_none .rfl rfl⟩
      . exact ⟨rfl, .keep_none .rfl rfl⟩
      . exact ⟨rfl, .openFd hname rfl rfl⟩
  | shmCreating b =>
    rcases step_shmCreating h with ⟨error, rfl, rfl⟩ | ⟨hname, rfl, rfl⟩
    . exact ⟨rfl, .keep_none .rfl rfl⟩
    . exact ⟨rfl, .create b.hasOwnership hname rfl rfl⟩
  | mapping b fd created =>
    rcases step_mapping h with ⟨errno, rfl, rfl⟩ |
      ⟨address, segment, -, -, -, -, rfl, ⟨-, rfl⟩ | ⟨-, rfl⟩⟩
    . exact ⟨rfl, .keep_within .rfl rfl rfl (Holding.within_of_owner_none rfl rfl)⟩
    . exact ⟨rfl, .keep_within ⟨rfl, rfl, rfl, rfl⟩ rfl rfl (Holding.within_of_owner_none rfl rfl)⟩
    . cases created <;> exact ⟨rfl, .keep_eq ⟨rfl, rfl, rfl, rfl⟩ rfl⟩
  | statingOpened b shm =>
    obtain ⟨rfl, ⟨error, rfl⟩ | ⟨-, -, -, rfl⟩⟩ := step_statingOpened h <;> exact ⟨rfl, .keep_eq .rfl rfl⟩
  | truncating b shm =>
    rcases step_truncating h with ⟨error, rfl, rfl⟩ | ⟨segment, -, rfl, rfl⟩ <;>
      exact ⟨rfl, .keep_eq ⟨rfl, rfl, rfl, rfl⟩ rfl⟩
  | statingCreated b shm =>
    obtain ⟨rfl, ⟨error, rfl⟩ | ⟨-, -, -, rfl⟩⟩ := step_statingCreated h
    . exact ⟨rfl, .keep_eq .rfl rfl⟩
    . exact ⟨(holding?_afterSizeCheck b shm).2, .keep_eq .rfl (holding?_afterSizeCheck b shm).1⟩
  | locking b shm =>
    rcases step_locking h with ⟨error, rfl, rfl⟩ | ⟨-, rfl, rfl⟩
    . exact ⟨rfl, .keep_eq .rfl rfl⟩
    . exact ⟨(holding?_afterLock b _).2, .keep_eq ⟨rfl, rfl, rfl, rfl⟩ (holding?_afterLock b _).1⟩
  | zeroing b shm =>
    obtain ⟨segment, mapped, zeroed, -, rfl, rfl | ⟨rfl, -⟩⟩ := step_zeroing h <;>
      exact ⟨rfl, .keep_eq ⟨rfl, rfl, rfl, rfl⟩ rfl⟩
  | opening b =>
    rcases step_opening h with ⟨error, rfl, rfl⟩ | ⟨segment, hname, rfl, rfl⟩
    . exact ⟨rfl, .keep_none .rfl rfl⟩
    . exact ⟨rfl, .openFd hname rfl rfl⟩
  | statingOpen b fd =>
    obtain ⟨rfl, ⟨errno, rfl⟩ | ⟨segment, -, rfl⟩⟩ := step_statingOpen h <;> exact ⟨rfl, .keep_eq .rfl rfl⟩
  | mappingOpen b fd =>
    rcases step_mappingOpen h with ⟨errno, rfl, rfl⟩ |
      ⟨address, segment, -, -, -, -, rfl, ⟨-, rfl⟩ | ⟨-, rfl⟩⟩ <;>
      exact ⟨rfl, .keep_eq ⟨rfl, rfl, rfl, rfl⟩ rfl⟩
  | closingFd fd error =>
    obtain ⟨rfl, rfl⟩ := step_closingFd h
    exact ⟨rfl, .close ⟨fd, none, false⟩ rfl rfl⟩
  | unmapping shm error =>
    obtain ⟨rfl, rfl⟩ := step_unmapping h
    have ha : (if shm.baseAddress = 0 then os else os.munmap shm.baseAddress).toKernel.Agrees os.toKernel := by
      split <;> exact ⟨rfl, rfl, rfl, rfl⟩
    unfold afterUnmap
    split
    . exact ⟨rfl, .keep_eq ha (by simp only [holding?, SharedMemory.holding, ‹shm.hasOwnership = true›, ite_true])⟩
    . exact ⟨rfl, .keep_within ha rfl rfl
        (Holding.within_of_owner_none rfl (by simp [SharedMemory.holding, *]))⟩
  | unlinking shm error =>
    have hw : ({ shm.holding with unlinked := true } : Holding).Within ⟨shm.fileDescriptor, some shm.name, false⟩ := by
      refine ⟨rfl, fun name hn => ?_⟩
      simp only [SharedMemory.holding] at hn
      split at hn <;> simp_all
    obtain ⟨rfl, rfl | rfl⟩ := step_unlinking h
    . exact ⟨rfl, .keep_within .rfl rfl rfl hw⟩
    . exact ⟨rfl, .unlink _ _ rfl rfl rfl rfl hw rfl⟩
  | closingHandle shm error =>
    obtain ⟨rfl, rfl⟩ := step_closingHandle h
    exact ⟨(holding?_afterClose shm error).2,
      .close { shm.holding with unlinked := true } rfl (holding?_afterClose shm error).1⟩
  | unlocking shm error =>
    obtain ⟨address, length, -, rfl, ⟨-, rfl⟩ | ⟨-, rfl⟩⟩ := step_unlocking h <;>
      exact ⟨(holding?_afterDrop error).2, .keep_none ⟨rfl, rfl, rfl, rfl⟩ (holding?_afterDrop error).1⟩
  | removing name => cases hpurging
  | idle | returned _ | removeReturned _ | panicked => cases answer <;> simp [step] at h

end Pc

end Elkodon
