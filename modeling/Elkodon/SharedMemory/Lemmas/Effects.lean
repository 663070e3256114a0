import Elkodon.SharedMemory.Lemmas.Footprint

/-!
What one step of any stage does to the descriptors, the address space and the lengths of the
segments, exactly: a stage never lets go of a descriptor, mapping or lock without releasing it.
-/

namespace Elkodon

structure Mapped where
  fd : Nat
  address : UInt64
  size : Nat
  deriving DecidableEq

def SharedMemory.mapped (shm : SharedMemory) : Mapped :=
  ⟨shm.fileDescriptor, shm.baseAddress, shm.size⟩

/-- What a place knows of the length of the segment on its descriptor. -/
inductive SizeView where
  /-- It created the segment, empty, and has not truncated it yet. -/
  | creating (fd : Nat)
  | checked (fd size : Nat)
  deriving DecidableEq

def SizeView.fd : SizeView → Nat
  | .creating fd | .checked fd _ => fd

namespace Pc

def fd? (pc : Pc) : Option Nat :=
  pc.holding?.map Holding.fd

/-- The mapping a stage holds, from `mmap` until the drop's `munmap`. -/
def mapped? : Pc → Option Mapped
  | .statingOpened _ shm | .truncating _ shm | .statingCreated _ shm | .locking _ shm
  | .zeroing _ shm | .unmapping shm _ | .returned (.ok shm) => some shm.mapped
  | _ => none

/--
What a stage knows of its segment's length: a creator from `shm_create` until `ftruncate`, and a
handle from the size check of `create` or `open` on.
-/
def sizeView? : Pc → Option SizeView
  | .mapping _ fd true => some (.creating fd)
  | .truncating _ shm => some (.creating shm.fileDescriptor)
  | .mappingOpen b fd => if 0 < b.size then some (.checked fd b.size) else none
  | .locking _ shm | .zeroing _ shm | .returned (.ok shm) => some (.checked shm.fileDescriptor shm.size)
  | _ => none

/-- The memory lock a stage holds, from `mlock` until the drop's `munmap` unlocks its range. -/
def lock? : Pc → Option (UInt64 × Nat)
  | .statingOpened _ shm | .truncating _ shm | .statingCreated _ shm | .locking _ shm | .zeroing _ shm
  | .unmapping shm _ | .returned (.ok shm) => shm.memoryLock
  | _ => none

/-- The `MemoryLock` a drop has still to drop after its `munmap`. -/
def unlock? : Pc → Option (UInt64 × Nat)
  | .unlinking shm _ | .closingHandle shm _ | .unlocking shm _ => shm.memoryLock
  | _ => none

/--
What each stage knows of the handle it builds: its size is the configured one and not zero, and
it holds no memory lock before `mlock`.
-/
def WellBuilt : Pc → Prop
  | .truncating b shm | .statingCreated b shm => shm.size = b.size ∧ 0 < b.size ∧ shm.memoryLock = none
  | .statingOpened b shm => shm.size = b.size ∧ 0 < b.size
  | .locking _ shm => 0 < shm.size ∧ shm.memoryLock = none
  | .zeroing _ shm | .returned (.ok shm) => 0 < shm.size
  | _ => True

theorem fd?_of_mapped? {pc : Pc} {m : Mapped} (h : pc.mapped? = some m) : pc.fd? = some m.fd := by
  unfold mapped? at h
  split at h <;> cases h <;> rfl

theorem fd?_of_sizeView? {pc : Pc} {w : SizeView} (h : pc.sizeView? = some w) : pc.fd? = some w.fd := by
  unfold sizeView? at h
  split at h <;> (try split at h) <;> cases h <;> rfl

theorem afterLock_views (b : SharedMemoryBuilder) (shm : SharedMemory)
    : (afterLock b shm).mapped? = some shm.mapped ∧
      (afterLock b shm).sizeView? = some (.checked shm.fileDescriptor shm.size) ∧
      (afterLock b shm).lock? = shm.memoryLock ∧ (afterLock b shm).unlock? = none ∧
      (0 < shm.size → (afterLock b shm).WellBuilt) := by
  unfold afterLock; split <;> exact ⟨rfl, rfl, rfl, rfl, id⟩

theorem afterSizeCheck_views (b : SharedMemoryBuilder) (shm : SharedMemory)
    : (afterSizeCheck b shm).mapped? = some shm.mapped ∧
      (afterSizeCheck b shm).sizeView? = some (.checked shm.fileDescriptor shm.size) ∧
      (afterSizeCheck b shm).lock? = shm.memoryLock ∧ (afterSizeCheck b shm).unlock? = none ∧
      (0 < shm.size → shm.memoryLock = none → (afterSizeCheck b shm).WellBuilt) := by
  unfold afterSizeCheck; split
  . exact ⟨rfl, rfl, rfl, rfl, fun hpos hlock => ⟨hpos, hlock⟩⟩
  . have hviews := afterLock_views b shm
    exact ⟨hviews.1, hviews.2.1, hviews.2.2.1, hviews.2.2.2.1, fun hpos _ => hviews.2.2.2.2 hpos⟩

theorem afterUnmap_forgets (shm : SharedMemory) (error : Option SharedMemoryCreationError)
    : (afterUnmap shm error).mapped? = none ∧ (afterUnmap shm error).sizeView? = none ∧
      (afterUnmap shm error).lock? = none ∧ (afterUnmap shm error).unlock? = shm.memoryLock ∧
      (afterUnmap shm error).WellBuilt := by
  unfold afterUnmap; split <;> exact ⟨rfl, rfl, rfl, rfl, trivial⟩

theorem afterDrop_forgets (error : Option SharedMemoryCreationError)
    : (afterDrop error).mapped? = none ∧ (afterDrop error).sizeView? = none ∧ (afterDrop error).lock? = none ∧
      (afterDrop error).unlock? = none ∧ (afterDrop error).WellBuilt := by
  cases error <;> exact ⟨rfl, rfl, rfl, rfl, trivial⟩

theorem afterClose_forgets (shm : SharedMemory) (error : Option SharedMemoryCreationError)
    : (afterClose shm error).mapped? = none ∧ (afterClose shm error).sizeView? = none ∧
      (afterClose shm error).lock? = none ∧ (afterClose shm error).unlock? = shm.memoryLock ∧
      (afterClose shm error).WellBuilt := by
  unfold afterClose; split
  . exact ⟨rfl, rfl, rfl, rfl, trivial⟩
  . rename_i hlock
    obtain ⟨hm, hs, hl, hu, hb⟩ := afterDrop_forgets error
    exact ⟨hm, hs, hl, hu.trans (Option.not_isSome_iff_eq_none.mp hlock).symm, hb⟩

/-- What one step of a stage does to the descriptors. -/
inductive FdFootprint (os : Os) (pc : Pc) (os' : Os) (pc' : Pc) : Prop
  | openFd (segment : Nat) : pc.fd? = none → pc'.fd? = some os.nextFd →
      os'.fds = Function.update os.fds os.nextFd (some segment) → os'.nextFd = os.nextFd + 1 →
      FdFootprint os pc os' pc'
  | close (fd : Nat) : pc.fd? = some fd → pc'.fd? = none → os'.fds = Function.update os.fds fd none →
      os'.nextFd = os.nextFd → FdFootprint os pc os' pc'
  | keep : pc'.fd? = pc.fd? → os'.fds = os.fds → os'.nextFd = os.nextFd → FdFootprint os pc os' pc'

/-- What one step of a stage does to the address space. -/
inductive SpaceFootprint (os : Os) (pc : Pc) (os' : Os) (pc' : Pc) : Prop
  /--
  `mmap` of the segment on the stage's descriptor at a free non-null address; the stage after it
  holds the mapping, or leaves it behind (`UnableToMapAtEnforcedBaseAddress`).
  -/
  | mmap {fd segment : Nat} (address : UInt64) (size : Nat) :
      pc.mapped? = none → pc.lock? = none → pc.fd? = some fd → os.fds fd = some segment → address ≠ 0 →
      os.mappings address = none → os'.toSpace = os.toSpace.mapAt address segment size → os'.fds = os.fds →
      (pc'.mapped? = none ∨ pc'.mapped? = some ⟨fd, address, size⟩) → pc'.lock? = none → pc'.unlock? = none →
      SpaceFootprint os pc os' pc'
  | lock (m : Mapped) (length : Nat) : pc.mapped? = some m → pc'.mapped? = some m → pc.lock? = none →
      pc'.lock? = some (m.address, length) → pc'.unlock? = none → os.covers m.address length = true →
      os'.mappings = os.mappings → os'.locks = Function.update os.locks m.address (some length) →
      SpaceFootprint os pc os' pc'
  /-- The drop's `munmap` of the mapping the stage holds, with the lock on it; nothing at a null address. -/
  | unmap (m : Mapped) : pc.mapped? = some m → pc'.mapped? = none → pc'.lock? = none →
      pc'.unlock? = pc.lock? → (m.address = 0 ∧ os'.toSpace = os.toSpace ∨ os'.toSpace = os.toSpace.unmap m.address) →
      SpaceFootprint os pc os' pc'
  | unlock (l : UInt64 × Nat) : pc.unlock? = some l → pc.mapped? = none → pc'.mapped? = none →
      pc.lock? = none → pc'.lock? = none → pc'.unlock? = none →
      (os'.toSpace = os.toSpace ∨ os.covers l.1 l.2 = true ∧ os'.toSpace = os.toSpace.unlock l.1) →
      SpaceFootprint os pc os' pc'
  | keep : pc'.mapped? = pc.mapped? → pc'.lock? = pc.lock? → pc'.unlock? = pc.unlock? →
      os'.toSpace = os.toSpace → SpaceFootprint os pc os' pc'

/-- What one step of a stage does to the lengths of the segments. -/
inductive SizeFootprint (os : Os) (pc : Pc) (os' : Os) (pc' : Pc) : Prop
  | create (name : FileName) : pc.sizeView? = none → pc'.sizeView? = some (.creating os.nextFd) →
      os' = os.createSegment name → SizeFootprint os pc os' pc'
  | truncate {fd segment : Nat} (length : Nat) : pc.sizeView? = some (.creating fd) → pc'.sizeView? = none →
      os.fds fd = some segment →
      os' = { os with segments := Function.update os.segments segment (resize (os.segments segment) length) } →
      SizeFootprint os pc os' pc'
  | check {fd n : Nat} : pc.sizeView? = none → pc'.sizeView? = some (.checked fd n) → 0 < n →
      (∀ segment, os.fds fd = some segment → (os.segments segment).length = n) → os' = os →
      SizeFootprint os pc os' pc'
  | zero (segment length : Nat) : (pc'.sizeView? = pc.sizeView? ∨ pc'.sizeView? = none) →
      os' = { os with segments := Function.update os.segments segment (zeroPrefix (os.segments segment) length) } →
      SizeFootprint os pc os' pc'
  | keep : (pc'.sizeView? = pc.sizeView? ∨ pc'.sizeView? = none) → os'.segments = os.segments →
      os'.nextSegment = os.nextSegment → SizeFootprint os pc os' pc'

/-- Everything one step of a stage does, and what the stage after it knows of its handle. -/
structure Effects (os : Os) (pc : Pc) (os' : Os) (pc' : Pc) : Prop where
  fds : FdFootprint os pc os' pc'
  space : SpaceFootprint os pc os' pc'
  sizes : SizeFootprint os pc os' pc'
  wellBuilt : pc'.WellBuilt

variable {os os' : Os} {pc pc' : Pc} {answer : Answer}

theorem FdFootprint.keep_holding (h : pc'.holding? = pc.holding?) (hfds : os'.fds = os.fds)
    (hnext : os'.nextFd = os.nextFd) : FdFootprint os pc os' pc' :=
  .keep (congrArg (Option.map Holding.fd) h) hfds hnext

theorem Effects.quiet (hos : { os' with names := os.names } = os) (hf : pc'.fd? = pc.fd?)
    (hm : pc'.mapped? = pc.mapped?) (hs : pc'.sizeView? = pc.sizeView? ∨ pc'.sizeView? = none)
    (hl : pc'.lock? = pc.lock?) (hu : pc'.unlock? = pc.unlock?) (hbuilt : pc'.WellBuilt)
    : Effects os pc os' pc' :=
  ⟨.keep hf (congrArg (·.fds) hos) (congrArg (·.nextFd) hos), .keep hm hl hu (congrArg (·.toSpace) hos),
    .keep hs (congrArg (·.segments) hos) (congrArg (·.nextSegment) hos), hbuilt⟩

theorem step_effects (hpc : pc.WellBuilt) (h : step os pc answer = some (pc', os'))
    : Effects os pc os' pc' := by
  cases pc with
  | creating b mode =>
    cases mode with
    | createExclusive =>
      rcases step_creating_createExclusive h with ⟨error, rfl, rfl⟩ | ⟨-, rfl, rfl⟩
      . exact .quiet rfl rfl rfl (.inl rfl) rfl rfl trivial
      . exact ⟨.openFd os.nextSegment rfl rfl rfl rfl, .keep rfl rfl rfl rfl, .create b.name rfl rfl rfl, trivial⟩
    | purgeAndCreate =>
      rcases step_creating_purgeAndCreate h with ⟨error, rfl, rfl⟩ | ⟨rfl, rfl | rfl⟩ <;>
        exact .quiet rfl rfl rfl (.inl rfl) rfl rfl trivial
    | openOrCreate =>
      rcases step_creating_openOrCreate h with ⟨error, rfl, rfl⟩ | ⟨rfl, rfl⟩ | ⟨segment, -, rfl, rfl⟩
      . exact .quiet rfl rfl rfl (.inl rfl) rfl rfl trivial
      . exact .quiet rfl rfl rfl (.inl rfl) rfl rfl trivial
      . exact ⟨.openFd segment rfl rfl rfl rfl, .keep rfl rfl rfl rfl, .keep (.inl rfl) rfl rfl, trivial⟩
  | shmCreating b =>
    rcases step_shmCreating h with ⟨error, rfl, rfl⟩ | ⟨-, rfl, rfl⟩
    . exact .quiet rfl rfl rfl (.inl rfl) rfl rfl trivial
    . exact ⟨.openFd os.nextSegment rfl rfl rfl rfl, .keep rfl rfl rfl rfl, .create b.name rfl rfl rfl, trivial⟩
  | mapping b fd created =>
    rcases step_mapping h with ⟨errno, rfl, rfl⟩ |
      ⟨address, segment, hfd, hsize, hzero, hfree, rfl, ⟨-, rfl⟩ | ⟨-, rfl⟩⟩
    . exact .quiet rfl rfl rfl (.inr rfl) rfl rfl trivial
    . exact ⟨.keep rfl rfl rfl, .mmap address b.size rfl rfl rfl hfd hzero hfree rfl rfl (.inl rfl) rfl rfl,
        .keep (.inr rfl) rfl rfl, trivial⟩
    . cases created <;> refine ⟨.keep rfl rfl rfl,
        .mmap address b.size rfl rfl rfl hfd hzero hfree rfl rfl (.inr rfl) rfl rfl, .keep (.inl rfl) rfl rfl, ?_⟩
      exacts [⟨rfl, hsize⟩, ⟨rfl, hsize, rfl⟩]
  | mappingOpen b fd =>
    rcases step_mappingOpen h with ⟨errno, rfl, rfl⟩ |
      ⟨address, segment, hfd, hsize, hzero, hfree, rfl, ⟨-, rfl⟩ | ⟨-, rfl⟩⟩
    . exact .quiet rfl rfl rfl (.inr rfl) rfl rfl trivial
    . exact ⟨.keep rfl rfl rfl, .mmap address b.size rfl rfl rfl hfd hzero hfree rfl rfl (.inl rfl) rfl rfl,
        .keep (.inr rfl) rfl rfl, trivial⟩
    . exact ⟨.keep rfl rfl rfl, .mmap address b.size rfl rfl rfl hfd hzero hfree rfl rfl (.inr rfl) rfl rfl,
        .keep (.inl (by simp [sizeView?, hsize, SharedMemoryBuilder.handle])) rfl rfl, hsize⟩
  | statingOpened b shm =>
    obtain ⟨rfl, ⟨error, rfl⟩ | ⟨segment, hfd, hlen, rfl⟩⟩ := step_statingOpened h
    . exact .quiet rfl rfl rfl (.inl rfl) rfl rfl trivial
    . have hpos : 0 < shm.size := hpc.2.trans_eq hpc.1.symm
      refine ⟨.keep rfl rfl rfl, .keep rfl rfl rfl rfl, .check rfl rfl hpos (fun _ h => ?_) rfl, hpos⟩
      rw [hfd] at h
      cases h
      exact hlen.trans hpc.1.symm
  | truncating b shm =>
    rcases step_truncating h with ⟨error, rfl, rfl⟩ | ⟨segment, hfd, rfl, rfl⟩
    . exact .quiet rfl rfl rfl (.inr rfl) rfl rfl trivial
    . exact ⟨.keep rfl rfl rfl, .keep rfl rfl rfl rfl, .truncate b.size rfl rfl hfd rfl, hpc⟩
  | statingCreated b shm =>
    obtain ⟨rfl, ⟨error, rfl⟩ | ⟨segment, hfd, hlen, rfl⟩⟩ := step_statingCreated h
    . exact .quiet rfl rfl rfl (.inl rfl) rfl rfl trivial
    . have hpos : 0 < shm.size := hpc.2.1.trans_eq hpc.1.symm
      obtain ⟨hm, hs, hl, hu, hb⟩ := afterSizeCheck_views b shm
      refine ⟨.keep_holding (holding?_afterSizeCheck b shm).1 rfl rfl, .keep hm hl hu rfl,
        .check rfl hs hpos (fun _ h => ?_) rfl, hb hpos hpc.2.2⟩
      rw [hfd] at h
      cases h
      exact hlen.trans hpc.1.symm
  | locking b shm =>
    rcases step_locking h with ⟨error, rfl, rfl⟩ | ⟨hcovers, rfl, rfl⟩
    . exact .quiet rfl rfl rfl (.inr rfl) rfl rfl trivial
    . obtain ⟨hm, hs, hl, hu, hb⟩ := afterLock_views b { shm with memoryLock := some (shm.baseAddress, shm.size) }
      exact ⟨.keep_holding (holding?_afterLock b _).1 rfl rfl, .lock shm.mapped shm.size rfl hm hpc.2 hl hu hcovers
        rfl rfl, .keep (.inl hs) rfl rfl, hb hpc.1⟩
  | zeroing b shm =>
    obtain ⟨segment, mapped, zeroed, -, rfl, rfl | ⟨rfl, -⟩⟩ := step_zeroing h
    . exact ⟨.keep rfl rfl rfl, .keep rfl rfl rfl rfl, .zero segment zeroed (.inr rfl) rfl, trivial⟩
    . exact ⟨.keep rfl rfl rfl, .keep rfl rfl rfl rfl, .zero segment _ (.inl rfl) rfl, hpc⟩
  | opening b =>
    rcases step_opening h with ⟨error, rfl, rfl⟩ | ⟨segment, -, rfl, rfl⟩
    . exact .quiet rfl rfl rfl (.inl rfl) rfl rfl trivial
    . exact ⟨.openFd segment rfl rfl rfl rfl, .keep rfl rfl rfl rfl, .keep (.inl rfl) rfl rfl, trivial⟩
  | statingOpen b fd =>
    obtain ⟨rfl, ⟨errno, rfl⟩ | ⟨segment, hfd, rfl⟩⟩ := step_statingOpen h
    . exact .quiet rfl rfl rfl (.inl rfl) rfl rfl trivial
    . by_cases hlen : 0 < (os'.segments segment).length
      . refine ⟨.keep rfl rfl rfl, .keep rfl rfl rfl rfl,
          .check rfl (by simp [sizeView?, hlen] : sizeView? _ = some (.checked fd _)) hlen (fun _ h => ?_) rfl,
          trivial⟩
        rw [hfd] at h
        cases h
        rfl
      . exact .quiet rfl rfl rfl (.inr (by simp [sizeView?, hlen])) rfl rfl trivial
  | closingFd fd error =>
    obtain ⟨rfl, rfl⟩ := step_closingFd h
    exact ⟨.close fd rfl rfl rfl rfl, .keep rfl rfl rfl rfl, .keep (.inl rfl) rfl rfl, trivial⟩
  | unmapping shm error =>
    obtain ⟨rfl, rfl⟩ := step_unmapping h
    obtain ⟨hm, hs, hl, hu, hb⟩ := afterUnmap_forgets shm error
    have hkernel : (if shm.baseAddress = 0 then os else os.munmap shm.baseAddress).toKernel = os.toKernel := by
      split <;> rfl
    refine ⟨.keep (by unfold afterUnmap; split <;> rfl) (congrArg (·.fds) hkernel) (congrArg (·.nextFd) hkernel),
      .unmap shm.mapped rfl hm hl hu ?_, .keep (.inr hs) (congrArg (·.segments) hkernel)
        (congrArg (·.nextSegment) hkernel), hb⟩
    split
    . exact .inl ⟨‹_›, rfl⟩
    . exact .inr rfl
  | unlinking shm error =>
    obtain ⟨rfl, rfl | rfl⟩ := step_unlinking h <;> exact .quiet rfl rfl rfl (.inl rfl) rfl rfl trivial
  | closingHandle shm error =>
    obtain ⟨rfl, rfl⟩ := step_closingHandle h
    obtain ⟨hm, hs, hl, hu, hb⟩ := afterClose_forgets shm error
    exact ⟨.close shm.fileDescriptor rfl (congrArg (Option.map Holding.fd) (holding?_afterClose shm error).1)
      rfl rfl, .keep hm hl hu rfl, .keep (.inr hs) rfl rfl, hb⟩
  | unlocking shm error =>
    obtain ⟨address, length, hlock, rfl, hos⟩ := step_unlocking h
    obtain ⟨hm, hs, hl, hu, hb⟩ := afterDrop_forgets error
    have hkernel : os'.toKernel = os.toKernel := by rcases hos with ⟨-, rfl⟩ | ⟨-, rfl⟩ <;> rfl
    exact ⟨.keep_holding (holding?_afterDrop error).1 (congrArg (·.fds) hkernel) (congrArg (·.nextFd) hkernel),
      .unlock (address, length) hlock rfl hm rfl hl hu
        (hos.imp (fun h => congrArg (·.toSpace) h.2) fun h => ⟨h.1, congrArg (·.toSpace) h.2⟩),
      .keep (.inr hs) (congrArg (·.segments) hkernel) (congrArg (·.nextSegment) hkernel), hb⟩
  | removing name =>
    obtain ⟨⟨result, rfl⟩, rfl | rfl⟩ := step_removing h <;> exact .quiet rfl rfl rfl (.inl rfl) rfl rfl trivial
  | idle | returned _ | removeReturned _ | panicked => cases answer <;> simp [step] at h

theorem step_wellFormed (hwf : os.WellFormed) (h : step os pc answer = some (pc', os')) : os'.WellFormed := by
  cases hpurging : pc.purging
  . cases (step_footprint hpurging h).2 with
    | create => exact hwf.createSegment _
    | openFd hname => exact hwf.openFd (hwf.names_lt _ _ hname)
    | close => exact hwf.close _
    | unlink => exact hwf.unbind _
    | keep ha => exact hwf.agrees ha
  . cases pc with
    | creating b mode =>
      cases mode <;> simp only [purging, reduceCtorEq] at hpurging
      rcases step_creating_purgeAndCreate h with ⟨error, -, rfl⟩ | ⟨-, rfl | rfl⟩
      . exact hwf
      . exact hwf
      . exact hwf.unbind _
    | removing name =>
      obtain ⟨-, rfl | rfl⟩ := step_removing h
      . exact hwf
      . exact hwf.unbind _
    | _ => simp [purging] at hpurging

end Pc

theorem SharedMemoryCreationBuilder.create_holds_nothing (b : SharedMemoryCreationBuilder)
    : b.create.fd? = none ∧ b.create.mapped? = none ∧ b.create.sizeView? = none ∧ b.create.lock? = none ∧
      b.create.unlock? = none ∧ b.create.WellBuilt := by
  unfold create; split <;> exact ⟨rfl, rfl, rfl, rfl, rfl, trivial⟩

end Elkodon
