import Elkodon.SharedMemory.Impl.SharedMemory
import Elkodon.SharedMemory.Lemmas.Os

/-!
What one step of each stage can do: the stage after it and the OS after it, with the conditions
under which the OS call succeeded.
-/

namespace Elkodon

theorem SharedMemoryBuilder.baseAddressMismatch_eq_false {b : SharedMemoryBuilder} {address : UInt64}
    (h : b.baseAddressMismatch address = false) : ∀ a, b.enforceBaseAddress = some a → address = a := by
  intro a ha
  exact (by simpa [baseAddressMismatch, ha] using h : a = address).symm

namespace Pc

variable {os os' : Os} {pc' : Pc} {answer : Answer}

theorem step_shmCreate {b : SharedMemoryBuilder} {r : Except Errno (Nat × Os)}
    (h : os.shmOpen b.name true answer = some r)
    : (∃ errno, r = .error errno) ∨
      os.names b.name = none ∧ r = .ok (os.nextFd, os.createSegment b.name) := by
  rcases Os.shmOpen_eq_some h with ⟨errno, -, rfl⟩ | ⟨-, ⟨-, hname, rfl⟩ | ⟨hfalse, -⟩⟩
  . exact .inl ⟨errno, rfl⟩
  . exact .inr ⟨hname, rfl⟩
  . cases hfalse

theorem step_creating_createExclusive {b : SharedMemoryBuilder}
    (h : step os (.creating b .createExclusive) answer = some (pc', os'))
    : (∃ error, pc' = .returned (.error error) ∧ os' = os) ∨
      os.names b.name = none ∧ pc' = .mapping b os.nextFd true ∧ os' = os.createSegment b.name := by
  simp only [step, Option.map_eq_some'] at h
  obtain ⟨r, hr, hpc⟩ := h
  rcases step_shmCreate hr with ⟨errno, rfl⟩ | ⟨hname, rfl⟩
  . simp only [Prod.mk.injEq] at hpc
    exact .inl ⟨_, hpc.1.symm, hpc.2.symm⟩
  . simp only [Prod.mk.injEq] at hpc
    exact .inr ⟨hname, hpc.1.symm, hpc.2.symm⟩

theorem step_shmCreating {b : SharedMemoryBuilder}
    (h : step os (.shmCreating b) answer = some (pc', os'))
    : (∃ error, pc' = .returned (.error error) ∧ os' = os) ∨
      os.names b.name = none ∧ pc' = .mapping b os.nextFd true ∧ os' = os.createSegment b.name :=
  step_creating_createExclusive h

theorem step_creating_purgeAndCreate {b : SharedMemoryBuilder}
    (h : step os (.creating b .purgeAndCreate) answer = some (pc', os'))
    : (∃ error, pc' = .returned (.error error) ∧ os' = os) ∨
      pc' = .shmCreating b ∧ (os' = os ∨ os' = os.unbind b.name) := by
  simp only [step, Option.map_eq_some'] at h
  obtain ⟨r, hr, hpc⟩ := h
  rcases Os.shmUnlink_eq_some hr with ⟨errno, -, rfl⟩ | ⟨-, -, rfl⟩
  . simp only at hpc
    split at hpc <;> simp only [Prod.mk.injEq] at hpc
    . exact .inr ⟨hpc.1.symm, .inl hpc.2.symm⟩
    . exact .inl ⟨_, hpc.1.symm, hpc.2.symm⟩
  . simp only [Prod.mk.injEq] at hpc
    exact .inr ⟨hpc.1.symm, .inr hpc.2.symm⟩

theorem step_creating_openOrCreate {b : SharedMemoryBuilder}
    (h : step os (.creating b .openOrCreate) answer = some (pc', os'))
    : (∃ error, pc' = .returned (.error error) ∧ os' = os) ∨ pc' = .shmCreating b ∧ os' = os ∨
      ∃ segment, os.names b.name = some segment ∧
        pc' = .mapping { b with hasOwnership := false } os.nextFd false ∧ os' = os.openFd segment := by
  simp only [step, Option.map_eq_some'] at h
  obtain ⟨r, hr, hpc⟩ := h
  rcases Os.shmOpen_eq_some hr with ⟨errno, -, rfl⟩ | ⟨-, ⟨hfalse, -⟩ | ⟨-, segment, hname, rfl⟩⟩
  . simp only at hpc
    split at hpc <;> simp only [Prod.mk.injEq] at hpc
    . exact .inr (.inl ⟨hpc.1.symm, hpc.2.symm⟩)
    . exact .inl ⟨_, hpc.1.symm, hpc.2.symm⟩
  . cases hfalse
  . simp only [Prod.mk.injEq] at hpc
    exact .inr (.inr ⟨segment, hname, hpc.1.symm, hpc.2.symm⟩)

theorem step_mmap {fd length : Nat} {k : Except Errno (UInt64 × Os) → Pc × Os}
    (h : (os.mmap fd length answer).map k = some (pc', os'))
    : (∃ errno, k (.error errno) = (pc', os')) ∨
      ∃ address segment, os.fds fd = some segment ∧ 0 < length ∧ address ≠ 0 ∧
        os.mappings address = none ∧ k (.ok (address, os.mapAt address segment length)) = (pc', os') := by
  obtain ⟨r, hr, h⟩ := Option.map_eq_some'.mp h
  rcases Os.mmap_eq_some hr with ⟨errno, -, rfl⟩ | ⟨address, segment, -, hfd, hlength, hzero, -, hfree, rfl⟩
  . exact .inl ⟨errno, h⟩
  . exact .inr ⟨address, segment, hfd, hlength, hzero, hfree, h⟩

theorem step_mapping {b : SharedMemoryBuilder} {fd : Nat} {created : Bool}
    (h : step os (.mapping b fd created) answer = some (pc', os'))
    : (∃ errno, pc' = .closingFd fd (mmapError errno) ∧ os' = os) ∨
      ∃ address segment, os.fds fd = some segment ∧ 0 < b.size ∧ address ≠ 0 ∧
        os.mappings address = none ∧ os' = os.mapAt address segment b.size ∧
        (b.baseAddressMismatch address = true ∧ pc' = .closingFd fd .unableToMapAtEnforcedBaseAddress ∨
          b.baseAddressMismatch address = false ∧
            pc' = if created then .truncating b (b.handle fd address)
              else .statingOpened b (b.handle fd address)) := by
  simp only [step] at h
  rcases step_mmap h with ⟨errno, h⟩ | ⟨address, segment, hfd, hlength, hzero, hfree, h⟩
  . simp only [Prod.mk.injEq] at h
    exact .inl ⟨errno, h.1.symm, h.2.symm⟩
  . refine .inr ⟨address, segment, hfd, hlength, hzero, hfree, ?_⟩
    cases hmismatch : b.baseAddressMismatch address <;>
      simp only [hmismatch, ite_true, ite_false, Bool.false_eq_true, Prod.mk.injEq] at h
    . cases created <;> simp only [ite_true, ite_false, Bool.false_eq_true, Prod.mk.injEq] at h <;>
        exact ⟨h.2.symm, .inr ⟨rfl, h.1.symm⟩⟩
    . exact ⟨h.2.symm, .inl ⟨rfl, h.1.symm⟩⟩

theorem step_mappingOpen {b : SharedMemoryBuilder} {fd : Nat}
    (h : step os (.mappingOpen b fd) answer = some (pc', os'))
    : (∃ errno, pc' = .closingFd fd (mmapError errno) ∧ os' = os) ∨
      ∃ address segment, os.fds fd = some segment ∧ 0 < b.size ∧ address ≠ 0 ∧
        os.mappings address = none ∧ os' = os.mapAt address segment b.size ∧
        (b.baseAddressMismatch address = true ∧ pc' = .closingFd fd .unableToMapAtEnforcedBaseAddress ∨
          b.baseAddressMismatch address = false ∧
            pc' = .returned (.ok { b.handle fd address with hasOwnership := false })) := by
  simp only [step] at h
  rcases step_mmap h with ⟨errno, h⟩ | ⟨address, segment, hfd, hlength, hzero, hfree, h⟩
  . simp only [Prod.mk.injEq] at h
    exact .inl ⟨errno, h.1.symm, h.2.symm⟩
  . refine .inr ⟨address, segment, hfd, hlength, hzero, hfree, ?_⟩
    cases hmismatch : b.baseAddressMismatch address <;>
      simp only [hmismatch, ite_true, ite_false, Bool.false_eq_true, Prod.mk.injEq] at h
    . exact ⟨h.2.symm, .inr ⟨rfl, h.1.symm⟩⟩
    . exact ⟨h.2.symm, .inl ⟨rfl, h.1.symm⟩⟩

theorem step_fstat {fd size : Nat} {shm : SharedMemory} {ok : Pc}
    (h : (os.fstat fd answer).map (fun r : Except Errno Nat => match r with
      | .ok n => if n ≠ size then (Pc.unmapping shm (some .sizeDoesNotFit), os) else (ok, os)
      | .error errno => (.unmapping shm (some (.fileStatError errno)), os)) = some (pc', os'))
    : os' = os ∧ ((∃ error, pc' = .unmapping shm (some error)) ∨
        ∃ segment, os.fds fd = some segment ∧ (os.segments segment).length = size ∧ pc' = ok) := by
  obtain ⟨r, hr, h⟩ := Option.map_eq_some'.mp h
  rcases Os.fstat_eq_some hr with ⟨errno, -, rfl⟩ | ⟨segment, -, hfd, rfl⟩
  . simp only [Prod.mk.injEq] at h
    exact ⟨h.2.symm, .inl ⟨_, h.1.symm⟩⟩
  . simp only at h
    split at h <;> simp only [Prod.mk.injEq] at h
    . exact ⟨h.2.symm, .inl ⟨_, h.1.symm⟩⟩
    . exact ⟨h.2.symm, .inr ⟨segment, hfd, of_not_not ‹_›, h.1.symm⟩⟩

theorem step_statingOpened {b : SharedMemoryBuilder} {shm : SharedMemory}
    (h : step os (.statingOpened b shm) answer = some (pc', os'))
    : os' = os ∧ ((∃ error, pc' = .unmapping shm (some error)) ∨
        ∃ segment, os.fds shm.fileDescriptor = some segment ∧ (os.segments segment).length = b.size ∧
          pc' = .returned (.ok shm)) := by
  simp only [step] at h
  exact step_fstat h

theorem step_statingCreated {b : SharedMemoryBuilder} {shm : SharedMemory}
    (h : step os (.statingCreated b shm) answer = some (pc', os'))
    : os' = os ∧ ((∃ error, pc' = .unmapping shm (some error)) ∨
        ∃ segment, os.fds shm.fileDescriptor = some segment ∧ (os.segments segment).length = b.size ∧
          pc' = afterSizeCheck b shm) := by
  simp only [step] at h
  exact step_fstat h

theorem step_truncating {b : SharedMemoryBuilder} {shm : SharedMemory}
    (h : step os (.truncating b shm) answer = some (pc', os'))
    : (∃ error, pc' = .unmapping shm (some error) ∧ os' = os) ∨
      ∃ segment, os.fds shm.fileDescriptor = some segment ∧ pc' = .statingCreated b shm ∧
        os' = { os with
          segments := Function.update os.segments segment (resize (os.segments segment) b.size) } := by
  simp only [step, Option.map_eq_some'] at h
  obtain ⟨r, hr, hpc⟩ := h
  rcases Os.ftruncate_eq_some hr with ⟨errno, -, rfl⟩ | ⟨segment, -, hfd, rfl⟩
  . simp only [Prod.mk.injEq] at hpc
    exact .inl ⟨_, hpc.1.symm, hpc.2.symm⟩
  . simp only [Prod.mk.injEq] at hpc
    exact .inr ⟨segment, hfd, hpc.1.symm, hpc.2.symm⟩

theorem step_locking {b : SharedMemoryBuilder} {shm : SharedMemory}
    (h : step os (.locking b shm) answer = some (pc', os'))
    : (∃ error, pc' = .unmapping shm (some error) ∧ os' = os) ∨
      ∃ hcovers, pc' = afterLock b { shm with memoryLock := some (shm.baseAddress, shm.size) } ∧
        os' = { os with toSpace := os.toSpace.lock shm.baseAddress shm.size hcovers } := by
  simp only [step, Option.map_eq_some'] at h
  obtain ⟨r, hr, hpc⟩ := h
  rcases Os.mlock_eq_some hr with ⟨errno, -, rfl⟩ | ⟨hcovers, -, rfl⟩
  . simp only [Prod.mk.injEq] at hpc
    exact .inl ⟨_, hpc.1.symm, hpc.2.symm⟩
  . simp only [Prod.mk.injEq] at hpc
    exact .inr ⟨hcovers, hpc.1.symm, hpc.2.symm⟩

theorem step_zeroing {b : SharedMemoryBuilder} {shm : SharedMemory}
    (h : step os (.zeroing b shm) answer = some (pc', os'))
    : ∃ segment mapped zeroed, os.mappings shm.baseAddress = some (segment, mapped) ∧
        os' = { os with
          segments := Function.update os.segments segment (zeroPrefix (os.segments segment) zeroed) } ∧
        (pc' = .unmapping shm (some .insufficientMemory) ∨
          pc' = .returned (.ok shm) ∧ zeroed = b.size ∧ b.size ≤ (os.segments segment).length) := by
  simp only [step, Option.map_eq_some'] at h
  obtain ⟨⟨interrupted, os''⟩, hr, hpc⟩ := h
  obtain ⟨segment, mapped, zeroed, hmapped, hdone, hos⟩ := Os.memset_eq_some hr
  refine ⟨segment, mapped, zeroed, hmapped, ?_⟩
  cases interrupted
  . simp only [Prod.mk.injEq] at hpc hos
    exact ⟨hpc.2 ▸ hos, .inr ⟨hpc.1.symm, hdone rfl⟩⟩
  . simp only [Prod.mk.injEq] at hpc hos
    exact ⟨hpc.2 ▸ hos, .inl hpc.1.symm⟩

theorem step_opening {b : SharedMemoryBuilder}
    (h : step os (.opening b) answer = some (pc', os'))
    : (∃ error, pc' = .returned (.error error) ∧ os' = os) ∨
      ∃ segment, os.names b.name = some segment ∧ pc' = .statingOpen b os.nextFd ∧
        os' = os.openFd segment := by
  simp only [step, Option.map_eq_some'] at h
  obtain ⟨r, hr, hpc⟩ := h
  rcases Os.shmOpen_eq_some hr with ⟨errno, -, rfl⟩ | ⟨-, ⟨hfalse, -⟩ | ⟨-, segment, hname, rfl⟩⟩
  . simp only [Prod.mk.injEq] at hpc
    exact .inl ⟨_, hpc.1.symm, hpc.2.symm⟩
  . cases hfalse
  . simp only [Prod.mk.injEq] at hpc
    exact .inr ⟨segment, hname, hpc.1.symm, hpc.2.symm⟩

theorem step_statingOpen {b : SharedMemoryBuilder} {fd : Nat}
    (h : step os (.statingOpen b fd) answer = some (pc', os'))
    : os' = os ∧ ((∃ errno, pc' = .closingFd fd (.fileStatError errno)) ∨
        ∃ segment, os.fds fd = some segment ∧
          pc' = .mappingOpen { b with size := (os.segments segment).length } fd) := by
  simp only [step, Option.map_eq_some'] at h
  obtain ⟨r, hr, hpc⟩ := h
  rcases Os.fstat_eq_some hr with ⟨errno, -, rfl⟩ | ⟨segment, -, hfd, rfl⟩
  . simp only [Prod.mk.injEq] at hpc
    exact ⟨hpc.2.symm, .inl ⟨_, hpc.1.symm⟩⟩
  . simp only [Prod.mk.injEq] at hpc
    exact ⟨hpc.2.symm, .inr ⟨segment, hfd, hpc.1.symm⟩⟩

theorem step_closingFd {fd : Nat} {error : SharedMemoryCreationError}
    (h : step os (.closingFd fd error) answer = some (pc', os'))
    : pc' = .returned (.error error) ∧ os' = os.close fd := by
  cases answer <;> simp_all [step]

theorem step_unmapping {shm : SharedMemory} {error : Option SharedMemoryCreationError}
    (h : step os (.unmapping shm error) answer = some (pc', os'))
    : pc' = afterUnmap shm error ∧ os' = if shm.baseAddress = 0 then os else os.munmap shm.baseAddress := by
  cases answer <;> simp_all [step]

theorem step_unlinking {shm : SharedMemory} {error : Option SharedMemoryCreationError}
    (h : step os (.unlinking shm error) answer = some (pc', os'))
    : pc' = .closingHandle shm error ∧ (os' = os ∨ os' = os.unbind shm.name) := by
  simp only [step, Option.map_eq_some'] at h
  obtain ⟨r, hr, hpc⟩ := h
  rcases Os.shmUnlink_eq_some hr with ⟨errno, -, rfl⟩ | ⟨-, -, rfl⟩
  . simp only [Prod.mk.injEq] at hpc
    exact ⟨hpc.1.symm, .inl hpc.2.symm⟩
  . simp only [Prod.mk.injEq] at hpc
    exact ⟨hpc.1.symm, .inr hpc.2.symm⟩

theorem step_closingHandle {shm : SharedMemory} {error : Option SharedMemoryCreationError}
    (h : step os (.closingHandle shm error) answer = some (pc', os'))
    : pc' = afterClose shm error ∧ os' = os.close shm.fileDescriptor := by
  cases answer <;> simp_all [step]

theorem step_unlocking {shm : SharedMemory} {error : Option SharedMemoryCreationError}
    (h : step os (.unlocking shm error) answer = some (pc', os'))
    : ∃ address length, shm.memoryLock = some (address, length) ∧ pc' = afterDrop error ∧
        ((∃ errno, answer = .fail errno) ∧ os' = os ∨
          os.covers address length = true ∧ os' = { os with toSpace := os.toSpace.unlock address }) := by
  simp only [step, Option.bind_eq_some, Option.map_eq_some'] at h
  obtain ⟨⟨address, length⟩, hlock, r, hr, hpc⟩ := h
  refine ⟨address, length, hlock, ?_⟩
  rcases Os.munlock_eq_some hr with ⟨errno, rfl, rfl⟩ | ⟨-, hcovers, rfl⟩ <;> simp only [Prod.mk.injEq] at hpc
  . exact ⟨hpc.1.symm, .inl ⟨⟨errno, rfl⟩, hpc.2.symm⟩⟩
  . exact ⟨hpc.1.symm, .inr ⟨hcovers, hpc.2.symm⟩⟩

theorem step_removing {name : FileName}
    (h : step os (.removing name) answer = some (pc', os'))
    : (∃ result, pc' = .removeReturned result) ∧ (os' = os ∨ os' = os.unbind name) := by
  simp only [step, Option.map_eq_some'] at h
  obtain ⟨r, hr, hpc⟩ := h
  rcases Os.shmUnlink_eq_some hr with ⟨errno, -, rfl⟩ | ⟨-, -, rfl⟩
  . simp only at hpc
    split at hpc <;> simp only [Prod.mk.injEq] at hpc <;> exact ⟨⟨_, hpc.1.symm⟩, .inl hpc.2.symm⟩
  . simp only [Prod.mk.injEq] at hpc
    exact ⟨⟨_, hpc.1.symm⟩, .inr hpc.2.symm⟩

end Pc

end Elkodon
