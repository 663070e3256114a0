import Elkodon.SharedMemory.Impl.Os

/-!
What each call of the OS model can do, and that every call keeps the kernel well formed.
-/

namespace Elkodon

namespace Space

variable (sp : Space) (address : UInt64)

@[simp] theorem mapAt_mappings (segment length : Nat)
    : (sp.mapAt address segment length).mappings = Function.update sp.mappings address (some (segment, length)) :=
  rfl
@[simp] theorem mapAt_locks (segment length : Nat) : (sp.mapAt address segment length).locks = sp.locks := rfl
@[simp] theorem unmap_mappings : (sp.unmap address).mappings = Function.update sp.mappings address none := rfl
@[simp] theorem unmap_locks : (sp.unmap address).locks = Function.update sp.locks address none := rfl
@[simp] theorem lock_mappings (length : Nat) (h : sp.covers address length = true)
    : (sp.lock address length h).mappings = sp.mappings := rfl
@[simp] theorem lock_locks (length : Nat) (h : sp.covers address length = true)
    : (sp.lock address length h).locks = Function.update sp.locks address (some length) := rfl
@[simp] theorem unlock_mappings : (sp.unlock address).mappings = sp.mappings := rfl
@[simp] theorem unlock_locks : (sp.unlock address).locks = Function.update sp.locks address none := rfl

end Space

theorem Space.locks_eq_none {sp : Space} {address : UInt64} (h : sp.mappings address = none)
    : sp.locks address = none :=
  by_contra fun hlock => sp.locks_mapped address hlock h

theorem Space.covers_eq_false {sp : Space} {address : UInt64} (h : sp.mappings address = none) (length : Nat)
    : sp.covers address length = false := by
  simp [covers, h]

namespace Os

variable {os : Os}

@[simp] theorem openFd_names (segment : Nat) : (os.openFd segment).names = os.names := rfl
@[simp] theorem openFd_segments (segment : Nat) : (os.openFd segment).segments = os.segments := rfl
@[simp] theorem openFd_nextSegment (segment : Nat)
    : (os.openFd segment).nextSegment = os.nextSegment := rfl
@[simp] theorem openFd_fds (segment : Nat)
    : (os.openFd segment).fds = Function.update os.fds os.nextFd (some segment) := rfl
@[simp] theorem openFd_nextFd (segment : Nat) : (os.openFd segment).nextFd = os.nextFd + 1 := rfl
@[simp] theorem openFd_toSpace (segment : Nat) : (os.openFd segment).toSpace = os.toSpace := rfl

@[simp] theorem createSegment_names (name : FileName)
    : (os.createSegment name).names = Function.update os.names name (some os.nextSegment) := rfl
@[simp] theorem createSegment_segments (name : FileName)
    : (os.createSegment name).segments = Function.update os.segments os.nextSegment [] := rfl
@[simp] theorem createSegment_nextSegment (name : FileName)
    : (os.createSegment name).nextSegment = os.nextSegment + 1 := rfl
@[simp] theorem createSegment_fds (name : FileName)
    : (os.createSegment name).fds = Function.update os.fds os.nextFd (some os.nextSegment) := rfl
@[simp] theorem createSegment_nextFd (name : FileName)
    : (os.createSegment name).nextFd = os.nextFd + 1 := rfl
@[simp] theorem createSegment_toSpace (name : FileName) : (os.createSegment name).toSpace = os.toSpace :=
  rfl

@[simp] theorem mapAt_toSpace (address : UInt64) (segment length : Nat)
    : (os.mapAt address segment length).toSpace = os.toSpace.mapAt address segment length := rfl
@[simp] theorem mapAt_toKernel (address : UInt64) (segment length : Nat)
    : (os.mapAt address segment length).toKernel = os.toKernel := rfl
@[simp] theorem munmap_toSpace (address : UInt64) : (os.munmap address).toSpace = os.toSpace.unmap address := rfl
@[simp] theorem munmap_toKernel (address : UInt64) : (os.munmap address).toKernel = os.toKernel := rfl
@[simp] theorem close_toSpace (fd : Nat) : (os.close fd).toSpace = os.toSpace := rfl
@[simp] theorem unbind_toSpace (name : FileName) : (os.unbind name).toSpace = os.toSpace := rfl

theorem shmOpen_eq_some {name : FileName} {exclusive : Bool} {answer : Answer}
    {r : Except Errno (Nat × Os)} (h : os.shmOpen name exclusive answer = some r)
    : (∃ errno, answer = .fail errno ∧ r = .error errno) ∨
      answer = .succeed ∧
        (exclusive = true ∧ os.names name = none ∧ r = .ok (os.nextFd, os.createSegment name) ∨
          exclusive = false ∧
            ∃ segment, os.names name = some segment ∧ r = .ok (os.nextFd, os.openFd segment)) := by
  cases answer with
  | succeed =>
    simp only [shmOpen] at h
    split at h
    . exact .inr ⟨rfl, .inl ⟨rfl, ‹_›, (Option.some.inj h).symm⟩⟩
    . exact .inr ⟨rfl, .inr ⟨rfl, _, ‹_›, (Option.some.inj h).symm⟩⟩
    . cases h
  | fail errno => simp_all [shmOpen]
  | _ => simp [shmOpen] at h

theorem shmUnlink_eq_some {name : FileName} {answer : Answer} {r : Except Errno Os}
    (h : os.shmUnlink name answer = some r)
    : (∃ errno, answer = .fail errno ∧ r = .error errno) ∨
      answer = .succeed ∧ os.names name ≠ none ∧
        r = .ok (os.unbind name) := by
  cases answer with
  | succeed =>
    simp only [shmUnlink, Option.map_eq_some'] at h
    obtain ⟨_, hname, rfl⟩ := h
    simp [hname]
  | fail errno => simp_all [shmUnlink]
  | _ => simp [shmUnlink] at h

theorem mmap_eq_some {fd length : Nat} {answer : Answer} {r : Except Errno (UInt64 × Os)}
    (h : os.mmap fd length answer = some r)
    : (∃ errno, answer = .fail errno ∧ r = .error errno) ∨
      ∃ address segment, answer = .succeedAt address ∧ os.fds fd = some segment ∧ 0 < length ∧
        address ≠ 0 ∧ address ≠ mapFailed ∧ os.mappings address = none ∧
        r = .ok (address, os.mapAt address segment length) := by
  cases answer with
  | succeedAt address =>
    simp only [mmap] at h
    split at h
    . rename_i segment hfd
      split at h
      . obtain ⟨hlength, hzero, hfailed, hfree⟩ := ‹0 < length ∧ _›
        exact .inr ⟨address, segment, rfl, hfd, hlength, hzero, hfailed, hfree, (Option.some.inj h).symm⟩
      . cases h
    . cases h
  | fail errno => simp_all [mmap]
  | _ => simp [mmap] at h

theorem fstat_eq_some {fd : Nat} {answer : Answer} {r : Except Errno Nat}
    (h : os.fstat fd answer = some r)
    : (∃ errno, answer = .fail errno ∧ r = .error errno) ∨
      ∃ segment, answer = .succeed ∧ os.fds fd = some segment ∧
        r = .ok (os.segments segment).length := by
  cases answer with
  | succeed =>
    simp only [fstat, Option.map_eq_some'] at h
    obtain ⟨segment, hfd, rfl⟩ := h
    simp [hfd]
  | fail errno => simp_all [fstat]
  | _ => simp [fstat] at h

theorem ftruncate_eq_some {fd length : Nat} {answer : Answer} {r : Except Errno Os}
    (h : os.ftruncate fd length answer = some r)
    : (∃ errno, answer = .fail errno ∧ r = .error errno) ∨
      ∃ segment, answer = .succeed ∧ os.fds fd = some segment ∧
        r = .ok { os with
          segments := Function.update os.segments segment (resize (os.segments segment) length) } := by
  cases answer with
  | succeed =>
    simp only [ftruncate, Option.map_eq_some'] at h
    obtain ⟨segment, hfd, rfl⟩ := h
    simp [hfd]
  | fail errno => simp_all [ftruncate]
  | _ => simp [ftruncate] at h

theorem mlock_eq_some {address : UInt64} {length : Nat} {answer : Answer} {r : Except Errno Os}
    (h : os.mlock address length answer = some r)
    : (∃ errno, answer = .fail errno ∧ r = .error errno) ∨
      ∃ hcovers, answer = .succeed ∧ r = .ok { os with toSpace := os.toSpace.lock address length hcovers } := by
  cases answer with
  | succeed =>
    simp only [mlock] at h
    split at h
    . exact .inr ⟨‹_›, rfl, (Option.some.inj h).symm⟩
    . cases h
  | fail errno => simp_all [mlock]
  | _ => simp [mlock] at h

theorem munlock_eq_some {address : UInt64} {length : Nat} {answer : Answer} {r : Except Errno Os}
    (h : os.munlock address length answer = some r)
    : (∃ errno, answer = .fail errno ∧ r = .error errno) ∨
      answer = .succeed ∧ os.covers address length = true ∧
        r = .ok { os with toSpace := os.toSpace.unlock address } := by
  cases answer with
  | succeed =>
    simp only [munlock] at h
    split at h
    . exact .inr ⟨rfl, ‹_›, (Option.some.inj h).symm⟩
    . cases h
  | fail errno => simp_all [munlock]
  | _ => simp [munlock] at h

theorem memset_eq_some {address : UInt64} {length : Nat} {answer : Answer} {r : Bool × Os}
    (h : os.memset address length answer = some r)
    : ∃ segment mapped zeroed, os.mappings address = some (segment, mapped) ∧
        (r.1 = false → zeroed = length ∧ length ≤ (os.segments segment).length) ∧
        r.2 = { os with
          segments := Function.update os.segments segment (zeroPrefix (os.segments segment) zeroed) } := by
  cases answer with
  | succeed =>
    simp only [memset] at h
    split at h
    . split at h
      . obtain rfl := Option.some.inj h
        exact ⟨_, _, length, ‹_›, fun _ => ⟨rfl, ‹_›⟩, rfl⟩
      . simp at h
    . simp at h
  | interrupt zeroed =>
    simp only [memset] at h
    split at h
    . split at h
      . obtain rfl := Option.some.inj h
        exact ⟨_, _, zeroed, ‹_›, by simp, rfl⟩
      . simp at h
    . simp at h
  | _ => simp [memset] at h

theorem length_resize (data : List UInt8) (length : Nat) : (resize data length).length = length := by
  simp only [resize, List.length_append, List.length_take, List.length_replicate]
  omega

theorem length_zeroPrefix (data : List UInt8) (length : Nat)
    : (zeroPrefix data length).length = data.length := by
  simp only [zeroPrefix, List.length_append, List.length_replicate, List.length_drop]
  omega

theorem zeroPrefix_length (data : List UInt8)
    : zeroPrefix data data.length = List.replicate data.length 0 := by
  simp [zeroPrefix]

theorem read_mapping {address : UInt64} {segment length : Nat}
    (h : os.mappings address = some (segment, length)) (hlen : (os.segments segment).length = length)
    : os.read address length = some (os.segments segment) := by
  simp [read, h, hlen]

theorem wellFormed_empty (advancedSignalHandling : Bool) : (Os.empty advancedSignalHandling).WellFormed where
  names_lt _ _ h := by cases h
  fds_lt _ _ h := by cases h
  fds_ge _ _ := rfl

end Os

namespace Kernel.WellFormed

theorem congr {k k' : Kernel} (hwf : k.WellFormed) (hnames : k'.names = k.names) (hfds : k'.fds = k.fds)
    (hsegment : k'.nextSegment = k.nextSegment) (hfd : k'.nextFd = k.nextFd) : k'.WellFormed where
  names_lt name segment h := hsegment ▸ hwf.names_lt name segment (hnames ▸ h)
  fds_lt fd segment h := hsegment ▸ hwf.fds_lt fd segment (hfds ▸ h)
  fds_ge fd h := hfds ▸ hwf.fds_ge fd (hfd ▸ h)

variable {os : Os} (hwf : os.WellFormed)
include hwf

theorem openFd {segment : Nat} (hsegment : segment < os.nextSegment) : (os.openFd segment).WellFormed where
  names_lt := hwf.names_lt
  fds_lt fd s h := by
    simp only [Os.openFd_fds, Function.update_apply] at h
    split at h
    . cases h; exact hsegment
    . exact hwf.fds_lt fd s h
  fds_ge fd h := by
    simp only [Os.openFd_fds, Function.update_apply, Os.openFd_nextFd] at h ⊢
    rw [if_neg (by omega)]
    exact hwf.fds_ge fd (by omega)

theorem createSegment (name : FileName) : (os.createSegment name).WellFormed where
  names_lt n s h := by
    simp only [Os.createSegment_names, Function.update_apply, Os.createSegment_nextSegment] at h ⊢
    split at h
    . cases h; omega
    . have := hwf.names_lt n s h; omega
  fds_lt fd s h := by
    simp only [Os.createSegment_fds, Function.update_apply, Os.createSegment_nextSegment] at h ⊢
    split at h
    . cases h; omega
    . have := hwf.fds_lt fd s h; omega
  fds_ge fd h := by
    simp only [Os.createSegment_fds, Function.update_apply, Os.createSegment_nextFd] at h ⊢
    rw [if_neg (by omega)]
    exact hwf.fds_ge fd (by omega)

theorem unbind (name : FileName) : (os.unbind name).WellFormed where
  names_lt n s h := by
    simp only [Os.unbind, Function.update_apply] at h
    split at h
    . cases h
    . exact hwf.names_lt n s h
  fds_lt := hwf.fds_lt
  fds_ge := hwf.fds_ge

theorem close (fd : Nat) : (os.close fd).WellFormed where
  names_lt := hwf.names_lt
  fds_lt f s h := by
    simp only [Os.close, Function.update_apply] at h
    split at h
    . cases h
    . exact hwf.fds_lt f s h
  fds_ge f h := by
    simp only [Os.close, Function.update_apply]
    split
    . rfl
    . exact hwf.fds_ge f h

end Kernel.WellFormed

end Elkodon
