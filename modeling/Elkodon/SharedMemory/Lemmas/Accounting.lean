import Mathlib.Logic.Equiv.Basic
import Elkodon.SharedMemory.Lemmas.Sizes
import Elkodon.SharedMemory.Lemmas.Locks

/-!
Descriptors, mappings, segment lengths and memory locks over every interleaving of every call of
every process, from any well-formed OS; all follow from `MemoryInv`, which each event keeps.
-/

namespace Elkodon

/-- The states that some interleaving of any calls reaches from the processes idle on `os₀`. -/
inductive ReachableFrom (os₀ : Os) : System → Prop
  | init : ReachableFrom os₀ (System.init os₀)
  | step {s s' : System} {ev : Event} : ReachableFrom os₀ s → Step s ev s' → ReachableFrom os₀ s'

/--
What every state reached from `os₀` by any calls satisfies: the descriptors and the lengths of the
segments are accounted for over all processes, the mappings and the locks in each process's own
address space.
-/
structure MemoryInv (os₀ : Os) (s : System) : Prop where
  wf : s.os.WellFormed
  wellBuilt : ∀ p, (s.procs p).pc.WellBuilt
  fds : FdInv os₀.toKernel s.os s.fdAt
  sizes : SizeInv s.os s.sizeViewAt
  maps : ∀ p, MapInv os₀.toSpace s.os (s.procs p).space (s.procs p).mapped
  locks : ∀ p, LockInv os₀.toSpace (s.procs p).space (s.procs p).mapped (s.procs p).lock (s.procs p).pc.unlock?

theorem Pc.Effects.start {os : Os} {pc pc' : Pc} (hidle : pc = .idle)
    (h : pc'.fd? = none ∧ pc'.mapped? = none ∧ pc'.sizeView? = none ∧ pc'.lock? = none ∧
      pc'.unlock? = none ∧ pc'.WellBuilt)
    : Pc.Effects os pc os pc' := by
  subst hidle
  obtain ⟨hf, hm, hs, hl, hu, hbuilt⟩ := h
  exact .quiet rfl hf hm (.inl hs) hl hu hbuilt

theorem System.setProc_procs (s : System) (p : Nat) (pr : Process) (q : Nat)
    : (s.setProc p pr).procs q = if q = p then pr else s.procs q :=
  Function.update_apply _ _ _ _

namespace MemoryInv

variable {os₀ : Os} {s : System} {p : Nat}

theorem wellBuilt_setProc (hinv : MemoryInv os₀ s) {pr : Process} (h : pr.pc.WellBuilt) (q : Nat)
    : ((s.setProc p pr).procs q).pc.WellBuilt := by
  rw [System.setProc_procs]
  split
  . exact h
  . exact hinv.wellBuilt q

theorem setPc (hinv : MemoryInv os₀ s) {pc : Pc} {os : Os} (he : Pc.Effects (s.osOf p) (s.procs p).pc os pc)
    (hwf : os.WellFormed)
    : MemoryInv os₀ { s.setProc p { s.procs p with pc := pc, space := os.toSpace } with os := os.toKernel } := by
  have hfds : FdInv os₀.toKernel (s.osOf p).toKernel s.fdAt := hinv.fds
  -- the descriptor of a mapping held at another place, or kept by the stage, is left alone
  have hkept {q : Nat} {y : Slot} {m : Mapped} (hy : (s.procs q).mapped y = some m)
      (hne : (q, y) ≠ (p, .pc) ∨ pc.mapped? = some m) : os.fds m.fd = s.os.fds m.fd :=
    hfds.fds_of_footprint (rfl : s.fdAt (p, .pc) = (s.procs p).pc.fd?) he.fds
      (System.fdAt_of_mappedAt (x := (q, y)) hy) (hne.imp_right Pc.fd?_of_mapped?)
  refine ⟨hwf, hinv.wellBuilt_setProc he.wellBuilt, ?_, ?_, fun q => ?_, fun q => ?_⟩
  . change FdInv os₀.toKernel os.toKernel (s.setProc p _).fdAt
    rw [System.fdAt_setProc_pc]
    exact hfds.footprint rfl he.fds
  . change SizeInv os.toKernel (s.setProc p _).sizeViewAt
    rw [System.sizeViewAt_setProc_pc]
    exact (hinv.sizes : SizeInv (s.osOf p).toKernel _).footprint hinv.wf hfds
      (fun _ _ => System.fdAt_of_sizeViewAt) rfl rfl he.fds he.sizes
  all_goals
    simp only [System.setProc_procs]
    split
  . rename_i hq
    subst hq
    rw [Process.mapped_setPc]
    exact (hinv.maps q : MapInv _ (s.osOf q).toKernel (s.osOf q).toSpace _).footprint rfl
      (fun y m hy hne => hkept hy (hne.imp_left fun h e => h (congrArg Prod.snd e :))) he.space
  . rename_i hq
    exact (hinv.maps q).frame fun y m hy => hkept hy (.inl fun e => hq (congrArg Prod.fst e :))
  . rename_i hq
    subst hq
    rw [Process.mapped_setPc, Process.lock_setPc]
    exact (hinv.locks q : LockInv _ (s.osOf q).toSpace _ _ _).footprint (hinv.maps q) rfl rfl he.space
  . exact hinv.locks q

theorem swap (hinv : MemoryInv os₀ s) {pc : Pc} {slot : Nat} {c : Option SharedMemory}
    (hpc : pc.fd? = s.fdAt (p, .var slot)) (hc : c.map SharedMemory.fileDescriptor = s.fdAt (p, .pc))
    (hpcm : pc.mapped? = (s.procs p).mapped (.var slot)) (hcm : c.map SharedMemory.mapped = (s.procs p).mapped .pc)
    (hpcs : pc.sizeView? = none)
    (hcs : c.map (fun shm => SizeView.checked shm.fileDescriptor shm.size) = s.sizeViewAt (p, .pc))
    (hpcl : pc.lock? = (s.procs p).lock (.var slot)) (hcl : c.bind SharedMemory.memoryLock = (s.procs p).lock .pc)
    (hpcu : pc.unlock? = none) (hbuilt : pc.WellBuilt)
    : MemoryInv os₀ (s.setProc p ⟨pc, Function.update (s.procs p).handles slot c, (s.procs p).space⟩) := by
  refine ⟨hinv.wf, hinv.wellBuilt_setProc hbuilt, ?_, ?_, fun q => ?_, fun q => ?_⟩
  . rw [System.fdAt_setProc_var, hpc, hc]
    exact Equiv.comp_swap_eq_update (p, .var slot) (p, .pc) s.fdAt ▸ hinv.fds.comp (Equiv.swap _ _)
  . rw [System.sizeViewAt_setProc_var, hpcs, hcs]
    have hswap := hinv.sizes.comp (Equiv.swap (p, Slot.var slot) (p, .pc))
    rw [Equiv.comp_swap_eq_update] at hswap
    refine hswap.mono fun y w hy => ?_
    rcases update_eq_some.mp hy with ⟨rfl, hy⟩ | ⟨hne, hy⟩
    . simpa using hy
    . obtain ⟨hne', hy⟩ := (update_eq_some.mp hy).resolve_left (by simp)
      rw [Function.update_noteq hne, Function.update_noteq hne', hy]
  all_goals
    simp only [System.setProc_procs]
    split
  . rename_i hq
    subst hq
    rw [Process.mapped_setVar, hpcm, hcm, ← Equiv.comp_swap_eq_update]
    exact (hinv.maps q).comp _
  . exact hinv.maps q
  . rename_i hq
    subst hq
    rw [Process.mapped_setVar, Process.lock_setVar, hpcm, hcm, hpcl, hcl, hpcu, ← Equiv.comp_swap_eq_update,
      ← Equiv.comp_swap_eq_update]
    exact (hinv.locks q).comp _
  . exact hinv.locks q

theorem replace (hinv : MemoryInv os₀ s) {slot : Nat} {shm shm' : SharedMemory}
    (hshm : (s.procs p).handles slot = some shm) (hmapped : shm'.mapped = shm.mapped)
    (hlock : shm'.memoryLock = shm.memoryLock)
    : MemoryInv os₀
        (s.setProc p { s.procs p with handles := Function.update (s.procs p).handles slot (some shm') }) := by
  have hfd : shm'.fileDescriptor = shm.fileDescriptor := congrArg Mapped.fd hmapped
  have hsize : shm'.size = shm.size := congrArg Mapped.size hmapped
  have hpc : Function.update s.fdAt (p, .pc) (s.procs p).pc.fd? = s.fdAt := Function.update_eq_self _ _
  have hpcs : Function.update s.sizeViewAt (p, .pc) (s.procs p).pc.sizeView? = s.sizeViewAt :=
    Function.update_eq_self _ _
  have hpcm : Function.update (s.procs p).mapped .pc (s.procs p).pc.mapped? = (s.procs p).mapped :=
    Function.update_eq_self _ _
  have hpcl : Function.update (s.procs p).lock .pc (s.procs p).pc.lock? = (s.procs p).lock :=
    Function.update_eq_self _ _
  have hvar : Function.update s.fdAt (p, .var slot) ((some shm').map SharedMemory.fileDescriptor) = s.fdAt := by
    rw [Function.update_eq_self_iff]
    simp [System.fdAt, System.holding, Process.holding, hshm, SharedMemory.holding, hfd]
  have hvars : Function.update s.sizeViewAt (p, .var slot)
      ((some shm').map fun shm => .checked shm.fileDescriptor shm.size) = s.sizeViewAt := by
    rw [Function.update_eq_self_iff]
    simp [System.sizeViewAt, Process.sizeView, hshm, hfd, hsize]
  have hvarm : Function.update (s.procs p).mapped (.var slot) ((some shm').map SharedMemory.mapped) =
      (s.procs p).mapped := by
    rw [Function.update_eq_self_iff]
    simp [Process.mapped, hshm, hmapped]
  have hvarl : Function.update (s.procs p).lock (.var slot) ((some shm').bind SharedMemory.memoryLock) =
      (s.procs p).lock := by
    rw [Function.update_eq_self_iff]
    simp [Process.lock, hshm, hlock]
  refine ⟨hinv.wf, hinv.wellBuilt_setProc (hinv.wellBuilt p), ?_, ?_, fun q => ?_, fun q => ?_⟩
  . rw [System.fdAt_setProc_var, hpc, hvar]
    exact hinv.fds
  . rw [System.sizeViewAt_setProc_var, hpcs, hvars]
    exact hinv.sizes
  all_goals
    simp only [System.setProc_procs]
    split
  . rename_i hq
    subst hq
    rw [Process.mapped_setVar, hpcm, hvarm]
    exact hinv.maps q
  . exact hinv.maps q
  . rename_i hq
    subst hq
    rw [Process.mapped_setVar, Process.lock_setVar, hpcm, hpcl, hvarm, hvarl]
    exact hinv.locks q
  . exact hinv.locks q

theorem callStep (hinv : MemoryInv os₀ s) {call : Call} {pr : Process} (hidle : (s.procs p).pc = .idle)
    (hstart : (s.procs p).start call = some pr) : MemoryInv os₀ (s.setProc p pr) := by
  have hnone : (s.procs p).pc.fd? = none ∧ (s.procs p).pc.mapped? = none ∧ (s.procs p).pc.sizeView? = none ∧
      (s.procs p).pc.lock? = none := by
    rw [hidle]
    exact ⟨rfl, rfl, rfl, rfl⟩
  cases call with
  | create b =>
    cases hstart
    have := hinv.setPc (Pc.Effects.start hidle b.create_holds_nothing) hinv.wf
    exact this
  | openExisting b =>
    cases hstart
    have := hinv.setPc (.start hidle ⟨rfl, rfl, rfl, rfl, rfl, trivial⟩ : Pc.Effects _ _ _ b.openExisting) hinv.wf
    exact this
  | releaseOwnership slot =>
    obtain ⟨shm, hshm, rfl⟩ := Option.map_eq_some'.mp hstart
    exact hinv.replace hshm rfl rfl
  | acquireOwnership slot =>
    obtain ⟨shm, hshm, rfl⟩ := Option.map_eq_some'.mp hstart
    exact hinv.replace hshm rfl rfl
  | drop slot =>
    obtain ⟨shm, hshm, rfl⟩ := Option.map_eq_some'.mp hstart
    exact hinv.swap (by simp [System.fdAt, System.holding, Process.holding, hshm, Pc.fd?, Pc.holding?])
      hnone.1.symm (by simp [Process.mapped, hshm, Pc.mapped?]) hnone.2.1.symm rfl
      hnone.2.2.1.symm (by simp [Process.lock, hshm, Pc.lock?]) hnone.2.2.2.symm rfl trivial
  | remove name =>
    cases hstart
    have := hinv.setPc (.start hidle ⟨rfl, rfl, rfl, rfl, rfl, trivial⟩ : Pc.Effects _ _ _ (.removing name)) hinv.wf
    exact this

theorem finishStep (hinv : MemoryInv os₀ s) {slot : Nat} {pr : Process}
    (h : (s.procs p).finish slot = some pr) : MemoryInv os₀ (s.setProc p pr) := by
  unfold Process.finish at h
  split at h <;> cases h
  . exact hinv.swap (by simp [System.fdAt, System.holding, Process.holding, Pc.fd?, Pc.holding?, *])
      (by simp [System.fdAt, System.holding, Process.holding, Pc.fd?, Pc.holding?, SharedMemory.holding, *])
      (by simp [Process.mapped, Pc.mapped?, *]) (by simp [Process.mapped, Pc.mapped?, *]) rfl
      (by simp [System.sizeViewAt, Process.sizeView, Pc.sizeView?, *])
      (by simp [Process.lock, Pc.lock?, *]) (by simp [Process.lock, Pc.lock?, *]) rfl trivial
  all_goals
    rename_i hpc
    have := hinv.setPc (.quiet rfl (by rw [hpc]; rfl) (by rw [hpc]; rfl) (.inr rfl) (by rw [hpc]; rfl)
      (by rw [hpc]; rfl) trivial : Pc.Effects (s.osOf p) _ (s.osOf p) .idle) hinv.wf
    exact this

theorem step (hinv : MemoryInv os₀ s) {ev : Event} {s' : System} (h : Step s ev s') : MemoryInv os₀ s' := by
  cases h with
  | call _ _ _ hidle hstart => exact hinv.callStep hidle hstart
  | os q _ _ _ h =>
    exact hinv.setPc (Pc.step_effects (hinv.wellBuilt q) h) (Pc.step_wellFormed (hinv.wf : (s.osOf q).WellFormed) h)
  | finish _ _ _ h => exact hinv.finishStep h

end MemoryInv

theorem ReachableFrom.memoryInv {os₀ : Os} (hwf : os₀.WellFormed) {s : System} (hs : ReachableFrom os₀ s)
    : MemoryInv os₀ s := by
  induction hs with
  | init =>
    have hnone (x : Nat × Slot) : (System.init os₀).mappedAt x = none ∧ (System.init os₀).sizeViewAt x = none ∧
        (System.init os₀).lockAt x = none := by
      obtain ⟨_, _ | _⟩ := x <;> exact ⟨rfl, rfl, rfl⟩
    exact ⟨hwf, fun _ => trivial, .start hwf (System.fdAt_init os₀), .start fun x => (hnone x).2.1,
      fun p => .start fun y => (hnone (p, y)).1, fun p => .start fun y => (hnone (p, y)).2.2⟩
  | step _ hstep ih => exact ih.step hstep

theorem reachable_create_then_drop
    : ∃ s s', ReachableFrom (Os.empty true) s ∧ ReachableFrom (Os.empty true) s' ∧
        (s.procs 0).handles 0 = some ⟨[97], 8, 4096, true, 0, some (4096, 8)⟩ ∧
        ∀ p, (s'.procs p).pc = .idle ∧ ∀ i, (s'.procs p).handles i = none := by
  have hs : ReachableFrom (Os.empty true) _ :=
    .step (.step (.step (.step (.step (.step (.step (.step .init
    (Step.call _ 0 (.create ((((SharedMemoryBuilder.new [97]).setIsMemoryLocked true).setCreationMode
      .createExclusive).setSize 8)) _ rfl rfl))
    (Step.os _ 0 .succeed _ _ rfl)) (Step.os _ 0 (.succeedAt 4096) _ _ rfl)) (Step.os _ 0 .succeed _ _ rfl))
    (Step.os _ 0 .succeed _ _ rfl)) (Step.os _ 0 .succeed _ _ rfl)) (Step.os _ 0 .succeed _ _ rfl))
    (Step.finish _ 0 0 _ rfl)
  have hs' : ReachableFrom (Os.empty true) _ :=
    .step (.step (.step (.step (.step hs (Step.call _ 0 (.drop 0) _ rfl rfl))
    (Step.os _ 0 .succeed _ _ rfl)) (Step.os _ 0 .succeed _ _ rfl)) (Step.os _ 0 .succeed _ _ rfl))
    (Step.os _ 0 (.fail (.other 12)) _ _ rfl)
  exact ⟨_, _, hs, hs', rfl, fun p => by cases p <;> exact ⟨rfl, fun i => by cases i <;> rfl⟩⟩

/--
Over any interleaving of any calls of any processes, from a well-formed OS `os₀`: the descriptors
open at the start stay as they were; each descriptor a process holds was opened since and is open;
each one opened since and still open is held by a call in progress or a variable's handle, and by
only one. So once no process holds anything, the descriptors are those of the start.
-/
theorem descriptors_accounted {os₀ : Os} (hwf : os₀.WellFormed) {s : System} (hs : ReachableFrom os₀ s)
    : (∀ fd, fd < os₀.nextFd → s.os.fds fd = os₀.fds fd) ∧
      (∀ x held, s.holding x = some held → os₀.nextFd ≤ held.fd ∧ s.os.fds held.fd ≠ none) ∧
      (∀ fd, os₀.nextFd ≤ fd → s.os.fds fd ≠ none → ∃ x held, s.holding x = some held ∧ held.fd = fd) ∧
      (∀ x y held held', s.holding x = some held → s.holding y = some held' → held.fd = held'.fd → x = y) ∧
      ((∀ x, s.holding x = none) → s.os.fds = os₀.fds) := by
  have hinv := (hs.memoryInv hwf).fds
  have hfdAt {x held} (h : s.holding x = some held) : s.fdAt x = some held.fd := by simp [System.fdAt, h]
  refine ⟨hinv.old, fun x _ h => hinv.held x _ (hfdAt h), fun fd hge hopen => ?_,
    fun x y _ _ hx hy hfd => hinv.held_unique x y _ (hfdAt hx) (hfd ▸ hfdAt hy), fun hnone => funext fun fd => ?_⟩
  . obtain ⟨x, hx⟩ := hinv.open_held fd hge hopen
    obtain ⟨held, h, rfl⟩ := Option.map_eq_some'.mp hx
    exact ⟨x, held, h, rfl⟩
  . rcases Nat.lt_or_ge fd os₀.nextFd with hlt | hge
    . exact hinv.old fd hlt
    . rw [hwf.fds_ge fd hge]
      by_contra hopen
      obtain ⟨x, hx⟩ := hinv.open_held fd hge hopen
      simp [System.fdAt, hnone x] at hx

/--
The run of `reachable_create_then_drop`: the handle holds an open descriptor, and after its drop
the descriptors are those of the empty OS again.
-/
theorem descriptors_accounted_after_drop
    : ∃ s s', ReachableFrom (Os.empty true) s ∧ ReachableFrom (Os.empty true) s' ∧ s.os.fds 0 ≠ none ∧
        s'.os.fds = (Os.empty true).fds := by
  obtain ⟨s, s', hs, hs', hshm, hidle⟩ := reachable_create_then_drop
  have hnone (x : Nat × Slot) : s'.holding x = none := by
    obtain ⟨p, _ | i⟩ := x <;> simp [System.holding, Process.holding, (hidle p).1, (hidle p).2, Pc.holding?]
  exact ⟨s, s', hs, hs',
    ((descriptors_accounted (Os.wellFormed_empty true) hs).2.1 (0, .var 0) _
      (congrArg (Option.map SharedMemory.holding) hshm)).2,
    (descriptors_accounted (Os.wellFormed_empty true) hs').2.2.2.2 hnone⟩

/--
Over any interleaving of any calls of any processes, from a well-formed OS: every handle kept in
a variable, and every call holding a handle between its `mmap` and its drop's `munmap`, has a
non-null base address at which its process maps the segment of its descriptor with the handle's
size; no two of them in one process have the same base address, nor one the process mapped at the
start, whose mappings stay. So a drop's `munmap` never unmaps the memory of another live handle.
-/
theorem handles_stay_mapped {os₀ : Os} (hwf : os₀.WellFormed) {s : System} (hs : ReachableFrom os₀ s)
    : (∀ x m, s.mappedAt x = some m → m.address ≠ 0 ∧
        ∃ segment, s.os.fds m.fd = some segment ∧ (s.procs x.1).space.mappings m.address = some (segment, m.size)) ∧
      (∀ p i shm, (s.procs p).handles i = some shm → s.mappedAt (p, .var i) = some shm.mapped) ∧
      (∀ x y m m', s.mappedAt x = some m → s.mappedAt y = some m' → x.1 = y.1 → m.address = m'.address → x = y) ∧
      (∀ x m, s.mappedAt x = some m → os₀.mappings m.address = none) ∧
      ∀ p a, os₀.mappings a ≠ none → (s.procs p).space.mappings a = os₀.mappings a := by
  have hinv := (hs.memoryInv hwf).maps
  refine ⟨fun x => (hinv x.1).mapped x.2, fun p i shm h => by simp [System.mappedAt, Process.mapped, h],
    fun x y m m' hx hy hxy e => Prod.ext hxy ((hinv x.1).unique x.2 y.2 m m' hx (by rw [hxy]; exact hy) e),
    fun x => (hinv x.1).fresh x.2, fun p => (hinv p).persist⟩

/--
Process 0 creates 8 bytes under the name "a" and keeps the handle in its variable 0; process 1 opens
"a" and keeps its handle in its variable 0. Both map the one segment at the address 4096, each in
its own address space.
-/
theorem handles_stay_mapped_in_two_processes
    : ∃ s m m', ReachableFrom (Os.empty true) s ∧ s.mappedAt (0, .var 0) = some m ∧
        s.mappedAt (1, .var 0) = some m' ∧ m.address = 4096 ∧ m'.address = 4096 ∧
        ∃ segment, (s.procs 0).space.mappings 4096 = some (segment, 8) ∧
          (s.procs 1).space.mappings 4096 = some (segment, 8) := by
  have hs : ReachableFrom (Os.empty true) _ :=
    .step (.step (.step (.step (.step (.step (.step (.step (.step (.step (.step (.step .init
    (Step.call _ 0 (.create (((SharedMemoryBuilder.new [97]).setCreationMode .createExclusive).setSize 8)) _
      rfl rfl))
    (Step.os _ 0 .succeed _ _ rfl)) (Step.os _ 0 (.succeedAt 4096) _ _ rfl)) (Step.os _ 0 .succeed _ _ rfl))
    (Step.os _ 0 .succeed _ _ rfl)) (Step.os _ 0 .succeed _ _ rfl)) (Step.finish _ 0 0 _ rfl))
    (Step.call _ 1 (.openExisting (SharedMemoryBuilder.new [97])) _ rfl rfl))
    (Step.os _ 1 .succeed _ _ rfl)) (Step.os _ 1 .succeed _ _ rfl)) (Step.os _ 1 (.succeedAt 4096) _ _ rfl))
    (Step.finish _ 1 0 _ rfl)
  have hmapped := (handles_stay_mapped (Os.wellFormed_empty true) hs).1
  obtain ⟨-, segment, hseg, hmap⟩ := hmapped (0, .var 0) ⟨0, 4096, 8⟩ rfl
  obtain ⟨-, segment', hseg', hmap'⟩ := hmapped (1, .var 0) ⟨1, 4096, 8⟩ rfl
  obtain rfl : segment = segment' := Option.some.inj (hseg.symm.trans (Eq.trans rfl hseg'))
  exact ⟨_, _, _, hs, rfl, rfl, rfl, rfl, segment, hmap, hmap'⟩

/--
Over any interleaving of any calls of any processes, from a well-formed OS: every handle kept in a
variable has a non-zero size, and the segment of its descriptor is exactly that long and mapped at
its base address; so the `size` bytes `as_slice` and `as_mut_slice` cover are the whole segment,
and no access through them reaches past the end of the file.
-/
theorem handles_fit_segments {os₀ : Os} (hwf : os₀.WellFormed) {s : System} (hs : ReachableFrom os₀ s)
    : ∀ p i shm, (s.procs p).handles i = some shm → 0 < shm.size ∧
        ∃ segment, s.os.fds shm.fileDescriptor = some segment ∧ (s.os.segments segment).length = shm.size ∧
          shm.asSlice (s.osOf p) = some (s.os.segments segment) := by
  intro p i shm h
  have hinv := hs.memoryInv hwf
  obtain ⟨hn, hsize⟩ := hinv.sizes.checked (p, .var i) shm.fileDescriptor shm.size
    (by simp [System.sizeViewAt, Process.sizeView, h])
  obtain ⟨-, segment, hseg, hmap⟩ := (hinv.maps p).mapped (.var i) shm.mapped (by simp [Process.mapped, h])
  exact ⟨hn, segment, hseg, hsize segment hseg,
    Os.read_mapping (hmap : (s.osOf p).mappings shm.baseAddress = _) (hsize segment hseg)⟩

/--
Process 0 creates 8 bytes under the name "a" with CreateExclusive and keeps the handle in its
variable 0: its slice is the whole segment of 8 bytes.
-/
theorem handles_fit_segments_after_create
    : ∃ s shm, ReachableFrom (Os.empty true) s ∧ (s.procs 0).handles 0 = some shm ∧ shm.size = 8 ∧
        ∃ segment, s.os.fds shm.fileDescriptor = some segment ∧ (s.os.segments segment).length = shm.size ∧
          shm.asSlice (s.osOf 0) = some (s.os.segments segment) := by
  have hs : ReachableFrom (Os.empty true) _ := .step (.step (.step (.step (.step (.step (.step .init
    (Step.call _ 0 (.create (((SharedMemoryBuilder.new [97]).setCreationMode .createExclusive).setSize 8)) _
      rfl rfl))
    (Step.os _ 0 .succeed _ _ rfl)) (Step.os _ 0 (.succeedAt 4096) _ _ rfl))
    (Step.os _ 0 .succeed _ _ rfl)) (Step.os _ 0 .succeed _ _ rfl)) (Step.os _ 0 .succeed _ _ rfl))
    (Step.finish _ 0 0 _ rfl)
  exact ⟨_, _, hs, rfl, rfl, (handles_fit_segments (Os.wellFormed_empty true) hs 0 0 _ rfl).2⟩

/--
Over any interleaving of any calls of any processes, from a well-formed OS: every memory lock that a
call in progress or a variable's handle holds is registered in its process's address space at the
base address of the mapping it holds; every lock registered there is one of the start or held by a
place of that process; the locks of the start stay. `munmap` removes the lock on its range, so the
`munlock` of a drop's `MemoryLock`, which comes after it, always fails and changes nothing; and
once a process is idle and holds no handle, its locks are those of the start.
-/
theorem memory_locks_accounted {os₀ : Os} (hwf : os₀.WellFormed) {s : System} (hs : ReachableFrom os₀ s)
    : (∀ x l, s.lockAt x = some l → ∃ m, s.mappedAt x = some m ∧ m.address = l.1 ∧
        (s.procs x.1).space.locks l.1 = some l.2) ∧
      (∀ p a n, (s.procs p).space.locks a = some n → os₀.locks a = some n ∨ ∃ y, s.lockAt (p, y) = some (a, n)) ∧
      (∀ p a, os₀.locks a ≠ none → (s.procs p).space.locks a = os₀.locks a) ∧
      (∀ p shm error answer pc os, (s.procs p).pc = .unlocking shm error →
        (s.procs p).pc.step (s.osOf p) answer = some (pc, os) → (∃ errno, answer = .fail errno) ∧ os = s.osOf p) ∧
      ∀ p, (s.procs p).pc = .idle → (∀ i, (s.procs p).handles i = none) → (s.procs p).space.locks = os₀.locks := by
  have hinv := (hs.memoryInv hwf).locks
  refine ⟨fun x => (hinv x.1).held x.2, fun p => (hinv p).registered, fun p => (hinv p).persist,
    fun p shm error answer pc os hpc h => ?_, fun p hidle hnone => funext fun a => ?_⟩
  . have hp := hinv p
    rw [hpc] at hp h
    exact (hp : LockInv _ (s.osOf p).toSpace _ _ _).unlocking_fails h
  . have hfree (y : Slot) : (s.procs p).lock y = none := by
      cases y <;> simp [Process.lock, hidle, hnone, Pc.lock?]
    by_cases h₀ : os₀.locks a = none
    . rw [h₀]
      cases ha : (s.procs p).space.locks a with
      | none => rfl
      | some n =>
        rcases (hinv p).registered a n ha with h | ⟨y, hy⟩
        . simp [h₀] at h
        . simp [System.lockAt, hfree] at hy
    . exact (hinv p).persist a h₀

/--
The run of `reachable_create_then_drop`: the handle's lock is registered in process 0's address
space, and after the drop process 0 has the locks of the empty OS again.
-/
theorem memory_locks_accounted_after_drop
    : ∃ s s', ReachableFrom (Os.empty true) s ∧ ReachableFrom (Os.empty true) s' ∧
        (s.procs 0).space.locks 4096 = some 8 ∧ (s'.procs 0).space.locks = (Os.empty true).locks := by
  obtain ⟨s, s', hs, hs', hshm, hidle⟩ := reachable_create_then_drop
  obtain ⟨-, -, -, hlock⟩ := (memory_locks_accounted (Os.wellFormed_empty true) hs).1 (0, .var 0) (4096, 8)
    (by simp [System.lockAt, Process.lock, hshm])
  exact ⟨s, s', hs, hs', hlock,
    (memory_locks_accounted (Os.wellFormed_empty true) hs').2.2.2.2 0 (hidle 0).1 (hidle 0).2⟩

end Elkodon
