import Elkodon.SharedMemory.Lemmas.Descriptors

/-!
The mapping invariant of one process, over its own address space.
-/

namespace Elkodon

section Mappings

variable {ι : Type} {sp₀ sp : Space} {k k' : Kernel} {v : ι → Option Mapped}

/--
What every place `x` of one process maps, `v x`, is at a non-null address where its address space
`sp` maps the segment of the place's descriptor with its size; no two places map at one address,
nor at one the start `start` mapped, and the start's mappings stay.
-/
structure MapInv (start : Space) (k : Kernel) (sp : Space) (v : ι → Option Mapped) : Prop where
  mapped : ∀ x m, v x = some m →
    m.address ≠ 0 ∧ ∃ segment, k.fds m.fd = some segment ∧ sp.mappings m.address = some (segment, m.size)
  unique : ∀ x y m m', v x = some m → v y = some m' → m.address = m'.address → x = y
  fresh : ∀ x m, v x = some m → start.mappings m.address = none
  persist : ∀ a, start.mappings a ≠ none → sp.mappings a = start.mappings a

namespace MapInv

theorem start (hv : ∀ x, v x = none) : MapInv sp₀ k sp₀ v where
  mapped x _ h := by simp [hv x] at h
  unique x _ _ _ h := by simp [hv x] at h
  fresh x _ h := by simp [hv x] at h
  persist _ _ := rfl

theorem comp (hinv : MapInv sp₀ k sp v) (π : ι ≃ ι) : MapInv sp₀ k sp (v ∘ π) where
  mapped x := hinv.mapped (π x)
  unique _ _ m m' hx hy h := π.injective (hinv.unique _ _ m m' hx hy h)
  fresh x := hinv.fresh (π x)
  persist := hinv.persist

theorem frame (hinv : MapInv sp₀ k sp v) (hfds : ∀ x m, v x = some m → k'.fds m.fd = k.fds m.fd)
    : MapInv sp₀ k' sp v where
  mapped x m hx := by
    obtain ⟨hzero, segment, hseg, hmap⟩ := hinv.mapped x m hx
    exact ⟨hzero, segment, (hfds x m hx).trans hseg, hmap⟩
  unique := hinv.unique
  fresh := hinv.fresh
  persist := hinv.persist

theorem mappings_ne_none (hinv : MapInv sp₀ k sp v) {x : ι} {m : Mapped} (hx : v x = some m)
    : sp.mappings m.address ≠ none := by
  obtain ⟨-, segment, -, h⟩ := hinv.mapped x m hx
  simp [h]

theorem start_eq_none (hinv : MapInv sp₀ k sp v) {a : UInt64} (h : sp.mappings a = none)
    : sp₀.mappings a = none :=
  by_contra fun hs => hs (by rw [← hinv.persist a hs, h])

variable [DecidableEq ι] {os os' : Os}

theorem footprint (hinv : MapInv sp₀ os.toKernel os.toSpace v) {x : ι} {pc pc' : Pc} (hx : v x = pc.mapped?)
    (hfds : ∀ y m, v y = some m → (y ≠ x ∨ pc'.mapped? = some m) → os'.fds m.fd = os.fds m.fd)
    (hs : Pc.SpaceFootprint os pc os' pc')
    : MapInv sp₀ os'.toKernel os'.toSpace (Function.update v x pc'.mapped?) := by
  -- a mapped address the step does not unmap keeps its mapping
  have hkeep {a} (ha : os.mappings a ≠ none) (hun : ∀ m, pc.mapped? = some m → a ≠ m.address)
      : os'.mappings a = os.mappings a := by
    cases hs with
    | mmap address size _ _ _ _ _ hfree hspace =>
      rw [hspace, Space.mapAt_mappings, Function.update_noteq (by rintro rfl; exact ha hfree)]
    | lock _ _ _ _ _ _ _ _ hmaps => rw [hmaps]
    | unmap m hpc _ _ _ hspace =>
      rcases hspace with ⟨-, hspace⟩ | hspace
      . rw [hspace]
      . rw [hspace, Space.unmap_mappings, Function.update_noteq (hun m hpc)]
    | unlock _ _ _ _ _ _ _ hspace => rcases hspace with hspace | ⟨-, hspace⟩ <;> rw [hspace]; rfl
    | keep _ _ _ hspace => rw [hspace]
  -- another place's mapping stays
  have hold {y m} (hy : v y = some m) (hne : y ≠ x) : os'.mappings m.address = os.mappings m.address :=
    hkeep (hinv.mappings_ne_none hy) fun _ hpc e => hne (hinv.unique _ _ _ _ hy (hx.trans hpc) e)
  -- what `x` maps after the step
  have hnew : ∀ m, pc'.mapped? = some m → (m.address ≠ 0 ∧ ∃ segment, os'.fds m.fd = some segment ∧
      os'.mappings m.address = some (segment, m.size)) ∧ sp₀.mappings m.address = none ∧
      ∀ y m', y ≠ x → v y = some m' → m.address ≠ m'.address := by
    intro m hm'
    -- a stage that keeps its mapping
    have hkept (hpc : pc'.mapped? = pc.mapped?) (hmaps : os'.mappings = os.mappings) : (m.address ≠ 0 ∧
        ∃ segment, os'.fds m.fd = some segment ∧ os'.mappings m.address = some (segment, m.size)) ∧
        sp₀.mappings m.address = none ∧ ∀ y m', y ≠ x → v y = some m' → m.address ≠ m'.address := by
      have hxm : v x = some m := hx.trans (hpc ▸ hm')
      obtain ⟨hzero, segment, hseg, hmap⟩ := hinv.mapped x m hxm
      exact ⟨⟨hzero, segment, by rw [hfds x m hxm (.inr hm'), hseg], by rw [hmaps, hmap]⟩, hinv.fresh x m hxm,
        fun y m' hne hy e => hne (hinv.unique _ _ _ _ hy hxm e.symm)⟩
    cases hs with
    | @mmap fd segment address size _ _ _ hseg hzero hfree hspace hfds' hpc' =>
      obtain rfl : m = ⟨fd, address, size⟩ := by
        rcases hpc' with h | h <;> rw [h] at hm' <;> cases hm'
        rfl
      refine ⟨⟨hzero, segment, by rw [hfds']; exact hseg, by rw [hspace]; simp⟩, hinv.start_eq_none hfree,
        fun y m' _ hy e => hinv.mappings_ne_none hy (e ▸ hfree)⟩
    | lock _ _ hpc hpc' _ _ _ _ hmaps => exact hkept (hpc'.trans hpc.symm) hmaps
    | unmap _ _ hpc' => simp [hpc'] at hm'
    | unlock _ _ _ hpc' => simp [hpc'] at hm'
    | keep hpc _ _ hspace => exact hkept hpc (congrArg Space.mappings hspace)
  refine ⟨fun y m hy => ?_, fun y z m m' hy hz e => ?_, fun y m hy => ?_, fun a ha => ?_⟩
  . rcases update_eq_some.mp hy with ⟨-, hm'⟩ | ⟨hne, hy⟩
    . exact (hnew m hm').1
    . obtain ⟨hzero, segment, hseg, hmap⟩ := hinv.mapped y m hy
      exact ⟨hzero, segment, by rw [hfds y m hy (.inl hne), hseg], by rw [hold hy hne, hmap]⟩
  . rcases update_eq_some.mp hy with ⟨rfl, hy'⟩ | ⟨hney, hy'⟩ <;>
      rcases update_eq_some.mp hz with ⟨rfl, hz'⟩ | ⟨hnez, hz'⟩
    . rfl
    . exact absurd e ((hnew m hy').2.2 z m' hnez hz')
    . exact absurd e.symm ((hnew m' hz').2.2 y m hney hy')
    . exact hinv.unique _ _ _ _ hy' hz' e
  . rcases update_eq_some.mp hy with ⟨-, hm'⟩ | ⟨-, hy⟩
    . exact (hnew m hm').2.1
    . exact hinv.fresh y m hy
  . rw [← hinv.persist a ha]
    exact hkeep (by rwa [hinv.persist a ha]) fun m hpc e => ha (e ▸ hinv.fresh x m (hx.trans hpc))

end MapInv

end Mappings

def Process.mapped (pr : Process) : Slot → Option Mapped
  | .pc => pr.pc.mapped?
  | .var i => (pr.handles i).map SharedMemory.mapped

theorem Process.mapped_setPc (pr : Process) (pc : Pc) (sp : Space)
    : { pr with pc := pc, space := sp }.mapped = Function.update pr.mapped .pc pc.mapped? := by
  funext y
  cases y <;> simp [Process.mapped]

theorem Process.mapped_setVar (pr : Process) (pc : Pc) (slot : Nat) (c : Option SharedMemory)
    : (⟨pc, Function.update pr.handles slot c, pr.space⟩ : Process).mapped =
        Function.update (Function.update pr.mapped .pc pc.mapped?) (.var slot) (c.map SharedMemory.mapped) := by
  funext y
  cases y with
  | pc => simp [Process.mapped]
  | var i =>
    by_cases hi : i = slot
    . subst hi
      simp [Process.mapped]
    . simp [Process.mapped, hi]

def System.mappedAt (s : System) (x : Nat × Slot) : Option Mapped :=
  (s.procs x.1).mapped x.2

theorem System.fdAt_of_mappedAt {s : System} {x : Nat × Slot} {m : Mapped} (h : s.mappedAt x = some m)
    : s.fdAt x = some m.fd := by
  obtain ⟨p, _ | i⟩ := x
  . exact Pc.fd?_of_mapped? h
  . obtain ⟨shm, hshm, rfl⟩ := Option.map_eq_some'.mp h
    simp [fdAt, holding, Process.holding, hshm, SharedMemory.holding, SharedMemory.mapped]

end Elkodon
