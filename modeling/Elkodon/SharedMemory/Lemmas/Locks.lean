import Elkodon.SharedMemory.Lemmas.Mappings

/-!
The memory-lock invariant of one process, over its own address space.
-/

namespace Elkodon

section Locks

variable {ι : Type} {sp₀ sp : Space} {w : ι → Option Mapped} {v : ι → Option (UInt64 × Nat)}
  {u : Option (UInt64 × Nat)}

/--
The locks of the address space `sp` against those of the start `sp₀`, where each place `x` maps
`w x` and holds the lock `v x`, and `u` is the lock a drop has still to `munlock`.
-/
structure LockInv (sp₀ sp : Space) (w : ι → Option Mapped) (v : ι → Option (UInt64 × Nat))
    (u : Option (UInt64 × Nat)) : Prop where
  held : ∀ x l, v x = some l → ∃ m, w x = some m ∧ m.address = l.1 ∧ sp.locks l.1 = some l.2
  registered : ∀ a n, sp.locks a = some n → sp₀.locks a = some n ∨ ∃ x, v x = some (a, n)
  persist : ∀ a, sp₀.locks a ≠ none → sp.locks a = sp₀.locks a
  pending : ∀ l ∈ u, sp.mappings l.1 = none

namespace LockInv

theorem start (hv : ∀ x, v x = none) : LockInv sp₀ sp₀ w v none where
  held x _ h := by simp [hv x] at h
  registered _ _ h := .inl h
  persist _ _ := rfl
  pending _ h := by cases h

theorem comp (hinv : LockInv sp₀ sp w v u) (π : ι ≃ ι) : LockInv sp₀ sp (w ∘ π) (v ∘ π) none where
  held x := hinv.held (π x)
  registered a n h := (hinv.registered a n h).imp_right fun ⟨x, hx⟩ => ⟨π.symm x, by simpa using hx⟩
  persist := hinv.persist
  pending _ h := by cases h

theorem covers_pending (hinv : LockInv sp₀ sp w v u) {l : UInt64 × Nat} (hl : u = some l)
    : sp.covers l.1 l.2 = false :=
  Space.covers_eq_false (hinv.pending l hl) l.2

theorem unlocking_fails {os os' : Os} {shm : SharedMemory} {error : Option SharedMemoryCreationError}
    {answer : Answer} {pc' : Pc} (hinv : LockInv sp₀ os.toSpace w v (Pc.unlocking shm error).unlock?)
    (h : Pc.step os (.unlocking shm error) answer = some (pc', os')) : (∃ errno, answer = .fail errno) ∧ os' = os := by
  obtain ⟨address, length, hl, -, hfail | ⟨hcovers, -⟩⟩ := Pc.step_unlocking h
  . exact hfail
  . exact absurd (hinv.covers_pending hl) (by simp [hcovers])

variable [DecidableEq ι] {k : Kernel} {os os' : Os} {x : ι} {pc pc' : Pc}

theorem footprint (hinv : LockInv sp₀ os.toSpace w v pc.unlock?) (hmap : MapInv sp₀ k os.toSpace w)
    (hw : w x = pc.mapped?) (hv : v x = pc.lock?) (hs : Pc.SpaceFootprint os pc os' pc')
    : LockInv sp₀ os'.toSpace (Function.update w x pc'.mapped?) (Function.update v x pc'.lock?) pc'.unlock? := by
  -- the step changes the locks only at the address its own stage maps
  have hframe (a : UInt64) (ha : ∀ m, pc.mapped? = some m → a ≠ m.address) : os'.locks a = os.locks a := by
    cases hs with
    | mmap _ _ _ _ _ _ _ _ hspace => rw [hspace, Space.mapAt_locks]
    | lock m _ hpc _ _ _ _ _ _ hlocks => rw [hlocks, Function.update_noteq (ha m hpc)]
    | unmap m hpc _ _ _ hspace =>
      rcases hspace with ⟨-, hspace⟩ | hspace
      . rw [hspace]
      . rw [hspace, Space.unmap_locks, Function.update_noteq (ha m hpc)]
    | unlock _ hu _ _ _ _ _ hspace =>
      rcases hspace with hspace | ⟨hcovers, -⟩
      . rw [hspace]
      . exact absurd (hinv.covers_pending hu) (by simp [hcovers])
    | keep _ _ _ hspace => rw [hspace]
  -- the lock the stage holds after the step
  have hself (l : UInt64 × Nat) (hl : pc'.lock? = some l)
      : ∃ m, pc'.mapped? = some m ∧ m.address = l.1 ∧ os'.locks l.1 = some l.2 := by
    cases hs with
    | mmap _ _ _ _ _ _ _ _ _ _ _ hl' => simp [hl'] at hl
    | lock m _ _ hpc' _ hl' _ _ _ hlocks =>
      rw [hl'] at hl
      cases hl
      exact ⟨m, hpc', rfl, by rw [hlocks, Function.update_same]⟩
    | unmap _ _ _ hl' => simp [hl'] at hl
    | unlock _ _ _ _ _ hl' => simp [hl'] at hl
    | keep hpc hl' _ hspace =>
      obtain ⟨m, hm, ha, hlock⟩ := hinv.held x l (hv.trans (hl'.symm.trans hl))
      exact ⟨m, hpc.trans (hw.symm.trans hm), ha, by rw [hspace]; exact hlock⟩
  -- a lock at the address the stage mapped is the one it holds after the step
  have hat (m : Mapped) (n : Nat) (hm : pc.mapped? = some m) (hn : os'.locks m.address = some n)
      : pc'.lock? = some (m.address, n) := by
    cases hs with
    | mmap _ _ hnone => simp [hnone] at hm
    | lock m' _ hpc _ _ hl' _ _ _ hlocks =>
      obtain rfl : m = m' := Option.some.inj (hm.symm.trans hpc)
      rw [hlocks, Function.update_same] at hn
      cases hn
      exact hl'
    | unmap m' hpc _ _ _ hspace =>
      obtain rfl : m = m' := Option.some.inj (hm.symm.trans hpc)
      rcases hspace with ⟨hzero, -⟩ | hspace
      . exact absurd hzero (hmap.mapped x m (hw.trans hm)).1
      . rw [hspace, Space.unmap_locks, Function.update_same] at hn
        cases hn
    | unlock _ _ hnone => simp [hnone] at hm
    | keep _ hl' _ hspace =>
      rw [hspace] at hn
      rcases hinv.registered _ _ hn with h₀ | ⟨y, hy⟩
      . simp [Space.locks_eq_none (hmap.fresh x m (hw.trans hm))] at h₀
      . obtain ⟨m', hm', ha, -⟩ := hinv.held y _ hy
        obtain rfl := hmap.unique y x m' m hm' (hw.trans hm) ha
        rw [hl', ← hv, hy]
  -- the range a drop has still to `munlock` is not mapped
  have hpending : ∀ l ∈ pc'.unlock?, os'.mappings l.1 = none := by
    intro l hl
    cases hs with
    | mmap _ _ _ _ _ _ _ _ _ _ _ _ hu' => simp [hu'] at hl
    | lock _ _ _ _ _ _ hu' => simp [hu'] at hl
    | unmap m hpc _ _ hu' hspace =>
      obtain ⟨m', hm', ha, -⟩ := hinv.held x l (hv.trans (hu'.symm.trans hl))
      obtain rfl : m = m' := Option.some.inj ((hw.trans hpc).symm.trans hm')
      rcases hspace with ⟨hzero, -⟩ | hspace
      . exact absurd hzero (hmap.mapped x m hm').1
      . rw [hspace, Space.unmap_mappings, ← ha, Function.update_same]
    | unlock _ _ _ _ _ _ hu' => simp [hu'] at hl
    | keep _ _ hu' hspace =>
      rw [hspace]
      exact hinv.pending l (hu'.symm.trans hl)
  refine ⟨fun y l hy => ?_, fun a n ha => ?_, fun a ha => ?_, hpending⟩
  . rcases update_eq_some.mp hy with ⟨rfl, hl⟩ | ⟨hne, hy⟩
    . obtain ⟨m, hm, h⟩ := hself l hl
      exact ⟨m, by simp [hm], h⟩
    . obtain ⟨m, hm, ha, hlock⟩ := hinv.held y l hy
      refine ⟨m, by rw [Function.update_noteq hne, hm], ha, ?_⟩
      rw [hframe l.1 fun m' hm' e => hne (hmap.unique y x m m' hm (hw.trans hm') (ha.trans e)), hlock]
  . by_cases hx : ∃ m, pc.mapped? = some m ∧ a = m.address
    . obtain ⟨m, hm, rfl⟩ := hx
      exact .inr ⟨x, by rw [Function.update_same, hat m n hm ha]⟩
    . rw [hframe a fun m hm e => hx ⟨m, hm, e⟩] at ha
      refine (hinv.registered a n ha).imp_right fun ⟨y, hy⟩ => ⟨y, ?_⟩
      have hne : y ≠ x := by
        rintro rfl
        obtain ⟨m, hm, e, -⟩ := hinv.held y _ hy
        exact hx ⟨m, hw ▸ hm, e.symm⟩
      rw [Function.update_noteq hne, hy]
  . have hfar (m : Mapped) (hm : pc.mapped? = some m) : a ≠ m.address := fun e =>
      ha (by rw [e]; exact Space.locks_eq_none (hmap.fresh x m (hw.trans hm)))
    rw [hframe a hfar, hinv.persist a ha]

end LockInv

end Locks

def Process.lock (pr : Process) : Slot → Option (UInt64 × Nat)
  | .pc => pr.pc.lock?
  | .var i => (pr.handles i).bind SharedMemory.memoryLock

theorem Process.lock_setPc (pr : Process) (pc : Pc) (sp : Space)
    : { pr with pc := pc, space := sp }.lock = Function.update pr.lock .pc pc.lock? := by
  funext y
  cases y <;> simp [Process.lock]

theorem Process.lock_setVar (pr : Process) (pc : Pc) (slot : Nat) (c : Option SharedMemory)
    : (⟨pc, Function.update pr.handles slot c, pr.space⟩ : Process).lock =
        Function.update (Function.update pr.lock .pc pc.lock?) (.var slot) (c.bind SharedMemory.memoryLock) := by
  funext y
  cases y with
  | pc => simp [Process.lock]
  | var i =>
    by_cases hi : i = slot
    . subst hi
      simp [Process.lock]
    . simp [Process.lock, hi]

def System.lockAt (s : System) (x : Nat × Slot) : Option (UInt64 × Nat) :=
  (s.procs x.1).lock x.2

end Elkodon
