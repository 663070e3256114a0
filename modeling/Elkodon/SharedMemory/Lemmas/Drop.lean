import Elkodon.SharedMemory.Lemmas.Step

/-!
`Drop for SharedMemory` of a handle a process held, running alone: whatever the OS answers it
completes, giving back the handle's descriptor, mapping and lock.
-/

namespace Elkodon

namespace Pc

/--
The answers the OS call of a drop stage can give: `munmap` and `close` of what the handle holds
succeed (the code treats their failure as fatal), `shm_unlink` and `munlock` as the OS model says.
-/
def DropAdmits (os : Os) : Pc → Answer → Prop
  | .unmapping _ _, answer | .closingHandle _ _, answer => answer = .succeed
  | .unlinking shm _, answer => os.shmUnlink shm.name answer ≠ none
  | .unlocking shm _, answer => ∃ l ∈ shm.memoryLock, os.munlock l.1 l.2 answer ≠ none
  | _, _ => False

section Drop

variable (shm : SharedMemory) (os₀ : Os)

def DropNames (os : Os) : Prop :=
  os.names = os₀.names ∨ shm.hasOwnership = true ∧ os.names = Function.update os₀.names shm.name none

/-- What holds at each stage of the drop of `shm` started on `os₀`. -/
def DropInv : Pc → Os → Prop
  | .unmapping shm' none, os => shm' = shm ∧ os = os₀
  | .unlinking shm' none, os =>
    shm' = shm ∧ shm.hasOwnership = true ∧ os.fds = os₀.fds ∧ os.toSpace = os₀.toSpace.unmap shm.baseAddress ∧
      os.names = os₀.names
  | .closingHandle shm' none, os =>
    shm' = shm ∧ os.fds = os₀.fds ∧ os.toSpace = os₀.toSpace.unmap shm.baseAddress ∧ DropNames shm os₀ os
  | .unlocking shm' none, os =>
    shm' = shm ∧ shm.memoryLock.isSome ∧ os.fds = Function.update os₀.fds shm.fileDescriptor none ∧
      os.toSpace = os₀.toSpace.unmap shm.baseAddress ∧ DropNames shm os₀ os
  | .idle, os =>
    os.fds = Function.update os₀.fds shm.fileDescriptor none ∧ os.toSpace = os₀.toSpace.unmap shm.baseAddress ∧
      DropNames shm os₀ os
  | _, _ => False

variable {shm os₀} (hbase : shm.baseAddress ≠ 0) (hlock : ∀ l ∈ shm.memoryLock, l.1 = shm.baseAddress)
variable {os os' : Os} {pc' : Pc} {answer : Answer}

include hbase in
theorem dropInv_unmapping (hinv : DropInv shm os₀ (.unmapping shm none) os)
    (h : step os (.unmapping shm none) answer = some (pc', os')) : DropInv shm os₀ pc' os' := by
  obtain ⟨-, rfl⟩ := hinv
  obtain ⟨rfl, rfl⟩ := step_unmapping h
  rw [if_neg hbase]
  unfold afterUnmap
  split
  . exact ⟨rfl, ‹_›, rfl, rfl, rfl⟩
  . exact ⟨rfl, rfl, rfl, .inl rfl⟩

theorem dropInv_unlinking (hinv : DropInv shm os₀ (.unlinking shm none) os)
    (h : step os (.unlinking shm none) answer = some (pc', os')) : DropInv shm os₀ pc' os' := by
  obtain ⟨-, hown, hfds, hspace, hnames⟩ := hinv
  obtain ⟨rfl, rfl | rfl⟩ := step_unlinking h
  . exact ⟨rfl, hfds, hspace, .inl hnames⟩
  . exact ⟨rfl, hfds, hspace, .inr ⟨hown, by rw [Os.unbind, hnames]⟩⟩

theorem dropInv_closingHandle (hinv : DropInv shm os₀ (.closingHandle shm none) os)
    (h : step os (.closingHandle shm none) answer = some (pc', os')) : DropInv shm os₀ pc' os' := by
  obtain ⟨-, hfds, hspace, hnames⟩ := hinv
  obtain ⟨rfl, rfl⟩ := step_closingHandle h
  have hfds' : (os.close shm.fileDescriptor).fds = Function.update os₀.fds shm.fileDescriptor none := by
    rw [Os.close, hfds]
  unfold afterClose
  split
  . exact ⟨rfl, ‹_›, hfds', hspace, hnames⟩
  . exact ⟨hfds', hspace, hnames⟩

include hlock in
theorem step_unlocking_fails (hinv : DropInv shm os₀ (.unlocking shm none) os)
    (h : step os (.unlocking shm none) answer = some (pc', os'))
    : (∃ errno, answer = .fail errno) ∧ os' = os ∧ pc' = .idle := by
  obtain ⟨-, -, -, hspace, -⟩ := hinv
  obtain ⟨address, length, hl, rfl, ⟨hfail, rfl⟩ | ⟨hcovers, -⟩⟩ := step_unlocking h
  . exact ⟨hfail, rfl, rfl⟩
  . have hfree : os.mappings address = none := by
      rw [show address = shm.baseAddress from hlock _ hl, hspace, Space.unmap_mappings, Function.update_same]
    rw [Space.covers_eq_false hfree] at hcovers
    cases hcovers

include hbase hlock in
theorem DropInv.step {pc : Pc} (hinv : DropInv shm os₀ pc os) (h : step os pc answer = some (pc', os'))
    : DropInv shm os₀ pc' os' := by
  cases pc with
  | unmapping shm' error =>
    cases error
    . obtain rfl : shm' = shm := hinv.1
      exact dropInv_unmapping hbase hinv h
    . exact hinv.elim
  | unlinking shm' error =>
    cases error
    . obtain rfl : shm' = shm := hinv.1
      exact dropInv_unlinking hinv h
    . exact hinv.elim
  | closingHandle shm' error =>
    cases error
    . obtain rfl : shm' = shm := hinv.1
      exact dropInv_closingHandle hinv h
    . exact hinv.elim
  | unlocking shm' error =>
    cases error
    . obtain rfl : shm' = shm := hinv.1
      obtain ⟨-, rfl, rfl⟩ := step_unlocking_fails hlock hinv h
      exact hinv.2.2
    . exact hinv.elim
  | idle => cases answer <;> simp [Pc.step] at h
  | _ => exact hinv.elim

include hbase hlock in
theorem DropInv.run {pc pc' : Pc} (hrun : Run pc os pc' os') (hinv : DropInv shm os₀ pc os)
    : DropInv shm os₀ pc' os' := by
  induction hrun with
  | refl => exact hinv
  | step _ hstep _ ih => exact ih (hinv.step hbase hlock hstep)

theorem DropInv.progress {pc : Pc} (hinv : DropInv shm os₀ pc os) (hpc : pc ≠ .idle)
    : (∃ answer, DropAdmits os pc answer) ∧ ∀ answer, DropAdmits os pc answer → (Pc.step os pc answer).isSome := by
  cases pc with
  | unmapping _ error | closingHandle _ error =>
    cases error
    . exact ⟨⟨.succeed, rfl⟩, fun answer h => by cases h; rfl⟩
    . exact hinv.elim
  | unlinking _ error =>
    cases error
    . refine ⟨⟨.fail (.other 0), by simp [DropAdmits, Os.shmUnlink]⟩, fun answer h => ?_⟩
      simpa [Pc.step, DropAdmits, Option.isSome_iff_ne_none] using h
    . exact hinv.elim
  | unlocking shm' error =>
    cases error
    . obtain rfl : shm' = shm := hinv.1
      obtain ⟨l, hl⟩ := Option.isSome_iff_exists.mp hinv.2.1
      refine ⟨⟨.fail (.other 0), l, hl, by simp [Os.munlock]⟩, fun answer ⟨l', hl', h⟩ => ?_⟩
      obtain rfl : l' = l := Option.some.inj (hl'.symm.trans hl)
      simpa [Pc.step, hl, Option.isSome_iff_ne_none] using h
    . exact hinv.elim
  | idle => exact absurd rfl hpc
  | _ => exact hinv.elim

end Drop

end Pc

open Pc

end Elkodon
