import Elkodon.SharedMemory.Lemmas.Step

/-!
The resources one call holds: a new descriptor, a new mapping and the lock on its range, each OS
call adding or giving back one of them.
-/

namespace Elkodon

namespace Os

/--
`os` is `os₀` with the new descriptor `fd`, the new mapping at `mapping` and, on its range, the
lock `lock`; every other descriptor, mapping and lock is as in `os₀`.
-/
structure Holds (os₀ os : Os) (fd : Option Nat) (mapping : Option UInt64)
    (lock : Option (UInt64 × Nat)) : Prop where
  fds_eq : ∀ f, fd ≠ some f → os.fds f = os₀.fds f
  fd_new : ∀ f, fd = some f → os₀.fds f = none
  mappings_eq : ∀ a, mapping ≠ some a → os.mappings a = os₀.mappings a
  mapping_new : ∀ a, mapping = some a → os₀.mappings a = none
  locks_eq : ∀ a, mapping ≠ some a → os.locks a = os₀.locks a
  lock_eq : ∀ a, mapping = some a → os.locks a = lock.map Prod.snd
  lock_at : ∀ l ∈ lock, mapping = some l.1

namespace Holds

variable {os₀ os : Os} {fd : Option Nat} {mapping : Option UInt64} {lock : Option (UInt64 × Nat)}

theorem refl (os₀ : Os) : Holds os₀ os₀ none none none where
  fds_eq _ _ := rfl
  fd_new _ h := by cases h
  mappings_eq _ _ := rfl
  mapping_new _ h := by cases h
  locks_eq _ _ := rfl
  lock_eq _ h := by cases h
  lock_at _ h := by cases h

theorem congr (h : Holds os₀ os fd mapping lock) {os' : Os} (hfds : os'.fds = os.fds)
    (hspace : os'.toSpace = os.toSpace) : Holds os₀ os' fd mapping lock where
  fds_eq f hf := hfds ▸ h.fds_eq f hf
  fd_new := h.fd_new
  mappings_eq a ha := by rw [← h.mappings_eq a ha, ← hspace]
  mapping_new := h.mapping_new
  locks_eq a ha := by rw [← h.locks_eq a ha, ← hspace]
  lock_eq a ha := by rw [← h.lock_eq a ha, ← hspace]
  lock_at := h.lock_at

theorem locks_eq_none {a : UInt64} (h : Holds os₀ os fd mapping lock) (ha : mapping = some a)
    : os₀.locks a = none :=
  Space.locks_eq_none (h.mapping_new a ha)

theorem addFd (h : Holds os₀ os none mapping lock) (hwf : os₀.WellFormed)
    (hnext : os₀.nextFd ≤ os.nextFd) {os' : Os} {segment : Nat}
    (hfds : os'.fds = Function.update os.fds os.nextFd (some segment)) (hspace : os'.toSpace = os.toSpace)
    : Holds os₀ os' (some os.nextFd) mapping lock where
  fds_eq f hf := by
    rw [hfds, Function.update_noteq (fun e => hf (congrArg some e.symm))]
    exact h.fds_eq f (by simp)
  fd_new f hf := by
    cases hf
    exact hwf.fds_ge _ hnext
  __ := (h.congr rfl hspace : Holds os₀ { os' with fds := os.fds } none mapping lock)

theorem mapAt (h : Holds os₀ os fd none lock) {address : UInt64} (hfree : os.mappings address = none)
    (segment length : Nat) : Holds os₀ (os.mapAt address segment length) fd (some address) none where
  fds_eq := h.fds_eq
  fd_new := h.fd_new
  mappings_eq a ha := by
    simp only [Os.mapAt, Space.mapAt]
    rw [Function.update_noteq (fun e => ha (congrArg some e.symm))]
    exact h.mappings_eq a (by simp)
  mapping_new a ha := by
    cases ha
    rw [← h.mappings_eq address (by simp)]
    exact hfree
  locks_eq a _ := h.locks_eq a (by simp)
  lock_eq a ha := by
    cases ha
    exact (Space.locks_eq_none hfree : os.locks address = none)
  lock_at _ h := by cases h

theorem mlock (h : Holds os₀ os fd (some address) none) (length : Nat) (hcovers : os.covers address length = true)
    : Holds os₀ { os with toSpace := os.toSpace.lock address length hcovers } fd (some address)
        (some (address, length)) where
  fds_eq := h.fds_eq
  fd_new := h.fd_new
  mappings_eq := h.mappings_eq
  mapping_new := h.mapping_new
  locks_eq a ha := by
    simp only [Space.lock]
    rw [Function.update_noteq (fun e => ha (congrArg some e.symm))]
    exact h.locks_eq a ha
  lock_eq a ha := by
    cases ha
    simp [Space.lock]
  lock_at _ hl := by cases hl; rfl

theorem munmap (h : Holds os₀ os fd (some address) lock) : Holds os₀ (os.munmap address) fd none none where
  fds_eq := h.fds_eq
  fd_new := h.fd_new
  mappings_eq a _ := by
    simp only [Os.munmap, Space.unmap, Function.update_apply]
    split
    . subst a
      exact (h.mapping_new address rfl).symm
    . exact h.mappings_eq a (by simpa using Ne.symm ‹_›)
  mapping_new _ ha := by cases ha
  locks_eq a _ := by
    simp only [Os.munmap, Space.unmap, Function.update_apply]
    split
    . subst a
      exact (h.locks_eq_none rfl).symm
    . exact h.locks_eq a (by simpa using Ne.symm ‹_›)
  lock_eq _ ha := by cases ha
  lock_at _ hl := by cases hl

theorem close (h : Holds os₀ os (some f) mapping lock) : Holds os₀ (os.close f) none mapping lock where
  fds_eq g _ := by
    simp only [Os.close, Function.update_apply]
    split
    . subst g
      exact (h.fd_new f rfl).symm
    . exact h.fds_eq g (by simpa using Ne.symm ‹_›)
  fd_new _ hg := by cases hg
  __ := (h.congr rfl rfl : Holds os₀ { os.close f with fds := os.fds } (some f) mapping lock)

theorem covers_eq_false (h : Holds os₀ os fd none lock) {address : UInt64} (hfree : os₀.mappings address = none)
    (length : Nat) : os.covers address length = false :=
  Space.covers_eq_false ((h.mappings_eq address (by simp)).trans hfree) length

theorem released (h : Holds os₀ os none mapping none) : os.fds = os₀.fds ∧ os.locks = os₀.locks := by
  refine ⟨funext fun f => h.fds_eq f (by simp), funext fun a => ?_⟩
  by_cases ha : mapping = some a
  . rw [h.lock_eq a ha, h.locks_eq_none ha]
    rfl
  . exact h.locks_eq a ha

theorem mappings_released {leak : Option UInt64} {P : Prop} (h : Holds os₀ os none leak none)
    (hleak : leak.isSome → P)
    : os.mappings = os₀.mappings ∨
      P ∧ ∃ address, os₀.mappings address = none ∧ ∀ a, a ≠ address → os.mappings a = os₀.mappings a := by
  cases leak with
  | none => exact .inl (funext fun a => h.mappings_eq a (by simp))
  | some address =>
    exact .inr ⟨hleak rfl, address, h.mapping_new address rfl,
      fun a ha => h.mappings_eq a (fun e => ha (Option.some.inj e).symm)⟩

end Holds

end Os

end Elkodon
