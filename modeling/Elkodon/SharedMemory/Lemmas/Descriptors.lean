import Mathlib.Logic.Equiv.Basic
import Elkodon.SharedMemory.Lemmas.Ownership
import Elkodon.SharedMemory.Lemmas.Effects

/-!
The descriptor invariant over places: the descriptors open at the start are left alone, and each
one opened since and still open is held at exactly one place.
-/

namespace Elkodon

section Descriptors

variable {ι : Type} {os₀ os os' : Kernel} {v : ι → Option Nat}

/--
The descriptors of `os` against those of the start `os₀`, where each place `x` holds `v x`: the
ones open at the start are as they were, and each one opened since and still open is held at
exactly one place.
-/
structure FdInv (os₀ os : Kernel) (v : ι → Option Nat) : Prop where
  fresh : ∀ fd, os.nextFd ≤ fd → os.fds fd = none
  nextFd_le : os₀.nextFd ≤ os.nextFd
  old : ∀ fd, fd < os₀.nextFd → os.fds fd = os₀.fds fd
  held : ∀ x fd, v x = some fd → os₀.nextFd ≤ fd ∧ os.fds fd ≠ none
  held_unique : ∀ x y fd, v x = some fd → v y = some fd → x = y
  open_held : ∀ fd, os₀.nextFd ≤ fd → os.fds fd ≠ none → ∃ x, v x = some fd

namespace FdInv

theorem start (hwf : os₀.WellFormed) (hv : ∀ x, v x = none) : FdInv os₀ os₀ v where
  fresh := hwf.fds_ge
  nextFd_le := le_rfl
  old _ _ := rfl
  held x _ h := by simp [hv x] at h
  held_unique x _ _ h := by simp [hv x] at h
  open_held fd hge hopen := absurd (hwf.fds_ge fd hge) hopen

theorem lt_nextFd (hinv : FdInv os₀ os v) {fd : Nat} (h : os.fds fd ≠ none) : fd < os.nextFd :=
  Nat.lt_of_not_le fun hge => h (hinv.fresh fd hge)

theorem comp (hinv : FdInv os₀ os v) (π : ι ≃ ι) : FdInv os₀ os (v ∘ π) where
  fresh := hinv.fresh
  nextFd_le := hinv.nextFd_le
  old := hinv.old
  held x := hinv.held (π x)
  held_unique x y fd hx hy := π.injective (hinv.held_unique _ _ fd hx hy)
  open_held fd hge hopen := by
    obtain ⟨x, hx⟩ := hinv.open_held fd hge hopen
    exact ⟨π.symm x, by simpa using hx⟩

theorem keep (hinv : FdInv os₀ os v) (hfds : os'.fds = os.fds) (hnext : os'.nextFd = os.nextFd)
    : FdInv os₀ os' v := by
  obtain ⟨fresh, nextFd_le, old, held, held_unique, open_held⟩ := hinv
  exact ⟨hfds ▸ hnext ▸ fresh, hnext ▸ nextFd_le, hfds ▸ old, hfds ▸ held, held_unique, hfds ▸ open_held⟩

theorem fds_of_footprint {o o' : Os} (hinv : FdInv os₀ o.toKernel v) {x : ι} {pc pc' : Pc} (hx : v x = pc.fd?)
    (hf : Pc.FdFootprint o pc o' pc') {y : ι} {fd : Nat} (hy : v y = some fd)
    (hne : y ≠ x ∨ pc'.fd? = some fd) : o'.fds fd = o.fds fd := by
  cases hf with
  | openFd _ _ _ hfds _ => rw [hfds, Function.update_noteq (hinv.lt_nextFd (hinv.held y fd hy).2).ne]
  | close fd₀ hpc hpc' hfds _ =>
    rw [hfds, Function.update_noteq]
    rintro rfl
    rcases hne with hne | hne
    . exact hne (hinv.held_unique _ _ _ hy (hx.trans hpc))
    . simp [hpc'] at hne
  | keep _ hfds _ => rw [hfds]

variable [DecidableEq ι]

theorem openFd (hinv : FdInv os₀ os v) {x : ι} (hx : v x = none) {segment : Nat}
    (hfds : os'.fds = Function.update os.fds os.nextFd (some segment)) (hnext : os'.nextFd = os.nextFd + 1)
    : FdInv os₀ os' (Function.update v x (some os.nextFd)) := by
  have hold {fd} (h : os.fds fd ≠ none) : os'.fds fd = os.fds fd := by
    rw [hfds, Function.update_noteq (hinv.lt_nextFd h).ne]
  have hle := hinv.nextFd_le
  refine ⟨fun fd hge => ?_, by omega, fun fd hlt => ?_, fun y fd hy => ?_, fun y z fd hy hz => ?_,
    fun fd hge hopen => ?_⟩
  . rw [hfds, Function.update_noteq (by omega)]
    exact hinv.fresh fd (by omega)
  . rw [hfds, Function.update_noteq (by omega)]
    exact hinv.old fd hlt
  . rcases update_eq_some.mp hy with ⟨-, ⟨⟩⟩ | ⟨-, hy⟩
    . simp [hfds, hle]
    . rw [hold (hinv.held y fd hy).2]
      exact hinv.held y fd hy
  . rcases update_eq_some.mp hy with ⟨rfl, ⟨⟩⟩ | ⟨-, hy'⟩ <;>
      rcases update_eq_some.mp hz with ⟨rfl, hz'⟩ | ⟨-, hz'⟩
    . rfl
    . exact absurd (hinv.lt_nextFd (hinv.held z _ hz').2) (lt_irrefl _)
    . cases hz'
      exact absurd (hinv.lt_nextFd (hinv.held y _ hy').2) (lt_irrefl _)
    . exact hinv.held_unique _ _ _ hy' hz'
  . by_cases hfd : fd = os.nextFd
    . exact ⟨x, by simp [hfd]⟩
    . rw [hfds, Function.update_noteq hfd] at hopen
      obtain ⟨y, hy⟩ := hinv.open_held fd hge hopen
      exact ⟨y, by rw [Function.update_noteq (by rintro rfl; simp [hx] at hy)]; exact hy⟩

theorem close (hinv : FdInv os₀ os v) {x : ι} {fd₀ : Nat} (hx : v x = some fd₀)
    (hfds : os'.fds = Function.update os.fds fd₀ none) (hnext : os'.nextFd = os.nextFd)
    : FdInv os₀ os' (Function.update v x none) := by
  have hge₀ := (hinv.held x fd₀ hx).1
  have hold {y fd} (hy : v y = some fd) (hne : y ≠ x) : os'.fds fd = os.fds fd := by
    rw [hfds, Function.update_noteq fun e => hne (hinv.held_unique _ _ _ hy (by rw [e]; exact hx))]
  refine ⟨fun fd hge => ?_, hnext ▸ hinv.nextFd_le, fun fd hlt => ?_, fun y fd hy => ?_,
    fun y z fd hy hz => ?_, fun fd hge hopen => ?_⟩
  . rw [hfds, Function.update_apply]
    split
    . rfl
    . exact hinv.fresh fd (hnext ▸ hge)
  . rw [hfds, Function.update_noteq (by omega)]
    exact hinv.old fd hlt
  . obtain ⟨hne, hy⟩ := (update_eq_some.mp hy).resolve_left (by simp)
    rw [hold hy hne]
    exact hinv.held y fd hy
  . obtain ⟨-, hy⟩ := (update_eq_some.mp hy).resolve_left (by simp)
    obtain ⟨-, hz⟩ := (update_eq_some.mp hz).resolve_left (by simp)
    exact hinv.held_unique _ _ _ hy hz
  . have hne : fd ≠ fd₀ := by rintro rfl; simp [hfds] at hopen
    rw [hfds, Function.update_noteq hne] at hopen
    obtain ⟨y, hy⟩ := hinv.open_held fd hge hopen
    exact ⟨y, by rw [Function.update_noteq (by rintro rfl; exact hne (Option.some.inj (hy.symm.trans hx)))]; exact hy⟩

theorem footprint {o o' : Os} (hinv : FdInv os₀ o.toKernel v) {x : ι} {pc pc' : Pc} (hx : v x = pc.fd?)
    (hf : Pc.FdFootprint o pc o' pc') : FdInv os₀ o'.toKernel (Function.update v x pc'.fd?) := by
  cases hf with
  | openFd segment hpc hpc' hfds hnext =>
    rw [hpc']
    exact hinv.openFd (hx.trans hpc) hfds hnext
  | close fd hpc hpc' hfds hnext =>
    rw [hpc']
    exact hinv.close (hx.trans hpc) hfds hnext
  | keep hpc hfds hnext =>
    rw [hpc, ← hx, Function.update_eq_self]
    exact hinv.keep hfds hnext

end FdInv

end Descriptors

namespace System

def fdAt (s : System) (x : Nat × Slot) : Option Nat :=
  (s.holding x).map Holding.fd

theorem fdAt_setProc_pc (s : System) (p : Nat) (pc : Pc) (sp : Space)
    : (s.setProc p { s.procs p with pc := pc, space := sp }).fdAt = Function.update s.fdAt (p, .pc) pc.fd? := by
  funext x
  simp only [fdAt, holding_setProc_pc, Function.update_apply]
  split <;> rfl

theorem fdAt_setProc_var (s : System) (p : Nat) (pc : Pc) (slot : Nat) (c : Option SharedMemory)
    : (s.setProc p ⟨pc, Function.update (s.procs p).handles slot c, (s.procs p).space⟩).fdAt =
        Function.update (Function.update s.fdAt (p, .pc) pc.fd?) (p, .var slot)
          (c.map SharedMemory.fileDescriptor) := by
  funext x
  simp only [fdAt, holding_setProc_var, Function.update_apply]
  split_ifs <;> first | rfl | cases c <;> rfl

theorem fdAt_init (os : Os) (x : Nat × Slot) : (System.init os).fdAt x = none := by
  obtain ⟨_, _ | _⟩ := x <;> rfl

end System

end Elkodon
