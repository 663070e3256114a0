import Mathlib.Logic.Equiv.Basic
import Elkodon.SharedMemory.Impl.System
import Elkodon.SharedMemory.Lemmas.Footprint

/-!
Ownership across processes: over every interleaving of non-purging calls, no two owners hold
descriptors on one segment, and a drop unlinks only the name of its own segment.
-/

namespace Elkodon

/-- Where a process keeps a descriptor or a handle: in its current call, or in a variable. -/
inductive Slot where
  | pc
  | var (i : Nat)
  deriving DecidableEq

def Process.holding (pr : Process) : Slot → Option Holding
  | .pc => pr.pc.holding?
  | .var i => (pr.handles i).map SharedMemory.holding

def Process.handle (pr : Process) : Slot → Option SharedMemory
  | .pc => pr.pc.handle?
  | .var i => pr.handles i

def System.holding (s : System) (x : Nat × Slot) : Option Holding :=
  (s.procs x.1).holding x.2

def System.handle (s : System) (x : Nat × Slot) : Option SharedMemory :=
  (s.procs x.1).handle x.2

section Holdings

variable {ι : Type} {k k' : Kernel} {os : Os} {v v' : ι → Option Holding}

/-- Ownership over what every position `x` holds, `v x`. -/
structure HoldingInv (k : Kernel) (v : ι → Option Holding) : Prop where
  wf : k.WellFormed
  fd_open : ∀ x held, v x = some held → k.fds held.fd ≠ none
  fd_unique : ∀ x y held held', v x = some held → v y = some held' → held.fd = held'.fd → x = y
  owner_bound : ∀ x held name, v x = some held → held.owner = some name → held.unlinked = false →
    ∃ segment, k.fds held.fd = some segment ∧ k.names name = some segment
  owner_unique : ∀ x y held held' segment, v x = some held → v y = some held' →
    held.owner.isSome → held'.owner.isSome → k.fds held.fd = some segment →
    k.fds held'.fd = some segment → x = y

theorem update_eq_some [DecidableEq ι] {α : Type} {w : ι → Option α} {x y : ι} {c : Option α} {a : α}
    : Function.update w x c y = some a ↔ y = x ∧ c = some a ∨ y ≠ x ∧ w y = some a := by
  rw [Function.update_apply]
  split <;> simp_all

theorem Holding.Within.owner_isSome {h' h : Holding} (hw : h'.Within h) (hs : h'.owner.isSome)
    : h.owner.isSome := by
  obtain ⟨name, hn⟩ := Option.isSome_iff_exists.mp hs
  simp [(hw.2 name hn).1]

namespace HoldingInv

theorem fd_lt (hinv : HoldingInv k v) {y : ι} {held : Holding} (hy : v y = some held)
    : held.fd < k.nextFd :=
  Nat.lt_of_not_le fun h => hinv.fd_open y held hy (hinv.wf.fds_ge _ h)

theorem embed (hinv : HoldingInv k v) (ha : k'.Agrees k) {π : ι → ι} (hπ : π.Injective)
    (hv : ∀ x held', v' x = some held' → ∃ held, v (π x) = some held ∧ held'.Within held)
    : HoldingInv k' v' where
  wf := hinv.wf.agrees ha
  fd_open x held' hx := by
    obtain ⟨held, hy, hfd, -⟩ := hv x held' hx
    rw [ha.fds, hfd]
    exact hinv.fd_open _ _ hy
  fd_unique x y h₁ h₂ hx hy hfd := by
    obtain ⟨g₁, hx, hfd₁, -⟩ := hv x h₁ hx
    obtain ⟨g₂, hy, hfd₂, -⟩ := hv y h₂ hy
    exact hπ (hinv.fd_unique _ _ _ _ hx hy (by rw [← hfd₁, ← hfd₂, hfd]))
  owner_bound x held' name hx hn hu := by
    obtain ⟨held, hy, hfd, hown⟩ := hv x held' hx
    obtain ⟨hn, hu⟩ := hown name hn
    rw [ha.fds, ha.names, hfd]
    exact hinv.owner_bound _ _ _ hy hn (hu ‹_›)
  owner_unique x y h₁ h₂ segment hx hy hs₁ hs₂ hseg₁ hseg₂ := by
    obtain ⟨g₁, hx, hw₁⟩ := hv x h₁ hx
    obtain ⟨g₂, hy, hw₂⟩ := hv y h₂ hy
    rw [ha.fds, hw₁.1] at hseg₁
    rw [ha.fds, hw₂.1] at hseg₂
    exact hπ (hinv.owner_unique _ _ _ _ _ hx hy (hw₁.owner_isSome hs₁) (hw₂.owner_isSome hs₂) hseg₁ hseg₂)

theorem comp (hinv : HoldingInv k v) (π : ι ≃ ι) : HoldingInv k (v ∘ π) :=
  hinv.embed .rfl π.injective fun _ held' hx => ⟨held', hx, .refl _⟩

theorem bindFresh (hinv : HoldingInv os.toKernel v) {name : FileName} (hname : os.names name = none)
    : HoldingInv { os with
        names := Function.update os.names name (some os.nextSegment)
        segments := Function.update os.segments os.nextSegment []
        nextSegment := os.nextSegment + 1 }.toKernel v where
  wf := {
    names_lt := fun n segment h => by
      simp only [Function.update_apply] at h
      split at h
      . cases h
        exact Nat.lt_succ_self _
      . exact Nat.lt_succ_of_lt (hinv.wf.names_lt n segment h)
    fds_lt := fun f segment h => Nat.lt_succ_of_lt (hinv.wf.fds_lt f segment h)
    fds_ge := hinv.wf.fds_ge }
  fd_open := hinv.fd_open
  fd_unique := hinv.fd_unique
  owner_bound y held n hy hn hu := by
    obtain ⟨segment, hseg, hbound⟩ := hinv.owner_bound y held n hy hn hu
    have hne : n ≠ name := fun e => by simp [e, hname] at hbound
    exact ⟨segment, hseg, by simpa [Function.update_noteq hne] using hbound⟩
  owner_unique := hinv.owner_unique

variable [DecidableEq ι]

theorem openFd (hinv : HoldingInv os.toKernel v) {x : ι} (hx : v x = none) {name : FileName} {segment : Nat}
    (hname : os.names name = some segment) (owns : Bool) (hfresh : owns = true → ∀ f, os.fds f ≠ some segment)
    : HoldingInv (os.openFd segment).toKernel
        (Function.update v x (some ⟨os.nextFd, if owns then some name else none, false⟩)) := by
  have hfds {y held} (hy : v y = some held) : (os.openFd segment).fds held.fd = os.fds held.fd :=
    Function.update_noteq (hinv.fd_lt hy).ne _ _
  refine ⟨hinv.wf.openFd (hinv.wf.names_lt _ _ hname), fun y held hy => ?_,
    fun y z h₁ h₂ hy hz hfd => ?_, fun y held n hy hn hu => ?_,
    fun y z h₁ h₂ segment' hy hz hs₁ hs₂ hseg₁ hseg₂ => ?_⟩
  . rcases update_eq_some.mp hy with ⟨-, ⟨⟩⟩ | ⟨-, hy⟩
    . simp
    . rw [hfds hy]
      exact hinv.fd_open y held hy
  . rcases update_eq_some.mp hy with ⟨rfl, ⟨⟩⟩ | ⟨-, hy'⟩ <;>
      rcases update_eq_some.mp hz with ⟨rfl, ⟨⟩⟩ | ⟨-, hz'⟩
    . rfl
    . exact absurd hfd.symm (hinv.fd_lt hz').ne
    . exact absurd hfd (hinv.fd_lt hy').ne
    . exact hinv.fd_unique _ _ _ _ hy' hz' hfd
  . rcases update_eq_some.mp hy with ⟨-, ⟨⟩⟩ | ⟨-, hy⟩
    . obtain ⟨-, rfl⟩ : owns = true ∧ name = n := by simpa using hn
      exact ⟨segment, by simp, hname⟩
    . rw [hfds hy]
      exact hinv.owner_bound y held n hy hn hu
  . -- the new place owns its segment only if no other place holds a descriptor on it
    have hnew {y' z' g₁ g₂}
        (hy₀ : Function.update v x (some ⟨os.nextFd, if owns then some name else none, false⟩) y' = some g₁)
        (hz₀ : v z' = some g₂) (hs : g₁.owner.isSome) (hseg₁ : (os.openFd segment).fds g₁.fd = some segment')
        (hseg₂ : (os.openFd segment).fds g₂.fd = some segment') : y' ≠ x := by
      rintro rfl
      simp only [Function.update_same, Option.some.injEq] at hy₀
      subst hy₀
      simp only [Os.openFd_fds, Function.update_same, Option.some.injEq] at hseg₁
      subst hseg₁
      exact hfresh (by simpa using hs) _ ((hfds hz₀).symm.trans hseg₂)
    rcases update_eq_some.mp hy with ⟨rfl, -⟩ | ⟨hx', hy'⟩
    . rcases update_eq_some.mp hz with ⟨rfl, -⟩ | ⟨-, hz'⟩
      . rfl
      . exact absurd rfl (hnew hy hz' hs₁ hseg₁ hseg₂)
    rcases update_eq_some.mp hz with ⟨rfl, -⟩ | ⟨-, hz'⟩
    . exact absurd rfl (hnew hz hy' hs₂ hseg₂ hseg₁)
    rw [hfds hy'] at hseg₁
    rw [hfds hz'] at hseg₂
    exact hinv.owner_unique _ _ _ _ _ hy' hz' hs₁ hs₂ hseg₁ hseg₂

theorem create (hinv : HoldingInv os.toKernel v) {x : ι} (hx : v x = none) {name : FileName}
    (hname : os.names name = none) (owns : Bool)
    : HoldingInv (os.createSegment name).toKernel
        (Function.update v x (some ⟨os.nextFd, if owns then some name else none, false⟩)) :=
  (hinv.bindFresh hname).openFd hx (by simp) owns fun _ f h => (hinv.wf.fds_lt f _ h).ne rfl

theorem close (hinv : HoldingInv os.toKernel v) {x : ι} {held₀ : Holding} (hx : v x = some held₀)
    : HoldingInv (os.close held₀.fd).toKernel (Function.update v x none) := by
  have hfds {y held} (hy : Function.update v x none y = some held)
      : v y = some held ∧ (os.close held₀.fd).fds held.fd = os.fds held.fd := by
    obtain ⟨hne, hy⟩ := (update_eq_some.mp hy).resolve_left (by simp)
    exact ⟨hy, Function.update_noteq (fun e => hne (hinv.fd_unique _ _ _ _ hy hx e)) _ _⟩
  refine ⟨hinv.wf.close _, fun y held hy => ?_, fun y z h₁ h₂ hy hz hfd => ?_,
    fun y held n hy hn hu => ?_, fun y z h₁ h₂ segment hy hz hs₁ hs₂ hseg₁ hseg₂ => ?_⟩
  . rw [(hfds hy).2]
    exact hinv.fd_open y held (hfds hy).1
  . exact hinv.fd_unique _ _ _ _ (hfds hy).1 (hfds hz).1 hfd
  . rw [(hfds hy).2]
    exact hinv.owner_bound y held n (hfds hy).1 hn hu
  . rw [(hfds hy).2] at hseg₁
    rw [(hfds hz).2] at hseg₂
    exact hinv.owner_unique _ _ _ _ _ (hfds hy).1 (hfds hz).1 hs₁ hs₂ hseg₁ hseg₂

theorem unlink (hinv : HoldingInv os.toKernel v) {x : ι} {held held' : Holding} {name : FileName}
    (hx : v x = some held) (hown : held.owner = some name) (hunlinked : held.unlinked = false)
    (hw : held'.Within held) (hu : held'.unlinked = true)
    : HoldingInv (os.unbind name).toKernel (Function.update v x (some held')) := by
  have hold {y h} (hy : Function.update v x (some held') y = some h)
      : ∃ g, v y = some g ∧ h.Within g ∧ (y = x ∨ h = g) := by
    rcases update_eq_some.mp hy with ⟨rfl, ⟨⟩⟩ | ⟨-, hy⟩
    . exact ⟨held, hx, hw, .inl rfl⟩
    . exact ⟨h, hy, .refl _, .inr rfl⟩
  refine ⟨hinv.wf.unbind name, fun y h hy => ?_, fun y z h₁ h₂ hy hz hfd => ?_,
    fun y h n hy hn hu' => ?_, fun y z h₁ h₂ segment hy hz hs₁ hs₂ hseg₁ hseg₂ => ?_⟩
  . obtain ⟨g, hy, hw, -⟩ := hold hy
    rw [Os.unbind, hw.1]
    exact hinv.fd_open y g hy
  . obtain ⟨g₁, hy, hw₁, -⟩ := hold hy
    obtain ⟨g₂, hz, hw₂, -⟩ := hold hz
    exact hinv.fd_unique _ _ _ _ hy hz (by rw [← hw₁.1, ← hw₂.1, hfd])
  . rcases update_eq_some.mp hy with ⟨-, ⟨⟩⟩ | ⟨hne, hy⟩
    . simp [hu] at hu'
    obtain ⟨segment, hseg, hbound⟩ := hinv.owner_bound y h n hy hn hu'
    have hname : n ≠ name := by
      rintro rfl
      obtain ⟨segment₀, hseg₀, hbound₀⟩ := hinv.owner_bound x held n hx hown hunlinked
      obtain rfl : segment₀ = segment := Option.some.inj (hbound₀.symm.trans hbound)
      exact hne (hinv.owner_unique _ _ _ _ _ hy hx (by simp [hn]) (by simp [hown]) hseg hseg₀)
    exact ⟨segment, hseg, by simpa [Os.unbind, Function.update_noteq hname] using hbound⟩
  . obtain ⟨g₁, hy, hw₁, -⟩ := hold hy
    obtain ⟨g₂, hz, hw₂, -⟩ := hold hz
    rw [Os.unbind, hw₁.1] at hseg₁
    rw [Os.unbind, hw₂.1] at hseg₂
    exact hinv.owner_unique _ _ _ _ _ hy hz (hw₁.owner_isSome hs₁) (hw₂.owner_isSome hs₂) hseg₁ hseg₂

theorem footprint (hinv : HoldingInv os.toKernel v) {os' : Os} {x : ι} {pc pc' : Pc} (hx : v x = pc.holding?)
    (hf : Pc.Footprint os pc os' pc') : HoldingInv os'.toKernel (Function.update v x pc'.holding?) := by
  cases hf with
  | create owns hname hpc hpc' =>
    rw [hpc']
    exact hinv.create (hx.trans hpc) hname owns
  | openFd hname hpc hpc' =>
    rw [hpc']
    exact hinv.openFd (hx.trans hpc) hname false nofun
  | close held hpc hpc' =>
    rw [hpc']
    exact hinv.close (hx.trans hpc)
  | unlink held held' hpc hown hunlinked hpc' hw hu =>
    rw [hpc']
    exact hinv.unlink (hx.trans hpc) hown hunlinked hw hu
  | keep ha hheld =>
    refine hinv.embed ha Function.injective_id fun y held' hy => ?_
    rcases update_eq_some.mp hy with ⟨rfl, hc⟩ | ⟨-, hy⟩
    . obtain ⟨held, h, hw⟩ := hheld held' hc
      exact ⟨held, hx.trans h, hw⟩
    . exact ⟨held', hy, .refl _⟩

end HoldingInv

end Holdings

namespace System

theorem holding_setProc_pc (s : System) (p : Nat) (pc : Pc) (sp : Space)
    : (s.setProc p { s.procs p with pc := pc, space := sp }).holding =
        Function.update s.holding (p, .pc) pc.holding? := by
  funext ⟨q, y⟩
  by_cases hq : q = p
  . subst hq
    cases y <;> simp [holding, setProc, Process.holding]
  . simp [holding, setProc, hq]

theorem holding_setProc_var (s : System) (p : Nat) (pc : Pc) (slot : Nat) (c : Option SharedMemory)
    : (s.setProc p ⟨pc, Function.update (s.procs p).handles slot c, (s.procs p).space⟩).holding =
        Function.update (Function.update s.holding (p, .pc) pc.holding?) (p, .var slot)
          (c.map SharedMemory.holding) := by
  funext ⟨q, y⟩
  by_cases hq : q = p
  . subst hq
    cases y with
    | pc => simp [holding, setProc, Process.holding]
    | var i =>
      by_cases hi : i = slot
      . subst hi
        simp [holding, setProc, Process.holding]
      . simp [holding, setProc, Process.holding, hi]
  . simp [holding, setProc, hq]

theorem holding_of_handle {s : System} {x : Nat × Slot} {shm : SharedMemory} (h : s.handle x = some shm)
    (hown : shm.hasOwnership = true)
    : ∃ held, s.holding x = some held ∧ held.fd = shm.fileDescriptor ∧ held.owner = some shm.name := by
  obtain ⟨p, _ | i⟩ := x
  . exact Pc.holding?_of_handle? h hown
  . have h : (s.procs p).handles i = some shm := h
    exact ⟨shm.holding, by simp [holding, Process.holding, h], rfl, by simp [SharedMemory.holding, hown]⟩

end System

/-- What every state reached by non-purging calls satisfies. -/
structure OwnershipInv (s : System) : Prop where
  holdings : HoldingInv s.os s.holding
  not_purging : ∀ p, (s.procs p).pc.purging = false

namespace OwnershipInv

variable {s : System} {p : Nat}

theorem init {os : Os} (hwf : os.WellFormed) : OwnershipInv (System.init os) := by
  have hnone : ∀ x held, (System.init os).holding x = some held → False := by
    rintro ⟨_, _ | _⟩ _ h <;> cases h
  exact ⟨⟨hwf, fun x _ hx => (hnone x _ hx).elim, fun x _ _ _ hx => (hnone x _ hx).elim,
    fun x _ _ hx => (hnone x _ hx).elim, fun x _ _ _ _ hx => (hnone x _ hx).elim⟩, fun _ => rfl⟩

theorem not_purging_setProc (hinv : OwnershipInv s) {pr : Process} (hpurging : pr.pc.purging = false)
    : ∀ q, ((s.setProc p pr).procs q).pc.purging = false := by
  intro q
  simp only [System.setProc, Function.update_apply]
  split
  . exact hpurging
  . exact hinv.not_purging q

theorem setPc (hinv : OwnershipInv s) {pc pc' : Pc} {os' : Os} (hpc : (s.procs p).pc = pc)
    (hpurging : pc'.purging = false) (hf : Pc.Footprint (s.osOf p) pc os' pc')
    : OwnershipInv { s.setProc p { s.procs p with pc := pc', space := os'.toSpace } with os := os'.toKernel } := by
  refine ⟨?_, hinv.not_purging_setProc hpurging⟩
  change HoldingInv os'.toKernel (s.setProc p _).holding
  rw [System.holding_setProc_pc]
  exact (hinv.holdings : HoldingInv (s.osOf p).toKernel _).footprint
    (by simp [System.holding, Process.holding, hpc]) hf

theorem setPc_none (hinv : OwnershipInv s) {pc pc' : Pc} (hpc : (s.procs p).pc = pc)
    (hpurging : pc'.purging = false) (hheld : pc'.holding? = none)
    : OwnershipInv (s.setProc p { s.procs p with pc := pc' }) :=
  hinv.setPc hpc hpurging (.keep_none .rfl hheld : Pc.Footprint (s.osOf p) pc (s.osOf p) pc')

theorem osStep (hinv : OwnershipInv s) {answer : Answer} {pc : Pc} {os : Os}
    (h : (s.procs p).pc.step (s.osOf p) answer = some (pc, os))
    : OwnershipInv { s.setProc p { s.procs p with pc := pc, space := os.toSpace } with os := os.toKernel } :=
  have ⟨hpurging, hf⟩ := Pc.step_footprint (hinv.not_purging p) h
  hinv.setPc rfl hpurging hf

theorem swap (hinv : OwnershipInv s) {pc : Pc} {slot : Nat} {c : Option SharedMemory}
    (hpurging : pc.purging = false)
    (hpc : pc.holding? = ((s.procs p).handles slot).map SharedMemory.holding)
    (hc : c.map SharedMemory.holding = (s.procs p).pc.holding?)
    : OwnershipInv (s.setProc p ⟨pc, Function.update (s.procs p).handles slot c, (s.procs p).space⟩) := by
  refine ⟨?_, hinv.not_purging_setProc hpurging⟩
  rw [System.holding_setProc_var, hpc, hc]
  exact Equiv.comp_swap_eq_update (p, .var slot) (p, .pc) s.holding ▸
    hinv.holdings.comp (Equiv.swap (p, .var slot) (p, .pc))

theorem callStep (hinv : OwnershipInv s) {call : Call} {pr : Process} (hidle : (s.procs p).pc = .idle)
    (hcall : call.NonPurging) (hstart : (s.procs p).start call = some pr) : OwnershipInv (s.setProc p pr) := by
  cases call with
  | create b =>
    cases hstart
    have hcreate : b.create = .creating b.config .createExclusive ∨
        b.create = .creating b.config .openOrCreate := by
      rcases hcall with h | h <;> simp [SharedMemoryCreationBuilder.create, h]
    rcases hcreate with h | h <;> rw [h] <;> exact hinv.setPc_none hidle rfl rfl
  | openExisting b =>
    cases hstart
    exact hinv.setPc_none hidle rfl rfl
  | releaseOwnership slot =>
    obtain ⟨shm, hshm, rfl⟩ := Option.map_eq_some'.mp hstart
    refine ⟨?_, hinv.not_purging_setProc (hinv.not_purging p)⟩
    rw [System.holding_setProc_var]
    refine hinv.holdings.embed .rfl Function.injective_id fun y held' hy => ?_
    rcases update_eq_some.mp hy with ⟨rfl, ⟨⟩⟩ | ⟨-, hy⟩
    . exact ⟨shm.holding, by simp [System.holding, Process.holding, hshm], Holding.within_of_owner_none rfl rfl⟩
    rcases update_eq_some.mp hy with ⟨rfl, hc⟩ | ⟨-, hc⟩ <;> exact ⟨held', hc, .refl _⟩
  | acquireOwnership => exact hcall.elim
  | drop slot =>
    obtain ⟨shm, hshm, rfl⟩ := Option.map_eq_some'.mp hstart
    exact hinv.swap rfl (by simp [hshm, Pc.holding?]) (by simp [hidle, Pc.holding?])
  | remove => exact hcall.elim

theorem finishStep (hinv : OwnershipInv s) {slot : Nat} {pr : Process} (h : (s.procs p).finish slot = some pr)
    : OwnershipInv (s.setProc p pr) := by
  unfold Process.finish at h
  split at h <;> cases h
  . exact hinv.swap rfl (by simp [*]; rfl) (by simp [*, Pc.holding?])
  . exact hinv.setPc_none ‹_› rfl rfl
  . exact hinv.setPc_none ‹_› rfl rfl

end OwnershipInv

theorem Reachable.ownershipInv {s : System} (hs : Reachable Call.NonPurging s) : OwnershipInv s := by
  induction hs with
  | init os hwf => exact .init hwf
  | call _ hcall hstep ih =>
    cases hstep with
    | call _ _ _ hidle hstart => exact ih.callStep hidle hcall hstart
  | os _ hstep ih =>
    cases hstep with
    | os _ _ _ _ h => exact ih.osStep h
  | finish _ hstep ih =>
    cases hstep with
    | finish _ _ _ h => exact ih.finishStep h

/--
In every state reached by any interleaving of non-purging calls of any processes, two live
handles that own their segments never refer to one segment, and a drop at its `shm_unlink` finds
the name bound to the segment of the handle's own descriptor.
-/
theorem ownership_never_duplicated {s : System} (hs : Reachable Call.NonPurging s)
    : (∀ x y shm shm' segment, s.handle x = some shm → s.handle y = some shm' →
        shm.hasOwnership = true → shm'.hasOwnership = true →
        s.os.fds shm.fileDescriptor = some segment → s.os.fds shm'.fileDescriptor = some segment → x = y) ∧
      ∀ p shm error, (s.procs p).pc = .unlinking shm error →
        ∃ segment, s.os.fds shm.fileDescriptor = some segment ∧ s.os.names shm.name = some segment := by
  have hinv := hs.ownershipInv.holdings
  refine ⟨fun x y shm shm' segment hx hy hown hown' hseg hseg' => ?_, fun p shm error hpc => ?_⟩
  . obtain ⟨held, hheld, hfd, howner⟩ := System.holding_of_handle hx hown
    obtain ⟨held', hheld', hfd', howner'⟩ := System.holding_of_handle hy hown'
    exact hinv.owner_unique x y held held' segment hheld hheld' (by simp [howner]) (by simp [howner'])
      (hfd ▸ hseg) (hfd' ▸ hseg')
  . exact hinv.owner_bound (p, .pc) ⟨shm.fileDescriptor, some shm.name, false⟩ shm.name
      (by simp [System.holding, Process.holding, hpc, Pc.holding?]) rfl rfl

/--
Process 0 creates 8 bytes under the name "a" with CreateExclusive and keeps the handle in its
variable 0: no other live handle owns that segment.
-/
theorem ownership_never_duplicated_after_create
    : ∃ s shm segment, Reachable Call.NonPurging s ∧ (s.procs 0).handles 0 = some shm ∧
        shm.hasOwnership = true ∧ s.os.fds shm.fileDescriptor = some segment ∧
        ∀ y shm', s.handle y = some shm' → shm'.hasOwnership = true →
          s.os.fds shm'.fileDescriptor = some segment → y = (0, .var 0) := by
  have hs : Reachable Call.NonPurging _ := .finish (.os (.os (.os (.os (.os (.call (.init _ (Os.wellFormed_empty true))
    (by exact .inl rfl) (Step.call _ 0
      (.create (((SharedMemoryBuilder.new [97]).setCreationMode .createExclusive).setSize 8)) _ rfl rfl))
    (Step.os _ 0 .succeed _ _ rfl)) (Step.os _ 0 (.succeedAt 4096) _ _ rfl))
    (Step.os _ 0 .succeed _ _ rfl)) (Step.os _ 0 .succeed _ _ rfl)) (Step.os _ 0 .succeed _ _ rfl))
    (Step.finish _ 0 0 _ rfl)
  exact ⟨_, _, 0, hs, rfl, rfl, rfl, fun y shm' hy hown hseg =>
    (ownership_never_duplicated hs).1 y (0, .var 0) shm' _ 0 hy rfl hown rfl hseg rfl⟩

end Elkodon
