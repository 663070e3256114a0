import Elkodon.PortToUds.Lemmas.Attach
import Mathlib.Algebra.Order.BigOperators.Group.Finset

/-!
The lifetime of the directory's mapping and its one initialization, over any interleaving of
processes.
-/

namespace Elkodon

namespace AttachPc

def references : AttachPc → Nat
  | .start | .failed | .panicked | .dropped => 0
  | .mapping _ => 1
  | .committing _ | .loadingInitCheck | .exchangingInitCheck _ | .initializingEntry _
  | .storingInitialized | .spinning | .ready => 2

def creating : AttachPc → Bool
  | .mapping created | .committing created => created
  | .loadingInitCheck | .exchangingInitCheck _ | .initializingEntry _ | .storingInitialized => true
  | _ => false

/-- What the creator at `pc` has left in `init_check`, and what its `compare_exchange` expects. -/
def InitCheckAt (initCheck : UInt64) : AttachPc → Prop
  | .mapping true | .committing true | .loadingInitCheck => initCheck = 0
  | .exchangingInitCheck current => current = 0 ∧ initCheck = 0
  | .initializingEntry _ | .storingInitialized => initCheck = initializationInProgress
  | _ => True

theorem references_pos {pc : AttachPc} (h : pc.creating = true) : 0 < pc.references := by
  cases pc <;> simp_all [creating, references]

theorem initCheckAt_of_not_creating {pc : AttachPc} (h : pc.creating = false) (initCheck : UInt64)
    : pc.InitCheckAt initCheck := by
  cases pc <;> (try cases ‹Bool›) <;> trivial

theorem InitCheckAt.ne_isInitialized {pc : AttachPc} {initCheck : UInt64} (h : pc.InitCheckAt initCheck)
    (hc : pc.creating = true) : initCheck ≠ isInitialized := by
  cases pc <;> (try cases ‹Bool›) <;> simp only [creating, InitCheckAt] at h hc <;>
    first | (rw [h]; decide) | (rw [h.2]; decide) | cases hc

end AttachPc

theorem DirectoryCall.apply_initCheck {m m' : PortToUdsNameMap} {c : DirectoryCall} (h : c.apply m = some m')
    : m'.initCheck = m.initCheck := by
  cases c with
  | set | reset =>
    simp only [DirectoryCall.apply, PortToUds.reset, PortToUds.set, PortToUdsNameMap.set, Option.bind_eq_bind,
      Option.bind_eq_some, Option.pure_def, Option.some.injEq] at h
    obtain ⟨_, _, _, _, rfl⟩ := h
    rfl
  | get | getPort =>
    simp only [DirectoryCall.apply] at h
    obtain ⟨_, _, rfl⟩ := Option.map_eq_some'.mp h
    rfl

namespace Machine

open AttachPc

variable {s : Machine}

theorem setProc_procs_of_ne (s : Machine) {p q : Nat} (pc : AttachPc) (h : q ≠ p)
    : (s.setProc p pc).procs q = s.procs q :=
  Function.update_noteq h _ _

theorem forall_setProc {P : AttachPc → Prop} {t : Machine} {p : Nat} {pc : AttachPc} (hpc : P pc)
    (h : ∀ q, q ≠ p → P (t.procs q)) (q : Nat) : P ((t.setProc p pc).procs q) := by
  by_cases hq : q = p
  . rw [hq, setProc_procs_self]
    exact hpc
  . rw [setProc_procs_of_ne _ _ hq]
    exact h q hq

theorem eq_of_creating_setProc {t : Machine} {p q : Nat} {pc : AttachPc}
    (h : ∀ q, q ≠ p → (t.procs q).creating = false) (hq : ((t.setProc p pc).procs q).creating = true) : q = p :=
  Decidable.byContradiction fun hqp => by rw [setProc_procs_of_ne _ _ hqp, h q hqp] at hq; cases hq

@[simp]
theorem setProc_references (s : Machine) (p : Nat) (pc : AttachPc) : (s.setProc p pc).references = s.references :=
  rfl

@[simp]
theorem close_procs (s : Machine) (n : Nat) : (s.close n).procs = s.procs :=
  rfl

@[simp]
theorem close_references (s : Machine) (n : Nat) : (s.close n).references = s.references - n :=
  rfl

theorem close_mapping (s : Machine) (n : Nat)
    : (s.close n).mapping = if s.references - n = 0 then none else s.mapping :=
  rfl

@[simp]
theorem updateDirectory_procs (s : Machine) (f : PortToUdsNameMap → PortToUdsNameMap)
    : (s.updateDirectory f).procs = s.procs :=
  rfl

@[simp]
theorem updateDirectory_references (s : Machine) (f : PortToUdsNameMap → PortToUdsNameMap)
    : (s.updateDirectory f).references = s.references :=
  rfl

theorem updateDirectory_mapping (s : Machine) (f : PortToUdsNameMap → PortToUdsNameMap)
    : (s.updateDirectory f).mapping = s.mapping.map f :=
  rfl

/-- The machine counts the handles and views its processes hold; only finitely many have started. -/
def Counted (s : Machine) : Prop :=
  ∃ n, (∀ p, n ≤ p → s.procs p = .start) ∧ s.references = ∑ p ∈ Finset.range n, (s.procs p).references

theorem sum_range_of_start {f : Nat → AttachPc} {n n' : Nat} (hstart : ∀ p, n ≤ p → f p = .start)
    (h : n ≤ n') : ∑ p ∈ Finset.range n', (f p).references = ∑ p ∈ Finset.range n, (f p).references :=
  (Finset.sum_subset (Finset.range_subset.mpr h) fun p _ hp => by
    rw [hstart p (by simpa using hp)]; rfl).symm

theorem Counted.references_le (h : s.Counted) (p : Nat) : (s.procs p).references ≤ s.references := by
  obtain ⟨n, hstart, hsum⟩ := h
  by_cases hp : p < n
  . rw [hsum]
    exact Finset.single_le_sum (f := fun q => (s.procs q).references) (fun _ _ => Nat.zero_le _)
      (Finset.mem_range.mpr hp)
  . rw [hstart p (by omega)]
    exact Nat.zero_le _

theorem Counted.references_pos_iff (h : s.Counted) : 0 < s.references ↔ ∃ p, 0 < (s.procs p).references := by
  refine ⟨fun hpos => ?_, fun ⟨p, hp⟩ => Nat.lt_of_lt_of_le hp (h.references_le p)⟩
  obtain ⟨n, -, hsum⟩ := h
  rw [hsum] at hpos
  obtain ⟨p, -, hp⟩ := Finset.exists_lt_of_sum_lt (show ∑ p ∈ Finset.range n, 0 < _ by simpa using hpos)
  exact ⟨p, hp⟩

theorem Counted.setProc (h : s.Counted) {t : Machine} (hprocs : t.procs = s.procs) {p : Nat} {pc : AttachPc}
    (hcount : t.references + (s.procs p).references = s.references + pc.references)
    : (t.setProc p pc).Counted := by
  obtain ⟨n, hstart, hsum⟩ := h
  have hmem : p ∈ Finset.range (max n (p + 1)) := Finset.mem_range.mpr (by omega)
  refine ⟨max n (p + 1), fun q hq => ?_, ?_⟩
  . rw [setProc_procs_of_ne _ _ (by omega), hprocs]
    exact hstart q (by omega)
  . have hrest : ∑ q ∈ (Finset.range (max n (p + 1))).erase p, ((t.setProc p pc).procs q).references =
        ∑ q ∈ (Finset.range (max n (p + 1))).erase p, (s.procs q).references :=
      Finset.sum_congr rfl fun q hq => by rw [setProc_procs_of_ne _ _ (Finset.ne_of_mem_erase hq), hprocs]
    have hold : (s.procs p).references +
        ∑ q ∈ (Finset.range (max n (p + 1))).erase p, (s.procs q).references = s.references := by
      rw [Finset.add_sum_erase _ (fun q => (s.procs q).references) hmem,
        sum_range_of_start hstart (Nat.le_max_left _ _), hsum]
    rw [← Finset.add_sum_erase _ _ hmem, hrest, setProc_procs_self]
    show t.references = _
    omega

/-- What every reachable state of the attach protocol satisfies. -/
structure AttachInv (s : Machine) : Prop where
  counted : s.Counted
  mapping_isSome : s.mapping.isSome = true ↔ 0 < s.references
  creator_unique : ∀ p q, (s.procs p).creating = true → (s.procs q).creating = true → p = q
  initCheck_at : ∀ m, s.mapping = some m → ∀ p, (s.procs p).InitCheckAt m.initCheck
  initCheck_settled : ∀ m, s.mapping = some m → (∀ p, (s.procs p).creating = false) →
    m.initCheck = 0 ∨ m.initCheck = isInitialized
  not_spinning : ∀ p, s.procs p ≠ .spinning

theorem attachInv_init : AttachInv init where
  counted := ⟨0, fun _ _ => rfl, rfl⟩
  mapping_isSome := by decide
  creator_unique _ _ h := by cases h
  initCheck_at _ h := by cases h
  initCheck_settled _ h := by cases h
  not_spinning _ h := by cases h

theorem AttachInv.mapping_isSome_of_pos (hinv : AttachInv s) {p : Nat} (hp : 0 < (s.procs p).references)
    : s.mapping.isSome = true :=
  hinv.mapping_isSome.mpr (Nat.lt_of_lt_of_le hp (hinv.counted.references_le p))

theorem AttachInv.setProc (hinv : AttachInv s) {t : Machine} (hmapping : t.mapping = s.mapping)
    (hprocs : t.procs = s.procs) {p : Nat} {pc : AttachPc}
    (hcount : t.references + (s.procs p).references = s.references + pc.references)
    (hgrow : (s.procs p).references ≤ pc.references)
    (hsome : (s.procs p).references < pc.references → s.mapping.isSome = true)
    (hcreating : pc.creating = (s.procs p).creating)
    (hinit : ∀ m, s.mapping = some m → (s.procs p).InitCheckAt m.initCheck → pc.InitCheckAt m.initCheck)
    (hspin : pc ≠ .spinning) : AttachInv (t.setProc p pc) := by
  have hcreating' : ∀ q, ((t.setProc p pc).procs q).creating = (s.procs q).creating := fun q => by
    by_cases hq : q = p
    . rw [hq, setProc_procs_self, hcreating]
    . rw [setProc_procs_of_ne _ _ hq, hprocs]
  refine ⟨hinv.counted.setProc hprocs hcount, ?_, fun q r hq hr => ?_, fun m hm q => ?_, fun m hm hnone => ?_,
    fun q => ?_⟩
  . rw [setProc_mapping, hmapping, hinv.mapping_isSome, setProc_references]
    by_cases hlt : (s.procs p).references < pc.references
    . have := hinv.mapping_isSome.mp (hsome hlt)
      constructor <;> intro <;> omega
    . constructor <;> intro <;> omega
  . rw [hcreating'] at hq hr
    exact hinv.creator_unique q r hq hr
  . rw [setProc_mapping, hmapping] at hm
    exact forall_setProc (hinit m hm (hinv.initCheck_at m hm p)) (fun q _ => hprocs ▸ hinv.initCheck_at m hm q) q
  . rw [setProc_mapping, hmapping] at hm
    exact hinv.initCheck_settled m hm fun q => (hcreating' q).symm.trans (hnone q)
  . exact forall_setProc (P := (· ≠ .spinning)) hspin (fun q _ => hprocs ▸ hinv.not_spinning q) q

theorem AttachInv.move (hinv : AttachInv s) {p : Nat} {pc : AttachPc}
    (hrefs : pc.references = (s.procs p).references) (hcreating : pc.creating = (s.procs p).creating)
    (hinit : ∀ m, s.mapping = some m → (s.procs p).InitCheckAt m.initCheck → pc.InitCheckAt m.initCheck)
    (hspin : pc ≠ .spinning) : AttachInv (s.setProc p pc) :=
  hinv.setProc rfl rfl (by rw [hrefs]) (Nat.le_of_eq hrefs.symm) (fun h => absurd hrefs (Nat.ne_of_gt h)) hcreating
    hinit hspin

theorem AttachInv.acquire (hinv : AttachInv s) (hsome : s.mapping.isSome = true) {p : Nat} {pc : AttachPc}
    (hrefs : pc.references = (s.procs p).references + 1) (hcreating : pc.creating = (s.procs p).creating)
    (hinit : ∀ m, s.mapping = some m → (s.procs p).InitCheckAt m.initCheck → pc.InitCheckAt m.initCheck)
    (hspin : pc ≠ .spinning) : AttachInv ({ s with references := s.references + 1 }.setProc p pc) :=
  hinv.setProc (t := { s with references := s.references + 1 }) rfl rfl (by rw [hrefs]; exact Nat.add_right_comm _ _ _)
    (by omega)
    (fun _ => hsome) hcreating hinit hspin

theorem AttachInv.initCheck_zero (hinv : AttachInv s) {p : Nat} {created : Bool}
    (hpc : s.procs p = .mapping created ∨ s.procs p = .committing created)
    : (s.procs p).creating = true → ∀ m, s.mapping = some m → m.initCheck = 0 := by
  intro hc m hm
  have hat := hinv.initCheck_at m hm p
  rcases hpc with hpc | hpc <;> rw [hpc] at hat hc <;> cases hc <;> exact hat

theorem AttachInv.release (hinv : AttachInv s) {p k : Nat} (hk : (s.procs p).references = k) {pc : AttachPc}
    (hpc : pc.references = 0) (hspin : pc ≠ .spinning)
    (hinit : (s.procs p).creating = true → ∀ m, s.mapping = some m → m.initCheck = 0)
    : AttachInv ((s.close k).setProc p pc) := by
  have hle := hinv.counted.references_le p
  have hnotc : pc.creating = false := Bool.eq_false_iff.mpr fun h => absurd hpc (references_pos h).ne'
  have hprocs' : ∀ q, q ≠ p → ((s.close k).setProc p pc).procs q = s.procs q := fun q hq => by
    rw [setProc_procs_of_ne _ _ hq]
    rfl
  have hmapping : ∀ m, ((s.close k).setProc p pc).mapping = some m → s.mapping = some m := fun m hm => by
    simp only [setProc_mapping, close] at hm
    split at hm
    . cases hm
    . exact hm
  refine ⟨hinv.counted.setProc (t := s.close k) rfl (by rw [close_references, hpc, hk]; omega), ?_, fun q r hq hr => ?_, fun m hm q => ?_,
    fun m hm hnone => ?_, fun q => ?_⟩
  . rw [setProc_mapping, setProc_references, close_mapping, close_references]
    split <;> rename_i h
    . simp [h]
    . exact ⟨fun _ => by omega, fun _ => hinv.mapping_isSome.mpr (by omega)⟩
  . have hqp : q ≠ p := fun h => by rw [h, setProc_procs_self, hnotc] at hq; cases hq
    have hrp : r ≠ p := fun h => by rw [h, setProc_procs_self, hnotc] at hr; cases hr
    rw [hprocs' q hqp] at hq
    rw [hprocs' r hrp] at hr
    exact hinv.creator_unique q r hq hr
  . exact forall_setProc (initCheckAt_of_not_creating hnotc _) (fun q _ => hinv.initCheck_at m (hmapping m hm) q) q
  . cases hc : (s.procs p).creating
    . refine hinv.initCheck_settled m (hmapping m hm) fun q => ?_
      by_cases hq : q = p
      . rw [hq, hc]
      . rw [← hprocs' q hq]
        exact hnone q
    . exact .inl (hinit hc m (hmapping m hm))
  . exact forall_setProc (P := (· ≠ .spinning)) hspin (fun q _ => hinv.not_spinning q) q

theorem AttachInv.initialize (hinv : AttachInv s) {p : Nat} (hp : (s.procs p).creating = true)
    {f : PortToUdsNameMap → PortToUdsNameMap} {pc : AttachPc} (hrefs : pc.references = (s.procs p).references)
    (hspin : pc ≠ .spinning)
    (hinit : ∀ m, s.mapping = some m →
      pc.creating = true ∧ pc.InitCheckAt (f m).initCheck ∨ pc.creating = false ∧ (f m).initCheck = isInitialized)
    : AttachInv ((s.updateDirectory f).setProc p pc) := by
  have hsome := hinv.mapping_isSome_of_pos (references_pos hp)
  obtain ⟨m, hm⟩ := Option.isSome_iff_exists.mp hsome
  have hothers : ∀ q, q ≠ p → (s.procs q).creating = false := fun q hq =>
    Bool.eq_false_iff.mpr fun hc => hq (hinv.creator_unique q p hc hp)
  have hmapping : ((s.updateDirectory f).setProc p pc).mapping = some (f m) := by
    rw [setProc_mapping, updateDirectory_mapping, hm]
    rfl
  refine ⟨hinv.counted.setProc rfl (by rw [hrefs]), ?_, fun q r hq hr => ?_, fun m' hm' q => ?_,
    fun m' hm' hnone => ?_, fun q => ?_⟩
  . rw [hmapping, setProc_references, updateDirectory_references, ← hinv.mapping_isSome, hm]
    rfl
  . exact (eq_of_creating_setProc hothers hq).trans (eq_of_creating_setProc hothers hr).symm
  . obtain rfl : f m = m' := Option.some.inj (hmapping.symm.trans hm')
    refine forall_setProc ?_ (fun q hq => initCheckAt_of_not_creating (hothers q hq) _) q
    rcases hinit m hm with ⟨-, h⟩ | ⟨hnc, -⟩
    . exact h
    . exact initCheckAt_of_not_creating hnc _
  . obtain rfl : f m = m' := Option.some.inj (hmapping.symm.trans hm')
    have hnc := hnone p
    rw [setProc_procs_self] at hnc
    rcases hinit m hm with ⟨hc, -⟩ | ⟨-, h⟩
    . rw [hnc] at hc; cases hc
    . exact .inr h
  . exact forall_setProc (P := (· ≠ .spinning)) hspin (fun q _ => hinv.not_spinning q) q

theorem AttachInv.create (hinv : AttachInv s) {p : Nat} (hpc : s.procs p = .start) (hnone : s.mapping = none)
    : AttachInv ({ s with mapping := some PortToUdsNameMap.zeroed, references := 1 }.setProc p (.mapping true)) := by
  have hzero : s.references = 0 := by
    have := hinv.mapping_isSome
    simp_all
  have hidle : ∀ q, (s.procs q).creating = false := fun q => Bool.eq_false_iff.mpr fun hc =>
    absurd (hinv.counted.references_le q) (by have := references_pos hc; omega)
  refine ⟨hinv.counted.setProc (t := { s with mapping := some PortToUdsNameMap.zeroed, references := 1 }) rfl
    (by rw [hpc, hzero]; rfl), ⟨fun _ => Nat.one_pos, fun _ => rfl⟩, fun q r hq hr => ?_,
    fun m hm q => ?_, fun m hm hnone' => ?_, fun q => ?_⟩
  . exact (eq_of_creating_setProc (fun q _ => hidle q) hq).trans (eq_of_creating_setProc (fun q _ => hidle q) hr).symm
  . obtain rfl : PortToUdsNameMap.zeroed = m := Option.some.inj hm
    exact forall_setProc (show InitCheckAt 0 (.mapping true) from rfl)
      (fun q _ => initCheckAt_of_not_creating (hidle q) _) q
  . have := hnone' p
    rw [setProc_procs_self] at this
    cases this
  . exact forall_setProc (P := (· ≠ .spinning)) (by nofun) (fun q _ => hinv.not_spinning q) q

theorem AttachInv.call (hinv : AttachInv s) {m' : PortToUdsNameMap} (hm : ∀ m, s.mapping = some m → m'.initCheck = m.initCheck)
    (hsome : s.mapping.isSome = true) : AttachInv { s with mapping := some m' } := by
  obtain ⟨m, hmap⟩ := Option.isSome_iff_exists.mp hsome
  refine ⟨hinv.counted, ?_, hinv.creator_unique, fun m'' hm'' => ?_, fun m'' hm'' hnone => ?_, hinv.not_spinning⟩
  . rw [← hinv.mapping_isSome, hmap]
    rfl
  . obtain rfl : m' = m'' := Option.some.inj hm''
    rw [hm m hmap]
    exact hinv.initCheck_at m hmap
  . obtain rfl : m' = m'' := Option.some.inj hm''
    rw [hm m hmap]
    exact hinv.initCheck_settled m hmap hnone

theorem AttachInv.step (hinv : AttachInv s) {ev : Event} {s' : Machine} (h : Step s ev s') : AttachInv s' := by
  cases h with
  | create p hpc hnone => exact hinv.create hpc hnone
  | attach p hpc hsome =>
    exact hinv.acquire hsome (by rw [hpc]; rfl) (by rw [hpc]; rfl) (fun _ _ _ => by trivial) (by nofun)
  | createFailed p hpc =>
    exact hinv.move (by rw [hpc]; rfl) (by rw [hpc]; rfl) (fun _ _ _ => by trivial) (by nofun)
  | @mapView p created hpc =>
    exact hinv.acquire (hinv.mapping_isSome_of_pos (by rw [hpc]; exact Nat.one_pos)) (by rw [hpc]; rfl)
      (by rw [hpc]; rfl) (fun _ _ h => by rw [hpc] at h; cases created <;> exact h) (by nofun)
  | @mapViewFailed p created hpc =>
    exact hinv.release (by rw [hpc]; rfl) rfl (by nofun) (hinv.initCheck_zero (.inl hpc))
  | @commit p created hpc =>
    cases created <;>
      exact hinv.move (by rw [hpc]; rfl) (by rw [hpc]; rfl) (fun _ _ h => by rw [hpc] at h; exact h) (by nofun)
  | @commitFailed p created hpc =>
    exact hinv.release (by rw [hpc]; rfl) rfl (by nofun) (hinv.initCheck_zero (.inr hpc))
  | @loadInitCheck p m hpc hm =>
    exact hinv.move (by rw [hpc]; rfl) (by rw [hpc]; rfl) (fun m' hm' h => by
      obtain rfl : m = m' := Option.some.inj (hm.symm.trans hm')
      rw [hpc] at h
      exact ⟨h, h⟩) (by nofun)
  | @exchangeSucceeded p m current hpc hm heq =>
    exact hinv.initialize (by rw [hpc]; rfl) (by rw [hpc]; rfl) (by nofun) fun _ _ => .inl ⟨rfl, rfl⟩
  | @exchangeFailed p m current hpc hm hne =>
    have hcas := hinv.initCheck_at m hm p
    rw [hpc] at hcas
    exact absurd (hcas.2.trans hcas.1.symm) hne
  | @initializeEntry p i hpc hi =>
    exact hinv.initialize (by rw [hpc]; rfl) (by rw [hpc]; rfl) (by nofun) fun m hm => .inl ⟨rfl, by
      have := hinv.initCheck_at m hm p
      rw [hpc] at this
      exact this⟩
  | entriesInitialized p hpc =>
    exact hinv.move (by rw [hpc]; rfl) (by rw [hpc]; rfl) (fun _ _ h => by rw [hpc] at h; exact h) (by nofun)
  | storeInitialized p hpc =>
    exact hinv.initialize (by rw [hpc]; rfl) (by rw [hpc]; rfl) (by nofun) fun _ _ => .inr ⟨rfl, rfl⟩
  | spinDone p hpc => exact absurd hpc (hinv.not_spinning p)
  | @call p c m m' hpc hm happ =>
    exact hinv.call (fun m₀ hm₀ => by
      obtain rfl : m = m₀ := Option.some.inj (hm.symm.trans hm₀)
      exact DirectoryCall.apply_initCheck happ) (by rw [hm]; rfl)
  | @callPanicked p c m hpc hm happ =>
    exact hinv.release (by rw [hpc]; rfl) rfl (by nofun) fun hc => by rw [hpc] at hc; cases hc
  | drop p hpc =>
    exact hinv.release (by rw [hpc]; rfl) rfl (by nofun) fun hc => by rw [hpc] at hc; cases hc

theorem Reachable.attachInv {s : Machine} (hs : Reachable s) : AttachInv s := by
  induction hs with
  | init => exact attachInv_init
  | step _ hstep ih => exact ih.step hstep

/--
Over any interleaving, the mapping exists exactly while some process holds a handle or a view of
it: no way out of `new()`, no panic and no drop leaves one open, and no process that holds one
finds the mapping gone.
-/
theorem directory_lives_while_held {s : Machine} (hs : Reachable s)
    : s.mapping.isSome = true ↔ ∃ p, 0 < (s.procs p).references := by
  have hinv := hs.attachInv
  rw [hinv.mapping_isSome, hinv.counted.references_pos_iff]

/-- The machine once process `0` has created the mapping. -/
def created : Machine :=
  { init with mapping := some PortToUdsNameMap.zeroed, references := 1 }.setProc 0 (.mapping true)

theorem directory_lives_while_held_created
    : Reachable created ∧ (created.mapping.isSome = true ↔ ∃ p, 0 < (created.procs p).references) :=
  have hs : Reachable created := Reachable.init.step (Step.create init 0 rfl rfl)
  ⟨hs, directory_lives_while_held hs⟩

/--
Over any interleaving, at most one process is between creating the mapping and returning from
`new()`, so `initialize` never runs twice at once. Its `compare_exchange` finds the value it
loaded, so no process ever spins in the `Err` branch, and no process initializes, and so wipes, a
directory whose `init_check` is `IS_INITIALIZED`.
-/
theorem directory_initialized_once {s : Machine} (hs : Reachable s)
    : (∀ p q, (s.procs p).creating = true → (s.procs q).creating = true → p = q) ∧
      (∀ p current, s.procs p = .exchangingInitCheck current →
        s.mapping.map PortToUdsNameMap.initCheck = some current) ∧
      (∀ p, s.procs p ≠ .spinning) ∧
      ∀ m, s.mapping = some m → ∀ p, (s.procs p).creating = true → m.initCheck ≠ isInitialized := by
  have hinv := hs.attachInv
  refine ⟨hinv.creator_unique, fun p current hp => ?_, hinv.not_spinning,
    fun m hm p hp => (hinv.initCheck_at m hm p).ne_isInitialized hp⟩
  obtain ⟨m, hm⟩ := Option.isSome_iff_exists.mp (hinv.mapping_isSome_of_pos (by rw [hp]; exact Nat.two_pos))
  have hcas := hinv.initCheck_at m hm p
  rw [hp] at hcas
  rw [hm, Option.map_some', hcas.2, hcas.1]

theorem directory_initialized_once_created
    : Reachable created ∧
      (∀ p q, (created.procs p).creating = true → (created.procs q).creating = true → p = q) ∧
      (∀ p current, created.procs p = .exchangingInitCheck current →
        created.mapping.map PortToUdsNameMap.initCheck = some current) ∧
      (∀ p, created.procs p ≠ .spinning) ∧
      ∀ m, created.mapping = some m → ∀ p, (created.procs p).creating = true → m.initCheck ≠ isInitialized :=
  have hs : Reachable created := Reachable.init.step (Step.create init 0 rfl rfl)
  ⟨hs, directory_initialized_once hs⟩

end Machine

end Elkodon
