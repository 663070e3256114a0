import Elkodon.PortToUds.Impl.Attach
import Elkodon.PortToUds.Lemmas.Sequential

/-!
An attaching process does not wait for the directory's initialization.
-/

namespace Elkodon

namespace Machine

theorem Steps.trans {s s' s'' : Machine} {evs evs' : List Event} (h₁ : Steps s evs s')
    (h₂ : Steps s' evs' s'') : Steps s (evs ++ evs') s'' := by
  induction h₁ with
  | refl => exact h₂
  | cons hs _ ih => exact .cons hs (ih h₂)

theorem Reachable.steps {s s' : Machine} {evs : List Event} (h : Reachable s)
    (hs : Steps s evs s') : Reachable s' := by
  induction hs with
  | refl => exact h
  | cons hs _ ih => exact ih (h.step hs)

@[simp]
theorem setProc_mapping (s : Machine) (p : Nat) (pc : AttachPc) : (s.setProc p pc).mapping = s.mapping :=
  rfl

@[simp]
theorem setProc_procs_self (s : Machine) (p : Nat) (pc : AttachPc) : (s.setProc p pc).procs p = pc := by
  simp [setProc]

@[simp]
theorem setProc_setProc (s : Machine) (p : Nat) (pc pc' : AttachPc)
    : (s.setProc p pc).setProc p pc' = s.setProc p pc' := by
  simp [setProc]

theorem Steps.initializeEntries {p : Nat} (n : Nat)
    : ∀ {s : Machine} {m : PortToUdsNameMap} {i : Nat}, s.procs p = .initializingEntry i →
        s.mapping = some m → i + n = udsNamesLen →
        Steps s (List.replicate n (.proc p))
          ({ s with mapping := some { m with
              udsNames := fun j => if i ≤ j.val then Entry.initialized else m.udsNames j } }.setProc p
            (.initializingEntry udsNamesLen)) := by
  induction n with
  | zero =>
    intro s m i hpc hm hi
    have hall : (fun j : Fin udsNamesLen => if i ≤ j.val then Entry.initialized else m.udsNames j)
        = m.udsNames := funext fun j => if_neg (by have := j.isLt; omega)
    rw [hall, ← hm, show udsNamesLen = i by omega, ← hpc]
    convert Steps.refl s
    simp [setProc]
  | succ n ih =>
    intro s m i hpc hm hi
    have hlt : i < udsNamesLen := by omega
    refine .cons (Step.initializeEntry s p hpc hlt) ?_
    have hrest := ih (s := (s.updateDirectory fun m =>
      { m with udsNames := Function.update m.udsNames ⟨i, hlt⟩ Entry.initialized }).setProc p
        (.initializingEntry (i + 1)))
      (m := { m with udsNames := Function.update m.udsNames ⟨i, hlt⟩ Entry.initialized })
      (setProc_procs_self _ _ _) (by simp [updateDirectory, hm]) (by omega)
    have hdir : (fun j : Fin udsNamesLen => if i + 1 ≤ j.val then Entry.initialized
        else Function.update m.udsNames ⟨i, hlt⟩ Entry.initialized j)
        = fun j => if i ≤ j.val then Entry.initialized else m.udsNames j := by
      funext j
      simp only [Function.update_apply, Fin.ext_iff]
      split_ifs <;> first | rfl | omega
    simp only [setProc, updateDirectory, hm, Option.map_some', Function.update_idem, hdir] at hrest ⊢
    exact hrest

/--
Process `0` creates the mapping; process `1` opens it, returns from `new()` and calls
`set(1, b"a")` while `init_check` and the entry's counter are `0`. Process `0` then runs
`initialize` alone, which stores `IS_INITIALIZED` and leaves entry `1` reading zeros: the
completed `set` is erased.
-/
theorem attacher_calls_before_initialization
    : ∃ s₁ s₂ evs s₃, Reachable s₁ ∧ Step s₁ (.call 1 (.set 1 [97])) s₂ ∧
        s₁.mapping.map PortToUdsNameMap.initCheck = some 0 ∧
        s₁.mapping.map (fun m => (m.udsNames ⟨1, by decide⟩).abaCounter) = some 0 ∧
        Steps s₂ evs s₃ ∧ (∀ ev ∈ evs, ev = .proc 0) ∧
        s₃.mapping.map PortToUdsNameMap.initCheck = some isInitialized ∧
        s₃.mapping.bind (fun m => m.get 1) = some UdsName.zero := by
  have hr₄ := (((Reachable.init.step (Step.create init 0 rfl rfl)).step (Step.attach _ 1 rfl rfl)).step
    (@Step.mapView _ 1 false rfl)).step (@Step.commit _ 1 false rfl)
  obtain ⟨m', hset⟩ : ∃ m', DirectoryCall.apply PortToUdsNameMap.zeroed (.set 1 [97]) = some m' :=
    ⟨_, PortToUdsNameMap.set_eq_some_of_lt (show (1 : UInt16).toNat < udsNamesLen by decide)
      (show ([97] : List UInt8).length ≤ maxUdsNameLen by decide)⟩
  refine ⟨_, _, _, _, hr₄, Step.call _ 1 (.set 1 [97]) rfl rfl hset, rfl, rfl,
    .cons (@Step.mapView _ 0 true rfl) (.cons (@Step.commit _ 0 true rfl)
      (.cons (@Step.loadInitCheck _ 0 m' rfl rfl) (.cons (@Step.exchangeSucceeded _ 0 m' _ rfl rfl rfl)
        ((Steps.initializeEntries (p := 0) udsNamesLen
          (m := { m' with initCheck := initializationInProgress }) (setProc_procs_self _ _ _) (by rfl)
          (by rfl)).trans
          (.cons (Step.entriesInitialized _ 0 (setProc_procs_self _ _ _))
            (.cons (Step.storeInitialized _ 0 (setProc_procs_self _ _ _)) (.refl _))))))),
    ?_, rfl, ?_⟩
  . intro ev hev
    simp only [List.mem_cons, List.mem_append, List.mem_replicate, List.mem_singleton,
      List.not_mem_nil, or_false] at hev
    tauto
  . show (Entry.initialized).get = some UdsName.zero
    rw [Entry.get_eq (e := Entry.initialized) Nat.one_pos]
    rfl

end Machine

end Elkodon
