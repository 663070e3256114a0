import Elkodon.SharedMemory.Lemmas.Mappings

/-!
The segment-length invariant over places: what each place knows of the length of its segment is
true.
-/

namespace Elkodon

section Sizes

variable {ι : Type} {os₀ os os' : Kernel} {v : ι → Option SizeView} {u : ι → Option Nat}

/--
What every place `x` knows of the length of the segment on its descriptor, `v x`, is true: a
creator's segment is empty and has no other creator, and a checked segment has the checked,
non-zero length.
-/
structure SizeInv (os : Kernel) (v : ι → Option SizeView) : Prop where
  creating : ∀ x fd, v x = some (.creating fd) → ∃ segment, os.fds fd = some segment ∧
    (os.segments segment).length = 0 ∧ ∀ y fd', v y = some (.creating fd') → os.fds fd' = some segment → y = x
  checked : ∀ x fd n, v x = some (.checked fd n) →
    0 < n ∧ ∀ segment, os.fds fd = some segment → (os.segments segment).length = n

namespace SizeInv

theorem start (hv : ∀ x, v x = none) : SizeInv os v where
  creating x _ h := by simp [hv x] at h
  checked x _ _ h := by simp [hv x] at h

theorem transfer (hinv : SizeInv os v) {v' : ι → Option SizeView} (hv : ∀ y w, v' y = some w → v y = some w)
    (hfds : ∀ y w, v' y = some w → os'.fds w.fd = os.fds w.fd)
    (hlen : ∀ y w segment, v' y = some w → os.fds w.fd = some segment →
      (os'.segments segment).length = (os.segments segment).length)
    : SizeInv os' v' where
  creating y fd hy := by
    obtain ⟨segment, hseg, hzero, hcreator⟩ := hinv.creating y fd (hv y _ hy)
    refine ⟨segment, (hfds y _ hy).trans hseg, (hlen y _ segment hy hseg).trans hzero, fun z fd' hz hz' => ?_⟩
    exact hcreator z fd' (hv z _ hz) ((hfds z _ hz).symm.trans hz')
  checked y fd n hy := by
    obtain ⟨hn, hsize⟩ := hinv.checked y fd n (hv y _ hy)
    refine ⟨hn, fun segment hseg => ?_⟩
    have hseg' : os.fds fd = some segment := (hfds y _ hy).symm.trans hseg
    rw [hlen y _ segment hy hseg', hsize segment hseg']

theorem mono (hinv : SizeInv os v) {v' : ι → Option SizeView} (hv : ∀ y w, v' y = some w → v y = some w)
    : SizeInv os v' :=
  hinv.transfer hv (fun _ _ _ => rfl) (fun _ _ _ _ _ => rfl)

theorem comp (hinv : SizeInv os v) (π : ι ≃ ι) : SizeInv os (v ∘ π) where
  creating x fd hx := by
    obtain ⟨segment, hseg, hzero, hcreator⟩ := hinv.creating (π x) fd hx
    exact ⟨segment, hseg, hzero, fun y fd' hy hy' => π.injective (hcreator (π y) fd' hy hy')⟩
  checked x := hinv.checked (π x)

variable [DecidableEq ι]

theorem addChecked (hinv : SizeInv os v) (x : ι) {fd n : Nat} (hn : 0 < n)
    (hlen : ∀ segment, os.fds fd = some segment → (os.segments segment).length = n)
    : SizeInv os (Function.update v x (some (.checked fd n))) where
  creating y fd' hy := by
    obtain ⟨-, hy⟩ := (update_eq_some.mp hy).resolve_left (by simp)
    obtain ⟨segment, hseg, hzero, hcreator⟩ := hinv.creating y fd' hy
    refine ⟨segment, hseg, hzero, fun z fd'' hz hz' => ?_⟩
    obtain ⟨-, hz⟩ := (update_eq_some.mp hz).resolve_left (by simp)
    exact hcreator z fd'' hz hz'
  checked y fd' n' hy := by
    rcases update_eq_some.mp hy with ⟨-, ⟨⟩⟩ | ⟨-, hy⟩
    . exact ⟨hn, hlen⟩
    . exact hinv.checked y fd' n' hy

theorem addCreating (hinv : SizeInv os v) (x : ι) {fd segment : Nat} (hseg : os.fds fd = some segment)
    (hzero : (os.segments segment).length = 0)
    (hfresh : ∀ y fd', v y = some (.creating fd') → os.fds fd' ≠ some segment)
    : SizeInv os (Function.update v x (some (.creating fd))) where
  creating y fd' hy := by
    rcases update_eq_some.mp hy with ⟨rfl, ⟨⟩⟩ | ⟨-, hy⟩
    . refine ⟨segment, hseg, hzero, fun z fd'' hz hz' => ?_⟩
      rcases update_eq_some.mp hz with ⟨rfl, -⟩ | ⟨-, hz⟩
      . rfl
      . exact absurd hz' (hfresh z fd'' hz)
    . obtain ⟨segment', hseg', hzero', hcreator⟩ := hinv.creating y fd' hy
      refine ⟨segment', hseg', hzero', fun z fd'' hz hz' => ?_⟩
      rcases update_eq_some.mp hz with ⟨-, ⟨⟩⟩ | ⟨-, hz⟩
      . exact absurd (hseg'.trans (hz'.symm.trans hseg)) (hfresh y fd' hy)
      . exact hcreator z fd'' hz hz'
  checked y fd' n hy := by
    obtain ⟨-, hy⟩ := (update_eq_some.mp hy).resolve_left (by simp)
    exact hinv.checked y fd' n hy

theorem footprint {os os' : Os} (hinv : SizeInv os.toKernel v) (hwf : os.WellFormed) (hfd : FdInv os₀ os.toKernel u)
    (hlink : ∀ y w, v y = some w → u y = some w.fd) {x : ι} {pc pc' : Pc} (hx : v x = pc.sizeView?)
    (hux : u x = pc.fd?) (hf : Pc.FdFootprint os pc os' pc') (hs : Pc.SizeFootprint os pc os' pc')
    : SizeInv os'.toKernel (Function.update v x pc'.sizeView?) := by
  -- the descriptor of a place other than `x`, and that of `x` if it keeps its view
  have hfds {y w} (hy : v y = some w) (hne : y ≠ x ∨ pc'.sizeView? = some w) : os'.fds w.fd = os.fds w.fd :=
    hfd.fds_of_footprint hux hf (hlink y w hy) (hne.imp_right Pc.fd?_of_sizeView?)
  -- `x` forgets, and the other places keep the lengths of their segments
  have hforget (hlen : ∀ y w segment, y ≠ x → v y = some w → os.fds w.fd = some segment →
      (os'.segments segment).length = (os.segments segment).length) :
      SizeInv os'.toKernel (Function.update v x none) := by
    refine hinv.transfer (fun y w hy => ?_) (fun y w hy => ?_) (fun y w segment hy => ?_) <;>
      obtain ⟨hne, hy⟩ := (update_eq_some.mp hy).resolve_left (by simp)
    exacts [hy, hfds hy (.inl hne), hlen y w segment hne hy]
  -- no segment changes length, and `x` keeps its view or forgets
  have hkeep (hpc' : pc'.sizeView? = pc.sizeView? ∨ pc'.sizeView? = none)
      (hlen : ∀ segment, (os'.segments segment).length = (os.segments segment).length) :
      SizeInv os'.toKernel (Function.update v x pc'.sizeView?) := by
    rcases hpc' with hsame | hnone
    . rw [hsame, ← hx, Function.update_eq_self]
      refine hinv.transfer (fun _ _ => id) (fun y w hy => ?_) (fun _ _ segment _ _ => hlen segment)
      by_cases hne : y = x
      . subst hne
        exact hfds hy (.inr (hsame.trans (hx.symm.trans hy)))
      . exact hfds hy (.inl hne)
    . rw [hnone]
      exact hforget fun _ _ segment _ _ _ => hlen segment
  cases hs with
  | create name _ hpc' hos =>
    subst hos
    have hold {fd segment} (hseg : os.fds fd = some segment) : segment ≠ os.nextSegment :=
      (hwf.fds_lt fd segment hseg).ne
    have hidem : Function.update (Function.update v x none) x (some (.creating os.nextFd)) =
        Function.update v x (some (.creating os.nextFd)) := Function.update_idem _ _ _
    rw [hpc', ← hidem]
    refine (hforget fun _ _ segment _ _ hseg => ?_).addCreating x
      (by simp : (os.createSegment name).fds os.nextFd = some os.nextSegment) (by simp) fun y fd hy => ?_
    . simp [Function.update_noteq (hold hseg)]
    . obtain ⟨hne, hy⟩ := (update_eq_some.mp hy).resolve_left (by simp)
      have hkept : (os.createSegment name).fds fd = os.fds fd := hfds hy (.inl hne)
      rw [hkept]
      exact fun hseg => hold hseg rfl
  | @truncate fd segment length hpc hpc' hseg hos =>
    obtain ⟨segment₀, hseg₀, hzero, hcreator⟩ := hinv.creating x fd (hx.trans hpc)
    obtain rfl : segment₀ = segment := Option.some.inj (hseg₀.symm.trans hseg)
    rw [hpc']
    refine hforget fun y w segment' hne hy hseg' => ?_
    have hother : segment' ≠ segment₀ := by
      rintro rfl
      cases w with
      | creating fd' => exact hne (hcreator y fd' hy hseg')
      | checked fd' n =>
        obtain ⟨hn, hsize⟩ := hinv.checked y fd' n hy
        have := hsize segment' hseg'
        omega
    rw [hos]
    exact congrArg List.length (Function.update_noteq hother _ _)
  | check _ hpc' hn hlen hos =>
    subst hos
    rw [hpc']
    exact hinv.addChecked x hn hlen
  | zero segment₀ length hpc' hos =>
    refine hkeep hpc' fun segment => ?_
    rw [hos]
    by_cases h : segment = segment₀
    . subst h
      simp [Os.length_zeroPrefix]
    . simp [Function.update_noteq h]
  | keep hpc' hsegs _ => exact hkeep hpc' fun _ => by rw [hsegs]

end SizeInv

end Sizes

def Process.sizeView (pr : Process) : Slot → Option SizeView
  | .pc => pr.pc.sizeView?
  | .var i => (pr.handles i).map fun shm => .checked shm.fileDescriptor shm.size

namespace System

def sizeViewAt (s : System) (x : Nat × Slot) : Option SizeView :=
  (s.procs x.1).sizeView x.2

theorem sizeViewAt_setProc_pc (s : System) (p : Nat) (pc : Pc) (sp : Space)
    : (s.setProc p { s.procs p with pc := pc, space := sp }).sizeViewAt =
        Function.update s.sizeViewAt (p, .pc) pc.sizeView? := by
  funext ⟨q, y⟩
  by_cases hq : q = p
  . subst hq
    cases y <;> simp [sizeViewAt, setProc, Process.sizeView]
  . simp [sizeViewAt, setProc, hq]

theorem sizeViewAt_setProc_var (s : System) (p : Nat) (pc : Pc) (slot : Nat) (c : Option SharedMemory)
    : (s.setProc p ⟨pc, Function.update (s.procs p).handles slot c, (s.procs p).space⟩).sizeViewAt =
        Function.update (Function.update s.sizeViewAt (p, .pc) pc.sizeView?) (p, .var slot)
          (c.map fun shm => .checked shm.fileDescriptor shm.size) := by
  funext ⟨q, y⟩
  by_cases hq : q = p
  . subst hq
    cases y with
    | pc => simp [sizeViewAt, setProc, Process.sizeView]
    | var i =>
      by_cases hi : i = slot
      . subst hi
        simp [sizeViewAt, setProc, Process.sizeView]
      . simp [sizeViewAt, setProc, Process.sizeView, hi]
  . simp [sizeViewAt, setProc, hq]

theorem fdAt_of_sizeViewAt {s : System} {x : Nat × Slot} {w : SizeView} (h : s.sizeViewAt x = some w)
    : s.fdAt x = some w.fd := by
  obtain ⟨p, _ | i⟩ := x
  . exact Pc.fd?_of_sizeView? h
  . obtain ⟨shm, hshm, rfl⟩ := Option.map_eq_some'.mp h
    simp [fdAt, holding, Process.holding, hshm, SharedMemory.holding, SizeView.fd]

end System

end Elkodon
