import Elkodon.SharedMemory.Lemmas.Holds

/-!
One call of `open_existing` running alone, stage by stage.
-/

namespace Elkodon

namespace Pc

section Open

variable (b₀ : SharedMemoryBuilder) (os₀ : Os)

/--
The postcondition of a successful open: the handle does not own the segment, and its size is
the length of its mapping and the size of the segment bound to the name.
-/
def OpenPost (os : Os) (shm : SharedMemory) : Prop :=
  shm.hasOwnership = false ∧ shm.name = b₀.name ∧
    (∀ a, b₀.enforceBaseAddress = some a → shm.baseAddress = a) ∧
    ∃ segment, os₀.names b₀.name = some segment ∧ os.fds shm.fileDescriptor = some segment ∧
      os.mappings shm.baseAddress = some (segment, shm.size) ∧ (os.segments segment).length = shm.size

/-- What holds at each stage of `open_existing` started from `b₀` on `os₀`. -/
def OpenInv : Pc → Os → Prop
  | .opening b, os => b = b₀ ∧ os = os₀
  | .statingOpen b fd, os =>
    b = b₀ ∧ os.names = os₀.names ∧ os₀.Holds os (some fd) none none ∧
      ∃ segment, os₀.names b₀.name = some segment ∧ os.fds fd = some segment
  | .mappingOpen b fd, os =>
    b = { b₀ with size := b.size } ∧ os.names = os₀.names ∧ os₀.Holds os (some fd) none none ∧
      ∃ segment, os₀.names b₀.name = some segment ∧ os.fds fd = some segment ∧
        (os.segments segment).length = b.size
  | .closingFd fd error, os =>
    os.names = os₀.names ∧
      ∃ leak : Option UInt64, (leak.isSome → error = .unableToMapAtEnforcedBaseAddress) ∧
        os₀.Holds os (some fd) leak none
  | .returned (.error error), os =>
    os.names = os₀.names ∧
      ∃ leak : Option UInt64, (leak.isSome → error = .unableToMapAtEnforcedBaseAddress) ∧
        os₀.Holds os none leak none
  | .returned (.ok shm), os => OpenPost b₀ os₀ os shm
  | _, _ => False

variable {b₀ os₀} {os os' : Os} {pc' : Pc} {answer : Answer}

theorem openInv_opening (hwf₀ : os₀.WellFormed) {b : SharedMemoryBuilder}
    (hinv : OpenInv b₀ os₀ (.opening b) os) (h : step os (.opening b) answer = some (pc', os'))
    : OpenInv b₀ os₀ pc' os' := by
  obtain ⟨rfl, rfl⟩ := hinv
  rcases step_opening h with ⟨error, rfl, rfl⟩ | ⟨segment, hname, rfl, rfl⟩
  . exact ⟨rfl, none, by simp, .refl _⟩
  . exact ⟨rfl, rfl, (Os.Holds.refl _).addFd hwf₀ le_rfl rfl rfl, segment, hname, by simp⟩

theorem openInv_statingOpen {b : SharedMemoryBuilder} {fd : Nat}
    (hinv : OpenInv b₀ os₀ (.statingOpen b fd) os) (h : step os (.statingOpen b fd) answer = some (pc', os'))
    : OpenInv b₀ os₀ pc' os' := by
  obtain ⟨rfl, hnames, hholds, segment, hname, hfd⟩ := hinv
  obtain ⟨rfl, ⟨errno, rfl⟩ | ⟨segment', hfd', rfl⟩⟩ := step_statingOpen h
  . exact ⟨hnames, none, by simp, hholds⟩
  . obtain rfl : segment = segment' := Option.some.inj (hfd.symm.trans hfd')
    exact ⟨rfl, hnames, hholds, segment, hname, hfd, rfl⟩

theorem openInv_mappingOpen {b : SharedMemoryBuilder} {fd : Nat}
    (hinv : OpenInv b₀ os₀ (.mappingOpen b fd) os)
    (h : step os (.mappingOpen b fd) answer = some (pc', os'))
    : OpenInv b₀ os₀ pc' os' := by
  obtain ⟨hb, hnames, hholds, segment, hname, hfd, hlength⟩ := hinv
  rcases step_mappingOpen h with ⟨errno, rfl, rfl⟩ |
    ⟨address, segment', hfd', -, -, hfree, rfl, ⟨-, rfl⟩ | ⟨hmismatch, rfl⟩⟩
  . exact ⟨hnames, none, by simp, hholds⟩
  . exact ⟨hnames, some address, fun _ => rfl, hholds.mapAt hfree segment' b.size⟩
  . obtain rfl : segment = segment' := Option.some.inj (hfd.symm.trans hfd')
    have hname' : b.name = b₀.name := by rw [hb]
    have henforce : b.enforceBaseAddress = b₀.enforceBaseAddress := by rw [hb]
    exact ⟨rfl, hname', fun a ha => b.baseAddressMismatch_eq_false hmismatch a (henforce ▸ ha),
      segment, hname, hfd, by simp [SharedMemoryBuilder.handle], hlength⟩

theorem openInv_closingFd {fd : Nat} {error : SharedMemoryCreationError}
    (hinv : OpenInv b₀ os₀ (.closingFd fd error) os)
    (h : step os (.closingFd fd error) answer = some (pc', os'))
    : OpenInv b₀ os₀ pc' os' := by
  obtain ⟨hnames, leak, hleak, hholds⟩ := hinv
  obtain ⟨rfl, rfl⟩ := step_closingFd h
  exact ⟨hnames, leak, hleak, hholds.close⟩

theorem OpenInv.step (hwf₀ : os₀.WellFormed) {pc : Pc} (hinv : OpenInv b₀ os₀ pc os)
    (h : step os pc answer = some (pc', os')) : OpenInv b₀ os₀ pc' os' := by
  cases pc with
  | opening => exact openInv_opening hwf₀ hinv h
  | statingOpen => exact openInv_statingOpen hinv h
  | mappingOpen => exact openInv_mappingOpen hinv h
  | closingFd => exact openInv_closingFd hinv h
  | returned => cases answer <;> simp [Pc.step] at h
  | _ => exact hinv.elim

theorem OpenInv.run (hwf₀ : os₀.WellFormed) {pc pc' : Pc} (hrun : Run pc os pc' os')
    (hinv : OpenInv b₀ os₀ pc os) : OpenInv b₀ os₀ pc' os' := by
  induction hrun with
  | refl => exact hinv
  | step _ hstep _ ih => exact ih (hinv.step hwf₀ hstep)

end Open

end Pc

end Elkodon
