import Elkodon.SharedMemory.Lemmas.Create
import Elkodon.SharedMemory.Lemmas.Open

/-!
What one call of the builder leaves behind, on `Ok` and on `Err`.
-/

namespace Elkodon

namespace Pc

theorem Run.eq_of_stuck {pc pc' : Pc} {os os' : Os} (hrun : Run pc os pc' os')
    (hstuck : ∀ answer, Pc.step os pc answer = none) : pc' = pc := by
  cases hrun with
  | refl => rfl
  | step answer h _ => simp [hstuck answer] at h

theorem Run.create_creating {b : SharedMemoryCreationBuilder} {pc : Pc} {os₀ os : Os}
    (hrun : Run b.create os₀ pc os) (hpc : pc ≠ .panicked)
    : ∃ mode, b.config.creationMode = some mode ∧ Run (.creating b.config mode) os₀ pc os := by
  unfold SharedMemoryCreationBuilder.create at hrun
  split at hrun
  . exact ⟨_, ‹_›, hrun⟩
  . exact absurd (hrun.eq_of_stuck fun answer => by cases answer <;> rfl) hpc

end Pc

open Pc

/--
A successful `create` returns a handle of the configured size, which is the length of its
mapping (the length its drop unmaps) and the size of its segment; at the enforced base address;
owning its segment iff ownership was configured and the call created the segment; and over
zeros when it created the segment with `zero_memory`. A successful `open_existing` returns a
handle that does not own the segment, over a mapping of the whole segment bound to the name.
-/
theorem create_open_postconditions
    : (∀ (b : SharedMemoryCreationBuilder) (os₀ os : Os) (shm : SharedMemory), os₀.WellFormed →
        Run b.create os₀ (.returned (.ok shm)) os → CreatePost b.config os₀ os shm) ∧
      (∀ (b : SharedMemoryBuilder) (os₀ os : Os) (shm : SharedMemory), os₀.WellFormed →
        Run b.openExisting os₀ (.returned (.ok shm)) os → OpenPost b os₀ os shm) := by
  refine ⟨fun b os₀ os shm hwf₀ hrun => ?_, fun b os₀ os shm hwf₀ hrun => ?_⟩
  . obtain ⟨mode, -, hrun⟩ := hrun.create_creating (by simp)
    exact (CreateInv.run hwf₀ hrun (show CreateInv b.config mode os₀ _ _ from ⟨rfl, rfl, rfl⟩)).2
  . exact OpenInv.run hwf₀ hrun (show OpenInv b os₀ _ _ from ⟨rfl, rfl⟩)

/-- A `create` of 8 zeroed bytes and an `open_existing` of a segment of 8 bytes that succeed. -/
theorem create_open_postconditions_on_runs
    : (∃ os shm, Run (((SharedMemoryBuilder.new [97]).setCreationMode .createExclusive).setSize 8).create
          (Os.empty true) (.returned (.ok shm)) os ∧
        CreatePost (((SharedMemoryBuilder.new [97]).setCreationMode .createExclusive).setSize 8).config
          (Os.empty true) os shm) ∧
      (∃ os shm, Run (SharedMemoryBuilder.new [97]).openExisting
          { (Os.empty true).createSegment [97] with segments := fun _ => List.replicate 8 0 }
          (.returned (.ok shm)) os ∧
        OpenPost (SharedMemoryBuilder.new [97])
          { (Os.empty true).createSegment [97] with segments := fun _ => List.replicate 8 0 } os shm) := by
  obtain ⟨os, shm, hcreate⟩ : ∃ os shm,
      Run (((SharedMemoryBuilder.new [97]).setCreationMode .createExclusive).setSize 8).create
        (Os.empty true) (.returned (.ok shm)) os :=
    ⟨_, _, .step .succeed rfl (.step (.succeedAt 4096) rfl (.step .succeed rfl
      (.step .succeed rfl (.step .succeed rfl (.refl _ _)))))⟩
  obtain ⟨os', shm', hopen⟩ : ∃ os shm, Run (SharedMemoryBuilder.new [97]).openExisting
      { (Os.empty true).createSegment [97] with segments := fun _ => List.replicate 8 0 }
      (.returned (.ok shm)) os :=
    ⟨_, _, .step .succeed rfl (.step .succeed rfl (.step (.succeedAt 4096) rfl (.refl _ _)))⟩
  exact ⟨⟨os, shm, hcreate, create_open_postconditions.1 _ _ _ _ (Os.wellFormed_empty true) hcreate⟩,
    ⟨os', shm', hopen, create_open_postconditions.2 _ _ _ _
      (((Os.wellFormed_empty true).createSegment [97]).congr rfl rfl rfl rfl) hopen⟩⟩

/--
A failed `create` gives back every descriptor and memory lock it took, and every mapping except
the one it made before an `UnableToMapAtEnforcedBaseAddress`. It changes no name but its own,
which stays bound as before, is unbound by PurgeAndCreate's unlink, or is bound to a segment the
call created. A failed `open_existing` changes no name.
-/
theorem create_open_release_on_error
    : (∀ (b : SharedMemoryCreationBuilder) (os₀ os : Os) (error : SharedMemoryCreationError),
        os₀.WellFormed → Run b.create os₀ (.returned (.error error)) os →
        os.fds = os₀.fds ∧ os.locks = os₀.locks ∧
        (os.mappings = os₀.mappings ∨ error = .unableToMapAtEnforcedBaseAddress ∧
          ∃ address, os₀.mappings address = none ∧ ∀ a, a ≠ address → os.mappings a = os₀.mappings a) ∧
        (∀ name, name ≠ b.config.name → os.names name = os₀.names name) ∧
        (os.names b.config.name = os₀.names b.config.name ∨
          b.config.creationMode = some .purgeAndCreate ∧ os.names b.config.name = none ∨
          ∃ segment, os₀.nextSegment ≤ segment ∧ os.names b.config.name = some segment)) ∧
      (∀ (b : SharedMemoryBuilder) (os₀ os : Os) (error : SharedMemoryCreationError),
        os₀.WellFormed → Run b.openExisting os₀ (.returned (.error error)) os →
        os.fds = os₀.fds ∧ os.locks = os₀.locks ∧
        (os.mappings = os₀.mappings ∨ error = .unableToMapAtEnforcedBaseAddress ∧
          ∃ address, os₀.mappings address = none ∧ ∀ a, a ≠ address → os.mappings a = os₀.mappings a) ∧
        os.names = os₀.names) := by
  refine ⟨fun b os₀ os error hwf₀ hrun => ?_, fun b os₀ os error hwf₀ hrun => ?_⟩
  . obtain ⟨mode, hmode, hrun⟩ := hrun.create_creating (by simp)
    obtain ⟨hframe, hname, leak, hleak, hholds⟩ :=
      CreateInv.run hwf₀ hrun (show CreateInv b.config mode os₀ _ _ from ⟨rfl, rfl, rfl⟩)
    refine ⟨hholds.released.1, hholds.released.2, hholds.mappings_released hleak, hframe.names_eq, ?_⟩
    rcases hname with h | ⟨rfl, h⟩ | h
    . exact .inl h
    . exact .inr (.inl ⟨hmode, h⟩)
    . exact .inr (.inr h)
  . obtain ⟨hnames, leak, hleak, hholds⟩ := OpenInv.run hwf₀ hrun (show OpenInv b os₀ _ _ from ⟨rfl, rfl⟩)
    exact ⟨hholds.released.1, hholds.released.2, hholds.mappings_released hleak, hnames⟩

/-- A `create` of size `0` and an `open_existing` of a name that is not bound, both failing. -/
theorem create_open_release_on_error_on_runs
    : (∃ os, Run ((SharedMemoryBuilder.new [97]).setCreationMode .createExclusive).create
          (Os.empty true) (.returned (.error .unsupportedSizeOfZero)) os ∧
        os.fds = (Os.empty true).fds ∧ os.locks = (Os.empty true).locks ∧
        os.mappings = (Os.empty true).mappings) ∧
      (∃ os, Run (SharedMemoryBuilder.new [97]).openExisting (Os.empty true)
          (.returned (.error .doesNotExist)) os ∧ os.names = (Os.empty true).names) := by
  obtain ⟨os, hcreate⟩ : ∃ os, Run ((SharedMemoryBuilder.new [97]).setCreationMode .createExclusive).create
      (Os.empty true) (.returned (.error .unsupportedSizeOfZero)) os :=
    ⟨_, .step .succeed rfl (.step (.fail .einval) rfl (.step .succeed rfl (.refl _ _)))⟩
  obtain ⟨os', hopen⟩ : ∃ os, Run (SharedMemoryBuilder.new [97]).openExisting (Os.empty true)
      (.returned (.error .doesNotExist)) os :=
    ⟨_, .step (.fail .enoent) rfl (.refl _ _)⟩
  obtain ⟨hfds, hlocks, hmappings, -⟩ :=
    create_open_release_on_error.1 _ _ _ _ (Os.wellFormed_empty true) hcreate
  refine ⟨⟨os, hcreate, hfds, hlocks, hmappings.resolve_right (by simp)⟩,
    ⟨os', hopen, (create_open_release_on_error.2 _ _ _ _ (Os.wellFormed_empty true) hopen).2.2.2⟩⟩

/--
Two failures of `create` that leave the name bound to the segment the call created, with every
other OS call behaving as POSIX says: `CreateExclusive` with the default size `0`, where `mmap`
rejects the length with `EINVAL`; and an enforced base address the kernel does not honour,
where the mapping stays in place as well.
-/
theorem create_failure_leaves_name_bound
    : (∃ os, Run ((SharedMemoryBuilder.new [97]).setCreationMode .createExclusive).create
          (Os.empty true) (.returned (.error .unsupportedSizeOfZero)) os ∧
        (Os.empty true).names [97] = none ∧ os.names [97] = some 0) ∧
      (∃ os, Run ((((SharedMemoryBuilder.new [97]).setEnforceBaseAddress 4096).setCreationMode
            .createExclusive).setSize 8).create
          (Os.empty true) (.returned (.error .unableToMapAtEnforcedBaseAddress)) os ∧
        os.names [97] = some 0 ∧ os.mappings 8192 = some (0, 8)) :=
  ⟨⟨_, .step .succeed rfl (.step (.fail .einval) rfl (.step .succeed rfl (.refl _ _))), rfl, rfl⟩,
    ⟨_, .step .succeed rfl (.step (.succeedAt 8192) rfl (.step .succeed rfl (.refl _ _))), rfl, rfl⟩⟩

end Elkodon
