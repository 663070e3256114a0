import Elkodon.SharedMemory.Lemmas.Holds

/-!
One call of `create` running alone, stage by stage.
-/

namespace Elkodon

namespace Pc

section Create

variable (b₀ : SharedMemoryBuilder) (m₀ : CreationMode) (os₀ : Os)

/-- What every stage of the call keeps: the counters only grow, and only the builder's name moves. -/
structure Frame (os : Os) : Prop where
  wf : os.WellFormed
  nextSegment_le : os₀.nextSegment ≤ os.nextSegment
  nextFd_le : os₀.nextFd ≤ os.nextFd
  names_eq : ∀ name, name ≠ b₀.name → os.names name = os₀.names name

/--
The builder's name is bound as before the call, unbound by PurgeAndCreate's unlink, or bound to
a segment the call created.
-/
def NameOk (os : Os) : Prop :=
  os.names b₀.name = os₀.names b₀.name ∨ (m₀ = .purgeAndCreate ∧ os.names b₀.name = none) ∨
    ∃ segment, os₀.nextSegment ≤ segment ∧ os.names b₀.name = some segment

def CreatedOn (os : Os) (fd : Nat) : Prop :=
  (os₀.names b₀.name = none ∨ m₀ = .purgeAndCreate) ∧
    ∃ segment, os₀.nextSegment ≤ segment ∧ os.fds fd = some segment ∧
      os.names b₀.name = some segment

def OpenedOn (os : Os) (fd : Nat) : Prop :=
  m₀ = .openOrCreate ∧ os.names b₀.name = os₀.names b₀.name ∧
    ∃ segment, os.fds fd = some segment ∧ os₀.names b₀.name = some segment

def Built (os : Os) (shm : SharedMemory) : Prop :=
  shm.name = b₀.name ∧ shm.size = b₀.size ∧
    (∀ a, b₀.enforceBaseAddress = some a → shm.baseAddress = a) ∧ shm.baseAddress ≠ 0 ∧
    ∃ segment, os.fds shm.fileDescriptor = some segment ∧
      os.mappings shm.baseAddress = some (segment, shm.size)

def SizeOk (os : Os) (shm : SharedMemory) : Prop :=
  ∀ segment, os.fds shm.fileDescriptor = some segment → (os.segments segment).length = shm.size

/--
The postcondition of a successful `create`: the handle has the configured size, which is the
length of its mapping and the size of its segment; it sits at the enforced base address; it
owns the segment iff ownership was configured and the call created the segment; and a segment
the call created with `zero_memory` holds zeros.
-/
def CreatePost (os : Os) (shm : SharedMemory) : Prop :=
  shm.size = b₀.size ∧ (∀ a, b₀.enforceBaseAddress = some a → shm.baseAddress = a) ∧
    ∃ segment, os.fds shm.fileDescriptor = some segment ∧
      os.mappings shm.baseAddress = some (segment, shm.size) ∧
      (os.segments segment).length = shm.size ∧
      (shm.hasOwnership = true ↔ b₀.hasOwnership = true ∧ os₀.nextSegment ≤ segment) ∧
      (os₀.nextSegment ≤ segment → b₀.zeroMemory = true →
        os.segments segment = List.replicate shm.size 0)

/-- The range of `shm`'s `MemoryLock`, which its drop's `munmap` unlocked, was not mapped in `os₀`. -/
def Unlocked (shm : SharedMemory) : Prop :=
  ∀ l ∈ shm.memoryLock, os₀.mappings l.1 = none

/-- What holds at each stage of `create` started from `b₀` with `m₀` on `os₀`. -/
def CreateInv : Pc → Os → Prop
  | .creating b mode, os => b = b₀ ∧ mode = m₀ ∧ os = os₀
  | .shmCreating b, os =>
    b = b₀ ∧ m₀ ≠ .createExclusive ∧ (os = os₀ ∨ m₀ = .purgeAndCreate ∧ os = os₀.unbind b₀.name)
  | .mapping b fd created, os =>
    Frame b₀ os₀ os ∧ os₀.Holds os (some fd) none none ∧
      (created = true ∧ b = b₀ ∧ CreatedOn b₀ m₀ os₀ os fd ∨
        created = false ∧ b = { b₀ with hasOwnership := false } ∧ OpenedOn b₀ m₀ os₀ os fd)
  | .statingOpened b shm, os =>
    Frame b₀ os₀ os ∧ os₀.Holds os (some shm.fileDescriptor) (some shm.baseAddress) none ∧
      b = { b₀ with hasOwnership := false } ∧ shm.memoryLock = none ∧ shm.hasOwnership = false ∧
      Built b₀ os shm ∧ OpenedOn b₀ m₀ os₀ os shm.fileDescriptor
  | .truncating b shm, os | .statingCreated b shm, os =>
    Frame b₀ os₀ os ∧ os₀.Holds os (some shm.fileDescriptor) (some shm.baseAddress) none ∧
      b = b₀ ∧ shm.memoryLock = none ∧ shm.hasOwnership = b₀.hasOwnership ∧
      Built b₀ os shm ∧ CreatedOn b₀ m₀ os₀ os shm.fileDescriptor
  | .locking b shm, os =>
    Frame b₀ os₀ os ∧ os₀.Holds os (some shm.fileDescriptor) (some shm.baseAddress) none ∧
      b = b₀ ∧ shm.memoryLock = none ∧ shm.hasOwnership = b₀.hasOwnership ∧
      Built b₀ os shm ∧ CreatedOn b₀ m₀ os₀ os shm.fileDescriptor ∧ SizeOk os shm
  | .zeroing b shm, os =>
    Frame b₀ os₀ os ∧ os₀.Holds os (some shm.fileDescriptor) (some shm.baseAddress) shm.memoryLock ∧
      b = b₀ ∧ b₀.zeroMemory = true ∧ shm.hasOwnership = b₀.hasOwnership ∧
      Built b₀ os shm ∧ CreatedOn b₀ m₀ os₀ os shm.fileDescriptor ∧ SizeOk os shm
  | .closingFd fd error, os =>
    Frame b₀ os₀ os ∧ NameOk b₀ m₀ os₀ os ∧
      ∃ leak : Option UInt64, (leak.isSome → error = .unableToMapAtEnforcedBaseAddress) ∧
        os₀.Holds os (some fd) leak none
  | .unmapping shm error, os =>
    error.isSome ∧ Frame b₀ os₀ os ∧ NameOk b₀ m₀ os₀ os ∧
      os₀.Holds os (some shm.fileDescriptor) (some shm.baseAddress) shm.memoryLock ∧
      shm.name = b₀.name ∧ shm.baseAddress ≠ 0 ∧
      (shm.hasOwnership = true → CreatedOn b₀ m₀ os₀ os shm.fileDescriptor)
  | .unlinking shm error, os =>
    error.isSome ∧ Frame b₀ os₀ os ∧ NameOk b₀ m₀ os₀ os ∧
      os₀.Holds os (some shm.fileDescriptor) none none ∧ Unlocked os₀ shm ∧
      shm.name = b₀.name ∧ CreatedOn b₀ m₀ os₀ os shm.fileDescriptor
  | .closingHandle shm error, os =>
    error.isSome ∧ Frame b₀ os₀ os ∧ NameOk b₀ m₀ os₀ os ∧
      os₀.Holds os (some shm.fileDescriptor) none none ∧ Unlocked os₀ shm
  | .unlocking shm error, os =>
    error.isSome ∧ Frame b₀ os₀ os ∧ NameOk b₀ m₀ os₀ os ∧ os₀.Holds os none none none ∧ Unlocked os₀ shm
  | .returned (.error error), os =>
    Frame b₀ os₀ os ∧ NameOk b₀ m₀ os₀ os ∧
      ∃ leak : Option UInt64, (leak.isSome → error = .unableToMapAtEnforcedBaseAddress) ∧
        os₀.Holds os none leak none
  | .returned (.ok shm), os => Frame b₀ os₀ os ∧ CreatePost b₀ os₀ os shm
  | _, _ => False

variable {b₀ m₀ os₀} {os os' : Os}

namespace Frame

theorem refl (hwf : os₀.WellFormed) : Frame b₀ os₀ os₀ := ⟨hwf, le_rfl, le_rfl, fun _ _ => rfl⟩

theorem congr (h : Frame b₀ os₀ os) (hnames : os'.names = os.names) (hfds : os'.fds = os.fds)
    (hsegment : os'.nextSegment = os.nextSegment) (hfd : os'.nextFd = os.nextFd) : Frame b₀ os₀ os' :=
  ⟨h.wf.congr hnames hfds hsegment hfd, hsegment ▸ h.nextSegment_le, hfd ▸ h.nextFd_le,
    fun name hname => hnames ▸ h.names_eq name hname⟩

theorem close (h : Frame b₀ os₀ os) (fd : Nat) : Frame b₀ os₀ (os.close fd) :=
  ⟨h.wf.close fd, h.nextSegment_le, h.nextFd_le, h.names_eq⟩

theorem unbind (h : Frame b₀ os₀ os) : Frame b₀ os₀ (os.unbind b₀.name) :=
  ⟨h.wf.unbind _, h.nextSegment_le, h.nextFd_le, fun name hname => by
    simpa [Os.unbind, Function.update_noteq hname] using h.names_eq name hname⟩

theorem createSegment (h : Frame b₀ os₀ os) : Frame b₀ os₀ (os.createSegment b₀.name) :=
  ⟨h.wf.createSegment _, by simp; have := h.nextSegment_le; omega,
    by simp; have := h.nextFd_le; omega, fun name hname => by
      simpa [Function.update_noteq hname] using h.names_eq name hname⟩

theorem openFd (h : Frame b₀ os₀ os) {segment : Nat} (hsegment : segment < os.nextSegment)
    : Frame b₀ os₀ (os.openFd segment) :=
  ⟨h.wf.openFd hsegment, h.nextSegment_le, by simp; have := h.nextFd_le; omega, h.names_eq⟩

end Frame

theorem NameOk.congr (h : NameOk b₀ m₀ os₀ os) (hnames : os'.names = os.names) : NameOk b₀ m₀ os₀ os' := by
  unfold NameOk
  rwa [hnames]

theorem CreatedOn.congr {fd : Nat} (h : CreatedOn b₀ m₀ os₀ os fd) (hnames : os'.names = os.names)
    (hfds : os'.fds = os.fds) : CreatedOn b₀ m₀ os₀ os' fd := by
  unfold CreatedOn
  rwa [hnames, hfds]

theorem CreatedOn.nameOk {fd : Nat} (h : CreatedOn b₀ m₀ os₀ os fd) : NameOk b₀ m₀ os₀ os := by
  obtain ⟨-, segment, hle, -, hname⟩ := h
  exact .inr (.inr ⟨segment, hle, hname⟩)

theorem CreatedOn.nameOk_unbind {fd : Nat} (h : CreatedOn b₀ m₀ os₀ os fd)
    : NameOk b₀ m₀ os₀ (os.unbind b₀.name) := by
  obtain ⟨hbefore | hpurge, -⟩ := h
  . exact .inl (by simpa [Os.unbind] using hbefore.symm)
  . exact .inr (.inl ⟨hpurge, by simp [Os.unbind]⟩)

theorem OpenedOn.congr {fd : Nat} (h : OpenedOn b₀ m₀ os₀ os fd) (hnames : os'.names = os.names)
    (hfds : os'.fds = os.fds) : OpenedOn b₀ m₀ os₀ os' fd := by
  unfold OpenedOn
  rwa [hnames, hfds]

theorem OpenedOn.nameOk {fd : Nat} (h : OpenedOn b₀ m₀ os₀ os fd) : NameOk b₀ m₀ os₀ os :=
  .inl h.2.1

theorem Built.congr {shm : SharedMemory} (h : Built b₀ os shm) (hfds : os'.fds = os.fds)
    (hmappings : os'.mappings = os.mappings) : Built b₀ os' shm := by
  unfold Built
  rwa [hfds, hmappings]

variable {pc' : Pc} {answer : Answer}

theorem createInv_returned_error (hframe : Frame b₀ os₀ os) (hname : NameOk b₀ m₀ os₀ os)
    (hholds : os₀.Holds os none none none) (error : SharedMemoryCreationError)
    : CreateInv b₀ m₀ os₀ (.returned (.error error)) os :=
  ⟨hframe, hname, none, by simp, hholds⟩

theorem createInv_creating (hwf₀ : os₀.WellFormed) {b : SharedMemoryBuilder} {mode : CreationMode}
    (hinv : CreateInv b₀ m₀ os₀ (.creating b mode) os) (h : step os (.creating b mode) answer = some (pc', os'))
    : CreateInv b₀ m₀ os₀ pc' os' := by
  obtain ⟨rfl, rfl, rfl⟩ := hinv
  have hframe : Frame b os os := Frame.refl hwf₀
  cases mode with
  | createExclusive =>
    rcases step_creating_createExclusive h with ⟨error, rfl, rfl⟩ | ⟨hname, rfl, rfl⟩
    . exact createInv_returned_error hframe (.inl rfl) (.refl _) error
    . exact ⟨hframe.createSegment, (Os.Holds.refl _).addFd hwf₀ le_rfl rfl rfl,
        .inl ⟨rfl, rfl, .inl hname, os.nextSegment, le_rfl, by simp, by simp⟩⟩
  | purgeAndCreate =>
    rcases step_creating_purgeAndCreate h with ⟨error, rfl, rfl⟩ | ⟨rfl, hos⟩
    . exact createInv_returned_error hframe (.inl rfl) (.refl _) error
    . exact ⟨rfl, by decide, hos.imp id fun h => ⟨rfl, h⟩⟩
  | openOrCreate =>
    rcases step_creating_openOrCreate h with ⟨error, rfl, rfl⟩ | ⟨rfl, rfl⟩ | ⟨segment, hname, rfl, rfl⟩
    . exact createInv_returned_error hframe (.inl rfl) (.refl _) error
    . exact ⟨rfl, by decide, .inl rfl⟩
    . exact ⟨hframe.openFd (hwf₀.names_lt _ _ hname), (Os.Holds.refl _).addFd hwf₀ le_rfl rfl rfl,
        .inr ⟨rfl, rfl, rfl, rfl, segment, by simp, hname⟩⟩

theorem createInv_shmCreating (hwf₀ : os₀.WellFormed) {b : SharedMemoryBuilder}
    (hinv : CreateInv b₀ m₀ os₀ (.shmCreating b) os) (h : step os (.shmCreating b) answer = some (pc', os'))
    : CreateInv b₀ m₀ os₀ pc' os' := by
  obtain ⟨rfl, -, hos⟩ := hinv
  have hstart : Frame b os₀ os ∧ os₀.Holds os none none none ∧ os.nextSegment = os₀.nextSegment ∧
      os.nextFd = os₀.nextFd ∧ (os.names b.name = os₀.names b.name ∨ m₀ = .purgeAndCreate) ∧
      NameOk b m₀ os₀ os := by
    rcases hos with rfl | ⟨hpurge, rfl⟩
    . exact ⟨Frame.refl hwf₀, .refl _, rfl, rfl, .inl rfl, .inl rfl⟩
    . exact ⟨(Frame.refl hwf₀).unbind, (Os.Holds.refl _).congr rfl rfl, rfl, rfl, .inr hpurge,
        .inr (.inl ⟨hpurge, by simp [Os.unbind]⟩)⟩
  obtain ⟨hframe, hholds, hsegment, hfd, hbefore, hname⟩ := hstart
  rcases step_shmCreating h with ⟨error, rfl, rfl⟩ | ⟨hfree, rfl, rfl⟩
  . exact createInv_returned_error hframe hname hholds error
  . refine ⟨hframe.createSegment, hholds.addFd hwf₀ hfd.ge rfl rfl,
      .inl ⟨rfl, rfl, ?_, os.nextSegment, hsegment.ge, by simp, by simp⟩⟩
    exact hbefore.imp (fun h => h.symm.trans hfree) id

theorem createInv_mapping {b : SharedMemoryBuilder} {fd : Nat} {created : Bool}
    (hinv : CreateInv b₀ m₀ os₀ (.mapping b fd created) os)
    (h : step os (.mapping b fd created) answer = some (pc', os'))
    : CreateInv b₀ m₀ os₀ pc' os' := by
  obtain ⟨hframe, hholds, hcase⟩ := hinv
  have hname : NameOk b₀ m₀ os₀ os := hcase.elim (·.2.2.nameOk) (·.2.2.nameOk)
  rcases step_mapping h with ⟨errno, rfl, rfl⟩ |
    ⟨address, segment, hfd, -, hzero, hfree, rfl, ⟨-, rfl⟩ | ⟨hmismatch, rfl⟩⟩
  . exact ⟨hframe, hname, none, by simp, hholds⟩
  . exact ⟨hframe.congr rfl rfl rfl rfl, hname.congr rfl, some address, fun _ => rfl,
      hholds.mapAt hfree segment b.size⟩
  . have hmapped : (os.mapAt address segment b.size).fds fd = some segment ∧
        (os.mapAt address segment b.size).mappings address = some (segment, b.size) :=
      ⟨hfd, by simp⟩
    rcases hcase with ⟨rfl, rfl, hcreated⟩ | ⟨rfl, rfl, hopened⟩
    . exact ⟨hframe.congr rfl rfl rfl rfl, hholds.mapAt hfree segment b.size, rfl, rfl, rfl,
        ⟨rfl, rfl, b.baseAddressMismatch_eq_false hmismatch, hzero, segment, hmapped⟩,
        hcreated.congr rfl rfl⟩
    . exact ⟨hframe.congr rfl rfl rfl rfl, hholds.mapAt hfree segment b₀.size, rfl, rfl, rfl,
        ⟨rfl, rfl, b₀.baseAddressMismatch_eq_false hmismatch, hzero, segment, hmapped⟩,
        hopened.congr rfl rfl⟩

theorem createPost_created {shm : SharedMemory} (hbuilt : Built b₀ os shm) (hsize : SizeOk os shm)
    (hcreated : CreatedOn b₀ m₀ os₀ os shm.fileDescriptor) (hown : shm.hasOwnership = b₀.hasOwnership)
    (hzero : b₀.zeroMemory = true →
      ∀ segment, os.fds shm.fileDescriptor = some segment → os.segments segment = List.replicate shm.size 0)
    : CreatePost b₀ os₀ os shm := by
  obtain ⟨-, hshmsize, henforce, -, segment, hfd, hmapped⟩ := hbuilt
  obtain ⟨-, segment', hle, hfd', -⟩ := hcreated
  obtain rfl : segment = segment' := Option.some.inj (hfd.symm.trans hfd')
  exact ⟨hshmsize, henforce, segment, hfd, hmapped, hsize segment hfd, by simp [hown, hle],
    fun _ h => hzero h segment hfd⟩

theorem createPost_opened (hwf₀ : os₀.WellFormed) {shm : SharedMemory} (hbuilt : Built b₀ os shm)
    (hsize : SizeOk os shm) (hopened : OpenedOn b₀ m₀ os₀ os shm.fileDescriptor)
    (hown : shm.hasOwnership = false) : CreatePost b₀ os₀ os shm := by
  obtain ⟨-, hshmsize, henforce, -, segment, hfd, hmapped⟩ := hbuilt
  obtain ⟨-, -, segment', hfd', hname⟩ := hopened
  obtain rfl : segment = segment' := Option.some.inj (hfd.symm.trans hfd')
  have hlt := hwf₀.names_lt _ _ hname
  refine ⟨hshmsize, henforce, segment, hfd, hmapped, hsize segment hfd, ?_, fun h => by omega⟩
  simp only [hown, Bool.false_eq_true, false_iff, not_and]
  omega

theorem createInv_statingOpened (hwf₀ : os₀.WellFormed) {b : SharedMemoryBuilder} {shm : SharedMemory}
    (hinv : CreateInv b₀ m₀ os₀ (.statingOpened b shm) os)
    (h : step os (.statingOpened b shm) answer = some (pc', os'))
    : CreateInv b₀ m₀ os₀ pc' os' := by
  obtain ⟨hframe, hholds, rfl, hlock, hown, hbuilt, hopened⟩ := hinv
  obtain ⟨rfl, ⟨error, rfl⟩ | ⟨segment, hfd, hlength, rfl⟩⟩ := step_statingOpened h
  . exact ⟨rfl, hframe, hopened.nameOk, hlock ▸ hholds, hbuilt.1, hbuilt.2.2.2.1, by simp [hown]⟩
  . refine ⟨hframe, createPost_opened hwf₀ hbuilt (fun segment' hfd' => ?_) hopened hown⟩
    obtain rfl : segment = segment' := Option.some.inj (hfd.symm.trans hfd')
    exact hlength.trans hbuilt.2.1.symm

theorem createInv_unmapping_of {shm : SharedMemory} (hframe : Frame b₀ os₀ os)
    (hholds : os₀.Holds os (some shm.fileDescriptor) (some shm.baseAddress) shm.memoryLock)
    (hbuilt : Built b₀ os shm) (hcreated : CreatedOn b₀ m₀ os₀ os shm.fileDescriptor)
    (error : SharedMemoryCreationError) : CreateInv b₀ m₀ os₀ (.unmapping shm (some error)) os :=
  ⟨rfl, hframe, hcreated.nameOk, hholds, hbuilt.1, hbuilt.2.2.2.1, fun _ => hcreated⟩

theorem createInv_afterLock {shm : SharedMemory} (hframe : Frame b₀ os₀ os)
    (hholds : os₀.Holds os (some shm.fileDescriptor) (some shm.baseAddress) shm.memoryLock)
    (hown : shm.hasOwnership = b₀.hasOwnership) (hbuilt : Built b₀ os shm)
    (hcreated : CreatedOn b₀ m₀ os₀ os shm.fileDescriptor) (hsize : SizeOk os shm)
    : CreateInv b₀ m₀ os₀ (afterLock b₀ shm) os := by
  unfold afterLock
  split
  . exact ⟨hframe, hholds, rfl, ‹_›, hown, hbuilt, hcreated, hsize⟩
  . exact ⟨hframe, createPost_created hbuilt hsize hcreated hown (by simp [*])⟩

theorem createInv_truncating {b : SharedMemoryBuilder} {shm : SharedMemory}
    (hinv : CreateInv b₀ m₀ os₀ (.truncating b shm) os)
    (h : step os (.truncating b shm) answer = some (pc', os'))
    : CreateInv b₀ m₀ os₀ pc' os' := by
  obtain ⟨hframe, hholds, rfl, hlock, hown, hbuilt, hcreated⟩ := hinv
  rcases step_truncating h with ⟨error, rfl, rfl⟩ | ⟨segment, -, rfl, rfl⟩
  . exact createInv_unmapping_of hframe (hlock ▸ hholds) hbuilt hcreated error
  . exact ⟨hframe.congr rfl rfl rfl rfl, hholds.congr rfl rfl, rfl, hlock, hown,
      hbuilt.congr rfl rfl, hcreated.congr rfl rfl⟩

theorem createInv_statingCreated {b : SharedMemoryBuilder} {shm : SharedMemory}
    (hinv : CreateInv b₀ m₀ os₀ (.statingCreated b shm) os)
    (h : step os (.statingCreated b shm) answer = some (pc', os'))
    : CreateInv b₀ m₀ os₀ pc' os' := by
  obtain ⟨hframe, hholds, rfl, hlock, hown, hbuilt, hcreated⟩ := hinv
  obtain ⟨rfl, ⟨error, rfl⟩ | ⟨segment, hfd, hlength, rfl⟩⟩ := step_statingCreated h
  . exact createInv_unmapping_of hframe (hlock ▸ hholds) hbuilt hcreated error
  . have hsize : SizeOk os' shm := fun segment' hfd' => by
      obtain rfl : segment = segment' := Option.some.inj (hfd.symm.trans hfd')
      exact hlength.trans hbuilt.2.1.symm
    unfold afterSizeCheck
    split
    . exact ⟨hframe, hholds, rfl, hlock, hown, hbuilt, hcreated, hsize⟩
    . exact createInv_afterLock hframe (hlock ▸ hholds) hown hbuilt hcreated hsize

theorem createInv_locking {b : SharedMemoryBuilder} {shm : SharedMemory}
    (hinv : CreateInv b₀ m₀ os₀ (.locking b shm) os)
    (h : step os (.locking b shm) answer = some (pc', os'))
    : CreateInv b₀ m₀ os₀ pc' os' := by
  obtain ⟨hframe, hholds, rfl, hlock, hown, hbuilt, hcreated, hsize⟩ := hinv
  rcases step_locking h with ⟨error, rfl, rfl⟩ | ⟨hcovers, rfl, rfl⟩
  . exact createInv_unmapping_of hframe (hlock ▸ hholds) hbuilt hcreated error
  . exact createInv_afterLock (hframe.congr rfl rfl rfl rfl) (hholds.mlock _ hcovers) hown
      (hbuilt.congr rfl rfl) (hcreated.congr rfl rfl) hsize

theorem createInv_zeroing {b : SharedMemoryBuilder} {shm : SharedMemory}
    (hinv : CreateInv b₀ m₀ os₀ (.zeroing b shm) os)
    (h : step os (.zeroing b shm) answer = some (pc', os'))
    : CreateInv b₀ m₀ os₀ pc' os' := by
  obtain ⟨hframe, hholds, rfl, hzero, hown, hbuilt, hcreated, hsize⟩ := hinv
  obtain ⟨segment, mapped, zeroed, hmapped, rfl, rfl | ⟨rfl, rfl, -⟩⟩ := step_zeroing h
  . apply createInv_unmapping_of
    exacts [hframe.congr rfl rfl rfl rfl, hholds.congr rfl rfl, hbuilt.congr rfl rfl,
      hcreated.congr rfl rfl]
  . obtain ⟨-, hshmsize, -, -, segment', hfd, hmapped'⟩ := id hbuilt
    obtain ⟨rfl, -⟩ := Prod.mk.inj (Option.some.inj (hmapped.symm.trans hmapped'))
    refine ⟨hframe.congr rfl rfl rfl rfl,
      createPost_created (hbuilt.congr rfl rfl) (fun segment' hfd' => ?_) (hcreated.congr rfl rfl) hown
        (fun _ segment' hfd' => ?_)⟩
    . simp only [Function.update_apply]
      split
      . subst segment'
        rw [Os.length_zeroPrefix]
        exact hsize _ hfd
      . exact hsize segment' hfd'
    . obtain rfl : segment = segment' := Option.some.inj (hfd.symm.trans hfd')
      simp only [Function.update_same]
      rw [← hshmsize, ← hsize segment hfd, Os.zeroPrefix_length]

theorem createInv_closingFd {fd : Nat} {error : SharedMemoryCreationError}
    (hinv : CreateInv b₀ m₀ os₀ (.closingFd fd error) os)
    (h : step os (.closingFd fd error) answer = some (pc', os'))
    : CreateInv b₀ m₀ os₀ pc' os' := by
  obtain ⟨hframe, hname, leak, hleak, hholds⟩ := hinv
  obtain ⟨rfl, rfl⟩ := step_closingFd h
  exact ⟨hframe.close fd, hname.congr rfl, leak, hleak, hholds.close⟩

theorem createInv_unmapping {shm : SharedMemory} {error : Option SharedMemoryCreationError}
    (hinv : CreateInv b₀ m₀ os₀ (.unmapping shm error) os)
    (h : step os (.unmapping shm error) answer = some (pc', os'))
    : CreateInv b₀ m₀ os₀ pc' os' := by
  obtain ⟨herror, hframe, hname, hholds, hshmname, hbase, hown⟩ := hinv
  obtain ⟨rfl, rfl⟩ := step_unmapping h
  rw [if_neg hbase]
  have hunlocked : Unlocked os₀ shm := fun l hl => hholds.mapping_new l.1 (hholds.lock_at l hl)
  unfold afterUnmap
  split
  . exact ⟨herror, hframe.congr rfl rfl rfl rfl, hname.congr rfl, hholds.munmap, hunlocked, hshmname,
      (hown ‹_›).congr rfl rfl⟩
  . exact ⟨herror, hframe.congr rfl rfl rfl rfl, hname.congr rfl, hholds.munmap, hunlocked⟩

theorem createInv_unlinking {shm : SharedMemory} {error : Option SharedMemoryCreationError}
    (hinv : CreateInv b₀ m₀ os₀ (.unlinking shm error) os)
    (h : step os (.unlinking shm error) answer = some (pc', os'))
    : CreateInv b₀ m₀ os₀ pc' os' := by
  obtain ⟨herror, hframe, hname, hholds, hunlocked, hshmname, hcreated⟩ := hinv
  obtain ⟨rfl, rfl | rfl⟩ := step_unlinking h
  . exact ⟨herror, hframe, hname, hholds, hunlocked⟩
  . rw [hshmname]
    exact ⟨herror, hframe.unbind, hcreated.nameOk_unbind, hholds.congr rfl rfl, hunlocked⟩

theorem createInv_afterDrop {error : Option SharedMemoryCreationError} (herror : error.isSome)
    (hframe : Frame b₀ os₀ os) (hname : NameOk b₀ m₀ os₀ os) (hholds : os₀.Holds os none none none)
    : CreateInv b₀ m₀ os₀ (afterDrop error) os := by
  obtain ⟨error, rfl⟩ := Option.isSome_iff_exists.mp herror
  exact createInv_returned_error hframe hname hholds error

theorem createInv_closingHandle {shm : SharedMemory} {error : Option SharedMemoryCreationError}
    (hinv : CreateInv b₀ m₀ os₀ (.closingHandle shm error) os)
    (h : step os (.closingHandle shm error) answer = some (pc', os'))
    : CreateInv b₀ m₀ os₀ pc' os' := by
  obtain ⟨herror, hframe, hname, hholds, hunlocked⟩ := hinv
  obtain ⟨rfl, rfl⟩ := step_closingHandle h
  unfold afterClose
  split
  . exact ⟨herror, hframe.close _, hname.congr rfl, hholds.close, hunlocked⟩
  . exact createInv_afterDrop herror (hframe.close _) (hname.congr rfl) hholds.close

theorem createInv_unlocking {shm : SharedMemory} {error : Option SharedMemoryCreationError}
    (hinv : CreateInv b₀ m₀ os₀ (.unlocking shm error) os)
    (h : step os (.unlocking shm error) answer = some (pc', os'))
    : CreateInv b₀ m₀ os₀ pc' os' := by
  obtain ⟨herror, hframe, hname, hholds, hunlocked⟩ := hinv
  obtain ⟨address, length, hlock, rfl, ⟨-, rfl⟩ | ⟨hcovers, -⟩⟩ := step_unlocking h
  . exact createInv_afterDrop herror hframe hname hholds
  . rw [hholds.covers_eq_false (hunlocked _ hlock) length] at hcovers
    cases hcovers

theorem CreateInv.step (hwf₀ : os₀.WellFormed) {pc : Pc} (hinv : CreateInv b₀ m₀ os₀ pc os)
    (h : step os pc answer = some (pc', os')) : CreateInv b₀ m₀ os₀ pc' os' := by
  cases pc with
  | creating => exact createInv_creating hwf₀ hinv h
  | shmCreating => exact createInv_shmCreating hwf₀ hinv h
  | mapping => exact createInv_mapping hinv h
  | statingOpened => exact createInv_statingOpened hwf₀ hinv h
  | truncating => exact createInv_truncating hinv h
  | statingCreated => exact createInv_statingCreated hinv h
  | locking => exact createInv_locking hinv h
  | zeroing => exact createInv_zeroing hinv h
  | closingFd => exact createInv_closingFd hinv h
  | unmapping => exact createInv_unmapping hinv h
  | unlinking => exact createInv_unlinking hinv h
  | closingHandle => exact createInv_closingHandle hinv h
  | unlocking => exact createInv_unlocking hinv h
  | returned => cases answer <;> simp [Pc.step] at h
  | _ => exact hinv.elim

theorem CreateInv.run (hwf₀ : os₀.WellFormed) {pc pc' : Pc} (hrun : Run pc os pc' os')
    (hinv : CreateInv b₀ m₀ os₀ pc os) : CreateInv b₀ m₀ os₀ pc' os' := by
  induction hrun with
  | refl => exact hinv
  | step _ hstep _ ih => exact ih (hinv.step hwf₀ hstep)

end Create

end Pc

end Elkodon
