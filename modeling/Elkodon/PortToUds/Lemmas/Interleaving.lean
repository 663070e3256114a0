import Elkodon.PortToUds.Impl.Interleaving
import Elkodon.PortToUds.Lemmas.Sequential

/-!
The dual-buffer protocol of `Entry` under every interleaving of one writer with any number of
readers.
-/

namespace Elkodon

theorem bufferIndex_sub_one_ne (c : UInt64) : bufferIndex (c - 1) ≠ bufferIndex c := by
  rw [ne_eq, bufferIndex_eq_iff, UInt64.toNat_sub_eq]
  have := c.toNat_lt_two_pow
  simp only [UInt64.toNat_one_eq]
  omega

theorem bufferIndex_add_one_sub_one (c : UInt64) : bufferIndex (c + 1 - 1) = bufferIndex c := by
  rw [bufferIndex_eq_iff, UInt64.toNat_sub_eq, UInt64.toNat_add_eq]
  have := c.toNat_lt_two_pow
  simp only [UInt64.toNat_one_eq]
  omega

namespace Entry

@[simp]
theorem writeByte_abaCounter (e : Entry) (b : Fin 2) (i : Fin maxUdsNameLen) (x : UInt8)
    : (e.writeByte b i x).abaCounter = e.abaCounter := rfl

theorem ext' {e e' : Entry} (hc : e.abaCounter = e'.abaCounter) (hv : e.value = e'.value) : e = e' := by
  cases e; cases e'; simp_all

theorem writeByte_value (e : Entry) (b b' : Fin 2) (i : Fin maxUdsNameLen) (x : UInt8)
    : (e.writeByte b i x).value b' =
        if b' = b then Function.update (e.value b) i x else e.value b' := by
  simp [writeByte, Function.update_apply]

def clearFrom (e : Entry) (b : Fin 2) (pos : Nat) : Entry :=
  { e with value := Function.update e.value b (fun i => if i.val < pos then e.value b i else 0) }

def copyFrom (e : Entry) (b : Fin 2) (value : List UInt8) (pos : Nat) : Entry :=
  { e with
    value := Function.update e.value b
      (fun i => if pos ≤ i.val ∧ i.val < value.length then value.getD i 0 else e.value b i) }

theorem clearFrom_writeByte (e : Entry) (b : Fin 2) {pos : Nat} (h : pos < maxUdsNameLen)
    : (e.writeByte b ⟨pos, h⟩ 0).clearFrom b (pos + 1) = e.clearFrom b pos := by
  refine ext' rfl (funext fun b' => ?_)
  by_cases hb : b' = b
  . subst hb
    funext i
    simp only [clearFrom, writeByte, Function.update_same, Function.update_apply, Fin.ext_iff]
    split_ifs <;> first | rfl | omega
  . simp [clearFrom, writeByte, Function.update_noteq hb]

theorem clearFrom_full (e : Entry) (b : Fin 2) : e.clearFrom b maxUdsNameLen = e :=
  ext' rfl (by funext b'; by_cases hb : b' = b <;> simp [clearFrom, Function.update_apply, hb])

theorem copyFrom_writeByte (e : Entry) (b : Fin 2) (value : List UInt8) {pos : Nat}
    (h : pos < maxUdsNameLen) (hpos : pos < value.length)
    : (e.writeByte b ⟨pos, h⟩ (value.getD pos 0)).copyFrom b value (pos + 1) =
        e.copyFrom b value pos := by
  refine ext' rfl (funext fun b' => ?_)
  by_cases hb : b' = b
  . subst hb
    funext i
    simp only [copyFrom, writeByte, Function.update_same, Function.update_apply, Fin.ext_iff]
    split_ifs <;> first | rfl | omega | (subst_vars; rfl)
  . simp [copyFrom, writeByte, Function.update_noteq hb]

theorem copyFrom_length (e : Entry) (b : Fin 2) (value : List UInt8)
    : e.copyFrom b value value.length = e :=
  ext' rfl (by
    funext b'
    by_cases hb : b' = b
    . subst hb; funext i; simp [copyFrom]
    . simp [copyFrom, Function.update_noteq hb])

end Entry

/-- The padded value of the last completed `set`, or zeros: what a `get` is specified to return. -/
def latest (history : List (List UInt8)) : UdsName := UdsName.pad (history.getLast?.getD [])

@[simp]
theorem latest_append (history : List (List UInt8)) (value : List UInt8)
    : latest (history ++ [value]) = UdsName.pad value := by
  simp [latest]

namespace EntrySystem

def WriterInv (e : Entry) : SetPc → Prop
  | .idle => True
  | .zeroing current _ pos =>
    current = e.abaCounter ∧ ∀ i : Fin maxUdsNameLen, i.val < pos → e.value (bufferIndex current) i = 0
  | .copying current value pos =>
    current = e.abaCounter ∧ ∀ i : Fin maxUdsNameLen,
      e.value (bufferIndex current) i = if i.val < pos then value.getD i 0 else 0
  | .incrementing current value =>
    current = e.abaCounter ∧ e.value (bufferIndex current) = UdsName.pad value

/--
What a reader knows: the counter it loaded, and, while no `set` has completed since its
load, that its copy so far agrees with the latest value.
-/
def ReaderInv (history : List (List UInt8)) : GetPc → Prop
  | .copying current result pos since =>
    since ≤ history.length ∧ current.toNat = (1 + since) % 2 ^ 64 ∧
      (history.length = since → ∀ i : Fin maxUdsNameLen, i.val < pos → result i = latest history i)
  | .comparing current result since =>
    since ≤ history.length ∧ current.toNat = (1 + since) % 2 ^ 64 ∧
      (history.length = since → result = latest history)
  | _ => True

structure Inv (s : EntrySystem) : Prop where
  counter : s.entry.abaCounter.toNat = (1 + s.history.length) % 2 ^ 64
  stable : s.entry.value (bufferIndex (s.entry.abaCounter - 1)) = latest s.history
  writer : WriterInv s.entry s.writer
  readers : ∀ r, ReaderInv s.history (s.readers r)

@[simp]
theorem setReader_entry (s : EntrySystem) (r : Nat) (pc : GetPc) : (s.setReader r pc).entry = s.entry :=
  rfl

@[simp]
theorem setReader_writer (s : EntrySystem) (r : Nat) (pc : GetPc) : (s.setReader r pc).writer = s.writer :=
  rfl

@[simp]
theorem setReader_history (s : EntrySystem) (r : Nat) (pc : GetPc)
    : (s.setReader r pc).history = s.history := rfl

@[simp]
theorem setReader_readers_self (s : EntrySystem) (r : Nat) (pc : GetPc)
    : (s.setReader r pc).readers r = pc := by
  simp [setReader]

@[simp]
theorem setReader_setReader (s : EntrySystem) (r : Nat) (pc pc' : GetPc)
    : (s.setReader r pc).setReader r pc' = s.setReader r pc' := by
  simp [setReader]

theorem setReader_eq_self {s : EntrySystem} {r : Nat} {pc : GetPc} (h : s.readers r = pc)
    : s.setReader r pc = s := by
  simp [setReader, ← h]

theorem inv_init : Inv init where
  counter := rfl
  stable := by funext i; simp [init, Entry.initialized, UdsName.zero, latest]
  writer := trivial
  readers _ := trivial

theorem ReaderInv.append {history : List (List UInt8)} {pc : GetPc} (h : ReaderInv history pc)
    (value : List UInt8) : ReaderInv (history ++ [value]) pc := by
  cases pc with
  | copying current result pos since =>
    obtain ⟨hle, hcur, _⟩ := h
    exact ⟨by simp; omega, hcur, fun heq => absurd heq (by simp; omega)⟩
  | comparing current result since =>
    obtain ⟨hle, hcur, _⟩ := h
    exact ⟨by simp; omega, hcur, fun heq => absurd heq (by simp; omega)⟩
  | idle => trivial
  | panicked => trivial

theorem Inv.setReader {s : EntrySystem} (h : Inv s) {r : Nat} {pc : GetPc}
    (hpc : ReaderInv s.history pc) : Inv (s.setReader r pc) where
  counter := h.counter
  stable := h.stable
  writer := h.writer
  readers r' := by
    simp only [EntrySystem.setReader, Function.update_apply]
    split
    . exact hpc
    . exact h.readers r'

theorem Inv.writeCurrent {s : EntrySystem} (h : Inv s) {i : Fin maxUdsNameLen} {x : UInt8}
    {w : SetPc} (hw : WriterInv (s.entry.writeByte (bufferIndex s.entry.abaCounter) i x) w)
    : Inv { s with entry := s.entry.writeByte (bufferIndex s.entry.abaCounter) i x, writer := w } where
  counter := h.counter
  stable := by
    simpa [Entry.writeByte_value, bufferIndex_sub_one_ne] using h.stable
  writer := hw
  readers := h.readers

theorem Inv.current_eq {s : EntrySystem} (h : Inv s) {current : UInt64} {since : Nat}
    (hcur : current.toNat = (1 + since) % 2 ^ 64) (hlen : s.history.length = since)
    : current = s.entry.abaCounter := by
  rw [UInt64.eq_iff_toNat_eq, hcur, h.counter, hlen]

theorem Inv.step {s s' : EntrySystem} {ev : Event} (h : Inv s) (hs : Step s ev s') : Inv s' := by
  have hw := h.writer
  cases hs with
  | load value hidle _ => exact ⟨h.counter, h.stable, ⟨rfl, nofun⟩, h.readers⟩
  | zero hpc hpos =>
    rw [hpc] at hw
    obtain ⟨rfl, hz⟩ := hw
    refine h.writeCurrent ⟨rfl, fun i hi => ?_⟩
    rw [Entry.writeByte_value, if_pos rfl, Function.update_apply]
    split
    . rfl
    . exact hz i (by rename_i hne; simp [Fin.ext_iff] at hne; omega)
  | zeroDone hpc =>
    rw [hpc] at hw
    obtain ⟨hcur, hz⟩ := hw
    exact ⟨h.counter, h.stable, ⟨hcur, fun i => by simpa using hz i i.isLt⟩, h.readers⟩
  | @copy current value pos hpc hpos hfit =>
    rw [hpc] at hw
    obtain ⟨rfl, hc⟩ := hw
    refine h.writeCurrent ⟨rfl, fun i => ?_⟩
    rw [Entry.writeByte_value, if_pos rfl, Function.update_apply]
    split
    . rename_i heq; subst heq; simp
    . rename_i hne
      rw [hc i]
      simp only [Fin.ext_iff] at hne
      by_cases hi : i.val < pos
      . simp [hi, show i.val < pos + 1 by omega]
      . simp [hi, show ¬ i.val < pos + 1 by omega]
  | copyDone hpc =>
    rw [hpc] at hw
    obtain ⟨hcur, hc⟩ := hw
    refine ⟨h.counter, h.stable, ⟨hcur, funext fun i => ?_⟩, h.readers⟩
    rw [hc i, UdsName.pad_apply]
    split
    . rfl
    . rename_i hge
      simp [List.getElem?_eq_none (Nat.not_lt.mp hge)]
  | fetchAdd hpc =>
    rw [hpc] at hw
    obtain ⟨rfl, hbuf⟩ := hw
    refine ⟨?_, ?_, trivial, fun r => (h.readers r).append _⟩
    . simp only [UInt64.toNat_add_eq, UInt64.toNat_one_eq, h.counter, List.length_append,
        List.length_singleton]
      omega
    . simpa [bufferIndex_add_one_sub_one] using hbuf
  | readerLoad r _ _ =>
    exact h.setReader ⟨le_refl _, h.counter, fun _ _ hi => absurd hi (Nat.not_lt_zero _)⟩
  | readerPanic r _ _ => exact h.setReader trivial
  | readerCopy r hr hpos =>
    have hri := h.readers r
    rw [hr] at hri
    obtain ⟨hle, hcur, hres⟩ := hri
    refine h.setReader ⟨hle, hcur, fun hlen i hi => ?_⟩
    rw [Function.update_apply]
    split
    . rename_i heq
      subst heq
      rw [h.current_eq hcur hlen, h.stable]
    . rename_i hne
      exact hres hlen i (by simp [Fin.ext_iff] at hne; omega)
  | readerCopyDone r hr =>
    have hri := h.readers r
    rw [hr] at hri
    obtain ⟨hle, hcur, hres⟩ := hri
    exact h.setReader ⟨hle, hcur, fun hlen => funext fun i => hres hlen i i.isLt⟩
  | readerRetry r hr _ =>
    have hri := h.readers r
    rw [hr] at hri
    obtain ⟨hle, hcur, _⟩ := hri
    exact h.setReader ⟨hle, hcur, fun _ _ hi => absurd hi (Nat.not_lt_zero _)⟩
  | readerReturn r _ _ => exact h.setReader trivial

theorem Reachable.inv {s : EntrySystem} (h : Reachable s) : Inv s := by
  induction h with
  | init => exact inv_init
  | step _ hs ih => exact ih.step hs

/--
A `get` that returns while fewer than `2^64` calls of `set` completed after its counter load
returns the padded value of the last `set` completed before that load, or zeros.
-/
theorem Reachable.returned_eq_latest {s s' : EntrySystem} {r : Nat} {v : UdsName}
    (hs : Reachable s) (hstep : Step s (.returned r v) s')
    (hwin : s.history.length < (s.readers r).since + 2 ^ 64)
    : v = latest (s.history.take (s.readers r).since) := by
  have h := hs.inv
  cases hstep with
  | readerReturn _ hr heq =>
    rename_i current since
    have hri := h.readers r
    rw [hr] at hri
    obtain ⟨hle, hcur, hres⟩ := hri
    rw [hr, GetPc.since] at hwin ⊢
    have hcounter := h.counter
    rw [heq, hcur] at hcounter
    have hlen : s.history.length = since := by omega
    rw [← hlen, List.take_length]
    exact hres hlen

theorem Steps.single {s s' : EntrySystem} {ev : Event} (h : Step s ev s') : Steps s [ev] s' :=
  .cons h (.refl _)

theorem Steps.trans {s s' s'' : EntrySystem} {evs evs' : List Event} (h₁ : Steps s evs s')
    (h₂ : Steps s' evs' s'') : Steps s (evs ++ evs') s'' := by
  induction h₁ with
  | refl => exact h₂
  | cons hs _ ih => exact .cons hs (ih h₂)

theorem Steps.snoc_inv {s s' : EntrySystem} {evs : List Event} {ev : Event} (h : Steps s (evs ++ [ev]) s')
    : ∃ s'', Steps s evs s'' ∧ Step s'' ev s' := by
  induction evs generalizing s with
  | nil => cases h with | cons hs hrest => cases hrest; exact ⟨_, .refl _, hs⟩
  | cons e evs ih =>
    cases h with
    | cons hs hrest =>
      obtain ⟨s'', hrun, hlast⟩ := ih hrest
      exact ⟨s'', .cons hs hrun, hlast⟩

theorem Step.history_returned {s s' : EntrySystem} {r : Nat} {v : UdsName} (h : Step s (.returned r v) s')
    : s'.history = s.history := by
  cases h; rfl

theorem Reachable.steps {s s' : EntrySystem} {evs : List Event} (h : Reachable s)
    (hs : Steps s evs s') : Reachable s' := by
  induction hs with
  | refl => exact h
  | cons hs _ ih => exact ih (h.step hs)

theorem Steps.zeroing {current : UInt64} {value : List UInt8} (n : Nat)
    : ∀ {s : EntrySystem} {pos : Nat}, s.writer = .zeroing current value pos →
        pos + n = maxUdsNameLen →
        Steps s (List.replicate n .write)
          { s with
            entry := s.entry.clearFrom (bufferIndex current) pos
            writer := .zeroing current value maxUdsNameLen } := by
  induction n with
  | zero =>
    intro s pos hw hpos
    obtain ⟨entry, writer, readers, history⟩ := s
    simp only at hw
    subst hw hpos
    simpa [Entry.clearFrom_full] using Steps.refl _
  | succ n ih =>
    intro s pos hw hpos
    have hstep := Step.zero s hw (by omega)
    have hrest := ih (s := { s with
      entry := s.entry.writeByte (bufferIndex current) ⟨pos, by omega⟩ 0
      writer := .zeroing current value (pos + 1) }) rfl (by omega)
    rw [Entry.clearFrom_writeByte] at hrest
    exact .cons hstep hrest

theorem Steps.copying {current : UInt64} {value : List UInt8} (hlen : value.length ≤ maxUdsNameLen)
    (n : Nat)
    : ∀ {s : EntrySystem} {pos : Nat}, s.writer = .copying current value pos →
        pos + n = value.length →
        Steps s (List.replicate n .write)
          { s with
            entry := s.entry.copyFrom (bufferIndex current) value pos
            writer := .copying current value value.length } := by
  induction n with
  | zero =>
    intro s pos hw hpos
    obtain ⟨entry, writer, readers, history⟩ := s
    simp only at hw
    subst hw hpos
    simpa [Entry.copyFrom_length] using Steps.refl _
  | succ n ih =>
    intro s pos hw hpos
    have hstep := Step.copy s hw (by omega) (by omega)
    have hrest := ih (s := { s with
      entry := s.entry.writeByte (bufferIndex current) ⟨pos, by omega⟩ (value.getD pos 0)
      writer := .copying current value (pos + 1) }) rfl (by omega)
    rw [Entry.copyFrom_writeByte _ _ _ _ (by omega)] at hrest
    exact .cons hstep hrest

theorem Steps.set_alone {s : EntrySystem} (hidle : s.writer = .idle) {value : List UInt8}
    (hlen : value.length ≤ maxUdsNameLen)
    : ∃ e' evs, s.entry.set value = some e' ∧ (∀ ev ∈ evs, ev = .write) ∧
        Steps s evs { s with entry := e', history := s.history ++ [value] } := by
  let b := bufferIndex s.entry.abaCounter
  let s₁ : EntrySystem := { s with writer := .zeroing s.entry.abaCounter value 0 }
  let s₂ : EntrySystem :=
    { s₁ with entry := s.entry.clearFrom b 0, writer := .zeroing s.entry.abaCounter value maxUdsNameLen }
  let s₃ : EntrySystem := { s₂ with writer := .copying s.entry.abaCounter value 0 }
  let s₄ : EntrySystem :=
    { s₃ with entry := s₂.entry.copyFrom b value 0, writer := .copying s.entry.abaCounter value value.length }
  let s₅ : EntrySystem := { s₄ with writer := .incrementing s.entry.abaCounter value }
  have h₁ : Steps s [.write] s₁ := .single (Step.load s value hidle hlen)
  have h₂ : Steps s₁ (List.replicate maxUdsNameLen .write) s₂ := Steps.zeroing _ rfl (Nat.zero_add _)
  have h₃ : Steps s₂ [.write] s₃ := .single (Step.zeroDone s₂ rfl)
  have h₄ : Steps s₃ (List.replicate value.length .write) s₄ := Steps.copying hlen _ rfl (Nat.zero_add _)
  have h₅ : Steps s₄ [.write] s₅ := .single (Step.copyDone s₄ rfl)
  have h₆ := Steps.single (Step.fetchAdd s₅ rfl)
  have hvalue : (s.entry.clearFrom b 0).copyFrom b value 0 =
      { s.entry with value := Function.update s.entry.value b (UdsName.pad value) } := by
    refine Entry.ext' rfl ?_
    funext b' i
    by_cases hb : b' = b
    . subst hb
      simp only [Entry.copyFrom, Entry.clearFrom, Function.update_same, UdsName.pad_apply]
      split
      . rfl
      . simp [List.getElem?_eq_none (by omega : value.length ≤ i.val)]
    . simp [Entry.copyFrom, Entry.clearFrom, Function.update_noteq hb]
  have hsteps : Steps s ([.write] ++ (List.replicate maxUdsNameLen .write ++ ([.write] ++
      (List.replicate value.length .write ++ ([.write] ++ [.write])))))
      { s with
        entry := { abaCounter := s.entry.abaCounter + 1
                   value := Function.update s.entry.value b (UdsName.pad value) }
        history := s.history ++ [value] } := by
    convert h₁.trans (h₂.trans (h₃.trans (h₄.trans (h₅.trans h₆)))) using 1
    obtain ⟨entry, writer, readers, history⟩ := s
    simp only at hidle hvalue ⊢
    subst hidle
    simp [s₅, s₄, s₃, s₂, s₁, hvalue]
  refine ⟨_, _, Entry.set_eq_some hlen, fun ev hev => ?_, hsteps⟩
  simp only [List.mem_append, List.mem_singleton, List.mem_replicate] at hev
  rcases hev with h | ⟨_, h⟩ | h | ⟨_, h⟩ | h | h <;> exact h

theorem Steps.readerCopying {r : Nat} {current : UInt64} {since : Nat} (n : Nat)
    : ∀ {s : EntrySystem} {result : UdsName} {pos : Nat},
        s.readers r = .copying current result pos since → pos + n = maxUdsNameLen →
        Steps s (List.replicate n (.read r))
          (s.setReader r (.copying current
            (fun i => if i.val < pos then result i else s.entry.value (bufferIndex (current - 1)) i)
            maxUdsNameLen since)) := by
  induction n with
  | zero =>
    intro s result pos hr hpos
    have hres : (fun i : Fin maxUdsNameLen => if i.val < pos then result i
        else s.entry.value (bufferIndex (current - 1)) i) = result :=
      funext fun i => if_pos (by have := i.isLt; omega)
    rw [hres, show maxUdsNameLen = pos by omega, setReader_eq_self hr]
    exact .refl _
  | succ n ih =>
    intro s result pos hr hpos
    have hlt : pos < maxUdsNameLen := by omega
    refine .cons (Step.readerCopy s r hr hlt) ?_
    have hrest := ih (s := s.setReader r (.copying current (Function.update result ⟨pos, hlt⟩
      (s.entry.value (bufferIndex (current - 1)) ⟨pos, hlt⟩)) (pos + 1) since))
      (setReader_readers_self _ _ _) (by omega)
    rw [setReader_setReader] at hrest
    convert hrest using 4
    simp only [setReader_entry, Function.update_apply, Fin.ext_iff]
    split_ifs <;> first | rfl | omega | (subst_vars; rfl)

theorem Steps.get_alone {s : EntrySystem} {r : Nat} (hidle : s.readers r = .idle)
    (hpos : 0 < s.entry.abaCounter.toNat)
    : ∃ v evs, s.entry.get = some v ∧ Steps s (evs ++ [.returned r v]) s := by
  let c := s.entry.abaCounter
  let buffer := s.entry.value (bufferIndex (c - 1))
  let s₁ := s.setReader r (.copying c (fun _ => 0) 0 s.history.length)
  have h₁ : Steps s [.read r] s₁ := .single (Step.readerLoad s r hidle hpos)
  have h₂ := Steps.readerCopying (s := s₁) maxUdsNameLen (setReader_readers_self _ _ _) (Nat.zero_add _)
  have hbuf : (fun i : Fin maxUdsNameLen => if i.val < 0 then (fun _ => (0 : UInt8)) i
      else s₁.entry.value (bufferIndex (c - 1)) i) = buffer := funext fun i => if_neg (Nat.not_lt_zero _)
  rw [hbuf] at h₂
  let s₂ := s₁.setReader r (.copying c buffer maxUdsNameLen s.history.length)
  have h₃ : Steps s₂ [.read r] (s₂.setReader r (.comparing c buffer s.history.length)) :=
    .single (Step.readerCopyDone s₂ r (setReader_readers_self _ _ _))
  have h₄ := Steps.single (Step.readerReturn (s₂.setReader r (.comparing c buffer s.history.length)) r
    (setReader_readers_self _ _ _) rfl)
  refine ⟨buffer, [.read r] ++ (List.replicate maxUdsNameLen (.read r) ++ [.read r]),
    Entry.get_eq hpos, ?_⟩
  have hend : (s₂.setReader r (.comparing c buffer s.history.length)).setReader r .idle = s := by
    simp only [s₂, s₁, setReader_setReader, setReader_eq_self hidle]
  rw [hend] at h₄
  simpa only [List.append_assoc, List.singleton_append] using h₁.trans (h₂.trans (h₃.trans h₄))

/-- A reader that loads after a completed `set` of `"a"` returns it padded, the value that `set` wrote. -/
theorem returned_eq_latest_after_set
    : ∃ s s' v, Reachable s ∧ Step s (.returned 0 v) s' ∧ s.history.length < (s.readers 0).since + 2 ^ 64 ∧
        v = latest (s.history.take (s.readers 0).since) ∧ v = UdsName.pad [97] := by
  have hlen : ([97] : List UInt8).length ≤ maxUdsNameLen := by decide
  obtain ⟨e, _, hset, -, hwrite⟩ := Steps.set_alone (s := init) rfl hlen
  obtain ⟨e', hset', hget, hcount⟩ := Entry.get_set (e := init.entry) hlen (by decide)
  obtain rfl : e = e' := Option.some.inj (hset.symm.trans hset')
  obtain ⟨v, evs, hv, hread⟩ := Steps.get_alone (s := { init with entry := e, history := init.history ++ [[97]] })
    (r := 0) rfl (show 0 < e.abaCounter.toNat by omega)
  obtain ⟨s, hload, hstep⟩ := hread.snoc_inv
  have hs := (Reachable.init.steps hwrite).steps hload
  have hwin : s.history.length < (s.readers 0).since + 2 ^ 64 := by
    rw [← hstep.history_returned]
    exact Nat.lt_of_lt_of_le (by decide : 1 < 2 ^ 64) (Nat.le_add_left _ _)
  exact ⟨s, _, v, hs, hstep, hwin, Reachable.returned_eq_latest hs hstep hwin, Option.some.inj (hv.symm.trans hget)⟩

theorem Reachable.sets_alone {value : List UInt8} (hlen : value.length ≤ maxUdsNameLen) (k : Nat)
    : ∀ {s : EntrySystem}, Reachable s → s.writer = .idle →
        ∃ s', Reachable s' ∧ s'.writer = .idle ∧ s'.readers = s.readers ∧
          s'.history = s.history ++ List.replicate k value := by
  induction k with
  | zero => exact fun hs hidle => ⟨_, hs, hidle, rfl, by simp⟩
  | succ k ih =>
    intro s hs hidle
    obtain ⟨e', _, _, _, hsteps⟩ := Steps.set_alone hidle hlen
    obtain ⟨s', hs', hidle', hreaders, hhistory⟩ := ih (hs.steps hsteps) hidle
    exact ⟨s', hs', hidle', hreaders, by simp [hhistory, List.replicate_succ]⟩

theorem latest_replicate (value : List UInt8) {k : Nat} (hk : 0 < k)
    : latest (List.replicate k value) = UdsName.pad value := by
  obtain ⟨k, rfl⟩ := Nat.exists_eq_add_of_lt hk
  rw [Nat.zero_add, List.replicate_succ', latest_append]

/--
A reader loads the counter `1` of an initialized entry; then `2^64` calls of `set` complete and
the counter wraps back to `1`. The reader's comparison succeeds and its `get` returns the last
value written, although no `set` had completed before its load.
-/
theorem returned_after_counter_wrap
    : ∃ s s', Reachable s ∧ Step s (.returned 0 (UdsName.pad [1])) s' ∧
        (s.readers 0).since = 0 ∧ s.history.length = 2 ^ 64 ∧
        UdsName.pad [1] ≠ latest (s.history.take (s.readers 0).since) := by
  let s₁ := init.setReader 0 (.copying 1 (fun _ => 0) 0 0)
  have hs₁ : Reachable s₁ := Reachable.init.step (Step.readerLoad init 0 rfl (by decide))
  obtain ⟨s₂, hs₂, _, hreaders, hhistory⟩ :=
    Reachable.sets_alone (show ([1] : List UInt8).length ≤ maxUdsNameLen by decide) (2 ^ 64) hs₁ rfl
  have hinv := hs₂.inv
  have hcounter : s₂.entry.abaCounter = 1 := by
    rw [UInt64.eq_iff_toNat_eq, hinv.counter, hhistory, show s₁.history = [] from rfl,
      List.nil_append, List.length_replicate]
    rfl
  have hbuffer : s₂.entry.value (bufferIndex (1 - 1)) = UdsName.pad [1] := by
    have hstable := hinv.stable
    rw [hcounter, hhistory] at hstable
    rw [hstable, show s₁.history = [] from rfl, List.nil_append, latest_replicate _ (by decide)]
  have hr₂ : s₂.readers 0 = .copying 1 (fun _ => 0) 0 0 := by
    rw [hreaders]; exact setReader_readers_self _ _ _
  have hcopy := Steps.readerCopying (s := s₂) maxUdsNameLen hr₂ (Nat.zero_add _)
  have hres : (fun i : Fin maxUdsNameLen => if i.val < 0 then (fun _ => (0 : UInt8)) i
      else s₂.entry.value (bufferIndex (1 - 1)) i) = UdsName.pad [1] := by
    rw [← hbuffer]; exact funext fun i => if_neg (Nat.not_lt_zero _)
  rw [hres] at hcopy
  let s₃ := s₂.setReader 0 (.copying 1 (UdsName.pad [1]) maxUdsNameLen 0)
  have hs₄ : Reachable (s₃.setReader 0 (.comparing 1 (UdsName.pad [1]) 0)) :=
    (hs₂.steps hcopy).step (Step.readerCopyDone s₃ 0 (setReader_readers_self _ _ _))
  refine ⟨_, _, hs₄, Step.readerReturn _ 0 (setReader_readers_self _ _ _) hcounter, rfl, ?_, ?_⟩
  . rw [setReader_history, setReader_history, hhistory, show s₁.history = [] from rfl,
      List.nil_append, List.length_replicate]
  . simp only [setReader_readers_self, GetPc.since, List.take_zero]
    intro heq
    exact absurd (congrFun heq ⟨0, by decide⟩) (by decide)

def SpinningPc (counter : UInt64) : GetPc → Prop
  | .copying current _ pos _ => counter ≠ current ∧ pos ≤ maxUdsNameLen
  | .comparing current _ _ => counter ≠ current
  | _ => False

/-- Reader `r` is inside the loop of `get` with a loaded counter that the entry no longer holds. -/
def Spinning (s : EntrySystem) (r : Nat) : Prop :=
  SpinningPc s.entry.abaCounter (s.readers r)

theorem Spinning.step {s s' : EntrySystem} {r : Nat} {ev : Event} (h : Spinning s r)
    (hs : Step s ev s') (hev : ev ≠ .write) : Spinning s' r ∧ ∀ v, ev ≠ .returned r v := by
  have hother : ∀ {r' : Nat} (pc : GetPc), r' ≠ r → Spinning (s.setReader r' pc) r := by
    intro r' pc hne
    simpa [Spinning, setReader, Function.update_noteq hne.symm] using h
  cases hs with
  | load | zero | zeroDone | copy | copyDone | fetchAdd => exact absurd rfl hev
  | readerLoad r' hidle _ | readerPanic r' hidle _ =>
    by_cases hr : r' = r
    . subst hr; rw [Spinning, hidle] at h; exact h.elim
    . exact ⟨hother _ hr, by simp⟩
  | readerCopy r' hpc hpos =>
    by_cases hr : r' = r
    . subst hr
      rw [Spinning, hpc] at h
      exact ⟨by rw [Spinning, setReader_entry, setReader_readers_self]; exact ⟨h.1, hpos⟩, by simp⟩
    . exact ⟨hother _ hr, by simp⟩
  | readerCopyDone r' hpc =>
    by_cases hr : r' = r
    . subst hr
      rw [Spinning, hpc] at h
      exact ⟨by rw [Spinning, setReader_entry, setReader_readers_self]; exact h.1, by simp⟩
    . exact ⟨hother _ hr, by simp⟩
  | readerRetry r' hpc _ =>
    by_cases hr : r' = r
    . subst hr
      rw [Spinning, hpc] at h
      exact ⟨by rw [Spinning, setReader_entry, setReader_readers_self]; exact ⟨h, Nat.zero_le _⟩, by simp⟩
    . exact ⟨hother _ hr, by simp⟩
  | readerReturn r' hpc heq =>
    by_cases hr : r' = r
    . subst hr
      rw [Spinning, hpc] at h
      exact absurd heq h
    . exact ⟨hother _ hr, by simp [hr]⟩

theorem Spinning.steps {s s' : EntrySystem} {r : Nat} {evs : List Event} (h : Spinning s r)
    (hs : Steps s evs s') (hw : Event.write ∉ evs)
    : Spinning s' r ∧ ∀ v, Event.returned r v ∉ evs := by
  induction hs with
  | refl => exact ⟨h, by simp⟩
  | cons hstep _ ih =>
    simp only [List.mem_cons, not_or] at hw
    obtain ⟨h₁, hne⟩ := h.step hstep (Ne.symm hw.1)
    obtain ⟨h₂, hnot⟩ := ih h₁ hw.2
    exact ⟨h₂, fun v hv => (List.mem_cons.mp hv).elim (fun heq => hne v heq.symm) (hnot v)⟩

theorem Spinning.progress {s : EntrySystem} {r : Nat} (h : Spinning s r)
    : ∃ s', Step s (.read r) s' := by
  unfold Spinning at h
  cases hpc : s.readers r with
  | copying current result pos since =>
    rw [hpc] at h
    by_cases hpos : pos < maxUdsNameLen
    . exact ⟨_, Step.readerCopy s r hpc hpos⟩
    . have : pos = maxUdsNameLen := by have := h.2; omega
      subst this
      exact ⟨_, Step.readerCopyDone s r hpc⟩
  | comparing current result since =>
    rw [hpc] at h
    exact ⟨_, Step.readerRetry s r hpc h⟩
  | idle | panicked => rw [hpc] at h; exact h.elim

/--
A reader loads the counter `1`; then one `set` of `"a"` completes and the writer stays idle.
From there on, while no further `set` runs, every comparison of the reader fails: its `get`
never returns, and its loop always has another step to take.
-/
theorem get_spins_after_overlapping_set
    : ∃ s, Reachable s ∧ s.writer = .idle ∧ s.history = [[97]] ∧
        ∀ evs s', Steps s evs s' → Event.write ∉ evs →
          (∀ v, Event.returned 0 v ∉ evs) ∧ ∃ s'', Step s' (.read 0) s'' := by
  let s₁ := init.setReader 0 (.copying 1 (fun _ => 0) 0 0)
  have hs₁ : Reachable s₁ := Reachable.init.step (Step.readerLoad init 0 rfl (by decide))
  obtain ⟨e', _, hset, _, hsteps⟩ := Steps.set_alone (s := s₁) rfl
    (show ([97] : List UInt8).length ≤ maxUdsNameLen by decide)
  have hspin : Spinning { s₁ with entry := e', history := s₁.history ++ [[97]] } 0 := by
    rw [Entry.set_eq_some (by decide)] at hset
    cases hset
    exact ⟨by decide, Nat.zero_le _⟩
  refine ⟨_, hs₁.steps hsteps, rfl, rfl, fun evs s' hs hw => ?_⟩
  obtain ⟨hspin', hnot⟩ := hspin.steps hs hw
  exact ⟨hnot, hspin'.progress⟩

end EntrySystem

end Elkodon
