import Elkodon.PortToUds.Impl.Entry

/-!
The port-to-UDS-name directory in a single thread.
-/

namespace Elkodon

namespace UdsName

@[simp]
theorem pad_apply (name : List UInt8) (i : Fin maxUdsNameLen) : pad name i = name.getD i.val 0 :=
  rfl

theorem zero_copyFromSlice (value : List UInt8) : zero.copyFromSlice value = pad value := by
  funext i
  simp only [copyFromSlice, zero, pad_apply]
  split
  . rfl
  . simp [List.getD_eq_getElem?_getD, List.getElem?_eq_none (by omega : value.length ≤ i.val)]

theorem pad_replicate_zero : pad (List.replicate maxUdsNameLen 0) = zero := by
  funext i
  simp [zero, List.getD_eq_getElem?_getD, List.getElem?_replicate]

theorem ofFn_pad {name : List UInt8} (h : name.length ≤ maxUdsNameLen)
    : List.ofFn (pad name) = name ++ List.replicate (maxUdsNameLen - name.length) 0 := by
  apply List.ext_getElem
    (by simp only [List.length_ofFn, List.length_append, List.length_replicate]; omega)
  intro i h₁ h₂
  simp only [List.getElem_ofFn, pad_apply, List.getD_eq_getElem?_getD]
  by_cases hi : i < name.length
  . simp [List.getElem_append_left hi, hi]
  . rw [List.getElem_append_right (by omega)]
    simp [List.getElem?_eq_none (by omega : name.length ≤ i)]

end UdsName

theorem bufferIndex_eq_iff (a b : UInt64) : bufferIndex a = bufferIndex b ↔ a.toNat % 2 = b.toNat % 2 := by
  simp [bufferIndex, Fin.ext_iff, UInt64.size]

namespace Entry

theorem set_eq_some {e : Entry} {value : List UInt8} (h : value.length ≤ maxUdsNameLen)
    : e.set value = some
        { abaCounter := e.abaCounter + 1
          value := Function.update e.value (bufferIndex e.abaCounter) (UdsName.pad value) } := by
  simp [set, h, UdsName.zero_copyFromSlice]

theorem set_eq_none {e : Entry} {value : List UInt8} (h : maxUdsNameLen < value.length)
    : e.set value = none := by
  simp [set, Nat.not_le.mpr h]

theorem get_eq {e : Entry} (h : 0 < e.abaCounter.toNat)
    : e.get = some (e.value (bufferIndex (e.abaCounter - 1))) := by
  have h1 : (1 : UInt64) ≤ e.abaCounter := (UInt64.le_iff_toNat_le _ _).mpr h
  simp [get, checkedSub, h1]

theorem get_eq_none {e : Entry} (h : e.abaCounter = 0) : e.get = none := by
  simp [get, checkedSub, h]

theorem get_set {e : Entry} {value : List UInt8} (h : value.length ≤ maxUdsNameLen)
    (hc : e.abaCounter.toNat + 1 < 2 ^ 64)
    : ∃ e', e.set value = some e' ∧ e'.get = some (UdsName.pad value) ∧
        e'.abaCounter.toNat = e.abaCounter.toNat + 1 := by
  have hcount : (e.abaCounter + 1).toNat = e.abaCounter.toNat + 1 := by
    rw [UInt64.toNat_add_eq, show (1 : UInt64).toNat = 1 from rfl, Nat.mod_eq_of_lt hc]
  refine ⟨_, set_eq_some h, ?_, hcount⟩
  rw [get_eq (by simp only [hcount]; omega)]
  have hsub : e.abaCounter + 1 - 1 = e.abaCounter := by
    rw [UInt64.eq_iff_toNat_eq, UInt64.toNat_sub_of_le _ _ (by
      rw [UInt64.le_iff_toNat_le, hcount]; exact Nat.le_add_left _ _), hcount]
    rfl
  dsimp only
  rw [hsub, Function.update_same]

end Entry

namespace PortToUdsNameMap

theorem index?_of_lt {port : Nat} (h : port < udsNamesLen) : index? port = some ⟨port, h⟩ :=
  dif_pos h

theorem index?_of_le {port : Nat} (h : udsNamesLen ≤ port) : index? port = none :=
  dif_neg (by omega)

theorem set_eq_none_of_le {m : PortToUdsNameMap} {port : UInt16} (h : udsNamesLen ≤ port.toNat)
    (name : List UInt8) : m.set port name = none := by
  simp [set, index?_of_le h]

theorem set_eq_some_of_lt {m : PortToUdsNameMap} {port : UInt16} (hport : port.toNat < udsNamesLen)
    {name : List UInt8} (hname : name.length ≤ maxUdsNameLen)
    : m.set port name = some { m with
        udsNames := Function.update m.udsNames ⟨port.toNat, hport⟩
          { abaCounter := (m.udsNames ⟨port.toNat, hport⟩).abaCounter + 1
            value := Function.update (m.udsNames ⟨port.toNat, hport⟩).value
              (bufferIndex (m.udsNames ⟨port.toNat, hport⟩).abaCounter) (UdsName.pad name) } } := by
  simp [set, index?_of_lt hport, Entry.set_eq_some hname]

theorem get_eq_none_of_le {m : PortToUdsNameMap} {port : UInt16} (h : udsNamesLen ≤ port.toNat)
    : m.get port = none := by
  simp [get, index?_of_le h]

theorem get_of_lt {m : PortToUdsNameMap} {port : UInt16} (h : port.toNat < udsNamesLen)
    : m.get port = (m.udsNames ⟨port.toNat, h⟩).get := by
  simp [get, index?_of_lt h]

/--
The names a single-threaded `get` returns, entry by entry, while no counter is `0` or has
passed `bound`.
-/
structure Stores (m : PortToUdsNameMap) (names : Fin udsNamesLen → UdsName) (bound : Nat) : Prop where
  counter_pos : ∀ i, 0 < (m.udsNames i).abaCounter.toNat
  counter_le : ∀ i, (m.udsNames i).abaCounter.toNat ≤ bound
  get_eq : ∀ i, (m.udsNames i).get = some (names i)

theorem stores_initialized : Stores initialized (fun _ => UdsName.zero) 1 where
  counter_pos _ := Nat.one_pos
  counter_le _ := Nat.le_refl 1
  get_eq _ := by
    show Entry.initialized.get = _
    rw [Entry.get_eq (e := Entry.initialized) Nat.one_pos]
    rfl

theorem Stores.mono {m : PortToUdsNameMap} {names : Fin udsNamesLen → UdsName} {bound bound' : Nat}
    (h : Stores m names bound) (hle : bound ≤ bound') : Stores m names bound' :=
  ⟨h.counter_pos, fun i => Nat.le_trans (h.counter_le i) hle, h.get_eq⟩

theorem Stores.set {m : PortToUdsNameMap} {names : Fin udsNamesLen → UdsName} {bound : Nat}
    (h : Stores m names bound) (hbound : bound + 1 < 2 ^ 64) {port : UInt16}
    (hport : port.toNat < udsNamesLen) {name : List UInt8} (hname : name.length ≤ maxUdsNameLen)
    : ∃ m', m.set port name = some m' ∧
        Stores m' (Function.update names ⟨port.toNat, hport⟩ (UdsName.pad name)) (bound + 1) := by
  obtain ⟨e', hset, hget, hcount⟩ :=
    Entry.get_set (e := m.udsNames ⟨port.toNat, hport⟩) hname
      (by have := h.counter_le ⟨port.toNat, hport⟩; omega)
  have hold := h.counter_le ⟨port.toNat, hport⟩
  refine ⟨{ m with udsNames := Function.update m.udsNames ⟨port.toNat, hport⟩ e' },
    by simp [PortToUdsNameMap.set, index?_of_lt hport, hset], ⟨fun i => ?_, fun i => ?_, fun i => ?_⟩⟩
  all_goals by_cases hi : i = ⟨port.toNat, hport⟩
  . subst hi; simp only [Function.update_same]; omega
  . simpa only [Function.update_noteq hi] using h.counter_pos i
  . subst hi; simp only [Function.update_same]; omega
  . simpa only [Function.update_noteq hi] using Nat.le_succ_of_le (h.counter_le i)
  . subst hi; simpa only [Function.update_same] using hget
  . simpa only [Function.update_noteq hi] using h.get_eq i

end PortToUdsNameMap

namespace PortToUdsNameMap

theorem nulPosition_pad {s : List UInt8} (hlen : s.length < maxUdsNameLen) (hnz : ∀ b ∈ s, b ≠ 0)
    : nulPosition (UdsName.pad s) = s.length := by
  have hnone : s.findIdx? (· == 0) = none :=
    List.findIdx?_eq_none_iff.mpr fun b hb => by simpa using hnz b hb
  simp only [nulPosition, UdsName.ofFn_pad hlen.le, List.findIdx?_append, hnone,
    List.findIdx?_replicate, beq_self_eq_true, and_true, if_pos (by omega : 0 < maxUdsNameLen - s.length)]
  simp

theorem nulPosition_pad_full {s : List UInt8} (hlen : s.length = maxUdsNameLen)
    (hnz : ∀ b ∈ s, b ≠ 0) : nulPosition (UdsName.pad s) = 0 := by
  have hnone : s.findIdx? (· == 0) = none :=
    List.findIdx?_eq_none_iff.mpr fun b hb => by simpa using hnz b hb
  simp only [nulPosition, UdsName.ofFn_pad hlen.le, List.findIdx?_append, hnone, hlen,
    Nat.sub_self, List.replicate_zero, List.findIdx?_nil]
  rfl

theorem matchesName_zero (name : List UInt8) : matchesName UdsName.zero name = false := by
  have hpos : nulPosition UdsName.zero = 0 := by
    rw [← UdsName.pad_replicate_zero, nulPosition, UdsName.ofFn_pad (by simp)]
    simp [maxUdsNameLen]
  simp [matchesName, hpos]

theorem matchesName_pad_iff {s : List UInt8} (hs : 0 < s.length) (hlen : s.length < maxUdsNameLen)
    (hnz : ∀ b ∈ s, b ≠ 0) (name : List UInt8)
    : matchesName (UdsName.pad s) name = true ↔ s <+: name := by
  simp only [matchesName, nulPosition_pad hlen hnz, UdsName.ofFn_pad hlen.le,
    List.take_left' rfl]
  by_cases hle : s.length ≤ name.length
  . simp only [show ¬(s.length = 0 ∨ s.length > name.length) by omega, if_false, beq_iff_eq]
    exact ⟨fun h => h ▸ List.take_prefix _ _, fun h => (List.prefix_iff_eq_take.mp h)⟩
  . simp only [show s.length = 0 ∨ s.length > name.length by omega, if_true]
    exact ⟨nofun, fun h => absurd h.length_le hle⟩

theorem matchesName_pad_full {s : List UInt8} (hlen : s.length = maxUdsNameLen)
    (hnz : ∀ b ∈ s, b ≠ 0) (name : List UInt8) : matchesName (UdsName.pad s) name = false := by
  simp [matchesName, nulPosition_pad_full hlen hnz]

theorem find?_finRange_eq_some {n : Nat} {p : Fin n → Bool} {i : Fin n} (hi : p i = true)
    (hlt : ∀ j, j < i → p j = false) : (List.finRange n).find? p = some i := by
  induction n with
  | zero => exact i.elim0
  | succ n ih =>
    rw [List.finRange_succ, List.find?_cons]
    cases i using Fin.cases with
    | zero => simp [hi]
    | succ i =>
      simp only [hlt 0 (Fin.succ_pos i), List.find?_map]
      rw [ih (p := p ∘ Fin.succ) hi fun j hj => hlt j.succ (Fin.succ_lt_succ_iff.mpr hj)]
      rfl

theorem getPort.go_eq {m : PortToUdsNameMap} {name : List UInt8} {names : Fin udsNamesLen → UdsName}
    (is : List (Fin udsNamesLen)) (hget : ∀ i ∈ is, (m.udsNames i).get = some (names i))
    : getPort.go m name is =
        some (((is.find? fun i => matchesName (names i) name).map fun i => i.val.toUInt16).getD 0) := by
  induction is with
  | nil => rfl
  | cons i is ih =>
    have hrest := ih fun j hj => hget j (List.mem_cons_of_mem _ hj)
    simp only [getPort.go, hget i (List.mem_cons_self _ _), Option.bind_eq_bind, Option.some_bind,
      List.find?_cons]
    cases matchesName (names i) name <;> simp [hrest]

theorem Stores.getPort {m : PortToUdsNameMap} {names : Fin udsNamesLen → UdsName} {bound : Nat}
    (h : Stores m names bound) (name : List UInt8)
    : m.getPort name = some
        ((((List.finRange udsNamesLen).find? fun i => matchesName (names i) name).map
          fun i => i.val.toUInt16).getD 0) :=
  getPort.go_eq _ fun i _ => h.get_eq i

end PortToUdsNameMap

inductive DirectoryOp where
  | set (port : UInt16) (name : List UInt8)
  | reset (port : UInt16)

namespace DirectoryOp

def apply (m : PortToUdsNameMap) : DirectoryOp → Option PortToUdsNameMap
  | .set port name => PortToUds.set m port name
  | .reset port => PortToUds.reset m port

def port : DirectoryOp → UInt16
  | .set port _ => port
  | .reset port => port

/-- The name the call stores: `reset` stores `[0; MAX_UDS_NAME_LEN]`. -/
def name : DirectoryOp → List UInt8
  | .set _ name => name
  | .reset _ => List.replicate maxUdsNameLen 0

theorem apply_eq (m : PortToUdsNameMap) (op : DirectoryOp) : op.apply m = m.set op.port op.name := by
  cases op <;> rfl

def Admissible (op : DirectoryOp) : Prop :=
  op.port.toNat < udsNamesLen ∧ op.name.length ≤ maxUdsNameLen

instance (op : DirectoryOp) : Decidable op.Admissible := inferInstanceAs (Decidable (_ ∧ _))

/-- What the call does to the stored names, as a specification: the port now stores the padded name. -/
def expect (names : Fin udsNamesLen → UdsName) (op : DirectoryOp) : Fin udsNamesLen → UdsName :=
  fun i => if i.val = op.port.toNat then UdsName.pad op.name else names i

end DirectoryOp

def runOps (m : PortToUdsNameMap) (ops : List DirectoryOp) : Option PortToUdsNameMap :=
  ops.foldlM DirectoryOp.apply m

def expectOps (ops : List DirectoryOp) : Fin udsNamesLen → UdsName :=
  ops.foldl DirectoryOp.expect (fun _ => UdsName.zero)

theorem runOps_stores {m : PortToUdsNameMap} {names : Fin udsNamesLen → UdsName} {bound : Nat}
    (ops : List DirectoryOp) (h : PortToUdsNameMap.Stores m names bound)
    (hops : ∀ op ∈ ops, op.Admissible) (hlen : bound + ops.length < 2 ^ 64)
    : ∃ m', runOps m ops = some m' ∧
        PortToUdsNameMap.Stores m' (ops.foldl DirectoryOp.expect names) (bound + ops.length) := by
  induction ops generalizing m names bound with
  | nil => exact ⟨m, rfl, h⟩
  | cons op ops ih =>
    obtain ⟨hport, hname⟩ := hops op (List.mem_cons_self _ _)
    obtain ⟨m₁, hset, h₁⟩ := h.set (by simp at hlen; omega) hport hname
    have hexp : Function.update names ⟨op.port.toNat, hport⟩ (UdsName.pad op.name)
        = DirectoryOp.expect names op := by
      funext i
      simp only [Function.update_apply, DirectoryOp.expect, Fin.ext_iff]
    rw [hexp] at h₁
    obtain ⟨m', hrun, h'⟩ := ih h₁ (fun op' hop' => hops op' (List.mem_cons_of_mem _ hop'))
      (by simp at hlen; omega)
    refine ⟨m', by simp [runOps, DirectoryOp.apply_eq, hset]; exact hrun, ?_⟩
    simpa [Nat.add_assoc, Nat.add_comm 1] using h'

/--
Single-threaded semantics of the directory: after any sequence of admitted `set` and `reset`
calls, each port's `get` returns the padded name of its last `set`, or zeros.
-/
theorem runOps_get (ops : List DirectoryOp) (hops : ∀ op ∈ ops, op.Admissible)
    (hlen : ops.length + 1 < 2 ^ 64)
    : ∃ m, runOps PortToUdsNameMap.initialized ops = some m ∧
        ∀ (port : UInt16) (h : port.toNat < udsNamesLen),
          m.get port = some (expectOps ops ⟨port.toNat, h⟩) := by
  obtain ⟨m, hrun, hm⟩ := runOps_stores ops PortToUdsNameMap.stores_initialized hops (by omega)
  exact ⟨m, hrun, fun port h => by rw [PortToUdsNameMap.get_of_lt h]; exact hm.get_eq _⟩

theorem runOps_get_set_reset
    : (∀ op ∈ [DirectoryOp.set 819 [102, 117], .reset 331], op.Admissible) ∧ 2 + 1 < 2 ^ 64 ∧
        ∃ m, runOps PortToUdsNameMap.initialized [.set 819 [102, 117], .reset 331] = some m ∧
          ∀ (port : UInt16) (h : port.toNat < udsNamesLen),
            m.get port = some (expectOps [.set 819 [102, 117], .reset 331] ⟨port.toNat, h⟩) :=
  ⟨by decide, by decide, runOps_get _ (by decide) (by decide)⟩

/-- `set` and `reset` of the top port `65535` index past `uds_names` and panic. -/
theorem PortToUds.set_top_port_panics (m : PortToUdsNameMap) (name : List UInt8)
    : PortToUds.set m 65535 name = none ∧ PortToUds.reset m 65535 = none :=
  ⟨PortToUdsNameMap.set_eq_none_of_le (by decide) _,
    PortToUdsNameMap.set_eq_none_of_le (by decide) _⟩

/--
After `set(1, b"a")` on an initialized directory, `get_port(b"ab")` reports port `1` although
no port stores `"ab"`: the stored name `"a"` is a proper prefix of the query.
-/
theorem PortToUds.getPort_reports_stored_prefix
    : ∃ m, PortToUds.set PortToUdsNameMap.initialized 1 [97] = some m ∧
        PortToUds.getPort m [97, 98] = some 1 ∧
        ∀ port : UInt16, m.get port ≠ some (UdsName.pad [97, 98]) := by
  obtain ⟨m, hset, hm⟩ := PortToUdsNameMap.stores_initialized.set (by decide)
    (show (1 : UInt16).toNat < udsNamesLen by decide)
    (show ([97] : List UInt8).length ≤ maxUdsNameLen by decide)
  refine ⟨m, hset, ?_, fun port => ?_⟩
  . have hmatch : PortToUdsNameMap.matchesName (UdsName.pad [97]) [97, 98] = true :=
      (PortToUdsNameMap.matchesName_pad_iff (by decide) (by decide) (by decide) _).mpr
        ⟨[98], rfl⟩
    rw [PortToUds.getPort, hm.getPort, PortToUdsNameMap.find?_finRange_eq_some (i := ⟨1, by decide⟩)]
    . rfl
    . simpa [Function.update_apply] using hmatch
    . intro j hj
      simp [Function.update_apply, Fin.ext_iff, Fin.lt_def] at hj ⊢
      simp [show j.val ≠ 1 by omega, PortToUdsNameMap.matchesName_zero]
  . by_cases hp : port.toNat < udsNamesLen
    . rw [PortToUdsNameMap.get_of_lt hp, hm.get_eq]
      intro heq
      have h1 := congrFun (Option.some.inj heq) ⟨1, by decide⟩
      simp only [Function.update_apply] at h1
      split at h1 <;> simp [UdsName.zero] at h1
    . simp [PortToUdsNameMap.get_eq_none_of_le (Nat.not_lt.mp hp)]

end Elkodon
