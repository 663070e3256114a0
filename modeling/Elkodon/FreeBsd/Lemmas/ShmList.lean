import Elkodon.FreeBsd.Impl.ShmList

/-!
The walk of `shm_list` over packed `kinfo_file` records: one name per record, then a read past
the last one.
-/

namespace Elkodon

namespace ShmList

def le32 (n : Nat) : List UInt8 :=
  [UInt8.ofNat n, UInt8.ofNat (n / 2 ^ 8), UInt8.ofNat (n / 2 ^ 16), UInt8.ofNat (n / 2 ^ 24)]

/--
A packed `kinfo_file` record: `kf_structsize`, the fields before `kf_path`, the path with its
NUL, and the padding that rounds the record up to the alignment of `kinfo_file`.
-/
structure KinfoRecord (layout : KinfoFileLayout) where
  structsize : Nat
  header : List UInt8
  path : List UInt8
  padding : List UInt8
  header_length : header.length = layout.pathOffset - 4
  path_head : path.head? = some 47
  path_nul_free : ∀ b ∈ path, b ≠ 0
  path_length : path.length ≤ 256
  padding_lt : padding.length < layout.alignment
  structsize_eq : structsize = layout.pathOffset + path.length + 1 + padding.length
  structsize_aligned : structsize % layout.alignment = 0
  structsize_lt : structsize < 2 ^ 31

namespace KinfoRecord

variable {layout : KinfoFileLayout} (r : KinfoRecord layout)

def bytes : List UInt8 :=
  le32 r.structsize ++ r.header ++ r.path ++ 0 :: r.padding

/-- The 256 bytes `strncpy` leaves in `name`: the path after its `/`, padded with NULs. -/
def name : List UInt8 :=
  r.path.tail ++ List.replicate (256 - r.path.tail.length) 0

theorem length_bytes : r.bytes.length = r.structsize := by
  have := r.header_length
  have := r.structsize_eq
  have := layout.size_le
  simp only [bytes, le32, List.length_append, List.length_cons, List.length_nil]
  omega

end KinfoRecord

def encode {layout : KinfoFileLayout} (rs : List (KinfoRecord layout)) : List UInt8 :=
  rs.flatMap KinfoRecord.bytes

@[simp]
theorem encode_nil {layout : KinfoFileLayout} : encode ([] : List (KinfoRecord layout)) = [] :=
  rfl

@[simp]
theorem encode_cons {layout : KinfoFileLayout} (r : KinfoRecord layout) (rs : List (KinfoRecord layout))
    : encode (r :: rs) = r.bytes ++ encode rs :=
  rfl

def Outcome.pushAll (names : List (List UInt8)) (o : Outcome) : Outcome :=
  names.foldr Outcome.push o

@[simp]
theorem Outcome.pushAll_nil : Outcome.pushAll [] = id :=
  rfl

@[simp]
theorem Outcome.pushAll_cons (name : List UInt8) (names : List (List UInt8)) (o : Outcome)
    : Outcome.pushAll (name :: names) o = (Outcome.pushAll names o).push name :=
  rfl

theorem Outcome.pushAll_outOfBounds (names : List (List UInt8))
    : Outcome.pushAll names .outOfBounds = .outOfBounds := by
  induction names with
  | nil => rfl
  | cons name names ih => simp [ih, Outcome.push]

theorem readByte_natCast (block : List UInt8) (n : Nat) : readByte block n = block[n]? := by
  simp [readByte, Int.natCast_nonneg]

theorem readByte_append (pre l : List UInt8) (i : Nat)
    : readByte (pre ++ l) (pre.length + i) = l[i]? := by
  rw [← Nat.cast_add, readByte_natCast, List.getElem?_append_right (by omega)]
  simp

theorem readByte_append_cons (pre l : List UInt8) (b : UInt8)
    : readByte (pre ++ b :: l) pre.length = some b := by
  simpa using readByte_append pre (b :: l) 0

theorem readInt32_append_le32 (pre rest : List UInt8) {n : Nat} (hn : n < 2 ^ 31)
    : readInt32 (pre ++ le32 n ++ rest) pre.length = some (n : Int) := by
  have hbyte (i : Nat) : readByte (pre ++ le32 n ++ rest) (pre.length + i) = (le32 n ++ rest)[i]? := by
    rw [List.append_assoc, readByte_append]
  have h0 := hbyte 0
  have h1 := hbyte 1
  have h2 := hbyte 2
  have h3 := hbyte 3
  simp only [Nat.cast_zero, Int.add_zero, Nat.cast_ofNat, Nat.cast_one] at h0 h1 h2 h3
  simp only [readInt32, h0, h1, h2, h3]
  simp only [le32, List.cons_append, List.getElem?_cons_zero, List.getElem?_cons_succ,
    Option.bind_eq_bind, Option.some_bind, UInt8.toNat, UInt8.ofNat, BitVec.toNat_ofNat]
  have hraw : n % 2 ^ 8 + 256 * (n / 2 ^ 8 % 2 ^ 8) + 65536 * (n / 2 ^ 16 % 2 ^ 8)
      + 16777216 * (n / 2 ^ 24 % 2 ^ 8) = n := by omega
  rw [hraw, if_pos hn]
  rfl

theorem readInt32_end (block : List UInt8) : readInt32 block block.length = none := by
  rw [readInt32, readByte_natCast, List.getElem?_eq_none le_rfl]
  rfl

theorem strncpy_append (pre rest p : List UInt8) (hp : ∀ b ∈ p, b ≠ 0) {n : Nat}
    (hn : p.length < n)
    : strncpy (pre ++ p ++ 0 :: rest) pre.length n = some (p ++ List.replicate (n - p.length) 0) := by
  induction p generalizing pre n with
  | nil =>
    obtain ⟨n, rfl⟩ : ∃ k, n = k + 1 := ⟨n - 1, by simp at hn; omega⟩
    simp [strncpy, readByte_append_cons]
  | cons b p ih =>
    obtain ⟨n, rfl⟩ : ∃ k, n = k + 1 := ⟨n - 1, by simp at hn; omega⟩
    have hb : b ≠ 0 := hp b (.head _)
    have hnext := ih (pre ++ [b]) (fun c hc => hp c (.tail _ hc)) (n := n) (by simpa using hn)
    simp only [List.append_assoc, List.singleton_append, List.cons_append, List.nil_append,
      List.length_append, List.length_singleton, Nat.cast_add, Nat.cast_one] at hnext
    simp [strncpy, readByte_append_cons, hb, hnext]

theorem toUsize_natCast {n : Nat} (hn : n < 2 ^ 64) : toUsize n = UInt64.ofNat n := by
  simp only [toUsize]
  congr
  omega

theorem toIsize_ofNat {n : Nat} (hn : n < 2 ^ 63) : toIsize (UInt64.ofNat n) = n := by
  have : (UInt64.ofNat n).toNat = n := UInt64.toNat_ofNat_of_lt (by simp [UInt64.size]; omega)
  rw [toIsize, this, if_pos hn]

variable {layout : KinfoFileLayout}

theorem align_structsize (r : KinfoRecord layout)
    : align (toUsize r.structsize) (UInt64.ofNat layout.alignment)
      = some (UInt64.ofNat r.structsize) := by
  have hsize := r.structsize_lt
  have halign : (UInt64.ofNat layout.alignment).toNat = layout.alignment :=
    UInt64.toNat_ofNat_of_lt layout.alignment_lt
  have hvalue : (UInt64.ofNat r.structsize).toNat = r.structsize :=
    UInt64.toNat_ofNat_of_lt (by simp [UInt64.size]; omega)
  rw [toUsize_natCast (by omega)]
  apply align_of_aligned
  . simpa [halign] using layout.alignment_pos
  . simpa [halign, hvalue] using r.structsize_aligned

theorem walk_record (pre rest : List UInt8) (r : KinfoRecord layout) (fuel : Nat)
    : walk layout (pre ++ r.bytes ++ rest) (fuel + 1) pre.length
      = (walk layout (pre ++ r.bytes ++ rest) fuel (pre.length + r.structsize)).map
          (Outcome.push r.name) := by
  obtain ⟨tail, htail⟩ := List.head?_eq_some_iff.mp r.path_head
  have hsize := r.structsize_lt
  have hpathOffset := layout.size_le
  have hstructsize : readInt32 (pre ++ r.bytes ++ rest) pre.length = some (r.structsize : Int) := by
    simpa [KinfoRecord.bytes, List.append_assoc]
      using readInt32_append_le32 pre (r.header ++ r.path ++ 0 :: r.padding ++ rest) hsize
  have hblock : pre ++ r.bytes ++ rest
      = pre ++ le32 r.structsize ++ r.header ++ 47 :: (tail ++ 0 :: (r.padding ++ rest)) := by
    simp [KinfoRecord.bytes, htail]
  have hlen : ((pre ++ le32 r.structsize ++ r.header).length : Int)
      = pre.length + layout.pathOffset := by
    have := r.header_length
    simp only [List.length_append, le32, List.length_cons, List.length_nil]
    omega
  have hfirst : readByte (pre ++ r.bytes ++ rest) (pre.length + layout.pathOffset) = some 47 := by
    rw [hblock, ← hlen, readByte_append_cons]
  have hname : strncpy (pre ++ r.bytes ++ rest) (pre.length + layout.pathOffset + 1) 256
      = some r.name := by
    have hfree : ∀ b ∈ tail, b ≠ 0 := fun b hb => r.path_nul_free b (by simp [htail, hb])
    have htail_length : tail.length < 256 := by
      have := r.path_length
      simp only [htail, List.length_cons] at this
      omega
    have := strncpy_append (pre ++ le32 r.structsize ++ r.header ++ [47]) (r.padding ++ rest) tail
      hfree htail_length
    simp only [List.append_assoc, List.singleton_append, List.cons_append, List.length_append,
      List.length_singleton, Nat.cast_add, Nat.cast_one] at this hlen
    simpa [KinfoRecord.name, htail, hblock, ← hlen] using this
  have hne : (r.structsize : Int) ≠ 0 := by
    have := r.structsize_eq
    omega
  rw [walk, hstructsize]
  simp only [hne, if_false, hfirst, hname, align_structsize, toIsize_ofNat (by omega : r.structsize < 2 ^ 63)]
  rfl

theorem walk_encode (pre rest : List UInt8) (rs : List (KinfoRecord layout)) (fuel : Nat)
    : walk layout (pre ++ encode rs ++ rest) (rs.length + fuel) pre.length
      = (walk layout (pre ++ encode rs ++ rest) fuel (pre ++ encode rs).length).map
          (Outcome.pushAll (rs.map KinfoRecord.name)) := by
  induction rs generalizing pre with
  | nil => simp [Outcome.pushAll]
  | cons r rs ih =>
    have hstep := walk_record pre (encode rs ++ rest) r (rs.length + fuel)
    have hrest := ih (pre ++ r.bytes)
    have hlen : ((pre ++ r.bytes).length : Int) = pre.length + r.structsize := by
      simp [r.length_bytes]
    simp only [List.append_assoc] at hstep hrest ⊢
    rw [hlen] at hrest
    rw [encode_cons, List.length_cons, Nat.add_right_comm, List.append_assoc, hstep, hrest,
      Option.map_map]
    rfl

theorem walk_end (block : List UInt8) (fuel : Nat)
    : walk layout block (fuel + 1) block.length = some .outOfBounds := by
  simp [walk, readInt32_end]

/--
The walk reads past the records: over a block of exactly the bytes the kernel wrote, it takes
every record and then reads the `kf_structsize` after them, outside the block.
-/
theorem walk_reads_past_written_records (rs : List (KinfoRecord layout)) (fuel : Nat)
    : walk layout (encode rs) (rs.length + fuel + 1) 0 = some .outOfBounds := by
  have := walk_encode [] [] rs (fuel + 1)
  simp only [List.nil_append, List.append_nil, List.length_nil, Nat.cast_zero] at this
  rw [← Nat.add_assoc] at this
  rw [this, walk_end, Option.map_some', Outcome.pushAll_outOfBounds]

example
    : walk ⟨4, 8, le_refl 4, by decide, by decide⟩
        (@encode ⟨4, 8, le_refl 4, by decide, by decide⟩ [⟨8, [], [47, 97], [0], rfl, rfl,
          by decide, by decide, by decide, rfl, by decide, by decide⟩]) 2 0 = some .outOfBounds := by
  decide

end ShmList

end Elkodon
