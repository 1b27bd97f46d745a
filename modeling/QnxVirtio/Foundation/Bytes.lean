import Mathlib.Data.List.Basic

/-!
# Byte-addressed memory and little-endian words

Memory is a function from addresses to bytes.  Blocks are lists of bytes; words
are blocks in little-endian order, the byte order of both supported targets.
-/

namespace QnxVirtio
namespace Foundation

abbrev Bytes := Nat -> UInt8

/-- The `n` bytes from address `a` on. -/
def loadBytes (m : Bytes) (a n : Nat) : List UInt8 :=
  (List.range n).map fun i => m (a + i)

/-- Overwrite the bytes from address `a` on with a block. -/
def storeBytes (m : Bytes) (a : Nat) (block : List UInt8) : Bytes :=
  fun i => if a <= i then (block[i - a]?).getD (m i) else m i

@[simp] theorem length_loadBytes (m : Bytes) (a n : Nat) :
    (loadBytes m a n).length = n := by
  simp [loadBytes]

theorem storeBytes_of_lt {m : Bytes} {a i : Nat} {block : List UInt8}
    (h : i < a) : storeBytes m a block i = m i := by
  simp [storeBytes, Nat.not_le.mpr h]

theorem storeBytes_of_ge {m : Bytes} {a i : Nat} {block : List UInt8}
    (h : a + block.length <= i) : storeBytes m a block i = m i := by
  have hnone : block[i - a]? = none := by
    apply List.getElem?_eq_none
    omega
  simp [storeBytes, hnone]

theorem loadBytes_storeBytes_same (m : Bytes) (a : Nat) (block : List UInt8) :
    loadBytes (storeBytes m a block) a block.length = block := by
  apply List.ext_getElem
  · simp
  · intro i hi hi'
    simp [loadBytes, storeBytes, List.getElem?_eq_getElem hi']

theorem loadBytes_congr {m m' : Bytes} {a n : Nat}
    (h : forall i, a <= i -> i < a + n -> m i = m' i) :
    loadBytes m a n = loadBytes m' a n := by
  unfold loadBytes
  apply List.map_congr_left
  intro i hi
  have hlt : i < n := List.mem_range.mp hi
  exact h (a + i) (by omega) (by omega)

theorem loadBytes_storeBytes_disjoint {m : Bytes} {a b n : Nat}
    {block : List UInt8}
    (h : a + block.length <= b ∨ b + n <= a) :
    loadBytes (storeBytes m a block) b n = loadBytes m b n := by
  apply loadBytes_congr
  intro i hi hi'
  rcases h with h | h
  · exact storeBytes_of_ge (by omega)
  · exact storeBytes_of_lt (by omega)

/-- A block after an overwrite of its middle. -/
def overwrite (bytes : List UInt8) (off : Nat) (block : List UInt8) : List UInt8 :=
  bytes.take off ++ block ++ bytes.drop (off + block.length)

theorem loadBytes_append (m : Bytes) (a n k : Nat) :
    loadBytes m a (n + k) = loadBytes m a n ++ loadBytes m (a + n) k := by
  simp only [loadBytes, List.range_add, List.map_append, List.map_map]
  congr 1
  apply List.map_congr_left
  intro i _
  simp [Nat.add_assoc]

theorem loadBytes_take_drop (m : Bytes) (a : Nat) {off n len : Nat}
    (h : off + n <= len) :
    loadBytes m (a + off) n = ((loadBytes m a len).drop off).take n := by
  rcases Nat.exists_eq_add_of_le h with ⟨rest, rfl⟩
  rw [loadBytes_append, loadBytes_append, List.append_assoc,
    List.drop_append_of_le_length (by simp), List.drop_of_length_le (by simp),
    List.nil_append, List.take_append_of_le_length (by simp),
    List.take_of_length_le (by simp)]

theorem loadBytes_overwrite (m : Bytes) (a : Nat) {off len : Nat}
    {block : List UInt8} (h : off + block.length <= len) :
    loadBytes (storeBytes m (a + off) block) a len =
      overwrite (loadBytes m a len) off block := by
  rcases Nat.exists_eq_add_of_le h with ⟨rest, rfl⟩
  have hback : loadBytes m a (off + block.length + rest) =
      loadBytes m a off ++ loadBytes m (a + off) block.length ++
        loadBytes m (a + (off + block.length)) rest := by
    rw [loadBytes_append, loadBytes_append]
  rw [loadBytes_append, loadBytes_append, loadBytes_storeBytes_same,
    loadBytes_storeBytes_disjoint (Or.inr (Nat.le_refl _)),
    loadBytes_storeBytes_disjoint (Or.inl (Nat.le_of_eq (Nat.add_assoc ..))), hback]
  unfold overwrite
  congr 1
  · congr 1
    rw [List.append_assoc, List.take_append_of_le_length (by simp),
      List.take_of_length_le (by simp)]
  · rw [List.drop_append, List.drop_of_length_le (by simp)]
    simp

/-!
## Words
-/

def encode16 (v : UInt16) : List UInt8 :=
  [UInt8.ofNat v.toNat, UInt8.ofNat (v.toNat / 256)]

def decode16 : List UInt8 -> UInt16
  | [b0, b1] => UInt16.ofNat (b0.toNat + 256 * b1.toNat)
  | _ => 0

def encode32 (v : UInt32) : List UInt8 :=
  [UInt8.ofNat v.toNat, UInt8.ofNat (v.toNat / 256),
    UInt8.ofNat (v.toNat / 65536), UInt8.ofNat (v.toNat / 16777216)]

def decode32 : List UInt8 -> UInt32
  | [b0, b1, b2, b3] =>
      UInt32.ofNat (b0.toNat + 256 * b1.toNat + 65536 * b2.toNat +
        16777216 * b3.toNat)
  | _ => 0

@[simp] theorem length_encode16 (v : UInt16) : (encode16 v).length = 2 := rfl

@[simp] theorem length_encode32 (v : UInt32) : (encode32 v).length = 4 := rfl

@[simp] theorem decode16_encode16 (v : UInt16) : decode16 (encode16 v) = v := by
  apply UInt16.toNat_inj.mp
  have hv : v.toNat < 65536 := v.toNat_lt
  simp only [encode16, decode16, UInt8.toNat_ofNat', UInt16.toNat_ofNat']
  omega

@[simp] theorem decode32_encode32 (v : UInt32) : decode32 (encode32 v) = v := by
  apply UInt32.toNat_inj.mp
  have hv : v.toNat < 4294967296 := v.toNat_lt
  simp only [encode32, decode32, UInt8.toNat_ofNat', UInt32.toNat_ofNat']
  omega

end Foundation
end QnxVirtio
