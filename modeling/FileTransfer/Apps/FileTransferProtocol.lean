import FileTransfer.Foundation.Overlay

/-! The datagrams of `file_transfer_protocol.h` on LP64: a header of sixteen bytes, the flags in
its first four and the offset in its last eight, and the data behind it. -/
namespace FileTransfer
open Overlay

/-- How a `size_t` lies in memory; both ends of a transfer agree on it. -/
structure SizeLayout where
  toBytes : UInt64 → List UInt8
  ofBytes : List UInt8 → UInt64
  length_toBytes : ∀ n, (toBytes n).length = 8
  ofBytes_toBytes : ∀ n, ofBytes (toBytes n) = n

/-! ### The byte order of x86 -/

/-- The `k` lowest bytes of a number, the lowest one first. -/
def lowBytes : ℕ → ℕ → List UInt8
  | 0, _ => []
  | k + 1, n => UInt8.ofNat n :: lowBytes k (n / 256)

def bytesValue : List UInt8 → ℕ
  | [] => 0
  | b :: bytes => b.toNat + 256 * bytesValue bytes

theorem length_lowBytes (k n : ℕ) : (lowBytes k n).length = k := by
  induction k generalizing n with
  | zero => rfl
  | succ k ih => rw [lowBytes, List.length_cons, ih]

theorem bytesValue_lowBytes (k n : ℕ) : bytesValue (lowBytes k n) = n % 256 ^ k := by
  induction k generalizing n with
  | zero => rw [pow_zero, Nat.mod_one]; rfl
  | succ k ih =>
    have hb : (UInt8.ofNat n).toNat = n % 256 := UInt8.toNat_ofNat'
    rw [lowBytes, bytesValue, ih, hb, pow_succ', Nat.mod_mul]

theorem ofNat_bytesValue_lowBytes (n : UInt64) :
    UInt64.ofNat (bytesValue (lowBytes 8 n.toNat)) = n := by
  have hlt : n.toNat < 256 ^ 8 := n.toNat_lt
  rw [bytesValue_lowBytes, Nat.mod_eq_of_lt hlt, UInt64.ofNat_toNat]

def SizeLayout.littleEndian : SizeLayout where
  toBytes n := lowBytes 8 n.toNat
  ofBytes bytes := UInt64.ofNat (bytesValue bytes)
  length_toBytes n := length_lowBytes 8 n.toNat
  ofBytes_toBytes := ofNat_bytesValue_lowBytes

/-! ### The fields of a datagram -/

def sizeofDataChunkProtocol : UInt64 := 16

theorem toNat_sizeofDataChunkProtocol : sizeofDataChunkProtocol.toNat = 16 := rfl

variable (layout : SizeLayout)

def chunkOffset (dataChunk : List UInt8) : UInt64 := layout.ofBytes ((dataChunk.drop 8).take 8)

def chunkData (dataChunk : List UInt8) : List UInt8 := dataChunk.drop sizeofDataChunkProtocol.toNat

def setChunkData (dataChunk data : List UInt8) : List UInt8 :=
  dataChunk.take sizeofDataChunkProtocol.toNat ++ data

/-- `data_chunk->flags = 0`. -/
def clearChunkFlags (dataChunk : List UInt8) : List UInt8 := writeAt 0 dataChunk 0 [0, 0, 0, 0]

def setChunkOffset (dataChunk : List UInt8) (offset : UInt64) : List UInt8 :=
  writeAt 0 dataChunk 8 (layout.toBytes offset)

/-- What a datagram asks to be written, and where. -/
def chunk (dataChunk : List UInt8) : ℕ × List UInt8 :=
  ((chunkOffset layout dataChunk).toNat, chunkData dataChunk)

section Fields
variable {layout} {dataChunk data : List UInt8} {offset : UInt64} {n : ℕ}

/-- The buffer filled with data and with the offset of the data. -/
def fillChunk (layout : SizeLayout) (dataChunk data : List UInt8) (offset : UInt64) : List UInt8 :=
  setChunkOffset layout (clearChunkFlags (setChunkData dataChunk data)) offset

theorem length_setChunkData (data : List UInt8) (h : 16 ≤ dataChunk.length) :
    (setChunkData dataChunk data).length = 16 + data.length := by
  unfold setChunkData
  rw [List.length_append, toNat_sizeofDataChunkProtocol, List.length_take_of_le h]

theorem length_clearChunkFlags (h : 4 ≤ dataChunk.length) :
    (clearChunkFlags dataChunk).length = dataChunk.length := by
  unfold clearChunkFlags
  rw [length_writeAt]
  exact max_eq_left h

theorem length_fillChunk (h : 16 ≤ dataChunk.length) :
    (fillChunk layout dataChunk data offset).length = 16 + data.length := by
  have hdata := length_setChunkData data h
  unfold fillChunk setChunkOffset
  rw [length_writeAt, length_clearChunkFlags (by omega), hdata, layout.length_toBytes]
  omega

theorem chunkOffset_fillChunk :
    chunkOffset layout (fillChunk layout dataChunk data offset) = offset := by
  have hbytes := take_drop_writeAt 0 (clearChunkFlags (setChunkData dataChunk data)) 8
    (layout.toBytes offset)
  rw [layout.length_toBytes] at hbytes
  unfold chunkOffset fillChunk setChunkOffset
  rw [hbytes, layout.ofBytes_toBytes]

theorem chunkData_fillChunk (h : 16 ≤ dataChunk.length) :
    chunkData (fillChunk layout dataChunk data offset) = data := by
  unfold chunkData fillChunk setChunkOffset
  rw [drop_writeAt (by rw [layout.length_toBytes]; rfl)]
  unfold clearChunkFlags
  rw [drop_writeAt (by decide)]
  unfold setChunkData
  exact List.drop_left' (List.length_take_of_le h)

/-! What a datagram says does not depend on what is cut off behind its data. -/

theorem chunkOffset_take (h : 16 ≤ n) :
    chunkOffset layout (dataChunk.take n) = chunkOffset layout dataChunk := by
  unfold chunkOffset
  rw [List.drop_take, List.take_take, min_eq_left (by omega)]

theorem chunkData_take : chunkData (dataChunk.take (16 + n)) = (chunkData dataChunk).take n := by
  unfold chunkData
  rw [List.drop_take, toNat_sizeofDataChunkProtocol, Nat.add_sub_cancel_left]

end Fields
end FileTransfer
