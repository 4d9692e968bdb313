import Zapdb.Runtime

/-!
# `encoding/binary`'s little-endian byte order

Every fixed-width integer of the wire format is little-endian. `encodeLE w n` is the
`w` bytes `PutUint32` (`w = 4`) or `PutUint64` (`w = 8`) write for `n`, and
`decodeLE` reads them back; the round trip is `n % 256 ^ w`, which is also how a
`uint32(len(...))` conversion of a length of `2^32` or more shows up on the wire.

The Go functions come in two groups:

* the readers `LittleEndian.uint32` / `uint64`, which panic on fewer than 4 / 8 bytes;
* the writers `putUint32` / `putUint64`, `copyAt` and `setAt`, which write into the
  buffer an encoder holds as its state, at an offset, and panic outside it. Each is an
  `overwrite` of a block of the buffer, and blocks written one after the other
  compose (`overwrite_append`).
-/

namespace Zapdb

/-- The `w` low bytes of `n`, least significant first. -/
def encodeLE : Nat → Nat → Bytes
  | 0, _ => []
  | w + 1, n => UInt8.ofNat n :: encodeLE w (n / 256)

/-- The number whose little-endian bytes are `b`. -/
def decodeLE : Bytes → Nat
  | [] => 0
  | x :: b => x.toNat + 256 * decodeLE b

@[simp] theorem length_encodeLE (w n : Nat) : (encodeLE w n).length = w := by
  induction w generalizing n with
  | zero => rfl
  | succ w ih => simp [encodeLE, ih]

theorem decodeLE_encodeLE (w n : Nat) : decodeLE (encodeLE w n) = n % 256 ^ w := by
  induction w generalizing n with
  | zero => simp [encodeLE, decodeLE, Nat.mod_one]
  | succ w ih =>
    rw [encodeLE, decodeLE, ih, Nat.pow_succ', Nat.mod_mul]
    rfl

theorem encodeLE_decodeLE (b : Bytes) : encodeLE b.length (decodeLE b) = b := by
  induction b with
  | nil => rfl
  | cons x b ih =>
    have hx : x.toNat < 256 := x.toNat_lt_size
    have hdiv : (x.toNat + 256 * decodeLE b) / 256 = decodeLE b := by omega
    rw [List.length_cons, decodeLE, encodeLE, hdiv, ih]
    congr 1
    exact UInt8.toNat.inj (by show (x.toNat + 256 * decodeLE b) % 256 = x.toNat; omega)

/-- Only the low `w` bytes of `n` reach the wire. -/
theorem encodeLE_mod (w n : Nat) : encodeLE w (n % 256 ^ w) = encodeLE w n := by
  induction w generalizing n with
  | zero => rfl
  | succ w ih =>
    rw [encodeLE, encodeLE, Nat.pow_succ', Nat.mod_mul_right_div_self, ih]
    congr 1
    exact UInt8.toNat.inj (by show n % (256 * 256 ^ w) % 256 = n % 256;
                                 exact Nat.mod_mul_right_mod n 256 _)

/-- `w` bytes read as a number and written back are the same bytes. -/
theorem encodeLE_decodeLE_of_length {b : Bytes} {w : Nat} (h : b.length = w) :
    encodeLE w (decodeLE b % 256 ^ w) = b := by
  rw [encodeLE_mod, ← h, encodeLE_decodeLE]

theorem decodeLE_lt (b : Bytes) : decodeLE b < 256 ^ b.length := by
  induction b with
  | nil => simp [decodeLE]
  | cons x b ih =>
    have hx : x.toNat < 256 := x.toNat_lt_size
    rw [decodeLE, List.length_cons, Nat.pow_succ']
    omega

/-- The first `w` bytes of `encodeLE w n ++ t` read back as `n` modulo `256 ^ w`. -/
theorem decodeLE_take_encodeLE (w n : Nat) (t : Bytes) :
    decodeLE ((encodeLE w n ++ t).take w) = n % 256 ^ w := by
  rw [List.take_left' (length_encodeLE w n), decodeLE_encodeLE]

/-- Four bytes read inside the input are a `u32`. -/
theorem decodeLE_take_four_lt {data : Bytes} {o : Nat} (h : o + 4 ≤ data.length) :
    decodeLE ((data.drop o).take 4) < 2 ^ 32 := by
  have := decodeLE_lt ((data.drop o).take 4)
  rwa [List.length_take, List.length_drop, Nat.min_eq_left (by omega)] at this

theorem UInt32.ofNat_toNat' (u : UInt32) : UInt32.ofNat u.toNat = u :=
  UInt32.toNat.inj (Nat.mod_eq_of_lt u.toNat_lt_size)

theorem UInt64.ofNat_toNat' (u : UInt64) : UInt64.ofNat u.toNat = u :=
  UInt64.toNat.inj (Nat.mod_eq_of_lt u.toNat_lt_size)

/-! ## Readers -/

namespace LittleEndian

variable {σ : Type}

/-- `binary.LittleEndian.Uint32(b)`, which panics unless `len(b) ≥ 4`. -/
def uint32 (b : Bytes) : GoM σ UInt32 :=
  if 4 ≤ b.length then pure (UInt32.ofNat (decodeLE (b.take 4)))
  else GoM.panic .indexOutOfRange

/-- `binary.LittleEndian.Uint64(b)`, which panics unless `len(b) ≥ 8`. -/
def uint64 (b : Bytes) : GoM σ UInt64 :=
  if 8 ≤ b.length then pure (UInt64.ofNat (decodeLE (b.take 8)))
  else GoM.panic .indexOutOfRange

theorem uint32_of_le {b : Bytes} (h : 4 ≤ b.length) :
    (uint32 b : GoM σ UInt32) = pure (UInt32.ofNat (decodeLE (b.take 4))) := if_pos h

theorem uint64_of_le {b : Bytes} (h : 8 ≤ b.length) :
    (uint64 b : GoM σ UInt64) = pure (UInt64.ofNat (decodeLE (b.take 8))) := if_pos h

end LittleEndian

/-! ## Writers into an encoder's buffer -/

/-- The buffer `buf` with the block at `off` replaced by `x`. -/
def overwrite (off : Nat) (x buf : Bytes) : Bytes :=
  buf.take off ++ x ++ buf.drop (off + x.length)

theorem length_overwrite {off : Nat} {x buf : Bytes} (h : off + x.length ≤ buf.length) :
    (overwrite off x buf).length = buf.length := by
  simp [overwrite]
  omega

/-- **Blocks written back to back** form one block. -/
theorem overwrite_append {off : Nat} {x y buf : Bytes}
    (h : off + x.length + y.length ≤ buf.length) :
    overwrite (off + x.length) y (overwrite off x buf) = overwrite off (x ++ y) buf := by
  have hA : (buf.take off ++ x).length = off + x.length := by
    simp
    omega
  unfold overwrite
  rw [List.take_left' hA, List.drop_append_eq_append_drop,
    List.drop_eq_nil_of_le (show (buf.take off ++ x).length ≤ off + x.length + y.length by omega),
    List.nil_append, hA, List.drop_drop, List.length_append]
  simp only [List.append_assoc]
  rw [show off + x.length + (off + x.length + y.length - (off + x.length))
    = off + (x.length + y.length) by omega]

theorem overwrite_zero_of_length {x buf : Bytes} (h : x.length = buf.length) :
    overwrite 0 x buf = x := by
  simp [overwrite, h]

namespace LittleEndian

/-- `binary.LittleEndian.PutUint32(buf[off:], v)`: the slice panics when
`off > len(buf)`, and the `b[3]` bounds check before any write when fewer than 4
bytes follow `off`. -/
def putUint32 (off : Nat) (v : UInt32) : GoM Bytes Unit := fun buf =>
  if buf.length < off then (.panic .sliceOutOfRange, buf)
  else if buf.length < off + 4 then (.panic .indexOutOfRange, buf)
  else (.ok (), overwrite off (encodeLE 4 v.toNat) buf)

/-- `binary.LittleEndian.PutUint64(buf[off:], v)`. -/
def putUint64 (off : Nat) (v : UInt64) : GoM Bytes Unit := fun buf =>
  if buf.length < off then (.panic .sliceOutOfRange, buf)
  else if buf.length < off + 8 then (.panic .indexOutOfRange, buf)
  else (.ok (), overwrite off (encodeLE 8 v.toNat) buf)

theorem putUint32_of_le {off : Nat} {v : UInt32} {buf : Bytes} (h : off + 4 ≤ buf.length) :
    putUint32 off v buf = (.ok (), overwrite off (encodeLE 4 v.toNat) buf) := by
  simp only [putUint32, if_neg (show ¬buf.length < off by omega),
    if_neg (show ¬buf.length < off + 4 by omega)]

theorem putUint64_of_le {off : Nat} {v : UInt64} {buf : Bytes} (h : off + 8 ≤ buf.length) :
    putUint64 off v buf = (.ok (), overwrite off (encodeLE 8 v.toNat) buf) := by
  simp only [putUint64, if_neg (show ¬buf.length < off by omega),
    if_neg (show ¬buf.length < off + 8 by omega)]

end LittleEndian

/-- `copy(buf[off:], src)`: panics when `off > len(buf)`, and writes no further than
the end of `buf`. -/
def copyAt (off : Nat) (src : Bytes) : GoM Bytes Unit := fun buf =>
  if buf.length < off then (.panic .sliceOutOfRange, buf)
  else (.ok (), buf.take off ++ copy (buf.drop off) src)

/-- `buf[off] = b`, which panics unless `off < len(buf)`. -/
def setAt (off : Nat) (b : UInt8) : GoM Bytes Unit := fun buf =>
  if off < buf.length then (.ok (), buf.set off b) else (.panic .indexOutOfRange, buf)

theorem copyAt_of_le {off : Nat} {src buf : Bytes} (h : off + src.length ≤ buf.length) :
    copyAt off src buf = (.ok (), overwrite off src buf) := by
  simp only [copyAt, if_neg (show ¬buf.length < off by omega), overwrite, copy,
    List.length_drop, List.drop_drop, List.append_assoc]
  rw [List.take_of_length_le (show src.length ≤ buf.length - off by omega), Nat.add_comm]

theorem setAt_of_lt {off : Nat} {b : UInt8} {buf : Bytes} (h : off < buf.length) :
    setAt off b buf = (.ok (), overwrite off [b] buf) := by
  simp only [setAt, if_pos h, overwrite, List.length_singleton]
  rw [List.set_eq_take_append_cons_drop, if_pos h, List.append_assoc, List.singleton_append]

end Zapdb
