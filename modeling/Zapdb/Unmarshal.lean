import Zapdb.Layout

/-!
# The decoders

Each `Unmarshal` is a `GoM` computation on its receiver, written statement for
statement over an `IntSize`: every `int(...)` conversion of a `uint32` and every
`offset + n` goes through the target's `int`, and every `data[a:]`, `data[a:b]`,
`data[i]` and `make` carries the runtime's check. As with the encoders, the
statements after `offset := 0` form the decoder's `unmarshalAt`, and the statement
groups that recur are one definition each:

* `need` — `if offset+n > len(data) { return errBufferTooSmall }`;
* `readUint32`, `readUint64` — a fixed-width field read with no check, then
  `offset += 4` or `8`; `getUint32`, `getUint64` put a `need` in front;
* `getField` — a length-prefixed byte field, `getCheckedField` with a `need` for its
  prefix in front; `getStringField` is `Match`'s `string` field, which has no `make`;
* `getByte` — `KV`'s last field, a byte compared with 0.

A group without its check opens `KV`, `ManifestChange`, `DataKey` and `Match`: the
minimum-size check at the top of those decoders is what keeps those reads in bounds.
Where the Go code ends on a group without its `offset +=` (the last field of a record),
the group's offset is computed and dropped.

The second part evaluates each group at an offset that is a natural number, where the
target's `int` holds every value the group forms (`IntSize.ExactTo`).
-/

namespace Zapdb

open LittleEndian

section Groups

variable {σ : Type} (w : IntSize) (data : Bytes)

/-- `if offset+n > len(data) { return errBufferTooSmall }`. -/
def need (offset n : Int) : GoM σ Unit :=
  if w.add offset n > data.length then GoM.fail .bufferTooSmall else pure ()

/-- `int(binary.LittleEndian.Uint32(data[offset:]))`. -/
def lenAt (offset : Int) : GoM σ Int := do
  pure (w.ofUInt32 (← uint32 (← sliceFrom data offset)))

/-- `r.F = binary.LittleEndian.Uint32(data[offset:]); offset += 4`, where `set` is the
assignment to `r.F`. -/
def readUint32 (set : UInt32 → σ → σ) (offset : Int) : GoM σ Int := do
  let v ← uint32 (← sliceFrom data offset)
  GoM.modify (set v)
  pure (w.add offset 4)

/-- `r.F = binary.LittleEndian.Uint64(data[offset:]); offset += 8`. -/
def readUint64 (set : UInt64 → σ → σ) (offset : Int) : GoM σ Int := do
  let v ← uint64 (← sliceFrom data offset)
  GoM.modify (set v)
  pure (w.add offset 8)

/-- `if offset+4 > len(data) { return errBufferTooSmall }`, then a `readUint32`. -/
def getUint32 (set : UInt32 → σ → σ) (offset : Int) : GoM σ Int := do
  need w data offset 4
  readUint32 w data set offset

/-- `if offset+8 > len(data) { return errBufferTooSmall }`, then a `readUint64`. -/
def getUint64 (set : UInt64 → σ → σ) (offset : Int) : GoM σ Int := do
  need w data offset 8
  readUint64 w data set offset

/-- `fLen := int(binary.LittleEndian.Uint32(data[offset:])); offset += 4;
if offset+fLen > len(data) { return errBufferTooSmall };
r.F = make([]byte, fLen); copy(r.F, data[offset:offset+fLen]); offset += fLen`. -/
def getField (set : Bytes → σ → σ) (offset : Int) : GoM σ Int := do
  let n ← lenAt w data offset
  let offset := w.add offset 4
  need w data offset n
  let f ← make n (0 : UInt8)
  let f := copy f (← slice data offset (w.add offset n))
  GoM.modify (set f)
  pure (w.add offset n)

/-- `if offset+4 > len(data) { return errBufferTooSmall }`, then a `getField`. -/
def getCheckedField (set : Bytes → σ → σ) (offset : Int) : GoM σ Int := do
  need w data offset 4
  getField w data set offset

/-- `if offset+4 > len(data) { … }; n := int(binary.LittleEndian.Uint32(data[offset:]));
offset += 4; if offset+n > len(data) { … }; r.F = string(data[offset:offset+n])`. -/
def getStringField (set : Bytes → σ → σ) (offset : Int) : GoM σ Unit := do
  need w data offset 4
  let n ← lenAt w data offset
  let offset := w.add offset 4
  need w data offset n
  let b ← slice data offset (w.add offset n)
  GoM.modify (set b)

/-- `if offset+1 > len(data) { return errBufferTooSmall }; r.F = f(data[offset])`. -/
def getByte (set : UInt8 → σ → σ) (offset : Int) : GoM σ Unit := do
  need w data offset 1
  let b ← index data offset
  GoM.modify (set b)

end Groups

/-- `p = &T{}`, then `err := p.f(...)` with `p` stored in the receiver by `store`: `f`
runs on a zero value `z`, what it leaves there is stored whatever its exit, and its
exit is passed on (`if err != nil { return err }`). -/
def GoM.callNew {σ τ α : Type} (z : τ) (store : τ → σ → σ) (m : GoM τ α) : GoM σ α :=
  fun s => ((m z).1, store (m z).2 s)

section CallNew

variable {σ τ α β : Type} {z t : τ} {store : τ → σ → σ} {m : GoM τ α}

theorem GoM.callNew_bind_ok {a : α} (h : m z = (.ok a, t)) (f : α → GoM σ β) (s : σ) :
    (GoM.callNew z store m >>= f) s = f a (store t s) :=
  GoM.bind_apply_ok (show ((m z).1, store (m z).2 s) = _ by rw [h])

theorem GoM.callNew_bind_err {e : PbError} (h : (m z).1 = .err e) (f : α → GoM σ β) (s : σ) :
    ((GoM.callNew z store m >>= f) s).1 = .err e :=
  GoM.bind_err_fst h

end CallNew

/-! ## The decoders -/

section Decoders

variable (w : IntSize) (data : Bytes)

/-- The statements of `KV.Unmarshal` after `offset := 0`. -/
def KV.unmarshalAt (offset : Int) : GoM KV Unit := do
  let offset ← getField w data (fun b k => { k with key := b }) offset
  let offset ← getCheckedField w data (fun b k => { k with value := b }) offset
  let offset ← getCheckedField w data (fun b k => { k with userMeta := b }) offset
  let offset ← getUint64 w data (fun v k => { k with version := v }) offset
  let offset ← getUint64 w data (fun v k => { k with expiresAt := v }) offset
  let offset ← getCheckedField w data (fun b k => { k with meta := b }) offset
  let offset ← getUint32 w data (fun v k => { k with streamId := v }) offset
  getByte w data (fun b k => { k with streamDone := b != 0 }) offset

/-- `KV.Unmarshal`: at least 37 bytes, the encoding of a `KV` with empty fields. -/
def KV.unmarshal : GoM KV Unit :=
  if data.length < 37 then GoM.fail .bufferTooSmall else KV.unmarshalAt w data 0

/-- The loop `for i := 0; i < count; i++` that `KVList.Unmarshal` and
`ManifestChangeSet.Unmarshal` share, at index `i` with `n` iterations left: an element
is a length-prefixed slice; the pointer at `i` in the field `f` is set to a zero `τ`
(`z`) before the slice expression of the call is evaluated, and `unmarshal` then
decodes the slice into it. -/
def unmarshalElems {σ τ : Type} (f : ListField σ τ) (z : τ) (unmarshal : Bytes → GoM τ Unit) :
    Nat → Nat → Int → GoM σ Int
  | _, 0, offset => pure offset
  | i, n + 1, offset => do
    need w data offset 4
    let size ← lenAt w data offset
    let offset := w.add offset 4
    need w data offset size
    GoM.modify (f.store i z)
    let sub ← slice data offset (w.add offset size)
    GoM.callNew z (f.store i) (unmarshal sub)
    unmarshalElems f z unmarshal (i + 1) n (w.add offset size)

/-- The loop of `KVList.Unmarshal`: `l.Kv[i] = &KV{}`, then `l.Kv[i].Unmarshal(...)`. -/
def KVList.unmarshalKv : Nat → Nat → Int → GoM KVList Int :=
  unmarshalElems w data KVList.kvField {} (KV.unmarshal w)

/-- The statements of `KVList.Unmarshal` after `offset := 0`: the element array is
allocated as soon as the count is read. -/
def KVList.unmarshalAt (offset : Int) : GoM KVList Unit := do
  let count ← lenAt w data offset
  let offset := w.add offset 4
  let kvs ← make count (none : Option KV)
  GoM.modify ({ · with kv := kvs })
  let offset ← KVList.unmarshalKv w data 0 count.toNat offset
  let _ ← getUint64 w data (fun v l => { l with allocRef := v }) offset

/-- `KVList.Unmarshal`: at least 12 bytes, a count and an `allocRef`. -/
def KVList.unmarshal : GoM KVList Unit :=
  if data.length < 12 then GoM.fail .bufferTooSmall else KVList.unmarshalAt w data 0

/-- The statements of `ManifestChange.Unmarshal` after `offset := 0`: no check, the
first 32 bytes being there. -/
def ManifestChange.unmarshalAt (offset : Int) : GoM ManifestChange Unit := do
  let offset ← readUint64 w data (fun v m => { m with id := v }) offset
  let offset ← readUint32 w data (fun v m => { m with op := ⟨v⟩ }) offset
  let offset ← readUint32 w data (fun v m => { m with level := v }) offset
  let offset ← readUint64 w data (fun v m => { m with keyId := v }) offset
  let offset ← readUint32 w data (fun v m => { m with encryptionAlgo := ⟨v⟩ }) offset
  let _ ← readUint32 w data (fun v m => { m with compression := v }) offset

/-- `ManifestChange.Unmarshal`: at least 32 bytes. -/
def ManifestChange.unmarshal : GoM ManifestChange Unit :=
  if data.length < 32 then GoM.fail .bufferTooSmall else ManifestChange.unmarshalAt w data 0

/-- The loop of `ManifestChangeSet.Unmarshal`: `m.Changes[i] = &ManifestChange{}`, then
`m.Changes[i].Unmarshal(...)`. -/
def ManifestChangeSet.unmarshalChanges : Nat → Nat → Int → GoM ManifestChangeSet Int :=
  unmarshalElems w data ManifestChangeSet.changesField {} (ManifestChange.unmarshal w)

/-- The statements of `ManifestChangeSet.Unmarshal` after `offset := 0`. -/
def ManifestChangeSet.unmarshalAt (offset : Int) : GoM ManifestChangeSet Unit := do
  let count ← lenAt w data offset
  let offset := w.add offset 4
  let changes ← make count (none : Option ManifestChange)
  GoM.modify ({ · with changes })
  let _ ← ManifestChangeSet.unmarshalChanges w data 0 count.toNat offset

/-- `ManifestChangeSet.Unmarshal`: at least the 4 bytes of the count. -/
def ManifestChangeSet.unmarshal : GoM ManifestChangeSet Unit :=
  if data.length < 4 then GoM.fail .bufferTooSmall else ManifestChangeSet.unmarshalAt w data 0

/-- The statements of `DataKey.Unmarshal` after `offset := 0`. -/
def DataKey.unmarshalAt (offset : Int) : GoM DataKey Unit := do
  let offset ← readUint64 w data (fun v d => { d with keyId := v }) offset
  let offset ← getField w data (fun b d => { d with data := b }) offset
  let offset ← getCheckedField w data (fun b d => { d with iv := b }) offset
  let _ ← getUint64 w data (fun v d => { d with createdAt := ⟨v⟩ }) offset

/-- `DataKey.Unmarshal`: at least 24 bytes. -/
def DataKey.unmarshal : GoM DataKey Unit :=
  if data.length < 24 then GoM.fail .bufferTooSmall else DataKey.unmarshalAt w data 0

/-- `Checksum.Unmarshal`: at least 12 bytes, read at the fixed offsets 0 and 4. -/
def Checksum.unmarshal : GoM Checksum Unit :=
  if data.length < 12 then GoM.fail .bufferTooSmall else do
    let algo ← uint32 (← sliceFrom data 0)
    GoM.modify ({ · with algo := ⟨algo⟩ })
    let sum ← uint64 (← sliceFrom data 4)
    GoM.modify ({ · with sum })

/-- The statements of `Match.Unmarshal` after `offset := 0`. -/
def Match.unmarshalAt (offset : Int) : GoM Match Unit := do
  let offset ← getField w data (fun b m => { m with prefixBytes := b }) offset
  getStringField w data (fun b m => { m with ignoreBytes := b }) offset

/-- `Match.Unmarshal`: at least 8 bytes. -/
def Match.unmarshal : GoM Match Unit :=
  if data.length < 8 then GoM.fail .bufferTooSmall else Match.unmarshalAt w data 0

end Decoders

section Fixed

variable {σ : Type} {w : IntSize} {data : Bytes}

/-- A fixed-width read at a natural offset inside the input, on a target where
`offset += 4` computes exactly there. -/
theorem readUint32_natCast (set : UInt32 → σ → σ) {o : Nat} (h : o + 4 ≤ data.length)
    (hadd : w.add o 4 = ((o + 4 : Nat) : Int)) (s : σ) :
    readUint32 w data set o s =
      (.ok ((o + 4 : Nat) : Int), set (UInt32.ofNat (decodeLE ((data.drop o).take 4))) s) := by
  rw [readUint32, sliceFrom_natCast (by omega), GoM.pure_bind,
    uint32_of_le (by rw [List.length_drop]; omega), GoM.pure_bind, hadd]
  rfl

theorem readUint64_natCast (set : UInt64 → σ → σ) {o : Nat} (h : o + 8 ≤ data.length)
    (hadd : w.add o 8 = ((o + 8 : Nat) : Int)) (s : σ) :
    readUint64 w data set o s =
      (.ok ((o + 8 : Nat) : Int), set (UInt64.ofNat (decodeLE ((data.drop o).take 8))) s) := by
  rw [readUint64, sliceFrom_natCast (by omega), GoM.pure_bind,
    uint64_of_le (by rw [List.length_drop]; omega), GoM.pure_bind, hadd]
  rfl

end Fixed

/-! ## The groups at a natural offset -/

section Eval

variable {σ : Type} {w : IntSize} {data : Bytes}

/-- The `u32` at offset `o`, as a number, where `int` holds it. -/
theorem lenAt_natCast {o : Nat} (h : o + 4 ≤ data.length)
    (hw : w.ExactTo (decodeLE ((data.drop o).take 4))) :
    (lenAt w data o : GoM σ Int) = pure ((decodeLE ((data.drop o).take 4) : Nat) : Int) := by
  have hlt := decodeLE_take_four_lt h
  have hu : (UInt32.ofNat (decodeLE ((data.drop o).take 4))).toNat = decodeLE ((data.drop o).take 4) :=
    Nat.mod_eq_of_lt hlt
  rw [lenAt, sliceFrom_natCast (by omega), GoM.pure_bind,
    uint32_of_le (by rw [List.length_drop]; omega), GoM.pure_bind, hw.ofUInt32 _ hu.le, hu]

theorem need_natCast {o n : Nat} (hw : w.ExactTo (o + n)) :
    (need w data o n : GoM σ Unit) =
      if data.length < o + n then GoM.fail .bufferTooSmall else pure () := by
  simp only [need, hw.add le_rfl, gt_iff_lt, Int.ofNat_lt]

theorem need_ofNat {o : Nat} (n : Nat) (hw : w.ExactTo (o + OfNat.ofNat n)) :
    (need w data o (OfNat.ofNat n) : GoM σ Unit) =
      if data.length < o + OfNat.ofNat n then GoM.fail .bufferTooSmall else pure () :=
  need_natCast hw

/-- A field whose prefix is in bounds: the buffer-too-small error when the field runs
past the end, else its bytes. -/
theorem getField_natCast (set : Bytes → σ → σ) {o : Nat} (h : o + 4 ≤ data.length)
    (hw : w.ExactTo (o + 4 + decodeLE ((data.drop o).take 4))) (s : σ) :
    getField w data set o s =
      if data.length < o + 4 + decodeLE ((data.drop o).take 4) then (.err .bufferTooSmall, s)
      else (.ok ((o + 4 + decodeLE ((data.drop o).take 4) : Nat) : Int),
        set ((data.drop (o + 4)).take (decodeLE ((data.drop o).take 4))) s) := by
  rw [getField, lenAt_natCast h (hw.mono (by omega)), GoM.pure_bind,
    hw.add_ofNat _ (by omega), need_natCast hw]
  split
  · rfl
  · next hn =>
    rw [GoM.pure_bind, make_natCast, GoM.pure_bind, hw.add le_rfl,
      slice_natCast (by omega), GoM.pure_bind,
      copy_replicate 0 (by rw [List.length_take, List.length_drop]; omega)]
    rfl

theorem getStringField_natCast (set : Bytes → σ → σ) {o : Nat} (hw₄ : w.ExactTo (o + 4))
    (hw : o + 4 ≤ data.length → w.ExactTo (o + 4 + decodeLE ((data.drop o).take 4))) (s : σ) :
    getStringField w data set o s =
      if data.length < o + 4 then (.err .bufferTooSmall, s)
      else if data.length < o + 4 + decodeLE ((data.drop o).take 4) then (.err .bufferTooSmall, s)
      else (.ok (), set ((data.drop (o + 4)).take (decodeLE ((data.drop o).take 4))) s) := by
  rw [getStringField, need_ofNat _ hw₄]
  split
  · rfl
  · next h4 =>
    have hw := hw (by omega)
    rw [GoM.pure_bind, lenAt_natCast (by omega) (hw.mono (by omega)), GoM.pure_bind,
      hw.add_ofNat _ (by omega), need_natCast hw]
    split
    · rfl
    · rw [GoM.pure_bind, hw.add le_rfl, slice_natCast (by omega), GoM.pure_bind]
      rfl

theorem getByte_natCast (set : UInt8 → σ → σ) {o : Nat} (hw : w.ExactTo (o + 1)) (s : σ) :
    getByte w data set o s =
      if data.length < o + 1 then (.err .bufferTooSmall, s) else (.ok (), set (data.getD o 0) s) := by
  rw [getByte, need_ofNat _ hw]
  split
  · rfl
  · rw [GoM.pure_bind, index_natCast (by omega), GoM.pure_bind]
    rfl

end Eval

/-- `Checksum.Unmarshal` on at least 12 bytes: the `u32` at 0 and the `u64` at 4. -/
theorem Checksum.unmarshal_of_le {data : Bytes} (h : 12 ≤ data.length) (s : Checksum) :
    Checksum.unmarshal data s = (.ok (), Checksum.mk ⟨UInt32.ofNat (decodeLE (data.take 4))⟩
      (UInt64.ofNat (decodeLE ((data.drop 4).take 8)))) := by
  have h0 : (sliceFrom data 0 : GoM Checksum Bytes) = pure data := if_pos ⟨by omega, by omega⟩
  have h4 : (sliceFrom data 4 : GoM Checksum Bytes) = pure (data.drop 4) :=
    sliceFrom_natCast (show 4 ≤ data.length by omega)
  rw [Checksum.unmarshal, if_neg (by omega), h0, GoM.pure_bind, uint32_of_le (by omega),
    GoM.pure_bind, GoM.modify_bind]
  dsimp only
  rw [h4, GoM.pure_bind, uint64_of_le (by simp; omega), GoM.pure_bind]
  rfl

end Zapdb
