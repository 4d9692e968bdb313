import Zapdb.Layout

/-!
# The encoders

`Marshal` allocates `buf := make([]byte, Size())` and fills it with offset
arithmetic. Here each encoder is a `GoM Bytes` computation on that buffer, written
statement for statement; the statements after `offset := 0` are the encoder's
`marshalAt`, started at that offset. The Go statement groups that recur are one
definition each: `putField` (a length-prefixed field), `putUint32At` and
`putUint64At` (a fixed-width field, then `offset += 4` or `8`).

`Writes m y ret` says that `m`, started at offset `|x|` on a buffer that begins with
`x`, writes `y` right after `x`, changes nothing else, and falls through with `ret`
of the offset after `y`. It is proved once per statement group and composed with
`Writes.bind`, so that every `marshalAt` writes its record's layout from any offset:
the writes tile the layout exactly, whatever the buffer held before.
-/

namespace Zapdb

open LittleEndian

/-! ## Statement groups -/

/-- `PutUint32(buf[offset:], uint32(len(f))); offset += 4; copy(buf[offset:], f);
offset += len(f)`. -/
def putField (offset : Nat) (f : Bytes) : GoM Bytes Nat := do
  putUint32 offset (UInt32.ofNat f.length)
  let offset := offset + 4
  copyAt offset f
  pure (offset + f.length)

/-- `PutUint32(buf[offset:], v); offset += 4`. -/
def putUint32At (offset : Nat) (v : UInt32) : GoM Bytes Nat := do
  putUint32 offset v
  pure (offset + 4)

/-- `PutUint64(buf[offset:], v); offset += 8`. -/
def putUint64At (offset : Nat) (v : UInt64) : GoM Bytes Nat := do
  putUint64 offset v
  pure (offset + 8)

/-- `f(buf[a:b])` for a function `f` that writes into the slice it is given: the slice
shares `buf`'s bytes, so what `f` writes lands in `buf[a:b]`. The call's own exit is
returned as a value (a caller may drop its error); a panic propagates. -/
def callOnSlice {α : Type} (a b : Nat) (m : GoM Bytes α) : GoM Bytes (Exit α) := fun buf =>
  if a ≤ b ∧ b ≤ buf.length then
    match m ((buf.drop a).take (b - a)) with
    | (.panic p, _) => (.panic p, buf)
    | (e, sub) => (.ok e, overwrite a sub buf)
  else (.panic .sliceOutOfRange, buf)

/-! ## The encoders -/

/-- The statements of `KV.MarshalToSizedBuffer` after `offset := 0`. -/
def KV.marshalAt (k : KV) (offset : Nat) : GoM Bytes Nat := do
  let offset ← putField offset k.key
  let offset ← putField offset k.value
  let offset ← putField offset k.userMeta
  let offset ← putUint64At offset k.version
  let offset ← putUint64At offset k.expiresAt
  let offset ← putField offset k.meta
  let offset ← putUint32At offset k.streamId
  setAt offset (if k.streamDone then 1 else 0)
  pure (offset + 1)

/-- `KV.MarshalToSizedBuffer(buf)`, on `buf` as the state: `(0, io.ErrShortBuffer)`
when `len(buf) < k.Size()`, else the number of bytes written. -/
def KV.marshalToSizedBuffer (k : KV) : GoM Bytes Nat := do
  if (← GoM.get).length < k.size then GoM.fail .shortBuffer
  k.marshalAt 0

/-- `KV.Marshal`. -/
def KV.marshal (k : KV) : Exit Bytes := k.marshalToSizedBuffer.exec (List.replicate k.size 0)

/-- The loop `for _, kv := range l.Kv` of `KVList.Marshal`, from `offset`. The error of
`kv.MarshalToSizedBuffer` is dropped, as the Go code drops it. -/
def KVList.marshalKv : List (Option KV) → Nat → GoM Bytes Nat
  | [], offset => pure offset
  | kv :: kvs, offset => do
    let kv ← GoM.lift (deref kv)
    let kvSize := kv.size
    putUint32 offset (UInt32.ofNat kvSize)
    let offset := offset + 4
    let _ ← callOnSlice offset (offset + kvSize) kv.marshalToSizedBuffer
    KVList.marshalKv kvs (offset + kvSize)

/-- The statements of `KVList.Marshal` after `offset := 0`. -/
def KVList.marshalAt (l : KVList) (offset : Nat) : GoM Bytes Unit := do
  putUint32 offset (UInt32.ofNat l.kv.length)
  let offset := offset + 4
  let offset ← KVList.marshalKv l.kv offset
  putUint64 offset l.allocRef

/-- `KVList.Marshal`: `l.Size()` first, which panics on a nil element. -/
def KVList.marshal (l : KVList) : Exit Bytes := do
  (l.marshalAt 0).exec (List.replicate (← l.size) 0)

/-- The statements of `ManifestChange.Marshal` after `offset := 0`. -/
def ManifestChange.marshalAt (m : ManifestChange) (offset : Nat) : GoM Bytes Unit := do
  let offset ← putUint64At offset m.id
  let offset ← putUint32At offset m.op.toUInt32
  let offset ← putUint32At offset m.level
  let offset ← putUint64At offset m.keyId
  let offset ← putUint32At offset m.encryptionAlgo.toUInt32
  putUint32 offset m.compression

/-- `ManifestChange.Marshal`. -/
def ManifestChange.marshal (m : ManifestChange) : Exit Bytes :=
  (m.marshalAt 0).exec (List.replicate m.size 0)

/-- The loop `for _, change := range m.Changes` of `ManifestChangeSet.Marshal`, from
`offset`; `change.Marshal()` dereferences `change`, and its error is returned. -/
def ManifestChangeSet.marshalChanges : List (Option ManifestChange) → Nat → GoM Bytes Nat
  | [], offset => pure offset
  | change :: changes, offset => do
    let changeData ← GoM.lift (do (← deref change).marshal)
    let offset ← putField offset changeData
    ManifestChangeSet.marshalChanges changes offset

/-- The statements of `ManifestChangeSet.Marshal` after `offset := 0`. -/
def ManifestChangeSet.marshalAt (m : ManifestChangeSet) (offset : Nat) : GoM Bytes Nat := do
  putUint32 offset (UInt32.ofNat m.changes.length)
  let offset := offset + 4
  ManifestChangeSet.marshalChanges m.changes offset

/-- `ManifestChangeSet.Marshal`. -/
def ManifestChangeSet.marshal (m : ManifestChangeSet) : Exit Bytes :=
  (m.marshalAt 0).exec (List.replicate m.size 0)

/-- The statements of `DataKey.Marshal` after `offset := 0`. -/
def DataKey.marshalAt (d : DataKey) (offset : Nat) : GoM Bytes Unit := do
  let offset ← putUint64At offset d.keyId
  let offset ← putField offset d.data
  let offset ← putField offset d.iv
  putUint64 offset d.createdAt.toUInt64

/-- `DataKey.Marshal`. -/
def DataKey.marshal (d : DataKey) : Exit Bytes := (d.marshalAt 0).exec (List.replicate d.size 0)

/-- The two writes of `Checksum.Marshal`, at the fixed offsets 0 and 4. -/
def Checksum.marshalBody (c : Checksum) : GoM Bytes Unit := do
  putUint32 0 c.algo.toUInt32
  putUint64 4 c.sum

/-- `Checksum.Marshal`. -/
def Checksum.marshal (c : Checksum) : Exit Bytes :=
  c.marshalBody.exec (List.replicate c.size 0)

/-- The statements of `Match.Marshal` after `offset := 0`. -/
def Match.marshalAt (m : Match) (offset : Nat) : GoM Bytes Unit := do
  let offset ← putField offset m.prefixBytes
  putUint32 offset (UInt32.ofNat m.ignoreBytes.length)
  let offset := offset + 4
  copyAt offset m.ignoreBytes

/-- `Match.Marshal`. -/
def Match.marshal (m : Match) : Exit Bytes := (m.marshalAt 0).exec (List.replicate m.size 0)

/-! ## What the encoders write -/

/-- `m`, started at offset `|x|` on a buffer that begins with `x`, writes `y` right
after `x`, leaves every other byte as it was, and falls through with `ret` of the
offset after `y`. -/
def Writes {α : Type} (m : Nat → GoM Bytes α) (y : Bytes) (ret : Nat → α) : Prop :=
  ∀ x buf : Bytes, x.length + y.length ≤ buf.length →
    m x.length (x ++ buf.drop x.length) =
      (.ok (ret (x.length + y.length)), x ++ y ++ buf.drop (x.length + y.length))

theorem overwrite_snoc (x z buf : Bytes) :
    overwrite x.length z (x ++ buf.drop x.length) = x ++ z ++ buf.drop (x.length + z.length) := by
  simp [overwrite, List.drop_drop, Nat.add_comm]

namespace Writes

variable {α : Type} {m : Nat → GoM Bytes Unit} {n : Nat → GoM Bytes Nat}
  {f : Nat → GoM Bytes α} {y z : Bytes} {ret : Nat → α}

/-- A write, then a second one at the offset the first returned. -/
theorem bind (hn : Writes n y id) (hf : Writes f z ret) :
    Writes (fun o => n o >>= f) (y ++ z) ret := by
  intro x buf h
  simp only [List.length_append] at h
  dsimp only
  rw [GoM.bind_apply_ok (hn x buf (by omega))]
  simpa [Nat.add_assoc, List.append_assoc] using hf (x ++ y) buf (by simp; omega)

/-- A write of `n` bytes, then a second one right after it. -/
theorem seq {β : Type} {m : Nat → GoM Bytes β} {b : β} {k : Nat} (hk : y.length = k)
    (hm : Writes m y fun _ => b) (hf : Writes f z ret) :
    Writes (fun o => m o >>= fun _ => f (o + k)) (y ++ z) ret := by
  subst hk
  intro x buf h
  simp only [List.length_append] at h
  dsimp only
  rw [GoM.bind_apply_ok (hm x buf (by omega))]
  simpa [Nat.add_assoc, List.append_assoc] using hf (x ++ y) buf (by simp; omega)

/-- Nothing written; the offset returned. -/
theorem pure_offset : Writes (fun o => (pure o : GoM Bytes Nat)) [] id := by
  intro x buf _
  simp

theorem congr_bytes {y' : Bytes} (h : y = y') (hw : Writes f y ret) : Writes f y' ret := h ▸ hw

/-- Started at offset 0 on a buffer at least as long as `y`, the writes leave `y`
in front of the buffer's old tail. -/
theorem apply_zero (hw : Writes f y ret) {buf : Bytes} (h : y.length ≤ buf.length) :
    f 0 buf = (.ok (ret y.length), y ++ buf.drop y.length) := by
  simpa using hw [] buf (by simpa using h)

/-- Started at any offset `o` of a buffer with room for `y` there, the writes overwrite
the buffer with `y` at `o`. -/
theorem apply_at (hw : Writes f y ret) {o : Nat} {buf : Bytes} (h : o + y.length ≤ buf.length) :
    f o buf = (.ok (ret (o + y.length)), overwrite o y buf) := by
  have hx : (buf.take o).length = o := by rw [List.length_take]; omega
  have := hw (buf.take o) buf (by omega)
  rwa [hx, List.take_append_drop] at this

/-- On a fresh buffer of exactly `y`'s length, the writes produce `y`. -/
theorem exec_replicate (hw : Writes f y ret) : (f 0).exec (List.replicate y.length 0) = .ok y := by
  rw [GoM.exec_of_ok (hw.apply_zero (by simp))]
  simp

end Writes

theorem putUint32_writes (v : UInt32) :
    Writes (fun o => putUint32 o v) (encodeLE 4 v.toNat) fun _ => () := by
  intro x buf h
  dsimp only
  rw [putUint32_of_le (by simp at h ⊢; omega), overwrite_snoc]

theorem putUint64_writes (v : UInt64) :
    Writes (fun o => putUint64 o v) (encodeLE 8 v.toNat) fun _ => () := by
  intro x buf h
  dsimp only
  rw [putUint64_of_le (by simp at h ⊢; omega), overwrite_snoc]

theorem copyAt_writes (f : Bytes) : Writes (fun o => copyAt o f) f fun _ => () := by
  intro x buf h
  dsimp only
  rw [copyAt_of_le (by simp; omega), overwrite_snoc]

theorem setAt_writes (b : UInt8) : Writes (fun o => setAt o b) [b] fun _ => () := by
  intro x buf h
  dsimp only
  rw [setAt_of_lt (by simp at h ⊢; omega), overwrite_snoc]

theorem putField_writes (f : Bytes) : Writes (putField · f) (framed f) id := by
  refine Writes.congr_bytes ?_ ((putUint32_writes (UInt32.ofNat f.length)).seq (length_encodeLE 4 _)
    ((copyAt_writes f).seq rfl Writes.pure_offset))
  rw [List.append_nil, show (UInt32.ofNat f.length).toNat = f.length % 256 ^ 4 from rfl,
    encodeLE_mod, framed]

theorem putUint32At_writes (v : UInt32) : Writes (putUint32At · v) (encodeLE 4 v.toNat) id :=
  Writes.congr_bytes (List.append_nil _) ((putUint32_writes v).seq (length_encodeLE 4 _) Writes.pure_offset)

theorem putUint64At_writes (v : UInt64) : Writes (putUint64At · v) (encodeLE 8 v.toNat) id :=
  Writes.congr_bytes (List.append_nil _) ((putUint64_writes v).seq (length_encodeLE 8 _) Writes.pure_offset)

theorem callOnSlice_writes {β : Type} {m : GoM Bytes β} {y : Bytes} {b : β} {n : Nat}
    (hn : y.length = n) (hm : ∀ sub : Bytes, sub.length = n → m sub = (.ok b, y)) :
    Writes (fun o => callOnSlice o (o + n) m) y fun _ => .ok b := by
  subst hn
  intro x buf h
  have hsub : (((x ++ buf.drop x.length).drop x.length).take y.length).length = y.length := by
    simp
    omega
  dsimp only [callOnSlice]
  rw [if_pos (by simp; omega), Nat.add_sub_cancel_left, hm _ hsub]
  dsimp only
  rw [overwrite_snoc]

/-! ## Each encoder writes its record's layout -/

theorem KV.marshalAt_writes (k : KV) : Writes k.marshalAt k.encode id :=
  Writes.congr_bytes (by simp [KV.encode]) <|
    (putField_writes k.key).bind <| (putField_writes k.value).bind <|
    (putField_writes k.userMeta).bind <| (putUint64At_writes k.version).bind <|
    (putUint64At_writes k.expiresAt).bind <| (putField_writes k.meta).bind <|
    (putUint32At_writes k.streamId).bind <| (setAt_writes _).seq (List.length_singleton _) Writes.pure_offset

/-- **`KV.MarshalToSizedBuffer`** on a buffer of at least `Size` bytes returns `Size`,
puts the layout in front and leaves the rest of the buffer as it was. -/
theorem KV.marshalToSizedBuffer_eq (k : KV) {buf : Bytes} (h : k.size ≤ buf.length) :
    k.marshalToSizedBuffer buf = (.ok k.size, k.encode ++ buf.drop k.size) := by
  have hw := (KV.marshalAt_writes k).apply_zero (by simpa using h)
  simp only [KV.length_encode, id] at hw
  simp [KV.marshalToSizedBuffer, if_neg (show ¬buf.length < k.size by omega), hw]

/-- On a shorter buffer it returns `io.ErrShortBuffer` and writes nothing. -/
theorem KV.marshalToSizedBuffer_short (k : KV) {buf : Bytes} (h : buf.length < k.size) :
    k.marshalToSizedBuffer buf = (.err .shortBuffer, buf) := by
  simp [KV.marshalToSizedBuffer, h]

theorem KV.marshal_eq (k : KV) : k.marshal = .ok k.encode := by
  rw [KV.marshal, GoM.exec_of_ok (k.marshalToSizedBuffer_eq (by simp))]
  simp

theorem KVList.marshalKv_writes (ks : List KV) :
    Writes (KVList.marshalKv (ks.map some)) ((ks.map some).map KVList.encodeElem).flatten id := by
  induction ks with
  | nil => exact Writes.pure_offset
  | cons k ks ih =>
    have hcall : ∀ sub : Bytes, sub.length = k.size →
        k.marshalToSizedBuffer sub = (.ok k.size, k.encode) := fun sub h => by
      rw [k.marshalToSizedBuffer_eq h.ge, ← h]
      simp
    have hw := (putUint32_writes (UInt32.ofNat k.size)).seq (length_encodeLE 4 _)
      ((callOnSlice_writes (KV.length_encode k) hcall).seq (KV.length_encode k) ih)
    refine Writes.congr_bytes ?_ hw
    rw [show (UInt32.ofNat k.size).toNat = k.size % 256 ^ 4 from rfl, encodeLE_mod]
    simp [KVList.encodeElem]

theorem KVList.marshalAt_writes (ks : List KV) (allocRef : UInt64) :
    Writes (KVList.marshalAt ⟨ks.map some, allocRef⟩) (KVList.encode ⟨ks.map some, allocRef⟩)
      fun _ => () := by
  refine Writes.congr_bytes ?_ ((putUint32_writes _).seq (length_encodeLE 4 _)
    ((KVList.marshalKv_writes ks).bind (putUint64_writes allocRef)))
  rw [show (UInt32.ofNat (ks.map some).length).toNat = (ks.map some).length % 256 ^ 4 from rfl,
    encodeLE_mod]
  simp [KVList.encode]

theorem KVList.marshal_eq (ks : List KV) (allocRef : UInt64) :
    KVList.marshal ⟨ks.map some, allocRef⟩ = .ok (KVList.encode ⟨ks.map some, allocRef⟩) := by
  have := (KVList.marshalAt_writes ks allocRef).exec_replicate
  rw [KVList.length_encode] at this
  simp only [KVList.marshal, KVList.size_map_some, Exit.ok_bind, this]

theorem ManifestChange.marshalAt_writes (m : ManifestChange) :
    Writes m.marshalAt m.encode fun _ => () :=
  Writes.congr_bytes (by simp [ManifestChange.encode]) <|
    (putUint64At_writes m.id).bind <| (putUint32At_writes m.op.toUInt32).bind <|
    (putUint32At_writes m.level).bind <| (putUint64At_writes m.keyId).bind <|
    (putUint32At_writes m.encryptionAlgo.toUInt32).bind <| putUint32_writes m.compression

theorem ManifestChange.marshal_eq (m : ManifestChange) : m.marshal = .ok m.encode := by
  simpa using (ManifestChange.marshalAt_writes m).exec_replicate

/-- A non-nil change is marshalled and written as a length-prefixed field. -/
theorem ManifestChangeSet.marshalChanges_some_cons (c : ManifestChange)
    (changes : List (Option ManifestChange)) :
    ManifestChangeSet.marshalChanges (some c :: changes) =
      fun o => putField o c.encode >>= ManifestChangeSet.marshalChanges changes := by
  funext o
  simp only [ManifestChangeSet.marshalChanges, deref_some, Exit.ok_bind, c.marshal_eq,
    GoM.lift_ok_bind]

theorem ManifestChangeSet.marshalChanges_writes (cs : List ManifestChange) :
    Writes (ManifestChangeSet.marshalChanges (cs.map some))
      ((cs.map some).map ManifestChangeSet.encodeElem).flatten id := by
  induction cs with
  | nil => exact Writes.pure_offset
  | cons c cs ih =>
    rw [List.map_cons, ManifestChangeSet.marshalChanges_some_cons]
    exact Writes.congr_bytes (by simp [ManifestChangeSet.encodeElem, framed])
      ((putField_writes c.encode).bind ih)

theorem ManifestChangeSet.marshal_eq (cs : List ManifestChange) :
    ManifestChangeSet.marshal ⟨cs.map some⟩ = .ok (ManifestChangeSet.encode ⟨cs.map some⟩) := by
  have hw : Writes (ManifestChangeSet.marshalAt ⟨cs.map some⟩)
      (ManifestChangeSet.encode ⟨cs.map some⟩) id := by
    refine Writes.congr_bytes ?_ ((putUint32_writes _).seq (length_encodeLE 4 _)
      (ManifestChangeSet.marshalChanges_writes cs))
    rw [show (UInt32.ofNat (cs.map some).length).toNat = (cs.map some).length % 256 ^ 4 from rfl,
      encodeLE_mod]
    rfl
  have := hw.exec_replicate
  rw [ManifestChangeSet.length_encode] at this
  rw [ManifestChangeSet.marshal, ManifestChangeSet.size_eq, List.length_map, this]

theorem DataKey.marshalAt_writes (d : DataKey) : Writes d.marshalAt d.encode fun _ => () :=
  Writes.congr_bytes (by simp [DataKey.encode]) <|
    (putUint64At_writes d.keyId).bind <| (putField_writes d.data).bind <|
    (putField_writes d.iv).bind <| putUint64_writes d.createdAt.toUInt64

theorem DataKey.marshal_eq (d : DataKey) : d.marshal = .ok d.encode := by
  simpa using (DataKey.marshalAt_writes d).exec_replicate

theorem Checksum.marshalBody_eq (c : Checksum) {buf : Bytes} (h : buf.length = 12) :
    c.marshalBody buf = (.ok (), c.encode) := by
  have h1 := putUint32_writes c.algo.toUInt32 [] buf (by simp; omega)
  have h2 := putUint64_writes c.sum (encodeLE 4 c.algo.toUInt32.toNat) buf (by simp; omega)
  simp only [List.length_nil, List.nil_append, List.drop_zero, length_encodeLE] at h1 h2
  rw [Checksum.marshalBody, GoM.bind_apply_ok h1, h2]
  simp [Checksum.encode, h]

theorem Checksum.marshal_eq (c : Checksum) : c.marshal = .ok c.encode :=
  GoM.exec_of_ok (c.marshalBody_eq (by simp [Checksum.size]))

theorem Match.marshalAt_writes (m : Match) : Writes m.marshalAt m.encode fun _ => () := by
  refine Writes.congr_bytes ?_ ((putField_writes m.prefixBytes).bind
    ((putUint32_writes (UInt32.ofNat m.ignoreBytes.length)).seq (length_encodeLE 4 _)
      (copyAt_writes m.ignoreBytes)))
  rw [show (UInt32.ofNat m.ignoreBytes.length).toNat = m.ignoreBytes.length % 256 ^ 4 from rfl,
    encodeLE_mod]
  simp [Match.encode, framed]

theorem Match.marshal_eq (m : Match) : m.marshal = .ok m.encode := by
  simpa using (Match.marshalAt_writes m).exec_replicate

end Zapdb
