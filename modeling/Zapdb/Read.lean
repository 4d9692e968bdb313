import Zapdb.Cursor

/-!
# The decoders, read from the front

What each `Unmarshal` accepts, written as a `Cursor` program: the same reads in the
same order, where each `if offset+n > len(data)` check is a cursor read that finds
fewer than `n` bytes. The Go decoders compute these programs (`Refine.lean`); here
they are the specification of decoding, and three facts are proved about them:

* **round trip** (`Reads`) — a decoder reads the layout of any record whose lengths
  fit back to that record, whatever the receiver held and whatever bytes follow;
* **inversion** — what a successful run consumed: the layout of the record it
  produced, for the fixed layouts; for `KV` the same but for the last byte, any
  nonzero value of which decodes to `true`;
* **fit** — every record a decoder produces fits: its lengths and counts were `u32`s,
  so the round trip applies to it.

The list decoders are the exception to exact inversion: an element's length prefix
only bounds the slice the element is decoded from, and the element's decoder ignores
whatever its slice holds after it.
-/

namespace Zapdb

/-! ## Statement groups -/

namespace Cursor

variable {σ : Type}

/-- A length-prefixed field, assigned to the receiver with `set`. -/
def getField (set : Bytes → σ → σ) : Cursor σ Unit := do modify (set (← field))

/-- A `u32`, assigned with `set`. -/
def getUint32 (set : UInt32 → σ → σ) : Cursor σ Unit := do modify (set (← u32))

/-- A `u64`, assigned with `set`. -/
def getUint64 (set : UInt64 → σ → σ) : Cursor σ Unit := do modify (set (← u64))

/-- A byte, assigned with `set`. -/
def getByte (set : UInt8 → σ → σ) : Cursor σ Unit := do modify (set (← u8))

theorem getField_reads (set : Bytes → σ → σ) {x : Bytes} (hx : x.length < 2 ^ 32) :
    Reads (getField set) (framed x) () (set x) :=
  Reads.congr_bytes (List.append_nil _) ((field_reads hx).bind (modify_reads (set x)))

theorem getUint32_reads (set : UInt32 → σ → σ) (v : UInt32) :
    Reads (getUint32 set) (encodeLE 4 v.toNat) () (set v) :=
  Reads.congr_bytes (List.append_nil _) ((u32_reads v).bind (modify_reads (set v)))

theorem getUint64_reads (set : UInt64 → σ → σ) (v : UInt64) :
    Reads (getUint64 set) (encodeLE 8 v.toNat) () (set v) :=
  Reads.congr_bytes (List.append_nil _) ((u64_reads v).bind (modify_reads (set v)))

theorem getByte_reads (set : UInt8 → σ → σ) (b : UInt8) : Reads (getByte set) [b] () (set b) :=
  Reads.congr_bytes (List.append_nil _) ((u8_reads b).bind (modify_reads (set b)))

variable {s s' : σ} {d r : Bytes} {a : Unit}

theorem run_getField_eq_some {set : Bytes → σ → σ} :
    (getField set).run s d = some (a, s', r) ↔
      ∃ x, x.length < 2 ^ 32 ∧ s' = set x s ∧ d = framed x ++ r := by
  simp only [getField, run_bind_eq_some, run_field_eq_some, run_modify_eq_some]
  constructor
  · rintro ⟨x, _, _, ⟨hx, rfl, rfl⟩, rfl, rfl⟩
    exact ⟨x, hx, rfl, rfl⟩
  · rintro ⟨x, hx, rfl, rfl⟩
    exact ⟨x, s, r, ⟨hx, rfl, rfl⟩, rfl, rfl⟩

theorem run_getUint32_eq_some {set : UInt32 → σ → σ} :
    (getUint32 set).run s d = some (a, s', r) ↔ ∃ v, s' = set v s ∧ d = encodeLE 4 v.toNat ++ r := by
  simp only [getUint32, run_bind_eq_some, run_u32_eq_some, run_modify_eq_some]
  constructor
  · rintro ⟨v, _, _, ⟨rfl, rfl⟩, rfl, rfl⟩
    exact ⟨v, rfl, rfl⟩
  · rintro ⟨v, rfl, rfl⟩
    exact ⟨v, s, r, ⟨rfl, rfl⟩, rfl, rfl⟩

theorem run_getUint64_eq_some {set : UInt64 → σ → σ} :
    (getUint64 set).run s d = some (a, s', r) ↔ ∃ v, s' = set v s ∧ d = encodeLE 8 v.toNat ++ r := by
  simp only [getUint64, run_bind_eq_some, run_u64_eq_some, run_modify_eq_some]
  constructor
  · rintro ⟨v, _, _, ⟨rfl, rfl⟩, rfl, rfl⟩
    exact ⟨v, rfl, rfl⟩
  · rintro ⟨v, rfl, rfl⟩
    exact ⟨v, s, r, ⟨rfl, rfl⟩, rfl, rfl⟩

theorem run_getByte_eq_some {set : UInt8 → σ → σ} :
    (getByte set).run s d = some (a, s', r) ↔ ∃ b, s' = set b s ∧ d = b :: r := by
  simp only [getByte, run_bind_eq_some, run_u8_eq_some, run_modify_eq_some]
  constructor
  · rintro ⟨b, _, _, ⟨rfl, rfl⟩, rfl, rfl⟩
    exact ⟨b, rfl, rfl⟩
  · rintro ⟨b, rfl, rfl⟩
    exact ⟨b, s, r, ⟨rfl, rfl⟩, rfl, rfl⟩

end Cursor

namespace Reads

variable {σ β : Type} {c : Cursor σ Unit} {e : Cursor σ β} {y z : Bytes} {b : β} {u v : σ → σ}

/-- A read that yields nothing, then a second one. -/
theorem andThen (hc : Reads c y () u) (he : Reads e z b v) :
    Reads (c >>= fun _ => e) (y ++ z) b (v ∘ u) :=
  hc.bind he

/-- A check for `n` bytes passes in front of a read of at least `n`. -/
theorem need {n : Nat} (hn : n ≤ y.length) (he : Reads e y b v) :
    Reads (Cursor.need n >>= fun _ => e) y b v := by
  intro s t
  rw [Cursor.run_bind_of_some (by rw [Cursor.run_need, if_pos (by simp; omega)]), he]

/-- A read of `y` alone leaves nothing. -/
theorem run_eq {s : σ} (he : Reads e y b v) : e.run s y = some (b, v s, []) := by
  simpa using he s []

theorem congr {y' : Bytes} {v' : σ → σ} (hy : y = y') (hv : v = v') (he : Reads e y b v) :
    Reads e y' b v' := hy ▸ hv ▸ he

end Reads

/-! ## The record decoders -/

/-- `xs` with `ys` stored into it from index `i` on, one `set` at a time. -/
def setFrom {α : Type} (xs : List α) : Nat → List α → List α
  | _, [] => xs
  | i, y :: ys => setFrom (xs.set i y) (i + 1) ys

/-- What `KV.Unmarshal` reads after its minimum-size check. -/
def KV.readFields : Cursor KV Unit := do
  Cursor.getField fun b k => { k with key := b }
  Cursor.getField fun b k => { k with value := b }
  Cursor.getField fun b k => { k with userMeta := b }
  Cursor.getUint64 fun v k => { k with version := v }
  Cursor.getUint64 fun v k => { k with expiresAt := v }
  Cursor.getField fun b k => { k with meta := b }
  Cursor.getUint32 fun v k => { k with streamId := v }
  Cursor.getByte fun b k => { k with streamDone := b != 0 }

/-- `KV.Unmarshal`: at least 37 bytes, then the fields. -/
def KV.read : Cursor KV Unit := do
  Cursor.need 37
  KV.readFields

/-- The element loop of the list decoders at index `i` with `n` iterations left: each
element is a length-prefixed slice, decoded on its own by `inner` from a zero `τ` and
stored at `i` in the field `f`. -/
def readElems {σ τ : Type} (f : ListField σ τ) (z : τ) (inner : Cursor τ Unit) :
    Nat → Nat → Cursor σ Unit
  | _, 0 => pure ()
  | i, n + 1 => do
    let sub ← Cursor.field
    let x ← Cursor.nested inner z sub
    Cursor.modify (f.store i x)
    readElems f z inner (i + 1) n

/-- The loop of `KVList.Unmarshal`. -/
def KVList.readKv : Nat → Nat → Cursor KVList Unit := readElems KVList.kvField {} KV.read

/-- What `KVList.Unmarshal` reads after its minimum-size check. -/
def KVList.readFields : Cursor KVList Unit := do
  let count ← Cursor.u32
  Cursor.modify ({ · with kv := List.replicate count.toNat none })
  KVList.readKv 0 count.toNat
  Cursor.getUint64 fun v l => { l with allocRef := v }

/-- `KVList.Unmarshal`: at least 12 bytes, then the fields. -/
def KVList.read : Cursor KVList Unit := do
  Cursor.need 12
  KVList.readFields

/-- What `ManifestChange.Unmarshal` reads after its minimum-size check. -/
def ManifestChange.readFields : Cursor ManifestChange Unit := do
  Cursor.getUint64 fun v m => { m with id := v }
  Cursor.getUint32 fun v m => { m with op := ⟨v⟩ }
  Cursor.getUint32 fun v m => { m with level := v }
  Cursor.getUint64 fun v m => { m with keyId := v }
  Cursor.getUint32 fun v m => { m with encryptionAlgo := ⟨v⟩ }
  Cursor.getUint32 fun v m => { m with compression := v }

/-- `ManifestChange.Unmarshal`: at least 32 bytes, then the fields. -/
def ManifestChange.read : Cursor ManifestChange Unit := do
  Cursor.need 32
  ManifestChange.readFields

/-- The loop of `ManifestChangeSet.Unmarshal`. -/
def ManifestChangeSet.readChanges : Nat → Nat → Cursor ManifestChangeSet Unit :=
  readElems ManifestChangeSet.changesField {} ManifestChange.read

/-- What `ManifestChangeSet.Unmarshal` reads after its minimum-size check. -/
def ManifestChangeSet.readFields : Cursor ManifestChangeSet Unit := do
  let count ← Cursor.u32
  Cursor.modify ({ · with changes := List.replicate count.toNat none })
  ManifestChangeSet.readChanges 0 count.toNat

/-- `ManifestChangeSet.Unmarshal`: at least 4 bytes, then the fields. -/
def ManifestChangeSet.read : Cursor ManifestChangeSet Unit := do
  Cursor.need 4
  ManifestChangeSet.readFields

/-- What `DataKey.Unmarshal` reads after its minimum-size check. -/
def DataKey.readFields : Cursor DataKey Unit := do
  Cursor.getUint64 fun v d => { d with keyId := v }
  Cursor.getField fun b d => { d with data := b }
  Cursor.getField fun b d => { d with iv := b }
  Cursor.getUint64 fun v d => { d with createdAt := ⟨v⟩ }

/-- `DataKey.Unmarshal`: at least 24 bytes, then the fields. -/
def DataKey.read : Cursor DataKey Unit := do
  Cursor.need 24
  DataKey.readFields

/-- What `Checksum.Unmarshal` reads after its minimum-size check. -/
def Checksum.readFields : Cursor Checksum Unit := do
  Cursor.getUint32 fun v c => { c with algo := ⟨v⟩ }
  Cursor.getUint64 fun v c => { c with sum := v }

/-- `Checksum.Unmarshal`: at least 12 bytes, then the fields. -/
def Checksum.read : Cursor Checksum Unit := do
  Cursor.need 12
  Checksum.readFields

/-- What `Match.Unmarshal` reads after its minimum-size check. -/
def Match.readFields : Cursor Match Unit := do
  Cursor.getField fun b m => { m with prefixBytes := b }
  Cursor.getField fun b m => { m with ignoreBytes := b }

/-- `Match.Unmarshal`: at least 8 bytes, then the fields. -/
def Match.read : Cursor Match Unit := do
  Cursor.need 8
  Match.readFields

/-! ## Round trip -/

/-- `KV.read` reads a `KV`'s layout with any byte in place of the `streamDone` byte. -/
theorem KV.read_reads_byte {k : KV} (hk : k.Fits) (b : UInt8) :
    Reads KV.read (k.encode.dropLast ++ [b]) () fun _ => { k with streamDone := b != 0 } := by
  have h : Reads KV.readFields _ () _ :=
    (Cursor.getField_reads _ hk.1).andThen <| (Cursor.getField_reads _ hk.2.1).andThen <|
    (Cursor.getField_reads _ hk.2.2.1).andThen <| (Cursor.getUint64_reads _ k.version).andThen <|
    (Cursor.getUint64_reads _ k.expiresAt).andThen <| (Cursor.getField_reads _ hk.2.2.2).andThen <|
    (Cursor.getUint32_reads _ k.streamId).andThen <| Cursor.getByte_reads _ b
  refine Reads.need (by simp [KV.size]; omega) (Reads.congr ?_ rfl h)
  rw [KV.encode, List.dropLast_concat]
  simp

theorem KV.read_reads {k : KV} (hk : k.Fits) : Reads KV.read k.encode () fun _ => k := by
  refine Reads.congr ?_ ?_ (KV.read_reads_byte hk (if k.streamDone then 1 else 0))
  · rw [KV.encode, List.dropLast_concat]
  · funext s
    cases k with
    | mk key value userMeta version expiresAt meta streamId streamDone => cases streamDone <;> rfl

/-- **The element loop reads framed elements back**: each element's bytes are read by
`inner` back to the element, and the elements are stored from index `i` on. -/
theorem readElems_reads {σ τ : Type} (f : ListField σ τ) (z : τ) {inner : Cursor τ Unit}
    (encode : τ → Bytes) {xs : List τ}
    (hxs : ∀ x ∈ xs, (encode x).length < 2 ^ 32 ∧ Reads inner (encode x) () fun _ => x) (i : Nat) :
    Reads (readElems f z inner i xs.length) (xs.map fun x => framed (encode x)).flatten ()
      fun s => f.set (setFrom (f.get s) i (xs.map some)) s := by
  induction xs generalizing i with
  | nil => intro s t; simp [readElems, setFrom, f.set_get]
  | cons x xs ih =>
    obtain ⟨hlen, hx⟩ := hxs x (List.mem_cons_self _ _)
    have h : Reads (readElems f z inner i (xs.length + 1)) _ () _ :=
      (Cursor.field_reads hlen).bind <| (Cursor.nested_reads hx.run_eq).bind <|
      (Cursor.modify_reads _).andThen (ih (fun y hy => hxs y (List.mem_cons_of_mem _ hy)) (i + 1))
    refine Reads.congr (by simp) ?_ h
    funext s
    simp only [Function.comp, id, ListField.store, f.get_set, f.set_set, setFrom, List.map_cons]

/-- Storing a whole list over as many placeholders yields the list. -/
theorem setFrom_replicate {α : Type} (ys : List α) (z : α) :
    setFrom (List.replicate ys.length z) 0 ys = ys := by
  suffices ∀ (xs : List α) (i : Nat), xs.length = i + ys.length → setFrom xs i ys = xs.take i ++ ys by
    simpa using this _ 0 (by simp)
  induction ys with
  | nil => intro xs i h; simp [setFrom, List.take_of_length_le (show xs.length ≤ i by simp at h; omega)]
  | cons y ys ih =>
    intro xs i h
    have hi : i < xs.length := by simp at h; omega
    rw [setFrom, ih _ _ (by simp at h ⊢; omega), List.set_eq_take_append_cons_drop, if_pos hi,
      List.take_append_eq_append_take, List.take_of_length_le (by rw [List.length_take]; omega)]
    simp [Nat.succ_sub (show i ≤ i by omega), show (List.take i xs).length = i by rw [List.length_take]; omega]

theorem KVList.read_reads {l : KVList} (hl : l.Fits) : Reads KVList.read l.encode () fun _ => l := by
  obtain ⟨ks, hkv, hlen, hks⟩ := hl
  have hn : ks.length = (UInt32.ofNat ks.length).toNat := (Nat.mod_eq_of_lt hlen).symm
  have hel : ∀ k ∈ ks, k.encode.length < 2 ^ 32 ∧ Reads KV.read k.encode () fun _ => k :=
    fun k hk => ⟨by simpa using hks k hk, KV.read_reads (KV.Fits.of_size (hks k hk))⟩
  have h : Reads KVList.readFields _ () _ :=
    (Cursor.u32_reads (UInt32.ofNat ks.length)).bind <| (Cursor.modify_reads _).andThen <|
      (hn ▸ readElems_reads KVList.kvField {} KV.encode hel 0).andThen
        (Cursor.getUint64_reads _ l.allocRef)
  refine Reads.need (by simp [KVList.encode]; omega) (Reads.congr ?_ ?_ h)
  · rw [← hn]
    simp [KVList.encode, hkv, KVList.encodeElem, framed, Function.comp_def]
  · funext s
    show KVList.mk (setFrom (List.replicate (UInt32.ofNat ks.length).toNat none) 0 (ks.map some))
      l.allocRef = l
    rw [← hn, ← List.length_map ks some, setFrom_replicate, ← hkv]

theorem ManifestChange.read_reads (m : ManifestChange) :
    Reads ManifestChange.read m.encode () fun _ => m := by
  have h : Reads ManifestChange.readFields _ () _ :=
    (Cursor.getUint64_reads _ m.id).andThen <| (Cursor.getUint32_reads _ m.op.toUInt32).andThen <|
    (Cursor.getUint32_reads _ m.level).andThen <| (Cursor.getUint64_reads _ m.keyId).andThen <|
    (Cursor.getUint32_reads _ m.encryptionAlgo.toUInt32).andThen <|
    Cursor.getUint32_reads _ m.compression
  exact Reads.need (by simp) (Reads.congr (by simp [ManifestChange.encode]) rfl h)

theorem ManifestChangeSet.read_reads {m : ManifestChangeSet} (hm : m.Fits) :
    Reads ManifestChangeSet.read m.encode () fun _ => m := by
  obtain ⟨cs, hcs, hlen⟩ := hm
  have hn : cs.length = (UInt32.ofNat cs.length).toNat := (Nat.mod_eq_of_lt hlen).symm
  have hel : ∀ c ∈ cs, c.encode.length < 2 ^ 32 ∧ Reads ManifestChange.read c.encode () fun _ => c :=
    fun c _ => ⟨by simp, ManifestChange.read_reads c⟩
  have h : Reads ManifestChangeSet.readFields _ () _ :=
    (Cursor.u32_reads (UInt32.ofNat cs.length)).bind <| (Cursor.modify_reads _).andThen <|
      hn ▸ readElems_reads ManifestChangeSet.changesField {} ManifestChange.encode hel 0
  refine Reads.need (by simp [ManifestChangeSet.encode]) (Reads.congr ?_ ?_ h)
  · rw [← hn]
    simp [ManifestChangeSet.encode, hcs, ManifestChangeSet.encodeElem, framed, Function.comp_def]
  · funext s
    show ManifestChangeSet.mk (setFrom (List.replicate (UInt32.ofNat cs.length).toNat none) 0
      (cs.map some)) = m
    rw [← hn, ← List.length_map cs some, setFrom_replicate, ← hcs]

theorem DataKey.read_reads {d : DataKey} (hd : d.Fits) : Reads DataKey.read d.encode () fun _ => d := by
  have h : Reads DataKey.readFields _ () _ :=
    (Cursor.getUint64_reads _ d.keyId).andThen <| (Cursor.getField_reads _ hd.1).andThen <|
    (Cursor.getField_reads _ hd.2).andThen <| Cursor.getUint64_reads _ d.createdAt.toUInt64
  exact Reads.need (by simp [DataKey.size]; omega)
    (Reads.congr (by simp [DataKey.encode]) rfl h)

theorem Checksum.read_reads (c : Checksum) : Reads Checksum.read c.encode () fun _ => c := by
  have h : Reads Checksum.readFields _ () _ :=
    (Cursor.getUint32_reads _ c.algo.toUInt32).andThen (Cursor.getUint64_reads _ c.sum)
  exact Reads.need (by simp) (Reads.congr (by simp [Checksum.encode]) rfl h)

theorem Match.read_reads {m : Match} (hm : m.Fits) : Reads Match.read m.encode () fun _ => m := by
  have h : Reads Match.readFields _ () _ :=
    (Cursor.getField_reads _ hm.1).andThen (Cursor.getField_reads _ hm.2)
  exact Reads.need (by simp [Match.size]; omega) (Reads.congr (by simp [Match.encode]) rfl h)

/-! ## What a successful decode consumed -/

section Inversion

open Cursor

variable {d r : Bytes}

/-- **A decoded `KV` fits, and what it consumed is its layout but for the last byte**,
any nonzero value of which decodes to `true`. -/
theorem KV.run_read_eq_some {s k : KV} (h : KV.read.run s d = some ((), k, r)) :
    k.Fits ∧ ∃ b : UInt8, (b != 0) = k.streamDone ∧ d = k.encode.dropLast ++ b :: r := by
  simp only [KV.read, KV.readFields, run_bind_eq_some, run_need_eq_some, run_getField_eq_some,
    run_getUint32_eq_some, run_getUint64_eq_some, run_getByte_eq_some] at h
  obtain ⟨_, _, _, ⟨-, rfl, rfl⟩, _, _, _, ⟨key, hkey, rfl, rfl⟩, h⟩ := h
  obtain ⟨_, _, _, ⟨value, hvalue, rfl, rfl⟩, h⟩ := h
  obtain ⟨_, _, _, ⟨userMeta, huserMeta, rfl, rfl⟩, h⟩ := h
  obtain ⟨_, _, _, ⟨version, rfl, rfl⟩, h⟩ := h
  obtain ⟨_, _, _, ⟨expiresAt, rfl, rfl⟩, h⟩ := h
  obtain ⟨_, _, _, ⟨meta, hmeta, rfl, rfl⟩, h⟩ := h
  obtain ⟨_, _, _, ⟨streamId, rfl, rfl⟩, b, rfl, rfl⟩ := h
  refine ⟨⟨hkey, hvalue, huserMeta, hmeta⟩, b, rfl, ?_⟩
  rw [KV.encode, List.dropLast_concat]
  simp

theorem ManifestChange.run_read_eq_some {s m : ManifestChange}
    (h : ManifestChange.read.run s d = some ((), m, r)) : d = m.encode ++ r := by
  simp only [ManifestChange.read, ManifestChange.readFields, run_bind_eq_some, run_need_eq_some,
    run_getUint32_eq_some, run_getUint64_eq_some] at h
  obtain ⟨_, _, _, ⟨-, rfl, rfl⟩, _, _, _, ⟨id, rfl, rfl⟩, _, _, _, ⟨op, rfl, rfl⟩, h⟩ := h
  obtain ⟨_, _, _, ⟨level, rfl, rfl⟩, _, _, _, ⟨keyId, rfl, rfl⟩, h⟩ := h
  obtain ⟨_, _, _, ⟨encryptionAlgo, rfl, rfl⟩, compression, rfl, rfl⟩ := h
  simp [ManifestChange.encode]

theorem DataKey.run_read_eq_some {s k : DataKey} (h : DataKey.read.run s d = some ((), k, r)) :
    k.Fits ∧ d = k.encode ++ r := by
  simp only [DataKey.read, DataKey.readFields, run_bind_eq_some, run_need_eq_some,
    run_getField_eq_some, run_getUint64_eq_some] at h
  obtain ⟨_, _, _, ⟨-, rfl, rfl⟩, _, _, _, ⟨keyId, rfl, rfl⟩, h⟩ := h
  obtain ⟨_, _, _, ⟨data, hdata, rfl, rfl⟩, _, _, _, ⟨iv, hiv, rfl, rfl⟩, createdAt, rfl, rfl⟩ := h
  exact ⟨⟨hdata, hiv⟩, by simp [DataKey.encode]⟩

theorem Checksum.run_read_eq_some {s c : Checksum} (h : Checksum.read.run s d = some ((), c, r)) :
    d = c.encode ++ r := by
  simp only [Checksum.read, Checksum.readFields, run_bind_eq_some, run_need_eq_some,
    run_getUint32_eq_some, run_getUint64_eq_some] at h
  obtain ⟨_, _, _, ⟨-, rfl, rfl⟩, _, _, _, ⟨algo, rfl, rfl⟩, sum, rfl, rfl⟩ := h
  simp [Checksum.encode]

theorem Match.run_read_eq_some {s m : Match} (h : Match.read.run s d = some ((), m, r)) :
    m.Fits ∧ d = m.encode ++ r := by
  simp only [Match.read, Match.readFields, run_bind_eq_some, run_need_eq_some,
    run_getField_eq_some] at h
  obtain ⟨_, _, _, ⟨-, rfl, rfl⟩, _, _, _, ⟨p, hp, rfl, rfl⟩, ignoreBytes, hi, rfl, rfl⟩ := h
  exact ⟨⟨hp, hi⟩, by simp [Match.encode]⟩

/-- **What the element loop read and stored**: one length-prefixed slice per iteration,
each shorter than `2^32` bytes and decoded by `inner` to the element stored; and the
same bytes store the same elements from any other receiver. -/
theorem run_readElems_eq_some {σ τ : Type} {f : ListField σ τ} {z : τ} {inner : Cursor τ Unit}
    {i n : Nat} {s s' : σ} (h : (readElems f z inner i n).run s d = some ((), s', r)) :
    ∃ es : List (τ × Bytes), es.length = n ∧
      (∀ e ∈ es, e.2.length < 2 ^ 32 ∧ ∃ r₀, inner.run z e.2 = some ((), e.1, r₀)) ∧
      d = (es.map fun e => framed e.2).flatten ++ r ∧
      s' = f.set (setFrom (f.get s) i (es.map fun e => some e.1)) s ∧
      ∀ s₂ : σ, (readElems f z inner i n).run s₂ d =
        some ((), f.set (setFrom (f.get s₂) i (es.map fun e => some e.1)) s₂, r) := by
  induction n generalizing i s d with
  | zero =>
    obtain ⟨rfl, rfl⟩ : s = s' ∧ d = r := by simpa [readElems] using h
    refine ⟨[], rfl, by simp, rfl, by rw [List.map_nil, setFrom, f.set_get], fun s₂ => ?_⟩
    rw [List.map_nil, setFrom, f.set_get]
    rfl
  | succ n ih =>
    simp only [readElems, run_bind_eq_some, run_field_eq_some, run_nested_eq_some,
      run_modify_eq_some] at h ⊢
    obtain ⟨sub, s, r₁, ⟨hsub, rfl, rfl⟩, x, s, r₁, ⟨⟨r₀, hx⟩, rfl, rfl⟩, _, _, r₁, ⟨rfl, rfl⟩,
      hrest⟩ := h
    obtain ⟨es, hlen, hes, rfl, rfl, hall⟩ := ih hrest
    have hset (s₂ : σ) : f.set (setFrom (f.get (f.store i x s₂)) (i + 1) (es.map fun e => some e.1))
        (f.store i x s₂) = f.set (setFrom (f.get s₂) i (((x, sub) :: es).map fun e => some e.1)) s₂ := by
      simp only [ListField.store, f.get_set, f.set_set, setFrom, List.map_cons]
    refine ⟨(x, sub) :: es, by simp [hlen], ?_, by simp, hset s, fun s₂ => ?_⟩
    · simp only [List.mem_cons, forall_eq_or_imp]
      exact ⟨⟨hsub, r₀, hx⟩, hes⟩
    · exact ⟨sub, s₂, _, ⟨hsub, rfl, rfl⟩, x, s₂, _, ⟨⟨r₀, hx⟩, rfl, rfl⟩, (), _, _,
        ⟨rfl, rfl⟩, by rw [hall, hset]⟩

/-- **What a decoded `KVList` was read from**: the count, then each element as a slice
behind a length prefix, from which `KV.Unmarshal` decoded it, then the `allocRef`. -/
theorem KVList.run_read_eq_some {s l : KVList} (h : KVList.read.run s d = some ((), l, r)) :
    ∃ es : List (KV × Bytes), es.length < 2 ^ 32 ∧ l.kv = es.map (fun e => some e.1) ∧
      (∀ e ∈ es, e.2.length < 2 ^ 32 ∧ ∃ r₀, KV.read.run {} e.2 = some ((), e.1, r₀)) ∧
      d = encodeLE 4 es.length ++ (es.map fun e => framed e.2).flatten ++
        encodeLE 8 l.allocRef.toNat ++ r := by
  simp only [KVList.read, KVList.readFields, run_bind_eq_some, run_need_eq_some, run_u32_eq_some,
    run_modify_eq_some, run_getUint64_eq_some] at h
  obtain ⟨_, _, _, ⟨-, rfl, rfl⟩, count, _, _, ⟨rfl, rfl⟩, _, _, _, ⟨rfl, rfl⟩, _, _, _, hkv,
    allocRef, rfl, rfl⟩ := h
  obtain ⟨es, hlen, hes, rfl, rfl, -⟩ := run_readElems_eq_some hkv
  refine ⟨es, hlen ▸ count.toNat_lt_size, ?_, hes, by simp [hlen]⟩
  show setFrom (List.replicate count.toNat none) 0 (es.map fun e => some e.1) = _
  rw [← hlen, ← List.length_map es fun e => some e.1, setFrom_replicate]

/-- **What a decoded `ManifestChangeSet` was read from**: the count, then each change as
a slice behind a length prefix, from which `ManifestChange.Unmarshal` decoded it. -/
theorem ManifestChangeSet.run_read_eq_some {s m : ManifestChangeSet}
    (h : ManifestChangeSet.read.run s d = some ((), m, r)) :
    ∃ es : List (ManifestChange × Bytes), es.length < 2 ^ 32 ∧
      m.changes = es.map (fun e => some e.1) ∧
      (∀ e ∈ es, e.2.length < 2 ^ 32 ∧ ∃ r₀, ManifestChange.read.run {} e.2 = some ((), e.1, r₀)) ∧
      d = encodeLE 4 es.length ++ (es.map fun e => framed e.2).flatten ++ r := by
  simp only [ManifestChangeSet.read, ManifestChangeSet.readFields, run_bind_eq_some,
    run_need_eq_some, run_u32_eq_some, run_modify_eq_some] at h
  obtain ⟨_, _, _, ⟨-, rfl, rfl⟩, count, _, _, ⟨rfl, rfl⟩, _, _, _, ⟨rfl, rfl⟩, hc⟩ := h
  obtain ⟨es, hlen, hes, rfl, rfl, -⟩ := run_readElems_eq_some hc
  refine ⟨es, hlen ▸ count.toNat_lt_size, ?_, hes, by simp [hlen]⟩
  show setFrom (List.replicate count.toNat none) 0 (es.map fun e => some e.1) = _
  rw [← hlen, ← List.length_map es fun e => some e.1, setFrom_replicate]

/-- Every field of a `KV` is assigned: the bytes that decode to `k` from one receiver
decode to `k` from any other. -/
theorem KV.run_read_receiver {s k : KV} (h : KV.read.run s d = some ((), k, r)) (s' : KV) :
    KV.read.run s' d = some ((), k, r) := by
  obtain ⟨hk, b, hb, rfl⟩ := KV.run_read_eq_some h
  have hr : Reads KV.read (k.encode.dropLast ++ [b]) () fun _ => k :=
    Reads.congr rfl (by rw [hb]) (KV.read_reads_byte hk b)
  exact (congrArg (KV.read.run s') (by simp)).trans (hr s' r)

theorem ManifestChange.run_read_receiver {s m : ManifestChange}
    (h : ManifestChange.read.run s d = some ((), m, r)) (s' : ManifestChange) :
    ManifestChange.read.run s' d = some ((), m, r) := by
  rw [ManifestChange.run_read_eq_some h]
  exact ManifestChange.read_reads m s' r

theorem DataKey.run_read_receiver {s k : DataKey} (h : DataKey.read.run s d = some ((), k, r))
    (s' : DataKey) : DataKey.read.run s' d = some ((), k, r) := by
  obtain ⟨hk, rfl⟩ := DataKey.run_read_eq_some h
  exact DataKey.read_reads hk s' r

theorem Checksum.run_read_receiver {s c : Checksum} (h : Checksum.read.run s d = some ((), c, r))
    (s' : Checksum) : Checksum.read.run s' d = some ((), c, r) := by
  rw [Checksum.run_read_eq_some h]
  exact Checksum.read_reads c s' r

theorem Match.run_read_receiver {s m : Match} (h : Match.read.run s d = some ((), m, r))
    (s' : Match) : Match.read.run s' d = some ((), m, r) := by
  obtain ⟨hm, rfl⟩ := Match.run_read_eq_some h
  exact Match.read_reads hm s' r

/-- The count's `make` replaces the element slice and the loop fills it, whatever the
receiver held; `allocRef` is assigned last. -/
theorem KVList.run_read_receiver {s l : KVList} (h : KVList.read.run s d = some ((), l, r))
    (s' : KVList) : KVList.read.run s' d = some ((), l, r) := by
  simp only [KVList.read, KVList.readFields, run_bind_eq_some, run_need_eq_some, run_u32_eq_some,
    run_modify_eq_some, run_getUint64_eq_some] at h ⊢
  obtain ⟨_, _, _, ⟨hneed, rfl, rfl⟩, count, _, _, ⟨rfl, rfl⟩, _, _, _, ⟨rfl, rfl⟩, _, _, _, hkv,
    allocRef, rfl, rfl⟩ := h
  obtain ⟨_, -, -, -, rfl, hall⟩ := run_readElems_eq_some hkv
  exact ⟨(), _, _, ⟨hneed, rfl, rfl⟩, count, _, _, ⟨rfl, rfl⟩, (), _, _, ⟨rfl, rfl⟩, (), _, _,
    hall _, allocRef, rfl, rfl⟩

theorem ManifestChangeSet.run_read_receiver {s m : ManifestChangeSet}
    (h : ManifestChangeSet.read.run s d = some ((), m, r)) (s' : ManifestChangeSet) :
    ManifestChangeSet.read.run s' d = some ((), m, r) := by
  simp only [ManifestChangeSet.read, ManifestChangeSet.readFields, run_bind_eq_some,
    run_need_eq_some, run_u32_eq_some, run_modify_eq_some] at h ⊢
  obtain ⟨_, _, _, ⟨hneed, rfl, rfl⟩, count, _, _, ⟨rfl, rfl⟩, _, _, _, ⟨rfl, rfl⟩, hc⟩ := h
  obtain ⟨_, -, -, -, rfl, hall⟩ := run_readElems_eq_some hc
  exact ⟨(), _, _, ⟨hneed, rfl, rfl⟩, count, _, _, ⟨rfl, rfl⟩, (), _, _, ⟨rfl, rfl⟩, hall _⟩

end Inversion

end Zapdb
