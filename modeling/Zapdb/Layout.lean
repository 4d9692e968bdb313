import Zapdb.Types

/-!
# The native wire layout

What each record looks like on the wire, written as one byte sequence per record,
field after field, as the package documents it:

* `KV`: `u32 len(key) | key | u32 len(value) | value | u32 len(userMeta) | userMeta |
  u64 version | u64 expiresAt | u32 len(meta) | meta | u32 streamId | u8 streamDone`;
* `KVList`: `u32 count | count × (u32 Size(kv) | kv) | u64 allocRef`;
* `ManifestChange`: `u64 id | u32 op | u32 level | u64 keyId | u32 encryptionAlgo |
  u32 compression`;
* `ManifestChangeSet`: `u32 count | count × (u32 32 | change)`;
* `DataKey`: `u64 keyId | u32 len(data) | data | u32 len(iv) | iv | i64 createdAt`;
* `Checksum`: `u32 algo | u64 sum`;
* `Match`: `u32 len(prefix) | prefix | u32 len(ignoreBytes) | ignoreBytes`.

A `u32` prefix holds its value modulo `2^32` (`encodeLE_mod`): this is the layout the
encoders produce for every record, not only for those whose lengths fit. Each layout
is exactly `Size` bytes long.
-/

namespace Zapdb

/-- A variable-length field: its length as a `u32`, then its bytes. -/
def framed (b : Bytes) : Bytes := encodeLE 4 b.length ++ b

@[simp] theorem length_framed (b : Bytes) : (framed b).length = 4 + b.length := by
  simp [framed]

/-- The `KV` layout. -/
def KV.encode (k : KV) : Bytes :=
  framed k.key ++ framed k.value ++ framed k.userMeta ++ encodeLE 8 k.version.toNat ++
    encodeLE 8 k.expiresAt.toNat ++ framed k.meta ++ encodeLE 4 k.streamId.toNat ++
    [if k.streamDone then 1 else 0]

/-- One `KVList` element: its `Size`, then its layout. A nil element has none. -/
def KVList.encodeElem : Option KV → Bytes
  | some k => encodeLE 4 k.size ++ k.encode
  | none => []

/-- The `KVList` layout. -/
def KVList.encode (l : KVList) : Bytes :=
  encodeLE 4 l.kv.length ++ (l.kv.map KVList.encodeElem).flatten ++
    encodeLE 8 l.allocRef.toNat

/-- The `ManifestChange` layout. -/
def ManifestChange.encode (m : ManifestChange) : Bytes :=
  encodeLE 8 m.id.toNat ++ encodeLE 4 m.op.toUInt32.toNat ++ encodeLE 4 m.level.toNat ++
    encodeLE 8 m.keyId.toNat ++ encodeLE 4 m.encryptionAlgo.toUInt32.toNat ++
    encodeLE 4 m.compression.toNat

/-- One `ManifestChangeSet` element: the length 32, then the change's layout. -/
def ManifestChangeSet.encodeElem : Option ManifestChange → Bytes
  | some c => encodeLE 4 32 ++ c.encode
  | none => []

/-- The `ManifestChangeSet` layout. -/
def ManifestChangeSet.encode (m : ManifestChangeSet) : Bytes :=
  encodeLE 4 m.changes.length ++ (m.changes.map ManifestChangeSet.encodeElem).flatten

/-- The `DataKey` layout. -/
def DataKey.encode (d : DataKey) : Bytes :=
  encodeLE 8 d.keyId.toNat ++ framed d.data ++ framed d.iv ++ encodeLE 8 d.createdAt.toUInt64.toNat

/-- The `Checksum` layout. -/
def Checksum.encode (c : Checksum) : Bytes :=
  encodeLE 4 c.algo.toUInt32.toNat ++ encodeLE 8 c.sum.toNat

/-- The `Match` layout. -/
def Match.encode (m : Match) : Bytes := framed m.prefixBytes ++ framed m.ignoreBytes

/-! ## Every layout is `Size` bytes long -/

@[simp] theorem KV.length_encode (k : KV) : k.encode.length = k.size := by
  simp [KV.encode, KV.size]
  omega

@[simp] theorem ManifestChange.length_encode (m : ManifestChange) : m.encode.length = 32 := by
  simp [ManifestChange.encode]

@[simp] theorem DataKey.length_encode (d : DataKey) : d.encode.length = d.size := by
  simp [DataKey.encode, DataKey.size]
  omega

@[simp] theorem Checksum.length_encode (c : Checksum) : c.encode.length = 12 := by
  simp [Checksum.encode]

@[simp] theorem Match.length_encode (m : Match) : m.encode.length = m.size := by
  simp [Match.encode, Match.size]
  omega

theorem KVList.length_encode (ks : List KV) (allocRef : UInt64) :
    (KVList.encode ⟨ks.map some, allocRef⟩).length = 12 + (ks.map fun k => 4 + k.size).sum := by
  simp only [KVList.encode, List.length_append, length_encodeLE, List.length_flatten,
    List.map_map, List.length_map, Function.comp_def, KVList.encodeElem, KV.length_encode]
  omega

theorem ManifestChangeSet.length_encode (cs : List ManifestChange) :
    (ManifestChangeSet.encode ⟨cs.map some⟩).length = 4 + 36 * cs.length := by
  simp only [ManifestChangeSet.encode, List.length_append, length_encodeLE,
    List.length_flatten, List.map_map, List.length_map, Function.comp_def,
    ManifestChangeSet.encodeElem, ManifestChange.length_encode]
  induction cs with
  | nil => rfl
  | cons c cs ih => simp only [List.map_cons, List.sum_cons, List.length_cons] at ih ⊢; omega

end Zapdb
