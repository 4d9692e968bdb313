import Zapdb.Binary

/-!
# The record types of package `pb`

The seven records the storage engine persists, with their Go field types:

* `uint32`/`uint64` fields are `UInt32`/`UInt64`;
* the `int32` enums (`ManifestChange_Operation`, `EncryptionAlgo`,
  `Checksum_Algorithm`) and the `int64` `DataKey.CreatedAt` are kept as their bit
  patterns (`Int32`, `Int64`), since the codec only ever converts them to the
  unsigned type of the same width and back;
* `[]*KV` and `[]*ManifestChange` are lists of `Option`s, a nil pointer being `none`.

`Size` is the encoded length each `Marshal` allocates. It is a plain number for every
type except `KVList`, whose `Size` calls `kv.Size()` on each element and so panics on a
nil one.

`Fits` says that every length prefix and count of a record's encoding holds its
value: the `uint32(len(...))` conversions lose nothing, and every list pointer is
non-nil. It is the hypothesis of the round-trip laws.
-/

namespace Zapdb

/-- A Go `int32`, as its 32-bit pattern. -/
structure Int32 where
  toUInt32 : UInt32
  deriving DecidableEq, Repr

/-- A Go `int64`, as its 64-bit pattern. -/
structure Int64 where
  toUInt64 : UInt64
  deriving DecidableEq, Repr

/-- The signed value of an `int32`. -/
def Int32.toInt (x : Int32) : Int := (x.toUInt32.toNat : Int).bmod (2 ^ 32)

/-- The `int32` with signed value `i` (taken modulo `2^32`). -/
def Int32.ofInt (i : Int) : Int32 := ⟨UInt32.ofNat (i % 2 ^ 32).toNat⟩

/-- `EncryptionAlgo`, an `int32` enum; only `EncryptionAlgo_aes = 0` is named. -/
abbrev EncryptionAlgo := Int32

/-- `ManifestChange_Operation`, an `int32` enum: `CREATE = 0`, `DELETE = 1`. -/
abbrev ManifestChange.Operation := Int32

/-- `Checksum_Algorithm`, an `int32` enum: `CRC32C = 0`, `XXHash64 = 1`. -/
abbrev Checksum.Algorithm := Int32

/-- Dereference a pointer: a nil one panics. -/
def deref {α : Type} : Option α → Exit α
  | some a => .ok a
  | none => .panic .nilDereference

@[simp] theorem deref_some {α : Type} (a : α) : deref (some a) = .ok a := rfl

/-- `KV`, a key-value pair. -/
structure KV where
  key : Bytes := []
  value : Bytes := []
  userMeta : Bytes := []
  version : UInt64 := 0
  expiresAt : UInt64 := 0
  meta : Bytes := []
  streamId : UInt32 := 0
  streamDone : Bool := false
  deriving DecidableEq, Repr

/-- A slice of pointers with no nil one is a list of values. -/
theorem eq_map_some_of_none_not_mem {α : Type} :
    ∀ {l : List (Option α)}, none ∉ l → ∃ xs : List α, l = xs.map some
  | [], _ => ⟨[], rfl⟩
  | none :: _, h => absurd (List.mem_cons_self _ _) h
  | some x :: l, h =>
    let ⟨xs, hxs⟩ := eq_map_some_of_none_not_mem (fun hl => h (List.mem_cons_of_mem _ hl))
    ⟨x :: xs, by rw [hxs, List.map_cons]⟩

/-- `KVList`, a batch of pairs and an opaque correlation token. -/
structure KVList where
  kv : List (Option KV) := []
  allocRef : UInt64 := 0
  deriving DecidableEq, Repr

/-- `ManifestChange`, one entry of the manifest's change log. -/
structure ManifestChange where
  id : UInt64 := 0
  op : ManifestChange.Operation := ⟨0⟩
  level : UInt32 := 0
  keyId : UInt64 := 0
  encryptionAlgo : EncryptionAlgo := ⟨0⟩
  compression : UInt32 := 0
  deriving DecidableEq, Repr

/-- `ManifestChangeSet`, an ordered batch of manifest changes. -/
structure ManifestChangeSet where
  changes : List (Option ManifestChange) := []
  deriving DecidableEq, Repr

/-- `DataKey`, an encryption data key. -/
structure DataKey where
  keyId : UInt64 := 0
  data : Bytes := []
  iv : Bytes := []
  createdAt : Int64 := ⟨0⟩
  deriving DecidableEq, Repr

/-- `Checksum`, a checksum and the algorithm that computed it. -/
structure Checksum where
  algo : Checksum.Algorithm := ⟨0⟩
  sum : UInt64 := 0
  deriving DecidableEq, Repr

/-- `Match`, a key-prefix pattern. Go's `Prefix` is `prefixBytes` here; `IgnoreBytes`
is a Go `string`, which holds any bytes, valid UTF-8 or not. -/
structure Match where
  prefixBytes : Bytes := []
  ignoreBytes : Bytes := []
  deriving DecidableEq, Repr

/-- A field of a receiver of type `σ` that holds a slice of pointers to `τ`, read by
`get` and assigned by `set`, with the laws of a field. The list decoders store their
elements through it. -/
structure ListField (σ τ : Type) where
  get : σ → List (Option τ)
  set : List (Option τ) → σ → σ
  get_set : ∀ l s, get (set l s) = l
  set_set : ∀ l l' s, set l (set l' s) = set l s
  set_get : ∀ s, set (get s) s = s

/-- `p[i] = &x` for the slice held in `f`. -/
def ListField.store {σ τ : Type} (f : ListField σ τ) (i : Nat) (x : τ) (s : σ) : σ :=
  f.set ((f.get s).set i (some x)) s

/-- A second store at the same index replaces the first. -/
theorem ListField.store_store {σ τ : Type} (f : ListField σ τ) (i : Nat) (x y : τ) (s : σ) :
    f.store i y (f.store i x s) = f.store i y s := by
  simp only [ListField.store, f.get_set, f.set_set, List.set_set]

/-- `KVList.Kv`. -/
def KVList.kvField : ListField KVList KV where
  get := KVList.kv
  set kv l := { l with kv }
  get_set _ _ := rfl
  set_set _ _ _ := rfl
  set_get _ := rfl

/-- `ManifestChangeSet.Changes`. -/
def ManifestChangeSet.changesField : ListField ManifestChangeSet ManifestChange where
  get := ManifestChangeSet.changes
  set changes m := { m with changes }
  get_set _ _ := rfl
  set_set _ _ _ := rfl
  set_get _ := rfl

/-! ## `Size` -/

/-- `KV.Size`: `[keyLen:4][key][valueLen:4][value][userMetaLen:4][userMeta]
[version:8][expiresAt:8][metaLen:4][meta][streamId:4][streamDone:1]`. -/
def KV.size (k : KV) : Nat :=
  4 + k.key.length + 4 + k.value.length + 4 + k.userMeta.length + 8 + 8 +
    4 + k.meta.length + 4 + 1

/-- `KVList.Size`: `size := 4 + 8`, then `size += 4 + kv.Size()` for each element,
which dereferences it. -/
def KVList.size (l : KVList) : Exit Nat :=
  l.kv.foldlM (fun size kv => do pure (size + (4 + (← deref kv).size))) (4 + 8)

/-- `ManifestChange.Size`: 32 bytes, without reading the receiver. -/
def ManifestChange.size (_ : ManifestChange) : Nat := 8 + 4 + 4 + 8 + 4 + 4

/-- `ManifestChangeSet.Size`: `size := 4`, then `size += 4 + 32` for each element,
without dereferencing it. -/
def ManifestChangeSet.size (m : ManifestChangeSet) : Nat :=
  m.changes.foldl (fun size _ => size + (4 + 32)) 4

/-- `DataKey.Size`: `[keyId:8][dataLen:4][data][ivLen:4][iv][createdAt:8]`. -/
def DataKey.size (d : DataKey) : Nat := 8 + 4 + d.data.length + 4 + d.iv.length + 8

/-- `Checksum.Size`: `[algo:4][sum:8]`. -/
def Checksum.size (_ : Checksum) : Nat := 4 + 8

/-- `Match.Size`: `[prefixLen:4][prefix][ignoreBytesLen:4][ignoreBytes]`. -/
def Match.size (m : Match) : Nat := 4 + m.prefixBytes.length + 4 + m.ignoreBytes.length

theorem KVList.size_map_some (ks : List KV) (allocRef : UInt64) :
    KVList.size ⟨ks.map some, allocRef⟩ = .ok (12 + (ks.map fun k => 4 + k.size).sum) := by
  suffices ∀ n, (ks.map some).foldlM (fun size kv => do pure (size + (4 + (← deref kv).size)))
      n = (.ok (n + (ks.map fun k => 4 + k.size).sum) : Exit Nat) from this 12
  induction ks with
  | nil => intro n; rfl
  | cons k ks ih =>
    intro n
    rw [List.map_cons, List.foldlM_cons, deref_some, Exit.ok_bind, Exit.pure_bind, ih,
      List.map_cons, List.sum_cons, Nat.add_assoc]

theorem ManifestChangeSet.size_eq (m : ManifestChangeSet) : m.size = 4 + 36 * m.changes.length := by
  suffices ∀ n, m.changes.foldl (fun size _ => size + (4 + 32)) n = n + 36 * m.changes.length from
    this 4
  induction m.changes with
  | nil => simp
  | cons _ cs ih => intro n; simp only [List.foldl_cons, ih, List.length_cons]; omega

/-! ## The round-trip hypothesis -/

/-- Every byte field of `k` is shorter than `2^32` bytes. -/
def KV.Fits (k : KV) : Prop :=
  k.key.length < 2 ^ 32 ∧ k.value.length < 2 ^ 32 ∧ k.userMeta.length < 2 ^ 32 ∧
    k.meta.length < 2 ^ 32

/-- `l` has fewer than `2^32` elements, none nil, each of `Size` below `2^32`. -/
def KVList.Fits (l : KVList) : Prop :=
  ∃ ks : List KV, l.kv = ks.map some ∧ ks.length < 2 ^ 32 ∧ ∀ k ∈ ks, k.size < 2 ^ 32

/-- `m` has fewer than `2^32` changes, none nil. -/
def ManifestChangeSet.Fits (m : ManifestChangeSet) : Prop :=
  ∃ cs : List ManifestChange, m.changes = cs.map some ∧ cs.length < 2 ^ 32

/-- Both byte fields of `d` are shorter than `2^32` bytes. -/
def DataKey.Fits (d : DataKey) : Prop := d.data.length < 2 ^ 32 ∧ d.iv.length < 2 ^ 32

/-- Both fields of `m` are shorter than `2^32` bytes. -/
def Match.Fits (m : Match) : Prop :=
  m.prefixBytes.length < 2 ^ 32 ∧ m.ignoreBytes.length < 2 ^ 32

instance (k : KV) : Decidable k.Fits := inferInstanceAs (Decidable (_ ∧ _))

instance (d : DataKey) : Decidable d.Fits := inferInstanceAs (Decidable (_ ∧ _))

instance (m : Match) : Decidable m.Fits := inferInstanceAs (Decidable (_ ∧ _))

theorem KV.Fits.of_size {k : KV} (h : k.size < 2 ^ 32) : k.Fits := by
  unfold KV.size at h
  refine ⟨?_, ?_, ?_, ?_⟩ <;> omega

end Zapdb
