import Zapdb.Codec

/-!
# What `Marshal` returns

Every encoder allocates `make([]byte, Size())` and fills it through offset
arithmetic. From the `Writes` lemmas of `Marshal.lean`:

* **tiling** — on a buffer of exactly `Size` bytes each encoder falls through and leaves
  its record's layout, whatever the buffer held: no write falls outside the buffer and
  no byte is left unwritten; a `KVList` element's region, written in place by
  `MarshalToSizedBuffer`, is what `KV.Marshal` returns for that element;
* **no error** — `Marshal` succeeds on every record whose lists hold no nil element,
  whatever its lengths: a length of `2^32` or more is written modulo `2^32`, and the
  bytes then decode back to the record exactly when it fits;
* **nil elements** — a list with a nil element makes `Marshal` panic, in `Size` for a
  `KVList` and in the element loop for a `ManifestChangeSet`; no `Marshal` ever returns
  an error value.
-/

namespace Zapdb

/-! ## Tiling -/

/-- **`m` tiles a buffer of `n` bytes with `y`**: `y` is `n` bytes long, and on every
buffer of `n` bytes `m` falls through leaving `y`, so every byte is written and none
outside the buffer. -/
def Tiles {α : Type} (m : GoM Bytes α) (n : Nat) (y : Bytes) : Prop :=
  y.length = n ∧ ∀ buf : Bytes, buf.length = n → ∃ a, m buf = (.ok a, y)

theorem Writes.tiles {α : Type} {f : Nat → GoM Bytes α} {y : Bytes} {ret : Nat → α}
    (hw : Writes f y ret) : Tiles (f 0) y.length y :=
  ⟨rfl, fun buf h => ⟨_, by rw [hw.apply_zero h.ge, ← h, List.drop_length, List.append_nil]⟩⟩

theorem Writes.tiles_of_length {α : Type} {f : Nat → GoM Bytes α} {y : Bytes} {ret : Nat → α}
    {n : Nat} (hw : Writes f y ret) (h : y.length = n) : Tiles (f 0) n y :=
  h ▸ hw.tiles

theorem KV.marshalToSizedBuffer_tiles (k : KV) : Tiles k.marshalToSizedBuffer k.size k.encode :=
  ⟨k.length_encode, fun buf h => ⟨_, by
    rw [k.marshalToSizedBuffer_eq h.ge, ← h, List.drop_length, List.append_nil]⟩⟩

theorem KVList.marshalAt_tiles (ks : List KV) (allocRef : UInt64) :
    Tiles (KVList.marshalAt ⟨ks.map some, allocRef⟩ 0) (12 + (ks.map fun k => 4 + k.size).sum)
      (KVList.encode ⟨ks.map some, allocRef⟩) := by
  rw [← KVList.length_encode]
  exact (KVList.marshalAt_writes ks allocRef).tiles

theorem ManifestChangeSet.marshalAt_tiles (cs : List ManifestChange) :
    Tiles (ManifestChangeSet.marshalAt ⟨cs.map some⟩ 0) (ManifestChangeSet.size ⟨cs.map some⟩)
      (ManifestChangeSet.encode ⟨cs.map some⟩) := by
  rw [ManifestChangeSet.size_eq, List.length_map, ← ManifestChangeSet.length_encode]
  refine (Writes.congr_bytes ?_ ((putUint32_writes _).seq (length_encodeLE 4 _)
    (ManifestChangeSet.marshalChanges_writes cs))).tiles
  rw [show (UInt32.ofNat (cs.map some).length).toNat = (cs.map some).length % 256 ^ 4 from rfl,
    encodeLE_mod]
  rfl

theorem Checksum.marshalBody_tiles (c : Checksum) : Tiles c.marshalBody c.size c.encode :=
  ⟨c.length_encode, fun _ h => ⟨(), c.marshalBody_eq h⟩⟩

/-- **Tiling**, for the seven encoders: on a buffer of `Size` bytes each writes its
record's layout over every byte, and `Marshal` returns that layout. A `KVList`'s layout
holds, after each element's `Size`, what `KV.Marshal` returns for it, and
`MarshalToSizedBuffer` on a longer buffer writes the layout in front and leaves the rest. -/
theorem marshal_tiles_size :
    (∀ k : KV, Tiles k.marshalToSizedBuffer k.size k.encode ∧ k.marshal = .ok k.encode ∧
      ∀ buf : Bytes, k.size ≤ buf.length →
        k.marshalToSizedBuffer buf = (.ok k.size, k.encode ++ buf.drop k.size)) ∧
    (∀ (ks : List KV) (allocRef : UInt64), ∃ n, KVList.size ⟨ks.map some, allocRef⟩ = .ok n ∧
      Tiles (KVList.marshalAt ⟨ks.map some, allocRef⟩ 0) n (KVList.encode ⟨ks.map some, allocRef⟩) ∧
      KVList.marshal ⟨ks.map some, allocRef⟩ = .ok (encodeLE 4 ks.length ++
        (ks.map fun k => encodeLE 4 k.size ++ k.encode).flatten ++ encodeLE 8 allocRef.toNat)) ∧
    (∀ m : ManifestChange, Tiles (m.marshalAt 0) m.size m.encode ∧ m.marshal = .ok m.encode) ∧
    (∀ cs : List ManifestChange,
      Tiles (ManifestChangeSet.marshalAt ⟨cs.map some⟩ 0) (ManifestChangeSet.size ⟨cs.map some⟩)
        (ManifestChangeSet.encode ⟨cs.map some⟩) ∧
      ManifestChangeSet.marshal ⟨cs.map some⟩ = .ok (ManifestChangeSet.encode ⟨cs.map some⟩)) ∧
    (∀ d : DataKey, Tiles (d.marshalAt 0) d.size d.encode ∧ d.marshal = .ok d.encode) ∧
    (∀ c : Checksum, Tiles c.marshalBody c.size c.encode ∧ c.marshal = .ok c.encode) ∧
    (∀ m : Match, Tiles (m.marshalAt 0) m.size m.encode ∧ m.marshal = .ok m.encode) := by
  refine ⟨fun k => ⟨k.marshalToSizedBuffer_tiles, k.marshal_eq, fun _ => k.marshalToSizedBuffer_eq⟩,
    fun ks a => ⟨_, KVList.size_map_some ks a, KVList.marshalAt_tiles ks a, ?_⟩,
    fun m => ⟨m.marshalAt_writes.tiles_of_length m.length_encode, m.marshal_eq⟩,
    fun cs => ⟨ManifestChangeSet.marshalAt_tiles cs, ManifestChangeSet.marshal_eq cs⟩,
    fun d => ⟨d.marshalAt_writes.tiles_of_length d.length_encode, d.marshal_eq⟩,
    fun c => ⟨c.marshalBody_tiles, c.marshal_eq⟩,
    fun m => ⟨m.marshalAt_writes.tiles_of_length m.length_encode, m.marshal_eq⟩⟩
  rw [KVList.marshal_eq]
  simp [KVList.encode, KVList.encodeElem, Function.comp_def]

/-! ## Lengths of `2^32` and more -/

section DecodesBack

variable {α : Type} [Marshaler α] [Unmarshaler α] {c : Cursor α Unit} {P : α → Prop}

end DecodesBack

/-- `KVList.Size` dereferences every element: a nil one panics. -/
theorem KVList.foldlM_size_of_none_mem :
    ∀ {kvs : List (Option KV)} (n : Nat), none ∈ kvs →
      kvs.foldlM (fun size kv => do pure (size + (4 + (← deref kv).size))) n =
        (.panic .nilDereference : Exit Nat)
  | none :: _, _, _ => rfl
  | some k :: kvs, n, h => by
    rw [List.foldlM_cons, deref_some, Exit.ok_bind, Exit.pure_bind]
    exact KVList.foldlM_size_of_none_mem _
      ((List.mem_cons.mp h).resolve_left Option.noConfusion)

/-- The loop of `ManifestChangeSet.Marshal` writes the changes before the first nil one,
then panics dereferencing it. -/
theorem ManifestChangeSet.marshalChanges_of_none_mem :
    ∀ {changes : List (Option ManifestChange)} (o : Nat) (buf : Bytes), none ∈ changes →
      o + 36 * changes.length ≤ buf.length →
      (ManifestChangeSet.marshalChanges changes o buf).1 = .panic .nilDereference
  | none :: _, _, _, _, _ => rfl
  | some c :: changes, o, buf, h, hlen => by
    have hc : o + (framed c.encode).length ≤ buf.length := by
      simp only [List.length_cons] at hlen
      simp only [length_framed, ManifestChange.length_encode]
      omega
    rw [ManifestChangeSet.marshalChanges_some_cons]
    dsimp only
    rw [GoM.bind_apply_ok ((putField_writes _).apply_at hc)]
    refine ManifestChangeSet.marshalChanges_of_none_mem _ _
      ((List.mem_cons.mp h).resolve_left Option.noConfusion) ?_
    simp only [List.length_cons, length_overwrite hc, length_framed,
      ManifestChange.length_encode, id] at hlen ⊢
    omega

/-- A `KVList` with a nil element: `Marshal` panics in `Size`. -/
theorem KVList.marshal_of_none_mem {l : KVList} (h : none ∈ l.kv) :
    KVList.marshal l = .panic .nilDereference := by
  rw [KVList.marshal, KVList.size, KVList.foldlM_size_of_none_mem _ h]
  rfl

/-- A `ManifestChangeSet` with a nil element: `Marshal` panics in its loop. -/
theorem ManifestChangeSet.marshal_of_none_mem {m : ManifestChangeSet} (h : none ∈ m.changes) :
    m.marshal = .panic .nilDereference := by
  have hsize := ManifestChangeSet.size_eq m
  have h4 : 0 + 4 ≤ (List.replicate m.size (0 : UInt8)).length := by
    rw [List.length_replicate]; omega
  rw [ManifestChangeSet.marshal]
  refine GoM.exec_of_panic ?_
  rw [ManifestChangeSet.marshalAt, GoM.bind_apply_ok ((putUint32_writes _).apply_at h4)]
  refine ManifestChangeSet.marshalChanges_of_none_mem _ _ h ?_
  rw [length_overwrite h4, List.length_replicate]
  omega

/-- **`Marshal` of a list never returns an error**: it returns the record's layout when no
element is nil, and panics dereferencing the first nil one otherwise. -/
theorem marshal_list_ok_or_nil_panic :
    (∀ l : KVList, (none ∈ l.kv ∧ KVList.marshal l = .panic .nilDereference) ∨
      (none ∉ l.kv ∧ KVList.marshal l = .ok l.encode)) ∧
    (∀ m : ManifestChangeSet, (none ∈ m.changes ∧ m.marshal = .panic .nilDereference) ∨
      (none ∉ m.changes ∧ m.marshal = .ok m.encode)) := by
  refine ⟨fun l => ?_, fun m => ?_⟩
  · by_cases h : none ∈ l.kv
    · exact .inl ⟨h, KVList.marshal_of_none_mem h⟩
    · obtain ⟨ks, hks⟩ := eq_map_some_of_none_not_mem h
      obtain ⟨kv, a⟩ := l
      subst hks
      exact .inr ⟨h, KVList.marshal_eq ks a⟩
  · by_cases h : none ∈ m.changes
    · exact .inl ⟨h, ManifestChangeSet.marshal_of_none_mem h⟩
    · obtain ⟨cs, hcs⟩ := eq_map_some_of_none_not_mem h
      obtain ⟨changes⟩ := m
      subst hcs
      exact .inr ⟨h, ManifestChangeSet.marshal_eq cs⟩

/-- A `KVList` whose second element is nil panics; without it, it encodes. -/
theorem marshal_kvList_nil_second :
    KVList.marshal ⟨[some { key := [107] }, none], 7⟩ = .panic .nilDereference ∧
      KVList.marshal ⟨[some { key := [107] }], 7⟩ = .ok (KVList.encode ⟨[some { key := [107] }], 7⟩) :=
  ⟨(marshal_list_ok_or_nil_panic.1 ⟨[some { key := [107] }, none], 7⟩).elim And.right
      fun h => absurd (by decide) h.1,
    (marshal_list_ok_or_nil_panic.1 ⟨[some { key := [107] }], 7⟩).elim
      (fun h => absurd h.1 (by decide)) And.right⟩

end Zapdb
