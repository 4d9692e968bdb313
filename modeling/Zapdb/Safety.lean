import Zapdb.Codec

/-!
# What the decoders do on untrusted input

`Refine.lean` shows that on a target whose `int` is exact on the input, every decoder
ends in success or the buffer-too-small error. Two things fall outside that:

* **32-bit targets** — `int(binary.LittleEndian.Uint32(...))` of a length of `2^31` or
  more is negative there, the check `offset+n > len(data)` lets it through, and
  `make([]byte, n)` or `make([]*KV, count)` panics. Every decoder with a length
  prefix or a count does this on a 37-byte input, while the two fixed layouts,
  `ManifestChange` and `Checksum`, never panic there;
* **allocation before the check** — `KVList.Unmarshal` and `ManifestChangeSet.Unmarshal`
  allocate `count` element pointers as soon as they read the count, before any check
  against the bytes that remain, so a 12-byte input leaves a receiver holding up to
  `2^32 - 1` of them.
-/

namespace Zapdb

open LittleEndian

/-! ## Go's `int` on a 32-bit target -/

namespace IntSize

/-- On a 32-bit target, `int` holds every value in `[-2^31, 2^31)` as it is. -/
theorem wrap_bits32 {x : Int} (h₀ : -2 ^ 31 ≤ x) (h₁ : x < 2 ^ 31) : (bits 32).wrap x = x := by
  simp only [wrap, Int.bmod]
  split <;> omega

/-- On a 32-bit target, `a + b` is exact while the sum stays below `2^31`. -/
theorem add_bits32 {a b : Nat} (h : a + b < 2 ^ 31) : (bits 32).add a b = ((a + b : Nat) : Int) := by
  rw [IntSize.add, ← Int.ofNat_add]
  exact wrap_bits32 (by omega) (by omega)

/-- `add_bits32` for a literal right operand, as in `offset += 4`. -/
theorem add_ofNat_bits32 {a : Nat} (b : Nat) (h : a + OfNat.ofNat b < 2 ^ 31) :
    (bits 32).add a (OfNat.ofNat b) = ((a + OfNat.ofNat b : Nat) : Int) :=
  add_bits32 h

/-- `int(u)` of a `uint32` of `2^31` or more is negative on a 32-bit target. -/
theorem ofUInt32_bits32 {n : Nat} (h₀ : 2 ^ 31 ≤ n) (h₁ : n < 2 ^ 32) :
    (bits 32).ofUInt32 (UInt32.ofNat n) = n - 2 ^ 32 := by
  rw [ofUInt32, show (UInt32.ofNat n).toNat = n from Nat.mod_eq_of_lt h₁, wrap, Int.bmod]
  split <;> omega

end IntSize

/-- The first four bytes of `encodeLE 4 n ++ t` read back as `n`. -/
theorem decodeLE_take_four_encodeLE {n : Nat} (h : n < 2 ^ 32) (t : Bytes) :
    decodeLE (((encodeLE 4 n ++ t).drop 0).take 4) = n := by
  rw [List.drop_zero, decodeLE_take_encodeLE]
  exact Nat.mod_eq_of_lt h

section Bits32

variable {σ : Type} {data : Bytes} {o : Nat}

/-- A length prefix of `2^31` or more is read as a negative `int` on a 32-bit target. -/
theorem lenAt_bits32 (h : o + 4 ≤ data.length) (hn : 2 ^ 31 ≤ decodeLE ((data.drop o).take 4)) :
    (lenAt (.bits 32) data o : GoM σ Int) = pure ((decodeLE ((data.drop o).take 4) : Int) - 2 ^ 32) := by
  rw [lenAt, sliceFrom_natCast (by omega), GoM.pure_bind,
    uint32_of_le (by rw [List.length_drop]; omega), GoM.pure_bind,
    IntSize.ofUInt32_bits32 hn (decodeLE_take_four_lt h)]

/-- A byte field with such a prefix, at an offset below `2^31 - 4`, passes its check and
panics in `make`, before anything is assigned. -/
theorem getField_bits32_panics (set : Bytes → σ → σ) (h : o + 4 ≤ data.length)
    (hlen : data.length < 2 ^ 31) (hn : 2 ^ 31 ≤ decodeLE ((data.drop o).take 4)) (s : σ) :
    getField (.bits 32) data set o s = (.panic .makeLenOutOfRange, s) := by
  have hlt := decodeLE_take_four_lt h
  have hneed : (IntSize.bits 32).add ((o + 4 : Nat) : Int)
      (decodeLE ((data.drop o).take 4) - 2 ^ 32) =
      ((o + 4 : Nat) : Int) + (decodeLE ((data.drop o).take 4) - 2 ^ 32) :=
    IntSize.wrap_bits32 (by omega) (by omega)
  rw [getField, lenAt_bits32 h hn, GoM.pure_bind,
    IntSize.add_ofNat_bits32 _ (show o + 4 < 2 ^ 31 by omega), need, hneed, if_neg (by omega),
    GoM.pure_bind, make, if_neg (by omega)]
  rfl

/-- A count of `2^31` or more makes the element array's `make` panic. -/
theorem make_count_bits32_panics {τ : Type} (z : τ) (h : 4 ≤ data.length)
    (hn : 2 ^ 31 ≤ decodeLE ((data.drop 0).take 4)) (f : Int → List τ → GoM σ Unit) (s : σ) :
    (lenAt (.bits 32) data ((0 : Nat) : Int) >>= fun count => make count z >>= f count) s =
      (.panic .makeLenOutOfRange, s) := by
  have hlt := decodeLE_take_four_lt (show 0 + 4 ≤ data.length by omega)
  rw [lenAt_bits32 (by omega) hn, GoM.pure_bind, make, if_neg (by omega)]
  rfl

end Bits32

/-- **Negative lengths on a 32-bit target**: on an input shorter than `2^31` bytes whose
first length prefix or count is `n ≥ 2^31`, the five decoders with length prefixes
panic in `make`. -/
theorem unmarshal_bits32_make_panics {n : Nat} (h₀ : 2 ^ 31 ≤ n) (h₁ : n < 2 ^ 32) {t : Bytes}
    (ht : 33 ≤ t.length) (ht' : t.length < 2 ^ 30) :
    (∀ s : KV, KV.unmarshal (.bits 32) (encodeLE 4 n ++ t) s = (.panic .makeLenOutOfRange, s)) ∧
    (∀ s : KVList,
      KVList.unmarshal (.bits 32) (encodeLE 4 n ++ t) s = (.panic .makeLenOutOfRange, s)) ∧
    (∀ s : ManifestChangeSet,
      ManifestChangeSet.unmarshal (.bits 32) (encodeLE 4 n ++ t) s =
        (.panic .makeLenOutOfRange, s)) ∧
    (∀ s : Match,
      Match.unmarshal (.bits 32) (encodeLE 4 n ++ t) s = (.panic .makeLenOutOfRange, s)) ∧
    (∀ (k : UInt64) (s : DataKey),
      DataKey.unmarshal (.bits 32) (encodeLE 8 k.toNat ++ (encodeLE 4 n ++ t)) s =
        (.panic .makeLenOutOfRange, { s with keyId := k })) := by
  have hlen : (encodeLE 4 n ++ t).length = 4 + t.length := by simp
  have hn := decodeLE_take_four_encodeLE h₁ t
  have hfield {σ : Type} (set : Bytes → σ → σ) (s : σ) :
      getField (.bits 32) (encodeLE 4 n ++ t) set ((0 : Nat) : Int) s =
        (.panic .makeLenOutOfRange, s) :=
    getField_bits32_panics set (by omega) (by omega) (by omega) s
  refine ⟨fun s => ?_, fun s => ?_, fun s => ?_, fun s => ?_, fun k s => ?_⟩
  · rw [KV.unmarshal, if_neg (by omega)]
    exact GoM.bind_apply_panic (hfield _ s)
  · rw [KVList.unmarshal, if_neg (by omega)]
    exact make_count_bits32_panics none (by omega) (by omega) _ s
  · rw [ManifestChangeSet.unmarshal, if_neg (by omega)]
    exact make_count_bits32_panics none (by omega) (by omega) _ s
  · rw [Match.unmarshal, if_neg (by omega)]
    exact GoM.bind_apply_panic (hfield _ s)
  · have hkey : UInt64.ofNat
        (decodeLE (((encodeLE 8 k.toNat ++ (encodeLE 4 n ++ t)).drop 0).take 8)) = k := by
      rw [List.drop_zero, decodeLE_take_encodeLE, Nat.mod_eq_of_lt (show k.toNat < 256 ^ 8 from k.toNat_lt_size)]
      exact UInt64.ofNat_toNat' k
    rw [DataKey.unmarshal, if_neg (by simp; omega), DataKey.unmarshalAt,
      show (0 : Int) = ((0 : Nat) : Int) from rfl,
      GoM.bind_apply_ok (readUint64_natCast _ (show 0 + 8 ≤ _ by simp)
        (IntSize.add_ofNat_bits32 _ (by omega)) s), hkey]
    refine GoM.bind_apply_panic (getField_bits32_panics _ (by simp; omega) (by simp; omega) ?_ _)
    rw [List.drop_left' (length_encodeLE 8 _), ← List.drop_zero (encodeLE 4 n ++ t), hn]
    exact h₀

/-- The largest `u32` as the key length of a 37-byte input. -/
theorem KV.unmarshal_bits32_max_length :
    (2 ^ 31 ≤ 2 ^ 32 - 1 ∧ 2 ^ 32 - 1 < 2 ^ 32 ∧ 33 ≤ (List.replicate 33 (0 : UInt8)).length ∧
      (List.replicate 33 (0 : UInt8)).length < 2 ^ 30) ∧
    KV.unmarshal (.bits 32) (encodeLE 4 (2 ^ 32 - 1) ++ List.replicate 33 0) {} =
      (.panic .makeLenOutOfRange, {}) :=
  ⟨⟨by decide, by decide, by simp, by simp⟩,
    (unmarshal_bits32_make_panics (by decide) (by decide) (by simp) (by simp)).1 {}⟩

/-- **The fixed layouts on a 32-bit target**: `ManifestChange.Unmarshal` reads six
integers at offsets below 32 and converts no length, so on a 32-bit target it ends in
success or the buffer-too-small error on every input; `Checksum.Unmarshal` does no `int`
arithmetic at all. These are the two decoders the panic above leaves out. -/
theorem unmarshal_fixed_bits32_no_panic (data : Bytes) :
    (∀ s : ManifestChange, (ManifestChange.unmarshal (.bits 32) data s).1 = .ok () ∨
      (ManifestChange.unmarshal (.bits 32) data s).1 = .err .bufferTooSmall) ∧
    (∀ s : Checksum, (Checksum.unmarshal data s).1 = .ok () ∨
      (Checksum.unmarshal data s).1 = .err .bufferTooSmall) := by
  refine ⟨fun s => ?_, (Checksum.unmarshal_decodes data).no_panic⟩
  unfold ManifestChange.unmarshal
  split_ifs with h
  · exact .inr rfl
  left
  show (ManifestChange.unmarshalAt (.bits 32) data ((0 : Nat) : Int) s).1 = _
  rw [ManifestChange.unmarshalAt,
    GoM.bind_apply_ok (readUint64_natCast _ (show 0 + 8 ≤ data.length by omega)
      (IntSize.add_ofNat_bits32 _ (by omega)) _),
    GoM.bind_apply_ok (readUint32_natCast _ (show 0 + 8 + 4 ≤ data.length by omega)
      (IntSize.add_ofNat_bits32 _ (by omega)) _),
    GoM.bind_apply_ok (readUint32_natCast _ (show 0 + 8 + 4 + 4 ≤ data.length by omega)
      (IntSize.add_ofNat_bits32 _ (by omega)) _),
    GoM.bind_apply_ok (readUint64_natCast _ (show 0 + 8 + 4 + 4 + 8 ≤ data.length by omega)
      (IntSize.add_ofNat_bits32 _ (by omega)) _),
    GoM.bind_apply_ok (readUint32_natCast _ (show 0 + 8 + 4 + 4 + 8 + 4 ≤ data.length by omega)
      (IntSize.add_ofNat_bits32 _ (by omega)) _),
    GoM.bind_apply_ok (readUint32_natCast _ (show 0 + 8 + 4 + 4 + 8 + 4 + 4 ≤ data.length by omega)
      (IntSize.add_ofNat_bits32 _ (by omega)) _)]
  rfl

/-! ## No panic on a 64-bit target -/

/-- **No panic on 64-bit targets**: on every input shorter than `2^62` bytes, each of the
seven decoders ends in success or the buffer-too-small error, whatever the receiver. -/
theorem unmarshal_bits64_no_panic (data : Bytes) (h : data.length < 2 ^ 62) :
    (∀ s : KV, (KV.unmarshal (.bits 64) data s).1 = .ok () ∨
      (KV.unmarshal (.bits 64) data s).1 = .err .bufferTooSmall) ∧
    (∀ s : KVList, (KVList.unmarshal (.bits 64) data s).1 = .ok () ∨
      (KVList.unmarshal (.bits 64) data s).1 = .err .bufferTooSmall) ∧
    (∀ s : ManifestChange, (ManifestChange.unmarshal (.bits 64) data s).1 = .ok () ∨
      (ManifestChange.unmarshal (.bits 64) data s).1 = .err .bufferTooSmall) ∧
    (∀ s : ManifestChangeSet, (ManifestChangeSet.unmarshal (.bits 64) data s).1 = .ok () ∨
      (ManifestChangeSet.unmarshal (.bits 64) data s).1 = .err .bufferTooSmall) ∧
    (∀ s : DataKey, (DataKey.unmarshal (.bits 64) data s).1 = .ok () ∨
      (DataKey.unmarshal (.bits 64) data s).1 = .err .bufferTooSmall) ∧
    (∀ s : Checksum, (Checksum.unmarshal data s).1 = .ok () ∨
      (Checksum.unmarshal data s).1 = .err .bufferTooSmall) ∧
    (∀ s : Match, (Match.unmarshal (.bits 64) data s).1 = .ok () ∨
      (Match.unmarshal (.bits 64) data s).1 = .err .bufferTooSmall) :=
  have hw := IntSize.exact_bits64 h
  ⟨(KV.unmarshal_decodes hw).no_panic, (KVList.unmarshal_decodes hw).no_panic,
    (ManifestChange.unmarshal_decodes hw).no_panic,
    (ManifestChangeSet.unmarshal_decodes hw).no_panic, (DataKey.unmarshal_decodes hw).no_panic,
    (Checksum.unmarshal_decodes data).no_panic, (Match.unmarshal_decodes hw).no_panic⟩

/-- On a 64-bit target, a `KV` input whose key length prefix is `2^32 - 1`, the value
that panics on a 32-bit one. -/
theorem unmarshal_bits64_no_panic_max_length :
    (List.replicate 4 255 ++ List.replicate 33 0 : Bytes).length < 2 ^ 62 ∧
      ((KV.unmarshal (.bits 64) (List.replicate 4 255 ++ List.replicate 33 0) {}).1 = .ok () ∨
        (KV.unmarshal (.bits 64) (List.replicate 4 255 ++ List.replicate 33 0) {}).1 =
          .err .bufferTooSmall) :=
  ⟨by decide, (unmarshal_bits64_no_panic _ (by decide)).1 {}⟩

/-! ## Allocation before the check -/

section Loop

variable {σ τ : Type} {w : IntSize} {data : Bytes} (hw : w.ExactTo data.length)
include hw

/-- One iteration of the element loop whose element fails to decode: the pointer at `i`
is set to a fresh `τ`, what the element's decoder leaves there is kept, and its error is
returned. -/
theorem unmarshalElems_elem_err {f : ListField σ τ} {z t : τ} {unmarshal : Bytes → GoM τ Unit}
    {e : PbError} {i n o : Nat} (h : o + 4 + decodeLE ((data.drop o).take 4) ≤ data.length)
    (he : unmarshal ((data.drop (o + 4)).take (decodeLE ((data.drop o).take 4))) z = (.err e, t))
    (s : σ) :
    unmarshalElems w data f z unmarshal i (n + 1) o s = (.err e, f.store i t s) := by
  rw [unmarshalElems, need_ofNat _ (hw.mono (by omega)), if_neg (by omega), GoM.pure_bind,
    lenAt_natCast (by omega) (hw.mono (by omega)), GoM.pure_bind, hw.add_ofNat _ (by omega),
    need_natCast (hw.mono h), if_neg (by omega), GoM.pure_bind, GoM.modify_bind, hw.add h,
    slice_natCast (by omega), GoM.pure_bind]
  show GoM.bind _ _ _ = _
  simp only [GoM.bind, GoM.callNew, he, f.store_store]

end Loop

section Allocation

variable {w : IntSize} {n : Nat}

/-- The 12-byte input of a count `n` followed by eight zero bytes: its first element
has length `0`. -/
theorem decodeLE_count_zeros (n : Nat) :
    decodeLE (((encodeLE 4 n ++ List.replicate 8 0).drop 4).take 4) = 0 := by
  rw [List.drop_left' (length_encodeLE 4 n)]
  rfl

variable {σ τ : Type}

/-- What the two list decoders do first on a count `n > 0` followed by eight zero bytes:
read the count, allocate `n` pointers, set the first to what the element decoder leaves on
the empty slice, and return its error. -/
theorem alloc_first_elem_err (hw : w.Exact 12) (f : ListField σ τ) {z t : τ}
    {unmarshal : Bytes → GoM τ Unit} {e : PbError} (h₀ : 0 < n) (h₁ : n < 2 ^ 32)
    (he : unmarshal [] z = (.err e, t)) (k : Int → GoM σ Unit) (s : σ) :
    (lenAt w (encodeLE 4 n ++ List.replicate 8 0) ((0 : Nat) : Int) >>= fun count =>
      make count (none : Option τ) >>= fun xs => GoM.modify (f.set xs) >>= fun _ =>
        unmarshalElems w (encodeLE 4 n ++ List.replicate 8 0) f z unmarshal 0 count.toNat
          (w.add ((0 : Nat) : Int) 4) >>= k) s =
      (.err e, f.store 0 t (f.set (List.replicate n none) s)) := by
  obtain ⟨m, rfl⟩ : ∃ m, n = m + 1 := ⟨n - 1, by omega⟩
  have hlen : (encodeLE 4 (m + 1) ++ List.replicate 8 (0 : UInt8)).length = 12 := by simp
  have hw' : w.Exact (encodeLE 4 (m + 1) ++ List.replicate 8 (0 : UInt8)).length := hlen ▸ hw
  have hz := decodeLE_count_zeros (m + 1)
  rw [lenAt_natCast (by omega) (hw'.exactTo (by rw [decodeLE_take_four_encodeLE h₁]; omega)),
    decodeLE_take_four_encodeLE h₁, GoM.pure_bind,
    hw'.add_ofNat _ (show 0 + 4 < _ + 2 ^ 33 by omega), make_natCast, GoM.pure_bind,
    GoM.modify_bind, Int.toNat_ofNat]
  exact GoM.bind_apply_err
    (unmarshalElems_elem_err (hw'.exactTo (by omega)) (by rw [hz, hlen]; omega)
      (by rw [hz]; exact he) _)

/-- `KVList.Unmarshal` of a count `n > 0` and eight zero bytes allocates `n` pointers, sets
the first to an empty `KV` whose decoding fails, and returns the buffer-too-small error. -/
theorem KVList.unmarshal_count_zeros (hw : w.Exact 12) (h₀ : 0 < n) (h₁ : n < 2 ^ 32)
    (s : KVList) :
    KVList.unmarshal w (encodeLE 4 n ++ List.replicate 8 0) s =
      (.err .bufferTooSmall, { s with kv := (List.replicate n none).set 0 (some {}) }) := by
  rw [KVList.unmarshal, if_neg (by simp)]
  exact alloc_first_elem_err hw KVList.kvField h₀ h₁ rfl _ s

/-- `ManifestChangeSet.Unmarshal` of the same input allocates `n` pointers in the same
way. -/
theorem ManifestChangeSet.unmarshal_count_zeros (hw : w.Exact 12) (h₀ : 0 < n) (h₁ : n < 2 ^ 32)
    (s : ManifestChangeSet) :
    ManifestChangeSet.unmarshal w (encodeLE 4 n ++ List.replicate 8 0) s =
      (.err .bufferTooSmall, ⟨(List.replicate n none).set 0 (some {})⟩) := by
  rw [ManifestChangeSet.unmarshal, if_neg (by simp)]
  exact alloc_first_elem_err hw ManifestChangeSet.changesField h₀ h₁ rfl _ s

end Allocation

/-- **Allocation before the check**: on the 12-byte input of a count `n` and eight zero
bytes, `KVList.Unmarshal` and `ManifestChangeSet.Unmarshal` allocate `n` element pointers
before looking at the rest of the input. With memory unbounded, as here, they leave a
receiver holding them, for every `n` up to `2^32 - 1`, and return the buffer-too-small
error. On a real host the allocation comes first all the same, and for a large `n` the
process dies with out of memory before any error is returned. -/
theorem unmarshal_allocates_count {w : IntSize} (hw : w.Exact 12) {n : Nat} (h₀ : 0 < n)
    (h₁ : n < 2 ^ 32) :
    (∀ s : KVList, KVList.unmarshal w (encodeLE 4 n ++ List.replicate 8 0) s =
      (.err .bufferTooSmall, { s with kv := (List.replicate n none).set 0 (some {}) })) ∧
    (∀ s : ManifestChangeSet, ManifestChangeSet.unmarshal w (encodeLE 4 n ++ List.replicate 8 0) s =
      (.err .bufferTooSmall, ⟨(List.replicate n none).set 0 (some {})⟩)) :=
  ⟨KVList.unmarshal_count_zeros hw h₀ h₁, ManifestChangeSet.unmarshal_count_zeros hw h₀ h₁⟩

/-- On a 64-bit target, a count of `2^32 - 1` in a 12-byte input: the model's receiver
holds `2^32 - 1` pointers. A real 64-bit host is asked for 32 GiB at that `make`, and
usually dies with out of memory there. -/
theorem unmarshal_allocates_max_count :
    ((IntSize.bits 64).Exact 12 ∧ 0 < 2 ^ 32 - 1 ∧ 2 ^ 32 - 1 < 2 ^ 32) ∧
    KVList.unmarshal (.bits 64) (encodeLE 4 (2 ^ 32 - 1) ++ List.replicate 8 0) {} =
      (.err .bufferTooSmall, { kv := (List.replicate (2 ^ 32 - 1) none).set 0 (some {}) }) ∧
    ((List.replicate (2 ^ 32 - 1) (none : Option KV)).set 0 (some {})).length = 2 ^ 32 - 1 :=
  ⟨⟨IntSize.exact_bits64 (by decide), by decide, by decide⟩,
    (unmarshal_allocates_count (IntSize.exact_bits64 (by decide)) (by decide) (by decide)).1 {},
    by rw [List.length_set, List.length_replicate]⟩

end Zapdb
