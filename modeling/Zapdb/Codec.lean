import Zapdb.Refine
import Zapdb.Interface

/-!
# The codec's laws

The encoders write a record's layout (`Marshal.lean`), the cursor decoders read a
layout back (`Read.lean`), and the Go decoders compute the cursor decoders on every
target whose `int` is exact on the input (`Refine.lean`). Put together, for every record
`r` whose lengths fit:

* **round trip** — `Unmarshal(Marshal(r) ++ t)` leaves `r` in any receiver, and
  `MarshalAppend(P, r)` is `P` followed by `Marshal(r)`;
* **truncation** — every proper prefix of `Marshal(r)` is rejected with the
  buffer-too-small error;
* **the same on a 32-bit target**, for inputs and encodings shorter than `2^31` bytes,
  where a 32-bit `int` is exact on every length prefix that the decoders read (on other
  inputs it is not: `Safety.lean`);
* **canonical encodings** — what a successful `Unmarshal(d)` leaves re-encodes to the
  bytes it read, for the records with a fixed layout; a `KV` re-encodes to them up to
  its last byte, and a list to bytes that decode to it again;
* **trailing bytes** — bytes after a successful decode's input change nothing;
* **the prior receiver** — a successful decode assigns every field, so the record it
  leaves depends on the input alone.

`Codec r e c` collects what each law needs of a record: `Marshal(r)` is `e`, the cursor
`c` reads `e` back to `r`, and the Go decoder computes `c`.
-/

namespace Zapdb

/-! ## From the cursor to the Go decoders -/

section

variable {σ : Type} {m : GoM σ Unit} {c : Cursor σ Unit} {y : Bytes} {r : σ}

/-- A decoder that computes a cursor leaves `r` on bytes that cursor reads back to `r`. -/
theorem DecodesOn.ok_of_reads {E : Option Bytes} {t : Bytes} (hd : DecodesOn (y ++ t) E m c)
    (hr : Reads c y () fun _ => r) (s : σ) : m s = (.ok (), r) :=
  hd.ok s r t (hr s t)

/-- On a proper prefix of those bytes it returns the buffer-too-small error, where the
failure is claimed: on every input, or on the prefix followed by the rest of the bytes. -/
theorem DecodesOn.fail_of_reads {n : Nat} {E : Option Bytes} (hd : DecodesOn (y.take n) E m c)
    (hr : Reads c y () fun _ => r) (hn : n < y.length) (hE : E = none ∨ E = some (y.drop n))
    (s : σ) : (m s).1 = .err .bufferTooSmall := by
  refine hd.fail s ?_ (c.run_take_eq_none (hr.run_eq) hn)
  obtain rfl | rfl := hE
  · trivial
  · simp [Within, hr.run_eq]

/-- A successful Go decode is a successful cursor run to the same receiver. -/
theorem Decodes.run_of_ok {d : Bytes} {s : σ} (hd : Decodes d m c) (h : m s = (.ok (), r)) :
    ∃ rest, c.run s d = some ((), r, rest) := by
  cases hc : c.run s d with
  | none => have := hd.fail s hc; rw [h] at this; cases this
  | some x =>
    obtain ⟨⟨⟩, s', rest⟩ := x
    have := hd.ok s s' rest hc
    rw [h, Prod.mk.injEq] at this
    exact ⟨rest, by rw [this.2]⟩

end

/-- **The Go decoders compute the cursor decoders**, for the seven records, on every input
their `int` is exact on: where the cursor reads a record, `Unmarshal` succeeds leaving it
in the receiver; where the cursor runs out of input, `Unmarshal` returns the
buffer-too-small error. -/
theorem unmarshal_decodes_read (w : IntSize) (data : Bytes) (hw : w.Exact data.length) :
    Decodes data (KV.unmarshal w data) KV.read ∧ Decodes data (KVList.unmarshal w data) KVList.read ∧
    Decodes data (ManifestChange.unmarshal w data) ManifestChange.read ∧
    Decodes data (ManifestChangeSet.unmarshal w data) ManifestChangeSet.read ∧
    Decodes data (DataKey.unmarshal w data) DataKey.read ∧
    Decodes data (Checksum.unmarshal data) Checksum.read ∧
    Decodes data (Match.unmarshal w data) Match.read :=
  ⟨KV.unmarshal_decodes hw, KVList.unmarshal_decodes hw, ManifestChange.unmarshal_decodes hw,
    ManifestChangeSet.unmarshal_decodes hw, DataKey.unmarshal_decodes hw,
    Checksum.unmarshal_decodes data, Match.unmarshal_decodes hw⟩

/-- On a 64-bit target, a `KV` input whose key length prefix is `2^32 - 1`. -/
theorem unmarshal_decodes_read_max_length :
    (IntSize.bits 64).Exact (List.replicate 4 255 ++ List.replicate 33 0).length ∧
      Decodes (List.replicate 4 255 ++ List.replicate 33 0)
        (KV.unmarshal (.bits 64) (List.replicate 4 255 ++ List.replicate 33 0)) KV.read :=
  ⟨IntSize.exact_bits64 (by decide),
    (unmarshal_decodes_read (.bits 64) _ (IntSize.exact_bits64 (by decide))).1⟩

/-- What the laws need of a record `r`: `Marshal(r)` returns `e`, the cursor `c` reads
`e` back to `r`, and the Go decoder computes `c` on every input where its `int` is
`Fine`. -/
structure Codec {α : Type} [Marshaler α] [Unmarshaler α] (r : α) (e : Bytes) (c : Cursor α Unit) :
    Prop where
  marshal_eq : marshal r = .ok e
  reads : Reads c e () fun _ => r
  decodes : ∀ (w : IntSize) (data : Bytes) (E : Option Bytes), Fine w data E →
    DecodesOn data E (unmarshal w data) c

/-! ## The laws, for one record -/

section Laws

variable {α : Type} [Marshaler α] [Unmarshaler α]

/-- **The round-trip law** for `r`: `Marshal(r)` succeeds with some bytes `e`,
`MarshalAppend(P, r)` is `P` followed by `e`, and decoding `e` followed by any bytes, into
any receiver, on a target whose `int` is exact on that input, leaves `r`. -/
def RoundTrips (r : α) : Prop :=
  ∃ e, marshal r = .ok e ∧ (∀ (o : MarshalOptions) (p : Bytes), o.marshalAppend p r = .ok (p ++ e)) ∧
    ∀ (w : IntSize) (t : Bytes) (s : α), w.Exact (e ++ t).length → unmarshal w (e ++ t) s = (.ok (), r)

/-- **Truncation** for `r`: decoding a proper prefix of `Marshal(r)`, into any receiver, on
a target whose `int` is exact on it, returns the buffer-too-small error. -/
def TruncationFails (r : α) : Prop :=
  ∀ e, marshal r = .ok e → ∀ n < e.length, ∀ (w : IntSize) (s : α), w.Exact n →
    (unmarshal w (e.take n) s).1 = .err .bufferTooSmall

/-- **Truncation on a 32-bit target** for `r`: where `Marshal(r)` is shorter than `2^31`
bytes, decoding a proper prefix of it, into any receiver, returns the buffer-too-small
error. -/
def TruncationFails32 (r : α) : Prop :=
  ∀ e, marshal r = .ok e → e.length < 2 ^ 31 → ∀ n < e.length, ∀ s : α,
    (unmarshal (.bits 32) (e.take n) s).1 = .err .bufferTooSmall

variable {r : α} {e : Bytes} {c : Cursor α Unit}

theorem Codec.roundTrips (h : Codec r e c) : RoundTrips r :=
  ⟨e, h.marshal_eq, fun o p => o.marshalAppend_of_ok p h.marshal_eq,
    fun w _ s hw => (h.decodes w _ none hw).ok_of_reads h.reads s⟩

theorem Codec.truncationFails (h : Codec r e c) : TruncationFails r := by
  intro e' he n hn w s hw
  obtain rfl : e = e' := by rw [h.marshal_eq] at he; cases he; rfl
  exact (h.decodes w _ none (.of_exact (by rwa [List.length_take, Nat.min_eq_left hn.le]))).fail_of_reads
    h.reads hn (.inl rfl) s

/-- A proper prefix of `e` is `Fine` with the rest of `e` after it: every length prefix the
decoder reads there is one of `e`'s, and ends inside `e`. -/
theorem Codec.truncationFails32 (h : Codec r e c) : TruncationFails32 r := by
  intro e' he hlen n hn s
  obtain rfl : e = e' := by rw [h.marshal_eq] at he; cases he; rfl
  exact (h.decodes (.bits 32) _ (some (e.drop n))
    (IntSize.exactTo_bits32 (by simp only [List.length_take, List.length_drop]; omega))).fail_of_reads
    h.reads hn (.inr rfl) s

end Laws

/-! ## Each record -/

theorem KV.codec {k : KV} (hk : k.Fits) : Codec k k.encode KV.read :=
  ⟨KV.marshal_eq k, KV.read_reads hk, fun _ _ _ hw => KV.unmarshal_decodesOn hw⟩

theorem KVList.codec {l : KVList} (hl : l.Fits) : Codec l l.encode KVList.read := by
  obtain ⟨ks, hkv, -⟩ := id hl
  have hl' : l = ⟨ks.map some, l.allocRef⟩ := by rw [← hkv]
  refine ⟨?_, KVList.read_reads hl, fun _ _ _ hw => KVList.unmarshal_decodesOn hw⟩
  rw [hl']
  exact KVList.marshal_eq ks l.allocRef

theorem ManifestChange.codec (m : ManifestChange) : Codec m m.encode ManifestChange.read :=
  ⟨ManifestChange.marshal_eq m, ManifestChange.read_reads m,
    fun _ _ _ hw => ManifestChange.unmarshal_decodesOn hw⟩

theorem ManifestChangeSet.codec {m : ManifestChangeSet} (hm : m.Fits) :
    Codec m m.encode ManifestChangeSet.read := by
  obtain ⟨cs, hcs, -⟩ := id hm
  have hm' : m = ⟨cs.map some⟩ := by rw [← hcs]
  refine ⟨?_, ManifestChangeSet.read_reads hm,
    fun _ _ _ hw => ManifestChangeSet.unmarshal_decodesOn hw⟩
  rw [hm']
  exact ManifestChangeSet.marshal_eq cs

theorem DataKey.codec {d : DataKey} (hd : d.Fits) : Codec d d.encode DataKey.read :=
  ⟨DataKey.marshal_eq d, DataKey.read_reads hd, fun _ _ _ hw => DataKey.unmarshal_decodesOn hw⟩

theorem Checksum.codec (c : Checksum) : Codec c c.encode Checksum.read :=
  ⟨Checksum.marshal_eq c, Checksum.read_reads c,
    fun _ data E _ => (Checksum.unmarshal_decodes data).decodesOn E⟩

theorem Match.codec {m : Match} (hm : m.Fits) : Codec m m.encode Match.read :=
  ⟨Match.marshal_eq m, Match.read_reads hm, fun _ _ _ hw => Match.unmarshal_decodesOn hw⟩

/-! ## The laws, for every record that fits -/

/-- **Round trip**, for the seven records: every record whose lengths fit and whose lists
hold no nil element decodes back from its encoding. -/
theorem roundTrip_of_fits :
    (∀ k : KV, k.Fits → RoundTrips k) ∧ (∀ l : KVList, l.Fits → RoundTrips l) ∧
    (∀ m : ManifestChange, RoundTrips m) ∧ (∀ m : ManifestChangeSet, m.Fits → RoundTrips m) ∧
    (∀ d : DataKey, d.Fits → RoundTrips d) ∧ (∀ c : Checksum, RoundTrips c) ∧
    (∀ m : Match, m.Fits → RoundTrips m) :=
  ⟨fun _ h => (KV.codec h).roundTrips, fun _ h => (KVList.codec h).roundTrips,
    fun m => (ManifestChange.codec m).roundTrips, fun _ h => (ManifestChangeSet.codec h).roundTrips,
    fun _ h => (DataKey.codec h).roundTrips, fun c => (Checksum.codec c).roundTrips,
    fun _ h => (Match.codec h).roundTrips⟩

/-- A two-element `KVList`, with a key, a value and a set `streamDone`, fits. -/
theorem KVList.fits_two :
    (⟨[some { key := [107], value := [118] }, some { streamDone := true }], 7⟩ : KVList).Fits :=
  ⟨[{ key := [107], value := [118] }, { streamDone := true }], rfl, by decide, by decide⟩

/-- The two-element `KVList`. -/
theorem roundTrip_kvList_two :
    (⟨[some { key := [107], value := [118] }, some { streamDone := true }], 7⟩ : KVList).Fits ∧
      RoundTrips (⟨[some { key := [107], value := [118] }, some { streamDone := true }], 7⟩ : KVList) :=
  ⟨KVList.fits_two, roundTrip_of_fits.2.1 _ KVList.fits_two⟩

/-- **Truncation**, for the seven records. -/
theorem truncation_of_fits :
    (∀ k : KV, k.Fits → TruncationFails k) ∧ (∀ l : KVList, l.Fits → TruncationFails l) ∧
    (∀ m : ManifestChange, TruncationFails m) ∧
    (∀ m : ManifestChangeSet, m.Fits → TruncationFails m) ∧
    (∀ d : DataKey, d.Fits → TruncationFails d) ∧ (∀ c : Checksum, TruncationFails c) ∧
    (∀ m : Match, m.Fits → TruncationFails m) :=
  ⟨fun _ h => (KV.codec h).truncationFails, fun _ h => (KVList.codec h).truncationFails,
    fun m => (ManifestChange.codec m).truncationFails,
    fun _ h => (ManifestChangeSet.codec h).truncationFails,
    fun _ h => (DataKey.codec h).truncationFails, fun c => (Checksum.codec c).truncationFails,
    fun _ h => (Match.codec h).truncationFails⟩

/-- The two-element `KVList`: every cut of its encoding is rejected. -/
theorem truncation_kvList_two :
    (⟨[some { key := [107], value := [118] }, some { streamDone := true }], 7⟩ : KVList).Fits ∧
      TruncationFails (⟨[some { key := [107], value := [118] }, some { streamDone := true }], 7⟩ : KVList) :=
  ⟨KVList.fits_two, truncation_of_fits.2.1 _ KVList.fits_two⟩

/-- **Truncation on a 32-bit target**, for the seven records: every proper prefix of an
encoding shorter than `2^31` bytes is rejected with the buffer-too-small error. -/
theorem truncation_bits32_of_fits :
    (∀ k : KV, k.Fits → TruncationFails32 k) ∧ (∀ l : KVList, l.Fits → TruncationFails32 l) ∧
    (∀ m : ManifestChange, TruncationFails32 m) ∧
    (∀ m : ManifestChangeSet, m.Fits → TruncationFails32 m) ∧
    (∀ d : DataKey, d.Fits → TruncationFails32 d) ∧ (∀ c : Checksum, TruncationFails32 c) ∧
    (∀ m : Match, m.Fits → TruncationFails32 m) :=
  ⟨fun _ h => (KV.codec h).truncationFails32, fun _ h => (KVList.codec h).truncationFails32,
    fun m => (ManifestChange.codec m).truncationFails32,
    fun _ h => (ManifestChangeSet.codec h).truncationFails32,
    fun _ h => (DataKey.codec h).truncationFails32, fun c => (Checksum.codec c).truncationFails32,
    fun _ h => (Match.codec h).truncationFails32⟩

/-- The two-element `KVList`, on a 32-bit target. -/
theorem truncation_bits32_kvList_two :
    (⟨[some { key := [107], value := [118] }, some { streamDone := true }], 7⟩ : KVList).Fits ∧
      TruncationFails32
        (⟨[some { key := [107], value := [118] }, some { streamDone := true }], 7⟩ : KVList) :=
  ⟨KVList.fits_two, truncation_bits32_of_fits.2.1 _ KVList.fits_two⟩

/-! ## Canonical encodings -/

/-- **Canonical decoding** for `α`: `Marshal` gives back, as the first `Size` bytes of `d`,
whatever record a successful `Unmarshal(d)` leaves on a target whose `int` is exact on `d`. -/
def Canonical (α : Type) [Marshaler α] [Unmarshaler α] [Sizer α] : Prop :=
  ∀ (w : IntSize) (d : Bytes) (s r : α), w.Exact d.length → unmarshal w d s = (.ok (), r) →
    ∃ n, size r = .ok n ∧ marshal r = .ok (d.take n)

/-- **Trailing bytes** change nothing: a decode that succeeds on `d` succeeds on `d ++ t`,
leaving the same record. -/
def IgnoresTrailing (α : Type) [Unmarshaler α] : Prop :=
  ∀ (w : IntSize) (d t : Bytes) (s r : α), w.Exact (d ++ t).length →
    unmarshal w d s = (.ok (), r) → unmarshal w (d ++ t) s = (.ok (), r)

/-- **The receiver's prior state is irrelevant**: a decode that succeeds from one receiver
leaves the same record from any other. -/
def ForgetsReceiver (α : Type) [Unmarshaler α] : Prop :=
  ∀ (w : IntSize) (d : Bytes) (s s' r : α), w.Exact d.length →
    unmarshal w d s = (.ok (), r) → unmarshal w d s' = (.ok (), r)

section Canonical

variable {α : Type} [Unmarshaler α] {c : Cursor α Unit}
  (hdec : ∀ (w : IntSize) (data : Bytes), w.Exact data.length → Decodes data (unmarshal w data) c)
include hdec

/-- A decoder whose cursor consumes exactly the layout `enc r` of the record it leaves is
canonical. -/
theorem canonical_of [Marshaler α] [Sizer α] (enc : α → Bytes)
    (hinv : ∀ {s r : α} {d rest : Bytes}, c.run s d = some ((), r, rest) → d = enc r ++ rest)
    (hm : ∀ r : α, marshal r = .ok (enc r)) (hs : ∀ r : α, size r = .ok (enc r).length) :
    Canonical α := by
  intro w d s r hw h
  obtain ⟨rest, hrun⟩ := (hdec w d hw).run_of_ok h
  rw [hinv hrun]
  exact ⟨_, hs r, by rw [List.take_left, hm]⟩

/-- Every decoder that computes a cursor ignores trailing bytes, since a cursor does. -/
theorem ignoresTrailing_of : IgnoresTrailing α := by
  intro w d t s r hw h
  obtain ⟨rest, hrun⟩ := (hdec w d (hw.mono (by simp))).run_of_ok h
  exact (hdec w _ hw).ok s r _ (c.append t hrun)

/-- A decoder whose cursor reads the same bytes to the same record from every receiver
forgets the receiver. -/
theorem forgetsReceiver_of
    (hc : ∀ {s r : α} {d rest : Bytes}, c.run s d = some ((), r, rest) →
      ∀ s', c.run s' d = some ((), r, rest)) : ForgetsReceiver α := by
  intro w d s s' r hw h
  obtain ⟨rest, hrun⟩ := (hdec w d hw).run_of_ok h
  exact (hdec w d hw).ok s' r rest (hc hrun s')

end Canonical

theorem ManifestChange.canonical : Canonical ManifestChange :=
  canonical_of (fun _ _ hw => ManifestChange.unmarshal_decodes hw) ManifestChange.encode
    ManifestChange.run_read_eq_some ManifestChange.marshal_eq fun _ => rfl

theorem DataKey.canonical : Canonical DataKey :=
  canonical_of (fun _ _ hw => DataKey.unmarshal_decodes hw) DataKey.encode
    (fun h => (DataKey.run_read_eq_some h).2) DataKey.marshal_eq
    fun d => congrArg Exit.ok (DataKey.length_encode d).symm

theorem Checksum.canonical : Canonical Checksum :=
  canonical_of (fun _ data _ => Checksum.unmarshal_decodes data) Checksum.encode
    Checksum.run_read_eq_some Checksum.marshal_eq fun _ => rfl

theorem Match.canonical : Canonical Match :=
  canonical_of (fun _ _ hw => Match.unmarshal_decodes hw) Match.encode
    (fun h => (Match.run_read_eq_some h).2) Match.marshal_eq
    fun m => congrArg Exit.ok (Match.length_encode m).symm

section Reencode

variable {w : IntSize} {d : Bytes}

/-- A decoded `KV` re-encodes to the bytes it was read from but the last: where the input
holds any nonzero `streamDone` byte, `Marshal` writes `1`. -/
theorem KV.marshal_of_unmarshal {s r : KV} (hw : w.Exact d.length)
    (h : KV.unmarshal w d s = (.ok (), r)) :
    r.marshal = .ok r.encode ∧
      ∃ b : UInt8, (b != 0) = r.streamDone ∧ d.take r.size = r.encode.dropLast ++ [b] := by
  obtain ⟨rest, hrun⟩ := (KV.unmarshal_decodes hw).run_of_ok h
  obtain ⟨-, b, hb, rfl⟩ := KV.run_read_eq_some hrun
  refine ⟨KV.marshal_eq r, b, hb, ?_⟩
  have hsize : r.size = r.encode.dropLast.length + 1 := by
    rw [List.length_dropLast, KV.length_encode]
    simp only [KV.size]
    omega
  rw [hsize, List.take_append]
  rfl

/-- **What a decoded `KVList` re-encodes to.** After the count, the input held each
element as a slice behind its length prefix: the element's layout, with any byte as its
`streamDone` byte, then bytes `KV.Unmarshal` did not read. `Marshal` writes each element's
layout behind its `Size` instead: it drops the unread bytes, rewrites the prefix, and
writes the `streamDone` byte as `0` or `1`. -/
theorem KVList.marshal_of_unmarshal {s r : KVList} (hw : w.Exact d.length)
    (h : KVList.unmarshal w d s = (.ok (), r)) :
    ∃ (es : List (KV × Bytes)) (rest : Bytes), r.kv = es.map (fun e => some e.1) ∧
      (∀ e ∈ es, ∃ (b : UInt8) (t : Bytes), (b != 0) = e.1.streamDone ∧
        e.2 = e.1.encode.dropLast ++ b :: t) ∧
      d = encodeLE 4 es.length ++ (es.map fun e => framed e.2).flatten ++
        encodeLE 8 r.allocRef.toNat ++ rest ∧
      r.marshal = .ok (encodeLE 4 es.length ++ (es.map fun e => framed e.1.encode).flatten ++
        encodeLE 8 r.allocRef.toNat) := by
  obtain ⟨rest, hrun⟩ := (KVList.unmarshal_decodes hw).run_of_ok h
  obtain ⟨es, -, hkv, hes, hd⟩ := KVList.run_read_eq_some hrun
  refine ⟨es, rest, hkv, fun e he => ?_, hd, ?_⟩
  · obtain ⟨-, r₀, hk⟩ := hes e he
    obtain ⟨-, b, hb, he₂⟩ := KV.run_read_eq_some hk
    exact ⟨b, r₀, hb, he₂⟩
  · obtain ⟨kv, a⟩ := r
    obtain rfl : kv = (es.map Prod.fst).map some := by rw [List.map_map]; exact hkv
    rw [KVList.marshal_eq]
    simp [KVList.encode, KVList.encodeElem, framed, Function.comp_def]

/-- **What a decoded `ManifestChangeSet` re-encodes to.** After the count, the input held
each change as a slice behind its length prefix: the change's layout, then bytes
`ManifestChange.Unmarshal` did not read. `Marshal` drops those bytes and writes `32` as
each prefix. -/
theorem ManifestChangeSet.marshal_of_unmarshal {s r : ManifestChangeSet}
    (hw : w.Exact d.length) (h : ManifestChangeSet.unmarshal w d s = (.ok (), r)) :
    ∃ (es : List (ManifestChange × Bytes)) (rest : Bytes), r.changes = es.map (fun e => some e.1) ∧
      (∀ e ∈ es, ∃ t : Bytes, e.2 = e.1.encode ++ t) ∧
      d = encodeLE 4 es.length ++ (es.map fun e => framed e.2).flatten ++ rest ∧
      r.marshal = .ok (encodeLE 4 es.length ++ (es.map fun e => framed e.1.encode).flatten) := by
  obtain ⟨rest, hrun⟩ := (ManifestChangeSet.unmarshal_decodes hw).run_of_ok h
  obtain ⟨es, -, hc, hes, hd⟩ := ManifestChangeSet.run_read_eq_some hrun
  refine ⟨es, rest, hc, fun e he => ?_, hd, ?_⟩
  · obtain ⟨-, r₀, hm⟩ := hes e he
    exact ⟨r₀, ManifestChange.run_read_eq_some hm⟩
  · obtain ⟨changes⟩ := r
    obtain rfl : changes = (es.map Prod.fst).map some := by rw [List.map_map]; exact hc
    rw [ManifestChangeSet.marshal_eq]
    simp [ManifestChangeSet.encode, ManifestChangeSet.encodeElem, framed, Function.comp_def]

end Reencode

/-- **Re-encoding a decoded record**: the fixed layouts are canonical; a `KV` re-encodes to
the bytes it was read from up to its `streamDone` byte, which `Marshal` normalises to `0`
or `1`; a decoded list re-encodes to the bytes it was read from with each element's
unread bytes dropped, its length prefix rewritten to the element's `Size`, and, in a
`KVList`, its `streamDone` byte normalised. -/
theorem reencode_of_unmarshal :
    Canonical ManifestChange ∧ Canonical DataKey ∧ Canonical Checksum ∧ Canonical Match ∧
    (∀ (w : IntSize) (d : Bytes) (s r : KV), w.Exact d.length → KV.unmarshal w d s = (.ok (), r) →
      r.marshal = .ok r.encode ∧
        ∃ b : UInt8, (b != 0) = r.streamDone ∧ d.take r.size = r.encode.dropLast ++ [b]) ∧
    (∀ (w : IntSize) (d : Bytes) (s r : KVList), w.Exact d.length →
      KVList.unmarshal w d s = (.ok (), r) →
      ∃ (es : List (KV × Bytes)) (rest : Bytes), r.kv = es.map (fun e => some e.1) ∧
        (∀ e ∈ es, ∃ (b : UInt8) (t : Bytes), (b != 0) = e.1.streamDone ∧
          e.2 = e.1.encode.dropLast ++ b :: t) ∧
        d = encodeLE 4 es.length ++ (es.map fun e => framed e.2).flatten ++
          encodeLE 8 r.allocRef.toNat ++ rest ∧
        r.marshal = .ok (encodeLE 4 es.length ++ (es.map fun e => framed e.1.encode).flatten ++
          encodeLE 8 r.allocRef.toNat)) ∧
    (∀ (w : IntSize) (d : Bytes) (s r : ManifestChangeSet), w.Exact d.length →
      ManifestChangeSet.unmarshal w d s = (.ok (), r) →
      ∃ (es : List (ManifestChange × Bytes)) (rest : Bytes),
        r.changes = es.map (fun e => some e.1) ∧ (∀ e ∈ es, ∃ t : Bytes, e.2 = e.1.encode ++ t) ∧
        d = encodeLE 4 es.length ++ (es.map fun e => framed e.2).flatten ++ rest ∧
        r.marshal = .ok (encodeLE 4 es.length ++ (es.map fun e => framed e.1.encode).flatten)) :=
  ⟨ManifestChange.canonical, DataKey.canonical, Checksum.canonical, Match.canonical,
    fun _ _ _ _ => KV.marshal_of_unmarshal, fun _ _ _ _ => KVList.marshal_of_unmarshal,
    fun _ _ _ _ => ManifestChangeSet.marshal_of_unmarshal⟩

/-- Inputs that do not re-encode to the bytes read. A `KV` whose `streamDone` byte is `2`
decodes to `true`, which `Marshal` writes back as `1`. A `KVList` and a
`ManifestChangeSet` whose one element's length prefix counts a zero byte after the
element decode to one zero element, and `Marshal` writes the prefix without that byte. -/
theorem unmarshal_reencode_differs :
    (KV.unmarshal .exact (List.replicate 36 0 ++ [2]) {} = (.ok (), { streamDone := true }) ∧
      KV.marshal { streamDone := true } = .ok (List.replicate 36 0 ++ [1]) ∧
      (List.replicate 36 0 ++ [2]).take (KV.size { streamDone := true }) ≠
        List.replicate 36 0 ++ [1]) ∧
    (KVList.unmarshal .exact ([1, 0, 0, 0, 38, 0, 0, 0] ++ List.replicate 46 0) {} =
        (.ok (), ⟨[some {}], 0⟩) ∧
      KVList.size ⟨[some {}], 0⟩ = .ok 53 ∧
      KVList.marshal ⟨[some {}], 0⟩ = .ok ([1, 0, 0, 0, 37, 0, 0, 0] ++ List.replicate 45 0) ∧
      ([1, 0, 0, 0, 38, 0, 0, 0] ++ List.replicate 46 0).take 53 ≠
        [1, 0, 0, 0, 37, 0, 0, 0] ++ List.replicate 45 0) ∧
    (ManifestChangeSet.unmarshal .exact ([1, 0, 0, 0, 33, 0, 0, 0] ++ List.replicate 33 0) {} =
        (.ok (), ⟨[some {}]⟩) ∧
      ManifestChangeSet.size ⟨[some {}]⟩ = 40 ∧
      ManifestChangeSet.marshal ⟨[some {}]⟩ =
        .ok ([1, 0, 0, 0, 32, 0, 0, 0] ++ List.replicate 32 0) ∧
      ([1, 0, 0, 0, 33, 0, 0, 0] ++ List.replicate 33 0).take 40 ≠
        [1, 0, 0, 0, 32, 0, 0, 0] ++ List.replicate 32 0) :=
  ⟨by decide, by decide, by decide⟩

/-- **Trailing bytes**, for the seven decoders. -/
theorem ignoresTrailing_all :
    IgnoresTrailing KV ∧ IgnoresTrailing KVList ∧ IgnoresTrailing ManifestChange ∧
    IgnoresTrailing ManifestChangeSet ∧ IgnoresTrailing DataKey ∧ IgnoresTrailing Checksum ∧
    IgnoresTrailing Match :=
  ⟨ignoresTrailing_of fun _ _ hw => KV.unmarshal_decodes hw,
    ignoresTrailing_of fun _ _ hw => KVList.unmarshal_decodes hw,
    ignoresTrailing_of fun _ _ hw => ManifestChange.unmarshal_decodes hw,
    ignoresTrailing_of fun _ _ hw => ManifestChangeSet.unmarshal_decodes hw,
    ignoresTrailing_of fun _ _ hw => DataKey.unmarshal_decodes hw,
    ignoresTrailing_of fun _ data _ => Checksum.unmarshal_decodes data,
    ignoresTrailing_of fun _ _ hw => Match.unmarshal_decodes hw⟩

/-- The two-element `KVList`'s encoding decodes to it. -/
theorem KVList.unmarshal_encode_two :
    KVList.unmarshal .exact
        (⟨[some { key := [107], value := [118] }, some { streamDone := true }], 7⟩ : KVList).encode {} =
      (.ok (), ⟨[some { key := [107], value := [118] }, some { streamDone := true }], 7⟩) := by
  decide

/-- The two-element `KVList`'s encoding decodes, and three bytes after it change nothing. -/
theorem ignoresTrailing_kvList_two :
    KVList.unmarshal .exact
        (⟨[some { key := [107], value := [118] }, some { streamDone := true }], 7⟩ : KVList).encode {} =
      (.ok (), ⟨[some { key := [107], value := [118] }, some { streamDone := true }], 7⟩) ∧
    KVList.unmarshal .exact
        ((⟨[some { key := [107], value := [118] }, some { streamDone := true }], 7⟩ : KVList).encode ++
          [1, 2, 3]) {} =
      (.ok (), ⟨[some { key := [107], value := [118] }, some { streamDone := true }], 7⟩) :=
  ⟨KVList.unmarshal_encode_two, ignoresTrailing_all.2.1 .exact _ [1, 2, 3] {} _ (IntSize.exact_exact _)
    KVList.unmarshal_encode_two⟩

/-- **The prior receiver**, for the seven decoders: every successful decode assigns every
field, so what it leaves depends on the input alone. -/
theorem forgetsReceiver_all :
    ForgetsReceiver KV ∧ ForgetsReceiver KVList ∧ ForgetsReceiver ManifestChange ∧
    ForgetsReceiver ManifestChangeSet ∧ ForgetsReceiver DataKey ∧ ForgetsReceiver Checksum ∧
    ForgetsReceiver Match :=
  ⟨forgetsReceiver_of (fun _ _ hw => KV.unmarshal_decodes hw) KV.run_read_receiver,
    forgetsReceiver_of (fun _ _ hw => KVList.unmarshal_decodes hw) KVList.run_read_receiver,
    forgetsReceiver_of (fun _ _ hw => ManifestChange.unmarshal_decodes hw)
      ManifestChange.run_read_receiver,
    forgetsReceiver_of (fun _ _ hw => ManifestChangeSet.unmarshal_decodes hw)
      ManifestChangeSet.run_read_receiver,
    forgetsReceiver_of (fun _ _ hw => DataKey.unmarshal_decodes hw) DataKey.run_read_receiver,
    forgetsReceiver_of (fun _ data _ => Checksum.unmarshal_decodes data)
      Checksum.run_read_receiver,
    forgetsReceiver_of (fun _ _ hw => Match.unmarshal_decodes hw) Match.run_read_receiver⟩

/-- The two-element `KVList`'s encoding, decoded into a receiver that holds a nil
element and another `allocRef`, leaves the same record as from an empty one. -/
theorem forgetsReceiver_kvList_two :
    KVList.unmarshal .exact
        (⟨[some { key := [107], value := [118] }, some { streamDone := true }], 7⟩ : KVList).encode {} =
      (.ok (), ⟨[some { key := [107], value := [118] }, some { streamDone := true }], 7⟩) ∧
    KVList.unmarshal .exact
        (⟨[some { key := [107], value := [118] }, some { streamDone := true }], 7⟩ : KVList).encode
        ⟨[none], 5⟩ =
      (.ok (), ⟨[some { key := [107], value := [118] }, some { streamDone := true }], 7⟩) :=
  ⟨KVList.unmarshal_encode_two, forgetsReceiver_all.2.1 .exact _ {} ⟨[none], 5⟩ _ (IntSize.exact_exact _)
    KVList.unmarshal_encode_two⟩

end Zapdb
