import Zapdb.Read
import Zapdb.Unmarshal

/-!
# The Go decoders compute the cursor decoders

The Go decoders track an `offset` into `data` and test `offset+n > len(data)` before
their reads; the cursor decoders of `Read.lean` read from the front of what remains.
Where the target's `int` holds every value the Go code forms, the two agree:

* `Steps data E pre m c ret` — the Go statements `m`, started at an offset `o` with at
  least `pre` bytes after it, do what `c` does on `data.drop o`: where `c` reads up to
  a remainder `r`, `m` falls through at offset `len(data) - len(r)` with the same
  receiver; where `c` fails, `m` returns `errBufferTooSmall`. It is proved once per
  statement group and composed along each `unmarshalAt` (`Steps.andThen`, `Steps.seq`);
  the loops are proved by induction on the iterations left;
* `DecodesOn data E m c` — the same for a whole `Unmarshal`, at offset 0; `Decodes` is
  its form with every failure claimed.

What the `int` must hold depends on which failures are claimed (`Fine`, `Within`).
With `E = none` every failure is claimed, and `int` must be exact on the input
(`IntSize.Exact`, which holds on every 64-bit target for inputs shorter than `2^62`
bytes): a failing length check adds a `uint32` read from the input to the offset.
With `E = some t` only the failures where the cursor reads the input followed by `t` are
claimed, and `int` need only be exact up to the end of both (`IntSize.ExactTo`, which a
32-bit target is below `2^31`): every length prefix read there ends inside them. A proper
prefix of an encoding, with `t` the rest of it, is such an input.

In particular no decoder panics on a 64-bit target: each ends in success or in the
buffer-too-small error, as the cursor program does.
-/

namespace Zapdb

open Cursor

/-! ## The cursor at an offset -/

section AtOffset

variable {σ : Type} {data : Bytes} {o : Nat}

theorem length_drop_le {o : Nat} {r : Bytes} (h : r <:+ data.drop o) : r.length ≤ data.length - o :=
  List.length_drop o data ▸ h.length_le

/-- What remains after reading from `data.drop o` is where the Go decoder's offset is. -/
theorem drop_length_sub {r : Bytes} (h : r <:+ data.drop o) :
    data.drop (data.length - r.length) = r :=
  (List.suffix_iff_eq_drop.mp (h.trans (List.drop_suffix o data))).symm

theorem run_field_drop (h : o + 4 ≤ data.length) (s : σ) :
    (field : Cursor σ Bytes).run s (data.drop o) =
      if data.length < o + 4 + decodeLE ((data.drop o).take 4) then none
      else some ((data.drop (o + 4)).take (decodeLE ((data.drop o).take 4)), s,
        data.drop (o + 4 + decodeLE ((data.drop o).take 4))) := by
  have hlt := decodeLE_take_four_lt (show o + 4 ≤ data.length by omega)
  rw [field, run_bind, run_u32, if_pos (by rw [List.length_drop]; omega)]
  dsimp only
  rw [run_take, show (UInt32.ofNat (decodeLE ((data.drop o).take 4))).toNat =
    decodeLE ((data.drop o).take 4) from Nat.mod_eq_of_lt hlt, List.drop_drop, List.drop_drop,
    List.length_drop]
  split <;> split <;> first | rfl | omega

theorem run_getField_drop (set : Bytes → σ → σ) (h : o + 4 ≤ data.length) (s : σ) :
    (Cursor.getField set).run s (data.drop o) =
      if data.length < o + 4 + decodeLE ((data.drop o).take 4) then none
      else some ((), set ((data.drop (o + 4)).take (decodeLE ((data.drop o).take 4))) s,
        data.drop (o + 4 + decodeLE ((data.drop o).take 4))) := by
  rw [Cursor.getField, run_bind, run_field_drop h]
  split_ifs <;> rfl

theorem run_getUint32_drop (set : UInt32 → σ → σ) (h : o + 4 ≤ data.length) (s : σ) :
    (Cursor.getUint32 set).run s (data.drop o) =
      some ((), set (UInt32.ofNat (decodeLE ((data.drop o).take 4))) s, data.drop (o + 4)) := by
  rw [Cursor.getUint32, run_bind, run_u32, if_pos (by rw [List.length_drop]; omega), List.drop_drop]
  rfl

theorem run_getUint64_drop (set : UInt64 → σ → σ) (h : o + 8 ≤ data.length) (s : σ) :
    (Cursor.getUint64 set).run s (data.drop o) =
      some ((), set (UInt64.ofNat (decodeLE ((data.drop o).take 8))) s, data.drop (o + 8)) := by
  rw [Cursor.getUint64, run_bind, run_u64, if_pos (by rw [List.length_drop]; omega), List.drop_drop]
  rfl

theorem run_getByte_drop (set : UInt8 → σ → σ) (h : o ≤ data.length) (s : σ) :
    (Cursor.getByte set).run s (data.drop o) =
      if data.length < o + 1 then none else some ((), set (data.getD o 0) s, data.drop (o + 1)) := by
  rw [Cursor.getByte, run_bind, run_u8]
  by_cases hlt : o < data.length
  · rw [List.drop_eq_getElem_cons hlt, if_neg (by omega), List.getD_eq_getElem?_getD,
      List.getElem?_eq_getElem hlt]
    rfl
  · rw [List.drop_eq_nil_of_le (by omega), if_pos (by omega)]

end AtOffset

/-! ## Statements against cursor steps -/

section Steps

variable {σ β : Type} (data : Bytes)

/-- Where the failures of a step are claimed: `none`, at every offset; `some t`, at the
offsets `o` where the cursor reads `data.drop o` followed by the bytes `t`, as it does on a
proper prefix of an input it reads whole. -/
def Within : Option Bytes → Cursor σ Unit → σ → Nat → Prop
  | none, _, _, _ => True
  | some t, c, s, o => (c.run s (data.drop o ++ t)).isSome

/-- The Go statements `m`, started at an offset `o` with `pre` bytes after it, do what
the cursor `c` does on `data.drop o`, and fall through with `ret` of the new offset; they
fail where it does, wherever `E` claims the failure. -/
structure Steps (E : Option Bytes) (pre : Nat) (m : Int → GoM σ β) (c : Cursor σ Unit)
    (ret : Nat → β) : Prop where
  ok : ∀ (o : Nat) s s' r, o + pre ≤ data.length → c.run s (data.drop o) = some ((), s', r) →
    m o s = (.ok (ret (data.length - r.length)), s')
  fail : ∀ (o : Nat) s, o + pre ≤ data.length → Within data E c s o →
    c.run s (data.drop o) = none → (m o s).1 = .err .bufferTooSmall

/-- A whole decoder does what the cursor `c` does on `data`. -/
structure Decodes (m : GoM σ Unit) (c : Cursor σ Unit) : Prop where
  ok : ∀ s s' r, c.run s data = some ((), s', r) → m s = (.ok (), s')
  fail : ∀ s, c.run s data = none → (m s).1 = .err .bufferTooSmall

/-- `Decodes`, with the failures claimed where `E` claims them. -/
structure DecodesOn (E : Option Bytes) (m : GoM σ Unit) (c : Cursor σ Unit) : Prop where
  ok : ∀ s s' r, c.run s data = some ((), s', r) → m s = (.ok (), s')
  fail : ∀ s, Within data E c s 0 → c.run s data = none → (m s).1 = .err .bufferTooSmall

variable {data} {m : GoM σ Unit} {c : Cursor σ Unit}

theorem DecodesOn.decodes (h : DecodesOn data none m c) : Decodes data m c :=
  ⟨h.ok, fun s => h.fail s trivial⟩

theorem Decodes.decodesOn (h : Decodes data m c) (E : Option Bytes) : DecodesOn data E m c :=
  ⟨h.ok, fun s _ => h.fail s⟩

/-- Every run of a decoder that does what a cursor does ends in success or in the
buffer-too-small error. -/
theorem Decodes.no_panic (h : Decodes data m c) (s : σ) :
    (m s).1 = .ok () ∨ (m s).1 = .err .bufferTooSmall := by
  cases hc : c.run s data with
  | none => exact .inr (h.fail s hc)
  | some x => obtain ⟨⟨⟩, s', r⟩ := x; exact .inl (by rw [h.ok s s' r hc])

variable (data)

/-- A Go result and a cursor result agree: both succeed, the Go code at offset
`len(data) - len(r)` with the cursor's receiver, or the Go code returns the
buffer-too-small error where the cursor fails. -/
def Agrees (ret : Nat → β) : Exit β × σ → Option (Unit × σ × Bytes) → Prop
  | x, some ((), s', r) => x = (.ok (ret (data.length - r.length)), s')
  | x, none => x.1 = .err .bufferTooSmall

end Steps

/-! ## Where the failures are claimed -/

section Within

variable {σ τ α : Type} {data : Bytes} {E : Option Bytes} {s s' : σ} {o : Nat}

/-- A cursor that reads the input at `o` reads it followed by any bytes. -/
theorem Within.of_run {c : Cursor σ Unit} {r : Bytes} (hc : c.run s (data.drop o) = some ((), s', r)) :
    Within data E c s o := by
  cases E with
  | none => trivial
  | some t => simp only [Within, c.append t hc, Option.isSome_some]

/-- Where `c >>= f` reads the input at `o`, and `c` reads it up to `o'`, `f` reads it at `o'`. -/
theorem Within.bind {c : Cursor σ α} {f : α → Cursor σ Unit} {a : α} {o' : Nat}
    (hc : c.run s (data.drop o) = some (a, s', data.drop o')) (h : Within data E (c >>= f) s o) :
    Within data E (f a) s' o' := by
  cases E with
  | none => trivial
  | some t =>
    simp only [Within] at h ⊢
    rwa [run_bind_of_some (c.append t hc)] at h

theorem Within.left {c : Cursor σ Unit} {f : Unit → Cursor σ Unit} (h : Within data E (c >>= f) s o) :
    Within data E c s o := by
  cases E with
  | none => trivial
  | some t =>
    simp only [Within, run_bind] at h ⊢
    split at h
    · next hc => rw [hc]; rfl
    · cases h

/-- Where an element is read, its decoder reads its slice. -/
theorem Within.nested {c : Cursor τ Unit} {z : τ} {sub : Bytes} {g : τ → Cursor σ Unit}
    (h : Within data E (Cursor.nested c z sub >>= g) s o) : Within sub (E.map fun _ => []) c z 0 := by
  cases E with
  | none => trivial
  | some t =>
    simp only [Within, Option.map_some', List.drop_zero, List.append_nil, run_bind, run_nested] at h ⊢
    split at h
    · next hc => split at hc <;> simp_all
    · cases h

end Within

/-! ## What the Go code needs of its `int` -/

section Fine

variable {σ : Type} {w : IntSize} {data : Bytes} {E : Option Bytes} {c : Cursor σ Unit} {s : σ}
  {o : Nat}

/-- What the Go code needs of its `int` on `data`: exact on the input (`none`), or exact up
to the end of `data` followed by `t` (`some t`), which a 32-bit `int` is whenever the two
together are shorter than `2^31` bytes. -/
def Fine (w : IntSize) (data : Bytes) : Option Bytes → Prop
  | none => w.Exact data.length
  | some t => w.ExactTo (data.length + t.length)

theorem Fine.of_exact (hw : w.Exact data.length) : Fine w data none := hw

/-- Every `int` up to the end of the input is exact. -/
theorem Fine.base (hw : Fine w data E) : w.ExactTo data.length := by
  cases E with
  | none => exact IntSize.Exact.exactTo hw (by omega)
  | some t => exact IntSize.ExactTo.mono hw (by omega)

/-- A slice of the input, decoded on its own with nothing after it. -/
theorem Fine.sub (hw : Fine w data E) {sub : Bytes} (h : sub.length ≤ data.length) :
    Fine w sub (E.map fun _ => []) := by
  cases E with
  | none => exact IntSize.Exact.mono hw h
  | some t => exact IntSize.ExactTo.mono hw (by simp; omega)

/-- Where a cursor that fails on fewer than `k` bytes reads the input at `o`, every `int`
up to `o + k` is exact. -/
theorem Fine.exactTo_of_short (hw : Fine w data E) {k : Nat} (ho : o ≤ data.length)
    (hk : k < 2 ^ 33) (hshort : ∀ s d, d.length < k → c.run s d = none)
    (h : Within data E c s o) : w.ExactTo (o + k) := by
  cases E with
  | none => exact IntSize.Exact.exactTo hw (by omega)
  | some t =>
    have hlen : k ≤ (data.drop o ++ t).length := by
      by_contra hlt
      simp [Within, hshort s (data.drop o ++ t) (by omega)] at h
    simp only [List.length_append, List.length_drop] at hlen
    exact IntSize.ExactTo.mono hw (by omega)

/-- Where a length-prefixed field is read with its prefix in the input, every `int` up to
the end of the field is exact. -/
theorem Fine.exactTo_field (hw : Fine w data E) {f : Bytes → Cursor σ Unit}
    (h4 : o + 4 ≤ data.length) (h : Within data E (Cursor.field >>= f) s o) :
    w.ExactTo (o + 4 + decodeLE ((data.drop o).take 4)) := by
  have hlt := decodeLE_take_four_lt h4
  cases E with
  | none => exact IntSize.Exact.exactTo hw (by omega)
  | some t =>
    have htake : ((data ++ t).drop o).take 4 = (data.drop o).take 4 := by
      rw [List.drop_append_of_le_length (by omega), List.take_append_of_le_length (by simp; omega)]
    simp only [Within, ← List.drop_append_of_le_length (show o ≤ data.length by omega), run_bind,
      run_field_drop (show o + 4 ≤ (data ++ t).length by simp; omega), htake] at h
    split_ifs at h with hD
    · cases h
    · simp only [List.length_append] at hD
      exact IntSize.ExactTo.mono hw (by omega)

end Fine

/-! ## Composing steps -/

section Compose

variable {σ β : Type} {data : Bytes} {E : Option Bytes} {m : Int → GoM σ Int} {c c' : Cursor σ Unit}
  {m' : Int → GoM σ β} {ret : Nat → β} {p q : Nat}

theorem Steps.of_agrees {m : Int → GoM σ β}
    (h : ∀ (o : Nat) s, o + p ≤ data.length → Within data E c s o →
      Agrees data ret (m o s) (c.run s (data.drop o))) :
    Steps data E p m c ret := by
  constructor
  · intro o s s' r ho hc
    simpa [Agrees, hc] using h o s ho (Within.of_run hc)
  · intro o s ho hin hc
    simpa [Agrees, hc] using h o s ho hin

theorem Steps.agrees {m : Int → GoM σ β} (h : Steps data E p m c ret) (o : Nat) (s : σ)
    (ho : o + p ≤ data.length) (hin : Within data E c s o) :
    Agrees data ret (m o s) (c.run s (data.drop o)) := by
  cases hc : c.run s (data.drop o) with
  | none => exact h.fail o s ho hin hc
  | some x => obtain ⟨⟨⟩, s', r⟩ := x; exact h.ok o s s' r ho hc

/-- A step, then a second one at the offset the first returned. The second step's
requirement `q` must be left over by the first whenever `P` bytes were there. -/
theorem Steps.bind {P : Nat} (hm : Steps data E p m c Nat.cast) (hm' : Steps data E q m' c' ret)
    (hp : p ≤ P) (hq : ∀ s d s' r, c.run s d = some ((), s', r) → P ≤ d.length → q ≤ r.length) :
    Steps data E P (fun o => m o >>= m') (c >>= fun _ => c') ret := by
  refine Steps.of_agrees fun o s ho hin => ?_
  rw [run_bind]
  cases hc : c.run s (data.drop o) with
  | none => exact GoM.bind_err_fst (hm.fail o s (by omega) hin.left hc)
  | some x =>
    obtain ⟨⟨⟩, s', r⟩ := x
    have hr := length_drop_le (c.suffix hc)
    have hq' := hq _ _ _ _ hc (by rw [List.length_drop]; omega)
    have hdrop := drop_length_sub (c.suffix hc)
    have h' := hm'.agrees (data.length - r.length) s' (by omega)
      (Within.bind (by rw [hdrop]; exact hc) hin)
    rw [hdrop] at h'
    rwa [GoM.bind_apply_ok (hm.ok o s s' r (by omega) hc)]

/-- A step, then a second one that needs nothing after its offset. -/
theorem Steps.andThen (hm : Steps data E p m c Nat.cast) (hm' : Steps data E 0 m' c' ret) :
    Steps data E p (fun o => m o >>= m') (c >>= fun _ => c') ret :=
  hm.bind hm' le_rfl fun _ _ _ _ _ _ => Nat.zero_le _

/-- `c` reads exactly `k` bytes whenever it succeeds. -/
def Consumes (c : Cursor σ Unit) (k : Nat) : Prop :=
  ∀ s d s' r, c.run s d = some ((), s', r) → d.length = k + r.length

/-- A step that reads exactly `k` bytes, then a second one that needs `q` more. -/
theorem Steps.seq {k : Nat} (hm : Steps data E p m c Nat.cast) (hk : Consumes c k) (hp : p ≤ k + q)
    (hm' : Steps data E q m' c' ret) :
    Steps data E (k + q) (fun o => m o >>= m') (c >>= fun _ => c') ret :=
  hm.bind hm' hp fun s d s' r h hd => by have := hk s d s' r h; omega

/-- A step whose offset is dropped. -/
theorem Steps.discard (hm : Steps data E p m c Nat.cast) :
    Steps data E p (fun o => m o >>= fun _ => pure ()) c fun _ => () := by
  constructor
  · intro o s s' r ho h
    rw [GoM.bind_apply_ok (hm.ok o s s' r ho h)]
    rfl
  · intro o s ho hin h
    exact GoM.bind_err_fst (hm.fail o s ho hin h)

/-- A check for `k` bytes in front of a step that needs them, where the cursor fails on
fewer. -/
theorem Steps.need {w : IntSize} (hw : Fine w data E) (k : Nat) {m : Int → GoM σ β}
    (hm : Steps data E k m c ret) (hshort : ∀ s d, d.length < k → c.run s d = none)
    (hk : k < 2 ^ 32) :
    Steps data E 0 (fun o => Zapdb.need w data o k >>= fun _ => m o) c ret := by
  refine Steps.of_agrees fun o s ho hin => ?_
  rw [need_natCast (hw.exactTo_of_short (by omega) (by omega) hshort hin)]
  split
  · rw [hshort s _ (by rw [List.length_drop]; omega)]
    rfl
  · rw [GoM.pure_bind]
    exact hm.agrees o s (by omega) hin

theorem Steps.mono {m : Int → GoM σ β} (hm : Steps data E p m c ret) (hp : p ≤ q) :
    Steps data E q m c ret :=
  ⟨fun o s s' r ho => hm.ok o s s' r (by omega), fun o s ho => hm.fail o s (by omega)⟩

/-- A decoder that checks for `n` bytes and then runs steps that need at most `n`. -/
theorem DecodesOn.guard {n : Nat} {m : Int → GoM σ Unit} (hm : Steps data E p m c fun _ => ())
    (hp : p ≤ n) :
    DecodesOn data E (if data.length < n then GoM.fail .bufferTooSmall else m 0)
      (Cursor.need n >>= fun _ => c) := by
  constructor
  · intro s s' r h
    obtain ⟨⟨⟩, s₁, r₁, hn, hc⟩ := run_bind_eq_some.mp h
    obtain ⟨hlen, rfl, rfl⟩ := run_need_eq_some.mp hn
    rw [if_neg (by omega)]
    exact hm.ok 0 _ s' r (by omega) hc
  · intro s hin h
    split
    · rfl
    · next hlen =>
      have hn : (Cursor.need n).run s (data.drop 0) = some ((), s, data.drop 0) := by
        rw [run_need, if_pos (by simp; omega)]
      have hc : c.run s data = none := by
        simpa [run_bind, run_need, show n ≤ data.length by omega] using h
      exact hm.fail 0 s (by omega) (Within.bind hn hin) hc

end Compose

/-! ## Each statement group -/

section Short

variable {σ : Type} {s : σ} {d : Bytes}

theorem run_getField_short (set : Bytes → σ → σ) (hd : d.length < 4) :
    (Cursor.getField set).run s d = none := by
  rw [Cursor.getField, run_bind, field, run_bind, run_u32, if_neg (by omega)]

theorem run_getUint32_short (set : UInt32 → σ → σ) (hd : d.length < 4) :
    (Cursor.getUint32 set).run s d = none := by
  rw [Cursor.getUint32, run_bind, run_u32, if_neg (by omega)]

theorem run_getUint64_short (set : UInt64 → σ → σ) (hd : d.length < 8) :
    (Cursor.getUint64 set).run s d = none := by
  rw [Cursor.getUint64, run_bind, run_u64, if_neg (by omega)]

end Short

section Groups

variable {σ : Type} {w : IntSize} {data : Bytes} {E : Option Bytes} (hw : Fine w data E)
include hw

theorem readUint32_steps (set : UInt32 → σ → σ) :
    Steps data E 4 (readUint32 w data set) (Cursor.getUint32 set) Nat.cast :=
  Steps.of_agrees fun o s ho _ => by
    rw [run_getUint32_drop set ho, readUint32_natCast set ho (hw.base.add_ofNat _ ho)]
    simp only [Agrees, List.length_drop]
    congr 3
    omega

theorem readUint64_steps (set : UInt64 → σ → σ) :
    Steps data E 8 (readUint64 w data set) (Cursor.getUint64 set) Nat.cast :=
  Steps.of_agrees fun o s ho _ => by
    rw [run_getUint64_drop set ho, readUint64_natCast set ho (hw.base.add_ofNat _ ho)]
    simp only [Agrees, List.length_drop]
    congr 3
    omega

theorem getField_steps (set : Bytes → σ → σ) :
    Steps data E 4 (getField w data set) (Cursor.getField set) Nat.cast :=
  Steps.of_agrees fun o s ho hin => by
    rw [run_getField_drop set ho, getField_natCast set ho (hw.exactTo_field ho hin)]
    split_ifs
    · rfl
    · simp only [Agrees, List.length_drop]
      congr 3
      omega

theorem getStringField_steps (set : Bytes → σ → σ) :
    Steps data E 0 (getStringField w data set) (Cursor.getField set) fun _ => () :=
  Steps.of_agrees fun o s ho hin => by
    rw [getStringField_natCast set
      (hw.exactTo_of_short (by omega) (by omega) (fun _ _ => run_getField_short set) hin)
      fun h4 => hw.exactTo_field h4 hin]
    by_cases h4 : data.length < o + 4
    · rw [if_pos h4, run_getField_short set (by rw [List.length_drop]; omega)]
      rfl
    · rw [if_neg h4, run_getField_drop set (by omega)]
      split_ifs <;> rfl

theorem getByte_steps (set : UInt8 → σ → σ) :
    Steps data E 0 (getByte w data set) (Cursor.getByte set) fun _ => () :=
  Steps.of_agrees fun o s ho hin => by
    have hshort : ∀ (s : σ) (d : Bytes), d.length < 1 → (Cursor.getByte set).run s d = none :=
      fun s d hd => by rw [List.length_eq_zero.mp (show d.length = 0 by omega)]; rfl
    rw [run_getByte_drop set (show o ≤ data.length by omega),
      getByte_natCast set (hw.exactTo_of_short (by omega) (by omega) hshort hin)]
    split_ifs <;> rfl

theorem getCheckedField_steps (set : Bytes → σ → σ) :
    Steps data E 0 (getCheckedField w data set) (Cursor.getField set) Nat.cast :=
  Steps.need hw 4 (getField_steps hw set) (fun _ _ => run_getField_short set) (by omega)

theorem getUint32_steps (set : UInt32 → σ → σ) :
    Steps data E 0 (Zapdb.getUint32 w data set) (Cursor.getUint32 set) Nat.cast :=
  Steps.need hw 4 (readUint32_steps hw set) (fun _ _ => run_getUint32_short set) (by omega)

theorem getUint64_steps (set : UInt64 → σ → σ) :
    Steps data E 0 (Zapdb.getUint64 w data set) (Cursor.getUint64 set) Nat.cast :=
  Steps.need hw 8 (readUint64_steps hw set) (fun _ _ => run_getUint64_short set) (by omega)

end Groups

/-! ## The element loop -/

/-- The loop reads a length prefix for each element, so it fails on fewer bytes than
elements. -/
theorem run_readElems_short {σ τ : Type} {f : ListField σ τ} {z : τ} {inner : Cursor τ Unit}
    {i n : Nat} {s : σ} {d : Bytes} (hd : d.length < n) :
    (readElems f z inner i n).run s d = none := by
  cases h : (readElems f z inner i n).run s d with
  | none => rfl
  | some x =>
    obtain ⟨⟨⟩, s', r⟩ := x
    obtain ⟨es, rfl, -, rfl, -⟩ := run_readElems_eq_some h
    have hle : ∀ es : List (τ × Bytes), es.length ≤ (es.map fun e => framed e.2).flatten.length := by
      intro es
      induction es with
      | nil => simp
      | cons e es ih => simp only [List.map_cons, List.flatten_cons, List.length_append,
          length_framed, List.length_cons]; omega
    have := hle es
    simp only [List.length_append] at hd
    omega

section Loop

variable {σ τ : Type} {w : IntSize} {data : Bytes} {E : Option Bytes} (hw : Fine w data E)
  (f : ListField σ τ) (z : τ) {unmarshal : Bytes → GoM τ Unit} {inner : Cursor τ Unit}
include hw

/-- **The Go element loop computes the cursor's**, given that the element decoder does
on every slice of the input. -/
theorem unmarshalElems_steps
    (hinner : ∀ sub : Bytes, Fine w sub (E.map fun _ => []) →
      DecodesOn sub (E.map fun _ => []) (unmarshal sub) inner)
    (i n : Nat) :
    Steps data E 0 (unmarshalElems w data f z unmarshal i n) (readElems f z inner i n) Nat.cast := by
  induction n generalizing i with
  | zero =>
    refine Steps.of_agrees fun o s ho _ => ?_
    simp only [unmarshalElems, readElems, run_pure, Agrees, List.length_drop, GoM.pure_apply]
    congr 3
    omega
  | succ n ih =>
    refine Steps.of_agrees fun o s ho hin => ?_
    have hshort : ∀ (s : σ) (d : Bytes), d.length < 4 → (readElems f z inner i (n + 1)).run s d = none :=
      fun s d hd => by rw [readElems, run_bind, field, run_bind, run_u32, if_neg (by omega)]
    rw [unmarshalElems, need_ofNat _ (hw.exactTo_of_short (by omega) (by omega) hshort hin)]
    by_cases h4 : data.length < o + 4
    · rw [if_pos h4, GoM.fail_bind, hshort s _ (by rw [List.length_drop]; omega)]
      rfl
    rw [readElems] at hin ⊢
    have hx := hw.exactTo_field (by omega) hin
    rw [if_neg h4, GoM.pure_bind, lenAt_natCast (by omega) (hx.mono (by omega)), GoM.pure_bind,
      hx.add_ofNat _ (by omega), need_natCast hx, run_bind, run_field_drop (by omega)]
    split_ifs with hk
    · rfl
    rw [GoM.pure_bind, GoM.modify_bind, hx.add le_rfl, slice_natCast (by omega), GoM.pure_bind]
    dsimp only
    have hfield : (Cursor.field : Cursor σ Bytes).run s (data.drop o) =
        some ((data.drop (o + 4)).take (decodeLE ((data.drop o).take 4)), s,
          data.drop (o + 4 + decodeLE ((data.drop o).take 4))) := by
      rw [run_field_drop (by omega), if_neg hk]
    have hsub := Within.bind hfield hin
    have hdec := hinner ((data.drop (o + 4)).take (decodeLE ((data.drop o).take 4)))
      (hw.sub (by rw [List.length_take, List.length_drop]; omega))
    cases hx : inner.run z ((data.drop (o + 4)).take (decodeLE ((data.drop o).take 4))) with
    | none =>
      rw [run_bind_of_none (by rw [run_nested_eq_none]; exact hx)]
      exact GoM.callNew_bind_err (hdec.fail z hsub.nested hx) _ _
    | some x =>
      obtain ⟨⟨⟩, x, r₀⟩ := x
      have hnest : (Cursor.nested inner z ((data.drop (o + 4)).take
          (decodeLE ((data.drop o).take 4)))).run s
          (data.drop (o + 4 + decodeLE ((data.drop o).take 4))) =
          some (x, s, data.drop (o + 4 + decodeLE ((data.drop o).take 4))) := by
        rw [run_nested, hx]
      rw [GoM.callNew_bind_ok (hdec.ok z x r₀ hx), ListField.store_store,
        run_bind_of_some hnest, run_bind, run_modify]
      have hrest := (Within.bind hnest hsub).bind (run_modify _ _ _)
      exact (ih (i + 1)).agrees _ _ (by omega) hrest

/-- **The head of both list decoders**: the count is read, `make` allocates that many nil
pointers into the field `f`, and statements `k` follow that do what `rest` does, which
reads at least a byte per element. -/
theorem count_make_steps (k : Nat → Int → GoM σ Unit) (rest : Nat → Cursor σ Unit)
    (hk : ∀ n, Steps data E 0 (k n) (rest n) fun _ => ())
    (hshort : ∀ n s d, d.length < n → (rest n).run s d = none) :
    Steps data E 4
      (fun o => lenAt w data o >>= fun count => make count (none : Option τ) >>= fun xs =>
        GoM.modify (f.set xs) >>= fun _ => k count.toNat (w.add o 4))
      (Cursor.u32 >>= fun count =>
        Cursor.modify (f.set (List.replicate count.toNat none)) >>= fun _ => rest count.toNat)
      fun _ => () := by
  refine Steps.of_agrees fun o s ho hin => ?_
  have hlt := decodeLE_take_four_lt (show o + 4 ≤ data.length by omega)
  have hu : (UInt32.ofNat (decodeLE ((data.drop o).take 4))).toNat = decodeLE ((data.drop o).take 4) :=
    Nat.mod_eq_of_lt hlt
  have hcount : (Cursor.u32 : Cursor σ UInt32).run s (data.drop o) =
      some (UInt32.ofNat (decodeLE ((data.drop o).take 4)), s, data.drop (o + 4)) := by
    rw [run_u32, if_pos (by rw [List.length_drop]; omega), List.drop_drop]
  have hin' := (Within.bind hcount hin).bind (run_modify _ _ _)
  rw [hu] at hin'
  have hx := (hw.exactTo_of_short (by omega) (by omega) (hshort _) hin').mono
    (show decodeLE ((data.drop o).take 4) ≤ o + 4 + decodeLE ((data.drop o).take 4) by omega)
  rw [lenAt_natCast ho hx, GoM.pure_bind, make_natCast, GoM.pure_bind, GoM.modify_bind,
    Int.toNat_ofNat, hw.base.add_ofNat _ ho, run_bind_of_some hcount, hu, run_bind, run_modify]
  exact (hk _).agrees (o + 4) _ (by omega) hin'

end Loop

theorem getUint32_consumes {σ : Type} (set : UInt32 → σ → σ) : Consumes (Cursor.getUint32 set) 4 := by
  intro s d s' r h
  obtain ⟨v, -, rfl⟩ := run_getUint32_eq_some.mp h
  simp

theorem getUint64_consumes {σ : Type} (set : UInt64 → σ → σ) : Consumes (Cursor.getUint64 set) 8 := by
  intro s d s' r h
  obtain ⟨v, -, rfl⟩ := run_getUint64_eq_some.mp h
  simp

/-! ## Each decoder -/

section Decoders

variable {w : IntSize} {data : Bytes} {E : Option Bytes} (hw : Fine w data E)
include hw

theorem KV.unmarshal_decodesOn : DecodesOn data E (KV.unmarshal w data) KV.read :=
  DecodesOn.guard ((getField_steps hw _).andThen <| (getCheckedField_steps hw _).andThen <|
    (getCheckedField_steps hw _).andThen <| (getUint64_steps hw _).andThen <|
    (getUint64_steps hw _).andThen <| (getCheckedField_steps hw _).andThen <|
    (getUint32_steps hw _).andThen <| getByte_steps hw _) (by omega)

/-- `KVList`: the count, the allocation of the element array, the loop, `allocRef`. -/
theorem KVList.unmarshalAt_steps :
    Steps data E 4 (KVList.unmarshalAt w data) KVList.readFields fun _ => () :=
  count_make_steps hw KVList.kvField
    (fun n o => KVList.unmarshalKv w data 0 n o >>= fun o =>
      Zapdb.getUint64 w data (fun v l => { l with allocRef := v }) o >>= fun _ => pure ())
    (fun n => KVList.readKv 0 n >>= fun _ => Cursor.getUint64 fun v l => { l with allocRef := v })
    (fun n => (unmarshalElems_steps hw KVList.kvField {}
      (fun _ h => KV.unmarshal_decodesOn h) 0 n).andThen (getUint64_steps hw _).discard)
    fun _ _ _ hd => run_bind_of_none (run_readElems_short hd)

theorem KVList.unmarshal_decodesOn : DecodesOn data E (KVList.unmarshal w data) KVList.read :=
  DecodesOn.guard (KVList.unmarshalAt_steps hw) (by omega)

theorem ManifestChange.unmarshal_decodesOn :
    DecodesOn data E (ManifestChange.unmarshal w data) ManifestChange.read :=
  DecodesOn.guard ((readUint64_steps hw _).seq (getUint64_consumes _) (by omega) <|
    (readUint32_steps hw _).seq (getUint32_consumes _) (by omega) <|
    (readUint32_steps hw _).seq (getUint32_consumes _) (by omega) <|
    (readUint64_steps hw _).seq (getUint64_consumes _) (by omega) <|
    (readUint32_steps hw _).seq (getUint32_consumes _) (by omega) <|
    (readUint32_steps hw _).discard) (by omega)

/-- `ManifestChangeSet`: the count, the allocation of the element array, the loop. -/
theorem ManifestChangeSet.unmarshalAt_steps :
    Steps data E 4 (ManifestChangeSet.unmarshalAt w data) ManifestChangeSet.readFields
      fun _ => () :=
  count_make_steps hw ManifestChangeSet.changesField
    (fun n o => ManifestChangeSet.unmarshalChanges w data 0 n o >>= fun _ => pure ())
    (fun n => ManifestChangeSet.readChanges 0 n)
    (fun n => (unmarshalElems_steps hw ManifestChangeSet.changesField {}
      (fun _ h => ManifestChange.unmarshal_decodesOn h) 0 n).discard)
    fun _ _ _ hd => run_readElems_short hd

theorem ManifestChangeSet.unmarshal_decodesOn :
    DecodesOn data E (ManifestChangeSet.unmarshal w data) ManifestChangeSet.read :=
  DecodesOn.guard (ManifestChangeSet.unmarshalAt_steps hw) le_rfl

theorem DataKey.unmarshal_decodesOn : DecodesOn data E (DataKey.unmarshal w data) DataKey.read :=
  DecodesOn.guard ((readUint64_steps hw _).seq (getUint64_consumes _) (by omega) <|
    (getField_steps hw _).andThen <| (getCheckedField_steps hw _).andThen
      (getUint64_steps hw _).discard) (by omega)

theorem Match.unmarshal_decodesOn : DecodesOn data E (Match.unmarshal w data) Match.read :=
  DecodesOn.guard ((getField_steps hw _).andThen (getStringField_steps hw _)) (by omega)

end Decoders

/-! ### On an input `int` is exact on -/

section Exact

variable {w : IntSize} {data : Bytes} (hw : w.Exact data.length)
include hw

theorem KV.unmarshal_decodes : Decodes data (KV.unmarshal w data) KV.read :=
  (KV.unmarshal_decodesOn (.of_exact hw)).decodes

theorem KVList.unmarshal_decodes : Decodes data (KVList.unmarshal w data) KVList.read :=
  (KVList.unmarshal_decodesOn (.of_exact hw)).decodes

theorem ManifestChange.unmarshal_decodes :
    Decodes data (ManifestChange.unmarshal w data) ManifestChange.read :=
  (ManifestChange.unmarshal_decodesOn (.of_exact hw)).decodes

theorem ManifestChangeSet.unmarshal_decodes :
    Decodes data (ManifestChangeSet.unmarshal w data) ManifestChangeSet.read :=
  (ManifestChangeSet.unmarshal_decodesOn (.of_exact hw)).decodes

theorem DataKey.unmarshal_decodes : Decodes data (DataKey.unmarshal w data) DataKey.read :=
  (DataKey.unmarshal_decodesOn (.of_exact hw)).decodes

theorem Match.unmarshal_decodes : Decodes data (Match.unmarshal w data) Match.read :=
  (Match.unmarshal_decodesOn (.of_exact hw)).decodes

end Exact

theorem Checksum.run_read_of_le (s : Checksum) {data : Bytes} (h : 12 ≤ data.length) :
    Checksum.read.run s data = some ((), Checksum.mk ⟨UInt32.ofNat (decodeLE (data.take 4))⟩
      (UInt64.ofNat (decodeLE ((data.drop 4).take 8))), data.drop 12) := by
  have h0 := run_getUint32_drop (fun v (c : Checksum) => { c with algo := ⟨v⟩ })
    (show 0 + 4 ≤ data.length by omega) s
  rw [List.drop_zero] at h0
  rw [Checksum.read, run_bind_of_some (by rw [run_need, if_pos h]), Checksum.readFields,
    run_bind_of_some h0, run_getUint64_drop _ (show 4 + 8 ≤ data.length by omega)]

theorem Checksum.unmarshal_decodes (data : Bytes) :
    Decodes data (Checksum.unmarshal data) Checksum.read := by
  constructor
  · intro s s' r h
    by_cases hlen : 12 ≤ data.length
    · rw [Checksum.run_read_of_le s hlen, Option.some.injEq, Prod.mk.injEq, Prod.mk.injEq] at h
      rw [Checksum.unmarshal_of_le hlen, ← h.2.1]
    · rw [Checksum.read, run_bind_of_none (by rw [run_need, if_neg hlen])] at h
      cases h
  · intro s h
    by_cases hlen : 12 ≤ data.length
    · rw [Checksum.run_read_of_le s hlen] at h
      cases h
    · rw [Checksum.unmarshal, if_pos (by omega)]
      rfl

end Zapdb
