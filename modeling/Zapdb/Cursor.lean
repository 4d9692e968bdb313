import Zapdb.Layout

/-!
# Cursor decoders

The decoders of the package track an `offset` into `data` and check it against
`len(data)` before every read. The same algorithm reads more simply from the front of
the bytes that remain: a **cursor** decoder takes the remaining input and either fails
(the buffer is too small) or yields a value, the receiver's new state and the bytes
after what it read.

A `Cursor` carries two facts about every successful run, proved once per combinator:

* `suffix` — what remains is a suffix of the input, so reading only moves forward;
* `append` — bytes appended to the input change nothing that was read, and only pass
  through to what remains. This is what makes a truncated encoding fail
  (`Cursor.run_take_eq_none`): a cursor that reads all of `e` cannot succeed on a
  proper prefix of `e`, since the bytes cut off would then have to remain unread.

`Reads c y upd` says that `c` reads exactly `y` from the front of any input and applies
`upd` to the receiver; it composes like the encoders' `Writes`.
-/

namespace Zapdb

/-- A decoder over the bytes that remain, filling in a receiver of type `σ`. -/
structure Cursor (σ α : Type) where
  /-- from a receiver and the remaining input: a value, the receiver's new state and
  the bytes after what was read, or `none` when the input is too short -/
  run : σ → Bytes → Option (α × σ × Bytes)
  /-- what remains is a suffix of the input -/
  suffix : ∀ {s d a s' r}, run s d = some (a, s', r) → r <:+ d
  /-- bytes after the input only pass through -/
  append : ∀ {s d a s' r} (t : Bytes), run s d = some (a, s', r) →
    run s (d ++ t) = some (a, s', r ++ t)

namespace Cursor

variable {σ τ α β : Type}

/-- Read nothing and yield `a`. -/
protected def pure (a : α) : Cursor σ α where
  run s d := some (a, s, d)
  suffix h := by cases h; exact List.suffix_refl _
  append _ h := by cases h; rfl

/-- Run `c`, then `f` of its value on what `c` left. -/
protected def bind (c : Cursor σ α) (f : α → Cursor σ β) : Cursor σ β where
  run s d := match c.run s d with
    | some (a, s', r) => (f a).run s' r
    | none => none
  suffix h := by
    dsimp only at h
    split at h
    · next hc => exact ((f _).suffix h).trans (c.suffix hc)
    · cases h
  append t h := by
    dsimp only at h ⊢
    split at h
    · next hc =>
      rw [c.append t hc]
      exact (f _).append t h
    · cases h

instance : Monad (Cursor σ) where
  pure := Cursor.pure
  bind := Cursor.bind

@[simp] theorem run_pure (a : α) (s : σ) (d : Bytes) :
    (pure a : Cursor σ α).run s d = some (a, s, d) := rfl

theorem run_bind (c : Cursor σ α) (f : α → Cursor σ β) (s : σ) (d : Bytes) :
    (c >>= f).run s d = match c.run s d with
      | some (a, s', r) => (f a).run s' r
      | none => none := rfl

theorem run_bind_of_some {c : Cursor σ α} {f : α → Cursor σ β} {s s' : σ} {d r : Bytes} {a : α}
    (h : c.run s d = some (a, s', r)) : (c >>= f).run s d = (f a).run s' r := by
  rw [run_bind, h]

theorem run_bind_of_none {c : Cursor σ α} {f : α → Cursor σ β} {s : σ} {d : Bytes}
    (h : c.run s d = none) : (c >>= f).run s d = none := by
  rw [run_bind, h]

/-- A bind succeeds exactly when both parts do, one after the other. -/
theorem run_bind_eq_some {c : Cursor σ α} {f : α → Cursor σ β} {s s'' : σ} {d r' : Bytes} {b : β} :
    (c >>= f).run s d = some (b, s'', r') ↔
      ∃ a s' r, c.run s d = some (a, s', r) ∧ (f a).run s' r = some (b, s'', r') := by
  rw [run_bind]
  constructor
  · intro h
    split at h
    · next a s' r hc => exact ⟨a, s', r, hc, h⟩
    · cases h
  · rintro ⟨a, s', r, hc, hf⟩
    rw [hc]
    exact hf

/-! ## Primitives -/

/-- Fail unless at least `n` bytes remain; read nothing. -/
def need (n : Nat) : Cursor σ Unit where
  run s d := if n ≤ d.length then some ((), s, d) else none
  suffix h := by
    dsimp only at h
    split at h
    · cases h; exact List.suffix_refl _
    · cases h
  append t h := by
    dsimp only at h ⊢
    split at h
    · next hn =>
      cases h
      rw [if_pos (by simp; omega)]
    · cases h

/-- The next `n` bytes. -/
def take (n : Nat) : Cursor σ Bytes where
  run s d := if n ≤ d.length then some (d.take n, s, d.drop n) else none
  suffix h := by
    dsimp only at h
    split at h
    · cases h; exact List.drop_suffix _ _
    · cases h
  append t h := by
    dsimp only at h ⊢
    split at h
    · next hn =>
      cases h
      rw [if_pos (by simp; omega), List.take_append_of_le_length hn,
        List.drop_append_of_le_length hn]
    · cases h

/-- An assignment to the receiver. -/
def modify (f : σ → σ) : Cursor σ Unit where
  run s d := some ((), f s, d)
  suffix h := by cases h; exact List.suffix_refl _
  append _ h := by cases h; rfl

/-- Decode `sub`, a slice cut out of the input, with `c` from the receiver `z`, and
yield the state `c` leaves; the outer input is not read. -/
def nested (c : Cursor τ Unit) (z : τ) (sub : Bytes) : Cursor σ τ where
  run s d := match c.run z sub with
    | some (_, t, _) => some (t, s, d)
    | none => none
  suffix h := by
    dsimp only at h
    split at h
    · cases h; exact List.suffix_refl _
    · cases h
  append t h := by
    dsimp only at h ⊢
    split at h
    · next hc => cases h; simp only [hc]
    · cases h

/-- A little-endian `u32`. -/
def u32 : Cursor σ UInt32 := do pure (UInt32.ofNat (decodeLE (← take 4)))

/-- A little-endian `u64`. -/
def u64 : Cursor σ UInt64 := do pure (UInt64.ofNat (decodeLE (← take 8)))

/-- A length-prefixed byte field. -/
def field : Cursor σ Bytes := do take (← u32).toNat

/-- One byte. -/
def u8 : Cursor σ UInt8 := do pure ((← take 1).headD 0)

@[simp] theorem run_modify (f : σ → σ) (s : σ) (d : Bytes) :
    (modify f).run s d = some ((), f s, d) := rfl

theorem run_need (n : Nat) (s : σ) (d : Bytes) :
    (need n).run s d = if n ≤ d.length then some ((), s, d) else none := rfl

theorem run_take (n : Nat) (s : σ) (d : Bytes) :
    (take n).run s d = if n ≤ d.length then some (d.take n, s, d.drop n) else none := rfl

theorem run_nested (c : Cursor τ Unit) (z : τ) (sub : Bytes) (s : σ) (d : Bytes) :
    (nested c z sub : Cursor σ τ).run s d = match c.run z sub with
      | some (_, t, _) => some (t, s, d)
      | none => none := rfl

theorem run_nested_eq_none {c : Cursor τ Unit} {z : τ} {sub : Bytes} {s : σ} {d : Bytes} :
    (nested c z sub : Cursor σ τ).run s d = none ↔ c.run z sub = none := by
  rw [run_nested]
  split <;> simp_all

theorem run_u32 (s : σ) (d : Bytes) : (u32 : Cursor σ UInt32).run s d =
    if 4 ≤ d.length then some (UInt32.ofNat (decodeLE (d.take 4)), s, d.drop 4) else none := by
  rw [u32, run_bind, run_take]
  by_cases h : 4 ≤ d.length <;> simp [h]

theorem run_u64 (s : σ) (d : Bytes) : (u64 : Cursor σ UInt64).run s d =
    if 8 ≤ d.length then some (UInt64.ofNat (decodeLE (d.take 8)), s, d.drop 8) else none := by
  rw [u64, run_bind, run_take]
  by_cases h : 8 ≤ d.length <;> simp [h]

theorem run_u8 (s : σ) (d : Bytes) : (u8 : Cursor σ UInt8).run s d =
    match d with
    | [] => none
    | b :: r => some (b, s, r) := by
  rw [u8, run_bind, run_take]
  cases d <;> simp

/-! ## Truncation -/

/-- **A cursor that reads all of `e` fails on every proper prefix of `e`.** -/
theorem run_take_eq_none (c : Cursor σ α) {s s' : σ} {e : Bytes} {a : α}
    (h : c.run s e = some (a, s', [])) {k : Nat} (hk : k < e.length) :
    c.run s (e.take k) = none := by
  cases hc : c.run s (e.take k) with
  | none => rfl
  | some x =>
    obtain ⟨a', s'', r⟩ := x
    have := c.append (e.drop k) hc
    rw [List.take_append_drop, h] at this
    have hnil : r ++ e.drop k = [] := (Prod.ext_iff.mp (Prod.ext_iff.mp
      (Option.some.inj this)).2).2.symm
    simp only [List.append_eq_nil, List.drop_eq_nil_iff] at hnil
    omega

end Cursor

/-! ## Reading a known block -/

/-- `c` reads exactly `y` from the front of any input, yields `a` and applies `upd` to
the receiver. -/
def Reads {σ α : Type} (c : Cursor σ α) (y : Bytes) (a : α) (upd : σ → σ) : Prop :=
  ∀ s t, c.run s (y ++ t) = some (a, upd s, t)

namespace Reads

variable {σ α β : Type} {c : Cursor σ α} {f : α → Cursor σ β} {y z : Bytes} {a : α} {b : β}
  {u v : σ → σ}

theorem bind (hc : Reads c y a u) (hf : Reads (f a) z b v) :
    Reads (c >>= f) (y ++ z) b (v ∘ u) := by
  intro s t
  rw [List.append_assoc, Cursor.run_bind_of_some (hc s (z ++ t)), hf]
  rfl

theorem congr_bytes {y' : Bytes} (h : y = y') (hc : Reads c y a u) : Reads c y' a u := h ▸ hc

end Reads

section Primitives

variable {σ : Type}

theorem Cursor.take_reads (x : Bytes) : Reads (Cursor.take x.length : Cursor σ Bytes) x x id := by
  intro s t
  rw [Cursor.run_take, if_pos (by simp)]
  simp

theorem Cursor.u32_reads (v : UInt32) :
    Reads (Cursor.u32 : Cursor σ UInt32) (encodeLE 4 v.toNat) v id := by
  intro s t
  rw [Cursor.run_u32, if_pos (by simp)]
  simp [List.take_append_of_le_length, decodeLE_encodeLE, UInt32.ofNat_toNat',
    Nat.mod_eq_of_lt v.toNat_lt_size]

theorem Cursor.u64_reads (v : UInt64) :
    Reads (Cursor.u64 : Cursor σ UInt64) (encodeLE 8 v.toNat) v id := by
  intro s t
  rw [Cursor.run_u64, if_pos (by simp)]
  simp [List.take_append_of_le_length, decodeLE_encodeLE, UInt64.ofNat_toNat',
    Nat.mod_eq_of_lt v.toNat_lt_size]

/-- A field shorter than `2^32` bytes reads back from its framing. -/
theorem Cursor.field_reads {x : Bytes} (hx : x.length < 2 ^ 32) :
    Reads (Cursor.field : Cursor σ Bytes) (framed x) x id := by
  have hlen : (UInt32.ofNat x.length).toNat = x.length := Nat.mod_eq_of_lt hx
  have ht : Reads (Cursor.take (UInt32.ofNat x.length).toNat : Cursor σ Bytes) x x id := by
    rw [hlen]
    exact Cursor.take_reads x
  have h : Reads (Cursor.u32 >>= fun n => Cursor.take n.toNat : Cursor σ Bytes)
      (encodeLE 4 (UInt32.ofNat x.length).toNat ++ x) x (id ∘ id) :=
    (Cursor.u32_reads _).bind ht
  rw [hlen] at h
  exact h

theorem Cursor.modify_reads (f : σ → σ) : Reads (Cursor.modify f) [] () f := fun _ _ => rfl

theorem Cursor.u8_reads (b : UInt8) : Reads (Cursor.u8 : Cursor σ UInt8) [b] b id := by
  intro s t
  rw [Cursor.run_u8]
  rfl

theorem Cursor.nested_reads {τ : Type} {c : Cursor τ Unit} {z t : τ} {sub r : Bytes}
    (h : c.run z sub = some ((), t, r)) : Reads (Cursor.nested c z sub : Cursor σ τ) [] t id := by
  intro s u
  simp only [Cursor.nested, h, List.nil_append]
  rfl

end Primitives

/-! ## What a successful read consumed -/

namespace Cursor

variable {σ : Type} {s s' : σ} {d r : Bytes}

theorem run_need_eq_some {n : Nat} {a : Unit} :
    (need n).run s d = some (a, s', r) ↔ n ≤ d.length ∧ s' = s ∧ r = d := by
  rw [run_need]
  split <;> simp_all [eq_comm]

theorem run_modify_eq_some {f : σ → σ} {a : Unit} :
    (modify f).run s d = some (a, s', r) ↔ s' = f s ∧ r = d := by
  simp [eq_comm]

theorem run_u32_eq_some {v : UInt32} :
    u32.run s d = some (v, s', r) ↔ s' = s ∧ d = encodeLE 4 v.toNat ++ r := by
  constructor
  · rw [run_u32]
    split
    · next h =>
      rintro ⟨⟩
      refine ⟨rfl, ?_⟩
      rw [show (UInt32.ofNat (decodeLE (d.take 4))).toNat = decodeLE (d.take 4) % 256 ^ 4 from rfl,
        encodeLE_decodeLE_of_length (by simp; omega), List.take_append_drop]
    · simp
  · rintro ⟨rfl, rfl⟩
    exact u32_reads v _ _

theorem run_u64_eq_some {v : UInt64} :
    u64.run s d = some (v, s', r) ↔ s' = s ∧ d = encodeLE 8 v.toNat ++ r := by
  constructor
  · rw [run_u64]
    split
    · next h =>
      rintro ⟨⟩
      refine ⟨rfl, ?_⟩
      rw [show (UInt64.ofNat (decodeLE (d.take 8))).toNat = decodeLE (d.take 8) % 256 ^ 8 from rfl,
        encodeLE_decodeLE_of_length (by simp; omega), List.take_append_drop]
    · simp
  · rintro ⟨rfl, rfl⟩
    exact u64_reads v _ _

theorem run_u8_eq_some {b : UInt8} : u8.run s d = some (b, s', r) ↔ s' = s ∧ d = b :: r := by
  constructor
  · rw [run_u8]
    cases d with
    | nil => simp
    | cons b' r' =>
      simp only [Option.some.injEq, Prod.mk.injEq]
      rintro ⟨rfl, rfl, rfl⟩
      exact ⟨rfl, rfl⟩
  · rintro ⟨rfl, rfl⟩
    exact u8_reads b _ _

theorem run_field_eq_some {x : Bytes} :
    field.run s d = some (x, s', r) ↔ x.length < 2 ^ 32 ∧ s' = s ∧ d = framed x ++ r := by
  constructor
  · intro h
    obtain ⟨v, s₁, d₁, hv, ht⟩ := run_bind_eq_some.mp h
    obtain ⟨rfl, rfl⟩ := run_u32_eq_some.mp hv
    rw [run_take] at ht
    split at ht
    · next hle =>
      obtain ⟨rfl, rfl, rfl⟩ := ht
      have hlen : (d₁.take v.toNat).length = v.toNat := by simp; omega
      refine ⟨by rw [hlen]; exact v.toNat_lt_size, rfl, ?_⟩
      rw [framed, hlen, List.append_assoc, List.take_append_drop]
    · cases ht
  · rintro ⟨hx, rfl, rfl⟩
    exact field_reads hx _ _

theorem run_nested_eq_some {τ : Type} {c : Cursor τ Unit} {z t : τ} {sub : Bytes} :
    (nested c z sub : Cursor σ τ).run s d = some (t, s', r) ↔
      (∃ r₀, c.run z sub = some ((), t, r₀)) ∧ s' = s ∧ r = d := by
  simp only [nested]
  split
  · next a t' r' hc =>
    simp only [Option.some.injEq, Prod.mk.injEq]
    constructor
    · rintro ⟨rfl, rfl, rfl⟩
      exact ⟨⟨r', hc⟩, rfl, rfl⟩
    · rintro ⟨⟨r₀, h₀⟩, rfl, rfl⟩
      rw [hc, Option.some.injEq, Prod.mk.injEq, Prod.mk.injEq] at h₀
      exact ⟨h₀.2.1, rfl, rfl⟩
  · next hc => simp [hc]

end Cursor

end Zapdb
