import Mathlib

/-!
# The Go runtime the codec runs on

The package `pb` is plain Go over byte slices. This module models the part of the
language and of its runtime that the encoders and decoders touch.

* `Bytes` — a `[]byte`, and also a Go `string`, which is a byte sequence with no
  encoding check. A nil slice and an empty one are the same list.
* `GoM σ` — a method body run on a receiver of type `σ`. It falls through with a
  value, returns a non-nil `error` early, or **panics**; in every case it leaves the
  receiver in some state, so a failed `Unmarshal` keeps whatever it already wrote.
* `IntSize` — Go's `int`. The decoders convert `uint32` length prefixes to `int`
  and add them to offsets; whether that can wrap depends on the target's word size,
  so the decoders are written over an `IntSize`.
* The runtime checks of `data[a:]`, `data[a:b]`, `data[i]` and `make`: each one
  that fails is a panic, so a run that does not panic passed all of them.
-/

namespace Zapdb

/-- A Go `[]byte` or `string`. Nil and empty are the same value. -/
abbrev Bytes := List UInt8

/-- The errors the package returns. Only these two are ever returned:
`errInvalidData` is declared but unused. -/
inductive PbError where
  /-- `errBufferTooSmall`, every decoding failure. -/
  | bufferTooSmall
  /-- `io.ErrShortBuffer`, from `KV.MarshalToSizedBuffer`. -/
  | shortBuffer
  deriving DecidableEq, Repr

/-- The runtime errors a bounds or length check panics with. -/
inductive RuntimeError where
  /-- `index out of range`, from `x[i]` (and `binary.LittleEndian`'s `b[3]` hint). -/
  | indexOutOfRange
  /-- `slice bounds out of range`, from `x[a:b]`. -/
  | sliceOutOfRange
  /-- `makeslice: len out of range`, from `make` with a negative length. -/
  | makeLenOutOfRange
  /-- `invalid memory address or nil pointer dereference`. -/
  | nilDereference
  deriving DecidableEq, Repr

/-- How a piece of Go code ends. -/
inductive Exit (α : Type) where
  /-- it falls through (or returns a nil `error`) with a value -/
  | ok (a : α)
  /-- it returns the non-nil error `e` -/
  | err (e : PbError)
  /-- it panics -/
  | panic (p : RuntimeError)
  deriving DecidableEq, Repr

namespace Exit

variable {α β : Type}

/-- Sequencing: an error or a panic ends the code. -/
protected def bind (x : Exit α) (f : α → Exit β) : Exit β :=
  match x with
  | ok a => f a
  | err e => err e
  | panic p => panic p

instance : Monad Exit where
  pure := ok
  bind := Exit.bind

@[simp] theorem ok_bind (a : α) (f : α → Exit β) : (ok a >>= f) = f a := rfl

@[simp] theorem err_bind (e : PbError) (f : α → Exit β) : (err e >>= f) = err e := rfl

@[simp] theorem pure_eq (a : α) : (pure a : Exit α) = ok a := rfl

theorem pure_bind (a : α) (f : α → Exit β) : (pure a >>= f) = f a := rfl

end Exit

/-- A method body on a receiver of type `σ`: from the receiver's state it reaches
an `Exit` and a final state of the receiver, kept also when the body fails. -/
def GoM (σ α : Type) : Type := σ → Exit α × σ

namespace GoM

variable {σ α β : Type}

/-- Fall through with `a`, the receiver untouched. -/
protected def pure (a : α) : GoM σ α := fun s => (.ok a, s)

/-- Run `m`, then `f` on its value; an error or a panic skips `f`. -/
protected def bind (m : GoM σ α) (f : α → GoM σ β) : GoM σ β := fun s =>
  match m s with
  | (.ok a, s') => f a s'
  | (.err e, s') => (.err e, s')
  | (.panic p, s') => (.panic p, s')

instance : Monad (GoM σ) where
  pure := GoM.pure
  bind := GoM.bind

/-- `return e` for a non-nil error `e`. -/
def fail (e : PbError) : GoM σ α := fun s => (.err e, s)

/-- A runtime panic. -/
def panic (p : RuntimeError) : GoM σ α := fun s => (.panic p, s)

/-- An assignment to the receiver's fields. -/
def modify (f : σ → σ) : GoM σ Unit := fun s => (.ok (), f s)

/-- The receiver's current state. -/
def get : GoM σ σ := fun s => (.ok s, s)

/-- Lift the `Exit` of a call that does not touch the receiver. -/
def lift (x : Exit α) : GoM σ α := fun s => (x, s)

/-- Run `m` on `s` for the state it leaves, when it falls through: a Go function that
fills a buffer it allocated and returns it. -/
def exec (m : GoM σ α) (s : σ) : Exit σ :=
  match m s with
  | (.ok _, s') => .ok s'
  | (.err e, _) => .err e
  | (.panic p, _) => .panic p

@[simp] theorem pure_apply (a : α) (s : σ) : (pure a : GoM σ α) s = (.ok a, s) := rfl

@[simp] theorem fail_apply (e : PbError) (s : σ) : (fail e : GoM σ α) s = (.err e, s) := rfl

@[simp] theorem panic_apply (p : RuntimeError) (s : σ) :
    (panic p : GoM σ α) s = (.panic p, s) := rfl

@[simp] theorem modify_apply (f : σ → σ) (s : σ) : modify f s = (.ok (), f s) := rfl

@[simp] theorem get_apply (s : σ) : (get : GoM σ σ) s = (.ok s, s) := rfl

@[simp] theorem lift_apply (x : Exit α) (s : σ) : (lift x : GoM σ α) s = (x, s) := rfl

@[simp] theorem pure_bind (a : α) (f : α → GoM σ β) : (pure a >>= f) = f a := rfl

@[simp] theorem fail_bind (e : PbError) (f : α → GoM σ β) : (fail e >>= f) = fail e := rfl

@[simp] theorem panic_bind (p : RuntimeError) (f : α → GoM σ β) :
    (panic p >>= f) = panic p := rfl

@[simp] theorem modify_bind (g : σ → σ) (f : Unit → GoM σ β) :
    (modify g >>= f) = fun s => f () (g s) := rfl

@[simp] theorem get_bind (f : σ → GoM σ β) : (get >>= f) = fun s => f s s := rfl

@[simp] theorem lift_ok_bind (a : α) (f : α → GoM σ β) :
    (lift (.ok a) >>= f) = f a := rfl

theorem exec_of_ok {m : GoM σ α} {s s' : σ} {a : α} (h : m s = (.ok a, s')) :
    m.exec s = .ok s' := by
  simp only [exec, h]

theorem exec_of_panic {m : GoM σ α} {s : σ} {p : RuntimeError} (h : (m s).1 = .panic p) :
    m.exec s = .panic p := by
  unfold exec
  generalize m s = r at h ⊢
  obtain ⟨x, s'⟩ := r
  cases h
  rfl

theorem bind_assoc (m : GoM σ α) (f : α → GoM σ β) {γ : Type} (g : β → GoM σ γ) :
    (m >>= f) >>= g = m >>= fun a => f a >>= g := by
  funext s
  show GoM.bind (GoM.bind m f) g s = GoM.bind m (fun a => GoM.bind (f a) g) s
  unfold GoM.bind
  rcases m s with ⟨_ | _ | _, _⟩ <;> rfl

/-- A bind whose first computation falls through runs the continuation. -/
theorem bind_apply_ok {m : GoM σ α} {f : α → GoM σ β} {s s' : σ} {a : α}
    (h : m s = (.ok a, s')) : (m >>= f) s = f a s' := by
  show GoM.bind m f s = _
  simp only [GoM.bind, h]

/-- A bind whose first computation returns an error returns it. -/
theorem bind_apply_err {m : GoM σ α} {f : α → GoM σ β} {s s' : σ} {e : PbError}
    (h : m s = (.err e, s')) : (m >>= f) s = (.err e, s') := by
  show GoM.bind m f s = _
  simp only [GoM.bind, h]

/-- A bind whose first computation panics panics. -/
theorem bind_apply_panic {m : GoM σ α} {f : α → GoM σ β} {s s' : σ} {p : RuntimeError}
    (h : m s = (.panic p, s')) : (m >>= f) s = (.panic p, s') := by
  show GoM.bind m f s = _
  simp only [GoM.bind, h]

/-- The exit of a bind is an error when the first computation's is. -/
theorem bind_err_fst {m : GoM σ α} {f : α → GoM σ β} {s : σ} {e : PbError}
    (h : (m s).1 = .err e) : ((m >>= f) s).1 = .err e := by
  show (GoM.bind m f s).1 = _
  unfold GoM.bind
  generalize m s = r at h ⊢
  rcases r with ⟨_ | _ | _, _⟩ <;> simp_all

end GoM

/-! ## Go's `int` -/

/-- How Go's `int` computes: `exact` as the mathematical integers, `bits w` as the
`w`-bit two's complement integers of a target (`w = 64` on amd64 and arm64,
`w = 32` on 386 and arm). -/
inductive IntSize where
  | exact
  | bits (w : Nat)
  deriving DecidableEq, Repr

namespace IntSize

/-- The `int` an exact integer becomes: wrapped into `[-2^(w-1), 2^(w-1))`. -/
def wrap : IntSize → Int → Int
  | exact, x => x
  | bits w, x => x.bmod (2 ^ w)

/-- `a + b` on `int`. -/
def add (w : IntSize) (a b : Int) : Int := w.wrap (a + b)

/-- `int(u)` for a `uint32` value `u`. -/
def ofUInt32 (w : IntSize) (u : UInt32) : Int := w.wrap u.toNat

/-- On inputs of length `n`, `w` computes every `int` the decoders form exactly:
offsets stay in `[0, n]`, and the decoders add at most a `uint32` and a few bytes. -/
def Exact (w : IntSize) (n : Nat) : Prop :=
  ∀ x : Int, 0 ≤ x → x < n + 2 ^ 33 → w.wrap x = x

/-- `w` computes every `int` in `[0, n]` exactly. -/
def ExactTo (w : IntSize) (n : Nat) : Prop :=
  ∀ x : Int, 0 ≤ x → x ≤ n → w.wrap x = x

@[simp] theorem wrap_exact (x : Int) : exact.wrap x = x := rfl

theorem exact_exact (n : Nat) : exact.Exact n := fun _ _ _ => rfl

/-- **64-bit targets** compute exactly on every input shorter than `2^62` bytes. -/
theorem exact_bits64 {n : Nat} (h : n < 2 ^ 62) : (bits 64).Exact n := by
  intro x h₀ h₁
  have hx : x % ((2 ^ 64 : Nat) : Int) = x := Int.emod_eq_of_lt h₀ (by omega)
  rw [wrap, Int.bmod_pos x _ (by omega), hx]

/-- **32-bit targets** compute exactly every `int` below `2^31`. -/
theorem exactTo_bits32 {n : Nat} (h : n < 2 ^ 31) : (bits 32).ExactTo n := by
  intro x h₀ h₁
  have hx : x % ((2 ^ 32 : Nat) : Int) = x := Int.emod_eq_of_lt h₀ (by omega)
  rw [wrap, Int.bmod_pos x _ (by omega), hx]

section
variable {w : IntSize} {n : Nat}

theorem ExactTo.mono (hw : w.ExactTo n) {m : Nat} (h : m ≤ n) : w.ExactTo m :=
  fun x h₀ h₁ => hw x h₀ (by omega)

theorem ExactTo.ofUInt32 (hw : w.ExactTo n) (u : UInt32) (h : u.toNat ≤ n) :
    w.ofUInt32 u = u.toNat :=
  hw _ (by omega) (by omega)

theorem ExactTo.add (hw : w.ExactTo n) {a b : Nat} (h : a + b ≤ n) :
    w.add a b = ((a + b : Nat) : Int) := by
  rw [IntSize.add, ← Int.ofNat_add]
  exact hw _ (by omega) (by omega)

/-- `ExactTo.add` for a literal right operand, as in `offset += 4`. -/
theorem ExactTo.add_ofNat (hw : w.ExactTo n) {a : Nat} (b : Nat) (h : a + OfNat.ofNat b ≤ n) :
    w.add a (OfNat.ofNat b) = ((a + OfNat.ofNat b : Nat) : Int) :=
  hw.add h

/-- An input `int` is exact on is one it computes exactly up to `2^33` past its end. -/
theorem Exact.exactTo (hw : w.Exact n) {m : Nat} (h : m < n + 2 ^ 33) : w.ExactTo m :=
  fun x h₀ h₁ => hw x h₀ (by omega)

theorem Exact.ofUInt32 (hw : w.Exact n) (u : UInt32) : w.ofUInt32 u = u.toNat :=
  (hw.exactTo (show 2 ^ 32 < n + 2 ^ 33 by omega)).ofUInt32 u
    (by have := u.toNat_lt_size; simp only [UInt32.size] at this; omega)

theorem Exact.add (hw : w.Exact n) {a b : Nat} (h : a + b < n + 2 ^ 33) :
    w.add a b = ((a + b : Nat) : Int) :=
  (hw.exactTo h).add le_rfl

/-- `Exact.add` for a literal right operand, as in `offset += 4`. -/
theorem Exact.add_ofNat (hw : w.Exact n) {a : Nat} (b : Nat) (h : a + OfNat.ofNat b < n + 2 ^ 33) :
    w.add a (OfNat.ofNat b) = ((a + OfNat.ofNat b : Nat) : Int) :=
  hw.add h

/-- What is exact on longer inputs is exact on shorter ones. -/
theorem Exact.mono (hw : w.Exact n) {m : Nat} (h : m ≤ n) : w.Exact m :=
  fun x h₀ h₁ => hw x h₀ (by omega)

end

end IntSize

/-! ## Slices -/

section Slices

variable {σ α : Type}

/-- `data[a:]`, which panics unless `0 ≤ a ≤ len(data)`. -/
def sliceFrom (data : Bytes) (a : Int) : GoM σ Bytes :=
  if 0 ≤ a ∧ a ≤ data.length then pure (data.drop a.toNat) else GoM.panic .sliceOutOfRange

/-- `data[a:b]`, which panics unless `0 ≤ a ≤ b ≤ len(data)`. -/
def slice (data : Bytes) (a b : Int) : GoM σ Bytes :=
  if 0 ≤ a ∧ a ≤ b ∧ b ≤ data.length then pure ((data.drop a.toNat).take (b - a).toNat)
  else GoM.panic .sliceOutOfRange

/-- `data[i]`, which panics unless `0 ≤ i < len(data)`. -/
def index (data : Bytes) (i : Int) : GoM σ UInt8 :=
  if 0 ≤ i ∧ i < data.length then pure (data.getD i.toNat 0) else GoM.panic .indexOutOfRange

/-- `make([]T, n)` for a `T` with zero value `z`, which panics when `n < 0`. Go's
`makeslice` also panics when `n` times the size of `T` overflows or exceeds `maxAlloc`
(with a 32-bit `int`, a slice of at least `2^30` pointers), and the process dies when
the allocator cannot supply the memory. Neither is modelled: memory here is unbounded. -/
def make (n : Int) (z : α) : GoM σ (List α) :=
  if 0 ≤ n then pure (List.replicate n.toNat z) else GoM.panic .makeLenOutOfRange

/-- `copy(dst, src)`: the first `min(len(dst), len(src))` elements of `dst` become
those of `src`. -/
def copy (dst src : List α) : List α := src.take dst.length ++ dst.drop src.length

@[simp] theorem sliceFrom_natCast {data : Bytes} {o : Nat} (h : o ≤ data.length) :
    (sliceFrom data o : GoM σ Bytes) = pure (data.drop o) := by
  rw [sliceFrom, if_pos ⟨by omega, by omega⟩, Int.toNat_ofNat]

@[simp] theorem slice_natCast {data : Bytes} {o n : Nat} (h : o + n ≤ data.length) :
    (slice data o ((o + n : Nat) : Int) : GoM σ Bytes) = pure ((data.drop o).take n) := by
  rw [slice, if_pos ⟨by omega, by omega, by omega⟩, Int.toNat_ofNat,
    show ((o + n : Nat) : Int) - o = n by omega, Int.toNat_ofNat]

@[simp] theorem index_natCast {data : Bytes} {o : Nat} (h : o < data.length) :
    (index data o : GoM σ UInt8) = pure (data.getD o 0) := by
  rw [index, if_pos ⟨by omega, by omega⟩, Int.toNat_ofNat]

@[simp] theorem make_natCast (n : Nat) (z : α) :
    (make n z : GoM σ (List α)) = pure (List.replicate n z) := by
  rw [make, if_pos (by omega), Int.toNat_ofNat]

theorem copy_replicate {n : Nat} (z : α) {src : List α} (h : src.length = n) :
    copy (List.replicate n z) src = src := by
  simp [copy, ← h]

end Slices

end Zapdb
