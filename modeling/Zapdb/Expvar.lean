import Zapdb.Types

/-!
# The standard library's `expvar`, as package `y` uses it

Package `y` keeps its metrics in `expvar` variables: `*expvar.Int` counters and
`*expvar.Map`s of them, published under global names. This module models the part of
`expvar` that the package calls, as Go 1.23 implements it:

* the registry `vars`, read by `Get` and written by `Publish`, which panics on a name
  that is already taken;
* `NewInt` and `NewMap`, which allocate a zero `Int` or an empty `Map` and publish it;
* `(*Int).Add`, an atomic two's-complement add;
* `(*Map).Add`, `(*Map).Set` and `(*Map).Get` on the map's `sync.Map`.

The state is the registry and a heap of `Int` and `Map` cells, addressed by number.
The sorted key lists (`varKeys`, `Map.keys`) are read only by `Do`, `String` and the
HTTP handler, which the package never calls, so they are left out.

Here each operation is one step. `Goroutines` cuts `Map.Add` and `Map.Set` into their
`sync.Map` operations, and `Interleaving` proves that goroutines racing through those
steps end as some sequence of whole operations does.
-/

namespace Zapdb

/-- What the code of package `y` and the `expvar` calls under it can panic with. -/
inductive Panic where
  /-- `invalid memory address or nil pointer dereference`: a method of a nil `*Int` or
  `*Map` -/
  | nilDereference
  /-- `interface conversion`: `v.(*expvar.Int)` or `v.(*expvar.Map)` on a variable of
  another type -/
  | interfaceConversion
  /-- `log.Panicln("Reuse of exported var name:", name)`, from `expvar.Publish` -/
  | reuseOfExportedVarName (name : String)
  deriving DecidableEq, Repr

/-- An `expvar.Var` as `expvar` stores it. It is a pointer to an `Int` or a `Map` cell
of the heap, or a variable of another type (`Func`, `String`, `Float` or a caller's
own), known by its identity. -/
inductive Var where
  | int (p : Nat)
  | map (p : Nat)
  | other (id : Nat)
  deriving DecidableEq, Repr

/-- The state of package `expvar`. -/
structure Expvar where
  /-- `vars`, the published variables by name -/
  vars : String → Option Var
  /-- each `Int` cell's `atomic.Int64`, as its bit pattern -/
  ints : Nat → UInt64
  /-- each `Map` cell's `sync.Map` -/
  maps : Nat → String → Option Var
  /-- the first `Int` cell not yet allocated -/
  nextInt : Nat
  /-- the first `Map` cell not yet allocated -/
  nextMap : Nat

/-- A bind whose first computation ends normally runs the continuation. -/
theorem EStateM.bind_apply_ok {ε σ α β : Type} {x : EStateM ε σ α} {f : α → EStateM ε σ β}
    {s s' : σ} {a : α} (h : x s = .ok a s') : (x >>= f) s = f a s' := by
  show EStateM.bind x f s = _
  simp only [EStateM.bind, h]

/-- A bind whose first computation fails fails with it. -/
theorem EStateM.bind_apply_error {ε σ α β : Type} {x : EStateM ε σ α} {f : α → EStateM ε σ β}
    {s s' : σ} {e : ε} (h : x s = .error e s') : (x >>= f) s = .error e s' := by
  show EStateM.bind x f s = _
  simp only [EStateM.bind, h]

/-- A bind that ends normally went through its first computation. -/
theorem EStateM.bind_eq_ok {ε σ α β : Type} {x : EStateM ε σ α} {f : α → EStateM ε σ β}
    {s s'' : σ} {b : β} (h : (x >>= f) s = .ok b s'') : ∃ a s', x s = .ok a s' ∧ f a s' = .ok b s'' := by
  cases hx : x s with
  | ok a s' => exact ⟨a, s', rfl, by rwa [EStateM.bind_apply_ok hx] at h⟩
  | error e s' => rw [EStateM.bind_apply_error hx] at h; cases h

namespace Expvar

/-- The registry once `expvar`'s own `init` has run: it publishes `cmdline` and
`memstats`, two `Func`s. -/
def start : Expvar where
  vars := Function.update (Function.update (fun _ => none) "cmdline" (some (.other 0)))
    "memstats" (some (.other 1))
  ints := fun _ => 0
  maps := fun _ _ => none
  nextInt := 0
  nextMap := 0

/-- `expvar.Get(name)`: the published variable, or nil. -/
def get (name : String) : EStateM Panic Expvar (Option Var) := fun e => .ok (e.vars name) e

/-- `expvar.Publish(name, v)`: `vars.LoadOrStore(name, v)`, and a panic if the name
was taken. -/
def publish (name : String) (v : Var) : EStateM Panic Expvar Unit := fun e =>
  match e.vars name with
  | some _ => .error (.reuseOfExportedVarName name) e
  | none => .ok () { e with vars := Function.update e.vars name (some v) }

/-- `new(Int)`: a fresh zero cell. -/
def newIntCell : EStateM Panic Expvar Nat := fun e =>
  .ok e.nextInt { e with ints := Function.update e.ints e.nextInt 0, nextInt := e.nextInt + 1 }

/-- `new(Map).Init()`: a fresh empty cell. -/
def newMapCell : EStateM Panic Expvar Nat := fun e =>
  .ok e.nextMap
    { e with maps := Function.update e.maps e.nextMap (fun _ => none), nextMap := e.nextMap + 1 }

/-- `expvar.NewInt(name)`. -/
def newInt (name : String) : EStateM Panic Expvar Nat := do
  let v ← newIntCell
  publish name (.int v)
  pure v

/-- `expvar.NewMap(name)`. -/
def newMap (name : String) : EStateM Panic Expvar Nat := do
  let v ← newMapCell
  publish name (.map v)
  pure v

/-- `(*Int).Add(delta)`: `v.i.Add(delta)`. A nil `*Int` panics. -/
def intAdd (v : Option Nat) (delta : Int64) : EStateM Panic Expvar Unit := fun e =>
  match v with
  | none => .error .nilDereference e
  | some p => .ok () { e with ints := Function.update e.ints p (e.ints p + delta.toUInt64) }

/-- `v.m.Load(key)` on the `Map` cell `p`. -/
def mapLoad (p : Nat) (key : String) : EStateM Panic Expvar (Option Var) := fun e =>
  .ok (e.maps p key) e

/-- `v.m.Store(key, av)` on the `Map` cell `p`. -/
def mapStore (p : Nat) (key : String) (av : Var) : EStateM Panic Expvar Unit := fun e =>
  .ok () { e with maps := Function.update e.maps p (Function.update (e.maps p) key (some av)) }

/-- `(*Map).Add(key, delta)`. A first add stores a new `Int` under `key` with
`LoadOrStore(key, new(Int))`. The `Int` under `key` then gets `delta`; a variable of
another type there is left alone. A nil `*Map` panics. -/
def mapAdd (m : Option Nat) (key : String) (delta : Int64) : EStateM Panic Expvar Unit := do
  let some p := m | throw .nilDereference
  let i ← do
    match ← mapLoad p key with
    | some i => pure i
    | none =>
      let q ← newIntCell
      mapStore p key (.int q)
      pure (.int q)
  match i with
  | .int q => intAdd (some q) delta
  | _ => pure ()

/-- `(*Map).Set(key, av)`. Its `Load`, `LoadOrStore` and `Store` paths all leave `av`
under `key`; they differ only in `addKey`, which updates the sorted key list. A nil
`*Map` panics. -/
def mapSet (m : Option Nat) (key : String) (av : Var) : EStateM Panic Expvar Unit := do
  let some p := m | throw .nilDereference
  mapStore p key av

/-- `(*Map).Get(key)`: the variable under `key`, or nil. A nil `*Map` panics. -/
def mapGet (m : Option Nat) (key : String) : EStateM Panic Expvar (Option Var) := do
  let some p := m | throw .nilDereference
  mapLoad p key

/-! ## What each operation does

Each lemma gives an operation's result as a plain state, so later proofs cite it and
never unfold the operation. -/

/-- The state `NewInt(name)` leaves when `name` is free: a zero cell at `nextInt`,
published under `name`. -/
def withInt (e : Expvar) (name : String) : Expvar :=
  { e with vars := Function.update e.vars name (some (.int e.nextInt)),
           ints := Function.update e.ints e.nextInt 0, nextInt := e.nextInt + 1 }

/-- The state `NewMap(name)` leaves when `name` is free: an empty cell at `nextMap`,
published under `name`. -/
def withMap (e : Expvar) (name : String) : Expvar :=
  { e with vars := Function.update e.vars name (some (.map e.nextMap)),
           maps := Function.update e.maps e.nextMap (fun _ => none), nextMap := e.nextMap + 1 }

/-- `delta` added to the `Int` cell `q`. -/
def addTo (e : Expvar) (q : Nat) (delta : Int64) : Expvar :=
  { e with ints := Function.update e.ints q (e.ints q + delta.toUInt64) }

/-- `av` stored under `key` in the `Map` cell `p`. -/
def storeAt (e : Expvar) (p : Nat) (key : String) (av : Var) : Expvar :=
  { e with maps := Function.update e.maps p (Function.update (e.maps p) key (some av)) }

/-- The state a first `Add` of `key` leaves: a new `Int` at `nextInt` holding `delta`,
stored under `key` in the `Map` cell `p`. -/
def withEntry (e : Expvar) (p : Nat) (key : String) (delta : Int64) : Expvar :=
  { e.storeAt p key (.int e.nextInt) with
    ints := Function.update e.ints e.nextInt delta.toUInt64, nextInt := e.nextInt + 1 }

section Fields

variable (e : Expvar) (p q : Nat) (key : String) (av : Var) (delta : Int64)

@[simp] theorem addTo_ints : (e.addTo q delta).ints =
    Function.update e.ints q (e.ints q + delta.toUInt64) := rfl
@[simp] theorem addTo_maps : (e.addTo q delta).maps = e.maps := rfl
@[simp] theorem addTo_nextInt : (e.addTo q delta).nextInt = e.nextInt := rfl
@[simp] theorem storeAt_ints : (e.storeAt p key av).ints = e.ints := rfl
@[simp] theorem storeAt_maps : (e.storeAt p key av).maps =
    Function.update e.maps p (Function.update (e.maps p) key (some av)) := rfl
@[simp] theorem storeAt_nextInt : (e.storeAt p key av).nextInt = e.nextInt := rfl
@[simp] theorem withEntry_ints : (e.withEntry p key delta).ints =
    Function.update e.ints e.nextInt delta.toUInt64 := rfl
@[simp] theorem withEntry_maps : (e.withEntry p key delta).maps =
    (e.storeAt p key (.int e.nextInt)).maps := rfl
@[simp] theorem withEntry_nextInt : (e.withEntry p key delta).nextInt = e.nextInt + 1 := rfl

end Fields

theorem newInt_of_none {name : String} {e : Expvar} (h : e.vars name = none) :
    newInt name e = .ok e.nextInt (e.withInt name) := by
  simp only [newInt, bind, EStateM.bind, newIntCell, publish, h]
  rfl

theorem newMap_of_none {name : String} {e : Expvar} (h : e.vars name = none) :
    newMap name e = .ok e.nextMap (e.withMap name) := by
  simp only [newMap, bind, EStateM.bind, newMapCell, publish, h]
  rfl

theorem intAdd_some (p : Nat) (delta : Int64) (e : Expvar) :
    intAdd (some p) delta e = .ok () (e.addTo p delta) := rfl

theorem mapAdd_of_int {p q : Nat} {key : String} {e : Expvar} (delta : Int64)
    (h : e.maps p key = some (.int q)) : mapAdd (some p) key delta e = .ok () (e.addTo q delta) := by
  simp only [mapAdd, bind, EStateM.bind, mapLoad, h]
  rfl

theorem mapAdd_of_none {p : Nat} {key : String} {e : Expvar} (delta : Int64)
    (h : e.maps p key = none) : mapAdd (some p) key delta e = .ok () (e.withEntry p key delta) := by
  simp only [mapAdd, bind, EStateM.bind, mapLoad, h, newIntCell, mapStore, pure, EStateM.pure,
    intAdd, withEntry, storeAt, Function.update_same, Function.update_idem, zero_add]

theorem mapAdd_of_other {p : Nat} {key : String} {e : Expvar} {v : Var} (delta : Int64)
    (h : e.maps p key = some v) (hv : ∀ q, v ≠ .int q) : mapAdd (some p) key delta e = .ok () e := by
  cases v with
  | int q => exact absurd rfl (hv q)
  | map _ | other _ =>
    simp only [mapAdd, bind, EStateM.bind, mapLoad, h]
    rfl

/-- A first add is a store of a zero `Int` followed by an add to it. -/
theorem addTo_withEntry_zero (e : Expvar) (p : Nat) (key : String) (delta : Int64) :
    (e.withEntry p key ⟨0⟩).addTo e.nextInt delta = e.withEntry p key delta := by
  simp only [addTo, withEntry, Function.update_same, Function.update_idem, zero_add]

theorem mapSet_some (p : Nat) (key : String) (av : Var) (e : Expvar) :
    mapSet (some p) key av e = .ok () (e.storeAt p key av) := rfl

theorem mapGet_some (p : Nat) (key : String) (e : Expvar) :
    mapGet (some p) key e = .ok (e.maps p key) e := rfl

/-! ## Well-formed registries, and states that only grow -/

/-- **Well-formed**: every published `Int` or `Map` is an allocated cell, and no
variable is published under two names. `NewInt` and `NewMap` keep this; only a caller
that publishes one variable twice by hand breaks it. -/
structure WF (e : Expvar) : Prop where
  int_lt : ∀ n p, e.vars n = some (.int p) → p < e.nextInt
  map_lt : ∀ n p, e.vars n = some (.map p) → p < e.nextMap
  inj : ∀ n n' v, e.vars n = some v → e.vars n' = some v → n = n'

theorem wf_start : start.WF where
  int_lt n p h := by
    simp only [start, Function.update_apply] at h
    split_ifs at h <;> cases h
  map_lt n p h := by
    simp only [start, Function.update_apply] at h
    split_ifs at h <;> cases h
  inj n n' v h h' := by
    simp only [start, Function.update_apply] at h h'
    split_ifs at h h' <;> first | (subst_vars; rfl) | exact absurd (h.trans h'.symm) (by decide)

/-- Publishing a fresh cell under a free name keeps a registry well formed. -/
theorem WF.publish_fresh {e : Expvar} (hw : e.WF) {name : String} {v : Var} (hfresh : ∀ n, e.vars n ≠ some v) :
    ∀ n n' u, Function.update e.vars name (some v) n = some u →
      Function.update e.vars name (some v) n' = some u → n = n' := by
  intro n n' u hn hn'
  rw [Function.update_apply] at hn hn'
  split_ifs at hn hn' with h₁ h₂ h₂
  · exact h₁.trans h₂.symm
  · exact absurd (hn ▸ hn') (hfresh n')
  · exact absurd (hn' ▸ hn) (hfresh n)
  · exact hw.inj n n' u hn hn'

theorem WF.withInt {e : Expvar} (hw : e.WF) (name : String) :
    (e.withInt name).WF where
  int_lt n p hn := by
    simp only [Expvar.withInt, Function.update_apply] at hn ⊢
    split_ifs at hn
    · cases hn; omega
    · have := hw.int_lt n p hn; omega
  map_lt n p hn := by
    simp only [Expvar.withInt, Function.update_apply] at hn ⊢
    split_ifs at hn
    · cases hn
    · exact hw.map_lt n p hn
  inj := hw.publish_fresh fun n hn => absurd (hw.int_lt n _ hn) (Nat.lt_irrefl _)

theorem WF.withMap {e : Expvar} (hw : e.WF) (name : String) :
    (e.withMap name).WF where
  int_lt n p hn := by
    simp only [Expvar.withMap, Function.update_apply] at hn ⊢
    split_ifs at hn
    · cases hn
    · exact hw.int_lt n p hn
  map_lt n p hn := by
    simp only [Expvar.withMap, Function.update_apply] at hn ⊢
    split_ifs at hn
    · cases hn; omega
    · have := hw.map_lt n p hn; omega
  inj := hw.publish_fresh fun n hn => absurd (hw.map_lt n _ hn) (Nat.lt_irrefl _)

/-- `e'` keeps everything `e` has: its published variables, and the contents of its
allocated cells. -/
structure Grows (e e' : Expvar) : Prop where
  vars : ∀ n v, e.vars n = some v → e'.vars n = some v
  ints : ∀ p < e.nextInt, e'.ints p = e.ints p
  maps : ∀ p < e.nextMap, e'.maps p = e.maps p
  nextInt : e.nextInt ≤ e'.nextInt
  nextMap : e.nextMap ≤ e'.nextMap

theorem Grows.refl (e : Expvar) : Grows e e :=
  ⟨fun _ _ h => h, fun _ _ => rfl, fun _ _ => rfl, le_rfl, le_rfl⟩

theorem Grows.trans {e₁ e₂ e₃ : Expvar} (h₁ : Grows e₁ e₂) (h₂ : Grows e₂ e₃) : Grows e₁ e₃ :=
  ⟨fun n v h => h₂.vars n v (h₁.vars n v h),
    fun p hp => (h₂.ints p (by have := h₁.nextInt; omega)).trans (h₁.ints p hp),
    fun p hp => (h₂.maps p (by have := h₁.nextMap; omega)).trans (h₁.maps p hp),
    h₁.nextInt.trans h₂.nextInt, h₁.nextMap.trans h₂.nextMap⟩

theorem grows_withInt {e : Expvar} {name : String} (h : e.vars name = none) :
    Grows e (e.withInt name) where
  vars n v hn := (Function.update_noteq (by rintro rfl; simp_all) _ _).trans hn
  ints p hp := Function.update_noteq (by omega) _ _
  maps _ _ := rfl
  nextInt := Nat.le_succ _
  nextMap := le_rfl

theorem grows_withMap {e : Expvar} {name : String} (h : e.vars name = none) :
    Grows e (e.withMap name) where
  vars n v hn := (Function.update_noteq (by rintro rfl; simp_all) _ _).trans hn
  ints _ _ := rfl
  maps p hp := Function.update_noteq (by omega) _ _
  nextInt := le_rfl
  nextMap := Nat.le_succ _

end Expvar

end Zapdb
