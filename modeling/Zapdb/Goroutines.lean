import Zapdb.Totals

/-!
# Goroutines: the exported functions one atomic operation at a time

The storage engine calls the package's exported functions from many goroutines at
once. `Call.run` treats each call as one step, but `(*Map).Add` and `(*Map).Set` are
not one atomic operation. Each is a few operations on the map's `sync.Map` (`Load`,
`LoadOrStore`, `Store`), on an `Int`'s `atomic.Int64`, and on the map's `keysMu`:

```
func (v *Map) addKey(key string) {
	v.keysMu.Lock()
	defer v.keysMu.Unlock()
	i, found := slices.BinarySearch(v.keys, key)
	if found {
		return
	}
	v.keys = slices.Insert(v.keys, i, key)
}

func (v *Map) Add(key string, delta int64) {
	i, ok := v.m.Load(key)
	if !ok {
		var dup bool
		i, dup = v.m.LoadOrStore(key, new(Int))
		if !dup {
			v.addKey(key)
		}
	}
	if iv, ok := i.(*Int); ok {
		iv.Add(delta)
	}
}

func (v *Map) Set(key string, av Var) {
	if _, ok := v.m.Load(key); !ok {
		if _, dup := v.m.LoadOrStore(key, av); !dup {
			v.addKey(key)
			return
		}
	}
	v.m.Store(key, av)
}
```

This module runs each goroutine one such operation at a time (`Call.step`), in any
order a scheduler picks (`Sys.exec`). `addKey` is two steps: `keysMu.Lock()`, at
which a goroutine waits while another holds the lock, and the insertion into the
sorted key list with the deferred `Unlock`. The model keeps the locks (`Sys.keysMu`)
and leaves out the key list, which only `Map.Do` and `Map.String` read.

Each `sync.Map` method is one step: the map's own mutex is held only inside a method,
never across one, so a method is atomic to its callers. The package's own code reads
only its variables, which `init` set before any goroutine ran.

`exec_alone` ties the two models together: a goroutine that runs alone ends exactly as
`Call.run` does, on every world, panics included.
-/

namespace Zapdb

namespace Expvar

/-- `v.m.LoadOrStore(key, av)` on the `Map` cell `p`: what is under `key` and `true`,
or else `av`, now stored, and `false`. -/
def mapLoadOrStore (p : Nat) (key : String) (av : Var) : EStateM Panic Expvar (Var × Bool) :=
  fun e =>
    match e.maps p key with
    | some v => .ok (v, true) e
    | none => .ok (av, false) (e.storeAt p key av)

/-- The state `new(Int)` leaves: a zero cell at `nextInt`, reachable from nothing yet. -/
def alloc (e : Expvar) : Expvar :=
  { e with ints := Function.update e.ints e.nextInt 0, nextInt := e.nextInt + 1 }

end Expvar

namespace Y

open Expvar

/-! ## Goroutines -/

/-- Where a goroutine is inside an exported function. In `addKey`, `i` says where it goes
on: in `Map.Add`, to add to the variable `i` it holds; in `Map.Set` (`none`), to return. -/
inductive Pc where
  /-- called; nothing done yet -/
  | start
  /-- in `Map.Add` or `Map.Set` on the map cell `p`, after a `Load` that missed -/
  | loadOrStore (p : Nat)
  /-- in `addKey` on the map cell `p`, at `v.keysMu.Lock()` -/
  | lock (p : Nat) (i : Option Var)
  /-- in `addKey` on the map cell `p`, holding `v.keysMu`: about to insert the key into
  the sorted key list and unlock -/
  | unlock (p : Nat) (i : Option Var)
  /-- in `Map.Add`, holding the variable `i` found or stored under the key -/
  | add (i : Var)
  /-- in `Map.Set` on the map cell `p`, about to `Store` -/
  | store (p : Nat)
  /-- returned `r` -/
  | done (r : Option Var)
  deriving DecidableEq, Repr

/-- Where a goroutine goes on after `addKey`: the add to `i` in `Map.Add`, and the return
in `Map.Set`. -/
def Pc.afterAddKey : Option Var → Pc
  | some i => .add i
  | none => .done none

/-- The first step of `addToMap(enabled, metric, key, val)`. A disabled call returns.
Otherwise `metric.Add(key, val)` begins with `i, ok := v.m.Load(key)`, which panics on
a nil `*Map`. -/
def addToMapLoad (enabled : Bool) (metric : Option Nat) (key : String) : EStateM Panic Expvar Pc :=
  if !enabled then pure (.done none) else do
    let some p := metric | throw .nilDereference
    match ← mapLoad p key with
    | some i => pure (.add i)
    | none => pure (.loadOrStore p)

/-- `Map.Add` after a `Load` that missed: `i, dup = v.m.LoadOrStore(key, new(Int))`, then
`addKey` if it stored. The `Int` is allocated whether or not it is stored. -/
def addLoadOrStore (p : Nat) (key : String) : EStateM Panic Expvar Pc := do
  let q ← newIntCell
  let (i, dup) ← mapLoadOrStore p key (.int q)
  pure (if dup then .add i else .lock p (some i))

/-- The end of `Map.Add`: `iv.Add(delta)` when `i` is an `*Int`. -/
def addDelta (i : Var) (delta : Int64) : EStateM Panic Expvar Pc := do
  match i with
  | .int q => intAdd (some q) delta
  | _ => pure ()
  pure (.done none)

/-- The first step of `storeToMap(enabled, metric, key, val)`. A disabled call returns.
Otherwise `metric.Set(key, val)` begins with `_, ok := v.m.Load(key)`, which panics
on a nil `*Map`. -/
def storeToMapLoad (enabled : Bool) (metric : Option Nat) (key : String) :
    EStateM Panic Expvar Pc :=
  if !enabled then pure (.done none) else do
    let some p := metric | throw .nilDereference
    match ← mapLoad p key with
    | some _ => pure (.store p)
    | none => pure (.loadOrStore p)

/-- `Map.Set` after a `Load` that missed: `_, dup := v.m.LoadOrStore(key, av)`. It goes
on to `addKey` and returns when it stored `av`, and to `Store` when the key was taken
meanwhile. -/
def setLoadOrStore (p : Nat) (key : String) (av : Var) : EStateM Panic Expvar Pc := do
  let (_, dup) ← mapLoadOrStore p key av
  pure (if dup then .store p else .lock p none)

/-- The end of `Map.Set`: `v.m.Store(key, av)`. -/
def setStore (p : Nat) (key : String) (av : Var) : EStateM Panic Expvar Pc := do
  mapStore p key av
  pure (.done none)

/-- One step of a goroutine running call `c` from `pc`: one `sync.Map` operation or one
atomic add. A counter's `Add` and a `Get` are one such operation, and run as
`Call.run` does. `addKey`'s steps act on the locks, and `Sys.stepThread` takes them; no
goroutine reaches the other positions of the last line. -/
def Call.step : Call → Pc → EStateM Panic World Pc
  | .intAdd m enabled val, .start => do m.add enabled val; pure (.done none)
  | .tallyAdd m enabled key _, .start =>
    World.withGlobals fun g => addToMapLoad enabled (g.maps (.inl m)) key
  | .tallyAdd _ _ key _, .loadOrStore p => World.onExpvar (addLoadOrStore p key)
  | .tallyAdd _ _ _ val, .add i => World.onExpvar (addDelta i val)
  | .sizeSet m enabled key _, .start =>
    World.withGlobals fun g => storeToMapLoad enabled (g.maps (.inr m)) key
  | .sizeSet _ _ key val, .loadOrStore p => World.onExpvar (setLoadOrStore p key val)
  | .sizeSet _ _ key val, .store p => World.onExpvar (setStore p key val)
  | .lsmSizeGet enabled key, .start => do pure (.done (← Y.lsmSizeGet enabled key))
  | .vlogSizeGet enabled key, .start => do pure (.done (← Y.vlogSizeGet enabled key))
  | _, pc => pure pc

/-- A goroutine inside an exported function: its call, and where it is. -/
structure Thread where
  call : Call
  pc : Pc

/-- The call and what it returned, once the goroutine has returned. -/
def Thread.returned (t : Thread) : Option (Call × Option Var) :=
  match t.pc with
  | .done r => some (t.call, r)
  | _ => none

/-- The program: the world, whether each map's `keysMu` is locked, and the goroutines
that have called an exported function. -/
structure Sys where
  world : World
  keysMu : Nat → Bool
  threads : List Thread

/-- Goroutines about to run calls `cs` on world `w`, with every `keysMu` unlocked. -/
def Sys.start (w : World) (cs : List Call) : Sys :=
  ⟨w, fun _ => false, cs.map fun c => ⟨c, .start⟩⟩

/-- Goroutine `i` takes its next step. One that has returned, one waiting at a `keysMu`
another goroutine holds, or a number that names no goroutine, leaves the program as it
is. A panic ends the program. -/
def Sys.stepThread (s : Sys) (i : Nat) : Except Panic Sys :=
  match s.threads[i]? with
  | none => .ok s
  | some ⟨c, pc⟩ =>
    match pc with
    | .done _ => .ok s
    | .lock p next =>
      if s.keysMu p then .ok s
      else .ok ⟨s.world, Function.update s.keysMu p true, s.threads.set i ⟨c, .unlock p next⟩⟩
    | .unlock p next =>
      .ok ⟨s.world, Function.update s.keysMu p false, s.threads.set i ⟨c, Pc.afterAddKey next⟩⟩
    | pc =>
      match c.step pc s.world with
      | .ok pc' w' => .ok ⟨w', s.keysMu, s.threads.set i ⟨c, pc'⟩⟩
      | .error e _ => .error e

/-- Run the goroutines in the order a scheduler picks them. -/
def Sys.exec (s : Sys) : List Nat → Except Panic Sys
  | [] => .ok s
  | i :: sched => (s.stepThread i).bind fun s' => s'.exec sched

/-! ## What one step does

One lemma per position a goroutine can be at, giving the new position and world. -/

section Steps

variable {w : World}

theorem step_intAdd {m : IntMetric} {p : Nat} (hp : w.globals.ints m = some p) (val : Int64) :
    (Call.intAdd m true val).step .start w = .ok (.done none) ⟨w.expvar.addTo p val, w.globals⟩ := by
  simp only [Call.step, IntMetric.add_eq, intMetricAdd, World.withGlobals, bind, EStateM.bind,
    World.onExpvar, addInt, hp]
  rfl

theorem step_intAdd_disabled (m : IntMetric) (val : Int64) :
    (Call.intAdd m false val).step .start w = .ok (.done none) w := by
  rw [Call.step, IntMetric.add_eq]
  rfl

theorem step_tallyAdd_start {m : TallyMap} {p : Nat} (hp : w.globals.maps (.inl m) = some p)
    (key : String) (val : Int64) :
    (Call.tallyAdd m true key val).step .start w =
      .ok ((w.expvar.maps p key).elim (.loadOrStore p) .add) w := by
  rcases hi : w.expvar.maps p key with _ | i <;>
    simp only [Call.step, World.withGlobals, World.onExpvar, addToMapLoad, hp, Bool.not_true,
      Bool.false_eq_true, reduceIte, bind, EStateM.bind,
      mapLoad, hi] <;> rfl

theorem step_tallyAdd_loadOrStore_hit {m : TallyMap} {enabled : Bool} {key : String} {val : Int64}
    {p : Nat} {i : Var} (hi : w.expvar.maps p key = some i) :
    (Call.tallyAdd m enabled key val).step (.loadOrStore p) w =
      .ok (.add i) ⟨w.expvar.alloc, w.globals⟩ := by
  simp only [Call.step, World.onExpvar, addLoadOrStore, bind, EStateM.bind, newIntCell,
    mapLoadOrStore, hi]
  rfl

theorem step_tallyAdd_loadOrStore_miss {m : TallyMap} {enabled : Bool} {key : String}
    {val : Int64} {p : Nat} (hi : w.expvar.maps p key = none) :
    (Call.tallyAdd m enabled key val).step (.loadOrStore p) w =
      .ok (.lock p (some (.int w.expvar.nextInt))) ⟨w.expvar.withEntry p key ⟨0⟩, w.globals⟩ := by
  simp only [Call.step, World.onExpvar, addLoadOrStore, bind, EStateM.bind, newIntCell,
    mapLoadOrStore, hi]
  rfl

theorem step_tallyAdd_add (m : TallyMap) (enabled : Bool) (key : String) (val : Int64) (q : Nat) :
    (Call.tallyAdd m enabled key val).step (.add (.int q)) w =
      .ok (.done none) ⟨w.expvar.addTo q val, w.globals⟩ :=
  rfl

theorem step_sizeSet_start {m : SizeMap} {p : Nat} (hp : w.globals.maps (.inr m) = some p)
    (key : String) (val : Var) :
    (Call.sizeSet m true key val).step .start w =
      .ok ((w.expvar.maps p key).elim (.loadOrStore p) fun _ => .store p) w := by
  rcases hi : w.expvar.maps p key with _ | i <;>
    simp only [Call.step, World.withGlobals, World.onExpvar, storeToMapLoad, hp, Bool.not_true,
      Bool.false_eq_true, reduceIte, bind,
      EStateM.bind, mapLoad, hi] <;> rfl

theorem step_sizeSet_loadOrStore_hit {m : SizeMap} {enabled : Bool} {key : String} {val : Var}
    {p : Nat} {i : Var} (hi : w.expvar.maps p key = some i) :
    (Call.sizeSet m enabled key val).step (.loadOrStore p) w = .ok (.store p) w := by
  simp only [Call.step, World.onExpvar, setLoadOrStore, bind, EStateM.bind, mapLoadOrStore, hi]
  rfl

theorem step_sizeSet_loadOrStore_miss {m : SizeMap} {enabled : Bool} {key : String} {val : Var}
    {p : Nat} (hi : w.expvar.maps p key = none) :
    (Call.sizeSet m enabled key val).step (.loadOrStore p) w =
      .ok (.lock p none) ⟨w.expvar.storeAt p key val, w.globals⟩ := by
  simp only [Call.step, World.onExpvar, setLoadOrStore, bind, EStateM.bind, mapLoadOrStore, hi]
  rfl

theorem step_sizeSet_store (m : SizeMap) (enabled : Bool) (key : String) (val : Var) (p : Nat) :
    (Call.sizeSet m enabled key val).step (.store p) w =
      .ok (.done none) ⟨w.expvar.storeAt p key val, w.globals⟩ :=
  rfl

theorem step_tallyAdd_add_other {m : TallyMap} {enabled : Bool} {key : String} {val : Int64}
    {w : World} {v : Var} (hv : ∀ q, v ≠ .int q) :
    (Call.tallyAdd m enabled key val).step (.add v) w = .ok (.done none) w := by
  cases v with
  | int q => exact absurd rfl (hv q)
  | map _ | other _ => rfl

end Steps

/-! ## One step of the scheduler

One lemma per kind of position: the call's own step, a wait at a held lock, taking the
lock, leaving `addKey`, and a goroutine that has returned. -/

/-- The positions whose step is the call's own, `Call.step`. -/
def Pc.IsData : Pc → Prop
  | .start | .loadOrStore _ | .add _ | .store _ => True
  | _ => False

section StepThread

variable {s : Sys} {i : Nat} {c : Call}

theorem Sys.stepThread_ok {pc pc' : Pc} {w' : World} (ht : s.threads[i]? = some ⟨c, pc⟩)
    (hd : pc.IsData) (h : c.step pc s.world = .ok pc' w') :
    s.stepThread i = .ok ⟨w', s.keysMu, s.threads.set i ⟨c, pc'⟩⟩ := by
  cases pc <;> first | exact hd.elim | simp only [Sys.stepThread, ht, h]

theorem Sys.stepThread_error {pc : Pc} {w' : World} {e : Panic}
    (ht : s.threads[i]? = some ⟨c, pc⟩) (hd : pc.IsData) (h : c.step pc s.world = .error e w') :
    s.stepThread i = .error e := by
  cases pc <;> first | exact hd.elim | simp only [Sys.stepThread, ht, h]

/-- At `keysMu.Lock()` of a map whose lock is held, a goroutine waits. -/
theorem Sys.stepThread_wait {p : Nat} {next : Option Var}
    (ht : s.threads[i]? = some ⟨c, .lock p next⟩) (hp : s.keysMu p = true) :
    s.stepThread i = .ok s := by
  simp only [Sys.stepThread, ht, hp, if_true]

theorem Sys.stepThread_lock {p : Nat} {next : Option Var}
    (ht : s.threads[i]? = some ⟨c, .lock p next⟩) (hp : s.keysMu p = false) :
    s.stepThread i =
      .ok ⟨s.world, Function.update s.keysMu p true, s.threads.set i ⟨c, .unlock p next⟩⟩ := by
  simp only [Sys.stepThread, ht, hp, Bool.false_eq_true, if_false]

theorem Sys.stepThread_unlock {p : Nat} {next : Option Var}
    (ht : s.threads[i]? = some ⟨c, .unlock p next⟩) :
    s.stepThread i =
      .ok ⟨s.world, Function.update s.keysMu p false, s.threads.set i ⟨c, Pc.afterAddKey next⟩⟩ := by
  simp only [Sys.stepThread, ht]

theorem Sys.stepThread_done {r : Option Var} (ht : s.threads[i]? = some ⟨c, .done r⟩) :
    s.stepThread i = .ok s := by
  simp only [Sys.stepThread, ht]

end StepThread

/-! ## A goroutine alone -/

section Alone

variable {c : Call} {w w' : World} {κ : Nat → Bool} {sched : List Nat}

theorem exec_alone_ok {pc pc' : Pc} (h : c.step pc w = .ok pc' w') (hd : pc.IsData) :
    (⟨w, κ, [⟨c, pc⟩]⟩ : Sys).exec (0 :: sched) = (⟨w', κ, [⟨c, pc'⟩]⟩ : Sys).exec sched := by
  have ht : (⟨w, κ, [⟨c, pc⟩]⟩ : Sys).threads[0]? = some ⟨c, pc⟩ := rfl
  simp only [Sys.exec, Sys.stepThread_ok ht hd h, Except.bind, List.set_cons_zero]

theorem exec_alone_error {pc : Pc} {e : Panic} (h : c.step pc w = .error e w') (hd : pc.IsData) :
    (⟨w, κ, [⟨c, pc⟩]⟩ : Sys).exec (0 :: sched) = .error e := by
  have ht : (⟨w, κ, [⟨c, pc⟩]⟩ : Sys).threads[0]? = some ⟨c, pc⟩ := rfl
  simp only [Sys.exec, Sys.stepThread_error ht hd h, Except.bind]

/-- Alone, a goroutine passes `addKey` in two steps and leaves its `keysMu` as it found
it, unlocked. -/
theorem exec_alone_addKey {p : Nat} {next : Option Var} (hp : κ p = false) :
    (⟨w, κ, [⟨c, .lock p next⟩]⟩ : Sys).exec (0 :: 0 :: sched) =
      (⟨w, κ, [⟨c, Pc.afterAddKey next⟩]⟩ : Sys).exec sched := by
  have ht : (⟨w, κ, [⟨c, .lock p next⟩]⟩ : Sys).threads[0]? = some ⟨c, .lock p next⟩ := rfl
  have ht' : (⟨w, Function.update κ p true, [⟨c, .unlock p next⟩]⟩ : Sys).threads[0]? =
      some ⟨c, .unlock p next⟩ := rfl
  have hκ : Function.update κ p false = κ := by rw [← hp, Function.update_eq_self]
  simp only [Sys.exec, Sys.stepThread_lock ht hp, Except.bind, List.set_cons_zero,
    Sys.stepThread_unlock ht', Function.update_idem, hκ]

/-- A goroutine that has returned stays as it is. -/
theorem exec_alone_done {r : Option Var} :
    (⟨w, κ, [⟨c, .done r⟩]⟩ : Sys).exec sched = .ok ⟨w, κ, [⟨c, .done r⟩]⟩ := by
  induction sched with
  | nil => rfl
  | cons i sched ih =>
    have hst : (⟨w, κ, [⟨c, .done r⟩]⟩ : Sys).stepThread i = .ok ⟨w, κ, [⟨c, .done r⟩]⟩ := by
      cases i <;> rfl
    simp only [Sys.exec, hst, Except.bind, ih]

section RunEq

variable {w w' : World} {e : Panic}

theorem run_tallyAdd_ok {m : TallyMap} {enabled : Bool} {key : String} {val : Int64}
    (h : tallyMapAdd m enabled key val w = .ok () w') :
    Call.run (.tallyAdd m enabled key val) w = .ok none w' := by
  rw [Call.run, TallyMap.add_eq]
  exact EStateM.bind_apply_ok h

theorem run_tallyAdd_error {m : TallyMap} {enabled : Bool} {key : String} {val : Int64}
    (h : tallyMapAdd m enabled key val w = .error e w') :
    Call.run (.tallyAdd m enabled key val) w = .error e w' := by
  rw [Call.run, TallyMap.add_eq]
  exact EStateM.bind_apply_error h

theorem run_sizeSet_ok {m : SizeMap} {enabled : Bool} {key : String} {val : Var}
    (h : sizeMapSet m enabled key val w = .ok () w') :
    Call.run (.sizeSet m enabled key val) w = .ok none w' := by
  rw [Call.run, SizeMap.set_eq]
  exact EStateM.bind_apply_ok h

theorem run_sizeSet_error {m : SizeMap} {enabled : Bool} {key : String} {val : Var}
    (h : sizeMapSet m enabled key val w = .error e w') :
    Call.run (.sizeSet m enabled key val) w = .error e w' := by
  rw [Call.run, SizeMap.set_eq]
  exact EStateM.bind_apply_error h

end RunEq

/-- A call whose first step is the whole call, as `Call.run` runs it. -/
theorem exec_alone_one (h : c.step .start w = (c.run >>= fun r => pure (.done r)) w) :
    (⟨w, fun _ => false, [⟨c, .start⟩]⟩ : Sys).exec [0, 0, 0, 0, 0] =
      match c.run w with
      | .ok r w' => .ok ⟨w', fun _ => false, [⟨c, .done r⟩]⟩
      | .error e _ => .error e := by
  cases hr : c.run w with
  | ok r w' => rw [exec_alone_ok (h.trans (EStateM.bind_apply_ok hr)) trivial, exec_alone_done]
  | error e w' => exact exec_alone_error (h.trans (EStateM.bind_apply_error hr)) trivial

/-- An enabled add to a tally map whose variable is set: `Load`, then `LoadOrStore` and
`addKey` if the key is missing, then the add, end as `Map.Add` does in one step. -/
theorem exec_alone_tallyAdd {m : TallyMap} {key : String} {val : Int64} {p : Nat}
    (hp : w.globals.maps (.inl m) = some p) :
    (⟨w, fun _ => false, [⟨.tallyAdd m true key val, .start⟩]⟩ : Sys).exec [0, 0, 0, 0, 0] =
      match (Call.tallyAdd m true key val).run w with
      | .ok r w' => .ok ⟨w', fun _ => false, [⟨.tallyAdd m true key val, .done r⟩]⟩
      | .error e _ => .error e := by
  have hrun {e : Expvar} (he : mapAdd (some p) key val w.expvar = .ok () e) :
      Call.run (.tallyAdd m true key val) w = .ok none ⟨e, w.globals⟩ := by
    refine run_tallyAdd_ok ?_
    simp only [tallyMapAdd, World.withGlobals, hp]
    exact World.onExpvar_ok he
  have hstart := step_tallyAdd_start hp key val
  cases hi : w.expvar.maps p key with
  | none =>
    simp only [hi, Option.elim] at hstart
    rw [exec_alone_ok hstart trivial, exec_alone_ok (step_tallyAdd_loadOrStore_miss hi) trivial,
      exec_alone_addKey rfl, Pc.afterAddKey,
      exec_alone_ok (step_tallyAdd_add m true key val w.expvar.nextInt) trivial,
      hrun (mapAdd_of_none val hi)]
    simp only [Sys.exec, addTo_withEntry_zero]
  | some v =>
    simp only [hi, Option.elim] at hstart
    rw [exec_alone_ok hstart trivial]
    by_cases hv : ∃ q, v = .int q
    · obtain ⟨q, rfl⟩ := hv
      rw [exec_alone_ok (step_tallyAdd_add m true key val q) trivial, exec_alone_done,
        hrun (mapAdd_of_int val hi)]
    · rw [not_exists] at hv
      rw [exec_alone_ok (step_tallyAdd_add_other hv) trivial, exec_alone_done,
        hrun (mapAdd_of_other val hi hv)]

/-- An enabled `Set` of a size map whose variable is set: `Load`, then `LoadOrStore` and
`addKey`, or `Store`, end as `Map.Set` does in one step. -/
theorem exec_alone_sizeSet {m : SizeMap} {key : String} {val : Var} {p : Nat}
    (hp : w.globals.maps (.inr m) = some p) :
    (⟨w, fun _ => false, [⟨.sizeSet m true key val, .start⟩]⟩ : Sys).exec [0, 0, 0, 0, 0] =
      match (Call.sizeSet m true key val).run w with
      | .ok r w' => .ok ⟨w', fun _ => false, [⟨.sizeSet m true key val, .done r⟩]⟩
      | .error e _ => .error e := by
  have hrun : Call.run (.sizeSet m true key val) w =
      .ok none ⟨w.expvar.storeAt p key val, w.globals⟩ := by
    refine run_sizeSet_ok ?_
    simp only [sizeMapSet, World.withGlobals, hp]
    exact World.onExpvar_ok (mapSet_some p key val w.expvar)
  have hstart := step_sizeSet_start hp key val
  cases hi : w.expvar.maps p key with
  | none =>
    simp only [hi, Option.elim] at hstart
    rw [exec_alone_ok hstart trivial, exec_alone_ok (step_sizeSet_loadOrStore_miss hi) trivial,
      exec_alone_addKey rfl, Pc.afterAddKey, exec_alone_done, hrun]
  | some v =>
    simp only [hi, Option.elim] at hstart
    rw [exec_alone_ok hstart trivial, exec_alone_ok (step_sizeSet_store m true key val p) trivial,
      exec_alone_done, hrun]

end Alone

/-- **Alone, a goroutine does what its call does.** On any world, a goroutine that runs
with no other, with every `keysMu` unlocked, and is scheduled five times ends as
`Call.run` does: with its world and its result, or with its panic, and every `keysMu`
unlocked again. -/
theorem exec_alone (c : Call) (w : World) :
    (Sys.start w [c]).exec [0, 0, 0, 0, 0] =
      match c.run w with
      | .ok r w' => .ok ⟨w', fun _ => false, [⟨c, .done r⟩]⟩
      | .error e _ => .error e := by
  rw [show Sys.start w [c] = ⟨w, fun _ => false, [⟨c, .start⟩]⟩ from rfl]
  cases c with
  | intAdd m enabled val =>
    refine exec_alone_one ?_
    simp only [Call.step, Call.run, bind, EStateM.bind]
    cases m.add enabled val w <;> rfl
  | tallyAdd m enabled key val =>
    cases enabled
    · refine exec_alone_one (Eq.trans ?_ (EStateM.bind_apply_ok
        (run_tallyAdd_ok (show tallyMapAdd m false key val w = .ok () w from rfl))).symm)
      rfl
    cases hp : w.globals.maps (.inl m) with
    | none =>
      refine exec_alone_one (Eq.trans ?_ (EStateM.bind_apply_error (run_tallyAdd_error
        (show tallyMapAdd m true key val w = .error .nilDereference w by
          simp only [tallyMapAdd, World.withGlobals, hp]; rfl))).symm)
      simp only [Call.step, World.withGlobals, hp]
      rfl
    | some p => exact exec_alone_tallyAdd hp
  | sizeSet m enabled key val =>
    cases enabled
    · refine exec_alone_one (Eq.trans ?_ (EStateM.bind_apply_ok
        (run_sizeSet_ok (show sizeMapSet m false key val w = .ok () w from rfl))).symm)
      rfl
    cases hp : w.globals.maps (.inr m) with
    | none =>
      refine exec_alone_one (Eq.trans ?_ (EStateM.bind_apply_error (run_sizeSet_error
        (show sizeMapSet m true key val w = .error .nilDereference w by
          simp only [sizeMapSet, World.withGlobals, hp]; rfl))).symm)
      simp only [Call.step, World.withGlobals, hp]
      rfl
    | some p => exact exec_alone_sizeSet hp
  | lsmSizeGet | vlogSizeGet => exact exec_alone_one rfl

end Y

end Zapdb
