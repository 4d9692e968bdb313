import Zapdb.Expvar

/-!
# Package `y`'s metrics

`y/metrics.go` keeps the storage engine's metrics in 19 package variables: 13
`*expvar.Int`s and 6 `*expvar.Map`s, each published under a name that starts with
`badger_`.

* `init` runs `initMetrics` once, through `metricsOnce.Do`. `initMetrics` points each
  variable at the variable already published under its name (`getOrCreateInt`,
  `getOrCreateMap`), and creates and publishes one only when the name is free. So a
  second copy of the package in one binary shares the first copy's variables instead
  of panicking in `Publish`.
* 21 exported functions update or read one variable each, through `addInt`,
  `addToMap`, `storeToMap` and `getFromMap`. These do nothing, and return nil, when
  `enabled` is false.

The six maps fall in two groups, by the exported functions that use them. The package
adds to three tally maps (`NumBytesCompactionWrittenAdd`, `NumLSMBloomHitsAdd`,
`NumLSMGetsAdd`). It stores into three size maps (`LSMSizeSet`, `VlogSizeSet`,
`PendingWritesSet`) and reads two of them back (`LSMSizeGet`, `VlogSizeGet`).
-/

namespace Zapdb

namespace Y

/-! ## The variables -/

/-- The package's `*expvar.Int` variables. -/
inductive IntMetric where
  | numReadsVlog | numWritesVlog | numBytesReadVlog | numBytesVlogWritten
  | numBytesReadLSM | numBytesWrittenToL0
  | numGets | numGetsWithResults | numIteratorsCreated | numPuts | numMemtableGets
  | numCompactionTables | numBytesWrittenUser
  deriving DecidableEq, Repr, Fintype

/-- The `*expvar.Map` variables the package adds to. -/
inductive TallyMap where
  | numLSMGets | numBytesCompactionWritten | numLSMBloomHits
  deriving DecidableEq, Repr, Fintype

/-- The `*expvar.Map` variables the package stores into. -/
inductive SizeMap where
  | lsmSize | vlogSize | pendingWrites
  deriving DecidableEq, Repr, Fintype

/-- One of the six `*expvar.Map` variables. -/
abbrev MapMetric := TallyMap ⊕ SizeMap

/-- One of the 19 variables. -/
abbrev Metric := IntMetric ⊕ MapMetric

/-- `BADGER_METRIC_PREFIX`. -/
def badgerMetricPrefix : String := "badger_"

/-- The name `initMetrics` publishes each variable under. -/
def Metric.name : Metric → String
  | .inl .numReadsVlog => badgerMetricPrefix ++ "read_num_vlog"
  | .inl .numBytesReadVlog => badgerMetricPrefix ++ "read_bytes_vlog"
  | .inl .numWritesVlog => badgerMetricPrefix ++ "write_num_vlog"
  | .inl .numBytesVlogWritten => badgerMetricPrefix ++ "write_bytes_vlog"
  | .inl .numBytesReadLSM => badgerMetricPrefix ++ "read_bytes_lsm"
  | .inl .numBytesWrittenToL0 => badgerMetricPrefix ++ "write_bytes_l0"
  | .inr (.inl .numBytesCompactionWritten) => badgerMetricPrefix ++ "write_bytes_compaction"
  | .inr (.inl .numLSMGets) => badgerMetricPrefix ++ "get_num_lsm"
  | .inr (.inl .numLSMBloomHits) => badgerMetricPrefix ++ "hit_num_lsm_bloom_filter"
  | .inl .numMemtableGets => badgerMetricPrefix ++ "get_num_memtable"
  | .inl .numGets => badgerMetricPrefix ++ "get_num_user"
  | .inl .numPuts => badgerMetricPrefix ++ "put_num_user"
  | .inl .numBytesWrittenUser => badgerMetricPrefix ++ "write_bytes_user"
  | .inl .numGetsWithResults => badgerMetricPrefix ++ "get_with_result_num_user"
  | .inl .numIteratorsCreated => badgerMetricPrefix ++ "iterator_num_user"
  | .inr (.inr .lsmSize) => badgerMetricPrefix ++ "size_bytes_lsm"
  | .inr (.inr .vlogSize) => badgerMetricPrefix ++ "size_bytes_vlog"
  | .inr (.inr .pendingWrites) => badgerMetricPrefix ++ "write_pending_num_memtable"
  | .inl .numCompactionTables => badgerMetricPrefix ++ "compaction_current_num_lsm"

/-- The `expvar.Var` a variable holds when it points at cell `p`. -/
def Metric.var : Metric → Nat → Var
  | .inl _ => .int
  | .inr _ => .map

/-- Package `y`'s variables: the 19 pointers, nil until `initMetrics`, and
`metricsOnce`. -/
structure Globals where
  ints : IntMetric → Option Nat
  maps : MapMetric → Option Nat
  metricsOnce : Bool

namespace Globals

/-- The variables before `init`: every pointer nil, `metricsOnce` not done. -/
def zero : Globals := ⟨fun _ => none, fun _ => none, false⟩

/-- The pointer a variable holds. -/
def ptr (g : Globals) : Metric → Option Nat
  | .inl m => g.ints m
  | .inr m => g.maps m

/-- The assignment `x = p`. -/
def setPtr (g : Globals) : Metric → Nat → Globals
  | .inl m, p => { g with ints := Function.update g.ints m (some p) }
  | .inr m, p => { g with maps := Function.update g.maps m (some p) }

@[simp] theorem ptr_setPtr_self (g : Globals) (x : Metric) (p : Nat) :
    (g.setPtr x p).ptr x = some p := by
  cases x <;> simp [setPtr, ptr]

theorem ptr_setPtr_of_ne (g : Globals) {x y : Metric} (h : y ≠ x) (p : Nat) :
    (g.setPtr x p).ptr y = g.ptr y := by
  rcases x with x | x <;> rcases y with y | y <;>
    simp_all [setPtr, ptr, Function.update_noteq]

end Globals

/-- The state package `y` runs on: `expvar`'s, and its own variables. -/
structure World where
  expvar : Expvar
  globals : Globals

/-- Run an `expvar` call from package `y`'s code. -/
def World.onExpvar {α : Type} (m : EStateM Panic Expvar α) : EStateM Panic World α := fun w =>
  match m w.expvar with
  | .ok a e => .ok a { w with expvar := e }
  | .error p e => .error p { w with expvar := e }

/-- Run an `expvar` call that reads package `y`'s variables. -/
def World.withGlobals {α : Type} (f : Globals → EStateM Panic Expvar α) :
    EStateM Panic World α := fun w =>
  World.onExpvar (f w.globals) w

/-! ## Registration -/

/-- `getOrCreateInt(name)`: the `*expvar.Int` published under `name`, or a new one.
`v.(*expvar.Int)` panics on a variable of another type. -/
def getOrCreateInt (name : String) : EStateM Panic Expvar Nat := do
  match ← Expvar.get name with
  | some (.int p) => pure p
  | some _ => throw .interfaceConversion
  | none => Expvar.newInt name

/-- `getOrCreateMap(name)`: the `*expvar.Map` published under `name`, or a new one. -/
def getOrCreateMap (name : String) : EStateM Panic Expvar Nat := do
  match ← Expvar.get name with
  | some (.map p) => pure p
  | some _ => throw .interfaceConversion
  | none => Expvar.newMap name

/-- One statement of `initMetrics`: `x = getOrCreateInt(name)` for an `*expvar.Int`
variable, `x = getOrCreateMap(name)` for an `*expvar.Map` one. -/
def initVar (x : Metric) : EStateM Panic World Unit := do
  let p ← World.onExpvar (match x with
    | .inl _ => getOrCreateInt x.name
    | .inr _ => getOrCreateMap x.name)
  modify fun w => { w with globals := w.globals.setPtr x p }

/-- The statements of `initMetrics`, in the source's order. -/
def initOrder : List Metric :=
  [.inl .numReadsVlog, .inl .numBytesReadVlog, .inl .numWritesVlog, .inl .numBytesVlogWritten,
    .inl .numBytesReadLSM, .inl .numBytesWrittenToL0, .inr (.inl .numBytesCompactionWritten),
    .inr (.inl .numLSMGets), .inr (.inl .numLSMBloomHits), .inl .numMemtableGets,
    .inl .numGets, .inl .numPuts, .inl .numBytesWrittenUser, .inl .numGetsWithResults,
    .inl .numIteratorsCreated, .inr (.inr .lsmSize), .inr (.inr .vlogSize),
    .inr (.inr .pendingWrites), .inl .numCompactionTables]

/-- `initMetrics()`. -/
def initMetrics : EStateM Panic World Unit := initOrder.forM initVar

/-- `init()`: `metricsOnce.Do(initMetrics)`. A `sync.Once` marks itself done when its
function returns, and also when it panics. -/
def init : EStateM Panic World Unit := fun w =>
  if w.globals.metricsOnce then .ok () w else
    match initMetrics w with
    | .ok a w' => .ok a { w' with globals := { w'.globals with metricsOnce := true } }
    | .error p w' => .error p { w' with globals := { w'.globals with metricsOnce := true } }

/-! ## Updates -/

/-- `addInt(enabled, metric, val)`. -/
def addInt (enabled : Bool) (metric : Option Nat) (val : Int64) : EStateM Panic Expvar Unit :=
  if !enabled then pure () else Expvar.intAdd metric val

/-- `addToMap(enabled, metric, key, val)`. -/
def addToMap (enabled : Bool) (metric : Option Nat) (key : String) (val : Int64) :
    EStateM Panic Expvar Unit :=
  if !enabled then pure () else Expvar.mapAdd metric key val

/-- `storeToMap(enabled, metric, key, val)`. -/
def storeToMap (enabled : Bool) (metric : Option Nat) (key : String) (val : Var) :
    EStateM Panic Expvar Unit :=
  if !enabled then pure () else Expvar.mapSet metric key val

/-- `getFromMap(enabled, metric, key)`. -/
def getFromMap (enabled : Bool) (metric : Option Nat) (key : String) :
    EStateM Panic Expvar (Option Var) :=
  if !enabled then pure none else Expvar.mapGet metric key

/-- The exported `Add` of an `*expvar.Int` variable: `addInt(enabled, m, val)`. -/
def intMetricAdd (m : IntMetric) (enabled : Bool) (val : Int64) : EStateM Panic World Unit :=
  World.withGlobals fun g => addInt enabled (g.ints m) val

/-- The exported `Add` of a tally map: `addToMap(enabled, m, key, val)`. -/
def tallyMapAdd (m : TallyMap) (enabled : Bool) (key : String) (val : Int64) :
    EStateM Panic World Unit :=
  World.withGlobals fun g => addToMap enabled (g.maps (.inl m)) key val

/-- The exported `Set` of a size map: `storeToMap(enabled, m, key, val)`. -/
def sizeMapSet (m : SizeMap) (enabled : Bool) (key : String) (val : Var) :
    EStateM Panic World Unit :=
  World.withGlobals fun g => storeToMap enabled (g.maps (.inr m)) key val

/-- The exported `Get` of a size map: `getFromMap(enabled, m, key)`. -/
def sizeMapGet (m : SizeMap) (enabled : Bool) (key : String) :
    EStateM Panic World (Option Var) :=
  World.withGlobals fun g => getFromMap enabled (g.maps (.inr m)) key

/-- `NumIteratorsCreatedAdd(enabled, val)`. -/
def numIteratorsCreatedAdd : Bool → Int64 → EStateM Panic World Unit :=
  intMetricAdd .numIteratorsCreated

/-- `NumGetsWithResultsAdd(enabled, val)`. -/
def numGetsWithResultsAdd : Bool → Int64 → EStateM Panic World Unit :=
  intMetricAdd .numGetsWithResults

/-- `NumReadsVlogAdd(enabled, val)`. -/
def numReadsVlogAdd : Bool → Int64 → EStateM Panic World Unit :=
  intMetricAdd .numReadsVlog

/-- `NumBytesWrittenUserAdd(enabled, val)`. -/
def numBytesWrittenUserAdd : Bool → Int64 → EStateM Panic World Unit :=
  intMetricAdd .numBytesWrittenUser

/-- `NumWritesVlogAdd(enabled, val)`. -/
def numWritesVlogAdd : Bool → Int64 → EStateM Panic World Unit :=
  intMetricAdd .numWritesVlog

/-- `NumBytesReadsVlogAdd(enabled, val)`: adds to `numBytesReadVlog`. -/
def numBytesReadsVlogAdd : Bool → Int64 → EStateM Panic World Unit :=
  intMetricAdd .numBytesReadVlog

/-- `NumBytesReadsLSMAdd(enabled, val)`: adds to `numBytesReadLSM`. -/
def numBytesReadsLSMAdd : Bool → Int64 → EStateM Panic World Unit :=
  intMetricAdd .numBytesReadLSM

/-- `NumBytesWrittenVlogAdd(enabled, val)`: adds to `numBytesVlogWritten`. -/
def numBytesWrittenVlogAdd : Bool → Int64 → EStateM Panic World Unit :=
  intMetricAdd .numBytesVlogWritten

/-- `NumBytesWrittenToL0Add(enabled, val)`. -/
def numBytesWrittenToL0Add : Bool → Int64 → EStateM Panic World Unit :=
  intMetricAdd .numBytesWrittenToL0

/-- `NumBytesCompactionWrittenAdd(enabled, key, val)`. -/
def numBytesCompactionWrittenAdd : Bool → String → Int64 → EStateM Panic World Unit :=
  tallyMapAdd .numBytesCompactionWritten

/-- `NumGetsAdd(enabled, val)`. -/
def numGetsAdd : Bool → Int64 → EStateM Panic World Unit :=
  intMetricAdd .numGets

/-- `NumPutsAdd(enabled, val)`. -/
def numPutsAdd : Bool → Int64 → EStateM Panic World Unit :=
  intMetricAdd .numPuts

/-- `NumMemtableGetsAdd(enabled, val)`. -/
def numMemtableGetsAdd : Bool → Int64 → EStateM Panic World Unit :=
  intMetricAdd .numMemtableGets

/-- `NumCompactionTablesAdd(enabled, val)`. -/
def numCompactionTablesAdd : Bool → Int64 → EStateM Panic World Unit :=
  intMetricAdd .numCompactionTables

/-- `LSMSizeSet(enabled, key, val)`. -/
def lsmSizeSet : Bool → String → Var → EStateM Panic World Unit :=
  sizeMapSet .lsmSize

/-- `VlogSizeSet(enabled, key, val)`. -/
def vlogSizeSet : Bool → String → Var → EStateM Panic World Unit :=
  sizeMapSet .vlogSize

/-- `PendingWritesSet(enabled, key, val)`. -/
def pendingWritesSet : Bool → String → Var → EStateM Panic World Unit :=
  sizeMapSet .pendingWrites

/-- `NumLSMBloomHitsAdd(enabled, key, val)`. -/
def numLSMBloomHitsAdd : Bool → String → Int64 → EStateM Panic World Unit :=
  tallyMapAdd .numLSMBloomHits

/-- `NumLSMGetsAdd(enabled, key, val)`. -/
def numLSMGetsAdd : Bool → String → Int64 → EStateM Panic World Unit :=
  tallyMapAdd .numLSMGets

/-- `LSMSizeGet(enabled, key)`. -/
def lsmSizeGet : Bool → String → EStateM Panic World (Option Var) :=
  sizeMapGet .lsmSize

/-- `VlogSizeGet(enabled, key)`. -/
def vlogSizeGet : Bool → String → EStateM Panic World (Option Var) :=
  sizeMapGet .vlogSize

/-! ## Calls of the exported functions -/

/-- The exported `Add` of each `*expvar.Int` variable. -/
def IntMetric.add : IntMetric → Bool → Int64 → EStateM Panic World Unit
  | .numReadsVlog => numReadsVlogAdd
  | .numWritesVlog => numWritesVlogAdd
  | .numBytesReadVlog => numBytesReadsVlogAdd
  | .numBytesVlogWritten => numBytesWrittenVlogAdd
  | .numBytesReadLSM => numBytesReadsLSMAdd
  | .numBytesWrittenToL0 => numBytesWrittenToL0Add
  | .numGets => numGetsAdd
  | .numGetsWithResults => numGetsWithResultsAdd
  | .numIteratorsCreated => numIteratorsCreatedAdd
  | .numPuts => numPutsAdd
  | .numMemtableGets => numMemtableGetsAdd
  | .numCompactionTables => numCompactionTablesAdd
  | .numBytesWrittenUser => numBytesWrittenUserAdd

/-- The exported `Add` of each tally map. -/
def TallyMap.add : TallyMap → Bool → String → Int64 → EStateM Panic World Unit
  | .numLSMGets => numLSMGetsAdd
  | .numBytesCompactionWritten => numBytesCompactionWrittenAdd
  | .numLSMBloomHits => numLSMBloomHitsAdd

/-- The exported `Set` of each size map. -/
def SizeMap.set : SizeMap → Bool → String → Var → EStateM Panic World Unit
  | .lsmSize => lsmSizeSet
  | .vlogSize => vlogSizeSet
  | .pendingWrites => pendingWritesSet

/-- A call of one of the 21 exported functions, with its arguments. -/
inductive Call where
  | intAdd (m : IntMetric) (enabled : Bool) (val : Int64)
  | tallyAdd (m : TallyMap) (enabled : Bool) (key : String) (val : Int64)
  | sizeSet (m : SizeMap) (enabled : Bool) (key : String) (val : Var)
  | lsmSizeGet (enabled : Bool) (key : String)
  | vlogSizeGet (enabled : Bool) (key : String)

/-- Run a call; the `Get`s return their variable, the others nil. -/
def Call.run : Call → EStateM Panic World (Option Var)
  | .intAdd m enabled val => do m.add enabled val; pure none
  | .tallyAdd m enabled key val => do m.add enabled key val; pure none
  | .sizeSet m enabled key val => do m.set enabled key val; pure none
  | .lsmSizeGet enabled key => Y.lsmSizeGet enabled key
  | .vlogSizeGet enabled key => Y.vlogSizeGet enabled key

/-- Run calls one after another, collecting what they return. -/
def runCalls : List Call → EStateM Panic World (List (Option Var))
  | [] => pure []
  | c :: cs => do
    let r ← c.run
    let rs ← runCalls cs
    pure (r :: rs)

theorem IntMetric.add_eq (m : IntMetric) : m.add = intMetricAdd m := by
  cases m <;> rfl

theorem TallyMap.add_eq (m : TallyMap) : m.add = tallyMapAdd m := by
  cases m <;> rfl

theorem SizeMap.set_eq (m : SizeMap) : m.set = sizeMapSet m := by
  cases m <;> rfl

end Y

end Zapdb
