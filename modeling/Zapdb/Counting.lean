import Zapdb.Registration

/-!
# Counting: the metrics as an abstract store

What the package's metrics are for is counting. A counter adds up every enabled `Add`
made to it, a tally map does the same for each key, and a size map keeps the last
enabled `Set` for each key. `Snapshot` states this, and the code is proved to refine
it.

* `World.cell` names the `Int` cell that each **owner** counts into: a counter
  variable, or one key of a tally map.
* `Separated` is the invariant. Every variable is set, the six maps are distinct cells,
  every tally entry is an `Int`, and no two owners share a cell. Under it, an add to one
  owner leaves every other owner's count alone.
* `Call.run_refines`: from a separated world, every exported call ends normally. It
  keeps the invariant, moves the observed `Snapshot` by `Snapshot.apply`, and returns
  `Snapshot.result`. `runCalls_refines` is its induction over a run.
-/

namespace Zapdb

namespace Y

/-! ## Owners and the separation invariant -/

/-- An owner of an `Int` cell that the package counts into. -/
inductive Owner where
  | counter (m : IntMetric)
  | tally (m : TallyMap) (key : String)
  deriving DecidableEq

/-- The entry under `key` of map variable `m`. -/
def World.entry (w : World) (m : MapMetric) (key : String) : Option Var :=
  (w.globals.maps m).bind fun p => w.expvar.maps p key

/-- The `Int` cell an owner counts into, once it has one. -/
def World.cell (w : World) : Owner → Option Nat
  | .counter m => w.globals.ints m
  | .tally m key =>
    match w.entry (.inl m) key with
    | some (.int q) => some q
    | _ => none

/-- **Separation**, the invariant under which the metrics count as intended. -/
structure Separated (w : World) : Prop where
  /-- every `*expvar.Int` variable is set -/
  ints_set : ∀ m, ∃ p, w.globals.ints m = some p
  /-- every `*expvar.Map` variable is set -/
  maps_set : ∀ m, ∃ p, w.globals.maps m = some p
  /-- no two `*expvar.Map` variables share a cell -/
  maps_inj : ∀ m m' p, w.globals.maps m = some p → w.globals.maps m' = some p → m = m'
  /-- every entry of a tally map is an `Int` -/
  tally_int : ∀ m key v, w.entry (.inl m) key = some v → ∃ q, v = .int q
  /-- no two owners share a cell -/
  cell_inj : ∀ o o' q, w.cell o = some q → w.cell o' = some q → o = o'
  /-- every owned cell is allocated -/
  cell_lt : ∀ o q, w.cell o = some q → q < w.expvar.nextInt

/-! ## The abstract store -/

/-- What the metrics hold: each owner's count (none for a tally key never added to),
and each size map's entries. -/
@[ext]
structure Snapshot where
  counts : Owner → Option UInt64
  sizes : SizeMap → String → Option Var

/-- The store a world shows. -/
def World.observe (w : World) : Snapshot where
  counts o := (w.cell o).map w.expvar.ints
  sizes m key := w.entry (.inr m) key

namespace Snapshot

/-- `delta` added to owner `o`'s count, from zero when it has none. -/
def add (a : Snapshot) (o : Owner) (delta : Int64) : Snapshot :=
  { a with counts := Function.update a.counts o (some ((a.counts o).getD 0 + delta.toUInt64)) }

/-- `v` stored under `key` in size map `m`. -/
def set (a : Snapshot) (m : SizeMap) (key : String) (v : Var) : Snapshot :=
  { a with sizes := Function.update a.sizes m (Function.update (a.sizes m) key (some v)) }

/-- An exported call as the store sees it. A disabled call changes nothing. -/
def apply (a : Snapshot) : Call → Snapshot
  | .intAdd m enabled val => if enabled then a.add (.counter m) val else a
  | .tallyAdd m enabled key val => if enabled then a.add (.tally m key) val else a
  | .sizeSet m enabled key val => if enabled then a.set m key val else a
  | .lsmSizeGet _ _ | .vlogSizeGet _ _ => a

/-- What a call returns: an enabled `Get` reads its size map, everything else is nil. -/
def result (a : Snapshot) : Call → Option Var
  | .lsmSizeGet enabled key => if enabled then a.sizes .lsmSize key else none
  | .vlogSizeGet enabled key => if enabled then a.sizes .vlogSize key else none
  | _ => none

/-- The store after a run of calls. -/
def applyAll (a : Snapshot) (cs : List Call) : Snapshot := cs.foldl apply a

/-- What each call of a run returns. -/
def results : Snapshot → List Call → List (Option Var)
  | _, [] => []
  | a, c :: cs => a.result c :: results (a.apply c) cs

end Snapshot

/-! ## Frames: what an `expvar` step leaves alone -/

section Frame

variable {w : World}

/-- An add to a cell changes no owner's cell. -/
theorem cell_addTo (q : Nat) (d : Int64) (o : Owner) :
    (⟨w.expvar.addTo q d, w.globals⟩ : World).cell o = w.cell o :=
  rfl

/-- A store into map cell `p` changes exactly one entry, when `p` is one variable's cell. -/
theorem entry_storeAt (hs : Separated w) {m : MapMetric} {p : Nat} (hp : w.globals.maps m = some p)
    (key : String) (v : Var) (m' : MapMetric) (key' : String) :
    (⟨w.expvar.storeAt p key v, w.globals⟩ : World).entry m' key' =
      if m' = m ∧ key' = key then some v else w.entry m' key' := by
  obtain ⟨p', hp'⟩ := hs.maps_set m'
  simp only [World.entry, hp', Option.bind_some, Expvar.storeAt, Function.update_apply]
  by_cases hm : m' = m
  · subst hm
    cases hp.symm.trans hp'
    by_cases hk : key' = key <;> simp [hk]
  · have hpp : p' ≠ p := fun h => hm (hs.maps_inj _ _ _ hp' (h ▸ hp))
    simp [hm, hpp]

/-- A first add stores the new cell's `Int` under its key, as a store does. -/
theorem entry_withEntry (hs : Separated w) {m : MapMetric} {p : Nat}
    (hp : w.globals.maps m = some p) (key : String) (d : Int64) (m' : MapMetric) (key' : String) :
    (⟨w.expvar.withEntry p key d, w.globals⟩ : World).entry m' key' =
      if m' = m ∧ key' = key then some (.int w.expvar.nextInt) else w.entry m' key' :=
  entry_storeAt hs hp key _ m' key'

/-- What the first add of `key` to tally map `m` leaves: the key's owner gets the new
cell, and every other owner keeps its own. -/
theorem cell_withEntry (hs : Separated w) {m : TallyMap} {p : Nat}
    (hp : w.globals.maps (.inl m) = some p) (key : String) (d : Int64) (o : Owner) :
    (⟨w.expvar.withEntry p key d, w.globals⟩ : World).cell o =
      if o = .tally m key then some w.expvar.nextInt else w.cell o := by
  cases o with
  | counter m' => rfl
  | tally m' key' =>
    simp only [World.cell, entry_withEntry hs hp key d (.inl m') key', Sum.inl.injEq,
      Owner.tally.injEq]
    split_ifs <;> rfl

/-- A store into a size map changes no owner's cell. -/
theorem cell_storeAt (hs : Separated w) {m : SizeMap} {p : Nat}
    (hp : w.globals.maps (.inr m) = some p) (key : String) (v : Var) :
    (⟨w.expvar.storeAt p key v, w.globals⟩ : World).cell = w.cell := by
  funext o
  cases o with
  | counter m' => rfl
  | tally m' key' =>
    simp only [World.cell, entry_storeAt hs hp key v (.inl m') key', Sum.inl.injEq, reduceCtorEq,
      false_and, if_false]

end Frame

/-! ## The invariant and the store, step by step -/

section Step

variable {w : World} (hs : Separated w)
include hs

theorem Separated.addTo (q : Nat) (d : Int64) : Separated ⟨w.expvar.addTo q d, w.globals⟩ :=
  ⟨hs.1, hs.2, hs.3, hs.4, hs.5, hs.6⟩

theorem observe_addTo {o : Owner} {q : Nat} (hc : w.cell o = some q) (d : Int64) :
    (⟨w.expvar.addTo q d, w.globals⟩ : World).observe = w.observe.add o d := by
  refine Snapshot.ext (funext fun o' => ?_) rfl
  simp only [World.observe, Snapshot.add, cell_addTo, Expvar.addTo_ints]
  by_cases ho : o' = o
  · subst ho
    simp [hc]
  · rw [Function.update_noteq ho]
    cases hc' : w.cell o' with
    | none => rfl
    | some q' =>
      have hq : q' ≠ q := fun h => ho (hs.cell_inj _ _ _ hc' (h ▸ hc))
      simp [Function.update_noteq hq]

theorem Separated.withEntry {m : TallyMap} {p : Nat} (hp : w.globals.maps (.inl m) = some p)
    (key : String) (d : Int64) : Separated ⟨w.expvar.withEntry p key d, w.globals⟩ := by
  have hcell := cell_withEntry hs hp key d
  refine ⟨hs.ints_set, hs.maps_set, hs.maps_inj, fun m' key' v hv => ?_, fun o o' q ho ho' => ?_,
    fun o q ho => ?_⟩
  · rw [entry_withEntry hs hp key d (.inl m') key'] at hv
    split_ifs at hv
    · exact ⟨_, (Option.some_inj.mp hv).symm⟩
    · exact hs.tally_int m' key' v hv
  · rw [hcell] at ho ho'
    have hfresh : ∀ o'', w.cell o'' ≠ some w.expvar.nextInt := fun o'' h =>
      Nat.lt_irrefl _ (hs.cell_lt o'' _ h)
    split_ifs at ho ho' with h₁ h₂ h₂
    · exact h₁.trans h₂.symm
    · exact absurd (Option.some_inj.mp ho ▸ ho') (hfresh o')
    · exact absurd (Option.some_inj.mp ho' ▸ ho) (hfresh o)
    · exact hs.cell_inj o o' q ho ho'
  · rw [hcell] at ho
    show q < w.expvar.nextInt + 1
    split_ifs at ho
    · cases ho; exact Nat.lt_succ_self _
    · exact Nat.lt_succ_of_lt (hs.cell_lt o q ho)

theorem observe_withEntry {m : TallyMap} {p : Nat} (hp : w.globals.maps (.inl m) = some p)
    {key : String} (hn : w.entry (.inl m) key = none) (d : Int64) :
    (⟨w.expvar.withEntry p key d, w.globals⟩ : World).observe = w.observe.add (.tally m key) d := by
  have hcell := cell_withEntry hs hp key d
  refine Snapshot.ext (funext fun o => ?_) (funext fun m' => funext fun key' => ?_)
  · simp only [World.observe, Snapshot.add, hcell]
    split_ifs with ho
    · subst ho
      simp [World.cell, hn, Expvar.withEntry]
    · rw [Function.update_noteq ho]
      cases hc : w.cell o with
      | none => rfl
      | some q =>
        have hq : q ≠ w.expvar.nextInt := (hs.cell_lt o q hc).ne
        simp [Expvar.withEntry, Function.update_noteq hq]
  · exact (entry_withEntry hs hp key d (.inr m') key').trans (if_neg (by simp))

theorem Separated.storeAt {m : SizeMap} {p : Nat} (hp : w.globals.maps (.inr m) = some p)
    (key : String) (v : Var) : Separated ⟨w.expvar.storeAt p key v, w.globals⟩ := by
  have hcell := cell_storeAt hs hp key v
  refine ⟨hs.ints_set, hs.maps_set, hs.maps_inj, fun m' key' v' hv => ?_, fun o o' q => ?_,
    fun o q => ?_⟩
  · rw [entry_storeAt hs hp key v (.inl m') key', if_neg (by simp)] at hv
    exact hs.tally_int m' key' v' hv
  · rw [hcell]
    exact hs.cell_inj o o' q
  · rw [hcell]
    exact hs.cell_lt o q

theorem observe_storeAt {m : SizeMap} {p : Nat} (hp : w.globals.maps (.inr m) = some p)
    (key : String) (v : Var) :
    (⟨w.expvar.storeAt p key v, w.globals⟩ : World).observe = w.observe.set m key v := by
  refine Snapshot.ext (funext fun o => ?_) (funext fun m' => funext fun key' => ?_)
  · simp only [World.observe, Snapshot.set, cell_storeAt hs hp key v]
    rfl
  · simp only [World.observe, Snapshot.set, entry_storeAt hs hp key v (.inr m') key',
      Sum.inr.injEq, Function.update_apply]
    by_cases hm : m' = m
    · subst hm
      by_cases hk : key' = key
      · subst hk
        simp
      · simp [hk]
    · simp [hm]

end Step


/-! ## One call, and a run -/

theorem World.onExpvar_pure {α : Type} (a : α) (w : World) : World.onExpvar (pure a) w = .ok a w :=
  rfl

/-- What a map variable holds under `key`, read through its cell. -/
theorem entry_of_maps {w : World} {m : MapMetric} {p : Nat} (hp : w.globals.maps m = some p)
    (key : String) : w.entry m key = w.expvar.maps p key := by
  rw [World.entry, hp]
  rfl

section Refine

variable {w : World} (hs : Separated w)
include hs

/-- An enabled add to a counter: its cell gets `val`. -/
theorem intMetricAdd_refines (m : IntMetric) (val : Int64) :
    ∃ w', intMetricAdd m true val w = .ok () w' ∧ Separated w' ∧
      w'.observe = w.observe.add (.counter m) val := by
  obtain ⟨p, hp⟩ := hs.ints_set m
  exact ⟨_, World.onExpvar_ok (hp ▸ Expvar.intAdd_some p val _), hs.addTo p val,
    observe_addTo hs (show w.cell (.counter m) = some p from hp) val⟩

/-- An enabled add to a tally key: the key's cell gets `val`, created on a first add. -/
theorem tallyMapAdd_refines (m : TallyMap) (key : String) (val : Int64) :
    ∃ w', tallyMapAdd m true key val w = .ok () w' ∧ Separated w' ∧
      w'.observe = w.observe.add (.tally m key) val := by
  obtain ⟨p, hp⟩ := hs.maps_set (.inl m)
  have he := entry_of_maps hp key
  show ∃ w', World.onExpvar (Expvar.mapAdd (w.globals.maps (.inl m)) key val) w = _ ∧ _
  rw [hp]
  cases hv : w.entry (.inl m) key with
  | none =>
    exact ⟨_, World.onExpvar_ok (Expvar.mapAdd_of_none val (he ▸ hv)),
      hs.withEntry hp key val, observe_withEntry hs hp hv val⟩
  | some v =>
    obtain ⟨q, rfl⟩ := hs.tally_int m key v hv
    have hc : w.cell (.tally m key) = some q := by simp only [World.cell, hv]
    exact ⟨_, World.onExpvar_ok (Expvar.mapAdd_of_int val (he ▸ hv)),
      hs.addTo q val, observe_addTo hs hc val⟩

/-- An enabled `Set` of a size key. -/
theorem sizeMapSet_refines (m : SizeMap) (key : String) (val : Var) :
    ∃ w', sizeMapSet m true key val w = .ok () w' ∧ Separated w' ∧
      w'.observe = w.observe.set m key val := by
  obtain ⟨p, hp⟩ := hs.maps_set (.inr m)
  exact ⟨_, World.onExpvar_ok (hp ▸ Expvar.mapSet_some p key val _), hs.storeAt hp key val,
    observe_storeAt hs hp key val⟩

/-- An enabled `Get` of a size key reads the entry and changes nothing. -/
theorem sizeMapGet_refines (m : SizeMap) (key : String) :
    sizeMapGet m true key w = .ok (w.entry (.inr m) key) w := by
  obtain ⟨p, hp⟩ := hs.maps_set (.inr m)
  rw [entry_of_maps hp]
  exact World.onExpvar_ok (hp ▸ Expvar.mapGet_some p key _)

omit hs in
/-- A call that returns nil after a step refines as the step does. -/
theorem discard_refines {x : EStateM Panic World Unit} {P : World → Prop}
    (h : ∃ w', x w = .ok () w' ∧ P w') :
    ∃ w', (x >>= fun _ => (pure none : EStateM Panic World (Option Var))) w = .ok none w' ∧ P w' :=
  h.imp fun _ h => ⟨EStateM.bind_apply_ok h.1, h.2⟩

/-- **One exported call refines one store step.** From a separated world, every call of
an exported function ends normally. It keeps the invariant, moves the observed store by
`Snapshot.apply`, and returns `Snapshot.result`. A disabled call changes nothing. -/
theorem Call.run_refines (c : Call) :
    ∃ w', c.run w = .ok (w.observe.result c) w' ∧ Separated w' ∧ w'.observe = w.observe.apply c := by
  cases c with
  | intAdd m enabled val =>
    rw [Call.run, IntMetric.add_eq]
    cases enabled
    exacts [⟨w, rfl, hs, rfl⟩, discard_refines (intMetricAdd_refines hs m val)]
  | tallyAdd m enabled key val =>
    rw [Call.run, TallyMap.add_eq]
    cases enabled
    exacts [⟨w, rfl, hs, rfl⟩, discard_refines (tallyMapAdd_refines hs m key val)]
  | sizeSet m enabled key val =>
    rw [Call.run, SizeMap.set_eq]
    cases enabled
    exacts [⟨w, rfl, hs, rfl⟩, discard_refines (sizeMapSet_refines hs m key val)]
  | lsmSizeGet enabled key =>
    cases enabled
    exacts [⟨w, rfl, hs, rfl⟩, ⟨w, sizeMapGet_refines hs .lsmSize key, hs, rfl⟩]
  | vlogSizeGet enabled key =>
    cases enabled
    exacts [⟨w, rfl, hs, rfl⟩, ⟨w, sizeMapGet_refines hs .vlogSize key, hs, rfl⟩]

end Refine

/-- **Refinement over runs.** From a separated world, every run of exported calls ends
normally. It keeps the invariant, and the store it leaves and the values it returns
are those of the abstract run. -/
theorem runCalls_refines {w : World} (hs : Separated w) (cs : List Call) :
    ∃ w', runCalls cs w = .ok (w.observe.results cs) w' ∧ Separated w' ∧
      w'.observe = w.observe.applyAll cs := by
  induction cs generalizing w with
  | nil => exact ⟨w, rfl, hs, rfl⟩
  | cons c cs ih =>
    obtain ⟨w₁, h₁, hs₁, ho₁⟩ := Call.run_refines hs c
    obtain ⟨w', h', hs', ho'⟩ := ih hs₁
    refine ⟨w', ?_, hs', ho'.trans (by rw [ho₁]; rfl)⟩
    rw [runCalls, EStateM.bind_apply_ok h₁, EStateM.bind_apply_ok h', ho₁]
    rfl

end Y

end Zapdb
