import Zapdb.Counting

/-!
# What the metrics add up to

The abstract store of `Counting` in closed form, and the package's start-up.

* A count is the sum of the values of the enabled adds made to it, wrapped to 64 bits.
  Read as an `int64`, a counter shows the exact sum reduced into range, whatever
  overflowed on the way (`Int64.toInt_sum`). A size key holds the value of its last
  enabled `Set`.
* Counts depend only on which calls were made, not on their order (`counts_perm`).
  `Interleaving` shows that goroutines racing through the calls end as the calls run in
  some order, so with it this is the statement that no interleaving loses or duplicates
  an update.
* `init` on a fresh registry establishes `Separated` with an empty store
  (`init_separated`), so the closed forms hold from program start.
-/

namespace Zapdb

/-- The signed value of an `int64`. -/
def Int64.toInt (x : Int64) : Int := (x.toUInt64.toNat : Int).bmod (2 ^ 64)

/-- Two's-complement addition: the wrapped sum of `int64`s, read back as a signed value,
is the exact sum reduced into the `int64` range. -/
theorem Int64.toInt_sum (ds : List Int64) :
    ((ds.map Int64.toUInt64).sum.toNat : Int).bmod (2 ^ 64) = ((ds.map Int64.toInt).sum).bmod (2 ^ 64) := by
  induction ds with
  | nil => rfl
  | cons d ds ih =>
    rw [List.map_cons, List.sum_cons, List.map_cons, List.sum_cons, Int64.toInt,
      Int.bmod_add_bmod_congr, show (d.toUInt64 + (ds.map Int64.toUInt64).sum).toNat =
        (d.toUInt64.toNat + (ds.map Int64.toUInt64).sum.toNat) % 2 ^ 64 from rfl,
      Int.ofNat_emod, Int.emod_bmod, Int.ofNat_add, ← Int.add_bmod_bmod, ih, Int.add_bmod_bmod]

namespace Y

open Expvar

/-! ## The store in closed form -/

/-- The value of the enabled add that a call makes to owner `o`, if it makes one. -/
def Call.delta (o : Owner) : Call → Option Int64
  | .intAdd m enabled val => if enabled ∧ o = .counter m then some val else none
  | .tallyAdd m enabled key val => if enabled ∧ o = .tally m key then some val else none
  | _ => none

/-- The value that an enabled `Set` of a call stores under `key` in size map `m`. -/
def Call.stored (m : SizeMap) (key : String) : Call → Option Var
  | .sizeSet m' enabled key' val => if enabled ∧ m' = m ∧ key' = key then some val else none
  | _ => none

/-- Adding `d` to a count, from zero when there is none. -/
def addCount (x : Option UInt64) (d : Int64) : Option UInt64 := some (x.getD 0 + d.toUInt64)

namespace Snapshot

/-- The store when nothing has been counted: every counter zero, no tally key, no size
entry. -/
def zero : Snapshot where
  counts
    | .counter _ => some 0
    | .tally _ _ => none
  sizes _ _ := none

theorem apply_counts (a : Snapshot) (c : Call) (o : Owner) :
    (a.apply c).counts o = (c.delta o).elim (a.counts o) (addCount (a.counts o)) := by
  cases c with
  | intAdd m enabled val =>
    by_cases h : enabled ∧ o = .counter m
    · obtain ⟨rfl, rfl⟩ := h
      simp [apply, Call.delta, add, addCount]
    · cases enabled <;> simp_all [apply, Call.delta, add, Function.update_noteq]
  | tallyAdd m enabled key val =>
    by_cases h : enabled ∧ o = .tally m key
    · obtain ⟨rfl, rfl⟩ := h
      simp [apply, Call.delta, add, addCount]
    · cases enabled <;> simp_all [apply, Call.delta, add, Function.update_noteq]
  | sizeSet m enabled key val => cases enabled <;> rfl
  | lsmSizeGet | vlogSizeGet => rfl

theorem apply_sizes (a : Snapshot) (c : Call) (m : SizeMap) (key : String) :
    (a.apply c).sizes m key = (c.stored m key).or (a.sizes m key) := by
  cases c with
  | sizeSet m' enabled key' val =>
    by_cases h : enabled ∧ m' = m ∧ key' = key
    · obtain ⟨rfl, rfl, rfl⟩ := h
      simp [apply, Call.stored, set]
    · cases enabled
      · simp [apply, Call.stored]
      · by_cases hm : m = m'
        · subst hm
          have hk : key ≠ key' := fun hk => h ⟨rfl, rfl, hk.symm⟩
          simp [apply, Call.stored, set, hk, Ne.symm hk]
        · simp [apply, Call.stored, set, hm, Ne.symm hm]
  | intAdd _ enabled _ | tallyAdd _ enabled _ _ => cases enabled <;> rfl
  | lsmSizeGet | vlogSizeGet => rfl

theorem applyAll_counts (a : Snapshot) (cs : List Call) (o : Owner) :
    (a.applyAll cs).counts o = (cs.filterMap (Call.delta o)).foldl addCount (a.counts o) := by
  induction cs generalizing a with
  | nil => rfl
  | cons c cs ih =>
    show (applyAll (a.apply c) cs).counts o = _
    rw [ih, apply_counts, List.filterMap_cons]
    cases c.delta o <;> rfl

theorem applyAll_sizes (a : Snapshot) (cs : List Call) (m : SizeMap) (key : String) :
    (a.applyAll cs).sizes m key = (cs.filterMap (Call.stored m key)).getLast?.or (a.sizes m key) := by
  induction cs generalizing a with
  | nil => rfl
  | cons c cs ih =>
    show (applyAll (a.apply c) cs).sizes m key = _
    rw [ih, apply_sizes, List.filterMap_cons]
    cases c.stored m key with
    | none => rfl
    | some v =>
      show _ = (([v] ++ cs.filterMap (Call.stored m key)).getLast?).or _
      rw [List.getLast?_append]
      cases (cs.filterMap (Call.stored m key)).getLast? <;> rfl

theorem foldl_addCount (x : Option UInt64) (ds : List Int64) :
    ds.foldl addCount x = if ds = [] then x else some (x.getD 0 + (ds.map Int64.toUInt64).sum) := by
  induction ds generalizing x with
  | nil => rfl
  | cons d ds ih =>
    rw [List.foldl_cons, ih, if_neg (List.cons_ne_nil d ds), List.map_cons, List.sum_cons]
    split_ifs with h
    · subst h
      simp [addCount]
    · simp [addCount, add_assoc]

/-- **Order does not matter.** Two runs made of the same calls leave the same counts. -/
theorem counts_perm (a : Snapshot) {cs cs' : List Call} (h : cs.Perm cs') :
    (a.applyAll cs).counts = (a.applyAll cs').counts := by
  funext o
  have hp := h.filterMap (Call.delta o)
  rw [applyAll_counts, applyAll_counts, foldl_addCount, foldl_addCount, (hp.map _).sum_eq]
  by_cases hd : cs.filterMap (Call.delta o) = []
  · rw [if_pos hd, if_pos (hd ▸ hp).symm.eq_nil]
  · rw [if_neg hd, if_neg fun hd' => hd (hd' ▸ hp).eq_nil]

end Snapshot

/-! ## Start-up -/

theorem Metric.name_injective : Function.Injective Metric.name := fun x y h =>
  List.inj_on_of_nodup_map initOrder_names_nodup (mem_initOrder x) (mem_initOrder y) h

section Fresh

variable {w : World} (hini : ∀ x, ∃ p, w.globals.ptr x = some p ∧ Initial w.expvar x p)
include hini

theorem entry_of_initial (m : MapMetric) (key : String) : w.entry m key = none := by
  obtain ⟨p, hp, -, he⟩ := hini (.inr m)
  rw [entry_of_maps hp, he]

theorem cell_tally_of_initial (m : TallyMap) (key : String) : w.cell (.tally m key) = none := by
  simp only [World.cell, entry_of_initial hini]

/-- A world whose variables all point at new cells shows the empty store. -/
theorem observe_of_initial : w.observe = Snapshot.zero := by
  refine Snapshot.ext (funext fun o => ?_) (funext fun m => funext fun key => ?_)
  · rcases o with m | ⟨m, key⟩
    · obtain ⟨p, hp, -, h0⟩ := hini (.inl m)
      simp only [World.observe, World.cell, show w.globals.ints m = some p from hp,
        Option.map_some', h0]
      rfl
    · simp only [World.observe, cell_tally_of_initial hini, Option.map_none']
      rfl
  · exact entry_of_initial hini (.inr m) key

variable (hpub : ∀ x, Published w x) (hwf : w.expvar.WF)
include hpub hwf

omit hini in
/-- Where every variable is published, two variables of one type never share a cell. -/
theorem eq_of_ptr_eq {x y : Metric} {p : Nat} (hx : w.globals.ptr x = some p)
    (hy : w.globals.ptr y = some p) (hv : x.var p = y.var p) : x = y := by
  obtain ⟨p₁, hp₁, hv₁⟩ := hpub x
  obtain ⟨p₂, hp₂, hv₂⟩ := hpub y
  rw [hx, Option.some_inj] at hp₁
  rw [hy, Option.some_inj] at hp₂
  subst hp₁ hp₂
  exact Metric.name_injective (hwf.inj _ _ _ hv₁ (hv ▸ hv₂))

/-- A world where every variable is published, each to its own new cell, is separated:
only counters own cells, and those are distinct. -/
theorem separated_of_initial : Separated w := by
  have hcell := cell_tally_of_initial hini
  refine ⟨fun m => (hpub (.inl m)).imp fun _ h => h.1, fun m => (hpub (.inr m)).imp fun _ h => h.1,
    fun m m' p hm hm' => Sum.inr.inj (eq_of_ptr_eq hpub hwf hm hm' rfl),
    fun m key v hv => (by rw [entry_of_initial hini] at hv; cases hv), ?_, ?_⟩
  · rintro (m | ⟨m, key⟩) (m' | ⟨m', key'⟩) q ho ho'
    · exact congrArg Owner.counter (Sum.inl.inj (eq_of_ptr_eq hpub hwf ho ho' rfl))
    · cases (hcell m' key').symm.trans ho'
    all_goals cases (hcell m key).symm.trans ho
  · rintro (m | ⟨m, key⟩) q ho
    · obtain ⟨p, hp, hv⟩ := hpub (.inl m)
      cases ho.symm.trans hp
      exact hwf.int_lt _ _ hv
    · cases (hcell m key).symm.trans ho

end Fresh

theorem init_of_initMetrics {w w' : World} (hnot : w.globals.metricsOnce = false)
    (h : initMetrics w = .ok () w') :
    init w = .ok () { w' with globals := { w'.globals with metricsOnce := true } } := by
  simp only [init, hnot, h]
  rfl

/-- The fresh start, before `metricsOnce` is marked. -/
theorem initMetrics_fresh {w : World} (hwf : w.expvar.WF)
    (hfree : ∀ x : Metric, w.expvar.vars x.name = none) :
    ∃ w', initMetrics w = .ok () w' ∧ Separated w' ∧ w'.observe = Snapshot.zero ∧
      Grows w.expvar w'.expvar := by
  obtain ⟨w', h⟩ := initMetrics_ok_of_compatible fun x v hv => nomatch (hfree x).symm.trans hv
  have hini x := forM_initVar_initial initOrder_names_nodup h x (mem_initOrder x) (hfree x)
  exact ⟨w', h, separated_of_initial hini (initMetrics_published h) (forM_initVar_wf h hwf),
    observe_of_initial hini, forM_initVar_grows h⟩

/-- **Start-up.** On a well-formed registry where none of the 19 names is taken, such as
the one `expvar` leaves at program start, `init` ends normally. It establishes the
separation invariant, every counter reads zero and every map is empty, and everything
published before is kept. -/
theorem init_separated {w : World} (hwf : w.expvar.WF) (hfree : ∀ x : Metric, w.expvar.vars x.name = none)
    (hnot : w.globals.metricsOnce = false) :
    ∃ w', init w = .ok () w' ∧ Separated w' ∧ w'.observe = Snapshot.zero ∧
      Grows w.expvar w'.expvar := by
  obtain ⟨w', h, hs, ho, hg⟩ := initMetrics_fresh hwf hfree
  exact ⟨_, init_of_initMetrics hnot h, ⟨hs.1, hs.2, hs.3, hs.4, hs.5, hs.6⟩, ho, hg⟩

/-- The program's start: `expvar` initialised, package `y` not yet. -/
theorem init_separated_at_start :
    (Expvar.start.WF ∧ (∀ x : Metric, Expvar.start.vars x.name = none) ∧
      Globals.zero.metricsOnce = false) ∧
    ∃ w', init ⟨Expvar.start, Globals.zero⟩ = .ok () w' ∧ Separated w' ∧
      w'.observe = Snapshot.zero ∧ Grows Expvar.start w'.expvar :=
  ⟨⟨Expvar.wf_start, start_vars_name, rfl⟩, init_separated Expvar.wf_start start_vars_name rfl⟩

/-! ## From program start -/

theorem applyAll_zero_counter (cs : List Call) (m : IntMetric) :
    (Snapshot.zero.applyAll cs).counts (.counter m) =
      some ((cs.filterMap (Call.delta (.counter m))).map Int64.toUInt64).sum := by
  rw [Snapshot.applyAll_counts, Snapshot.foldl_addCount]
  split_ifs with h
  · rw [h]
    rfl
  · exact congrArg some (zero_add _)

theorem applyAll_zero_tally (cs : List Call) (m : TallyMap) (key : String) :
    (Snapshot.zero.applyAll cs).counts (.tally m key) =
      if cs.filterMap (Call.delta (.tally m key)) = [] then none
      else some ((cs.filterMap (Call.delta (.tally m key))).map Int64.toUInt64).sum := by
  rw [Snapshot.applyAll_counts, Snapshot.foldl_addCount]
  split_ifs
  · rfl
  · exact congrArg some (zero_add _)

/-- **What the metrics count.** From a fresh registry, `init` and then any run of
exported calls end normally, and the run returns what the abstract store says. After it:

* each counter holds the sum of the values of its enabled adds, wrapped to 64 bits, and
  read as an `int64` this is their exact sum reduced into range;
* each tally key holds the same for its enabled adds, and is absent if there were none;
* each size key holds the value of its last enabled `Set`, and is absent if there was
  none. -/
theorem run_from_start {w : World} (hwf : w.expvar.WF)
    (hfree : ∀ x : Metric, w.expvar.vars x.name = none) (hnot : w.globals.metricsOnce = false)
    (cs : List Call) :
    ∃ w₁ w₂, init w = .ok () w₁ ∧ runCalls cs w₁ = .ok (Snapshot.zero.results cs) w₂ ∧
      Separated w₂ ∧
      (∀ m, ∃ n, w₂.observe.counts (.counter m) = some n ∧
        n = ((cs.filterMap (Call.delta (.counter m))).map Int64.toUInt64).sum ∧
        Int64.toInt ⟨n⟩ =
          ((cs.filterMap (Call.delta (.counter m))).map Int64.toInt).sum.bmod (2 ^ 64)) ∧
      (∀ m key, w₂.observe.counts (.tally m key) =
        if cs.filterMap (Call.delta (.tally m key)) = [] then none
        else some ((cs.filterMap (Call.delta (.tally m key))).map Int64.toUInt64).sum) ∧
      (∀ m key, w₂.observe.sizes m key = (cs.filterMap (Call.stored m key)).getLast?) := by
  obtain ⟨w₁, h₁, hs₁, ho₁, -⟩ := initMetrics_fresh hwf hfree
  have hs₁' : Separated { w₁ with globals := { w₁.globals with metricsOnce := true } } :=
    ⟨hs₁.1, hs₁.2, hs₁.3, hs₁.4, hs₁.5, hs₁.6⟩
  obtain ⟨w₂, h₂, hs₂, ho₂⟩ := runCalls_refines hs₁' cs
  change runCalls cs _ = .ok (w₁.observe.results cs) w₂ at h₂
  change w₂.observe = w₁.observe.applyAll cs at ho₂
  rw [ho₁] at h₂ ho₂
  refine ⟨_, w₂, init_of_initMetrics hnot h₁, h₂, hs₂, fun m => ⟨_, ?_, rfl, Int64.toInt_sum _⟩,
    fun m key => ?_, fun m key => ?_⟩
  · rw [ho₂, applyAll_zero_counter]
  · rw [ho₂, applyAll_zero_tally]
  · rw [ho₂, Snapshot.applyAll_sizes]
    exact Option.or_none

/-- A counter add from program start. -/
theorem run_from_start_at_start :
    (Expvar.start.WF ∧ (∀ x : Metric, Expvar.start.vars x.name = none) ∧
      Globals.zero.metricsOnce = false) ∧
    ∃ w₁ w₂, init ⟨Expvar.start, Globals.zero⟩ = .ok () w₁ ∧
      runCalls [.intAdd .numGets true ⟨5⟩] w₁ =
        .ok (Snapshot.zero.results [.intAdd .numGets true ⟨5⟩]) w₂ ∧
      Separated w₂ ∧
      (∀ m, ∃ n, w₂.observe.counts (.counter m) = some n ∧
        n = (([Call.intAdd .numGets true ⟨5⟩].filterMap (Call.delta (.counter m))).map
          Int64.toUInt64).sum ∧
        Int64.toInt ⟨n⟩ = (([Call.intAdd .numGets true ⟨5⟩].filterMap
          (Call.delta (.counter m))).map Int64.toInt).sum.bmod (2 ^ 64)) ∧
      (∀ m key, w₂.observe.counts (.tally m key) =
        if [Call.intAdd .numGets true ⟨5⟩].filterMap (Call.delta (.tally m key)) = [] then none
        else some (([Call.intAdd .numGets true ⟨5⟩].filterMap
          (Call.delta (.tally m key))).map Int64.toUInt64).sum) ∧
      (∀ m key, w₂.observe.sizes m key =
        ([Call.intAdd .numGets true ⟨5⟩].filterMap (Call.stored m key)).getLast?) :=
  ⟨⟨Expvar.wf_start, start_vars_name, rfl⟩,
    run_from_start Expvar.wf_start start_vars_name rfl [.intAdd .numGets true ⟨5⟩]⟩

/-- **Order does not matter to the counts.** From a separated world, two runs of the
same calls in any two orders both end normally and leave the same counts. -/
theorem runCalls_perm_counts {w : World} (hs : Separated w) {cs cs' : List Call}
    (h : cs.Perm cs') :
    ∃ w₁ w₂, runCalls cs w = .ok (w.observe.results cs) w₁ ∧
      runCalls cs' w = .ok (w.observe.results cs') w₂ ∧ w₁.observe.counts = w₂.observe.counts := by
  obtain ⟨w₁, h₁, -, ho₁⟩ := runCalls_refines hs cs
  obtain ⟨w₂, h₂, -, ho₂⟩ := runCalls_refines hs cs'
  exact ⟨w₁, w₂, h₁, h₂, by rw [ho₁, ho₂, Snapshot.counts_perm _ h]⟩

/-- A counter add and a tally add, in both orders, after start-up. -/
theorem runCalls_perm_counts_swap :
    ∃ w, Separated w ∧
      ∃ w₁ w₂, runCalls [.intAdd .numGets true ⟨1⟩, .tallyAdd .numLSMGets true "l0" ⟨2⟩] w =
          .ok (w.observe.results [.intAdd .numGets true ⟨1⟩, .tallyAdd .numLSMGets true "l0" ⟨2⟩]) w₁ ∧
        runCalls [.tallyAdd .numLSMGets true "l0" ⟨2⟩, .intAdd .numGets true ⟨1⟩] w =
          .ok (w.observe.results [.tallyAdd .numLSMGets true "l0" ⟨2⟩, .intAdd .numGets true ⟨1⟩]) w₂ ∧
        w₁.observe.counts = w₂.observe.counts := by
  obtain ⟨w, -, hs, -⟩ := @initMetrics_fresh ⟨Expvar.start, Globals.zero⟩ Expvar.wf_start start_vars_name
  exact ⟨w, hs, runCalls_perm_counts hs (List.Perm.swap _ _ [])⟩

end Y

end Zapdb
