import Zapdb.Metrics

/-!
# Registration: what `initMetrics` does to the registry

`initMetrics` is 19 statements of one form, `x = getOrCreate…(name)`. Its proofs are
about `initVar`, one such statement, lifted to the whole list by induction.

* **One statement.** `initVar x` creates and publishes a variable when `x`'s name is
  free. It takes the published one when that has `x`'s type, and it panics in the type
  assertion otherwise (`initVar_ok_cases`, `initVar_of_mismatch`).
* **The run.** Take statements whose names are distinct. They succeed exactly when
  every name is free or holds a variable of the right type. Then every variable points
  at what is published under its name, and everything published before is kept,
  contents included (`Grows`).
* **A second copy.** Run again against the registry that a first run left, the
  statements change nothing and give the same pointers.
-/

namespace Zapdb

namespace Y

open Expvar

/-! ## One statement -/

theorem World.onExpvar_ok {α : Type} {m : EStateM Panic Expvar α} {w : World} {a : α}
    {e : Expvar} (h : m w.expvar = .ok a e) : World.onExpvar m w = .ok a { w with expvar := e } := by
  simp only [World.onExpvar, h]

theorem World.onExpvar_error {α : Type} {m : EStateM Panic Expvar α} {w : World} {p : Panic}
    {e : Expvar} (h : m w.expvar = .error p e) :
    World.onExpvar m w = .error p { w with expvar := e } := by
  simp only [World.onExpvar, h]

section GetOrCreate

variable {name : String} {e : Expvar}

theorem getOrCreateInt_of_none (h : e.vars name = none) :
    getOrCreateInt name e = .ok e.nextInt (e.withInt name) := by
  simp only [getOrCreateInt, bind, EStateM.bind, Expvar.get, h]
  exact newInt_of_none h

theorem getOrCreateInt_of_int {p : Nat} (h : e.vars name = some (.int p)) :
    getOrCreateInt name e = .ok p e := by
  simp only [getOrCreateInt, bind, EStateM.bind, Expvar.get, h]
  rfl

theorem getOrCreateInt_of_mismatch {v : Var} (h : e.vars name = some v) (hv : ∀ p, v ≠ .int p) :
    getOrCreateInt name e = .error .interfaceConversion e := by
  simp only [getOrCreateInt, bind, EStateM.bind, Expvar.get, h]
  cases v with
  | int p => exact absurd rfl (hv p)
  | map _ | other _ => rfl

theorem getOrCreateMap_of_none (h : e.vars name = none) :
    getOrCreateMap name e = .ok e.nextMap (e.withMap name) := by
  simp only [getOrCreateMap, bind, EStateM.bind, Expvar.get, h]
  exact newMap_of_none h

theorem getOrCreateMap_of_map {p : Nat} (h : e.vars name = some (.map p)) :
    getOrCreateMap name e = .ok p e := by
  simp only [getOrCreateMap, bind, EStateM.bind, Expvar.get, h]
  rfl

theorem getOrCreateMap_of_mismatch {v : Var} (h : e.vars name = some v) (hv : ∀ p, v ≠ .map p) :
    getOrCreateMap name e = .error .interfaceConversion e := by
  simp only [getOrCreateMap, bind, EStateM.bind, Expvar.get, h]
  cases v with
  | map p => exact absurd rfl (hv p)
  | int _ | other _ => rfl

end GetOrCreate

/-- What `NewInt(x.name)` or `NewMap(x.name)` returns, and the state it leaves. -/
def Metric.create (x : Metric) (e : Expvar) : Nat × Expvar :=
  match x with
  | .inl _ => (e.nextInt, e.withInt x.name)
  | .inr _ => (e.nextMap, e.withMap x.name)

/-- The state `initVar x` leaves when it creates `x`'s variable. -/
def World.create (w : World) (x : Metric) : World :=
  ⟨(x.create w.expvar).2, w.globals.setPtr x (x.create w.expvar).1⟩

/-- The state `initVar x` leaves when it takes the published cell `p`. -/
def World.reuse (w : World) (x : Metric) (p : Nat) : World :=
  { w with globals := w.globals.setPtr x p }

section InitVar

variable {x : Metric} {w : World}

theorem initVar_of_none (h : w.expvar.vars x.name = none) : initVar x w = .ok () (w.create x) := by
  rcases x with m | m
  · exact EStateM.bind_apply_ok (World.onExpvar_ok (getOrCreateInt_of_none h))
  · exact EStateM.bind_apply_ok (World.onExpvar_ok (getOrCreateMap_of_none h))

theorem initVar_of_some {p : Nat} (h : w.expvar.vars x.name = some (x.var p)) :
    initVar x w = .ok () (w.reuse x p) := by
  rcases x with m | m
  · exact EStateM.bind_apply_ok (World.onExpvar_ok (getOrCreateInt_of_int h))
  · exact EStateM.bind_apply_ok (World.onExpvar_ok (getOrCreateMap_of_map h))

theorem initVar_of_mismatch {v : Var} (h : w.expvar.vars x.name = some v)
    (hv : ∀ p, v ≠ x.var p) : initVar x w = .error .interfaceConversion w := by
  rcases x with m | m
  · exact EStateM.bind_apply_error (World.onExpvar_error (getOrCreateInt_of_mismatch h hv))
  · exact EStateM.bind_apply_error (World.onExpvar_error (getOrCreateMap_of_mismatch h hv))

/-- **Inversion**: a statement that succeeds either created its variable under a free
name, or took the published cell of the right type. -/
theorem initVar_ok_cases {w' : World} (h : initVar x w = .ok () w') :
    (w.expvar.vars x.name = none ∧ w' = w.create x) ∨
      ∃ p, w.expvar.vars x.name = some (x.var p) ∧ w' = w.reuse x p := by
  cases hv : w.expvar.vars x.name with
  | none =>
    rw [initVar_of_none hv] at h
    cases h
    exact .inl ⟨rfl, rfl⟩
  | some v =>
    by_cases hp : ∃ p, v = x.var p
    · obtain ⟨p, rfl⟩ := hp
      rw [initVar_of_some hv] at h
      cases h
      exact .inr ⟨p, rfl, rfl⟩
    · rw [initVar_of_mismatch hv (fun p hp' => hp ⟨p, hp'⟩)] at h
      cases h

end InitVar

/-- What is published under `x`'s name can be taken by `x`: nothing, or a variable of
`x`'s type. -/
def Compatible (e : Expvar) (x : Metric) : Prop :=
  ∀ v, e.vars x.name = some v → ∃ p, v = x.var p

/-- Variable `x` points at a cell, and that cell is what is published under `x`'s
name. -/
def Published (w : World) (x : Metric) : Prop :=
  ∃ p, w.globals.ptr x = some p ∧ w.expvar.vars x.name = some (x.var p)

/-- The cell `x` points at is as `new(Int)` or `new(Map).Init()` made it: a zero `Int`
or an empty `Map`, below the allocation mark. -/
def Initial (e : Expvar) : Metric → Nat → Prop
  | .inl _, p => p < e.nextInt ∧ e.ints p = 0
  | .inr _, p => p < e.nextMap ∧ ∀ key, e.maps p key = none

theorem Initial.grows {e e' : Expvar} (hg : Grows e e') {x : Metric} {p : Nat}
    (h : Initial e x p) : Initial e' x p := by
  rcases x with m | m
  · exact ⟨lt_of_lt_of_le h.1 hg.nextInt, (hg.ints p h.1).trans h.2⟩
  · exact ⟨lt_of_lt_of_le h.1 hg.nextMap, fun key => (congrFun (hg.maps p h.1) key).trans (h.2 key)⟩

/-! ## What creating a variable leaves -/

section Create

variable {x : Metric} {e : Expvar}

theorem create_vars_self : (x.create e).2.vars x.name = some (x.var (x.create e).1) := by
  rcases x with m | m <;> exact Function.update_same _ _ _

theorem create_vars_of_ne {n : String} (h : n ≠ x.name) : (x.create e).2.vars n = e.vars n := by
  rcases x with m | m <;> exact Function.update_noteq h _ _

theorem grows_create (h : e.vars x.name = none) : Grows e (x.create e).2 := by
  rcases x with m | m
  · exact grows_withInt h
  · exact grows_withMap h

theorem wf_create (hw : e.WF) (x : Metric) : (x.create e).2.WF := by
  rcases x with m | m
  · exact hw.withInt _
  · exact hw.withMap _

theorem initial_create : Initial (x.create e).2 x (x.create e).1 := by
  rcases x with m | m
  · exact ⟨Nat.lt_succ_self _, Function.update_same _ _ _⟩
  · exact ⟨Nat.lt_succ_self _, fun _ => congrFun (Function.update_same _ _ _) _⟩

end Create

/-! ## What one successful statement leaves -/

section Step

variable {x : Metric} {w w' : World} (h : initVar x w = .ok () w')
include h

theorem initVar_published : Published w' x := by
  rcases initVar_ok_cases h with ⟨-, rfl⟩ | ⟨p, hp, rfl⟩
  · exact ⟨_, Globals.ptr_setPtr_self _ _ _, create_vars_self⟩
  · exact ⟨p, Globals.ptr_setPtr_self _ _ _, hp⟩

theorem initVar_ptr_of_ne {y : Metric} (hy : y ≠ x) : w'.globals.ptr y = w.globals.ptr y := by
  rcases initVar_ok_cases h with ⟨-, rfl⟩ | ⟨p, -, rfl⟩ <;> exact Globals.ptr_setPtr_of_ne _ hy _

theorem initVar_vars_of_ne {n : String} (hn : n ≠ x.name) : w'.expvar.vars n = w.expvar.vars n := by
  rcases initVar_ok_cases h with ⟨-, rfl⟩ | ⟨p, -, rfl⟩
  · exact create_vars_of_ne hn
  · rfl

theorem initVar_grows : Grows w.expvar w'.expvar := by
  rcases initVar_ok_cases h with ⟨hn, rfl⟩ | ⟨p, -, rfl⟩
  · exact grows_create hn
  · exact Grows.refl _

theorem initVar_wf (hw : w.expvar.WF) : w'.expvar.WF := by
  rcases initVar_ok_cases h with ⟨-, rfl⟩ | ⟨p, -, rfl⟩
  · exact wf_create hw x
  · exact hw

theorem initVar_initial (hn : w.expvar.vars x.name = none) :
    ∃ p, w'.globals.ptr x = some p ∧ Initial w'.expvar x p := by
  rcases initVar_ok_cases h with ⟨-, rfl⟩ | ⟨p, hp, -⟩
  · exact ⟨_, Globals.ptr_setPtr_self _ _ _, initial_create⟩
  · simp [hn] at hp

theorem initVar_expvar_of_published {p : Nat} (hp : w.expvar.vars x.name = some (x.var p)) :
    w'.expvar = w.expvar := by
  rcases initVar_ok_cases h with ⟨hn, -⟩ | ⟨q, -, rfl⟩
  · simp [hn] at hp
  · rfl

end Step

theorem initVar_ok_of_compatible {x : Metric} {w : World} (hc : Compatible w.expvar x) :
    ∃ w', initVar x w = .ok () w' := by
  cases hv : w.expvar.vars x.name with
  | none => exact ⟨_, initVar_of_none hv⟩
  | some v =>
    obtain ⟨p, rfl⟩ := hc v hv
    exact ⟨_, initVar_of_some hv⟩

theorem initVar_of_not_compatible {x : Metric} {w : World} (hc : ¬Compatible w.expvar x) :
    initVar x w = .error .interfaceConversion w := by
  simp only [Compatible, not_forall, not_exists] at hc
  obtain ⟨v, hv, hp⟩ := hc
  exact initVar_of_mismatch hv hp

theorem compatible_congr {e e' : Expvar} {x : Metric} (h : e'.vars x.name = e.vars x.name)
    (hc : Compatible e x) : Compatible e' x := fun v hv => hc v (h ▸ hv)

/-! ## A run of statements

Each lemma is an induction over the statements, one `initVar` step at a time. -/

section Run

theorem forM_initVar_cons {y : Metric} {ys : List Metric} {w w' : World}
    (h : (y :: ys).forM initVar w = .ok () w') :
    ∃ w₁, initVar y w = .ok () w₁ ∧ ys.forM initVar w₁ = .ok () w' := by
  obtain ⟨⟨⟩, w₁, h₁, h₂⟩ := EStateM.bind_eq_ok h
  exact ⟨w₁, h₁, h₂⟩

theorem forM_initVar_grows :
    ∀ {xs : List Metric} {w w' : World}, xs.forM initVar w = .ok () w' → Grows w.expvar w'.expvar
  | [], w, w', h => by cases h; exact Grows.refl _
  | _ :: _, _, _, h => by
    obtain ⟨w₁, h₁, h₂⟩ := forM_initVar_cons h
    exact (initVar_grows h₁).trans (forM_initVar_grows h₂)

theorem forM_initVar_wf :
    ∀ {xs : List Metric} {w w' : World}, xs.forM initVar w = .ok () w' → w.expvar.WF →
      w'.expvar.WF
  | [], w, w', h, hw => by cases h; exact hw
  | _ :: _, _, _, h, hw => by
    obtain ⟨w₁, h₁, h₂⟩ := forM_initVar_cons h
    exact forM_initVar_wf h₂ (initVar_wf h₁ hw)

theorem forM_initVar_ptr_of_not_mem :
    ∀ {xs : List Metric} {w w' : World}, xs.forM initVar w = .ok () w' →
      ∀ {x : Metric}, x ∉ xs → w'.globals.ptr x = w.globals.ptr x
  | [], w, w', h, _, _ => by cases h; rfl
  | _ :: _, _, _, h, _, hx => by
    obtain ⟨w₁, h₁, h₂⟩ := forM_initVar_cons h
    rw [List.mem_cons, not_or] at hx
    exact (forM_initVar_ptr_of_not_mem h₂ hx.2).trans (initVar_ptr_of_ne h₁ hx.1)

theorem forM_initVar_vars_of_not_mem :
    ∀ {xs : List Metric} {w w' : World}, xs.forM initVar w = .ok () w' →
      ∀ {n : String}, n ∉ xs.map Metric.name → w'.expvar.vars n = w.expvar.vars n
  | [], w, w', h, _, _ => by cases h; rfl
  | _ :: _, _, _, h, _, hn => by
    obtain ⟨w₁, h₁, h₂⟩ := forM_initVar_cons h
    rw [List.map_cons, List.mem_cons, not_or] at hn
    exact (forM_initVar_vars_of_not_mem h₂ hn.2).trans (initVar_vars_of_ne h₁ hn.1)

/-- Distinct names make distinct statements. -/
theorem not_mem_of_nodup_names {y : Metric} {ys : List Metric}
    (hnd : ((y :: ys).map Metric.name).Nodup) :
    y ∉ ys ∧ y.name ∉ ys.map Metric.name ∧ (ys.map Metric.name).Nodup := by
  rw [List.map_cons, List.nodup_cons] at hnd
  exact ⟨fun hy => hnd.1 (List.mem_map_of_mem _ hy), hnd.1, hnd.2⟩

variable {xs : List Metric} (hnd : (xs.map Metric.name).Nodup)
include hnd

theorem forM_initVar_ok :
    ∀ {w : World}, (∀ x ∈ xs, Compatible w.expvar x) → ∃ w', xs.forM initVar w = .ok () w' := by
  induction xs with
  | nil => exact fun {w} _ => ⟨w, rfl⟩
  | cons y ys ih =>
    intro w hc
    obtain ⟨-, hy, hnd'⟩ := not_mem_of_nodup_names hnd
    obtain ⟨w₁, h₁⟩ := initVar_ok_of_compatible (hc y (List.mem_cons_self _ _))
    obtain ⟨w', h'⟩ := ih hnd' fun x hx => compatible_congr
      (initVar_vars_of_ne h₁ fun he => hy (he ▸ List.mem_map_of_mem _ hx))
      (hc x (List.mem_cons_of_mem _ hx))
    exact ⟨w', (EStateM.bind_apply_ok h₁).trans h'⟩

theorem forM_initVar_published :
    ∀ {w w' : World}, xs.forM initVar w = .ok () w' → ∀ x ∈ xs, Published w' x := by
  induction xs with
  | nil => exact fun _ x hx => absurd hx (List.not_mem_nil x)
  | cons y ys ih =>
    intro w w' h x hx
    obtain ⟨hy, hyn, hnd'⟩ := not_mem_of_nodup_names hnd
    obtain ⟨w₁, h₁, h₂⟩ := forM_initVar_cons h
    rcases List.mem_cons.mp hx with rfl | hx
    · obtain ⟨p, hp, hv⟩ := initVar_published h₁
      exact ⟨p, (forM_initVar_ptr_of_not_mem h₂ hy).trans hp,
        (forM_initVar_vars_of_not_mem h₂ hyn).trans hv⟩
    · exact ih hnd' h₂ x hx

theorem forM_initVar_initial :
    ∀ {w w' : World}, xs.forM initVar w = .ok () w' → ∀ x ∈ xs, w.expvar.vars x.name = none →
      ∃ p, w'.globals.ptr x = some p ∧ Initial w'.expvar x p := by
  induction xs with
  | nil => exact fun _ x hx => absurd hx (List.not_mem_nil x)
  | cons y ys ih =>
    intro w w' h x hx hn
    obtain ⟨hy, hyn, hnd'⟩ := not_mem_of_nodup_names hnd
    obtain ⟨w₁, h₁, h₂⟩ := forM_initVar_cons h
    rcases List.mem_cons.mp hx with rfl | hx
    · obtain ⟨p, hp, hi⟩ := initVar_initial h₁ hn
      exact ⟨p, (forM_initVar_ptr_of_not_mem h₂ hy).trans hp, hi.grows (forM_initVar_grows h₂)⟩
    · refine ih hnd' h₂ x hx ((initVar_vars_of_ne h₁ ?_).trans hn)
      exact fun he => hyn (he ▸ List.mem_map_of_mem _ hx)

theorem forM_initVar_error :
    ∀ {w : World}, (∃ x ∈ xs, ¬Compatible w.expvar x) →
      ∃ w', xs.forM initVar w = .error .interfaceConversion w' := by
  induction xs with
  | nil => exact fun ⟨x, hx, _⟩ => absurd hx (List.not_mem_nil x)
  | cons y ys ih =>
    intro w ⟨x, hx, hc⟩
    obtain ⟨-, hyn, hnd'⟩ := not_mem_of_nodup_names hnd
    by_cases hcy : Compatible w.expvar y
    · obtain ⟨w₁, h₁⟩ := initVar_ok_of_compatible hcy
      rcases List.mem_cons.mp hx with rfl | hx
      · exact absurd hcy hc
      · obtain ⟨w', h'⟩ := ih hnd' ⟨x, hx, fun hc₁ => hc (compatible_congr
          (initVar_vars_of_ne h₁ fun he => hyn (he ▸ List.mem_map_of_mem _ hx)).symm hc₁)⟩
        exact ⟨w', (EStateM.bind_apply_ok h₁).trans h'⟩
    · exact ⟨w, EStateM.bind_apply_error (initVar_of_not_compatible hcy)⟩

end Run

theorem forM_initVar_expvar_of_published :
    ∀ {xs : List Metric} {w w' : World}, xs.forM initVar w = .ok () w' →
      (∀ x ∈ xs, ∃ p, w.expvar.vars x.name = some (x.var p)) → w'.expvar = w.expvar
  | [], w, w', h, _ => by cases h; rfl
  | _ :: _, _, _, h, hp => by
    obtain ⟨w₁, h₁, h₂⟩ := forM_initVar_cons h
    obtain ⟨p, hp₁⟩ := hp _ (List.mem_cons_self _ _)
    have he := initVar_expvar_of_published h₁ hp₁
    refine (forM_initVar_expvar_of_published h₂ fun x hx => ?_).trans he
    rw [he]
    exact hp x (List.mem_cons_of_mem _ hx)

/-! ## `initMetrics` -/

theorem initOrder_names_nodup : (initOrder.map Metric.name).Nodup := by
  decide

theorem mem_initOrder (x : Metric) : x ∈ initOrder := by
  rcases x with m | m | m <;> cases m <;> simp [initOrder]

theorem Metric.var_injective (x : Metric) : Function.Injective x.var := by
  rcases x with m | m <;> intro p q h <;> cases h <;> rfl

theorem initMetrics_published {w w' : World} (h : initMetrics w = .ok () w') (x : Metric) :
    Published w' x :=
  forM_initVar_published initOrder_names_nodup h x (mem_initOrder x)

theorem initMetrics_ok_of_compatible {w : World} (hc : ∀ x, Compatible w.expvar x) :
    ∃ w', initMetrics w = .ok () w' :=
  forM_initVar_ok initOrder_names_nodup fun x _ => hc x

/-- A variable published with its type is the one `x` ends up pointing at. -/
theorem ptr_of_published {w w' : World} (hg : Grows w.expvar w'.expvar) {x : Metric}
    (hx : Published w' x) {p : Nat} (hp : w.expvar.vars x.name = some (x.var p)) :
    w'.globals.ptr x = some p := by
  obtain ⟨q, hq, hv⟩ := hx
  rw [hg.vars _ _ hp, Option.some_inj] at hv
  rw [hq, Metric.var_injective x hv]

/-- **What `initMetrics` does to the registry.** It succeeds exactly when each of the
19 names is free or holds a variable of the type that `getOrCreateInt` or
`getOrCreateMap` asserts; otherwise it panics in that assertion. When it succeeds,
every variable points at the variable published under its name: the one already there,
or a new zero `Int` or empty `Map`. Everything published before is kept, contents
included. -/
theorem initMetrics_registers (w : World) :
    ((∀ x, Compatible w.expvar x) →
      ∃ w', initMetrics w = .ok () w' ∧ (∀ x, Published w' x) ∧ Grows w.expvar w'.expvar ∧
        ∀ x p, w.expvar.vars x.name = some (x.var p) → w'.globals.ptr x = some p) ∧
    ((∃ x, ¬Compatible w.expvar x) → ∃ w', initMetrics w = .error .interfaceConversion w') := by
  refine ⟨fun hc => ?_, fun ⟨x, hx⟩ =>
    forM_initVar_error initOrder_names_nodup ⟨x, mem_initOrder x, hx⟩⟩
  obtain ⟨w', h⟩ := initMetrics_ok_of_compatible hc
  have hg := forM_initVar_grows h
  exact ⟨w', h, initMetrics_published h, hg,
    fun x _ hp => ptr_of_published hg (initMetrics_published h x) hp⟩

/-- **A second copy of the package.** Run with its own variables `g` against the
registry that a successful first run left, `initMetrics` succeeds, changes nothing in
`expvar`, and points every variable where the first copy's points: both copies count
into the same cells. -/
theorem initMetrics_second_copy {w w' : World} (h : initMetrics w = .ok () w') (g : Globals) :
    ∃ g', initMetrics ⟨w'.expvar, g⟩ = .ok () ⟨w'.expvar, g'⟩ ∧
      ∀ x, g'.ptr x = w'.globals.ptr x := by
  have hpub := initMetrics_published h
  have hreg : ∀ x : Metric, ∃ p, w'.expvar.vars x.name = some (x.var p) := fun x =>
    (hpub x).imp fun _ hp => hp.2
  obtain ⟨w'', h'⟩ : ∃ w'', initMetrics ⟨w'.expvar, g⟩ = .ok () w'' :=
    initMetrics_ok_of_compatible fun x v hv =>
      (hreg x).imp fun p hp => Option.some_inj.mp (hv.symm.trans hp)
  have he : w''.expvar = (⟨w'.expvar, g⟩ : World).expvar :=
    forM_initVar_expvar_of_published h' fun x _ => hreg x
  refine ⟨w''.globals, by rw [h', ← he], fun x => ?_⟩
  obtain ⟨p, hp, hv⟩ := hpub x
  rw [hp]
  exact ptr_of_published (he ▸ Grows.refl _) (initMetrics_published h' x) hv

/-- The names are free in the registry `expvar` leaves at program start. -/
theorem start_vars_name (x : Metric) : Expvar.start.vars x.name = none := by
  rcases x with m | m | m <;> cases m <;> decide

/-- Two copies initialising one after the other from program start. -/
theorem initMetrics_second_copy_at_start :
    ∃ w', initMetrics ⟨Expvar.start, Globals.zero⟩ = .ok () w' ∧
      ∃ g', initMetrics ⟨w'.expvar, Globals.zero⟩ = .ok () ⟨w'.expvar, g'⟩ ∧
        ∀ x, g'.ptr x = w'.globals.ptr x := by
  obtain ⟨w', h⟩ : ∃ w', initMetrics ⟨Expvar.start, Globals.zero⟩ = .ok () w' :=
    initMetrics_ok_of_compatible fun x v hv => nomatch (start_vars_name x).symm.trans hv
  exact ⟨w', h, initMetrics_second_copy h Globals.zero⟩

end Y

end Zapdb
