import Zapdb.Goroutines

/-!
# Interleavings: the metrics under concurrent calls

Any schedule of goroutines (`Sys.exec`) behaves as the calls run one after another, each
at its linearization point: the one step at which it takes effect and its answer is
fixed (`Pc.answer`). That is the storing `LoadOrStore` or the `Store` of a `Set`, the
add to the `Int` of an `Add`, the `Load` of a `Get`, the add of a counter, and the first
step of a disabled call. `addKey`'s steps come after a `Set`'s and before an `Add`'s, and
change nothing a call reads.

* From a separated world no schedule panics, and every schedule keeps `Separated`.
* Take the calls in the order of their linearization points (`Sys.lins`). At every
  point of a schedule, the calls that have taken effect are the first ones of this
  order; they include every call that has returned, and each of them has started. So a
  call that returned before another started comes first. When every goroutine has
  returned, the world shows what running the calls one after another in this order
  shows, and each goroutine returned what its call returns at its place in it
  (`exec_linearizable`).
* Each map's `keysMu` is locked exactly while one goroutine holds it, and no two do
  (`exec_keysMu_exclusive`). A goroutine waits only at `keysMu.Lock()` while another
  holds the lock, and the holder leaves `addKey` at its next step. So no schedule gets
  stuck: whatever has run, at most five more steps per goroutine return them all
  (`exec_completes`).
* From program start, every counter and tally key ends at the wrapped sum of its
  enabled adds under every interleaving (`exec_counts_from_start`).

The invariant `Lin` carries the history of the calls that have taken effect. The one
state the sequential store never shows is an `Int` that `LoadOrStore` has just stored
and no add has reached yet. It reads zero where the store has no key, and `Lin`
tolerates exactly that while a goroutine is still to add to it.
-/

namespace Zapdb

namespace Y

open Expvar

/-! ## The goroutine list

A step replaces one goroutine of the list. -/

section Pool

variable {α β : Type} {l : List α} {i : Nat} {a b c : α}

theorem mem_set_of_ne (hc : c ∈ l) (ha : l[i]? = some a) (hne : a ≠ c) : c ∈ l.set i b := by
  obtain ⟨j, hj⟩ := List.getElem?_of_mem hc
  have hij : i ≠ j := by
    rintro rfl
    exact hne (Option.some_inj.mp (ha.symm.trans hj))
  exact List.mem_iff_getElem?.mpr ⟨j, (List.getElem?_set_ne hij).trans hj⟩

theorem mem_set_of_getElem? (ha : l[i]? = some a) : b ∈ l.set i b :=
  List.mem_set l i (List.getElem?_eq_some_iff.mp ha).1 b

theorem map_set_of_eq (f : α → β) (ha : l[i]? = some a) (b : α) (hf : f b = f a) :
    (l.set i b).map f = l.map f := by
  induction l generalizing i with
  | nil => rfl
  | cons x l ih =>
    cases i with
    | zero =>
      obtain rfl : x = a := by simpa using ha
      simp [hf]
    | succ i => simp only [List.set_cons_succ, List.map_cons, ih (by simpa using ha)]

theorem filterMap_set_of_eq (f : α → Option β) (ha : l[i]? = some a) (b : α) (hf : f b = f a) :
    (l.set i b).filterMap f = l.filterMap f := by
  induction l generalizing i with
  | nil => rfl
  | cons x l ih =>
    cases i with
    | zero =>
      obtain rfl : x = a := by simpa using ha
      simp [List.filterMap_cons, hf]
    | succ i => simp only [List.set_cons_succ, List.filterMap_cons, ih (by simpa using ha)]

theorem filterMap_set_perm (f : α → Option β) {y : β} (ha : l[i]? = some a) (hfa : f a = none)
    (b : α) (hfb : f b = some y) : ((l.set i b).filterMap f).Perm (y :: l.filterMap f) := by
  induction l generalizing i with
  | nil => cases ha
  | cons x l ih =>
    cases i with
    | zero =>
      obtain rfl : x = a := by simpa using ha
      simp [List.filterMap_cons, hfa, hfb]
    | succ i =>
      simp only [List.set_cons_succ, List.filterMap_cons]
      cases f x with
      | none => exact ih (by simpa using ha)
      | some z => exact ((ih (by simpa using ha)).cons z).trans (List.Perm.swap y z _)

theorem countP_set_add (f : α → Bool) (ha : l[i]? = some a) (b : α) :
    (l.set i b).countP f + (if f a then 1 else 0) = l.countP f + (if f b then 1 else 0) := by
  obtain ⟨hi, rfl⟩ := List.getElem?_eq_some_iff.mp ha
  have := List.boole_getElem_le_countP f l i hi
  rw [List.countP_set f l i b hi]
  omega

/-- What `f` keeps of a list, `g` keeps too, when `g` keeps whatever `f` does. -/
theorem filterMap_sublist_of_imp {f g : α → Option β} (hfg : ∀ a b, f a = some b → g a = some b) :
    ∀ l : List α, List.Sublist (l.filterMap f) (l.filterMap g)
  | [] => .slnil
  | a :: l => by
    simp only [List.filterMap_cons]
    cases hf : f a with
    | some b => rw [hfg a b hf]; exact (filterMap_sublist_of_imp hfg l).cons₂ b
    | none =>
      cases g a with
      | none => exact filterMap_sublist_of_imp hfg l
      | some _ => exact (filterMap_sublist_of_imp hfg l).cons _

end Pool

/-! ## The sequential store, a call at a time -/

namespace Snapshot

theorem length_results (a : Snapshot) (cs : List Call) : (a.results cs).length = cs.length := by
  induction cs generalizing a with
  | nil => rfl
  | cons c cs ih => exact congrArg Nat.succ (ih _)

theorem applyAll_concat (a : Snapshot) (cs : List Call) (c : Call) :
    a.applyAll (cs ++ [c]) = (a.applyAll cs).apply c :=
  List.foldl_concat _ _ _ _

theorem results_concat (a : Snapshot) (cs : List Call) (c : Call) :
    a.results (cs ++ [c]) = a.results cs ++ [(a.applyAll cs).result c] := by
  induction cs generalizing a with
  | nil => rfl
  | cons c' cs ih => exact congrArg (a.result c' :: ·) (ih _)

/-- What a call returns depends only on the size maps. -/
theorem result_of_sizes {a b : Snapshot} (h : a.sizes = b.sizes) (c : Call) :
    a.result c = b.result c := by
  cases c <;> simp [result, h]

theorem apply_sizes_of_sizes {a b : Snapshot} (h : a.sizes = b.sizes) (c : Call) :
    (a.apply c).sizes = (b.apply c).sizes := by
  funext m key
  rw [apply_sizes, apply_sizes, h]

end Snapshot

/-- An add makes a zero count and a missing one equal. -/
theorem addCount_of_zero {x y : Option UInt64} (h : x = y ∨ y = none ∧ x = some 0) (d : Int64) :
    addCount x d = addCount y d := by
  rcases h with rfl | ⟨rfl, rfl⟩ <;> rfl

/-! ## Frames of the steps -/

/-- World `w'` keeps `w`'s variables, and the cell of every owner that has one. -/
structure Keeps (w w' : World) : Prop where
  globals : w'.globals = w.globals
  cell : ∀ o q, w.cell o = some q → w'.cell o = some q

section Frame

variable {w : World}

theorem Keeps.refl (w : World) : Keeps w w := ⟨rfl, fun _ _ h => h⟩

theorem keeps_addTo (q : Nat) (d : Int64) : Keeps w ⟨w.expvar.addTo q d, w.globals⟩ :=
  ⟨rfl, fun o _ h => (cell_addTo q d o).trans h⟩

theorem keeps_alloc : Keeps w ⟨w.expvar.alloc, w.globals⟩ := ⟨rfl, fun _ _ h => h⟩

variable (hs : Separated w)
include hs

theorem Separated.alloc : Separated ⟨w.expvar.alloc, w.globals⟩ :=
  ⟨hs.1, hs.2, hs.3, hs.4, hs.5, fun o q h => Nat.lt_succ_of_lt (hs.6 o q h)⟩

theorem observe_alloc : (⟨w.expvar.alloc, w.globals⟩ : World).observe = w.observe := by
  refine Snapshot.ext (funext fun o => ?_) rfl
  show (w.cell o).map _ = (w.cell o).map _
  cases hc : w.cell o with
  | none => rfl
  | some q => simp [Expvar.alloc, Function.update_noteq (hs.cell_lt o q hc).ne]

theorem keeps_withEntry {m : TallyMap} {p : Nat} (hp : w.globals.maps (.inl m) = some p)
    {key : String} (hn : w.entry (.inl m) key = none) (d : Int64) :
    Keeps w ⟨w.expvar.withEntry p key d, w.globals⟩ := by
  refine ⟨rfl, fun o q h => ?_⟩
  rw [cell_withEntry hs hp key d, if_neg]
  · exact h
  · rintro rfl
    simp [World.cell, hn] at h

theorem keeps_storeAt {m : SizeMap} {p : Nat} (hp : w.globals.maps (.inr m) = some p)
    (key : String) (v : Var) : Keeps w ⟨w.expvar.storeAt p key v, w.globals⟩ :=
  ⟨rfl, fun o _ h => (congrFun (cell_storeAt hs hp key v) o).trans h⟩

end Frame

/-! ## The invariant -/

/-- What a goroutine's call answers, once it has taken effect: at its return, and in a
`Set` already in `addKey` after its storing `LoadOrStore`. -/
def Pc.answer : Pc → Option (Option Var)
  | .done r => some r
  | .lock _ none | .unlock _ none => some none
  | _ => none

/-- Whether a goroutine at this position holds the `keysMu` of map cell `p`. -/
def Pc.holds : Pc → Nat → Bool
  | .unlock q _, p => q == p
  | _, _ => false

/-- The call and its answer, once the goroutine's call has taken effect. -/
def Thread.linearized (t : Thread) : Option (Call × Option Var) :=
  t.pc.answer.map (t.call, ·)

/-- The goroutine's call, once it has taken effect. -/
def Thread.linCall (t : Thread) : List Call :=
  (t.linearized.map Prod.fst).toList

/-- Whether the goroutine has taken its first step. -/
def Thread.started (t : Thread) : Bool :=
  t.pc != .start

/-- The owner a goroutine is about to add to, between finding its key's `Int` and
adding to it. -/
def Thread.pendingOwner (t : Thread) : Option Owner :=
  match t.pc, t.call with
  | .add _, .tallyAdd m _ key _ | .lock _ (some _), .tallyAdd m _ key _
  | .unlock _ (some _), .tallyAdd m _ key _ => some (.tally m key)
  | _, _ => none

/-- A goroutine's position is one its call reaches, and what it holds is still right in
world `w`. After a `Load` that missed, in `addKey`, or before a `Store`, it holds its
variable's cell. Before an add, it holds its key's `Int`. -/
def Thread.Valid (w : World) (t : Thread) : Prop :=
  match t.pc, t.call with
  | .start, _ | .done _, _ => True
  | .loadOrStore p, .tallyAdd m enabled _ _ => enabled = true ∧ w.globals.maps (.inl m) = some p
  | .add i, .tallyAdd m enabled key _ =>
    enabled = true ∧ ∃ q, i = .int q ∧ w.cell (.tally m key) = some q
  | .lock p (some i), .tallyAdd m enabled key _ | .unlock p (some i), .tallyAdd m enabled key _ =>
    enabled = true ∧ w.globals.maps (.inl m) = some p ∧ ∃ q, i = .int q ∧ w.cell (.tally m key) = some q
  | .loadOrStore p, .sizeSet m enabled _ _ | .store p, .sizeSet m enabled _ _
  | .lock p none, .sizeSet m enabled _ _ | .unlock p none, .sizeSet m enabled _ _ =>
    enabled = true ∧ w.globals.maps (.inr m) = some p
  | _, _ => False

theorem Thread.Valid.keeps {w w' : World} (hk : Keeps w w') {t : Thread} (hv : t.Valid w) :
    t.Valid w' := by
  rcases t with ⟨_ | _ | _ | _ | _, _ | _ | ⟨_, _ | _⟩ | ⟨_, _ | _⟩ | _ | _ | _⟩ <;>
    simp only [Thread.Valid, hk.globals] at hv ⊢ <;>
    first
    | trivial
    | exact ⟨hv.1, hv.2.imp fun q h => ⟨h.1, hk.cell _ _ h.2⟩⟩
    | exact ⟨hv.1, hv.2.1, hv.2.2.imp fun q h => ⟨h.1, hk.cell _ _ h.2⟩⟩

/-- Taking `keysMu` changes nothing else a goroutine holds. -/
theorem Thread.valid_unlock {w : World} {c : Call} {p : Nat} {next : Option Var} :
    Thread.Valid w ⟨c, .unlock p next⟩ ↔ Thread.Valid w ⟨c, .lock p next⟩ := by
  cases c <;> cases next <;> exact Iff.rfl

/-- Leaving `addKey`, a goroutine keeps what it holds but the map. -/
theorem Thread.Valid.afterAddKey {w : World} {c : Call} {p : Nat} {next : Option Var}
    (hv : Thread.Valid w ⟨c, .unlock p next⟩) : Thread.Valid w ⟨c, Pc.afterAddKey next⟩ := by
  cases c <;> cases next <;> first | trivial | exact hv.elim | exact ⟨hv.1, hv.2.2⟩

/-- **The invariant of a concurrent run** of calls `cs` from world `w`, with `h` the
calls that have taken effect, in the order they did. The world is separated, and each
goroutine's position is valid. Each goroutine past its linearization point answers
what its call returns at its place in `h`. The size maps are the sequential store's
after `h`. So are the counts, except for a key whose `Int` has been stored and not yet
added to. Each map's `keysMu` is locked exactly when one goroutine holds it. -/
structure Lin (w : World) (cs : List Call) (s : Sys) (h : List Call) : Prop where
  separated : Separated s.world
  calls : s.threads.map Thread.call = cs
  valid : ∀ t ∈ s.threads, t.Valid s.world
  linearized : (h.zip (w.observe.results h)).Perm (s.threads.filterMap Thread.linearized)
  sizes : s.world.observe.sizes = (w.observe.applyAll h).sizes
  counts : ∀ o, s.world.observe.counts o = (w.observe.applyAll h).counts o ∨
    (w.observe.applyAll h).counts o = none ∧ s.world.observe.counts o = some 0 ∧
      ∃ t ∈ s.threads, t.pendingOwner = some o
  locks : ∀ p, s.threads.countP (fun t => t.pc.holds p) = if s.keysMu p then 1 else 0

/-- A goroutine still to add to `o` stays in the list when the goroutine that moves
still adds to `o` whenever it did. -/
theorem pending_set {l : List Thread} {i : Nat} {t t' : Thread} {o : Owner} (ht : l[i]? = some t)
    (hto : t.pendingOwner = some o → t'.pendingOwner = some o)
    (hp : ∃ u ∈ l, u.pendingOwner = some o) : ∃ u ∈ l.set i t', u.pendingOwner = some o := by
  obtain ⟨u, hu, huo⟩ := hp
  by_cases hut : t = u
  · exact ⟨t', mem_set_of_getElem? ht, hto (hut ▸ huo)⟩
  · exact ⟨u, mem_set_of_ne hu ht hut, huo⟩

section Lin

variable {w : World} {cs : List Call} {s : Sys} {h : List Call}

theorem lin_start (hs : Separated w) (cs : List Call) : Lin w cs (Sys.start w cs) [] where
  separated := hs
  calls := by simp [Sys.start, Function.comp_def]
  valid _ ht := by
    obtain ⟨c, -, rfl⟩ := List.mem_map.mp ht
    trivial
  linearized := by simp [Sys.start, Thread.linearized, Pc.answer]
  sizes := rfl
  counts _ := .inl rfl
  locks _ := by simp [Sys.start, Function.comp_def, Pc.holds]

/-- A step that does not take effect keeps the invariant, with the same history, when
it keeps the size maps and every count but one it takes from none to zero for the owner
it goes on to add to. Neither position holds a lock. -/
theorem Lin.internal (hl : Lin w cs s h) {i : Nat} {c : Call} {pc pc' : Pc} {w' : World}
    (ht : s.threads[i]? = some ⟨c, pc⟩) (hr : pc.answer = none) (hho : ∀ p, pc.holds p = false)
    (hpo : Thread.pendingOwner ⟨c, pc⟩ = none) (hs' : Separated w') (hk : Keeps s.world w')
    (hv : Thread.Valid w' ⟨c, pc'⟩) (hr' : pc'.answer = none) (hho' : ∀ p, pc'.holds p = false)
    (hsz : w'.observe.sizes = s.world.observe.sizes)
    (hc : ∀ o, w'.observe.counts o = s.world.observe.counts o ∨
      s.world.observe.counts o = none ∧ w'.observe.counts o = some 0 ∧
        Thread.pendingOwner ⟨c, pc'⟩ = some o) :
    Lin w cs ⟨w', s.keysMu, s.threads.set i ⟨c, pc'⟩⟩ (h ++ Thread.linCall ⟨c, pc'⟩) := by
  rw [show Thread.linCall ⟨c, pc'⟩ = [] by simp [Thread.linCall, Thread.linearized, hr'],
    List.append_nil]
  refine ⟨hs', (map_set_of_eq Thread.call ht ⟨c, pc'⟩ rfl).trans hl.calls, fun t ht' => ?_,
    (filterMap_set_of_eq Thread.linearized ht ⟨c, pc'⟩ (by simp [Thread.linearized, hr, hr'])).symm ▸
      hl.linearized,
    hsz.trans hl.sizes, fun o => ?_, fun p => ?_⟩
  · exact (List.mem_or_eq_of_mem_set ht').elim (fun ht' => (hl.valid t ht').keeps hk)
      fun e => e ▸ hv
  · rcases hc o with he | ⟨h0, h0', hpo'⟩
    · rw [he]
      exact (hl.counts o).imp_right fun ⟨ha, hw, hp⟩ =>
        ⟨ha, hw, pending_set ht (by simp [hpo]) hp⟩
    · refine .inr ⟨?_, h0', _, mem_set_of_getElem? ht, hpo'⟩
      rcases hl.counts o with e | ⟨-, e, -⟩
      · exact e ▸ h0
      · rw [h0] at e
        cases e
  · have := countP_set_add (fun t => t.pc.holds p) ht ⟨c, pc'⟩
    simp only [hho, hho'] at this
    exact this.trans (hl.locks p)

/-- A `Load`, or a `LoadOrStore` that finds the key taken, moves only the goroutine. -/
theorem Lin.load (hl : Lin w cs s h) {i : Nat} {c : Call} {pc pc' : Pc}
    (ht : s.threads[i]? = some ⟨c, pc⟩) (hr : pc.answer = none) (hho : ∀ p, pc.holds p = false)
    (hpo : Thread.pendingOwner ⟨c, pc⟩ = none) (hv : Thread.Valid s.world ⟨c, pc'⟩)
    (hr' : pc'.answer = none) (hho' : ∀ p, pc'.holds p = false) :
    Lin w cs ⟨s.world, s.keysMu, s.threads.set i ⟨c, pc'⟩⟩ (h ++ Thread.linCall ⟨c, pc'⟩) :=
  hl.internal ht hr hho hpo hl.separated (.refl _) hv hr' hho' rfl fun _ => .inl rfl

/-- **The linearization point.** A step at which the call takes effect keeps the
invariant, with the call appended to the history, when the world moves as the
sequential store does under the call and the goroutine's answer is the store's. -/
theorem Lin.linearize (hl : Lin w cs s h) {i : Nat} {c : Call} {pc pc' : Pc} {w' : World}
    (ht : s.threads[i]? = some ⟨c, pc⟩) (hr : pc.answer = none) (hho : ∀ p, pc.holds p = false)
    (hpo : ∀ o, Thread.pendingOwner ⟨c, pc⟩ = some o → c.delta o ≠ none)
    (hs' : Separated w') (hk : Keeps s.world w') (ho : w'.observe = s.world.observe.apply c)
    (hans : pc'.answer = some (s.world.observe.result c)) (hv : Thread.Valid w' ⟨c, pc'⟩)
    (hho' : ∀ p, pc'.holds p = false) :
    Lin w cs ⟨w', s.keysMu, s.threads.set i ⟨c, pc'⟩⟩ (h ++ [c]) where
  separated := hs'
  calls := (map_set_of_eq Thread.call ht ⟨c, pc'⟩ rfl).trans hl.calls
  valid t ht' := (List.mem_or_eq_of_mem_set ht').elim (fun ht' => (hl.valid t ht').keeps hk)
    fun e => e ▸ hv
  linearized := by
    rw [Snapshot.results_concat, List.zip_append (Snapshot.length_results _ _).symm,
      ← Snapshot.result_of_sizes hl.sizes]
    exact (List.perm_append_singleton _ _).trans ((hl.linearized.cons _).trans
      (filterMap_set_perm Thread.linearized ht (by simp [Thread.linearized, hr]) ⟨c, pc'⟩
        (by simp [Thread.linearized, hans])).symm)
  sizes := by
    rw [ho, Snapshot.applyAll_concat]
    exact Snapshot.apply_sizes_of_sizes hl.sizes c
  counts o := by
    rw [ho, Snapshot.applyAll_concat, Snapshot.apply_counts, Snapshot.apply_counts]
    cases hd : c.delta o with
    | none =>
      exact (hl.counts o).imp_right fun ⟨ha, hw, hp⟩ =>
        ⟨ha, hw, pending_set ht (fun e => absurd hd (hpo o e)) hp⟩
    | some d => exact .inl (addCount_of_zero ((hl.counts o).imp_right fun h => ⟨h.1, h.2.1⟩) d)
  locks p := by
    have := countP_set_add (fun t => t.pc.holds p) ht ⟨c, pc'⟩
    simp only [hho, hho'] at this
    exact this.trans (hl.locks p)

/-- **`addKey`'s steps.** A step that keeps the world, the goroutine's answer and the
owner it is to add to, and moves `keysMu` as the goroutine takes or leaves it, keeps
the invariant with the same history. -/
theorem Lin.relock (hl : Lin w cs s h) {i : Nat} {c : Call} {pc pc' : Pc} {κ : Nat → Bool}
    (ht : s.threads[i]? = some ⟨c, pc⟩) (hans : pc'.answer = pc.answer)
    (hpo : Thread.pendingOwner ⟨c, pc'⟩ = Thread.pendingOwner ⟨c, pc⟩)
    (hv : Thread.Valid s.world ⟨c, pc'⟩)
    (hκ : ∀ p, (if κ p then 1 else 0) + (if pc.holds p then 1 else 0) =
      (if s.keysMu p then 1 else 0) + (if pc'.holds p then 1 else 0)) :
    Lin w cs ⟨s.world, κ, s.threads.set i ⟨c, pc'⟩⟩ h where
  separated := hl.separated
  calls := (map_set_of_eq Thread.call ht ⟨c, pc'⟩ rfl).trans hl.calls
  valid t ht' := (List.mem_or_eq_of_mem_set ht').elim (hl.valid t) fun e => e ▸ hv
  linearized := (filterMap_set_of_eq Thread.linearized ht ⟨c, pc'⟩ (by simp [Thread.linearized, hans])).symm ▸
    hl.linearized
  sizes := hl.sizes
  counts o := (hl.counts o).imp_right fun ⟨ha, hw, hp⟩ =>
    ⟨ha, hw, pending_set ht (fun e => hpo.trans e) hp⟩
  locks p := by
    have h₁ := countP_set_add (fun t => t.pc.holds p) ht ⟨c, pc'⟩
    have h₂ := hl.locks p
    have h₃ := hκ p
    dsimp only at h₁ ⊢
    split_ifs at h₁ h₂ h₃ ⊢ <;> omega

end Lin

/-! ## A step, and a run -/

/-- How many steps a goroutine is from returning, when no lock stops it. -/
def Pc.rank : Pc → Nat
  | .start => 5
  | .loadOrStore _ => 4
  | .lock _ _ => 3
  | .unlock _ _ => 2
  | .add _ | .store _ => 1
  | .done _ => 0

theorem Pc.rank_le (pc : Pc) : pc.rank ≤ 5 := by
  cases pc <;> simp [Pc.rank]

/-- How many steps goroutine `j` is from returning; zero for a number that names none. -/
def Sys.rank (s : Sys) (j : Nat) : Nat :=
  ((s.threads[j]?).map fun t => t.pc.rank).getD 0

/-- Goroutine `i` waits at the `keysMu.Lock()` of a map whose lock is held. -/
def Sys.Waits (s : Sys) (i : Nat) : Prop :=
  ∃ c p next, s.threads[i]? = some ⟨c, .lock p next⟩ ∧ s.keysMu p = true

theorem Sys.rank_set {s : Sys} {i : Nat} {t : Thread} (ht : s.threads[i]? = some t) (w' : World)
    (κ : Nat → Bool) (t' : Thread) (j : Nat) :
    (⟨w', κ, s.threads.set i t'⟩ : Sys).rank j = if i = j then t'.pc.rank else s.rank j := by
  split_ifs with hij
  · subst hij
    simp [Sys.rank, List.getElem?_set_self (List.getElem?_eq_some_iff.mp ht).1]
  · simp only [Sys.rank, List.getElem?_set_ne hij]

section Run

variable {w : World} {cs : List Call} {s : Sys} {h : List Call} {i : Nat}

theorem Lin.step_start (hl : Lin w cs s h) {c : Call} (ht : s.threads[i]? = some ⟨c, .start⟩) :
    ∃ pc' w', c.step .start s.world = .ok pc' w' ∧ pc'.rank < 5 ∧
      Lin w cs ⟨w', s.keysMu, s.threads.set i ⟨c, pc'⟩⟩ (h ++ Thread.linCall ⟨c, pc'⟩) := by
  have hs := hl.separated
  have hnp : ∀ o, Thread.pendingOwner ⟨c, .start⟩ = some o → c.delta o ≠ none :=
    fun _ h => nomatch h
  -- a call that only reads, or is disabled, takes effect and returns at its first step
  have hread (hst : c.step .start s.world = .ok (.done (s.world.observe.result c)) s.world)
      (hap : s.world.observe = s.world.observe.apply c) :
      ∃ pc' w', c.step .start s.world = .ok pc' w' ∧ pc'.rank < 5 ∧
        Lin w cs ⟨w', s.keysMu, s.threads.set i ⟨c, pc'⟩⟩ (h ++ Thread.linCall ⟨c, pc'⟩) :=
    ⟨_, _, hst, by simp [Pc.rank],
      hl.linearize ht rfl (fun _ => rfl) hnp hs (.refl _) hap rfl trivial fun _ => rfl⟩
  cases c with
  | intAdd m enabled val =>
    cases enabled
    · exact hread (step_intAdd_disabled m val) rfl
    · obtain ⟨p, hp⟩ := hs.ints_set m
      exact ⟨_, _, step_intAdd hp val, by simp [Pc.rank], hl.linearize ht rfl (fun _ => rfl) hnp
        (hs.addTo p val) (keeps_addTo p val)
        (observe_addTo hs (show s.world.cell (.counter m) = some p from hp) val) rfl trivial
        fun _ => rfl⟩
  | tallyAdd m enabled key val =>
    cases enabled
    · exact hread rfl rfl
    · obtain ⟨p, hp⟩ := hs.maps_set (.inl m)
      have he := entry_of_maps hp key
      rw [step_tallyAdd_start hp]
      cases hi : s.world.expvar.maps p key with
      | none =>
        exact ⟨_, _, rfl, by simp [Pc.rank],
          hl.load ht rfl (fun _ => rfl) rfl ⟨rfl, hp⟩ rfl fun _ => rfl⟩
      | some v =>
        obtain ⟨q, rfl⟩ := hs.tally_int m key v (he.trans hi)
        have hc : s.world.cell (.tally m key) = some q := by simp only [World.cell, he, hi]
        exact ⟨_, _, rfl, by simp [Pc.rank],
          hl.load ht rfl (fun _ => rfl) rfl ⟨rfl, q, rfl, hc⟩ rfl fun _ => rfl⟩
  | sizeSet m enabled key val =>
    cases enabled
    · exact hread rfl rfl
    · obtain ⟨p, hp⟩ := hs.maps_set (.inr m)
      rw [step_sizeSet_start hp]
      cases s.world.expvar.maps p key <;>
        exact ⟨_, _, rfl, by simp [Pc.rank],
          hl.load ht rfl (fun _ => rfl) rfl ⟨rfl, hp⟩ rfl fun _ => rfl⟩
  | lsmSizeGet enabled key =>
    cases enabled
    · exact hread rfl rfl
    · exact hread (EStateM.bind_apply_ok (sizeMapGet_refines hs .lsmSize key)) rfl
  | vlogSizeGet enabled key =>
    cases enabled
    · exact hread rfl rfl
    · exact hread (EStateM.bind_apply_ok (sizeMapGet_refines hs .vlogSize key)) rfl

theorem Lin.step_loadOrStore (hl : Lin w cs s h) {c : Call} {p : Nat}
    (ht : s.threads[i]? = some ⟨c, .loadOrStore p⟩) :
    ∃ pc' w', c.step (.loadOrStore p) s.world = .ok pc' w' ∧ pc'.rank < 4 ∧
      Lin w cs ⟨w', s.keysMu, s.threads.set i ⟨c, pc'⟩⟩ (h ++ Thread.linCall ⟨c, pc'⟩) := by
  have hs := hl.separated
  have hv := hl.valid _ (List.getElem?_mem ht)
  cases c with
  | tallyAdd m enabled key val =>
    obtain ⟨rfl, hp⟩ := hv
    have he := entry_of_maps hp key
    cases hi : s.world.expvar.maps p key with
    | some v =>
      obtain ⟨q, rfl⟩ := hs.tally_int m key v (he.trans hi)
      have hc : s.world.cell (.tally m key) = some q := by simp only [World.cell, he, hi]
      have ho := observe_alloc hs
      exact ⟨_, _, step_tallyAdd_loadOrStore_hit hi, by simp [Pc.rank],
        hl.internal ht rfl (fun _ => rfl) rfl hs.alloc keeps_alloc ⟨rfl, q, rfl, hc⟩ rfl
          (fun _ => rfl) (by rw [ho]) fun o => .inl (by rw [ho])⟩
    | none =>
      -- the storing `LoadOrStore`: a zero `Int` the store does not show yet
      have hn : s.world.entry (.inl m) key = none := he.trans hi
      have ho := observe_withEntry hs hp hn ⟨0⟩
      refine ⟨_, _, step_tallyAdd_loadOrStore_miss hi, by simp [Pc.rank],
        hl.internal ht rfl (fun _ => rfl) rfl (hs.withEntry hp key ⟨0⟩) (keeps_withEntry hs hp hn ⟨0⟩)
          ⟨rfl, hp, _, rfl, by rw [cell_withEntry hs hp, if_pos rfl]⟩ rfl (fun _ => rfl)
          (by rw [ho]; rfl) fun o => ?_⟩
      rw [ho]
      by_cases hoe : o = .tally m key
      · subst hoe
        have h0 : s.world.observe.counts (.tally m key) = none := by
          simp [World.observe, World.cell, hn]
        exact .inr ⟨h0, by simp [Snapshot.add, h0], rfl⟩
      · exact .inl (Function.update_noteq hoe _ _)
  | sizeSet m enabled key val =>
    obtain ⟨rfl, hp⟩ := hv
    cases hi : s.world.expvar.maps p key with
    | some v =>
      exact ⟨_, _, step_sizeSet_loadOrStore_hit hi, by simp [Pc.rank],
        hl.load ht rfl (fun _ => rfl) rfl ⟨rfl, hp⟩ rfl fun _ => rfl⟩
    | none =>
      -- the storing `LoadOrStore` is the `Set`'s linearization point
      exact ⟨_, _, step_sizeSet_loadOrStore_miss hi, by simp [Pc.rank],
        hl.linearize ht rfl (fun _ => rfl) (fun _ h => nomatch h) (hs.storeAt hp key val)
          (keeps_storeAt hs hp key val) (observe_storeAt hs hp key val) rfl ⟨rfl, hp⟩
          fun _ => rfl⟩
  | intAdd | lsmSizeGet | vlogSizeGet => exact hv.elim

theorem Lin.step_add (hl : Lin w cs s h) {c : Call} {v : Var}
    (ht : s.threads[i]? = some ⟨c, .add v⟩) :
    ∃ pc' w', c.step (.add v) s.world = .ok pc' w' ∧ pc'.rank < 1 ∧
      Lin w cs ⟨w', s.keysMu, s.threads.set i ⟨c, pc'⟩⟩ (h ++ Thread.linCall ⟨c, pc'⟩) := by
  have hs := hl.separated
  have hv := hl.valid _ (List.getElem?_mem ht)
  cases c with
  | tallyAdd m enabled key val =>
    obtain ⟨rfl, q, rfl, hc⟩ := hv
    have hpo : ∀ o, Thread.pendingOwner ⟨.tallyAdd m true key val, .add (.int q)⟩ = some o →
        (Call.tallyAdd m true key val).delta o ≠ none := by
      rintro o ⟨⟩
      simp [Call.delta]
    exact ⟨_, _, step_tallyAdd_add m true key val q, by simp [Pc.rank],
      hl.linearize ht rfl (fun _ => rfl) hpo (hs.addTo q val) (keeps_addTo q val)
        (observe_addTo hs hc val) rfl trivial fun _ => rfl⟩
  | intAdd | sizeSet | lsmSizeGet | vlogSizeGet => exact hv.elim

theorem Lin.step_store (hl : Lin w cs s h) {c : Call} {p : Nat}
    (ht : s.threads[i]? = some ⟨c, .store p⟩) :
    ∃ pc' w', c.step (.store p) s.world = .ok pc' w' ∧ pc'.rank < 1 ∧
      Lin w cs ⟨w', s.keysMu, s.threads.set i ⟨c, pc'⟩⟩ (h ++ Thread.linCall ⟨c, pc'⟩) := by
  have hs := hl.separated
  have hv := hl.valid _ (List.getElem?_mem ht)
  cases c with
  | sizeSet m enabled key val =>
    obtain ⟨rfl, hp⟩ := hv
    exact ⟨_, _, step_sizeSet_store m true key val p, by simp [Pc.rank],
      hl.linearize ht rfl (fun _ => rfl) (fun _ h => nomatch h) (hs.storeAt hp key val)
        (keeps_storeAt hs hp key val) (observe_storeAt hs hp key val) rfl trivial fun _ => rfl⟩
  | intAdd | tallyAdd | lsmSizeGet | vlogSizeGet => exact hv.elim

/-- A goroutine takes `keysMu` when it is unlocked. -/
theorem Lin.step_lock (hl : Lin w cs s h) {c : Call} {p : Nat} {next : Option Var}
    (ht : s.threads[i]? = some ⟨c, .lock p next⟩) (hp : s.keysMu p = false) :
    Lin w cs ⟨s.world, Function.update s.keysMu p true, s.threads.set i ⟨c, .unlock p next⟩⟩ h := by
  refine hl.relock ht (by cases next <;> rfl) (by cases c <;> cases next <;> rfl)
    (Thread.valid_unlock.mpr (hl.valid _ (List.getElem?_mem ht))) fun p' => ?_
  by_cases hpp : p' = p
  · subst hpp
    simp [hp, Pc.holds]
  · simp [Function.update_noteq hpp, Pc.holds, Ne.symm hpp]

/-- A goroutine leaves `addKey`, unlocking the `keysMu` it alone holds. -/
theorem Lin.step_unlock (hl : Lin w cs s h) {c : Call} {p : Nat} {next : Option Var}
    (ht : s.threads[i]? = some ⟨c, .unlock p next⟩) :
    Lin w cs ⟨s.world, Function.update s.keysMu p false,
      s.threads.set i ⟨c, Pc.afterAddKey next⟩⟩ h := by
  have hheld : s.keysMu p = true := by
    have hpos : 0 < s.threads.countP fun t => t.pc.holds p :=
      List.countP_pos_iff.mpr ⟨_, List.getElem?_mem ht, by simp [Pc.holds]⟩
    rw [hl.locks p] at hpos
    split_ifs at hpos with hk
    · exact hk
    · omega
  have hafter (p' : Nat) : (Pc.afterAddKey next).holds p' = false := by
    cases next <;> rfl
  refine hl.relock ht (by cases next <;> rfl) (by cases c <;> cases next <;> rfl)
    (hl.valid _ (List.getElem?_mem ht)).afterAddKey fun p' => ?_
  rw [hafter p']
  by_cases hpp : p' = p
  · subst hpp
    simp [hheld, Pc.holds]
  · simp [Function.update_noteq hpp, Pc.holds, Ne.symm hpp]

/-- The call of goroutine `i`, if it takes effect between `s` and `s'`. -/
def Sys.linAt (s s' : Sys) (i : Nat) : List Call :=
  if ((s.threads[i]?).bind Thread.linearized).isSome then []
  else ((s'.threads[i]?).map Thread.linCall).getD []

/-- The calls of the goroutines, in the order they take effect along a schedule. -/
def Sys.lins (s : Sys) : List Nat → List Call
  | [] => []
  | i :: sched =>
    match s.stepThread i with
    | .ok s' => s.linAt s' i ++ s'.lins sched
    | .error _ => []

theorem Sys.linAt_set {s : Sys} {c : Call} {pc pc' : Pc} (ht : s.threads[i]? = some ⟨c, pc⟩)
    (hr : pc.answer = none) (w' : World) (κ : Nat → Bool) :
    s.linAt ⟨w', κ, s.threads.set i ⟨c, pc'⟩⟩ i = Thread.linCall ⟨c, pc'⟩ := by
  simp [Sys.linAt, ht, Thread.linearized, hr, List.getElem?_set_self (List.getElem?_eq_some_iff.mp ht).1]

theorem Sys.linAt_of_answer {s : Sys} {c : Call} {pc pc' : Pc} (ht : s.threads[i]? = some ⟨c, pc⟩)
    (hans : pc'.answer = pc.answer) (w' : World) (κ : Nat → Bool) :
    s.linAt ⟨w', κ, s.threads.set i ⟨c, pc'⟩⟩ i = [] := by
  cases hr : pc.answer with
  | none => rw [Sys.linAt_set ht hr]; simp [Thread.linCall, Thread.linearized, hans, hr]
  | some _ => simp [Sys.linAt, ht, Thread.linearized, hr]

/-- A step whose goroutine keeps its place. -/
theorem Sys.linAt_self {s : Sys} : s.linAt s i = [] := by
  unfold Sys.linAt
  split_ifs with hs
  · rfl
  · cases ht : s.threads[i]? with
    | none => rfl
    | some t =>
      simp only [ht, Option.some_bind, Option.not_isSome_iff_eq_none] at hs
      simp [Thread.linCall, hs]

/-- A goroutine that has not returned makes its step, and the step lemmas' invariant,
history and rank give those of the scheduled step. -/
theorem Lin.stepThread_of_step {c : Call} {pc : Pc} (ht : s.threads[i]? = some ⟨c, pc⟩)
    (hd : pc.IsData) (hr : pc.answer = none)
    (hpc : ∃ pc' w', c.step pc s.world = .ok pc' w' ∧ pc'.rank < pc.rank ∧
      Lin w cs ⟨w', s.keysMu, s.threads.set i ⟨c, pc'⟩⟩ (h ++ Thread.linCall ⟨c, pc'⟩)) :
    ∃ s', s.stepThread i = .ok s' ∧ Lin w cs s' (h ++ s.linAt s' i) ∧
      (∀ j, s'.rank j ≤ s.rank j) ∧ (s'.rank i < s.rank i ∨ s.rank i = 0 ∨ s.Waits i) := by
  obtain ⟨pc', w', hstep, hlt, hl'⟩ := hpc
  have hrank := Sys.rank_set ht w' s.keysMu ⟨c, pc'⟩
  have hri : s.rank i = pc.rank := by simp [Sys.rank, ht]
  refine ⟨_, Sys.stepThread_ok ht hd hstep, by rwa [Sys.linAt_set ht hr], fun j => ?_,
    .inl (by rw [hrank, if_pos rfl, hri]; exact hlt)⟩
  rw [hrank]
  split_ifs with hij
  · subst hij
    exact hri ▸ hlt.le
  · exact le_rfl

/-- **One scheduled step.** It does not panic, and it keeps the invariant, with the
goroutine's call appended to the history if this is its linearization point. No
goroutine gets further from returning, and the one scheduled gets closer unless it has
returned or waits at a held `keysMu`. -/
theorem Lin.stepThread (hl : Lin w cs s h) (i : Nat) :
    ∃ s', s.stepThread i = .ok s' ∧ Lin w cs s' (h ++ s.linAt s' i) ∧
      (∀ j, s'.rank j ≤ s.rank j) ∧ (s'.rank i < s.rank i ∨ s.rank i = 0 ∨ s.Waits i) := by
  have hsame (hst : s.stepThread i = .ok s) (hstay : s.rank i = 0 ∨ s.Waits i) :
      ∃ s', s.stepThread i = .ok s' ∧ Lin w cs s' (h ++ s.linAt s' i) ∧
        (∀ j, s'.rank j ≤ s.rank j) ∧ (s'.rank i < s.rank i ∨ s.rank i = 0 ∨ s.Waits i) :=
    ⟨s, hst, by rwa [Sys.linAt_self, List.append_nil], fun _ => le_rfl, .inr hstay⟩
  -- `addKey`'s steps: the goroutine moves one position on, and no call takes effect
  have hmove {c : Call} {pc pc' : Pc} {κ : Nat → Bool} (ht : s.threads[i]? = some ⟨c, pc⟩)
      (hans : pc'.answer = pc.answer) (hlt : pc'.rank < pc.rank)
      (hst : s.stepThread i = .ok ⟨s.world, κ, s.threads.set i ⟨c, pc'⟩⟩)
      (hl' : Lin w cs ⟨s.world, κ, s.threads.set i ⟨c, pc'⟩⟩ h) :
      ∃ s', s.stepThread i = .ok s' ∧ Lin w cs s' (h ++ s.linAt s' i) ∧
        (∀ j, s'.rank j ≤ s.rank j) ∧ (s'.rank i < s.rank i ∨ s.rank i = 0 ∨ s.Waits i) := by
    have hrank := Sys.rank_set ht s.world κ ⟨c, pc'⟩
    have hri : s.rank i = pc.rank := by simp [Sys.rank, ht]
    refine ⟨_, hst, by rwa [Sys.linAt_of_answer ht hans, List.append_nil], fun j => ?_,
      .inl (by rw [hrank, if_pos rfl, hri]; exact hlt)⟩
    rw [hrank]
    split_ifs with hij
    · subst hij
      exact hri ▸ hlt.le
    · exact le_rfl
  cases ht : s.threads[i]? with
  | none => exact hsame (by simp only [Sys.stepThread, ht]) (.inl (by simp [Sys.rank, ht]))
  | some t =>
    obtain ⟨c, pc⟩ := t
    cases pc with
    | done r => exact hsame (Sys.stepThread_done ht) (.inl (by simp [Sys.rank, ht, Pc.rank]))
    | lock p next =>
      cases hp : s.keysMu p with
      | true => exact hsame (Sys.stepThread_wait ht hp) (.inr ⟨c, p, next, ht, hp⟩)
      | false =>
        exact hmove ht (by cases next <;> rfl) (by simp [Pc.rank]) (Sys.stepThread_lock ht hp)
          (hl.step_lock ht hp)
    | unlock p next =>
      exact hmove ht (by cases next <;> rfl) (by cases next <;> simp [Pc.rank, Pc.afterAddKey])
        (Sys.stepThread_unlock ht) (hl.step_unlock ht)
    | start => exact stepThread_of_step ht trivial rfl (hl.step_start ht)
    | loadOrStore p => exact stepThread_of_step ht trivial rfl (hl.step_loadOrStore ht)
    | add v => exact stepThread_of_step ht trivial rfl (hl.step_add ht)
    | store p => exact stepThread_of_step ht trivial rfl (hl.step_store ht)

/-- **A run.** Under any schedule the program does not panic, and it keeps the invariant
with the calls appended to the history in the order they take effect. -/
theorem Lin.exec (hl : Lin w cs s h) (sched : List Nat) :
    ∃ s', s.exec sched = .ok s' ∧ Lin w cs s' (h ++ s.lins sched) := by
  induction sched generalizing s h with
  | nil => exact ⟨s, rfl, by rwa [Sys.lins, List.append_nil]⟩
  | cons i sched ih =>
    obtain ⟨s₁, hst, hl₁, -⟩ := hl.stepThread i
    obtain ⟨s', hex, hl'⟩ := ih hl₁
    exact ⟨s', by simp only [Sys.exec, hst, Except.bind, hex],
      by simpa only [Sys.lins, hst, List.append_assoc] using hl'⟩

/-- Running one schedule after another is running the two joined. -/
theorem Sys.exec_append {s s₁ : Sys} {sched₁ : List Nat} (h₁ : s.exec sched₁ = .ok s₁)
    (sched₂ : List Nat) :
    s.exec (sched₁ ++ sched₂) = s₁.exec sched₂ ∧
      s.lins (sched₁ ++ sched₂) = s.lins sched₁ ++ s₁.lins sched₂ := by
  induction sched₁ generalizing s with
  | nil =>
    cases h₁
    exact ⟨rfl, rfl⟩
  | cons i sched₁ ih =>
    cases hst : s.stepThread i with
    | error e => simp [Sys.exec, hst, Except.bind] at h₁
    | ok s' =>
      have h₁' : s'.exec sched₁ = .ok s₁ := by simpa [Sys.exec, hst, Except.bind] using h₁
      obtain ⟨he, hr⟩ := ih h₁'
      rw [List.cons_append]
      exact ⟨by simp only [Sys.exec, hst, Except.bind, he],
        by simp only [Sys.lins, hst, hr, List.append_assoc]⟩

/-! ### No deadlock -/

/-- Unless every goroutine has returned, one can move: a goroutine that waits at a
`keysMu` waits for the one that holds it, which is at its `Unlock`. -/
theorem Lin.progress (hl : Lin w cs s h) (hnd : ¬ ∀ t ∈ s.threads, ∃ r, t.pc = .done r) :
    ∃ i, s.rank i ≠ 0 ∧ ¬ s.Waits i := by
  push_neg at hnd
  obtain ⟨⟨c, pc⟩, hmem, hpc⟩ := hnd
  obtain ⟨j, hj⟩ := List.getElem?_of_mem hmem
  by_cases hw : s.Waits j
  · obtain ⟨c', p, next, hj', hp⟩ := hw
    have hpos : 0 < s.threads.countP fun t => t.pc.holds p := by rw [hl.locks p, hp]; decide
    obtain ⟨⟨c₁, pc₁⟩, hmem₁, hh⟩ := List.countP_pos_iff.mp hpos
    obtain ⟨k, hk⟩ := List.getElem?_of_mem hmem₁
    cases pc₁ with
    | unlock q n =>
      refine ⟨k, by simp [Sys.rank, hk, Pc.rank], fun ⟨_, _, _, hk', _⟩ => ?_⟩
      rw [hk] at hk'
      cases hk'
    | _ => simp [Pc.holds] at hh
  · refine ⟨j, fun h0 => ?_, hw⟩
    cases pc with
    | done r => exact hpc r rfl
    | _ => simp [Sys.rank, hj, Pc.rank] at h0

/-- **No deadlock.** From any state of the invariant, some schedule of at most the sum of
the goroutines' ranks more steps returns every goroutine. -/
theorem Lin.completes (hl : Lin w cs s h) :
    ∃ more s', more.length ≤ ∑ j ∈ Finset.range cs.length, s.rank j ∧ s.exec more = .ok s' ∧
      ∀ t ∈ s'.threads, ∃ r, t.pc = .done r := by
  generalize hn : ∑ j ∈ Finset.range cs.length, s.rank j = n
  induction n using Nat.strong_induction_on generalizing s h with
  | _ n ih =>
    by_cases hd : ∀ t ∈ s.threads, ∃ r, t.pc = .done r
    · exact ⟨[], s, Nat.zero_le _, rfl, hd⟩
    obtain ⟨i, hi0, hiw⟩ := hl.progress hd
    obtain ⟨s₁, hst, hl₁, hle, hlt⟩ := hl.stepThread i
    have hlt : s₁.rank i < s.rank i := hlt.resolve_right (not_or.mpr ⟨hi0, hiw⟩)
    have hic : i < cs.length := by
      rw [← hl.calls, List.length_map]
      by_contra hge
      exact hi0 (by simp [Sys.rank, List.getElem?_eq_none (not_lt.mp hge)])
    have hsum : ∑ j ∈ Finset.range cs.length, s₁.rank j < n :=
      hn ▸ Finset.sum_lt_sum (fun j _ => hle j) ⟨i, Finset.mem_range.mpr hic, hlt⟩
    obtain ⟨more, s', hlen, hex, hdone⟩ := ih _ hsum hl₁ rfl
    refine ⟨i :: more, s', ?_, by simp only [Sys.exec, hst, Except.bind, hex], hdone⟩
    rw [List.length_cons]
    omega

end Run

/-! ## Complete runs -/

/-- Once every goroutine has returned, each has taken effect, with what it returned. -/
theorem filterMap_linearized_of_done :
    ∀ {l : List Thread}, (∀ t ∈ l, ∃ r, t.pc = .done r) →
      l.filterMap Thread.linearized = l.filterMap Thread.returned
  | [], _ => rfl
  | ⟨c, pc⟩ :: l, hd => by
    obtain ⟨r, rfl⟩ := hd _ (List.mem_cons_self _ _)
    simp only [List.filterMap_cons, Thread.linearized, Thread.returned, Pc.answer,
      Option.map_some', filterMap_linearized_of_done fun t ht => hd t (List.mem_cons_of_mem _ ht)]

theorem map_fst_filterMap_returned :
    ∀ {l : List Thread}, (∀ t ∈ l, ∃ r, t.pc = .done r) →
      (l.filterMap Thread.returned).map Prod.fst = l.map Thread.call
  | [], _ => rfl
  | ⟨c, pc⟩ :: l, hd => by
    obtain ⟨r, rfl⟩ := hd _ (List.mem_cons_self _ _)
    simp only [List.filterMap_cons, Thread.returned, List.map_cons,
      map_fst_filterMap_returned fun t ht => hd t (List.mem_cons_of_mem _ ht)]

/-- A goroutine that has returned has taken effect. -/
theorem returned_sublist_linearized (l : List Thread) :
    List.Sublist (l.filterMap Thread.returned) (l.filterMap Thread.linearized) :=
  filterMap_sublist_of_imp (fun ⟨_, pc⟩ _ h => by
    cases pc <;> simp_all [Thread.returned, Thread.linearized, Pc.answer]) l

/-- A goroutine that has taken effect has started. -/
theorem linearized_sublist_started :
    ∀ l : List Thread,
      List.Sublist ((l.filterMap Thread.linearized).map Prod.fst) ((l.filter Thread.started).map Thread.call)
  | [] => .slnil
  | ⟨c, pc⟩ :: l => by
    have ih := linearized_sublist_started l
    by_cases hs : pc = .start
    · subst hs
      simpa [Thread.linearized, Thread.started, Pc.answer] using ih
    · rw [List.filter_cons_of_pos (by simp [Thread.started, hs]), List.map_cons,
        List.filterMap_cons]
      cases hl : Thread.linearized ⟨c, pc⟩ with
      | none => exact ih.cons c
      | some x =>
        obtain ⟨r, -, rfl⟩ := Option.map_eq_some'.mp hl
        exact ih.cons₂ c

/-- Once every goroutine has returned, the history orders all the calls, and the world
shows the sequential store after it. -/
theorem Lin.complete {w : World} {cs : List Call} {s : Sys} {h : List Call} (hl : Lin w cs s h)
    (hd : ∀ t ∈ s.threads, ∃ r, t.pc = .done r) :
    h.Perm cs ∧ s.world.observe = w.observe.applyAll h := by
  refine ⟨?_, Snapshot.ext (funext fun o => ?_) hl.sizes⟩
  · have hp := hl.linearized.map Prod.fst
    rwa [List.map_fst_zip _ _ (Snapshot.length_results _ _).ge, filterMap_linearized_of_done hd,
      map_fst_filterMap_returned hd, hl.calls] at hp
  · refine (hl.counts o).resolve_right fun ⟨_, _, ⟨c, pc⟩, ht, hto⟩ => ?_
    obtain ⟨r, rfl⟩ := hd _ ht
    cases hto

theorem Sys.rank_le (s : Sys) (j : Nat) : s.rank j ≤ 5 := by
  unfold Sys.rank
  cases s.threads[j]? with
  | none => exact Nat.zero_le _
  | some t => exact t.pc.rank_le

/-- **Linearizability.** From a separated world, no schedule of goroutines calling the
exported functions panics, and every schedule keeps the world separated. Take the calls
in the order of their linearization points. At each point of the schedule, the calls
that have taken effect are the first ones of this order; they include every call that
has returned, and each of them has started. So a call that returned before another one
started comes first. Once every goroutine has returned, running the calls one after
another in this order ends normally, shows the same store, and returns to each call
what its goroutine returned. -/
theorem exec_linearizable {w : World} (hs : Separated w) (cs : List Call) (sched : List Nat) :
    ∃ s, (Sys.start w cs).exec sched = .ok s ∧ Separated s.world ∧
      (∀ k, ∃ sk, (Sys.start w cs).exec (sched.take k) = .ok sk ∧
        (Sys.start w cs).lins (sched.take k) <+: (Sys.start w cs).lins sched ∧
        ((sk.threads.filterMap Thread.returned).map Prod.fst).Subperm
          ((Sys.start w cs).lins (sched.take k)) ∧
        ((Sys.start w cs).lins (sched.take k)).Subperm
          ((sk.threads.filter Thread.started).map Thread.call)) ∧
      ((∀ t ∈ s.threads, ∃ r, t.pc = .done r) →
        ((Sys.start w cs).lins sched).Perm cs ∧
        ∃ rs w', runCalls ((Sys.start w cs).lins sched) w = .ok rs w' ∧
          w'.observe = s.world.observe ∧
          (((Sys.start w cs).lins sched).zip rs).Perm (s.threads.filterMap Thread.returned)) := by
  obtain ⟨s, hex, hl⟩ := (lin_start hs cs).exec sched
  rw [List.nil_append] at hl
  refine ⟨s, hex, hl.separated, fun k => ?_, fun hd => ?_⟩
  · obtain ⟨sk, hexk, hlk⟩ := (lin_start hs cs).exec (sched.take k)
    rw [List.nil_append] at hlk
    have hret := (Sys.exec_append hexk (sched.drop k)).2
    rw [List.take_append_drop] at hret
    have hp := hlk.linearized.map Prod.fst
    rw [List.map_fst_zip _ _ (Snapshot.length_results _ _).ge] at hp
    exact ⟨sk, hexk, ⟨_, hret.symm⟩,
      ((returned_sublist_linearized _).map Prod.fst).subperm.trans hp.symm.subperm,
      hp.subperm.trans (linearized_sublist_started _).subperm⟩
  · obtain ⟨hp, ho⟩ := hl.complete hd
    obtain ⟨w', hrun, -, ho'⟩ := runCalls_refines hs ((Sys.start w cs).lins sched)
    exact ⟨hp, _, w', hrun, ho'.trans ho.symm, filterMap_linearized_of_done hd ▸ hl.linearized⟩

/-- Two goroutines `Set` one size key for the first time, after start-up. Both `Load`s
miss; the first `LoadOrStore` stores and the goroutine enters `addKey`; the second finds
the key taken, `Store`s and returns first. The first call takes effect first. -/
theorem exec_linearizable_race :
    ∃ w, Separated w ∧
      ∃ s, (Sys.start w [.sizeSet .lsmSize true "l0" (.other 1),
          .sizeSet .lsmSize true "l0" (.other 2)]).exec [0, 1, 0, 1, 1, 0, 0] = .ok s ∧
        Separated s.world ∧
        (∀ k, ∃ sk, (Sys.start w [.sizeSet .lsmSize true "l0" (.other 1),
            .sizeSet .lsmSize true "l0" (.other 2)]).exec ([0, 1, 0, 1, 1, 0, 0].take k) = .ok sk ∧
          (Sys.start w [.sizeSet .lsmSize true "l0" (.other 1),
            .sizeSet .lsmSize true "l0" (.other 2)]).lins ([0, 1, 0, 1, 1, 0, 0].take k) <+:
            (Sys.start w [.sizeSet .lsmSize true "l0" (.other 1),
              .sizeSet .lsmSize true "l0" (.other 2)]).lins [0, 1, 0, 1, 1, 0, 0] ∧
          ((sk.threads.filterMap Thread.returned).map Prod.fst).Subperm
            ((Sys.start w [.sizeSet .lsmSize true "l0" (.other 1),
              .sizeSet .lsmSize true "l0" (.other 2)]).lins ([0, 1, 0, 1, 1, 0, 0].take k)) ∧
          ((Sys.start w [.sizeSet .lsmSize true "l0" (.other 1),
            .sizeSet .lsmSize true "l0" (.other 2)]).lins ([0, 1, 0, 1, 1, 0, 0].take k)).Subperm
            ((sk.threads.filter Thread.started).map Thread.call)) ∧
        ((∀ t ∈ s.threads, ∃ r, t.pc = .done r) →
          ((Sys.start w [.sizeSet .lsmSize true "l0" (.other 1),
            .sizeSet .lsmSize true "l0" (.other 2)]).lins [0, 1, 0, 1, 1, 0, 0]).Perm
            [.sizeSet .lsmSize true "l0" (.other 1), .sizeSet .lsmSize true "l0" (.other 2)] ∧
          ∃ rs w', runCalls ((Sys.start w [.sizeSet .lsmSize true "l0" (.other 1),
              .sizeSet .lsmSize true "l0" (.other 2)]).lins [0, 1, 0, 1, 1, 0, 0]) w = .ok rs w' ∧
            w'.observe = s.world.observe ∧
            (((Sys.start w [.sizeSet .lsmSize true "l0" (.other 1),
              .sizeSet .lsmSize true "l0" (.other 2)]).lins [0, 1, 0, 1, 1, 0, 0]).zip rs).Perm
              (s.threads.filterMap Thread.returned)) := by
  obtain ⟨w, -, hs, -⟩ := @initMetrics_fresh ⟨Expvar.start, Globals.zero⟩ Expvar.wf_start start_vars_name
  exact ⟨w, hs, exec_linearizable hs _ _⟩

/-- **Every run can finish.** From a separated world, whatever schedule has run, no
goroutine is stuck: some schedule of at most five more steps per goroutine returns them
all. A goroutine waits only at `keysMu.Lock()`, for the goroutine inside `addKey`, which
leaves it at its next step. -/
theorem exec_completes {w : World} (hs : Separated w) (cs : List Call) (sched : List Nat) :
    ∃ s, (Sys.start w cs).exec sched = .ok s ∧
      ∃ more s', more.length ≤ 5 * cs.length ∧ s.exec more = .ok s' ∧
        ∀ t ∈ s'.threads, ∃ r, t.pc = .done r := by
  obtain ⟨s, hex, hl⟩ := (lin_start hs cs).exec sched
  obtain ⟨more, s', hlen, hex', hd⟩ := hl.completes
  have hsum : ∑ j ∈ Finset.range cs.length, s.rank j ≤ 5 * cs.length :=
    calc ∑ j ∈ Finset.range cs.length, s.rank j
        ≤ ∑ _j ∈ Finset.range cs.length, 5 := Finset.sum_le_sum fun j _ => s.rank_le j
      _ = 5 * cs.length := by rw [Finset.sum_const, Finset.card_range, smul_eq_mul, mul_comm]
  exact ⟨s, hex, more, s', hlen.trans hsum, hex', hd⟩

/-- The two racing `Set`s, stopped while the first holds the lock, can finish. -/
theorem exec_completes_race :
    ∃ w, Separated w ∧
      ∃ s, (Sys.start w [.sizeSet .lsmSize true "l0" (.other 1),
          .sizeSet .lsmSize true "l0" (.other 2)]).exec [0, 1, 0, 1, 1, 0] = .ok s ∧
        ∃ more s', more.length ≤ 5 * [Call.sizeSet .lsmSize true "l0" (.other 1),
            .sizeSet .lsmSize true "l0" (.other 2)].length ∧ s.exec more = .ok s' ∧
          ∀ t ∈ s'.threads, ∃ r, t.pc = .done r := by
  obtain ⟨w, -, hs, -⟩ := @initMetrics_fresh ⟨Expvar.start, Globals.zero⟩ Expvar.wf_start start_vars_name
  exact ⟨w, hs, exec_completes hs _ _⟩

/-- **No lost update, from program start.** From a fresh registry, after `init`, no
schedule of goroutines panics. Once they have all returned, whatever the interleaving:

* each counter holds the sum of the values of its enabled adds, wrapped to 64 bits;
* each tally key holds the same for its enabled adds, and is absent if there were none;
* each size key holds the value of one of its enabled `Set`s, and is absent if there
  was none. Which one depends on the interleaving. -/
theorem exec_counts_from_start {w : World} (hwf : w.expvar.WF)
    (hfree : ∀ x : Metric, w.expvar.vars x.name = none) (hnot : w.globals.metricsOnce = false)
    (cs : List Call) (sched : List Nat) :
    ∃ w₁ s, init w = .ok () w₁ ∧ (Sys.start w₁ cs).exec sched = .ok s ∧
      ((∀ t ∈ s.threads, ∃ r, t.pc = .done r) →
        (∀ m, s.world.observe.counts (.counter m) =
          some ((cs.filterMap (Call.delta (.counter m))).map Int64.toUInt64).sum) ∧
        (∀ m key, s.world.observe.counts (.tally m key) =
          if cs.filterMap (Call.delta (.tally m key)) = [] then none
          else some ((cs.filterMap (Call.delta (.tally m key))).map Int64.toUInt64).sum) ∧
        (∀ m key, s.world.observe.sizes m key = none ↔ cs.filterMap (Call.stored m key) = []) ∧
        (∀ m key v, s.world.observe.sizes m key = some v → v ∈ cs.filterMap (Call.stored m key))) := by
  obtain ⟨w₁, h₁, hs₁, ho₁, -⟩ := initMetrics_fresh hwf hfree
  have hs₁' : Separated { w₁ with globals := { w₁.globals with metricsOnce := true } } :=
    ⟨hs₁.1, hs₁.2, hs₁.3, hs₁.4, hs₁.5, hs₁.6⟩
  obtain ⟨s, hex, hl⟩ := (lin_start hs₁' cs).exec sched
  obtain ⟨h, hl⟩ : ∃ h, Lin _ cs s h := ⟨_, hl⟩
  refine ⟨_, s, init_of_initMetrics hnot h₁, hex, fun hd => ?_⟩
  obtain ⟨hp, ho⟩ := hl.complete hd
  change s.world.observe = w₁.observe.applyAll h at ho
  rw [ho₁] at ho
  have hsz (m : SizeMap) (key : String) :
      s.world.observe.sizes m key = (h.filterMap (Call.stored m key)).getLast? := by
    rw [ho, Snapshot.applyAll_sizes]
    exact Option.or_none
  refine ⟨fun m => ?_, fun m key => ?_, fun m key => ?_, fun m key v hv => ?_⟩
  · rw [ho, Snapshot.counts_perm _ hp, applyAll_zero_counter]
  · rw [ho, Snapshot.counts_perm _ hp, applyAll_zero_tally]
  · rw [hsz, List.getLast?_eq_none_iff, ← List.length_eq_zero, ← List.length_eq_zero,
      (hp.filterMap _).length_eq]
  · rw [hsz] at hv
    exact (hp.filterMap _).subset (List.mem_of_getLast?_eq_some hv)

/-- The two racing adds from program start. -/
theorem exec_counts_from_start_race :
    (Expvar.start.WF ∧ (∀ x : Metric, Expvar.start.vars x.name = none) ∧
      Globals.zero.metricsOnce = false) ∧
    ∃ w₁ s, init ⟨Expvar.start, Globals.zero⟩ = .ok () w₁ ∧
      (Sys.start w₁ [.tallyAdd .numLSMGets true "l0" ⟨1⟩, .tallyAdd .numLSMGets true "l0" ⟨2⟩]).exec
        [0, 1, 0, 1, 0, 1] = .ok s ∧
      ((∀ t ∈ s.threads, ∃ r, t.pc = .done r) →
        (∀ m, s.world.observe.counts (.counter m) =
          some (([Call.tallyAdd .numLSMGets true "l0" ⟨1⟩, .tallyAdd .numLSMGets true "l0" ⟨2⟩].filterMap
            (Call.delta (.counter m))).map Int64.toUInt64).sum) ∧
        (∀ m key, s.world.observe.counts (.tally m key) =
          if [Call.tallyAdd .numLSMGets true "l0" ⟨1⟩, .tallyAdd .numLSMGets true "l0" ⟨2⟩].filterMap
            (Call.delta (.tally m key)) = [] then none
          else some (([Call.tallyAdd .numLSMGets true "l0" ⟨1⟩,
            .tallyAdd .numLSMGets true "l0" ⟨2⟩].filterMap (Call.delta (.tally m key))).map
              Int64.toUInt64).sum) ∧
        (∀ m key, s.world.observe.sizes m key = none ↔
          [Call.tallyAdd .numLSMGets true "l0" ⟨1⟩, .tallyAdd .numLSMGets true "l0" ⟨2⟩].filterMap
            (Call.stored m key) = []) ∧
        (∀ m key v, s.world.observe.sizes m key = some v →
          v ∈ [Call.tallyAdd .numLSMGets true "l0" ⟨1⟩, .tallyAdd .numLSMGets true "l0" ⟨2⟩].filterMap
            (Call.stored m key))) :=
  ⟨⟨Expvar.wf_start, start_vars_name, rfl⟩,
    exec_counts_from_start Expvar.wf_start start_vars_name rfl _ _⟩

end Y

end Zapdb
