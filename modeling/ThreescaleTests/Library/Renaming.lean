import ThreescaleTests.Library.Objects
import ThreescaleTests.Library.Simulation

/-!
# Memories that differ in the locations only

A renaming takes some objects of one memory to objects of another that look the same. Programs
that touch memory through objects only end the same in both memories, and prolong the renaming
by what they have made.
-/

namespace Library

/-- `f` takes each object of `D` to one that holds the same values and refers to what its
references are taken to; the objects of `D` refer to no others. -/
structure Renames (f : Loc → Loc) (D : Set Loc) (m m' : Memory) : Prop where
  inj : Set.InjOn f D
  cells : ∀ l ∈ D, ∃ c, m.read? l = some c ∧ (∀ r ∈ c.refs, r ∈ D) ∧
    m'.read? (f l) = some (c.map f)

/-- `g` goes on with `f` where `f` ended. -/
structure Prolongs (f : Loc → Loc) (D : Set Loc) (g : Loc → Loc) (E : Set Loc) : Prop where
  subset : D ⊆ E
  eqOn : Set.EqOn g f D

theorem Prolongs.refl (f : Loc → Loc) (D : Set Loc) : Prolongs f D f D :=
  ⟨Set.Subset.rfl, Set.eqOn_refl f D⟩

theorem Prolongs.trans {f g k : Loc → Loc} {D E F : Set Loc} (h : Prolongs f D g E)
    (h' : Prolongs g E k F) : Prolongs f D k F :=
  ⟨h.subset.trans h'.subset, (h'.eqOn.mono h.subset).trans h.eqOn⟩

theorem mapM_option_congr {α β : Type} {f g : α → Option β} {as : List α}
    (h : ∀ a ∈ as, f a = g a) : as.mapM f = as.mapM g := by
  induction as with
  | nil => rfl
  | cons a as ih =>
      rw [List.mapM_cons, List.mapM_cons, h a List.mem_cons_self,
        ih fun b hb => h b (List.mem_cons_of_mem a hb)]

namespace Renames

variable {f : Loc → Loc} {D : Set Loc} {m m' : Memory}

theorem lt (h : Renames f D m m') {l : Loc} (hl : l ∈ D) : l < m.size := by
  obtain ⟨c, hc, -⟩ := h.cells l hl
  exact Heap.read?_lt hc

theorem lt' (h : Renames f D m m') {l : Loc} (hl : l ∈ D) : f l < m'.size := by
  obtain ⟨c, -, -, hc⟩ := h.cells l hl
  exact Heap.read?_lt hc

/-- Every object of a memory without dangling references is an object of itself. -/
theorem id_of_closed (h : m.Closed) : Renames id {l | l < m.size} m m where
  inj := Function.injective_id.injOn
  cells l hl := by
    obtain ⟨c, hc⟩ := Heap.exists_read? hl
    refine ⟨c, hc, h c (List.mem_of_getElem? hc), ?_⟩
    rw [c.map_id]
    exact hc

/-- New objects take nothing from the old ones. -/
theorem of_extends (h : Renames f D m m') {m'' : Memory} (hext : Heap.Extends m' m'') :
    Renames f D m m'' where
  inj := h.inj
  cells l hl := by
    obtain ⟨c, hread, hrefs, hread'⟩ := h.cells l hl
    exact ⟨c, hread, hrefs, hext.read? hread'⟩

theorem write (h : Renames f D m m') {l : Loc} (hl : l ∈ D) {c : Cell Loc}
    (hc : ∀ r ∈ c.refs, r ∈ D) : Renames f D (m.write l c) (m'.write (f l) (c.map f)) where
  inj := h.inj
  cells l' hl' := by
    by_cases heq : l = l'
    · subst heq
      exact ⟨c, Heap.read?_write_self (h.lt hl) c, hc, Heap.read?_write_self (h.lt' hl) _⟩
    · have hne : f l ≠ f l' := fun hf => heq (h.inj hl hl' hf)
      rw [Heap.read?_write_of_ne heq, Heap.read?_write_of_ne hne]
      exact h.cells l' hl'

/-- A new object is taken to a new object. -/
theorem alloc (h : Renames f D m m') {c : Cell Loc} (hc : ∀ r ∈ c.refs, r ∈ D) :
    Prolongs f D (Function.update f m.size m'.size) (insert m.size D) ∧
      Renames (Function.update f m.size m'.size) (insert m.size D) (m.alloc c)
        (m'.alloc (c.map f)) := by
  have hold {l : Loc} (hl : l ∈ D) : Function.update f m.size m'.size l = f l :=
    Function.update_of_ne (Nat.ne_of_lt (h.lt hl)) _ _
  have hmap {c : Cell Loc} (hc : ∀ r ∈ c.refs, r ∈ D) :
      c.map (Function.update f m.size m'.size) = c.map f :=
    Cell.map_congr fun r hr => hold (hc r hr)
  refine ⟨⟨Set.subset_insert _ _, fun l hl => hold hl⟩, fun l hl l' hl' heq => ?_,
    fun l hl => ?_⟩
  · rcases hl with rfl | hl <;> rcases hl' with rfl | hl'
    · rfl
    · rw [Function.update_self, hold hl'] at heq
      exact absurd heq.symm (Nat.ne_of_lt (h.lt' hl'))
    · rw [Function.update_self, hold hl] at heq
      exact absurd heq (Nat.ne_of_lt (h.lt' hl))
    · rw [hold hl, hold hl'] at heq
      exact h.inj hl hl' heq
  · rcases hl with rfl | hl
    · refine ⟨c, Heap.read?_alloc_self m c, fun r hr => .inr (hc r hr), ?_⟩
      rw [Function.update_self, hmap hc]
      exact Heap.read?_alloc_self m' _
    · obtain ⟨c', hread, hrefs, hread'⟩ := h.cells l hl
      refine ⟨c', ?_, fun r hr => .inr (hrefs r hr), ?_⟩
      · rw [Heap.read?_alloc_of_lt (h.lt hl), hread]
      · rw [hold hl, hmap hrefs, Heap.read?_alloc_of_lt (h.lt' hl), hread']

/-- Objects that look the same stand for the same documents. -/
theorem contents_eq (h : Renames f D m m') (n : Nat) {v : Val Loc} (hv : ∀ r ∈ v.refs, r ∈ D) :
    m'.contents n (v.map f) = m.contents n v := by
  induction n generalizing v with
  | zero => cases v <;> rfl
  | succ n ih =>
      cases v with
      | plain j => rfl
      | ref l =>
          obtain ⟨c, hread, hrefs, hread'⟩ := h.cells l (hv l (List.mem_singleton_self l))
          have hvals : ∀ v ∈ c.vals, m'.contents n (v.map f) = m.contents n v := fun v hv' =>
            ih fun r hr => hrefs r (List.mem_flatMap.mpr ⟨v, hv', hr⟩)
          rw [Val.map, Memory.contents, hread', Memory.contents, hread]
          cases c with
          | dict d =>
              have hitems : d.items.mapM (fun e => (m'.contents n (e.2.map f)).map (e.1, ·)) =
                  d.items.mapM fun e => (m.contents n e.2).map (e.1, ·) :=
                mapM_option_congr fun e he => by rw [hvals e.2 (List.mem_map_of_mem he)]
              simp only [Cell.map, Dict.mapValues, List.mapM_map, Function.comp_def, hitems]
          | list vs =>
              have hitems : vs.mapM (fun v => m'.contents n (v.map f)) =
                  vs.mapM (m.contents n) := mapM_option_congr hvals
              simp only [Cell.map, List.mapM_map, Function.comp_def, hitems]

end Renames

/-- The objects that the references lead to are as they were: they hold what they held, but for
objects that took the place of others that looked the same. -/
def Memory.Keeps (refs : List Loc) (m m' : Memory) : Prop :=
  ∃ f D, Renames f D m m' ∧ ∀ l ∈ refs, l ∈ D ∧ f l = l

theorem Memory.Keeps.of_extends {refs : List Loc} {m m' : Memory} (hclosed : m.Closed)
    (hrefs : ∀ l ∈ refs, l < m.size) (h : Heap.Extends m m') : m.Keeps refs m' :=
  ⟨id, _, (Renames.id_of_closed hclosed).of_extends h, fun l hl => ⟨hrefs l hl, rfl⟩⟩

theorem Memory.Keeps.contents_eq {refs : List Loc} {m m' : Memory} (h : m.Keeps refs m') (n : Nat)
    {l : Loc} (hl : l ∈ refs) : m'.contents n (.ref l) = m.contents n (.ref l) := by
  obtain ⟨f, D, hrenames, hrefs⟩ := h
  have hcontents := hrenames.contents_eq n (v := .ref l) fun r hr =>
    List.mem_singleton.mp hr ▸ (hrefs l hl).1
  rwa [Val.map, (hrefs l hl).2] at hcontents

/-! ## Programs -/

/-- A relation of two states, or of two values, that a renaming of objects takes to each other. -/
abbrev Renamed (σ : Type) : Type := (Loc → Loc) → Set Loc → σ → σ → Prop

/-- Both end the same, in states that a prolonged renaming relates. -/
def Parallel {σ α : Type} (R : Renamed σ) (V : Renamed α) (f : Loc → Loc) (D : Set Loc)
    (r r' : Except Exn α × σ) : Prop :=
  ∃ g E, Prolongs f D g E ∧ R g E r.2 r'.2 ∧ Outcome Eq (V g E) r.1 r'.1

def SameValue {α : Type} : Renamed α := fun _ _ a a' => a' = a

def SameObject : Renamed Loc := fun f D l l' => l ∈ D ∧ l' = f l

def SameCell : Renamed (Cell Loc) := fun f D c c' => (∀ r ∈ c.refs, r ∈ D) ∧ c' = c.map f

namespace Parallel

section

variable {σ α β : Type} {R : Renamed σ} {V : Renamed α} {W : Renamed β} {f : Loc → Loc}
  {D : Set Loc} {s s' : σ}

theorem of_outcome (h : R f D s s') {r r' : Except Exn α} (houtcome : Outcome Eq (V f D) r r') :
    Parallel R V f D (r, s) (r', s') :=
  ⟨f, D, Prolongs.refl f D, h, houtcome⟩

theorem pure (h : R f D s s') {a a' : α} (hvalues : V f D a a') :
    Parallel R V f D ((Pure.pure a : Prog σ α).run s) ((Pure.pure a' : Prog σ α).run s') :=
  of_outcome h (.ok hvalues)

theorem raise (h : R f D s s') (e : Exn) :
    Parallel R V f D ((Prog.raise e).run s) ((Prog.raise e).run s') :=
  of_outcome h (.error rfl)

theorem bind {p p' : Prog σ α} {k k' : α → Prog σ β}
    (h : Parallel R V f D (p.run s) (p'.run s'))
    (hk : ∀ g E a a' t t', Prolongs f D g E → R g E t t' → V g E a a' →
      Parallel R W g E ((k a).run t) ((k' a').run t')) :
    Parallel R W f D ((p >>= k).run s) ((p' >>= k').run s') := by
  obtain ⟨g, E, hprolongs, hstates, houtcome⟩ := h
  cases hp : p.run s with
  | mk r t =>
      cases hp' : p'.run s' with
      | mk r' t' =>
          rw [hp, hp'] at hstates houtcome
          cases houtcome with
          | error heq =>
              subst heq
              rw [Prog.bind_of_error hp, Prog.bind_of_error hp']
              exact ⟨g, E, hprolongs, hstates, .error rfl⟩
          | ok hvalues =>
              rw [Prog.bind_of_ok hp, Prog.bind_of_ok hp']
              obtain ⟨g', E', hprolongs', hrest⟩ := hk g E _ _ t t' hprolongs hstates hvalues
              exact ⟨g', E', hprolongs.trans hprolongs', hrest⟩

theorem handle {p p' : Prog σ α} {k k' : Exn → Prog σ α}
    (h : Parallel R V f D (p.run s) (p'.run s'))
    (hk : ∀ g E e t t', Prolongs f D g E → R g E t t' →
      Parallel R V g E ((k e).run t) ((k' e).run t')) :
    Parallel R V f D ((Prog.handle p k).run s) ((Prog.handle p' k').run s') := by
  obtain ⟨g, E, hprolongs, hstates, houtcome⟩ := h
  cases hp : p.run s with
  | mk r t =>
      cases hp' : p'.run s' with
      | mk r' t' =>
          rw [hp, hp'] at hstates houtcome
          cases houtcome with
          | error heq =>
              subst heq
              rw [Prog.handle_of_error hp, Prog.handle_of_error hp']
              obtain ⟨g', E', hprolongs', hrest⟩ := hk g E _ t t' hprolongs hstates
              exact ⟨g', E', hprolongs.trans hprolongs', hrest⟩
          | ok hvalues =>
              rw [Prog.handle_of_ok hp, Prog.handle_of_ok hp']
              exact ⟨g, E, hprolongs, hstates, .ok hvalues⟩

theorem retryEach {caught : Exn → Bool} {p p' : Nat → Prog σ α}
    (hp : ∀ k g E t t', R g E t t' → Parallel R V g E ((p k).run t) ((p' k).run t'))
    (h : R f D s s') (k n : Nat) :
    Parallel R V f D ((Prog.retryEach caught p k n).run s)
      ((Prog.retryEach caught p' k n).run s') := by
  induction n generalizing f D s s' k with
  | zero => exact hp k f D s s' h
  | succ n ih =>
      refine (hp k f D s s' h).handle fun g E e t t' _ hstates => ?_
      split
      · exact ih hstates (k + 1)
      · exact raise hstates e

/-- Loops over the same list, of which each iteration ends the same. -/
theorem forEach {γ : Type} {p p' : γ → Prog σ Unit} {as : List γ} (h : R f D s s')
    (hp : ∀ a ∈ as, ∀ g E t t', Prolongs f D g E → R g E t t' →
      Parallel R SameValue g E ((p a).run t) ((p' a).run t')) :
    Parallel R SameValue f D ((Prog.forEach p as).run s) ((Prog.forEach p' as).run s') := by
  induction as generalizing f D s s' with
  | nil => exact pure h rfl
  | cons a as ih =>
      refine (hp a List.mem_cons_self f D s s' (Prolongs.refl f D) h).bind ?_
      intro g E _ _ t t' hprolongs hstates _
      refine ih hstates fun b hb g' E' u u' hprolongs' hstates' => ?_
      exact hp b (List.mem_cons_of_mem a hb) g' E' u u' (hprolongs.trans hprolongs') hstates'

end

variable {f : Loc → Loc} {D : Set Loc} {m m' : Memory}

theorem get (h : Renames f D m m') {l : Loc} (hl : l ∈ D) :
    Parallel Renames SameCell f D ((Memory.get l).run m) ((Memory.get (f l)).run m') := by
  obtain ⟨c, hread, hrefs, hread'⟩ := h.cells l hl
  rw [Memory.get_run hread, Memory.get_run hread']
  exact of_outcome h (.ok ⟨hrefs, rfl⟩)

theorem put (h : Renames f D m m') {l : Loc} (hl : l ∈ D) {c : Cell Loc}
    (hc : ∀ r ∈ c.refs, r ∈ D) :
    Parallel Renames SameValue f D ((Memory.put l c).run m)
      ((Memory.put (f l) (c.map f)).run m') :=
  of_outcome (h.write hl hc) (.ok rfl)

theorem new (h : Renames f D m m') {c : Cell Loc} (hc : ∀ r ∈ c.refs, r ∈ D) :
    Parallel Renames SameObject f D ((Memory.new c).run m) ((Memory.new (c.map f)).run m') := by
  obtain ⟨hprolongs, hrenames⟩ := h.alloc hc
  refine ⟨_, _, hprolongs, hrenames, .ok ⟨Set.mem_insert _ _, ?_⟩⟩
  exact (Function.update_self m.size m'.size f).symm

theorem copy (h : Renames f D m m') {l : Loc} (hl : l ∈ D) :
    Parallel Renames SameObject f D ((Memory.copy l).run m) ((Memory.copy (f l)).run m') := by
  refine (get h hl).bind fun g E c c' t t' _ hrenames hcells => ?_
  rw [hcells.2]
  exact new hrenames hcells.1

end Parallel

/-! ## Code -/

namespace Code

variable {f : Loc → Loc} {D : Set Loc}

theorem object_map (f : Loc → Loc) (given : Loc) (known : List Loc) (r : Nat) :
    object (f given) (known.map f) r = f (object given known r) :=
  List.getD_map known given f

theorem object_mem {given : Loc} {known : List Loc} (hgiven : given ∈ D)
    (hknown : ∀ l ∈ known, l ∈ D) (r : Nat) : object given known r ∈ D := by
  unfold object
  by_cases hr : r < known.length
  · rw [List.getD_eq_getElem known given hr]
    exact hknown _ (List.getElem_mem hr)
  · rw [List.getD_eq_default known given (Nat.le_of_not_lt hr)]
    exact hgiven

theorem map_object (f : Loc → Loc) (given : Loc) (known : List Loc) (c : Cell Nat) :
    c.map (object (f given) (known.map f)) = (c.map (object given known)).map f := by
  rw [Cell.map_map]
  exact Cell.map_congr fun r _ => object_map f given known r

theorem refs_object_mem {given : Loc} {known : List Loc} (hgiven : given ∈ D)
    (hknown : ∀ l ∈ known, l ∈ D) (c : Cell Nat) :
    ∀ l ∈ (c.map (object given known)).refs, l ∈ D := by
  intro l hl
  rw [Cell.refs_map] at hl
  obtain ⟨r, -, rfl⟩ := List.mem_map.mp hl
  exact object_mem hgiven hknown r

theorem meet_map (hinj : Set.InjOn f D) {known refs : List Loc} (hknown : ∀ l ∈ known, l ∈ D)
    (hrefs : ∀ l ∈ refs, l ∈ D) : meet (known.map f) (refs.map f) = (meet known refs).map f := by
  induction refs generalizing known with
  | nil => rfl
  | cons l refs ih =>
      obtain ⟨hl, hrest⟩ := List.forall_mem_cons.mp hrefs
      have hmem : f l ∈ known.map f ↔ l ∈ known := by
        refine ⟨fun h => ?_, List.mem_map_of_mem⟩
        obtain ⟨l', hl', heq⟩ := List.mem_map.mp h
        exact hinj (hknown l' hl') hl heq ▸ hl'
      rw [List.map_cons, meet_cons, meet_cons]
      by_cases hknows : l ∈ known
      · rw [if_pos hknows, if_pos (hmem.mpr hknows), ih hknown hrest]
      · have happend : known.map f ++ [f l] = (known ++ [l]).map f := by simp
        rw [if_neg hknows, if_neg fun h => hknows (hmem.mp h), happend]
        refine ih (fun l' hl' => ?_) hrest
        rcases List.mem_append.mp hl' with h | h
        · exact hknown l' h
        · exact List.mem_singleton.mp h ▸ hl

theorem idxOf_map (hinj : Set.InjOn f D) {ls : List Loc} (hls : ∀ l ∈ ls, l ∈ D) {l : Loc}
    (hl : l ∈ D) : (ls.map f).idxOf (f l) = ls.idxOf l := by
  induction ls with
  | nil => rfl
  | cons l' ls ih =>
      obtain ⟨hl', hrest⟩ := List.forall_mem_cons.mp hls
      rw [List.map_cons, List.idxOf_cons, List.idxOf_cons, ih hrest]
      have heq : (f l' == f l) = (l' == l) := by
        rw [Bool.eq_iff_iff, beq_iff_eq, beq_iff_eq]
        exact hinj.eq_iff hl' hl
      rw [heq]

/-- Code does the same with objects that look the same. -/
theorem run_parallel (code : Code) {m m' : Memory} (h : Renames f D m m') {given : Loc}
    {known : List Loc} (hgiven : given ∈ D) (hknown : ∀ l ∈ known, l ∈ D) :
    Parallel Renames SameObject f D ((run given code known).run m)
      ((run (f given) code (known.map f)).run m') := by
  induction code generalizing f D m m' known with
  | ret r => exact .pure h ⟨object_mem hgiven hknown r, object_map f given known r⟩
  | raise e => exact .raise h e
  | look r next ih =>
      rw [run, run, object_map]
      refine (Parallel.get h (object_mem hgiven hknown r)).bind ?_
      intro g E c c' t t' hprolongs hrenames hcells
      obtain ⟨hrefs, rfl⟩ := hcells
      have hgiven' : g given = f given := hprolongs.eqOn hgiven
      have hknown' : known.map g = known.map f :=
        List.map_congr_left fun l hl => hprolongs.eqOn (hknown l hl)
      have hmet : ∀ l ∈ meet known c.refs, l ∈ E := fun l hl =>
        (mem_meet.mp hl).elim (fun h => hprolongs.subset (hknown l h)) (hrefs l)
      have hmeet : meet (known.map f) (c.map g).refs = (meet known c.refs).map g := by
        rw [Cell.refs_map, ← hknown']
        exact meet_map hrenames.inj (fun l hl => hprolongs.subset (hknown l hl)) hrefs
      have hnumbers : (c.map g).map (fun l => ((meet known c.refs).map g).idxOf l) =
          c.map fun l => (meet known c.refs).idxOf l := by
        rw [Cell.map_map]
        exact Cell.map_congr fun l hl => idxOf_map hrenames.inj hmet (hrefs l hl)
      rw [hmeet, hnumbers, ← hgiven']
      exact ih _ hrenames (hprolongs.subset hgiven) hmet
  | put r c next ih =>
      rw [run, run, object_map, map_object]
      have hwritten := h.write (object_mem hgiven hknown r) (refs_object_mem hgiven hknown c)
      exact ih hwritten hgiven hknown
  | new c next ih =>
      rw [run, run, map_object]
      refine (Parallel.new h (refs_object_mem hgiven hknown c)).bind ?_
      intro g E l l' t t' hprolongs hrenames hobjects
      obtain ⟨hl, rfl⟩ := hobjects
      have hknown' : known.map f ++ [g l] = (known ++ [l]).map g := by
        rw [List.map_append, List.map_singleton,
          List.map_congr_left fun l hl => hprolongs.eqOn (hknown l hl)]
      rw [hknown', ← hprolongs.eqOn hgiven]
      refine ih hrenames (hprolongs.subset hgiven) fun l' hl' => ?_
      rcases List.mem_append.mp hl' with h | h
      · exact hprolongs.subset (hknown l' h)
      · exact List.mem_singleton.mp h ▸ hl

theorem call_parallel (code : Code) {m m' : Memory} (h : Renames f D m m') {l : Loc} (hl : l ∈ D) :
    Parallel Renames SameObject f D ((call code l).run m) ((call code (f l)).run m') :=
  run_parallel code h hl fun _ hl' => List.mem_singleton.mp hl' ▸ hl

theorem callAll_parallel (codes : List Code) {m m' : Memory} (h : Renames f D m m') {l : Loc}
    (hl : l ∈ D) :
    Parallel Renames SameObject f D ((callAll codes l).run m) ((callAll codes (f l)).run m') := by
  induction codes generalizing f D m m' l with
  | nil => exact .pure h ⟨hl, rfl⟩
  | cons code codes ih =>
      refine (call_parallel code h hl).bind fun g E l' l'' t t' _ hrenames hobjects => ?_
      obtain ⟨hl', rfl⟩ := hobjects
      exact ih hrenames hl'

end Code

end Library
