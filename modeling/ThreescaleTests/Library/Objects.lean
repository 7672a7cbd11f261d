import Mathlib.Data.List.Basic
import Mathlib.Data.List.GetD
import Mathlib.Data.Set.Function
import ThreescaleTests.Library.Heap
import ThreescaleTests.Library.Json
import ThreescaleTests.Library.Retry

/-!
# Objects that refer to each other

Dictionaries and lists live in a memory. They hold plain values and references, so one object
can be reached in several ways, and a copy of a dictionary shares what it refers to with the
original. Code sees the shapes of the objects that it meets and which of them are the same, but
not where they are: it does the same in memories that differ in the locations only.
-/

namespace Library

/-! ## The memory -/

/-- What an entry holds: a plain value or a reference. -/
inductive Val (ρ : Type) where
  | plain (j : Json)
  | ref (r : ρ)
deriving DecidableEq

inductive Cell (ρ : Type) where
  | dict (entries : Dict String (Val ρ))
  | list (items : List (Val ρ))
deriving DecidableEq

abbrev Memory := Heap (Cell Loc)

section

variable {ρ τ υ : Type}

def Val.map (f : ρ → τ) : Val ρ → Val τ
  | .plain j => .plain j
  | .ref r => .ref (f r)

def Val.refs : Val ρ → List ρ
  | .plain _ => []
  | .ref r => [r]

def Cell.map (f : ρ → τ) : Cell ρ → Cell τ
  | .dict d => .dict (d.mapValues (Val.map f))
  | .list vs => .list (vs.map (Val.map f))

def Cell.vals : Cell ρ → List (Val ρ)
  | .dict d => d.values
  | .list vs => vs

def Cell.refs (c : Cell ρ) : List ρ := c.vals.flatMap Val.refs

/-- `not c` -/
def Cell.isEmpty (c : Cell ρ) : Bool := c.vals.isEmpty

theorem Val.map_congr {f g : ρ → τ} {v : Val ρ} (h : ∀ r ∈ v.refs, f r = g r) :
    v.map f = v.map g := by
  cases v with
  | plain j => rfl
  | ref r => exact congrArg Val.ref (h r (List.mem_singleton_self r))

theorem Val.map_map (f : ρ → τ) (g : τ → υ) (v : Val ρ) : (v.map f).map g = v.map (g ∘ f) := by
  cases v <;> rfl

theorem Cell.map_id (c : Cell ρ) : c.map id = c := by
  have hval : (Val.map id : Val ρ → Val ρ) = id := by
    funext v
    cases v <;> rfl
  cases c <;> simp [Cell.map, Dict.mapValues, hval]

theorem Cell.mem_refs {c : Cell ρ} {r : ρ} : r ∈ c.refs ↔ Val.ref r ∈ c.vals := by
  rw [Cell.refs, List.mem_flatMap]
  constructor
  · rintro ⟨v, hv, hr⟩
    cases v with
    | plain j => cases hr
    | ref r' => rwa [List.mem_singleton.mp hr]
  · exact fun h => ⟨_, h, List.mem_singleton_self r⟩

theorem Cell.vals_map (f : ρ → τ) (c : Cell ρ) : (c.map f).vals = c.vals.map (Val.map f) := by
  cases c with
  | dict d => simp [Cell.map, Cell.vals, Dict.values, Dict.mapValues]
  | list vs => rfl

theorem Cell.refs_map (f : ρ → τ) (c : Cell ρ) : (c.map f).refs = c.refs.map f := by
  rw [Cell.refs, Cell.refs, Cell.vals_map, List.flatMap_map, List.map_flatMap]
  congr 1
  funext v
  cases v <;> rfl

@[simp] theorem Cell.isEmpty_map (f : ρ → τ) (c : Cell ρ) : (c.map f).isEmpty = c.isEmpty := by
  rw [Cell.isEmpty, Cell.vals_map, List.isEmpty_map, Cell.isEmpty]

theorem Cell.map_congr {f g : ρ → τ} {c : Cell ρ} (h : ∀ r ∈ c.refs, f r = g r) :
    c.map f = c.map g := by
  have hvals : ∀ v ∈ c.vals, v.map f = v.map g := fun v hv =>
    Val.map_congr fun r hr => h r (List.mem_flatMap.mpr ⟨v, hv, hr⟩)
  cases c with
  | dict d =>
      have hitems : d.items.map (fun e => (e.1, e.2.map f)) =
          d.items.map fun e => (e.1, e.2.map g) :=
        List.map_congr_left fun e he =>
          congrArg (Prod.mk e.1) (hvals e.2 (List.mem_map_of_mem he))
      simp only [Cell.map, Dict.mapValues, hitems]
  | list vs => exact congrArg Cell.list (List.map_congr_left hvals)

theorem Cell.map_map (f : ρ → τ) (g : τ → υ) (c : Cell ρ) : (c.map f).map g = c.map (g ∘ f) := by
  cases c with
  | dict d =>
      simp only [Cell.map, Dict.mapValues, List.map_map]
      congr 3
      funext e
      simp [Val.map_map]
  | list vs =>
      simp only [Cell.map, List.map_map]
      congr 2
      funext v
      exact Val.map_map f g v

end

namespace Memory

def get (l : Loc) : Prog Memory (Cell Loc) :=
  ⟨fun m =>
    match m.read? l with
    | some c => (.ok c, m)
    | none => (.error (.other "dangling reference"), m)⟩

def put (l : Loc) (c : Cell Loc) : Prog Memory Unit := Prog.modify fun m => m.write l c

def new (c : Cell Loc) : Prog Memory Loc := ⟨fun m => (.ok m.size, m.alloc c)⟩

/-- A copy refers to what the original refers to. -/
def copy (l : Loc) : Prog Memory Loc := do
  let c ← get l
  new c

/-- The document that a value stands for, unless it is nested too deep. -/
def contents : Nat → Memory → Val Loc → Option Json
  | _, _, .plain j => some j
  | 0, _, .ref _ => none
  | n + 1, m, .ref l =>
      match m.read? l with
      | none => none
      | some (.dict d) =>
          (d.items.mapM fun e => (contents n m e.2).map fun j => (e.1, j)).map Json.obj
      | some (.list vs) => (vs.mapM (contents n m)).map Json.arr

/-- No reference leads nowhere. -/
def Closed (m : Memory) : Prop := ∀ c ∈ m.cells, ∀ r ∈ c.refs, r < m.size

instance (m : Memory) : Decidable m.Closed :=
  inferInstanceAs (Decidable (∀ c ∈ m.cells, ∀ r ∈ c.refs, r < m.size))

theorem get_run {m : Memory} {l : Loc} {c : Cell Loc} (h : m.read? l = some c) :
    (get l).run m = (.ok c, m) := by
  simp only [get, h]

theorem put_run (l : Loc) (c : Cell Loc) (m : Memory) : (put l c).run m = (.ok (), m.write l c) :=
  rfl

theorem new_run (c : Cell Loc) (m : Memory) : (new c).run m = (.ok m.size, m.alloc c) := rfl

theorem contents_dangling {m : Memory} {l : Loc} (h : m.read? l = none) (n : Nat) :
    m.contents n (.ref l) = none := by
  cases n with
  | zero => rfl
  | succ n => rw [contents, h]

/-- What stands for an empty document is empty. -/
theorem contents_isEmpty_iff {m : Memory} {l : Loc} {c : Cell Loc} (h : m.read? l = some c)
    (n : Nat) : c.isEmpty = true ↔ m.contents (n + 1) (.ref l) = some (.obj []) ∨
      m.contents (n + 1) (.ref l) = some (.arr []) := by
  rw [contents, h, Cell.isEmpty]
  cases c with
  | dict d =>
      cases hitems : d.items with
      | nil => simp [Cell.vals, Dict.values, hitems]
      | cons e es => simp [Cell.vals, Dict.values, hitems, Option.bind_eq_some_iff]
  | list vs =>
      cases vs with
      | nil => simp [Cell.vals]
      | cons v vs => simp [Cell.vals, Option.bind_eq_some_iff]

end Memory

/-! ## Code -/

/-- What a function can do with objects. It knows them by numbers, in the order in which it meets
them: the one that it is given, those that others refer to, and those that it makes. It keeps
nothing from one call to the next. -/
inductive Code where
  | ret (r : Nat)
  | raise (e : Exn)
  | look (r : Nat) (next : Cell Nat → Code)
  | put (r : Nat) (c : Cell Nat) (next : Code)
  | new (c : Cell Nat) (next : Code)

namespace Code

/-- The objects known, and those referred to. -/
def meet (known : List Loc) (refs : List Loc) : List Loc :=
  refs.foldl (fun known l => if l ∈ known then known else known ++ [l]) known

/-- The object of a number; a number without one stands for the object given. -/
def object (given : Loc) (known : List Loc) (r : Nat) : Loc := known.getD r given

def run (given : Loc) : Code → List Loc → Prog Memory Loc
  | .ret r, known => pure (object given known r)
  | .raise e, _ => Prog.raise e
  | .look r next, known => do
      let c ← Memory.get (object given known r)
      run given (next (c.map fun l => (meet known c.refs).idxOf l)) (meet known c.refs)
  | .put r c next, known => do
      Memory.put (object given known r) (c.map (object given known))
      run given next known
  | .new c next, known => do
      let l ← Memory.new (c.map (object given known))
      run given next (known ++ [l])

/-- A call on an object; what is returned is an object, too. -/
def call (code : Code) (l : Loc) : Prog Memory Loc := run l code [l]

/-- One call after the other, each on what the one before returned. -/
def callAll : List Code → Loc → Prog Memory Loc
  | [], l => pure l
  | code :: codes, l => do
      let l ← call code l
      callAll codes l

def update (entries : List (String × Json)) : Code :=
  .look 0 fun
    | .dict d => .put 0 (.dict (d.update (entries.map fun e => (e.1, .plain e.2)))) (.ret 0)
    | .list _ => .raise (.other "AttributeError")

/-! ## What code knows -/

theorem meet_cons (known : List Loc) (l : Loc) (refs : List Loc) :
    meet known (l :: refs) = meet (if l ∈ known then known else known ++ [l]) refs := rfl

theorem mem_meet {known refs : List Loc} {l : Loc} :
    l ∈ meet known refs ↔ l ∈ known ∨ l ∈ refs := by
  induction refs generalizing known with
  | nil => simp [meet]
  | cons l' refs ih =>
      rw [meet_cons, ih]
      split
      next hmem =>
        refine ⟨Or.imp_right (List.mem_cons_of_mem l'), fun h => ?_⟩
        rcases h with h | h
        · exact .inl h
        · rcases List.mem_cons.mp h with rfl | h
          · exact .inl hmem
          · exact .inr h
      next => simp [or_assoc]

/-- What is known stays known by its number. -/
theorem meet_eq_append (known refs : List Loc) : ∃ met, meet known refs = known ++ met := by
  induction refs generalizing known with
  | nil => exact ⟨[], (List.append_nil known).symm⟩
  | cons l refs ih =>
      rw [meet_cons]
      split
      · exact ih known
      · obtain ⟨met, hmet⟩ := ih (known ++ [l])
        exact ⟨l :: met, by rw [hmet, List.append_assoc, List.singleton_append]⟩

theorem object_idxOf (given : Loc) {known : List Loc} {l : Loc} (h : l ∈ known) :
    object given known (known.idxOf l) = l := by
  rw [object, List.getD_eq_getElem _ _ (List.idxOf_lt_length_of_mem h), List.getElem_idxOf]

/-- The numbers of an object's references lead to what it refers to. -/
theorem map_object_idxOf (given : Loc) (known : List Loc) (c : Cell Loc) :
    (c.map fun l => (meet known c.refs).idxOf l).map (object given (meet known c.refs)) = c := by
  rw [Cell.map_map]
  refine (Cell.map_congr fun l hl => ?_).trans c.map_id
  exact object_idxOf given (mem_meet.mpr (.inr hl))

theorem update_call (entries : List (String × Json)) {m : Memory} {l : Loc}
    {d : Dict String (Val Loc)} (h : m.read? l = some (.dict d)) :
    (call (update entries) l).run m =
      (.ok l, m.write l (.dict (d.update (entries.map fun e => (e.1, .plain e.2))))) := by
  obtain ⟨met, hmet⟩ := meet_eq_append [l] (Cell.dict d).refs
  have hgiven : object l (meet [l] (Cell.dict d).refs) 0 = l := by
    rw [hmet]
    rfl
  have hdict := map_object_idxOf l [l] (.dict d)
  rw [Cell.map, Cell.map, Cell.dict.injEq] at hdict
  have hupdated : (Cell.dict ((d.mapValues (Val.map fun l' =>
      (meet [l] (Cell.dict d).refs).idxOf l')).update (entries.map fun e => (e.1, .plain e.2)))).map
        (object l (meet [l] (Cell.dict d).refs)) =
          .dict (d.update (entries.map fun e => (e.1, .plain e.2))) := by
    rw [Cell.map, Dict.mapValues_update, hdict, List.map_map]
    rfl
  have hlook : (Memory.get (object l [l] 0)).run m = (.ok (.dict d), m) := Memory.get_run h
  rw [call, update, run, Prog.bind_of_ok hlook]
  dsimp only [Cell.map]
  rw [run, hgiven, hupdated, Prog.bind_of_ok (Memory.put_run l _ m), run, hgiven]
  rfl

end Code

end Library
