import ThreescaleTests.Openshift.Scaler

/-!
# Paths into a resource

The model of a resource is a tree of mappings that is read and changed at paths like
`spec/backend/replicas`. A key that is missing reads as `Missing`, and so does what
would be below it; other values cannot be subscripted by a key. Reading and changing
obey the laws of a lens.
-/

namespace ThreescaleTests.Openshift.Path

open Library

/-! ## Reading -/

def fragments (path : String) : List String :=
  (path.toList.splitOn '/').map String.ofList

/-- `field[key]`, where `none` stands for `Missing`. -/
def subscript (key : String) : Option Json → Except Exn (Option Json)
  | none => .ok none
  | some (.obj fields) => .ok (fields.lookup key)
  | some _ => .error .typeError

def walk : List String → Option Json → Except Exn (Option Json)
  | [], current => .ok current
  | fragment :: fragments, current => do
      let next ← subscript fragment current
      match next with
      | none => pure none
      | some next => walk fragments (some next)

def parents (path : String) : List String := (fragments path).dropLast

theorem fragments_ne_nil (path : String) : fragments path ≠ [] := by
  simp [fragments, List.splitOn_ne_nil]

def lastFragment (path : String) : String := (fragments path).getLast (fragments_ne_nil path)

/-- `_locator`: the container and the last fragment. -/
def locator (path : String) (model : Json) : Except Exn (Option Json × String) := do
  let field ← walk (parents path) (some model)
  pure (field, lastFragment path)

def getPath (path : String) (model : Json) : Except Exn (Option Json) := do
  let (field, last) ← locator path model
  subscript last field

/-! ## Changing -/

def assign (key : String) (value : Json) : Json → Except Exn Json
  | .obj fields => .ok (.obj (Dict.setEntry key value fields))
  | _ => .error .typeError

/-- The model after its value at a place is changed through a reference to it. -/
def putAt : List String → Json → Json → Json
  | [], value, _ => value
  | key :: keys, value, .obj fields =>
      match fields.lookup key with
      | none => .obj fields
      | some child => .obj (Dict.setEntry key (putAt keys value child) fields)
  | _, _, model => model

def setPath (path : String) (value : Json) : Prog Json Unit := do
  let model ← Prog.gets id
  let (field, last) ← Prog.lift (locator path model)
  match field with
  | none => Prog.lift (.error (.valueError "Path does not exist"))
  | some field => do
      let changed ← Prog.lift (assign last value field)
      Prog.modify (putAt (parents path) changed)

/-! ## Walking -/

theorem fragments_eq (path : String) : parents path ++ [lastFragment path] = fragments path :=
  List.dropLast_append_getLast (fragments_ne_nil path)

@[simp] theorem walk_none (keys : List String) : walk keys none = .ok none := by
  cases keys <;> rfl

theorem walk_cons (key : String) (keys : List String) (current : Option Json) :
    walk (key :: keys) current = subscript key current >>= walk keys := by
  rw [walk]
  refine congrArg _ (funext fun next => ?_)
  cases next with
  | none => exact (walk_none keys).symm
  | some next => rfl

theorem walk_append (keys keys' : List String) (current : Option Json) :
    walk (keys ++ keys') current = walk keys current >>= walk keys' := by
  induction keys generalizing current with
  | nil => rfl
  | cons key keys ih =>
      rw [List.cons_append, walk_cons, walk_cons]
      cases subscript key current with
      | error e => rfl
      | ok next => exact ih next

/-- Reading a path is walking all of it. -/
theorem getPath_eq (path : String) (model : Json) :
    getPath path model = walk (fragments path) (some model) := by
  have hone : ∀ field, walk [lastFragment path] field = subscript (lastFragment path) field := by
    intro field
    rw [walk_cons]
    cases subscript (lastFragment path) field <;> rfl
  rw [← fragments_eq, walk_append, getPath, locator]
  cases walk (parents path) (some model) with
  | error e => rfl
  | ok field => exact (hone field).symm

/-- A step into a value leads from a mapping to one of its entries. -/
theorem walk_cons_eq_some {key : String} {keys : List String} {model value : Json}
    (h : walk (key :: keys) (some model) = .ok (some value)) :
    ∃ fields child, model = .obj fields ∧ fields.lookup key = some child ∧
      walk keys (some child) = .ok (some value) := by
  rw [walk_cons] at h
  obtain ⟨next, hnext, hrest⟩ := bind_eq_ok_iff.mp h
  cases model with
  | obj fields =>
      cases next with
      | none =>
          rw [walk_none] at hrest
          cases hrest
      | some child => exact ⟨fields, child, rfl, Except.ok.inj hnext, hrest⟩
  | _ => cases hnext

theorem walk_cons_obj {fields : List (String × Json)} (key : String) (keys : List String) :
    walk (key :: keys) (some (.obj fields)) = walk keys (fields.lookup key) := by
  rw [walk_cons]
  rfl

/-! ## Changing one place -/

theorem putAt_obj {fields : List (String × Json)} {key : String} {child : Json}
    (h : fields.lookup key = some child) (keys : List String) (value : Json) :
    putAt (key :: keys) value (.obj fields) =
      .obj (Dict.setEntry key (putAt keys value child) fields) := by
  simp only [putAt, h]

theorem walk_putAt_self {keys : List String} {model old : Json}
    (h : walk keys (some model) = .ok (some old)) (value : Json) :
    walk keys (some (putAt keys value model)) = .ok (some value) := by
  induction keys generalizing model with
  | nil => rfl
  | cons key keys ih =>
      obtain ⟨fields, child, rfl, hchild, hrest⟩ := walk_cons_eq_some h
      rw [putAt_obj hchild, walk_cons_obj, Dict.lookup_setEntry, if_pos rfl, ih hrest]

theorem putAt_putAt {keys : List String} {model old : Json}
    (h : walk keys (some model) = .ok (some old)) (value value' : Json) :
    putAt keys value' (putAt keys value model) = putAt keys value' model := by
  induction keys generalizing model with
  | nil => rfl
  | cons key keys ih =>
      obtain ⟨fields, child, rfl, hchild, hrest⟩ := walk_cons_eq_some h
      have hset : (Dict.setEntry key (putAt keys value child) fields).lookup key =
          some (putAt keys value child) := by
        rw [Dict.lookup_setEntry, if_pos rfl]
      rw [putAt_obj hchild, putAt_obj hset, putAt_obj hchild, Json.setEntry_setEntry, ih hrest]

/-- A walk that does not lead to the changed entry, or through it, meets nothing new. -/
theorem walk_putAt_of_apart {keys keys' : List String} {last : String} {model value : Json}
    {fields : List (String × Json)} (h : walk keys (some model) = .ok (some (.obj fields)))
    (habove : ¬ keys' <+: keys ++ [last]) (hbelow : ¬ keys ++ [last] <+: keys') :
    walk keys' (some (putAt keys (.obj (Dict.setEntry last value fields)) model)) =
      walk keys' (some model) := by
  induction keys generalizing model keys' with
  | nil =>
      cases keys' with
      | nil => exact absurd (List.nil_prefix) habove
      | cons key' keys' =>
          have hmodel : model = .obj fields := Option.some.inj (Except.ok.inj h)
          have hne : key' ≠ last := by
            rintro rfl
            exact hbelow (List.prefix_append [key'] keys')
          rw [putAt, hmodel, walk_cons_obj, walk_cons_obj, Dict.lookup_setEntry, if_neg hne]
  | cons key keys ih =>
      cases keys' with
      | nil => exact absurd (List.nil_prefix) habove
      | cons key' keys' =>
          obtain ⟨siblings, child, rfl, hchild, hrest⟩ := walk_cons_eq_some h
          rw [putAt_obj hchild, walk_cons_obj, walk_cons_obj, Dict.lookup_setEntry]
          by_cases hkey : key' = key
          · subst hkey
            rw [if_pos rfl, hchild]
            refine ih hrest ?_ ?_
            · exact fun hle => habove (List.cons_prefix_cons.mpr ⟨rfl, hle⟩)
            · exact fun hle => hbelow (List.cons_prefix_cons.mpr ⟨rfl, hle⟩)
          · rw [if_neg hkey]

/-! ## Setting a path -/

theorem setPath_of_missing {path : String} {model : Json}
    (h : walk (parents path) (some model) = .ok none) (value : Json) :
    (setPath path value).run model = (.error (.valueError "Path does not exist"), model) := by
  rw [setPath, Prog.gets_bind_run, id, locator, h]
  rfl

/-- A path is set in a mapping that it leads to, or nothing happens and it raises. -/
theorem setPath_cases (path : String) (value model : Json) :
    (∃ fields, walk (parents path) (some model) = .ok (some (.obj fields)) ∧
      (setPath path value).run model = (.ok (), putAt (parents path)
        (.obj (Dict.setEntry (lastFragment path) value fields)) model)) ∨
    ((¬ ∃ fields, walk (parents path) (some model) = .ok (some (.obj fields))) ∧
      ∃ e, (setPath path value).run model = (.error e, model)) := by
  rw [setPath, Prog.gets_bind_run, id, locator]
  cases hwalk : walk (parents path) (some model) with
  | error e => exact Or.inr ⟨by simp, e, rfl⟩
  | ok field =>
      cases field with
      | none => exact Or.inr ⟨by simp, _, rfl⟩
      | some field =>
          cases field with
          | obj fields => exact Or.inl ⟨fields, rfl, rfl⟩
          | _ => exact Or.inr ⟨by simp, _, rfl⟩

theorem setPath_of_obj {path : String} {model : Json} {fields : List (String × Json)}
    (h : walk (parents path) (some model) = .ok (some (.obj fields))) (value : Json) :
    (setPath path value).run model = (.ok (), putAt (parents path)
      (.obj (Dict.setEntry (lastFragment path) value fields)) model) := by
  rcases setPath_cases path value model with ⟨fields', hwalk, hrun⟩ | ⟨hnone, -⟩
  · rw [h] at hwalk
    cases hwalk
    exact hrun
  · exact absurd ⟨fields, h⟩ hnone

theorem exists_of_setPath_ok {path : String} {value model model' : Json}
    (h : (setPath path value).run model = (.ok (), model')) :
    ∃ fields, walk (parents path) (some model) = .ok (some (.obj fields)) ∧
      model' = putAt (parents path) (.obj (Dict.setEntry (lastFragment path) value fields))
        model := by
  rcases setPath_cases path value model with ⟨fields, hwalk, hrun⟩ | ⟨-, e, hrun⟩
  · rw [h] at hrun
    exact ⟨fields, hwalk, (Prod.mk.inj hrun).2⟩
  · rw [h] at hrun
    cases hrun

theorem walk_of_prefix_missing {keys keys' : List String} {model : Json} (habove : keys <+: keys')
    (h : walk keys (some model) = .ok none) : walk keys' (some model) = .ok none := by
  obtain ⟨rest, rfl⟩ := habove
  rw [walk_append, h]
  exact walk_none rest

/-! ## The laws -/

/-- Reading and changing a resource at its paths. What is set is read back, replaces what was set
before, and is all that changes; where the way is missing there is nothing to read or to set. -/
structure LensLaws (get : String → Json → Except Exn (Option Json))
    (set : String → Json → Prog Json Unit) : Prop where
  get_set : ∀ path value model model', (set path value).run model = (.ok (), model') →
    get path model' = .ok (some value)
  set_set : ∀ path value value' model model', (set path value).run model = (.ok (), model') →
    ∃ final, (set path value').run model' = (.ok (), final) ∧
      (set path value').run model = (.ok (), final)
  get_apart : ∀ path path' value model model', (set path value).run model = (.ok (), model') →
    ¬ fragments path' <+: fragments path → ¬ fragments path <+: fragments path' →
      get path' model' = get path' model
  set_missing : ∀ path way value model, fragments way <+: parents path → get way model = .ok none →
    (set path value).run model = (.error (.valueError "Path does not exist"), model)
  set_raises : ∀ path value model model' e, (set path value).run model = (.error e, model') →
    model' = model
  get_missing : ∀ path way model, fragments way <+: fragments path → get way model = .ok none →
    get path model = .ok none

theorem getPath_setPath {path : String} {value model model' : Json}
    (h : (setPath path value).run model = (.ok (), model')) :
    getPath path model' = .ok (some value) := by
  obtain ⟨fields, hwalk, rfl⟩ := exists_of_setPath_ok h
  rw [getPath_eq, ← fragments_eq, walk_append, walk_putAt_self hwalk]
  exact (walk_cons_obj _ _).trans (by rw [Dict.lookup_setEntry, if_pos rfl, walk])

theorem setPath_setPath {path : String} {value model model' : Json}
    (h : (setPath path value).run model = (.ok (), model')) (value' : Json) :
    ∃ final, (setPath path value').run model' = (.ok (), final) ∧
      (setPath path value').run model = (.ok (), final) := by
  obtain ⟨fields, hwalk, rfl⟩ := exists_of_setPath_ok h
  refine ⟨_, ?_, setPath_of_obj hwalk value'⟩
  rw [setPath_of_obj (walk_putAt_self hwalk _), Json.setEntry_setEntry, putAt_putAt hwalk]

theorem getPath_of_apart {path path' : String} {value model model' : Json}
    (h : (setPath path value).run model = (.ok (), model'))
    (habove : ¬ fragments path' <+: fragments path)
    (hbelow : ¬ fragments path <+: fragments path') :
    getPath path' model' = getPath path' model := by
  obtain ⟨fields, hwalk, rfl⟩ := exists_of_setPath_ok h
  rw [← fragments_eq path] at habove hbelow
  rw [getPath_eq, getPath_eq, walk_putAt_of_apart hwalk habove hbelow]

/-- `get_path` and `set_path` obey the laws of a lens. -/
theorem lensLaws : LensLaws getPath setPath where
  get_set := fun _ _ _ _ h => getPath_setPath h
  set_set := fun _ _ value' _ _ h => setPath_setPath h value'
  get_apart := fun _ _ _ _ _ h habove hbelow => getPath_of_apart h habove hbelow
  set_missing := by
    intro path way value model hway hmissing
    rw [getPath_eq] at hmissing
    exact setPath_of_missing (walk_of_prefix_missing hway hmissing) value
  set_raises := by
    intro path value model model' e h
    rcases setPath_cases path value model with ⟨fields, -, hrun⟩ | ⟨-, e', hrun⟩
    · rw [hrun] at h
      cases h
    · rw [hrun] at h
      cases h
      rfl
  get_missing := by
    intro path way model hway hmissing
    rw [getPath_eq] at hmissing ⊢
    exact walk_of_prefix_missing hway hmissing

/-! ## The paths of the scaler -/

def located (path : String) : Locator := ⟨parents path, lastFragment path⟩

theorem get?_of_walk {keys : List String} {model : Json} {r : Option Json}
    (h : walk keys (some model) = .ok r) : Json.get? keys model = r := by
  induction keys generalizing model with
  | nil => exact Except.ok.inj h
  | cons key keys ih =>
      cases model with
      | obj fields =>
          rw [walk_cons_obj] at h
          rw [Json.get?, Json.child?]
          cases hchild : fields.lookup key with
          | none =>
              rw [hchild, walk_none] at h
              exact Except.ok.inj h
          | some child =>
              rw [hchild] at h
              exact ih h
      | _ =>
          rw [walk_cons] at h
          cases h

/-- The scaler reads what `get_path` returns. -/
theorem getPath_located {path : String} {model : Json} {r : Option Json}
    (h : getPath path model = .ok r) : Openshift.getPath (located path) model = r := by
  rw [getPath_eq, ← fragments_eq] at h
  have hget := get?_of_walk h
  rw [Json.get?_append] at hget
  rw [← hget, Openshift.getPath, located]
  refine congrArg _ (funext fun field => ?_)
  rw [Json.get?]
  cases field.child? (lastFragment path) <;> rfl

theorem atPath_of_walk {keys : List String} {model field changed : Json} {f : Json → Option Json}
    (h : walk keys (some model) = .ok (some field)) (hf : f field = some changed) :
    Json.atPath keys f model = some (putAt keys changed model) := by
  induction keys generalizing model with
  | nil =>
      cases h
      exact hf
  | cons key keys ih =>
      obtain ⟨siblings, child, rfl, hchild, hrest⟩ := walk_cons_eq_some h
      rw [putAt_obj hchild, Json.atPath, Json.child?, hchild]
      simp only [Option.bind_eq_bind, Option.bind_some, ih hrest, Json.setChild]
      rfl

/-- The scaler changes what `set_path` changes. -/
theorem setPath_located {path : String} {value model model' : Json}
    (h : (setPath path value).run model = (.ok (), model')) :
    Openshift.setPath (located path) value model = some model' := by
  obtain ⟨fields, hwalk, rfl⟩ := exists_of_setPath_ok h
  exact atPath_of_walk hwalk rfl

example : (located "spec/backend/listenerSpec/replicas").parents = listenerLocator.parents ∧
    (located "spec/backend/listenerSpec/replicas").last = listenerLocator.last := by
  decide

end ThreescaleTests.Openshift.Path
