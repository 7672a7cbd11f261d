import ThreescaleTests.Openshift.Listing

/-!
# What the command line client does

The documented behaviour of `oc set env`, and a cluster that behaves so. An
environment is what a listing shows; an argument `NAME=value` sets a variable and
`NAME-` removes one.
-/

namespace ThreescaleTests.Openshift

open Library

/-! ## Arguments -/

def Assigns (arg name value : Text) : Prop := arg = name ++ '=' :: value ∧ '=' ∉ name

def Removes (arg name : Text) : Prop := arg = name ++ ['-'] ∧ '=' ∉ name

def Touches (arg name : Text) : Prop := (∃ value, Assigns arg name value) ∨ Removes arg name

theorem Assigns.unique {arg name name' value value' : Text} (h : Assigns arg name value)
    (h' : Assigns arg name' value') : name = name' ∧ value = value' := by
  obtain ⟨harg, heq⟩ := h
  obtain ⟨harg', heq'⟩ := h'
  rw [harg] at harg'
  rcases first_or_later heq harg' with ⟨hname, hvalue⟩ | ⟨z, hlater⟩
  · exact ⟨hname.symm, hvalue.symm⟩
  · exact absurd (by simp [hlater]) heq'

theorem Assigns.not_removes {arg name name' value : Text} (h : Assigns arg name value) :
    ¬ Removes arg name' := by
  intro hr
  have hmem : '=' ∈ arg := by simp [h.1]
  rw [hr.1] at hmem
  simp [hr.2] at hmem

/-- What the development relies on: a command that fails changes nothing, and one that succeeds
does what its arguments say. -/
class LawfulOc (D : Type) [Oc D] where
  env : D → Dict Text Source
  list_ok : ∀ {d d' : D} {out : Text}, (Oc.list : Prog D Text).run d = (.ok out, d') →
    ∃ l : Listing, out = l.print ∧ l.env.Same (env d)
  list_frame : ∀ d : D, env ((Oc.list : Prog D Text).run d).2 = env d
  waitFor_frame : ∀ d : D, env ((Oc.waitFor : Prog D Unit).run d).2 = env d
  secretValue_frame : ∀ (d : D) (resource key : Text),
    env ((Oc.secretValue resource key : Prog D (List UInt8)).run d).2 = env d
  configMapValue_frame : ∀ (d : D) (resource key : Text),
    env ((Oc.configMapValue resource key : Prog D Text).run d).2 = env d
  setEnv_error : ∀ {d d' : D} {args : List Text} {e : Exn},
    (Oc.setEnv args : Prog D Unit).run d = (.error e, d') → env d' = env d
  setEnv_assigned : ∀ {d d' : D} {args : List Text} {name : Text},
    (Oc.setEnv args : Prog D Unit).run d = (.ok (), d') →
      (∃ arg ∈ args, ∃ value, Assigns arg name value) →
        ∃ arg ∈ args, ∃ value, Assigns arg name value ∧
          (env d').get? name = some (.plain value)
  setEnv_kept : ∀ {d d' : D} {args : List Text} {name : Text},
    (Oc.setEnv args : Prog D Unit).run d = (.ok (), d') → (∀ arg ∈ args, ¬ Touches arg name) →
      (env d').get? name = (env d).get? name

/-! ## A cluster -/

instance : (e : Entry) → Decidable e.WellFormed
  | .header text =>
      inferInstanceAs (Decidable ('=' ∉ text ∧ '\n' ∉ text ∧ ¬ " from ".toList <:+: text))
  | .var name (.plain _) => inferInstanceAs (Decidable (IsWord name))
  | .var name (.secret resource key) =>
      inferInstanceAs (Decidable (IsWord name ∧ IsWord resource ∧ IsWord key))
  | .var name (.configMap resource key) =>
      inferInstanceAs (Decidable (IsWord name ∧ IsWord resource ∧ IsWord key))

def EnvWellFormed (env : Dict Text Source) : Prop :=
  ∀ e ∈ env.items, (Entry.var e.1 e.2).WellFormed

instance (env : Dict Text Source) : Decidable (EnvWellFormed env) :=
  inferInstanceAs (Decidable (∀ e ∈ env.items, (Entry.var e.1 e.2).WellFormed))

theorem listed_map_var (es : List (Text × Source)) :
    listed (es.map fun e => Entry.var e.1 e.2) = es := by
  induction es with
  | nil => rfl
  | cons e es ih => rw [List.map_cons, listed, ih]

/-- The listing of an environment of one container. -/
def Listing.ofEnv (env : Dict Text Source) (h : EnvWellFormed env) : Listing where
  entries := .header " deployments adapter, container adapter".toList ::
    env.items.map fun e => .var e.1 e.2
  wellFormed := by
    intro e he
    rcases List.mem_cons.mp he with rfl | he
    · decide
    · obtain ⟨v, hv, rfl⟩ := List.mem_map.mp he
      exact h v hv
  nodup := by
    rw [listed, listed_map_var]
    exact env.nodup

theorem Listing.env_ofEnv (env : Dict Text Source) (h : EnvWellFormed env) :
    (Listing.ofEnv env h).env.items = env.items := listed_map_var env.items

structure PlainCluster where
  env : Dict Text Source
  wellFormed : EnvWellFormed env
  secrets : List ((Text × Text) × List UInt8)
  configMaps : List ((Text × Text) × Text)

/-- The name and the value of an argument, around its first `=`. -/
def splitAssignment : Text → Option (Text × Text)
  | [] => none
  | c :: rest =>
      if c = '=' then some ([], rest)
      else (splitAssignment rest).map fun e => (c :: e.1, e.2)

/-- Either all arguments set a variable, or there is one that removes one. -/
def applyArgs (args : List Text) (env : Dict Text Source) : Option (Dict Text Source) :=
  if args ≠ [] ∧ ∀ arg ∈ args, (splitAssignment arg).isSome then
    some (env.update ((args.filterMap splitAssignment).map fun e => (e.1, .plain e.2)))
  else
    match args with
    | [arg] => if arg.getLast? = some '-' then some (env.erase arg.dropLast) else none
    | _ => none

/-- The client refuses a command whose result is not an environment. -/
def PlainCluster.apply (args : List Text) (c : PlainCluster) : Except Exn Unit × PlainCluster :=
  match applyArgs args c.env with
  | some env =>
      if h : EnvWellFormed env then (.ok (), { c with env := env, wellFormed := h })
      else (.error (.other "OpenShiftPythonException"), c)
  | none => (.error (.other "OpenShiftPythonException"), c)

def lookupKey {α : Type} (es : List ((Text × Text) × α)) (resource key : Text) : Except Exn α :=
  match es.lookup (resource, key) with
  | some value => .ok value
  | none => .error (.keyError (String.ofList key))

instance : Oc PlainCluster where
  list := Prog.gets fun c => (Listing.ofEnv c.env c.wellFormed).print
  setEnv args := ⟨PlainCluster.apply args⟩
  waitFor := pure ()
  secretValue resource key := ⟨fun c => (lookupKey c.secrets resource key, c)⟩
  configMapValue resource key := ⟨fun c => (lookupKey c.configMaps resource key, c)⟩

theorem splitAssignment_eq_some_iff {arg name value : Text} :
    splitAssignment arg = some (name, value) ↔ Assigns arg name value := by
  induction arg generalizing name with
  | nil => simp [splitAssignment, Assigns]
  | cons c rest ih =>
      cases name with
      | nil =>
          by_cases hc : c = '='
          · simp [splitAssignment, Assigns, hc, eq_comm]
          · simp [splitAssignment, Assigns, hc]
      | cons d name =>
          by_cases hc : c = '='
          · simp only [splitAssignment, if_pos hc, Option.some.injEq, Prod.mk.injEq, Assigns,
              List.cons_append, List.cons.injEq, List.mem_cons, not_or]
            constructor
            · rintro ⟨h, -⟩
              cases h
            · rintro ⟨⟨hd, -⟩, hne, -⟩
              exact absurd (hc.symm.trans hd) hne
          · have hrest := @ih name
            simp only [splitAssignment, if_neg hc, Option.map_eq_some_iff, Prod.exists]
            constructor
            · rintro ⟨n, v, hsplit, he⟩
              cases he
              obtain ⟨h, heq⟩ := hrest.mp hsplit
              exact ⟨by rw [h]; rfl, by simp [heq, Ne.symm hc]⟩
            · rintro ⟨h, heq⟩
              simp only [List.cons_append, List.cons.injEq, List.mem_cons, not_or] at h heq
              obtain ⟨rfl, h⟩ := h
              exact ⟨name, value, hrest.mpr ⟨h, heq.2⟩, rfl⟩

theorem mem_assigned_iff {args : List Text} {name : Text} {source : Source} :
    (name, source) ∈ (args.filterMap splitAssignment).map (fun e => (e.1, Source.plain e.2)) ↔
      ∃ arg ∈ args, ∃ value, Assigns arg name value ∧ source = .plain value := by
  simp only [List.mem_map, List.mem_filterMap, Prod.exists, Prod.mk.injEq]
  constructor
  · rintro ⟨n, v, ⟨arg, harg, hsplit⟩, rfl, rfl⟩
    exact ⟨arg, harg, v, splitAssignment_eq_some_iff.mp hsplit, rfl⟩
  · rintro ⟨arg, harg, v, hassigns, rfl⟩
    exact ⟨name, v, ⟨arg, harg, splitAssignment_eq_some_iff.mpr hassigns⟩, rfl, rfl⟩

theorem apply_ok {args : List Text} {c c' : PlainCluster} (h : c.apply args = (.ok (), c')) :
    applyArgs args c.env = some c'.env := by
  unfold PlainCluster.apply at h
  cases ha : applyArgs args c.env with
  | none => simp [ha] at h
  | some env =>
      simp only [ha] at h
      by_cases hwf : EnvWellFormed env
      · rw [dif_pos hwf] at h
        cases h
        rfl
      · rw [dif_neg hwf] at h
        cases h

theorem apply_error {args : List Text} {c c' : PlainCluster} {e : Exn}
    (h : c.apply args = (.error e, c')) : c' = c := by
  unfold PlainCluster.apply at h
  cases ha : applyArgs args c.env with
  | none =>
      simp only [ha] at h
      cases h
      rfl
  | some env =>
      simp only [ha] at h
      by_cases hwf : EnvWellFormed env
      · rw [dif_pos hwf] at h
        cases h
      · rw [dif_neg hwf] at h
        cases h
        rfl

theorem applyArgs_cases {args : List Text} {env env' : Dict Text Source}
    (h : applyArgs args env = some env') :
    ((∀ arg ∈ args, ∃ name value, Assigns arg name value) ∧ env' =
      env.update ((args.filterMap splitAssignment).map fun e => (e.1, .plain e.2))) ∨
    ∃ name, args = [name ++ ['-']] ∧ '=' ∉ name ∧ env' = env.erase name := by
  unfold applyArgs at h
  split at h
  · rename_i hall
    refine .inl ⟨?_, (Option.some.inj h).symm⟩
    intro arg harg
    obtain ⟨e, he⟩ := Option.isSome_iff_exists.mp (hall.2 arg harg)
    exact ⟨e.1, e.2, splitAssignment_eq_some_iff.mp he⟩
  · rename_i hall
    split at h
    · rename_i arg
      by_cases hlast : arg.getLast? = some '-'
      · rw [if_pos hlast] at h
        obtain ⟨name, rfl⟩ := List.getLast?_eq_some_iff.mp hlast
        rw [List.dropLast_concat] at h
        refine .inr ⟨name, rfl, ?_, (Option.some.inj h).symm⟩
        -- otherwise the argument would set a variable
        intro heq
        obtain ⟨n, v, hsplit, hn⟩ := List.eq_append_cons_of_mem heq
        have hassigns : Assigns (name ++ ['-']) n (v ++ ['-']) := ⟨by rw [hsplit]; simp, hn⟩
        apply hall
        refine ⟨by simp, ?_⟩
        intro arg harg
        rw [List.mem_singleton.mp harg, splitAssignment_eq_some_iff.mpr hassigns]
        rfl
      · rw [if_neg hlast] at h
        cases h
    · cases h

instance : LawfulOc PlainCluster where
  env c := c.env
  list_ok := by
    intro c c' out h
    cases h
    refine ⟨Listing.ofEnv c.env c.wellFormed, rfl, ?_⟩
    intro name
    rw [Dict.get?, Listing.env_ofEnv]
    rfl
  list_frame _ := rfl
  waitFor_frame _ := rfl
  secretValue_frame _ _ _ := rfl
  configMapValue_frame _ _ _ := rfl
  setEnv_error := by
    intro c c' args e h
    rw [apply_error h]
  setEnv_assigned := by
    intro c c' args name h hname
    obtain ⟨arg, harg, value, hassigns⟩ := hname
    rcases applyArgs_cases (apply_ok h) with ⟨-, henv⟩ | ⟨name', hargs, hne, -⟩
    · have hkey : name ∈ ((args.filterMap splitAssignment).map
          fun e => (e.1, Source.plain e.2)).map Prod.fst :=
        List.mem_map.mpr ⟨_, mem_assigned_iff.mpr ⟨arg, harg, value, hassigns, rfl⟩, rfl⟩
      obtain ⟨source, hsource, hget⟩ := Dict.exists_get?_update (d := c.env) hkey
      obtain ⟨arg', harg', value', hassigns', rfl⟩ := mem_assigned_iff.mp hsource
      rw [henv]
      exact ⟨arg', harg', value', hassigns', hget⟩
    · rw [hargs, List.mem_singleton] at harg
      exact absurd ⟨harg, hne⟩ hassigns.not_removes
  setEnv_kept := by
    intro c c' args name h hkept
    rcases applyArgs_cases (apply_ok h) with ⟨-, henv⟩ | ⟨name', hargs, hne, henv⟩
    · rw [henv, Dict.get?_update_of_not_mem]
      intro hkey
      obtain ⟨⟨n, source⟩, hmem, rfl⟩ := List.mem_map.mp hkey
      obtain ⟨arg, harg, value, hassigns, -⟩ := mem_assigned_iff.mp hmem
      exact hkept arg harg (.inl ⟨value, hassigns⟩)
    · have hne' : name ≠ name' := by
        rintro rfl
        exact hkept (name ++ ['-']) (by rw [hargs]; exact List.mem_cons_self) (.inr ⟨rfl, hne⟩)
      rw [henv, Dict.get?_erase, if_neg hne']

/-! ## Refreshing -/

theorem refresh_run {D : Type} [Oc D] {env : Environ D} {d : D} {out : Text}
    (h : (Oc.list : Prog D Text).run env.deployment = (.ok out, d)) :
    (Environ.refresh).run env = (.ok (), ⟨d, some (parseListing out)⟩) := by
  have hlist : (Environ.onDeployment Oc.list).run (⟨env.deployment, some Dict.empty⟩ : Environ D) =
      (.ok out, ⟨d, some Dict.empty⟩) := Environ.onDeployment_run h
  exact Prog.bind_of_ok hlist

/-- A printed environment is read back exactly when none of its values has an `=`. -/
theorem refresh_recovers_iff {D : Type} [Oc D] (l : Listing) (hline : l.SingleLine)
    (env : Environ D) (d : D)
    (hlist : (Oc.list : Prog D Text).run env.deployment = (.ok l.print, d)) :
    (∃ envs, (Environ.refresh).run env = (.ok (), ⟨d, some envs⟩) ∧ envs.Same l.env) ↔
      l.NoEquals := by
  rw [← l.parse_same_iff hline]
  constructor
  · rintro ⟨envs, hrun, hsame⟩
    rw [refresh_run hlist] at hrun
    cases hrun
    exact hsame
  · intro hsame
    exact ⟨_, refresh_run hlist, hsame⟩

def exampleEnv : Dict Text Source :=
  .ofList [("LOG_LEVEL".toList, .plain "debug".toList),
    ("TOKEN".toList, .secret "system-seed".toList "token".toList),
    ("TIMEOUT".toList, .configMap "adapter".toList "timeout".toList)]

def exampleCluster : PlainCluster where
  env := exampleEnv
  wellFormed := by decide
  secrets := [(("system-seed".toList, "token".toList), [115, 51])]
  configMaps := [(("adapter".toList, "timeout".toList), "30".toList)]

def exampleListing : Listing := .ofEnv exampleEnv exampleCluster.wellFormed

theorem refresh_recovers_example :
    ∃ envs, (Environ.refresh).run ⟨exampleCluster, none⟩ = (.ok (), ⟨exampleCluster, some envs⟩) ∧
      envs.Same exampleListing.env := by
  have hline : exampleListing.SingleLine := by
    unfold Listing.SingleLine
    decide
  have hnone : exampleListing.NoEquals := by
    unfold Listing.NoEquals
    decide
  exact (refresh_recovers_iff exampleListing hline ⟨exampleCluster, none⟩ exampleCluster rfl).mpr
    hnone

def optionsCluster : PlainCluster :=
  ⟨.ofList [("OPTS".toList, .plain "a=b".toList)], by decide, [], []⟩

def optionsListing : Listing := .ofEnv optionsCluster.env optionsCluster.wellFormed

/-- `OPTS=a=b` is read as the variable `OPTS=a`. -/
theorem refresh_misreads :
    optionsListing.SingleLine ∧
    (Oc.list : Prog PlainCluster Text).run optionsCluster =
      (.ok optionsListing.print, optionsCluster) ∧
    ¬ ∃ envs, (Environ.refresh).run ⟨optionsCluster, none⟩ =
        (.ok (), ⟨optionsCluster, some envs⟩) ∧ envs.Same optionsListing.env := by
  refine ⟨?_, rfl, ?_⟩
  · unfold Listing.SingleLine
    decide
  · rintro ⟨envs, hrun, hsame⟩
    cases hrun
    have hread : (parseListing optionsListing.print).get? "OPTS".toList = none := by decide
    have hsame' : (parseListing optionsListing.print).Same optionsListing.env := hsame
    have hget := hsame' "OPTS".toList
    rw [hread] at hget
    exact absurd hget (by decide)

end ThreescaleTests.Openshift
