import ThreescaleTests.Openshift.Cluster

/-!
# The write paths of an environment

An assignment goes through the variable object when the `Environ` sees one under the
name, and otherwise issues the command itself, as `set_many` does. Which text is
written for a value depends on the path: the variable object does not know that
APIcast does not recognise `True`.
-/

namespace ThreescaleTests.Openshift

open Library

namespace Environ

variable {D : Type} [Oc D]

/-! ## Reading the variables -/

/-- What the object takes the name for: what it remembers, or else what the listing shows. -/
def seen (env : Environ D) (name : Text) : Option Source :=
  match env.envs with
  | some envs => envs.get? name
  | none =>
    match ((Oc.list : Prog D Text).run env.deployment).1 with
    | .ok out => (parseListing out).get? name
    | .error _ => none

theorem readEnvs_remembered {env : Environ D} {envs : Dict Text Source}
    (h : env.envs = some envs) : (readEnvs).run env = (.ok envs, env) := by
  rw [readEnvs, Prog.gets_bind_run, h]
  rfl

theorem readEnvs_refreshes {env : Environ D} (h : env.envs = none) :
    (readEnvs).run env =
      (refresh >>= fun _ => Prog.gets fun env => env.envs.getD Dict.empty).run env := by
  rw [readEnvs, Prog.gets_bind_run, h]

theorem readEnvs_listed {env : Environ D} {d : D} {out : Text} (h : env.envs = none)
    (hlist : (Oc.list : Prog D Text).run env.deployment = (.ok out, d)) :
    (readEnvs).run env = (.ok (parseListing out), ⟨d, some (parseListing out)⟩) := by
  rw [readEnvs_refreshes h, Prog.bind_of_ok (refresh_run hlist)]
  rfl

/-- A listing that fails leaves the object with no variables. -/
theorem readEnvs_unlisted {env : Environ D} {d : D} {e : Exn} (h : env.envs = none)
    (hlist : (Oc.list : Prog D Text).run env.deployment = (.error e, d)) :
    (readEnvs).run env = (.error e, ⟨d, some Dict.empty⟩) := by
  have hset : (setEnvs (some Dict.empty)).run env =
      (.ok (), ⟨env.deployment, some Dict.empty⟩) := rfl
  have hfocus : (onDeployment Oc.list).run (⟨env.deployment, some Dict.empty⟩ : Environ D) =
      (.error e, ⟨d, some Dict.empty⟩) := onDeployment_run hlist
  have hrefresh : (refresh).run env = (.error e, ⟨d, some Dict.empty⟩) :=
    (Prog.bind_of_ok hset).trans (Prog.bind_of_error hfocus)
  rw [readEnvs_refreshes h, Prog.bind_of_error hrefresh]

variable [LawfulOc D]

theorem readEnvs_ok {env env' : Environ D} {envs : Dict Text Source}
    (h : (readEnvs).run env = (.ok envs, env')) :
    (∀ name, envs.get? name = env.seen name) ∧
      LawfulOc.env env'.deployment = LawfulOc.env env.deployment := by
  cases hcache : env.envs with
  | some cached =>
      rw [readEnvs_remembered hcache] at h
      cases h
      exact ⟨fun name => by simp [seen, hcache], rfl⟩
  | none =>
      cases hlist : (Oc.list : Prog D Text).run env.deployment with
      | mk r d =>
          cases r with
          | error e =>
              rw [readEnvs_unlisted hcache hlist] at h
              cases h
          | ok out =>
              rw [readEnvs_listed hcache hlist] at h
              cases h
              have hframe := LawfulOc.list_frame env.deployment
              rw [hlist] at hframe
              exact ⟨fun name => by simp [seen, hcache, hlist], hframe⟩

/-! ## What is written -/

/-- The value whose text is written for the variable that was seen. -/
def written (value : Value) : Option Source → Value
  | some _ => value
  | none => value.lowerTrue

/-- A command and the wait after it, both of which return. -/
theorem command_ok {args : List Text} {d d' : D}
    (h : ((Oc.setEnv args : Prog D Unit) >>= fun _ => Oc.waitFor).run d = (.ok (), d')) :
    ∃ d₁, (Oc.setEnv args : Prog D Unit).run d = (.ok (), d₁) ∧
      LawfulOc.env d' = LawfulOc.env d₁ := by
  obtain ⟨_, d₁, hset, hwait⟩ := Prog.exists_of_bind_ok h
  have hframe := LawfulOc.waitFor_frame d₁
  rw [hwait] at hframe
  exact ⟨d₁, hset, hframe⟩

theorem writeItem_ok {name : Text} {value : Value} {source : Option Source} {env env' : Environ D}
    (h : (writeItem name value source).run env = (.ok (), env')) :
    ∃ d, (Oc.setEnv [assignment name (written value source)] : Prog D Unit).run env.deployment =
        (.ok (), d) ∧ LawfulOc.env env'.deployment = LawfulOc.env d := by
  cases source with
  | none =>
      obtain ⟨_, env₁, hset, hwait⟩ := Prog.exists_of_bind_ok h
      obtain ⟨d₁, hrun₁, rfl⟩ := Prog.exists_of_focus_ok hset
      obtain ⟨d₂, hrun₂, rfl⟩ := Prog.exists_of_focus_ok hwait
      have hframe := LawfulOc.waitFor_frame d₁
      rw [hrun₂] at hframe
      exact ⟨d₁, hrun₁, hframe⟩
  | some source =>
      have hset : (onDeployment (source.set name value)).run env = (.ok (), env') := h
      obtain ⟨d, hrun, rfl⟩ := Prog.exists_of_focus_ok hset
      cases source with
      | plain old => exact command_ok hrun
      | secret resource key => cases hrun
      | configMap resource key => cases hrun

theorem setItem_ok {name : Text} {value : Value} {env env' : Environ D}
    (h : (setItem name value).run env = (.ok (), env')) :
    ∃ d d', LawfulOc.env d = LawfulOc.env env.deployment ∧
      (Oc.setEnv [assignment name (written value (env.seen name))] : Prog D Unit).run d =
        (.ok (), d') ∧ LawfulOc.env env'.deployment = LawfulOc.env d' := by
  obtain ⟨envs, env₁, hread, h⟩ := Prog.exists_of_bind_ok h
  obtain ⟨_, env₂, hwrite, h⟩ := Prog.exists_of_bind_ok h
  cases h
  obtain ⟨hseen, hframe⟩ := readEnvs_ok hread
  obtain ⟨d, hset, hwritten⟩ := writeItem_ok hwrite
  rw [hseen] at hset
  exact ⟨env₁.deployment, d, hframe, hset, hwritten⟩

theorem setMany_ok {envs : List (Text × Value)} {env env' : Environ D}
    (h : (setMany envs).run env = (.ok (), env')) :
    ∃ d, (Oc.setEnv (envs.map fun e => assignment e.1 e.2.lowerTrue) : Prog D Unit).run
        env.deployment = (.ok (), d) ∧
      LawfulOc.env env'.deployment = LawfulOc.env d := by
  obtain ⟨_, env₁, hset, h⟩ := Prog.exists_of_bind_ok h
  obtain ⟨d₁, hrun₁, rfl⟩ := Prog.exists_of_focus_ok hset
  obtain ⟨_, env₂, hwait, h⟩ := Prog.exists_of_bind_ok h
  obtain ⟨d₂, hrun₂, rfl⟩ := Prog.exists_of_focus_ok hwait
  cases h
  have hframe := LawfulOc.waitFor_frame d₁
  rw [hrun₂] at hframe
  exact ⟨d₁, hrun₁, hframe⟩

/-- The variable holds the text, and the other variables are as before. -/
def Wrote (name text : Text) (before after : Environ D) : Prop :=
  (LawfulOc.env after.deployment).get? name = some (.plain text) ∧
    ∀ other, other ≠ name →
      (LawfulOc.env after.deployment).get? other = (LawfulOc.env before.deployment).get? other

/-- An accepted assignment of one variable. -/
theorem wrote_of_setEnv {name : Text} (hname : '=' ∉ name) {value : Value}
    {before after : Environ D} {d d' : D} (hd : LawfulOc.env d = LawfulOc.env before.deployment)
    (hset : (Oc.setEnv [assignment name value] : Prog D Unit).run d = (.ok (), d'))
    (hafter : LawfulOc.env after.deployment = LawfulOc.env d') :
    Wrote name value.str before after := by
  have hassigns : Assigns (assignment name value) name value.str := ⟨rfl, hname⟩
  constructor
  · obtain ⟨arg, harg, text, htext, hget⟩ := LawfulOc.setEnv_assigned hset
      ⟨_, List.mem_singleton.mpr rfl, _, hassigns⟩
    rw [List.mem_singleton.mp harg] at htext
    rw [hafter, hget, (htext.unique hassigns).2]
  · intro other hother
    have huntouched : ∀ arg ∈ [assignment name value], ¬ Touches arg other := by
      intro arg harg htouch
      rw [List.mem_singleton.mp harg] at htouch
      rcases htouch with ⟨text, htext⟩ | hremove
      · exact hother (htext.unique hassigns).1
      · exact hassigns.not_removes hremove
    rw [hafter, LawfulOc.setEnv_kept hset huntouched, hd]

/-- The three ways to write a value under a name, each with the state before and after: an
assignment of an absent variable, one of an existing plain variable, and `set_many`. -/
structure Writes (name : Text) (value : Value) (absent plain many : Environ D × Environ D) :
    Prop where
  name_ok : '=' ∉ name
  absent_before : (LawfulOc.env absent.1.deployment).get? name = none
  absent_run : (setItem name value).run absent.1 = (.ok (), absent.2)
  plain_before : ∃ old, (LawfulOc.env plain.1.deployment).get? name = some (.plain old)
  plain_run : (setItem name value).run plain.1 = (.ok (), plain.2)
  many_run : (setMany [(name, value)]).run many.1 = (.ok (), many.2)

/-- All leave one text under the name, and every other variable as it was. -/
def Agree (name : Text) (absent plain many : Environ D × Environ D) : Prop :=
  ∃ text, Wrote name text absent.1 absent.2 ∧ Wrote name text plain.1 plain.2 ∧
    Wrote name text many.1 many.2

omit [Oc D] [LawfulOc D] in
theorem str_lowerTrue_eq_iff {value : Value} :
    value.lowerTrue.str = value.str ↔ value ≠ .bool true := by
  cases value with
  | bool b => cases b <;> decide
  | _ => simp [Value.lowerTrue]

omit [Oc D] [LawfulOc D] in
theorem str_written_eq_iff {value : Value} {source : Option Source} :
    (written value source).str = value.lowerTrue.str ↔ value ≠ .bool true ∨ source = none := by
  cases source with
  | none => simp [written]
  | some source =>
      rw [written, eq_comm, str_lowerTrue_eq_iff]
      simp

theorem Wrote.unique {name text text' : Text} {before after : Environ D}
    (h : Wrote name text before after) (h' : Wrote name text' before after) : text = text' := by
  have hget := h.1.symm.trans h'.1
  simpa using hget

/-- The writes agree exactly unless `True` is written through a variable that was seen. -/
theorem writes_agree_iff {name : Text} {value : Value} {absent plain many : Environ D × Environ D}
    (h : Writes name value absent plain many) :
    Agree name absent plain many ↔
      value ≠ .bool true ∨ (absent.1.seen name = none ∧ plain.1.seen name = none) := by
  obtain ⟨d1, d1', hd1, hset1, hafter1⟩ := setItem_ok h.absent_run
  obtain ⟨d2, d2', hd2, hset2, hafter2⟩ := setItem_ok h.plain_run
  obtain ⟨d3, hset3, hafter3⟩ := setMany_ok h.many_run
  have hwrote1 := wrote_of_setEnv h.name_ok hd1 hset1 hafter1
  have hwrote2 := wrote_of_setEnv h.name_ok hd2 hset2 hafter2
  have hwrote3 := wrote_of_setEnv h.name_ok rfl hset3 hafter3
  have htexts : Agree name absent plain many ↔
      (written value (absent.1.seen name)).str = value.lowerTrue.str ∧
        (written value (plain.1.seen name)).str = value.lowerTrue.str := by
    constructor
    · rintro ⟨text, h1, h2, h3⟩
      rw [← hwrote3.unique h3] at h1 h2
      exact ⟨hwrote1.unique h1, hwrote2.unique h2⟩
    · rintro ⟨h1, h2⟩
      rw [h1] at hwrote1
      rw [h2] at hwrote2
      exact ⟨_, hwrote1, hwrote2, hwrote3⟩
  rw [htexts, str_written_eq_iff, str_written_eq_iff, ← or_and_left]

/-! ## Writing `True` -/

def emptyCluster : PlainCluster := ⟨.ofList [], by decide, [], []⟩

def debugCluster : PlainCluster :=
  ⟨.ofList [("DEBUG".toList, .plain "no".toList)], by decide, [], []⟩

/-- A new object for a deployment, and its state after an assignment of the value. -/
def assigned (value : Value) (c : PlainCluster) : Environ PlainCluster × Environ PlainCluster :=
  (⟨c, none⟩, ((setItem "DEBUG".toList value).run ⟨c, none⟩).2)

def assignedMany (value : Value) (c : PlainCluster) :
    Environ PlainCluster × Environ PlainCluster :=
  (⟨c, none⟩, ((setMany [("DEBUG".toList, value)]).run ⟨c, none⟩).2)

theorem assigned_run {value : Value} {c : PlainCluster}
    (h : ((setItem "DEBUG".toList value).run ⟨c, none⟩).1 = .ok ()) :
    (setItem "DEBUG".toList value).run (assigned value c).1 = (.ok (), (assigned value c).2) :=
  Prog.run_of_fst h

theorem exampleWrites {value : Value}
    (habsent : ((setItem "DEBUG".toList value).run ⟨emptyCluster, none⟩).1 = .ok ())
    (hplain : ((setItem "DEBUG".toList value).run ⟨debugCluster, none⟩).1 = .ok ())
    (hmany : ((setMany [("DEBUG".toList, value)]).run ⟨emptyCluster, none⟩).1 = .ok ()) :
    Writes "DEBUG".toList value (assigned value emptyCluster) (assigned value debugCluster)
      (assignedMany value emptyCluster) where
  name_ok := by decide
  absent_before := rfl
  absent_run := assigned_run habsent
  plain_before := ⟨"no".toList, rfl⟩
  plain_run := assigned_run hplain
  many_run := Prog.run_of_fst hmany

/-- `True` is written as `true` where the variable is absent, and as `True` where it exists. -/
theorem writes_disagree :
    Writes "DEBUG".toList (.bool true) (assigned (.bool true) emptyCluster)
        (assigned (.bool true) debugCluster) (assignedMany (.bool true) emptyCluster) ∧
      ¬ Agree "DEBUG".toList (assigned (.bool true) emptyCluster)
        (assigned (.bool true) debugCluster) (assignedMany (.bool true) emptyCluster) := by
  refine ⟨exampleWrites (by decide) (by decide) (by decide), ?_⟩
  rintro ⟨text, habsent, hplain, -⟩
  have hlower : (LawfulOc.env (assigned (.bool true) emptyCluster).2.deployment).get?
      "DEBUG".toList = some (.plain "true".toList) := by decide
  have hupper : (LawfulOc.env (assigned (.bool true) debugCluster).2.deployment).get?
      "DEBUG".toList = some (.plain "True".toList) := by decide
  have hone := hlower.symm.trans habsent.1
  have htwo := hupper.symm.trans hplain.1
  rw [← htwo] at hone
  exact absurd hone (by decide)

theorem writes_agree_iff_text :
    Agree "DEBUG".toList (assigned (.text "on".toList) emptyCluster)
        (assigned (.text "on".toList) debugCluster)
        (assignedMany (.text "on".toList) emptyCluster) ↔
      Value.text "on".toList ≠ .bool true ∨
        ((assigned (.text "on".toList) emptyCluster).1.seen "DEBUG".toList = none ∧
          (assigned (.text "on".toList) debugCluster).1.seen "DEBUG".toList = none) :=
  writes_agree_iff (exampleWrites (by decide) (by decide) (by decide))

end Environ

end ThreescaleTests.Openshift
