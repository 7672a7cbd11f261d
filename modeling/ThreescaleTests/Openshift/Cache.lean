import ThreescaleTests.Library.Run
import ThreescaleTests.Openshift.Writes

/-!
# What an environment remembers

An `Environ` remembers what it has read until it writes. A write forgets it after the
wait for the roll-out, and a refresh begins by remembering nothing at all, so an
exception at the wrong moment leaves the object with variables that the deployment
does not have.
-/

namespace ThreescaleTests.Openshift

open Library

namespace Environ

variable {D : Type} [Oc D]

/-! ## Runs -/

inductive Op where
  | read (name : Text)
  | set (name : Text) (value : Value)
  | setMany (envs : List (Text × Value))
  | delete (name : Text)

/-- The object and the deployment after an operation, whether it returned or raised. -/
def step : Op → Environ D → Environ D
  | .read name, env => ((getItem name).run env).2
  | .set name value, env => ((setItem name value).run env).2
  | .setMany envs, env => ((Environ.setMany envs).run env).2
  | .delete name, env => ((delItem name).run env).2

/-! ## Conditions of a step -/

/-- An accepted command is followed by a wait that returns. -/
def Settles (args : List Text) (d : D) : Prop :=
  ∀ d', (Oc.setEnv args : Prog D Unit).run d = (.ok (), d') →
    ∃ d'', (Oc.waitFor : Prog D Unit).run d' = (.ok (), d'')

/-- The deployment once the variables are read. -/
def listedDeployment (env : Environ D) : D :=
  match env.envs with
  | some _ => env.deployment
  | none => ((Oc.list : Prog D Text).run env.deployment).2

variable [LawfulOc D]

/-- Every variable is read back from a listing. -/
def Legible (d : D) : Prop :=
  ∀ name source, (LawfulOc.env d).get? name = some source →
    source.Lacks '=' ∧ source.Lacks '\n'

/-- A listing that is needed succeeds and can be read back. -/
def ListingOk (env : Environ D) : Prop :=
  env.envs = none →
    (∃ out d, (Oc.list : Prog D Text).run env.deployment = (.ok out, d)) ∧ Legible env.deployment

/-- Nothing is remembered across a command whose wait raises or across a failed listing. -/
def StepOk : Op → Environ D → Prop
  | .read _, env => ListingOk env
  | .set name value, env => ListingOk env ∧
      ((env.seen name = none ∨ ∃ old, env.seen name = some (.plain old)) →
        Settles [assignment name (written value (env.seen name))] env.listedDeployment)
  | .setMany envs, env => env.envs = none ∨
      Settles (envs.map fun e => assignment e.1 e.2.lowerTrue) env.deployment
  | .delete name, env => ListingOk env ∧
      ((∃ old, env.seen name = some (.plain old)) →
        Settles [name ++ ['-']] env.listedDeployment)

/-! ## The invariant -/

/-- What is remembered is what the deployment holds. -/
def Fresh (env : Environ D) : Prop :=
  ∀ envs, env.envs = some envs → envs.Same (LawfulOc.env env.deployment)

theorem fresh_of_none {env : Environ D} (h : env.envs = none) : Fresh env := by
  intro envs henvs
  rw [h] at henvs
  cases henvs

theorem parseListing_same {d d' : D} {out : Text}
    (hlist : (Oc.list : Prog D Text).run d = (.ok out, d')) (hlegible : Legible d) :
    (parseListing out).Same (LawfulOc.env d) := by
  obtain ⟨l, rfl, hsame⟩ := LawfulOc.list_ok hlist
  have hlacks : ∀ e ∈ listed l.entries, e.2.Lacks '=' ∧ e.2.Lacks '\n' := by
    intro e he
    have hget : l.env.get? e.1 = some e.2 := Dict.get?_eq_some_iff.mpr he
    exact hlegible e.1 e.2 ((hsame e.1).symm.trans hget)
  have hline : l.SingleLine := fun e he => (hlacks e he).2
  have hnone : l.NoEquals := fun e he => (hlacks e he).1
  intro name
  rw [(l.parse_same_iff hline).mpr hnone name, hsame name]

/-- A read of the variables that finds them as they are. -/
theorem readEnvs_current {env : Environ D} (hfresh : Fresh env) (hok : ListingOk env) :
    ∃ envs, (readEnvs).run env = (.ok envs, ⟨env.listedDeployment, some envs⟩) ∧
      envs.Same (LawfulOc.env env.deployment) ∧
      LawfulOc.env env.listedDeployment = LawfulOc.env env.deployment := by
  cases hcache : env.envs with
  | some envs =>
      refine ⟨envs, ?_, hfresh envs hcache, by rw [listedDeployment, hcache]⟩
      rw [readEnvs_remembered hcache]
      cases env
      simp_all [listedDeployment]
  | none =>
      obtain ⟨⟨out, d, hlist⟩, hlegible⟩ := hok hcache
      have hlisted : env.listedDeployment = d := by rw [listedDeployment, hcache, hlist]
      have hframe := LawfulOc.list_frame env.deployment
      rw [hlist] at hframe
      refine ⟨parseListing out, ?_, parseListing_same hlist hlegible, ?_⟩
      · rw [hlisted]
        exact readEnvs_listed hcache hlist
      · rw [hlisted]
        exact hframe

/-! ## Steps -/

theorem get_frame (source : Source) :
    Prog.Within (fun d d' => LawfulOc.env d' = LawfulOc.env d) (source.get : Prog D Value) := by
  have htrans : ∀ d d' d'' : D, LawfulOc.env d' = LawfulOc.env d →
      LawfulOc.env d'' = LawfulOc.env d' → LawfulOc.env d'' = LawfulOc.env d :=
    fun _ _ _ h h' => h'.trans h
  cases source with
  | plain value => exact fun _ => rfl
  | secret resource key =>
      exact Prog.Within.bind htrans (fun d => LawfulOc.secretValue_frame d resource key)
        fun _ _ => rfl
  | configMap resource key =>
      exact Prog.Within.bind htrans (fun d => LawfulOc.configMapValue_frame d resource key)
        fun _ _ => rfl

/-- The program by which a variable is written. -/
def writeProg (name : Text) (value : Value) : Option Source → Prog D Unit
  | some source => source.set name value
  | none => do
      Oc.setEnv [assignment name value.lowerTrue]
      Oc.waitFor

omit [Oc D] [LawfulOc D] in
theorem onDeployment_bind (m : Prog D Unit) (m' : Prog D Unit) (env : Environ D) :
    (onDeployment m >>= fun _ => onDeployment m').run env =
      (onDeployment (m >>= fun _ => m')).run env := by
  cases hm : m.run env.deployment with
  | mk r d =>
      have hfocus := onDeployment_run hm
      cases r with
      | ok u =>
          rw [Prog.bind_of_ok hfocus, onDeployment, onDeployment, Prog.focus_run, Prog.focus_run,
            Prog.bind_of_ok hm]
      | error e =>
          rw [Prog.bind_of_error hfocus, onDeployment_run (Prog.bind_of_error hm)]

omit [LawfulOc D] in
theorem writeItem_run (name : Text) (value : Value) (source : Option Source) (env : Environ D) :
    (writeItem name value source).run env =
      (onDeployment (writeProg name value source)).run env := by
  cases source with
  | some source => rfl
  | none => exact onDeployment_bind _ _ env

/-- A program that raises has not changed the variables. -/
def Undone (m : Prog D Unit) (d : D) : Prop :=
  ∀ e d', m.run d = (.error e, d') → LawfulOc.env d' = LawfulOc.env d

theorem undone_lift (x : Except Exn Unit) (d : D) : Undone (Prog.lift x) d := by
  intro e d' hrun
  cases hrun
  rfl

theorem undone_command {args : List Text} {d : D} (h : Settles args d) :
    Undone ((Oc.setEnv args : Prog D Unit) >>= fun _ => Oc.waitFor) d := by
  intro e d' hrun
  cases hset : (Oc.setEnv args : Prog D Unit).run d with
  | mk r d₁ =>
      cases r with
      | error e' =>
          rw [Prog.bind_of_error hset] at hrun
          cases hrun
          exact LawfulOc.setEnv_error hset
      | ok u =>
          obtain ⟨d₂, hwait⟩ := h d₁ hset
          rw [Prog.bind_of_ok hset, hwait] at hrun
          cases hrun

/-- After a write that has changed the variables nothing is remembered. -/
theorem fresh_write {m : Prog D Unit} {env : Environ D} (hfresh : Fresh env)
    (h : env.envs = none ∨ Undone m env.deployment) :
    Fresh ((onDeployment m >>= fun _ => setEnvs none).run env).2 := by
  cases hm : m.run env.deployment with
  | mk r d =>
      have hfocus := onDeployment_run hm
      cases r with
      | ok u =>
          rw [Prog.bind_of_ok hfocus]
          exact fresh_of_none rfl
      | error e =>
          rw [Prog.bind_of_error hfocus]
          rcases h with hnone | hundone
          · exact fresh_of_none hnone
          · intro envs henvs
            rw [hundone e d hm]
            exact hfresh envs henvs

/-- A reading of the variables shows what is seen, and what it remembers is current. -/
theorem readEnvs_fresh {env : Environ D} (hok : ListingOk env) (hfresh : Fresh env) :
    ∃ envs, (readEnvs).run env = (.ok envs, ⟨env.listedDeployment, some envs⟩) ∧
      (∀ name, envs.get? name = env.seen name) ∧
      Fresh (⟨env.listedDeployment, some envs⟩ : Environ D) := by
  obtain ⟨envs, hread, hsame, hframe⟩ := readEnvs_current hfresh hok
  refine ⟨envs, hread, (readEnvs_ok hread).1, ?_⟩
  intro envs' henvs'
  cases henvs'
  exact hframe ▸ hsame

theorem read_fresh {name : Text} {env : Environ D} (hok : ListingOk env) (hfresh : Fresh env) :
    Fresh ((getItem name).run env).2 := by
  obtain ⟨envs, hread, -, hcurrent⟩ := readEnvs_fresh hok hfresh
  rw [getItem, Prog.bind_of_ok hread]
  cases envs.get? name with
  | none => exact hcurrent
  | some source =>
      intro envs' henvs'
      have hget := get_frame source env.listedDeployment
      exact hget ▸ hcurrent envs' henvs'

theorem set_fresh {name : Text} {value : Value} {env : Environ D}
    (hok : StepOk (.set name value) env) (hfresh : Fresh env) :
    Fresh ((setItem name value).run env).2 := by
  obtain ⟨hlisting, hsettles⟩ := hok
  obtain ⟨envs, hread, hseen, hcurrent⟩ := readEnvs_fresh hlisting hfresh
  have hundone : Undone (writeProg name value (envs.get? name) : Prog D Unit)
      env.listedDeployment := by
    rw [hseen]
    cases hsource : env.seen name with
    | none =>
        have hsettled := hsettles (.inl hsource)
        rw [hsource] at hsettled
        exact undone_command hsettled
    | some source =>
        cases source with
        | plain old =>
            have hsettled := hsettles (.inr ⟨old, hsource⟩)
            rw [hsource] at hsettled
            exact undone_command hsettled
        | secret resource key => exact undone_lift _ _
        | configMap resource key => exact undone_lift _ _
  have hwrite : (setItem name value).run env =
      (onDeployment (writeProg name value (envs.get? name)) >>= fun _ => setEnvs none).run
        ⟨env.listedDeployment, some envs⟩ := by
    rw [setItem, Prog.bind_of_ok hread]
    exact Prog.bind_run_congr (writeItem_run name value _ _) _
  rw [hwrite]
  exact fresh_write hcurrent (.inr hundone)

theorem setMany_fresh {envs : List (Text × Value)} {env : Environ D}
    (hok : StepOk (.setMany envs) env) (hfresh : Fresh env) :
    Fresh ((Environ.setMany envs).run env).2 := by
  have hrun : (Environ.setMany envs).run env =
      (onDeployment ((Oc.setEnv (envs.map fun e => assignment e.1 e.2.lowerTrue) : Prog D Unit) >>=
        fun _ => Oc.waitFor) >>= fun _ => setEnvs none).run env := by
    rw [← Prog.bind_run_congr (onDeployment_bind _ _ env) _]
    exact (Prog.bind_assoc_run _ _ _ env).symm
  rw [hrun]
  exact fresh_write hfresh (hok.imp id undone_command)

theorem delete_fresh {name : Text} {env : Environ D} (hok : StepOk (.delete name) env)
    (hfresh : Fresh env) : Fresh ((delItem name).run env).2 := by
  obtain ⟨hlisting, hsettles⟩ := hok
  obtain ⟨envs, hread, hseen, hcurrent⟩ := readEnvs_fresh hlisting hfresh
  rw [delItem, Prog.bind_of_ok hread, hseen]
  cases hsource : env.seen name with
  | none => exact hcurrent
  | some source =>
      refine fresh_write (m := source.delete name) hcurrent (.inr ?_)
      cases source with
      | plain old => exact undone_command (hsettles ⟨old, hsource⟩)
      | secret resource key => exact undone_lift _ _
      | configMap resource key => exact undone_lift _ _

theorem step_fresh (o : Op) (env : Environ D) (hok : StepOk o env) (hfresh : Fresh env) :
    Fresh (step o env) := by
  cases o with
  | read name => exact read_fresh hok hfresh
  | set name value => exact set_fresh hok hfresh
  | setMany envs => exact setMany_fresh hok hfresh
  | delete name => exact delete_fresh hok hfresh

/-! ## Reads -/

/-- A read raises `KeyError` for a variable that the deployment does not have, and otherwise
answers as the variable of the deployment does. -/
def ReadsRight (env : Environ D) (name : Text) : Prop :=
  match (LawfulOc.env env.deployment).get? name with
  | none => ((getItem name).run env).1 = .error (.keyError (String.ofList name))
  | some source => ∃ d, LawfulOc.env d = LawfulOc.env env.deployment ∧
      ((getItem name).run env).1 = ((source.get : Prog D Value).run d).1

theorem readsRight_of_fresh {env : Environ D} (hfresh : Fresh env) (hok : ListingOk env)
    (name : Text) : ReadsRight env name := by
  obtain ⟨envs, hread, hsame, hframe⟩ := readEnvs_current hfresh hok
  unfold ReadsRight
  rw [← hsame name, getItem, Prog.bind_of_ok hread]
  cases envs.get? name with
  | none => rfl
  | some source => exact ⟨env.listedDeployment, hframe, rfl⟩

/-- In a run of such steps every read returns what the deployment holds. -/
theorem reads_current {env : Environ D} (hnew : env.envs = none) {ops : List Op}
    (hops : EveryStep step StepOk ops env) {name : Text}
    (hread : StepOk (.read name) (run step ops env)) : ReadsRight (run step ops env) name :=
  readsRight_of_fresh (run_invariant_of_everyStep step_fresh hops (fresh_of_none hnew)) hread name

/-! ## A cluster that fails -/

/-- A cluster whose listings or roll-outs may fail. -/
structure FailingCluster where
  cluster : PlainCluster
  lists : Bool
  settles : Bool

def FailingCluster.onCluster {α : Type} (m : Prog PlainCluster α) : Prog FailingCluster α :=
  Prog.focus FailingCluster.cluster (fun c f => { f with cluster := c }) m

instance : Oc FailingCluster where
  list := ⟨fun f =>
    if f.lists then (FailingCluster.onCluster Oc.list).run f
    else (.error (.other "OpenShiftPythonException"), f)⟩
  setEnv args := FailingCluster.onCluster (Oc.setEnv args)
  waitFor := ⟨fun f => if f.settles then (.ok (), f) else (.error (.other "TimeoutError"), f)⟩
  secretValue resource key := FailingCluster.onCluster (Oc.secretValue resource key)
  configMapValue resource key := FailingCluster.onCluster (Oc.configMapValue resource key)

theorem onCluster_ok {α : Type} {m : Prog PlainCluster α} {f f' : FailingCluster}
    {r : Except Exn α} (h : (FailingCluster.onCluster m).run f = (r, f')) :
    m.run f.cluster = (r, f'.cluster) := by
  rw [FailingCluster.onCluster, Prog.focus_run, Prod.mk.injEq] at h
  exact Prod.ext h.1 (by rw [← h.2])

instance : LawfulOc FailingCluster where
  env f := f.cluster.env
  list_ok := by
    intro f f' out h
    by_cases hlists : f.lists = true
    · have hrun : (FailingCluster.onCluster Oc.list).run f = (.ok out, f') := by
        rw [← h]
        exact (if_pos hlists).symm
      exact LawfulOc.list_ok (onCluster_ok hrun)
    · simp [Oc.list, hlists] at h
  list_frame f := by
    by_cases hlists : f.lists = true
    · simp [Oc.list, hlists, FailingCluster.onCluster]
    · simp [Oc.list, hlists]
  waitFor_frame f := by
    by_cases hsettles : f.settles = true
    · simp [Oc.waitFor, hsettles]
    · simp [Oc.waitFor, hsettles]
  secretValue_frame _ _ _ := rfl
  configMapValue_frame _ _ _ := rfl
  setEnv_error h := LawfulOc.setEnv_error (onCluster_ok h)
  setEnv_assigned h := LawfulOc.setEnv_assigned (onCluster_ok h)
  setEnv_kept h := LawfulOc.setEnv_kept (onCluster_ok h)

/-- A new object for a deployment with `DEBUG=no`. -/
def debugEnviron (lists settles : Bool) : Environ FailingCluster :=
  ⟨⟨debugCluster, lists, settles⟩, none⟩

def setDebug : Op := .set "DEBUG".toList (.text "yes".toList)

/-- After an assignment whose roll-out is not completed the object still answers with the old value;
after a listing that failed it knows no variable. -/
theorem reads_stale :
    ¬ ReadsRight (run step [setDebug] (debugEnviron true false)) "DEBUG".toList ∧
      ¬ ReadsRight (run step [.read "DEBUG".toList] (debugEnviron false true)) "DEBUG".toList := by
  constructor
  · have hheld : (LawfulOc.env (run step [setDebug] (debugEnviron true false)).deployment).get?
        "DEBUG".toList = some (.plain "yes".toList) := by decide
    have hread : ((getItem "DEBUG".toList).run
        (run step [setDebug] (debugEnviron true false))).1 = .ok (.text "no".toList) := by decide
    unfold ReadsRight
    rw [hheld, hread]
    rintro ⟨d, -, hvalue⟩
    have htexts : (Except.ok (.text "no".toList) : Except Exn Value) =
        .ok (.text "yes".toList) := hvalue
    exact absurd htexts (by decide)
  · have hheld : (LawfulOc.env (run step [.read "DEBUG".toList]
        (debugEnviron false true)).deployment).get? "DEBUG".toList =
          some (.plain "no".toList) := by decide
    have hread : ((getItem "DEBUG".toList).run (run step [.read "DEBUG".toList]
        (debugEnviron false true))).1 = .error (.keyError "DEBUG") := by decide
    unfold ReadsRight
    rw [hheld, hread]
    rintro ⟨d, -, hvalue⟩
    cases hvalue

theorem legible_of_items {d : D}
    (h : ∀ e ∈ (LawfulOc.env d).items, e.2.Lacks '=' ∧ e.2.Lacks '\n') : Legible d :=
  fun _ _ hget => h _ (Dict.get?_eq_some_iff.mp hget)

theorem reads_current_example :
    ReadsRight (run step [setDebug] (debugEnviron true true)) "DEBUG".toList := by
  have hlisting : ListingOk (debugEnviron true true) :=
    fun _ => ⟨⟨_, _, rfl⟩, legible_of_items (by decide)⟩
  have hsettles : ∀ args, Settles args (debugEnviron true true).listedDeployment := by
    intro args d' h
    have hd' : ((Oc.setEnv args).run (debugEnviron true true).listedDeployment).2 = d' :=
      congrArg Prod.snd h
    rw [← hd']
    exact ⟨_, rfl⟩
  have hops : EveryStep step StepOk [setDebug] (debugEnviron true true) :=
    ⟨⟨hlisting, fun _ => hsettles _⟩, trivial⟩
  have hread : StepOk (.read "DEBUG".toList) (run step [setDebug] (debugEnviron true true)) :=
    fun _ => ⟨⟨_, _, rfl⟩, legible_of_items (by decide)⟩
  exact reads_current rfl hops hread

end Environ

end ThreescaleTests.Openshift
