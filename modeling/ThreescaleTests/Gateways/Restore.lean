import ThreescaleTests.Gateways.ServiceMesh
import ThreescaleTests.Openshift.Writes

/-!
# Restoring the environment of the adapter

What `create` remembers is what it read from the listing, and `destroy` only sets
variables. A variable that refers to a secret or a config map becomes a plain one,
and a variable that was added stays.
-/

namespace ThreescaleTests.Gateways

open Library Openshift

namespace ServiceMeshGateway

variable {D : Type}

theorem onAdapter_ok {α : Type} {m : Prog D α} {gw gw' : ServiceMeshGateway D} {a : α}
    (h : (onAdapter m).run gw = (.ok a, gw')) :
    ∃ d, m.run gw.adapter = (.ok a, d) ∧ gw' = { gw with adapter := d } :=
  Prog.exists_of_focus_ok h

theorem onEnviron_ok {α : Type} {m : Prog (Environ D) α} {gw gw' : ServiceMeshGateway D} {a : α}
    (h : (onEnviron m).run gw = (.ok a, gw')) :
    ∃ env, m.run ⟨gw.adapter, none⟩ = (.ok a, env) ∧
      gw' = { gw with adapter := env.deployment } :=
  Prog.exists_of_focus_ok h

theorem whenSet_ok {flag : ServiceMeshGateway D → Bool} {m : Prog (ServiceMeshGateway D) Unit}
    {gw gw' : ServiceMeshGateway D} (h : (whenSet flag m).run gw = (.ok (), gw')) :
    (flag gw = true ∧ m.run gw = (.ok (), gw')) ∨ (flag gw = false ∧ gw' = gw) := by
  obtain ⟨set, gw₁, hget, h⟩ := Prog.exists_of_bind_ok h
  cases hget
  cases hflag : flag gw with
  | true =>
      rw [hflag] at h
      exact .inl ⟨rfl, h⟩
  | false =>
      rw [hflag] at h
      cases h
      exact .inr ⟨rfl, rfl⟩

variable [Oc D] [LawfulOc D]

/-! ## What create remembers -/

/-- The remembered values are those of the variables read. -/
structure Saves (envs : List (Text × Source)) (values : List (Text × Value)) : Prop where
  names : values.map Prod.fst = envs.map Prod.fst
  plain : ∀ e ∈ values, ∃ source, (e.1, source) ∈ envs ∧
    ∀ text, source = .plain text → e.2 = .text text

theorem get_ok {source : Source} {d d' : D} {value : Value}
    (h : (source.get : Prog D Value).run d = (.ok value, d')) :
    LawfulOc.env d' = LawfulOc.env d ∧ ∀ text, source = .plain text → value = .text text := by
  cases source with
  | plain text =>
      cases h
      exact ⟨rfl, fun _ he => by cases he; rfl⟩
  | secret resource key =>
      obtain ⟨bytes, d₁, hget, hret⟩ := Prog.exists_of_bind_ok h
      cases hret
      have hframe := LawfulOc.secretValue_frame d resource key
      rw [hget] at hframe
      exact ⟨hframe, fun _ he => by cases he⟩
  | configMap resource key =>
      obtain ⟨text, d₁, hget, hret⟩ := Prog.exists_of_bind_ok h
      cases hret
      have hframe := LawfulOc.configMapValue_frame d resource key
      rw [hget] at hframe
      exact ⟨hframe, fun _ he => by cases he⟩

theorem getValues_ok {envs : List (Text × Source)} {values : List (Text × Value)} {d d' : D}
    (h : (getValues envs : Prog D _).run d = (.ok values, d')) :
    LawfulOc.env d' = LawfulOc.env d ∧ Saves envs values := by
  induction envs generalizing values d with
  | nil =>
      cases h
      exact ⟨rfl, ⟨rfl, fun e he => absurd he List.not_mem_nil⟩⟩
  | cons e envs ih =>
      obtain ⟨value, d₁, hget, hrest⟩ := Prog.exists_of_bind_ok h
      obtain ⟨values', d₂, hvalues, hret⟩ := Prog.exists_of_bind_ok hrest
      cases hret
      obtain ⟨hframe, hvalue⟩ := get_ok hget
      obtain ⟨hframe', hsaves⟩ := ih hvalues
      refine ⟨hframe'.trans hframe, ?_, ?_⟩
      · rw [List.map_cons, List.map_cons, hsaves.names]
      · intro v hv
        rcases List.mem_cons.mp hv with rfl | hv
        · exact ⟨e.2, List.mem_cons_self, hvalue⟩
        · obtain ⟨source, hmem, htext⟩ := hsaves.plain v hv
          exact ⟨source, List.mem_cons_of_mem e hmem, htext⟩

theorem readEnvs_ok {d : D} {env' : Environ D} {envs : Dict Text Source}
    (h : (Environ.readEnvs).run (⟨d, none⟩ : Environ D) = (.ok envs, env')) :
    ∃ l : Listing, envs = parseListing l.print ∧ l.env.Same (LawfulOc.env d) ∧
      LawfulOc.env env'.deployment = LawfulOc.env d := by
  cases hlist : (Oc.list : Prog D Text).run d with
  | mk result d' =>
      cases result with
      | error e =>
          rw [Environ.readEnvs_unlisted rfl hlist] at h
          cases h
      | ok out =>
          rw [Environ.readEnvs_listed rfl hlist] at h
          cases h
          obtain ⟨l, rfl, hsame⟩ := LawfulOc.list_ok hlist
          have hframe := LawfulOc.list_frame d
          rw [hlist] at hframe
          exact ⟨l, rfl, hsame, hframe⟩

variable [Mesh D]

theorem create_ok [LawfulMesh D] {gw gw' : ServiceMeshGateway D}
    (h : (create).run gw = (.ok (), gw')) :
    ∃ (l : Listing) (values : List (Text × Value)),
      l.env.Same (LawfulOc.env gw.adapter) ∧ gw'.envVars = Dict.ofList values ∧
      Saves (parseListing l.print).items values ∧ gw'.mesh = true ∧
      LawfulOc.env gw'.adapter = LawfulOc.env gw.adapter := by
  obtain ⟨_, gw₁, hmesh, h⟩ := Prog.exists_of_bind_ok h
  cases hmesh
  obtain ⟨_, gw₂, hcredentials, h⟩ := Prog.exists_of_bind_ok h
  obtain ⟨d₂, hrun₂, rfl⟩ := onAdapter_ok hcredentials
  obtain ⟨_, gw₃, hhttpbin, h⟩ := Prog.exists_of_bind_ok h
  obtain ⟨d₃, hrun₃, rfl⟩ := onAdapter_ok hhttpbin
  obtain ⟨_, gw₄, hset, h⟩ := Prog.exists_of_bind_ok h
  cases hset
  obtain ⟨envs, gw₅, hread, h⟩ := Prog.exists_of_bind_ok h
  obtain ⟨env, hrun₅, rfl⟩ := onEnviron_ok hread
  obtain ⟨l, rfl, hsame, hframe₅⟩ := readEnvs_ok hrun₅
  obtain ⟨values, gw₆, hvalues, h⟩ := Prog.exists_of_bind_ok h
  obtain ⟨d₆, hrun₆, rfl⟩ := onAdapter_ok hvalues
  cases h
  have hframe₂ := LawfulMesh.generateCredentials_frame gw.adapter
  have hframe₃ := LawfulMesh.createHttpbin_frame d₂
  rw [hrun₂] at hframe₂
  rw [hrun₃] at hframe₃
  obtain ⟨hframe₆, hsaves⟩ := getValues_ok hrun₆
  have hfound : LawfulOc.env d₃ = LawfulOc.env gw.adapter := hframe₃.trans hframe₂
  refine ⟨l, values, ?_, rfl, hsaves, rfl, hframe₆.trans (hframe₅.trans hfound)⟩
  rw [← hfound]
  exact hsame

/-! ## What destroy writes -/

def restoreArgs (vars : Dict Text Value) : List Text :=
  vars.items.map fun e => assignment e.1 e.2.lowerTrue

omit [Oc D] [LawfulOc D] [Mesh D] in
theorem not_removes_of_restoreArg {vars : Dict Text Value} {arg name : Text}
    (h : arg ∈ restoreArgs vars) : ¬ Removes arg name := by
  obtain ⟨e, -, rfl⟩ := List.mem_map.mp h
  rintro ⟨harg, hname⟩
  have hmem : '=' ∈ assignment e.1 e.2.lowerTrue := by simp [assignment]
  rw [harg] at hmem
  simp [hname] at hmem

theorem destroy_ok [LawfulMesh D] {gw gw' : ServiceMeshGateway D} (hmesh : gw.mesh = true)
    (h : (destroy).run gw = (.ok (), gw')) :
    ∃ d d' : D, LawfulOc.env d = LawfulOc.env gw.adapter ∧
      (Oc.setEnv (restoreArgs gw.envVars) : Prog D Unit).run d = (.ok (), d') ∧
      LawfulOc.env gw'.adapter = LawfulOc.env d' := by
  obtain ⟨_, gw₁, hhttpbin, h⟩ := Prog.exists_of_bind_ok h
  -- the first statement changes nothing but the state of other resources
  have hfirst : ∃ d, LawfulOc.env d = LawfulOc.env gw.adapter ∧ gw₁ = { gw with adapter := d } := by
    rcases whenSet_ok hhttpbin with ⟨-, hrun⟩ | ⟨-, hsame⟩
    · obtain ⟨d, hd, hgw⟩ := onAdapter_ok hrun
      have hframe := LawfulMesh.destroyHttpbin_frame gw.adapter
      rw [hd] at hframe
      exact ⟨d, hframe, hgw⟩
    · exact ⟨gw.adapter, rfl, hsame⟩
  obtain ⟨d, hd, rfl⟩ := hfirst
  rcases whenSet_ok h with ⟨-, hrun⟩ | ⟨hunset, -⟩
  · obtain ⟨vars, gw₂, hvars, hrun⟩ := Prog.exists_of_bind_ok hrun
    cases hvars
    obtain ⟨_, gw₃, hset, hrun⟩ := Prog.exists_of_bind_ok hrun
    obtain ⟨env, henv, rfl⟩ := onEnviron_ok hset
    obtain ⟨d', hd', hframe⟩ := Environ.setMany_ok henv
    obtain ⟨d₄, hd₄, rfl⟩ := onAdapter_ok hrun
    have hframe' := LawfulMesh.destroyMesh_frame env.deployment
    rw [hd₄] at hframe'
    exact ⟨d, d', hd, hd', hframe'.trans hframe⟩
  · rw [hmesh] at hunset
    cases hunset

omit [Oc D] [LawfulOc D] [Mesh D] in
theorem mem_keys_of_listed {l : Listing} {name : Text} {source : Source}
    (hplain : ∀ value, source ≠ .plain value) (h : (name, source) ∈ listed l.entries) :
    name ∈ (parseListing l.print).keys := by
  have hentry := mem_listed_iff.mp h
  have hwf := l.wellFormed _ hentry
  have hparsed : (name, source) ∈ (Entry.var name source).parsed := by
    cases source with
    | plain value => exact absurd rfl (hplain value)
    | secret resource key => rw [parsed_secret hwf]; exact List.mem_cons_self
    | configMap resource key => rw [parsed_configMap hwf]; exact List.mem_cons_self
  rw [parseListing_print, Dict.mem_keys_ofList]
  exact List.mem_map_of_mem (List.mem_flatMap.mpr ⟨_, hentry, hparsed⟩)

section Arguments

variable {l : Listing} {values : List (Text × Value)}
  (hsaves : Saves (parseListing l.print).items values)

include hsaves

omit [Oc D] [LawfulOc D] [Mesh D]

/-- Every name that was read is assigned. -/
theorem exists_restoreArg {name : Text} (h : name ∈ (parseListing l.print).keys) :
    ∃ value, (name, value) ∈ values ∧
      assignment name value.lowerTrue ∈ restoreArgs (Dict.ofList values) := by
  have hkey : name ∈ (Dict.ofList values).keys := by
    rw [Dict.mem_keys_ofList, hsaves.names]
    exact h
  obtain ⟨value, hvalue⟩ := Dict.mem_keys_iff.mp hkey
  exact ⟨value, Dict.mem_of_get?_ofList hvalue,
    List.mem_map.mpr ⟨_, Dict.get?_eq_some_iff.mp hvalue, rfl⟩⟩

theorem assigns_reference {name : Text} {source : Source}
    (hplain : ∀ value, source ≠ .plain value) (h : (name, source) ∈ listed l.entries) :
    ∃ arg ∈ restoreArgs (Dict.ofList values), ∃ value, Assigns arg name value := by
  obtain ⟨value, -, harg⟩ := exists_restoreArg hsaves (mem_keys_of_listed hplain h)
  exact ⟨_, harg, _, rfl, (l.isWord_of_mem h).not_eq⟩

variable (hline : l.SingleLine)

include hline

theorem assigns_plain {name value : Text} (h : (name, Source.plain value) ∈ listed l.entries) :
    ∃ arg ∈ restoreArgs (Dict.ofList values), ∃ value', Assigns arg name value' := by
  have hword := l.isWord_of_mem h
  have hnewline : '\n' ∉ value := hline _ h
  obtain ⟨n, v, hparse, hjoin⟩ := parseLine_joins hword.not_newline hnewline
  have hparsed : (n, Source.plain v) ∈ (Entry.var name (.plain value)).parsed := by
    rw [Entry.parsed_of_line (print_plain_not_newline hword hnewline), Entry.print, hparse]
    exact List.mem_cons_self
  have hkey : n ∈ (parseListing l.print).keys := by
    rw [parseListing_print, Dict.mem_keys_ofList]
    exact List.mem_map_of_mem (List.mem_flatMap.mpr ⟨_, mem_listed_iff.mp h, hparsed⟩)
  obtain ⟨w, -, harg⟩ := exists_restoreArg hsaves hkey
  refine ⟨_, harg, ?_⟩
  -- the name that was read is the variable's, perhaps with a part of its value
  rcases first_or_later hword.not_eq hjoin.symm with ⟨hname, -⟩ | ⟨z, hlater⟩
  · exact ⟨_, by rw [hname]; rfl, hword.not_eq⟩
  · refine ⟨z ++ '=' :: w.lowerTrue.str, ?_, hword.not_eq⟩
    rw [assignment, hlater]
    simp

variable (hplain : ∀ e ∈ listed l.entries, ∃ value, e.2 = .plain value)

include hplain

/-- Every argument is the line of a variable. -/
theorem restoreArg_line {name : Text} {value : Value} (h : (name, value) ∈ values) :
    ∃ name' value', (name', Source.plain value') ∈ listed l.entries ∧
      assignment name value.lowerTrue = name' ++ '=' :: value' := by
  obtain ⟨source, hmem, htext⟩ := hsaves.plain _ h
  have hget := Dict.get?_eq_some_iff.mpr hmem
  rw [parseListing_print] at hget
  obtain ⟨e, he, hparsed⟩ := List.mem_flatMap.mp (Dict.mem_of_get?_ofList hget)
  have hwf := l.wellFormed e he
  cases e with
  | header text =>
      rw [parsed_header hwf] at hparsed
      exact absurd hparsed List.not_mem_nil
  | var name' source' =>
      have hlisted := mem_listed_iff.mpr he
      obtain ⟨value', rfl⟩ := hplain _ hlisted
      have hword : IsWord name' := hwf
      have hnewline : '\n' ∉ value' := hline _ hlisted
      obtain ⟨n, v, hparse, hjoin⟩ := parseLine_joins hword.not_newline hnewline
      rw [Entry.parsed_of_line (print_plain_not_newline hword hnewline), Entry.print, hparse]
        at hparsed
      obtain ⟨rfl, rfl⟩ := Prod.mk.inj (List.mem_singleton.mp hparsed)
      refine ⟨name', value', hlisted, ?_⟩
      have hvalue : value = .text v := htext v rfl
      rw [hvalue, ← hjoin]
      rfl

theorem mem_restoreArgs {arg : Text} (h : arg ∈ restoreArgs (Dict.ofList values)) :
    ∃ name value, (name, Source.plain value) ∈ listed l.entries ∧ Assigns arg name value := by
  obtain ⟨e, he, rfl⟩ := List.mem_map.mp h
  have hmem := Dict.mem_of_get?_ofList (Dict.get?_eq_some_iff.mpr he)
  obtain ⟨name, value, hlisted, harg⟩ := restoreArg_line hsaves hline hplain hmem
  exact ⟨name, value, hlisted, harg, (l.isWord_of_mem hlisted).not_eq⟩

end Arguments

/-! ## The environment after destroy -/

/-- No variable refers to a secret or a config map. -/
def PlainEnv (env : Dict Text Source) : Prop :=
  ∀ name source, env.get? name = some source → ∃ value, source = .plain value

/-- No value has a line break. -/
def LineEnv (env : Dict Text Source) : Prop :=
  ∀ name source, env.get? name = some source → source.Lacks '\n'

/-- All variables that are left were found. -/
def NoneAdded (found left : Dict Text Source) : Prop := ∀ name ∈ left.keys, name ∈ found.keys

omit [Mesh D] [LawfulOc D] in
theorem step_vars (o : Op) (gw : ServiceMeshGateway D) :
    (step o gw).envVars = gw.envVars ∧ (step o gw).mesh = gw.mesh := by
  cases o with
  | environ => exact ⟨rfl, rfl⟩
  | modify i m =>
      cases h : gw.environs[i]? with
      | none => simp [step, h]
      | some envs => simp [step, h]

omit [Mesh D] [LawfulOc D] in
theorem run_vars (ops : List Op) (gw : ServiceMeshGateway D) :
    (run step ops gw).envVars = gw.envVars ∧ (run step ops gw).mesh = gw.mesh := by
  have hstep : ∀ (o : Op) (s : ServiceMeshGateway D),
      (s.envVars = gw.envVars ∧ s.mesh = gw.mesh) →
        (step o s).envVars = gw.envVars ∧ (step o s).mesh = gw.mesh := by
    intro o s hs
    rw [(step_vars o s).1, (step_vars o s).2]
    exact hs
  exact run_invariant hstep ops ⟨rfl, rfl⟩

omit [Oc D] [LawfulOc D] [Mesh D] in
theorem listed_iff_get? {l : Listing} {found : Dict Text Source} (hsame : l.env.Same found)
    {name : Text} {source : Source} :
    (name, source) ∈ listed l.entries ↔ found.get? name = some source := by
  rw [← hsame name, Dict.get?_eq_some_iff]
  rfl

/-! ## Modifications of certain variables -/

section Inside

omit [Mesh D]

/-- Every variable of the deployment is one of certain names. -/
def Inside (P : Text → Prop) (d : D) : Prop := ∀ name ∈ (LawfulOc.env d).keys, P name

def KeepsInside (P : Text → Prop) (d d' : D) : Prop := Inside P d → Inside P d'

variable {P : Text → Prop}

theorem keepsInside_trans (d d' d'' : D) (h : KeepsInside P d d') (h' : KeepsInside P d' d'') :
    KeepsInside P d d'' := fun hd => h' (h hd)

theorem frame_keeps {α : Type} {m : Prog D α}
    (h : ∀ d, LawfulOc.env (m.run d).2 = LawfulOc.env d) : Prog.Within (KeepsInside P) m := by
  intro d hd
  unfold Inside
  rw [h d]
  exact hd

theorem setEnv_keeps {args : List Text} (hargs : ∀ arg ∈ args, ∀ name, Touches arg name → P name) :
    Prog.Within (KeepsInside P) (Oc.setEnv args : Prog D Unit) := by
  intro d hd name hname
  cases hrun : (Oc.setEnv args : Prog D Unit).run d with
  | mk r d' =>
      rw [hrun] at hname
      cases r with
      | error e =>
          rw [LawfulOc.setEnv_error hrun] at hname
          exact hd name hname
      | ok u =>
          by_cases htouch : ∃ arg ∈ args, Touches arg name
          · obtain ⟨arg, harg, h⟩ := htouch
            exact hargs arg harg name h
          · have hkept := LawfulOc.setEnv_kept hrun fun arg harg h => htouch ⟨arg, harg, h⟩
            apply hd
            rw [← Dict.isSome_get?_iff, ← hkept, Dict.isSome_get?_iff]
            exact hname

omit [Oc D] [LawfulOc D] in
theorem touches_assignment {n name : Text} {value : Value} (hn : '=' ∉ n)
    (h : Touches (assignment n value) name) : name = n := by
  have hassigns : Assigns (assignment n value) n value.str := ⟨rfl, hn⟩
  rcases h with ⟨v, hv⟩ | hremove
  · exact (hv.unique hassigns).1
  · exact absurd hremove hassigns.not_removes

omit [Oc D] [LawfulOc D] in
theorem touches_removal {n name : Text} (hn : '=' ∉ n) (h : Touches (n ++ ['-']) name) :
    name = n := by
  rcases h with ⟨v, hv⟩ | ⟨hremove, -⟩
  · have hmem : '=' ∈ n ++ ['-'] := by simp [hv.1]
    simp [hn] at hmem
  · exact (List.append_cancel_right hremove).symm

def EnvironKeeps (P : Text → Prop) (env env' : Environ D) : Prop :=
  KeepsInside P env.deployment env'.deployment

theorem onDeployment_keeps {α : Type} {m : Prog D α} (h : Prog.Within (KeepsInside P) m) :
    Prog.Within (EnvironKeeps P) (Environ.onDeployment m) := by
  have hput : ∀ (env : Environ D) (d : D), KeepsInside P env.deployment d →
      EnvironKeeps P env { env with deployment := d } := fun _ _ hd => hd
  exact Prog.Within.focus hput h

theorem bind_keeps {α β : Type} {m : Prog (Environ D) α} {f : α → Prog (Environ D) β}
    (hm : Prog.Within (EnvironKeeps P) m) (hf : ∀ a, Prog.Within (EnvironKeeps P) (f a)) :
    Prog.Within (EnvironKeeps P) (m >>= f) :=
  Prog.Within.bind (fun _ _ _ h h' hd => h' (h hd)) hm hf

theorem setEnvs_keeps (envs : Option (Dict Text Source)) :
    Prog.Within (EnvironKeeps P) (Environ.setEnvs envs : Prog (Environ D) Unit) := fun _ h => h

theorem readEnvs_keeps :
    Prog.Within (EnvironKeeps P) (Environ.readEnvs : Prog (Environ D) (Dict Text Source)) := by
  unfold Environ.readEnvs
  refine bind_keeps (fun _ h => h) ?_
  intro envs
  cases envs with
  | some envs => exact fun _ h => h
  | none =>
      have hlist : Prog.Within (EnvironKeeps P) (Environ.onDeployment (Oc.list : Prog D Text)) :=
        onDeployment_keeps (frame_keeps LawfulOc.list_frame)
      have hrefresh : Prog.Within (EnvironKeeps P) (Environ.refresh : Prog (Environ D) Unit) :=
        bind_keeps (setEnvs_keeps _) fun _ => bind_keeps hlist fun _ => setEnvs_keeps _
      exact bind_keeps hrefresh fun _ _ h => h

theorem waitFor_keeps :
    Prog.Within (EnvironKeeps P) (Environ.onDeployment (Oc.waitFor : Prog D Unit)) :=
  onDeployment_keeps (frame_keeps LawfulOc.waitFor_frame)

theorem assign_keeps {name : Text} {value : Value} (hname : P name) (heq : '=' ∉ name) :
    Prog.Within (KeepsInside P) (Oc.setEnv [assignment name value] : Prog D Unit) := by
  apply setEnv_keeps
  intro arg harg n htouch
  rw [List.mem_singleton.mp harg] at htouch
  rw [touches_assignment heq htouch]
  exact hname

theorem then_wait_keeps {m : Prog D Unit} (hm : Prog.Within (KeepsInside P) m) :
    Prog.Within (KeepsInside P) (m >>= fun _ => (Oc.waitFor : Prog D Unit)) :=
  Prog.Within.bind keepsInside_trans hm fun _ => frame_keeps LawfulOc.waitFor_frame

theorem sourceGet_keeps (source : Source) :
    Prog.Within (KeepsInside P) (source.get : Prog D Value) := by
  cases source with
  | plain value => exact fun _ h => h
  | secret resource key =>
      exact Prog.Within.bind keepsInside_trans
        (frame_keeps fun d => LawfulOc.secretValue_frame d resource key) fun _ _ h => h
  | configMap resource key =>
      exact Prog.Within.bind keepsInside_trans
        (frame_keeps fun d => LawfulOc.configMapValue_frame d resource key) fun _ _ h => h

theorem sourceSet_keeps {name : Text} (value : Value) (hname : P name) (heq : '=' ∉ name)
    (source : Source) : Prog.Within (KeepsInside P) (source.set name value : Prog D Unit) := by
  cases source with
  | plain old => exact then_wait_keeps (assign_keeps hname heq)
  | secret resource key => exact fun _ h => h
  | configMap resource key => exact fun _ h => h

theorem sourceDelete_keeps {name : Text} (hname : P name) (heq : '=' ∉ name) (source : Source) :
    Prog.Within (KeepsInside P) (source.delete name : Prog D Unit) := by
  cases source with
  | plain old =>
      apply then_wait_keeps
      apply setEnv_keeps
      intro arg harg n htouch
      rw [List.mem_singleton.mp harg] at htouch
      rw [touches_removal heq htouch]
      exact hname
  | secret resource key => exact fun _ h => h
  | configMap resource key => exact fun _ h => h

theorem getItem_keeps (name : Text) :
    Prog.Within (EnvironKeeps P) (Environ.getItem name : Prog (Environ D) Value) := by
  unfold Environ.getItem
  refine bind_keeps readEnvs_keeps fun envs => ?_
  cases envs.get? name with
  | none => exact fun _ h => h
  | some source => exact onDeployment_keeps (sourceGet_keeps source)

theorem setItem_keeps {name : Text} (value : Value) (hname : P name) (heq : '=' ∉ name) :
    Prog.Within (EnvironKeeps P) (Environ.setItem name value : Prog (Environ D) Unit) := by
  unfold Environ.setItem
  refine bind_keeps readEnvs_keeps fun envs => ?_
  refine bind_keeps ?_ fun _ => setEnvs_keeps _
  cases envs.get? name with
  | none => exact bind_keeps (onDeployment_keeps (assign_keeps hname heq)) fun _ => waitFor_keeps
  | some source => exact onDeployment_keeps (sourceSet_keeps value hname heq source)

theorem delItem_keeps {name : Text} (hname : P name) (heq : '=' ∉ name) :
    Prog.Within (EnvironKeeps P) (Environ.delItem name : Prog (Environ D) Unit) := by
  unfold Environ.delItem
  refine bind_keeps readEnvs_keeps fun envs => ?_
  refine bind_keeps ?_ fun _ => setEnvs_keeps _
  cases envs.get? name with
  | none => exact fun _ h => h
  | some source => exact onDeployment_keeps (sourceDelete_keeps hname heq source)

theorem setMany_keeps {envs : List (Text × Value)} (hnames : ∀ e ∈ envs, P e.1 ∧ '=' ∉ e.1) :
    Prog.Within (EnvironKeeps P) (Environ.setMany envs : Prog (Environ D) Unit) := by
  have hset : Prog.Within (KeepsInside P) (Oc.setEnv
      (envs.map fun e => assignment e.1 e.2.lowerTrue) : Prog D Unit) := by
    apply setEnv_keeps
    intro arg harg name htouch
    obtain ⟨e, he, rfl⟩ := List.mem_map.mp harg
    rw [touches_assignment (hnames e he).2 htouch]
    exact (hnames e he).1
  exact bind_keeps (onDeployment_keeps hset) fun _ =>
    bind_keeps waitFor_keeps fun _ => setEnvs_keeps _

/-- Only variables of certain names are written. -/
def Modification.Names (P : Text → Prop) : Modification → Prop
  | .setMany envs => ∀ e ∈ envs, P e.1
  | .setItem name _ => P name
  | .delItem name => P name
  | .getItem _ => True

theorem modification_keeps (hwords : ∀ name, P name → '=' ∉ name) {m : Modification}
    (hm : m.Names P) : Prog.Within (EnvironKeeps P) (m.prog : Prog (Environ D) Unit) := by
  cases m with
  | setMany envs => exact setMany_keeps fun e he => ⟨hm e he, hwords _ (hm e he)⟩
  | setItem name value => exact setItem_keeps value hm (hwords name hm)
  | delItem name => exact delItem_keeps hm (hwords name hm)
  | getItem name => exact bind_keeps (getItem_keeps name) fun _ _ h => h

def Op.Names (P : Text → Prop) : Op → Prop
  | .environ => True
  | .modify _ m => m.Names P

theorem step_keeps (hwords : ∀ name, P name → '=' ∉ name) {o : Op} (ho : o.Names P)
    {gw : ServiceMeshGateway D} (h : Inside P gw.adapter) : Inside P (step o gw).adapter := by
  cases o with
  | environ => exact h
  | modify i m =>
      cases hi : gw.environs[i]? with
      | none =>
          simp only [step, hi]
          exact h
      | some envs =>
          simp only [step, hi]
          exact modification_keeps hwords ho ⟨gw.adapter, envs⟩ h

/-- Modifications of found variables add none. -/
theorem run_noneAdded {found : Dict Text Source} (hwords : ∀ name ∈ found.keys, '=' ∉ name)
    {ops : List Op} {gw : ServiceMeshGateway D}
    (hops : EveryStep step (fun o _ => o.Names (· ∈ found.keys)) ops gw)
    (h : NoneAdded found (LawfulOc.env gw.adapter)) :
    NoneAdded found (LawfulOc.env (run step ops gw).adapter) := by
  have hinside : Inside (· ∈ found.keys) gw.adapter := h
  have hstep : ∀ (o : Op) (s : ServiceMeshGateway D), o.Names (· ∈ found.keys) →
      Inside (· ∈ found.keys) s.adapter → Inside (· ∈ found.keys) (step o s).adapter :=
    fun o s ho hs => step_keeps hwords ho hs
  exact run_invariant_of_everyStep (I := fun s => Inside (· ∈ found.keys) s.adapter) hstep hops
    hinside

end Inside

/-! ## After destroy -/

section After

variable {l : Listing} {values : List (Text × Value)} {found : Dict Text Source} {d d' : D}
  (hfound : l.env.Same found) (hsaves : Saves (parseListing l.print).items values)
  (hset : (Oc.setEnv (restoreArgs (Dict.ofList values)) : Prog D Unit).run d = (.ok (), d'))

include hfound hsaves hset

omit [Mesh D]

/-- A reference that was read is a plain variable afterwards. -/
theorem plainEnv_of_same (h : (LawfulOc.env d').Same found) : PlainEnv found := by
  intro name source hsource
  by_contra hnot
  have hplain : ∀ value, source ≠ .plain value := fun value he => hnot ⟨value, he⟩
  have hassigned := assigns_reference hsaves hplain ((listed_iff_get? hfound).mpr hsource)
  obtain ⟨arg, -, value, -, hget⟩ := LawfulOc.setEnv_assigned hset hassigned
  rw [h name, hsource, Option.some.injEq] at hget
  exact hplain value hget

omit hfound hsaves in
/-- Nothing is removed. -/
theorem noneAdded_of_same (h : (LawfulOc.env d').Same found) :
    NoneAdded found (LawfulOc.env d) := by
  intro name hname
  by_cases hassigned : ∃ arg ∈ restoreArgs (Dict.ofList values), ∃ value, Assigns arg name value
  · obtain ⟨arg, -, value, -, hget⟩ := LawfulOc.setEnv_assigned hset hassigned
    rw [h name] at hget
    exact Dict.mem_keys_iff.mpr ⟨_, hget⟩
  · have hkept : ∀ arg ∈ restoreArgs (Dict.ofList values), ¬ Touches arg name := by
      intro arg harg htouch
      rcases htouch with htouch | hremove
      · exact hassigned ⟨arg, harg, htouch⟩
      · exact not_removes_of_restoreArg harg hremove
    have hget := LawfulOc.setEnv_kept hset hkept
    obtain ⟨source, hsource⟩ := Dict.mem_keys_iff.mp hname
    rw [h name, hsource] at hget
    exact Dict.mem_keys_iff.mpr ⟨source, hget⟩

theorem same_of_noneAdded (hplain : PlainEnv found) (hline : LineEnv found)
    (hnone : NoneAdded found (LawfulOc.env d)) : (LawfulOc.env d').Same found := by
  have hplain' : ∀ e ∈ listed l.entries, ∃ value, e.2 = .plain value :=
    fun e he => hplain _ _ ((listed_iff_get? hfound).mp he)
  have hline' : l.SingleLine := fun e he => hline _ _ ((listed_iff_get? hfound).mp he)
  intro name
  cases hget : found.get? name with
  | some source =>
      obtain ⟨value, rfl⟩ := hplain name source hget
      have hassigned := assigns_plain hsaves hline' ((listed_iff_get? hfound).mpr hget)
      obtain ⟨arg, harg, value', hassigns, hset'⟩ := LawfulOc.setEnv_assigned hset hassigned
      obtain ⟨n, v, hmem, hassigns'⟩ := mem_restoreArgs hsaves hline' hplain' harg
      obtain ⟨rfl, rfl⟩ := hassigns.unique hassigns'
      rw [hset', ← hget]
      exact ((listed_iff_get? hfound).mp hmem).symm
  | none =>
      have hkept : ∀ arg ∈ restoreArgs (Dict.ofList values), ¬ Touches arg name := by
        intro arg harg htouch
        obtain ⟨n, v, hmem, hassigns⟩ := mem_restoreArgs hsaves hline' hplain' harg
        rcases htouch with ⟨value, hassigns'⟩ | hremove
        · obtain ⟨rfl, rfl⟩ := hassigns.unique hassigns'
          rw [(listed_iff_get? hfound).mp hmem] at hget
          cases hget
        · exact hassigns.not_removes hremove
      rw [LawfulOc.setEnv_kept hset hkept, Dict.get?_eq_none_iff]
      intro hname
      exact Dict.get?_eq_none_iff.mp hget (hnone name hname)

end After

/-- The variables after `destroy`, in terms of those found and those left by the run; a run that
only writes variables that were found adds none. -/
theorem destroy_restores [LawfulMesh D] {gw gw' gw'' : ServiceMeshGateway D} (ops : List Op)
    (hcreate : (create).run gw = (.ok (), gw'))
    (hdestroy : (destroy).run (run step ops gw') = (.ok (), gw'')) :
    let found := LawfulOc.env gw.adapter
    let left := LawfulOc.env (run step ops gw').adapter
    ((LawfulOc.env gw''.adapter).Same found → PlainEnv found ∧ NoneAdded found left) ∧
    (PlainEnv found → LineEnv found → NoneAdded found left →
      (LawfulOc.env gw''.adapter).Same found) ∧
    (EveryStep step (fun o _ => o.Names (· ∈ found.keys)) ops gw' → NoneAdded found left) := by
  intro found left
  obtain ⟨l, values, hfound, hvars, hsaves, hmesh, hframe⟩ := create_ok hcreate
  obtain ⟨hvars', hmesh'⟩ := run_vars ops gw'
  obtain ⟨d, d', hleft, hset, hafter⟩ := destroy_ok (hmesh'.trans hmesh) hdestroy
  rw [hvars', hvars] at hset
  rw [hafter]
  refine ⟨?_, ?_, ?_⟩
  · intro hsame
    have hnone := noneAdded_of_same hset hsame
    rw [hleft] at hnone
    exact ⟨plainEnv_of_same hfound hsaves hset hsame, hnone⟩
  · intro hplain hline hnone
    apply same_of_noneAdded hfound hsaves hset hplain hline
    rw [hleft]
    exact hnone
  · intro hops
    have hwords : ∀ name ∈ found.keys, '=' ∉ name := by
      intro name hname
      obtain ⟨source, hsource⟩ := Dict.mem_keys_iff.mp hname
      exact (l.isWord_of_mem ((listed_iff_get? hfound).mpr hsource)).not_eq
    apply run_noneAdded hwords hops
    rw [hframe]
    exact fun name hname => hname

/-! ## Two adapters -/

instance : Mesh PlainCluster where
  generateCredentials := pure ()
  createHttpbin := pure ()
  destroyHttpbin := pure ()
  destroyMesh := pure ()

instance : LawfulMesh PlainCluster where
  generateCredentials_frame _ := rfl
  createHttpbin_frame _ := rfl
  destroyHttpbin_frame _ := rfl
  destroyMesh_frame _ := rfl

def plainCluster : PlainCluster :=
  ⟨.ofList [("LOG_LEVEL".toList, .plain "debug".toList)], by decide, [], []⟩

def changeLogLevel : List Op :=
  [.environ, .modify 0 (.setItem "LOG_LEVEL".toList (.text "info".toList)),
    .modify 0 (.delItem "LOG_LEVEL".toList)]

def addVariable : List Op := [.environ, .modify 0 (.setItem "EXTRA".toList (.bool true))]

theorem destroy_restores_changed :
    (LawfulOc.env ((destroy).run (run step changeLogLevel
      ((create).run (init plainCluster)).2)).2.adapter).Same (LawfulOc.env plainCluster) := by
  have hcreate : (create).run (init plainCluster) =
      (.ok (), ((create).run (init plainCluster)).2) := Prog.run_of_fst (by decide +kernel)
  have hdestroy : (destroy).run (run step changeLogLevel ((create).run (init plainCluster)).2) =
      (.ok (), ((destroy).run (run step changeLogLevel
        ((create).run (init plainCluster)).2)).2) := Prog.run_of_fst (by decide +kernel)
  have hfound : ∀ name source, plainCluster.env.get? name = some source →
      name = "LOG_LEVEL".toList ∧ source = .plain "debug".toList := by
    intro name source h
    have hmem := List.mem_singleton.mp (Dict.get?_eq_some_iff.mp h)
    exact Prod.mk.inj hmem
  have hplain : PlainEnv plainCluster.env := fun name source h => ⟨_, (hfound name source h).2⟩
  have hline : LineEnv plainCluster.env := by
    intro name source h
    rw [(hfound name source h).2]
    decide
  have h := destroy_restores changeLogLevel hcreate hdestroy
  refine h.2.1 hplain hline (h.2.2 ?_)
  have hname : "LOG_LEVEL".toList ∈ plainCluster.env.keys := by decide
  exact ⟨trivial, hname, hname, trivial⟩

/-- Without any modification the token that came from a secret is a plain value, and an added
variable stays. -/
theorem destroy_does_not_restore :
    (let created := (create).run (init exampleCluster)
     let destroyed := (destroy).run (run step [] created.2)
     created.1 = .ok () ∧ destroyed.1 = .ok () ∧
      ¬ (LawfulOc.env destroyed.2.adapter).Same (LawfulOc.env exampleCluster)) ∧
    (let created := (create).run (init plainCluster)
     let destroyed := (destroy).run (run step addVariable created.2)
     created.1 = .ok () ∧ destroyed.1 = .ok () ∧
      ¬ (LawfulOc.env destroyed.2.adapter).Same (LawfulOc.env plainCluster)) := by
  refine ⟨⟨by decide +kernel, by decide +kernel, ?_⟩, by decide +kernel, by decide +kernel, ?_⟩
  · intro h
    have hvalue : (LawfulOc.env ((destroy).run (run step []
        ((create).run (init exampleCluster)).2)).2.adapter).get? "TOKEN".toList =
        some (.plain "b's3'".toList) := by decide +kernel
    have htoken := h "TOKEN".toList
    rw [hvalue] at htoken
    exact absurd htoken (by decide +kernel)
  · intro h
    have hvalue : (LawfulOc.env ((destroy).run (run step addVariable
        ((create).run (init plainCluster)).2)).2.adapter).get? "EXTRA".toList =
        some (.plain "true".toList) := by decide +kernel
    have hextra := h "EXTRA".toList
    rw [hvalue] at hextra
    exact absurd hextra (by decide +kernel)

end ServiceMeshGateway

end ThreescaleTests.Gateways
