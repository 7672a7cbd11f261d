import Mathlib.Data.List.TakeWhile
import ThreescaleTests.Wasm.Gateways

/-!
# What gateways leave in a shared cluster

Whatever is done with the gateways and whichever requests fail, a gateway only ever touches
what carries its own labels. What is left of it are the extensions that it still holds, those
whose creation failed, and policies that were not removed. Of the extensions that it holds, those
are complete whose deletion it did not try in vain.
-/

namespace ThreescaleTests.Wasm.Gateways

open Library

/-! ## Requests -/

/-- Nothing is gone, and what is new is among the objects. -/
structure Grown (objects before after : List Resource) : Prop where
  kept : ∀ r ∈ before, r ∈ after
  new : ∀ r ∈ after, r ∈ before ∨ r ∈ objects

namespace Grown

variable {objects objects' before middle after : List Resource}

theorem refl : Grown objects before before := ⟨fun _ => id, fun _ => .inl⟩

theorem mono (h : Grown objects before after) (hsubset : ∀ r ∈ objects, r ∈ objects') :
    Grown objects' before after :=
  ⟨h.kept, fun r hr => (h.new r hr).imp_right (hsubset r)⟩

theorem trans (h : Grown objects before middle) (h' : Grown objects middle after) :
    Grown objects before after := by
  refine ⟨fun r hr => h'.kept r (h.kept r hr), fun r hr => ?_⟩
  exact (h'.new r hr).elim (h.new r) .inr

end Grown

/-- Nothing is new, and what is gone is among the objects. -/
structure Shrunk (selected : Resource → Prop) (before after : List Resource) : Prop where
  kept : ∀ r ∈ before, r ∈ after ∨ selected r
  old : ∀ r ∈ after, r ∈ before

namespace Shrunk

variable {selected selected' : Resource → Prop} {before middle after : List Resource}

theorem refl : Shrunk selected before before := ⟨fun _ => .inl, fun _ => id⟩

theorem mono (h : Shrunk selected before after) (hsubset : ∀ r, selected r → selected' r) :
    Shrunk selected' before after :=
  ⟨fun r hr => (h.kept r hr).imp_right (hsubset r), h.old⟩

theorem trans (h : Shrunk selected before middle) (h' : Shrunk selected middle after) :
    Shrunk selected before after := by
  refine ⟨fun r hr => ?_, fun r hr => h.old r (h'.old r hr)⟩
  exact (h.kept r hr).elim (h'.kept r) .inr

end Shrunk

/-- What a program of requests does to the resources that are there. -/
structure Creates (objects : List Resource) (m : Prog Cluster Unit) : Prop where
  grown : ∀ c, Grown objects c.resources (m.run c).2.resources
  created : ∀ c, (m.run c).1 = .ok () → ∀ r ∈ objects, r ∈ (m.run c).2.resources

theorem command_resources (c : Cluster) : (command.run c).2.resources = c.resources := by
  unfold command
  dsimp only
  split <;> rfl

theorem createObject_run (r : Resource) (c : Cluster) :
    ∃ created c', (createObject r).run c = (.ok created, c') ∧ Grown [r] c.resources c'.resources ∧
      (created = true → r ∈ c'.resources) := by
  have hresources := command_resources c
  unfold createObject
  cases hcommand : command.run c with
  | mk result c₁ =>
      rw [hcommand] at hresources
      cases result with
      | error e =>
          refine ⟨false, c₁, (Prog.handle_of_error (Prog.bind_of_error hcommand)).trans rfl,
            ?_, nofun⟩
          rw [← hresources]
          exact Grown.refl
      | ok _ =>
          by_cases hthere : c₁.resources.any r.same = true
          · have hadd : (Cluster.add r).run c₁ = (.error refused, c₁) := if_pos hthere
            refine ⟨false, c₁, (Prog.handle_of_error ((Prog.bind_of_ok hcommand).trans
              (Prog.bind_of_error hadd))).trans rfl, ?_, nofun⟩
            rw [← hresources]
            exact Grown.refl
          · have hadd : (Cluster.add r).run c₁ =
                (.ok (), { c₁ with resources := c₁.resources ++ [r] }) := if_neg hthere
            refine ⟨true, _, Prog.handle_of_ok ((Prog.bind_of_ok hcommand).trans
              ((Prog.bind_of_ok hadd).trans rfl)), ?_, fun _ => ?_⟩
            · rw [← hresources]
              exact ⟨fun _ => List.mem_append_left _, fun _ => List.mem_append.mp⟩
            · exact List.mem_append_right _ List.mem_cons_self

theorem createAll_run (objects : List Resource) (c : Cluster) :
    ∃ created c', (eachObject createObject objects).run c = (.ok created, c') ∧
      Grown objects c.resources c'.resources ∧
        (created = true → ∀ r ∈ objects, r ∈ c'.resources) := by
  induction objects generalizing c with
  | nil => exact ⟨true, c, rfl, Grown.refl, fun _ => nofun⟩
  | cons r rs ih =>
      obtain ⟨created, c₁, hfirst, hgrown, hcreated⟩ := createObject_run r c
      obtain ⟨rest, c₂, hrest, hgrown', hcreated'⟩ := ih c₁
      refine ⟨created && rest, c₂, ?_, ?_, fun h => ?_⟩
      · rw [eachObject, Prog.bind_of_ok hfirst, Prog.bind_of_ok hrest]
        rfl
      · exact (hgrown.mono fun x hx => List.mem_singleton.mp hx ▸ List.mem_cons_self).trans
          (hgrown'.mono fun _ => List.mem_cons_of_mem _)
      · rw [Bool.and_eq_true] at h
        exact List.forall_mem_cons.mpr ⟨hgrown'.kept r (hcreated h.1), hcreated' h.2⟩

theorem deleteObject_run (r : Resource) (c : Cluster) :
    ∃ deleted c', (deleteObject r).run c = (.ok deleted, c') ∧
      Shrunk (· = r) c.resources c'.resources ∧ (deleted = true → r ∉ c'.resources) := by
  have hresources := command_resources c
  unfold deleteObject
  cases hcommand : command.run c with
  | mk result c₁ =>
      rw [hcommand] at hresources
      cases result with
      | error e =>
          refine ⟨false, c₁, (Prog.handle_of_error (Prog.bind_of_error hcommand)).trans rfl,
            ?_, nofun⟩
          rw [← hresources]
          exact Shrunk.refl
      | ok _ =>
          refine ⟨true, { c₁ with resources := c₁.resources.filter (· ≠ r) },
            Prog.handle_of_ok ((Prog.bind_of_ok hcommand).trans rfl), ?_, fun _ => by simp⟩
          rw [← hresources]
          refine ⟨fun x hx => ?_, fun x => List.mem_of_mem_filter⟩
          by_cases heq : x = r
          · exact .inr heq
          · exact .inl (List.mem_filter.mpr ⟨hx, decide_eq_true heq⟩)

theorem deleteAll_run (objects : List Resource) (c : Cluster) :
    ∃ deleted c', (eachObject deleteObject objects).run c = (.ok deleted, c') ∧
      Shrunk (· ∈ objects) c.resources c'.resources ∧
        (deleted = true → ∀ r ∈ objects, r ∉ c'.resources) := by
  induction objects generalizing c with
  | nil => exact ⟨true, c, rfl, Shrunk.refl, fun _ => nofun⟩
  | cons r rs ih =>
      obtain ⟨deleted, c₁, hfirst, hshrunk, hdeleted⟩ := deleteObject_run r c
      obtain ⟨rest, c₂, hrest, hshrunk', hdeleted'⟩ := ih c₁
      refine ⟨deleted && rest, c₂, ?_, ?_, fun h => ?_⟩
      · rw [eachObject, Prog.bind_of_ok hfirst, Prog.bind_of_ok hrest]
        rfl
      · exact (hshrunk.mono fun x hx => hx ▸ List.mem_cons_self).trans
          (hshrunk'.mono fun _ => List.mem_cons_of_mem _)
      · rw [Bool.and_eq_true] at h
        refine List.forall_mem_cons.mpr ⟨fun hr => ?_, hdeleted' h.2⟩
        exact hdeleted h.1 (hshrunk'.old r hr)

theorem newApp_creates (objects : List Resource) : Creates objects (newApp objects) := by
  have hall (c : Cluster) : Grown objects c.resources ((newApp objects).run c).2.resources ∧
      (((newApp objects).run c).1 = .ok () →
        ∀ r ∈ objects, r ∈ ((newApp objects).run c).2.resources) := by
    have hresources := command_resources c
    unfold newApp
    cases hcommand : command.run c with
    | mk result c₁ =>
        rw [hcommand] at hresources
        cases result with
        | error e =>
            rw [Prog.bind_of_error hcommand]
            refine ⟨?_, nofun⟩
            rw [← hresources]
            exact Grown.refl
        | ok _ =>
            obtain ⟨created, c₂, hcreate, hgrown, hcreated⟩ := createAll_run objects c₁
            rw [Prog.bind_of_ok hcommand, Prog.bind_of_ok hcreate, ← hresources]
            cases created with
            | true => exact ⟨hgrown, fun _ => hcreated rfl⟩
            | false => exact ⟨hgrown, nofun⟩
  exact ⟨fun c => (hall c).1, fun c => (hall c).2⟩

theorem command_creates : Creates [] command :=
  ⟨fun c => by rw [command_resources]; exact Grown.refl, fun _ _ => nofun⟩

theorem Creates.seq {objects objects' : List Resource} {m m' : Prog Cluster Unit}
    (h : Creates objects m) (h' : Creates objects' m') :
    Creates (objects ++ objects') (m >>= fun _ => m') := by
  have hleft : ∀ r ∈ objects, r ∈ objects ++ objects' := fun _ => List.mem_append_left _
  have hright : ∀ r ∈ objects', r ∈ objects ++ objects' := fun _ => List.mem_append_right _
  have hall (c : Cluster) :
      Grown (objects ++ objects') c.resources ((m >>= fun _ => m').run c).2.resources ∧
        (((m >>= fun _ => m').run c).1 = .ok () →
          ∀ r ∈ objects ++ objects', r ∈ ((m >>= fun _ => m').run c).2.resources) := by
    have hgrown := h.grown c
    have hcreated := h.created c
    cases hm : m.run c with
    | mk result c' =>
        rw [hm] at hgrown hcreated
        cases result with
        | error e =>
            rw [Prog.bind_of_error hm]
            exact ⟨hgrown.mono hleft, nofun⟩
        | ok _ =>
            rw [Prog.bind_of_ok hm]
            refine ⟨(hgrown.mono hleft).trans ((h'.grown c').mono hright), fun hok => ?_⟩
            refine List.forall_mem_append.mpr ⟨fun r hr => ?_, h'.created c' hok⟩
            exact (h'.grown c').kept r (hcreated rfl r hr)
  exact ⟨fun c => (hall c).1, fun c => (hall c).2⟩

/-- Everything that the service of the ID has but its policies. -/
def extensionObjects (label id : String) : List Resource :=
  httpbinObjects label id ++ pluginObjects label id

theorem extensionInit_creates (label id : String) :
    Creates (extensionObjects label id) (extensionInit label id) := by
  have h := (newApp_creates (httpbinObjects label id)).seq
    ((newApp_creates (pluginObjects label id)).seq command_creates)
  rwa [List.append_nil] at h

def Selected (project : Project) (label : String) (kinds : List Kind) (r : Resource) : Prop :=
  r.project = project ∧ r.label = label ∧ r.kind ∈ kinds

/-- A deletion deletes nothing but what it selects, and all of it unless it fails. -/
theorem deleteApp_run (project : Project) (label : String) (kinds : List Kind) (c : Cluster) :
    ∃ result c', (deleteApp project label kinds).run c = (result, c') ∧
      Shrunk (Selected project label kinds) c.resources c'.resources ∧
        (result = .ok () → ∀ r ∈ c'.resources, ¬ Selected project label kinds r) := by
  have hresources := command_resources c
  unfold deleteApp
  cases hcommand : command.run c with
  | mk result c₁ =>
      rw [hcommand] at hresources
      cases result with
      | error e =>
          refine ⟨.error e, c₁, Prog.bind_of_error hcommand, ?_, nofun⟩
          rw [← hresources]
          exact Shrunk.refl
      | ok _ =>
          obtain ⟨deleted, c₂, hdelete, hshrunk, hdeleted⟩ := deleteAll_run
            (c₁.resources.filter fun r =>
              decide (r.project = project ∧ r.label = label ∧ r.kind ∈ kinds)) c₁
          rw [Prog.bind_of_ok hcommand, Prog.gets_bind_run, Prog.bind_of_ok hdelete,
            ← hresources]
          have hfound (r : Resource) : r ∈ (c₁.resources.filter fun r =>
              decide (r.project = project ∧ r.label = label ∧ r.kind ∈ kinds)) ↔
                r ∈ c₁.resources ∧ Selected project label kinds r := by
            rw [List.mem_filter, decide_eq_true_iff]
            rfl
          have hselected : Shrunk (Selected project label kinds) c₁.resources c₂.resources :=
            hshrunk.mono fun r hr => ((hfound r).mp hr).2
          cases deleted with
          | false => exact ⟨_, c₂, rfl, hselected, nofun⟩
          | true =>
              refine ⟨_, c₂, rfl, hselected, fun _ r hr hselects => ?_⟩
              exact hdeleted rfl r ((hfound r).mpr ⟨hshrunk.old r hr, hselects⟩) hr

/-! ## One gateway -/

/-- The cluster as one gateway sees it. -/
structure Held where
  resources : List Resource
  extensions : List String
  account : Account

def Held.after (label : String) (op : Op) (failures : List Bool) (h : Held) : Held :=
  let result := (perform label op).run ⟨⟨h.resources, failures⟩, h.extensions⟩
  ⟨result.2.cluster.resources, result.2.extensions, h.account.next op result.1⟩

def Owned (label : String) (r : Resource) : Prop :=
  r.label = label ∨ ∃ id, r.label = serviceLabel label id

/-- What may be there because of the gateway. -/
inductive Allowed (label : String) (h : Held) : Resource → Prop where
  | entry {r : Resource} (hentries : h.account.entries = true)
      (hr : r ∈ entryObjects label "system-entry-" ++ entryObjects label "backend-entry-") :
      Allowed label h r
  | extension {id : String} {r : Resource} (hid : id ∈ h.extensions ∨ id ∈ h.account.broken)
      (hr : r ∈ extensionObjects label id) : Allowed label h r
  | policy {name id : String} (hname : name ∈ h.account.policies)
      (hid : serviceId name = some id) : Allowed label h (policyObject label name id)

/-- The extensions that the gateway holds are deployed, unless their deletion failed. -/
def Held.Present (label : String) (h : Held) : Prop :=
  ∀ id ∈ h.extensions, id ∉ h.account.undeleted →
    ∀ r ∈ extensionObjects label id, r ∈ h.resources

/-- What one call of the gateway may do. -/
structure Moves (label : String) (before after : Held) : Prop where
  new : ∀ r ∈ after.resources, r ∈ before.resources ∨ Allowed label after r
  still : ∀ r ∈ after.resources, Allowed label before r → Allowed label after r
  gone : ∀ r ∈ before.resources, r ∉ after.resources → Owned label r
  present : before.Present label → after.Present label

section

variable {label : String} {before after : Held}

theorem Allowed.mono {r : Resource} (h : Allowed label before r)
    (hentries : before.account.entries = true → after.account.entries = true)
    (hextensions : ∀ id, id ∈ before.extensions ∨ id ∈ before.account.broken →
      id ∈ after.extensions ∨ id ∈ after.account.broken)
    (hpolicies : ∀ name ∈ before.account.policies, name ∈ after.account.policies) :
    Allowed label after r := by
  cases h with
  | entry h hr => exact .entry (hentries h) hr
  | extension hid hr => exact .extension (hextensions _ hid) hr
  | policy hname hid => exact .policy (hpolicies _ hname) hid

theorem Moves.of_grown {objects : List Resource}
    (hgrown : Grown objects before.resources after.resources)
    (hnew : ∀ r ∈ objects, Allowed label after r)
    (hstill : ∀ r, Allowed label before r → Allowed label after r)
    (hpresent : ∀ id ∈ after.extensions, id ∉ after.account.undeleted →
      id ∈ before.extensions ∧ id ∉ before.account.undeleted ∨
        ∀ r ∈ extensionObjects label id, r ∈ after.resources) : Moves label before after where
  new r hr := (hgrown.new r hr).imp_right (hnew r)
  still r _ := hstill r
  gone r hr hgone := absurd (hgrown.kept r hr) hgone
  present h id hid hundeleted := (hpresent id hid hundeleted).elim
    (fun hold r hr => hgrown.kept r (h id hold.1 hold.2 r hr)) fun hall => hall

theorem Moves.refl : Moves label before before :=
  Moves.of_grown (@Grown.refl [] _) nofun (fun _ => id) fun _ hid hundeleted =>
    .inl ⟨hid, hundeleted⟩

theorem Moves.of_shrunk {selected : Resource → Prop}
    (hshrunk : Shrunk selected before.resources after.resources)
    (hstill : ∀ r ∈ after.resources, Allowed label before r → Allowed label after r)
    (hgone : ∀ r, selected r → Owned label r)
    (hpresent : ∀ id ∈ after.extensions, id ∉ after.account.undeleted →
      (id ∈ before.extensions ∧ id ∉ before.account.undeleted) ∧
        ∀ r ∈ extensionObjects label id, ¬ selected r) : Moves label before after where
  new r hr := .inl (hshrunk.old r hr)
  still := hstill
  gone r hr hnot := hgone r ((hshrunk.kept r hr).resolve_left hnot)
  present h id hid hundeleted r hr := by
    obtain ⟨⟨hold, hold'⟩, hnot⟩ := hpresent id hid hundeleted
    exact (hshrunk.kept r (h id hold hold' r hr)).resolve_right (hnot r hr)

/-! ## The objects -/

theorem mem_extensionObjects {id : String} {r : Resource} (h : r ∈ extensionObjects label id) :
    r.project = .httpbin ∧ r.label = serviceLabel label id ∧
      r.kind ∈ [Kind.deployment, .service, .wasmPlugin, .gateway, .virtualService] := by
  simp only [extensionObjects, httpbinObjects, pluginObjects, List.map_cons, List.map_nil,
    List.cons_append, List.nil_append, List.mem_cons, List.not_mem_nil, or_false] at h
  rcases h with rfl | rfl | rfl | rfl | rfl <;> exact ⟨rfl, rfl, by simp⟩

theorem mem_entryObjects {name : String} {r : Resource} (h : r ∈ entryObjects label name) :
    r.project = .mesh ∧ r.label = label ∧ r.kind ∈ [Kind.serviceEntry, .destinationRule] := by
  simp only [entryObjects, List.map_cons, List.map_nil, List.mem_cons, List.not_mem_nil,
    or_false] at h
  rcases h with rfl | rfl <;> exact ⟨rfl, rfl, by simp⟩

theorem serviceLabel_inj {id id' : String} (h : serviceLabel label id = serviceLabel label id') :
    id = id' := by
  rw [serviceLabel, serviceLabel, ← String.toList_inj, String.toList_append,
    String.toList_append (t := id')] at h
  exact String.toList_inj.mp (List.append_cancel_left h)

end

/-! ## One call -/

section

variable (label : String) (failures : List Bool) (h : Held)

theorem after_of_run {op : Op} {result : Except Exn Unit} {g : Gateway}
    (hrun : (perform label op).run ⟨⟨h.resources, failures⟩, h.extensions⟩ = (result, g)) :
    h.after label op failures =
      ⟨g.cluster.resources, g.extensions, h.account.next op result⟩ := by
  rw [Held.after, hrun]

theorem onCluster_run (m : Prog Cluster Unit) (g : Gateway) :
    (onCluster m).run g = ((m.run g.cluster).1, { g with cluster := (m.run g.cluster).2 }) := rfl

theorem moves_create : Moves label h (h.after label .create failures) := by
  have hcreates := (newApp_creates (entryObjects label "system-entry-")).seq
    (newApp_creates (entryObjects label "backend-entry-"))
  refine Moves.of_grown (hcreates.grown ⟨h.resources, failures⟩) (fun _ hr => .entry rfl hr)
    (fun r hr => ?_) fun _ hid hundeleted => .inl ⟨hid, hundeleted⟩
  exact hr.mono (fun _ => rfl) (fun _ => id) fun _ => id

theorem moves_destroy : Moves label h (h.after label .destroy failures) := by
  unfold Held.after
  simp only [perform, onCluster, Prog.focus_run]
  obtain ⟨result, c', hrun, hshrunk, hdeleted⟩ :=
    deleteApp_run .mesh label [.serviceEntry, .destinationRule] ⟨h.resources, failures⟩
  rw [hrun]
  have haccount : (h.account.next .destroy result).undeleted = h.account.undeleted := by
    cases result <;> rfl
  refine Moves.of_shrunk hshrunk (fun r hr hallowed => ?_) (fun r hr => .inl hr.2.1)
    fun id hid hundeleted => ⟨⟨hid, haccount ▸ hundeleted⟩, fun r hr hselected => ?_⟩
  · cases result with
    | error e => exact hallowed.mono id (fun _ => id) fun _ => id
    | ok u =>
        cases hallowed with
        | entry _ hentry =>
            rcases List.mem_append.mp hentry with hentry | hentry <;>
              exact absurd (mem_entryObjects hentry) (hdeleted rfl _ hr)
        | extension hid hr => exact .extension hid hr
        | policy hname hid => exact .policy hname hid
  · exact nomatch (mem_extensionObjects hr).1.symm.trans hselected.1

theorem moves_onServiceCreate (id : String) :
    Moves label h (h.after label (.onServiceCreate id) failures) := by
  have hcreates := extensionInit_creates label id
  have hgrown := hcreates.grown ⟨h.resources, failures⟩
  have hcreated := hcreates.created ⟨h.resources, failures⟩
  unfold Held.after
  simp only [perform, onCluster]
  cases hrun : (extensionInit label id).run ⟨h.resources, failures⟩ with
  | mk result c' =>
      rw [hrun] at hgrown hcreated
      cases result with
      | error e =>
          rw [Prog.bind_of_error (by rw [Prog.focus_run, hrun])]
          refine Moves.of_grown hgrown (fun r hr => ?_) (fun r hr => ?_)
            fun _ hid hundeleted => .inl ⟨hid, hundeleted⟩
          · exact .extension (.inr List.mem_cons_self) hr
          · exact hr.mono (fun hentries => hentries)
              (fun _ => Or.imp_right (List.mem_cons_of_mem _)) fun _ hname => hname
      | ok _ =>
          rw [Prog.bind_of_ok (by rw [Prog.focus_run, hrun]), Prog.modify_run]
          have hid (id' : String) : id' ∈ (if id ∈ h.extensions then h.extensions
              else h.extensions ++ [id]) ↔ id' ∈ h.extensions ∨ id' = id := by
            split
            · rename_i hmem
              exact ⟨.inl, fun hor => hor.elim (fun hold => hold) fun heq => heq ▸ hmem⟩
            · simp
          refine Moves.of_grown hgrown (fun r hr => ?_) (fun r hr => ?_)
            fun id' hid' hundeleted => ?_
          · exact .extension (.inl ((hid id).mpr (.inr rfl))) hr
          · exact hr.mono (fun hentries => hentries)
              (fun id' => Or.imp_left fun hold => (hid id').mpr (.inl hold)) fun _ hname => hname
          · by_cases heq : id' = id
            · rw [heq]
              exact .inr (hcreated rfl)
            · refine .inl ⟨((hid id').mp hid').resolve_right heq, fun hmem => hundeleted ?_⟩
              exact List.mem_filter.mpr ⟨hmem, decide_eq_true heq⟩

theorem moves_onServiceDelete (id : String) :
    Moves label h (h.after label (.onServiceDelete id) failures) := by
  unfold Held.after
  simp only [perform, Prog.gets_bind_run]
  by_cases hid : id ∈ h.extensions
  · rw [if_pos hid]
    unfold onCluster extensionDelete
    obtain ⟨result, c', hrun, hshrunk, hdeleted⟩ :=
      deleteApp_run .httpbin (serviceLabel label id)
        [.deployment, .service, .wasmPlugin, .gateway, .virtualService] ⟨h.resources, failures⟩
    have hother {id' : String} (hne : id' ≠ id) (r : Resource)
        (hr : r ∈ extensionObjects label id') : ¬ Selected .httpbin (serviceLabel label id)
          [.deployment, .service, .wasmPlugin, .gateway, .virtualService] r := fun hselected =>
      hne (serviceLabel_inj ((mem_extensionObjects hr).2.1.symm.trans hselected.2.1))
    cases result with
    | ok u =>
        rw [Prog.bind_of_ok (by rw [Prog.focus_run, hrun]), Prog.modify_run]
        refine Moves.of_shrunk hshrunk (fun r hr hallowed => ?_) (fun r hr => .inr ⟨id, hr.2.1⟩)
          fun id' hid' hundeleted => ?_
        · cases hallowed with
          | entry hentries hentry => exact .entry hentries hentry
          | policy hname hid => exact .policy hname hid
          | @extension id' _ hid' hobject =>
              have hne : id' ≠ id := fun heq =>
                hdeleted rfl r hr (heq ▸ mem_extensionObjects hobject)
              refine .extension (hid'.imp (fun hold => ?_) fun hold => ?_) hobject <;>
                exact List.mem_filter.mpr ⟨hold, decide_eq_true hne⟩
        · obtain ⟨hold, hne⟩ := List.mem_filter.mp hid'
          exact ⟨⟨hold, hundeleted⟩, hother (of_decide_eq_true hne)⟩
    | error e =>
        rw [Prog.bind_of_error (by rw [Prog.focus_run, hrun])]
        refine Moves.of_shrunk hshrunk (fun r _ hallowed => ?_) (fun r hr => .inr ⟨id, hr.2.1⟩)
          fun id' hid' hundeleted => ?_
        · exact hallowed.mono (fun hentries => hentries) (fun _ hid => hid) fun _ hname => hname
        · obtain ⟨hne, hold⟩ := not_or.mp fun hor => hundeleted (List.mem_cons.mpr hor)
          exact ⟨⟨hid', hold⟩, hother hne⟩
  · -- an extension that the gateway does not hold
    rw [if_neg hid]
    refine Moves.of_grown (@Grown.refl [] _) nofun (fun r hallowed => ?_)
      fun id' hid' hundeleted => .inl ⟨hid', fun hmem => hundeleted ?_⟩
    · exact hallowed.mono (fun hentries => hentries) (fun _ hid => hid) fun _ hname => hname
    · exact List.mem_cons_of_mem _ hmem

theorem moves_createPolicy (name : String) :
    Moves label h (h.after label (.createPolicy name) failures) := by
  have hstill (r : Resource) (account : Account) (hpolicies : account =
      { h.account with policies := name :: h.account.policies }) (resources : List Resource)
      (hr : Allowed label h r) : Allowed label ⟨resources, h.extensions, account⟩ r := by
    subst hpolicies
    exact hr.mono (fun hentries => hentries) (fun _ hid => hid) fun _ => List.mem_cons_of_mem _
  cases hserviceId : serviceId name with
  | none =>
      rw [after_of_run label failures h (by rw [perform, hserviceId])]
      exact Moves.of_grown (@Grown.refl [] _) nofun (fun r => hstill r _ rfl _)
        fun _ hid hundeleted => .inl ⟨hid, hundeleted⟩
  | some id =>
      have hgrown := (newApp_creates [policyObject label name id]).grown ⟨h.resources, failures⟩
      rw [after_of_run label failures h (by rw [perform, hserviceId])]
      refine Moves.of_grown hgrown (fun r hr => ?_) (fun r => hstill r _ rfl _)
        fun _ hid hundeleted => .inl ⟨hid, hundeleted⟩
      rw [List.mem_singleton.mp hr]
      exact .policy List.mem_cons_self hserviceId

theorem perform_removePolicy {name id : String} (hserviceId : serviceId name = some id) :
    perform label (.removePolicy name) =
      onCluster (deleteApp .httpbin (serviceLabel label id) [.requestAuthentication]) := by
  rw [perform, hserviceId]

theorem moves_removePolicy (name : String) :
    Moves label h (h.after label (.removePolicy name) failures) := by
  cases hserviceId : serviceId name with
  | none =>
      rw [after_of_run label failures h (by rw [perform, hserviceId])]
      exact Moves.refl
  | some id =>
      obtain ⟨result, c', hrun, hshrunk, hdeleted⟩ :=
        deleteApp_run .httpbin (serviceLabel label id) [.requestAuthentication]
          ⟨h.resources, failures⟩
      rw [after_of_run label failures h
        (by rw [perform_removePolicy label hserviceId, onCluster_run, hrun])]
      have haccount : (h.account.next (.removePolicy name) result).undeleted =
          h.account.undeleted := by cases result <;> rfl
      refine Moves.of_shrunk hshrunk (fun r hr hallowed => ?_) (fun r hr => .inr ⟨id, hr.2.1⟩)
        fun id' hid' hundeleted => ⟨⟨hid', haccount ▸ hundeleted⟩, fun r hr hselected => ?_⟩
      · cases result with
        | error e =>
            exact hallowed.mono (fun hentries => hentries) (fun _ hid => hid) fun _ hname => hname
        | ok u =>
            cases hallowed with
            | entry hentries hentry => exact .entry hentries hentry
            | extension hid hr => exact .extension hid hr
            | @policy name' id' hname hid =>
                refine .policy (List.mem_filter.mpr ⟨hname, decide_eq_true fun heq => ?_⟩) hid
                rw [hid, hserviceId, Option.some_inj] at heq
                exact hdeleted rfl _ hr ⟨rfl, heq ▸ rfl, List.mem_singleton_self _⟩
      · have hkind := (mem_extensionObjects hr).2.2
        rw [List.mem_singleton.mp hselected.2.2] at hkind
        exact absurd hkind (by decide)

theorem moves_after (op : Op) : Moves label h (h.after label op failures) := by
  cases op with
  | create => exact moves_create label failures h
  | destroy => exact moves_destroy label failures h
  | onServiceCreate id => exact moves_onServiceCreate label failures h id
  | onServiceDelete id => exact moves_onServiceDelete label failures h id
  | createPolicy name => exact moves_createPolicy label failures h name
  | removePolicy name => exact moves_removePolicy label failures h name

end

/-! ## Labels -/

/-- A label does not have what separates it from the ID of a service, so it is told from the
labels of its services. -/
theorem takeWhile_of_owned {label : String} (hlabel : '-' ∉ label.toList) {r : Resource}
    (h : Owned label r) : r.label.toList.takeWhile (· ≠ '-') = label.toList := by
  have hall : ∀ c ∈ label.toList, decide (c ≠ '-') = true := by
    intro c hc
    exact decide_eq_true fun heq => hlabel (heq ▸ hc)
  rcases h with heq | ⟨id, heq⟩
  · rw [heq]
    exact List.takeWhile_eq_self_iff.mpr hall
  · have htoList : (serviceLabel label id).toList = label.toList ++ '-' :: id.toList := by
      rw [serviceLabel, String.toList_append, String.toList_append, List.append_assoc]
      rfl
    rw [heq, htoList, List.takeWhile_append_of_pos hall,
      List.takeWhile_cons_of_neg (by decide), List.append_nil]

theorem label_eq_of_owned {label label' : String} (hlabel : '-' ∉ label.toList)
    (hlabel' : '-' ∉ label'.toList) {r : Resource} (h : Owned label r) (h' : Owned label' r) :
    label = label' :=
  String.toList_inj.mp ((takeWhile_of_owned hlabel h).symm.trans (takeWhile_of_owned hlabel' h'))

theorem owned_of_mem_extensionObjects {label id : String} {r : Resource}
    (h : r ∈ extensionObjects label id) : Owned label r :=
  .inr ⟨id, (mem_extensionObjects h).2.1⟩

/-! ## Several gateways -/

section

variable {κ : Type} [DecidableEq κ] {labels : κ → String} {base : List Resource} {w : World κ}

def World.held (w : World κ) (g : κ) : Held := ⟨w.resources, w.extensions g, w.accounts g⟩

theorem held_step_self (call : Call κ) : (World.step labels call w).held call.gateway =
    (w.held call.gateway).after (labels call.gateway) call.op call.failures := by
  unfold World.held World.step
  simp only [Function.update_self]
  rfl

theorem held_step_of_ne (call : Call κ) {g : κ} (hg : g ≠ call.gateway) :
    (World.step labels call w).held g =
      { w.held g with resources := (World.step labels call w).resources } := by
  unfold World.held World.step
  simp only [Function.update_of_ne hg]

/-- Every resource is accounted for: it was there before, or a gateway may have it. -/
structure Accounted (labels : κ → String) (base : List Resource) (w : World κ) : Prop where
  kept : ∀ r ∈ base, r ∈ w.resources
  owed : ∀ r ∈ w.resources, r ∈ base ∨ ∃ g, Allowed (labels g) (w.held g) r
  present : ∀ g, (w.held g).Present (labels g)

theorem accounted_step (hinjective : Function.Injective labels)
    (hlabels : ∀ g, '-' ∉ (labels g).toList) (hbase : ∀ r ∈ base, ∀ g, ¬ Owned (labels g) r)
    (call : Call κ) (h : Accounted labels base w) :
    Accounted labels base (World.step labels call w) := by
  have hmoves : Moves (labels call.gateway) (w.held call.gateway)
      ((World.step labels call w).held call.gateway) := by
    rw [held_step_self]
    exact moves_after _ _ _ _
  have hremains (r : Resource) (hr : r ∈ w.resources)
      (hr' : ¬ Owned (labels call.gateway) r) : r ∈ (World.step labels call w).resources := by
    by_contra hgone
    exact hr' (hmoves.gone r hr hgone)
  refine ⟨fun r hr => hremains r (h.kept r hr) (hbase r hr call.gateway), fun r hr => ?_,
    fun g => ?_⟩
  · rcases hmoves.new r hr with hold | hnew
    · refine (h.owed r hold).imp_right fun ⟨g, hallowed⟩ => ⟨g, ?_⟩
      by_cases hg : g = call.gateway
      · rw [hg] at hallowed ⊢
        exact hmoves.still r hr hallowed
      · rw [held_step_of_ne call hg]
        exact hallowed.mono id (fun _ => id) fun _ => id
    · exact .inr ⟨_, hnew⟩
  · by_cases hg : g = call.gateway
    · rw [hg]
      exact hmoves.present (h.present _)
    · rw [held_step_of_ne call hg]
      intro id hid hundeleted r hr
      refine hremains r (h.present g id hid hundeleted r hr) fun howned => hg ?_
      exact hinjective (label_eq_of_owned (hlabels g) (hlabels _)
        (owned_of_mem_extensionObjects hr) howned)

/-- The gateway has deleted what it was asked to create. -/
structure Held.Settled (h : Held) : Prop where
  extensions : h.extensions = []
  entries : h.account.entries = false
  broken : h.account.broken = []
  policies : h.account.policies = []

theorem not_allowed_of_settled {label : String} {h : Held} (hsettled : h.Settled) (r : Resource) :
    ¬ Allowed label h r := by
  intro hallowed
  cases hallowed with
  | entry hentries _ =>
      rw [hsettled.entries] at hentries
      exact nomatch hentries
  | extension hid _ =>
      rw [hsettled.extensions, hsettled.broken] at hid
      exact hid.elim nofun nofun
  | policy hname _ =>
      rw [hsettled.policies] at hname
      exact nomatch hname

/-- The gateways' labels differ and have no dash, and nothing that was there before has one of
them. Whatever the gateways do then, in any order and whichever requests fail: what was there
before stays, everything else belongs to a gateway that was not seen to delete it, every extension
that a gateway holds is deployed unless its deletion has failed, and when all have deleted what
they created, the cluster is as it was. -/
theorem run_accounted (hinjective : Function.Injective labels)
    (hlabels : ∀ g, '-' ∉ (labels g).toList) (hbase : ∀ r ∈ base, ∀ g, ¬ Owned (labels g) r)
    (calls : List (Call κ)) :
    Accounted labels base (run (World.step labels) calls (World.init base)) ∧
      ((∀ g, ((run (World.step labels) calls (World.init base)).held g).Settled) → ∀ r,
        r ∈ (run (World.step labels) calls (World.init base)).resources ↔ r ∈ base) := by
  have haccounted : Accounted labels base (run (World.step labels) calls (World.init base)) :=
    run_invariant (fun call _ => accounted_step hinjective hlabels hbase call) calls
      ⟨fun _ => id, fun _ => .inl, fun _ => nofun⟩
  refine ⟨haccounted, fun hsettled r => ⟨fun hr => ?_, haccounted.kept r⟩⟩
  refine (haccounted.owed r hr).resolve_right fun ⟨g, hallowed⟩ => ?_
  exact not_allowed_of_settled (hsettled g) r hallowed

end

def exampleLabel : Bool → String
  | false => "a1"
  | true => "b2"

/-- A policy outlives its service, whose deletion fails half way at first, and the second gateway
is refused the `httpbin` of the first. -/
def exampleCalls : List (Call Bool) :=
  [⟨false, .create, []⟩, ⟨false, .onServiceCreate "7", []⟩, ⟨false, .createPolicy "p-7", []⟩,
    ⟨true, .onServiceCreate "7", []⟩, ⟨true, .onServiceDelete "7", []⟩,
    ⟨false, .onServiceDelete "7", [false, false, true]⟩, ⟨false, .onServiceDelete "7", []⟩,
    ⟨false, .destroy, []⟩]

def exampleBase : List Resource := [⟨.httpbin, .deployment, "httpbin", "httpbin"⟩]

example : (run (World.step exampleLabel) exampleCalls (World.init exampleBase)).resources =
    exampleBase ++ [policyObject "a1" "p-7" "7"] := by decide

theorem run_accounted_example :
    Accounted exampleLabel exampleBase
        (run (World.step exampleLabel) exampleCalls (World.init exampleBase)) ∧
      ((∀ g, ((run (World.step exampleLabel) exampleCalls
          (World.init exampleBase)).held g).Settled) → ∀ r,
        r ∈ (run (World.step exampleLabel) exampleCalls (World.init exampleBase)).resources ↔
          r ∈ exampleBase) := by
  have hinjective : ∀ g g', exampleLabel g = exampleLabel g' → g = g' := by decide
  have hlabels (g : Bool) : '-' ∉ (exampleLabel g).toList := by cases g <;> decide
  refine run_accounted hinjective hlabels (fun r hr g howned => ?_) exampleCalls
  rw [exampleBase, List.mem_singleton] at hr
  have htaken := takeWhile_of_owned (hlabels g) howned
  rw [hr] at htaken
  cases g <;> exact absurd htaken (by decide)

end ThreescaleTests.Wasm.Gateways
