import Mathlib.Data.Stream.Init
import ThreescaleTests.Library.Retry

/-!
# Creating an account until it is there

`accounts_create` tries eight times. A conflict is taken for a sign of an account that
the failed request made, so the account that has the name is deleted before the next
try. Whose account it is is not looked at, and nothing is deleted after any other error.
-/

namespace ThreescaleTests.Resilient

open Library

/-- `ApiClientError`, which the code of the response tells apart. -/
def apiClientError (code : Nat) : Exn := .custom "ApiClientError" (some (toString code))

def isApiClientError : Exn → Bool
  | .custom name _ => name == "ApiClientError"
  | _ => false

abbrev conflict : Exn := apiClientError 409

/-! ## The tenant -/

structure Account where
  id : Nat
  name : String
deriving DecidableEq

/-- What the server makes of a request to create an account. A request that is served or
half served creates the account, unless the name is taken, which is a conflict. A half
served one fails all the same. -/
inductive Attempt where
  | served
  | halfServed (e : Exn)
  | failed (e : Exn)

/-- The accounts of a tenant, the next identifier, and what the server will make of each
request to create an account. -/
structure Tenant where
  accounts : List Account
  next : Nat
  attempts : Stream' Attempt
  fresh : ∀ a ∈ accounts, a.id < next

namespace Tenant

def Taken (t : Tenant) (name : String) : Prop := ∃ a ∈ t.accounts, a.name = name

instance (t : Tenant) (name : String) : Decidable (t.Taken name) :=
  inferInstanceAs (Decidable (∃ a ∈ t.accounts, a.name = name))

theorem find_eq_none {t : Tenant} {name : String} (free : ¬ t.Taken name) :
    t.accounts.find? (fun a => decide (a.name = name)) = none :=
  List.find?_eq_none.mpr fun a ha hname => free ⟨a, ha, of_decide_eq_true hname⟩

theorem Taken.exists_find {t : Tenant} {name : String} (taken : t.Taken name) :
    ∃ a, t.accounts.find? (fun a => decide (a.name = name)) = some a := by
  obtain ⟨a, ha, hname⟩ := taken
  exact Option.isSome_iff_exists.mp
    (List.find?_isSome.mpr ⟨a, ha, decide_eq_true hname⟩)

theorem taken_of_find {t : Tenant} {name : String} {a : Account}
    (h : t.accounts.find? (fun a => decide (a.name = name)) = some a) : t.Taken name :=
  ⟨a, List.mem_of_find?_eq_some h, by simpa using List.find?_some h⟩

theorem taken_congr {t u : Tenant} (h : t.accounts = u.accounts) (name : String) :
    t.Taken name ↔ u.Taken name := by
  rw [Taken, h, Taken]

def account (t : Tenant) (name : String) : Account := ⟨t.next, name⟩

def add (t : Tenant) (name : String) : Tenant where
  accounts := t.accounts ++ [t.account name]
  next := t.next + 1
  attempts := t.attempts
  fresh a ha := by
    rcases List.mem_append.mp ha with ha | ha
    · exact Nat.lt_succ_of_lt (t.fresh a ha)
    · rw [List.mem_singleton.mp ha]
      exact Nat.lt_succ_self t.next

def remove (t : Tenant) (id : Nat) : Tenant where
  accounts := t.accounts.filter fun a => decide (a.id ≠ id)
  next := t.next
  attempts := t.attempts
  fresh a ha := t.fresh a (List.mem_filter.mp ha).1

def answered (t : Tenant) : Tenant := { t with attempts := t.attempts.tail }

end Tenant

/-! ## The client -/

def create (name : String) : Prog Tenant Account :=
  ⟨fun t =>
    match t.attempts.head with
    | .failed e => (.error e, t.answered)
    | .served =>
        if t.Taken name then (.error conflict, t.answered)
        else (.ok (t.account name), (t.add name).answered)
    | .halfServed e =>
        if t.Taken name then (.error conflict, t.answered)
        else (.error e, (t.add name).answered)⟩

def readByName (name : String) : Prog Tenant (Option Account) :=
  .gets fun t => t.accounts.find? fun a => decide (a.name = name)

/-- `.entity_id`, which `None` does not have. -/
def entityId : Option Account → Except Exn Nat
  | none => .error (.other "AttributeError")
  | some a => .ok a.id

def delete (id : Nat) : Prog Tenant Unit := .modify fun t => t.remove id

/-- `client.accounts.delete(client.accounts.read_by_name(name).entity_id)` -/
def deleteByName (name : String) : Prog Tenant Unit :=
  readByName name >>= fun found => .lift (entityId found) >>= fun id => delete id

/-- The body of `accounts_create`. -/
def attempt (name : String) : Prog Tenant Account :=
  .handle (create name) fun err =>
    if isApiClientError err then
      (if err = conflict then deleteByName name else pure ()) >>= fun _ => .raise err
    else .raise err

/-- `accounts_create`: with `max_tries=8` there are seven tries after the first. -/
def accountsCreate (name : String) : Prog Tenant Account :=
  .retry isApiClientError (attempt name) 7

/-! ## What the server answers -/

/-- An error that is tried again, and that nothing is deleted after. -/
def Retriable (e : Exn) : Prop := isApiClientError e = true ∧ e ≠ conflict

namespace Attempt

/-- A request for a name that is taken is answered with a conflict. -/
def Conflicts : Attempt → Prop
  | .failed e => e = conflict
  | _ => True

theorem exists_failed_of_not_conflicts {a : Attempt} (h : ¬ a.Conflicts) :
    ∃ e, a = .failed e ∧ e ≠ conflict := by
  cases a with
  | served => exact absurd trivial h
  | halfServed e => exact absurd trivial h
  | failed e => exact ⟨e, rfl, h⟩

end Attempt

section

variable {name : String} {t t' : Tenant} {e : Exn}

theorem isApiClientError_conflict : isApiClientError conflict = true := rfl

theorem create_of_failed (h : t.attempts.head = .failed e) :
    (create name).run t = (.error e, t.answered) := by
  simp only [create, h]

theorem create_of_conflicts (h : t.attempts.head.Conflicts) (taken : t.Taken name) :
    (create name).run t = (.error conflict, t.answered) := by
  cases hhead : t.attempts.head with
  | served => simp only [create, hhead, if_pos taken]
  | halfServed e => simp only [create, hhead, if_pos taken]
  | failed e =>
      rw [hhead] at h
      rw [create_of_failed hhead, show e = conflict from h]

theorem create_of_served (h : t.attempts.head = .served) (free : ¬ t.Taken name) :
    (create name).run t = (.ok (t.account name), (t.add name).answered) := by
  simp only [create, h, if_neg free]

theorem create_of_halfServed (h : t.attempts.head = .halfServed e) (free : ¬ t.Taken name) :
    (create name).run t = (.error e, (t.add name).answered) := by
  simp only [create, h, if_neg free]

/-! ## One try -/

theorem attempt_of_ok {a : Account} (h : (create name).run t = (.ok a, t')) :
    (attempt name).run t = (.ok a, t') :=
  Prog.handle_of_ok h

/-- An error other than a conflict goes through, and nothing is deleted. -/
theorem attempt_of_error (h : (create name).run t = (.error e, t')) (he : e ≠ conflict) :
    (attempt name).run t = (.error e, t') := by
  rw [attempt, Prog.handle_of_error h, if_neg he]
  split <;> rfl

theorem attempt_of_conflict (h : (create name).run t = (.error conflict, t')) :
    (attempt name).run t = (deleteByName name >>= fun _ => Prog.raise conflict).run t' := by
  rw [attempt, Prog.handle_of_error h, if_pos isApiClientError_conflict, if_pos rfl]

theorem attempt_deletes {a : Account} (h : (create name).run t = (.error conflict, t'))
    (ha : t'.accounts.find? (fun a => decide (a.name = name)) = some a) :
    (attempt name).run t = (.error conflict, t'.remove a.id) := by
  have hdelete : (deleteByName name).run t' = (.ok (), t'.remove a.id) := by
    rw [deleteByName, readByName, Prog.gets_bind_run, ha]
    rfl
  rw [attempt_of_conflict h, Prog.bind_of_ok hdelete, Prog.raise_run]

/-- There is nothing to delete, and `None` has no identifier. -/
theorem attempt_finds_none (h : (create name).run t = (.error conflict, t'))
    (free : ¬ t'.Taken name) :
    (attempt name).run t = (.error (.other "AttributeError"), t') := by
  have hdelete : (deleteByName name).run t' = (.error (.other "AttributeError"), t') := by
    rw [deleteByName, readByName, Prog.gets_bind_run, Tenant.find_eq_none free]
    rfl
  rw [attempt_of_conflict h, Prog.bind_of_error hdelete]

end

/-! ## Clean calls -/

/-- No account is missing, and the only new one is the one that is returned. -/
structure Clean (before : Tenant) (outcome : Except Exn Account × Tenant) : Prop where
  kept : ∀ a ∈ before.accounts, a ∈ outcome.2.accounts
  nothingLeft : ∀ a ∈ outcome.2.accounts, a ∉ before.accounts → outcome.1 = .ok a

/-- After failures that are tried again, an attempt meets a conflict if the name is taken.
The attempts to come after it are the second list. -/
inductive MeetsConflict : List Attempt → List Attempt → Prop where
  | now {a : Attempt} {as : List Attempt} : a.Conflicts → MeetsConflict (a :: as) as
  | later {e : Exn} {as rest : List Attempt} :
      Retriable e → MeetsConflict as rest → MeetsConflict (.failed e :: as) rest

theorem not_meetsConflict_nil (rest : List Attempt) : ¬ MeetsConflict [] rest := nofun

theorem meetsConflict_of_conflicts {a : Attempt} (h : a.Conflicts) {as rest : List Attempt} :
    MeetsConflict (a :: as) rest ↔ rest = as := by
  constructor
  · intro hmeets
    cases hmeets with
    | now _ => rfl
    | later he _ => exact absurd h he.2
  · rintro rfl
    exact .now h

theorem meetsConflict_failed {e : Exn} (he : e ≠ conflict) {as rest : List Attempt} :
    MeetsConflict (.failed e :: as) rest ↔ Retriable e ∧ MeetsConflict as rest := by
  constructor
  · intro hmeets
    cases hmeets with
    | now h => exact absurd h he
    | later hretry hrest => exact ⟨hretry, hrest⟩
  · rintro ⟨hretry, hrest⟩
    exact .later hretry hrest

/-- Every account that an attempt created without saying so is taken back. A conflict takes it
back at once, any other error leaves that to the next conflict. -/
inductive Settles : List Attempt → Prop where
  | nil : Settles []
  | served {as : List Attempt} : Settles (.served :: as)
  | failed {e : Exn} {as : List Attempt} :
      (Retriable e → Settles as) → Settles (.failed e :: as)
  | halfServed {as : List Attempt} : Settles as → Settles (.halfServed conflict :: as)
  | takenBack {e : Exn} {as rest : List Attempt} :
      Retriable e → MeetsConflict as rest → Settles rest → Settles (.halfServed e :: as)

/-- An account that is there is taken back, and so is every other one. -/
def TakesBack (as : List Attempt) : Prop := ∃ rest, MeetsConflict as rest ∧ Settles rest

theorem settles_failed_iff {e : Exn} {as : List Attempt} :
    Settles (.failed e :: as) ↔ (Retriable e → Settles as) := by
  constructor
  · intro h
    cases h with
    | failed hrest => exact hrest
  · exact .failed

theorem settles_halfServed_conflict_iff {as : List Attempt} :
    Settles (.halfServed conflict :: as) ↔ Settles as := by
  constructor
  · intro h
    cases h with
    | halfServed hrest => exact hrest
    | takenBack he _ _ => exact absurd rfl he.2
  · exact .halfServed

theorem settles_halfServed_iff {e : Exn} (he : e ≠ conflict) {as : List Attempt} :
    Settles (.halfServed e :: as) ↔ Retriable e ∧ TakesBack as := by
  constructor
  · intro h
    cases h with
    | halfServed _ => exact absurd rfl he
    | takenBack hretry hmeets hrest => exact ⟨hretry, _, hmeets, hrest⟩
  · rintro ⟨hretry, rest, hmeets, hrest⟩
    exact .takenBack hretry hmeets hrest

section

variable {before t : Tenant} {name : String} {a : Account}

def SameAccounts (before t : Tenant) : Prop := t.accounts = before.accounts

theorem clean_of_same (h : SameAccounts before t) (r : Except Exn Account) :
    Clean before (r, t) where
  kept b hb := by
    rw [h]
    exact hb
  nothingLeft b hb hnew := by
    rw [h] at hb
    exact absurd hb hnew

theorem clean_of_returned (h : t.accounts = before.accounts ++ [a]) :
    Clean before (.ok a, t) where
  kept b hb := by
    rw [h]
    exact List.mem_append_left _ hb
  nothingLeft b hb hnew := by
    rw [h, List.mem_append, List.mem_singleton] at hb
    rw [hb.resolve_left hnew]

/-- The tenant has one more account, which the call created. -/
def Leaves (before : Tenant) (name : String) (t : Tenant) : Prop :=
  ∃ id, (∀ a ∈ before.accounts, a.id ≠ id) ∧ t.accounts = before.accounts ++ [⟨id, name⟩]

theorem leaves_add (h : SameAccounts before t) : Leaves before name (t.add name) := by
  refine ⟨t.next, fun a ha => ?_, ?_⟩
  · rw [← h] at ha
    exact Nat.ne_of_lt (t.fresh a ha)
  · rw [← h]
    rfl

theorem Leaves.not_clean (h : Leaves before name t) (e : Exn) : ¬ Clean before (.error e, t) := by
  obtain ⟨id, hfresh, haccounts⟩ := h
  intro hclean
  have hnew : (⟨id, name⟩ : Account) ∉ before.accounts := fun hmem => hfresh _ hmem rfl
  have hmem : (⟨id, name⟩ : Account) ∈ t.accounts := by
    rw [haccounts]
    exact List.mem_append_right _ (List.mem_singleton_self _)
  cases hclean.nothingLeft _ hmem hnew

/-- The account that has the name is the one that the call created, and no other has its
identifier. -/
theorem Leaves.find (h : Leaves before name t) (free : ¬ before.Taken name) :
    ∃ a, t.accounts.find? (fun a => decide (a.name = name)) = some a ∧
      SameAccounts before (t.remove a.id) := by
  obtain ⟨id, hfresh, haccounts⟩ := h
  refine ⟨⟨id, name⟩, ?_, ?_⟩
  · rw [haccounts, List.find?_append, Tenant.find_eq_none free]
    simp
  · have hkept : before.accounts.filter (fun a => decide (a.id ≠ id)) = before.accounts :=
      List.filter_eq_self.mpr fun a ha => decide_eq_true (hfresh a ha)
    simp only [SameAccounts, Tenant.remove, haccounts, List.filter_append, hkept]
    simp

end

/-! ## All tries -/

section

variable {name : String} {t t' : Tenant} {e : Exn} (n : Nat)

theorem retry_conflicts (h : t.attempts.head.Conflicts) {a : Account}
    (ha : t.accounts.find? (fun a => decide (a.name = name)) = some a) :
    (Prog.retry isApiClientError (attempt name) n).run t =
      (Prog.retryAfter isApiClientError (attempt name) conflict n).run (t.answered.remove a.id) :=
  Prog.retry_of_caught (attempt_deletes (create_of_conflicts h (Tenant.taken_of_find ha)) ha)
    isApiClientError_conflict n

theorem retry_retriable (h : (create name).run t = (.error e, t')) (he : Retriable e) :
    (Prog.retry isApiClientError (attempt name) n).run t =
      (Prog.retryAfter isApiClientError (attempt name) e n).run t' :=
  Prog.retry_of_caught (attempt_of_error h he.2) he.1 n

theorem retry_gives_up (h : (create name).run t = (.error e, t')) (he : e ≠ conflict)
    (hretry : ¬ Retriable e) :
    (Prog.retry isApiClientError (attempt name) n).run t = (.error e, t') := by
  have hcaught : isApiClientError e = false :=
    Bool.eq_false_iff.mpr fun hcaught => hretry ⟨hcaught, he⟩
  exact Prog.retry_of_uncaught (attempt_of_error h he) hcaught n

/-! ## A name that was free -/

/-- After an error, with `n` tries to come, the call ends cleanly from a state of the kind
`start` exactly if the attempts to come are `good`. -/
def CleanFrom (before : Tenant) (name : String) (n : Nat) (start : Tenant → Prop)
    (good : List Attempt → Prop) : Prop :=
  ∀ e t, start t →
    (Clean before ((Prog.retryAfter isApiClientError (attempt name) e n).run t) ↔
      good (t.attempts.take n))

variable {before : Tenant}

/-- A try with no account of the call's own. -/
theorem clean_retry_iff_settles (free : ¬ before.Taken name)
    (hsame : CleanFrom before name n (SameAccounts before) Settles)
    (hleft : CleanFrom before name n (Leaves before name) TakesBack)
    (ht : SameAccounts before t) :
    Clean before ((Prog.retry isApiClientError (attempt name) n).run t) ↔
      Settles (t.attempts.take (n + 1)) := by
  have hfree : ¬ t.Taken name := (Tenant.taken_congr ht name).not.mpr free
  rw [Stream'.take_succ]
  cases hhead : t.attempts.head with
  | served =>
      rw [Prog.retry_of_ok (attempt_of_ok (create_of_served hhead hfree))]
      refine iff_of_true (clean_of_returned ?_) .served
      rw [← ht]
      rfl
  | halfServed e =>
      have hrun := create_of_halfServed hhead hfree
      have hadd : Leaves before name (t.add name).answered := leaves_add ht
      by_cases he : e = conflict
      · -- the handler deletes what the request created
        subst he
        obtain ⟨a, hfind, hremoved⟩ := hadd.find free
        rw [Prog.retry_of_caught (attempt_deletes hrun hfind) isApiClientError_conflict,
          settles_halfServed_conflict_iff]
        exact hsame conflict _ hremoved
      · rw [settles_halfServed_iff he]
        by_cases hretry : Retriable e
        · rw [retry_retriable n hrun hretry, hleft e _ hadd]
          exact (and_iff_right hretry).symm
        · rw [retry_gives_up n hrun he hretry]
          exact iff_of_false (hadd.not_clean e) fun h => hretry h.1
  | failed e =>
      have hrun : (create name).run t = (.error e, t.answered) := create_of_failed hhead
      have hanswered : SameAccounts before t.answered := ht
      rw [settles_failed_iff]
      by_cases he : e = conflict
      · -- a conflict over a name that nobody has ends the call
        subst he
        rw [Prog.retry_of_uncaught (attempt_finds_none hrun hfree) rfl]
        exact iff_of_true (clean_of_same hanswered _) fun hretry => absurd rfl hretry.2
      · by_cases hretry : Retriable e
        · rw [retry_retriable n hrun hretry, hsame e _ hanswered]
          exact ⟨fun h _ => h, fun h => h hretry⟩
        · rw [retry_gives_up n hrun he hretry]
          exact iff_of_true (clean_of_same hanswered _) fun h => absurd h hretry

/-- A try with an account that an earlier one left. -/
theorem clean_retry_iff_takesBack (free : ¬ before.Taken name)
    (hsame : CleanFrom before name n (SameAccounts before) Settles)
    (hleft : CleanFrom before name n (Leaves before name) TakesBack)
    (ht : Leaves before name t) :
    Clean before ((Prog.retry isApiClientError (attempt name) n).run t) ↔
      TakesBack (t.attempts.take (n + 1)) := by
  have hanswered : Leaves before name t.answered := ht
  rw [Stream'.take_succ]
  by_cases hconflicts : t.attempts.head.Conflicts
  · obtain ⟨a, hfind, hremoved⟩ := hanswered.find free
    rw [retry_conflicts n hconflicts hfind, hsame conflict _ hremoved]
    simp only [TakesBack, meetsConflict_of_conflicts hconflicts, exists_eq_left]
    rfl
  · obtain ⟨e, hhead, he⟩ := Attempt.exists_failed_of_not_conflicts hconflicts
    have hrun : (create name).run t = (.error e, t.answered) := create_of_failed hhead
    rw [hhead]
    by_cases hretry : Retriable e
    · rw [retry_retriable n hrun hretry, hleft e _ hanswered]
      simp only [TakesBack, meetsConflict_failed he, hretry, true_and]
      rfl
    · rw [retry_gives_up n hrun he hretry]
      refine iff_of_false (hanswered.not_clean e) ?_
      rintro ⟨rest, hmeets, -⟩
      exact hretry ((meetsConflict_failed he).mp hmeets).1

theorem clean_from_of_free (free : ¬ before.Taken name) :
    CleanFrom before name n (SameAccounts before) Settles ∧
      CleanFrom before name n (Leaves before name) TakesBack := by
  induction n with
  | zero =>
      constructor
      · intro e t ht
        exact iff_of_true (clean_of_same ht _) .nil
      · intro e t ht
        refine iff_of_false (ht.not_clean e) ?_
        rintro ⟨rest, hmeets, -⟩
        exact not_meetsConflict_nil rest hmeets
  | succ n ih =>
      exact ⟨fun _ _ ht => clean_retry_iff_settles n free ih.1 ih.2 ht,
        fun _ _ ht => clean_retry_iff_takesBack n free ih.1 ih.2 ht⟩

/-! ## A name that was taken -/

/-- Accounts that are not there any more do not come back. -/
def Newer (s t : Tenant) : Prop :=
  s.next ≤ t.next ∧ ∀ a ∈ t.accounts, a ∈ s.accounts ∨ s.next ≤ a.id

theorem newer_refl (s : Tenant) : Newer s s := ⟨Nat.le_refl s.next, fun _ ha => Or.inl ha⟩

theorem newer_trans (s t u : Tenant) (hst : Newer s t) (htu : Newer t u) : Newer s u := by
  refine ⟨Nat.le_trans hst.1 htu.1, fun a ha => ?_⟩
  rcases htu.2 a ha with ha | hid
  · exact hst.2 a ha
  · exact Or.inr (Nat.le_trans hst.1 hid)

theorem newer_add (s : Tenant) (name : String) : Newer s (s.add name) := by
  refine ⟨Nat.le_succ s.next, fun a ha => ?_⟩
  rcases List.mem_append.mp ha with ha | ha
  · exact Or.inl ha
  · rw [List.mem_singleton.mp ha]
    exact Or.inr (Nat.le_refl s.next)

theorem newer_remove (s : Tenant) (id : Nat) : Newer s (s.remove id) :=
  ⟨Nat.le_refl s.next, fun _ ha => Or.inl (List.mem_filter.mp ha).1⟩

theorem create_within (name : String) : Prog.Within Newer (create name) := by
  intro t
  cases hhead : t.attempts.head with
  | failed e =>
      rw [create_of_failed hhead]
      exact newer_refl t
  | served =>
      by_cases taken : t.Taken name
      · rw [create_of_conflicts (hhead ▸ trivial) taken]
        exact newer_refl t
      · rw [create_of_served hhead taken]
        exact newer_add t name
  | halfServed e =>
      by_cases taken : t.Taken name
      · rw [create_of_conflicts (hhead ▸ trivial) taken]
        exact newer_refl t
      · rw [create_of_halfServed hhead taken]
        exact newer_add t name

theorem deleteByName_within (name : String) : Prog.Within Newer (deleteByName name) :=
  .bind newer_trans (fun t => newer_refl t) fun _ =>
    .bind newer_trans (.lift newer_refl _) fun id t => newer_remove t id

theorem attempt_within (name : String) : Prog.Within Newer (attempt name) := by
  refine .handle newer_trans (create_within name) fun err => ?_
  split
  · refine .bind newer_trans ?_ fun _ => .lift newer_refl _
    split
    · exact deleteByName_within name
    · exact .pure newer_refl ()
  · exact .lift newer_refl _

/-- An account that is deleted for a conflict stays deleted, whatever is tried after. -/
theorem not_clean_of_deleted {a : Account} (ha : a ∈ before.accounts) (ht : SameAccounts before t) :
    ¬ Clean before ((Prog.retryAfter isApiClientError (attempt name) conflict n).run
      (t.remove a.id)) := by
  intro hclean
  rw [← ht] at ha
  have hwithin : Prog.Within Newer (Prog.retryAfter isApiClientError (attempt name) conflict n) :=
    .retryAfter newer_refl newer_trans (attempt_within name) conflict n
  have hnewer := hwithin (t.remove a.id)
  rcases hnewer.2 a (hclean.kept a (ht ▸ ha)) with hmem | hid
  · have hne : a.id ≠ a.id := of_decide_eq_true (List.mem_filter.mp hmem).2
    exact hne rfl
  · exact absurd (t.fresh a ha) (Nat.not_lt.mpr hid)

/-- No attempt that is made meets a conflict if the name is taken. -/
def AvoidsConflict (as : List Attempt) : Prop := ∀ rest, ¬ MeetsConflict as rest

theorem clean_retry_iff_avoidsConflict (taken : before.Taken name)
    (hsame : CleanFrom before name n (SameAccounts before) AvoidsConflict)
    (ht : SameAccounts before t) :
    Clean before ((Prog.retry isApiClientError (attempt name) n).run t) ↔
      AvoidsConflict (t.attempts.take (n + 1)) := by
  have hanswered : SameAccounts before t.answered := ht
  rw [Stream'.take_succ]
  by_cases hconflicts : t.attempts.head.Conflicts
  · obtain ⟨a, hfind⟩ := ((Tenant.taken_congr ht name).mpr taken).exists_find
    have ha : a ∈ before.accounts := ht ▸ List.mem_of_find?_eq_some hfind
    rw [retry_conflicts n hconflicts hfind]
    exact iff_of_false (not_clean_of_deleted n ha hanswered) fun h => h _ (.now hconflicts)
  · obtain ⟨e, hhead, he⟩ := Attempt.exists_failed_of_not_conflicts hconflicts
    have hrun : (create name).run t = (.error e, t.answered) := create_of_failed hhead
    rw [hhead]
    by_cases hretry : Retriable e
    · rw [retry_retriable n hrun hretry, hsame e _ hanswered]
      simp only [AvoidsConflict, meetsConflict_failed he, hretry, true_and]
      rfl
    · rw [retry_gives_up n hrun he hretry]
      refine iff_of_true (clean_of_same hanswered _) fun rest hmeets => ?_
      exact hretry ((meetsConflict_failed he).mp hmeets).1

theorem clean_from_of_taken (taken : before.Taken name) :
    CleanFrom before name n (SameAccounts before) AvoidsConflict := by
  induction n with
  | zero =>
      intro e t ht
      exact iff_of_true (clean_of_same ht _) not_meetsConflict_nil
  | succ n ih => exact fun _ _ ht => clean_retry_iff_avoidsConflict n taken ih ht

end

/-! ## The whole call -/

section

variable {name : String} {t : Tenant}

theorem clean_iff_settles (free : ¬ t.Taken name) :
    Clean t ((accountsCreate name).run t) ↔ Settles (t.attempts.take 8) := by
  obtain ⟨hsame, hleft⟩ := clean_from_of_free 7 free
  exact clean_retry_iff_settles 7 free hsame hleft rfl

theorem clean_iff_avoidsConflict (taken : t.Taken name) :
    Clean t ((accountsCreate name).run t) ↔ AvoidsConflict (t.attempts.take 8) :=
  clean_retry_iff_avoidsConflict 7 taken (clean_from_of_taken 7 taken) rfl

theorem settles_of_conflict (as : List Attempt) (h : ∀ e, .halfServed e ∈ as → e = conflict) :
    Settles as := by
  induction as with
  | nil => exact .nil
  | cons a as ih =>
      have hrest : Settles as := ih fun e he => h e (List.mem_cons_of_mem a he)
      cases a with
      | served => exact .served
      | failed e => exact .failed fun _ => hrest
      | halfServed e =>
          rw [h e List.mem_cons_self]
          exact .halfServed hrest

/-- If a request that creates the account and fails fails with a conflict, a name that is free
is enough. -/
theorem clean_of_free (free : ¬ t.Taken name)
    (h : ∀ e, .halfServed e ∈ t.attempts.take 8 → e = conflict) :
    Clean t ((accountsCreate name).run t) :=
  (clean_iff_settles free).mpr (settles_of_conflict _ h)

end

/-- The account that a failed request made is told from somebody else's by nothing but the
name. A call is clean if the name was free and whatever was created without saying so is
taken back by a conflict, or if the name was taken and no attempt meets a conflict. -/
theorem accountsCreate_clean_iff (name : String) (t : Tenant) :
    Clean t ((accountsCreate name).run t) ↔
      (¬ t.Taken name ∧ Settles (t.attempts.take 8)) ∨
        (t.Taken name ∧ AvoidsConflict (t.attempts.take 8)) := by
  by_cases taken : t.Taken name
  · rw [clean_iff_avoidsConflict taken]
    simp only [taken, not_true, false_and, false_or, true_and]
  · rw [clean_iff_settles taken]
    simp only [taken, not_false_iff, true_and, false_and, or_false]

/-- A request for a name that somebody else's account has deletes that account. -/
theorem not_accountsCreate_clean :
    ¬ ∀ (name : String) (t : Tenant), Clean t ((accountsCreate name).run t) := by
  intro h
  let tenant : Tenant := ⟨[⟨1, "shared"⟩], 2, Stream'.const .served, by decide⟩
  have hafter : ((accountsCreate "shared").run tenant).2.accounts = [⟨2, "shared"⟩] := by
    decide +kernel
  have hkept := (h "shared" tenant).kept ⟨1, "shared"⟩ (List.mem_singleton_self _)
  rw [hafter] at hkept
  exact absurd hkept (by decide)

end ThreescaleTests.Resilient
