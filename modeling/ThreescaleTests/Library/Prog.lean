import ThreescaleTests.Library.Exn

/-!
# Programs with state and exceptions

A program returns a value or raises, and leaves a state either way: what was done
before an exception stays done. The rules below follow a program statement by
statement. `Within R` bounds everything a program may do to the state by a
relation, whether it returns or raises.
-/

namespace Library

structure Prog (σ α : Type) where
  run : σ → Except Exn α × σ

namespace Prog

variable {σ α β : Type}

instance : Monad (Prog σ) where
  pure a := ⟨fun s => (.ok a, s)⟩
  bind m f := ⟨fun s =>
    match m.run s with
    | (.ok a, s') => (f a).run s'
    | (.error e, s') => (.error e, s')⟩

/-- A computation that does not touch the state. -/
def lift (x : Except Exn α) : Prog σ α := ⟨fun s => (x, s)⟩

def modify (f : σ → σ) : Prog σ Unit := ⟨fun s => (.ok (), f s)⟩

def gets (f : σ → α) : Prog σ α := ⟨fun s => (.ok (f s), s)⟩

def focus {τ : Type} (part : σ → τ) (put : τ → σ → σ) (m : Prog τ α) : Prog σ α :=
  ⟨fun s => ((m.run (part s)).1, put (m.run (part s)).2 s)⟩

/-- The loop `for a in as: f(a)`. -/
def forEach (f : α → Prog σ Unit) : List α → Prog σ Unit
  | [] => pure ()
  | a :: as => f a >>= fun _ => forEach f as

/-- `try: m; except Exception: pass` -/
def swallow (m : Prog σ Unit) : Prog σ Unit := ⟨fun s => (.ok (), (m.run s).2)⟩

/-- `try: m; finally: fin`, where an exception of `fin` takes the place of the one of `m`. -/
def tryFinally (m : Prog σ α) (fin : Prog σ Unit) : Prog σ α :=
  ⟨fun s =>
    match fin.run (m.run s).2 with
    | (.ok (), t) => ((m.run s).1, t)
    | (.error e, t) => (.error e, t)⟩

/-- `try: m; except Exception as exc: raise e from exc` -/
def raiseInstead (e : Exn) (m : Prog σ α) : Prog σ α :=
  ⟨fun s =>
    match m.run s with
    | (.ok a, s') => (.ok a, s')
    | (.error _, s') => (.error e, s')⟩

/-! ## Stepping through a program -/

@[simp] theorem pure_run (a : α) (s : σ) : (pure a : Prog σ α).run s = (.ok a, s) := rfl

@[simp] theorem lift_run (x : Except Exn α) (s : σ) : (lift x : Prog σ α).run s = (x, s) := rfl

@[simp] theorem modify_run (f : σ → σ) (s : σ) : (modify f).run s = (.ok (), f s) := rfl

@[simp] theorem gets_run (f : σ → α) (s : σ) : (gets f).run s = (.ok (f s), s) := rfl

@[simp] theorem focus_run {τ : Type} (part : σ → τ) (put : τ → σ → σ) (m : Prog τ α) (s : σ) :
    (focus part put m).run s = ((m.run (part s)).1, put (m.run (part s)).2 s) := rfl

/-- What a program returns, with the state it leaves. -/
theorem run_of_fst {m : Prog σ α} {s : σ} {r : Except Exn α} (h : (m.run s).1 = r) :
    m.run s = (r, (m.run s).2) := Prod.ext h rfl

theorem tryFinally_run_snd (m : Prog σ α) (fin : Prog σ Unit) (s : σ) :
    ((tryFinally m fin).run s).2 = (fin.run (m.run s).2).2 := by
  unfold tryFinally
  cases hfin : fin.run (m.run s).2 with
  | mk r t => cases r <;> simp only [hfin]

theorem bind_of_ok {m : Prog σ α} {f : α → Prog σ β} {s s' : σ} {a : α}
    (h : m.run s = (.ok a, s')) : (m >>= f).run s = (f a).run s' := by
  simp only [bind, h]

theorem bind_of_error {m : Prog σ α} {f : α → Prog σ β} {s s' : σ} {e : Exn}
    (h : m.run s = (.error e, s')) : (m >>= f).run s = (.error e, s') := by
  simp only [bind, h]

@[simp] theorem gets_bind_run (g : σ → α) (f : α → Prog σ β) (s : σ) :
    (gets g >>= f).run s = (f (g s)).run s := rfl

@[simp] theorem modify_bind_run (g : σ → σ) (f : Unit → Prog σ β) (s : σ) :
    (modify g >>= f).run s = (f ()).run (g s) := rfl

theorem lift_bind_of_ok {x : Except Exn α} {a : α} (h : x = .ok a) (f : α → Prog σ β) (s : σ) :
    (lift x >>= f).run s = (f a).run s := by
  rw [h]
  rfl

theorem lift_bind_of_error {x : Except Exn α} {e : Exn} (h : x = .error e) (f : α → Prog σ β)
    (s : σ) : (lift x >>= f).run s = (.error e, s) := by
  rw [h]
  rfl

theorem bind_run_congr {m m' : Prog σ α} {s : σ} (h : m.run s = m'.run s) (f : α → Prog σ β) :
    (m >>= f).run s = (m' >>= f).run s := by
  simp only [bind, h]

theorem bind_assoc_run {γ : Type} (m : Prog σ α) (f : α → Prog σ β) (g : β → Prog σ γ) (s : σ) :
    (m >>= f >>= g).run s = (m >>= fun a => f a >>= g).run s := by
  cases hm : m.run s with
  | mk r s' =>
      cases r with
      | ok a => simp only [bind, hm]
      | error e => rw [bind_of_error hm, bind_of_error (bind_of_error hm)]

/-- What is made of the value does not touch the state. -/
theorem bind_pure_map_run_snd (m : Prog σ α) (f : α → β) (s : σ) :
    ((m >>= fun a => pure (f a)).run s).2 = (m.run s).2 := by
  cases hm : m.run s with
  | mk r s' =>
      cases r with
      | ok a =>
          rw [bind_of_ok hm]
          rfl
      | error e => rw [bind_of_error hm]

/-- A sequence that returns went through an intermediate state. -/
theorem exists_of_bind_ok {m : Prog σ α} {f : α → Prog σ β} {s t : σ} {b : β}
    (h : (m >>= f).run s = (.ok b, t)) :
    ∃ a s', m.run s = (.ok a, s') ∧ (f a).run s' = (.ok b, t) := by
  cases hm : m.run s with
  | mk r s' =>
      cases r with
      | ok a =>
          rw [bind_of_ok hm] at h
          exact ⟨a, s', rfl, h⟩
      | error e =>
          rw [bind_of_error hm] at h
          cases h

/-- A sequence that returns passed its check, and went on in the same state. -/
theorem exists_of_lift_bind_ok {x : Except Exn α} {f : α → Prog σ β} {s t : σ} {b : β}
    (h : (lift x >>= f).run s = (.ok b, t)) : ∃ a, x = .ok a ∧ (f a).run s = (.ok b, t) := by
  obtain ⟨a, s', hlift, h⟩ := exists_of_bind_ok h
  rw [lift_run, Prod.mk.injEq] at hlift
  obtain ⟨hx, rfl⟩ := hlift
  exact ⟨a, hx, h⟩

theorem exists_of_focus_ok {τ : Type} {part : σ → τ} {put : τ → σ → σ} {m : Prog τ α} {s t : σ}
    {a : α} (h : (focus part put m).run s = (.ok a, t)) :
    ∃ p, m.run (part s) = (.ok a, p) ∧ t = put p s := by
  cases hm : m.run (part s) with
  | mk r p =>
      rw [focus_run, hm] at h
      cases h
      exact ⟨p, rfl, rfl⟩

theorem raiseInstead_of_ok {e : Exn} {m : Prog σ α} {s t : σ} {a : α} (h : m.run s = (.ok a, t)) :
    (raiseInstead e m).run s = (.ok a, t) := by
  simp only [raiseInstead, h]

theorem raiseInstead_of_error {e e' : Exn} {m : Prog σ α} {s t : σ}
    (h : m.run s = (.error e', t)) : (raiseInstead e m).run s = (.error e, t) := by
  simp only [raiseInstead, h]

theorem run_eq_of_raiseInstead_ok {e : Exn} {m : Prog σ α} {s t : σ} {a : α}
    (h : (raiseInstead e m).run s = (.ok a, t)) : m.run s = (.ok a, t) := by
  unfold raiseInstead at h
  cases hm : m.run s with
  | mk r s' =>
      cases r with
      | ok b => simpa only [hm] using h
      | error e' =>
          simp only [hm] at h
          cases h

theorem bind_pure_run_snd (m : Prog σ α) (b : β) (s : σ) :
    ((m >>= fun _ => pure b).run s).2 = (m.run s).2 := bind_pure_map_run_snd m (fun _ => b) s

theorem forEach_map {γ : Type} (f : β → Prog σ Unit) (c : γ → β) (as : List γ) :
    forEach f (as.map c) = forEach (fun a => f (c a)) as := by
  induction as with
  | nil => rfl
  | cons a as ih => rw [List.map_cons, forEach, forEach, ih]

/-- A loop that never raises is a fold. -/
theorem forEach_run {f : α → Prog σ Unit} {g : σ → α → σ}
    (h : ∀ a s, (f a).run s = (.ok (), g s a)) (as : List α) (s : σ) :
    (forEach f as).run s = (.ok (), as.foldl g s) := by
  induction as generalizing s with
  | nil => rfl
  | cons a as ih =>
      rw [forEach, bind_of_ok (h a s)]
      exact ih (g s a)

/-! ## What a program may do -/

/-- From every state the program ends in a state related to it. -/
def Within (R : σ → σ → Prop) (m : Prog σ α) : Prop := ∀ s, R s (m.run s).2

section

variable {R : σ → σ → Prop}

theorem Within.pure (hrefl : ∀ s, R s s) (a : α) : Within R (Pure.pure a : Prog σ α) :=
  fun s => hrefl s

theorem Within.lift (hrefl : ∀ s, R s s) (x : Except Exn α) : Within R (Prog.lift x : Prog σ α) :=
  fun s => hrefl s

/-- A bounded program raises or returns, and its bound holds either way. -/
theorem Within.run_cases {m : Prog σ α} (h : Within R m) (s : σ) :
    (∃ e t, m.run s = (.error e, t) ∧ R s t) ∨ ∃ a t, m.run s = (.ok a, t) ∧ R s t := by
  have hs := h s
  cases hrun : m.run s with
  | mk r t =>
      rw [hrun] at hs
      cases r with
      | error e => exact Or.inl ⟨e, t, rfl, hs⟩
      | ok a => exact Or.inr ⟨a, t, rfl, hs⟩

theorem Within.bind (htrans : ∀ s t u, R s t → R t u → R s u) {m : Prog σ α} {f : α → Prog σ β}
    (hm : Within R m) (hf : ∀ a, Within R (f a)) : Within R (m >>= f) := by
  intro s
  rcases hm.run_cases s with ⟨e, t, hrun, hs⟩ | ⟨a, t, hrun, hs⟩
  · rw [bind_of_error hrun]
    exact hs
  · rw [bind_of_ok hrun]
    exact htrans s t _ hs (hf a t)

theorem Within.forEach (hrefl : ∀ s, R s s) (htrans : ∀ s t u, R s t → R t u → R s u)
    {f : α → Prog σ Unit} {as : List α} (hf : ∀ a ∈ as, Within R (f a)) :
    Within R (Prog.forEach f as) := by
  induction as with
  | nil => exact Within.pure hrefl ()
  | cons a as ih =>
      refine Within.bind htrans (hf a List.mem_cons_self) fun _ => ?_
      exact ih fun a' ha' => hf a' (List.mem_cons_of_mem a ha')

theorem Within.focus {τ : Type} {S : τ → τ → Prop} {part : σ → τ} {put : τ → σ → σ}
    (hput : ∀ s p, S (part s) p → R s (put p s)) {m : Prog τ α} (hm : Within S m) :
    Within R (Prog.focus part put m) :=
  fun s => hput s _ (hm (part s))

theorem Within.mono {S : σ → σ → Prop} (hRS : ∀ s t, R s t → S s t) {m : Prog σ α}
    (h : Within R m) : Within S m := fun s => hRS s _ (h s)

end

end Prog

end Library
