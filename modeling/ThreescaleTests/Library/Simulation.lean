import ThreescaleTests.Library.Prog

/-!
# Simulations

Two programs over different states simulate each other along a relation of the states if
they end in related outcomes and related states wherever they start in related ones.
Simulations follow a program statement by statement, and a run of operations operation by
operation, whether these return or raise.
-/

namespace Library

/-- Both return related values, or both raise related exceptions. -/
inductive Outcome {α β : Type} (E : Exn → Exn → Prop) (V : α → β → Prop) :
    Except Exn α → Except Exn β → Prop where
  | ok {a : α} {b : β} (h : V a b) : Outcome E V (.ok a) (.ok b)
  | error {e e' : Exn} (h : E e e') : Outcome E V (.error e) (.error e')

theorem Outcome.mono {α β : Type} {E : Exn → Exn → Prop} {V V' : α → β → Prop}
    (hV : ∀ a b, V a b → V' a b) {r : Except Exn α} {r' : Except Exn β} (h : Outcome E V r r') :
    Outcome E V' r r' := by
  cases h with
  | ok hvalues => exact .ok (hV _ _ hvalues)
  | error herrors => exact .error herrors

namespace Prog

variable {σ τ α β γ δ : Type}

/-- From related states two programs come to related outcomes in related states. -/
def Simulates (R : σ → τ → Prop) (E : Exn → Exn → Prop) (V : α → β → Prop) (m : Prog σ α)
    (m' : Prog τ β) : Prop :=
  ∀ s t, R s t → Outcome E V (m.run s).1 (m'.run t).1 ∧ R (m.run s).2 (m'.run t).2

section

variable {R : σ → τ → Prop} {E : Exn → Exn → Prop} {V : α → β → Prop} {W : γ → δ → Prop}

theorem Simulates.pure {a : α} {b : β} (h : V a b) :
    Simulates R E V (Pure.pure a) (Pure.pure b) :=
  fun _ _ hstates => ⟨.ok h, hstates⟩

/-- What both return, and where they leave the states. -/
theorem Simulates.cases {m : Prog σ α} {m' : Prog τ β} (h : Simulates R E V m m') {s : σ} {t : τ}
    (hstates : R s t) :
    (∃ a b s' t', m.run s = (.ok a, s') ∧ m'.run t = (.ok b, t') ∧ V a b ∧ R s' t') ∨
      ∃ e e' s' t', m.run s = (.error e, s') ∧ m'.run t = (.error e', t') ∧ E e e' ∧
        R s' t' := by
  obtain ⟨houtcome, hafter⟩ := h s t hstates
  cases hm : m.run s with
  | mk r s' =>
      cases hm' : m'.run t with
      | mk r' t' =>
          rw [hm, hm'] at houtcome hafter
          cases houtcome with
          | ok hvalues => exact .inl ⟨_, _, _, _, rfl, rfl, hvalues, hafter⟩
          | error herrors => exact .inr ⟨_, _, _, _, rfl, rfl, herrors, hafter⟩

theorem Simulates.bind {m : Prog σ α} {m' : Prog τ β} {f : α → Prog σ γ} {f' : β → Prog τ δ}
    (hm : Simulates R E V m m') (hf : ∀ a b, V a b → Simulates R E W (f a) (f' b)) :
    Simulates R E W (m >>= f) (m' >>= f') := by
  intro s t hstates
  rcases hm.cases hstates with ⟨a, b, s', t', hrun, hrun', hvalues, hafter⟩ |
    ⟨e, e', s', t', hrun, hrun', herrors, hafter⟩
  · rw [bind_of_ok hrun, bind_of_ok hrun']
    exact hf a b hvalues s' t' hafter
  · rw [bind_of_error hrun, bind_of_error hrun']
    exact ⟨.error herrors, hafter⟩

theorem Simulates.mono {V' : α → β → Prop} {m : Prog σ α} {m' : Prog τ β}
    (h : Simulates R E V m m') (hV : ∀ a b, V a b → V' a b) : Simulates R E V' m m' :=
  fun s t hstates => ⟨(h s t hstates).1.mono hV, (h s t hstates).2⟩

/-- A program on a part that both states have in common. -/
theorem Simulates.focus_common {ρ : Type} {part : σ → ρ} {put : ρ → σ → σ} {part' : τ → ρ}
    {put' : ρ → τ → τ} (hpart : ∀ s t, R s t → part s = part' t)
    (hput : ∀ s t p, R s t → R (put p s) (put' p t)) (hE : ∀ e, E e e) {P : α → Prop}
    {m : Prog ρ α} (hm : ∀ p a, (m.run p).1 = .ok a → P a) :
    Simulates R E (fun a b => a = b ∧ P a) (focus part put m) (focus part' put' m) := by
  intro s t hstates
  rw [focus_run, focus_run, hpart s t hstates]
  refine ⟨?_, hput s t _ hstates⟩
  cases hrun : (m.run (part' t)).1 with
  | ok a => exact .ok ⟨rfl, hm _ a hrun⟩
  | error e => exact .error (hE e)

/-- Programs on parts that simulate each other. -/
theorem Simulates.focus {ρ ρ' : Type} {Q : ρ → ρ' → Prop} {part : σ → ρ} {put : ρ → σ → σ}
    {part' : τ → ρ'} {put' : ρ' → τ → τ} (hpart : ∀ s t, R s t → Q (part s) (part' t))
    (hput : ∀ s t p p', R s t → Q p p' → R (put p s) (put' p' t)) {m : Prog ρ α}
    {m' : Prog ρ' β} (hm : Simulates Q E V m m') :
    Simulates R E V (focus part put m) (focus part' put' m') := by
  intro s t hstates
  obtain ⟨houtcome, hafter⟩ := hm _ _ (hpart s t hstates)
  exact ⟨houtcome, hput s t _ _ hstates hafter⟩

end

/-! ## Runs -/

variable {ω : Type}

/-- What the operations return or raise, one after the other; none stops the others. -/
def transcript (step : ω → Prog σ α) : List ω → σ → List (Except Exn α)
  | [], _ => []
  | o :: ops, s => ((step o).run s).1 :: transcript step ops ((step o).run s).2

def after (step : ω → Prog σ α) (ops : List ω) (s : σ) : σ :=
  ops.foldl (fun s o => ((step o).run s).2) s

theorem after_append (step : ω → Prog σ α) (ops ops' : List ω) (s : σ) :
    after step (ops ++ ops') s = after step ops' (after step ops s) := List.foldl_append ..

section

variable {R : σ → τ → Prop} {E : Exn → Exn → Prop} {V : α → β → Prop} {step : ω → Prog σ α}
  {step' : ω → Prog τ β}

/-- Operations that simulate each other have related outcomes in every run. -/
theorem Simulates.transcript (hstep : ∀ o, Simulates R E V (step o) (step' o)) (ops : List ω)
    {s : σ} {t : τ} (hstates : R s t) :
    List.Forall₂ (Outcome E V) (Prog.transcript step ops s) (Prog.transcript step' ops t) ∧
      R (after step ops s) (after step' ops t) := by
  induction ops generalizing s t with
  | nil => exact ⟨.nil, hstates⟩
  | cons o ops ih =>
      obtain ⟨houtcome, hafter⟩ := hstep o s t hstates
      obtain ⟨hrest, hend⟩ := ih hafter
      exact ⟨.cons houtcome hrest, hend⟩

/-- What no operation of a run breaks holds after it. -/
theorem after_invariant {I : σ → Prop} {ok : ω → Prop}
    (hstep : ∀ o s, ok o → I s → I ((step o).run s).2) {ops : List ω} (hops : ∀ o ∈ ops, ok o)
    {s : σ} (hs : I s) : I (after step ops s) := by
  induction ops generalizing s with
  | nil => exact hs
  | cons o ops ih =>
      exact ih (fun o' ho' => hops o' (List.mem_cons_of_mem o ho'))
        (hstep o s (hops o List.mem_cons_self) hs)

end

end Prog

end Library
