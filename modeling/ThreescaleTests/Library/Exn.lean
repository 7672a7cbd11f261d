import ThreescaleTests.Library.Dict

/-!
# Exceptions

Computations that return a value or raise. A loop over a list raises what its
first raising iteration raises; it returns normally exactly when every
iteration does. A generator hands out values and is resumed with answers until it
ends or raises.
-/

namespace Library

/-- The exceptions a program distinguishes; `other` names those of foreign code. An exception of a
class of its own has what `str` gives of it, and nothing if `str` raises. -/
inductive Exn where
  | assertionError
  | keyError (key : String)
  | typeError
  | valueError (message : String)
  | notImplementedError (message : String)
  | other (name : String)
  | custom (name : String) (str : Option String)
deriving DecidableEq, Repr

/-- The message of the exception can be shown. -/
def Exn.Renders : Exn → Prop
  | .custom _ str => str.isSome = true
  | _ => True

def assertThat (p : Prop) [Decidable p] : Except Exn Unit :=
  if p then .ok () else .error .assertionError

/-- Subscription of a dictionary: a missing key raises. -/
def Dict.getItem {ν : Type} (d : Dict String ν) (k : String) : Except Exn ν :=
  match d.get? k with
  | some v => .ok v
  | none => .error (.keyError k)

@[simp] theorem assertThat_eq_ok_iff {p : Prop} [Decidable p] :
    assertThat p = .ok () ↔ p := by
  by_cases h : p <;> simp [assertThat, h]

@[simp] theorem getItem_eq_ok_iff {ν : Type} {d : Dict String ν} {k : String} {v : ν} :
    d.getItem k = .ok v ↔ d.get? k = some v := by
  unfold Dict.getItem
  cases d.get? k <;> simp

@[simp] theorem ok_bind {α β : Type} (a : α) (f : α → Except Exn β) :
    ((.ok a : Except Exn α) >>= f) = f a := rfl

@[simp] theorem error_bind {α β : Type} (e : Exn) (f : α → Except Exn β) :
    ((.error e : Except Exn α) >>= f) = .error e := rfl

theorem bind_eq_ok_iff {α β : Type} {x : Except Exn α} {f : α → Except Exn β} {b : β} :
    (x >>= f) = .ok b ↔ ∃ a, x = .ok a ∧ f a = .ok b := by
  cases x with
  | error e => simp
  | ok a => simp

/-- Statements in sequence: the second runs only after the first returned. -/
theorem seq_eq_ok_iff {β : Type} {x : Except Exn Unit} {f : Unit → Except Exn β} {b : β} :
    (x >>= f) = .ok b ↔ x = .ok () ∧ f () = .ok b := by
  rw [bind_eq_ok_iff]
  exact ⟨fun ⟨_, hx, hf⟩ => ⟨hx, hf⟩, fun ⟨hx, hf⟩ => ⟨(), hx, hf⟩⟩

theorem assertThat_bind_eq_ok_iff {β : Type} {p : Prop} [Decidable p]
    {f : Unit → Except Exn β} {b : β} :
    (assertThat p >>= f) = .ok b ↔ p ∧ f () = .ok b := by
  rw [seq_eq_ok_iff, assertThat_eq_ok_iff]

/-! ## The value, if there is one -/

theorem toOption_eq_some_iff {α : Type} {x : Except Exn α} {a : α} :
    x.toOption = some a ↔ x = .ok a := by
  cases x <;> simp [Except.toOption]

theorem getD_toOption {α : Type} {x : Except Exn α} {a b : α} (h : x = .ok a) :
    x.toOption.getD b = a := by
  rw [h]
  rfl

theorem toOption_of_map_some {α : Type} {x : Except Exn α} {a : Option α}
    (h : x.map some = .ok a) : x.toOption = a := by
  cases x with
  | error e => cases h
  | ok v => exact Except.ok.inj h

/-! ## Loops -/

/-- The loop `for a in as: f(a)`. -/
def forEach {α : Type} (f : α → Except Exn Unit) : List α → Except Exn Unit
  | [] => .ok ()
  | a :: as => f a >>= fun _ => forEach f as

theorem forEach_eq_ok_iff {α : Type} {f : α → Except Exn Unit} {as : List α} :
    forEach f as = .ok () ↔ ∀ a ∈ as, f a = .ok () := by
  induction as with
  | nil => simp [forEach]
  | cons a as ih => simp [forEach, seq_eq_ok_iff, ih]

/-! ## Generators -/

inductive Flow (α β : Type) where
  | done
  | raise (e : Exn)
  | yield (a : α) (resume : β → Flow α β)

namespace Flow

variable {α β : Type} {p : α → Prop}

/-- The generator of a computation that is yielded once. -/
def once : Except Exn α → Flow α β
  | .ok a => .yield a fun _ => .done
  | .error e => .raise e

/-- Every value handed out satisfies `p`, whatever the answers are. -/
def Always (p : α → Prop) : Flow α β → Prop
  | .done => True
  | .raise _ => True
  | .yield a resume => p a ∧ ∀ b, (resume b).Always p

theorem always_once_iff {x : Except Exn α} :
    (once x : Flow α β).Always p ↔ ∀ a, x = .ok a → p a := by
  cases x with
  | error e => simp [once, Always]
  | ok a => simp [once, Always]

end Flow

end Library
