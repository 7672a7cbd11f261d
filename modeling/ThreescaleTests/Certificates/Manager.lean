import ThreescaleTests.Certificates.Stores

/-!
# The certificate manager

Keys are generated and signed by a provider, and what is signed is kept in a store; an
authority and a certificate share the labels. Whichever store is behind it, the manager
does the same in every run, and a label that has its certificate is answered without the
provider until somebody creates it anew.
-/

namespace ThreescaleTests.Certificates

open Library

/-! ## The provider -/

/-- The subjects of a request. -/
abbrev CertificateNames := List (List (String × String))

structure UnsignedKey where
  key : Text
  csr : Text
deriving DecidableEq

/-- `KeyProvider` and `SigningProvider`: a binary outside, with a state of its own. -/
structure Provider (σ : Type) where
  generateKey : String → CertificateNames → List String → Prog σ UnsignedKey
  sign : UnsignedKey → Option Pem → Prog σ Pem
  generateCa : String → CertificateNames → List String → Prog σ (Pem × UnsignedKey)
  signIntermediateCa : UnsignedKey → Pem → Prog σ Pem

/-- The provider writes its certificates and keys without carriage returns. -/
structure Provider.Clean {σ : Type} (provider : Provider σ) : Prop where
  sign : ∀ key authority s pem, ((provider.sign key authority).run s).1 = .ok pem → pem.Clean
  generateCa : ∀ name names hosts s result,
    ((provider.generateCa name names hosts).run s).1 = .ok result → result.1.Clean
  signIntermediateCa : ∀ key authority s pem,
    ((provider.signIntermediateCa key authority).run s).1 = .ok pem → pem.Clean

/-! ## The manager -/

def defaultNames : CertificateNames :=
  [[("O", "Red Hat Inc."), ("OU", "IT"), ("L", "San Francisco"), ("ST", "California"),
    ("C", "US")]]

def namesOr : Option CertificateNames → CertificateNames
  | none => defaultNames
  | some [] => defaultNames
  | some (name :: names) => name :: names

section

variable {σ τ α : Type} (provider : Provider σ) (store : CertificateStore τ)

def onProvider (m : Prog σ α) : Prog (σ × τ) α := Prog.focus Prod.fst (fun s w => (s, w.2)) m

def onStore (m : Prog τ α) : Prog (σ × τ) α := Prog.focus Prod.snd (fun t w => (w.1, t)) m

def create (label : Label) (commonName : String) (hosts : List String)
    (names : Option CertificateNames) (authority : Option Pem) : Prog (σ × τ) Pem := do
  let key ← onProvider (provider.generateKey commonName (namesOr names) hosts)
  let certificate ← onProvider (provider.sign key authority)
  onStore (store.setitem label certificate)
  return certificate

def getOrCreate (label : Label) (commonName : String) (hosts : List String)
    (names : Option CertificateNames) (authority : Option Pem) : Prog (σ × τ) Pem := do
  let known ← onStore (store.contains label)
  if known then onStore (store.getitem label)
  else create provider store label commonName hosts names authority

def get (label : Label) : Prog (σ × τ) Pem := onStore (store.getitem label)

/-- The certificate of a new authority: its own, or one that an authority signs. -/
def authorityCertificate (key : UnsignedKey) (own : Pem) : Option Pem → Prog (σ × τ) Pem
  | some authority => onProvider (provider.signIntermediateCa key authority)
  | none => pure own

def createCa (label : Label) (hosts : List String) (names : Option CertificateNames)
    (authority : Option Pem) : Prog (σ × τ) (Pem × UnsignedKey) := do
  let (certificate, key) ←
    onProvider (provider.generateCa (String.ofList label.text) (namesOr names) hosts)
  let certificate ← authorityCertificate provider key certificate authority
  onStore (store.setitem label certificate)
  return (certificate, key)

def getOrCreateCa (label : Label) (hosts : List String) (names : Option CertificateNames)
    (authority : Option Pem) : Prog (σ × τ) Pem := do
  let known ← onStore (store.contains label)
  if known then onStore (store.getitem label)
  else do
    let (certificate, _) ← createCa provider store label hosts names authority
    return certificate

/-! ## Requests -/

inductive Request where
  | create (label : Label) (commonName : String) (hosts : List String)
      (names : Option CertificateNames) (authority : Option Pem)
  | getOrCreate (label : Label) (commonName : String) (hosts : List String)
      (names : Option CertificateNames) (authority : Option Pem)
  | get (label : Label)
  | createCa (label : Label) (hosts : List String) (names : Option CertificateNames)
      (authority : Option Pem)
  | getOrCreateCa (label : Label) (hosts : List String) (names : Option CertificateNames)
      (authority : Option Pem)

/-- What a request returns: a certificate, and with a new authority its key. -/
def perform : Request → Prog (σ × τ) (Pem × Option UnsignedKey)
  | .create label commonName hosts names authority => do
      return (← create provider store label commonName hosts names authority, none)
  | .getOrCreate label commonName hosts names authority => do
      return (← getOrCreate provider store label commonName hosts names authority, none)
  | .get label => do return (← get store label, none)
  | .createCa label hosts names authority => do
      let (certificate, key) ← createCa provider store label hosts names authority
      return (certificate, some key)
  | .getOrCreateCa label hosts names authority => do
      return (← getOrCreateCa provider store label hosts names authority, none)

end

/-! ## The stores are interchangeable -/

section

variable {σ τ α : Type} {provider : Provider σ} {store : CertificateStore τ}
  {R : Memory → τ → Prop}

/-- One provider, and stores that hold the same. -/
def Beside (R : Memory → τ → Prop) (w : σ × Memory) (w' : σ × τ) : Prop :=
  w.1 = w'.1 ∧ R w.2 w'.2

theorem onProvider_simulates {P : α → Prop} {m : Prog σ α}
    (hm : ∀ s a, (m.run s).1 = .ok a → P a) :
    Prog.Simulates (Beside R) SameError (fun a b => a = b ∧ P a) (onProvider m)
      (onProvider m) :=
  Prog.Simulates.focus_common (fun _ _ h => h.1) (fun _ _ _ h => ⟨rfl, h.2⟩) SameError.refl hm

theorem onStore_simulates {β : Type} {V : α → β → Prop} {m : Prog Memory α} {m' : Prog τ β}
    (hm : Prog.Simulates R SameError V m m') :
    Prog.Simulates (@Beside σ τ R) SameError V (onStore m) (onStore m') :=
  Prog.Simulates.focus (fun _ _ h => h.2) (fun _ _ _ _ h hp => ⟨h.1, hp⟩) hm

theorem create_simulates (hprovider : provider.Clean) (hstore : Refines store R) (label : Label)
    (commonName : String) (hosts : List String) (names : Option CertificateNames)
    (authority : Option Pem) :
    Prog.Simulates (Beside R) SameError Eq
      (create provider memoryStore label commonName hosts names authority)
      (create provider store label commonName hosts names authority) := by
  refine (onProvider_simulates (fun _ _ _ => trivial)).bind ?_
  rintro key _ ⟨rfl, -⟩
  refine (onProvider_simulates (hprovider.sign key authority)).bind ?_
  rintro certificate _ ⟨rfl, hclean⟩
  exact (onStore_simulates (hstore.setitem label certificate hclean)).bind
    fun _ _ _ => Prog.Simulates.pure rfl

theorem createCa_simulates (hprovider : provider.Clean) (hstore : Refines store R)
    (label : Label) (hosts : List String) (names : Option CertificateNames)
    (authority : Option Pem) :
    Prog.Simulates (Beside R) SameError Eq
      (createCa provider memoryStore label hosts names authority)
      (createCa provider store label hosts names authority) := by
  refine (onProvider_simulates (hprovider.generateCa _ _ hosts)).bind ?_
  rintro ⟨certificate, key⟩ _ ⟨rfl, hclean⟩
  have hsigned : Prog.Simulates (Beside R) SameError (fun a b => a = b ∧ Pem.Clean a)
      (authorityCertificate provider key certificate authority)
      (authorityCertificate provider key certificate authority) := by
    cases authority with
    | none => exact Prog.Simulates.pure ⟨rfl, hclean⟩
    | some authority => exact onProvider_simulates (hprovider.signIntermediateCa key authority)
  refine hsigned.bind ?_
  rintro signed _ ⟨rfl, hsigned⟩
  exact (onStore_simulates (hstore.setitem label signed hsigned)).bind
    fun _ _ _ => Prog.Simulates.pure rfl

/-- What is asked for is looked up first, whatever creates it. -/
theorem lookup_simulates (hstore : Refines store R) (label : Label)
    {m : Prog (σ × Memory) Pem} {m' : Prog (σ × τ) Pem}
    (hm : Prog.Simulates (Beside R) SameError Eq m m') :
    Prog.Simulates (Beside R) SameError Eq
      (onStore (memoryStore.contains label) >>= fun known =>
        if known then onStore (memoryStore.getitem label) else m)
      (onStore (store.contains label) >>= fun known =>
        if known then onStore (store.getitem label) else m') := by
  refine (onStore_simulates (hstore.contains label)).bind ?_
  rintro known _ rfl
  cases known with
  | true => exact onStore_simulates (hstore.getitem label)
  | false => exact hm

theorem perform_simulates (hprovider : provider.Clean) (hstore : Refines store R)
    (request : Request) :
    Prog.Simulates (Beside R) SameError Eq (perform provider memoryStore request)
      (perform provider store request) := by
  have hanswer {m : Prog (σ × Memory) Pem} {m' : Prog (σ × τ) Pem}
      (hm : Prog.Simulates (Beside R) SameError Eq m m') :
      Prog.Simulates (Beside R) SameError Eq
        (m >>= fun a => pure (a, (none : Option UnsignedKey)))
        (m' >>= fun a => pure (a, none)) := by
    refine hm.bind ?_
    rintro a _ rfl
    exact Prog.Simulates.pure rfl
  cases request with
  | create label commonName hosts names authority =>
      exact hanswer (create_simulates hprovider hstore label commonName hosts names authority)
  | getOrCreate label commonName hosts names authority =>
      exact hanswer (lookup_simulates hstore label
        (create_simulates hprovider hstore label commonName hosts names authority))
  | get label => exact hanswer (onStore_simulates (hstore.getitem label))
  | createCa label hosts names authority =>
      refine (createCa_simulates hprovider hstore label hosts names authority).bind ?_
      rintro a _ rfl
      exact Prog.Simulates.pure rfl
  | getOrCreateCa label hosts names authority =>
      refine hanswer (lookup_simulates hstore label ?_)
      refine (createCa_simulates hprovider hstore label hosts names authority).bind ?_
      rintro a _ rfl
      exact Prog.Simulates.pure rfl

end

/-- A provider that counts what it signed. -/
def countingProvider : Provider Nat where
  generateKey _ _ _ := pure ⟨['k'], ['r']⟩
  sign _ _ := ⟨fun n => (.ok ⟨['k'], List.replicate n 'A'⟩, n + 1)⟩
  generateCa _ _ _ := pure (⟨['k'], ['c']⟩, ⟨['k'], ['r']⟩)
  signIntermediateCa _ _ := ⟨fun n => (.ok ⟨['k'], List.replicate n 'A'⟩, n + 1)⟩

theorem countingProvider_clean : countingProvider.Clean := by
  have hsigned (n : Nat) : Pem.Clean ⟨['k'], List.replicate n 'A'⟩ :=
    ⟨(by decide : '\r' ∉ ['k']), fun h => absurd (List.eq_of_mem_replicate h) (by decide)⟩
  refine ⟨fun _ _ n pem h => ?_, fun _ _ _ _ result h => ?_, fun _ _ n pem h => ?_⟩
  · cases h
    exact hsigned n
  · cases h
    exact ⟨by decide, by decide⟩
  · cases h
    exact hsigned n

def serverLabel : Label := ⟨['s'], by decide, by decide, by decide, by decide +kernel⟩

/-- The store of the tests and the one in temporary files make no difference: whatever is
requested in whatever order, the manager returns the same certificates and keys, raises the
same but for how a label is missing, and leaves the provider as it would have. -/
theorem tmpStore_transcript {σ : Type} {provider : Provider σ} (hprovider : provider.Clean)
    (requests : List Request) (s : σ) :
    List.Forall₂ (Outcome SameError Eq)
        (Prog.transcript (perform provider memoryStore) requests (s, Dict.empty))
        (Prog.transcript (perform provider tmpStore) requests (s, Dict.empty)) ∧
      (Prog.after (perform provider memoryStore) requests (s, Dict.empty)).1 =
        (Prog.after (perform provider tmpStore) requests (s, Dict.empty)).1 := by
  obtain ⟨houtcomes, hafter⟩ := Prog.Simulates.transcript
    (perform_simulates hprovider tmpStore_refines) requests
    (s := (s, Dict.empty)) (t := (s, Dict.empty)) ⟨rfl, fun _ => trivial⟩
  exact ⟨houtcomes, hafter.1⟩

theorem tmpStore_transcript_of_two :
    (Prog.after (perform countingProvider memoryStore)
        [.getOrCreate serverLabel "localhost" [] none none, .get serverLabel]
        (0, Dict.empty)).1 =
      (Prog.after (perform countingProvider tmpStore)
        [.getOrCreate serverLabel "localhost" [] none none, .get serverLabel]
        (0, Dict.empty)).1 :=
  (tmpStore_transcript countingProvider_clean
    [.getOrCreate serverLabel "localhost" [] none none, .get serverLabel] 0).2

/-! ## Certificates that stay -/

def Request.label : Request → Label
  | .create label _ _ _ _ => label
  | .getOrCreate label _ _ _ _ => label
  | .get label => label
  | .createCa label _ _ _ => label
  | .getOrCreateCa label _ _ _ => label

/-- The request creates a certificate even if there is one. -/
def Request.renews : Request → Bool
  | .create _ _ _ _ _ => true
  | .createCa _ _ _ _ => true
  | .getOrCreate _ _ _ _ _ => false
  | .get _ => false
  | .getOrCreateCa _ _ _ _ => false

section

variable {σ : Type} {provider : Provider σ} {w w' : σ × Memory}

/-- A label that has a certificate keeps it. -/
def Kept (label : Label) (w w' : σ × Memory) : Prop :=
  ∀ pem, w.2.get? label = some pem → w'.2.get? label = some pem

theorem kept_refl (label : Label) (w : σ × Memory) : Kept label w w := fun _ h => h

theorem kept_trans (label : Label) (w w' w'' : σ × Memory) (h : Kept label w w')
    (h' : Kept label w' w'') : Kept label w w'' := fun pem hpem => h' pem (h pem hpem)

theorem onProvider_kept {α : Type} (label : Label) (m : Prog σ α) :
    Prog.Within (Kept label) (onProvider m) := fun _ _ h => h

theorem setitem_kept {label other : Label} (hne : label ≠ other) (pem : Pem) :
    Prog.Within (@Kept σ label) (onStore (memoryStore.setitem other pem)) :=
  fun w _ h => (Dict.get?_set_of_ne w.2 pem hne).trans h

theorem create_kept {label other : Label} (hne : label ≠ other) (commonName : String)
    (hosts : List String) (names : Option CertificateNames) (authority : Option Pem) :
    Prog.Within (Kept label)
      (create provider memoryStore other commonName hosts names authority) :=
  Prog.Within.bind (kept_trans label) (onProvider_kept label _) fun _ =>
    Prog.Within.bind (kept_trans label) (onProvider_kept label _) fun pem =>
      Prog.Within.bind (kept_trans label) (setitem_kept hne pem) fun _ =>
        Prog.Within.pure (kept_refl label) pem

theorem createCa_kept {label other : Label} (hne : label ≠ other) (hosts : List String)
    (names : Option CertificateNames) (authority : Option Pem) :
    Prog.Within (Kept label) (createCa provider memoryStore other hosts names authority) := by
  refine Prog.Within.bind (kept_trans label) (onProvider_kept label _) fun generated => ?_
  refine Prog.Within.bind (kept_trans label) ?_ fun pem =>
    Prog.Within.bind (kept_trans label) (setitem_kept hne pem) fun _ =>
      Prog.Within.pure (kept_refl label) _
  cases authority with
  | none => exact Prog.Within.pure (kept_refl label) _
  | some authority => exact onProvider_kept label _

/-- What is known is answered from the store, and the provider is not asked. -/
theorem lookup_run_of_some {label : Label} {pem : Pem} (h : w.2.get? label = some pem)
    (m : Prog (σ × Memory) Pem) :
    (onStore (memoryStore.contains label) >>= fun known =>
      if known then onStore (memoryStore.getitem label) else m).run w = (.ok pem, w) := by
  have hcontains : (onStore (memoryStore.contains label)).run w = (.ok true, w) := by
    rw [onStore, Prog.focus_run, memoryStore, Prog.gets_run, h]
    rfl
  rw [Prog.bind_of_ok hcontains, if_pos rfl, onStore, Prog.focus_run]
  simp only [memoryStore, h]

theorem lookup_run_of_none {label : Label} (h : w.2.get? label = none)
    (m : Prog (σ × Memory) Pem) :
    (onStore (memoryStore.contains label) >>= fun known =>
      if known then onStore (memoryStore.getitem label) else m).run w = m.run w := by
  have hcontains : (onStore (memoryStore.contains label)).run w = (.ok false, w) := by
    rw [onStore, Prog.focus_run, memoryStore, Prog.gets_run, h]
    rfl
  rw [Prog.bind_of_ok hcontains, if_neg Bool.false_ne_true]

theorem lookup_kept (label other : Label) {m : Prog (σ × Memory) Pem}
    (hm : label ≠ other → Prog.Within (Kept label) m) :
    Prog.Within (Kept label) (onStore (memoryStore.contains other) >>= fun known =>
      if known then onStore (memoryStore.getitem other) else m) := by
  intro w
  cases hother : w.2.get? other with
  | some pem =>
      rw [lookup_run_of_some hother]
      exact kept_refl label w
  | none =>
      rw [lookup_run_of_none hother]
      by_cases hne : label = other
      · subst hne
        exact fun pem h => by rw [hother] at h; cases h
      · exact hm hne w

/-- A request keeps every certificate but the one that it creates anew. -/
theorem perform_kept {label : Label} {request : Request}
    (h : request.renews = true → request.label ≠ label) :
    Prog.Within (Kept label) (perform provider memoryStore request) := by
  cases request with
  | create other commonName hosts names authority =>
      exact Prog.Within.bind (kept_trans label)
        (create_kept (Ne.symm (h rfl)) commonName hosts names authority)
        fun _ => Prog.Within.pure (kept_refl label) _
  | getOrCreate other commonName hosts names authority =>
      exact Prog.Within.bind (kept_trans label)
        (lookup_kept label other fun hne => create_kept hne commonName hosts names authority)
        fun _ => Prog.Within.pure (kept_refl label) _
  | get other =>
      refine Prog.Within.bind (kept_trans label) (fun w => ?_)
        fun _ => Prog.Within.pure (kept_refl label) _
      rw [get, onStore, Prog.focus_run]
      cases hother : w.2.get? other <;> simp only [memoryStore, hother] <;>
        exact kept_refl label w
  | createCa other hosts names authority =>
      exact Prog.Within.bind (kept_trans label)
        (createCa_kept (Ne.symm (h rfl)) hosts names authority)
        fun _ => Prog.Within.pure (kept_refl label) _
  | getOrCreateCa other hosts names authority =>
      refine Prog.Within.bind (kept_trans label) (lookup_kept label other fun hne => ?_)
        fun _ => Prog.Within.pure (kept_refl label) _
      exact Prog.Within.bind (kept_trans label) (createCa_kept hne hosts names authority)
        fun _ => Prog.Within.pure (kept_refl label) _

theorem create_stored {label : Label} {commonName : String} {hosts : List String}
    {names : Option CertificateNames} {authority : Option Pem} {pem : Pem}
    (h : (create provider memoryStore label commonName hosts names authority).run w =
      (.ok pem, w')) : w'.2.get? label = some pem := by
  obtain ⟨key, w₁, -, h⟩ := Prog.exists_of_bind_ok h
  obtain ⟨certificate, w₂, -, h⟩ := Prog.exists_of_bind_ok h
  cases h
  exact Dict.get?_set_self _ _ _

theorem createCa_stored {label : Label} {hosts : List String} {names : Option CertificateNames}
    {authority : Option Pem} {result : Pem × UnsignedKey}
    (h : (createCa provider memoryStore label hosts names authority).run w = (.ok result, w')) :
    w'.2.get? label = some result.1 := by
  obtain ⟨generated, w₁, -, h⟩ := Prog.exists_of_bind_ok h
  obtain ⟨certificate, w₂, -, h⟩ := Prog.exists_of_bind_ok h
  cases h
  exact Dict.get?_set_self _ _ _

theorem lookup_stored {label : Label} {m : Prog (σ × Memory) Pem} {pem : Pem}
    (hm : m.run w = (.ok pem, w') → w'.2.get? label = some pem)
    (h : (onStore (memoryStore.contains label) >>= fun known =>
      if known then onStore (memoryStore.getitem label) else m).run w = (.ok pem, w')) :
    w'.2.get? label = some pem := by
  cases hlabel : w.2.get? label with
  | some stored =>
      rw [lookup_run_of_some hlabel] at h
      cases h
      exact hlabel
  | none =>
      rw [lookup_run_of_none hlabel] at h
      exact hm h

/-- What a request returns is what its label has. -/
theorem perform_stored {request : Request} {result : Pem × Option UnsignedKey}
    (h : (perform provider memoryStore request).run w = (.ok result, w')) :
    w'.2.get? request.label = some result.1 := by
  cases request with
  | create label commonName hosts names authority =>
      obtain ⟨pem, w₁, hrun, h⟩ := Prog.exists_of_bind_ok h
      cases h
      exact create_stored hrun
  | getOrCreate label commonName hosts names authority =>
      obtain ⟨pem, w₁, hrun, h⟩ := Prog.exists_of_bind_ok h
      cases h
      exact lookup_stored create_stored hrun
  | get label =>
      obtain ⟨pem, w₁, hrun, h⟩ := Prog.exists_of_bind_ok h
      cases h
      rw [get, onStore, Prog.focus_run] at hrun
      cases hlabel : w.2.get? label <;> simp only [memoryStore, hlabel] at hrun <;> cases hrun
      exact hlabel
  | createCa label hosts names authority =>
      obtain ⟨pem, w₁, hrun, h⟩ := Prog.exists_of_bind_ok h
      cases h
      exact createCa_stored hrun
  | getOrCreateCa label hosts names authority =>
      obtain ⟨pem, w₁, hrun, h⟩ := Prog.exists_of_bind_ok h
      cases h
      refine lookup_stored (fun hcreate => ?_) hrun
      obtain ⟨pair, w₂, hpair, hpure⟩ := Prog.exists_of_bind_ok hcreate
      cases hpure
      exact createCa_stored hpair

/-- A certificate that is there is returned, and nothing happens. -/
theorem perform_of_some {request : Request} {pem : Pem} (hrenews : request.renews = false)
    (h : w.2.get? request.label = some pem) :
    (perform provider memoryStore request).run w = (.ok (pem, none), w) := by
  cases request with
  | create label commonName hosts names authority => cases hrenews
  | createCa label hosts names authority => cases hrenews
  | getOrCreate label commonName hosts names authority =>
      exact Prog.bind_of_ok (lookup_run_of_some h _)
  | getOrCreateCa label hosts names authority =>
      exact Prog.bind_of_ok (lookup_run_of_some h _)
  | get label =>
      refine Prog.bind_of_ok (f := fun pem => pure (pem, none)) ?_
      rw [get, onStore, Prog.focus_run]
      simp only [memoryStore]
      rw [Request.label] at h
      rw [h]

end

/-- With labels that are names of directories, a provider whose texts have no carriage returns and a
store that is empty at first: once a request for a label has returned a certificate, every later
request for it that does not create anew returns this certificate and leaves the provider alone,
whatever else is requested in between, unless the label itself is created anew. -/
theorem perform_again {σ τ : Type} {provider : Provider σ} {store : CertificateStore τ}
    {R : Memory → τ → Prop} (hprovider : provider.Clean) (hstore : Refines store R) {t : τ}
    (hempty : R Dict.empty t) (s : σ) (earlier later : List Request) {first again : Request}
    {result : Pem × Option UnsignedKey}
    (hfirst : ((perform provider store first).run
      (Prog.after (perform provider store) earlier (s, t))).1 = .ok result)
    (hlater : ∀ request ∈ later, request.renews = true → request.label ≠ first.label)
    (hlabel : again.label = first.label) (hagain : again.renews = false) :
    let w := Prog.after (perform provider store) (earlier ++ first :: later) (s, t)
    ((perform provider store again).run w).1 = .ok (result.1, none) ∧
      ((perform provider store again).run w).2.1 = w.1 := by
  intro w
  have hsimulates := perform_simulates hprovider hstore
  obtain ⟨-, hearlier⟩ := Prog.Simulates.transcript hsimulates earlier
    (s := (s, Dict.empty)) (t := (s, t)) ⟨rfl, hempty⟩
  rcases (hsimulates first).cases hearlier with
    ⟨a, b, w₁, w₁', hrun, hrun', rfl, hbeside⟩ | ⟨e, e', w₁, w₁', -, hrun', -, -⟩
  · rw [hrun'] at hfirst
    cases hfirst
    have hstored := perform_stored hrun
    obtain ⟨-, hafter⟩ := Prog.Simulates.transcript hsimulates later hbeside
    have hw : Prog.after (perform provider store) later w₁' = w := by
      show _ = Prog.after (perform provider store) (earlier ++ first :: later) (s, t)
      rw [Prog.after_append]
      show _ = Prog.after (perform provider store) later ((perform provider store first).run _).2
      rw [hrun']
    rw [hw] at hafter
    have hkept : (Prog.after (perform provider memoryStore) later w₁).2.get? first.label =
        some result.1 :=
      Prog.after_invariant (I := fun w : σ × Memory => w.2.get? first.label = some result.1)
        (fun _ v hrequest h => perform_kept hrequest v result.1 h) hlater hstored
    have hanswer := @perform_of_some σ provider _ _ _ hagain (hlabel ▸ hkept)
    obtain ⟨houtcome, hend⟩ := hsimulates again _ _ hafter
    rw [hanswer] at houtcome hend
    refine ⟨?_, (hend.1.symm.trans hafter.1)⟩
    generalize ((perform provider store again).run w).1 = outcome at houtcome
    cases houtcome with
    | ok heq => rw [heq]
  · rw [hrun'] at hfirst
    cases hfirst

/-- A certificate, and the authority of the same label -/
theorem perform_again_authority :
    ((perform countingProvider tmpStore (.getOrCreateCa serverLabel [] none none)).run
      (Prog.after (perform countingProvider tmpStore)
        ([] ++ .getOrCreate serverLabel "localhost" [] none none :: [.get serverLabel])
        (0, Dict.empty))).1 = .ok (⟨['k'], []⟩, none) :=
  (@perform_again Nat TmpDirectory countingProvider tmpStore OnDisk countingProvider_clean
    tmpStore_refines Dict.empty (fun _ => trivial) 0 [] [.get serverLabel]
    (.getOrCreate serverLabel "localhost" [] none none)
    (.getOrCreateCa serverLabel [] none none) (⟨['k'], []⟩, none) rfl (by decide) rfl rfl).1

end ThreescaleTests.Certificates
