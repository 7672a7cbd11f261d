import ThreescaleTests.Library.Pattern
import ThreescaleTests.Library.Simulation

/-!
# Stores of certificates

Certificates are kept under labels, in memory or in the files of a temporary directory.
For labels that are names of directories, and texts without carriage returns, which reading
a file would turn into line feeds, the two are one store: what the disk holds is what the
dictionary holds. They tell a label that is missing by different exceptions.
-/

namespace ThreescaleTests.Certificates

open Library

/-! ## Labels and certificates -/

/-- A label that is the name of a directory: one component of a path, which leads neither to
the directory of the store nor out of it. -/
structure Label where
  text : Text
  nonempty : text ≠ []
  component : '/' ∉ text ∧ '\x00' ∉ text
  down : text ≠ ['.'] ∧ text ≠ ['.', '.']
  short : (String.ofList text).utf8ByteSize ≤ 255
deriving DecidableEq

/-- What a `Certificate` is made of; its own files are another matter. -/
structure Pem where
  key : Text
  certificate : Text
deriving DecidableEq

/-- Nothing that reading a file would change. -/
def Pem.Clean (pem : Pem) : Prop := '\r' ∉ pem.key ∧ '\r' ∉ pem.certificate

structure CertificateStore (τ : Type) where
  contains : Label → Prog τ Bool
  setitem : Label → Pem → Prog τ Unit
  getitem : Label → Prog τ Pem

/-! ## In memory -/

abbrev Memory := Dict Label Pem

def memoryStore : CertificateStore Memory where
  contains label := Prog.gets fun data => (data.get? label).isSome
  setitem label value := Prog.modify fun data => data.set label value
  getitem label := ⟨fun data =>
    match data.get? label with
    | some value => (.ok value, data)
    | none => (.error (.keyError (String.ofList label.text)), data)⟩

/-! ## In temporary files -/

/-- The directories in the directory of the store, each with its files. -/
abbrev TmpDirectory := Dict Label (Dict Text Text)

/-- What reading text does to the ends of lines. -/
def universalNewlines : Text → Text
  | [] => []
  | '\r' :: '\n' :: text => '\n' :: universalNewlines text
  | '\r' :: text => '\n' :: universalNewlines text
  | c :: text => c :: universalNewlines text

theorem universalNewlines_of_clean {text : Text} (h : '\r' ∉ text) :
    universalNewlines text = text := by
  induction text with
  | nil => rfl
  | cons c text ih =>
      rw [List.mem_cons, not_or] at h
      rw [universalNewlines.eq_4 c text (fun rest hc _ => h.1 hc.symm) (fun hc => h.1 hc.symm),
        ih h.2]

def fileName (name ext : Text) : Text := name ++ '.' :: ext

/-- `if not os.path.exists(path): os.makedirs(path)` -/
def makeDirectory (label : Label) : Prog TmpDirectory Unit :=
  Prog.modify fun disk =>
    if (disk.get? label).isSome then disk else disk.set label Dict.empty

/-- `_persist` -/
def persistIn (label : Label) (name ext content : Text) : Prog TmpDirectory Unit :=
  ⟨fun disk =>
    match disk.get? label with
    | none => (.error (.other "FileNotFoundError"), disk)
    | some files => (.ok (), disk.set label (files.set (fileName name ext) content))⟩

/-- `_read` -/
def readFrom (label : Label) (name ext : Text) : Prog TmpDirectory Text :=
  ⟨fun disk =>
    match (disk.get? label).bind fun files => files.get? (fileName name ext) with
    | none => (.error (.other "FileNotFoundError"), disk)
    | some content => (.ok (universalNewlines content), disk)⟩

def tmpStore : CertificateStore TmpDirectory where
  contains label := Prog.gets fun disk => (disk.get? label).isSome
  setitem label value := do
    makeDirectory label
    persistIn label "certificate".toList "crt".toList value.certificate
    persistIn label "key".toList "key".toList value.key
  getitem label := do
    let certificate ← readFrom label "certificate".toList "crt".toList
    let key ← readFrom label "key".toList "key".toList
    return ⟨key, certificate⟩

/-! ## One store -/

/-- The two ways to say that a label is missing. -/
inductive SameError : Exn → Exn → Prop where
  | refl (e : Exn) : SameError e e
  | missing (key : String) : SameError (.keyError key) (.other "FileNotFoundError")

/-- The store does what a dictionary does, for what it is given. -/
structure Refines {τ : Type} (store : CertificateStore τ) (R : Memory → τ → Prop) : Prop where
  contains : ∀ label, Prog.Simulates R SameError Eq (memoryStore.contains label)
    (store.contains label)
  setitem : ∀ label value, value.Clean → Prog.Simulates R SameError Eq
    (memoryStore.setitem label value) (store.setitem label value)
  getitem : ∀ label, Prog.Simulates R SameError Eq (memoryStore.getitem label)
    (store.getitem label)

theorem memoryStore_refines : Refines memoryStore Eq := by
  refine ⟨fun label => ?_, fun label value _ => ?_, fun label => ?_⟩
  · rintro data _ rfl
    exact ⟨.ok rfl, rfl⟩
  · rintro data _ rfl
    exact ⟨.ok rfl, rfl⟩
  · rintro data _ rfl
    refine ⟨?_, rfl⟩
    cases (memoryStore.getitem label).run data with
    | mk r data' =>
        cases r with
        | ok value => exact .ok rfl
        | error e => exact .error (.refl e)

def filesOf (pem : Pem) (files : Dict Text Text) : Prop :=
  files.get? (fileName "certificate".toList "crt".toList) = some pem.certificate ∧
    files.get? (fileName "key".toList "key".toList) = some pem.key ∧ pem.Clean

/-- The directories are the labels, and each holds its certificate. -/
def OnDisk (data : Memory) (disk : TmpDirectory) : Prop :=
  ∀ label, match data.get? label, disk.get? label with
    | some pem, some files => filesOf pem files
    | none, none => True
    | _, _ => False

theorem OnDisk.isSome {data : Memory} {disk : TmpDirectory} (h : OnDisk data disk)
    (label : Label) : (data.get? label).isSome = (disk.get? label).isSome := by
  have hlabel := h label
  cases hdata : data.get? label <;> cases hdisk : disk.get? label <;>
    rw [hdata, hdisk] at hlabel <;> first | rfl | cases hlabel

/-- The directory of a label after its certificate was saved. -/
def saved (pem : Pem) (files : Dict Text Text) : Dict Text Text :=
  (files.set (fileName "certificate".toList "crt".toList) pem.certificate).set
    (fileName "key".toList "key".toList) pem.key

theorem filesOf_saved {pem : Pem} (h : pem.Clean) (files : Dict Text Text) :
    filesOf pem (saved pem files) := by
  have hne : fileName "certificate".toList "crt".toList ≠ fileName "key".toList "key".toList := by
    decide +kernel
  exact ⟨by rw [saved, Dict.get?_set_of_ne _ _ hne, Dict.get?_set_self],
    by rw [saved, Dict.get?_set_self], h⟩

theorem tmpStore_setitem_run (label : Label) (value : Pem) (disk : TmpDirectory) :
    ∃ disk', (tmpStore.setitem label value).run disk = (.ok (), disk') ∧
      (∃ files, disk'.get? label = some (saved value files)) ∧
      ∀ other, other ≠ label → disk'.get? other = disk.get? other := by
  -- The directory that the files go to, whether or not it was there.
  obtain ⟨made, files, hmade, hfiles, hothers⟩ : ∃ made files,
      (makeDirectory label).run disk = (.ok (), made) ∧ made.get? label = some files ∧
      ∀ other, other ≠ label → made.get? other = disk.get? other := by
    cases hlabel : disk.get? label with
    | some files =>
        exact ⟨disk, files, by rw [makeDirectory, Prog.modify_run, hlabel]; rfl, hlabel,
          fun _ _ => rfl⟩
    | none =>
        exact ⟨disk.set label Dict.empty, Dict.empty,
          by rw [makeDirectory, Prog.modify_run, hlabel]; rfl, Dict.get?_set_self _ _ _,
          fun other hother => Dict.get?_set_of_ne _ _ hother⟩
  have hpersist (name ext content : Text) {d : TmpDirectory} {fs : Dict Text Text}
      (hd : d.get? label = some fs) :
      (persistIn label name ext content).run d =
        (.ok (), d.set label (fs.set (fileName name ext) content)) := by
    simp only [persistIn, hd]
  have hcrt := hpersist "certificate".toList "crt".toList value.certificate hfiles
  have hkey := hpersist "key".toList "key".toList value.key (Dict.get?_set_self made label
    (files.set (fileName "certificate".toList "crt".toList) value.certificate))
  have hrun : (tmpStore.setitem label value).run disk = _ :=
    (Prog.bind_of_ok hmade).trans ((Prog.bind_of_ok hcrt).trans hkey)
  refine ⟨_, hrun, ⟨files, Dict.get?_set_self _ _ _⟩, fun other hother => ?_⟩
  rw [Dict.get?_set_of_ne _ _ hother, Dict.get?_set_of_ne _ _ hother, hothers other hother]

theorem tmpStore_getitem_run {label : Label} {disk : TmpDirectory} {files : Dict Text Text}
    {pem : Pem} (hfiles : disk.get? label = some files) (hpem : filesOf pem files) :
    (tmpStore.getitem label).run disk = (.ok pem, disk) := by
  have hread {name ext content : Text} (hcontent : files.get? (fileName name ext) = some content)
      (hclean : '\r' ∉ content) :
      (readFrom label name ext).run disk = (.ok content, disk) := by
    simp only [readFrom, hfiles, Option.bind_some, hcontent, universalNewlines_of_clean hclean]
  obtain ⟨hcrt, hkey, hclean⟩ := hpem
  exact (Prog.bind_of_ok (hread hcrt hclean.2)).trans
    ((Prog.bind_of_ok (hread hkey hclean.1)).trans rfl)

theorem tmpStore_refines : Refines tmpStore OnDisk := by
  refine ⟨fun label => ?_, fun label value hclean => ?_, fun label => ?_⟩
  · intro data disk h
    exact ⟨.ok (h.isSome label), h⟩
  · intro data disk h
    obtain ⟨disk', hrun, ⟨files, hfiles⟩, hothers⟩ := tmpStore_setitem_run label value disk
    rw [hrun]
    refine ⟨.ok rfl, fun other => ?_⟩
    show match (data.set label value).get? other, disk'.get? other with
      | some pem, some files => filesOf pem files
      | none, none => True
      | _, _ => False
    by_cases hother : other = label
    · subst hother
      rw [Dict.get?_set_self, hfiles]
      exact filesOf_saved hclean files
    · rw [Dict.get?_set_of_ne _ _ hother, hothers other hother]
      exact h other
  · intro data disk h
    have hlabel := h label
    cases hdata : data.get? label with
    | some pem =>
        cases hdisk : disk.get? label with
        | some files =>
            rw [hdata, hdisk] at hlabel
            rw [tmpStore_getitem_run hdisk hlabel]
            simp only [memoryStore, hdata]
            exact ⟨.ok rfl, h⟩
        | none => rw [hdata, hdisk] at hlabel; cases hlabel
    | none =>
        cases hdisk : disk.get? label with
        | some files => rw [hdata, hdisk] at hlabel; cases hlabel
        | none =>
            have hread : (readFrom label "certificate".toList "crt".toList).run disk =
                (.error (.other "FileNotFoundError"), disk) := by
              simp only [readFrom, hdisk, Option.bind_none]
            have hget : (tmpStore.getitem label).run disk =
                (.error (.other "FileNotFoundError"), disk) := Prog.bind_of_error hread
            rw [hget]
            simp only [memoryStore, hdata]
            exact ⟨.error (.missing _), h⟩

end ThreescaleTests.Certificates
