import ThreescaleTests.Library.Prog
import ThreescaleTests.Library.Run

/-!
# Temporary files of certificates

A certificate is written to files of a temporary directory, which is made when it is
first needed. `delete_files` looks at the files that were asked for, not at the
directory, and so leaves the directory of a certificate that was only persisted or
unpickled.
-/

namespace ThreescaleTests.Certificates

open Library

/-! ## The disk -/

/-- A directory, with the number of the object that made it. -/
structure Directory where
  creator : Nat
  files : Dict String String
deriving DecidableEq

/-- The temporary directories, and the next one that `mkdtemp` makes. -/
structure Disk where
  dirs : Dict Nat Directory
  next : Nat
deriving DecidableEq

/-- `os.path.join(directory, name)` -/
structure Path where
  dir : Nat
  name : String
deriving DecidableEq

namespace Disk

def read? (disk : Disk) (path : Path) : Option String :=
  (disk.dirs.get? path.dir).bind fun directory => directory.files.get? path.name

def put (dir : Nat) (directory : Directory) (disk : Disk) : Disk :=
  { disk with dirs := disk.dirs.set dir directory }

def grow (creator : Nat) (disk : Disk) : Disk :=
  ⟨disk.dirs.set disk.next ⟨creator, Dict.empty⟩, disk.next + 1⟩

def mkdtemp (creator : Nat) : Prog Disk Nat := ⟨fun disk => (.ok disk.next, disk.grow creator)⟩

/-- `open(path, "w")` and `file.write(text)` -/
def write (path : Path) (text : String) : Prog Disk Unit :=
  ⟨fun disk =>
    match disk.dirs.get? path.dir with
    | none => (.error (.other "FileNotFoundError"), disk)
    | some directory => (.ok (), disk.put path.dir
        { directory with files := directory.files.set path.name text })⟩

def rmtree (dir : Nat) : Prog Disk Unit :=
  ⟨fun disk =>
    match disk.dirs.get? dir with
    | none => (.error (.other "FileNotFoundError"), disk)
    | some _ => (.ok (), { disk with dirs := disk.dirs.erase dir })⟩

end Disk

/-! ## Certificates -/

structure Certificate where
  key : String
  certificate : String
  files : Option (Dict String Path)
  dir : Option Nat
deriving DecidableEq

/-- `__init__` -/
def Certificate.new (key certificate : String) : Certificate := ⟨key, certificate, none, none⟩

def Certificate.withDir (self : Certificate) (dir : Nat) : Certificate :=
  { self with dir := some dir }

def Certificate.hasFiles (self : Certificate) : Bool :=
  match self.files with
  | none => false
  | some files => !files.items.isEmpty

structure Held where
  self : Certificate
  disk : Disk

def onDisk {α : Type} (m : Prog Disk α) : Prog Held α :=
  Prog.focus Held.disk (fun disk held => { held with disk := disk }) m

variable (me : Nat)

def directory : Prog Held Nat := do
  let dir ← Prog.gets fun held => held.self.dir
  match dir with
  | some dir => pure dir
  | none => do
      let dir ← onDisk (Disk.mkdtemp me)
      Prog.modify fun held => { held with self := held.self.withDir dir }
      pure dir

def persistFrom : List (String × String) → Dict String Path → Prog Held (Dict String Path)
  | [], files => pure files
  | (name, text) :: contents, files => do
      let dir ← directory me
      onDisk (Disk.write ⟨dir, name⟩ text)
      persistFrom contents (files.set name ⟨dir, name⟩)

def Certificate.contents (self : Certificate) : List (String × String) :=
  [("key", self.key), ("certificate", self.certificate)]

def persist : Prog Held (Dict String Path) := do
  let contents ← Prog.gets fun held => held.self.contents
  persistFrom me contents Dict.empty

def files : Prog Held (Dict String Path) := do
  let self ← Prog.gets Held.self
  if self.hasFiles then pure (self.files.getD Dict.empty)
  else do
    let saved ← persist me
    Prog.modify fun held => { held with self := { held.self with files := some saved } }
    pure saved

def deleteFiles : Prog Held Unit := do
  let self ← Prog.gets Held.self
  if self.hasFiles then
    match self.dir with
    | none => Prog.lift (.error .typeError)
    | some dir => do
        onDisk (Disk.rmtree dir)
        Prog.modify fun held => { held with self := { held.self with files := none, dir := none } }
  else pure ()

/-- `__setstate__` of an object that is being unpickled. -/
def setstate (state : String × String) : Prog Held Unit := do
  Prog.modify fun held => { held with self := Certificate.new state.1 state.2 }
  let _ ← persist me
  pure ()

/-! ## Lives of certificates -/

/-- The objects by their numbers, what was pickled, and the disk. -/
structure World where
  objects : List Certificate
  pickles : List (String × String)
  disk : Disk

inductive Op where
  | new (key certificate : String)
  | persist (i : Nat)
  | files (i : Nat)
  | pickle (i : Nat)
  | unpickle (j : Nat)
  | deleteFiles (i : Nat)
deriving DecidableEq

def call {α : Type} (i : Nat) (m : Prog Held α) (w : World) : World :=
  match w.objects[i]? with
  | none => w
  | some self =>
      let held := (m.run ⟨self, w.disk⟩).2
      { w with objects := w.objects.set i held.self, disk := held.disk }

def step : Op → World → World
  | .new key certificate, w => { w with objects := w.objects ++ [Certificate.new key certificate] }
  | .persist i, w => call i (persist i) w
  | .files i, w => call i (files i) w
  | .pickle i, w =>
      match w.objects[i]? with
      | none => w
      | some self => { w with pickles := w.pickles ++ [(self.key, self.certificate)] }
  | .unpickle j, w =>
      match w.pickles[j]? with
      | none => w
      | some state =>
          call w.objects.length (setstate w.objects.length state)
            { w with objects := w.objects ++ [Certificate.new "" ""] }
  | .deleteFiles i, w => call i deleteFiles w

def init : World := ⟨[], [], ⟨Dict.empty, 0⟩⟩

/-! ## Whose directory is whose -/

/-- The entries of the dictionary are paths into the directory, where the contents are. -/
def SavedIn (dir : Nat) (contents : List (String × String)) (files : Dict String Path)
    (disk : Disk) : Prop :=
  ∀ entry ∈ contents, files.get? entry.1 = some ⟨dir, entry.1⟩ ∧
    disk.read? ⟨dir, entry.1⟩ = some entry.2

/-- The one directory that an object has made and not deleted is the one it knows, and there are the
files it remembers. -/
structure Fit (held : Held) : Prop where
  below : ∀ d directory, held.disk.dirs.get? d = some directory → d < held.disk.next
  known : ∀ d, held.self.dir = some d →
    ∃ directory, held.disk.dirs.get? d = some directory ∧ directory.creator = me
  only : ∀ d directory, held.disk.dirs.get? d = some directory → directory.creator = me →
    held.self.dir = some d
  saved : ∀ files, held.self.files = some files →
    ∃ d, held.self.dir = some d ∧ SavedIn d held.self.contents files held.disk

/-- The directories of other objects are left alone. -/
def Frame (disk disk' : Disk) : Prop :=
  ∀ d directory, directory.creator ≠ me →
    (disk'.dirs.get? d = some directory ↔ disk.dirs.get? d = some directory)

/-! ## What the methods do -/

variable {me}

theorem onDisk_run {α : Type} {m : Prog Disk α} {r : Except Exn α} {held : Held} {disk : Disk}
    (h : m.run held.disk = (r, disk)) :
    (onDisk m).run held = (r, { held with disk := disk }) := by
  rw [onDisk, Prog.focus_run, h]

theorem write_run (path : Path) {disk : Disk} {directory : Directory}
    (h : disk.dirs.get? path.dir = some directory) (text : String) :
    (Disk.write path text).run disk = (.ok (), disk.put path.dir
      { directory with files := directory.files.set path.name text }) := by
  simp only [Disk.write, h]

theorem directory_run_of_some {held : Held} {d : Nat} (h : held.self.dir = some d) :
    (directory me).run held = (.ok d, held) := by
  rw [directory, Prog.gets_bind_run, h]
  rfl

theorem directory_run_of_none {held : Held} (h : held.self.dir = none) :
    (directory me).run held =
      (.ok held.disk.next, ⟨held.self.withDir held.disk.next, held.disk.grow me⟩) := by
  rw [directory, Prog.gets_bind_run, h]
  rfl

def pathsIn (dir : Nat) (contents : List (String × String)) : List (String × Path) :=
  contents.map fun entry => (entry.1, ⟨dir, entry.1⟩)

/-- The files are written one after the other into the directory that is there. -/
theorem persistFrom_run (me : Nat) (contents : List (String × String)) (files : Dict String Path)
    {held : Held} {d : Nat} {directory : Directory} (hdir : held.self.dir = some d)
    (hdirectory : held.disk.dirs.get? d = some directory) :
    ∃ disk, (persistFrom me contents files).run held =
        (.ok (files.update (pathsIn d contents)), ⟨held.self, disk⟩) ∧
      disk.next = held.disk.next ∧
      disk.dirs.get? d = some { directory with files := directory.files.update contents } ∧
      ∀ d', d' ≠ d → disk.dirs.get? d' = held.disk.dirs.get? d' := by
  induction contents generalizing files held directory with
  | nil => exact ⟨held.disk, rfl, rfl, hdirectory, fun _ _ => rfl⟩
  | cons entry contents ih =>
      obtain ⟨name, text⟩ := entry
      have hwrite := onDisk_run (write_run ⟨d, name⟩ hdirectory text)
      obtain ⟨disk, hrun, hnext, hmine, hothers⟩ := @ih (files.set name ⟨d, name⟩)
        ⟨held.self, held.disk.put d { directory with files := directory.files.set name text }⟩
        { directory with files := directory.files.set name text } hdir (Dict.get?_set_self _ d _)
      refine ⟨disk, ?_, hnext, hmine, ?_⟩
      · rw [persistFrom, Prog.bind_of_ok (directory_run_of_some hdir), Prog.bind_of_ok hwrite]
        exact hrun
      · intro d' hd'
        rw [hothers d' hd']
        exact Dict.get?_set_of_ne _ _ hd'

theorem persistFrom_run_of_none (me : Nat) (entry : String × String)
    (contents : List (String × String)) (files : Dict String Path) {held : Held}
    (h : held.self.dir = none) :
    (persistFrom me (entry :: contents) files).run held =
      (persistFrom me (entry :: contents) files).run
        ⟨held.self.withDir held.disk.next, held.disk.grow me⟩ := by
  have hdir : (⟨held.self.withDir held.disk.next, held.disk.grow me⟩ : Held).self.dir =
      some held.disk.next := rfl
  rw [persistFrom, Prog.bind_of_ok (directory_run_of_none h),
    Prog.bind_of_ok (directory_run_of_some hdir)]

variable (me) in
/-- The contents are saved to the directory that the object knows, or to a new one. -/
structure Saves (held : Held) (d : Nat) (files : Dict String Path) (disk : Disk) : Prop where
  place : held.self.dir = some d ∨ held.self.dir = none ∧ d = held.disk.next
  next : held.disk.next ≤ disk.next
  below : d < disk.next
  mine : ∃ directory, disk.dirs.get? d = some directory ∧ directory.creator = me
  others : ∀ d', d' ≠ d → disk.dirs.get? d' = held.disk.dirs.get? d'
  saved : SavedIn d held.self.contents files disk

theorem savedIn_update {contents : List (String × String)} {d : Nat} {disk : Disk}
    {directory : Directory} (hnames : (contents.map Prod.fst).Nodup)
    (h : disk.dirs.get? d =
      some { directory with files := directory.files.update contents }) :
    SavedIn d contents (Dict.empty.update (pathsIn d contents)) disk := by
  intro entry hentry
  constructor
  · have hpaths : ((pathsIn d contents).map Prod.fst).Nodup := by
      rwa [pathsIn, List.map_map]
    exact Dict.get?_update_of_mem hpaths (List.mem_map.mpr ⟨entry, hentry, rfl⟩) _
  · rw [Disk.read?, h]
    exact Dict.get?_update_of_mem hnames hentry _

theorem withDir_eq_self {self : Certificate} {d : Nat} (h : self.dir = some d) :
    self.withDir d = self := by
  rw [Certificate.withDir, ← h]

theorem persist_run {held : Held} (h : Fit me held) : ∃ d files disk,
    (persist me).run held = (.ok files, ⟨held.self.withDir d, disk⟩) ∧
      Saves me held d files disk := by
  have hnames : (held.self.contents.map Prod.fst).Nodup := by simp [Certificate.contents]
  have hcontents : (Prog.gets fun held : Held => held.self.contents).run held =
      (.ok held.self.contents, held) := rfl
  rw [persist, Prog.bind_of_ok hcontents]
  cases hdir : held.self.dir with
  | some d =>
      obtain ⟨directory, hdirectory, hcreator⟩ := h.known d hdir
      obtain ⟨disk, hrun, hnext, hmine, hothers⟩ :=
        persistFrom_run me held.self.contents Dict.empty hdir hdirectory
      rw [← withDir_eq_self hdir] at hrun
      refine ⟨d, _, disk, hrun, Or.inl hdir, Nat.le_of_eq hnext.symm, ?_, ⟨_, hmine, hcreator⟩,
        hothers, savedIn_update hnames hmine⟩
      rw [hnext]
      exact h.below d directory hdirectory
  | none =>
      have hmine : (held.disk.grow me).dirs.get? held.disk.next = some ⟨me, Dict.empty⟩ :=
        Dict.get?_set_self _ _ _
      have hmake := persistFrom_run_of_none me ("key", held.self.key)
        [("certificate", held.self.certificate)] Dict.empty hdir
      obtain ⟨disk, hrun, hnext, hsaved, hothers⟩ :=
        @persistFrom_run me held.self.contents Dict.empty
          ⟨held.self.withDir held.disk.next, held.disk.grow me⟩ _ _ rfl hmine
      refine ⟨held.disk.next, _, disk, hmake.trans hrun, Or.inr ⟨hdir, rfl⟩, ?_, ?_,
        ⟨_, hsaved, rfl⟩, ?_, savedIn_update hnames hsaved⟩
      · rw [hnext]
        exact Nat.le_succ _
      · rw [hnext]
        exact Nat.lt_succ_self _
      · intro d' hd'
        rw [hothers d' hd']
        exact Dict.get?_set_of_ne _ _ hd'

/-- Saving keeps everything in order. -/
theorem Saves.fit {held : Held} {d : Nat} {files : Dict String Path} {disk : Disk}
    (hs : Saves me held d files disk) (h : Fit me held) :
    Fit me ⟨held.self.withDir d, disk⟩ := by
  constructor
  · intro d' directory hget
    by_cases heq : d' = d
    · exact heq ▸ hs.below
    · have hold := hs.others d' heq ▸ hget
      exact Nat.lt_of_lt_of_le (h.below d' directory hold) hs.next
  · intro d' hd'
    cases hd'
    exact hs.mine
  · intro d' directory hget hcreator
    by_cases heq : d' = d
    · rw [heq]
      rfl
    · have hold := hs.others d' heq ▸ hget
      have hdir := h.only d' directory hold hcreator
      rcases hs.place with hplace | ⟨hnone, -⟩
      · cases hdir.symm.trans hplace
        exact absurd rfl heq
      · cases hdir.symm.trans hnone
  · intro files' hfiles'
    obtain ⟨d', hdir, hsaved⟩ := h.saved files' hfiles'
    rcases hs.place with hplace | ⟨hnone, -⟩
    · cases hdir.symm.trans hplace
      exact ⟨d, rfl, fun entry hentry => ⟨(hsaved entry hentry).1, (hs.saved entry hentry).2⟩⟩
    · cases hdir.symm.trans hnone

theorem Saves.frame {held : Held} {d : Nat} {files : Dict String Path} {disk : Disk}
    (hs : Saves me held d files disk) (h : Fit me held) : Frame me held.disk disk := by
  intro d' directory hcreator
  by_cases heq : d' = d
  · subst heq
    obtain ⟨mine, hmine, hcreated⟩ := hs.mine
    have hnew : disk.dirs.get? d' ≠ some directory := by
      intro hget
      cases hmine.symm.trans hget
      exact hcreator hcreated
    have hold : held.disk.dirs.get? d' ≠ some directory := by
      intro hget
      rcases hs.place with hplace | ⟨-, hfresh⟩
      · obtain ⟨known, hknown, hcreated⟩ := h.known d' hplace
        cases hknown.symm.trans hget
        exact hcreator hcreated
      · exact Nat.lt_irrefl _ (hfresh ▸ h.below d' directory hget)
    exact iff_of_false hnew hold
  · rw [hs.others d' heq]

/-- A method keeps its object in order and leaves the directories of others alone. -/
structure Keeps (me : Nat) (held held' : Held) : Prop where
  fit : Fit me held'
  frame : Frame me held.disk held'.disk

theorem persist_keeps {held : Held} (h : Fit me held) :
    Keeps me held ((persist me).run held).2 := by
  obtain ⟨d, files, disk, hrun, hsaves⟩ := persist_run h
  rw [hrun]
  exact ⟨hsaves.fit h, hsaves.frame h⟩

/-- The files are those that were asked for before, or they are saved now. -/
theorem files_run {held : Held} (h : Fit me held) : ∃ d paths held',
    (files me).run held = (.ok paths, held') ∧ held'.self.contents = held.self.contents ∧
      SavedIn d held.self.contents paths held'.disk ∧ Keeps me held held' := by
  rw [files, Prog.gets_bind_run]
  cases hfiles : held.self.hasFiles with
  | true =>
      cases hsome : held.self.files with
      | none =>
          rw [Certificate.hasFiles, hsome] at hfiles
          cases hfiles
      | some paths =>
          obtain ⟨d, -, hsaved⟩ := h.saved paths hsome
          exact ⟨d, paths, held, rfl, rfl, hsaved, h, fun _ _ _ => Iff.rfl⟩
  | false =>
      obtain ⟨d, paths, disk, hrun, hsaves⟩ := persist_run h
      have hfit := hsaves.fit h
      rw [if_neg (by simp), Prog.bind_of_ok hrun]
      refine ⟨d, paths, _, rfl, rfl, hsaves.saved, ⟨hfit.below, hfit.known, hfit.only, ?_⟩,
        hsaves.frame h⟩
      intro paths' hpaths'
      cases hpaths'
      exact ⟨d, rfl, hsaves.saved⟩

/-- Nothing is left that the object has made. -/
def NothingLeft (me : Nat) (disk : Disk) : Prop :=
  ∀ d directory, disk.dirs.get? d = some directory → directory.creator ≠ me

theorem nothingLeft_iff {held : Held} (h : Fit me held) :
    NothingLeft me held.disk ↔ held.self.dir = none := by
  constructor
  · intro hnothing
    cases hdir : held.self.dir with
    | none => rfl
    | some d =>
        obtain ⟨directory, hdirectory, hcreator⟩ := h.known d hdir
        exact absurd hcreator (hnothing d directory hdirectory)
  · intro hnone d directory hdirectory hcreator
    cases hnone.symm.trans (h.only d directory hdirectory hcreator)

theorem erase_keeps {held : Held} {d : Nat} (h : Fit me held) (hdir : held.self.dir = some d) :
    Keeps me held ⟨{ held.self with files := none, dir := none },
      { held.disk with dirs := held.disk.dirs.erase d }⟩ := by
  have hold : ∀ d' directory, (held.disk.dirs.erase d).get? d' = some directory →
      d' ≠ d ∧ held.disk.dirs.get? d' = some directory := by
    intro d' directory hget
    rw [Dict.get?_erase] at hget
    by_cases heq : d' = d
    · rw [if_pos heq] at hget
      cases hget
    · rw [if_neg heq] at hget
      exact ⟨heq, hget⟩
  refine ⟨⟨?_, ?_, ?_, ?_⟩, ?_⟩
  · intro d' directory hget
    exact h.below d' directory (hold d' directory hget).2
  · intro d' hd'
    cases hd'
  · intro d' directory hget hcreator
    obtain ⟨hne, hget⟩ := hold d' directory hget
    cases hdir.symm.trans (h.only d' directory hget hcreator)
    exact absurd rfl hne
  · intro paths hpaths
    cases hpaths
  · intro d' directory hcreator
    obtain ⟨known, hknown, hmine⟩ := h.known d hdir
    constructor
    · exact fun hget => (hold d' directory hget).2
    · intro hget
      have hne : d' ≠ d := by
        rintro rfl
        cases hknown.symm.trans hget
        exact hcreator hmine
      rw [Dict.get?_erase, if_neg hne]
      exact hget

/-- The directory is deleted if the files were asked for, and stays otherwise. -/
theorem deleteFiles_run {held : Held} (h : Fit me held) : ∃ held',
    deleteFiles.run held = (.ok (), held') ∧ Keeps me held held' ∧
      (held'.self.dir = none ↔ held.self.hasFiles = true ∨ held.self.dir = none) := by
  rw [deleteFiles, Prog.gets_bind_run]
  cases hfiles : held.self.hasFiles with
  | false => exact ⟨held, rfl, ⟨h, fun _ _ _ => Iff.rfl⟩, by simp⟩
  | true =>
      cases hsome : held.self.files with
      | none =>
          rw [Certificate.hasFiles, hsome] at hfiles
          cases hfiles
      | some paths =>
          obtain ⟨d, hdir, -⟩ := h.saved paths hsome
          obtain ⟨directory, hdirectory, hcreator⟩ := h.known d hdir
          have hrmtree : (Disk.rmtree d).run held.disk =
              (.ok (), { held.disk with dirs := held.disk.dirs.erase d }) := by
            simp only [Disk.rmtree, hdirectory]
          rw [if_pos rfl, hdir]
          simp only
          rw [Prog.bind_of_ok (onDisk_run hrmtree)]
          exact ⟨_, rfl, erase_keeps h hdir, by simp⟩

/-- What is unpickled is saved at once. -/
theorem setstate_keeps {held : Held} (state : String × String)
    (h : Fit me ⟨Certificate.new state.1 state.2, held.disk⟩) :
    Keeps me held ((setstate me state).run held).2 := by
  have hinit : (Prog.modify fun held : Held =>
      { held with self := Certificate.new state.1 state.2 }).run held =
        (.ok (), ⟨Certificate.new state.1 state.2, held.disk⟩) := rfl
  have hkeeps := persist_keeps h
  rw [setstate, Prog.bind_of_ok hinit, Prog.bind_pure_run_snd]
  exact ⟨hkeeps.fit, hkeeps.frame⟩

/-! ## Every run -/

/-- Every object is in order, and every directory was made by an object that is there. -/
structure World.Fit (w : World) : Prop where
  below : ∀ d directory, w.disk.dirs.get? d = some directory → d < w.disk.next
  creator : ∀ d directory, w.disk.dirs.get? d = some directory →
    directory.creator < w.objects.length
  objects : ∀ i self, w.objects[i]? = some self → Certificates.Fit i ⟨self, w.disk⟩

theorem Fit.of_frame {j : Nat} {self : Certificate} {disk disk' : Disk} {me : Nat}
    (h : Fit j ⟨self, disk⟩) (hne : j ≠ me) (hframe : Frame me disk disk')
    (hbelow : ∀ d directory, disk'.dirs.get? d = some directory → d < disk'.next) :
    Fit j ⟨self, disk'⟩ := by
  have hsame : ∀ d directory, directory.creator = j →
      (disk'.dirs.get? d = some directory ↔ disk.dirs.get? d = some directory) :=
    fun d directory hcreator => hframe d directory (hcreator ▸ hne)
  constructor
  · exact hbelow
  · intro d hdir
    obtain ⟨directory, hdirectory, hcreator⟩ := h.known d hdir
    exact ⟨directory, (hsame d directory hcreator).mpr hdirectory, hcreator⟩
  · intro d directory hdirectory hcreator
    exact h.only d directory ((hsame d directory hcreator).mp hdirectory) hcreator
  · intro files hfiles
    obtain ⟨d, hdir, hsaved⟩ := h.saved files hfiles
    obtain ⟨directory, hdirectory, hcreator⟩ := h.known d hdir
    refine ⟨d, hdir, fun entry hentry => ⟨(hsaved entry hentry).1, ?_⟩⟩
    have hread := (hsaved entry hentry).2
    rw [Disk.read?, hdirectory] at hread
    rw [Disk.read?, (hsame d directory hcreator).mpr hdirectory]
    exact hread

theorem World.Fit.update {w : World} (h : w.Fit) {i : Nat} {self : Certificate}
    (hself : w.objects[i]? = some self) {held : Held} (hkeeps : Keeps i ⟨self, w.disk⟩ held) :
    World.Fit { w with objects := w.objects.set i held.self, disk := held.disk } := by
  have hlt : i < w.objects.length := (List.getElem?_eq_some_iff.mp hself).choose
  constructor
  · exact hkeeps.fit.below
  · intro d directory hget
    rw [List.length_set]
    by_cases hcreator : directory.creator = i
    · exact hcreator ▸ hlt
    · exact h.creator d directory ((hkeeps.frame d directory hcreator).mp hget)
  · intro j other hother
    by_cases heq : j = i
    · subst heq
      rw [List.getElem?_set_self hlt] at hother
      cases hother
      exact hkeeps.fit
    · rw [List.getElem?_set_ne (Ne.symm heq)] at hother
      exact (h.objects j other hother).of_frame heq hkeeps.frame hkeeps.fit.below

/-- No directory was made by an object that is new. -/
theorem World.Fit.new {w : World} (h : w.Fit) (key certificate : String) :
    Certificates.Fit w.objects.length ⟨Certificate.new key certificate, w.disk⟩ := by
  constructor
  · exact h.below
  · intro d hdir
    cases hdir
  · intro d directory hget hcreator
    exact absurd (h.creator d directory hget) (hcreator ▸ Nat.lt_irrefl _)
  · intro files hfiles
    cases hfiles

theorem World.Fit.append {w : World} (h : w.Fit) (key certificate : String) :
    World.Fit { w with objects := w.objects ++ [Certificate.new key certificate] } := by
  constructor
  · exact h.below
  · intro d directory hget
    rw [List.length_append]
    exact Nat.lt_add_right _ (h.creator d directory hget)
  · intro i self hself
    by_cases hlt : i < w.objects.length
    · rw [List.getElem?_append_left hlt] at hself
      exact h.objects i self hself
    · obtain ⟨hle, hget⟩ := List.getElem?_eq_some_iff.mp hself
      rw [List.length_append, List.length_singleton] at hle
      have heq : i = w.objects.length := by omega
      subst heq
      rw [List.getElem?_concat_length] at hself
      cases hself
      exact h.new key certificate

theorem call_fit {α : Type} {w : World} (h : w.Fit) {i : Nat} {m : Prog Held α}
    (hm : ∀ held, Fit i held → Keeps i held (m.run held).2) : (call i m w).Fit := by
  rw [call]
  cases hself : w.objects[i]? with
  | none => exact h
  | some self => exact h.update hself (hm _ (h.objects i self hself))

theorem init_fit : init.Fit := by
  constructor
  · intro d directory hget
    cases hget
  · intro d directory hget
    cases hget
  · intro i self hself
    cases hself

theorem step_fit (op : Op) (w : World) (h : w.Fit) : (step op w).Fit := by
  cases op with
  | new key certificate => exact h.append key certificate
  | persist i => exact call_fit h fun held hheld => persist_keeps hheld
  | files i =>
      refine call_fit h fun held hheld => ?_
      obtain ⟨d, paths, held', hrun, -, -, hkeeps⟩ := files_run hheld
      rw [hrun]
      exact hkeeps
  | pickle i =>
      rw [step]
      cases w.objects[i]? with
      | none => exact h
      | some self => exact ⟨h.below, h.creator, h.objects⟩
  | unpickle j =>
      rw [step]
      cases w.pickles[j]? with
      | none => exact h
      | some state =>
          have hget : (w.objects ++ [Certificate.new "" ""])[w.objects.length]? =
              some (Certificate.new "" "") := List.getElem?_concat_length
          simp only [call, hget]
          exact (h.append "" "").update hget (setstate_keeps state (h.new state.1 state.2))
  | deleteFiles i =>
      refine call_fit h fun held hheld => ?_
      obtain ⟨held', hrun, hkeeps, -⟩ := deleteFiles_run hheld
      rw [hrun]
      exact hkeeps

/-! ## What is left, and what is found -/

/-- The files hold the contents. -/
def Holds (self : Certificate) (files : Dict String Path) (disk : Disk) : Prop :=
  ∀ entry ∈ self.contents, ∃ path, files.get? entry.1 = some path ∧ disk.read? path = some entry.2

/-- The files that are asked for hold the contents, and a deletion leaves nothing behind. -/
def LeavesNoKey : Op → World → Prop
  | .files i, w => ∀ self, w.objects[i]? = some self → ∃ paths held,
      (files i).run ⟨self, w.disk⟩ = (.ok paths, held) ∧ Holds held.self paths held.disk
  | .deleteFiles i, w => ∀ self, w.objects[i]? = some self →
      NothingLeft i (step (.deleteFiles i) w).disk
  | _, _ => True

/-- Files are deleted after they were asked for, or without a directory to delete. -/
def DeletesAsked : Op → World → Prop
  | .deleteFiles i, w => ∀ self, w.objects[i]? = some self →
      self.hasFiles = true ∨ self.dir = none
  | _, _ => True

theorem leavesNoKey_iff {w : World} (h : w.Fit) (op : Op) :
    LeavesNoKey op w ↔ DeletesAsked op w := by
  cases op with
  | files i =>
      refine iff_of_true ?_ trivial
      intro self hself
      obtain ⟨d, paths, held, hrun, hcontents, hsaved, -⟩ := files_run (h.objects i self hself)
      refine ⟨paths, held, hrun, ?_⟩
      rw [Holds, hcontents]
      exact fun entry hentry => ⟨_, hsaved entry hentry⟩
  | deleteFiles i =>
      have hself : ∀ self, w.objects[i]? = some self →
          (NothingLeft i (step (.deleteFiles i) w).disk ↔
            self.hasFiles = true ∨ self.dir = none) := by
        intro self hself
        obtain ⟨held, hrun, hkeeps, hdir⟩ := deleteFiles_run (h.objects i self hself)
        rw [← hdir, ← nothingLeft_iff hkeeps.fit, step, call]
        simp only [hself, hrun]
      exact forall₂_congr hself
  | _ => exact Iff.rfl

/-- In every run the deletions leave nothing behind, and the files hold the contents, exactly if
every deletion is of files that were asked for or of none. -/
theorem leavesNoKey_run_iff (ops : List Op) :
    EveryStep step LeavesNoKey ops init ↔ EveryStep step DeletesAsked ops init :=
  everyStep_iff (fun op _ h => leavesNoKey_iff h op) (fun op w _ h => step_fit op w h) init_fit

/-! ## A certificate that nobody asked for -/

/-- An unpickled certificate, and one that is persisted, leave their keys behind. -/
theorem key_left :
    ¬ EveryStep step LeavesNoKey
      [.new "k" "c", .pickle 0, .unpickle 0, .deleteFiles 1] init ∧
    ¬ EveryStep step LeavesNoKey [.new "k" "c", .persist 0, .deleteFiles 0] init := by
  constructor
  · intro h
    have hnothing := h.2.2.2.1 ⟨"k", "c", none, some 0⟩ rfl
    exact hnothing 0 ⟨1, _⟩ rfl rfl
  · intro h
    have hnothing := h.2.2.1 ⟨"k", "c", none, some 0⟩ rfl
    exact hnothing 0 ⟨0, _⟩ rfl rfl

end ThreescaleTests.Certificates
