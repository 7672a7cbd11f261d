import ThreescaleTests.Library.Counting
import ThreescaleTests.Library.Run
import ThreescaleTests.Releases.DockerTags

/-!
# The next release

The script looks for the first revision of a version that is not released yet, and for the
first release candidate of it that does not exist. The branch that it makes is reviewed,
merged and tagged by others, in an order that nobody fixes, and a release is made of any
candidate. Counters tell all there is: how many releases a version has, and how many
candidates each revision.
-/

namespace ThreescaleTests.Releases

open Library

/-! ## The script -/

/-- The version, with a patch number if two numbers are given. -/
def withPatch (version : Text) : Text :=
  if (version.splitOn '.').length = 2 then version ++ ['.', '0'] else version

def releaseTag (version : Text) (revision : Nat) : Text :=
  'v' :: version ++ '.' :: decimal revision

def candidateTag (version : Text) (revision rc : Nat) : Text :=
  releaseTag version revision ++ 'r' :: 'c' :: decimal rc

def branchPrefix : Text := "3scale-tests-".toList

/-- What the script leaves behind: the line of `VERSION` and the name of the branch. -/
structure NextRelease where
  version : Text
  branch : Text
  deriving DecidableEq

def makeNextRelease (version : Text) (tags : List Text) : Option NextRelease := do
  let version := withPatch version
  let revision ← countWhile (fun n => decide (releaseTag version n ∈ tags)) (tags.length + 1) 1
  let rc ← countWhile (fun n => decide (candidateTag version revision n ∈ tags))
    (tags.length + 1) 1
  return ⟨version ++ '.' :: decimal revision, branchPrefix ++ candidateTag version revision rc⟩

/-! ## The workflows around it -/

def afterV : Text → Option Text
  | 'v' :: rest => some rest
  | _ => none

/-- What comes after the last `-v`, if there is one. -/
def afterDash : Text → Option Text
  | [] => none
  | c :: text => (afterDash text).or (if c = '-' then afterV text else none)

/-- `v${MSG##*-v}` -/
def preReleaseTag (message : Text) : Text := 'v' :: (afterDash message).getD message

/-- `${ref%%rc*}` -/
def beforeRc : Text → Text
  | [] => []
  | [c] => [c]
  | c :: d :: text => if c = 'r' ∧ d = 'c' then [] else c :: beforeRc (d :: text)

/-- A repository: its tags, the `VERSION` of its main branch, and the branches made so far. -/
structure Repository where
  tags : List Text
  version : Text
  branches : List NextRelease

inductive Act where
  /-- `make release`, with the numbers of a version or with none; that `env-version-check` refuses
  some of them is left out, so there are more runs -/
  | dispatch (numbers : List Nat)
  /-- The pull request is merged, and the pre-release created if there is none of that name. -/
  | preRelease (branch : NextRelease)
  /-- A release is made of a tag, if there is none of that name. -/
  | release (tag : Text)

def dotted (numbers : List Nat) : Text := joinFields '.' (numbers.map decimal)

/-- `make release` takes the first three numbers of `VERSION` if it is given none. -/
def givenVersion (repository : Repository) (numbers : List Nat) : Text :=
  if dotted numbers = [] then cutFields '.' 3 repository.version else dotted numbers

def addTag (tag : Text) (repository : Repository) : Repository :=
  if tag ∈ repository.tags then repository
  else { repository with tags := tag :: repository.tags }

def step : Act → Repository → Repository
  | .dispatch numbers, repository =>
      match makeNextRelease (givenVersion repository numbers) repository.tags with
      | some next => { repository with branches := next :: repository.branches }
      | none => repository
  | .preRelease branch, repository =>
      if branch ∈ repository.branches then
        addTag (preReleaseTag branch.branch) { repository with version := branch.version }
      else repository
  | .release tag, repository =>
      if tag ∈ repository.tags then addTag (beforeRc tag) repository else repository

/-! ## Names and numbers -/

/-- The numbers with a patch number, if they are two. -/
def patched (numbers : List Nat) : List Nat :=
  if numbers.length = 2 then numbers ++ [0] else numbers

theorem patched_ne_nil {numbers : List Nat} (h : numbers ≠ []) : patched numbers ≠ [] := by
  unfold patched
  split
  · exact List.append_ne_nil_of_left_ne_nil h [0]
  · exact h

theorem dotted_append {numbers others : List Nat} (h : numbers ≠ []) (h' : others ≠ []) :
    dotted (numbers ++ others) = dotted numbers ++ '.' :: dotted others := by
  rw [dotted, List.map_append, joinFields_append (by simpa using h) (by simpa using h')]
  rfl

theorem dotted_inj {numbers others : List Nat} (h : numbers ≠ []) (h' : others ≠ [])
    (heq : dotted numbers = dotted others) : numbers = others := by
  cases numbers with
  | nil => exact absurd rfl h
  | cons first numbers =>
      cases others with
      | nil => exact absurd rfl h'
      | cons other others =>
          have hread := congrArg (readFrom 0) heq
          rwa [dotted, readFrom_joinFields, dotted, readFrom_joinFields] at hread

theorem splitOn_dotted {numbers : List Nat} (h : numbers ≠ []) :
    (dotted numbers).splitOn '.' = numbers.map decimal := by
  induction numbers with
  | nil => exact absurd rfl h
  | cons first numbers ih =>
      have hdot := dot_not_mem_decimal first
      cases numbers with
      | nil => rw [dotted, List.map_singleton, joinFields, List.splitOn_eq_singleton hdot]
      | cons second numbers =>
          rw [dotted, List.map_cons, joinFields_cons (by simp),
            List.splitOn_append_cons_self_of_not_mem hdot, ← dotted, ih (by simp)]

theorem withPatch_dotted {numbers : List Nat} (h : numbers ≠ []) :
    withPatch (dotted numbers) = dotted (patched numbers) := by
  rw [withPatch, splitOn_dotted h, List.length_map, patched]
  split
  · rw [dotted_append h (by decide)]
    rfl
  · rfl

theorem releaseTag_dotted {numbers : List Nat} (h : numbers ≠ []) (revision : Nat) :
    releaseTag (dotted numbers) revision = 'v' :: dotted (numbers ++ [revision]) := by
  rw [releaseTag, dotted_append h (by simp)]
  rfl

theorem candidateTag_dotted {numbers : List Nat} (h : numbers ≠ []) (revision rc : Nat) :
    candidateTag (dotted numbers) revision rc =
      ('v' :: dotted (numbers ++ [revision])) ++ 'r' :: 'c' :: decimal rc := by
  rw [candidateTag, releaseTag_dotted h]

theorem not_mem_dotted (numbers : List Nat) {c : Char} (hdot : c ≠ '.')
    (hdigit : c.isDigit = false) : c ∉ dotted numbers :=
  not_mem_joinFields_decimal numbers hdot hdigit

theorem decimal_inj {m n : Nat} (h : decimal m = decimal n) : m = n := by
  have hread := congrArg (Nat.ofDigitChars 10 · 0) h
  simpa only [decimal, Nat.ofDigitChars_ten_toDigits] using hread

theorem releaseTag_inj {numbers others : List Nat} (h : numbers ≠ []) (h' : others ≠ [])
    {revision revision' : Nat}
    (heq : releaseTag (dotted numbers) revision = releaseTag (dotted others) revision') :
    numbers = others ∧ revision = revision' := by
  rw [releaseTag_dotted h, releaseTag_dotted h', List.cons.injEq] at heq
  have hall := dotted_inj (by simp) (by simp) heq.2
  have hsplit := List.append_inj' hall rfl
  exact ⟨hsplit.1, (List.cons.inj hsplit.2).1⟩

theorem r_not_mem_releaseTag {numbers : List Nat} (h : numbers ≠ []) (revision : Nat) :
    'r' ∉ releaseTag (dotted numbers) revision := by
  rw [releaseTag_dotted h, List.mem_cons, not_or]
  exact ⟨by decide, not_mem_dotted _ (by decide) (by decide)⟩

theorem candidateTag_inj {numbers others : List Nat} (h : numbers ≠ []) (h' : others ≠ [])
    {revision revision' rc rc' : Nat}
    (heq : candidateTag (dotted numbers) revision rc = candidateTag (dotted others) revision' rc') :
    numbers = others ∧ revision = revision' ∧ rc = rc' := by
  rw [candidateTag, candidateTag] at heq
  have hrc : 'r' ∉ 'c' :: decimal rc := by
    rw [List.mem_cons, not_or]
    exact ⟨by decide, fun hr => absurd (isDigit_of_mem_decimal hr) (by decide)⟩
  obtain ⟨hrelease, -, hnumber⟩ :=
    (List.append_cons_inj_of_notMem (r_not_mem_releaseTag h revision) hrc).mp heq
  obtain ⟨hnumbers, hrevision⟩ := releaseTag_inj h h' hrelease
  exact ⟨hnumbers, hrevision, decimal_inj (List.cons.inj hnumber).2⟩

theorem releaseTag_ne_candidateTag {numbers : List Nat} (h : numbers ≠ [])
    (revision : Nat) (version : Text) (revision' rc : Nat) :
    releaseTag (dotted numbers) revision ≠ candidateTag version revision' rc := by
  intro heq
  refine r_not_mem_releaseTag h revision ?_
  rw [heq, candidateTag]
  exact List.mem_append_right _ List.mem_cons_self

/-! ## What the workflows make of the names -/

theorem afterDash_eq_none {text : Text} (h : '-' ∉ text) : afterDash text = none := by
  induction text with
  | nil => rfl
  | cons c text ih =>
      rw [List.mem_cons, not_or] at h
      rw [afterDash, ih h.2, Option.none_or, if_neg (Ne.symm h.1)]

theorem afterDash_append {rest : Text} (h : '-' ∉ rest) (text : Text) :
    afterDash (text ++ '-' :: 'v' :: rest) = some rest := by
  induction text with
  | nil =>
      rw [List.nil_append, afterDash, afterDash, afterDash_eq_none h]
      rfl
  | cons c text ih => rw [List.cons_append, afterDash, ih, Option.some_or]

theorem dash_not_mem_candidateTag {numbers : List Nat} (h : numbers ≠ []) (revision rc : Nat) :
    '-' ∉ candidateTag (dotted numbers) revision rc := by
  rw [candidateTag_dotted h]
  simp only [List.cons_append, List.mem_cons, List.mem_append, not_or]
  exact ⟨by decide, not_mem_dotted _ (by decide) (by decide), by decide, by decide,
    fun hdash => absurd (isDigit_of_mem_decimal hdash) (by decide)⟩

/-- The tag of the pre-release is the one that the script made sure does not exist. -/
theorem preReleaseTag_branch {numbers : List Nat} (h : numbers ≠ []) (revision rc : Nat) :
    preReleaseTag (branchPrefix ++ candidateTag (dotted numbers) revision rc) =
      candidateTag (dotted numbers) revision rc := by
  have hdash := dash_not_mem_candidateTag h revision rc
  rw [candidateTag_dotted h, List.cons_append] at hdash ⊢
  rw [List.mem_cons, not_or] at hdash
  have hbranch : branchPrefix = "3scale-tests".toList ++ ['-'] := by decide +kernel
  have hafter := afterDash_append hdash.2 "3scale-tests".toList
  rw [preReleaseTag, hbranch, List.append_assoc, List.singleton_append, hafter, Option.getD_some]

theorem beforeRc_of_not_mem {text : Text} (h : 'r' ∉ text) (rest : Text) :
    beforeRc (text ++ 'r' :: 'c' :: rest) = text := by
  induction text with
  | nil => rfl
  | cons c text ih =>
      rw [List.mem_cons, not_or] at h
      cases text with
      | nil =>
          show (if c = 'r' ∧ 'r' = 'c' then [] else _) = _
          rw [if_neg (fun hc => h.1 hc.1.symm)]
          rfl
      | cons d text =>
          show (if c = 'r' ∧ d = 'c' then [] else _) = _
          rw [if_neg (fun hc => h.1 hc.1.symm)]
          exact congrArg _ (ih h.2)

theorem beforeRc_eq_self {text : Text} (h : 'r' ∉ text) : beforeRc text = text := by
  induction text with
  | nil => rfl
  | cons c text ih =>
      rw [List.mem_cons, not_or] at h
      cases text with
      | nil => rfl
      | cons d text =>
          rw [beforeRc, if_neg (fun hc => h.1 hc.1.symm), ih h.2]

theorem beforeRc_candidateTag {numbers : List Nat} (h : numbers ≠ []) (revision rc : Nat) :
    beforeRc (candidateTag (dotted numbers) revision rc) = releaseTag (dotted numbers) revision :=
  beforeRc_of_not_mem (r_not_mem_releaseTag h revision) (decimal rc)

/-! ## Counters -/

/-- How many releases a version has, and how many candidates a revision of it. -/
structure Counters where
  released : List Nat → Nat
  candidates : List Nat → Nat → Nat

namespace Counters

/-- The branch is the next one of its version, or was it once. -/
def Proposed (counters : Counters) (branch : NextRelease) : Prop :=
  ∃ numbers revision rc, numbers ≠ [] ∧
    branch = ⟨dotted (numbers ++ [revision]),
      branchPrefix ++ candidateTag (dotted numbers) revision rc⟩ ∧
    1 ≤ revision ∧ revision ≤ counters.released numbers + 1 ∧
    1 ≤ rc ∧ rc ≤ counters.candidates numbers revision + 1

def withRelease (counters : Counters) (numbers : List Nat) : Counters :=
  { counters with
    released := fun n => if n = numbers then counters.released n + 1 else counters.released n }

def withCandidate (counters : Counters) (numbers : List Nat) (revision : Nat) : Counters :=
  { counters with
    candidates := fun n r =>
      if n = numbers ∧ r = revision then counters.candidates n r + 1
      else counters.candidates n r }

theorem released_le_withRelease (counters : Counters) (numbers n : List Nat) :
    counters.released n ≤ (counters.withRelease numbers).released n := by
  rw [withRelease]
  dsimp only
  split <;> omega

theorem candidates_le_withCandidate (counters : Counters) (numbers n : List Nat)
    (revision r : Nat) :
    counters.candidates n r ≤ (counters.withCandidate numbers revision).candidates n r := by
  rw [withCandidate]
  dsimp only
  split <;> omega

theorem Proposed.mono {counters later : Counters} {branch : NextRelease}
    (hreleased : ∀ n, counters.released n ≤ later.released n)
    (hcandidates : ∀ n r, counters.candidates n r ≤ later.candidates n r)
    (h : counters.Proposed branch) : later.Proposed branch := by
  obtain ⟨numbers, revision, rc, hne, hbranch, hrevision, hnext, hrc, hlast⟩ := h
  have hr := hreleased numbers
  have hc := hcandidates numbers revision
  exact ⟨numbers, revision, rc, hne, hbranch, hrevision, by omega, hrc, by omega⟩

end Counters

/-- The tags are exactly those that are counted, and a candidate is of a released revision or
of the next one. -/
structure Counts (counters : Counters) (repository : Repository) : Prop where
  release_mem : ∀ numbers, numbers ≠ [] → ∀ revision,
    releaseTag (dotted numbers) revision ∈ repository.tags ↔
      1 ≤ revision ∧ revision ≤ counters.released numbers
  candidate_mem : ∀ numbers, numbers ≠ [] → ∀ revision rc,
    candidateTag (dotted numbers) revision rc ∈ repository.tags ↔
      1 ≤ rc ∧ rc ≤ counters.candidates numbers revision
  named : ∀ tag ∈ repository.tags, ∃ numbers revision, numbers ≠ [] ∧
    (tag = releaseTag (dotted numbers) revision ∨
      ∃ rc, tag = candidateTag (dotted numbers) revision rc)
  candidates_next : ∀ numbers revision, 1 ≤ counters.candidates numbers revision →
    1 ≤ revision ∧ revision ≤ counters.released numbers + 1
  candidates_pos : ∀ numbers revision, 1 ≤ revision → revision ≤ counters.released numbers →
    1 ≤ counters.candidates numbers revision
  version : ∃ numbers, numbers ≠ [] ∧ repository.version = dotted numbers
  branches : ∀ branch ∈ repository.branches, counters.Proposed branch

section

variable {counters : Counters} {repository : Repository}

/-- The script proposes what is counted next. -/
theorem Counts.makeNextRelease (h : Counts counters repository) {numbers : List Nat}
    (hnumbers : numbers ≠ []) :
    makeNextRelease (dotted numbers) repository.tags =
      some ⟨dotted (patched numbers ++ [counters.released (patched numbers) + 1]),
        branchPrefix ++ candidateTag (dotted (patched numbers))
          (counters.released (patched numbers) + 1)
          (counters.candidates (patched numbers)
            (counters.released (patched numbers) + 1) + 1)⟩ := by
  have hne := patched_ne_nil hnumbers
  have hreleases : Function.Injective (releaseTag (dotted (patched numbers))) :=
    fun m n heq => (releaseTag_inj hne hne heq).2
  obtain ⟨revision, hrevision⟩ :=
    exists_countWhile hreleases (fun k (hk : decide (_ ∈ repository.tags) = true) =>
      of_decide_eq_true hk) 1
  have hnext : revision = counters.released (patched numbers) + 1 := by
    refine countWhile_eq hrevision (by omega) ?_ fun k hk hlt => ?_
    · rw [decide_eq_false_iff_not, h.release_mem _ hne]
      omega
    · rw [decide_eq_true_eq, h.release_mem _ hne]
      omega
  have hcandidates : Function.Injective (candidateTag (dotted (patched numbers)) revision) :=
    fun m n heq => (candidateTag_inj hne hne heq).2.2
  obtain ⟨rc, hrc⟩ :=
    exists_countWhile hcandidates (fun k (hk : decide (_ ∈ repository.tags) = true) =>
      of_decide_eq_true hk) 1
  have hlast : rc = counters.candidates (patched numbers) revision + 1 := by
    refine countWhile_eq hrc (by omega) ?_ fun k hk hlt => ?_
    · rw [decide_eq_false_iff_not, h.candidate_mem _ hne]
      omega
    · rw [decide_eq_true_eq, h.candidate_mem _ hne]
      omega
  rw [Releases.makeNextRelease, withPatch_dotted hnumbers]
  simp only [hrevision, hrc, Option.bind_eq_bind, Option.bind_some, Option.pure_def]
  rw [hlast, hnext, dotted_append hne (by simp)]
  rfl

/-- A release of a revision that has a candidate is counted. -/
theorem Counts.addRelease (h : Counts counters repository) {numbers : List Nat}
    (hnumbers : numbers ≠ []) {revision : Nat}
    (hcandidate : 1 ≤ counters.candidates numbers revision) :
    ∃ later, Counts later (addTag (releaseTag (dotted numbers) revision) repository) := by
  unfold addTag
  split
  · exact ⟨counters, h⟩
  · rename_i hnew
    obtain ⟨hpos, hle⟩ := h.candidates_next numbers revision hcandidate
    rw [h.release_mem numbers hnumbers] at hnew
    have hrevision : revision = counters.released numbers + 1 := by omega
    refine ⟨counters.withRelease numbers, fun n hn r => ?_, fun n hn r rc => ?_,
      fun tag htag => ?_, fun n r hr => ?_, fun n r hr hle => ?_, h.version, fun b hb => ?_⟩
    · rw [List.mem_cons, h.release_mem n hn, Counters.withRelease]
      dsimp only
      constructor
      · rintro (heq | hcounted)
        · obtain ⟨rfl, rfl⟩ := releaseTag_inj hn hnumbers heq
          rw [if_pos rfl]
          omega
        · split <;> omega
      · intro hcounted
        by_cases hsame : n = numbers
        · subst hsame
          rw [if_pos rfl] at hcounted
          by_cases hr : r = revision
          · exact .inl (hr ▸ rfl)
          · exact .inr (by omega)
        · rw [if_neg hsame] at hcounted
          exact .inr hcounted
    · rw [List.mem_cons, h.candidate_mem n hn]
      exact or_iff_right (releaseTag_ne_candidateTag hnumbers revision (dotted n) r rc).symm
    · rcases List.mem_cons.mp htag with rfl | hold
      · exact ⟨numbers, revision, hnumbers, .inl rfl⟩
      · exact h.named tag hold
    · have hnext := h.candidates_next n r hr
      have hmono := counters.released_le_withRelease numbers n
      omega
    · rw [Counters.withRelease] at hle
      dsimp only at hle
      by_cases hsame : n = numbers
      · subst hsame
        rw [if_pos rfl] at hle
        by_cases hlast : r = revision
        · exact hlast ▸ hcandidate
        · exact h.candidates_pos n r hr (by omega)
      · rw [if_neg hsame] at hle
        exact h.candidates_pos n r hr hle
    · exact (h.branches b hb).mono (counters.released_le_withRelease numbers)
        fun n r => Nat.le_refl (counters.candidates n r)

/-- A candidate that was proposed is counted. -/
theorem Counts.addCandidate (h : Counts counters repository) {numbers : List Nat}
    (hnumbers : numbers ≠ []) {revision rc : Nat} (hrevision : 1 ≤ revision)
    (hnext : revision ≤ counters.released numbers + 1) (hrc : 1 ≤ rc)
    (hlast : rc ≤ counters.candidates numbers revision + 1) :
    ∃ later, Counts later (addTag (candidateTag (dotted numbers) revision rc) repository) := by
  unfold addTag
  split
  · exact ⟨counters, h⟩
  · rename_i hnew
    rw [h.candidate_mem numbers hnumbers] at hnew
    have hcount : rc = counters.candidates numbers revision + 1 := by omega
    refine ⟨counters.withCandidate numbers revision, fun n hn r => ?_, fun n hn r c => ?_,
      fun tag htag => ?_, fun n r hr => ?_, fun n r hr hle => ?_, h.version, fun b hb => ?_⟩
    · rw [List.mem_cons, h.release_mem n hn]
      exact or_iff_right (releaseTag_ne_candidateTag hn r (dotted numbers) revision rc)
    · rw [List.mem_cons, h.candidate_mem n hn, Counters.withCandidate]
      dsimp only
      constructor
      · rintro (heq | hcounted)
        · obtain ⟨rfl, rfl, rfl⟩ := candidateTag_inj hn hnumbers heq
          rw [if_pos ⟨rfl, rfl⟩]
          omega
        · split <;> omega
      · intro hcounted
        by_cases hsame : n = numbers ∧ r = revision
        · obtain ⟨rfl, rfl⟩ := hsame
          rw [if_pos ⟨rfl, rfl⟩] at hcounted
          by_cases hc : c = rc
          · exact .inl (hc ▸ rfl)
          · exact .inr (by omega)
        · rw [if_neg hsame] at hcounted
          exact .inr hcounted
    · rcases List.mem_cons.mp htag with rfl | hold
      · exact ⟨numbers, revision, hnumbers, .inr ⟨rc, rfl⟩⟩
      · exact h.named tag hold
    · rw [Counters.withCandidate] at hr
      dsimp only at hr
      by_cases hsame : n = numbers ∧ r = revision
      · obtain ⟨rfl, rfl⟩ := hsame
        exact ⟨hrevision, hnext⟩
      · rw [if_neg hsame] at hr
        exact h.candidates_next n r hr
    · have hpos := h.candidates_pos n r hr hle
      have hmono := counters.candidates_le_withCandidate numbers n revision r
      omega
    · exact (h.branches b hb).mono (fun n => Nat.le_refl (counters.released n))
        fun n r => counters.candidates_le_withCandidate numbers n revision r

end

/-! ## Runs -/

theorem cutFields_dotted (numbers : List Nat) :
    cutFields '.' 3 (dotted numbers) = dotted (numbers.take 3) := by
  have hfields : ∀ field ∈ numbers.map decimal, '.' ∉ field := by
    intro field hfield
    obtain ⟨n, -, rfl⟩ := List.mem_map.mp hfield
    exact dot_not_mem_decimal n
  rw [dotted, cutFields_joinFields hfields, ← List.map_take, dotted]

theorem dotted_eq_nil_iff {numbers : List Nat} : dotted numbers = [] ↔ numbers = [] := by
  constructor
  · intro h
    cases numbers with
    | nil => rfl
    | cons first numbers =>
        rw [dotted, List.map_cons] at h
        exact absurd h (joinFields_ne_nil Nat.toDigits_ne_nil _)
  · rintro rfl
    rfl

/-- Whatever `make release` is given, it looks for a release of some numbers. -/
theorem Counts.givenVersion {counters : Counters} {repository : Repository}
    (h : Counts counters repository) (given : List Nat) :
    ∃ numbers, numbers ≠ [] ∧ givenVersion repository given = dotted numbers := by
  unfold Releases.givenVersion
  split
  · obtain ⟨numbers, hne, hversion⟩ := h.version
    refine ⟨numbers.take 3, ?_, by rw [hversion, cutFields_dotted]⟩
    rw [ne_eq, List.take_eq_nil_iff, not_or]
    exact ⟨by decide, hne⟩
  · rename_i hgiven
    exact ⟨given, fun hnil => hgiven (dotted_eq_nil_iff.mpr hnil), rfl⟩

theorem counts_step (act : Act) {repository : Repository}
    (h : ∃ counters, Counts counters repository) :
    ∃ counters, Counts counters (step act repository) := by
  obtain ⟨counters, h⟩ := h
  cases act with
  | dispatch given =>
      obtain ⟨numbers, hne, hgiven⟩ := h.givenVersion given
      rw [step, hgiven, h.makeNextRelease hne]
      refine ⟨counters, h.release_mem, h.candidate_mem, h.named, h.candidates_next,
        h.candidates_pos, h.version, fun branch hbranch => ?_⟩
      rcases List.mem_cons.mp hbranch with rfl | hold
      · exact ⟨patched numbers, _, _, patched_ne_nil hne, rfl, by omega, Nat.le_refl _, by omega,
          Nat.le_refl _⟩
      · exact h.branches branch hold
  | preRelease branch =>
      rw [step]
      split
      · rename_i hbranch
        obtain ⟨numbers, revision, rc, hne, rfl, hrevision, hnext, hrc, hlast⟩ :=
          h.branches branch hbranch
        have hmerged : Counts counters
            { repository with version := dotted (numbers ++ [revision]) } :=
          ⟨h.release_mem, h.candidate_mem, h.named, h.candidates_next, h.candidates_pos,
            ⟨numbers ++ [revision], by simp, rfl⟩, h.branches⟩
        rw [preReleaseTag_branch hne]
        exact hmerged.addCandidate hne hrevision hnext hrc hlast
      · exact ⟨counters, h⟩
  | release tag =>
      rw [step]
      split
      · rename_i htag
        obtain ⟨numbers, revision, hne, rfl | ⟨rc, rfl⟩⟩ := h.named tag htag
        · -- The tag of a release is its own.
          rw [beforeRc_eq_self (r_not_mem_releaseTag hne revision), addTag, if_pos htag]
          exact ⟨counters, h⟩
        · rw [beforeRc_candidateTag hne]
          have hcandidate := (h.candidate_mem numbers hne revision rc).mp htag
          exact h.addRelease hne (by omega)
      · exact ⟨counters, h⟩

/-- A repository before its first release. -/
def unreleased (numbers : List Nat) : Repository := ⟨[], dotted numbers, []⟩

theorem counts_unreleased {numbers : List Nat} (h : numbers ≠ []) :
    Counts ⟨fun _ => 0, fun _ _ => 0⟩ (unreleased numbers) := by
  have hnone (k : Nat) : ¬ (1 ≤ k ∧ k ≤ 0) := by omega
  refine ⟨fun _ _ revision => ?_, fun _ _ _ rc => ?_, fun tag htag => ?_, fun _ _ hpos => ?_,
    fun _ revision hpos hle => ?_, ⟨numbers, h, rfl⟩, fun branch hbranch => ?_⟩
  · exact iff_of_false (List.not_mem_nil) (hnone revision)
  · exact iff_of_false (List.not_mem_nil) (hnone rc)
  · cases htag
  · exact absurd hpos (Nat.not_succ_le_zero 0)
  · exact absurd ⟨hpos, hle⟩ (hnone revision)
  · cases hbranch

/-- Whatever is dispatched, merged and released in whatever order, the script proposes for a
version the revision after all its releases, which are without gaps, and the candidate after
all of that revision; no candidate of the version is of a later revision, and each release
has a candidate. -/
theorem next_release_of_run (acts : List Act) {first numbers : List Nat} (hfirst : first ≠ [])
    (hnumbers : numbers ≠ []) :
    let tags := (run step acts (unreleased first)).tags
    let version := dotted (patched numbers)
    ∃ revision rc,
      makeNextRelease (dotted numbers) tags =
        some ⟨dotted (patched numbers ++ [revision]),
          branchPrefix ++ candidateTag version revision rc⟩ ∧
      (∀ r, releaseTag version r ∈ tags ↔ 1 ≤ r ∧ r < revision) ∧
      (∀ c, candidateTag version revision c ∈ tags ↔ 1 ≤ c ∧ c < rc) ∧
      (∀ r c, candidateTag version r c ∈ tags → r ≤ revision) ∧
      ∀ r, releaseTag version r ∈ tags → candidateTag version r 1 ∈ tags := by
  obtain ⟨counters, h⟩ :=
    run_invariant counts_step acts ⟨_, counts_unreleased hfirst⟩
  have hne := patched_ne_nil hnumbers
  refine ⟨_, _, h.makeNextRelease hnumbers, fun r => ?_, fun c => ?_, fun r c hc => ?_,
    fun r hr => ?_⟩
  · rw [h.release_mem _ hne]
    omega
  · rw [h.candidate_mem _ hne]
    omega
  · rw [h.candidate_mem _ hne] at hc
    exact (h.candidates_next _ r (by omega)).2
  · rw [h.release_mem _ hne] at hr
    rw [h.candidate_mem _ hne]
    exact ⟨Nat.le_refl 1, h.candidates_pos _ r hr.1 hr.2⟩

/-- A candidate and its release, and another candidate -/
theorem next_release_of_short_run :
    ∃ revision, ∀ r, releaseTag (dotted [2, 14, 0]) r ∈
        (run step [.dispatch [2, 14, 0], .preRelease ⟨"2.14.0.1".toList,
            "3scale-tests-v2.14.0.1rc1".toList⟩, .release "v2.14.0.1rc1".toList, .dispatch []]
          (unreleased [2, 13, 0])).tags ↔ 1 ≤ r ∧ r < revision := by
  obtain ⟨revision, -, -, h, -⟩ := @next_release_of_run
    [.dispatch [2, 14, 0], .preRelease ⟨"2.14.0.1".toList, "3scale-tests-v2.14.0.1rc1".toList⟩,
      .release "v2.14.0.1rc1".toList, .dispatch []] [2, 13, 0] [2, 14, 0] (by decide) (by decide)
  exact ⟨revision, h⟩

example : (run step [.dispatch [2, 14, 0], .preRelease ⟨"2.14.0.1".toList,
      "3scale-tests-v2.14.0.1rc1".toList⟩, .release "v2.14.0.1rc1".toList, .dispatch []]
    (unreleased [2, 13, 0])).branches.map NextRelease.branch =
      ["3scale-tests-v2.14.0.2rc1".toList, "3scale-tests-v2.14.0.1rc1".toList] := by
  decide +kernel

end ThreescaleTests.Releases
