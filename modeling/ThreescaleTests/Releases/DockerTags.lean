import Mathlib.Data.List.Lex
import ThreescaleTests.Library.Grep
import ThreescaleTests.Library.Sorting

/-!
# Tags of container images

A release is tagged with its version, with the first components of it as long as it is
the greatest of the releases that share them, and as the latest if it is the greatest
of all. The script finds the releases that share components by patterns that are not
anchored, and knows the version by one, so that releases whose tags only look alike get
in each other's way.
-/

namespace ThreescaleTests.Releases

open Library

/-! ## Releases -/

/-- A version, with its numbers. -/
structure Release (num : Nat) where
  numbers : List Nat
  length_numbers : numbers.length = num

def decimal (n : Nat) : Text := Nat.toDigits 10 n

/-- The first components, with a `v` before them. -/
def Release.leading {num : Nat} (release : Release num) (k : Nat) : Text :=
  'v' :: joinFields '.' ((release.numbers.take k).map decimal)

def Release.text {num : Nat} (release : Release num) : Text :=
  'v' :: joinFields '.' (release.numbers.map decimal)

/-- What is tagged in git: a release, or a candidate for one. -/
inductive Tag (num : Nat) where
  | release (release : Release num)
  | candidate (release : Release num) (number : Nat)

namespace Tag

variable {num : Nat}

def text : Tag num → Text
  | release r => r.text
  | candidate r number => r.text ++ 'r' :: 'c' :: decimal number

def release? : Tag num → Option (Release num)
  | release r => some r
  | candidate _ _ => none

end Tag

def releases {num : Nat} (tags : List (Tag num)) : List (Release num) :=
  tags.filterMap Tag.release?

/-! ## The script -/

variable (sortV : List Text → List Text)

/-- `echo "$versions"|grep -v rc|…|sort -V|tail -1|grep -q ^$version`, with the lines that come
through the command in the middle. -/
def lastMatches (keep : Text → Bool) (version : Text) (versions : List Text) : Bool :=
  match (sortV ((versions.filter fun line => !matchesLine ['r', 'c'] line).filter keep)).getLast?
    with
  | none => false
  | some line => matchesStart version line

def named (image tag : Text) : Text := image ++ ':' :: tag

/-- `semver_docker_tags`, with the names that it prints. -/
def semverDockerTags (image version : Text) (versions : List Text) : Nat → List Text
  | 0 =>
      if matchesLine ['r', 'c'] version then [named image version]
      else if lastMatches sortV (fun _ => true) version versions then
        [named image "latest".toList]
      else []
  | next + 1 =>
      if matchesLine ['r', 'c'] version then [named image version]
      else if lastMatches sortV (matchesLine (cutFields '.' (next + 1) version)) version
          versions then
        named image (cutFields '.' (next + 1) version) ::
          semverDockerTags image version versions next
      else []

/-- `sort -V` orders releases by their components, as numbers. -/
def SortsVersions : Prop :=
  ∀ (num : Nat) (rs : List (Release num)), ∃ sorted : List (Release num),
    sortV (rs.map Release.text) = sorted.map Release.text ∧ sorted.Perm rs ∧
      sorted.Pairwise fun r r' => r.numbers ≤ r'.numbers

section

variable {num : Nat} (tags : List (Tag num)) (version : Release num)

/-- No release that shares the first components is greater. -/
def Greatest (k : Nat) : Prop :=
  ∀ r ∈ releases tags, r.numbers.take k = version.numbers.take k → r.numbers ≤ version.numbers

/-- The name for the first components is printed exactly if the version is the greatest of those
that share them, the latest exactly if it is the greatest of all, and nothing else. -/
def PrintsRight (image : Text) : Prop :=
  ∀ name, name ∈ semverDockerTags sortV image version.text (tags.map Tag.text) num ↔
    (∃ k, 1 ≤ k ∧ k ≤ num ∧ Greatest tags version k ∧ name = named image (version.leading k)) ∨
      (Greatest tags version 0 ∧ name = named image "latest".toList)

/-! ## Releases that look alike -/

/-- The tag of the release starts with the text, where a dot is any character. -/
def LooksLike (text : Text) (r : Release num) : Prop := matchesStart text r.text = true

/-- A release that shares the first components is greater. -/
def Overtaken (k : Nat) : Prop :=
  ∃ r ∈ releases tags, r.numbers.take k = version.numbers.take k ∧
    version.numbers < r.numbers

/-- A release that looks like the first components is greater than all that look like the
version. -/
def OvertakenInLooks (k : Nat) : Prop :=
  ∃ r ∈ releases tags, LooksLike (version.leading k) r ∧
    ∀ other ∈ releases tags, LooksLike version.text other → other.numbers < r.numbers

end

/-! ## The texts of the tags -/

theorem isDigit_of_mem_decimal {n : Nat} {c : Char} (h : c ∈ decimal n) : c.isDigit = true :=
  Nat.isDigit_of_mem_toDigits (by decide) (by decide) h

section

variable {num : Nat}

theorem not_mem_joinFields_decimal (numbers : List Nat) {c : Char} (hdot : c ≠ '.')
    (hdigit : c.isDigit = false) : c ∉ joinFields '.' (numbers.map decimal) := by
  intro h
  rcases mem_joinFields h with hc | ⟨field, hfield, hc⟩
  · exact hdot hc
  · obtain ⟨n, -, rfl⟩ := List.mem_map.mp hfield
    rw [isDigit_of_mem_decimal hc] at hdigit
    cases hdigit

theorem leading_isPrefix (version : Release num) {k k' : Nat} (h : k ≤ k') :
    version.leading k <+: version.leading k' := by
  have htake : version.numbers.take k <+: version.numbers.take k' :=
    List.take_prefix_take_left h
  exact List.cons_prefix_cons.mpr ⟨rfl, joinFields_isPrefix (htake.map decimal)⟩

theorem leading_num (version : Release num) : version.leading num = version.text := by
  rw [Release.leading, Release.text, List.take_of_length_le version.length_numbers.le]

theorem cutFields_text (version : Release num) (k : Nat) :
    cutFields '.' (k + 1) version.text = version.leading (k + 1) := by
  have hfields : ∀ field ∈ version.numbers.map decimal, '.' ∉ field := by
    intro field hfield hdot
    obtain ⟨n, -, rfl⟩ := List.mem_map.mp hfield
    exact absurd (isDigit_of_mem_decimal hdot) (by decide)
  rw [Release.text, cutFields, if_neg (by decide), cutFields_joinFields hfields,
    ← List.map_take]
  rfl

/-- A pattern that starts as tags do matches them from their start or not at all. -/
theorem matchesLine_leading (version r : Release num) (k : Nat) :
    matchesLine (version.leading k) r.text = matchesStart (version.leading k) r.text :=
  matchesLine_cons _ (by decide) (not_mem_joinFields_decimal r.numbers (by decide) (by decide))

theorem matchesLine_rc_text (r : Release num) : matchesLine ['r', 'c'] r.text = false := by
  refine matchesLine_eq_false ['c'] (by decide) ?_
  rw [Release.text, List.mem_cons, not_or]
  exact ⟨by decide, not_mem_joinFields_decimal r.numbers (by decide) (by decide)⟩

/-- `grep -v rc` leaves the releases. -/
theorem filter_rc (tags : List (Tag num)) :
    ((tags.map Tag.text).filter fun line => !matchesLine ['r', 'c'] line) =
      (releases tags).map Release.text := by
  induction tags with
  | nil => rfl
  | cons tag tags ih =>
      cases tag with
      | release r =>
          have hkeep : (!matchesLine ['r', 'c'] (Tag.release r).text) = true := by
            rw [Tag.text, matchesLine_rc_text]
            rfl
          rw [List.map_cons, List.filter_cons, if_pos hkeep, ih]
          rfl
      | candidate r number =>
          have hdrop : ¬ (!matchesLine ['r', 'c'] (Tag.candidate r number).text) = true := by
            rw [Tag.text, matchesLine_of_infix ⟨r.text, decimal number, by simp⟩]
            decide
          rw [List.map_cons, List.filter_cons, if_neg hdrop, ih]
          rfl

/-! ## The last of those that match -/

variable {sortV} {tags : List (Tag num)} {version : Release num}

theorem mem_releases {r : Release num} : r ∈ releases tags ↔ Tag.release r ∈ tags := by
  rw [releases, List.mem_filterMap]
  constructor
  · intro h
    obtain ⟨tag, htag, hr⟩ := h
    cases tag with
    | release r' =>
        cases hr
        exact htag
    | candidate r' number => cases hr
  · intro h
    exact ⟨_, h, rfl⟩

theorem looksLike_self (version : Release num) : LooksLike version.text version := by
  have h := matchesStart_append version.text []
  rwa [List.append_nil] at h

theorem looksLike_leading {k k' : Nat} (h : k ≤ k') {r : Release num}
    (hlooks : LooksLike (version.leading k') r) : LooksLike (version.leading k) r :=
  matchesStart_of_longer (leading_isPrefix version h) hlooks

theorem looksLike_leading_of_text {k : Nat} {r : Release num} (h : LooksLike version.text r) :
    LooksLike (version.leading k) r := by
  rw [← leading_num] at h
  rcases Nat.le_total k num with hle | hle
  · exact looksLike_leading hle h
  · have hall : version.leading k = version.leading num := by
      rw [Release.leading, Release.leading,
        List.take_of_length_le (version.length_numbers.le.trans hle),
        List.take_of_length_le version.length_numbers.le]
    rwa [hall]

/-- The release that is last looks like the version exactly if none is greater than those that
do. -/
theorem lastMatches_iff (hsort : SortsVersions sortV) (hmem : Tag.release version ∈ tags) {k : Nat}
    {keep : Text → Bool}
    (hkeep : ∀ r : Release num, keep r.text = true ↔ LooksLike (version.leading k) r) :
    lastMatches sortV keep version.text (tags.map Tag.text) = true ↔
      ¬ OvertakenInLooks tags version k := by
  obtain ⟨sorted, hlines, hperm, hsorted⟩ := hsort num
    ((releases tags).filter (keep ∘ Release.text))
  have hin : ∀ r, r ∈ sorted ↔ r ∈ releases tags ∧ LooksLike (version.leading k) r := by
    intro r
    rw [hperm.mem_iff, List.mem_filter, Function.comp_apply, hkeep]
  have hversion : version ∈ sorted :=
    (hin version).mpr ⟨mem_releases.mpr hmem, looksLike_leading_of_text (looksLike_self version)⟩
  obtain ⟨last, hlast⟩ : ∃ last, sorted.getLast? = some last :=
    ⟨_, List.getLast?_eq_some_getLast (List.ne_nil_of_mem hversion)⟩
  have hgreatest : ∀ r ∈ sorted, r.numbers ≤ last.numbers := by
    intro r hr
    rcases getLast?_last hsorted hlast hr with rfl | hle
    · exact le_refl _
    · exact hle
  have hlastIn := (hin last).mp (List.mem_of_getLast? hlast)
  rw [lastMatches, filter_rc, List.filter_map, hlines, List.getLast?_map, hlast]
  constructor
  · intro hlooks hovertaken
    obtain ⟨r, hr, hleading, hgreater⟩ := hovertaken
    have hlt := hgreater last hlastIn.1 hlooks
    exact absurd (hgreatest r ((hin r).mpr ⟨hr, hleading⟩)) (not_le.mpr hlt)
  · intro hnone
    by_contra hlooks
    refine hnone ⟨last, hlastIn.1, hlastIn.2, fun other hother hlike => ?_⟩
    have hle := hgreatest other ((hin other).mpr ⟨hother, looksLike_leading_of_text hlike⟩)
    refine lt_of_le_of_ne hle fun heq => hlooks ?_
    have hsame : other = last := by
      cases other
      cases last
      cases heq
      rfl
    exact hsame ▸ hlike

/-! ## What is printed -/

/-- The tag for the first components, and the latest for none of them. -/
def Release.tagFor (version : Release num) : Nat → Text
  | 0 => "latest".toList
  | k + 1 => version.leading (k + 1)

theorem tagFor_zero (version : Release num) : version.tagFor 0 = "latest".toList := rfl

theorem tagFor_succ (version : Release num) (k : Nat) :
    version.tagFor (k + 1) = version.leading (k + 1) := rfl

theorem OvertakenInLooks.fewer {k k' : Nat} (hle : k ≤ k')
    (h : OvertakenInLooks tags version k') : OvertakenInLooks tags version k := by
  obtain ⟨r, hr, hleading, hgreater⟩ := h
  exact ⟨r, hr, looksLike_leading hle hleading, hgreater⟩

theorem mem_semverDockerTags_iff (hsort : SortsVersions sortV) (hmem : Tag.release version ∈ tags)
    (image name : Text) (n : Nat) :
    name ∈ semverDockerTags sortV image version.text (tags.map Tag.text) n ↔
      ∃ k ≤ n, ¬ OvertakenInLooks tags version k ∧ name = named image (version.tagFor k) := by
  have hrc : ¬ matchesLine ['r', 'c'] version.text = true := by
    rw [matchesLine_rc_text]
    decide
  induction n with
  | zero =>
      have hall : ∀ r : Release num, true = true ↔ LooksLike (version.leading 0) r := by
        intro r
        simp [LooksLike, Release.leading, Release.text, matchesStart, joinFields]
      have hlast : lastMatches sortV (fun _ => true) version.text (tags.map Tag.text) = true ↔
          ¬ OvertakenInLooks tags version 0 := lastMatches_iff hsort hmem hall
      rw [semverDockerTags, if_neg hrc]
      by_cases hovertaken : OvertakenInLooks tags version 0
      · rw [if_neg (fun h => hlast.mp h hovertaken)]
        simp [hovertaken]
      · rw [if_pos (hlast.mpr hovertaken)]
        simp [hovertaken, tagFor_zero]
  | succ n ih =>
      have hline : ∀ r : Release num,
          matchesLine (cutFields '.' (n + 1) version.text) r.text = true ↔
            LooksLike (version.leading (n + 1)) r := by
        intro r
        rw [cutFields_text, matchesLine_leading, LooksLike]
      have hlast := lastMatches_iff hsort hmem hline
      rw [semverDockerTags, if_neg hrc]
      by_cases hovertaken : OvertakenInLooks tags version (n + 1)
      · rw [if_neg (fun h => hlast.mp h hovertaken)]
        constructor
        · intro h
          cases h
        · intro h
          obtain ⟨k, hk, hnot, -⟩ := h
          exact absurd (hovertaken.fewer hk) hnot
      · rw [if_pos (hlast.mpr hovertaken), List.mem_cons, cutFields_text]
        constructor
        · intro h
          rcases h with hname | hrest
          · exact ⟨n + 1, Nat.le_refl _, hovertaken, hname⟩
          · obtain ⟨k, hk, hnot, hname⟩ := ih.mp hrest
            exact ⟨k, Nat.le_succ_of_le hk, hnot, hname⟩
        · intro h
          obtain ⟨k, hk, hnot, hname⟩ := h
          rcases Nat.le_succ_iff.mp hk with hle | rfl
          · exact Or.inr (ih.mpr ⟨k, hle, hnot, hname⟩)
          · exact Or.inl hname

theorem length_leading_lt (version : Release num) {k k' : Nat} (hk : 0 < k) (hlt : k < k')
    (hle : k' ≤ num) : (version.leading k).length < (version.leading k').length := by
  have hfields : k' ≤ (version.numbers.map decimal).length := by
    rw [List.length_map, version.length_numbers]
    exact hle
  have hjoin := length_joinFields_take_lt (d := '.') hk hlt hfields
  rw [Release.leading, Release.leading, List.map_take, List.map_take]
  exact Nat.succ_lt_succ hjoin

theorem tagFor_inj (version : Release num) {k k' : Nat} (hk : k ≤ num) (hk' : k' ≤ num)
    (h : version.tagFor k = version.tagFor k') : k = k' := by
  cases k with
  | zero =>
      cases k' with
      | zero => rfl
      | succ k' => simp [tagFor_zero, tagFor_succ, Release.leading] at h
  | succ k =>
      cases k' with
      | zero => simp [tagFor_zero, tagFor_succ, Release.leading] at h
      | succ k' =>
          have hlength := congrArg List.length h
          rcases Nat.lt_trichotomy (k + 1) (k' + 1) with hlt | heq | hlt
          · have hless := length_leading_lt version (Nat.succ_pos k) hlt hk'
            exact absurd hlength hless.ne
          · exact heq
          · have hless := length_leading_lt version (Nat.succ_pos k') hlt hk
            exact absurd hlength hless.ne'

theorem greatest_iff (k : Nat) : Greatest tags version k ↔ ¬ Overtaken tags version k := by
  simp only [Greatest, Overtaken, not_exists, not_and, not_lt]

theorem exists_tagFor_iff (version : Release num) (image name : Text) (P : Nat → Prop) :
    (∃ k ≤ num, P k ∧ name = named image (version.tagFor k)) ↔
      (∃ k, 1 ≤ k ∧ k ≤ num ∧ P k ∧ name = named image (version.leading k)) ∨
        (P 0 ∧ name = named image "latest".toList) := by
  constructor
  · intro h
    obtain ⟨k, hk, hP, hname⟩ := h
    cases k with
    | zero => exact Or.inr ⟨hP, hname⟩
    | succ k => exact Or.inl ⟨k + 1, Nat.le_add_left 1 k, hk, hP, hname⟩
  · intro h
    rcases h with ⟨k, hpos, hk, hP, hname⟩ | ⟨hP, hname⟩
    · cases k with
      | zero => exact absurd hpos (Nat.not_succ_le_zero 0)
      | succ k => exact ⟨k + 1, hk, hP, hname⟩
    · exact ⟨0, Nat.zero_le num, hP, hname⟩

/-- The names tell the numbers of components apart. -/
theorem tagFor_mem_iff (version : Release num) (image : Text) (P : Nat → Prop) {k : Nat}
    (hk : k ≤ num) :
    (∃ k' ≤ num, P k' ∧ named image (version.tagFor k) = named image (version.tagFor k')) ↔
      P k := by
  constructor
  · intro h
    obtain ⟨k', hk', hP, hname⟩ := h
    have htag : version.tagFor k = version.tagFor k' :=
      (List.cons.inj (List.append_cancel_left hname)).2
    rwa [tagFor_inj version hk hk' htag]
  · intro hP
    exact ⟨k, hk, hP, rfl⟩

/-- The tags are right exactly if, for each number of components, a release that shares them is
greater when one that looks like them is greater than all that look like the version. -/
theorem printsRight_iff (hsort : SortsVersions sortV) (hmem : Tag.release version ∈ tags)
    (image : Text) :
    PrintsRight sortV tags version image ↔
      ∀ k ≤ num, Overtaken tags version k ↔ OvertakenInLooks tags version k := by
  have hnames : ∀ name, name ∈ semverDockerTags sortV image version.text (tags.map Tag.text) num ↔
      ∃ k ≤ num, ¬ OvertakenInLooks tags version k ∧ name = named image (version.tagFor k) :=
    fun name => mem_semverDockerTags_iff hsort hmem image name num
  simp only [PrintsRight, greatest_iff, hnames, ← exists_tagFor_iff version image _
    (fun k => ¬ Overtaken tags version k)]
  constructor
  · intro h k hk
    have hname := h (named image (version.tagFor k))
    rw [tagFor_mem_iff version image _ hk, tagFor_mem_iff version image _ hk] at hname
    exact (not_iff_not.mp hname).symm
  · intro h name
    refine exists_congr fun k => and_congr_right fun hk => ?_
    rw [h k hk]

/-! ## Versions that look alike -/

/-- The numbers of a line, with the one that has begun. -/
def readFrom : Nat → Text → List Nat
  | n, [] => [n]
  | n, c :: line => if c = '.' then n :: readFrom 0 line
    else readFrom (10 * n + (c.toNat - '0'.toNat)) line

def readNumbers : Text → List Nat
  | _ :: c :: line => readFrom 0 (c :: line)
  | _ => []

/-- Lines in the order of their numbers. -/
def byNumbers (lines : List Text) : List Text := sortedBy readNumbers lines

theorem readFrom_append {field : Text} (h : '.' ∉ field) (n : Nat) (rest : Text) :
    readFrom n (field ++ rest) = readFrom (Nat.ofDigitChars 10 field n) rest := by
  induction field generalizing n with
  | nil => rw [List.nil_append, Nat.ofDigitChars_nil]
  | cons c field ih =>
      rw [List.mem_cons, not_or] at h
      rw [List.cons_append, readFrom, if_neg (Ne.symm h.1), ih h.2, Nat.ofDigitChars_cons]

theorem dot_not_mem_decimal (n : Nat) : '.' ∉ decimal n := by
  intro hdot
  exact absurd (isDigit_of_mem_decimal hdot) (by decide)

theorem readFrom_joinFields (first : Nat) (numbers : List Nat) :
    readFrom 0 (joinFields '.' ((first :: numbers).map decimal)) = first :: numbers := by
  induction numbers generalizing first with
  | nil =>
      have hread := readFrom_append (dot_not_mem_decimal first) 0 []
      rw [List.append_nil, decimal, Nat.ofDigitChars_ten_toDigits] at hread
      exact hread
  | cons second numbers ih =>
      rw [List.map_cons, joinFields_cons (by simp), readFrom_append (dot_not_mem_decimal first),
        decimal, Nat.ofDigitChars_ten_toDigits, readFrom, if_pos rfl, ih]

theorem readNumbers_text (r : Release num) : readNumbers r.text = r.numbers := by
  rw [Release.text]
  cases hnumbers : r.numbers with
  | nil => rfl
  | cons first numbers =>
      have hread := readFrom_joinFields first numbers
      cases hline : joinFields '.' ((first :: numbers).map decimal) with
      | nil => exact absurd hline (joinFields_ne_nil Nat.toDigits_ne_nil _)
      | cons c line =>
          rw [hline] at hread
          exact hread

theorem byNumbers_sorts : SortsVersions byNumbers := by
  intro num rs
  refine ⟨sortedBy Release.numbers rs, ?_, List.perm_insertionSort _ rs,
    pairwise_sortedBy Release.numbers rs⟩
  have hmap := List.map_insertionSort (fun a b : Release num => a.numbers ≤ b.numbers)
    (fun a b => readNumbers a ≤ readNumbers b) Release.text rs
    fun a _ b _ => by rw [readNumbers_text, readNumbers_text]
  exact hmap.symm

/-- Releases that share components with 2.14.0.1, one that only looks like it, and a candidate. -/
def releasesOf214 : List (Tag 4) :=
  [.release ⟨[2, 1, 0, 1], rfl⟩, .release ⟨[2, 13, 0, 1], rfl⟩, .release ⟨[2, 14, 0, 1], rfl⟩,
    .release ⟨[2, 14, 0, 14], rfl⟩, .release ⟨[2, 14, 1, 1], rfl⟩,
    .candidate ⟨[2, 15, 0, 1], rfl⟩ 1]

theorem printsRight_iff_candidate :
    PrintsRight byNumbers releasesOf214 (⟨[2, 14, 0, 1], rfl⟩ : Release 4) "suite".toList ↔
      ∀ k ≤ 4, Overtaken releasesOf214 (⟨[2, 14, 0, 1], rfl⟩ : Release 4) k ↔
        OvertakenInLooks releasesOf214 (⟨[2, 14, 0, 1], rfl⟩ : Release 4) k :=
  printsRight_iff byNumbers_sorts (by simp [releasesOf214]) _

/-- Beside 1.14, version 1.1 is tagged as the latest; beside 14.0, version 1.0 is not tagged
as 1. -/
theorem not_printsRight :
    ¬ PrintsRight byNumbers [.release ⟨[1, 1], rfl⟩, .release ⟨[1, 14], rfl⟩]
        (⟨[1, 1], rfl⟩ : Release 2) "suite".toList ∧
    ¬ PrintsRight byNumbers [.release ⟨[1, 0], rfl⟩, .release ⟨[14, 0], rfl⟩]
        (⟨[1, 0], rfl⟩ : Release 2) "suite".toList := by
  constructor
  · intro h
    have hlatest := (h (named "suite".toList "latest".toList)).mp (by decide)
    rcases hlatest with ⟨k, -, -, -, hname⟩ | ⟨hgreatest, -⟩
    · simp [named, Release.leading] at hname
    · have hle := hgreatest ⟨[1, 14], rfl⟩ (by simp [releases, Tag.release?]) rfl
      exact absurd hle (by decide)
  · intro h
    have hgreatest : Greatest [.release ⟨[1, 0], rfl⟩, .release ⟨[14, 0], rfl⟩]
        (⟨[1, 0], rfl⟩ : Release 2) 1 := by
      intro r hr hshared
      simp only [releases, List.filterMap_cons, List.filterMap_nil, Tag.release?, List.mem_cons,
        List.not_mem_nil, or_false] at hr
      rcases hr with rfl | rfl
      · exact le_refl _
      · cases hshared
    have hprinted := (h _).mpr (Or.inl ⟨1, Nat.le_refl 1, by decide, hgreatest, rfl⟩)
    exact absurd hprinted (by decide)

end

end ThreescaleTests.Releases
