import ThreescaleTests.Echo.EchoedRequest

/-!
# Names of headers in CGI style

A CGI name forgets the case of a name and nothing else. The wrapper recovers the name
from it unless the name contains `HTTP-`; then it comes out shorter.
-/

namespace ThreescaleTests.Echo

open Library

def isNameChar (c : Char) : Bool := c.isAlphanum || c = '-'

/-- The name is made of letters, digits and hyphens. -/
def WellNamed (name : String) : Prop := name.toList.all isNameChar

instance (name : String) : Decidable (WellNamed name) :=
  inferInstanceAs (Decidable (name.toList.all isNameChar = true))

/-- `HTTP_` and the name in upper case with underscores. -/
def cgiName (name : String) : String := "HTTP_" ++ replace "-" "_" (upper name)

/-- The name contains `HTTP-` in any case. -/
def ContainsHttp (name : String) : Prop := "http-".toList <:+: (lower name).toList

instance (name : String) : Decidable (ContainsHttp name) :=
  inferInstanceAs (Decidable ("http-".toList <:+: (lower name).toList))

def hyphenate (c : Char) : Char := if c = '_' then '-' else c

def underscore (c : Char) : Char := if c = '-' then '_' else c

theorem toList_cgiName (name : String) :
    (cgiName name).toList =
      "HTTP_".toList ++ name.toList.map fun c => underscore c.toUpper := by
  have hreplace : (replace "-" "_" (upper name)).toList =
      name.toList.map fun c => underscore c.toUpper := by
    rw [toList_replace]
    show replaceFrom ['-'] ['_'] 0 (upper name).toList = _
    rw [replaceFrom_char, toList_upper, List.map_map]
    rfl
  rw [cgiName, String.toList_append, hreplace]

theorem startsWith_cgiName (name : String) : startsWith "HTTP_" (cgiName name) = true := by
  rw [startsWith, decide_eq_true_eq, toList_cgiName]
  exact List.prefix_append _ _

theorem toList_newKey_cgiName (name : String) :
    (newKey (cgiName name)).toList =
      (replaceFrom "HTTP_".toList [] 0
        (name.toList.map fun c => underscore c.toUpper)).map hyphenate := by
  have hprefix : "HTTP_".toList ≠ [] := by decide
  rw [newKey, toList_replace, toList_replace, toList_cgiName, replaceFrom_of_prefix hprefix]
  show replaceFrom ['_'] ['-'] 0 _ = _
  rw [replaceFrom_char]
  rfl

/-- A letter, a digit or a hyphen is no underscore. -/
theorem ne_underscore_of_isNameChar {c : Char} (h : isNameChar c) : c ≠ '_' := by
  intro heq
  rw [heq] at h
  exact absurd h (by decide)

/-- The CGI name forgets the case only. -/
theorem hyphenate_toLower_underscore {c : Char} (h : c ≠ '_') :
    hyphenate (underscore c.toUpper).toLower = c.toLower := by
  have hdash : c.toUpper = '-' ↔ c = '-' := toUpper_eq_iff (by decide) (by decide)
  have hunder : c.toLower = '_' ↔ c = '_' := toLower_eq_iff (by decide) (by decide)
  by_cases hc : c = '-'
  · subst hc
    decide
  · rw [underscore, if_neg (mt hdash.mp hc), toLower_toUpper, hyphenate, if_neg (mt hunder.mp h)]

theorem hyphenate_underscore {c : Char} (h : c ≠ '_') :
    hyphenate (underscore c.toUpper) = c.toUpper := by
  have hunder : c.toUpper = '_' ↔ c = '_' := toUpper_eq_iff (by decide) (by decide)
  by_cases hc : c.toUpper = '-'
  · rw [underscore, if_pos hc, hc]
    rfl
  · rw [underscore, if_neg hc, hyphenate, if_neg (mt hunder.mp h)]

theorem WellNamed.ne_underscore {name : String} (h : WellNamed name) {c : Char}
    (hc : c ∈ name.toList) : c ≠ '_' :=
  ne_underscore_of_isNameChar (List.all_eq_true.mp h c hc)

/-- Names that differ in more than case have different CGI names. -/
theorem lower_eq_of_cgiName {name name' : String} (h : WellNamed name) (h' : WellNamed name')
    (heq : lower (cgiName name) = lower (cgiName name')) : lower name = lower name' := by
  have hrecover {name : String} (h : WellNamed name) :
      (((lower (cgiName name)).toList).drop 5).map hyphenate = (lower name).toList := by
    rw [toList_lower, toList_cgiName, toList_lower, List.map_append, List.drop_left' (by decide),
      List.map_map, List.map_map]
    apply List.map_congr_left
    intro c hc
    simp only [Function.comp_apply]
    exact hyphenate_toLower_underscore (h.ne_underscore hc)
  apply String.toList_inj.mp
  rw [← hrecover h, ← hrecover h', heq]

/-- The CGI name of a name in another case is the same. -/
theorem cgiName_eq_of_lower {name name' : String} (h : lower name = lower name') :
    cgiName name = cgiName name' := by
  have hcase (name : String) : (cgiName name).toList =
      "HTTP_".toList ++ (lower name).toList.map fun c => underscore c.toUpper := by
    rw [toList_cgiName, toList_lower, List.map_map]
    simp [Function.comp_def]
  apply String.toList_inj.mp
  rw [hcase, hcase, h]

theorem cgiName_of_host {name : String} (h : lower name = "host") : cgiName name = "HTTP_HOST" := by
  have hlower : lower "host" = "host" := by decide
  have hcgi : cgiName "host" = "HTTP_HOST" := by decide
  rw [← hcgi]
  exact cgiName_eq_of_lower (h.trans hlower.symm)

/-- A CGI name contains an underscore, and no name does. -/
theorem lower_cgiName_ne {name name' : String} (h : WellNamed name') :
    lower (cgiName name) ≠ lower name' := by
  intro heq
  have hmem : '_' ∈ (lower (cgiName name)).toList := by
    rw [toList_lower, toList_cgiName]
    simp
  rw [heq, toList_lower, List.mem_map] at hmem
  obtain ⟨c, hc, hlower⟩ := hmem
  exact h.ne_underscore hc ((toLower_eq_iff (by decide) (by decide)).mp hlower)

/-- Neither does a name that was recovered. -/
theorem lower_newKey_ne (name name' : String) :
    lower (newKey (cgiName name)) ≠ lower (cgiName name') := by
  intro heq
  have hmem : '_' ∈ (lower (cgiName name')).toList := by
    rw [toList_lower, toList_cgiName]
    simp
  rw [← heq, toList_lower, toList_newKey_cgiName, List.map_map, List.mem_map] at hmem
  obtain ⟨c, hc, hlower⟩ := hmem
  have hunder : hyphenate c = '_' := (toLower_eq_iff (by decide) (by decide)).mp hlower
  unfold hyphenate at hunder
  split at hunder
  · exact absurd hunder (by decide)
  · contradiction

/-- What the wrapper removes from the middle of a CGI name is `HTTP-` in the name. -/
theorem http_infix_iff {name : String} (h : WellNamed name) :
    "HTTP_".toList <:+: (name.toList.map fun c => underscore c.toUpper) ↔ ContainsHttp name := by
  have hlower : (name.toList.map fun c => underscore c.toUpper).map
      (fun c => hyphenate c.toLower) = (lower name).toList := by
    rw [toList_lower, List.map_map]
    apply List.map_congr_left
    intro c hc
    simp only [Function.comp_apply]
    exact hyphenate_toLower_underscore (h.ne_underscore hc)
  have hupper : (lower name).toList.map (fun c => underscore c.toUpper) =
      name.toList.map fun c => underscore c.toUpper := by
    rw [toList_lower, List.map_map]
    simp [Function.comp_def]
  constructor
  · intro hinfix
    rw [ContainsHttp, ← hlower]
    exact hinfix.map fun c => hyphenate c.toLower
  · intro hinfix
    rw [← hupper]
    exact hinfix.map fun c => underscore c.toUpper

/-- Without `HTTP-` in it a name is recovered, in upper case. -/
theorem lower_newKey_cgiName {name : String} (h : WellNamed name) (hhttp : ¬ ContainsHttp name) :
    lower (newKey (cgiName name)) = lower name := by
  apply String.toList_inj.mp
  rw [toList_lower, toList_newKey_cgiName, replaceFrom_eq_self (mt (http_infix_iff h).mp hhttp),
    toList_lower, List.map_map, List.map_map]
  apply List.map_congr_left
  intro c hc
  rw [Function.comp_apply, Function.comp_apply, hyphenate_underscore (h.ne_underscore hc),
    toLower_toUpper]

/-- With `HTTP-` in it a name gets shorter. -/
theorem length_newKey_cgiName_lt {name : String} (h : WellNamed name) (hhttp : ContainsHttp name) :
    (newKey (cgiName name)).toList.length < name.toList.length := by
  have hlt := length_replaceFrom_nil_lt (by decide) ((http_infix_iff h).mpr hhttp)
  rw [toList_newKey_cgiName, List.length_map]
  rw [List.length_map] at hlt
  exact hlt

end ThreescaleTests.Echo
