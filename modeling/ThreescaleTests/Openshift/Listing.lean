import ThreescaleTests.Openshift.Env

/-!
# Parsing the listing of an environment

The client prints one line for each variable, after a comment line for each
container. The pattern of plain variables is tried first and splits a line at its
last `=`, so a listing is read back exactly when no value contains one.
-/

namespace ThreescaleTests.Openshift

open Library

/-! ## Printing -/

inductive Entry where
  /-- The comment line of a container. -/
  | header (text : Text)
  | var (name : Text) (source : Source)

def printReference (name kind resource key : Text) : Text :=
  "# ".toList ++ (name ++ (" from ".toList ++ kind ++ " ".toList) ++
    (resource ++ ", key ".toList ++ key))

def Entry.print : Entry → Text
  | .header text => '#' :: text
  | .var name (.plain value) => name ++ '=' :: value
  | .var name (.secret resource key) => printReference name "secret".toList resource key
  | .var name (.configMap resource key) => printReference name "configmap".toList resource key

/-- Neither `=` nor whitespace. -/
def IsWord (text : Text) : Prop := ∀ c ∈ text, c ≠ '=' ∧ c.isWhitespace = false

-- stated on the list: the characters are a finite type too
instance (text : Text) : Decidable (IsWord text) :=
  List.decidableBAll (fun c => c ≠ '=' ∧ c.isWhitespace = false) text

/-- Names of variables, and of resources and their keys, are words; a header names resources
and containers. -/
def Entry.WellFormed : Entry → Prop
  | .header text => '=' ∉ text ∧ '\n' ∉ text ∧ ¬ " from ".toList <:+: text
  | .var name (.plain _) => IsWord name
  | .var name (.secret resource key) => IsWord name ∧ IsWord resource ∧ IsWord key
  | .var name (.configMap resource key) => IsWord name ∧ IsWord resource ∧ IsWord key

def listed : List Entry → List (Text × Source)
  | [] => []
  | .header _ :: entries => listed entries
  | .var name source :: entries => (name, source) :: listed entries

/-- The value of a plain variable does not have the character. -/
def Source.Lacks (c : Char) : Source → Prop
  | .plain value => c ∉ value
  | _ => True

instance (c : Char) : (source : Source) → Decidable (source.Lacks c)
  | .plain value => inferInstanceAs (Decidable (c ∉ value))
  | .secret _ _ => .isTrue trivial
  | .configMap _ _ => .isTrue trivial

/-- What `oc set env --list` prints. -/
structure Listing where
  entries : List Entry
  wellFormed : ∀ e ∈ entries, e.WellFormed
  nodup : ((listed entries).map Prod.fst).Nodup

namespace Listing

def print (l : Listing) : Text := l.entries.flatMap fun e => e.print ++ ['\n']

def env (l : Listing) : Dict Text Source := ⟨listed l.entries, l.nodup⟩

def SingleLine (l : Listing) : Prop := ∀ e ∈ listed l.entries, e.2.Lacks '\n'

def NoEquals (l : Listing) : Prop := ∀ e ∈ listed l.entries, e.2.Lacks '='

end Listing

/-! ## Words -/

theorem IsWord.not_eq {text : Text} (h : IsWord text) : '=' ∉ text := fun hc => (h _ hc).1 rfl

theorem IsWord.not_newline {text : Text} (h : IsWord text) : '\n' ∉ text :=
  fun hc => absurd (h _ hc).2 (by decide)

theorem IsWord.not_space {text : Text} (h : IsWord text) : ' ' ∉ text :=
  fun hc => absurd (h _ hc).2 (by decide)

theorem splitOn_space {u w : Text} : (u ++ ' ' :: w).splitOn ' ' = u.splitOn ' ' ++ w.splitOn ' ' :=
  List.splitOn_append_cons_self u w

theorem eq_of_splitOn_eq_singleton {u x : Text} (h : u.splitOn ' ' = [x]) : u = x := by
  have hu : [' '].intercalate (u.splitOn ' ') = u := List.intercalate_splitOn ' '
  rw [h] at hu
  simpa [List.intercalate] using hu.symm

/-- The words around `from` determine the name and the kind of a reference. -/
theorem reference_unique {name kind kind' resource key u w : Text} (hname : ' ' ∉ name)
    (hkind : ' ' ∉ kind) (hkind' : ' ' ∉ kind') (hresource : ' ' ∉ resource) (hkey : ' ' ∉ key)
    (hfrom : kind' ≠ "from".toList)
    (h : u ++ (" from ".toList ++ kind ++ " ".toList) ++ w =
      name ++ (" from ".toList ++ kind' ++ " ".toList) ++ (resource ++ ", key ".toList ++ key)) :
    u = name ∧ kind = kind' := by
  have hleft : u ++ (" from ".toList ++ kind ++ " ".toList) ++ w =
      u ++ ' ' :: ("from".toList ++ ' ' :: (kind ++ ' ' :: w)) := by simp
  have hright : name ++ (" from ".toList ++ kind' ++ " ".toList) ++
      (resource ++ ", key ".toList ++ key) = name ++ ' ' :: ("from".toList ++ ' ' ::
        (kind' ++ ' ' :: ((resource ++ [',']) ++ ' ' :: ("key".toList ++ ' ' :: key)))) := by simp
  have hcomma : ' ' ∉ resource ++ [','] := by simp [hresource]
  have hwords := congrArg (List.splitOn ' ') h
  rw [hleft, hright] at hwords
  simp only [splitOn_space, List.splitOn_eq_singleton hname, List.splitOn_eq_singleton hkind,
    List.splitOn_eq_singleton hkind', List.splitOn_eq_singleton hcomma,
    List.splitOn_eq_singleton hkey,
    List.splitOn_eq_singleton (show ' ' ∉ "from".toList by decide),
    List.splitOn_eq_singleton (show ' ' ∉ "key".toList by decide)] at hwords
  have hw : w.splitOn ' ' ≠ [] := List.splitOn_ne_nil ' ' w
  have hlength := congrArg List.length hwords
  -- the word "from" of the left side is one of those on the right
  cases hu : u.splitOn ' ' with
  | nil => exact absurd hu (List.splitOn_ne_nil ' ' u)
  | cons x xs =>
      rw [hu] at hwords hlength
      match xs with
      | [] =>
          simp only [List.cons_append, List.nil_append, List.cons.injEq] at hwords
          exact ⟨eq_of_splitOn_eq_singleton (hu.trans (by rw [hwords.1])), hwords.2.2.1⟩
      | [_] =>
          simp only [List.cons_append, List.nil_append, List.cons.injEq] at hwords
          exact absurd hwords.2.2.1.symm hfrom
      | [_, _] =>
          simp only [List.cons_append, List.nil_append, List.cons.injEq] at hwords
          have hlast := congrArg List.getLast? hwords.2.2.2.1
          rw [List.getLast?_concat] at hlast
          exact absurd hlast (by decide)
      | _ :: _ :: _ :: rest =>
          have hpos := List.length_pos_of_ne_nil hw
          simp only [List.length_append, List.length_cons, List.length_nil] at hlength
          omega

theorem key_unique {resource key u w : Text} (hresource : ' ' ∉ resource) (hkey : ' ' ∉ key)
    (h : u ++ ", key ".toList ++ w = resource ++ ", key ".toList ++ key) : u = resource := by
  have hleft : u ++ ", key ".toList ++ w = (u ++ [',']) ++ ' ' :: ("key".toList ++ ' ' :: w) := by
    simp
  have hright : resource ++ ", key ".toList ++ key =
      (resource ++ [',']) ++ ' ' :: ("key".toList ++ ' ' :: key) := by simp
  have hcomma : ' ' ∉ resource ++ [','] := by simp [hresource]
  have hwords := congrArg (List.splitOn ' ') h
  rw [hleft, hright] at hwords
  simp only [splitOn_space, List.splitOn_eq_singleton hcomma, List.splitOn_eq_singleton hkey,
    List.splitOn_eq_singleton (show ' ' ∉ "key".toList by decide)] at hwords
  have hw := List.length_pos_of_ne_nil (List.splitOn_ne_nil ' ' w)
  have hlength := congrArg List.length hwords
  cases hu : (u ++ [',']).splitOn ' ' with
  | nil => exact absurd hu (List.splitOn_ne_nil ' ' _)
  | cons x xs =>
      rw [hu] at hwords hlength
      simp only [List.length_append, List.length_cons, List.length_nil] at hlength
      have hxs : xs = [] := List.length_eq_zero_iff.mp (by omega)
      subst hxs
      simp only [List.cons_append, List.cons.injEq] at hwords
      have hu' := eq_of_splitOn_eq_singleton (hu.trans (by rw [hwords.1]))
      exact List.append_cancel_right hu'

/-- Nothing after the last `=` starts with one. -/
theorem length_le_of_last {c : Char} {u w x y : Text} (hy : c ∉ y)
    (h : u ++ [c] ++ w = x ++ [c] ++ y) : u.length ≤ x.length := by
  rw [List.append_assoc, List.append_assoc] at h
  rcases List.append_eq_append_iff.mp h with ⟨z, hz, -⟩ | ⟨z, hz, hrest⟩
  · rw [hz, List.length_append]
    omega
  · cases z with
    | nil => simp [hz]
    | cons d z =>
        simp only [List.cons_append, List.nil_append, List.cons.injEq] at hrest
        exact absurd (by simp [hrest.2]) hy

/-- Another way to part a text at `c` parts it after the first `c`. -/
theorem first_or_later {c : Char} {u v x y : Text} (hu : c ∉ u) (h : u ++ c :: v = x ++ c :: y) :
    (x = u ∧ y = v) ∨ ∃ z, x = u ++ c :: z := by
  rcases List.append_eq_append_iff.mp h with ⟨z, hz, hrest⟩ | ⟨z, hz, hrest⟩
  · cases z with
    | nil =>
        rw [List.nil_append, List.cons.injEq] at hrest
        rw [List.append_nil] at hz
        exact Or.inl ⟨hz, hrest.2.symm⟩
    | cons d z =>
        rw [List.cons_append, List.cons.injEq] at hrest
        exact Or.inr ⟨z, by rw [hz, hrest.1]⟩
  · cases z with
    | nil =>
        rw [List.nil_append, List.cons.injEq] at hrest
        rw [List.append_nil] at hz
        exact Or.inl ⟨hz.symm, hrest.2⟩
    | cons d z =>
        rw [List.cons_append, List.cons.injEq] at hrest
        exact absurd (by simp [hz, hrest.1]) hu

/-! ## One line -/

theorem find_plain {name value : Text} (hname : '\n' ∉ name) (hvalue : '\n' ∉ value)
    (heq : '=' ∉ value) : plainPattern.find (name ++ '=' :: value) = some [name, value] := by
  have htext : name ++ '=' :: value = name ++ "=".toList ++ value := by simp
  rw [htext]
  apply Pattern.find_group_lit
  · simp [hname, hvalue]
  · exact Pattern.find_last_group hvalue
  · intro u w h
    exact length_le_of_last heq h

theorem find_plain_none {line : Text} (h : '=' ∉ line) : plainPattern.find line = none := by
  apply Pattern.find_group_lit_none
  intro hocc
  exact h (hocc.subset (by decide))

theorem parseLine_plain {name value : Text} (hname : '\n' ∉ name) (hvalue : '\n' ∉ value)
    (heq : '=' ∉ value) : parseLine (name ++ '=' :: value) = some (name, .plain value) := by
  simp [parseLine, types, find_plain hname hvalue heq, plainVariable]

/-- A line that does not set a variable is a reference or nothing. -/
theorem parseLine_of_find_plain_none {line : Text} (h : plainPattern.find line = none) :
    parseLine line = ((secretPattern.find line).bind secretVariable).or
      ((configMapPattern.find line).bind configMapVariable) := by
  simp only [parseLine, types, List.findSome?_cons, List.findSome?_nil, h, Option.bind_none]
  cases (secretPattern.find line).bind secretVariable with
  | some e => rfl
  | none => cases (configMapPattern.find line).bind configMapVariable <;> rfl

/-- A value with `=` goes into the name in part. -/
theorem parseLine_split {name value : Text} (hname : '\n' ∉ name) (hvalue : '\n' ∉ value)
    (heq : '=' ∈ value) :
    ∃ name' value', parseLine (name ++ '=' :: value) = some (name', .plain value') ∧
      name' ++ '=' :: value' = name ++ '=' :: value ∧ '=' ∈ name' := by
  have hreverse : '=' ∈ value.reverse := List.mem_reverse.mpr heq
  obtain ⟨y, x, hxy, hy⟩ := List.eq_append_cons_of_mem hreverse
  have hsplit : value = x.reverse ++ '=' :: y.reverse := by
    have hr := congrArg List.reverse hxy
    simpa using hr
  have htext : (name ++ '=' :: x.reverse) ++ '=' :: y.reverse = name ++ '=' :: value := by
    simp [hsplit]
  rw [hsplit] at hvalue
  simp only [List.mem_append, List.mem_cons, not_or] at hvalue
  refine ⟨name ++ '=' :: x.reverse, y.reverse, ?_, htext, by simp⟩
  rw [← htext]
  apply parseLine_plain
  · simp [hname, hvalue.1]
  · exact hvalue.2.2
  · simpa using hy

/-- However it is split, the line of a plain variable is not lost. -/
theorem parseLine_joins {name value : Text} (hname : '\n' ∉ name) (hvalue : '\n' ∉ value) :
    ∃ name' value', parseLine (name ++ '=' :: value) = some (name', .plain value') ∧
      name' ++ '=' :: value' = name ++ '=' :: value := by
  by_cases heq : '=' ∈ value
  · obtain ⟨name', value', hparse, hjoin, -⟩ := parseLine_split hname hvalue heq
    exact ⟨name', value', hparse, hjoin⟩
  · exact ⟨name, value, parseLine_plain hname hvalue heq, rfl⟩

theorem find_key {resource key : Text} (hresource : IsWord resource) (hkey : IsWord key) :
    Pattern.find [.group, .lit ", key ".toList, .group] (resource ++ ", key ".toList ++ key) =
      some [resource, key] := by
  apply Pattern.find_group_lit
  · simp [hresource.not_newline, hkey.not_newline]
  · exact Pattern.find_last_group hkey.not_newline
  · intro u w h
    rw [key_unique hresource.not_space hkey.not_space h]

section Reference

variable {name kind kind' resource key : Text} (hname : IsWord name) (hkind : IsWord kind)
  (hkind' : IsWord kind') (hresource : IsWord resource) (hkey : IsWord key)

include hname hkind hresource hkey

theorem find_reference (hfrom : kind ≠ "from".toList) :
    Pattern.find [.lit "# ".toList, .group, .lit (" from ".toList ++ kind ++ " ".toList), .group,
        .lit ", key ".toList, .group] (printReference name kind resource key) =
      some [name, resource, key] := by
  rw [printReference, Pattern.find_lit_append]
  apply Pattern.find_group_lit
  · simp [hname.not_newline, hkind.not_newline, hresource.not_newline, hkey.not_newline]
  · exact find_key hresource hkey
  · intro u w h
    rw [(reference_unique hname.not_space hkind.not_space hkind.not_space hresource.not_space
      hkey.not_space hfrom h).1]

include hkind'

theorem find_reference_none (hfrom : kind ≠ "from".toList) (hne : kind' ≠ kind) :
    Pattern.find [.lit "# ".toList, .group, .lit (" from ".toList ++ kind' ++ " ".toList), .group,
        .lit ", key ".toList, .group] (printReference name kind resource key) = none := by
  rw [printReference, Pattern.find_lit_append]
  apply Pattern.find_group_lit_none
  rintro ⟨u, w, h⟩
  exact hne (reference_unique hname.not_space hkind'.not_space hkind.not_space
    hresource.not_space hkey.not_space hfrom h).2

end Reference

theorem printReference_not_eq {name kind resource key : Text} (hname : IsWord name)
    (hkind : IsWord kind) (hresource : IsWord resource) (hkey : IsWord key) :
    '=' ∉ printReference name kind resource key := by
  simp [printReference, hname.not_eq, hkind.not_eq, hresource.not_eq, hkey.not_eq]

theorem secret_isWord : IsWord "secret".toList := by decide

theorem configmap_isWord : IsWord "configmap".toList := by decide

theorem parseLine_secret {name resource key : Text} (hname : IsWord name)
    (hresource : IsWord resource) (hkey : IsWord key) :
    parseLine (printReference name "secret".toList resource key) =
      some (name, .secret resource key) := by
  have hplain := find_plain_none (printReference_not_eq hname secret_isWord hresource hkey)
  have hsecret : secretPattern.find (printReference name "secret".toList resource key) =
      some [name, resource, key] := find_reference hname secret_isWord hresource hkey (by decide)
  rw [parseLine_of_find_plain_none hplain, hsecret]
  rfl

theorem parseLine_configMap {name resource key : Text} (hname : IsWord name)
    (hresource : IsWord resource) (hkey : IsWord key) :
    parseLine (printReference name "configmap".toList resource key) =
      some (name, .configMap resource key) := by
  have hplain := find_plain_none (printReference_not_eq hname configmap_isWord hresource hkey)
  have hsecret : secretPattern.find (printReference name "configmap".toList resource key) = none :=
    find_reference_none hname configmap_isWord secret_isWord hresource hkey (by decide) (by decide)
  have hconfig : configMapPattern.find (printReference name "configmap".toList resource key) =
      some [name, resource, key] :=
    find_reference hname configmap_isWord hresource hkey (by decide)
  rw [parseLine_of_find_plain_none hplain, hsecret, hconfig]
  rfl

theorem parseLine_header {text : Text} (h : (Entry.header text).WellFormed) :
    parseLine (Entry.header text).print = none := by
  obtain ⟨heq, -, hfrom⟩ := h
  have hplain : plainPattern.find (Entry.header text).print = none :=
    find_plain_none (by simp [Entry.print, heq])
  have hreference : ∀ kind : Text, Pattern.find
      [.lit "# ".toList, .group, .lit (" from ".toList ++ kind ++ " ".toList), .group,
        .lit ", key ".toList, .group] (Entry.header text).print = none := by
    intro kind
    rw [Pattern.find]
    split
    · apply Pattern.find_group_lit_none
      intro hocc
      have hrest : (Entry.header text).print.drop "# ".toList.length <:+: text := by
        exact (List.drop_suffix 1 text).isInfix
      have hword : " from ".toList <:+: " from ".toList ++ kind ++ " ".toList :=
        ⟨[], kind ++ " ".toList, by simp⟩
      exact hfrom (hword.trans (hocc.trans hrest))
    · rfl
  have hsecret : secretPattern.find (Entry.header text).print = none :=
    hreference "secret".toList
  have hconfig : configMapPattern.find (Entry.header text).print = none :=
    hreference "configmap".toList
  rw [parseLine_of_find_plain_none hplain, hsecret, hconfig]
  rfl

/-! ## The whole listing -/

theorem foldl_parseLine (lines : List Text) (d : Dict Text Source) :
    lines.foldl (fun envs line =>
      match parseLine line with
      | some (name, source) => envs.set name source
      | none => envs) d = d.update (lines.filterMap parseLine) := by
  induction lines generalizing d with
  | nil => rfl
  | cons line lines ih =>
      rw [List.foldl_cons, ih]
      cases h : parseLine line with
      | none => rw [List.filterMap_cons_none h]
      | some e => rw [List.filterMap_cons_some h, Dict.update_cons]

theorem parseListing_eq (out : Text) :
    parseListing out = Dict.ofList ((out.splitOn '\n').filterMap parseLine) :=
  foldl_parseLine _ _

theorem splitOn_print (entries : List Entry) :
    (entries.flatMap fun e => e.print ++ ['\n']).splitOn '\n' =
      (entries.flatMap fun e => e.print.splitOn '\n') ++ [[]] := by
  induction entries with
  | nil => rfl
  | cons e entries ih =>
      have htext : ((e :: entries).flatMap fun e => e.print ++ ['\n']) =
          e.print ++ '\n' :: entries.flatMap fun e => e.print ++ ['\n'] := by simp
      rw [htext, List.splitOn_append_cons_self, ih, List.flatMap_cons, List.append_assoc]

theorem parseLine_nil : parseLine [] = none := by decide

/-- What is read from the lines of one entry. -/
def Entry.parsed (e : Entry) : List (Text × Source) := (e.print.splitOn '\n').filterMap parseLine

theorem parseListing_print (l : Listing) :
    parseListing l.print = Dict.ofList (l.entries.flatMap Entry.parsed) := by
  rw [parseListing_eq, Listing.print, splitOn_print, List.filterMap_append, List.filterMap_flatMap,
    List.filterMap_cons_none parseLine_nil, List.filterMap_nil, List.append_nil]
  rfl

theorem Entry.parsed_of_line {e : Entry} (h : '\n' ∉ e.print) :
    e.parsed = (parseLine e.print).toList := by
  rw [Entry.parsed, List.splitOn_eq_singleton h]
  cases hp : parseLine e.print with
  | none => rw [List.filterMap_cons_none hp]; rfl
  | some p => rw [List.filterMap_cons_some hp]; rfl

theorem printReference_not_newline {name kind resource key : Text} (hname : IsWord name)
    (hkind : IsWord kind) (hresource : IsWord resource) (hkey : IsWord key) :
    '\n' ∉ printReference name kind resource key := by
  simp [printReference, hname.not_newline, hkind.not_newline, hresource.not_newline,
    hkey.not_newline]

theorem parsed_header {text : Text} (h : (Entry.header text).WellFormed) :
    (Entry.header text).parsed = [] := by
  have hline : '\n' ∉ (Entry.header text).print := by simp [Entry.print, h.2.1]
  rw [Entry.parsed_of_line hline, parseLine_header h]
  rfl

theorem parsed_secret {name resource key : Text}
    (h : (Entry.var name (.secret resource key)).WellFormed) :
    (Entry.var name (.secret resource key)).parsed = [(name, .secret resource key)] := by
  obtain ⟨hname, hresource, hkey⟩ := h
  have hline : '\n' ∉ (Entry.var name (.secret resource key)).print :=
    printReference_not_newline hname secret_isWord hresource hkey
  rw [Entry.parsed_of_line hline, Entry.print, parseLine_secret hname hresource hkey]
  rfl

theorem parsed_configMap {name resource key : Text}
    (h : (Entry.var name (.configMap resource key)).WellFormed) :
    (Entry.var name (.configMap resource key)).parsed = [(name, .configMap resource key)] := by
  obtain ⟨hname, hresource, hkey⟩ := h
  have hline : '\n' ∉ (Entry.var name (.configMap resource key)).print :=
    printReference_not_newline hname configmap_isWord hresource hkey
  rw [Entry.parsed_of_line hline, Entry.print, parseLine_configMap hname hresource hkey]
  rfl

theorem print_plain_not_newline {name value : Text} (hname : IsWord name)
    (hvalue : '\n' ∉ value) : '\n' ∉ (Entry.var name (.plain value)).print := by
  simp [Entry.print, hname.not_newline, hvalue]

theorem parsed_plain {name value : Text} (hname : IsWord name) (hvalue : '\n' ∉ value)
    (heq : '=' ∉ value) : (Entry.var name (.plain value)).parsed = [(name, .plain value)] := by
  rw [Entry.parsed_of_line (print_plain_not_newline hname hvalue), Entry.print,
    parseLine_plain hname.not_newline hvalue heq]
  rfl

theorem mem_listed_iff {entries : List Entry} {name : Text} {source : Source} :
    (name, source) ∈ listed entries ↔ Entry.var name source ∈ entries := by
  induction entries with
  | nil => simp [listed]
  | cons e entries ih => cases e <;> simp [listed, ih]

namespace Listing

theorem isWord_of_mem (l : Listing) {name : Text} {source : Source}
    (h : (name, source) ∈ listed l.entries) : IsWord name := by
  have hwf := l.wellFormed _ (mem_listed_iff.mp h)
  cases source with
  | plain value => exact hwf
  | secret resource key => exact hwf.1
  | configMap resource key => exact hwf.1

theorem parsed_eq_listed {entries : List Entry} (hwf : ∀ e ∈ entries, e.WellFormed)
    (hline : ∀ e ∈ listed entries, e.2.Lacks '\n') (heq : ∀ e ∈ listed entries, e.2.Lacks '=') :
    entries.flatMap Entry.parsed = listed entries := by
  induction entries with
  | nil => rfl
  | cons e entries ih =>
      have he := hwf e List.mem_cons_self
      have hwf' : ∀ e ∈ entries, e.WellFormed := fun e he => hwf e (List.mem_cons_of_mem _ he)
      cases e with
      | header text =>
          rw [List.flatMap_cons, parsed_header he]
          exact ih hwf' hline heq
      | var name source =>
          have hrest := ih hwf' (fun e he => hline e (List.mem_cons_of_mem _ he))
            (fun e he => heq e (List.mem_cons_of_mem _ he))
          rw [List.flatMap_cons, hrest]
          cases source with
          | plain value =>
              have hvalue := hline (name, .plain value) List.mem_cons_self
              rw [parsed_plain he hvalue (heq (name, .plain value) List.mem_cons_self)]
              rfl
          | secret resource key => rw [parsed_secret he]; rfl
          | configMap resource key => rw [parsed_configMap he]; rfl

theorem parse_same_iff (l : Listing) (hline : l.SingleLine) :
    (parseListing l.print).Same l.env ↔ l.NoEquals := by
  rw [parseListing_print]
  constructor
  · rintro hsame ⟨name, source⟩ hmem
    cases source with
    | secret resource key => trivial
    | configMap resource key => trivial
    | plain value =>
        intro hvalue
        have hword := l.isWord_of_mem hmem
        have hnewline : '\n' ∉ value := hline _ hmem
        have hprint := print_plain_not_newline hword hnewline
        obtain ⟨name', value', hparse, -, hbad⟩ :=
          parseLine_split hword.not_newline hnewline hvalue
        -- the line gives a name that no variable has
        have hparsed : (name', Source.plain value') ∈ l.entries.flatMap Entry.parsed := by
          rw [List.mem_flatMap]
          refine ⟨_, mem_listed_iff.mp hmem, ?_⟩
          rw [Entry.parsed_of_line hprint, Entry.print, hparse]
          exact List.mem_cons_self
        have hkey : name' ∈ l.env.keys := by
          rw [← hsame.mem_keys_iff, Dict.mem_keys_ofList]
          exact List.mem_map_of_mem hparsed
        obtain ⟨⟨n, s⟩, hs, rfl⟩ := List.mem_map.mp hkey
        exact (l.isWord_of_mem hs).not_eq hbad
  · intro hnone name
    rw [parsed_eq_listed l.wellFormed hline hnone, Dict.get?_ofList l.nodup]
    rfl

end Listing

end ThreescaleTests.Openshift
