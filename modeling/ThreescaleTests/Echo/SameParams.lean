import ThreescaleTests.Echo.SameHeaders

/-!
# The same parameters from every backend

The query of one request in the formats of all backends, next to any headers. The
wrapper is guessed from the headers in part. Without headers the lists of go-httpbin
are not recognized, and a header `HTTP_HOST` is taken for one of echo-api.
-/

namespace ThreescaleTests.Echo

open Library

/-! ## Queries and their encodings -/

/-- The parameters of a request: names with their values in order. -/
structure Query where
  params : List (String × List String)
  distinct : (params.map Prod.fst).Nodup
  sent : ∀ p ∈ params, p.2 ≠ []

/-- One value stands for itself, several for their list. -/
def sentAs : List String → Json
  | [value] => .str value
  | values => .arr (values.map .str)

/-- What every wrapper shall hold. -/
def Query.mapping (q : Query) : List (String × Json) := q.params.map fun p => (p.1, sentAs p.2)

/-- The query string of some parameters, which `parse_qs` takes apart again. -/
structure IsQueryString (url : UrlParse) (query : String) (q : Query) : Prop where
  parsed : (url.parseQs query).Perm q.params
  empty : query = "" ↔ q.params = []

namespace Backend

def encodeParam : Backend → String × List String → String × Json
  | httpbin, p => (p.1, sentAs p.2)
  | _, p => (p.1, .arr (p.2.map .str))

def IsHeader : Backend → Json → Prop
  | httpbin, value | echoApi, value => ∃ text, value = .str text
  | httpbinGo, value | mockServer, value => ∃ texts : List String, value = .arr (texts.map .str)

/-- Where a backend puts the query. The mock server may leave it out if there is none. -/
def EchoesQuery (backend : Backend) (url : UrlParse) (data : Dict String Json) (q : Query) : Prop :=
  match backend with
  | httpbin | httpbinGo => ∃ items, data.get? "args" = some (.obj items) ∧
      items.Perm (q.params.map backend.encodeParam)
  | mockServer => data.get? "args" = none ∧
      ∃ items, getField data "queryStringParameters" (.obj []) = .obj items ∧
        items.Perm (q.params.map backend.encodeParam)
  | echoApi => ∃ query, data.get? "args" = some (.str query) ∧ IsQueryString url query q

end Backend

/-- An answer to a request with a query, with any headers or none. Only echo-api has the request's
host for certain, under its CGI name. -/
structure QueryAnswer (url : UrlParse) (backend : Backend) (q : Query) where
  data : Dict String Json
  headers : List (String × Json)
  echoed : data.get? "headers" = some (.obj headers) ∨ (data.get? "headers" = none ∧ headers = [])
  values : ∀ h ∈ headers, backend.IsHeader h.2
  host : backend = .echoApi → "HTTP_HOST" ∈ headers.map Prod.fst
  mock : fromMockServer data = decide (backend = .mockServer)
  query : backend.EchoesQuery url data q
  address : ∀ key ∈ ["url", "URL"], ∀ address, data.get? key = some address →
    ∃ text, address = .str text

/-- The wrapper for an answer holds the parameters that were sent. -/
def GivesParams (url : UrlParse) (data : Dict String Json) (q : Query) : Prop :=
  ∃ r items, create url data = .ok r ∧ r.params = .obj items ∧ items.Perm q.mapping

theorem givesParams_iff {url : UrlParse} {data : Dict String Json} {q : Query} {r : EchoedRequest}
    (h : create url data = .ok r) :
    GivesParams url data q ↔ ∃ items, r.params = .obj items ∧ items.Perm q.mapping := by
  constructor
  · intro hgives
    obtain ⟨r', items, hcreate, hparams, hperm⟩ := hgives
    cases h.symm.trans hcreate
    exact ⟨items, hparams, hperm⟩
  · intro hgives
    obtain ⟨items, hparams, hperm⟩ := hgives
    exact ⟨r, items, h, hparams, hperm⟩

/-! ## Lists of one value -/

theorem flattenSingle_values (values : List String) :
    flattenSingle (.arr (values.map .str)) = sentAs values := by
  cases values with
  | nil => rfl
  | cons value values =>
      cases values with
      | nil => rfl
      | cons second values => rfl

theorem sentAs_of_length_ne {values : List String} (h : values.length ≠ 1) :
    sentAs values = .arr (values.map .str) := by
  cases values with
  | nil => rfl
  | cons value values =>
      cases values with
      | nil => exact absurd rfl h
      | cons second values => rfl

/-- Lists of one value that are flattened are what was sent. -/
theorem flattened_perm {backend : Backend} {q : Query} {items : List (String × Json)}
    (hbackend : ∀ p, backend.encodeParam p = (p.1, .arr (p.2.map .str)))
    (h : items.Perm (q.params.map backend.encodeParam)) :
    (items.map fun p => (p.1, flattenSingle p.2)).Perm q.mapping := by
  have hmap := h.map fun p => (p.1, flattenSingle p.2)
  rw [List.map_map] at hmap
  have heq : (q.params.map ((fun p => (p.1, flattenSingle p.2)) ∘ backend.encodeParam)) =
      q.mapping := by
    apply List.map_congr_left
    intro p _
    rw [Function.comp_apply, hbackend, flattenSingle_values]
  rwa [heq] at hmap

/-- Lists that are left as they are agree where nothing was sent once. -/
theorem unflattened_perm_iff {backend : Backend} {q : Query} {items : List (String × Json)}
    (hbackend : ∀ p, backend.encodeParam p = (p.1, .arr (p.2.map .str)))
    (h : items.Perm (q.params.map backend.encodeParam)) :
    items.Perm q.mapping ↔ ∀ p ∈ q.params, p.2.length ≠ 1 := by
  constructor
  · intro hperm p hp hone
    obtain ⟨value, hvalue⟩ := List.length_eq_one_iff.mp hone
    have hmem : (p.1, Json.arr [.str value]) ∈ items := by
      rw [h.mem_iff, List.mem_map]
      exact ⟨p, hp, by rw [hbackend, hvalue]; rfl⟩
    obtain ⟨p', -, heq⟩ := List.mem_map.mp (hperm.mem_iff.mp hmem)
    have hsent : sentAs p'.2 = .arr [.str value] := (Prod.mk.inj heq).2
    by_cases hone' : p'.2.length = 1
    · obtain ⟨value', hvalue'⟩ := List.length_eq_one_iff.mp hone'
      rw [hvalue', sentAs] at hsent
      cases hsent
    · rw [sentAs_of_length_ne hone', Json.arr.injEq] at hsent
      have hlength := congrArg List.length hsent
      rw [List.length_map] at hlength
      exact hone' hlength
  · intro hmany
    have heq : q.params.map backend.encodeParam = q.mapping := by
      apply List.map_congr_left
      intro p hp
      rw [hbackend, sentAs_of_length_ne (hmany p hp)]
    rwa [heq] at h

/-! ## Any headers -/

theorem joinValues_ok (texts : List String) :
    ∃ joined, joinValues (texts.map .str) = .ok joined := by
  induction texts with
  | nil => exact ⟨"", rfl⟩
  | cons text texts ih =>
      obtain ⟨joined, hjoined⟩ := ih
      cases texts with
      | nil => exact ⟨text, rfl⟩
      | cons second texts =>
          refine ⟨text ++ "," ++ joined, ?_⟩
          rw [List.map_cons, List.map_cons, joinValues, ← List.map_cons, hjoined]
          · rfl
          · intro h
            cases h

/-- Lists of texts can be joined, in any headers. -/
theorem flatten_ok (headers : List (String × Json))
    (h : ∀ e ∈ headers, ∃ texts : List String, e.2 = .arr (texts.map .str)) :
    ∃ flattened, flatten (CaseInsensitiveDict.ofList headers) = .ok flattened := by
  have hitems : ∀ e ∈ (CaseInsensitiveDict.ofList headers).items,
      ∃ texts : List String, e.2 = .arr (texts.map .str) :=
    fun e he => h e (CaseInsensitiveDict.mem_items_ofList he).1
  rw [flatten]
  generalize (CaseInsensitiveDict.ofList headers).items = items at hitems
  generalize CaseInsensitiveDict.ofList headers = dict
  induction items generalizing dict with
  | nil => exact ⟨dict, rfl⟩
  | cons e items ih =>
      rw [List.forall_mem_cons] at hitems
      obtain ⟨texts, htexts⟩ := hitems.1
      obtain ⟨joined, hjoined⟩ := joinValues_ok texts
      obtain ⟨flattened, hrest⟩ := ih hitems.2 (dict.set e.1 (.str joined))
      refine ⟨flattened, ?_⟩
      simp only [List.foldlM_cons, htexts, hjoined]
      exact hrest

/-- Every CGI name is found when its turn comes, whatever the headers are. -/
theorem processHeaders_ok (headers : List (String × Json)) :
    ∃ processed, processHeaders (CaseInsensitiveDict.ofList headers) = .ok processed := by
  have hkeys : ∀ key ∈ (CaseInsensitiveDict.ofList headers).keys.filter (startsWith "HTTP_"),
      ((CaseInsensitiveDict.ofList headers).get? key).isSome = true := by
    intro key hkey
    obtain ⟨e, he, rfl⟩ := List.mem_map.mp (List.mem_of_mem_filter hkey)
    rw [(CaseInsensitiveDict.mem_items_ofList he).2]
    rfl
  rw [processHeaders]
  generalize (CaseInsensitiveDict.ofList headers).keys.filter (startsWith "HTTP_") = keys at hkeys
  generalize CaseInsensitiveDict.ofList headers = dict at hkeys
  induction keys generalizing dict with
  | nil => exact ⟨dict, rfl⟩
  | cons key keys ih =>
      rw [List.forall_mem_cons] at hkeys
      obtain ⟨value, hvalue⟩ := Option.isSome_iff_exists.mp hkeys.1
      have hitem : dict.getItem key = .ok value := getItem_eq_ok_iff.mpr hvalue
      obtain ⟨processed, hrest⟩ := ih (dict.set (newKey key) value) fun key' hkey' =>
        CaseInsensitiveDict.isSome_get?_set (hkeys.2 key' hkey') _ _
      refine ⟨processed, ?_⟩
      rw [List.foldlM_cons, hitem]
      exact hrest

/-! ## One wrapper after the other -/

section

variable {url : UrlParse} {q : Query}

namespace QueryAnswer

variable {backend : Backend} (answer : QueryAnswer url backend q)

theorem getField_headers : getField answer.data "headers" (.obj []) = .obj answer.headers := by
  rw [getField]
  rcases answer.echoed with h | ⟨h, hnone⟩
  · rw [h]
    rfl
  · rw [h, hnone]
    rfl

theorem receivedHeaders_eq :
    receivedHeaders answer.data = .ok (CaseInsensitiveDict.ofList answer.headers) := by
  rw [receivedHeaders, getField]
  rcases answer.echoed with h | ⟨h, hnone⟩
  · rw [h]
    rfl
  · rw [h, hnone]
    rfl

/-- What every wrapper starts from. -/
theorem init_eq : EchoedRequest.init url answer.data = .ok {
    headers := CaseInsensitiveDict.ofList answer.headers
    params := parseParams url (getField answer.data "args" .null)
    body := getField answer.data "body" (getField answer.data "data" .null)
    path := getField answer.data "path" .null } := by
  rw [EchoedRequest.init, answer.receivedHeaders_eq]
  rfl

/-- Some header has the name by which echo-api is recognized. -/
def HasCgiHost : Prop := "HTTP_HOST" ∈ answer.headers.map Prod.fst

theorem any_cgiHost_iff :
    (answer.headers.any fun h => h.1 = "HTTP_HOST") = true ↔ answer.HasCgiHost := by
  simp [HasCgiHost]

/-- With such a header the query is taken from `args`, and lists are left as they are. -/
theorem create_of_cgiHost (h : answer.HasCgiHost) : ∃ r, create url answer.data = .ok r ∧
    r.params = if parseParams url (getField answer.data "args" .null) = .str "" then .obj []
      else parseParams url (getField answer.data "args" .null) := by
  obtain ⟨processed, hprocessed⟩ := processHeaders_ok answer.headers
  have hcreate : create url answer.data = echoApiRequest url answer.data := by
    simp only [create, answer.getField_headers, answer.any_cgiHost_iff.mpr h, if_true]
  rw [hcreate, echoApiRequest, answer.init_eq, ok_bind, hprocessed]
  exact ⟨_, rfl, rfl⟩

theorem any_cgiHost_eq_false (h : ¬ answer.HasCgiHost) :
    (answer.headers.any fun h => h.1 = "HTTP_HOST") = false := by
  rw [← Bool.not_eq_true, answer.any_cgiHost_iff]
  exact h

end QueryAnswer

/-- echo-api is always recognized; its query string is parsed. -/
theorem givesParams_echoApi (answer : QueryAnswer url .echoApi q) :
    GivesParams url answer.data q := by
  obtain ⟨r, hcreate, hparams⟩ := answer.create_of_cgiHost (answer.host rfl)
  obtain ⟨query, hargs, hparsed, hempty⟩ := answer.query
  rw [givesParams_iff hcreate, hparams, getField, hargs, Option.getD_some, parseParams]
  by_cases hquery : query = ""
  · refine ⟨[], ?_, ?_⟩
    · rw [if_pos hquery, hquery, if_pos rfl]
    · rw [Query.mapping, hempty.mp hquery]
      exact List.Perm.refl _
  · refine ⟨_, ?_, (hparsed.map fun p => (p.1, flattenSingle (.arr (p.2.map Json.str)))).trans ?_⟩
    · rw [if_neg hquery, if_neg]
      intro habsurd
      cases habsurd
    · have heq : (q.params.map fun p => (p.1, flattenSingle (.arr (p.2.map Json.str)))) =
          q.mapping := by
        simp only [flattenSingle_values, Query.mapping]
      rw [heq]

/-- Parameters that are an object are not parsed. -/
theorem parseParams_obj (items : List (String × Json)) :
    parseParams url (.obj items) = .obj items := rfl

/-- Any wrapper that leaves the parameters alone suits httpbin. -/
theorem givesParams_httpbin (answer : QueryAnswer url .httpbin q) :
    GivesParams url answer.data q := by
  obtain ⟨items, hargs, hperm⟩ := answer.query
  by_cases hhost : answer.HasCgiHost
  · obtain ⟨r, hcreate, hparams⟩ := answer.create_of_cgiHost hhost
    rw [getField, hargs, Option.getD_some, parseParams_obj, if_neg (by simp)] at hparams
    exact (givesParams_iff hcreate).mpr ⟨items, hparams, hperm⟩
  · have hlist : (answer.headers.any fun h => isList h.2) = false := by
      rw [List.any_eq_false]
      intro h hh
      obtain ⟨text, htext⟩ := answer.values h hh
      rw [htext]
      exact Bool.false_ne_true
    have hmock : fromMockServer answer.data = false := answer.mock
    have hguess : argsHaveList (getField answer.data "args" (.obj [])) = .ok false := by
      rw [getField, hargs]
      rfl
    have hcreate : create url answer.data = EchoedRequest.init url answer.data := by
      simp only [create, answer.getField_headers, answer.any_cgiHost_eq_false hhost, hlist, hmock,
        hguess, Bool.false_eq_true, if_false, ok_bind]
    rw [givesParams_iff (hcreate.trans answer.init_eq), getField, hargs]
    exact ⟨items, rfl, hperm⟩

/-- The mock server is recognized by its fields, but for a header that echo-api has. -/
theorem givesParams_mockServer_iff (answer : QueryAnswer url .mockServer q) :
    GivesParams url answer.data q ↔ ¬ answer.HasCgiHost := by
  obtain ⟨hargs, items, hquery, hperm⟩ := answer.query
  by_cases hhost : answer.HasCgiHost
  · obtain ⟨r, hcreate, hparams⟩ := answer.create_of_cgiHost hhost
    have hnull : parseParams url (getField answer.data "args" .null) = .null := by
      rw [getField, hargs]
      rfl
    rw [hnull, if_neg (by simp)] at hparams
    rw [givesParams_iff hcreate, hparams]
    refine iff_of_false (fun h => ?_) (not_not_intro hhost)
    obtain ⟨items, hitems, -⟩ := h
    cases hitems
  · obtain ⟨flattened, hflatten⟩ := flatten_ok answer.headers answer.values
    have hmock : fromMockServer answer.data = true := answer.mock
    have hcreate : create url answer.data = mockServerRequest url answer.data := by
      simp only [create, answer.getField_headers, answer.any_cgiHost_eq_false hhost, hmock,
        Bool.false_eq_true, if_false, if_true]
    rw [mockServerRequest, answer.init_eq, ok_bind, hflatten, ok_bind, hquery] at hcreate
    exact iff_of_true ((givesParams_iff hcreate).mpr
      ⟨_, rfl, flattened_perm (fun _ => rfl) hperm⟩) hhost

/-- The reported path of a go-httpbin is found if there is one. -/
theorem QueryAnswer.reportedPath_ok {backend : Backend} (answer : QueryAnswer url backend q)
    (path : Json) : ∃ path', reportedPath url answer.data path = .ok path' := by
  unfold reportedPath
  cases hurl : answer.data.get? "url" with
  | some address =>
      obtain ⟨text, rfl⟩ := answer.address "url" (by simp) address hurl
      exact ⟨_, rfl⟩
  | none =>
      cases hURL : answer.data.get? "URL" with
      | some address =>
          obtain ⟨text, rfl⟩ := answer.address "URL" (by simp) address hURL
          exact ⟨_, rfl⟩
      | none => exact ⟨_, rfl⟩

/-- go-httpbin is recognized by the list of a header. Its lists of one value are kept by every other
wrapper. -/
theorem givesParams_httpbinGo_iff (answer : QueryAnswer url .httpbinGo q) :
    GivesParams url answer.data q ↔
      (¬ answer.HasCgiHost ∧ answer.headers ≠ []) ∨ ∀ p ∈ q.params, p.2.length ≠ 1 := by
  obtain ⟨items, hargs, hperm⟩ := answer.query
  have hparams : parseParams url (getField answer.data "args" .null) = .obj items := by
    rw [getField, hargs]
    rfl
  have hkept : (∃ items', Json.obj items = .obj items' ∧ items'.Perm q.mapping) ↔
      ∀ p ∈ q.params, p.2.length ≠ 1 := by
    simp only [Json.obj.injEq, exists_eq_left', unflattened_perm_iff (fun _ => rfl) hperm]
  by_cases hhost : answer.HasCgiHost
  · obtain ⟨r, hcreate, hr⟩ := answer.create_of_cgiHost hhost
    rw [hparams, if_neg (by simp)] at hr
    rw [givesParams_iff hcreate, hr, hkept, or_iff_right (fun h => h.1 hhost)]
  · have hmock : fromMockServer answer.data = false := answer.mock
    by_cases hnone : answer.headers = []
    · have hguess : argsHaveList (getField answer.data "args" (.obj [])) = .ok false := by
        rw [getField, hargs]
        rfl
      have hcreate : create url answer.data = EchoedRequest.init url answer.data := by
        simp only [create, answer.getField_headers, hnone, List.any_nil, hmock, hguess,
          Bool.false_eq_true, if_false, ok_bind]
      rw [givesParams_iff (hcreate.trans answer.init_eq), hparams, hkept,
        or_iff_right (fun h => h.2 hnone)]
    · obtain ⟨flattened, hflatten⟩ := flatten_ok answer.headers answer.values
      obtain ⟨path, hpath⟩ := answer.reportedPath_ok (getField answer.data "path" .null)
      have hlist : (answer.headers.any fun h => isList h.2) = true := by
        obtain ⟨h, hh⟩ := List.exists_mem_of_ne_nil _ hnone
        obtain ⟨texts, htexts⟩ := answer.values h hh
        exact List.any_eq_true.mpr ⟨h, hh, by rw [htexts]; rfl⟩
      have hcreate : create url answer.data = httpbinGoRequest url answer.data := by
        simp only [create, answer.getField_headers, answer.any_cgiHost_eq_false hhost, hlist, hmock,
          Bool.false_eq_true, if_false, if_true]
      rw [httpbinGoRequest, answer.init_eq, ok_bind, hflatten, ok_bind, hparams,
        flattenSingleParams, ok_bind, hpath, ok_bind] at hcreate
      exact iff_of_true ((givesParams_iff hcreate).mpr
        ⟨_, rfl, flattened_perm (fun _ => rfl) hperm⟩) (Or.inl ⟨hhost, hnone⟩)

/-- The backend is guessed right, or the wrong guess does not matter. -/
def QueryAnswer.Guessed : {backend : Backend} → QueryAnswer url backend q → Prop
  | .httpbin, _ | .echoApi, _ => True
  | .mockServer, answer => ¬ answer.HasCgiHost
  | .httpbinGo, answer =>
      (¬ answer.HasCgiHost ∧ answer.headers ≠ []) ∨ ∀ p ∈ q.params, p.2.length ≠ 1

/-- From every backend the parameters come back as they were sent, unless the headers mislead the
guess and lists of one value stay lists. -/
theorem givesParams_iff_guessed (url : UrlParse) (q : Query) (backend : Backend)
    (answer : QueryAnswer url backend q) : GivesParams url answer.data q ↔ answer.Guessed := by
  cases backend with
  | httpbin => exact iff_of_true (givesParams_httpbin answer) trivial
  | httpbinGo => exact givesParams_httpbinGo_iff answer
  | mockServer => exact givesParams_mockServer_iff answer
  | echoApi => exact iff_of_true (givesParams_echoApi answer) trivial

end

/-! ## An answer of go-httpbin without headers -/

def onceQuery : Query where
  params := [("a", ["1"])]
  distinct := by decide
  sent := by decide

def bareAnswer (url : UrlParse) : QueryAnswer url .httpbinGo onceQuery where
  data := Dict.ofList [("headers", .obj []), ("args", .obj [("a", .arr [.str "1"])]),
    ("url", .str "https://go-httpbin.example/get?a=1")]
  headers := []
  echoed := Or.inl rfl
  values := fun _ h => by cases h
  host := fun h => by cases h
  mock := rfl
  query := ⟨_, rfl, List.Perm.refl _⟩
  address := by
    intro key hkey address h
    simp only [List.mem_cons, List.not_mem_nil, or_false] at hkey
    rcases hkey with rfl | rfl
    · cases h
      exact ⟨_, rfl⟩
    · cases h

/-- The one value of the parameter stays in its list. -/
theorem givesParams_bare : ¬ GivesParams ⟨fun _ => [], id⟩ (bareAnswer ⟨fun _ => [], id⟩).data
    onceQuery := by
  intro h
  obtain ⟨r, items, hcreate, hparams, hperm⟩ := h
  have hr : create ⟨fun _ => [], id⟩ (bareAnswer ⟨fun _ => [], id⟩).data = .ok {
      headers := CaseInsensitiveDict.empty
      params := .obj [("a", .arr [.str "1"])]
      body := .null
      path := .null } := by rfl
  rw [hr] at hcreate
  cases hcreate
  cases hparams
  have hmem := hperm.mem_iff.mp List.mem_cons_self
  rw [Query.mapping, onceQuery] at hmem
  simp [sentAs] at hmem

end ThreescaleTests.Echo
