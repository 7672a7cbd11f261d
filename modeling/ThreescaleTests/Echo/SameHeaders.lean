import Mathlib.Data.List.MinMax
import ThreescaleTests.Echo.HeaderNames

/-!
# The same headers from every backend

One request in the formats of all backends. The wrappers agree on the headers that
were sent unless a name contains `HTTP-`: the CGI prefix is then removed from the
middle of the name as well.
-/

namespace ThreescaleTests.Echo

open Library

/-! ## Requests and their encodings -/

/-- The headers of a request, each sent once. -/
structure Request where
  headers : List (String × String)
  wellNamed : ∀ h ∈ headers, WellNamed h.1
  distinct : (headers.map fun h => lower h.1).Nodup
  host : "host" ∈ headers.map fun h => lower h.1

inductive Backend where
  | httpbin
  | httpbinGo
  | mockServer
  | echoApi
deriving DecidableEq

namespace Backend

def encode : Backend → String × String → String × Json
  | httpbin, h => (h.1, .str h.2)
  | httpbinGo, h | mockServer, h => (h.1, .arr [.str h.2])
  | echoApi, h => (cgiName h.1, .str h.2)

/-- The shape of `args`: the query as it was sent, or the parsed parameters. -/
def IsArgs : Backend → Json → Prop
  | echoApi, args => ∃ query, args = .str query
  | _, args => ∃ params, args = .obj params

end Backend

def sentValue : Json → String
  | .str value | .arr [.str value] => value
  | _ => ""

/-- An answer to a request: the encoded headers in any order, and other fields in the shape that the
backend gives them. -/
structure Answer (backend : Backend) (request : Request) where
  data : Dict String Json
  fields : List (String × Json)
  headers : data.get? "headers" = some (.obj fields)
  sent : fields.Perm (request.headers.map backend.encode)
  mock : fromMockServer data = decide (backend = .mockServer)
  args : ∀ args, data.get? "args" = some args → backend.IsArgs args
  query : ∀ query, data.get? "queryStringParameters" = some query → ∃ params, query = .obj params
  url : ∀ key ∈ ["url", "URL"], ∀ address, data.get? key = some address →
    ∃ text, address = .str text

/-- The value of a header, looked up on the wrapper for the answer. -/
def echoedHeader (url : UrlParse) (data : Dict String Json) (name : String) : Except Exn Json := do
  let request ← create url data
  request.headers.getItem name

/-! ## What the wrappers hold -/

section

variable {url : UrlParse} {request : Request}

namespace Answer

variable {backend : Backend} (answer : Answer backend request)

theorem getField_headers (default : Json) :
    getField answer.data "headers" default = .obj answer.fields := by
  rw [getField, answer.headers]
  rfl

theorem receivedHeaders_eq :
    receivedHeaders answer.data = .ok (CaseInsensitiveDict.ofList answer.fields) := by
  rw [receivedHeaders, answer.getField_headers]

/-- What every wrapper starts from. -/
theorem init_eq (url : UrlParse) :
    EchoedRequest.init url answer.data = .ok {
      headers := CaseInsensitiveDict.ofList answer.fields
      params := parseParams url (getField answer.data "args" .null)
      body := getField answer.data "body" (getField answer.data "data" .null)
      path := getField answer.data "path" .null } := by
  rw [EchoedRequest.init, answer.receivedHeaders_eq]
  rfl

theorem mem_fields {e : String × Json} :
    e ∈ answer.fields ↔ ∃ h ∈ request.headers, backend.encode h = e := by
  rw [answer.sent.mem_iff, List.mem_map]

/-- Keys of one encoding are distinct where the encoding tells names apart. -/
theorem fields_nodup {key : String × Json → String}
    (h : ∀ a ∈ request.headers, ∀ b ∈ request.headers,
      key (backend.encode a) = key (backend.encode b) → lower a.1 = lower b.1) :
    (answer.fields.map key).Nodup := by
  rw [(answer.sent.map key).nodup_iff, List.map_map, List.Nodup, List.pairwise_map]
  have hdistinct := List.pairwise_map.mp request.distinct
  refine hdistinct.imp_of_mem ?_
  intro a b ha hb hne heq
  exact hne (h a ha b hb heq)

/-- Without a CGI header nothing but the names that were sent is a key. -/
theorem no_cgi_key (hkey : ∀ h, (backend.encode h).1 = h.1) :
    (answer.fields.any fun h => h.1 = "HTTP_HOST") = false := by
  rw [List.any_eq_false]
  intro e he hhost
  obtain ⟨h, hh, rfl⟩ := answer.mem_fields.mp he
  rw [hkey, decide_eq_true_eq] at hhost
  have hname : WellNamed "HTTP_HOST" := hhost ▸ request.wellNamed h hh
  exact absurd hname (by decide)

end Answer

/-! ### Names as they were sent -/

/-- Headers whose values were joined. -/
theorem flatten_ofList {fields : List (String × Json)}
    (hn : (fields.map fun e => lower e.1).Nodup)
    (hvalue : ∀ e ∈ fields, e.2 = .arr [.str (sentValue e.2)]) :
    flatten (CaseInsensitiveDict.ofList fields) =
      .ok ((CaseInsensitiveDict.ofList fields).update
        (fields.map fun e => (e.1, .str (sentValue e.2)))) := by
  rw [flatten, CaseInsensitiveDict.items_ofList hn]
  generalize CaseInsensitiveDict.ofList fields = dict
  clear hn
  induction fields generalizing dict with
  | nil => rfl
  | cons e fields ih =>
      obtain ⟨key, value⟩ := e
      have he : value = .arr [.str (sentValue value)] := hvalue (key, value) List.mem_cons_self
      have hrest : ∀ e ∈ fields, e.2 = .arr [.str (sentValue e.2)] :=
        fun e h => hvalue e (List.mem_cons_of_mem _ h)
      rw [List.foldlM_cons, List.map_cons, CaseInsensitiveDict.update_cons, ← ih hrest]
      generalize sentValue value = sent at he ⊢
      subst he
      rfl

/-! ### One wrapper after the other -/

theorem create_httpbin (url : UrlParse) (answer : Answer .httpbin request) :
    ∃ r, create url answer.data = .ok r ∧
      r.headers = CaseInsensitiveDict.ofList answer.fields := by
  have hlist : (answer.fields.any fun h => isList h.2) = false := by
    rw [List.any_eq_false]
    intro e he
    obtain ⟨h, hh, rfl⟩ := answer.mem_fields.mp he
    exact Bool.false_ne_true
  have hargs : argsHaveList (getField answer.data "args" (.obj [])) = .ok false := by
    unfold getField
    cases hget : answer.data.get? "args" with
    | none => rfl
    | some args =>
        obtain ⟨params, rfl⟩ := answer.args args hget
        rfl
  have hmock : fromMockServer answer.data = false := answer.mock
  have hcreate : create url answer.data = EchoedRequest.init url answer.data := by
    simp only [create, answer.getField_headers, answer.no_cgi_key fun _ => rfl, hlist, hmock, hargs,
      Bool.false_eq_true, if_false, ok_bind]
  exact ⟨_, hcreate.trans (answer.init_eq url), rfl⟩

/-- The parameters of an answer are an object, or missing. -/
theorem flattenSingleParams_ok {params : Json}
    (h : params = .null ∨ ∃ fields, params = .obj fields) :
    ∃ params', flattenSingleParams params = .ok params' := by
  rcases h with rfl | ⟨fields, rfl⟩
  · exact ⟨_, rfl⟩
  · exact ⟨_, rfl⟩

/-- The headers of an answer in lists of one value. -/
theorem Answer.flatten_eq {backend : Backend} (answer : Answer backend request)
    (hbackend : ∀ h, backend.encode h = (h.1, .arr [.str h.2])) :
    flatten (CaseInsensitiveDict.ofList answer.fields) =
      .ok ((CaseInsensitiveDict.ofList answer.fields).update
        (answer.fields.map fun e => (e.1, .str (sentValue e.2)))) := by
  apply flatten_ofList
  · apply answer.fields_nodup
    intro a _ b _ heq
    rw [hbackend, hbackend] at heq
    exact heq
  · intro e he
    obtain ⟨h, hh, rfl⟩ := answer.mem_fields.mp he
    rw [hbackend]
    rfl

theorem create_mockServer (url : UrlParse) (answer : Answer .mockServer request) :
    ∃ r, create url answer.data = .ok r ∧
      r.headers = (CaseInsensitiveDict.ofList answer.fields).update
        (answer.fields.map fun e => (e.1, .str (sentValue e.2))) := by
  have hmock : fromMockServer answer.data = true := answer.mock
  have hquery : ∃ params, flattenSingleParams
      (getField answer.data "queryStringParameters" (.obj [])) = .ok params := by
    apply flattenSingleParams_ok
    right
    unfold getField
    cases hget : answer.data.get? "queryStringParameters" with
    | none => exact ⟨_, rfl⟩
    | some query => exact answer.query query hget
  obtain ⟨params, hparams⟩ := hquery
  have hcreate : create url answer.data = mockServerRequest url answer.data := by
    simp only [create, answer.getField_headers, answer.no_cgi_key fun _ => rfl, hmock,
      Bool.false_eq_true, if_false, if_true]
  rw [hcreate, mockServerRequest, answer.init_eq, ok_bind, answer.flatten_eq fun _ => rfl, ok_bind,
    hparams, ok_bind]
  exact ⟨_, rfl, rfl⟩

theorem create_httpbinGo (url : UrlParse) (answer : Answer .httpbinGo request) :
    ∃ r, create url answer.data = .ok r ∧
      r.headers = (CaseInsensitiveDict.ofList answer.fields).update
        (answer.fields.map fun e => (e.1, .str (sentValue e.2))) := by
  have hmock : fromMockServer answer.data = false := answer.mock
  have hlist : (answer.fields.any fun h => isList h.2) = true := by
    obtain ⟨h, hh, -⟩ := List.mem_map.mp request.host
    exact List.any_eq_true.mpr ⟨_, answer.mem_fields.mpr ⟨h, hh, rfl⟩, rfl⟩
  have hargs : ∃ params, flattenSingleParams
      (parseParams url (getField answer.data "args" .null)) = .ok params := by
    apply flattenSingleParams_ok
    unfold getField
    cases hget : answer.data.get? "args" with
    | none => exact Or.inl rfl
    | some args =>
        obtain ⟨params, rfl⟩ := answer.args args hget
        exact Or.inr ⟨params, rfl⟩
  obtain ⟨params, hparams⟩ := hargs
  have haddress : ∃ path, reportedPath url answer.data (getField answer.data "path" .null) =
      .ok path := by
    unfold reportedPath
    cases hurl : answer.data.get? "url" with
    | some address =>
        obtain ⟨text, rfl⟩ := answer.url "url" (by simp) address hurl
        exact ⟨_, rfl⟩
    | none =>
        cases hURL : answer.data.get? "URL" with
        | some address =>
            obtain ⟨text, rfl⟩ := answer.url "URL" (by simp) address hURL
            exact ⟨_, rfl⟩
        | none => exact ⟨_, rfl⟩
  obtain ⟨path, hpath⟩ := haddress
  have hcreate : create url answer.data = httpbinGoRequest url answer.data := by
    simp only [create, answer.getField_headers, answer.no_cgi_key fun _ => rfl, hmock, hlist,
      Bool.false_eq_true, if_false, if_true]
  rw [hcreate, httpbinGoRequest, answer.init_eq, ok_bind, answer.flatten_eq fun _ => rfl, ok_bind,
    hparams, ok_bind, hpath]
  exact ⟨_, rfl, rfl⟩

/-- The loop over CGI names. No recovered name is a CGI name, so every value is still there when its
turn comes. -/
theorem processHeaders_foldlM {cgi : List (String × Json)} {dict : CaseInsensitiveDict Json}
    (hget : ∀ e ∈ cgi, dict.get? e.1 = some e.2)
    (hname : ∀ e ∈ cgi, ∃ name, cgiName name = e.1) :
    (cgi.map Prod.fst).foldlM (fun headers key => do
      let value ← headers.getItem key
      pure (headers.set (newKey key) value)) dict =
        (.ok (dict.update (cgi.map fun e => (newKey e.1, e.2))) :
          Except Exn (CaseInsensitiveDict Json)) := by
  induction cgi generalizing dict with
  | nil => rfl
  | cons e cgi ih =>
      have he : dict.getItem e.1 = .ok e.2 := by
        rw [CaseInsensitiveDict.getItem, hget e List.mem_cons_self]
      have hkept : ∀ e' ∈ cgi, (dict.set (newKey e.1) e.2).get? e'.1 = some e'.2 := by
        intro e' he'
        obtain ⟨name, hn⟩ := hname e List.mem_cons_self
        obtain ⟨name', hn'⟩ := hname e' (List.mem_cons_of_mem e he')
        have hne : lower (newKey e.1) ≠ lower e'.1 := by
          rw [← hn, ← hn']
          exact lower_newKey_ne name name'
        rw [← hget e' (List.mem_cons_of_mem e he')]
        have hsingle : ∀ e'' ∈ [(newKey e.1, e.2)], lower e''.1 ≠ lower e'.1 := by
          intro e'' he''
          rw [List.mem_singleton.mp he'']
          exact hne
        exact CaseInsensitiveDict.get?_update_of_not_mem hsingle dict
      rw [List.map_cons, List.foldlM_cons, he, List.map_cons, CaseInsensitiveDict.update_cons]
      exact ih hkept fun e' he' => hname e' (List.mem_cons_of_mem e he')

theorem create_echoApi (url : UrlParse) (answer : Answer .echoApi request) :
    ∃ r, create url answer.data = .ok r ∧
      r.headers = (CaseInsensitiveDict.ofList answer.fields).update
        (answer.fields.map fun e => (newKey e.1, e.2)) := by
  have hhost : (answer.fields.any fun h => h.1 = "HTTP_HOST") = true := by
    obtain ⟨h, hh, hlower⟩ := List.mem_map.mp request.host
    have hname : cgiName h.1 = "HTTP_HOST" := cgiName_of_host hlower
    exact List.any_eq_true.mpr
      ⟨_, answer.mem_fields.mpr ⟨h, hh, rfl⟩, decide_eq_true hname⟩
  have hn : (answer.fields.map fun e => lower e.1).Nodup :=
    answer.fields_nodup fun a ha b hb =>
      lower_eq_of_cgiName (request.wellNamed a ha) (request.wellNamed b hb)
  have hkeys : (CaseInsensitiveDict.ofList answer.fields).keys.filter (startsWith "HTTP_") =
      answer.fields.map Prod.fst := by
    rw [CaseInsensitiveDict.keys, CaseInsensitiveDict.items_ofList hn, List.filter_eq_self]
    intro key hkey
    obtain ⟨e, he, rfl⟩ := List.mem_map.mp hkey
    obtain ⟨h, hh, rfl⟩ := answer.mem_fields.mp he
    exact startsWith_cgiName h.1
  have hprocess : processHeaders (CaseInsensitiveDict.ofList answer.fields) =
      .ok ((CaseInsensitiveDict.ofList answer.fields).update
        (answer.fields.map fun e => (newKey e.1, e.2))) := by
    rw [processHeaders, hkeys]
    apply processHeaders_foldlM
    · intro e he
      exact CaseInsensitiveDict.get?_update_of_mem hn he rfl _
    · intro e he
      obtain ⟨h, hh, rfl⟩ := answer.mem_fields.mp he
      exact ⟨h.1, rfl⟩
  have hcreate : create url answer.data = echoApiRequest url answer.data := by
    simp only [create, answer.getField_headers, hhost, if_true]
  rw [hcreate, echoApiRequest, answer.init_eq, ok_bind, hprocess]
  exact ⟨_, rfl, rfl⟩

theorem echoedHeader_eq {data : Dict String Json} {r : EchoedRequest} (h : create url data = .ok r)
    (name : String) : echoedHeader url data name = r.headers.getItem name := by
  rw [echoedHeader, h]
  rfl

theorem getItem_eq_ok_iff {dict : CaseInsensitiveDict Json} {key : String} {value : Json} :
    dict.getItem key = .ok value ↔ dict.get? key = some value := by
  unfold CaseInsensitiveDict.getItem
  cases dict.get? key <;> simp

/-- Every wrapper but one finds every header under its name. -/
theorem echoedHeader_of_ne_echoApi {backend : Backend} (hbackend : backend ≠ .echoApi)
    (answer : Answer backend request) {h : String × String} (hh : h ∈ request.headers) :
    echoedHeader url answer.data h.1 = .ok (.str h.2) := by
  have hfound (value : Json → Json) (hvalue : value (backend.encode h).2 = .str h.2)
      (hkey : ∀ h, (backend.encode h).1 = h.1) (dict : CaseInsensitiveDict Json) :
      (dict.update (answer.fields.map fun e => (e.1, value e.2))).get? h.1 = some (.str h.2) := by
    have hn : ((answer.fields.map fun e => (e.1, value e.2)).map fun e => lower e.1).Nodup := by
      rw [List.map_map]
      apply answer.fields_nodup
      intro a _ b _ heq
      simpa only [Function.comp_apply, hkey] using heq
    have hmem : (h.1, Json.str h.2) ∈ answer.fields.map fun e => (e.1, value e.2) :=
      List.mem_map.mpr ⟨_, answer.mem_fields.mpr ⟨h, hh, rfl⟩, by rw [hkey, hvalue]⟩
    exact CaseInsensitiveDict.get?_update_of_mem hn hmem rfl dict
  cases backend with
  | echoApi => exact absurd rfl hbackend
  | httpbin =>
      obtain ⟨r, hcreate, hheaders⟩ := create_httpbin url answer
      rw [echoedHeader_eq hcreate, getItem_eq_ok_iff, hheaders]
      have hget := hfound id rfl (fun _ => rfl) CaseInsensitiveDict.empty
      simp only [id_eq, Prod.mk.eta, List.map_id'] at hget
      exact hget
  | httpbinGo =>
      obtain ⟨r, hcreate, hheaders⟩ := create_httpbinGo url answer
      rw [echoedHeader_eq hcreate, getItem_eq_ok_iff, hheaders]
      exact hfound (fun v => .str (sentValue v)) rfl (fun _ => rfl) _
  | mockServer =>
      obtain ⟨r, hcreate, hheaders⟩ := create_mockServer url answer
      rw [echoedHeader_eq hcreate, getItem_eq_ok_iff, hheaders]
      exact hfound (fun v => .str (sentValue v)) rfl (fun _ => rfl) _

/-- The CGI wrapper finds every header where no name contains what it removes. -/
theorem echoedHeader_echoApi (answer : Answer .echoApi request)
    (hhttp : ∀ h ∈ request.headers, ¬ ContainsHttp h.1) {h : String × String}
    (hh : h ∈ request.headers) : echoedHeader url answer.data h.1 = .ok (.str h.2) := by
  obtain ⟨r, hcreate, hheaders⟩ := create_echoApi url answer
  have hrecovered : ∀ h ∈ request.headers, lower (newKey (cgiName h.1)) = lower h.1 :=
    fun h hh => lower_newKey_cgiName (request.wellNamed h hh) (hhttp h hh)
  have hn : ((answer.fields.map fun e => (newKey e.1, e.2)).map fun e => lower e.1).Nodup := by
    rw [List.map_map]
    apply answer.fields_nodup
    intro a ha b hb heq
    rw [← hrecovered a ha, ← hrecovered b hb]
    exact heq
  have hmem : (newKey (cgiName h.1), Json.str h.2) ∈
      answer.fields.map fun e => (newKey e.1, e.2) :=
    List.mem_map.mpr ⟨_, answer.mem_fields.mpr ⟨h, hh, rfl⟩, rfl⟩
  rw [echoedHeader_eq hcreate, getItem_eq_ok_iff, hheaders]
  exact CaseInsensitiveDict.get?_update_of_mem hn hmem (hrecovered h hh) _

/-- The longest name that contains `HTTP-` is lost: it could come from a longer one only. -/
theorem echoedHeader_lost (answer : Answer .echoApi request) {h : String × String}
    (hh : h ∈ request.headers) (hhttp : ContainsHttp h.1)
    (hlongest : ∀ h' ∈ request.headers, ContainsHttp h'.1 →
      h'.1.toList.length ≤ h.1.toList.length) :
    echoedHeader url answer.data h.1 ≠ .ok (.str h.2) := by
  obtain ⟨r, hcreate, hheaders⟩ := create_echoApi url answer
  have hnew : ∀ e ∈ answer.fields.map (fun e => (newKey e.1, e.2)), lower e.1 ≠ lower h.1 := by
    intro e he heq
    obtain ⟨e', he', rfl⟩ := List.mem_map.mp he
    obtain ⟨h', hh', rfl⟩ := answer.mem_fields.mp he'
    have hlower : lower (newKey (cgiName h'.1)) = lower h.1 := heq
    by_cases hcontains : ContainsHttp h'.1
    · have hshorter := length_newKey_cgiName_lt (request.wellNamed h' hh') hcontains
      have hlength := congrArg (fun name => name.toList.length) hlower
      simp only [toList_lower, List.length_map] at hlength
      have hle := hlongest h' hh' hcontains
      omega
    · rw [lower_newKey_cgiName (request.wellNamed h' hh') hcontains] at hlower
      rw [ContainsHttp, hlower] at hcontains
      exact hcontains hhttp
  have hold : ∀ e ∈ answer.fields, lower e.1 ≠ lower h.1 := by
    intro e he
    obtain ⟨h', -, rfl⟩ := answer.mem_fields.mp he
    exact lower_cgiName_ne (request.wellNamed h hh)
  rw [echoedHeader_eq hcreate, ne_eq, getItem_eq_ok_iff, hheaders,
    CaseInsensitiveDict.get?_update_of_not_mem hnew,
    CaseInsensitiveDict.get?_ofList_of_not_mem hold]
  exact fun heq => by cases heq

end

/-! ## Agreement -/

/-- From the answers of all backends every header that was sent comes back, under its name in any
case. -/
def SameHeaders (url : UrlParse) (request : Request)
    (answers : ∀ backend, Answer backend request) : Prop :=
  ∀ backend, ∀ h ∈ request.headers, ∀ name, lower name = lower h.1 →
    echoedHeader url (answers backend).data name = .ok (.str h.2)

theorem echoedHeader_ok_of_lower {url : UrlParse} {data : Dict String Json} {name name' : String}
    {value : Json} (hname : lower name = lower name')
    (h : echoedHeader url data name = .ok value) : echoedHeader url data name' = .ok value := by
  obtain ⟨r, hcreate, hget⟩ := bind_eq_ok_iff.mp h
  rw [echoedHeader_eq hcreate, getItem_eq_ok_iff, CaseInsensitiveDict.get?, ← hname]
  exact getItem_eq_ok_iff.mp hget

/-- The backends agree exactly on the requests without `HTTP-` in the name of a header. -/
theorem sameHeaders_iff (url : UrlParse) (request : Request)
    (answers : ∀ backend, Answer backend request) :
    SameHeaders url request answers ↔ ∀ h ∈ request.headers, ¬ ContainsHttp h.1 := by
  constructor
  · intro hsame h hh hhttp
    have hlonger : (request.headers.filter fun h => ContainsHttp h.1).argmax
        (fun h => h.1.toList.length) ≠ none := by
      rw [ne_eq, List.argmax_eq_none]
      exact List.ne_nil_of_mem (List.mem_filter.mpr ⟨hh, decide_eq_true hhttp⟩)
    obtain ⟨longest, hlongest⟩ := Option.ne_none_iff_exists'.mp hlonger
    obtain ⟨hmem, hcontains⟩ := List.mem_filter.mp (List.argmax_mem hlongest)
    refine echoedHeader_lost (answers .echoApi) hmem (of_decide_eq_true hcontains) ?_
      (hsame .echoApi longest hmem longest.1 rfl)
    intro h' hh' hhttp'
    have hmem' : h' ∈ request.headers.filter fun h => ContainsHttp h.1 :=
      List.mem_filter.mpr ⟨hh', decide_eq_true hhttp'⟩
    exact List.le_of_mem_argmax (f := fun h => h.1.toList.length) hmem' hlongest
  · intro hhttp backend h hh name hname
    apply echoedHeader_ok_of_lower hname.symm
    by_cases hbackend : backend = .echoApi
    · subst hbackend
      exact echoedHeader_echoApi (answers .echoApi) hhttp hh
    · exact echoedHeader_of_ne_echoApi hbackend (answers backend) hh

/-- The fields that tell a mock server. -/
def Backend.marks : Backend → List (String × Json)
  | .mockServer => [("keepAlive", .bool true), ("secure", .bool false)]
  | _ => []

/-- The shortest answer of a backend. -/
def Backend.answer (backend : Backend) (request : Request) : Answer backend request where
  data := Dict.ofList (("headers", .obj (request.headers.map backend.encode)) :: backend.marks)
  fields := request.headers.map backend.encode
  headers := by cases backend <;> rfl
  sent := List.Perm.refl _
  mock := by cases backend <;> rfl
  args := by cases backend <;> exact fun _ h => by cases h
  query := by cases backend <;> exact fun _ h => by cases h
  url := by
    intro key hkey address h
    simp only [List.mem_cons, List.not_mem_nil, or_false] at hkey
    rcases hkey with rfl | rfl <;> cases backend <;> cases h

def overrideRequest : Request where
  headers := [("Host", "echo-api"), ("X-HTTP-Method-Override", "PUT")]
  wellNamed := by decide
  distinct := by decide
  host := by decide

/-- A header whose name contains the prefix is lost with one of the backends. -/
theorem override_lost :
    ¬ SameHeaders ⟨fun _ => [], id⟩ overrideRequest
      fun backend => backend.answer overrideRequest := by
  intro hsame
  have hlost : echoedHeader ⟨fun _ => [], id⟩ (Backend.echoApi.answer overrideRequest).data
      "X-HTTP-Method-Override" = .error (.keyError "X-HTTP-Method-Override") := by rfl
  have hfound := hsame .echoApi ("X-HTTP-Method-Override", "PUT") (by decide) _ rfl
  rw [hlost] at hfound
  cases hfound

end ThreescaleTests.Echo
