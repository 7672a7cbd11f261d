import ThreescaleTests.Httpx.ClientAuth

/-!
# What authentication changes

An authenticated request carries the credentials at the configured location and
keeps everything that is not named like a credential. The query location replaces
the query, so this holds exactly for requests that have no other parameter; header
names are compared without case, so two credential headers may be one.
-/

namespace ThreescaleTests.Httpx

open Library

variable {U H : Type} [Url U] [Headers H]

/-! ## Carrying credentials -/

def supportedLocations : List String := ["authorization", "headers", "query"]

def ClientAuth.headerNames (auth : ClientAuth) : List String :=
  if auth.location = "authorization" then ["Authorization"]
  else if auth.location = "headers" then auth.credentials.names
  else []

def ClientAuth.paramNames (auth : ClientAuth) : List String :=
  if auth.location = "query" then auth.credentials.names else []

def BasicValue (bytes : List UInt8) (value : String) : Prop :=
  ∃ token, value = "Basic " ++ token ∧ Base64.decode token.toList = some bytes

/-- The value of an `Authorization` header grants the credentials. -/
def Credentials.InValue : Credentials → String → Prop
  | .userKey _ key, value => BasicValue (utf8 key ++ utf8 ":") value
  | .appIdKey _ id _ key, value => BasicValue (utf8 id ++ utf8 ":" ++ utf8 key) value
  | .oidc token, value => value = "Bearer " ++ token

def ClientAuth.CarriedBy (auth : ClientAuth) (out : Request U H) : Prop :=
  if auth.location = "authorization" then
    ∃ value, Headers.getList out.headers "Authorization" = [value] ∧
      auth.credentials.InValue value
  else if auth.location = "headers" then
    ∀ e ∈ auth.credentials.items, Headers.getList out.headers e.1 = [e.2]
  else
    (Url.params out.url).filter (fun e => decide (e.1 ∈ auth.credentials.names)) =
      auth.credentials.items

structure OnlyAdds (auth : ClientAuth) (request out : Request U H) : Prop where
  method : out.method = request.method
  path : Url.path out.url = Url.path request.url
  body : out.body = request.body
  headers : ∀ name, name.toLower ∉ auth.headerNames.map String.toLower →
    Headers.getList out.headers name = Headers.getList request.headers name
  params : (Url.params out.url).filter (fun e => decide (e.1 ∉ auth.paramNames)) =
    (Url.params request.url).filter (fun e => decide (e.1 ∉ auth.paramNames))
  carried : auth.CarriedBy out

/-- The authentication object after its token was renewed. -/
def ClientAuth.renewed (auth : ClientAuth) (token : String) : ClientAuth :=
  match auth.credentials with
  | .oidc _ => { auth with credentials := .oidc token }
  | _ => auth

/-- The flow asks for a new token after the response. -/
def ClientAuth.Renews (auth : ClientAuth) (response : Response) : Prop :=
  (∃ token, auth.credentials = .oidc token) ∧ response.statusCode = 403

/-- The flow yields a request that only adds the credentials; when it renews the token it yields
another one, and every later one only adds renewed credentials to the original request. -/
def AddsOnlyCredentials (renew : Except Exn String) (auth : ClientAuth) (request : Request U H) :
    Prop :=
  ∃ first resume, authFlow renew auth request = .yield first resume ∧
    OnlyAdds auth request first ∧
    (∀ response token, auth.Renews response → renew = .ok token →
      ∃ out resume', resume response = .yield out resume') ∧
    ∀ response, (resume response).Always fun out =>
      ∃ token, renew = .ok token ∧ OnlyAdds (auth.renewed token) request out

/-- Headers that differ by case only have one value. -/
def Credentials.HeadersAgree : Credentials → Prop
  | .appIdKey idName id keyName key => idName.toLower = keyName.toLower → id = key
  | _ => True

structure Fits (auth : ClientAuth) (request : Request U H) : Prop where
  params : auth.location = "query" → ∀ e ∈ Url.params request.url, e.1 ∈ auth.credentials.names
  headers : auth.location = "headers" → auth.credentials.HeadersAgree

/-! ## The authenticated request at each location -/

theorem basicValue_basicAuthString (key value : String) :
    BasicValue (utf8 key ++ utf8 ":" ++ utf8 value) (basicAuthString key value) := by
  have hcolon : utf8 ":" = [58] := by decide
  refine ⟨String.ofList (Base64.encode (utf8 key ++ 58 :: utf8 value)), rfl, ?_⟩
  rw [String.toList_ofList, Base64.decode_encode, hcolon]
  simp

theorem authenticate_authorization {auth : ClientAuth} (request : Request U H)
    (hloc : auth.location = "authorization") (hnames : auth.credentials.names.Nodup) :
    ∃ value, auth.credentials.InValue value ∧ authenticate auth request =
      .ok { request with headers := Headers.set request.headers "Authorization" value } := by
  obtain ⟨location, credentials⟩ := auth
  subst hloc
  cases credentials with
  | userKey name key =>
      refine ⟨basicAuthString key "", ?_, by simp [authenticate]⟩
      have h := basicValue_basicAuthString key ""
      have hempty : utf8 "" = [] := by decide
      rw [hempty, List.append_nil] at h
      exact h
  | appIdKey idName id keyName key =>
      refine ⟨basicAuthString id key, basicValue_basicAuthString id key, ?_⟩
      have hvalues : (Credentials.appIdKey idName id keyName key).dict.values = [id, key] := by
        rw [Dict.values, Credentials.dict_items hnames]
        rfl
      simp [authenticate, baseAuthenticate, hvalues, unpackTwo]
  | oidc token => exact ⟨"Bearer " ++ token, rfl, by simp [authenticate, addCredentials]⟩

theorem authenticate_headers {auth : ClientAuth} (request : Request U H)
    (hloc : auth.location = "headers") (hnames : auth.credentials.names.Nodup) :
    authenticate auth request = .ok { request with
      headers := auth.credentials.items.foldl (fun headers e => Headers.set headers e.1 e.2)
        request.headers } := by
  obtain ⟨location, credentials⟩ := auth
  subst hloc
  have hitems := Credentials.dict_items hnames
  cases credentials with
  | userKey name key => simp [authenticate, baseAuthenticate, prepareHeaders, hitems]
  | appIdKey idName id keyName key =>
      simp [authenticate, baseAuthenticate, prepareHeaders, hitems]
  | oidc token => simp [authenticate, addCredentials, Credentials.items]

theorem authenticate_query {auth : ClientAuth} (request : Request U H)
    (hloc : auth.location = "query") :
    authenticate auth request =
      .ok { request with url := Url.withParams request.url auth.credentials.dict } := by
  obtain ⟨location, credentials⟩ := auth
  subst hloc
  cases credentials with
  | userKey name key => simp [authenticate, baseAuthenticate]
  | appIdKey idName id keyName key => simp [authenticate, baseAuthenticate]
  | oidc token => simp [authenticate, addCredentials, Credentials.dict]

theorem authenticate_ok {auth : ClientAuth} (request : Request U H)
    (hloc : auth.location ∈ supportedLocations) (hnames : auth.credentials.names.Nodup) :
    ∃ out, authenticate auth request = .ok out := by
  simp only [supportedLocations, List.mem_cons, List.not_mem_nil, or_false] at hloc
  rcases hloc with hloc | hloc | hloc
  · obtain ⟨value, -, hout⟩ := authenticate_authorization request hloc hnames
    exact ⟨_, hout⟩
  · exact ⟨_, authenticate_headers request hloc hnames⟩
  · exact ⟨_, authenticate_query request hloc⟩

section

variable [LawfulHeaders H]

theorem getList_setAll_of_not_mem (headers : H) (es : List (String × String)) {name : String}
    (h : name.toLower ∉ (es.map Prod.fst).map String.toLower) :
    Headers.getList (es.foldl (fun headers e => Headers.set headers e.1 e.2) headers) name =
      Headers.getList headers name := by
  induction es generalizing headers with
  | nil => rfl
  | cons e es ih =>
      simp only [List.map_cons, List.mem_cons, not_or] at h
      rw [List.foldl_cons, ih _ h.2, LawfulHeaders.getList_set, if_neg h.1]

theorem carried_headers_iff (credentials : Credentials) (headers : H) :
    (∀ e ∈ credentials.items, Headers.getList
      (credentials.items.foldl (fun headers e => Headers.set headers e.1 e.2) headers) e.1 =
        [e.2]) ↔ credentials.HeadersAgree := by
  cases credentials with
  | userKey name key => simp [Credentials.items, Credentials.HeadersAgree]
  | appIdKey idName id keyName key =>
      by_cases h : idName.toLower = keyName.toLower
      · simp [Credentials.items, Credentials.HeadersAgree, h, eq_comm]
      · simp [Credentials.items, Credentials.HeadersAgree, h]
  | oidc token => simp [Credentials.items, Credentials.HeadersAgree]

theorem onlyAdds_authorization {auth : ClientAuth} (request : Request U H) {value : String}
    (hloc : auth.location = "authorization") (hvalue : auth.credentials.InValue value) :
    OnlyAdds auth request
      { request with headers := Headers.set request.headers "Authorization" value } where
  method := rfl
  path := rfl
  body := rfl
  headers name hname := by
    have hne : name.toLower ≠ "Authorization".toLower := by
      simpa [ClientAuth.headerNames, hloc] using hname
    rw [LawfulHeaders.getList_set, if_neg hne]
  params := rfl
  carried := by
    rw [ClientAuth.CarriedBy, if_pos hloc]
    exact ⟨value, by simp, hvalue⟩

theorem onlyAdds_headers_iff {auth : ClientAuth} (request : Request U H)
    (hloc : auth.location = "headers") :
    OnlyAdds auth request { request with
      headers := auth.credentials.items.foldl (fun headers e => Headers.set headers e.1 e.2)
        request.headers } ↔ auth.credentials.HeadersAgree := by
  have hcarried := carried_headers_iff auth.credentials request.headers
  constructor
  · intro h
    have hc := h.carried
    rw [ClientAuth.CarriedBy, if_neg (by simp [hloc]), if_pos hloc] at hc
    exact hcarried.mp hc
  · intro h
    refine ⟨rfl, rfl, rfl, ?_, rfl, ?_⟩
    · intro name hname
      have hnot : name.toLower ∉ (auth.credentials.items.map Prod.fst).map String.toLower := by
        simpa [ClientAuth.headerNames, hloc, Credentials.names] using hname
      exact getList_setAll_of_not_mem request.headers auth.credentials.items hnot
    · rw [ClientAuth.CarriedBy, if_neg (by simp [hloc]), if_pos hloc]
      exact hcarried.mpr h

end

theorem onlyAdds_query_iff [LawfulUrl U] {auth : ClientAuth} (request : Request U H)
    (hloc : auth.location = "query") (hnames : auth.credentials.names.Nodup) :
    OnlyAdds auth request
        { request with url := Url.withParams request.url auth.credentials.dict } ↔
      ∀ e ∈ Url.params request.url, e.1 ∈ auth.credentials.names := by
  have hparams : Url.params (Url.withParams request.url auth.credentials.dict) =
      auth.credentials.items := by
    rw [LawfulUrl.params_withParams, Credentials.dict_items hnames]
  have hall : ∀ e ∈ auth.credentials.items, e.1 ∈ auth.credentials.names :=
    fun e he => List.mem_map_of_mem he
  have hpn : auth.paramNames = auth.credentials.names := by rw [ClientAuth.paramNames, if_pos hloc]
  -- nothing of the old query is left beside the credentials
  have hnone : auth.credentials.items.filter (fun e => decide (e.1 ∉ auth.credentials.names)) =
      [] := by
    rw [List.filter_eq_nil_iff]
    intro e he
    simp [hall e he]
  constructor
  · intro h e he
    have hp := h.params
    simp only [hpn, hparams] at hp
    rw [hnone] at hp
    have hkept := List.filter_eq_nil_iff.mp hp.symm e he
    simpa using hkept
  · intro h
    refine ⟨rfl, LawfulUrl.path_withParams request.url _, rfl, fun _ _ => rfl, ?_, ?_⟩
    · simp only [hpn, hparams]
      rw [hnone, eq_comm, List.filter_eq_nil_iff]
      intro e he
      simp [h e he]
    · rw [ClientAuth.CarriedBy, if_neg (by simp [hloc]), if_neg (by simp [hloc])]
      simp only [hparams]
      rw [List.filter_eq_self]
      intro e he
      simp [hall e he]

section

variable [LawfulUrl U] [LawfulHeaders H]

theorem onlyAdds_iff_fits {auth : ClientAuth} {request out : Request U H}
    (hloc : auth.location ∈ supportedLocations) (hnames : auth.credentials.names.Nodup)
    (hout : authenticate auth request = .ok out) :
    OnlyAdds auth request out ↔ Fits auth request := by
  simp only [supportedLocations, List.mem_cons, List.not_mem_nil, or_false] at hloc
  rcases hloc with hloc | hloc | hloc
  · obtain ⟨value, hvalue, hok⟩ := authenticate_authorization request hloc hnames
    rw [hok] at hout
    cases hout
    have hfits : Fits auth request := ⟨by simp [hloc], by simp [hloc]⟩
    exact iff_of_true (onlyAdds_authorization request hloc hvalue) hfits
  · rw [authenticate_headers request hloc hnames] at hout
    cases hout
    rw [onlyAdds_headers_iff request hloc]
    exact ⟨fun h => ⟨by simp [hloc], fun _ => h⟩, fun h => h.headers hloc⟩
  · rw [authenticate_query request hloc] at hout
    cases hout
    rw [onlyAdds_query_iff request hloc hnames]
    exact ⟨fun h => ⟨fun _ => h, by simp [hloc]⟩, fun h => h.params hloc⟩

/-! ## The renewed request -/

omit [LawfulUrl U] [LawfulHeaders H] in
theorem OnlyAdds.trans {auth auth' : ClientAuth} {request sent out : Request U H}
    (h : OnlyAdds auth request sent) (h' : OnlyAdds auth' sent out)
    (hheaders : auth'.headerNames = auth.headerNames)
    (hparams : auth'.paramNames = auth.paramNames) : OnlyAdds auth' request out where
  method := h'.method.trans h.method
  path := h'.path.trans h.path
  body := h'.body.trans h.body
  headers name hname := by
    rw [h'.headers name hname]
    rw [hheaders] at hname
    exact h.headers name hname
  params := by
    have hp := h.params
    rw [← hparams] at hp
    exact h'.params.trans hp
  carried := h'.carried

omit [LawfulUrl U] [LawfulHeaders H] in
/-- An authenticated request can be authenticated once more. -/
theorem OnlyAdds.fits {auth : ClientAuth} {request sent : Request U H}
    (h : OnlyAdds auth request sent) (hfits : Fits auth request) : Fits auth sent where
  params hloc e he := by
    have hp := h.params
    have hpn : auth.paramNames = auth.credentials.names := by
      rw [ClientAuth.paramNames, if_pos hloc]
    have hnone : (Url.params request.url).filter
        (fun e => decide (e.1 ∉ auth.credentials.names)) = [] := by
      rw [List.filter_eq_nil_iff]
      intro e he
      simp [hfits.params hloc e he]
    rw [hpn, hnone, List.filter_eq_nil_iff] at hp
    simpa using hp e he
  headers := hfits.headers

omit [LawfulUrl U] [LawfulHeaders H] in
theorem afterResponse_renews {renew : Except Exn String} {auth : ClientAuth} {response : Response}
    {token : String} (sent : Request U H) (hloc : auth.location ∈ supportedLocations)
    (hrenews : auth.Renews response) (hrenew : renew = .ok token) :
    ∃ out resume, afterResponse renew auth sent response = .yield out resume := by
  obtain ⟨⟨old, hold⟩, hstatus⟩ := hrenews
  have hnames : (Credentials.oidc token).names.Nodup := by
    simp [Credentials.names, Credentials.items]
  obtain ⟨out, hout⟩ := @authenticate_ok U H _ _ ⟨auth.location, .oidc token⟩ sent hloc hnames
  have hadd : addCredentials auth.location token sent = .ok out := hout
  refine ⟨out, fun _ => .done, ?_⟩
  rw [afterResponse, hold]
  simp only [if_pos hstatus, hrenew, ok_bind, hadd]
  rfl

theorem retry_onlyAdds {location token newToken : String} {request sent out : Request U H}
    (hloc : location ∈ supportedLocations) (hfits : Fits ⟨location, .oidc token⟩ request)
    (h : OnlyAdds ⟨location, .oidc token⟩ request sent)
    (hout : addCredentials location newToken sent = .ok out) :
    OnlyAdds ⟨location, .oidc newToken⟩ request out := by
  have hnames : (Credentials.oidc newToken).names.Nodup := by
    simp [Credentials.names, Credentials.items]
  have hsent : Fits ⟨location, .oidc newToken⟩ sent := by
    have hold := h.fits hfits
    exact ⟨hold.params, hold.headers⟩
  have hnew : OnlyAdds ⟨location, .oidc newToken⟩ sent out ↔ Fits ⟨location, .oidc newToken⟩ sent :=
    onlyAdds_iff_fits hloc hnames hout
  exact h.trans (hnew.mpr hsent) rfl rfl

theorem authFlow_onlyAdds_iff (renew : Except Exn String) (auth : ClientAuth)
    (request : Request U H) (hloc : auth.location ∈ supportedLocations)
    (hnames : auth.credentials.names.Nodup) :
    AddsOnlyCredentials renew auth request ↔ Fits auth request := by
  obtain ⟨sent, hsent⟩ := authenticate_ok request hloc hnames
  have hflow : authFlow renew auth request = .yield sent (afterResponse renew auth sent) := by
    rw [authFlow, hsent]
  have hfirst := onlyAdds_iff_fits hloc hnames hsent
  constructor
  · rintro ⟨first, resume, hyield, honly, -, -⟩
    rw [hflow] at hyield
    cases hyield
    exact hfirst.mp honly
  · intro hfits
    have honly := hfirst.mpr hfits
    refine ⟨sent, _, hflow, honly, fun response token => afterResponse_renews sent hloc, ?_⟩
    intro response
    obtain ⟨location, credentials⟩ := auth
    cases credentials with
    | userKey name key => trivial
    | appIdKey idName id keyName key => trivial
    | oidc token =>
        by_cases hstatus : response.statusCode = 403
        · simp only [afterResponse, if_pos hstatus, Flow.always_once_iff]
          intro out hout
          obtain ⟨newToken, hrenew, hadd⟩ := bind_eq_ok_iff.mp hout
          exact ⟨newToken, hrenew, retry_onlyAdds hloc hfits honly hadd⟩
        · simp only [afterResponse, if_neg hstatus]
          trivial

end

/-! ## A request with and one without a query -/

def exampleApplication : Application where
  authUserKey := "user_key"
  authAppId := "app_id"
  authAppKey := "app_key"
  credentialsLocation := "query"
  userKey := "8a34b2"
  applicationId := "f1c9"
  keys := ["77d0e5"]

def exampleRequest (params : List (String × String)) : Request PlainUrl PlainHeaders where
  method := "GET"
  url := ⟨"/get", params⟩
  headers := ⟨[("Accept", "*/*")]⟩
  body := []

theorem authFlow_onlyAdds_renewed :
    AddsOnlyCredentials (.ok "renewed") ⟨"query", .oidc "first"⟩ (exampleRequest []) :=
  (authFlow_onlyAdds_iff (.ok "renewed") ⟨"query", .oidc "first"⟩ (exampleRequest [])
    (by decide) (by decide)).mpr ⟨fun _ _ he => absurd he List.not_mem_nil, fun _ => trivial⟩

/-- A user key in the query replaces the parameter that is already there. -/
theorem authFlow_drops_query :
    let auth := userKeyAuth exampleApplication none
    let request := exampleRequest [("foo", "bar")]
    auth.location ∈ supportedLocations ∧ auth.credentials.names.Nodup ∧
      (∀ e ∈ Url.params request.url, e.1 ∉ auth.credentials.names) ∧
      ¬ AddsOnlyCredentials (.ok "") auth request := by
  intro auth request
  refine ⟨by decide, by decide, by decide, ?_⟩
  rintro ⟨first, resume, hyield, honly, -, -⟩
  have hfirst : first = { request with url := ⟨"/get", [("user_key", "8a34b2")]⟩ } := by
    cases hyield
    rfl
  have hparams := honly.params
  rw [hfirst] at hparams
  exact absurd hparams (by decide)

end ThreescaleTests.Httpx
