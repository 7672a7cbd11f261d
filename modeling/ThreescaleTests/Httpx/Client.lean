import Mathlib.Data.List.Chain
import Mathlib.Logic.Function.Basic
import ThreescaleTests.Httpx.OnlyAdds
import ThreescaleTests.Library.Retry
import ThreescaleTests.Library.Simulation

/-!
# Sessions of the HTTP client

A call authenticates its request with the authentication object it names or with the
client's own, asks for a new token once if the answer is 403, and is made again while the
answer has a status that is not expected. The client library, the servers and the single
sign-on behind it are a transport; a session keeps what it was asked and what it answered.
-/

namespace ThreescaleTests.Httpx

open Library

/-! ## Unexpected statuses -/

def unexpectedResponse (statusCode : Nat) : Exn :=
  .custom "UnexpectedResponse"
    (some ("Didn't expect '" ++ toString statusCode ++ "' status code"))

def isUnexpectedResponse : Exn → Bool
  | .custom name _ => name == "UnexpectedResponse"
  | _ => false

@[simp] theorem isUnexpectedResponse_unexpectedResponse (statusCode : Nat) :
    isUnexpectedResponse (unexpectedResponse statusCode) = true := rfl

/-- Code outside this file does not raise its exception. -/
def Foreign {ω α : Type} (m : Prog ω α) : Prop :=
  ∀ w e, (m.run w).1 = .error e → isUnexpectedResponse e = false

/-! ## The transport -/

/-- The client library and what is behind it: `build` makes a request of the arguments of a
call, `send` is one exchange with its redirects, `accessToken` asks for a token for an
authentication object. -/
structure Transport (ω ι ρ U H : Type) where
  build : ρ → Prog ω (Request U H)
  send : Request U H → Prog ω Response
  accessToken : ι → Prog ω String
  build_foreign : ∀ args, Foreign (build args)
  send_foreign : ∀ request, Foreign (send request)
  accessToken_foreign : ∀ auth, Foreign (accessToken auth)

/-- What the transport was asked, and what it returned or raised. -/
inductive Event (ι U H : Type) where
  | built (answer : Except Exn (Request U H))
  | sent (auth : ι) (request : Request U H) (answer : Except Exn Response)
  | renewed (auth : ι) (answer : Except Exn String)

structure Session (ω ι U H : Type) where
  world : ω
  /-- The authentication objects, those of calls and those of clients. -/
  auths : ι → ClientAuth
  log : List (Event ι U H)

variable {ω ι ρ U H : Type}

def observe {α : Type} (event : Except Exn α → Event ι U H) (m : Prog ω α) :
    Prog (Session ω ι U H) α :=
  ⟨fun s => ((m.run s.world).1,
    { s with
      world := (m.run s.world).2
      log := s.log ++ [event (m.run s.world).1] })⟩

@[simp] theorem observe_run {α : Type} (event : Except Exn α → Event ι U H) (m : Prog ω α)
    (s : Session ω ι U H) : (observe event m).run s =
      ((m.run s.world).1, ⟨(m.run s.world).2, s.auths, s.log ++ [event (m.run s.world).1]⟩) :=
  rfl

theorem observe_of_run {α : Type} {event : Except Exn α → Event ι U H} {m : Prog ω α}
    {s : Session ω ι U H} {r : Except Exn α} {w : ω} (h : m.run s.world = (r, w)) :
    (observe event m).run s = (r, ⟨w, s.auths, s.log ++ [event r]⟩) := by
  rw [observe_run, h]

theorem Foreign.of_run {α : Type} {m : Prog ω α} (h : Foreign m) {w w' : ω} {r : Except Exn α}
    (hrun : m.run w = (r, w')) {e : Exn} (hr : r = .error e) : isUnexpectedResponse e = false :=
  h w e (by rw [hrun, hr])

/-! ## The client -/

structure HttpxClient (ι : Type) where
  auth : ι
  disableRetryStatusList : List Nat

def HttpxClient.statusForcelist (client : HttpxClient ι) : List Nat :=
  [503, 404].filter fun statusCode => statusCode ∉ client.disableRetryStatusList

def HttpxClient.checkStatus (client : HttpxClient ι) (response : Response) :
    Except Exn Response :=
  if response.statusCode ∈ client.statusForcelist then
    .error (unexpectedResponse response.statusCode)
  else .ok response

structure Call (ι ρ : Type) where
  auth : Option ι
  args : ρ

section

variable [Url U] [Headers H] [DecidableEq ι] (transport : Transport ω ι ρ U H)

/-- `self._client.request(...)`: the client library runs the `auth_flow` of the object. -/
def attempt (i : ι) (args : ρ) : Prog (Session ω ι U H) Response := do
  let request ← observe .built (transport.build args)
  let auth ← Prog.gets fun s => s.auths i
  let sent ← Prog.lift (authenticate auth request)
  let response ← observe (.sent i sent) (transport.send sent)
  match auth.credentials with
  | .oidc _ =>
      if response.statusCode = 403 then do
        let token ← observe (.renewed i) (transport.accessToken i)
        Prog.modify fun s =>
          { s with auths := Function.update s.auths i (auth.renewed token) }
        let again ← Prog.lift (addCredentials auth.location token sent)
        observe (.sent i again) (transport.send again)
      else pure response
  | _ => pure response

def requestOnce (client : HttpxClient ι) (i : ι) (args : ρ) :
    Prog (Session ω ι U H) Response := do
  let response ← attempt transport i args
  Prog.lift (client.checkStatus response)

/-- `HttpxClient.request` with `max_tries=8` -/
def request (client : HttpxClient ι) (call : Call ι ρ) : Prog (Session ω ι U H) Response :=
  Prog.retry isUnexpectedResponse
    (requestOnce transport client (call.auth.getD client.auth) call.args) 7

end

/-! ## What an attempt does -/

/-- Authentication of any request succeeds. -/
structure ClientAuth.Usable (auth : ClientAuth) : Prop where
  location : auth.location ∈ supportedLocations
  names : auth.credentials.names.Nodup

@[simp] theorem ClientAuth.renewed_location (auth : ClientAuth) (token : String) :
    (auth.renewed token).location = auth.location := by
  unfold ClientAuth.renewed
  split <;> rfl

theorem ClientAuth.Usable.renewed {auth : ClientAuth} (h : auth.Usable) (token : String) :
    (auth.renewed token).Usable where
  location := by
    rw [ClientAuth.renewed_location]
    exact h.location
  names := by
    have hnames := h.names
    unfold ClientAuth.renewed
    split
    · simp [Credentials.names, Credentials.items]
    · exact hnames

section

variable [Url U] [Headers H]

theorem ClientAuth.Usable.authenticate_ok {auth : ClientAuth} (h : auth.Usable)
    (request : Request U H) : ∃ sent, authenticate auth request = .ok sent :=
  Httpx.authenticate_ok request h.location h.names

/-- An object whose token can be renewed authenticates with its new token. -/
theorem ClientAuth.Renews.authenticate_renewed {auth : ClientAuth} {response : Response}
    (h : auth.Renews response) (token : String) (request : Request U H) :
    authenticate (auth.renewed token) request = addCredentials auth.location token request := by
  obtain ⟨⟨old, hold⟩, -⟩ := h
  simp only [ClientAuth.renewed, hold, authenticate]

/-- What an attempt with the object `i` asks the transport, its result, and the objects
after it. -/
inductive Attempted [DecidableEq ι] (auths : ι → ClientAuth) (i : ι) :
    List (Event ι U H) → Except Exn Response → (ι → ClientAuth) → Prop where
  | unbuilt {e : Exn} (he : isUnexpectedResponse e = false) :
      Attempted auths i [.built (.error e)] (.error e) auths
  | answered {built sent : Request U H} {answer : Except Exn Response}
      (hsent : authenticate (auths i) built = .ok sent)
      (hkept : ∀ response, answer = .ok response → ¬ (auths i).Renews response)
      (hforeign : ∀ e, answer = .error e → isUnexpectedResponse e = false) :
      Attempted auths i [.built (.ok built), .sent i sent answer] answer auths
  | expired {built sent : Request U H} {response : Response} {e : Exn}
      (hsent : authenticate (auths i) built = .ok sent)
      (hrenews : (auths i).Renews response) (he : isUnexpectedResponse e = false) :
      Attempted auths i [.built (.ok built), .sent i sent (.ok response), .renewed i (.error e)]
        (.error e) auths
  | renewed {built sent again : Request U H} {response : Response} {token : String}
      {answer : Except Exn Response} (hsent : authenticate (auths i) built = .ok sent)
      (hrenews : (auths i).Renews response)
      (hagain : authenticate ((auths i).renewed token) sent = .ok again)
      (hforeign : ∀ e, answer = .error e → isUnexpectedResponse e = false) :
      Attempted auths i [.built (.ok built), .sent i sent (.ok response), .renewed i (.ok token),
        .sent i again answer] answer (Function.update auths i ((auths i).renewed token))

end

section

variable [Url U] [Headers H] [DecidableEq ι] {transport : Transport ω ι ρ U H}

/-- What an attempt comes to in a session. -/
def AttemptSpec (i : ι) (s : Session ω ι U H)
    (run : Except Exn Response × Session ω ι U H) : Prop :=
  ∃ events, run.2.log = s.log ++ events ∧ Attempted s.auths i events run.1 run.2.auths

/-- After the rejection of the request that was sent first. -/
theorem attempt_renew {s t : Session ω ι U H} {i : ι} {built sent : Request U H}
    {response : Response} (hsent : authenticate (s.auths i) built = .ok sent)
    (hrenews : (s.auths i).Renews response) (hauths : t.auths = s.auths)
    (hlog : t.log = s.log ++ [.built (.ok built), .sent i sent (.ok response)])
    (husable : (s.auths i).Usable) :
    AttemptSpec i s ((do
      let token ← observe (.renewed i) (transport.accessToken i)
      Prog.modify fun t : Session ω ι U H =>
        { t with auths := Function.update t.auths i ((s.auths i).renewed token) }
      let again ← Prog.lift (addCredentials (s.auths i).location token sent)
      observe (.sent i again) (transport.send again)).run t) := by
  cases htoken : (transport.accessToken i).run t.world with
  | mk r w =>
      have hobserve := @observe_of_run ω ι U H String (.renewed i) _ t r w htoken
      cases r with
      | error e =>
          rw [Prog.bind_of_error hobserve]
          refine ⟨[.built (.ok built), .sent i sent (.ok response), .renewed i (.error e)], ?_, ?_⟩
          · simp only [hlog, List.append_assoc]
            rfl
          · show Attempted s.auths i _ (.error e) t.auths
            rw [hauths]
            exact .expired hsent hrenews ((transport.accessToken_foreign i).of_run htoken rfl)
      | ok token =>
          obtain ⟨again, hagain⟩ := (husable.renewed token).authenticate_ok sent
          have hadd := hagain
          rw [hrenews.authenticate_renewed] at hadd
          rw [Prog.bind_of_ok hobserve, Prog.modify_bind_run, Prog.lift_bind_of_ok hadd]
          cases hsend : (transport.send again).run w with
          | mk answer w' =>
              rw [observe_of_run (by exact hsend)]
              refine ⟨[.built (.ok built), .sent i sent (.ok response), .renewed i (.ok token),
                .sent i again answer], ?_, ?_⟩
              · simp only [hlog, List.append_assoc]
                rfl
              · simp only [hauths]
                exact .renewed hsent hrenews hagain fun e he =>
                  (transport.send_foreign again).of_run hsend he

theorem attempt_spec {s : Session ω ι U H} {i : ι} (husable : (s.auths i).Usable) (args : ρ) :
    AttemptSpec i s ((attempt transport i args).run s) := by
  unfold attempt
  cases hbuild : (transport.build args).run s.world with
  | mk r w =>
      have hobserve := @observe_of_run ω ι U H (Request U H) .built _ s r w hbuild
      cases r with
      | error e =>
          rw [Prog.bind_of_error hobserve]
          exact ⟨_, rfl, .unbuilt ((transport.build_foreign args).of_run hbuild rfl)⟩
      | ok built =>
          obtain ⟨sent, hsent⟩ := husable.authenticate_ok built
          rw [Prog.bind_of_ok hobserve, Prog.gets_bind_run, Prog.lift_bind_of_ok hsent]
          cases hsend : (transport.send sent).run w with
          | mk answer w' =>
              have hobserve' := @observe_of_run ω ι U H Response (.sent i sent) _
                ⟨w, s.auths, s.log ++ [.built (.ok built)]⟩ answer w' hsend
              cases answer with
              | error e =>
                  rw [Prog.bind_of_error hobserve']
                  refine ⟨_, List.append_assoc .., .answered hsent nofun fun e' he' => ?_⟩
                  exact (transport.send_foreign sent).of_run hsend he'
              | ok response =>
                  rw [Prog.bind_of_ok hobserve']
                  by_cases hrenews : (s.auths i).Renews response
                  · have hspec := @attempt_renew ω ι ρ U H _ _ _ transport s
                      ⟨w', s.auths, s.log ++ [.built (.ok built)] ++ [.sent i sent (.ok response)]⟩
                      i built sent response hsent hrenews rfl (List.append_assoc ..) husable
                    obtain ⟨⟨token, htoken⟩, hstatus⟩ := id hrenews
                    simp only [htoken, if_pos hstatus]
                    exact hspec
                  · refine ⟨[.built (.ok built), .sent i sent (.ok response)], ?_⟩
                    have hanswered := @Attempted.answered ι U H _ _ _ s.auths i built sent
                      (.ok response) hsent (fun _ hr => by cases hr; exact hrenews) nofun
                    split
                    next token htoken =>
                      have hstatus : response.statusCode ≠ 403 :=
                        fun h => hrenews ⟨⟨token, htoken⟩, h⟩
                      rw [if_neg hstatus]
                      exact ⟨List.append_assoc .., hanswered⟩
                    next => exact ⟨List.append_assoc .., hanswered⟩

end

/-! ## What a call does -/

@[simp] def Event.isBuilt : Event ι U H → Bool
  | .built _ => true
  | _ => false

@[simp] def Event.isSent : Event ι U H → Bool
  | .sent .. => true
  | _ => false

/-- What a call does next. -/
inductive Follows (client : HttpxClient ι) : Event ι U H → Event ι U H → Prop where
  | authenticated {built sent : Request U H} {i : ι} {answer : Except Exn Response} :
      Follows client (.built (.ok built)) (.sent i sent answer)
  | rejected {i : ι} {sent : Request U H} {response : Response} {answer : Except Exn String}
      (h : response.statusCode = 403) :
      Follows client (.sent i sent (.ok response)) (.renewed i answer)
  | renewed {i : ι} {token : String} {sent : Request U H} {answer : Except Exn Response} :
      Follows client (.renewed i (.ok token)) (.sent i sent answer)
  | unexpected {i : ι} {sent : Request U H} {response : Response}
      {answer : Except Exn (Request U H)} (h : response.statusCode ∈ client.statusForcelist) :
      Follows client (.sent i sent (.ok response)) (.built answer)

/-- What a call returns or raises after the last thing it did. -/
inductive Ends (client : HttpxClient ι) : Event ι U H → Except Exn Response → Prop where
  | unbuilt {e : Exn} (he : isUnexpectedResponse e = false) :
      Ends client (.built (.error e)) (.error e)
  | unsent {i : ι} {sent : Request U H} {e : Exn} (he : isUnexpectedResponse e = false) :
      Ends client (.sent i sent (.error e)) (.error e)
  | expired {i : ι} {e : Exn} (he : isUnexpectedResponse e = false) :
      Ends client (.renewed i (.error e)) (.error e)
  | expected {i : ι} {sent : Request U H} {response : Response}
      (h : response.statusCode ∉ client.statusForcelist) :
      Ends client (.sent i sent (.ok response)) (.ok response)
  | unexpected {i : ι} {sent : Request U H} {response : Response}
      (h : response.statusCode ∈ client.statusForcelist) :
      Ends client (.sent i sent (.ok response)) (.error (unexpectedResponse response.statusCode))

/-- A request is built once, and sent at most once before and once after a renewal. -/
structure IsTry (events : List (Event ι U H)) : Prop where
  starts : ∃ answer, events.head? = some (.built answer)
  built : events.countP Event.isBuilt = 1
  messages : events.countP Event.isSent ≤ 2

/-- What a call with the object `i` that is made `tries` times at most does. -/
structure Exchanged (client : HttpxClient ι) (i : ι) (tries : Nat) (events : List (Event ι U H))
    (result : Except Exn Response) : Prop where
  starts : ∃ answer, events.head? = some (.built answer)
  follows : events.IsChain (Follows client)
  ends : ∃ event, events.getLast? = some event ∧ Ends client event result
  object : ∀ j sent answer, .sent j sent answer ∈ events → j = i
  attempts : events.countP Event.isBuilt ≤ tries
  messages : ∃ parts : List (List (Event ι U H)),
    events = parts.flatten ∧ ∀ part ∈ parts, IsTry part
  persists : ∀ e, result = .error e → isUnexpectedResponse e = true →
    events.countP Event.isBuilt = tries

theorem ends_sent (client : HttpxClient ι) (i : ι) (sent : Request U H)
    {answer : Except Exn Response}
    (hforeign : ∀ e, answer = .error e → isUnexpectedResponse e = false) :
    Ends client (.sent i sent answer) (answer >>= client.checkStatus) := by
  cases answer with
  | error e => exact .unsent (hforeign e rfl)
  | ok response =>
      rw [ok_bind, HttpxClient.checkStatus]
      by_cases h : response.statusCode ∈ client.statusForcelist
      · rw [if_pos h]
        exact .unexpected h
      · rw [if_neg h]
        exact .expected h

/-- A call ends with an exception of this file exactly after an unexpected status. -/
theorem Ends.unexpected_of_caught {client : HttpxClient ι} {event : Event ι U H} {e : Exn}
    (h : Ends client event (.error e)) (he : isUnexpectedResponse e = true) :
    ∃ i sent response, event = .sent i sent (.ok response) ∧
      response.statusCode ∈ client.statusForcelist := by
  cases h with
  | unbuilt hforeign => exact absurd (he.symm.trans hforeign) (by decide)
  | unsent hforeign => exact absurd (he.symm.trans hforeign) (by decide)
  | expired hforeign => exact absurd (he.symm.trans hforeign) (by decide)
  | unexpected hstatus => exact ⟨_, _, _, rfl, hstatus⟩

section

variable [Url U] [Headers H] [DecidableEq ι] {transport : Transport ω ι ρ U H}

theorem Attempted.object {auths auths' : ι → ClientAuth} {i : ι} {events : List (Event ι U H)}
    {result : Except Exn Response} (h : Attempted auths i events result auths') (j : ι)
    (sent : Request U H) (answer : Except Exn Response) (hmem : .sent j sent answer ∈ events) :
    j = i := by
  cases h <;>
    simp only [List.mem_cons, List.not_mem_nil, or_false, false_or, reduceCtorEq,
      Event.sent.injEq] at hmem
  case answered => exact hmem.1
  case expired => exact hmem.1
  case renewed => exact hmem.elim And.left And.left

theorem Attempted.isTry {auths auths' : ι → ClientAuth} {i : ι} {events : List (Event ι U H)}
    {result : Except Exn Response} (h : Attempted auths i events result auths') :
    IsTry events := by
  cases h with
  | unbuilt => exact ⟨⟨_, rfl⟩, rfl, Nat.zero_le 2⟩
  | answered => exact ⟨⟨_, rfl⟩, rfl, Nat.le_succ 1⟩
  | expired => exact ⟨⟨_, rfl⟩, rfl, Nat.le_succ 1⟩
  | renewed => exact ⟨⟨_, rfl⟩, rfl, Nat.le_refl 2⟩

theorem Attempted.exchanged {auths auths' : ι → ClientAuth} {i : ι} {events : List (Event ι U H)}
    {answer : Except Exn Response} (client : HttpxClient ι)
    (h : Attempted auths i events answer auths') :
    Exchanged client i 1 events (answer >>= client.checkStatus) := by
  have hobject := h.object
  have htry := h.isTry
  have hmessages : ∃ parts : List (List (Event ι U H)),
      events = parts.flatten ∧ ∀ part ∈ parts, IsTry part :=
    ⟨[events], by simp, fun part hpart => List.mem_singleton.mp hpart ▸ htry⟩
  have hbuilt := htry.built
  cases h with
  | unbuilt he =>
      exact ⟨⟨_, rfl⟩, .singleton _, ⟨_, rfl, .unbuilt he⟩, hobject, hbuilt.le, hmessages,
        fun _ _ _ => hbuilt⟩
  | answered hsent hkept hforeign =>
      refine ⟨⟨_, rfl⟩, ?_, ⟨_, rfl, ends_sent client i _ hforeign⟩, hobject, hbuilt.le, hmessages,
        fun _ _ _ => hbuilt⟩
      exact List.isChain_pair.mpr .authenticated
  | expired hsent hrenews he =>
      refine ⟨⟨_, rfl⟩, ?_, ⟨_, rfl, .expired he⟩, hobject, hbuilt.le, hmessages,
        fun _ _ _ => hbuilt⟩
      exact .cons_cons .authenticated (List.isChain_pair.mpr (.rejected hrenews.2))
  | renewed hsent hrenews hagain hforeign =>
      refine ⟨⟨_, rfl⟩, ?_, ⟨_, rfl, ends_sent client i _ hforeign⟩, hobject, hbuilt.le, hmessages,
        fun _ _ _ => hbuilt⟩
      exact .cons_cons .authenticated
        (.cons_cons (.rejected hrenews.2) (List.isChain_pair.mpr .renewed))

theorem Attempted.usable {auths auths' : ι → ClientAuth} {i j : ι} {events : List (Event ι U H)}
    {answer : Except Exn Response} (h : Attempted auths i events answer auths')
    (husable : (auths j).Usable) : (auths' j).Usable := by
  cases h with
  | unbuilt => exact husable
  | answered => exact husable
  | expired => exact husable
  | renewed =>
      by_cases hij : j = i
      · subst hij
        rw [Function.update_self]
        exact husable.renewed _
      · rwa [Function.update_of_ne hij]

end

/-- A try that ends with an unexpected status, and the tries after it. -/
theorem Exchanged.again {client : HttpxClient ι} {i : ι} {n : Nat}
    {events events' : List (Event ι U H)} {e : Exn} {result : Except Exn Response}
    (h : Exchanged client i 1 events (.error e)) (he : isUnexpectedResponse e = true)
    (h' : Exchanged client i n events' result) :
    Exchanged client i (n + 1) (events ++ events') result := by
  obtain ⟨event, hlast, hends⟩ := h.ends
  obtain ⟨j, sent, response, rfl, hstatus⟩ := hends.unexpected_of_caught he
  obtain ⟨answer', hhead'⟩ := h'.starts
  have hone : events.countP Event.isBuilt = 1 := h.persists e rfl he
  have hattempts' := h'.attempts
  constructor
  case starts =>
    obtain ⟨answer, hhead⟩ := h.starts
    exact ⟨answer, by rw [List.head?_append, hhead, Option.some_or]⟩
  case follows =>
    refine h.follows.append h'.follows fun x hx y hy => ?_
    rw [hlast, Option.mem_some_iff] at hx
    rw [hhead', Option.mem_some_iff] at hy
    subst hx hy
    exact .unexpected hstatus
  case ends =>
    obtain ⟨event', hlast', hends'⟩ := h'.ends
    exact ⟨event', by rw [List.getLast?_append, hlast', Option.some_or], hends'⟩
  case object =>
    intro k sent' answer hmem
    rcases List.mem_append.mp hmem with hmem | hmem
    · exact h.object k sent' answer hmem
    · exact h'.object k sent' answer hmem
  case attempts =>
    rw [List.countP_append]
    omega
  case messages =>
    obtain ⟨parts, hparts, htries⟩ := h.messages
    obtain ⟨parts', hparts', htries'⟩ := h'.messages
    refine ⟨parts ++ parts', by rw [hparts, hparts', List.flatten_append], ?_⟩
    exact List.forall_mem_append.mpr ⟨htries, htries'⟩
  case persists =>
    intro e' hresult he'
    have hpersists' := h'.persists e' hresult he'
    rw [List.countP_append]
    omega

theorem Exchanged.mono {client : HttpxClient ι} {i : ι} {n m : Nat} {events : List (Event ι U H)}
    {result : Except Exn Response} (h : Exchanged client i n events result) (hnm : n ≤ m)
    (hresult : ∀ e, result = .error e → isUnexpectedResponse e = false) :
    Exchanged client i m events result where
  starts := h.starts
  follows := h.follows
  ends := h.ends
  object := h.object
  attempts := h.attempts.trans hnm
  messages := h.messages
  persists e he hcaught := absurd (hcaught.symm.trans (hresult e he)) (by decide)

section

variable [Url U] [Headers H] [DecidableEq ι] {transport : Transport ω ι ρ U H}

theorem requestOnce_spec (client : HttpxClient ι) {s : Session ω ι U H} {i : ι}
    (husable : (s.auths i).Usable) (args : ρ) :
    ∃ events answer, ((requestOnce transport client i args).run s).2.log = s.log ++ events ∧
      ((requestOnce transport client i args).run s).1 = (answer >>= client.checkStatus) ∧
      Attempted s.auths i events answer
        ((requestOnce transport client i args).run s).2.auths := by
  obtain ⟨events, hlog, hattempted⟩ := @attempt_spec ω ι ρ U H _ _ _ transport s i husable args
  cases hrun : (attempt transport i args).run s with
  | mk answer t =>
      rw [hrun] at hlog hattempted
      refine ⟨events, answer, ?_⟩
      cases answer with
      | error e =>
          rw [requestOnce, Prog.bind_of_error hrun]
          exact ⟨hlog, rfl, hattempted⟩
      | ok response =>
          rw [requestOnce, Prog.bind_of_ok hrun, Prog.lift_run]
          exact ⟨hlog, rfl, hattempted⟩

/-- A call with an object of a supported location and distinct names: eight tries of at most two
messages each, a further try only after an unexpected status, a renewal only after a rejection. -/
theorem request_exchanged (client : HttpxClient ι) (call : Call ι ρ) (s : Session ω ι U H)
    (husable : (s.auths (call.auth.getD client.auth)).Usable) :
    ∃ events, ((request transport client call).run s).2.log = s.log ++ events ∧
      Exchanged client (call.auth.getD client.auth) 8 events
        ((request transport client call).run s).1 := by
  refine Prog.retry_induction (P := fun n s result t =>
    (s.auths (call.auth.getD client.auth)).Usable → ∃ events, t.log = s.log ++ events ∧
      Exchanged client (call.auth.getD client.auth) (n + 1) events result) ?_ ?_ 7 s husable
  · intro n s result t hrun hlast husable
    obtain ⟨events, answer, hlog, hresult, hattempted⟩ :=
      @requestOnce_spec ω ι ρ U H _ _ _ transport client s _ husable call.args
    rw [hrun] at hlog hresult
    have honce := hattempted.exchanged client
    rw [← hresult] at honce
    refine ⟨events, hlog, ?_⟩
    rcases hlast with rfl | hlast
    · exact honce
    · exact honce.mono (Nat.le_add_left 1 n) hlast
  · intro n s e s' result t hrun he hafter husable
    obtain ⟨events, answer, hlog, hresult, hattempted⟩ :=
      @requestOnce_spec ω ι ρ U H _ _ _ transport client s _ husable call.args
    rw [hrun] at hlog hresult hattempted
    have honce := hattempted.exchanged client
    rw [← hresult] at honce
    obtain ⟨events', hlog', hexchanged⟩ := hafter (hattempted.usable husable)
    refine ⟨events ++ events', ?_, honce.again he hexchanged⟩
    rw [hlog', hlog, List.append_assoc]

end

/-! ## A rejected token and an unexpected status -/

/-- Answers with these statuses, then with 200. -/
def exampleTransport (statusCodes : List Nat) :
    Transport Nat Unit Unit PlainUrl PlainHeaders where
  build _ := pure (exampleRequest [])
  send _ := ⟨fun sent => (.ok ⟨statusCodes.getD sent 200⟩, sent + 1)⟩
  accessToken _ := pure "second"
  build_foreign _ _ _ h := nomatch h
  send_foreign _ _ _ h := nomatch h
  accessToken_foreign _ _ _ h := nomatch h

def exampleSession : Session Nat Unit PlainUrl PlainHeaders where
  world := 0
  auths _ := ⟨"query", .oidc "first"⟩
  log := []

theorem exampleSession_usable (i : Unit) : (exampleSession.auths i).Usable where
  location := (by decide : "query" ∈ supportedLocations)
  names := (by decide : (Credentials.oidc "first").names.Nodup)

/-- A status of the list is retried, and a token that the second try finds rejected is renewed. -/
theorem request_exchanged_of_unexpected :
    ∃ events, ((request (exampleTransport [503, 403]) ⟨(), []⟩ ⟨none, ()⟩).run
        exampleSession).2.log = [] ++ events ∧
      Exchanged ⟨(), []⟩ () 8 events (.ok ⟨200⟩) :=
  @request_exchanged Nat Unit Unit PlainUrl PlainHeaders _ _ _ (exampleTransport [503, 403])
    ⟨(), []⟩ ⟨none, ()⟩ exampleSession (exampleSession_usable ())

end ThreescaleTests.Httpx
