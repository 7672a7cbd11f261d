import ThreescaleTests.Httpx.Sessions
import ThreescaleTests.Library.Run

/-!
# Calls at the same time

Calls of the asynchronous clients wait for their answers side by side and share the
authentication objects: while a message of one call is on its way, another call may renew the
token. Nothing else happens between two awaits of a call.
-/

namespace ThreescaleTests.Httpx

open Library

variable {ι κ U H : Type}

/-! ## Calls that wait -/

/-- A message that is on its way, and the request it was made of. -/
structure Pending (ι U H : Type) where
  client : HttpxClient ι
  auth : ι
  retries : Nat
  built : Request U H
  sent : Request U H
  renewed : Bool

inductive Progress (ι U H : Type) where
  | idle
  | waiting (pending : Pending ι U H)
  | sleeping (client : HttpxClient ι) (auth : ι) (retries : Nat)
  | finished (result : Except Exn Response)

/-- A message with the request it was made of, or a new token. -/
inductive Entry (ι κ U H : Type) where
  | sent (k : κ) (auth : ι) (built : Request U H) (message : Request U H)
  | renewed (auth : ι) (token : String)

structure Concurrent (ι κ U H : Type) where
  auths : ι → ClientAuth
  calls : κ → Progress ι U H
  log : List (Entry ι κ U H)

/-- What a call comes to next, with what the client library, the servers and the single sign-on
answer to it. -/
inductive Move (ι κ U H : Type) where
  | start (k : κ) (client : HttpxClient ι) (auth : Option ι) (built : Except Exn (Request U H))
  | answer (k : κ) (answer : Except Exn Response) (token : Except Exn String)
  | wake (k : κ) (built : Except Exn (Request U H))

section

variable [DecidableEq κ]

def Concurrent.set (k : κ) (progress : Progress ι U H) (s : Concurrent ι κ U H) :
    Concurrent ι κ U H :=
  { s with calls := Function.update s.calls k progress }

/-- The end of a try, which is made again while the status is not expected. -/
def Concurrent.endTry (k : κ) (client : HttpxClient ι) (auth : ι) (retries : Nat)
    (answer : Except Exn Response) (s : Concurrent ι κ U H) : Concurrent ι κ U H :=
  match answer >>= client.checkStatus with
  | .ok response => s.set k (.finished (.ok response))
  | .error e =>
      match isUnexpectedResponse e, retries with
      | true, n + 1 => s.set k (.sleeping client auth n)
      | _, _ => s.set k (.finished (.error e))

section

variable [Url U] [Headers H]

/-- The start of a try: the request is authenticated and sent. -/
def Concurrent.send (k : κ) (client : HttpxClient ι) (auth : ι) (retries : Nat)
    (built : Except Exn (Request U H)) (s : Concurrent ι κ U H) : Concurrent ι κ U H :=
  match built with
  | .error e => s.endTry k client auth retries (.error e)
  | .ok request =>
      match authenticate (s.auths auth) request with
      | .error e => s.endTry k client auth retries (.error e)
      | .ok message =>
          { s.set k (.waiting ⟨client, auth, retries, request, message, false⟩) with
            log := s.log ++ [.sent k auth request message] }

variable [DecidableEq ι]

def Concurrent.renewToken (auth : ι) (token : String) (s : Concurrent ι κ U H) :
    Concurrent ι κ U H :=
  { s with
    auths := Function.update s.auths auth ((s.auths auth).renewed token)
    log := s.log ++ [.renewed auth token] }

/-- A message is sent once more, with the new token. -/
def Concurrent.resend (k : κ) (p : Pending ι U H) (token : String) (s : Concurrent ι κ U H) :
    Concurrent ι κ U H :=
  match addCredentials (s.auths p.auth).location token p.sent with
  | .error e => s.endTry k p.client p.auth p.retries (.error e)
  | .ok message =>
      { s.set k (.waiting { p with sent := message, renewed := true }) with
        log := s.log ++ [.sent k p.auth p.built message] }

instance (auth : ClientAuth) (response : Response) : Decidable (auth.Renews response) :=
  match h : auth.credentials with
  | .oidc token => decidable_of_iff (response.statusCode = 403)
      ⟨fun hstatus => ⟨⟨token, h⟩, hstatus⟩, And.right⟩
  | .userKey _ _ => .isFalse fun hrenews => by
      obtain ⟨⟨token, htoken⟩, -⟩ := hrenews
      rw [h] at htoken
      cases htoken
  | .appIdKey _ _ _ _ => .isFalse fun hrenews => by
      obtain ⟨⟨token, htoken⟩, -⟩ := hrenews
      rw [h] at htoken
      cases htoken

def Concurrent.start (k : κ) (client : HttpxClient ι) (auth : Option ι)
    (built : Except Exn (Request U H)) (s : Concurrent ι κ U H) : Concurrent ι κ U H :=
  match s.calls k with
  | .idle => s.send k client (auth.getD client.auth) 7 built
  | _ => s

/-- The answer to a message, and the token that is given if the answer asks for one. -/
def Concurrent.answered (k : κ) (answer : Except Exn Response) (token : Except Exn String)
    (s : Concurrent ι κ U H) : Concurrent ι κ U H :=
  match s.calls k, answer with
  | .waiting p, .ok response =>
      if p.renewed = false ∧ (s.auths p.auth).Renews response then
        match token with
        | .error e => s.endTry k p.client p.auth p.retries (.error e)
        | .ok token => (s.renewToken p.auth token).resend k p token
      else s.endTry k p.client p.auth p.retries (.ok response)
  | .waiting p, .error e => s.endTry k p.client p.auth p.retries (.error e)
  | _, _ => s

def Concurrent.wake (k : κ) (built : Except Exn (Request U H)) (s : Concurrent ι κ U H) :
    Concurrent ι κ U H :=
  match s.calls k with
  | .sleeping client auth retries => s.send k client auth retries built
  | _ => s

def Concurrent.step : Move ι κ U H → Concurrent ι κ U H → Concurrent ι κ U H
  | .start k client auth built, s => s.start k client auth built
  | .answer k answer token, s => s.answered k answer token
  | .wake k built, s => s.wake k built

end

end

/-! ## Tokens in a log -/

section

variable [DecidableEq ι]

def Entry.next (i : ι) (auth : ClientAuth) : Entry ι κ U H → ClientAuth
  | .renewed j token => if j = i then auth.renewed token else auth
  | .sent _ _ _ _ => auth

/-- The object `i` with the tokens of a log. -/
def current (i : ι) (auth : ClientAuth) (log : List (Entry ι κ U H)) : ClientAuth :=
  log.foldl (Entry.next i) auth

theorem current_concat (i : ι) (auth : ClientAuth) (log : List (Entry ι κ U H))
    (entry : Entry ι κ U H) :
    current i auth (log ++ [entry]) = entry.next i (current i auth log) := by
  rw [current, List.foldl_append]
  rfl

end

/-- An object that is what it was at first but for its token. -/
def SameButToken (auth auth' : ClientAuth) : Prop :=
  auth' = auth ∨ ∃ token, auth' = auth.renewed token

theorem renewed_renewed (auth : ClientAuth) (token token' : String) :
    (auth.renewed token).renewed token' = auth.renewed token' := by
  obtain ⟨location, credentials⟩ := auth
  cases credentials <;> rfl

namespace SameButToken

variable {auth auth' : ClientAuth} (h : SameButToken auth auth')

include h

theorem renewed_eq (token : String) : auth'.renewed token = auth.renewed token := by
  rcases h with rfl | ⟨old, rfl⟩
  · rfl
  · exact renewed_renewed auth old token

theorem renewed (token : String) : SameButToken auth (auth'.renewed token) :=
  .inr ⟨token, h.renewed_eq token⟩

theorem usable (husable : auth.Usable) : auth'.Usable := by
  rcases h with rfl | ⟨token, rfl⟩
  · exact husable
  · exact husable.renewed token

theorem fits_iff [Url U] (request : Request U H) : Fits auth' request ↔ Fits auth request := by
  rcases h with rfl | ⟨token, rfl⟩
  · rfl
  · exact fits_renewed_iff auth token request

theorem renews_iff (response : Response) : auth'.Renews response ↔ auth.Renews response := by
  rcases h with rfl | ⟨token, rfl⟩
  · rfl
  · obtain ⟨location, credentials⟩ := auth
    cases credentials with
    | userKey name key => rfl
    | appIdKey idName id keyName key => rfl
    | oidc old => exact and_congr_left fun _ => ⟨fun _ => ⟨old, rfl⟩, fun _ => ⟨token, rfl⟩⟩

end SameButToken

theorem sameButToken_current [DecidableEq ι] (i : ι) (auth : ClientAuth)
    (log : List (Entry ι κ U H)) : SameButToken auth (current i auth log) := by
  induction log using List.reverseRecOn with
  | nil => exact .inl rfl
  | append_singleton log entry ih =>
      rw [current_concat]
      cases entry with
      | sent k j built message => exact ih
      | renewed j token =>
          rw [Entry.next]
          split
          · exact ih.renewed token
          · exact ih

/-! ## What is sent -/

section

variable [Url U] [Headers H] [LawfulUrl U] [LawfulHeaders H] {auth old now : ClientAuth}
  {built sent message : Request U H}

theorem onlyAdds_first (husable : auth.Usable) (hnow : SameButToken auth now)
    (hmessage : authenticate now built = .ok message) :
    OnlyAdds now built message ↔ Fits auth built := by
  have husable' := hnow.usable husable
  rw [onlyAdds_iff_fits husable'.location husable'.names hmessage]
  exact hnow.fits_iff built

/-- Another call may have renewed the token since the message was sent for the first time. -/
theorem onlyAdds_resent {response : Response} {token : String} (husable : auth.Usable)
    (hold : SameButToken auth old) (hnow : SameButToken auth now)
    (hsent : authenticate old built = .ok sent) (hrenews : now.Renews response)
    (hmessage : addCredentials now.location token sent = .ok message) :
    OnlyAdds (now.renewed token) built message ↔ Fits auth built := by
  have hrenews' : old.Renews response :=
    (hold.renews_iff response).mpr ((hnow.renews_iff response).mp hrenews)
  have hagain : authenticate (old.renewed token) sent = .ok message := by
    rw [hold.renewed_eq, ← hnow.renewed_eq, hrenews.authenticate_renewed]
    exact hmessage
  rw [hnow.renewed_eq, ← hold.renewed_eq,
    onlyAdds_again_iff (hold.usable husable) hsent hrenews' hagain]
  exact hold.fits_iff built

end

/-! ## Calls that interleave -/

section

variable [DecidableEq ι] [Url U] [Headers H]

/-- A message after a log adds the credentials that its object has by then, exactly if these fit the
request. -/
def Entry.Sound (auths : ι → ClientAuth) (before : List (Entry ι κ U H)) : Entry ι κ U H → Prop
  | .sent _ i built message =>
      OnlyAdds (current i (auths i) before) built message ↔ Fits (auths i) built
  | .renewed _ _ => True

structure Concurrent.Sound (auths₀ : ι → ClientAuth) (s : Concurrent ι κ U H) : Prop where
  auths : ∀ i, s.auths i = current i (auths₀ i) s.log
  entries : ∀ before entry after, s.log = before ++ entry :: after → entry.Sound auths₀ before
  waiting : ∀ k p, s.calls k = .waiting p → p.renewed = false →
    ∃ old, SameButToken (auths₀ p.auth) old ∧ authenticate old p.built = .ok p.sent

namespace Concurrent

variable {auths₀ : ι → ClientAuth} {s : Concurrent ι κ U H} {k : κ}

theorem entries_concat {log : List (Entry ι κ U H)} {entry : Entry ι κ U H}
    (h : ∀ before entry after, log = before ++ entry :: after → entry.Sound auths₀ before)
    (hentry : entry.Sound auths₀ log) (before : List (Entry ι κ U H)) (entry' : Entry ι κ U H)
    (after : List (Entry ι κ U H)) (hlog : log ++ [entry] = before ++ entry' :: after) :
    entry'.Sound auths₀ before := by
  rcases List.eq_nil_or_concat after with rfl | ⟨after', last, rfl⟩
  · obtain ⟨rfl, hlast⟩ := List.append_inj' hlog rfl
    rwa [← List.singleton_inj.mp hlast]
  · have hsplit : log ++ [entry] = (before ++ entry' :: after') ++ [last] := by simpa using hlog
    exact h before entry' after' (List.append_inj' hsplit rfl).1

theorem Sound.sameButToken (h : s.Sound auths₀) (i : ι) : SameButToken (auths₀ i) (s.auths i) := by
  rw [h.auths]
  exact sameButToken_current i (auths₀ i) s.log

theorem Sound.renewToken (h : s.Sound auths₀) (i : ι) (token : String) :
    (s.renewToken i token).Sound auths₀ := by
  refine ⟨fun j => ?_, entries_concat h.entries trivial, h.waiting⟩
  rw [Concurrent.renewToken, current_concat, Entry.next]
  by_cases hj : i = j
  · subst hj
    rw [if_pos rfl, ← h.auths]
    exact Function.update_self i _ s.auths
  · rw [if_neg hj, ← h.auths]
    exact Function.update_of_ne (Ne.symm hj) _ s.auths

variable [DecidableEq κ]

/-- A call that does not wait. -/
theorem Sound.set (h : s.Sound auths₀) {progress : Progress ι U H}
    (hprogress : ∀ p, progress ≠ .waiting p) : (s.set k progress).Sound auths₀ := by
  refine ⟨h.auths, h.entries, fun k' p hcall hrenewed => ?_⟩
  rw [Concurrent.set] at hcall
  by_cases hk : k' = k
  · subst hk
    exact absurd ((Function.update_self k' progress s.calls).symm.trans hcall) (hprogress p)
  · exact h.waiting k' p ((Function.update_of_ne hk progress s.calls).symm.trans hcall) hrenewed

theorem Sound.endTry (h : s.Sound auths₀) (client : HttpxClient ι) (i : ι) (retries : Nat)
    (answer : Except Exn Response) : (s.endTry k client i retries answer).Sound auths₀ := by
  unfold Concurrent.endTry
  split
  · exact h.set nofun
  · split <;> exact h.set nofun

/-- A call whose message is sent. -/
theorem Sound.message (h : s.Sound auths₀) {p : Pending ι U H}
    (hentry : OnlyAdds (s.auths p.auth) p.built p.sent ↔ Fits (auths₀ p.auth) p.built)
    (hfirst : p.renewed = false →
      ∃ old, SameButToken (auths₀ p.auth) old ∧ authenticate old p.built = .ok p.sent) :
    Sound auths₀ { s.set k (.waiting p) with
      log := s.log ++ [.sent k p.auth p.built p.sent] } := by
  refine ⟨fun i => ?_, entries_concat h.entries ?_, fun k' p' hcall hrenewed => ?_⟩
  · rw [current_concat]
    exact h.auths i
  · rw [Entry.Sound, ← h.auths]
    exact hentry
  · rw [Concurrent.set] at hcall
    by_cases hk : k' = k
    · subst hk
      cases (Function.update_self k' _ s.calls).symm.trans hcall
      exact hfirst hrenewed
    · exact h.waiting k' p' ((Function.update_of_ne hk _ s.calls).symm.trans hcall) hrenewed

section

variable [LawfulUrl U] [LawfulHeaders H] (husable : ∀ i, (auths₀ i).Usable)

include husable

theorem Sound.send (h : s.Sound auths₀) (client : HttpxClient ι) (i : ι) (retries : Nat)
    (built : Except Exn (Request U H)) : (s.send k client i retries built).Sound auths₀ := by
  have hsame := h.sameButToken i
  unfold Concurrent.send
  split
  · exact h.endTry client i retries _
  · rename_i request
    split
    · exact h.endTry client i retries _
    · rename_i message hmessage
      exact h.message (p := ⟨client, i, retries, request, message, false⟩)
        (onlyAdds_first (husable i) hsame hmessage) fun _ => ⟨_, hsame, hmessage⟩

theorem Sound.resend (h : s.Sound auths₀) {p : Pending ι U H} (hcall : s.calls k = .waiting p)
    (hfirst : p.renewed = false) {response : Response}
    (hrenews : (s.auths p.auth).Renews response) (token : String) :
    ((s.renewToken p.auth token).resend k p token).Sound auths₀ := by
  have hnow := h.sameButToken p.auth
  obtain ⟨old, hold, hsent⟩ := h.waiting k p hcall hfirst
  have hrenewed := h.renewToken p.auth token
  have hauth : (s.renewToken p.auth token).auths p.auth = (s.auths p.auth).renewed token :=
    Function.update_self p.auth _ s.auths
  unfold Concurrent.resend
  split
  · exact hrenewed.endTry p.client p.auth p.retries _
  · rename_i message hmessage
    rw [hauth, ClientAuth.renewed_location] at hmessage
    refine hrenewed.message (p := { p with sent := message, renewed := true }) ?_ nofun
    rw [hauth]
    exact onlyAdds_resent (husable p.auth) hold hnow hsent hrenews hmessage

theorem Sound.answered (h : s.Sound auths₀) (answer : Except Exn Response)
    (token : Except Exn String) : (s.answered k answer token).Sound auths₀ := by
  unfold Concurrent.answered
  split
  · rename_i p response hcall
    split
    · rename_i hrenews
      split
      · exact h.endTry p.client p.auth p.retries _
      · exact h.resend husable hcall hrenews.1 hrenews.2 _
    · exact h.endTry p.client p.auth p.retries _
  · exact h.endTry _ _ _ _
  · exact h

theorem Sound.step (h : s.Sound auths₀) (move : Move ι κ U H) : (s.step move).Sound auths₀ := by
  cases move with
  | answer k answer token => exact h.answered husable answer token
  | start k client auth built =>
      show (s.start k client auth built).Sound auths₀
      unfold Concurrent.start
      split
      · exact h.send husable client _ 7 built
      · exact h
  | wake k built =>
      show (s.wake k built).Sound auths₀
      unfold Concurrent.wake
      split
      · exact h.send husable _ _ _ built
      · exact h

end

/-- However calls of clients with common authentication objects interleave, which have a supported
location and distinct names, each message adds to the request it was made of the credentials that
its object has when it is sent, exactly if these fit the request. -/
theorem concurrent_messages [LawfulUrl U] [LawfulHeaders H] (s : Concurrent ι κ U H)
    (hidle : ∀ k, s.calls k = .idle) (hlog : s.log = []) (husable : ∀ i, (s.auths i).Usable)
    (moves : List (Move ι κ U H)) (before : List (Entry ι κ U H)) (k : κ) (i : ι)
    (built message : Request U H) (after : List (Entry ι κ U H))
    (h : (run Concurrent.step moves s).log = before ++ .sent k i built message :: after) :
    OnlyAdds (current i (s.auths i) before) built message ↔ Fits (s.auths i) built := by
  have hinit : s.Sound s.auths := by
    refine ⟨fun i => ?_, fun before entry after hnil => ?_, fun k p hcall => ?_⟩
    · rw [hlog]
      rfl
    · rw [hlog] at hnil
      exact absurd hnil.symm (by simp)
    · rw [hidle k] at hcall
      cases hcall
  have hend := run_invariant (fun move _ ht => ht.step husable move) moves hinit
  exact hend.entries before _ after h

end Concurrent

end

/-! ## Two calls whose token was rejected -/

def exampleConcurrent : Concurrent Unit Bool PlainUrl PlainHeaders where
  auths _ := ⟨"query", .oidc "first"⟩
  calls _ := .idle
  log := []

/-- The message of a call carries the token that it renewed after the other call had renewed it. -/
theorem Concurrent.concurrent_messages_of_two_calls :
    let withToken token := { exampleRequest [] with url := ⟨"/get", [("access_token", token)]⟩ }
    OnlyAdds (current () ⟨"query", .oidc "first"⟩
        [Entry.sent false () (exampleRequest []) (withToken "first"),
          .sent true () (exampleRequest []) (withToken "first"), .renewed () "second",
          .sent false () (exampleRequest []) (withToken "second"), .renewed () "third"])
        (exampleRequest []) (withToken "third") ↔
      Fits ⟨"query", .oidc "first"⟩ (exampleRequest []) :=
  Concurrent.concurrent_messages exampleConcurrent (fun _ => rfl) rfl
    (fun _ => ⟨(by decide : "query" ∈ supportedLocations),
      (by decide : (Credentials.oidc "first").names.Nodup)⟩)
    [.start false ⟨(), []⟩ none (.ok (exampleRequest [])),
      .start true ⟨(), []⟩ none (.ok (exampleRequest [])),
      .answer false (.ok ⟨403⟩) (.ok "second"), .answer true (.ok ⟨403⟩) (.ok "third")]
    _ true () _ _ [] rfl

end ThreescaleTests.Httpx
