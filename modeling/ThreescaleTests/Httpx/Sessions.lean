import ThreescaleTests.Httpx.Client

/-!
# What a session sends

Clients share authentication objects, and an object keeps a token that was renewed for
every later call. Every message of a session is the request that was built last with the
credentials that its object has by then, whatever calls came before.
-/

namespace ThreescaleTests.Httpx

open Library

variable {ω ι ρ U H : Type}

/-! ## Objects and requests in a log -/

def Event.built? : Event ι U H → Option (Request U H)
  | .built (.ok request) => some request
  | _ => none

def lastBuilt (log : List (Event ι U H)) : Option (Request U H) :=
  (log.filterMap Event.built?).getLast?

@[simp] theorem lastBuilt_append_built (log : List (Event ι U H)) (request : Request U H) :
    lastBuilt (log ++ [.built (.ok request)]) = some request := by
  simp [lastBuilt, Event.built?]

@[simp] theorem lastBuilt_append_sent (log : List (Event ι U H)) (i : ι) (sent : Request U H)
    (answer : Except Exn Response) : lastBuilt (log ++ [.sent i sent answer]) = lastBuilt log := by
  simp [lastBuilt, Event.built?]

@[simp] theorem lastBuilt_append_renewed (log : List (Event ι U H)) (i : ι)
    (answer : Except Exn String) : lastBuilt (log ++ [.renewed i answer]) = lastBuilt log := by
  simp [lastBuilt, Event.built?]

section

variable [DecidableEq ι]

def ClientAuth.next (i : ι) (auth : ClientAuth) : Event ι U H → ClientAuth
  | .renewed j (.ok token) => if j = i then auth.renewed token else auth
  | _ => auth

def ClientAuth.after (i : ι) (auth : ClientAuth) (log : List (Event ι U H)) : ClientAuth :=
  log.foldl (ClientAuth.next i) auth

@[simp] theorem ClientAuth.after_nil (i : ι) (auth : ClientAuth) :
    auth.after i ([] : List (Event ι U H)) = auth := rfl

@[simp] theorem ClientAuth.after_append_one (i : ι) (auth : ClientAuth)
    (log : List (Event ι U H)) (event : Event ι U H) :
    auth.after i (log ++ [event]) = (auth.after i log).next i event := by
  simp [ClientAuth.after]

theorem fits_renewed_iff [Url U] (auth : ClientAuth) (token : String) (request : Request U H) :
    Fits (auth.renewed token) request ↔ Fits auth request := by
  obtain ⟨location, credentials⟩ := auth
  cases credentials with
  | userKey name key => rfl
  | appIdKey idName id keyName key => rfl
  | oidc old => exact ⟨fun h => ⟨h.params, h.headers⟩, fun h => ⟨h.params, h.headers⟩⟩

theorem fits_next_iff [Url U] (i : ι) (auth : ClientAuth) (event : Event ι U H)
    (request : Request U H) : Fits (auth.next i event) request ↔ Fits auth request := by
  unfold ClientAuth.next
  split
  · split
    · exact fits_renewed_iff auth _ request
    · rfl
  · rfl

theorem fits_after_iff [Url U] (i : ι) (auth : ClientAuth) (log : List (Event ι U H))
    (request : Request U H) : Fits (auth.after i log) request ↔ Fits auth request := by
  induction log generalizing auth with
  | nil => rfl
  | cons event log ih => exact (ih (auth.next i event)).trans (fits_next_iff i auth event request)

theorem ClientAuth.Usable.after {auth : ClientAuth} (h : auth.Usable) (i : ι)
    (log : List (Event ι U H)) : (auth.after i log).Usable := by
  induction log generalizing auth with
  | nil => exact h
  | cons event log ih =>
      apply ih
      unfold ClientAuth.next
      split
      · split
        · exact h.renewed _
        · exact h
      · exact h

/-! ## Messages -/

section

variable [Url U] [Headers H]

/-- A message of the object `i` after a log: the request that was built last with the
credentials of the object, exactly if these fit it. -/
def Message (auths : ι → ClientAuth) (log : List (Event ι U H)) (i : ι)
    (sent : Request U H) : Prop :=
  ∃ built, lastBuilt log = some built ∧
    (OnlyAdds ((auths i).after i log) built sent ↔ Fits (auths i) built)

def Messages (auths : ι → ClientAuth) (log : List (Event ι U H)) : Prop :=
  ∀ before i sent answer after, log = before ++ .sent i sent answer :: after →
    Message auths before i sent

theorem Messages.append_one {auths : ι → ClientAuth} {log : List (Event ι U H)}
    {event : Event ι U H} (h : Messages auths log)
    (hevent : ∀ i sent answer, event = .sent i sent answer → Message auths log i sent) :
    Messages auths (log ++ [event]) := by
  intro before i sent answer after hlog
  rcases List.eq_nil_or_concat after with rfl | ⟨after', last, rfl⟩
  · obtain ⟨rfl, hlast⟩ := List.append_inj' hlog rfl
    exact hevent i sent answer (List.singleton_inj.mp hlast)
  · have hsplit : log ++ [event] = (before ++ .sent i sent answer :: after') ++ [last] := by
      simpa using hlog
    exact h before i sent answer after' (List.append_inj' hsplit rfl).1

theorem Messages.append_built {auths : ι → ClientAuth} {log : List (Event ι U H)}
    (h : Messages auths log) (answer : Except Exn (Request U H)) :
    Messages auths (log ++ [.built answer]) :=
  h.append_one fun _ _ _ heq => nomatch heq

theorem Messages.append_renewed {auths : ι → ClientAuth} {log : List (Event ι U H)}
    (h : Messages auths log) (i : ι) (answer : Except Exn String) :
    Messages auths (log ++ [.renewed i answer]) :=
  h.append_one fun _ _ _ heq => nomatch heq

theorem Messages.append_sent {auths : ι → ClientAuth} {log : List (Event ι U H)}
    (h : Messages auths log) {i : ι} {sent : Request U H} (hmessage : Message auths log i sent)
    (answer : Except Exn Response) : Messages auths (log ++ [.sent i sent answer]) :=
  h.append_one fun _ _ _ heq => by
    cases heq
    exact hmessage

end

/-! ## Messages of an attempt -/

section

variable [Url U] [Headers H] [LawfulUrl U] [LawfulHeaders H]

/-- The message after a renewal only adds the new credentials to the request that was built,
exactly if the first message only added the old ones. -/
theorem onlyAdds_again_iff {auth : ClientAuth} {built sent again : Request U H}
    {response : Response} {token : String} (husable : auth.Usable)
    (hsent : authenticate auth built = .ok sent) (hrenews : auth.Renews response)
    (hagain : authenticate (auth.renewed token) sent = .ok again) :
    OnlyAdds (auth.renewed token) built again ↔ Fits auth built := by
  have hfirst := onlyAdds_iff_fits husable.location husable.names hsent
  obtain ⟨location, credentials⟩ := auth
  obtain ⟨⟨old, rfl⟩, -⟩ := hrenews
  constructor
  · intro h
    refine ⟨fun hloc e he => ?_, fun _ => trivial⟩
    have hloc' : location = "query" := hloc
    subst hloc'
    have hparams := h.params
    rw [authenticate_query sent rfl] at hagain
    cases hagain
    -- the message has no parameter but the token
    have hnone : (Url.params built.url).filter (fun e => decide (e.1 ≠ "access_token")) = [] := by
      simpa [ClientAuth.renewed, ClientAuth.paramNames, Credentials.names, Credentials.items,
        Credentials.dict, Dict.ofList, Dict.set, Dict.setEntry, Dict.empty] using hparams.symm
    have hname := List.filter_eq_nil_iff.mp hnone e he
    simpa [Credentials.names, Credentials.items] using hname
  · intro hfits
    exact retry_onlyAdds husable.location hfits (hfirst.mpr hfits) hagain

/-- The objects are the first ones with the tokens of the log, and so are its messages. -/
structure Sound (auths₀ auths : ι → ClientAuth) (log : List (Event ι U H)) : Prop where
  auths : ∀ i, auths i = (auths₀ i).after i log
  messages : Messages auths₀ log

theorem message_first {auths₀ auths : ι → ClientAuth} {log : List (Event ι U H)} {i : ι}
    {built sent : Request U H} (husable : (auths₀ i).Usable)
    (hauth : auths i = (auths₀ i).after i log)
    (hsent : authenticate (auths i) built = .ok sent) :
    Message auths₀ (log ++ [.built (.ok built)]) i sent := by
  refine ⟨built, lastBuilt_append_built log built, ?_⟩
  have hafter : (auths₀ i).after i (log ++ [.built (.ok built)]) = auths i := by
    rw [ClientAuth.after_append_one, hauth]
    rfl
  have husable' := husable.after i log
  rw [← hauth] at husable'
  rw [hafter, onlyAdds_iff_fits husable'.location husable'.names hsent, hauth]
  exact fits_after_iff i (auths₀ i) log built

theorem message_again {auths₀ auths : ι → ClientAuth} {log : List (Event ι U H)} {i : ι}
    {built sent again : Request U H} {response : Response} {token : String}
    (husable : (auths₀ i).Usable) (hauth : auths i = (auths₀ i).after i log)
    (hsent : authenticate (auths i) built = .ok sent) (hrenews : (auths i).Renews response)
    (hagain : authenticate ((auths i).renewed token) sent = .ok again) :
    Message auths₀ (log ++ [.built (.ok built)] ++ [.sent i sent (.ok response)] ++
      [.renewed i (.ok token)]) i again := by
  refine ⟨built, ?_, ?_⟩
  · rw [lastBuilt_append_renewed, lastBuilt_append_sent, lastBuilt_append_built]
  have hafter : (auths₀ i).after i (log ++ [.built (.ok built)] ++
      [.sent i sent (.ok response)] ++ [.renewed i (.ok token)]) = (auths i).renewed token := by
    simp only [ClientAuth.after_append_one, ClientAuth.next, hauth, if_true]
  have husable' := husable.after i log
  rw [← hauth] at husable'
  rw [hafter, onlyAdds_again_iff husable' hsent hrenews hagain, hauth]
  exact fits_after_iff i (auths₀ i) log built

theorem Attempted.sound {auths₀ auths auths' : ι → ClientAuth} {log events : List (Event ι U H)}
    {i : ι} {answer : Except Exn Response} (husable : ∀ i, (auths₀ i).Usable)
    (hsound : Sound auths₀ auths log) (h : Attempted auths i events answer auths') :
    Sound auths₀ auths' (log ++ events) := by
  have hauth := hsound.auths i
  have hmessages := hsound.messages
  cases h with
  | unbuilt =>
      refine ⟨fun j => ?_, hmessages.append_built _⟩
      rw [ClientAuth.after_append_one]
      exact hsound.auths j
  | @answered built sent answer hsent hkept hforeign =>
      have hlog : log ++ [.built (.ok built), .sent i sent answer] =
          log ++ [.built (.ok built)] ++ [.sent i sent answer] := by simp
      rw [hlog]
      refine ⟨fun j => ?_, ?_⟩
      · simp only [ClientAuth.after_append_one]
        exact hsound.auths j
      · exact (hmessages.append_built _).append_sent
          (message_first (husable i) hauth hsent) answer
  | @expired built sent response e hsent hrenews he =>
      have hlog : log ++ [.built (.ok built), .sent i sent (.ok response), .renewed i (.error e)] =
          log ++ [.built (.ok built)] ++ [.sent i sent (.ok response)] ++
            [.renewed i (.error e)] := by simp
      rw [hlog]
      refine ⟨fun j => ?_, ?_⟩
      · simp only [ClientAuth.after_append_one]
        exact hsound.auths j
      · exact ((hmessages.append_built _).append_sent
          (message_first (husable i) hauth hsent) _).append_renewed i _
  | @renewed built sent again response token answer hsent hrenews hagain hforeign =>
      have hlog : log ++ [.built (.ok built), .sent i sent (.ok response), .renewed i (.ok token),
          .sent i again answer] = log ++ [.built (.ok built)] ++ [.sent i sent (.ok response)] ++
            [.renewed i (.ok token)] ++ [.sent i again answer] := by simp
      rw [hlog]
      refine ⟨fun j => ?_, ?_⟩
      · simp only [ClientAuth.after_append_one, ClientAuth.next]
        by_cases hj : i = j
        · subst hj
          rw [Function.update_self, if_pos rfl, hauth]
        · rw [Function.update_of_ne (Ne.symm hj), if_neg hj]
          exact hsound.auths j
      · exact (((hmessages.append_built _).append_sent
          (message_first (husable i) hauth hsent) _).append_renewed i _).append_sent
            (message_again (husable i) hauth hsent hrenews hagain) answer

/-! ## Messages of a session -/

variable {transport : Transport ω ι ρ U H}

def SoundSession (auths₀ : ι → ClientAuth) (s : Session ω ι U H) : Prop :=
  Sound auths₀ s.auths s.log

theorem request_sound {auths₀ : ι → ClientAuth} (husable : ∀ i, (auths₀ i).Usable)
    (client : HttpxClient ι) (call : Call ι ρ) {s : Session ω ι U H}
    (hsound : SoundSession auths₀ s) :
    SoundSession auths₀ ((request transport client call).run s).2 := by
  -- no try breaks it, so neither do the tries of a call
  have hwithin : Prog.Within (fun s t => SoundSession auths₀ s → SoundSession auths₀ t)
      (requestOnce transport client (call.auth.getD client.auth) call.args) := by
    intro s hs
    have hauths : ∀ i, s.auths i = (auths₀ i).after i s.log := hs.auths
    have husable' : (s.auths (call.auth.getD client.auth)).Usable := by
      rw [hauths]
      exact (husable _).after _ _
    obtain ⟨events, answer, hlog, -, hattempted⟩ :=
      @requestOnce_spec ω ι ρ U H _ _ _ transport client s _ husable' call.args
    unfold SoundSession
    rw [hlog]
    exact hattempted.sound husable hs
  exact Prog.Within.retry (fun _ h => h) (fun _ _ _ h h' hs => h' (h hs)) hwithin 7 s hsound

/-- In a session of objects that have a supported location and distinct names, each message is the
request built last with the credentials that its object has by then, exactly if these fit it. -/
theorem session_messages (s : Session ω ι U H) (hlog : s.log = [])
    (husable : ∀ i, (s.auths i).Usable) (calls : List (HttpxClient ι × Call ι ρ))
    (before : List (Event ι U H)) (i : ι) (sent : Request U H) (answer : Except Exn Response)
    (after : List (Event ι U H))
    (h : (Prog.after (fun c => request transport c.1 c.2) calls s).log =
      before ++ .sent i sent answer :: after) :
    ∃ built, lastBuilt before = some built ∧
      (OnlyAdds ((s.auths i).after i before) built sent ↔ Fits (s.auths i) built) := by
  have hstart : SoundSession s.auths s := by
    refine ⟨fun i => ?_, ?_⟩
    · rw [hlog, ClientAuth.after_nil]
    · rw [hlog]
      intro before i sent answer after hnil
      exact absurd hnil.symm (by simp)
  have hend : SoundSession s.auths (Prog.after (fun c => request transport c.1 c.2) calls s) :=
    Prog.after_invariant (I := SoundSession s.auths)
      (fun (c : HttpxClient ι × Call ι ρ) _ (_ : True) ht => request_sound husable c.1 c.2 ht)
      (fun _ _ => trivial) hstart
  exact hend.messages before i sent answer after h

end

end

/-- The second call starts with the token that the first one has renewed. -/
theorem session_messages_of_two_calls :
    let withToken token := { exampleRequest [] with url := ⟨"/get", [("access_token", token)]⟩ }
    ∃ built, lastBuilt [.built (.ok (exampleRequest [])), .sent () (withToken "first") (.ok ⟨403⟩),
        .renewed () (.ok "second"), .sent () (withToken "second") (.ok ⟨200⟩),
        .built (.ok (exampleRequest []))] = some built ∧
      (OnlyAdds ⟨"query", .oidc "second"⟩ built (withToken "second") ↔
        Fits ⟨"query", .oidc "first"⟩ built) :=
  @session_messages Nat Unit Unit PlainUrl PlainHeaders _ _ _ _ _ (exampleTransport [403])
    exampleSession rfl exampleSession_usable
    [(⟨(), []⟩, ⟨none, ()⟩), (⟨(), []⟩, ⟨none, ()⟩)] _ () _ (.ok ⟨200⟩) [] rfl

end ThreescaleTests.Httpx
