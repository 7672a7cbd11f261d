import ThreescaleTests.Library.Run
import ThreescaleTests.Mail.Arrivals

/-!
# Cleaning up after searches

Clients of several test runs share one mail server. Between two requests of a client
anything may happen: mail arrives, and other clients search and clean up. A client cleans
up what it found, and a request that is refused ends what the client is doing.
-/

namespace ThreescaleTests.Mail

open Library

/-! ## Clients -/

/-- Where a client is between two of its requests. -/
inductive Place where
  | idle
  | finding (filter : Filter) (starts : List Nat)
  | deleting (ids : List String)

structure Process where
  searched : List String
  place : Place

/-- The server's messages, the newest first, and its clients. -/
structure Shared (κ : Type) where
  messages : List Message
  clients : κ → Process

inductive Event (κ : Type) where
  | arrive (message : Message)
  | find (c : κ) (filter : Filter)
  | chunk (c : κ)
  | cleanup (c : κ) (order : List String)
  | delete (c : κ)
  | refuse (c : κ)

def Event.client {κ : Type} : Event κ → Option κ
  | .arrive _ => none
  | .find c _ => some c
  | .chunk c => some c
  | .cleanup c _ => some c
  | .delete c => some c
  | .refuse c => some c

/-- The search goes on with the next chunk, if there is one. -/
def Place.next (filter : Filter) : List Nat → Place
  | [] => .idle
  | start :: starts => .finding filter (start :: starts)

/-- `find_messages` up to its first chunk, where the server has so many messages. -/
def Process.find (filter : Filter) (total : Nat) (client : Process) : Process :=
  match client.place with
  | .idle =>
      match rangeBy (totalMessages none total) defaultChunkSize with
      | .ok starts => { client with place := Place.next filter starts }
      | .error _ => client
  | .finding _ _ => client
  | .deleting _ => client

/-- The next chunk of a search, which ends at a message that it cannot look at. -/
def Process.chunk (messages : List Message) (client : Process) : Process :=
  match client.place with
  | .finding filter (start :: starts) =>
      match (findFrom filter (window start defaultChunkSize messages)).run
          ⟨⟨[], []⟩, client.searched⟩ with
      | (.ok _, found) => ⟨found.searched, Place.next filter starts⟩
      | (.error _, found) => ⟨found.searched, .idle⟩
  | .finding _ [] => client
  | .idle => client
  | .deleting _ => client

/-- `delete_searched_messages` up to its first request, where the set is read in some order. -/
def Process.cleanup (order : List String) (client : Process) : Process :=
  match client.place with
  | .idle =>
      if client.searched ≠ [] ∧ order.Perm client.searched then
        { client with place := .deleting order }
      else client
  | .finding _ _ => client
  | .deleting _ => client

/-- The message that the client asks to delete next. -/
def Process.target (client : Process) : Option String :=
  match client.place with
  | .deleting ids => ids.head?
  | .idle => none
  | .finding _ _ => none

/-- The set is cleared after the last message. -/
def Process.deleted (client : Process) : Process :=
  match client.place with
  | .deleting (_ :: id :: ids) => { client with place := .deleting (id :: ids) }
  | .deleting _ => ⟨[], .idle⟩
  | .idle => client
  | .finding _ _ => client

/-- The assertion on the status of the response ends what the client is doing. -/
def Process.refused (client : Process) : Process := { client with place := .idle }

section

variable {κ : Type} [DecidableEq κ]

def Shared.update (c : κ) (f : Process → Process) (s : Shared κ) : Shared κ :=
  { s with clients := Function.update s.clients c (f (s.clients c)) }

def Shared.step : Event κ → Shared κ → Shared κ
  | .arrive message, s => { s with messages := message :: s.messages }
  | .find c filter, s => s.update c (Process.find filter s.messages.length)
  | .chunk c, s => s.update c (Process.chunk s.messages)
  | .cleanup c order, s => s.update c (Process.cleanup order)
  | .delete c, s =>
      { s.update c Process.deleted with
        messages := s.messages.filter fun message =>
          decide (some message.id ≠ (s.clients c).target) }
  | .refuse c, s => s.update c Process.refused

def arrivals {κ : Type} (events : List (Event κ)) : List Message :=
  events.filterMap fun
    | .arrive message => some message
    | _ => none

/-- Nobody has searched anything. -/
def Shared.Initial (s : Shared κ) : Prop := ∀ c, s.clients c = ⟨[], .idle⟩

def DistinctIds (s : Shared κ) (events : List (Event κ)) : Prop :=
  ((s.messages ++ arrivals events).map Message.id).Nodup

instance (s : Shared κ) (events : List (Event κ)) : Decidable (DistinctIds s events) :=
  inferInstanceAs (Decidable (List.Nodup _))

end

/-! ## What a search puts down -/

/-- The IDs afterwards: those before and some of matching messages. -/
structure Noted (filter : Filter) (messages : List Message) (before after : List String) :
    Prop where
  kept : before ⊆ after
  added : ∀ id ∈ after, id ∉ before →
    ∃ message ∈ messages, message.id = id ∧ filter.Matches message

namespace Noted

variable {filter : Filter} {message : Message} {messages : List Message}
  {before middle after : List String}

theorem refl : Noted filter messages before before :=
  ⟨List.Subset.refl _, fun _ h hnot => absurd h hnot⟩

theorem cons (h : Noted filter messages before after) :
    Noted filter (message :: messages) before after := by
  refine ⟨h.kept, fun id hid hnot => ?_⟩
  obtain ⟨message', hmem, hmatches⟩ := h.added id hid hnot
  exact ⟨message', List.mem_cons_of_mem _ hmem, hmatches⟩

theorem trans (h : Noted filter messages before middle) (h' : Noted filter messages middle after) :
    Noted filter messages before after := by
  refine ⟨List.Subset.trans h.kept h'.kept, fun id hid hnot => ?_⟩
  by_cases hmiddle : id ∈ middle
  · exact h.added id hmiddle hnot
  · exact h'.added id hid hmiddle

end Noted

theorem appendToSearchedMessages_run {filter : Filter} {message : Message}
    (hmatches : filter.Matches message) (messages : List Message) (client : Client) :
    ∃ client', (appendToSearchedMessages message).run client = (.ok (), client') ∧
      Noted filter (message :: messages) client.searched client'.searched := by
  refine ⟨_, rfl, ?_⟩
  dsimp only
  split
  · exact Noted.refl
  · refine ⟨List.subset_append_left _ _, fun id hid hnot => ?_⟩
    rcases List.mem_append.mp hid with hid | hid
    · exact absurd hid hnot
    · exact ⟨message, List.mem_cons_self, (List.mem_singleton.mp hid).symm, hmatches⟩

theorem findFrom_noted (filter : Filter) (messages : List Message) (client : Client) :
    Noted filter messages client.searched
      ((findFrom filter messages).run client).2.searched := by
  induction messages generalizing client with
  | nil => exact Noted.refl
  | cons message messages ih =>
      cases hskips : skips filter message with
      | error e =>
          rw [findFrom, Prog.lift_bind_of_error hskips]
          exact Noted.refl
      | ok skipped =>
          rw [findFrom, Prog.lift_bind_of_ok hskips]
          cases skipped with
          | true => exact (ih client).cons
          | false =>
              obtain ⟨client', happend, hnoted⟩ := appendToSearchedMessages_run
                (skips_eq_false_iff.mp hskips) messages client
              rw [if_neg (by decide), Prog.bind_of_ok happend]
              rw [Prog.bind_pure_map_run_snd]
              exact hnoted.trans (ih client').cons

/-- The server is not asked while the messages of a chunk are looked at. -/
theorem findFrom_server (filter : Filter) (messages : List Message)
    (server server' : Mailhog Message) (searched : List String) :
    (findFrom filter messages).run ⟨server, searched⟩ =
      (((findFrom filter messages).run ⟨server', searched⟩).1,
        ⟨server, ((findFrom filter messages).run ⟨server', searched⟩).2.searched⟩) := by
  induction messages generalizing searched with
  | nil => rfl
  | cons message messages ih =>
      cases hskips : skips filter message with
      | error e =>
          rw [findFrom, Prog.lift_bind_of_error hskips, Prog.lift_bind_of_error hskips]
      | ok skipped =>
          rw [findFrom, Prog.lift_bind_of_ok hskips, Prog.lift_bind_of_ok hskips]
          cases skipped with
          | true => exact ih searched
          | false =>
              have happend (server : Mailhog Message) :
                  (appendToSearchedMessages message).run ⟨server, searched⟩ =
                    (.ok (), ⟨server, if message.id ∈ searched then searched
                      else searched ++ [message.id]⟩) := rfl
              rw [if_neg (by decide), Prog.bind_of_ok (happend server),
                Prog.bind_of_ok (happend server')]
              generalize hnext : (if message.id ∈ searched then searched
                else searched ++ [message.id]) = next
              have hrest := ih next
              cases hrun : (findFrom filter messages).run ⟨server', next⟩ with
              | mk r client =>
                  rw [hrun] at hrest
                  cases r with
                  | ok matching => rw [Prog.bind_of_ok hrest, Prog.bind_of_ok hrun]; rfl
                  | error e => rw [Prog.bind_of_error hrest, Prog.bind_of_error hrun]

/-! ## One step of a client -/

/-- What a client knows: it searched with the filter that it is searching with, and so it did for
every ID that it will clean up. -/
structure Process.Entitled (searches : Filter → Prop) (mail : List Message) (client : Process) :
    Prop where
  searched : ∀ id ∈ client.searched, ∃ message ∈ mail, message.id = id ∧
    ∃ filter, searches filter ∧ filter.Matches message
  finding : ∀ filter starts, client.place = .finding filter starts → searches filter
  deleting : ∀ ids, client.place = .deleting ids → ids ⊆ client.searched

namespace Process

variable {searches : Filter → Prop} {mail messages : List Message} {client : Process}

theorem Entitled.mono {searches' : Filter → Prop} {mail' : List Message}
    (h : client.Entitled searches mail) (hsearches : ∀ filter, searches filter → searches' filter)
    (hmail : mail ⊆ mail') : client.Entitled searches' mail' := by
  refine ⟨fun id hid => ?_, fun filter starts hplace => ?_, h.deleting⟩
  · obtain ⟨message, hmem, heq, filter, hfilter, hmatches⟩ := h.searched id hid
    exact ⟨message, hmail hmem, heq, filter, hsearches filter hfilter, hmatches⟩
  · exact hsearches filter (h.finding filter starts hplace)

theorem Entitled.refused (h : client.Entitled searches mail) :
    client.refused.Entitled searches mail :=
  ⟨h.searched, nofun, nofun⟩

theorem next_finding {filter filter' : Filter} {starts starts' : List Nat}
    (h : Place.next filter starts = .finding filter' starts') : filter' = filter := by
  cases starts with
  | nil => cases h
  | cons start starts =>
      cases h
      rfl

theorem next_ne_deleting {filter : Filter} {starts : List Nat} {ids : List String} :
    Place.next filter starts ≠ .deleting ids := by
  cases starts <;> nofun

theorem Entitled.find {filter : Filter} (h : client.Entitled searches mail)
    (hfilter : searches filter) (total : Nat) :
    (client.find filter total).Entitled searches mail := by
  unfold Process.find
  split
  · split
    · refine ⟨h.searched, fun filter' starts' hplace => ?_, fun ids hplace => ?_⟩
      · rw [next_finding hplace]
        exact hfilter
      · exact absurd hplace next_ne_deleting
    · exact h
  · exact h
  · exact h

theorem Entitled.chunk (h : client.Entitled searches mail) (hmessages : messages ⊆ mail) :
    (client.chunk messages).Entitled searches mail := by
  unfold Process.chunk
  split
  case h_1 filter start starts hplace =>
    have hfilter := h.finding _ _ hplace
    have hnoted := findFrom_noted filter (window start defaultChunkSize messages)
      ⟨⟨[], []⟩, client.searched⟩
    have hsearched : ∀ id ∈ ((findFrom filter (window start defaultChunkSize messages)).run
        ⟨⟨[], []⟩, client.searched⟩).2.searched, ∃ message ∈ mail, message.id = id ∧
          ∃ filter, searches filter ∧ filter.Matches message := by
      intro id hid
      by_cases hbefore : id ∈ client.searched
      · exact h.searched id hbefore
      · obtain ⟨message, hmem, heq, hmatches⟩ := hnoted.added id hid hbefore
        have hlisted := List.mem_of_mem_drop (List.mem_of_mem_take hmem)
        exact ⟨message, hmessages hlisted, heq, filter, hfilter, hmatches⟩
    split
    case h_1 r found hrun =>
      rw [hrun] at hsearched
      refine ⟨hsearched, fun filter' starts' hplace' => ?_, fun ids hplace' => ?_⟩
      · rw [next_finding hplace']
        exact hfilter
      · exact absurd hplace' next_ne_deleting
    case h_2 e found hrun =>
      rw [hrun] at hsearched
      exact ⟨hsearched, nofun, nofun⟩
  all_goals exact h

theorem Entitled.cleanup (h : client.Entitled searches mail) (order : List String) :
    (client.cleanup order).Entitled searches mail := by
  unfold Process.cleanup
  split
  · split
    · rename_i horder
      refine ⟨h.searched, nofun, fun ids hplace => ?_⟩
      cases hplace
      exact horder.2.subset
    · exact h
  · exact h
  · exact h

theorem Entitled.deleted (h : client.Entitled searches mail) :
    client.deleted.Entitled searches mail := by
  unfold Process.deleted
  split
  case h_1 id' id ids hplace =>
    refine ⟨h.searched, nofun, fun ids' hplace' => ?_⟩
    cases hplace'
    exact fun id hid => h.deleting _ hplace (List.mem_cons_of_mem _ hid)
  case h_2 => exact ⟨nofun, nofun, nofun⟩
  all_goals exact h

end Process

/-! ## A client alone -/

section

variable {κ : Type} [DecidableEq κ] {s : Shared κ} {c : κ} {filter : Filter}

theorem Shared.clients_update (c c' : κ) (f : Process → Process) (s : Shared κ) :
    (s.update c f).clients c' = if c' = c then f (s.clients c) else s.clients c' :=
  Function.update_apply _ _ _ _

/-- What arrives before each chunk, and the chunks. -/
def chunkEvents (c : κ) : List (List Message) → Nat → List (Event κ)
  | _, 0 => []
  | batches, n + 1 =>
      (batches.headD []).reverse.map .arrive ++ .chunk c :: chunkEvents c batches.tail n

theorem Shared.run_arrive (batch : List Message) (s : Shared κ) :
    run Shared.step (batch.reverse.map .arrive) s = { s with messages := batch ++ s.messages } := by
  induction batch with
  | nil => rfl
  | cons message batch ih =>
      rw [List.reverse_cons, List.map_append, List.map_singleton, run_concat, ih]
      rfl

/-- The server once the next batch is there and the next chunk was requested. -/
theorem Shared.run_chunkEvents (batches : List (List Message)) (n : Nat) (s : Shared κ) :
    run Shared.step (chunkEvents c batches (n + 1)) s =
      run Shared.step (chunkEvents c batches.tail n)
        (Shared.step (.chunk c) { s with messages := batches.headD [] ++ s.messages }) := by
  rw [chunkEvents, run_append, run_arrive]
  rfl

theorem Shared.clients_chunk (messages : List Message) (s : Shared κ) :
    (Shared.step (.chunk c) { s with messages := messages }).clients c =
      (s.clients c).chunk messages := (clients_update c c _ _).trans (if_pos rfl)

theorem Shared.run_idle (hidle : (s.clients c).place = .idle) (batches : List (List Message))
    (n : Nat) : (run Shared.step (chunkEvents c batches n) s).clients c = s.clients c := by
  induction n generalizing s batches with
  | zero => rfl
  | succ n ih =>
      have hchunk := clients_chunk (c := c) (batches.headD [] ++ s.messages) s
      rw [Process.chunk, hidle] at hchunk
      rw [run_chunkEvents, ih (hchunk ▸ hidle), hchunk]

theorem Mailhog.arrive_eq (server : Mailhog Message) :
    server.arrive = ⟨server.arrivals.headD [] ++ server.messages, server.arrivals.tail⟩ := by
  cases server with
  | mk messages batches => cases batches <;> rfl

/-- The chunks of a client alone are those of a call. -/
theorem Shared.run_chunks (starts : List Nat) (batches : List (List Message))
    {searched : List String} (hclient : s.clients c = ⟨searched, Place.next filter starts⟩) :
    (run Shared.step (chunkEvents c batches starts.length) s).clients c =
      ⟨((findChunks filter defaultChunkSize starts).run
        ⟨⟨s.messages, batches⟩, searched⟩).2.searched, .idle⟩ := by
  induction starts generalizing s batches searched with
  | nil => exact hclient
  | cons start starts ih =>
      have hchunk := clients_chunk (c := c) (batches.headD [] ++ s.messages) s
      have hserver := findFrom_server filter
        (window start defaultChunkSize (batches.headD [] ++ s.messages))
        ⟨batches.headD [] ++ s.messages, batches.tail⟩ ⟨[], []⟩ searched
      rw [hclient, Place.next, Process.chunk] at hchunk
      rw [List.length_cons, run_chunkEvents, findChunks,
        Prog.bind_of_ok (onServer_run (requestItems_run start defaultChunkSize _)),
        Mailhog.arrive_eq]
      dsimp only at hchunk ⊢
      cases hrun : (findFrom filter
          (window start defaultChunkSize (batches.headD [] ++ s.messages))).run
            ⟨⟨[], []⟩, searched⟩ with
      | mk r found =>
          rw [hrun] at hchunk hserver
          cases r with
          | error e =>
              rw [run_idle (congrArg Process.place hchunk), hchunk, Prog.bind_of_error hserver]
          | ok matching =>
              rw [Prog.bind_of_ok hserver, ih batches.tail hchunk, Prog.bind_pure_map_run_snd]
              rfl

/-- A client alone puts down what `find_messages` puts down. -/
theorem find_alone (s : Shared κ) (c : κ) (searched : List String)
    (hclient : s.clients c = ⟨searched, .idle⟩) (filter : Filter) (batches : List (List Message)) :
    (run Shared.step
        (.find c filter :: chunkEvents c batches (windows s.messages.length defaultChunkSize))
        s).clients c =
      ⟨((findMessages filter).run ⟨⟨s.messages, batches⟩, searched⟩).2.searched, .idle⟩ := by
  obtain ⟨starts, hrange, hlength⟩ :
      ∃ starts, rangeBy (totalMessages none s.messages.length) defaultChunkSize = .ok starts ∧
        starts.length = windows s.messages.length defaultChunkSize := by
    refine ⟨_, if_neg (by decide), ?_⟩
    rw [List.length_map, List.length_range]
    rfl
  have hfind : (Shared.step (.find c filter) s).clients c =
      ⟨searched, Place.next filter starts⟩ := by
    refine (Shared.clients_update c c _ s).trans ((if_pos rfl).trans ?_)
    rw [hclient, Process.find]
    dsimp only
    rw [hrange]
  have hchunks := Shared.run_chunks _ batches hfind
  rw [hlength] at hchunks
  have htotal : (onServer requestTotal).run ⟨⟨s.messages, batches⟩, searched⟩ =
      (.ok s.messages.length, ⟨⟨s.messages, batches⟩, searched⟩) := rfl
  rw [findMessages, Prog.bind_of_ok htotal, Prog.lift_bind_of_ok hrange, Prog.bind_pure_map_run_snd]
  exact hchunks

end

/-! ## Whose mail is deleted -/

section

variable {κ : Type} {s s₀ : Shared κ} {events : List (Event κ)}

theorem arrivals_concat (events : List (Event κ)) (e : Event κ) :
    arrivals (events ++ [e]) = arrivals events ++ arrivals [e] := List.filterMap_append

theorem arrivals_cons (e : Event κ) (events : List (Event κ)) :
    arrivals (e :: events) = arrivals [e] ++ arrivals events :=
  @List.filterMap_append _ _ [e] events _

/-- The mail is among what was there and what arrived, and every client is entitled to what it has
searched. -/
structure Shared.Kept (s₀ : Shared κ) (events : List (Event κ)) (s : Shared κ) : Prop where
  mail : s.messages ⊆ s₀.messages ++ arrivals events
  entitled : ∀ c, (s.clients c).Entitled (fun filter => .find c filter ∈ events)
    (s₀.messages ++ arrivals events)

namespace Shared

theorem kept_init (hinit : s₀.Initial) : Kept s₀ [] s₀ := by
  refine ⟨List.subset_append_left _ _, fun c => ?_⟩
  rw [hinit c]
  exact ⟨nofun, nofun, nofun⟩

variable [DecidableEq κ]

/-- A step of one client, which deletes mail at most. -/
theorem Kept.update {e : Event κ} {c : κ} {f : Process → Process} {messages : List Message}
    (h : Kept s₀ events s) (hmessages : messages ⊆ s.messages)
    (hf : ∀ searches : Filter → Prop, (∀ filter, .find c filter ∈ events ++ [e] → searches filter) →
      (s.clients c).Entitled searches (s₀.messages ++ arrivals (events ++ [e])) →
        (f (s.clients c)).Entitled searches (s₀.messages ++ arrivals (events ++ [e]))) :
    Kept s₀ (events ++ [e]) { s.update c f with messages := messages } := by
  have hsubset : s₀.messages ++ arrivals events ⊆ s₀.messages ++ arrivals (events ++ [e]) := by
    rw [arrivals_concat, ← List.append_assoc]
    exact List.subset_append_left _ _
  have hentitled (c' : κ) : (s.clients c').Entitled (fun filter => .find c' filter ∈ events ++ [e])
      (s₀.messages ++ arrivals (events ++ [e])) :=
    (h.entitled c').mono (fun _ => List.mem_append_left _) hsubset
  refine ⟨List.Subset.trans hmessages (List.Subset.trans h.mail hsubset), fun c' => ?_⟩
  rw [clients_update]
  by_cases hc : c' = c
  · subst hc
    rw [if_pos rfl]
    exact hf _ (fun _ => id) (hentitled c')
  · rw [if_neg hc]
    exact hentitled c'

theorem Kept.step (h : Kept s₀ events s) (e : Event κ) : Kept s₀ (events ++ [e]) (s.step e) := by
  have hlast : e ∈ events ++ [e] := List.mem_append_right _ List.mem_cons_self
  have hmail : s.messages ⊆ s₀.messages ++ arrivals (events ++ [e]) := by
    rw [arrivals_concat, ← List.append_assoc]
    exact List.subset_append_of_subset_left _ h.mail
  cases e with
  | arrive message =>
      refine ⟨List.cons_subset.mpr ⟨?_, hmail⟩, fun c => (h.entitled c).mono ?_ ?_⟩
      · rw [arrivals_concat]
        exact List.mem_append_right _ (List.mem_append_right _ List.mem_cons_self)
      · exact fun _ => List.mem_append_left _
      · rw [arrivals_concat, ← List.append_assoc]
        exact List.subset_append_left _ _
  | find c filter =>
      exact h.update (List.Subset.refl _) fun searches hsearches hclient =>
        hclient.find (hsearches filter hlast) _
  | chunk c => exact h.update (List.Subset.refl _) fun searches _ hclient => hclient.chunk hmail
  | cleanup c order =>
      exact h.update (List.Subset.refl _) fun searches _ hclient => hclient.cleanup order
  | delete c => exact h.update (List.filter_subset_self _) fun searches _ hclient => hclient.deleted
  | refuse c => exact h.update (List.Subset.refl _) fun searches _ hclient => hclient.refused

theorem kept_run (hinit : s₀.Initial) (events : List (Event κ)) :
    Kept s₀ events (run Shared.step events s₀) :=
  run_history (kept_init hinit) (fun _ e _ h => h.step e) events

/-- Only a client's request to delete takes mail away, and it takes one message. -/
theorem removed_cases {e : Event κ} {message : Message} (hin : message ∈ s.messages)
    (hout : message ∉ (s.step e).messages) :
    ∃ c, e = .delete c ∧ (s.clients c).target = some message.id := by
  cases e with
  | arrive message' => exact absurd (List.mem_cons_of_mem _ hin) hout
  | find c filter => exact absurd hin hout
  | chunk c => exact absurd hin hout
  | cleanup c order => exact absurd hin hout
  | refuse c => exact absurd hin hout
  | delete c =>
      refine ⟨c, rfl, ?_⟩
      by_contra htarget
      exact hout (List.mem_filter.mpr ⟨hin, decide_eq_true fun h => htarget h.symm⟩)

end Shared

theorem Process.target_mem {searches : Filter → Prop} {mail : List Message} {client : Process}
    {id : String} (h : client.Entitled searches mail) (htarget : client.target = some id) :
    id ∈ client.searched := by
  unfold Process.target at htarget
  split at htarget
  · rename_i ids hplace
    exact h.deleting ids hplace (List.mem_of_head? htarget)
  · cases htarget
  · cases htarget

/-- Whatever else happens between the requests of a client, mail is only deleted by a client that
searched with a filter which that mail matches. -/
theorem removed_was_found [DecidableEq κ] (s₀ : Shared κ) (hinit : s₀.Initial)
    (events : List (Event κ)) (hids : DistinctIds s₀ events) (e : Event κ) (message : Message)
    (hin : message ∈ (run Shared.step events s₀).messages)
    (hout : message ∉ (run Shared.step (events ++ [e]) s₀).messages) :
    ∃ c filter, e = .delete c ∧ .find c filter ∈ events ∧ filter.Matches message := by
  have hkept := Shared.kept_run hinit events
  rw [run_concat] at hout
  obtain ⟨c, rfl, htarget⟩ := Shared.removed_cases hin hout
  have hclient := hkept.entitled c
  obtain ⟨message', hmem, hid, filter, hfind, hmatches⟩ :=
    hclient.searched message.id (Process.target_mem hclient htarget)
  have hsame : message' = message := List.inj_on_of_nodup_map hids hmem (hkept.mail hin) hid
  exact ⟨c, filter, rfl, hfind, hsame ▸ hmatches⟩

/-- Two clients, with mail for both and for nobody. -/
def exampleShared : Shared Bool where
  messages := [⟨"1", "hello", .empty⟩, ⟨"2", "welcome", .empty⟩, ⟨"3", "bill", .empty⟩]
  clients := fun _ => ⟨[], .idle⟩

def exampleFilter (subject : String) : Filter := ⟨some subject, none, none, none⟩

/-- Both clients search and clean up, and more mail for the first of them comes in between. -/
def exampleEvents : List (Event Bool) :=
  [.find false (exampleFilter "hello"), .find true (exampleFilter "welcome"), .chunk true,
    .arrive ⟨"4", "hello", .empty⟩, .chunk false, .cleanup true ["2"], .cleanup false ["4", "1"],
    .delete false, .delete true]

/-- The first client deletes a message. -/
theorem removed_was_found_of_two :
    ∃ c filter, Event.delete false = .delete c ∧ .find c filter ∈ exampleEvents ∧
      filter.Matches ⟨"1", "hello", .empty⟩ :=
  removed_was_found exampleShared (fun _ => rfl) exampleEvents (by decide +kernel) (.delete false)
    ⟨"1", "hello", .empty⟩ (by decide +kernel) (by decide +kernel)

/-! ## What a cleanup leaves -/

section

variable [DecidableEq κ] {c : κ} {searched : List String}

theorem Shared.step_of_other {e : Event κ} (h : e.client ≠ some c) (s : Shared κ) :
    (s.step e).clients c = s.clients c := by
  cases e with
  | arrive message => rfl
  | _ => exact (clients_update _ c _ s).trans (if_neg fun heq => h (congrArg some heq.symm))

theorem Shared.mem_step {e : Event κ} {message : Message} (h : message ∈ (s.step e).messages) :
    message ∈ s.messages ∨ message ∈ arrivals [e] := by
  cases e with
  | arrive message' => exact (List.mem_cons.mp h).symm.imp_right List.mem_singleton.mpr
  | delete c => exact .inl (List.mem_of_mem_filter h)
  | _ => exact .inl h

/-- Mail that is not there does not come back. -/
theorem Shared.gone_run {later : List (Event κ)} (hlater : ∀ e ∈ later, e.client ≠ some c)
    (harrivals : ∀ message ∈ arrivals later, message.id ∉ searched)
    (hgone : ∀ message ∈ s.messages, message.id ∉ searched) :
    (run step later s).clients c = s.clients c ∧
      ∀ message ∈ (run step later s).messages, message.id ∉ searched := by
  induction later generalizing s with
  | nil => exact ⟨rfl, hgone⟩
  | cons e later ih =>
      rw [arrivals_cons, List.forall_mem_append] at harrivals
      rw [List.forall_mem_cons] at hlater
      have hnext : ∀ message ∈ (s.step e).messages, message.id ∉ searched := fun message hmem =>
        (mem_step hmem).elim (hgone message) (harrivals.1 message)
      obtain ⟨hclient, hmessages⟩ := ih hlater.2 harrivals.2 hnext
      exact ⟨hclient.trans (step_of_other hlater.1 s), hmessages⟩

/-- The rest of a cleanup, as often interrupted as there are other events. -/
theorem Shared.deletes_run {later : List (Event κ)} {id : String} {ids : List String}
    (hclient : s.clients c = ⟨searched, .deleting (id :: ids)⟩)
    (hclean : ∀ message ∈ s.messages, message.id ∈ searched → message.id ∈ id :: ids)
    (hlater : later.filter (fun e => decide (e.client = some c)) =
      List.replicate (id :: ids).length (.delete c))
    (harrivals : ∀ message ∈ arrivals later, message.id ∉ searched) :
    (run step later s).clients c = ⟨[], .idle⟩ ∧
      ∀ message ∈ (run step later s).messages, message.id ∉ searched := by
  induction later generalizing s id ids with
  | nil => cases hlater
  | cons e later ih =>
      rw [arrivals_cons, List.forall_mem_append] at harrivals
      by_cases he : e.client = some c
      · rw [List.filter_cons_of_pos (by simpa using he), List.length_cons,
          List.replicate_succ, List.cons.injEq] at hlater
        obtain ⟨rfl, hrest⟩ := hlater
        have hnext : (s.step (.delete c)).clients c = (s.clients c).deleted :=
          (clients_update c c _ s).trans (if_pos rfl)
        have hmessages : ∀ message ∈ (s.step (.delete c)).messages, message.id ∈ searched →
            message.id ∈ ids := by
          intro message hmem hsearched
          obtain ⟨hmem, htarget⟩ := List.mem_filter.mp hmem
          refine (List.mem_cons.mp (hclean message hmem hsearched)).resolve_left fun heq => ?_
          rw [hclient, heq] at htarget
          exact of_decide_eq_true htarget rfl
        cases ids with
        | nil =>
            have hnone : ∀ e ∈ later, e.client ≠ some c := by
              intro e' he' heq
              have hnotMem := List.filter_eq_nil_iff.mp hrest e' he'
              exact hnotMem (decide_eq_true heq)
            obtain ⟨hafter, hgone⟩ := gone_run hnone harrivals.2
              fun message hmem hsearched => nomatch hmessages message hmem hsearched
            refine ⟨hafter.trans (hnext.trans ?_), hgone⟩
            rw [hclient]
            rfl
        | cons id' ids =>
            refine ih (hnext.trans ?_) hmessages hrest harrivals.2
            rw [hclient]
            rfl
      · rw [List.filter_cons_of_neg (by simpa using he)] at hlater
        refine ih ((step_of_other he s).trans hclient) (fun message hmem hsearched => ?_) hlater
          harrivals.2
        rcases mem_step hmem with hmem | hmem
        · exact hclean message hmem hsearched
        · exact absurd hsearched (harrivals.1 message hmem)

/-- A cleanup of some IDs, in which no request is refused, ends after as many requests as there are
IDs, in whatever order they are deleted and whatever the other clients do. If the mail that arrives
in the meantime has other IDs, then none of them is there. -/
theorem cleanup_empties (s : Shared κ) (c : κ) (searched order : List String)
    (hclient : s.clients c = ⟨searched, .idle⟩) (hsome : searched ≠ [])
    (horder : order.Perm searched) (later : List (Event κ))
    (hlater : later.filter (fun e => decide (e.client = some c)) =
      List.replicate order.length (.delete c))
    (harrivals : ∀ message ∈ arrivals later, message.id ∉ searched) :
    let after := run Shared.step (.cleanup c order :: later) s
    after.clients c = ⟨[], .idle⟩ ∧ ∀ message ∈ after.messages, message.id ∉ searched := by
  have hstart : (s.step (.cleanup c order)).clients c = ⟨searched, .deleting order⟩ := by
    refine (Shared.clients_update c c _ s).trans ((if_pos rfl).trans ?_)
    rw [hclient]
    exact if_pos ⟨hsome, horder⟩
  cases order with
  | nil => exact absurd horder.symm.eq_nil hsome
  | cons id ids =>
      exact Shared.deletes_run (s := s.step _) hstart
        (fun message _ hid => horder.mem_iff.mpr hid) hlater harrivals

end

end

theorem cleanup_empties_of_two :
    let s : Shared Bool := { exampleShared with clients := fun _ => ⟨["1", "2"], .idle⟩ }
    let later : List (Event Bool) :=
      [.delete false, .arrive ⟨"4", "hello", .empty⟩, .find true (exampleFilter "hello"),
        .delete false]
    let after := run Shared.step (.cleanup false ["2", "1"] :: later) s
    after.clients false = ⟨[], .idle⟩ ∧ ∀ message ∈ after.messages, message.id ∉ ["1", "2"] :=
  cleanup_empties { exampleShared with clients := fun _ => ⟨["1", "2"], .idle⟩ } false ["1", "2"]
    ["2", "1"] rfl (by decide) (by decide) _ rfl (by decide)

end ThreescaleTests.Mail
