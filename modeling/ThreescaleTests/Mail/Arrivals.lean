import Mathlib.Data.List.Infix
import ThreescaleTests.Mail.Chunks

/-!
# Mail that arrives while it is read

New messages move the older ones on in the listing, and the positions of the chunks do
not move with them. A message is then read twice, or the oldest ones are not read at
all, unless nothing arrives between the first and the last chunk, and before the first
one no more than fits into the last.
-/

namespace ThreescaleTests.Mail

open Library

structure Message where
  id : String
  body : String
  headers : Dict String (List String)
deriving DecidableEq

/-- The client, with the IDs to be cleaned up and the server it talks to. -/
structure Client where
  server : Mailhog Message
  searched : List String

/-- What the arguments of `find_messages` ask for. -/
structure Filter where
  content : Option String
  subject : Option String
  sender : Option String
  receiver : Option String

/-! ## Reading -/

def defaultChunkSize : Nat := 250

def onServer {α : Type} (m : Prog (Mailhog Message) α) : Prog Client α :=
  Prog.focus Client.server (fun server client => { client with server := server }) m

def allMessages : Prog Client (List Message) := do
  let chunks ← onServer (getMessagesByChunk defaultChunkSize none)
  pure chunks.flatten

def appendToSearchedMessages (message : Message) : Prog Client Unit :=
  Prog.modify fun client => { client with
    searched := if message.id ∈ client.searched then client.searched
      else client.searched ++ [message.id] }

/-- `wanted is not None and wanted not in message["Content"]["Headers"][header]` -/
def lacks (wanted : Option String) (header : String) (message : Message) : Except Exn Bool :=
  match wanted with
  | none => .ok false
  | some text => (message.headers.getItem header).map fun values => decide (text ∉ values)

/-- `wanted is not None and wanted not in message["Content"]["Body"]` -/
def bodyLacks (wanted : Option String) (message : Message) : Bool :=
  match wanted with
  | none => false
  | some text => decide (¬ text.toList <:+: message.body.toList)

/-- `x or y`, where `y` is not looked at if `x` holds. -/
def shortOr (x y : Except Exn Bool) : Except Exn Bool := do
  let holds ← x
  if holds then pure true else y

/-- The condition under which `find_messages` goes on with the next message. -/
def skips (filter : Filter) (message : Message) : Except Exn Bool :=
  shortOr (.ok (bodyLacks filter.content message))
    (shortOr (lacks filter.subject "Subject" message)
      (shortOr (lacks filter.sender "From" message) (lacks filter.receiver "To" message)))

/-- The loop over the messages, with the ones that match. -/
def findFrom (filter : Filter) : List Message → Prog Client (List Message)
  | [] => pure []
  | message :: messages => do
      let skipped ← Prog.lift (skips filter message)
      if skipped then findFrom filter messages
      else do
        appendToSearchedMessages message
        let matching ← findFrom filter messages
        pure (message :: matching)

/-- The loop over the chunks, each of which is searched before the next one is requested. -/
def findChunks (filter : Filter) (chunkSize : Nat) : List Nat → Prog Client (List Message)
  | [] => pure []
  | start :: starts => do
      let messages ← onServer (requestItems start chunkSize)
      let matching ← findFrom filter messages
      let more ← findChunks filter chunkSize starts
      pure (matching ++ more)

/-- `find_messages`, which answers the number of matching messages with them. -/
def findMessages (filter : Filter) : Prog Client (Nat × List Message) := do
  let total ← onServer requestTotal
  let starts ← Prog.lift (rangeBy (totalMessages none total) defaultChunkSize)
  let matching ← findChunks filter defaultChunkSize starts
  pure (matching.length, matching)

/-! ## Arrivals -/

namespace Mailhog

variable {M : Type} (s : Mailhog M)

def batch (j : Nat) : List M := s.arrivals.getD j []

def everything : List M := s.arrivals.reverse.flatten ++ s.messages

theorem arrive_messages : s.arrive.messages = s.batch 0 ++ s.messages := by
  rw [arrive, batch]
  cases s.arrivals <;> rfl

theorem arrive_arrivals : s.arrive.arrivals = s.arrivals.tail := by
  rw [arrive]
  cases h : s.arrivals with
  | nil => exact h
  | cons batch arrivals => rfl

theorem arrive_everything : s.arrive.everything = s.everything := by
  rw [everything, everything, arrive_messages, arrive_arrivals, batch]
  cases s.arrivals <;> simp

theorem iterate_arrivals (j : Nat) : (arrive^[j] s).arrivals = s.arrivals.drop j := by
  induction j with
  | zero => rfl
  | succ j ih => rw [Function.iterate_succ_apply', arrive_arrivals, ih, List.tail_drop]

theorem iterate_everything (j : Nat) : (arrive^[j] s).everything = s.everything := by
  induction j with
  | zero => rfl
  | succ j ih => rw [Function.iterate_succ_apply', arrive_everything, ih]

theorem messagesAt_zero : s.messagesAt 0 = s.batch 0 ++ s.messages := s.arrive_messages

theorem messagesAt_succ (j : Nat) : s.messagesAt (j + 1) = s.batch (j + 1) ++ s.messagesAt j := by
  rw [messagesAt, Function.iterate_succ_apply', arrive_messages, batch, iterate_arrivals,
    messagesAt, batch, List.getD_eq_getElem?_getD, List.getElem?_drop, Nat.add_zero,
    List.getD_eq_getElem?_getD]

theorem messagesAt_suffix (j : Nat) : s.messagesAt j <:+ s.everything := by
  rw [← iterate_everything s (j + 1)]
  exact List.suffix_append _ _

theorem messages_suffix (j : Nat) : s.messages <:+ s.messagesAt j := by
  induction j with
  | zero =>
      rw [messagesAt_zero]
      exact List.suffix_append _ _
  | succ j ih =>
      rw [messagesAt_succ]
      exact ih.trans (List.suffix_append _ _)

theorem length_messagesAt_mono {i j : Nat} (h : i ≤ j) :
    (s.messagesAt i).length ≤ (s.messagesAt j).length := by
  induction h with
  | refl => exact Nat.le_refl _
  | step h ih =>
      rw [messagesAt_succ, List.length_append]
      omega

/-- The chunks that are read, of which there are as many as the messages needed at first. -/
def read (chunkSize : Nat) : List M :=
  ((List.range (windows s.messages.length chunkSize)).map fun j =>
    window (j * chunkSize) chunkSize (s.messagesAt j)).flatten

/-- Nothing arrives between the first and the last chunk, and what arrives before the first one fits
into the last. -/
def Settled (chunkSize : Nat) : Prop :=
  s.messages = [] ∨
    ((∀ j, 0 < j → j < windows s.messages.length chunkSize → s.batch j = []) ∧
      (s.batch 0).length + s.messages.length ≤ windows s.messages.length chunkSize * chunkSize)

/-! ## Nothing moves -/

theorem messagesAt_of_empty {n : Nat} (h : ∀ j, 0 < j → j < n → s.batch j = []) {j : Nat}
    (hj : j < n) : s.messagesAt j = s.messagesAt 0 := by
  induction j with
  | zero => rfl
  | succ j ih => rw [messagesAt_succ, h (j + 1) (by omega) hj, List.nil_append, ih (by omega)]

theorem read_of_nil {chunkSize : Nat} (h : s.messages = []) : s.read chunkSize = [] := by
  rw [read, h, List.length_nil, windows_zero]
  rfl

variable {s}

theorem read_of_settled {chunkSize : Nat} (h : s.Settled chunkSize) (hnone : s.messages ≠ []) :
    s.read chunkSize = s.batch 0 ++ s.messages := by
  obtain ⟨hbatches, hfits⟩ := h.resolve_left hnone
  have hchunks : ∀ j ∈ List.range (windows s.messages.length chunkSize),
      window (j * chunkSize) chunkSize (s.messagesAt j) =
        window (j * chunkSize) chunkSize (s.batch 0 ++ s.messages) := by
    intro j hj
    rw [messagesAt_of_empty s hbatches (List.mem_range.mp hj), messagesAt_zero]
  rw [read, List.map_congr_left hchunks, flatten_windows, List.take_of_length_le]
  rw [List.length_append]
  exact hfits

/-! ## Something moves -/

variable (hnodup : s.everything.Nodup)

include hnodup

theorem nodup_messagesAt (j : Nat) : (s.messagesAt j).Nodup :=
  hnodup.sublist (s.messagesAt_suffix j).sublist

/-- The oldest message is only read where everything else has been read. -/
theorem length_le_of_oldest_mem {chunkSize j : Nat} {oldest : M}
    (holdest : s.messages.getLast? = some oldest)
    (h : oldest ∈ window (j * chunkSize) chunkSize (s.messagesAt j)) :
    (s.messagesAt j).length ≤ (j + 1) * chunkSize := by
  obtain ⟨i, -, hi, hget⟩ := mem_window_iff.mp h
  obtain ⟨newer, hnewer⟩ := s.messages_suffix j
  have hlast : (s.messagesAt j)[(s.messagesAt j).length - 1]? = some oldest := by
    rw [← List.getLast?_eq_getElem?, ← hnewer, List.getLast?_append, holdest]
    rfl
  have hsame : i = (s.messagesAt j).length - 1 :=
    (List.getElem?_inj (List.getElem?_eq_some_iff.mp hget).1 (nodup_messagesAt hnodup j)).mp
      (hget.trans hlast.symm)
  rw [Nat.add_one_mul]
  omega

/-- If the oldest message is read, everything fits into the chunks. -/
theorem length_le_of_oldest_read {chunkSize : Nat} {oldest : M}
    (holdest : s.messages.getLast? = some oldest) (h : oldest ∈ s.read chunkSize) :
    ∀ j, j < windows s.messages.length chunkSize →
      (s.messagesAt j).length ≤ windows s.messages.length chunkSize * chunkSize := by
  obtain ⟨chunk, hchunk, hmem⟩ := List.mem_flatten.mp h
  obtain ⟨k, hk, rfl⟩ := List.mem_map.mp hchunk
  rw [List.mem_range] at hk
  have hlength := length_le_of_oldest_mem hnodup holdest hmem
  have hmessages := (s.messages_suffix k).length_le
  -- only the last chunk ends behind all messages
  have hlast : k + 1 = windows s.messages.length chunkSize := by
    by_contra hne
    have hinside := mul_lt_of_lt_windows (by omega : k + 1 < windows s.messages.length chunkSize)
    omega
  intro j hj
  rw [← hlast]
  exact Nat.le_trans (s.length_messagesAt_mono (by omega)) hlength

omit hnodup in
/-- Where fewer messages than a chunk arrive before the next chunk, some of the last chunk come
again. -/
theorem batch_eq_nil_of_disjoint {chunkSize j : Nat} (hchunk : 0 < chunkSize)
    (hfull : (j + 1) * chunkSize ≤ (s.messagesAt j).length)
    (hfew : (s.batch (j + 1)).length ≤ chunkSize)
    (h : (window (j * chunkSize) chunkSize (s.messagesAt j)).Disjoint
      (window ((j + 1) * chunkSize) chunkSize (s.messagesAt (j + 1)))) :
    s.batch (j + 1) = [] := by
  by_contra hbatch
  have hpos := List.length_pos_of_ne_nil hbatch
  rw [Nat.add_one_mul] at hfull
  obtain ⟨last, hget⟩ : ∃ last, (s.messagesAt j)[j * chunkSize + chunkSize - 1]? = some last :=
    ⟨_, List.getElem?_eq_getElem (by omega)⟩
  have hthis : last ∈ window (j * chunkSize) chunkSize (s.messagesAt j) :=
    mem_window_iff.mpr ⟨_, by omega, by omega, hget⟩
  have hnext : last ∈ window ((j + 1) * chunkSize) chunkSize (s.messagesAt (j + 1)) := by
    refine mem_window_iff.mpr
      ⟨(s.batch (j + 1)).length + (j * chunkSize + chunkSize - 1), ?_, ?_, ?_⟩
    · rw [Nat.add_one_mul]
      omega
    · rw [Nat.add_one_mul]
      omega
    · rw [messagesAt_succ, List.getElem?_append_right (by omega), Nat.add_sub_cancel_left]
      exact hget
  exact h hthis hnext

omit hnodup in
theorem disjoint_of_nodup_read {chunkSize j : Nat} (h : (s.read chunkSize).Nodup)
    (hj : j + 1 < windows s.messages.length chunkSize) :
    (window (j * chunkSize) chunkSize (s.messagesAt j)).Disjoint
      (window ((j + 1) * chunkSize) chunkSize (s.messagesAt (j + 1))) := by
  have hpairs := (List.nodup_flatten.mp h).2
  rw [List.pairwise_map] at hpairs
  have hget := List.pairwise_iff_getElem.mp hpairs j (j + 1) (by simp; omega) (by simp; omega)
    (by omega)
  simpa only [List.getElem_range] using hget

theorem settled_of_read {chunkSize : Nat} (hchunk : 0 < chunkSize) (h : (s.read chunkSize).Nodup)
    (hall : ∀ message ∈ s.messages, message ∈ s.read chunkSize) : s.Settled chunkSize := by
  rcases List.eq_nil_or_concat s.messages with hnone | ⟨newer, oldest, hmessages⟩
  · exact Or.inl hnone
  · right
    have holdest : s.messages.getLast? = some oldest := by simp [hmessages]
    have hread := hall oldest (List.mem_of_getLast? holdest)
    have hfits := length_le_of_oldest_read hnodup holdest hread
    have hwindows : 0 < windows s.messages.length chunkSize := by
      by_contra hzero
      have hle := length_le_windows_mul s.messages.length hchunk
      rw [Nat.eq_zero_of_not_pos hzero, hmessages] at hle
      simp at hle
    constructor
    · intro j hpos hj
      obtain ⟨i, rfl⟩ := Nat.exists_eq_succ_of_ne_zero (Nat.ne_of_gt hpos)
      have hmessages := (s.messages_suffix i).length_le
      have hinside := mul_lt_of_lt_windows hj
      have hstart := mul_lt_of_lt_windows
        (by omega : windows s.messages.length chunkSize - 1 < windows s.messages.length chunkSize)
      have hend := Nat.sub_one_mul (windows s.messages.length chunkSize) chunkSize
      have hnext := hfits (i + 1) hj
      rw [messagesAt_succ, List.length_append] at hnext
      refine batch_eq_nil_of_disjoint hchunk ?_ ?_ (disjoint_of_nodup_read h hj)
      · exact Nat.le_trans (Nat.le_of_lt hinside) hmessages
      · omega
    · have hfirst := hfits 0 hwindows
      rwa [messagesAt_zero, List.length_append] at hfirst

end Mailhog

/-! ## Matching messages -/

/-- A header has the value that is asked for. -/
def Filter.Accepts (wanted : Option String) (header : String) (message : Message) : Prop :=
  ∀ text, wanted = some text → ∃ values, message.headers.get? header = some values ∧ text ∈ values

/-- All values that are asked for are there. -/
structure Filter.Matches (filter : Filter) (message : Message) : Prop where
  content : ∀ text, filter.content = some text → text.toList <:+: message.body.toList
  subject : Accepts filter.subject "Subject" message
  sender : Accepts filter.sender "From" message
  receiver : Accepts filter.receiver "To" message

theorem lacks_eq_false_iff {wanted : Option String} {header : String} {message : Message} :
    lacks wanted header message = .ok false ↔ Filter.Accepts wanted header message := by
  cases wanted with
  | none => simp [lacks, Filter.Accepts]
  | some text =>
      rw [lacks, Filter.Accepts]
      cases hget : message.headers.getItem header with
      | error e =>
          constructor
          · intro h
            cases h
          · intro h
            obtain ⟨values, hvalues, -⟩ := h text rfl
            cases hget.symm.trans (getItem_eq_ok_iff.mpr hvalues)
      | ok values =>
          simp [getItem_eq_ok_iff.mp hget, Except.map]

theorem shortOr_eq_false_iff {x y : Except Exn Bool} :
    shortOr x y = .ok false ↔ x = .ok false ∧ y = .ok false := by
  cases x with
  | error e => simp [shortOr]
  | ok holds => cases holds <;> simp [shortOr, pure, Except.pure]

theorem bodyLacks_eq_false_iff {wanted : Option String} {message : Message} :
    bodyLacks wanted message = false ↔
      ∀ text, wanted = some text → text.toList <:+: message.body.toList := by
  cases wanted <;> simp [bodyLacks]

theorem skips_eq_false_iff {filter : Filter} {message : Message} :
    skips filter message = .ok false ↔ filter.Matches message := by
  rw [skips, shortOr_eq_false_iff, shortOr_eq_false_iff, shortOr_eq_false_iff,
    lacks_eq_false_iff, lacks_eq_false_iff, lacks_eq_false_iff, Except.ok.injEq,
    bodyLacks_eq_false_iff]
  constructor
  · intro h
    exact ⟨h.1, h.2.1, h.2.2.1, h.2.2.2⟩
  · intro h
    exact ⟨h.content, h.subject, h.sender, h.receiver⟩

/-! ## Headers -/

/-- The message has the headers that can be asked for. -/
def Message.Carries (message : Message) : Prop :=
  ∀ header ∈ ["Subject", "From", "To"], header ∈ message.headers.keys

theorem lacks_ok {header : String} {message : Message} (h : header ∈ message.headers.keys)
    (wanted : Option String) : ∃ b, lacks wanted header message = .ok b := by
  cases wanted with
  | none => exact ⟨false, rfl⟩
  | some text =>
      obtain ⟨values, hvalues⟩ := Dict.mem_keys_iff.mp h
      exact ⟨_, by rw [lacks, getItem_eq_ok_iff.mpr hvalues]; rfl⟩

theorem mem_keys_of_lacks_ok {text header : String} {message : Message} {b : Bool}
    (h : lacks (some text) header message = .ok b) : header ∈ message.headers.keys := by
  rw [lacks] at h
  cases hget : message.headers.getItem header with
  | error e =>
      rw [hget] at h
      cases h
  | ok values => exact Dict.mem_keys_iff.mpr ⟨values, getItem_eq_ok_iff.mp hget⟩

theorem shortOr_ok {x y : Except Exn Bool} (hx : ∃ b, x = .ok b) (hy : ∃ b, y = .ok b) :
    ∃ b, shortOr x y = .ok b := by
  obtain ⟨b, rfl⟩ := hx
  cases b with
  | true => exact ⟨true, rfl⟩
  | false => exact hy

theorem ok_of_shortOr {x y : Except Exn Bool} {b : Bool} (h : shortOr x y = .ok b) :
    ∃ holds, x = .ok holds := by
  obtain ⟨holds, hx, -⟩ := bind_eq_ok_iff.mp h
  exact ⟨holds, hx⟩

/-- Every search can look at the message exactly if it has all the headers. -/
theorem skips_ok_iff {message : Message} :
    (∀ filter, ∃ b, skips filter message = .ok b) ↔ message.Carries := by
  constructor
  · intro h header hheader
    simp only [List.mem_cons, List.not_mem_nil, or_false] at hheader
    rcases hheader with rfl | rfl | rfl
    · obtain ⟨b, hb⟩ := h ⟨none, some "", none, none⟩
      obtain ⟨noSubject, hsubject⟩ :=
        ok_of_shortOr (x := lacks (some "") "Subject" message) hb
      exact mem_keys_of_lacks_ok hsubject
    · obtain ⟨b, hb⟩ := h ⟨none, none, some "", none⟩
      obtain ⟨noSender, hsender⟩ := ok_of_shortOr (x := lacks (some "") "From" message) hb
      exact mem_keys_of_lacks_ok hsender
    · obtain ⟨b, hb⟩ := h ⟨none, none, none, some ""⟩
      exact mem_keys_of_lacks_ok hb
  · intro h filter
    exact shortOr_ok ⟨_, rfl⟩ (shortOr_ok (lacks_ok (h "Subject" (by simp)) _)
      (shortOr_ok (lacks_ok (h "From" (by simp)) _) (lacks_ok (h "To" (by simp)) _)))

/-! ## What the calls answer -/

theorem chunksFrom_ok (chunkSize : Nat) (starts : List Nat) (s : Mailhog Message) :
    ∃ chunks s', (chunksFrom chunkSize starts).run s = (.ok chunks, s') := by
  induction starts generalizing s with
  | nil => exact ⟨[], s, rfl⟩
  | cons start starts ih =>
      obtain ⟨chunks, s', hrun⟩ := ih s.arrive
      exact ⟨_, s', by
        rw [chunksFrom, Prog.bind_of_ok (requestItems_run _ _ _), Prog.bind_of_ok hrun]
        rfl⟩

theorem onServer_run {α : Type} {m : Prog (Mailhog Message) α} {client : Client} {a : α}
    {s : Mailhog Message} (h : m.run client.server = (.ok a, s)) :
    (onServer m).run client = (.ok a, { client with server := s }) := by
  rw [onServer, Prog.focus_run, h]

theorem defaultChunkSize_pos : 0 < defaultChunkSize := by decide

theorem allMessages_run (client : Client) : ∃ client',
    allMessages.run client = (.ok (client.server.read defaultChunkSize), client') := by
  have hrun := getMessagesByChunk_run defaultChunkSize_pos none client.server
  rw [allMessages, Prog.bind_of_ok (onServer_run hrun)]
  exact ⟨_, rfl⟩

/-- What a search answers: the matching messages, unless it cannot look at one of them. -/
inductive Found (filter : Filter) (messages : List Message) : Except Exn (List Message) → Prop
  | ok (h : ∀ message ∈ messages, ∃ b, skips filter message = .ok b) :
      Found filter messages
        (.ok (messages.filter fun message => decide (skips filter message = .ok false)))
  | error {e : Exn} {message : Message} (hmem : message ∈ messages)
      (h : ∀ b, skips filter message ≠ .ok b) : Found filter messages (.error e)

namespace Found

variable {filter : Filter} {message : Message} {messages : List Message}
  {r : Except Exn (List Message)}

theorem cons_skipped (hskips : skips filter message = .ok true) (h : Found filter messages r) :
    Found filter (message :: messages) r := by
  cases h with
  | error hmem h => exact Found.error (List.mem_cons_of_mem _ hmem) h
  | ok h =>
      have hfound : Found filter _ _ := Found.ok (List.forall_mem_cons.mpr ⟨⟨true, hskips⟩, h⟩)
      rwa [List.filter_cons_of_neg (by simp [hskips])] at hfound

theorem cons_matching (hskips : skips filter message = .ok false) (h : Found filter messages r) :
    Found filter (message :: messages) (r.map (message :: ·)) := by
  cases h with
  | error hmem h => exact Found.error (List.mem_cons_of_mem _ hmem) h
  | ok h =>
      have hfound : Found filter _ _ := Found.ok (List.forall_mem_cons.mpr ⟨⟨false, hskips⟩, h⟩)
      rwa [List.filter_cons_of_pos (by simp [hskips])] at hfound

theorem append {more : List Message} {r' : Except Exn (List Message)} {items : List Message}
    (h : Found filter messages (.ok items)) (h' : Found filter more r') :
    Found filter (messages ++ more) (r'.map (items ++ ·)) := by
  cases h with
  | ok h =>
      cases h' with
      | error hmem h' => exact Found.error (List.mem_append_right _ hmem) h'
      | ok h' =>
          have hfound : Found filter _ _ := Found.ok (List.forall_mem_append.mpr ⟨h, h'⟩)
          rwa [List.filter_append] at hfound

theorem error_append {more : List Message} {e : Exn} (h : Found filter messages (.error e)) :
    Found filter (messages ++ more) (.error e) := by
  cases h with
  | error hmem h => exact Found.error (List.mem_append_left _ hmem) h

end Found

theorem findFrom_run (filter : Filter) (messages : List Message) (client : Client) :
    ∃ r searched, (findFrom filter messages).run client =
      (r, { client with searched := searched }) ∧ Found filter messages r := by
  induction messages generalizing client with
  | nil => exact ⟨_, _, rfl, Found.ok (by simp)⟩
  | cons message messages ih =>
      cases hskips : skips filter message with
      | error e =>
          refine ⟨.error e, client.searched, ?_, Found.error List.mem_cons_self ?_⟩
          · rw [findFrom, Prog.lift_bind_of_error hskips]
          · intro b h
            cases hskips.symm.trans h
      | ok skipped =>
          rw [findFrom, Prog.lift_bind_of_ok hskips]
          cases skipped with
          | true =>
              obtain ⟨r, searched, hrun, hfound⟩ := ih client
              exact ⟨r, searched, hrun, hfound.cons_skipped hskips⟩
          | false =>
              have happend : (appendToSearchedMessages message).run client = (.ok (), _) := rfl
              rw [if_neg (by decide), Prog.bind_of_ok happend]
              obtain ⟨r, searched, hrun, hfound⟩ := ih _
              have hmatching := hfound.cons_matching hskips
              cases r with
              | error e => exact ⟨.error e, searched, Prog.bind_of_error hrun, hmatching⟩
              | ok matching =>
                  exact ⟨.ok (message :: matching), searched, Prog.bind_of_ok hrun, hmatching⟩

theorem findChunks_run (filter : Filter) {chunkSize : Nat} (starts : List Nat) (client : Client)
    {chunks : List (List Message)} {s' : Mailhog Message}
    (h : (chunksFrom chunkSize starts).run client.server = (.ok chunks, s')) :
    ∃ r client', (findChunks filter chunkSize starts).run client = (r, client') ∧
      Found filter chunks.flatten r := by
  induction starts generalizing client chunks with
  | nil =>
      cases h
      exact ⟨_, _, rfl, Found.ok (by simp)⟩
  | cons start starts ih =>
      obtain ⟨more, s1, hmore⟩ := chunksFrom_ok chunkSize starts client.server.arrive
      rw [chunksFrom, Prog.bind_of_ok (requestItems_run _ _ _), Prog.bind_of_ok hmore] at h
      cases h
      rw [findChunks, Prog.bind_of_ok (onServer_run (requestItems_run _ _ _)), List.flatten_cons]
      obtain ⟨r, searched, hfind, hfound⟩ := findFrom_run filter
        (window start chunkSize client.server.arrive.messages)
        { client with server := client.server.arrive }
      cases r with
      | error e => exact ⟨_, _, Prog.bind_of_error hfind, hfound.error_append⟩
      | ok matching =>
          rw [Prog.bind_of_ok hfind]
          obtain ⟨r', client', hrest, hmoreFound⟩ := ih ⟨client.server.arrive, searched⟩ hmore
          have hall := hfound.append hmoreFound
          cases r' with
          | error e => exact ⟨_, _, Prog.bind_of_error hrest, hall⟩
          | ok rest => exact ⟨_, _, Prog.bind_of_ok hrest, hall⟩

/-- A search answers what matches among the messages that are read. -/
theorem findMessages_run (filter : Filter) (client : Client) : ∃ r client',
    (findMessages filter).run client = (r.map fun items => (items.length, items), client') ∧
      Found filter (client.server.read defaultChunkSize) r := by
  have hchunks := getMessagesByChunk_run defaultChunkSize_pos none client.server
  obtain ⟨total, s1, htotal, hchunks⟩ := Prog.exists_of_bind_ok hchunks
  cases htotal
  obtain ⟨starts, hstarts, hchunks⟩ := Prog.exists_of_lift_bind_ok hchunks
  obtain ⟨r, client', hrun, hfound⟩ := findChunks_run filter starts client hchunks
  have htotal : (onServer requestTotal).run client =
      (.ok client.server.messages.length, client) := rfl
  refine ⟨r, client', ?_, hfound⟩
  rw [findMessages, Prog.bind_of_ok htotal, Prog.lift_bind_of_ok hstarts]
  cases r with
  | error e => exact Prog.bind_of_error hrun
  | ok items => exact Prog.bind_of_ok hrun

/-! ## Nothing lost, nothing repeated -/

/-- A client and a server all of whose messages have different IDs. -/
structure Traffic extends Client where
  distinct : (server.everything.map Message.id).Nodup

namespace Traffic

variable (t : Traffic)

/-- No message comes twice, and the wanted ones that were there from the start are there. -/
structure Complete (wanted : Message → Prop) (items : List Message) : Prop where
  once : (items.map Message.id).Nodup
  whole : ∀ message ∈ t.server.messages, wanted message → message ∈ items

/-- `all_messages` neither loses nor repeats. -/
def AllRight : Prop :=
  ∃ items client', allMessages.run t.toClient = (.ok items, client') ∧
    t.Complete (fun _ => True) items

/-- `find_messages` neither loses nor repeats. -/
def FindRight (filter : Filter) : Prop :=
  ∃ count items client', (findMessages filter).run t.toClient = (.ok (count, items), client') ∧
    t.Complete filter.Matches items

/-- All messages that are read have the headers that can be asked for. -/
def HeadersRead : Prop :=
  t.server.messages = [] ∨ ∀ message ∈ t.server.batch 0 ++ t.server.messages, message.Carries

variable {t}

theorem allRight_iff :
    t.AllRight ↔ t.Complete (fun _ => True) (t.server.read defaultChunkSize) := by
  obtain ⟨client', hrun⟩ := allMessages_run t.toClient
  rw [AllRight, hrun]
  constructor
  · intro hright
    rcases hright with ⟨items, client1, heq, hcomplete⟩
    cases heq
    exact hcomplete
  · intro hcomplete
    exact ⟨_, _, rfl, hcomplete⟩

theorem everything_nodup : t.server.everything.Nodup := t.distinct.of_map _

theorem complete_of_settled (h : t.server.Settled defaultChunkSize) :
    t.Complete (fun _ => True) (t.server.read defaultChunkSize) := by
  by_cases hnone : t.server.messages = []
  · rw [t.server.read_of_nil hnone]
    exact ⟨List.nodup_nil, by simp [hnone]⟩
  · rw [Mailhog.read_of_settled h hnone, ← t.server.messagesAt_zero]
    refine ⟨t.distinct.sublist ((t.server.messagesAt_suffix 0).sublist.map _), ?_⟩
    intro message hmem _
    exact (t.server.messages_suffix 0).mem hmem

theorem settled_of_complete (h : t.Complete (fun _ => True) (t.server.read defaultChunkSize)) :
    t.server.Settled defaultChunkSize :=
  Mailhog.settled_of_read everything_nodup defaultChunkSize_pos (h.once.of_map _)
    fun message hmem => h.whole message hmem trivial

theorem findRight_iff {filter : Filter} :
    t.FindRight filter ↔
      (∀ message ∈ t.server.read defaultChunkSize, ∃ b, skips filter message = .ok b) ∧
        t.Complete filter.Matches ((t.server.read defaultChunkSize).filter fun message =>
          decide (skips filter message = .ok false)) := by
  obtain ⟨r, client', hrun, hfound⟩ := findMessages_run filter t.toClient
  rw [FindRight, hrun]
  constructor
  · intro hright
    rcases hright with ⟨count, items, client1, heq, hcomplete⟩
    cases hfound with
    | error hmem h => cases heq
    | ok h =>
        cases heq
        exact ⟨h, hcomplete⟩
  · intro hcomplete
    cases hfound with
    | error hmem h =>
        rcases hcomplete.1 _ hmem with ⟨b, hb⟩
        exact absurd hb (h b)
    | ok h => exact ⟨_, _, _, rfl, hcomplete.2⟩

theorem findRight_of_complete {filter : Filter}
    (hreadable : ∀ message ∈ t.server.read defaultChunkSize, ∃ b, skips filter message = .ok b)
    (h : t.Complete (fun _ => True) (t.server.read defaultChunkSize)) : t.FindRight filter := by
  refine findRight_iff.mpr ⟨hreadable, h.once.sublist (List.filter_sublist.map _), ?_⟩
  intro message hmem hmatches
  rw [List.mem_filter, decide_eq_true_eq, skips_eq_false_iff]
  exact ⟨h.whole message hmem trivial, hmatches⟩

/-- A search that asks for nothing returns all it reads. -/
theorem complete_of_findRight (h : t.FindRight ⟨none, none, none, none⟩) :
    t.Complete (fun _ => True) (t.server.read defaultChunkSize) := by
  obtain ⟨honce, hwhole⟩ := (findRight_iff.mp h).2
  have hskips : ∀ message, skips ⟨none, none, none, none⟩ message = .ok false := fun _ => rfl
  simp only [hskips, decide_true, List.filter_true] at honce hwhole
  exact ⟨honce, fun message hmem _ => hwhole message hmem (skips_eq_false_iff.mp (hskips message))⟩

theorem headersRead_iff (h : t.server.Settled defaultChunkSize) :
    t.HeadersRead ↔ ∀ message ∈ t.server.read defaultChunkSize, message.Carries := by
  rw [HeadersRead]
  by_cases hnone : t.server.messages = []
  · simp [t.server.read_of_nil hnone, hnone]
  · rw [Mailhog.read_of_settled h hnone, or_iff_right hnone]

/-- Reading neither loses nor repeats exactly if the mailbox settles before the first chunk is
requested; searching for what it pleases also needs the headers. -/
theorem reads_complete_iff (t : Traffic) :
    (t.AllRight ↔ t.server.Settled defaultChunkSize) ∧
      ((∀ filter, t.FindRight filter) ↔ t.server.Settled defaultChunkSize ∧ t.HeadersRead) := by
  constructor
  · rw [allRight_iff]
    exact ⟨settled_of_complete, complete_of_settled⟩
  constructor
  · intro h
    have hsettled := settled_of_complete (complete_of_findRight (h _))
    refine ⟨hsettled, (headersRead_iff hsettled).mpr ?_⟩
    intro message hmem
    exact skips_ok_iff.mp fun filter => (findRight_iff.mp (h filter)).1 message hmem
  · intro h filter
    refine findRight_of_complete ?_ (complete_of_settled h.1)
    intro message hmem
    exact skips_ok_iff.mpr ((headersRead_iff h.1).mp h.2 message hmem) filter

/-! ## A full chunk -/

/-- A message whose ID tells its number. -/
def numbered (n : Nat) : Message where
  id := String.ofList (List.replicate n 'm')
  body := "The request limit is reached."
  headers := ⟨[("Subject", ["Limit"]), ("From", ["3scale"]), ("To", ["admin"])], by decide⟩

theorem numbered_distinct (n : Nat) :
    (((List.range n).reverse.map numbered).map Message.id).Nodup := by
  rw [List.map_map]
  refine (List.nodup_reverse.mpr List.nodup_range).map fun i j h => ?_
  have hlength := congrArg (fun id => id.toList.length) h
  simpa [numbered] using hlength

/-- Another message arrives at a mailbox that fills one chunk. -/
def overfull : Traffic where
  server := ⟨(List.range 250).reverse.map numbered, [[numbered 250]]⟩
  searched := []
  distinct := by
    have heverything : (List.range 251).reverse.map numbered =
        [[numbered 250]].reverse.flatten ++ (List.range 250).reverse.map numbered := by
      rw [List.range_succ, List.reverse_append, List.map_append]
      rfl
    rw [Mailhog.everything, ← heverything]
    exact numbered_distinct 251

/-- The oldest message is lost. -/
theorem reads_not_complete :
    ¬ overfull.AllRight ∧ ¬ overfull.FindRight ⟨none, none, none, none⟩ := by
  have hlength : overfull.server.messages.length = 250 := by
    simp only [overfull, List.length_map, List.length_reverse, List.length_range]
  have hmoves : ¬ overfull.server.Settled defaultChunkSize := by
    rintro (hnone | ⟨-, hfits⟩)
    · rw [hnone] at hlength
      cases hlength
    · rw [hlength] at hfits
      exact absurd hfits (by decide)
  constructor
  · intro h
    exact hmoves (settled_of_complete (allRight_iff.mp h))
  · intro h
    exact hmoves (settled_of_complete (complete_of_findRight h))

end Traffic

end ThreescaleTests.Mail
