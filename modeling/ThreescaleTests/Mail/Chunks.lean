import Mathlib.Logic.Function.Iterate
import ThreescaleTests.Library.Prog
import ThreescaleTests.Library.Windows

/-!
# Mail in chunks

All messages of the mail server are read in chunks, from the newest to the oldest.
How many chunks there are is decided before the first one is requested, by the number
of messages or by a limit. A limit does not shorten the last chunk.
-/

namespace ThreescaleTests.Mail

open Library

/-! ## The server -/

/-- The server's messages, the newest first, and what will arrive before each of the requests for a
chunk that are still to come. -/
structure Mailhog (M : Type) where
  messages : List M
  arrivals : List (List M)

section

variable {M : Type}

def Mailhog.arrive (s : Mailhog M) : Mailhog M :=
  match s.arrivals with
  | [] => s
  | batch :: arrivals => ⟨batch ++ s.messages, arrivals⟩

def requestTotal : Prog (Mailhog M) Nat := Prog.gets fun s => s.messages.length

/-- `api/v2/messages` with the parameters `start` and `limit`. -/
def requestItems (start limit : Nat) : Prog (Mailhog M) (List M) := do
  Prog.modify Mailhog.arrive
  Prog.gets fun s => window start limit s.messages

/-! ## The client -/

/-- `range(0, stop, step)` -/
def rangeBy (stop : Int) (step : Nat) : Except Exn (List Nat) :=
  if step = 0 then .error (.valueError "range() arg 3 must not be zero")
  else .ok ((List.range (windows stop.toNat step)).map (· * step))

/-- `limit or total` -/
def totalMessages (limit : Option Int) (total : Nat) : Int :=
  match limit with
  | none => total
  | some limit => if limit = 0 then total else limit

def chunksFrom (chunkSize : Nat) : List Nat → Prog (Mailhog M) (List (List M))
  | [] => pure []
  | start :: starts => do
      let messages ← requestItems start chunkSize
      let chunks ← chunksFrom chunkSize starts
      pure (messages :: chunks)

/-- `get_messages_by_chunk`, with the chunks that it yields. -/
def getMessagesByChunk (chunkSize : Nat) (limit : Option Int) :
    Prog (Mailhog M) (List (List M)) := do
  let total ← requestTotal
  let starts ← Prog.lift (rangeBy (totalMessages limit total) chunkSize)
  chunksFrom chunkSize starts

/-! ## What the chunks are -/

def Mailhog.messagesAt (s : Mailhog M) (j : Nat) : List M := (Mailhog.arrive^[j + 1] s).messages

theorem Mailhog.messagesAt_arrive (s : Mailhog M) (j : Nat) :
    s.arrive.messagesAt j = s.messagesAt (j + 1) := rfl

theorem requestItems_run (start limit : Nat) (s : Mailhog M) :
    (requestItems start limit).run s = (.ok (window start limit s.arrive.messages), s.arrive) := rfl

theorem chunksFrom_run (chunkSize i n : Nat) (s : Mailhog M) :
    (chunksFrom chunkSize ((List.range' i n).map (· * chunkSize))).run s =
      (.ok ((List.range n).map fun j => window ((i + j) * chunkSize) chunkSize (s.messagesAt j)),
        Mailhog.arrive^[n] s) := by
  induction n generalizing i s with
  | zero => rfl
  | succ n ih =>
      have hrest := ih (i + 1) s.arrive
      rw [List.range'_succ, List.map_cons, chunksFrom, Prog.bind_of_ok (requestItems_run _ _ _),
        Prog.bind_of_ok hrest, List.range_succ_eq_map, List.map_cons, List.map_map,
        Function.iterate_succ_apply]
      simp only [Mailhog.messagesAt_arrive, Function.comp_def, Nat.add_zero, Nat.add_right_comm i 1,
        ← Nat.add_assoc, Nat.succ_eq_add_one]
      rfl

theorem getMessagesByChunk_run {chunkSize : Nat} (h : 0 < chunkSize) (limit : Option Int)
    (s : Mailhog M) :
    (getMessagesByChunk chunkSize limit).run s =
      (.ok ((List.range (windows (totalMessages limit s.messages.length).toNat chunkSize)).map
          fun j => window (j * chunkSize) chunkSize (s.messagesAt j)),
        Mailhog.arrive^[windows (totalMessages limit s.messages.length).toNat chunkSize] s) := by
  have hrange : rangeBy (totalMessages limit s.messages.length) chunkSize =
      .ok ((List.range (windows (totalMessages limit s.messages.length).toNat chunkSize)).map
        (· * chunkSize)) := if_neg (by omega)
  have htotal : (requestTotal : Prog (Mailhog M) Nat).run s = (.ok s.messages.length, s) := rfl
  rw [getMessagesByChunk, Prog.bind_of_ok htotal, Prog.lift_bind_of_ok hrange,
    List.range_eq_range', chunksFrom_run]
  simp only [Nat.zero_add, List.range_eq_range']

/-! ## A mailbox that does not change -/

theorem messagesAt_settled (messages : List M) (j : Nat) :
    (⟨messages, []⟩ : Mailhog M).messagesAt j = messages := by
  have hfixed : (⟨messages, []⟩ : Mailhog M).arrive = ⟨messages, []⟩ := rfl
  rw [Mailhog.messagesAt, Function.iterate_fixed hfixed]

def asked (limit : Option Int) (total : Nat) : Nat :=
  match limit with
  | none => total
  | some limit => (min limit total).toNat

/-- The limit does not cut a chunk. -/
def WholeChunks (chunkSize : Nat) (limit : Option Int) (total : Nat) : Prop :=
  match limit with
  | none => True
  | some limit => (total : Int) ≤ limit ∨ limit < 0 ∨ (limit ≠ 0 ∧ (chunkSize : Int) ∣ limit)

theorem flatten_chunks {chunkSize : Nat} (h : 0 < chunkSize) (limit : Option Int)
    (messages : List M) : ∃ chunks s,
      (getMessagesByChunk chunkSize limit).run ⟨messages, []⟩ = (.ok chunks, s) ∧
      chunks.flatten = messages.take
        (windows (totalMessages limit messages.length).toNat chunkSize * chunkSize) := by
  refine ⟨_, _, getMessagesByChunk_run h limit ⟨messages, []⟩, ?_⟩
  simp only [messagesAt_settled]
  exact flatten_windows chunkSize _ messages

theorem min_windows_eq_iff {chunkSize : Nat} (h : 0 < chunkSize) (limit : Option Int)
    (total : Nat) :
    min (windows (totalMessages limit total).toNat chunkSize * chunkSize) total =
      min (asked limit total) total ↔ WholeChunks chunkSize limit total := by
  cases limit with
  | none =>
      have hle := length_le_windows_mul total h
      simp only [totalMessages, asked, WholeChunks, iff_true, Int.toNat_natCast]
      omega
  | some limit =>
      rw [totalMessages, asked, WholeChunks]
      rcases Int.lt_trichotomy limit 0 with hneg | hzero | hpos
      · have hnone : limit.toNat = 0 := by omega
        rw [if_neg (by omega), hnone, windows_zero]
        omega
      · -- a limit of zero counts as none
        have hle := length_le_windows_mul total h
        rw [if_pos hzero, Int.toNat_natCast]
        omega
      · obtain ⟨n, rfl⟩ := Int.eq_ofNat_of_zero_le (Int.le_of_lt hpos)
        have hle := length_le_windows_mul n h
        have hwhole : windows n chunkSize * chunkSize = n ↔ chunkSize ∣ n := windows_mul_eq_iff h
        rw [if_neg (by omega), Int.toNat_natCast, Int.natCast_dvd_natCast, ← hwhole]
        omega

/-- The chunks are the messages asked for, in order, exactly if the limit cuts no chunk. -/
theorem chunks_asked_iff {chunkSize : Nat} (h : 1 ≤ chunkSize) (limit : Option Int)
    (messages : List M) :
    (∃ chunks s, (getMessagesByChunk chunkSize limit).run ⟨messages, []⟩ = (.ok chunks, s) ∧
      chunks.flatten = messages.take (asked limit messages.length)) ↔
    WholeChunks chunkSize limit messages.length := by
  obtain ⟨chunks, s, hrun, hflatten⟩ := flatten_chunks h limit messages
  rw [hrun, ← min_windows_eq_iff h, ← List.take_eq_take_iff, ← hflatten]
  constructor
  · intro hasked
    obtain ⟨chunks', s', heq, htake⟩ := hasked
    cases heq
    exact htake
  · intro htake
    exact ⟨chunks, s, rfl, htake⟩

/-! ## A limit that cuts a chunk -/

theorem chunks_asked_iff_halves :
    (∃ chunks s, (getMessagesByChunk 2 (some 4)).run ⟨[5, 4, 3, 2, 1], []⟩ = (.ok chunks, s) ∧
      chunks.flatten = [5, 4, 3, 2, 1].take (asked (some 4) 5)) ↔ WholeChunks 2 (some 4) 5 :=
  chunks_asked_iff (by decide) (some 4) [5, 4, 3, 2, 1]

/-- A message too many, and all of them for none. -/
theorem chunks_not_asked :
    (¬ ∃ chunks s, (getMessagesByChunk 2 (some 3)).run ⟨[5, 4, 3, 2, 1], []⟩ = (.ok chunks, s) ∧
      chunks.flatten = [5, 4, 3, 2, 1].take (asked (some 3) 5)) ∧
    ¬ ∃ chunks s, (getMessagesByChunk 2 (some 0)).run ⟨[5, 4, 3, 2, 1], []⟩ = (.ok chunks, s) ∧
      chunks.flatten = [5, 4, 3, 2, 1].take (asked (some 0) 5) := by
  have hthree : (getMessagesByChunk 2 (some 3)).run ⟨[5, 4, 3, 2, 1], []⟩ =
      (.ok [[5, 4], [3, 2]], ⟨[5, 4, 3, 2, 1], []⟩) := rfl
  have hzero : (getMessagesByChunk 2 (some 0)).run ⟨[5, 4, 3, 2, 1], []⟩ =
      (.ok [[5, 4], [3, 2], [1]], ⟨[5, 4, 3, 2, 1], []⟩) := rfl
  constructor
  · intro h
    obtain ⟨chunks, s, hrun, hflatten⟩ := h
    cases hthree.symm.trans hrun
    exact absurd hflatten (by decide)
  · intro h
    obtain ⟨chunks, s, hrun, hflatten⟩ := h
    cases hzero.symm.trans hrun
    exact absurd hflatten (by decide)

end

end ThreescaleTests.Mail
