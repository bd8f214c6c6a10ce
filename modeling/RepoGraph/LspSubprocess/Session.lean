import RepoGraph.LspSubprocess.Framing
import RepoGraph.Lib.Runs

/-! A client and a language server. The client waits for one answer at a time, for a while; the server answers
when it likes, or not at all, and writes what else it likes; the reader thread hands on what the server
writes. -/

namespace RepoGraph.LspSubprocess

open Lib Indexer

section Messages

def digitsValue (digits : List Char) : Option ℕ :=
  if digits = [] ∨ ¬ digits.all Char.isDigit then none else some (Nat.ofDigitChars 10 digits 0)

/-- `Value::as_i64`; minus zero is a float. -/
def asI64 : Json → Option ℤ
  | .number text =>
    match text.toList with
    | '-' :: digits => (digitsValue digits).bind fun n => if 0 < n ∧ n ≤ 2 ^ 63 then some (-(n : ℤ)) else none
    | digits => (digitsValue digits).bind fun n => if n < 2 ^ 63 then some (n : ℤ) else none
  | _ => none

def asI32 (n : ℤ) : ℤ := n.bmod (2 ^ 32)

structure LspError where
  code : ℤ
  message : String
  deriving DecidableEq, Repr

structure LspResponse (α : Type) where
  id : ℤ
  result : Option α
  error : Option LspError

inductive Outcome (α : Type)
  | response (r : LspResponse α)
  | channel (text : String)
  | processExited
  | timeout
  | readerDead

variable {α : Type} (fromValue : Json → Option α)

def responseError (msg : Json) : Option LspError := do
  let e ← msg.get "error"
  let code ← (← e.get "code") |> asI64
  let message ← (← e.get "message").asStr
  return ⟨asI32 code, message⟩

def messageId (msg : Json) : Option ℤ := ((msg.get "id").bind asI64).map asI32

def verdict (expectedId : ℤ) : ReaderMessage → Option (Outcome α)
  | .message msg =>
    if messageId msg = some expectedId then
      some (.response ⟨expectedId, (msg.get "result").bind fromValue, responseError msg⟩)
    else none
  | .error text => some (.channel text)
  | .shutdown => some .processExited

end Messages

structure Emission where
  answers : Option ℕ
  message : ReaderMessage

structure Wait (α : Type) where
  start : ℕ
  stop : ℕ
  outcome : Outcome α

/-- The client counts its requests, those included that it could not write. The messages are those that the
server has written, the first of them are in the channel or were, and the first of those the client has taken. -/
structure Session (α : Type) where
  calls : ℕ
  requests : List ℕ
  stream : List Chunk
  emitted : List Emission
  readerDone : Bool
  delivered : ℕ
  taken : ℕ
  waiting : Option ℕ
  waits : List (Wait α)

inductive Event
  | request
  | requestFailed
  | answer (k : ℕ) (c : Chunk)
  | push (c : Chunk)
  | exit
  | panic
  | deliver
  | receive
  | timeout
  | disconnected

def idOf (call : ℕ) : ℤ := asI32 (call + 1)

def carries (call : ℕ) : ReaderMessage → Bool
  | .message msg => messageId msg = some (idOf call)
  | _ => false

namespace Session

variable {α : Type} (fromSlice : List UInt8 → Except String Json) (fromValue : Json → Option α)

def new : Session α := ⟨0, [], [], [], false, 0, 0, none, []⟩

def finish (s : Session α) (start : ℕ) (outcome : Outcome α) : Session α :=
  { s with waiting := none, waits := s.waits ++ [⟨start, s.taken, outcome⟩] }

def emit (s : Session α) (answers : Option ℕ) (c : Chunk) : Session α :=
  { s with stream := s.stream ++ [c], emitted := s.emitted ++ [⟨answers, c.sent fromSlice⟩] }

def take (s : Session α) (start : ℕ) (m : ReaderMessage) : Session α :=
  let s := { s with taken := s.taken + 1 }
  match s.requests.getLast? with
  | some call =>
    match verdict fromValue (idOf call) m with
    | some outcome => s.finish start outcome
    | none => s
  | none => s

/-- One step of one of the parties; where it is not its turn, nothing happens. -/
def step (s : Session α) : Event → Session α
  | .request => if s.waiting.isSome then s else
      { s with calls := s.calls + 1, requests := s.requests ++ [s.calls], waiting := some s.taken }
  | .requestFailed => if s.waiting.isSome then s else { s with calls := s.calls + 1 }
  | .answer k c =>
    match s.requests[k]? with
    | some call => if ¬ s.readerDone ∧ carries call (c.sent fromSlice) then s.emit fromSlice (some k) c else s
    | none => s
  | .push c => if s.readerDone then s else s.emit fromSlice none c
  | .exit => if s.readerDone then s else { s with readerDone := true, emitted := s.emitted ++ [⟨none, .shutdown⟩] }
  | .panic => { s with readerDone := true }
  | .deliver => if s.delivered < s.emitted.length then { s with delivered := s.delivered + 1 } else s
  | .receive =>
    match s.waiting, s.emitted[s.taken]? with
    | some start, some e => if s.taken < s.delivered then s.take fromValue start e.message else s
    | _, _ => s
  | .timeout =>
    match s.waiting with
    | some start => s.finish start .timeout
    | none => s
  | .disconnected =>
    match s.waiting with
    | some start => if s.readerDone ∧ s.taken = s.emitted.length then s.finish start .readerDead else s
    | none => s

variable {fromSlice fromValue}

def verdictAt (fromValue : Json → Option α) (emitted : List Emission) (call p : ℕ) : Option (Outcome α) :=
  emitted[p]?.bind fun e => verdict fromValue (idOf call) e.message

structure Looked (fromValue : Json → Option α) (emitted : List Emission) (call : ℕ) (w : Wait α) : Prop where
  le : w.start ≤ w.stop
  passed : ∀ p, w.start ≤ p → p + 1 < w.stop → verdictAt fromValue emitted call p = none
  ended : w.start < w.stop ∧ verdictAt fromValue emitted call (w.stop - 1) = some w.outcome ∨
    (w.outcome = .timeout ∨ w.outcome = .readerDead) ∧
      ∀ p, w.start ≤ p → p < w.stop → verdictAt fromValue emitted call p = none

inductive Tiles : List (Wait α) → ℕ → Prop
  | nil : Tiles [] 0
  | snoc {waits : List (Wait α)} {n : ℕ} (w : Wait α) (h : Tiles waits n)
    (start : w.start = n) : Tiles (waits ++ [w]) w.stop

structure Waiting (fromValue : Json → Option α) (s : Session α) (start : ℕ) : Prop where
  tiles : Tiles s.waits start
  le : start ≤ s.taken
  count : s.waits.length + 1 = s.requests.length
  passed : ∀ call, s.requests.getLast? = some call → ∀ p, start ≤ p → p < s.taken →
    verdictAt fromValue s.emitted call p = none

structure Valid (fromValue : Json → Option α) (s : Session α) : Prop where
  taken : s.taken ≤ s.delivered
  delivered : s.delivered ≤ s.emitted.length
  requests : s.requests.Pairwise (· < ·)
  calls : ∀ call ∈ s.requests, call < s.calls
  idle : s.waiting = none → Tiles s.waits s.taken ∧ s.waits.length = s.requests.length
  waiting : ∀ start, s.waiting = some start → Waiting fromValue s start
  stopped : ∀ w ∈ s.waits, w.stop ≤ s.taken
  looked : ∀ (k : ℕ) w call, s.waits[k]? = some w → s.requests[k]? = some call → Looked fromValue s.emitted call w
  answers : ∀ (p : ℕ) e k, s.emitted[p]? = some e → e.answers = some k →
    ∃ call, s.requests[k]? = some call ∧ carries call e.message ∧ (∀ w, s.waits[k]? = some w → w.start ≤ p) ∧
      (k = s.waits.length → ∀ start, s.waiting = some start → start ≤ p)

lemma Valid.new : Valid fromValue (new : Session α) := by
  constructor <;> simp [Session.new, Tiles.nil]

lemma Looked.mono {emitted emitted' : List Emission} {call : ℕ} {w : Wait α} (h : Looked fromValue emitted call w)
    (hsame : ∀ p < w.stop, emitted'[p]? = emitted[p]?) : Looked fromValue emitted' call w := by
  have hverdict : ∀ p < w.stop, verdictAt fromValue emitted' call p = verdictAt fromValue emitted call p :=
      fun p hp => by
    rw [verdictAt, verdictAt, hsame p hp]
  refine ⟨h.le, fun p hle hlt => (hverdict p (by omega)).trans (h.passed p hle hlt), ?_⟩
  rcases h.ended with ⟨hlt, hlast⟩ | ⟨hout, hnone⟩
  · exact .inl ⟨hlt, (hverdict _ (by omega)).trans hlast⟩
  · exact .inr ⟨hout, fun p hle hlt => (hverdict p hlt).trans (hnone p hle hlt)⟩

section Steps

variable {s : Session α}

lemma getElem?_of_lt_length {β : Type} {l : List β} {b b' : β} {k : ℕ} (h : (l ++ [b])[k]? = some b') :
    l[k]? = some b' ∨ k = l.length ∧ b' = b := by
  rcases Nat.lt_or_ge k l.length with hk | hk
  · rw [List.getElem?_append_left hk] at h
    exact .inl h
  · rw [List.getElem?_append_right hk] at h
    have hsub : k - l.length < 1 := by
      by_contra hge
      rw [List.getElem?_eq_none (Nat.not_lt.mp hge)] at h
      cases h
    have hk' : k = l.length := by omega
    subst hk'
    refine .inr ⟨rfl, ?_⟩
    simpa using h.symm

lemma Valid.request (h : Valid fromValue s) (hidle : s.waiting = none) :
    Valid fromValue
      { s with
        calls := s.calls + 1
        requests := s.requests ++ [s.calls]
        waiting := some s.taken } := by
  obtain ⟨htiles, hcount⟩ := h.idle hidle
  refine ⟨h.taken, h.delivered, ?_, ?_, nofun, ?_, h.stopped, ?_, ?_⟩
  · refine List.pairwise_append.mpr ⟨h.requests, by simp, fun a ha b hb => ?_⟩
    obtain rfl := List.mem_singleton.mp hb
    exact h.calls a ha
  · intro call hcall
    rcases List.mem_append.mp hcall with hcall | hcall
    · exact (h.calls call hcall).trans (Nat.lt_succ_self _)
    · obtain rfl := List.mem_singleton.mp hcall
      exact Nat.lt_succ_self _
  · rintro start hstart
    obtain rfl := Option.some.inj hstart
    exact ⟨htiles, le_rfl, by simp [hcount], fun _ _ p hle hlt => absurd hlt (Nat.not_lt_of_le hle)⟩
  · intro k w call hw hcall
    rcases getElem?_of_lt_length hcall with hcall | ⟨rfl, -⟩
    · exact h.looked k w call hw hcall
    · rw [List.getElem?_eq_none (by simp [hcount])] at hw
      cases hw
  · intro p e k he hk
    obtain ⟨call, hcall, hcarries, hpast, -⟩ := h.answers p e k he hk
    have hlt := (List.getElem?_eq_some_iff.mp hcall).1
    refine ⟨call, ?_, hcarries, hpast, fun hlast => ?_⟩
    · exact (List.getElem?_append_left hlt).trans hcall
    · change k = s.waits.length at hlast
      omega

lemma Valid.requestFailed (h : Valid fromValue s) : Valid fromValue { s with calls := s.calls + 1 } :=
  ⟨h.taken, h.delivered, h.requests, fun call hcall => (h.calls call hcall).trans (Nat.lt_succ_self _), h.idle,
    fun start hstart => ⟨(h.waiting start hstart).tiles, (h.waiting start hstart).le,
      (h.waiting start hstart).count,
      (h.waiting start hstart).passed⟩, h.stopped, h.looked, h.answers⟩

lemma Valid.emit (h : Valid fromValue s) (stream : List Chunk) (readerDone : Bool) (e : Emission)
    (hanswer : ∀ k, e.answers = some k → ∃ call, s.requests[k]? = some call ∧ carries call e.message) :
    Valid fromValue { s with stream := stream, readerDone := readerDone, emitted := s.emitted ++ [e] } := by
  have htaken := h.taken.trans h.delivered
  have hold : ∀ p < s.taken, (s.emitted ++ [e])[p]? = s.emitted[p]? := fun p hp =>
    List.getElem?_append_left (hp.trans_le htaken)
  refine ⟨h.taken, ?_, h.requests, h.calls, h.idle, ?_, h.stopped, ?_, ?_⟩
  · exact h.delivered.trans (by simp)
  · intro start hstart
    obtain ⟨htiles, hle, hcount, hpassed⟩ := h.waiting start hstart
    refine ⟨htiles, hle, hcount, fun call hcall p hstart hp => ?_⟩
    rw [verdictAt, hold p hp]
    exact hpassed call hcall p hstart hp
  · intro k w call hw hcall
    exact (h.looked k w call hw hcall).mono fun p hp =>
      hold p (hp.trans_le (h.stopped w (List.mem_of_getElem? hw)))
  · intro p e' k he hk
    rcases getElem?_of_lt_length he with he | ⟨rfl, rfl⟩
    · exact h.answers p e' k he hk
    · obtain ⟨call, hcall, hcarries⟩ := hanswer k hk
      refine ⟨call, hcall, hcarries, fun w hw => ?_, fun _ start hstart => ?_⟩
      · exact ((h.looked k w call hw hcall).le.trans (h.stopped w (List.mem_of_getElem? hw))).trans htaken
      · exact (h.waiting start hstart).le.trans htaken

lemma Valid.finish (h : Valid fromValue s) {start taken : ℕ} {outcome : Outcome α}
    (hstart : s.waiting = some start) (htaken : s.taken ≤ taken) (hdelivered : taken ≤ s.delivered)
    (hlooked : ∀ call, s.requests.getLast? = some call → Looked fromValue s.emitted call ⟨start, taken, outcome⟩) :
    Valid fromValue { s with taken := taken, waiting := none, waits := s.waits ++ [⟨start, taken, outcome⟩] } := by
  obtain ⟨htiles, hle, hcount, -⟩ := h.waiting start hstart
  refine ⟨hdelivered, h.delivered, h.requests, h.calls,
    fun _ => ⟨.snoc ⟨start, taken, outcome⟩ htiles rfl, by simpa using hcount⟩, nofun, ?_, ?_, ?_⟩
  · intro w hw
    rcases List.mem_append.mp hw with hw | hw
    · exact (h.stopped w hw).trans htaken
    · obtain rfl := List.mem_singleton.mp hw
      exact le_rfl
  · intro k w call hw hcall
    rcases getElem?_of_lt_length hw with hw | ⟨rfl, rfl⟩
    · exact h.looked k w call hw hcall
    · apply hlooked
      rw [List.getLast?_eq_getElem?, ← hcount, Nat.add_sub_cancel]
      exact hcall
  · intro p e k he hk
    obtain ⟨call, hcall, hcarries, hpast, hnow⟩ := h.answers p e k he hk
    refine ⟨call, hcall, hcarries, fun w hw => ?_, nofun⟩
    rcases getElem?_of_lt_length hw with hw | ⟨rfl, rfl⟩
    · exact hpast w hw
    · exact hnow rfl start hstart

lemma Valid.passOver (h : Valid fromValue s) {start : ℕ} (hstart : s.waiting = some start)
    (hlt : s.taken < s.delivered)
    (hnone : ∀ call, s.requests.getLast? = some call → verdictAt fromValue s.emitted call s.taken = none) :
    Valid fromValue { s with taken := s.taken + 1 } := by
  refine ⟨hlt, h.delivered, h.requests, h.calls, fun hidle => ?_, fun start' hstart' =>
    ?_, ?_, h.looked, h.answers⟩
  · cases hstart.symm.trans hidle
  · obtain rfl := Option.some.inj (hstart.symm.trans hstart')
    obtain ⟨htiles, hle, hcount, hpassed⟩ := h.waiting start hstart
    refine ⟨htiles, hle.trans (Nat.le_succ _), hcount, fun call hcall p hle hp => ?_⟩
    rcases Nat.lt_succ_iff_lt_or_eq.mp hp with hp | rfl
    · exact hpassed call hcall p hle hp
    · exact hnone call hcall
  · exact fun w hw => (h.stopped w hw).trans (Nat.le_succ _)

lemma Valid.receive (h : Valid fromValue s) {start : ℕ} {e : Emission} (hstart : s.waiting = some start)
    (he : s.emitted[s.taken]? = some e)
      (hlt : s.taken < s.delivered) : Valid fromValue (s.take fromValue start e.message) := by
  obtain ⟨htiles, hle, hcount, hpassed⟩ := h.waiting start hstart
  obtain ⟨call, hcall⟩ : ∃ call, s.requests.getLast? = some call := by
    have hne : s.requests ≠ [] := List.length_pos_iff.mp (by omega)
    exact ⟨_, List.getLast?_eq_some_getLast hne⟩
  have hverdict : verdictAt fromValue s.emitted call s.taken = verdict fromValue (idOf call) e.message := by
    rw [verdictAt, he]
    rfl
  rw [take]
  simp only [hcall]
  cases hv : verdict fromValue (idOf call) e.message with
  | none =>
    refine h.passOver hstart hlt fun call' hcall' => ?_
    obtain rfl := Option.some.inj (hcall.symm.trans hcall')
    exact hverdict.trans hv
  | some outcome =>
    refine h.finish hstart (Nat.le_succ _) hlt fun call' hcall' => ?_
    obtain rfl := Option.some.inj (hcall.symm.trans hcall')
    refine ⟨hle.trans (Nat.le_succ _), fun p hle hp =>
      hpassed _ hcall p hle (Nat.lt_of_succ_lt_succ hp), .inl ⟨?_, ?_⟩⟩
    · exact Nat.lt_succ_of_le hle
    · exact hverdict.trans hv

lemma Valid.giveUp (h : Valid fromValue s) {start : ℕ} {outcome : Outcome α} (hstart : s.waiting = some start)
    (houtcome : outcome = .timeout ∨ outcome = .readerDead) : Valid fromValue (s.finish start outcome) := by
  obtain ⟨htiles, hle, hcount, hpassed⟩ := h.waiting start hstart
  refine h.finish hstart le_rfl h.taken fun call hcall => ?_
  exact ⟨hle, fun p hle hp => hpassed call hcall p hle (Nat.lt_of_succ_lt hp), .inr ⟨houtcome, hpassed call hcall⟩⟩

lemma Valid.step (h : Valid fromValue s) (event : Event) : Valid fromValue (s.step fromSlice fromValue event) := by
  cases event with
  | request =>
    rw [Session.step]
    split_ifs with hwaiting
    · exact h
    · exact h.request (by simpa using hwaiting)
  | requestFailed =>
    rw [Session.step]
    split_ifs with hwaiting
    · exact h
    · exact h.requestFailed
  | answer k c =>
    rw [Session.step]
    split
    · rename_i call hcall
      split_ifs with hcarries
      · refine h.emit _ _ _ fun k' hk' => ?_
        obtain rfl := Option.some.inj hk'
        exact ⟨call, hcall, hcarries.2⟩
      · exact h
    · exact h
  | push c =>
    rw [Session.step]
    split_ifs
    · exact h
    · exact h.emit _ _ _ nofun
  | exit =>
    rw [Session.step]
    split_ifs
    · exact h
    · exact h.emit _ _ _ nofun
  | panic => exact ⟨h.taken, h.delivered, h.requests, h.calls, h.idle, fun start hstart =>
      ⟨(h.waiting start hstart).tiles, (h.waiting start hstart).le, (h.waiting start hstart).count,
        (h.waiting start hstart).passed⟩, h.stopped, h.looked, h.answers⟩
  | deliver =>
    rw [Session.step]
    split_ifs with hlt
    · exact ⟨h.taken.trans (Nat.le_succ _), hlt, h.requests, h.calls, h.idle, fun start hstart =>
        ⟨(h.waiting start hstart).tiles, (h.waiting start hstart).le, (h.waiting start hstart).count,
          (h.waiting start hstart).passed⟩, h.stopped, h.looked, h.answers⟩
    · exact h
  | receive =>
    rw [Session.step]
    split
    · rename_i start e hstart he
      split_ifs with hlt
      · exact h.receive hstart he hlt
      · exact h
    · exact h
  | timeout =>
    rw [Session.step]
    split
    · rename_i start hstart
      exact h.giveUp hstart (.inl rfl)
    · exact h
  | disconnected =>
    rw [Session.step]
    split
    · rename_i start hstart
      split_ifs
      · exact h.giveUp hstart (.inr rfl)
      · exact h
    · exact h

end Steps

section Runs

variable (fromSlice fromValue)

def after (events : List Event) : Session α := run (Session.step fromSlice fromValue) Session.new events

lemma valid_after (events : List Event) : Valid fromValue (after fromSlice fromValue events : Session α) :=
  run_invariant (fun _ s => Valid fromValue s) Valid.new (fun _ _ event h => h.step event) events

def Streamed (s : Session α) : Prop :=
  s.emitted.map Emission.message = s.stream.map (Chunk.sent fromSlice) ∨
    s.readerDone = true ∧ s.emitted.map Emission.message = s.stream.map (Chunk.sent fromSlice) ++ [.shutdown]

variable {fromSlice}

lemma Streamed.emit {s : Session α} (h : Streamed fromSlice s) (hlive : ¬ s.readerDone)
    (answers : Option ℕ) (c : Chunk) :
    Streamed fromSlice (s.emit fromSlice answers c) := by
  rcases h with h | ⟨hdone, -⟩
  · refine .inl ?_
    rw [Session.emit, List.map_append, List.map_append, h]
    rfl
  · exact absurd hdone hlive

lemma Streamed.step {s : Session α} (h : Streamed fromSlice s) (event : Event) :
    Streamed fromSlice (s.step fromSlice fromValue event) := by
  cases event with
  | answer k c =>
    rw [Session.step]
    split
    · split_ifs with hanswer
      · exact h.emit hanswer.1 _ _
      · exact h
    · exact h
  | push c =>
    rw [Session.step]
    split_ifs with hdone
    · exact h
    · exact h.emit hdone _ _
  | exit =>
    rw [Session.step]
    split_ifs with hdone
    · exact h
    · refine .inr ⟨rfl, ?_⟩
      rw [List.map_append, h.resolve_right fun h => hdone h.1]
      rfl
  | panic => exact h.imp_right fun h => ⟨rfl, h.2⟩
  | receive =>
    rw [Session.step]
    split
    · split_ifs
      · rw [take]
        dsimp only
        split
        · split
          · exact h
          · exact h
        · exact h
      · exact h
    · exact h
  | request =>
    rw [Session.step]
    split_ifs
    · exact h
    · exact h
  | requestFailed =>
    rw [Session.step]
    split_ifs
    · exact h
    · exact h
  | deliver =>
    rw [Session.step]
    split_ifs
    · exact h
    · exact h
  | timeout =>
    rw [Session.step]
    split
    · exact h
    · exact h
  | disconnected =>
    rw [Session.step]
    split
    · split_ifs
      · exact h
      · exact h
    · exact h

lemma streamed_after (events : List Event) : Streamed fromSlice (after fromSlice fromValue events : Session α) :=
  run_invariant (fun _ s => Streamed fromSlice s) (.inl rfl) (fun _ _ event h => h.step fromValue event) events

variable (fromSlice)

/-- The client takes what the reader thread makes of the bytes of the server, each message in one wait and in
order; a wait ends with the first message that carries its id, that reports an error, or that shuts down. -/
structure Exact (s : Session α) : Prop where
  stream : s.emitted.map Emission.message <+: readerLoop fromSlice (s.stream.flatMap Chunk.bytes)
  taken : s.taken ≤ s.emitted.length
  tiles : ∃ start, Tiles s.waits start ∧ start ≤ s.taken ∧ (s.waiting = none → start = s.taken) ∧
    ∀ start', s.waiting = some start' → start' = start
  count : s.requests.length = s.waits.length + s.waiting.toList.length
  looked : ∀ (k : ℕ) w call, s.waits[k]? = some w → s.requests[k]? = some call → Looked fromValue s.emitted call w

lemma Tiles.ordered {waits : List (Wait α)} {n : ℕ} (h : Tiles waits n) (hle : ∀ w ∈ waits, w.start ≤ w.stop) :
    (∀ w ∈ waits, w.stop ≤ n) ∧
      ∀ (i j : ℕ) w w', i < j → waits[i]? = some w → waits[j]? = some w' → w.stop ≤ w'.start := by
  induction h with
  | nil => simp
  | @snoc waits n w htiles hstart ih =>
    obtain ⟨hbelow, hordered⟩ := ih fun w hw => hle w (List.mem_append_left _ hw)
    have hw := hle w (by simp)
    refine ⟨fun v hv => ?_, fun i j v v' hlt hv hv' => ?_⟩
    · rcases List.mem_append.mp hv with hv | hv
      · exact (hbelow v hv).trans (hstart ▸ hw)
      · exact (List.mem_singleton.mp hv) ▸ le_rfl
    · rcases getElem?_of_lt_length hv' with hv' | ⟨rfl, rfl⟩
      · have hj := (List.getElem?_eq_some_iff.mp hv').1
        rw [List.getElem?_append_left (hlt.trans hj)] at hv
        exact hordered i j v v' hlt hv hv'
      · rw [List.getElem?_append_left hlt] at hv
        exact (hbelow v (List.mem_of_getElem? hv)).trans hstart.ge

variable {fromSlice} {fromValue} in
lemma Valid.count {s : Session α} (h : Valid fromValue s) : s.requests.length = s.waits.length +
    s.waiting.toList.length := by
  cases hwaiting : s.waiting with
  | none => exact (h.idle hwaiting).2.symm
  | some start => exact (h.waiting start hwaiting).count.symm

variable {fromSlice} {fromValue} in
lemma Valid.tiles {s : Session α} (h : Valid fromValue s) : ∃ start, Tiles s.waits start ∧ start ≤ s.taken ∧
    (s.waiting = none → start = s.taken) ∧ ∀ start', s.waiting = some start' → start' = start := by
  cases hwaiting : s.waiting with
  | none => exact ⟨s.taken, (h.idle hwaiting).1, le_rfl, fun _ => rfl, nofun⟩
  | some start =>
    obtain ⟨htiles, hle, -, -⟩ := h.waiting start hwaiting
    exact ⟨start, htiles, hle, nofun, fun start' hstart => (Option.some.inj hstart).symm⟩

theorem session_exact (events : List Event) : Exact fromSlice fromValue (after fromSlice fromValue events) := by
  have h := valid_after fromSlice fromValue events
  refine ⟨?_, h.taken.trans h.delivered, h.tiles, h.count, h.looked⟩
  rw [readerLoop_stream]
  rcases streamed_after fromValue events with hstream | ⟨-, hstream⟩
  · rw [hstream]
    exact List.prefix_append _ _
  · rw [hstream]

/-- What comes back from a wait is an answer to its own request, unless the ids have gone round or the server
wrote the id of a request on a message of its own. -/
def OwnAnswers (s : Session α) : Prop :=
  ∀ (k : ℕ) w call r, s.waits[k]? = some w → s.requests[k]? = some call → w.outcome = .response r →
    r.id = idOf call ∧ ∃ e, s.emitted[w.stop - 1]? = some e ∧ carries call e.message ∧
      ∀ k', e.answers = some k' → k' ≤ k ∧ ∃ call', s.requests[k']? = some call' ∧
        (2 ^ 32 : ℤ) ∣ (call : ℤ) - call'

/-- An answer that the client has taken came back from the wait for it, unless that wait was over before. -/
def AnswersKept (s : Session α) : Prop :=
  ∀ (p : ℕ) e k, s.emitted[p]? = some e → e.answers = some k → p < s.taken →
    ∃ w, s.waits[k]? = some w ∧ (w.stop ≤ p ∨ w.stop = p + 1 ∧ ∃ r, w.outcome = .response r)

variable {fromSlice} {fromValue}

lemma carries_message {call : ℕ} {msg : Json} : carries call (.message msg) ↔
    messageId msg = some (idOf call) := by
  rw [carries, decide_eq_true_eq]

lemma verdict_response {call : ℕ} {m : ReaderMessage} {r : LspResponse α}
    (h : verdict fromValue (idOf call) m = some (.response r)) : carries call m ∧ r.id = idOf call := by
  cases m with
  | message msg =>
    rw [verdict] at h
    split_ifs at h with hid
    have hr := Outcome.response.inj (Option.some.inj h)
    exact ⟨carries_message.mpr hid, by rw [← hr]⟩
  | error text => cases h
  | shutdown => cases h

lemma verdict_of_carries {call : ℕ} {m : ReaderMessage} (h : carries call m) :
    ∃ r, verdict fromValue (idOf call) m = some (.response r) := by
  cases m with
  | message msg =>
    rw [verdict, if_pos (carries_message.mp h)]
    exact ⟨_, rfl⟩
  | error text => cases h
  | shutdown => cases h

lemma dvd_of_carries {call call' : ℕ} {m : ReaderMessage} (h : carries call m) (h' : carries call' m) :
    (2 ^ 32 : ℤ) ∣ (call : ℤ) - call' := by
  cases m with
  | message msg =>
    have hid : idOf call = idOf call' :=
      Option.some.inj ((carries_message.mp h).symm.trans (carries_message.mp h'))
    rw [idOf, idOf, asI32, asI32] at hid
    have hbmod := Int.bmod_eq_bmod_iff_bmod_sub_eq_zero.mp hid
    have hdvd := Int.dvd_iff_bmod_eq_zero.mpr hbmod
    rwa [add_sub_add_right_eq_sub, Nat.cast_pow] at hdvd
  | error text => cases h
  | shutdown => cases h

lemma Valid.exists_call {s : Session α} (h : Valid fromValue s) {k : ℕ} {w : Wait α} (hw : s.waits[k]? = some w) :
    ∃ call, s.requests[k]? = some call := by
  have hk := (List.getElem?_eq_some_iff.mp hw).1
  have hcount := h.count
  exact ⟨_, List.getElem?_eq_getElem (by omega)⟩

lemma Valid.start_le {s : Session α} (h : Valid fromValue s) (w : Wait α)
    (hw : w ∈ s.waits) : w.start ≤ w.stop := by
  obtain ⟨k, hk⟩ := List.getElem?_of_mem hw
  obtain ⟨call, hcall⟩ := h.exists_call hk
  exact (h.looked k w call hk hcall).le

lemma Valid.ordered {s : Session α} (h : Valid fromValue s) (i j : ℕ) {w w' : Wait α} (hlt : i < j)
    (hw : s.waits[i]? = some w) (hw' : s.waits[j]? = some w') : w.stop ≤ w'.start := by
  obtain ⟨start, htiles, -⟩ := h.tiles
  exact (htiles.ordered h.start_le).2 i j w w' hlt hw hw'

lemma Valid.stop_le_waiting {s : Session α} (h : Valid fromValue s) {k start : ℕ} {w : Wait α}
    (hw : s.waits[k]? = some w) (hwaiting : s.waiting = some start) : w.stop ≤ start :=
  ((h.waiting start hwaiting).tiles.ordered h.start_le).1 w (List.mem_of_getElem? hw)

lemma Valid.ownAnswers {s : Session α} (h : Valid fromValue s) : OwnAnswers s := by
  intro k w call r hw hcall hr
  have hlooked := h.looked k w call hw hcall
  obtain ⟨hlt, hlast⟩ : w.start < w.stop ∧
      verdictAt fromValue s.emitted call (w.stop - 1) = some (.response r) := by
    rcases hlooked.ended with ⟨hlt, hlast⟩ | ⟨htimeout | hdead, -⟩
    · exact ⟨hlt, hr ▸ hlast⟩
    · cases hr.symm.trans htimeout
    · cases hr.symm.trans hdead
  rw [verdictAt, Option.bind_eq_some_iff] at hlast
  obtain ⟨e, he, hverdict⟩ := hlast
  obtain ⟨hcarries, hid⟩ := verdict_response hverdict
  refine ⟨hid, e, he, hcarries, fun k' hk' => ?_⟩
  obtain ⟨call', hcall', hcarries', hpast, hnow⟩ := h.answers _ e k' he hk'
  refine ⟨?_, call', hcall', dvd_of_carries hcarries hcarries'⟩
  -- a later request was written behind the message
  by_contra hlater
  have hk : k' < s.requests.length := (List.getElem?_eq_some_iff.mp hcall').1
  have hcount := h.count
  rcases Nat.lt_or_ge k' s.waits.length with hend | hon
  · have hw' : s.waits[k']? = some s.waits[k'] := List.getElem?_eq_getElem hend
    have hordered := h.ordered k k' (by omega) hw hw'
    have hstart := hpast _ hw'
    omega
  · obtain ⟨start', hstart'⟩ : ∃ start', s.waiting = some start' := by
      rw [← Option.isSome_iff_exists]
      by_contra hidle
      rw [Option.not_isSome_iff_eq_none] at hidle
      rw [hidle, Option.toList_none, List.length_nil] at hcount
      omega
    have hbehind := hnow (by rw [hstart', Option.toList_some, List.length_singleton] at hcount; omega) start'
      hstart'
    have hstop := h.stop_le_waiting hw hstart'
    omega

lemma Valid.answersKept {s : Session α} (h : Valid fromValue s) : AnswersKept s := by
  intro p e k he hk hp
  obtain ⟨call, hcall, hcarries, hpast, hnow⟩ := h.answers p e k he hk
  obtain ⟨r, hr⟩ := @verdict_of_carries α fromValue _ _ hcarries
  have hverdict : verdictAt fromValue s.emitted call p = some (.response r) := by
    rw [verdictAt, he]
    exact hr
  cases hw : s.waits[k]? with
  | none =>
    have hk' := (List.getElem?_eq_some_iff.mp hcall).1
    have hlast := List.getElem?_eq_none_iff.mp hw
    have hcount := h.count
    cases hwaiting : s.waiting with
    | none =>
      rw [hwaiting, Option.toList_none, List.length_nil] at hcount
      omega
    | some start =>
      rw [hwaiting, Option.toList_some, List.length_singleton] at hcount
      have hgetLast : s.requests.getLast? = some call := by
        rw [List.getLast?_eq_getElem?, hcount, Nat.add_sub_cancel]
        exact (by omega : k = s.waits.length) ▸ hcall
      have hpassed := (h.waiting start hwaiting).passed call hgetLast p (hnow (by omega) start hwaiting) hp
      cases hverdict.symm.trans hpassed
  | some w =>
    refine ⟨w, rfl, ?_⟩
    have hlooked := h.looked k w call hw hcall
    have hstart := hpast w hw
    rcases Nat.lt_or_ge p w.stop with hstop | hstop
    · rcases hlooked.ended with ⟨hlt, hlast⟩ | ⟨-, hnone⟩
      · by_cases hend : p + 1 = w.stop
        · refine .inr ⟨hend.symm, r, ?_⟩
          rw [← hend, Nat.add_sub_cancel, hverdict] at hlast
          exact (Option.some.inj hlast).symm
        · have hpassed := hlooked.passed p hstart (by omega)
          cases hverdict.symm.trans hpassed
      · cases hverdict.symm.trans (hnone p hstart hstop)
    · exact .inl hstop

variable (fromSlice) (fromValue)

theorem session_correlates (events : List Event) :
    OwnAnswers (after fromSlice fromValue events : Session α) ∧
    AnswersKept (after fromSlice fromValue events : Session α) :=
  have h := valid_after fromSlice fromValue events
  ⟨h.ownAnswers, h.answersKept⟩

end Runs

end Session

end RepoGraph.LspSubprocess
