import Mathlib.Data.List.Perm.Basic
import RepoGraph.Indexer.Types
import RepoGraph.Lib.Runs
import RepoGraph.Lib.Search

/-! The socket of the daemon: one thread accepts the clients, each of them is served by a thread of its own, and
no more threads run than there are permits. -/

namespace RepoGraph.DaemonTransport

open Lib Indexer

section Envelope

structure Request where
  id : String
  method : String
  params : Json

inductive ErrorCode
  | parseError
  | invalidRequest
  | busy
  deriving DecidableEq, Repr

def ErrorCode.asStr : ErrorCode → String
  | .parseError => "ParseError"
  | .invalidRequest => "InvalidRequest"
  | .busy => "Busy"

structure ErrorDetail where
  code : String
  message : String
  data : Option Json

def ErrorDetail.new (code : ErrorCode) (message : String) : ErrorDetail := ⟨code.asStr, message, none⟩

structure ProgressDetail where
  phase : String
  current : ℕ
  total : ℕ
  deriving DecidableEq, Repr

inductive Response
  | success (id : String) (result : Json)
  | error (id : String) (detail : ErrorDetail)
  | progress (id : String) (detail : ProgressDetail)

def forUnparseable (detail : ErrorDetail) : Response := .error "unknown" detail

def busyResponse : Response :=
  forUnparseable (.new .busy "daemon at concurrent-connection capacity (RMAP_DAEMON_MAX_CONNS); retry shortly")

inductive DispatchResult
  | success (id : String) (result : Json)
  | error (id : String) (detail : ErrorDetail)

structure Dispatched where
  progress : List ProgressDetail
  result : DispatchResult

def DispatchResult.response : DispatchResult → Response
  | .success id result => .success id result
  | .error id detail => .error id detail

/-- The lines that a request line is answered with, the final one last; a request that cannot be read is not
dispatched. -/
def parseAndDispatch (parse : String → Except String Request) (line : String) (d : Dispatched) : List Response :=
  match parse line with
  | .error e => [forUnparseable (.new .parseError e)]
  | .ok request =>
    if request.id = "" then [forUnparseable (.new .invalidRequest "missing or empty 'id' field")]
    else if request.method = "" then [.error request.id (.new .invalidRequest "missing or empty 'method' field")]
    else d.progress.map (.progress request.id) ++ [d.result.response]

def answerLine (parse : String → Except String Request) (line : String) (d : Dispatched) : List Response :=
  if Text.trim line = "" then [] else parseAndDispatch parse line d

end Envelope

structure Handler where
  conn : ℕ
  log : List (String × Dispatched)
  written : List Response

inductive AcceptLoop
  | polling
  | accepted (conn : ℕ)
  | trying (conn current : ℕ)
  | acquired (conn : ℕ)
  | returned (fatal : Bool)
  deriving DecidableEq, Repr

/-- The clients are numbered in the order in which they come. -/
structure Daemon where
  available : ℕ
  shutdown : Bool
  loop : AcceptLoop
  connected : ℕ
  backlog : List ℕ
  handlers : List Handler
  ended : List Handler
  refused : List ℕ

/-- A write can fail behind some of the lines of an answer. -/
inductive Event
  | connect
  | signal
  | accept (spurious fatal : Bool)
  | line (i : ℕ) (text : String) (d : Dispatched) (broken : Option ℕ)
  | hangUp (i : ℕ)

namespace Daemon

def start (maxConns : ℕ) : Daemon := ⟨maxConns, false, .polling, 0, [], [], [], []⟩

/-- The accept loop and `try_acquire`, one access to what is shared at a time. -/
def acceptStep (d : Daemon) (spurious fatal : Bool) : Daemon :=
  match d.loop with
  | .polling =>
    if d.shutdown then { d with loop := .returned false }
    else if fatal then { d with loop := .returned true }
    else
      match d.backlog with
      | [] => d
      | conn :: backlog => { d with loop := .accepted conn, backlog := backlog }
  | .accepted conn => { d with loop := .trying conn d.available }
  | .trying conn 0 => { d with loop := .polling, refused := d.refused ++ [conn] }
  | .trying conn (n + 1) =>
    if d.available = n + 1 ∧ ¬ spurious then { d with loop := .acquired conn, available := n }
    else { d with loop := .trying conn d.available }
  | .acquired conn => { d with loop := .polling, handlers := d.handlers ++ [⟨conn, [], []⟩] }
  | .returned _ => d

def finish (d : Daemon) (i : ℕ) (h : Handler) : Daemon :=
  { d with handlers := d.handlers.eraseIdx i, ended := d.ended ++ [h], available := d.available + 1 }

def handleLine (parse : String → Except String Request) (d : Daemon) (i : ℕ) (h : Handler) (text : String)
    (dispatched : Dispatched) (broken : Option ℕ) : Daemon :=
  let answer := answerLine parse text dispatched
  let log := h.log ++ [(text, dispatched)]
  match broken with
  | none => { d with handlers := d.handlers.set i { h with log := log, written := h.written ++ answer } }
  | some n => d.finish i { h with log := log, written := h.written ++ answer.take n }

def step (parse : String → Except String Request) (d : Daemon) : Event → Daemon
  | .connect => { d with connected := d.connected + 1, backlog := d.backlog ++ [d.connected] }
  | .signal => { d with shutdown := true }
  | .accept spurious fatal => d.acceptStep spurious fatal
  | .line i text dispatched broken =>
    match d.handlers[i]? with
    | some h => d.handleLine parse i h text dispatched broken
    | none => d
  | .hangUp i =>
    match d.handlers[i]? with
    | some h => d.finish i h
    | none => d

end Daemon

def AcceptLoop.permits : AcceptLoop → ℕ
  | .acquired _ => 1
  | _ => 0

def AcceptLoop.client : AcceptLoop → Option ℕ
  | .accepted conn => some conn
  | .trying conn _ => some conn
  | .acquired conn => some conn
  | _ => none

namespace Daemon

def answers (parse : String → Except String Request) (log : List (String × Dispatched)) : List Response :=
  log.flatMap fun entry => answerLine parse entry.1 entry.2

/-- Every client that came is in one place: it waits, the accept loop has it, a thread serves it or did, or it
was refused. -/
def clients (d : Daemon) : List ℕ :=
  d.refused ++ (d.ended.map Handler.conn ++ (d.handlers.map Handler.conn ++ d.loop.client.toList))

structure Accounted (parse : String → Except String Request) (maxConns : ℕ) (d : Daemon) : Prop where
  permits : d.available + d.handlers.length + d.loop.permits = maxConns
  clients : ∃ n ≤ d.connected, d.clients.Perm (List.range n) ∧ d.backlog = List.range' n (d.connected - n)
  live : ∀ h ∈ d.handlers, h.written = answers parse h.log
  ended : ∀ h ∈ d.ended, h.written <+: answers parse h.log

variable {parse : String → Except String Request} {maxConns : ℕ} {d : Daemon}

lemma Accounted.start : Accounted parse maxConns (start maxConns) := by
  refine ⟨rfl, ⟨0, le_rfl, .refl _, rfl⟩, ?_, ?_⟩
  · exact fun h hh => absurd hh List.not_mem_nil
  · exact fun h hh => absurd hh List.not_mem_nil

lemma clients_idle (hloop : d.loop.client = none) :
    d.clients = d.refused ++ (d.ended.map Handler.conn ++ d.handlers.map Handler.conn) := by
  rw [Daemon.clients, hloop, Option.toList_none, List.append_nil]

lemma clients_busy {conn : ℕ} (hloop : d.loop.client = some conn) :
    d.clients = d.refused ++ (d.ended.map Handler.conn ++ d.handlers.map Handler.conn) ++ [conn] := by
  rw [Daemon.clients, hloop, Option.toList_some]
  simp only [List.append_assoc]

lemma Accounted.of_loop (hd : Accounted parse maxConns d) {available : ℕ} {loop : AcceptLoop}
    (hpermits : available + loop.permits = d.available + d.loop.permits) (hclient : loop.client = d.loop.client) :
    Accounted parse maxConns { d with loop := loop, available := available } := by
  obtain ⟨hd₁, ⟨n, hn, hclients, hbacklog⟩, hlive, hended⟩ := hd
  refine ⟨?_, ⟨n, hn, ?_, hbacklog⟩, hlive, hended⟩
  · change available + d.handlers.length + loop.permits = maxConns
    omega
  · rw [Daemon.clients] at hclients ⊢
    rwa [hclient]

lemma Accounted.accepted (hd : Accounted parse maxConns d) (hloop : d.loop = .polling)
    {conn : ℕ} {backlog : List ℕ}
    (hnext : d.backlog = conn :: backlog) :
      Accounted parse maxConns { d with loop := .accepted conn, backlog := backlog } := by
  obtain ⟨hpermits, ⟨n, hn, hclients, hbacklog⟩, hlive, hended⟩ := hd
  obtain ⟨rest, hrest⟩ : ∃ rest, d.connected - n = rest + 1 := by
    refine Nat.exists_eq_succ_of_ne_zero fun hnone => ?_
    rw [hnone, hnext] at hbacklog
    cases hbacklog
  rw [hnext, hrest, List.range'_succ] at hbacklog
  obtain ⟨rfl, hbehind⟩ := List.cons.inj hbacklog
  have hlt : conn < d.connected := by omega
  refine ⟨?_, ⟨conn + 1, hlt, ?_, ?_⟩, hlive, hended⟩
  · rwa [hloop] at hpermits
  · rw [clients_idle (by rw [hloop]; rfl)] at hclients
    rw [clients_busy rfl, List.range_succ]
    exact hclients.append_right [conn]
  · have hleft : rest = d.connected - (conn + 1) := by omega
    rw [hbehind, hleft]

lemma Accounted.refuse (hd : Accounted parse maxConns d) {conn current : ℕ}
    (hloop : d.loop = .trying conn current) :
    Accounted parse maxConns { d with loop := .polling, refused := d.refused ++ [conn] } := by
  obtain ⟨hpermits, ⟨n, hn, hclients, hbacklog⟩, hlive, hended⟩ := hd
  refine ⟨?_, ⟨n, hn, ?_, hbacklog⟩, hlive, hended⟩
  · rwa [hloop] at hpermits
  · rw [clients_busy (by rw [hloop]; rfl)] at hclients
    rw [clients_idle rfl]
    refine List.Perm.trans ?_ hclients
    rw [List.append_assoc, List.append_assoc]
    exact List.perm_append_comm.append_left d.refused

lemma Accounted.spawn (hd : Accounted parse maxConns d) {conn : ℕ} (hloop : d.loop = .acquired conn) :
    Accounted parse maxConns { d with loop := .polling, handlers := d.handlers ++ [⟨conn, [], []⟩] } := by
  obtain ⟨hpermits, ⟨n, hn, hclients, hbacklog⟩, hlive, hended⟩ := hd
  rw [hloop] at hpermits
  refine ⟨?_, ⟨n, hn, ?_, hbacklog⟩, ?_, hended⟩
  · change d.available + (d.handlers ++ [(⟨conn, [], []⟩ : Handler)]).length + 0 = maxConns
    change d.available + d.handlers.length + 1 = maxConns at hpermits
    rw [List.length_append, List.length_singleton]
    omega
  · rw [clients_busy (by rw [hloop]; rfl)] at hclients
    rw [clients_idle rfl, List.map_append, List.map_singleton]
    simpa only [List.append_assoc] using hclients
  · intro h hh
    rcases List.mem_append.mp hh with hh | hh
    · exact hlive h hh
    · obtain rfl := List.mem_singleton.mp hh
      rfl

lemma Accounted.acceptStep (hd : Accounted parse maxConns d) (spurious fatal : Bool) :
    Accounted parse maxConns (d.acceptStep spurious fatal) := by
  rw [Daemon.acceptStep]
  split
  · rename_i hloop
    split_ifs
    · exact hd.of_loop (by rw [hloop]; rfl) (by rw [hloop]; rfl)
    · exact hd.of_loop (by rw [hloop]; rfl) (by rw [hloop]; rfl)
    · split
      · exact hd
      · rename_i hnext
        exact hd.accepted hloop hnext
  · rename_i hloop
    exact hd.of_loop (by rw [hloop]; rfl) (by rw [hloop]; rfl)
  · rename_i hloop
    exact hd.refuse hloop
  · rename_i hloop
    split_ifs with hswap
    · exact hd.of_loop (by rw [hloop, hswap.1]; rfl) (by rw [hloop]; rfl)
    · exact hd.of_loop (by rw [hloop]; rfl) (by rw [hloop]; rfl)
  · rename_i hloop
    exact hd.spawn hloop
  · exact hd

lemma Accounted.finish (hd : Accounted parse maxConns d) {i : ℕ} {h h' : Handler} (hi : d.handlers[i]? = some h)
    (hconn : h'.conn = h.conn) (hwritten : h'.written <+: answers parse h'.log) :
    Accounted parse maxConns (d.finish i h') := by
  obtain ⟨hpermits, ⟨n, hn, hclients, hbacklog⟩, hlive, hended⟩ := hd
  obtain ⟨hlt, hget⟩ := List.getElem?_eq_some_iff.mp hi
  refine ⟨?_, ⟨n, hn, ?_, hbacklog⟩, fun g hg => hlive g (List.mem_of_mem_eraseIdx hg), ?_⟩
  · have hlength := List.length_eraseIdx_of_lt hlt
    change d.available + 1 + (d.handlers.eraseIdx i).length + d.loop.permits = maxConns
    omega
  · refine List.Perm.trans ?_ hclients
    have hmoved : ((d.ended ++ [h']).map Handler.conn ++ (d.handlers.eraseIdx i).map Handler.conn).Perm
        (d.ended.map Handler.conn ++ d.handlers.map Handler.conn) := by
      have herase : (h.conn :: (d.handlers.eraseIdx i).map Handler.conn).Perm (d.handlers.map Handler.conn) := by
        have hperm := (List.getElem_cons_eraseIdx_perm hlt).map Handler.conn
        rwa [hget] at hperm
      rw [List.map_append, List.map_singleton, hconn, List.append_assoc]
      exact herase.append_left _
    have hrest := (hmoved.append_right d.loop.client.toList).append_left d.refused
    rwa [List.append_assoc, List.append_assoc] at hrest
  · intro g hg
    rcases List.mem_append.mp hg with hg | hg
    · exact hended g hg
    · exact (List.mem_singleton.mp hg) ▸ hwritten

lemma Accounted.handleLine (hd : Accounted parse maxConns d) {i : ℕ} {h : Handler} (hi : d.handlers[i]? = some h)
    (text : String) (dispatched : Dispatched) (broken : Option ℕ) :
    Accounted parse maxConns (d.handleLine parse i h text dispatched broken) := by
  have hwritten := hd.live h (List.mem_of_getElem? hi)
  have hlog : answers parse (h.log ++ [(text, dispatched)]) = h.written ++ answerLine parse text dispatched := by
    rw [answers, List.flatMap_append, ← answers, ← hwritten, List.flatMap_singleton]
  cases broken with
  | none =>
    obtain ⟨hpermits, ⟨n, hn, hclients, hbacklog⟩, hlive, hended⟩ := hd
    obtain ⟨hlt, hget⟩ := List.getElem?_eq_some_iff.mp hi
    refine ⟨?_, ⟨n, hn, ?_, hbacklog⟩, ?_, hended⟩
    · rwa [Daemon.handleLine, List.length_set]
    · have hconns : (d.handlers.set i ⟨h.conn, h.log ++ [(text, dispatched)],
          h.written ++ answerLine parse text dispatched⟩).map Handler.conn = d.handlers.map Handler.conn := by
        rw [List.map_set, ← hget, ← List.getElem_map Handler.conn, List.set_getElem_self]
        simpa using hlt
      rw [Daemon.clients] at hclients ⊢
      rwa [Daemon.handleLine, hconns]
    · intro g hg
      rcases List.mem_or_eq_of_mem_set hg with hg | rfl
      · exact hlive g hg
      · exact hlog.symm
  | some n =>
    refine hd.finish hi rfl ?_
    rw [hlog]
    exact (List.prefix_append_right_inj _).mpr (List.take_prefix _ _)

lemma Accounted.step (hd : Accounted parse maxConns d)
    (event : Event) : Accounted parse maxConns (d.step parse event) := by
  cases event with
  | connect =>
    obtain ⟨hpermits, ⟨n, hn, hclients, hbacklog⟩, hlive, hended⟩ := hd
    refine ⟨hpermits, ⟨n, hn.trans (Nat.le_succ _), hclients, ?_⟩, hlive, hended⟩
    change d.backlog ++ [d.connected] = List.range' n (d.connected + 1 - n)
    rw [hbacklog, Nat.succ_sub hn, List.range'_concat, Nat.one_mul, Nat.add_sub_cancel' hn]
  | signal => exact ⟨hd.permits, hd.clients, hd.live, hd.ended⟩
  | accept spurious fatal => exact hd.acceptStep spurious fatal
  | line i text dispatched broken =>
    rw [Daemon.step]
    split
    · rename_i h hi
      exact hd.handleLine hi text dispatched broken
    · exact hd
  | hangUp i =>
    rw [Daemon.step]
    split
    · rename_i h hi
      exact hd.finish hi rfl ((hd.live h (List.mem_of_getElem? hi)).symm ▸ List.prefix_rfl)
    · exact hd

section Runs

variable (parse : String → Except String Request) (maxConns : ℕ)

def after (events : List Event) : Daemon := run (step parse) (start maxConns) events

/-- In every run the permits are shared out, and every client is served by one thread, was refused, or is still
to be. -/
theorem connections_accounted (events : List Event) : Accounted parse maxConns (after parse maxConns events) :=
  run_invariant (fun _ d => Accounted parse maxConns d) .start (fun _ _ event hd => hd.step event) events

/-- At some time the accept loop was busy with the client while each permit was with the thread of another one. -/
def FoundFull (events : List Event) (conn : ℕ) : Prop :=
  ∃ pre, pre <+: events ∧ (after parse maxConns pre).loop.client = some conn ∧
    (after parse maxConns pre).handlers.length = maxConns

variable {parse maxConns}

lemma FoundFull.snoc {events : List Event} {conn : ℕ} (h : FoundFull parse maxConns events conn) (event : Event) :
    FoundFull parse maxConns (events ++ [event]) conn := by
  obtain ⟨pre, hpre, hfull⟩ := h
  exact ⟨pre, hpre.trans (List.prefix_append _ _), hfull⟩

structure Refuses (parse : String → Except String Request) (maxConns : ℕ) (events : List Event)
    (d : Daemon) : Prop where
  run : d = after parse maxConns events
  accounted : Accounted parse maxConns d
  refused : ∀ conn ∈ d.refused, FoundFull parse maxConns events conn
  seen : ∀ conn, d.loop = .trying conn 0 → FoundFull parse maxConns events conn

lemma Refuses.quiet {events : List Event} (hd : Refuses parse maxConns events d) (event : Event)
    (hrefused : (d.step parse event).refused = d.refused) (hloop : (d.step parse event).loop = d.loop) :
    Refuses parse maxConns (events ++ [event]) (d.step parse event) := by
  refine ⟨by rw [after, run_snoc, ← after, ← hd.run], hd.accounted.step _, ?_, ?_⟩
  · intro conn hconn
    exact (hd.refused conn (hrefused ▸ hconn)).snoc event
  · intro conn hconn
    exact (hd.seen conn (hloop ▸ hconn)).snoc event

lemma Refuses.full {events : List Event} (hd : Refuses parse maxConns events d) {conn : ℕ}
    (hclient : d.loop.client = some conn)
    (hholds : d.loop.permits = 0) (hnone : d.available = 0) : FoundFull parse maxConns events conn := by
  have hpermits := hd.accounted.permits
  rw [hnone, hholds] at hpermits
  exact ⟨events, List.prefix_rfl, hd.run ▸ hclient, hd.run ▸ (by omega)⟩

lemma acceptStep_refused {spurious fatal : Bool} {conn : ℕ} (h : conn ∈ (d.acceptStep spurious fatal).refused) :
    conn ∈ d.refused ∨ d.loop = .trying conn 0 := by
  rw [Daemon.acceptStep] at h
  split at h
  · split_ifs at h
    · exact .inl h
    · exact .inl h
    · split at h
      · exact .inl h
      · exact .inl h
  · exact .inl h
  · rename_i hloop
    rcases List.mem_append.mp h with h | h
    · exact .inl h
    · obtain rfl := List.mem_singleton.mp h
      exact .inr hloop
  · split_ifs at h
    · exact .inl h
    · exact .inl h
  · exact .inl h
  · exact .inl h

lemma acceptStep_seen {spurious fatal : Bool} {conn : ℕ}
    (h : (d.acceptStep spurious fatal).loop = .trying conn 0) :
    d.loop.client = some conn ∧ d.loop.permits = 0 ∧ d.available = 0 := by
  rw [Daemon.acceptStep] at h
  split at h
  · rename_i hloop
    split_ifs at h
    split at h
    · cases hloop.symm.trans h
    · cases h
  · rename_i hloop
    obtain ⟨rfl, hnone⟩ := AcceptLoop.trying.inj h
    exact ⟨by rw [hloop]; rfl, by rw [hloop]; rfl, hnone⟩
  · cases h
  · rename_i hloop
    split_ifs at h
    obtain ⟨rfl, hnone⟩ := AcceptLoop.trying.inj h
    exact ⟨by rw [hloop]; rfl, by rw [hloop]; rfl, hnone⟩
  · cases h
  · rename_i hloop
    cases hloop.symm.trans h

lemma Refuses.accept {events : List Event} (hd : Refuses parse maxConns events d) (spurious fatal : Bool) :
    Refuses parse maxConns (events ++ [.accept spurious fatal]) (d.step parse (.accept spurious fatal)) := by
  refine ⟨by rw [after, run_snoc, ← after, ← hd.run], hd.accounted.step _, ?_, ?_⟩
  · intro conn hconn
    rcases acceptStep_refused hconn with hconn | hseen
    · exact (hd.refused conn hconn).snoc _
    · exact (hd.seen conn hseen).snoc _
  · intro conn hconn
    obtain ⟨hclient, hholds, hnone⟩ := acceptStep_seen hconn
    exact (hd.full hclient hholds hnone).snoc _

lemma Refuses.step {events : List Event} (hd : Refuses parse maxConns events d) (event : Event) :
    Refuses parse maxConns (events ++ [event]) (d.step parse event) := by
  cases event with
  | accept spurious fatal => exact hd.accept spurious fatal
  | connect => exact hd.quiet _ rfl rfl
  | signal => exact hd.quiet _ rfl rfl
  | line i text dispatched broken =>
    apply hd.quiet
    · rw [Daemon.step]
      split
      · cases broken <;> rfl
      · rfl
    · rw [Daemon.step]
      split
      · cases broken <;> rfl
      · rfl
  | hangUp i =>
    apply hd.quiet
    · rw [Daemon.step]
      split <;> rfl
    · rw [Daemon.step]
      split <;> rfl

variable (parse maxConns)

def RefusedWhenFull (events : List Event) : Prop :=
  ∀ conn ∈ (after parse maxConns events).refused, FoundFull parse maxConns events conn

theorem refused_when_full (events : List Event) : RefusedWhenFull parse maxConns events := by
  have hnew : Refuses parse maxConns [] (start maxConns) :=
    ⟨rfl, .start, fun _ h => absurd h List.not_mem_nil, nofun⟩
  exact (run_invariant (Refuses parse maxConns) hnew (fun _ _ event hd => hd.step event) events).refused

end Runs

end Daemon

end RepoGraph.DaemonTransport
