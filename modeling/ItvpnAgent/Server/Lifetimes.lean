import ItvpnAgent.Server.Handlers
import Mathlib

/-! How long connections live. In every state of the server the manager holds
exactly the connections with an open socket, and each of them waits for one
operation; a connection replies to its own reads and to nothing else; and after a
signal the handlers that are left run out. -/

namespace ItvpnAgent.Server.ServerState

open Kit RequestParser

variable {site : Site} {server server' : ServerState} {id id' : ℕ} {connection connection' : Connection}

/-! ### Changes of one connection -/

theorem setConnection_get (hget : server.connections[id]? = some connection) :
    (server.setConnection id connection').connections[id']? =
      if id = id' then some connection' else server.connections[id']? := by
  have hlength : id < server.connections.length := (List.getElem?_eq_some_iff.mp hget).1
  simp only [setConnection, List.getElem?_set, hlength, ↓reduceIte]

theorem stopConnection_get :
    (server.stopConnection id).connections[id']? =
      if id = id' then server.connections[id']?.map Connection.stop else server.connections[id']? := by
  simp only [stopConnection, List.getElem?_modify]
  split_ifs <;> simp

theorem stopAll_get : server.stopAll.connections[id']? =
    server.connections[id']?.map fun connection =>
      if id' ∈ server.managed then connection.stop else connection := by
  simp [stopAll, List.getElem?_mapIdx]

theorem startConnection_get (buffer : ReadBuffer) : (server.startConnection buffer).connections[id']? =
    if id' = server.connections.length then some (.start buffer) else server.connections[id']? := by
  show (server.connections ++ [Connection.start buffer])[id']? = _
  rw [List.getElem?_append]
  split_ifs with hold hnew hnew
  · omega
  · rfl
  · simp [hnew]
  · rw [List.getElem?_eq_none (by rw [List.length_singleton]; omega), List.getElem?_eq_none (by omega)]

theorem received_pending {data : Str} (h : connection.received site data = some connection') :
    connection'.socketOpen = connection.socketOpen ∧
      ∃ operation, connection'.pending = some { operation := operation, onOpen := connection.socketOpen } := by
  unfold Connection.received at h
  dsimp only at h
  split at h
  · cases h
  · split at h
    · split at h
      · cases h
        exact ⟨rfl, _, rfl⟩
      · cases h
    · cases h
      exact ⟨rfl, _, rfl⟩
    · cases h
      exact ⟨rfl, _, rfl⟩

/-! ### Managed connections -/

/-- An open socket has an operation that was started on it. -/
def Busy (connection : Connection) : Prop :=
  connection.socketOpen = true → ∃ pending, connection.pending = some pending ∧ pending.onOpen = true

structure Tidy (server : ServerState) : Prop where
  managed : ∀ id : ℕ, id ∈ server.managed ↔
    ∃ connection, server.connections[id]? = some connection ∧ connection.socketOpen = true
  busy : ∀ (id : ℕ) (connection : Connection), server.connections[id]? = some connection → Busy connection
  accepting : server.acceptorOpen = true → server.acceptPending = true ∧ server.signalPending = true
  stopped : server.acceptorOpen = false → server.managed = [] ∧ server.signalPending = false

theorem tidy_opened : Tidy opened where
  managed := by simp [opened]
  busy := by simp [opened]
  accepting _ := ⟨rfl, rfl⟩
  stopped h := by cases h

namespace Tidy

/-- A connection goes on with its socket as it is. -/
theorem setConnection (hserver : Tidy server) (hget : server.connections[id]? = some connection)
    (hopen : connection'.socketOpen = connection.socketOpen) (hbusy : Busy connection') :
    Tidy (server.setConnection id connection') where
  managed other := by
    rw [setConnection_get hget]
    refine (hserver.managed other).trans ?_
    split_ifs with hid
    · subst hid
      simp [hget, hopen]
    · rfl
  busy other found hfound := by
    rw [setConnection_get hget] at hfound
    split_ifs at hfound with hid
    · cases hfound
      exact hbusy
    · exact hserver.busy other found hfound
  accepting := hserver.accepting
  stopped := hserver.stopped

/-- A connection is closed and taken from the manager, whatever it was. -/
theorem stopConnection (hserver : Tidy server) (hget : server.connections[id]? = some connection) :
    Tidy ((server.setConnection id connection').stopConnection id) where
  managed other := by
    rw [stopConnection_get, setConnection_get hget]
    show other ∈ server.managed.filter (· ≠ id) ↔ _
    rw [List.mem_filter, hserver.managed other]
    split_ifs with hid
    · subst hid
      simp [Connection.stop]
    · simp [Ne.symm hid]
  busy other found hfound := by
    rw [stopConnection_get, setConnection_get hget] at hfound
    split_ifs at hfound with hid
    · cases hfound
      intro hopen
      cases hopen
    · exact hserver.busy other found hfound
  accepting := hserver.accepting
  stopped hclosed := by
    obtain ⟨hnone, hsignal⟩ := hserver.stopped hclosed
    refine ⟨?_, hsignal⟩
    show server.managed.filter (· ≠ id) = []
    rw [hnone, List.filter_nil]

theorem failed (hserver : Tidy server) (hget : server.connections[id]? = some connection) {onOpen : Bool}
    {α : Type} {error : ErrorCode} (hend : CanEnd onOpen connection.socketOpen (.error error : Except ErrorCode α)) :
    Tidy (server.failed id connection error) := by
  unfold ServerState.failed
  split
  · next haborted =>
    subst haborted
    refine hserver.setConnection hget rfl fun hopen => ?_
    rw [show connection.socketOpen = false from hend.2] at hopen
    cases hopen
  · exact hserver.stopConnection hget

theorem startConnection (hserver : Tidy server) (hopen : server.acceptorOpen = true) (buffer : ReadBuffer) :
    Tidy (server.startConnection buffer) where
  managed other := by
    rw [startConnection_get]
    show other ∈ server.managed ++ [server.connections.length] ↔ _
    rw [List.mem_append, List.mem_singleton, hserver.managed other]
    split_ifs with hnew
    · simp [hnew, Connection.start, Connection.doRead]
    · simp [hnew]
  busy other found hfound := by
    rw [startConnection_get] at hfound
    split_ifs at hfound with hnew
    · cases hfound
      exact fun _ => ⟨_, rfl, rfl⟩
    · exact hserver.busy other found hfound
  accepting := hserver.accepting
  stopped hclosed := by
    rw [show (server.startConnection buffer).acceptorOpen = server.acceptorOpen from rfl, hopen] at hclosed
    cases hclosed

/-- After a signal all sockets are closed. -/
theorem closed_of_signalled (hserver : Tidy server) (hget : server.signalled.connections[id]? = some connection) :
    connection.socketOpen = false := by
  change (server.stopAll.connections)[id]? = _ at hget
  rw [stopAll_get] at hget
  obtain ⟨before, hbefore, rfl⟩ := Option.map_eq_some_iff.mp hget
  split_ifs with hmanaged
  · rfl
  · rw [Bool.eq_false_iff]
    exact fun hopen => hmanaged ((hserver.managed id).mpr ⟨before, hbefore, hopen⟩)

theorem signalled (hserver : Tidy server) : Tidy server.signalled where
  managed other := by
    show other ∈ [] ↔ _
    simp only [List.not_mem_nil, false_iff, not_exists, not_and]
    intro found hfound hopen
    rw [hserver.closed_of_signalled hfound] at hopen
    cases hopen
  busy other found hfound hopen := by
    rw [hserver.closed_of_signalled hfound] at hopen
    cases hopen
  accepting hopen := by cases hopen
  stopped _ := ⟨rfl, rfl⟩

theorem step (hserver : Tidy server) {a : Label} (h : (machine site).step server a = some server') :
    Tidy server' := by
  cases (steps_of_step h).2 with
  | @accepted result hpending hend =>
    unfold ServerState.accepted
    split
    · next hopen =>
      cases result with
      | ok buffer => exact hserver.startConnection hopen buffer
      | error error => exact hserver
    · next hopen =>
      exact ⟨hserver.managed, hserver.busy, fun h => absurd h hopen, hserver.stopped⟩
  | signalled hpending => exact hserver.signalled
  | @readDone id connection pending result hget hpending hread hend =>
    cases result with
    | error error => exact hserver.failed hget hend
    | ok data =>
      unfold ServerState.readDone
      dsimp only
      split
      · next connection' hreceived =>
        obtain ⟨hopen, operation, hpending'⟩ := received_pending hreceived
        exact hserver.setConnection hget hopen fun h => ⟨_, hpending', hopen ▸ h⟩
      · exact ⟨hserver.managed, hserver.busy, hserver.accepting, hserver.stopped⟩
  | @writeDone id connection pending result hget hpending hwrite hend =>
    cases result with
    | error error => exact hserver.failed hget hend
    | ok _ => exact hserver.stopConnection hget

end Tidy

/-- In every reachable state the manager holds exactly the connections with an open
socket, each of them waits for an operation, and the server accepts others until a
signal. -/
theorem tidy_of_run {labels : List Label} (h : (machine site).run opened labels = some server) : Tidy server :=
  (machine site).run_invariant (C := fun _ _ => True) (fun _ _ _ hserver _ hstep => hserver.step hstep) tidy_opened
    ((machine site).along_of_forall fun _ _ => trivial) h

/-- A server without files. -/
def emptySite : Site where
  docRoot := []
  files _ := none

/-- The reads of two connections, one between those of the other: the second is
refused and ends first. -/
def crossed : List Label :=
  [.accepted (.ok (.filled '\x00')), .accepted (.ok (.filled '\x00')), .readDone 0 (.ok "GET /".toList),
    .readDone 1 (.ok ":".toList), .readDone 0 (.ok " HTTP/1.0\r\n\r\n".toList), .writeDone 1 (.ok ())]

theorem run_crossed : ((machine emptySite).run opened crossed).map
    (fun server => (server.undefined, server.managed, server.connections.map Connection.reply)) =
      some (false, [0], [some (.stockReply .notFound), some (.stockReply .badRequest)]) := by
  decide +kernel

theorem tidy_of_run_crossed : ∃ server, (machine emptySite).run opened crossed = some server ∧
    server.managed = [0] ∧ Tidy server := by
  obtain ⟨server, hrun, hserver⟩ := Option.map_eq_some_iff.mp run_crossed
  simp only [Prod.mk.injEq] at hserver
  exact ⟨server, hrun, hserver.2.1, tidy_of_run hrun⟩

/-! ### Own reads -/

/-- What a connection has received. -/
def reads (id : ℕ) (labels : List Label) : List Str :=
  labels.filterMap fun
    | .readDone other (.ok data) => if other = id then some data else none
    | _ => none

theorem reads_concat (id : ℕ) (labels : List Label) (a : Label) :
    reads id (labels ++ [a]) = reads id labels ++ reads id [a] := by
  simp [reads]

/-- The replies and the state of the parser are those of the connection's own reads. -/
structure Follows (site : Site) (received : List Str) (connection : Connection) : Prop where
  waits : ∀ pending, connection.pending = some pending →
    (pending.operation = .asyncRead ↔ connection.reply = none)
  answers : ∃ buffer : ReadBuffer,
    (connection.reply = none → ∀ more, doRead buffer .methodStart freshRequest (received ++ more) =
      doRead connection.buffer connection.state connection.request more) ∧
    ∀ reply, connection.reply = some reply → respond site buffer received = .ok (some reply)

theorem follows_start (buffer : ReadBuffer) : Follows site [] (.start buffer) where
  waits pending hpending := by
    cases hpending
    simp [Connection.start, Connection.doRead]
  answers := ⟨buffer, fun _ _ => rfl, fun reply hreply => by cases hreply⟩

theorem handleGood_cases (request : Request) (text : Str) :
    (∃ request', handleGood request text = .ok (.handled request')) ∨ handleGood request text = .undefined := by
  unfold handleGood parseParemeters
  dsimp only
  split_ifs
  · exact .inl ⟨_, rfl⟩
  · cases readPairs ((text.take (contentLength request).toNat).splitOn '&') with
    | none => exact .inr rfl
    | some pairs => exact .inl ⟨_, rfl⟩
  · exact .inr rfl
  · exact .inl ⟨_, rfl⟩
  · exact .inl ⟨_, rfl⟩

/-- A read ends in nothing defined, in another read, or in a reply. -/
theorem received_cases (hreply : connection.reply = none) (data : Str) :
    (connection.received site data = none ∧
      ∀ more, doRead connection.buffer connection.state connection.request (data :: more) = .undefined) ∨
    (∃ connection', connection.received site data = some connection' ∧ connection'.reply = none ∧
      connection'.pending = some { operation := .asyncRead, onOpen := connection.socketOpen } ∧
      ∀ more, doRead connection.buffer connection.state connection.request (data :: more) =
        doRead connection'.buffer connection'.state connection'.request more) ∨
    ∃ connection' answer, connection.received site data = some connection' ∧
      connection'.reply = replyTo site answer ∧ connection'.reply ≠ none ∧
      connection'.pending = some { operation := .asyncWrite, onOpen := connection.socketOpen } ∧
      ∀ more, doRead connection.buffer connection.state connection.request (data :: more) = .ok answer := by
  obtain ⟨result, state, request, rest, hparse⟩ : ∃ result state request rest,
      parse connection.state connection.request data = (result, state, request, rest) := ⟨_, _, _, _, rfl⟩
  cases hstring : (connection.buffer.receive data).cString (data.length - rest.length) with
  | none =>
    refine .inl ⟨?_, fun more => ?_⟩
    · rw [Connection.received, hparse]
      dsimp only
      rw [hstring]
    · rw [doRead, hparse]
      dsimp only
      rw [hstring]
  | some postParameters =>
    cases result with
    | indeterminate =>
      refine .inr (.inl ⟨{ connection with
        buffer := connection.buffer.receive data, state := state, request := request }.doRead, ?_, hreply, rfl,
          fun more => ?_⟩)
      · rw [Connection.received, hparse]
        dsimp only
        rw [hstring]
      · rw [doRead, hparse]
        dsimp only
        rw [hstring]
        rfl
    | bad =>
      refine .inr (.inr ⟨{ connection with
        buffer := connection.buffer.receive data, state := state, request := request,
        reply := some (.stockReply .badRequest) }.doWrite, .badRequest, ?_, rfl, Option.some_ne_none _, rfl, fun more => ?_⟩)
      · rw [Connection.received, hparse]
        dsimp only
        rw [hstring]
      · rw [doRead, hparse]
        dsimp only
        rw [hstring]
    | good =>
      rcases handleGood_cases request postParameters with ⟨request', hgood⟩ | hgood
      · refine .inr (.inr ⟨{ connection with
          buffer := connection.buffer.receive data, state := state, request := request',
          reply := some (handleRequest site request' freshReply) }.doWrite, .handled request', ?_, rfl, Option.some_ne_none _, rfl,
            fun more => ?_⟩)
        · rw [Connection.received, hparse]
          dsimp only
          rw [hstring]
          dsimp only
          rw [hgood]
        · rw [doRead, hparse]
          dsimp only
          rw [hstring]
          exact hgood
      · refine .inl ⟨?_, fun more => ?_⟩
        · rw [Connection.received, hparse]
          dsimp only
          rw [hstring]
          dsimp only
          rw [hgood]
        · rw [doRead, hparse]
          dsimp only
          rw [hstring]
          exact hgood

/-- One more read. -/
theorem Follows.received {received : List Str} (hfollows : Follows site received connection)
    (hreply : connection.reply = none) (data : Str) :
    (∀ connection', connection.received site data = some connection' →
      Follows site (received ++ [data]) connection') ∧
    (connection.received site data = none →
      ∃ buffer, respond site buffer (received ++ [data]) = .undefined) := by
  obtain ⟨buffer, hreads, -⟩ := hfollows.answers
  have hread (more : List Str) : doRead buffer .methodStart freshRequest (received ++ [data] ++ more) =
      doRead connection.buffer connection.state connection.request (data :: more) := by
    rw [List.append_assoc]
    exact hreads hreply (data :: more)
  have hone := hread []
  rw [List.append_nil] at hone
  rcases received_cases hreply data with ⟨hnone, hundefined⟩ |
    ⟨next, hnext, hreply', hpending, hgoes⟩ | ⟨next, answer, hnext, hreply', hne, hpending, hgoes⟩
  · rw [hnone]
    refine ⟨fun _ hsome => (by cases hsome), fun _ => ⟨buffer, ?_⟩⟩
    rw [respond, hone, hundefined]
  · rw [hnext]
    refine ⟨?_, fun hnone => by cases hnone⟩
    intro _ hsame
    cases hsame
    refine ⟨fun pending hsome => ?_, buffer, fun _ more => (hread more).trans (hgoes more), ?_⟩
    · rw [hpending] at hsome
      cases hsome
      simp [hreply']
    · intro reply hsome
      rw [hreply'] at hsome
      cases hsome
  · rw [hnext]
    refine ⟨?_, fun hnone => by cases hnone⟩
    intro _ hsame
    cases hsame
    refine ⟨fun pending hsome => ?_, buffer, fun hnone => absurd hnone hne, fun reply hsome => ?_⟩
    · rw [hpending] at hsome
      cases hsome
      simp [hne]
    · rw [respond, hone, hgoes]
      dsimp only
      rw [← hreply', hsome]

/-- What the manager and the end of an operation change of a connection. -/
structure Unread (connection connection' : Connection) : Prop where
  buffer : connection'.buffer = connection.buffer
  state : connection'.state = connection.state
  request : connection'.request = connection.request
  reply : connection'.reply = connection.reply
  pending : connection'.pending = connection.pending ∨ connection'.pending = none

theorem Follows.unread {received : List Str} (hfollows : Follows site received connection)
    (hsame : Unread connection connection') : Follows site received connection' where
  waits pending hsome := by
    rw [hsame.reply]
    refine hfollows.waits pending ?_
    rcases hsame.pending with hkept | hnone
    · rw [← hkept, hsome]
    · rw [hnone] at hsome
      cases hsome
  answers := by
    rw [hsame.buffer, hsame.state, hsame.request, hsame.reply]
    exact hfollows.answers

/-- What a run has done so far: each connection follows its reads; if the run came to
something undefined, then by the reads of one of them. -/
structure Served (site : Site) (labels : List Label) (server : ServerState) : Prop where
  follows : server.undefined = false → ∀ (id : ℕ) (connection : Connection),
    server.connections[id]? = some connection → Follows site (reads id labels) connection
  fresh : server.undefined = false → ∀ id ≥ server.connections.length, reads id labels = []
  broken : server.undefined = true → ∃ id buffer, respond site buffer (reads id labels) = .undefined

namespace Served

variable {labels : List Label} {a : Label}

/-- A step that reads nothing and starts no connection. -/
theorem unread (hserved : Served site labels server) (hdefined : server.undefined = false)
    (hreads : ∀ id, reads id [a] = []) (hflag : server'.undefined = false)
    (hlength : server'.connections.length = server.connections.length)
    (hsame : ∀ (id : ℕ) (connection' : Connection), server'.connections[id]? = some connection' →
      ∃ connection, server.connections[id]? = some connection ∧ Unread connection connection') :
    Served site (labels ++ [a]) server' where
  follows _ id connection' hget := by
    obtain ⟨connection, hbefore, hunread⟩ := hsame id connection' hget
    rw [reads_concat, hreads, List.append_nil]
    exact (hserved.follows hdefined id connection hbefore).unread hunread
  fresh _ id hid := by
    rw [reads_concat, hreads, List.append_nil]
    exact hserved.fresh hdefined id (hlength ▸ hid)
  broken hbroken := by
    rw [hflag] at hbroken
    cases hbroken

theorem closes (connection : Connection) : Unread connection { connection with pending := none }.stop :=
  ⟨rfl, rfl, rfl, rfl, .inr rfl⟩

/-- The end of an operation without a read. -/
theorem ends (hserved : Served site labels server) (hdefined : server.undefined = false)
    (hreads : ∀ id, reads id [a] = []) (hget : server.connections[id]? = some connection)
    (hserver' : server' = server.setConnection id { connection with pending := none } ∨
      server' = (server.setConnection id { connection with pending := none }).stopConnection id) :
    Served site (labels ++ [a]) server' := by
  refine hserved.unread hdefined hreads ?_ ?_ fun other found hfound => ?_
  · rcases hserver' with rfl | rfl <;> exact hdefined
  · rcases hserver' with rfl | rfl <;> simp [stopConnection, setConnection]
  · rcases hserver' with rfl | rfl
    · rw [setConnection_get hget] at hfound
      split_ifs at hfound with hid
      · subst hid
        cases hfound
        exact ⟨connection, hget, rfl, rfl, rfl, rfl, .inr rfl⟩
      · exact ⟨found, hfound, rfl, rfl, rfl, rfl, .inl rfl⟩
    · rw [stopConnection_get, setConnection_get hget] at hfound
      split_ifs at hfound with hid
      · subst hid
        cases hfound
        exact ⟨connection, hget, closes connection⟩
      · exact ⟨found, hfound, rfl, rfl, rfl, rfl, .inl rfl⟩

theorem failed (hserved : Served site labels server) (hdefined : server.undefined = false)
    (hreads : ∀ id, reads id [a] = []) (hget : server.connections[id]? = some connection) (error : ErrorCode) :
    Served site (labels ++ [a]) (server.failed id connection error) := by
  refine hserved.ends hdefined hreads hget ?_
  unfold ServerState.failed
  split_ifs
  · exact .inl rfl
  · exact .inr rfl

theorem signalled (hserved : Served site labels server) (hdefined : server.undefined = false) :
    Served site (labels ++ [.signalled]) server.signalled := by
  refine hserved.unread hdefined (fun _ => rfl) hdefined ?_ fun id found hfound => ?_
  · simp [ServerState.signalled, stopAll]
  · change (server.stopAll.connections)[id]? = _ at hfound
    rw [stopAll_get] at hfound
    obtain ⟨connection, hget, rfl⟩ := Option.map_eq_some_iff.mp hfound
    refine ⟨connection, hget, ?_⟩
    split_ifs
    · exact ⟨rfl, rfl, rfl, rfl, .inl rfl⟩
    · exact ⟨rfl, rfl, rfl, rfl, .inl rfl⟩

theorem accepted (hserved : Served site labels server) (hdefined : server.undefined = false)
    (result : Except ErrorCode ReadBuffer) :
    Served site (labels ++ [.accepted result]) (server.accepted result) := by
  unfold ServerState.accepted
  split
  · cases result with
    | error error =>
      exact hserved.unread hdefined (fun _ => rfl) hdefined rfl fun _ found hfound =>
        ⟨found, hfound, rfl, rfl, rfl, rfl, .inl rfl⟩
    | ok buffer =>
      refine ⟨fun _ id found hfound => ?_, fun _ id hid => ?_, fun hbroken => ?_⟩
      · rw [reads_concat, show reads id [Label.accepted (.ok buffer)] = [] from rfl, List.append_nil]
        rw [startConnection_get] at hfound
        split_ifs at hfound with hnew
        · cases hfound
          rw [hserved.fresh hdefined id hnew.ge]
          exact follows_start buffer
        · exact hserved.follows hdefined id found hfound
      · rw [reads_concat, show reads id [Label.accepted (.ok buffer)] = [] from rfl, List.append_nil]
        refine hserved.fresh hdefined id ?_
        simp only [startConnection, List.length_append, List.length_singleton] at hid
        omega
      · exact absurd (hdefined.symm.trans hbroken) Bool.false_ne_true
  · exact hserved.unread hdefined (fun _ => rfl) hdefined rfl fun _ found hfound =>
      ⟨found, hfound, rfl, rfl, rfl, rfl, .inl rfl⟩

theorem readDone (hserved : Served site labels server) (hdefined : server.undefined = false)
    (hget : server.connections[id]? = some connection) (hreply : connection.reply = none) (data : Str) :
    Served site (labels ++ [.readDone id (.ok data)]) (server.readDone site id connection (.ok data)) := by
  have hfollows := hserved.follows hdefined id connection hget
  have hreads (other : ℕ) : reads other [Label.readDone id (.ok data)] = if id = other then [data] else [] := by
    unfold reads
    split_ifs with hid <;> simp [hid]
  unfold ServerState.readDone
  dsimp only
  cases hreceived : connection.received site data with
  | some connection' =>
    refine ⟨fun _ other found hfound => ?_, fun _ other hother => ?_, fun hbroken => ?_⟩
    · rw [reads_concat, hreads]
      rw [setConnection_get hget] at hfound
      split_ifs at hfound ⊢ with hid
      · subst hid
        cases hfound
        exact (hfollows.received hreply data).1 connection' hreceived
      · rw [List.append_nil]
        exact hserved.follows hdefined other found hfound
    · have hlength : id < server.connections.length := (List.getElem?_eq_some_iff.mp hget).1
      simp only [setConnection, List.length_set] at hother
      rw [reads_concat, hreads, if_neg (by omega), List.append_nil]
      exact hserved.fresh hdefined other hother
    · exact absurd (hdefined.symm.trans hbroken) Bool.false_ne_true
  | none =>
    refine ⟨fun h => (by cases h), fun h => (by cases h), fun _ => ⟨id, ?_⟩⟩
    rw [reads_concat, hreads, if_pos rfl]
    exact (hfollows.received hreply data).2 hreceived

theorem step (hserved : Served site labels server) (h : (machine site).step server a = some server') :
    Served site (labels ++ [a]) server' := by
  obtain ⟨hdefined, hstep⟩ := steps_of_step h
  cases hstep with
  | accepted hpending hend => exact hserved.accepted hdefined _
  | signalled hpending => exact hserved.signalled hdefined
  | @readDone id connection pending result hget hpending hread hend =>
    have hreply := ((hserved.follows hdefined id connection hget).waits pending hpending).mp hread
    cases result with
    | ok data => exact hserved.readDone hdefined hget hreply data
    | error error => exact hserved.failed hdefined (fun _ => rfl) hget error
  | @writeDone id connection pending result hget hpending hwrite hend =>
    cases result with
    | ok _ => exact hserved.ends hdefined (fun _ => rfl) hget (.inr rfl)
    | error error => exact hserved.failed hdefined (fun _ => rfl) hget error

end Served

/-- A signal has closed everything. -/
structure Closed (server : ServerState) : Prop where
  acceptor : server.acceptorOpen = false
  signal : server.signalPending = false
  sockets : ∀ (id : ℕ) (connection : Connection), server.connections[id]? = some connection →
    connection.socketOpen = false

/-- How many handlers a connection can still run: a read that had ended may start one
more operation, and that one fails. -/
def weight (connection : Connection) : ℕ :=
  match connection.pending with
  | none => 0
  | some pending => if pending.onOpen then 2 else 1

def measure (server : ServerState) : ℕ :=
  if server.undefined then 0
  else (server.connections.map weight).sum + if server.acceptPending then 1 else 0

theorem weight_pos {pending : Pending} (hpending : connection.pending = some pending) : 0 < weight connection := by
  rw [weight, hpending]
  dsimp only
  split_ifs <;> omega

theorem sum_set {l : List Connection} (hget : l[id]? = some connection) (connection' : Connection) :
    ((l.set id connection').map weight).sum + weight connection = (l.map weight).sum + weight connection' := by
  induction l generalizing id with
  | nil => simp at hget
  | cons first l ih =>
    cases id with
    | zero =>
      obtain rfl : first = connection := by simpa using hget
      simp only [List.set_cons_zero, List.map_cons, List.sum_cons]
      omega
    | succ id =>
      have hrest := ih (by simpa using hget : l[id]? = some connection)
      simp only [List.set_cons_succ, List.map_cons, List.sum_cons]
      omega

theorem map_weight_stopConnection (server : ServerState) (id : ℕ) :
    (server.stopConnection id).connections.map weight = server.connections.map weight := by
  apply List.ext_getElem?
  intro other
  rw [List.getElem?_map, stopConnection_get, List.getElem?_map]
  split_ifs
  · rw [Option.map_map]
    rfl
  · rfl

namespace Closed

/-- One connection has less left to do. -/
theorem setConnection (hclosed : Closed server) (hdefined : server.undefined = false)
    (hget : server.connections[id]? = some connection) (hsocket : connection'.socketOpen = false)
    (hless : weight connection' < weight connection) :
    Closed (server.setConnection id connection') ∧
      measure (server.setConnection id connection') < measure server := by
  refine ⟨⟨hclosed.acceptor, hclosed.signal, fun other found hfound => ?_⟩, ?_⟩
  · rw [setConnection_get hget] at hfound
    split_ifs at hfound
    · cases hfound
      exact hsocket
    · exact hclosed.sockets other found hfound
  · have hsum := sum_set hget connection'
    simp only [measure, ServerState.setConnection, hdefined, Bool.false_eq_true, ↓reduceIte]
    omega

/-- Nothing is left to do for a connection. -/
theorem ends (hclosed : Closed server) (hdefined : server.undefined = false)
    (hget : server.connections[id]? = some connection) {pending : Pending}
    (hpending : connection.pending = some pending) :
    Closed (server.setConnection id { connection with pending := none }) ∧
      measure (server.setConnection id { connection with pending := none }) < measure server :=
  hclosed.setConnection hdefined hget (hclosed.sockets id connection hget) (weight_pos hpending)

theorem stopConnection (hclosed : Closed server) (id : ℕ) :
    Closed (server.stopConnection id) ∧ measure (server.stopConnection id) = measure server := by
  refine ⟨⟨hclosed.acceptor, hclosed.signal, fun other found hfound => ?_⟩, ?_⟩
  · rw [stopConnection_get] at hfound
    split_ifs at hfound
    · obtain ⟨before, hbefore, rfl⟩ := Option.map_eq_some_iff.mp hfound
      rfl
    · exact hclosed.sockets other found hfound
  · rw [measure, map_weight_stopConnection]
    rfl

theorem failed (hclosed : Closed server) (hdefined : server.undefined = false)
    (hget : server.connections[id]? = some connection) {pending : Pending}
    (hpending : connection.pending = some pending) (error : ErrorCode) :
    Closed (server.failed id connection error) ∧ measure (server.failed id connection error) < measure server := by
  have hset := hclosed.ends hdefined hget hpending
  unfold ServerState.failed
  dsimp only
  split_ifs
  · exact hset
  · have hstop := hset.1.stopConnection id
    exact ⟨hstop.1, hstop.2 ▸ hset.2⟩

theorem step (hclosed : Closed server) {a : Label} (h : (machine site).step server a = some server') :
    Closed server' ∧ measure server' < measure server := by
  obtain ⟨hdefined, hstep⟩ := steps_of_step h
  cases hstep with
  | accepted hpending hend =>
    simp only [ServerState.accepted, hclosed.acceptor, Bool.false_eq_true, ↓reduceIte]
    refine ⟨⟨rfl, hclosed.signal, hclosed.sockets⟩, ?_⟩
    simp [measure, hdefined, hpending]
  | signalled hpending => exact absurd (hclosed.signal.symm.trans hpending) Bool.false_ne_true
  | @readDone id connection pending result hget hpending hread hend =>
    have hsocket := hclosed.sockets id connection hget
    cases result with
    | error error => exact hclosed.failed hdefined hget hpending error
    | ok data =>
      unfold ServerState.readDone
      dsimp only
      cases hreceived : connection.received site data with
      | some connection' =>
        -- what it starts now is started on a closed socket
        obtain ⟨hopen, operation, hpending'⟩ := received_pending hreceived
        have hstarted : pending.onOpen = true := hend
        refine hclosed.setConnection hdefined hget (hopen.trans hsocket) ?_
        simp [weight, hpending, hpending', hstarted, hsocket]
      | none =>
        refine ⟨⟨hclosed.acceptor, hclosed.signal, hclosed.sockets⟩, ?_⟩
        exact Nat.lt_of_le_of_lt (Nat.zero_le _) (hclosed.ends hdefined hget hpending).2
  | @writeDone id connection pending result hget hpending hwrite hend =>
    cases result with
    | error error => exact hclosed.failed hdefined hget hpending error
    | ok _ =>
      have hset := hclosed.ends hdefined hget hpending
      have hstop := hset.1.stopConnection id
      exact ⟨hstop.1, hstop.2 ▸ hset.2⟩

end Closed

/-- Nothing is pending any more. -/
structure Idle (server : ServerState) : Prop where
  accept : server.acceptPending = false
  signal : server.signalPending = false
  connections : ∀ connection ∈ server.connections, connection.pending = none

theorem isSome_waiting {pending : Pending} (hget : server.connections[id]? = some connection)
    (hpending : connection.pending = some pending) :
    server.waiting id pending.operation = some (connection, pending) := by
  rw [waiting, hget]
  dsimp only
  rw [hpending]
  exact if_pos rfl

/-- A handler can run as long as something is pending: every operation can fail. -/
theorem idle_of_stuck (hsignal : server.signalPending = false) (hdefined : server.undefined = false)
    (h : ∀ a, (machine site).step server a = none) : Idle server where
  accept := by
    rw [Bool.eq_false_iff]
    intro hpending
    have hstep : (machine site).step server (.accepted (.error .other)) = some _ :=
      if_pos ⟨hdefined, hpending, trivial⟩
    cases (h _).symm.trans hstep
  signal := hsignal
  connections connection hmem := by
    obtain ⟨id, hget⟩ := List.getElem?_of_mem hmem
    by_contra hsome
    obtain ⟨pending, hpending⟩ := Option.ne_none_iff_exists'.mp hsome
    have hwaiting := isSome_waiting hget hpending
    cases hoperation : pending.operation with
    | asyncRead =>
      rw [hoperation] at hwaiting
      have hnone := h (.readDone id (.error .other))
      unfold machine step at hnone
      simp [hwaiting, hdefined, CanEnd, Fits] at hnone
    | asyncWrite =>
      rw [hoperation] at hwaiting
      have hnone := h (.writeDone id (.error .other))
      unfold machine step at hnone
      simp [hwaiting, hdefined, CanEnd] at hnone

theorem length_connections_of_closed {a : Label} (hclosed : Closed server)
    (h : (machine site).step server a = some server') :
    server'.connections.length = server.connections.length := by
  have hfailed (id : ℕ) (connection : Connection) (error : ErrorCode) :
      (server.failed id connection error).connections.length = server.connections.length := by
    unfold failed
    dsimp only
    split_ifs <;> simp [stopConnection, setConnection]
  cases (steps_of_step h).2 with
  | accepted hpending hend => simp [accepted, hclosed.acceptor]
  | signalled hpending => simp [signalled, stopAll]
  | @readDone id connection pending result hget hpending hread hend =>
    cases result with
    | error error => exact hfailed id connection error
    | ok data =>
      unfold readDone
      dsimp only
      split
      · simp [setConnection]
      · rfl
  | @writeDone id connection pending result hget hpending hwrite hend =>
    cases result with
    | error error => exact hfailed id connection error
    | ok _ => simp [writeDone, stopConnection, setConnection]

theorem map_weight_signalled (server : ServerState) :
    server.signalled.connections.map weight = server.connections.map weight := by
  apply List.ext_getElem?
  intro id
  rw [List.getElem?_map, List.getElem?_map]
  show (server.stopAll.connections[id]?).map weight = _
  rw [stopAll_get, Option.map_map]
  congr 1
  funext connection
  simp only [Function.comp_apply]
  split_ifs <;> rfl

theorem sum_weight_le (l : List Connection) : (l.map weight).sum ≤ 2 * l.countP (·.pending.isSome) := by
  induction l with
  | nil => simp
  | cons connection l ih =>
    rw [List.map_cons, List.sum_cons, List.countP_cons, weight]
    cases connection.pending with
    | none => simpa using ih
    | some pending =>
      simp only [Option.isSome_some, ↓reduceIte]
      split_ifs <;> omega

theorem measure_signalled_le (server : ServerState) :
    measure server.signalled ≤ 2 * server.connections.countP (·.pending.isSome) + 1 := by
  have hsum := sum_weight_le server.connections
  unfold measure
  rw [map_weight_signalled]
  split_ifs <;> omega

/-- After a signal no connection is started, and the handlers that are left run out:
at most two for each connection that was waiting, and the one that accepts. -/
theorem stops_of_run {before after : List Label} (hbefore : (machine site).run opened before = some server)
    (hafter : (machine site).run server (.signalled :: after) = some server') :
    after.length ≤ 2 * server.connections.countP (·.pending.isSome) + 1 ∧
      server'.connections.length = server.connections.length ∧ server'.managed = [] ∧
      (∀ (id : ℕ) (connection : Connection), server'.connections[id]? = some connection →
        connection.socketOpen = false) ∧
      (server'.undefined = false → (∀ a, (machine site).step server' a = none) → Idle server') := by
  have htidy := tidy_of_run hbefore
  obtain ⟨next, hnext, hrun⟩ := Option.bind_eq_some_iff.mp hafter
  obtain rfl : next = server.signalled := by
    cases (steps_of_step hnext).2 with
    | signalled hpending => rfl
  have hstart : Closed server.signalled ∧ server.signalled.connections.length = server.connections.length :=
    ⟨⟨rfl, rfl, fun _ _ hget => htidy.closed_of_signalled hget⟩, by simp [signalled, stopAll]⟩
  -- closing is kept, and no step starts a connection
  have hkept : ∀ s a t, Closed s ∧ s.connections.length = server.connections.length →
      (machine site).step s a = some t → Closed t ∧ t.connections.length = server.connections.length :=
    fun s a t hs hstep => ⟨(hs.1.step hstep).1, (length_connections_of_closed hs.1 hstep).trans hs.2⟩
  have hlength := (machine site).length_add_le hkept (fun s a t hs hstep => (hs.1.step hstep).2) hstart hrun
  have hend := (machine site).run_invariant (C := fun _ _ => True) (fun s a t hs _ => hkept s a t hs) hstart
    ((machine site).along_of_forall fun _ _ => trivial) hrun
  have hbound := measure_signalled_le server
  have hwhole : (machine site).run opened (before ++ .signalled :: after) = some server' := by
    rw [Machine.run_append, hbefore]
    exact hafter
  have hmanaged := (tidy_of_run hwhole).stopped hend.1.acceptor
  exact ⟨by omega, hend.2, hmanaged.1, hend.1.sockets, fun hdefined => idle_of_stuck hend.1.signal hdefined⟩

/-- One connection, accepted into a buffer of NULs. -/
def oneAccepted : ServerState := opened.accepted (.ok (.filled '\x00'))

theorem run_oneAccepted (site : Site) :
    (machine site).run opened [.accepted (.ok (.filled '\x00'))] = some oneAccepted := rfl

/-- A signal while a connection reads: the read and the acceptor are aborted. -/
theorem stops_of_run_reading : ∃ server', (machine ⟨[], fun _ => none⟩).run oneAccepted
      [.signalled, .readDone 0 (.error .operationAborted), .accepted (.error .operationAborted)] = some server' ∧
    server'.connections.length = 1 ∧ server'.managed = [] := by
  refine ⟨_, rfl, ?_⟩
  have hstops := stops_of_run (run_oneAccepted ⟨[], fun _ => none⟩)
    (rfl : (machine ⟨[], fun _ => none⟩).run oneAccepted
      [.signalled, .readDone 0 (.error .operationAborted), .accepted (.error .operationAborted)] = some _)
  exact ⟨hstops.2.1, hstops.2.2.1⟩

end ItvpnAgent.Server.ServerState
