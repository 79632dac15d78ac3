import ItvpnAgent.Kit.Machine
import ItvpnAgent.Server.RequestHandler

/-! The HTTP server as its `io_context` runs it: one completion handler after the
other, in any order in which the operations end. The connection manager holds the
connections whose sockets are open, and a signal closes all of them. -/

namespace ItvpnAgent.Server

open Kit RequestParser

/-! ### Operations -/

inductive ErrorCode where
  | operationAborted
  | other
  deriving DecidableEq, Repr

inductive Operation where
  | asyncRead
  | asyncWrite
  deriving DecidableEq, Repr

/-- An operation that was started, and whether the socket was open then. -/
structure Pending where
  operation : Operation
  onOpen : Bool
  deriving DecidableEq, Repr

/-- How an operation can end that was started on an open socket or not: on a closed
one it fails, it is aborted only by the closing, and it may have ended well before
the socket was closed. -/
def CanEnd {α : Type} (onOpen isOpen : Bool) : Except ErrorCode α → Prop
  | .ok _ => onOpen = true
  | .error .operationAborted => onOpen = true ∧ isOpen = false
  | .error .other => True

instance {α : Type} (onOpen isOpen : Bool) (result : Except ErrorCode α) : Decidable (CanEnd onOpen isOpen result) :=
  match result with
  | .ok _ => inferInstanceAs (Decidable (_ = _))
  | .error .operationAborted => inferInstanceAs (Decidable (_ ∧ _))
  | .error .other => inferInstanceAs (Decidable True)

/-! ### A connection -/

structure Connection where
  socketOpen : Bool
  buffer : ReadBuffer
  state : State
  request : Request
  reply : Option Reply
  pending : Option Pending

namespace Connection

def doRead (connection : Connection) : Connection :=
  { connection with pending := some { operation := .asyncRead, onOpen := connection.socketOpen } }

def doWrite (connection : Connection) : Connection :=
  { connection with pending := some { operation := .asyncWrite, onOpen := connection.socketOpen } }

/-- A new connection that starts reading. -/
def start (buffer : ReadBuffer) : Connection :=
  doRead {
    socketOpen := true
    buffer := buffer
    state := .methodStart
    request := freshRequest
    reply := none
    pending := none }

def stop (connection : Connection) : Connection := { connection with socketOpen := false }

/-- The handler of a read without an error, where it stays in range. -/
def received (site : Site) (connection : Connection) (data : Str) : Option Connection :=
  let buffer := connection.buffer.receive data
  match parse connection.state connection.request data with
  | (result, state, request, rest) =>
    let connection := { connection with buffer := buffer, state := state, request := request }
    match buffer.cString (data.length - rest.length) with
    | none => none
    | some postParameters =>
      match result with
      | .good =>
        match handleGood request postParameters with
        | .ok (.handled request) =>
          some { connection with request := request, reply := some (handleRequest site request freshReply) }.doWrite
        | _ => none
      | .bad => some { connection with reply := some (.stockReply .badRequest) }.doWrite
      | .indeterminate => some connection.doRead

end Connection

/-! ### The server -/

structure ServerState where
  acceptorOpen : Bool
  acceptPending : Bool
  signalPending : Bool
  connections : List Connection
  managed : List ℕ
  undefined : Bool

namespace ServerState

/-- Before the first handler runs. -/
def opened : ServerState where
  acceptorOpen := true
  acceptPending := true
  signalPending := true
  connections := []
  managed := []
  undefined := false

inductive Label where
  | accepted (result : Except ErrorCode ReadBuffer)
  | signalled
  | readDone (id : ℕ) (result : Except ErrorCode Str)
  | writeDone (id : ℕ) (result : Except ErrorCode Unit)

/-- `connection_manager::start`. -/
def startConnection (server : ServerState) (buffer : ReadBuffer) : ServerState :=
  { server with
    connections := server.connections ++ [.start buffer]
    managed := server.managed ++ [server.connections.length] }

/-- `connection_manager::stop`. -/
def stopConnection (server : ServerState) (id : ℕ) : ServerState :=
  { server with
    connections := server.connections.modify id Connection.stop
    managed := server.managed.filter (· ≠ id) }

/-- `connection_manager::stop_all`. -/
def stopAll (server : ServerState) : ServerState :=
  { server with
    connections := server.connections.mapIdx fun id connection =>
      if id ∈ server.managed then connection.stop else connection
    managed := [] }

def setConnection (server : ServerState) (id : ℕ) (connection : Connection) : ServerState :=
  { server with connections := server.connections.set id connection }

/-- The handler of `async_accept`. -/
def accepted (server : ServerState) (result : Except ErrorCode ReadBuffer) : ServerState :=
  if server.acceptorOpen then
    match result with
    | .ok buffer => server.startConnection buffer
    | .error _ => server
  else { server with acceptPending := false }

/-- The handler of a signal. It waits for no other. -/
def signalled (server : ServerState) : ServerState :=
  { server with acceptorOpen := false, signalPending := false }.stopAll

/-- The end of an operation that went wrong. -/
def failed (server : ServerState) (id : ℕ) (connection : Connection) (error : ErrorCode) : ServerState :=
  let server := server.setConnection id { connection with pending := none }
  if error = .operationAborted then server else server.stopConnection id

/-- The handler of a read. -/
def readDone (site : Site) (server : ServerState) (id : ℕ) (connection : Connection) :
    Except ErrorCode Str → ServerState
  | .ok data =>
    match connection.received site data with
    | some connection => server.setConnection id connection
    | none => { server with undefined := true }
  | .error error => server.failed id connection error

/-- The handler of a write. The connection is closed after it. -/
def writeDone (server : ServerState) (id : ℕ) (connection : Connection) : Except ErrorCode Unit → ServerState
  | .ok () => (server.setConnection id { connection with pending := none }).stopConnection id
  | .error error => server.failed id connection error

/-- The connection, if an operation of that kind is pending on it. -/
def waiting (server : ServerState) (id : ℕ) (operation : Operation) : Option (Connection × Pending) :=
  match server.connections[id]? with
  | none => none
  | some connection =>
    match connection.pending with
    | none => none
    | some pending => if pending.operation = operation then some (connection, pending) else none

/-- Characters that fit the buffer. -/
def Fits : Except ErrorCode Str → Prop
  | .ok data => data ≠ [] ∧ data.length ≤ 8192
  | .error _ => True

instance (result : Except ErrorCode Str) : Decidable (Fits result) :=
  match result with
  | .ok _ => inferInstanceAs (Decidable (_ ∧ _))
  | .error _ => inferInstanceAs (Decidable True)

def step (site : Site) (server : ServerState) : Label → Option ServerState
  | .accepted result =>
    if server.undefined = false ∧ server.acceptPending = true ∧ CanEnd true server.acceptorOpen result then
      some (server.accepted result)
    else none
  | .signalled =>
    if server.undefined = false ∧ server.signalPending = true then some server.signalled else none
  | .readDone id result =>
    match server.waiting id .asyncRead with
    | none => none
    | some (connection, pending) =>
      if server.undefined = false ∧ CanEnd pending.onOpen connection.socketOpen result ∧ Fits result then
        some (server.readDone site id connection result)
      else none
  | .writeDone id result =>
    match server.waiting id .asyncWrite with
    | none => none
    | some (connection, pending) =>
      if server.undefined = false ∧ CanEnd pending.onOpen connection.socketOpen result then
        some (server.writeDone id connection result)
      else none

def machine (site : Site) : Machine ServerState Label where
  step := step site

/-! ### Steps -/

variable {site : Site} {server server' : ServerState} {id : ℕ} {connection connection' : Connection}

theorem waiting_eq_some {operation : Operation} {pending : Pending}
    (h : server.waiting id operation = some (connection, pending)) :
    server.connections[id]? = some connection ∧ connection.pending = some pending ∧
      pending.operation = operation := by
  unfold waiting at h
  split at h
  · cases h
  · next hget =>
    split at h
    · cases h
    · next hpending =>
      split at h
      · next hoperation =>
        cases h
        exact ⟨hget, hpending, hoperation⟩
      · cases h

/-- All a step can be: one of the four handlers, with an end its operation can have. -/
inductive Steps (site : Site) (server : ServerState) : Label → ServerState → Prop
  | accepted {result : Except ErrorCode ReadBuffer} (hpending : server.acceptPending = true)
    (hend : CanEnd true server.acceptorOpen result) : Steps site server (.accepted result) (server.accepted result)
  | signalled (hpending : server.signalPending = true) : Steps site server .signalled server.signalled
  | readDone {id : ℕ} {connection : Connection} {pending : Pending} {result : Except ErrorCode Str}
    (hget : server.connections[id]? = some connection) (hpending : connection.pending = some pending)
    (hread : pending.operation = .asyncRead) (hend : CanEnd pending.onOpen connection.socketOpen result) :
    Steps site server (.readDone id result) (server.readDone site id connection result)
  | writeDone {id : ℕ} {connection : Connection} {pending : Pending} {result : Except ErrorCode Unit}
    (hget : server.connections[id]? = some connection) (hpending : connection.pending = some pending)
    (hwrite : pending.operation = .asyncWrite) (hend : CanEnd pending.onOpen connection.socketOpen result) :
    Steps site server (.writeDone id result) (server.writeDone id connection result)

theorem steps_of_step {a : Label} (h : (machine site).step server a = some server') :
    server.undefined = false ∧ Steps site server a server' := by
  cases a with
  | accepted result =>
    obtain ⟨⟨hdefined, hpending, hend⟩, rfl⟩ := Option.ite_none_right_eq_some.mp h |>.imp_right Option.some.inj
    exact ⟨hdefined, .accepted hpending hend⟩
  | signalled =>
    obtain ⟨⟨hdefined, hpending⟩, rfl⟩ := Option.ite_none_right_eq_some.mp h |>.imp_right Option.some.inj
    exact ⟨hdefined, .signalled hpending⟩
  | readDone id result =>
    unfold machine step at h
    dsimp only at h
    cases hwaiting : server.waiting id .asyncRead with
    | none =>
      rw [hwaiting] at h
      cases h
    | some found =>
      obtain ⟨connection, pending⟩ := found
      rw [hwaiting] at h
      obtain ⟨⟨hdefined, hend, -⟩, rfl⟩ := Option.ite_none_right_eq_some.mp h |>.imp_right Option.some.inj
      obtain ⟨hget, hpending, hread⟩ := waiting_eq_some hwaiting
      exact ⟨hdefined, .readDone hget hpending hread hend⟩
  | writeDone id result =>
    unfold machine step at h
    dsimp only at h
    cases hwaiting : server.waiting id .asyncWrite with
    | none =>
      rw [hwaiting] at h
      cases h
    | some found =>
      obtain ⟨connection, pending⟩ := found
      rw [hwaiting] at h
      obtain ⟨⟨hdefined, hend⟩, rfl⟩ := Option.ite_none_right_eq_some.mp h |>.imp_right Option.some.inj
      obtain ⟨hget, hpending, hwrite⟩ := waiting_eq_some hwaiting
      exact ⟨hdefined, .writeDone hget hpending hwrite hend⟩

end ServerState

end ItvpnAgent.Server
