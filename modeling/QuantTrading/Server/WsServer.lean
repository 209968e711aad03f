import QuantTrading.Foundation.Transition
import QuantTrading.Server.MessageQueue

/-! # The WebSocket server

The callback that libwebsockets calls for every event of a connection, and the
functions that write to connections. A message to one client is written at once. A
broadcast parks its bytes in the server and has the callback called for every
connection with `SERVER_WRITEABLE`; the callback has no case for that reason.

The order in which libwebsockets visits the open connections is a parameter.
-/

namespace QuantTrading

/-- The reasons the callback is called for here. -/
inductive CallbackReason where
  | protocolInit
  | established
  | closed
  | receive
  | serverWriteable
deriving DecidableEq, Repr

/-- `struct WSServer`, with what was given to `lws_write` so far. The callbacks work on
the user data. -/
structure WSServer (Client : Type) (UserData : Type) where
  connectCb : Option (Client → UserData → UserData)
  disconnectCb : Option (Client → UserData → UserData)
  messageCb : Option (Client → List Char → Nat → UserData → Except Fault UserData)
  userData : UserData
  broadcastBuf : Option (List Char)
  broadcastLen : Nat
  written : List (Client × List Char)

variable {Client UserData : Type}

namespace WSServer

/-- A server as `ws_server_create` leaves it, before callbacks are set. -/
def create (userData : UserData) : WSServer Client UserData where
  connectCb := none
  disconnectCb := none
  messageCb := none
  userData := userData
  broadcastBuf := none
  broadcastLen := 0
  written := []

/-- `ws_server_set_message_callback`. -/
def setMessageCallback (server : WSServer Client UserData)
    (callback : Client → List Char → Nat → UserData → Except Fault UserData)
    (userData : UserData) : WSServer Client UserData :=
  { server with messageCb := some callback, userData := userData }

/-- `callback_trading` for a connection, with the received memory `data` and its
length. -/
def callbackTrading (server : WSServer Client UserData) (client : Client)
    (reason : CallbackReason) (data : List Char) (len : Nat) :
    Except Fault (WSServer Client UserData) :=
  match reason with
  | .established =>
      match server.connectCb with
      | some callback => .ok { server with userData := callback client server.userData }
      | none => .ok server
  | .closed =>
      match server.disconnectCb with
      | some callback => .ok { server with userData := callback client server.userData }
      | none => .ok server
  | .receive =>
      match server.messageCb with
      | some callback =>
          (callback client data len server.userData).map fun userData =>
            { server with userData := userData }
      | none => .ok server
  -- `SERVER_WRITEABLE` falls under the default case as well
  | _ => .ok server

/-- `lws_callback_all_protocol`: call the callback for each of the connections. -/
def callbackAll (reason : CallbackReason) :
    List Client → WSServer Client UserData → Except Fault (WSServer Client UserData)
  | [], server => .ok server
  | client :: rest, server => do
      let server ← server.callbackTrading client reason [] 0
      callbackAll reason rest server

/-- `ws_server_broadcast`: the return code and the server afterwards. -/
def broadcast (visit : List Client → List Client) (connections : List Client)
    (server : WSServer Client UserData) (message : Option (List Char)) (len : Nat) :
    Except Fault (Int × WSServer Client UserData) :=
  match message with
  | none => .ok (-1, server)
  | some memory =>
      if memory.length < len then .error .outOfBounds
      else do
        let parked : WSServer Client UserData :=
          { server with broadcastBuf := some (memory.take len), broadcastLen := len }
        let called ← callbackAll .serverWriteable (visit connections) parked
        .ok (0, { called with broadcastBuf := none, broadcastLen := 0 })

/-- `ws_server_send`, when the allocation and `lws_write` succeed: the return code and the
server afterwards. -/
def send (server : WSServer Client UserData) (client : Client) (message : Option (List Char))
    (len : Nat) : Except Fault (Int × WSServer Client UserData) :=
  match message with
  | none => .ok (-1, server)
  | some memory =>
      if memory.length < len then .error .outOfBounds
      else .ok (0, { server with written := server.written ++ [(client, memory.take len)] })

/-- Calling the callback for `SERVER_WRITEABLE` does nothing. -/
theorem callbackAll_serverWriteable (connections : List Client)
    (server : WSServer Client UserData) :
    callbackAll .serverWriteable connections server = .ok server := by
  induction connections with
  | nil => rfl
  | cons client rest ih => exact ih

/-- A broadcast that returns writes nothing. -/
theorem broadcast_written {visit : List Client → List Client} {connections : List Client}
    {server after : WSServer Client UserData} {message : Option (List Char)} {len : Nat}
    {code : Int} (hcall : server.broadcast visit connections message len = .ok (code, after)) :
    after.written = server.written := by
  cases message with
  | none =>
      cases hcall
      rfl
  | some memory =>
      unfold broadcast at hcall
      dsimp only at hcall
      rw [callbackAll_serverWriteable] at hcall
      split_ifs at hcall
      cases hcall
      rfl

end WSServer

/-! ## Runs of connections, messages and broadcasts -/

/-- An event of the server. -/
inductive ServerEvent (Client : Type) where
  | connect (client : Client) : ServerEvent Client
  | disconnect (client : Client) : ServerEvent Client
  | send (client : Client) (message : Option (List Char)) (len : Nat) : ServerEvent Client
  | broadcast (message : Option (List Char)) (len : Nat) : ServerEvent Client

/-- A server with its open connections. -/
structure ServingState (Client UserData : Type) where
  server : WSServer Client UserData
  connections : List Client

namespace ServingState

variable [DecidableEq Client]

/-- The state after an event; a fault ends the process. -/
def step (visit : List Client → List Client) (state : ServingState Client UserData) :
    ServerEvent Client → ServingState Client UserData
  | .connect client =>
      match state.server.callbackTrading client .established [] 0 with
      | .ok server => { server := server, connections := state.connections ++ [client] }
      | .error _ => state
  | .disconnect client =>
      match state.server.callbackTrading client .closed [] 0 with
      | .ok server => { server := server, connections := state.connections.erase client }
      | .error _ => state
  | .send client message len =>
      match state.server.send client message len with
      | .ok (_, server) => { state with server := server }
      | .error _ => state
  | .broadcast message len =>
      match state.server.broadcast visit state.connections message len with
      | .ok (_, server) => { state with server := server }
      | .error _ => state

omit [DecidableEq Client] in
/-- A broadcast that returns 0 writes the given bytes once to every connected client. -/
def Delivers (visit : List Client → List Client) (state : ServingState Client UserData) :
    ServerEvent Client → Prop
  | .broadcast message len => ∀ after,
      state.server.broadcast visit state.connections message len = .ok (0, after) →
      ∃ memory writes, message = some memory ∧ after.written = state.server.written ++ writes ∧
        writes.Perm (state.connections.map fun client => (client, memory.take len))
  | _ => True

omit [DecidableEq Client] in
/-- No client is connected when a broadcast is made. -/
def NobodyWaits (state : ServingState Client UserData) : ServerEvent Client → Prop
  | .broadcast (some memory) len => len ≤ memory.length → state.connections = []
  | _ => True

omit [DecidableEq Client] in
theorem delivers_iff_nobodyWaits (visit : List Client → List Client)
    (state : ServingState Client UserData) (event : ServerEvent Client) :
    state.Delivers visit event ↔ state.NobodyWaits event := by
  cases event with
  | connect client => exact Iff.rfl
  | disconnect client => exact Iff.rfl
  | send client message len => exact Iff.rfl
  | broadcast message len =>
      cases message with
      | none =>
          refine iff_of_true ?_ trivial
          intro after hcall
          simp [WSServer.broadcast] at hcall
      | some memory =>
          constructor
          · intro hdelivers hlen
            have hcall : state.server.broadcast visit state.connections (some memory) len =
                .ok (0, { state.server with broadcastBuf := none, broadcastLen := 0 }) := by
              unfold WSServer.broadcast
              dsimp only
              rw [if_neg (Nat.not_lt.mpr hlen), WSServer.callbackAll_serverWriteable]
              rfl
            obtain ⟨_, writes, _, hwritten, hperm⟩ := hdelivers _ hcall
            have hwrites : writes = [] := by simpa using hwritten
            subst hwrites
            simpa using hperm
          · intro hnobody after hcall
            have hlen : len ≤ memory.length := by
              unfold WSServer.broadcast at hcall
              dsimp only at hcall
              split_ifs at hcall with hlt
              exact Nat.le_of_not_lt hlt
            refine ⟨memory, [], rfl, ?_, ?_⟩
            · rw [WSServer.broadcast_written hcall, List.append_nil]
            · rw [hnobody hlen]
              rfl

/-- For any order in which libwebsockets visits the connections, the broadcasts of a
run deliver their messages exactly when no client is connected at any of them. -/
theorem broadcasts_deliver_iff (visit : List Client → List Client)
    (start : ServingState Client UserData) (events : List (ServerEvent Client)) :
    Transition.Along (step visit) (Delivers visit) start events ↔
      Transition.Along (step visit) NobodyWaits start events :=
  Transition.along_congr (step visit) (fun _ => True)
    (fun state event _ => state.delivers_iff_nobodyWaits visit event) (fun _ _ _ _ => trivial)
    trivial events

/-- A client connects and a broadcast of two bytes returns 0 without writing to it. -/
theorem broadcast_not_delivered :
    let state := Transition.run (step id)
      { server := WSServer.create (), connections := [] } [.connect 7]
    state.connections = [7] ∧
      (state.server.broadcast id state.connections (some "hi".toList) 2).map
        (fun result => (result.1, result.2.written)) = .ok (0, []) ∧
      ¬ state.Delivers id (.broadcast (some "hi".toList) 2) := by
  intro state
  refine ⟨rfl, rfl, fun hdelivers => ?_⟩
  have hnobody := (state.delivers_iff_nobodyWaits id _).mp hdelivers (by decide)
  exact absurd hnobody (by decide)

end ServingState

end QuantTrading
