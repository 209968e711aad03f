import QuantTrading.Foundation.Components
import QuantTrading.Foundation.ListMemory
import QuantTrading.Server.SessionTable

/-! # The session manager as a program on memory

The functions of `session_manager.c` on all the memory they use: the record of a manager,
the linked list of its sessions, the array of each session and the copies of the symbols
in it. Every allocation may fail. The clock is a parameter of the calls that read it, and
the loops over the sessions take a bound on their number.
-/

namespace QuantTrading

open Separation Separation.Program

/-- The fields of `ClientSession` but for the pointer to the next one. -/
structure SessionFields (Client : Type) where
  client : Client
  subscribedSymbols : Option Nat
  subscriptionCount : Nat
  lastPingTime : ClockTime

/-- The fields of `SessionManager`. -/
structure ManagerFields where
  sessions : Option Nat
  sessionCount : Int
  maxSessions : Int
  sessionTimeoutMs : Int

/-- The cells of a session manager. -/
inductive SessionCell (Client : Type) where
  | manager (fields : ManagerFields) : SessionCell Client
  | session (fields : SessionFields Client) (next : Option Nat) : SessionCell Client
  | symbols (slots : List (Option Nat)) : SessionCell Client
  | text (symbol : CString) : SessionCell Client

variable {Client : Type}

namespace SessionMemory

/-- `ClientSession`. -/
def clientSession : NodeLayout (SessionCell Client) (SessionFields Client) where
  node := .session
  read := fun cell =>
    match cell with
    | .session fields next => some (fields, next)
    | _ => none
  read_node := fun _ _ => rfl

/-- The fields of the manager a pointer points to. -/
def loadManager (manager : Nat) : Program (SessionCell Client) ManagerFields := do
  match ← load (some manager) with
  | .manager fields => return fields
  | _ => fault

/-- Write the head of the list of sessions. -/
def setSessions (manager : Nat) (sessions : Option Nat) : Program (SessionCell Client) Unit := do
  let fields ← loadManager manager
  store (some manager) (.manager { fields with sessions := sessions })

/-- The pointer at an index of an array of symbols. -/
def loadSlot (symbols : Option Nat) (i : Nat) : Program (SessionCell Client) (Option Nat) := do
  match ← load symbols with
  | .symbols slots =>
      match slots[i]? with
      | some slot => return slot
      | none => fault
  | _ => fault

/-- Write a pointer into an array of symbols. -/
def storeSlot (symbols : Option Nat) (i : Nat) (slot : Option Nat) :
    Program (SessionCell Client) Unit := do
  match ← load symbols with
  | .symbols slots =>
      if i < slots.length then store symbols (.symbols (slots.set i slot)) else fault
  | _ => fault

/-- The string a pointer points to. -/
def loadText (pointer : Option Nat) : Program (SessionCell Client) CString := do
  match ← load pointer with
  | .text symbol => return symbol
  | _ => fault

/-- The loop over the subscriptions that the functions share: compare `remaining` of them
with a symbol, from index `i` on. -/
def findSymbol (symbols : Option Nat) (symbol : CString) :
    Nat → Nat → Program (SessionCell Client) (Option Nat)
  | 0, _ => return none
  | remaining + 1, i => do
      let subscribed ← loadSlot symbols i
      let text ← loadText subscribed
      if text = symbol then return some i
      else findSymbol symbols symbol remaining (i + 1)

/-- Free `remaining` symbols of an array, from index `i` on. -/
def freeSymbols (symbols : Option Nat) : Nat → Nat → Program (SessionCell Client) Unit
  | 0, _ => return ()
  | remaining + 1, i => do
      let subscribed ← loadSlot symbols i
      release subscribed
      freeSymbols symbols remaining (i + 1)

/-- Move `remaining` symbols of an array down by one, from index `j` on. -/
def moveSymbols (symbols : Option Nat) : Nat → Nat → Program (SessionCell Client) Unit
  | 0, _ => return ()
  | remaining + 1, j => do
      let next ← loadSlot symbols (j + 1)
      storeSlot symbols j next
      moveSymbols symbols remaining (j + 1)

/-- Free a session with its symbols and its array. -/
def freeSession (session : Nat) : Program (SessionCell Client) Unit := do
  let (fields, _) ← clientSession.load session
  freeSymbols fields.subscribedSymbols fields.subscriptionCount 0
  release fields.subscribedSymbols
  free (some session)

/-- `manager->session_count--`. -/
def countDown (manager : Nat) : Program (SessionCell Client) Unit := do
  let fields ← loadManager manager
  store (some manager) (.manager { fields with sessionCount := fields.sessionCount - 1 })

/-- `session_manager_create`. -/
def sessionManagerCreate (allocator : Allocator (SessionCell Client)) (config : SessionConfig) :
    Program (SessionCell Client) (Option Nat) :=
  allocate allocator (.manager ⟨none, 0, config.maxSessions, config.sessionTimeoutMs⟩)

/-- `session_manager_destroy`. -/
def sessionManagerDestroy (fuel : Nat) : Option Nat → Program (SessionCell Client) Unit
  | none => return ()
  | some manager => do
      let fields ← loadManager manager
      clientSession.releaseAll freeSession fuel fields.sessions
      free (some manager)

section Calls

variable [DecidableEq Client]

/-- `find_session`. -/
def findSession (fuel manager : Nat) (client : Client) :
    Program (SessionCell Client) (Option Nat) := do
  let fields ← loadManager manager
  clientSession.search (fun session => session.client = client) fuel fields.sessions

/-- `session_manager_add_client`. -/
def sessionManagerAddClient (allocator : Allocator (SessionCell Client)) (fuel : Nat)
    (manager : Option Nat) (client : Option Client) (now : ClockTime) :
    Program (SessionCell Client) Int :=
  match manager, client with
  | some manager, some client => do
      let fields ← loadManager manager
      if fields.maxSessions ≤ fields.sessionCount then return -1
      else
        match ← findSession fuel manager client with
        | some _ => return -1
        | none =>
            match ← allocate allocator (.session ⟨client, none, 0, now⟩ none) with
            | none => return -1
            | some session =>
                match ← allocate allocator
                    (.symbols (List.replicate maxSubscriptions none)) with
                | none => do
                    free (some session)
                    return -1
                | some symbols => do
                    let fields ← loadManager manager
                    clientSession.store session ⟨client, some symbols, 0, now⟩ fields.sessions
                    store (some manager) (.manager { fields with
                      sessions := some session
                      sessionCount := fields.sessionCount + 1 })
                    return 0
  | _, _ => return -1

/-- `session_manager_remove_client`. -/
def sessionManagerRemoveClient (fuel : Nat) (manager : Option Nat) (client : Option Client) :
    Program (SessionCell Client) Int :=
  match manager, client with
  | some manager, some client => do
      let fields ← loadManager manager
      match ← clientSession.unlinkFirst (setSessions manager)
          (fun session => session.client = client) fuel none fields.sessions with
      | none => return -1
      | some session => do
          freeSession session
          countDown manager
          return 0
  | _, _ => return -1

/-- `session_manager_subscribe_symbol`. -/
def sessionManagerSubscribeSymbol (allocator : Allocator (SessionCell Client)) (fuel : Nat)
    (manager : Option Nat) (client : Option Client) (symbol : Option CString) :
    Program (SessionCell Client) Int :=
  match manager, client, symbol with
  | some manager, some client, some symbol => do
      match ← findSession fuel manager client with
      | none => return -1
      | some session => do
          let (fields, next) ← clientSession.load session
          if maxSubscriptions ≤ fields.subscriptionCount then return -1
          else
            match ← findSymbol fields.subscribedSymbols symbol fields.subscriptionCount 0 with
            | some _ => return 0
            | none =>
                match ← allocate allocator (.text symbol) with
                | none => return -1
                | some symbolCopy => do
                    storeSlot fields.subscribedSymbols fields.subscriptionCount (some symbolCopy)
                    clientSession.store session
                      { fields with subscriptionCount := fields.subscriptionCount + 1 } next
                    return 0
  | _, _, _ => return -1

/-- `session_manager_unsubscribe_symbol`. -/
def sessionManagerUnsubscribeSymbol (fuel : Nat) (manager : Option Nat) (client : Option Client)
    (symbol : Option CString) : Program (SessionCell Client) Int :=
  match manager, client, symbol with
  | some manager, some client, some symbol => do
      match ← findSession fuel manager client with
      | none => return -1
      | some session => do
          let (fields, next) ← clientSession.load session
          match ← findSymbol fields.subscribedSymbols symbol fields.subscriptionCount 0 with
          | none => return -1
          | some i => do
              let subscribed ← loadSlot fields.subscribedSymbols i
              release subscribed
              moveSymbols fields.subscribedSymbols (fields.subscriptionCount - 1 - i) i
              clientSession.store session
                { fields with subscriptionCount := fields.subscriptionCount - 1 } next
              return 0
  | _, _, _ => return -1

/-- `session_manager_is_subscribed`. -/
def sessionManagerIsSubscribed (fuel : Nat) (manager : Option Nat) (client : Option Client)
    (symbol : Option CString) : Program (SessionCell Client) Bool :=
  match manager, client, symbol with
  | some manager, some client, some symbol => do
      match ← findSession fuel manager client with
      | none => return false
      | some session => do
          let (fields, _) ← clientSession.load session
          let found ← findSymbol fields.subscribedSymbols symbol fields.subscriptionCount 0
          return found.isSome
  | _, _, _ => return false

omit [DecidableEq Client] in
/-- One round of the loop of `session_manager_get_subscribers`: the clients written so far. -/
def writeSubscriber (symbol : CString) (clients : List Client) (fields : SessionFields Client) :
    Program (SessionCell Client) (List Client) := do
  let found ← findSymbol fields.subscribedSymbols symbol fields.subscriptionCount 0
  return if found.isSome then clients ++ [fields.client] else clients

omit [DecidableEq Client] in
/-- `session_manager_get_subscribers`: the return value and the clients written. -/
def sessionManagerGetSubscribers (fuel : Nat) (manager : Option Nat) (symbol : Option CString)
    (maxClients : Int) : Program (SessionCell Client) (Int × List Client) :=
  match manager, symbol with
  | some manager, some symbol =>
      if maxClients ≤ 0 then return (-1, [])
      else do
        let fields ← loadManager manager
        let clients ← clientSession.walk
          (fun clients : List Client => (clients.length : Int) < maxClients)
          (writeSubscriber symbol) fuel fields.sessions []
        return (clients.length, clients)
  | _, _ => return (-1, [])

omit [DecidableEq Client] in
/-- `session_manager_cleanup_sessions`. -/
def sessionManagerCleanupSessions (fuel : Nat) (manager : Option Nat) (now : ClockTime) :
    Program (SessionCell Client) Unit :=
  match manager with
  | none => return ()
  | some manager => do
      let fields ← loadManager manager
      clientSession.unlinkAll (setSessions manager)
        (fun session => fields.sessionTimeoutMs <
          int64 (int64 (now.seconds - session.lastPingTime.seconds) * 1000))
        (fun session => do
          freeSession session
          countDown manager)
        fuel none fields.sessions

omit [DecidableEq Client] in
/-- `session_manager_ping_clients`; the clock is read again for every session. -/
def sessionManagerPingClients (fuel : Nat) (manager : Option Nat) (clock : Nat → ClockTime) :
    Program (SessionCell Client) Unit :=
  match manager with
  | none => return ()
  | some manager => do
      let fields ← loadManager manager
      clientSession.updateAll
        (fun index session => { session with lastPingTime := clock index }) fuel
        fields.sessions 0

end Calls

/-- A call on a session manager, with those that only read. -/
inductive SessionRequest (Client : Type) where
  | change (call : SessionCall Client) : SessionRequest Client
  | isSubscribed (client : Client) (symbol : CString) : SessionRequest Client
  | getSubscribers (symbol : CString) (maxClients : Int) : SessionRequest Client

/-- The functions of a session manager. A truth value counts as 1 or 0. -/
def component [DecidableEq Client] (allocator : Allocator (SessionCell Client)) (fuel : Nat)
    (config : SessionConfig) :
    Component (SessionCell Client) (SessionRequest Client) (Int × List Client) where
  create := sessionManagerCreate allocator config
  call := fun manager request =>
    match request with
    | .change (.addClient client now) => do
        let code ← sessionManagerAddClient allocator fuel (some manager) (some client) now
        return (code, [])
    | .change (.removeClient client) => do
        let code ← sessionManagerRemoveClient fuel (some manager) (some client)
        return (code, [])
    | .change (.subscribeSymbol client symbol) => do
        let code ← sessionManagerSubscribeSymbol allocator fuel (some manager) (some client)
          (some symbol)
        return (code, [])
    | .change (.unsubscribeSymbol client symbol) => do
        let code ← sessionManagerUnsubscribeSymbol fuel (some manager) (some client)
          (some symbol)
        return (code, [])
    | .change (.pingClients clock) => do
        sessionManagerPingClients fuel (some manager) clock
        return (0, [])
    | .change (.cleanupSessions now) => do
        sessionManagerCleanupSessions fuel (some manager) now
        return (0, [])
    | .isSubscribed client symbol => do
        let subscribed ← sessionManagerIsSubscribed fuel (some manager) (some client)
          (some symbol)
        return (if subscribed then 1 else 0, [])
    | .getSubscribers symbol maxClients =>
        sessionManagerGetSubscribers fuel (some manager) (some symbol) maxClients
  destroy := sessionManagerDestroy fuel

end SessionMemory

end QuantTrading
