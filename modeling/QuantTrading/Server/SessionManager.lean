import QuantTrading.Foundation.LinkedList
import QuantTrading.Utils.CMemory
import Mathlib.Algebra.Order.Ring.Int
import Mathlib.Data.List.ReduceOption

/-! # The session manager

`session_manager.c` keeps the sessions of the clients in a linked list, newest first, with
a counter beside it. A session has an array of `MAX_SUBSCRIPTIONS` symbols and the time of
its last ping. The functions below follow the pointers of the list and the indices of the
arrays as the code does; a result of `none` is a read of memory that is not there.
-/

namespace QuantTrading

/-- `MAX_SUBSCRIPTIONS` of `session_manager.c`. -/
def maxSubscriptions : Nat := 100

/-- A value of `time(NULL)`. -/
structure ClockTime where
  seconds : Int
  lower : -2 ^ 50 < seconds
  upper : seconds < 2 ^ 50
deriving DecidableEq

/-- The value of an `int64_t`. -/
def int64 (value : Int) : Int :=
  value.bmod (2 ^ 64)

/-- `SessionConfig`, without the interval that nothing reads. -/
structure SessionConfig where
  maxSessions : Int
  sessionTimeoutMs : Int

/-- `ClientSession`, without the pointer to the next one. -/
structure ClientSession (Client : Type) where
  client : Client
  subscribedSymbols : List (Option CString)
  subscriptionCount : Nat
  lastPingTime : ClockTime
deriving DecidableEq

variable {Client : Type}

namespace ClientSession

/-- A session as `session_manager_add_client` fills it in; the array comes from `calloc`. -/
def create (client : Client) (now : ClockTime) : ClientSession Client where
  client := client
  subscribedSymbols := List.replicate maxSubscriptions none
  subscriptionCount := 0
  lastPingTime := now

/-- Compare `remaining` subscriptions with a symbol, from index `i` on. -/
def findSymbolFrom (session : ClientSession Client) (symbol : CString) :
    Nat → Nat → Option (Option Nat)
  | 0, _ => some none
  | remaining + 1, i =>
      match session.subscribedSymbols[i]? with
      | some (some subscribed) =>
          if subscribed = symbol then some (some i)
          else session.findSymbolFrom symbol remaining (i + 1)
      | _ => none

/-- The loop over the subscriptions that the functions share. -/
def findSymbol (session : ClientSession Client) (symbol : CString) : Option (Option Nat) :=
  session.findSymbolFrom symbol session.subscriptionCount 0

/-- `subscribed_symbols[subscription_count++] = symbol_copy`. -/
def append (session : ClientSession Client) (symbol : CString) : ClientSession Client :=
  { session with
    subscribedSymbols := session.subscribedSymbols.set session.subscriptionCount (some symbol)
    subscriptionCount := session.subscriptionCount + 1 }

/-- `subscription_count--`, with the array after the symbols were moved down. -/
def shrink (session : ClientSession Client) (symbols : List (Option CString)) :
    ClientSession Client :=
  { session with
    subscribedSymbols := symbols
    subscriptionCount := session.subscriptionCount - 1 }

end ClientSession

/-- Move `remaining` symbols of an array down by one, from index `j` on. -/
def moveDown : Nat → Nat → List (Option CString) → Option (List (Option CString))
  | 0, _, symbols => some symbols
  | remaining + 1, j, symbols =>
      match symbols[j + 1]? with
      | none => none
      | some symbol => moveDown remaining (j + 1) (symbols.set j symbol)

/-- `SessionManager`. -/
structure SessionManager (Client : Type) where
  memory : LinkedList.Memory (ClientSession Client)
  sessions : Option Nat
  sessionCount : Int
  maxSessions : Int
  sessionTimeoutMs : Int

/-- A call that changes the sessions, with the clock values it reads. -/
inductive SessionCall (Client : Type) where
  | addClient (client : Client) (now : ClockTime) : SessionCall Client
  | removeClient (client : Client) : SessionCall Client
  | subscribeSymbol (client : Client) (symbol : CString) : SessionCall Client
  | unsubscribeSymbol (client : Client) (symbol : CString) : SessionCall Client
  | pingClients (clock : Nat → ClockTime) : SessionCall Client
  | cleanupSessions (now : ClockTime) : SessionCall Client

namespace SessionManager

/-- `session_manager_create`. -/
def create (config : SessionConfig) : SessionManager Client where
  memory := .empty
  sessions := none
  sessionCount := 0
  maxSessions := config.maxSessions
  sessionTimeoutMs := config.sessionTimeoutMs

section Calls

variable [DecidableEq Client] (manager : SessionManager Client)

/-- `find_session`. -/
def findSession (client : Client) : Option (Option (Nat × ClientSession Client)) :=
  LinkedList.search (fun session => session.client = client) manager.memory manager.memory.size
    manager.sessions

/-- `session_manager_add_client`; the clock is read behind the two checks. -/
def addClient (client : Client) (now : ClockTime) : Option (Int × SessionManager Client) :=
  if manager.maxSessions ≤ manager.sessionCount then some (-1, manager)
  else
    match manager.findSession client with
    | none => none
    | some (some _) => some (-1, manager)
    | some none =>
        some (0, { manager with
          memory := manager.memory.alloc ⟨ClientSession.create client now, manager.sessions⟩
          sessions := some manager.memory.size
          sessionCount := manager.sessionCount + 1 })

/-- `session_manager_remove_client`. -/
def removeClient (client : Client) : Option (Int × SessionManager Client) :=
  match LinkedList.unlinkFirst (fun session => session.client = client) manager.memory
      manager.sessions manager.memory.size none manager.sessions with
  | none => none
  | some (false, _, _) => some (-1, manager)
  | some (true, memory, sessions) =>
      some (0, { manager with
        memory := memory
        sessions := sessions
        sessionCount := manager.sessionCount - 1 })

/-- Write a session through the pointer that `find_session` returned. -/
def store (address : Nat) (session : ClientSession Client) : Option (SessionManager Client) :=
  match manager.memory.cells address with
  | none => none
  | some cell =>
      some { manager with memory := manager.memory.write address { cell with value := session } }

/-- `session_manager_subscribe_symbol`. -/
def subscribeSymbol (client : Client) (symbol : CString) : Option (Int × SessionManager Client) :=
  match manager.findSession client with
  | none => none
  | some none => some (-1, manager)
  | some (some (address, session)) =>
      if maxSubscriptions ≤ session.subscriptionCount then some (-1, manager)
      else
        match session.findSymbol symbol with
        | none => none
        | some (some _) => some (0, manager)
        | some none => (manager.store address (session.append symbol)).map fun after => (0, after)

/-- `session_manager_unsubscribe_symbol`. -/
def unsubscribeSymbol (client : Client) (symbol : CString) :
    Option (Int × SessionManager Client) :=
  match manager.findSession client with
  | none => none
  | some none => some (-1, manager)
  | some (some (address, session)) =>
      match session.findSymbol symbol with
      | none => none
      | some none => some (-1, manager)
      | some (some i) =>
          match moveDown (session.subscriptionCount - 1 - i) i session.subscribedSymbols with
          | none => none
          | some symbols =>
              (manager.store address (session.shrink symbols)).map fun after => (0, after)

/-- `session_manager_is_subscribed`. -/
def isSubscribed (client : Client) (symbol : CString) : Option Bool :=
  match manager.findSession client with
  | none => none
  | some none => some false
  | some (some (_, session)) => (session.findSymbol symbol).map Option.isSome

omit [DecidableEq Client] in
/-- One round of the loop of `session_manager_get_subscribers`: the clients written so far. -/
def writeSubscriber (symbol : CString) (clients : List Client) (session : ClientSession Client) :
    Option (List Client) :=
  (session.findSymbol symbol).map fun found =>
    if found.isSome then clients ++ [session.client] else clients

/-- `session_manager_get_subscribers`: the return value and the clients written. -/
def getSubscribers (symbol : CString) (maxClients : Int) : Option (Int × List Client) :=
  if maxClients ≤ 0 then some (-1, [])
  else
    (LinkedList.walk (fun clients : List Client => (clients.length : Int) < maxClients)
      (writeSubscriber symbol) manager.memory manager.memory.size manager.sessions []).map
      fun clients => (clients.length, clients)

/-- The condition under which `session_manager_cleanup_sessions` removes a session. -/
def expired (now lastPingTime : ClockTime) : Bool :=
  manager.sessionTimeoutMs < int64 (int64 (now.seconds - lastPingTime.seconds) * 1000)

/-- `session_manager_cleanup_sessions`. -/
def cleanupSessions (now : ClockTime) : Option (SessionManager Client) :=
  (LinkedList.unlinkAll (fun session => manager.expired now session.lastPingTime)
    manager.memory.size manager.memory manager.sessions none manager.sessions).map
    fun after => { manager with
      memory := after.2.1
      sessions := after.2.2
      sessionCount := manager.sessionCount - after.1 }

/-- `session_manager_ping_clients`; the clock is read again for every session. -/
def pingClients (clock : Nat → ClockTime) : Option (SessionManager Client) :=
  (LinkedList.updateAll (fun index session => { session with lastPingTime := clock index })
    manager.memory.size manager.memory manager.sessions 0).map
    fun memory => { manager with memory := memory }

/-- One call; the two functions without a return value count as successful. -/
def step : SessionCall Client → Option (Int × SessionManager Client)
  | .addClient client now => manager.addClient client now
  | .removeClient client => manager.removeClient client
  | .subscribeSymbol client symbol => manager.subscribeSymbol client symbol
  | .unsubscribeSymbol client symbol => manager.unsubscribeSymbol client symbol
  | .pingClients clock => (manager.pingClients clock).map fun after => (0, after)
  | .cleanupSessions now => (manager.cleanupSessions now).map fun after => (0, after)

/-- A sequence of calls. -/
def run : SessionManager Client → List (SessionCall Client) → Option (SessionManager Client)
  | manager, [] => some manager
  | manager, call :: calls =>
      match manager.step call with
      | none => none
      | some (_, after) => run after calls

end Calls

end SessionManager

/-! ## The array of a session -/

namespace ClientSession

variable {session : ClientSession Client}

/-- The filled part of the array `subscribed_symbols`. -/
def symbols (session : ClientSession Client) : List CString :=
  (session.subscribedSymbols.take session.subscriptionCount).reduceOption

/-- The array has its capacity, and symbols as far as it is counted. -/
structure Valid (session : ClientSession Client) : Prop where
  filled : ∃ spare, session.subscribedSymbols = session.symbols.map some ++ spare
  count_eq : session.subscriptionCount = session.symbols.length
  length_eq : session.subscribedSymbols.length = maxSubscriptions

theorem symbols_eq (symbols : List CString) (spare : List (Option CString))
    (harray : session.subscribedSymbols = symbols.map some ++ spare)
    (hcount : session.subscriptionCount = symbols.length) : session.symbols = symbols := by
  have htake : session.subscribedSymbols.take session.subscriptionCount = symbols.map some := by
    rw [harray, hcount, ← List.length_map (f := some), List.take_left]
  rw [ClientSession.symbols, htake, List.reduceOption, List.filterMap_map]
  exact List.filterMap_some

theorem valid_of_eq (symbols : List CString) (spare : List (Option CString))
    (harray : session.subscribedSymbols = symbols.map some ++ spare)
    (hcount : session.subscriptionCount = symbols.length)
    (hlength : session.subscribedSymbols.length = maxSubscriptions) : session.Valid := by
  have hsymbols := symbols_eq symbols spare harray hcount
  refine ⟨⟨spare, ?_⟩, ?_, hlength⟩
  · rw [hsymbols, harray]
  · rw [hsymbols, hcount]

theorem create_valid (client : Client) (now : ClockTime) : (create client now).Valid :=
  valid_of_eq [] (List.replicate maxSubscriptions none) rfl rfl List.length_replicate

theorem findSymbolFrom_eq (symbol : CString) (done rest : List CString)
    {spare : List (Option CString)}
    (harray : session.subscribedSymbols = (done ++ rest).map some ++ spare) :
    session.findSymbolFrom symbol rest.length done.length =
      some ((rest.findIdx? (· = symbol)).map (done.length + ·)) := by
  induction rest generalizing done with
  | nil => rfl
  | cons subscribed rest ih =>
      have hread : session.subscribedSymbols[done.length]? = some (some subscribed) := by
        rw [harray]
        simp
      rw [List.length_cons, findSymbolFrom, hread, List.findIdx?_cons]
      dsimp only
      by_cases hsame : subscribed = symbol
      · simp [hsame]
      · rw [List.append_cons] at harray
        have hnext := ih _ harray
        rw [List.length_append, List.length_singleton] at hnext
        rw [if_neg hsame, hnext]
        simp [hsame, Option.map_map, Function.comp_def, Nat.add_assoc, Nat.add_comm 1]

/-- The loop over the subscriptions finds the first index of the symbol. -/
theorem Valid.findSymbol_eq (hvalid : session.Valid) (symbol : CString) :
    session.findSymbol symbol = some (session.symbols.findIdx? (· = symbol)) := by
  obtain ⟨spare, harray⟩ := hvalid.filled
  have hloop := findSymbolFrom_eq symbol [] session.symbols harray
  rw [findSymbol, hvalid.count_eq]
  simpa using hloop

theorem Valid.findSymbol_of_not_mem (hvalid : session.Valid) {symbol : CString}
    (hnot : symbol ∉ session.symbols) : session.findSymbol symbol = some none := by
  rw [hvalid.findSymbol_eq, List.findIdx?_eq_none_iff.mpr]
  intro subscribed hmem
  exact decide_eq_false (ne_of_mem_of_not_mem hmem hnot)

theorem Valid.findSymbol_of_mem (hvalid : session.Valid) {symbol : CString}
    (hmem : symbol ∈ session.symbols) :
    ∃ i, session.symbols.findIdx? (· = symbol) = some i ∧
      session.findSymbol symbol = some (some i) := by
  have hsome : (session.symbols.findIdx? (· = symbol)).isSome := by
    rw [List.findIdx?_isSome, List.any_eq_true]
    exact ⟨symbol, hmem, decide_eq_true rfl⟩
  obtain ⟨i, hindex⟩ := Option.isSome_iff_exists.mp hsome
  refine ⟨i, hindex, ?_⟩
  rw [hvalid.findSymbol_eq, hindex]

/-- The loop ends at an index exactly for the symbols that are subscribed. -/
theorem Valid.isSome_findSymbol (hvalid : session.Valid) (symbol : CString) :
    (session.findSymbol symbol).map Option.isSome = some (decide (symbol ∈ session.symbols)) := by
  by_cases hmem : symbol ∈ session.symbols
  · obtain ⟨i, _, hfound⟩ := hvalid.findSymbol_of_mem hmem
    rw [hfound, decide_eq_true hmem]
    rfl
  · rw [hvalid.findSymbol_of_not_mem hmem, decide_eq_false hmem]
    rfl

/-- A symbol behind the others. -/
theorem Valid.append (hvalid : session.Valid) (symbol : CString)
    (hroom : session.subscriptionCount < maxSubscriptions) :
    (session.append symbol).Valid ∧
      (session.append symbol).symbols = session.symbols ++ [symbol] := by
  obtain ⟨spare, harray⟩ := hvalid.filled
  have hlength : (session.append symbol).subscribedSymbols.length = maxSubscriptions :=
    (List.length_set ..).trans hvalid.length_eq
  cases spare with
  | nil =>
      -- a full array has no room
      have hfull := congrArg List.length harray
      rw [List.append_nil, List.length_map, ← hvalid.count_eq, hvalid.length_eq] at hfull
      exact absurd hfull hroom.ne'
  | cons free spare =>
      have hset : (session.append symbol).subscribedSymbols =
          (session.symbols ++ [symbol]).map some ++ spare := by
        rw [ClientSession.append, harray, hvalid.count_eq, ← List.length_map (f := some),
          List.set_append_right _ _ le_rfl]
        simp
      have hcount : (session.append symbol).subscriptionCount =
          (session.symbols ++ [symbol]).length := by
        rw [List.length_append, List.length_singleton, ← hvalid.count_eq]
        rfl
      exact ⟨valid_of_eq _ spare hset hcount hlength, symbols_eq _ spare hset hcount⟩

end ClientSession

/-- Moving the symbols behind an entry down overwrites the entry and leaves one entry more
behind them. -/
theorem moveDown_eq (entry : Option CString) (done rest spare : List (Option CString)) :
    ∃ left, moveDown rest.length done.length (done ++ entry :: rest ++ spare) =
      some (done ++ rest ++ left) ∧ left.length = spare.length + 1 := by
  induction rest generalizing entry done with
  | nil =>
      refine ⟨entry :: spare, ?_, rfl⟩
      simp [moveDown]
  | cons next rest ih =>
      obtain ⟨left, hloop, hleft⟩ := ih next (done ++ [next])
      refine ⟨left, ?_, hleft⟩
      have hread : (done ++ entry :: (next :: rest) ++ spare)[done.length + 1]? = some next := by
        simp
      have hwrite : (done ++ entry :: (next :: rest) ++ spare).set done.length next =
          done ++ [next] ++ next :: rest ++ spare := by
        simp
      rw [List.length_cons, moveDown, hread]
      dsimp only
      rw [hwrite]
      simpa using hloop

namespace ClientSession

variable {session : ClientSession Client}

/-- Unsubscribing takes the symbol out and keeps the others in order. -/
theorem Valid.shrink (hvalid : session.Valid) {symbol : CString}
    (hmem : symbol ∈ session.symbols) {i : Nat}
    (hfound : session.symbols.findIdx? (· = symbol) = some i) :
    ∃ symbols, moveDown (session.subscriptionCount - 1 - i) i session.subscribedSymbols =
        some symbols ∧
      (session.shrink symbols).Valid ∧
      (session.shrink symbols).symbols = session.symbols.erase symbol := by
  obtain ⟨spare, harray⟩ := hvalid.filled
  obtain ⟨done, rest, hnot, hsplit, herase⟩ := List.exists_erase_eq hmem
  have hi : done.length = i := by
    have hnone : done.findIdx? (· = symbol) = none := by
      rw [List.findIdx?_eq_none_iff]
      intro other hother
      exact decide_eq_false (ne_of_mem_of_not_mem hother hnot)
    rw [hsplit, List.findIdx?_append, hnone, List.findIdx?_cons] at hfound
    simpa using hfound
  have hcount := hvalid.count_eq
  rw [hsplit, List.length_append, List.length_cons] at hcount
  have hremaining : session.subscriptionCount - 1 - i = rest.length := by omega
  obtain ⟨left, hmoved, hleft⟩ :=
    moveDown_eq (some symbol) (done.map some) (rest.map some) spare
  have hbefore : done.map some ++ some symbol :: rest.map some ++ spare =
      session.subscribedSymbols := by
    rw [harray, hsplit]
    simp
  rw [← List.map_append, ← herase, List.length_map, List.length_map] at hmoved
  have hlength : ((session.symbols.erase symbol).map some ++ left).length = maxSubscriptions := by
    have hcapacity := congrArg List.length hbefore
    rw [hvalid.length_eq] at hcapacity
    rw [herase]
    simp only [List.length_append, List.length_cons, List.length_map] at hcapacity ⊢
    omega
  have hshrunk : session.subscriptionCount - 1 = (session.symbols.erase symbol).length := by
    rw [List.length_erase_of_mem hmem, hvalid.count_eq]
  refine ⟨_, ?_, valid_of_eq _ left rfl hshrunk hlength, symbols_eq _ left rfl hshrunk⟩
  rw [hremaining, ← hi, ← hbefore]
  exact hmoved

end ClientSession

end QuantTrading
