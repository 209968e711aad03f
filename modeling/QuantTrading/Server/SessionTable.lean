import QuantTrading.Foundation.Transition
import QuantTrading.Server.SessionManager

/-! # Tables of subscribers

What the session manager is for: a finite map from the clients that are present to their
subscription lists. A table keeps its entries in the order in which the clients came, the
newest first, and remembers when each of them was last pinged.
-/

namespace QuantTrading

variable {Client : Type}

/-- A client, its subscriptions and its last ping. -/
structure Subscriber (Client : Type) where
  client : Client
  symbols : List CString
  lastPing : ClockTime
deriving DecidableEq

namespace Subscriber

/-- Subscribe to a symbol, unless it is subscribed already or there is no room. -/
def subscribe (symbol : CString) (subscriber : Subscriber Client) : Subscriber Client :=
  if symbol ∈ subscriber.symbols ∨ maxSubscriptions ≤ subscriber.symbols.length then subscriber
  else { subscriber with symbols := subscriber.symbols ++ [symbol] }

/-- Give up a symbol; the others keep their order. -/
def unsubscribe (symbol : CString) (subscriber : Subscriber Client) : Subscriber Client :=
  { subscriber with symbols := subscriber.symbols.erase symbol }

/-- Subscriptions that a session can hold. -/
structure Bounded (subscriber : Subscriber Client) : Prop where
  nodup : subscriber.symbols.Nodup
  length_le : subscriber.symbols.length ≤ maxSubscriptions

theorem subscribe_client (symbol : CString) (subscriber : Subscriber Client) :
    (subscriber.subscribe symbol).client = subscriber.client := by
  unfold subscribe
  split_ifs <;> rfl

theorem Bounded.subscribe {subscriber : Subscriber Client} (hbounded : subscriber.Bounded)
    (symbol : CString) : (subscriber.subscribe symbol).Bounded := by
  unfold Subscriber.subscribe
  split_ifs with hkeep
  · exact hbounded
  · rw [not_or, not_le] at hkeep
    refine ⟨List.concat_eq_append ▸ hbounded.nodup.concat hkeep.1, ?_⟩
    rw [List.length_append, List.length_singleton]
    exact hkeep.2

theorem Bounded.unsubscribe {subscriber : Subscriber Client} (hbounded : subscriber.Bounded)
    (symbol : CString) : (subscriber.unsubscribe symbol).Bounded :=
  ⟨hbounded.nodup.erase symbol, (List.length_erase_le ..).trans hbounded.length_le⟩

end Subscriber

/-- The clients of a session manager, with what they are subscribed to. -/
structure SessionTable (Client : Type) (config : SessionConfig) where
  subscribers : List (Subscriber Client)
  clients_nodup : (subscribers.map Subscriber.client).Nodup
  length_le : (subscribers.length : Int) ≤ config.maxSessions
  bounded : ∀ subscriber ∈ subscribers, subscriber.Bounded

namespace SessionTable

variable {config : SessionConfig} (table : SessionTable Client config)

/-- A table without clients. -/
def empty (hmax : 0 ≤ config.maxSessions) : SessionTable Client config where
  subscribers := []
  clients_nodup := List.nodup_nil
  length_le := hmax
  bounded := fun _ hmem => absurd hmem List.not_mem_nil

/-- The clients that are present. -/
def clients : List Client :=
  table.subscribers.map Subscriber.client

/-- The finite map: the subscription list of a client. -/
def subscriptions [DecidableEq Client] (client : Client) : Option (List CString) :=
  (table.subscribers.find? fun subscriber => subscriber.client = client).map Subscriber.symbols

/-- The first clients that are subscribed to a symbol, at most `limit` of them. -/
def subscribed (symbol : CString) (limit : Nat) : List Client :=
  ((table.subscribers.filter fun subscriber => symbol ∈ subscriber.symbols).map
    Subscriber.client).take limit

theorem subscribed_nodup (symbol : CString) (limit : Nat) :
    (table.subscribed symbol limit).Nodup :=
  table.clients_nodup.sublist ((List.take_sublist ..).trans (List.filter_sublist.map _))

/-- Keep some of the entries. -/
def keep (test : Subscriber Client → Bool) : SessionTable Client config where
  subscribers := table.subscribers.filter test
  clients_nodup := table.clients_nodup.sublist (List.filter_sublist.map _)
  length_le := Int.le_trans (Int.ofNat_le.mpr (List.length_filter_le ..)) table.length_le
  bounded := fun subscriber hmem => table.bounded subscriber (List.mem_of_mem_filter hmem)

/-- Change the entries, but not their clients. -/
def change (subscribers : List (Subscriber Client))
    (hclients : subscribers.map Subscriber.client = table.clients)
    (hbounded : ∀ subscriber ∈ subscribers, subscriber.Bounded) : SessionTable Client config where
  subscribers := subscribers
  clients_nodup := hclients ▸ table.clients_nodup
  length_le := by
    have hlength := congrArg List.length hclients
    rw [clients, List.length_map, List.length_map] at hlength
    exact hlength ▸ table.length_le
  bounded := hbounded

variable [DecidableEq Client]

/-- The entries after a change of one client's entry. -/
def updated (client : Client) (update : Subscriber Client → Subscriber Client) :
    List (Subscriber Client) :=
  table.subscribers.map fun subscriber =>
    if subscriber.client = client then update subscriber else subscriber

/-- Change the entry of one client. -/
def update (client : Client) (update : Subscriber Client → Subscriber Client)
    (hclient : ∀ subscriber, (update subscriber).client = subscriber.client)
    (hbounded : ∀ subscriber, subscriber.Bounded → (update subscriber).Bounded) :
    SessionTable Client config :=
  table.change (table.updated client update)
    (by
      rw [updated, List.map_map, clients]
      apply List.map_congr_left
      intro subscriber _
      rw [Function.comp_apply]
      split_ifs
      · exact hclient subscriber
      · rfl)
    (by
      intro subscriber hmem
      obtain ⟨before, hbefore, rfl⟩ := List.mem_map.mp hmem
      split_ifs
      · exact hbounded before (table.bounded before hbefore)
      · exact table.bounded before hbefore)

@[simp] theorem update_subscribers (client : Client)
    (update : Subscriber Client → Subscriber Client)
    (hclient : ∀ subscriber, (update subscriber).client = subscriber.client)
    (hbounded : ∀ subscriber, subscriber.Bounded → (update subscriber).Bounded) :
    (table.update client update hclient hbounded).subscribers =
      table.updated client update := rfl

/-- Add a client without subscriptions, when there is room and it is not present. -/
def addClient (client : Client) (now : ClockTime) : Int × SessionTable Client config :=
  if hrefused : client ∈ table.clients ∨ config.maxSessions ≤ table.subscribers.length then
    (-1, table)
  else
    (0, {
      subscribers := ⟨client, [], now⟩ :: table.subscribers
      clients_nodup := List.nodup_cons.mpr ⟨fun hmem => hrefused (Or.inl hmem),
        table.clients_nodup⟩
      length_le := by
        have hroom := Int.not_le.mp fun hfull => hrefused (Or.inr hfull)
        exact hroom
      bounded := by
        intro subscriber hmem
        rcases List.mem_cons.mp hmem with rfl | hold
        · exact ⟨List.nodup_nil, Nat.zero_le _⟩
        · exact table.bounded subscriber hold })

/-- Adding fails for a client that is present and in a table that is full. -/
theorem addClient_fails_iff (client : Client) (now : ClockTime) :
    (table.addClient client now).1 ≠ 0 ↔
      client ∈ table.clients ∨ (table.subscribers.length : Int) = config.maxSessions := by
  have hfull : config.maxSessions ≤ table.subscribers.length ↔
      (table.subscribers.length : Int) = config.maxSessions :=
    ⟨fun hle => Int.le_antisymm table.length_le hle, Int.le_of_eq ∘ Eq.symm⟩
  unfold addClient
  split_ifs with hrefused
  · exact iff_of_true (by simp) (hrefused.imp_right hfull.mp)
  · exact iff_of_false (fun hne => hne rfl) fun hor => hrefused (hor.imp_right hfull.mpr)

/-- Remove a client. -/
def removeClient (client : Client) : Int × SessionTable Client config :=
  (if client ∈ table.clients then 0 else -1,
    table.keep fun subscriber => subscriber.client ≠ client)

/-- Subscribe a client to a symbol. -/
def subscribeSymbol (client : Client) (symbol : CString) : Int × SessionTable Client config :=
  (match table.subscriptions client with
    | none => -1
    | some symbols => if maxSubscriptions ≤ symbols.length then -1 else 0,
    table.update client (Subscriber.subscribe symbol) (Subscriber.subscribe_client symbol)
      fun _ hbounded => hbounded.subscribe symbol)

/-- Unsubscribe a client from a symbol. -/
def unsubscribeSymbol (client : Client) (symbol : CString) : Int × SessionTable Client config :=
  (match table.subscriptions client with
    | none => -1
    | some symbols => if symbol ∈ symbols then 0 else -1,
    table.update client (Subscriber.unsubscribe symbol) (fun _ => rfl)
      fun _ hbounded => hbounded.unsubscribe symbol)

omit [DecidableEq Client] in
/-- Note a ping of every client. -/
def pingClients (clock : Nat → ClockTime) : SessionTable Client config :=
  table.change
    (table.subscribers.mapIdx fun index subscriber => { subscriber with lastPing := clock index })
    (by
      apply List.ext_getElem?
      intro index
      rw [clients, List.getElem?_map, List.getElem?_map, List.getElem?_mapIdx, Option.map_map]
      rfl)
    (by
      intro subscriber hmem
      obtain ⟨index, hlt, rfl⟩ := List.mem_mapIdx.mp hmem
      exact ⟨(table.bounded _ (List.getElem_mem hlt)).nodup,
        (table.bounded _ (List.getElem_mem hlt)).length_le⟩)

omit [DecidableEq Client] in
@[simp] theorem pingClients_subscribers (clock : Nat → ClockTime) :
    (table.pingClients clock).subscribers =
      table.subscribers.mapIdx fun index subscriber =>
        { subscriber with lastPing := clock index } := rfl

omit [DecidableEq Client] in
/-- Drop the clients that were last pinged too long ago. -/
def cleanupSessions (now : ClockTime) : SessionTable Client config :=
  table.keep fun subscriber =>
    (now.seconds - subscriber.lastPing.seconds) * 1000 ≤ config.sessionTimeoutMs

/-- One call; the two functions without a return value count as successful. -/
def step : SessionCall Client → Int × SessionTable Client config
  | .addClient client now => table.addClient client now
  | .removeClient client => table.removeClient client
  | .subscribeSymbol client symbol => table.subscribeSymbol client symbol
  | .unsubscribeSymbol client symbol => table.unsubscribeSymbol client symbol
  | .pingClients clock => (0, table.pingClients clock)
  | .cleanupSessions now => (0, table.cleanupSessions now)

/-- A sequence of calls. -/
def run (table : SessionTable Client config) (calls : List (SessionCall Client)) :
    SessionTable Client config :=
  Transition.run (fun table call => (table.step call).2) table calls

end SessionTable

end QuantTrading
