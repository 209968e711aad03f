import QuantTrading.Client.MarketMonitor
import QuantTrading.Server.SessionRefinement

/-! # Repeated subscriptions

`session_manager_subscribe_symbol` and `market_monitor_subscribe` look whether there is room
before they look whether the symbol is there already. In a full session and in a full monitor
a subscription that succeeded before fails when it is repeated.
-/

namespace QuantTrading

open LinkedList (Holds)

variable {Client : Type} {config : SessionConfig}

/-- A session in which a subscription can be repeated: it has room, or the symbol is new and does
not take the last place. -/
def ClientSession.LeavesRoom (session : ClientSession Client) (symbol : CString) : Prop :=
  (symbol ∈ session.symbols → session.subscriptionCount < maxSubscriptions) ∧
    (symbol ∉ session.symbols → session.subscriptionCount + 1 ≠ maxSubscriptions)

namespace SessionManager

variable [DecidableEq Client]

/-- A subscription to a symbol that the client has changes nothing, and one that succeeded can
be repeated. -/
def SubscribeIdempotent (manager : SessionManager Client) (client : Client) (symbol : CString) :
    Prop :=
  Transition.Idempotent
    (fun manager : SessionManager Client => manager.subscribeSymbol client symbol) 0
    (manager.isSubscribed client symbol = some true) manager

/-- The session of the client, if it has one, has room for repetitions. -/
def LeavesRoom (manager : SessionManager Client) (client : Client) (symbol : CString) : Prop :=
  ∀ address session, manager.findSession client = some (some (address, session)) →
    session.LeavesRoom symbol

section Found

variable {manager : SessionManager Client} {client : Client} {address : Nat}
  {session : ClientSession Client}
  (hfound : manager.findSession client = some (some (address, session)))
include hfound

theorem subscribeSymbol_of_full (hfull : maxSubscriptions ≤ session.subscriptionCount)
    (symbol : CString) : manager.subscribeSymbol client symbol = some (-1, manager) := by
  rw [subscribeSymbol, hfound]
  exact if_pos hfull

theorem subscribeSymbol_of_mem (hvalid : session.Valid)
    (hroom : session.subscriptionCount < maxSubscriptions) {symbol : CString}
    (hmem : symbol ∈ session.symbols) :
    manager.subscribeSymbol client symbol = some (0, manager) := by
  obtain ⟨_, _, hindex⟩ := hvalid.findSymbol_of_mem hmem
  rw [subscribeSymbol, hfound]
  dsimp only
  rw [if_neg (not_le.mpr hroom), hindex]

theorem isSubscribed_iff_mem (hvalid : session.Valid) (symbol : CString) :
    manager.isSubscribed client symbol = some true ↔ symbol ∈ session.symbols := by
  rw [isSubscribed, hfound]
  dsimp only
  rw [hvalid.isSome_findSymbol]
  simp

end Found

/-- A session that is written through its pointer is the one that is found afterwards. -/
theorem Located.store_findSession {manager : SessionManager Client}
    {table : SessionTable Client config} {client : Client}
    {done rest : List (Nat × ClientSession Client)} {node : Nat × ClientSession Client}
    (hlocated : manager.Located table client done node rest) (session : ClientSession Client)
    (hclient : session.client = client) :
    ∃ after, manager.store node.1 session = some after ∧
      after.findSession client = some (some (node.1, session)) := by
  refine ⟨{ manager with memory := manager.memory.write node.1 ⟨session, LinkedList.first rest⟩ },
    ?_, ?_⟩
  · rw [SessionManager.store, hlocated.holds.cells_eq]
  · have hholds := hlocated.holds.write session
    have hdone : done.find? (fun other => decide (other.2.client = client)) = none := by
      rw [List.find?_eq_none]
      intro other hother hsame
      exact hlocated.others other (List.mem_append_left _ hother) (of_decide_eq_true hsame)
    rw [findSession, hholds.search, List.find?_append, hdone, List.find?_cons_of_pos]
    · rfl
    · exact decide_eq_true hclient

/-- Subscribing to a symbol that the session does not have writes it behind the others. -/
theorem Located.subscribe_new {manager : SessionManager Client}
    {table : SessionTable Client config} {client : Client}
    {done rest : List (Nat × ClientSession Client)} {node : Nat × ClientSession Client}
    (hlocated : manager.Located table client done node rest) {symbol : CString}
    (hnot : symbol ∉ node.2.symbols) (hroom : node.2.subscriptionCount < maxSubscriptions) :
    ∃ after, manager.subscribeSymbol client symbol = some (0, after) ∧
      after.findSession client = some (some (node.1, node.2.append symbol)) := by
  have hvalid := hlocated.valid node (by simp)
  obtain ⟨after, hstore, hfound⟩ :=
    hlocated.store_findSession (node.2.append symbol) hlocated.client_eq
  refine ⟨after, ?_, hfound⟩
  rw [subscribeSymbol, hlocated.found]
  dsimp only
  rw [if_neg (not_le.mpr hroom), hvalid.findSymbol_of_not_mem hnot]
  dsimp only
  rw [hstore]
  rfl

theorem Located.subscribeIdempotent_iff {manager : SessionManager Client}
    {table : SessionTable Client config} {client : Client}
    {done rest : List (Nat × ClientSession Client)} {node : Nat × ClientSession Client}
    (hlocated : manager.Located table client done node rest) (symbol : CString) :
    manager.SubscribeIdempotent client symbol ↔ node.2.LeavesRoom symbol := by
  have hvalid := hlocated.valid node (by simp)
  have hsubscribed := isSubscribed_iff_mem hlocated.found hvalid symbol
  rcases lt_or_ge node.2.subscriptionCount maxSubscriptions with hroom | hfull
  · by_cases hmem : symbol ∈ node.2.symbols
    · have hsame := subscribeSymbol_of_mem hlocated.found hvalid hroom hmem
      exact iff_of_true (Transition.idempotent_of_unchanged hsame)
        ⟨fun _ => hroom, fun hnot => absurd hmem hnot⟩
    · obtain ⟨hvalid', hsymbols⟩ := hvalid.append symbol hroom
      obtain ⟨after, hafter, hfound⟩ := hlocated.subscribe_new hmem hroom
      have hmem' : symbol ∈ (node.2.append symbol).symbols := by
        rw [hsymbols]
        exact List.mem_append_right _ (List.mem_singleton_self symbol)
      have honce : manager.SubscribeIdempotent client symbol ↔
          after.subscribeSymbol client symbol = some (0, after) :=
        Transition.idempotent_iff_again (mt hsubscribed.mp hmem) hafter
      rw [honce]
      constructor
      · refine fun hagain => ⟨fun hpresent => absurd hpresent hmem, fun _ hlast => ?_⟩
        rw [subscribeSymbol_of_full hfound hlast.ge] at hagain
        exact absurd (congrArg Prod.fst (Option.some.inj hagain)) (by decide : (-1 : Int) ≠ 0)
      · intro hleaves
        have hlast := hleaves.2 hmem
        exact subscribeSymbol_of_mem hfound hvalid' (lt_of_le_of_ne hroom hlast) hmem'
  · -- a full session refuses every symbol
    have hrefused := subscribeSymbol_of_full hlocated.found hfull symbol
    have hnever : ∀ after, manager.subscribeSymbol client symbol ≠ some (0, after) := by
      intro after
      rw [hrefused]
      simp
    have hcalls : manager.SubscribeIdempotent client symbol ↔ symbol ∉ node.2.symbols :=
      (Transition.idempotent_iff_of_failed hnever).trans (not_congr hsubscribed)
    rw [hcalls]
    constructor
    · exact fun hnot => ⟨fun hmem => absurd hmem hnot, fun _ => by omega⟩
    · exact fun hleaves hmem => absurd (hleaves.1 hmem) (not_lt.mpr hfull)

/-- Nothing happens to a client without a session. -/
theorem subscribeIdempotent_of_no_session {manager : SessionManager Client} {client : Client}
    (hnone : manager.findSession client = some none) (symbol : CString) :
    manager.SubscribeIdempotent client symbol := by
  constructor
  · intro hpresent
    rw [isSubscribed, hnone] at hpresent
    cases hpresent
  · intro after hafter
    rw [subscribeSymbol, hnone] at hafter
    cases hafter

theorem Represents.subscribeIdempotent_iff {manager : SessionManager Client}
    {table : SessionTable Client config} (hrepresents : manager.Represents table)
    (client : Client) (symbol : CString) :
    manager.SubscribeIdempotent client symbol ↔ manager.LeavesRoom client symbol := by
  unfold LeavesRoom
  by_cases hmem : client ∈ table.clients
  · obtain ⟨done, node, rest, hlocated⟩ := hrepresents.exists_located hmem
    rw [hlocated.subscribeIdempotent_iff]
    constructor
    · intro hroom address session hfound
      rw [hlocated.found] at hfound
      cases hfound
      exact hroom
    · exact fun hall => hall node.1 node.2 hlocated.found
  · have hnone := hrepresents.findSession_of_not_mem hmem
    refine iff_of_true (subscribeIdempotent_of_no_session hnone symbol) ?_
    intro address session hfound
    rw [hnone] at hfound
    cases hfound

/-- A manager with room for no session stays as it was created. -/
theorem run_of_no_room (hmax : config.maxSessions < 0) (calls : List (SessionCall Client)) :
    (create config : SessionManager Client).run calls = some (create config) := by
  induction calls with
  | nil => rfl
  | cons call calls ih =>
      have hstep : ∃ code, (create config : SessionManager Client).step call =
          some (code, create config) := by
        cases call with
        | addClient client now => exact ⟨-1, if_pos hmax.le⟩
        | removeClient client => exact ⟨-1, rfl⟩
        | subscribeSymbol client symbol => exact ⟨-1, rfl⟩
        | unsubscribeSymbol client symbol => exact ⟨-1, rfl⟩
        | pingClients clock => exact ⟨0, rfl⟩
        | cleanupSessions now => exact ⟨0, rfl⟩
      obtain ⟨code, hstep⟩ := hstep
      rw [run, hstep]
      exact ih

/-- In every state that calls lead to, subscribing is idempotent exactly when it leaves room. -/
theorem run_subscribeIdempotent_iff (config : SessionConfig) (calls : List (SessionCall Client)) :
    ∃ manager, (create config).run calls = some manager ∧ ∀ client symbol,
      manager.SubscribeIdempotent client symbol ↔ manager.LeavesRoom client symbol := by
  rcases lt_or_ge config.maxSessions 0 with hnegative | hmax
  · refine ⟨create config, run_of_no_room hnegative calls, fun client symbol => ?_⟩
    have hnone : (create config : SessionManager Client).findSession client = some none := rfl
    refine iff_of_true (subscribeIdempotent_of_no_session hnone symbol) ?_
    intro address session hfound
    rw [hnone] at hfound
    cases hfound
  · obtain ⟨manager, hrun, hrepresents⟩ := (create_represents hmax).run calls
    exact ⟨manager, hrun, hrepresents.subscribeIdempotent_iff⟩

end SessionManager

/-- Subscribing is idempotent in a session manager, in every state that calls lead to, and in a
market monitor if and only if it leaves room behind: the symbol with those that are there already
are not as many as the session or the monitor holds, and the monitor stores it as it is. -/
theorem subscribing_idempotent_iff [DecidableEq Client] (config : SessionConfig)
    (calls : List (SessionCall Client)) :
    ∃ manager, (SessionManager.create config).run calls = some manager ∧
      (∀ client symbol,
        manager.SubscribeIdempotent client symbol ↔ manager.LeavesRoom client symbol) ∧
      ∀ {α : Type} (monitor : MarketMonitor α) symbol,
        monitor.SubscribeIdempotent symbol ↔ monitor.LeavesRoom symbol := by
  obtain ⟨manager, hrun, hiff⟩ := SessionManager.run_subscribeIdempotent_iff config calls
  exact ⟨manager, hrun, hiff, fun monitor symbol => monitor.subscribeIdempotent_iff symbol⟩

/-- A monitor for one symbol refuses to be told again that it watches `AAPL`. -/
theorem monitor_refuses_repeated :
    let after := ((MarketMonitor.create 1 : MarketMonitor ℚ).subscribe "AAPL".toList).2
    (after.subscribe "AAPL".toList).1 = -1 ∧ "AAPL".toList ∈ after.names ∧
      ¬ after.SubscribeIdempotent "AAPL".toList := by
  intro after
  have hcode : (after.subscribe "AAPL".toList).1 = -1 := rfl
  have hmem : "AAPL".toList ∈ after.names := List.mem_singleton_self _
  refine ⟨hcode, hmem, fun hidempotent => ?_⟩
  have hunchanged := congrArg Prod.fst (Option.some.inj (hidempotent.unchanged hmem))
  rw [hcode] at hunchanged
  exact absurd hunchanged (by decide)

end QuantTrading
