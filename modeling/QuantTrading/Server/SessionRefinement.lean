import QuantTrading.Server.SessionTable

/-! # The session manager keeps a table of subscribers

The linked list, the counter and the arrays of a manager represent a table. Every call
returns what the table says and leaves a manager that represents the table after the call.
-/

namespace QuantTrading

variable {Client : Type}

/-- What a session stands for. -/
def ClientSession.subscriber (session : ClientSession Client) : Subscriber Client where
  client := session.client
  symbols := session.symbols
  lastPing := session.lastPingTime

theorem ClientSession.Valid.subscribe {session : ClientSession Client} (hvalid : session.Valid)
    {symbol : CString} (hnew : symbol ∉ session.symbols)
    (hroom : session.symbols.length < maxSubscriptions) :
    (session.append symbol).Valid ∧
      (session.append symbol).subscriber = session.subscriber.subscribe symbol := by
  obtain ⟨hafter, hsymbols⟩ := hvalid.append symbol (lt_of_eq_of_lt hvalid.count_eq hroom)
  have hentry : session.subscriber.subscribe symbol =
      { session.subscriber with symbols := session.symbols ++ [symbol] } :=
    if_neg (not_or.mpr ⟨hnew, not_le.mpr hroom⟩)
  refine ⟨hafter, ?_⟩
  rw [hentry, ClientSession.subscriber, hsymbols]
  rfl

/-- At most one entry of a list has a key, when no two have the same. -/
theorem eraseP_eq_filter_of_nodup {β κ : Type} [DecidableEq κ] {key : β → κ} {list : List β}
    (k : κ) (hnodup : (list.map key).Nodup) :
    list.eraseP (fun x => key x = k) = list.filter fun x => key x ≠ k := by
  induction list with
  | nil => rfl
  | cons x rest ih =>
      rw [List.map_cons, List.nodup_cons] at hnodup
      by_cases hx : key x = k
      · -- the rest stays as it is
        have hrest : ∀ y ∈ rest, decide (key y ≠ k) = true := by
          intro y hy
          apply decide_eq_true
          intro hsame
          exact hnodup.1 (List.mem_map.mpr ⟨y, hy, hsame.trans hx.symm⟩)
        simp only [List.eraseP_cons, List.filter_cons, hx, ne_eq, not_true, decide_true,
          decide_false, cond_true, Bool.false_eq_true, if_false]
        exact (List.filter_eq_self.mpr hrest).symm
      · simp only [List.eraseP_cons, List.filter_cons, hx, ne_eq, not_false_eq_true, decide_true,
          decide_false, cond_false, if_true, ih hnodup.2]

namespace SessionManager

open LinkedList (Holds)

/-- What the cells of a list stand for. -/
def subscribers (nodes : List (Nat × ClientSession Client)) : List (Subscriber Client) :=
  nodes.map fun node => node.2.subscriber

theorem subscribers_append_cons (done rest : List (Nat × ClientSession Client))
    (node : Nat × ClientSession Client) :
    subscribers (done ++ node :: rest) =
      subscribers done ++ node.2.subscriber :: subscribers rest := by
  rw [subscribers, List.map_append, List.map_cons]
  rfl

variable {config : SessionConfig}

/-- The session list holds the entries of the table, and the counter counts them. -/
structure Represents (manager : SessionManager Client) (table : SessionTable Client config) :
    Prop where
  nodes : ∃ nodes, Holds manager.memory manager.sessions nodes ∧
    (∀ node ∈ nodes, node.2.Valid) ∧ subscribers nodes = table.subscribers
  count_eq : manager.sessionCount = table.subscribers.length
  max_eq : manager.maxSessions = config.maxSessions
  timeout_eq : manager.sessionTimeoutMs = config.sessionTimeoutMs

/-- The session of a client, between the sessions of other clients. -/
structure Located [DecidableEq Client] (manager : SessionManager Client)
    (table : SessionTable Client config) (client : Client)
    (done : List (Nat × ClientSession Client)) (node : Nat × ClientSession Client)
    (rest : List (Nat × ClientSession Client)) : Prop where
  found : manager.findSession client = some (some node)
  holds : Holds manager.memory manager.sessions (done ++ node :: rest)
  valid : ∀ other ∈ done ++ node :: rest, other.2.Valid
  subscribers_eq : subscribers (done ++ node :: rest) = table.subscribers
  client_eq : node.2.client = client
  others : ∀ other ∈ done ++ rest, other.2.client ≠ client

theorem clients_eq {nodes : List (Nat × ClientSession Client)}
    {table : SessionTable Client config} (hnodes : subscribers nodes = table.subscribers) :
    nodes.map (fun node => node.2.client) = table.clients := by
  rw [SessionTable.clients, ← hnodes, subscribers, List.map_map]
  rfl

theorem create_represents (hmax : 0 ≤ config.maxSessions) :
    (create config : SessionManager Client).Represents (.empty hmax) :=
  ⟨⟨[], Holds.empty, fun _ hmem => absurd hmem List.not_mem_nil, rfl⟩, rfl, rfl, rfl⟩

namespace Represents

variable {manager : SessionManager Client} {table : SessionTable Client config}

theorem congr (hrepresents : manager.Represents table) {table' : SessionTable Client config}
    (hsame : table'.subscribers = table.subscribers) : manager.Represents table' := by
  obtain ⟨nodes, hholds, hvalid, hnodes⟩ := hrepresents.nodes
  refine ⟨⟨nodes, hholds, hvalid, hnodes.trans hsame.symm⟩, ?_, hrepresents.max_eq,
    hrepresents.timeout_eq⟩
  rw [hsame]
  exact hrepresents.count_eq

section Lookup

variable [DecidableEq Client]

theorem findSession_of_not_mem (hrepresents : manager.Represents table) {client : Client}
    (hnot : client ∉ table.clients) : manager.findSession client = some none := by
  obtain ⟨nodes, hholds, _, hnodes⟩ := hrepresents.nodes
  rw [findSession, hholds.search, List.find?_eq_none.mpr]
  intro node hnode hsame
  apply hnot
  rw [← clients_eq hnodes]
  exact List.mem_map.mpr ⟨node, hnode, of_decide_eq_true hsame⟩

theorem exists_located (hrepresents : manager.Represents table) {client : Client}
    (hmem : client ∈ table.clients) :
    ∃ done node rest, manager.Located table client done node rest := by
  obtain ⟨nodes, hholds, hvalid, hnodes⟩ := hrepresents.nodes
  have hclients := clients_eq hnodes
  have hsome : (nodes.find? fun node => node.2.client = client).isSome := by
    obtain ⟨node, hnode, hsame⟩ := List.mem_map.mp (hclients ▸ hmem)
    exact List.find?_isSome.mpr ⟨node, hnode, decide_eq_true hsame⟩
  obtain ⟨node, hfind⟩ := Option.isSome_iff_exists.mp hsome
  obtain ⟨hsame, done, rest, rfl, _⟩ := List.find?_eq_some_iff_append.mp hfind
  have hclient : node.2.client = client := of_decide_eq_true hsame
  refine ⟨done, node, rest, ?_, hholds, hvalid, hnodes, hclient, ?_⟩
  · rw [findSession, hholds.search, hfind]
  · -- no two entries of the table have the same client
    have hnodup : (table.clients).Nodup := table.clients_nodup
    rw [← hclients, List.map_append, List.map_cons, List.nodup_middle, List.nodup_cons,
      ← List.map_append, hclient] at hnodup
    intro other hother heq
    exact hnodup.1 (List.mem_map.mpr ⟨other, hother, heq⟩)

end Lookup

end Represents

section Entries

variable [DecidableEq Client] {manager : SessionManager Client}
  {table : SessionTable Client config} {client : Client}

theorem subscriptions_of_not_mem (hnot : client ∉ table.clients) :
    table.subscriptions client = none := by
  rw [SessionTable.subscriptions, Option.map_eq_none_iff, List.find?_eq_none]
  intro subscriber hmem hsame
  exact hnot (List.mem_map.mpr ⟨subscriber, hmem, of_decide_eq_true hsame⟩)

theorem updated_of_not_mem (hnot : client ∉ table.clients)
    (update : Subscriber Client → Subscriber Client) :
    table.updated client update = table.subscribers := by
  refine (List.map_congr_left fun subscriber hmem => if_neg fun hsame => ?_).trans
    (List.map_id _)
  exact hnot (List.mem_map.mpr ⟨subscriber, hmem, hsame⟩)

namespace Located

variable {done rest : List (Nat × ClientSession Client)} {node : Nat × ClientSession Client}

theorem subscriptions_eq (hlocated : manager.Located table client done node rest) :
    table.subscriptions client = some node.2.symbols := by
  have hfirst : (done.map fun other => other.2.subscriber).find?
      (fun subscriber => subscriber.client = client) = none := by
    rw [List.find?_map, Option.map_eq_none_iff, List.find?_eq_none]
    intro other hother hsame
    exact hlocated.others other (List.mem_append_left _ hother) (of_decide_eq_true hsame)
  rw [SessionTable.subscriptions, ← hlocated.subscribers_eq, subscribers, List.map_append,
    List.find?_append, hfirst, List.map_cons, List.find?_cons_of_pos]
  · rfl
  · exact decide_eq_true hlocated.client_eq

theorem updated_eq (hlocated : manager.Located table client done node rest)
    (update : Subscriber Client → Subscriber Client) :
    table.updated client update =
      subscribers done ++ update node.2.subscriber :: subscribers rest := by
  have hother : ∀ part : List (Nat × ClientSession Client),
      (∀ other ∈ part, other.2.client ≠ client) →
      (subscribers part).map (fun subscriber =>
        if subscriber.client = client then update subscriber else subscriber) =
        subscribers part := by
    intro part hpart
    rw [subscribers, List.map_map]
    apply List.map_congr_left
    intro other hmem
    exact if_neg (hpart other hmem)
  have hdone := hother done fun other hmem => hlocated.others other (List.mem_append_left _ hmem)
  have hrest := hother rest fun other hmem => hlocated.others other (List.mem_append_right _ hmem)
  have hnode : node.2.subscriber.client = client := hlocated.client_eq
  rw [SessionTable.updated, ← hlocated.subscribers_eq, subscribers, List.map_append,
    List.map_append, List.map_cons, List.map_cons, if_pos hnode]
  exact congrArg₂ (· ++ update node.2.subscriber :: ·) hdone hrest

theorem updated_eq_self (hlocated : manager.Located table client done node rest)
    {update : Subscriber Client → Subscriber Client}
    (hsame : update node.2.subscriber = node.2.subscriber) :
    table.updated client update = table.subscribers := by
  rw [hlocated.updated_eq, hsame, ← hlocated.subscribers_eq, subscribers_append_cons]

/-- Writing a session changes the entry of its client. -/
theorem store (hlocated : manager.Located table client done node rest)
    (hrepresents : manager.Represents table) {session : ClientSession Client}
    (hvalid : session.Valid) {update : Subscriber Client → Subscriber Client}
    (hentry : session.subscriber = update node.2.subscriber)
    (hclient : ∀ subscriber, (update subscriber).client = subscriber.client)
    (hbounded : ∀ subscriber, subscriber.Bounded → (update subscriber).Bounded) :
    ∃ after, manager.store node.1 session = some after ∧
      after.Represents (table.update client update hclient hbounded) := by
  refine ⟨{ manager with memory := manager.memory.write node.1 ⟨session, LinkedList.first rest⟩ },
    ?_, ⟨done ++ (node.1, session) :: rest, hlocated.holds.write session, ?_, ?_⟩, ?_,
    hrepresents.max_eq, hrepresents.timeout_eq⟩
  · rw [SessionManager.store, hlocated.holds.cells_eq]
  · intro other hmem
    rcases List.mem_append.mp hmem with hdone | hfrom
    · exact hlocated.valid other (List.mem_append_left _ hdone)
    · rcases List.mem_cons.mp hfrom with rfl | hrest
      · exact hvalid
      · exact hlocated.valid other (List.mem_append_right _ (List.mem_cons_of_mem _ hrest))
  · rw [subscribers_append_cons, hentry]
    exact (hlocated.updated_eq update).symm
  · rw [SessionTable.update_subscribers, SessionTable.updated, List.length_map]
    exact hrepresents.count_eq

end Located

end Entries

namespace Represents

variable [DecidableEq Client] {manager : SessionManager Client}
  {table : SessionTable Client config}

theorem addClient (hrepresents : manager.Represents table) (client : Client) (now : ClockTime) :
    ∃ after, manager.addClient client now = some ((table.addClient client now).1, after) ∧
      after.Represents (table.addClient client now).2 := by
  unfold SessionManager.addClient SessionTable.addClient
  rw [hrepresents.max_eq, hrepresents.count_eq]
  by_cases hfull : config.maxSessions ≤ table.subscribers.length
  · rw [if_pos hfull, dif_pos (Or.inr hfull)]
    exact ⟨manager, rfl, hrepresents⟩
  · rw [if_neg hfull]
    by_cases hmem : client ∈ table.clients
    · obtain ⟨done, node, rest, hlocated⟩ := hrepresents.exists_located hmem
      rw [hlocated.found, dif_pos (Or.inl hmem)]
      exact ⟨manager, rfl, hrepresents⟩
    · obtain ⟨nodes, hholds, hvalid, hnodes⟩ := hrepresents.nodes
      have hadded : ¬ (client ∈ table.clients ∨ config.maxSessions ≤ table.subscribers.length) :=
        not_or.mpr ⟨hmem, hfull⟩
      rw [hrepresents.findSession_of_not_mem hmem, dif_neg hadded]
      refine ⟨_, rfl, ⟨_, hholds.push (ClientSession.create client now), ?_, ?_⟩, ?_, rfl,
        hrepresents.timeout_eq⟩
      · intro node hnode
        rcases List.mem_cons.mp hnode with rfl | hold
        · exact ClientSession.create_valid client now
        · exact hvalid node hold
      · rw [subscribers, List.map_cons]
        exact congrArg₂ List.cons rfl hnodes
      · dsimp only
        rw [List.length_cons]
        rfl

omit [DecidableEq Client] in
/-- The list after some sessions were unlinked. -/
theorem unlinked (hrepresents : manager.Represents table)
    {nodes kept : List (Nat × ClientSession Client)}
    (hvalid : ∀ node ∈ nodes, node.2.Valid) (hnodes : subscribers nodes = table.subscribers)
    {test : Subscriber Client → Bool}
    (hkept : kept = nodes.filter fun node => test node.2.subscriber)
    {memory : LinkedList.Memory (ClientSession Client)} {sessions : Option Nat}
    (hholds : Holds memory sessions kept) {count : Int} (hcount : count = kept.length) :
    SessionManager.Represents
      { manager with memory := memory, sessions := sessions, sessionCount := count }
      (table.keep test) := by
  have hsubscribers : subscribers kept = table.subscribers.filter test := by
    rw [hkept, ← hnodes, subscribers, subscribers, List.filter_map]
    rfl
  refine ⟨⟨kept, hholds, ?_, hsubscribers⟩, ?_, hrepresents.max_eq, hrepresents.timeout_eq⟩
  · intro node hmem
    rw [hkept] at hmem
    exact hvalid node (List.mem_of_mem_filter hmem)
  · have hlength := congrArg List.length hsubscribers
    rw [subscribers, List.length_map] at hlength
    rw [SessionTable.keep, ← hlength]
    exact hcount

theorem removeClient (hrepresents : manager.Represents table) (client : Client) :
    ∃ after, manager.removeClient client = some ((table.removeClient client).1, after) ∧
      after.Represents (table.removeClient client).2 := by
  obtain ⟨nodes, hholds, hvalid, hnodes⟩ := hrepresents.nodes
  obtain ⟨memory, sessions, hloop, hkept⟩ :=
    hholds.unlinkFirst fun session => decide (session.client = client)
  have hclients := clients_eq hnodes
  have hnodup : (nodes.map fun node => node.2.client).Nodup := hclients ▸ table.clients_nodup
  have herase := eraseP_eq_filter_of_nodup client hnodup
  unfold SessionManager.removeClient SessionTable.removeClient
  rw [hloop]
  by_cases hmem : client ∈ table.clients
  · obtain ⟨node, hnode, hsame⟩ := List.mem_map.mp (hclients ▸ hmem)
    have hany : (nodes.any fun node => decide (node.2.client = client)) = true :=
      List.any_eq_true.mpr ⟨node, hnode, decide_eq_true hsame⟩
    rw [hany, if_pos hmem]
    refine ⟨_, rfl, hrepresents.unlinked hvalid hnodes herase hkept ?_⟩
    have hlength := congrArg List.length hnodes
    rw [subscribers, List.length_map] at hlength
    rw [hrepresents.count_eq, ← hlength, List.length_eraseP_of_mem hnode (decide_eq_true hsame)]
    have hpos := List.length_pos_of_mem hnode
    omega
  · have hany : (nodes.any fun node => decide (node.2.client = client)) = false := by
      rw [List.any_eq_false]
      intro node hnode hsame
      apply hmem
      rw [← hclients]
      exact List.mem_map.mpr ⟨node, hnode, of_decide_eq_true hsame⟩
    rw [hany, if_neg hmem]
    refine ⟨manager, rfl, hrepresents.congr (List.filter_eq_self.mpr ?_)⟩
    intro subscriber hsubscriber
    exact decide_eq_true fun hsame => hmem (List.mem_map.mpr ⟨subscriber, hsubscriber, hsame⟩)

theorem subscribeSymbol (hrepresents : manager.Represents table) (client : Client)
    (symbol : CString) :
    ∃ after, manager.subscribeSymbol client symbol =
        some ((table.subscribeSymbol client symbol).1, after) ∧
      after.Represents (table.subscribeSymbol client symbol).2 := by
  unfold SessionManager.subscribeSymbol SessionTable.subscribeSymbol
  by_cases hmem : client ∈ table.clients
  · obtain ⟨done, node, rest, hlocated⟩ := hrepresents.exists_located hmem
    have hvalid := hlocated.valid node (by simp)
    rw [hlocated.found, hlocated.subscriptions_eq]
    dsimp only
    rw [hvalid.count_eq]
    by_cases hfull : maxSubscriptions ≤ node.2.symbols.length
    · rw [if_pos hfull, if_pos hfull]
      refine ⟨manager, rfl, hrepresents.congr (hlocated.updated_eq_self ?_)⟩
      exact if_pos (Or.inr hfull)
    · rw [if_neg hfull, if_neg hfull]
      by_cases hsubscribed : symbol ∈ node.2.symbols
      · obtain ⟨i, _, hfound⟩ := hvalid.findSymbol_of_mem hsubscribed
        rw [hfound]
        refine ⟨manager, rfl, hrepresents.congr (hlocated.updated_eq_self ?_)⟩
        exact if_pos (Or.inl hsubscribed)
      · obtain ⟨hvalid', hentry⟩ := hvalid.subscribe hsubscribed (not_le.mp hfull)
        obtain ⟨after, hstore, hafter⟩ := hlocated.store hrepresents hvalid' hentry
          (Subscriber.subscribe_client symbol) fun _ hbounded => hbounded.subscribe symbol
        refine ⟨after, ?_, hafter⟩
        rw [hvalid.findSymbol_of_not_mem hsubscribed]
        dsimp only
        rw [hstore]
        rfl
  · rw [hrepresents.findSession_of_not_mem hmem, subscriptions_of_not_mem hmem]
    exact ⟨manager, rfl, hrepresents.congr (updated_of_not_mem hmem _)⟩

theorem unsubscribeSymbol (hrepresents : manager.Represents table) (client : Client)
    (symbol : CString) :
    ∃ after, manager.unsubscribeSymbol client symbol =
        some ((table.unsubscribeSymbol client symbol).1, after) ∧
      after.Represents (table.unsubscribeSymbol client symbol).2 := by
  unfold SessionManager.unsubscribeSymbol SessionTable.unsubscribeSymbol
  by_cases hmem : client ∈ table.clients
  · obtain ⟨done, node, rest, hlocated⟩ := hrepresents.exists_located hmem
    have hvalid := hlocated.valid node (by simp)
    rw [hlocated.found, hlocated.subscriptions_eq]
    dsimp only
    by_cases hsubscribed : symbol ∈ node.2.symbols
    · obtain ⟨i, hindex, hfound⟩ := hvalid.findSymbol_of_mem hsubscribed
      obtain ⟨symbols, hmoved, hvalid', hsymbols⟩ := hvalid.shrink hsubscribed hindex
      have hentry : (node.2.shrink symbols).subscriber =
          node.2.subscriber.unsubscribe symbol := by
        rw [ClientSession.subscriber, hsymbols]
        rfl
      obtain ⟨after, hstore, hafter⟩ := hlocated.store hrepresents hvalid' hentry
        (fun _ => rfl) fun _ hbounded => hbounded.unsubscribe symbol
      refine ⟨after, ?_, hafter⟩
      rw [if_pos hsubscribed, hfound]
      dsimp only
      rw [hmoved]
      dsimp only
      rw [hstore]
      rfl
    · rw [if_neg hsubscribed, hvalid.findSymbol_of_not_mem hsubscribed]
      refine ⟨manager, rfl, hrepresents.congr (hlocated.updated_eq_self ?_)⟩
      have herase : node.2.subscriber.symbols.erase symbol = node.2.subscriber.symbols :=
        List.erase_of_not_mem hsubscribed
      rw [Subscriber.unsubscribe, herase]
  · rw [hrepresents.findSession_of_not_mem hmem, subscriptions_of_not_mem hmem]
    exact ⟨manager, rfl, hrepresents.congr (updated_of_not_mem hmem _)⟩

omit [DecidableEq Client] in
theorem pingClients (hrepresents : manager.Represents table) (clock : Nat → ClockTime) :
    ∃ after, manager.pingClients clock = some after ∧
      after.Represents (table.pingClients clock) := by
  obtain ⟨nodes, hholds, hvalid, hnodes⟩ := hrepresents.nodes
  obtain ⟨memory, hloop, hafter⟩ :=
    hholds.updateAll fun index session => { session with lastPingTime := clock index }
  refine ⟨{ manager with memory := memory }, ?_, ⟨_, hafter, ?_, ?_⟩, ?_, hrepresents.max_eq,
    hrepresents.timeout_eq⟩
  · rw [SessionManager.pingClients, hloop]
    rfl
  · intro node hmem
    obtain ⟨index, hlt, rfl⟩ := List.mem_mapIdx.mp hmem
    have hbefore := hvalid _ (List.getElem_mem hlt)
    exact ⟨hbefore.filled, hbefore.count_eq, hbefore.length_eq⟩
  · rw [SessionTable.pingClients_subscribers, ← hnodes]
    apply List.ext_getElem?
    intro index
    rw [subscribers, subscribers, List.getElem?_map, List.getElem?_mapIdx, List.getElem?_mapIdx,
      List.getElem?_map, Option.map_map, Option.map_map]
    rfl
  · rw [SessionTable.pingClients_subscribers, List.length_mapIdx]
    exact hrepresents.count_eq

omit [DecidableEq Client] in
/-- The `int64_t` arithmetic of the test does not overflow. -/
theorem expired_iff (hrepresents : manager.Represents table) (now last : ClockTime) :
    manager.expired now last = true ↔
      config.sessionTimeoutMs < (now.seconds - last.seconds) * 1000 := by
  have hnow := now.lower
  have hnow' := now.upper
  have hlast := last.lower
  have hlast' := last.upper
  have hsmall : int64 (now.seconds - last.seconds) = now.seconds - last.seconds := by
    apply Int.bmod_eq_of_le <;> omega
  have hproduct : int64 ((now.seconds - last.seconds) * 1000) =
      (now.seconds - last.seconds) * 1000 := by
    apply Int.bmod_eq_of_le <;> omega
  rw [expired, hsmall, hproduct, hrepresents.timeout_eq, decide_eq_true_iff]

omit [DecidableEq Client] in
theorem cleanupSessions (hrepresents : manager.Represents table) (now : ClockTime) :
    ∃ after, manager.cleanupSessions now = some after ∧
      after.Represents (table.cleanupSessions now) := by
  obtain ⟨nodes, hholds, hvalid, hnodes⟩ := hrepresents.nodes
  obtain ⟨memory, sessions, hloop, hafter⟩ :=
    hholds.unlinkAll fun session => manager.expired now session.lastPingTime
  have hkept : (nodes.filter fun node => !manager.expired now node.2.lastPingTime) =
      nodes.filter fun node => decide
        ((now.seconds - node.2.subscriber.lastPing.seconds) * 1000 ≤ config.sessionTimeoutMs) := by
    apply List.filter_congr
    intro node _
    rw [Bool.not_eq_eq_eq_not, Bool.eq_iff_iff, Bool.not_eq_true', decide_eq_false_iff_not,
      Int.not_le]
    exact hrepresents.expired_iff now node.2.lastPingTime
  have hcount : manager.sessionCount -
      ↑(nodes.countP fun node => manager.expired now node.2.lastPingTime) =
      ↑(nodes.filter fun node => !manager.expired now node.2.lastPingTime).length := by
    have hlength := congrArg List.length hnodes
    rw [subscribers, List.length_map] at hlength
    have hparts := List.length_eq_countP_add_countP (l := nodes)
      fun node => manager.expired now node.2.lastPingTime
    simp only [decide_not, Bool.decide_eq_true] at hparts
    rw [← List.countP_eq_length_filter, hrepresents.count_eq, ← hlength]
    omega
  refine ⟨_, ?_, hrepresents.unlinked hvalid hnodes hkept hafter hcount⟩
  rw [SessionManager.cleanupSessions, hloop]
  rfl

/-- Every call returns what the table returns, and the table after it is represented. -/
theorem step (hrepresents : manager.Represents table) (call : SessionCall Client) :
    ∃ after, manager.step call = some ((table.step call).1, after) ∧
      after.Represents (table.step call).2 := by
  cases call with
  | addClient client now => exact hrepresents.addClient client now
  | removeClient client => exact hrepresents.removeClient client
  | subscribeSymbol client symbol => exact hrepresents.subscribeSymbol client symbol
  | unsubscribeSymbol client symbol => exact hrepresents.unsubscribeSymbol client symbol
  | pingClients clock =>
      obtain ⟨after, hping, hafter⟩ := hrepresents.pingClients clock
      refine ⟨after, ?_, hafter⟩
      rw [SessionManager.step, hping]
      rfl
  | cleanupSessions now =>
      obtain ⟨after, hcleanup, hafter⟩ := hrepresents.cleanupSessions now
      refine ⟨after, ?_, hafter⟩
      rw [SessionManager.step, hcleanup]
      rfl

theorem run (hrepresents : manager.Represents table) (calls : List (SessionCall Client)) :
    ∃ after, manager.run calls = some after ∧ after.Represents (table.run calls) := by
  induction calls generalizing manager table with
  | nil => exact ⟨manager, rfl, hrepresents⟩
  | cons call calls ih =>
      obtain ⟨next, hstep, hnext⟩ := hrepresents.step call
      obtain ⟨after, hrun, hafter⟩ := ih hnext
      refine ⟨after, ?_, hafter⟩
      rw [SessionManager.run, hstep]
      exact hrun

/-! ## Queries -/

theorem isSubscribed (hrepresents : manager.Represents table) (client : Client)
    (symbol : CString) :
    manager.isSubscribed client symbol =
      some (decide (∃ symbols ∈ table.subscriptions client, symbol ∈ symbols)) := by
  unfold SessionManager.isSubscribed
  by_cases hmem : client ∈ table.clients
  · obtain ⟨done, node, rest, hlocated⟩ := hrepresents.exists_located hmem
    have hvalid := hlocated.valid node (by simp)
    rw [hlocated.found, hlocated.subscriptions_eq]
    dsimp only
    rw [hvalid.isSome_findSymbol]
    simp
  · rw [hrepresents.findSession_of_not_mem hmem, subscriptions_of_not_mem hmem]
    simp

omit [DecidableEq Client] in
/-- The loop writes the subscribed clients until the array is full. -/
theorem walkList_writeSubscriber {sessions : List (ClientSession Client)}
    (hvalid : ∀ session ∈ sessions, session.Valid) (symbol : CString) (limit : Int)
    (clients : List Client) :
    LinkedList.walkList (fun clients : List Client => (clients.length : Int) < limit)
        (writeSubscriber symbol) sessions clients =
      some (clients ++ ((sessions.filter fun session => symbol ∈ session.symbols).map
        ClientSession.client).take (limit - clients.length).toNat) := by
  induction sessions generalizing clients with
  | nil => simp [LinkedList.walkList]
  | cons session rest ih =>
      have hsession := hvalid session List.mem_cons_self
      have hloop := ih fun other hmem => hvalid other (List.mem_cons_of_mem _ hmem)
      rw [LinkedList.walkList]
      by_cases hroom : (clients.length : Int) < limit
      · rw [if_pos (decide_eq_true hroom), writeSubscriber]
        by_cases hsubscribed : symbol ∈ session.symbols
        · have hleft : (limit - clients.length).toNat =
              (limit - (clients ++ [session.client]).length).toNat + 1 := by
            rw [List.length_append, List.length_singleton]
            omega
          obtain ⟨i, _, hfound⟩ := hsession.findSymbol_of_mem hsubscribed
          rw [hfound, List.filter_cons_of_pos (by simpa using hsubscribed), List.map_cons, hleft,
            List.take_succ_cons]
          simpa using hloop (clients ++ [session.client])
        · rw [hsession.findSymbol_of_not_mem hsubscribed,
            List.filter_cons_of_neg (by simpa using hsubscribed)]
          exact hloop clients
      · have hnone : (limit - clients.length).toNat = 0 := by omega
        rw [if_neg (by simpa using hroom), hnone, List.take_zero, List.append_nil]

omit [DecidableEq Client] in
theorem getSubscribers (hrepresents : manager.Represents table) (symbol : CString)
    (maxClients : Int) :
    manager.getSubscribers symbol maxClients =
      if maxClients ≤ 0 then some (-1, [])
      else some (↑(table.subscribed symbol maxClients.toNat).length,
        table.subscribed symbol maxClients.toNat) := by
  unfold SessionManager.getSubscribers
  obtain ⟨nodes, hholds, hvalid, hnodes⟩ := hrepresents.nodes
  have hsessions : ∀ session ∈ nodes.map Prod.snd, session.Valid := by
    intro session hmem
    obtain ⟨node, hnode, rfl⟩ := List.mem_map.mp hmem
    exact hvalid node hnode
  have hsubscribed : ((nodes.map Prod.snd).filter fun session => symbol ∈ session.symbols).map
      ClientSession.client =
      (table.subscribers.filter fun subscriber => symbol ∈ subscriber.symbols).map
        Subscriber.client := by
    rw [← hnodes, subscribers, List.filter_map, List.filter_map, List.map_map, List.map_map]
    rfl
  have hwalk := walkList_writeSubscriber hsessions symbol maxClients []
  rw [hsubscribed, List.nil_append, List.length_nil, Int.natCast_zero, Int.sub_zero] at hwalk
  split_ifs
  · rfl
  · rw [hholds.walk, hwalk]
    rfl

end Represents

/-- After every sequence of calls the manager represents a table of subscribers, and the
next call acts on it as it acts on the table. -/
theorem run_refines_table [DecidableEq Client] (config : SessionConfig)
    (hmax : 0 ≤ config.maxSessions) (calls : List (SessionCall Client)) :
    ∃ (manager : SessionManager Client) (table : SessionTable Client config),
      (create config).run calls = some manager ∧ manager.Represents table ∧
      table = (SessionTable.empty hmax).run calls ∧
      table.clients.Nodup ∧
      manager.sessionCount = table.subscribers.length ∧
      manager.sessionCount ≤ manager.maxSessions ∧
      (∀ subscriber ∈ table.subscribers,
        subscriber.symbols.Nodup ∧ subscriber.symbols.length ≤ maxSubscriptions) ∧
      (∀ call, ∃ after, manager.step call = some ((table.step call).1, after) ∧
        after.Represents (table.step call).2) ∧
      (∀ client now, ∃ code after, manager.addClient client now = some (code, after) ∧
        (code ≠ 0 ↔ client ∈ table.clients ∨ manager.sessionCount = manager.maxSessions)) ∧
      (∀ client symbol, ∃ code after, ∃ remaining : SessionTable Client config,
        manager.unsubscribeSymbol client symbol = some (code, after) ∧
        after.Represents remaining ∧
        remaining.subscribers = table.subscribers.map fun subscriber =>
          if subscriber.client = client then
            { subscriber with symbols := subscriber.symbols.erase symbol }
          else subscriber) ∧
      (∀ now, ∃ after, ∃ remaining : SessionTable Client config,
        manager.cleanupSessions now = some after ∧ after.Represents remaining ∧
        remaining.subscribers = table.subscribers.filter fun subscriber =>
          ¬ (now.seconds - subscriber.lastPing.seconds) * 1000 > config.sessionTimeoutMs) ∧
      (∀ client symbol, manager.isSubscribed client symbol =
        some (decide (∃ symbols ∈ table.subscriptions client, symbol ∈ symbols))) ∧
      ∀ symbol maxClients,
        (table.subscribed symbol maxClients.toNat).Nodup ∧
        manager.getSubscribers symbol maxClients =
          if maxClients ≤ 0 then some (-1, [])
          else some (↑(table.subscribed symbol maxClients.toNat).length,
            table.subscribed symbol maxClients.toNat) := by
  obtain ⟨manager, hrun, hrepresents⟩ := (create_represents hmax).run calls
  have hcount := hrepresents.count_eq
  refine ⟨manager, _, hrun, hrepresents, rfl, SessionTable.clients_nodup _, hcount, ?_, ?_,
    hrepresents.step, ?_, ?_, ?_, hrepresents.isSubscribed, ?_⟩
  · rw [hcount, hrepresents.max_eq]
    exact SessionTable.length_le _
  · intro subscriber hmem
    have hbounded := SessionTable.bounded _ subscriber hmem
    exact ⟨hbounded.nodup, hbounded.length_le⟩
  · intro client now
    obtain ⟨after, hadd, _⟩ := hrepresents.addClient client now
    refine ⟨_, after, hadd, ?_⟩
    rw [hcount, hrepresents.max_eq]
    exact SessionTable.addClient_fails_iff _ client now
  · intro client symbol
    obtain ⟨after, hunsubscribe, hafter⟩ := hrepresents.unsubscribeSymbol client symbol
    exact ⟨_, after, _, hunsubscribe, hafter, rfl⟩
  · intro now
    obtain ⟨after, hcleanup, hafter⟩ := hrepresents.cleanupSessions now
    refine ⟨after, _, hcleanup, hafter, List.filter_congr fun subscriber _ => ?_⟩
    simp only [gt_iff_lt, Int.not_lt]
  · intro symbol maxClients
    exact ⟨SessionTable.subscribed_nodup _ symbol _,
      hrepresents.getSubscribers symbol maxClients⟩

/-- Two clients in a manager for two: the older session times out, the newer one is the
subscriber that is left. -/
theorem run_refines_table_two :
    ∃ manager : SessionManager Nat, (create ⟨2, 30000⟩).run
        [.addClient 7 ⟨100, by decide, by decide⟩, .subscribeSymbol 7 "AAPL".toList,
          .addClient 8 ⟨120, by decide, by decide⟩, .subscribeSymbol 8 "AAPL".toList,
          .cleanupSessions ⟨140, by decide, by decide⟩] = some manager ∧
      manager.sessionCount = 1 ∧ manager.getSubscribers "AAPL".toList 5 = some (1, [8]) := by
  obtain ⟨manager, table, hrun, _, htable, _, hcount, _, _, _, _, _, _, _, hsubscribers⟩ :=
    run_refines_table ⟨2, 30000⟩ (by decide)
      [.addClient 7 ⟨100, by decide, by decide⟩, .subscribeSymbol 7 "AAPL".toList,
        .addClient 8 ⟨120, by decide, by decide⟩, .subscribeSymbol 8 "AAPL".toList,
        .cleanupSessions ⟨140, by decide, by decide⟩]
  have hleft : table.subscribers = [⟨8, ["AAPL".toList], ⟨120, by decide, by decide⟩⟩] := by
    rw [htable]
    decide
  refine ⟨manager, hrun, ?_, ?_⟩
  · rw [hcount, hleft]
    rfl
  · rw [(hsubscribers _ _).2, SessionTable.subscribed, hleft]
    rfl

end SessionManager

end QuantTrading
