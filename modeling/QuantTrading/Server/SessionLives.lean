import QuantTrading.Server.SessionMemory

/-! # Whole lives of a session manager

Every call on a manager in memory does what it does on the table of subscribers, or is
refused memory and changes nothing. A life from `session_manager_create` to
`session_manager_destroy` gives back all of the manager's memory.
-/

namespace QuantTrading

open Separation Separation.Program Separation.Assertion

namespace SessionMemory

variable {Client : Type} [DecidableEq Client] {config : SessionConfig} {address : Nat}
  {table table' : SessionTable Client config}

/-! ## Calls -/

omit [DecidableEq Client] in
theorem tableAt_congr (hsubscribers : table'.subscribers = table.subscribers)
    {part : Heap (SessionCell Client)} (hpart : tableAt address table part) :
    tableAt address table' part := by
  obtain ⟨head, hpart⟩ := hpart
  refine tableAt_intro head ?_
  rw [managerFields, hsubscribers]
  exact hpart

/-- A manager with a session of a client taken apart: the array, its texts and the cell of
the session in front of the rest. -/
def openedAt (address : Nat) {client : Client} (cut : ClientCut table client)
    (subscriber : Subscriber Client) (symbols : Nat) (texts : List (Nat × CString))
    (spare : List (Option Nat)) (session : Nat) (link head : Option Nat) :
    Assertion (SessionCell Client) :=
  points symbols (.symbols (slotsOf texts spare)) * (textsAt texts *
    (points session (clientSession.node
        ⟨subscriber.client, some symbols, texts.length, subscriber.lastPing⟩ link) *
      (clientSession.segment holdsSubscriber head cut.before (some session) *
        (clientSession.segment holdsSubscriber link cut.behind none *
          points address (.manager (managerFields table head))))))

/-- Putting the parts together again, around a subscriber that may be another one. -/
theorem openedAt_close {client : Client} {cut : ClientCut table client} {session symbols : Nat}
    {head link : Option Nat} {subscriber' : Subscriber Client} {texts : List (Nat × CString)}
    {spare : List (Option Nat)}
    (hsubscribers : table'.subscribers = cut.before ++ subscriber' :: cut.behind)
    (hsymbols : subscriber'.symbols = texts.map Prod.snd)
    (hspare : texts.length + spare.length = maxSubscriptions) {part : Heap (SessionCell Client)}
    (hpart : openedAt address cut subscriber' symbols texts spare session link head part) :
    tableAt address table' part :=
  tableAt_update cut hsubscribers (rearrange (mul_left_comm _ _ _)
    (holdsSubscriber_intro texts spare hsymbols hspare hpart))

/-- Reading the cell of the session that `find_session` found. -/
theorem loadSession_bind {α : Type} {client : Client} (cut : ClientCut table client)
    {session : Nat} {fields : SessionFields Client} {link head : Option Nat}
    {next : SessionFields Client × Option Nat → Program (SessionCell Client) α}
    {post : α → Assertion (SessionCell Client)}
    (hnext : ∀ symbols texts spare, cut.value.symbols = texts.map Prod.snd →
      texts.length + spare.length = maxSubscriptions →
      Triple (openedAt address cut cut.value symbols texts spare session link head)
        (next (⟨cut.value.client, some symbols, texts.length, cut.value.lastPing⟩, link)) post) :
    Triple (points session (clientSession.node fields link) *
      (holdsSubscriber fields cut.value *
        (clientSession.segment holdsSubscriber head cut.before (some session) *
          (clientSession.segment holdsSubscriber link cut.behind none *
            points address (.manager (managerFields table head))))))
      (clientSession.load session >>= next) post := by
  refine open_subscriber (p := fun fields => points session (clientSession.node fields link))
    fun symbols texts spare hsymbols hspare => ?_
  apply NodeLayout.load_bind
  exact Triple.reorder _ (by rw [openedAt]; ac_rfl) (hnext symbols texts spare hsymbols hspare)

/-- Adding a client allocates its session and its array, or neither of them. -/
theorem sessionManagerAddClient_spec (allocator : Allocator (SessionCell Client)) {fuel : Nat}
    (hfuel : table.subscribers.length ≤ fuel) (client : Client) (now : ClockTime) :
    Triple (tableAt address table)
      (sessionManagerAddClient allocator fuel (some address) (some client) now) fun code =>
        any fun table' => fact ((code, table') = table.addClient client now ∨
          allocator.Fails ∧ code = -1 ∧ table' = table) * tableAt address table' := by
  rw [sessionManagerAddClient]
  have hkept : client ∈ table.clients ∨ config.maxSessions ≤ table.subscribers.length →
      (-1, table) = table.addClient client now :=
    fun hrefused => by rw [SessionTable.addClient, dif_pos hrefused]
  have hrefused : client ∈ table.clients ∨ config.maxSessions ≤ table.subscribers.length →
      ∀ part, tableAt address table part → (any fun table' =>
        fact ((-1, table') = table.addClient client now ∨
          allocator.Fails ∧ (-1 : Int) = -1 ∧ table' = table) * tableAt address table') part :=
    fun hrefused part hpart => any_intro table (fact_mul_apply.mpr
      ⟨Or.inl (hkept hrefused), hpart⟩)
  have hfails : allocator.Fails → ∀ part, tableAt address table part → (any fun table' =>
      fact ((-1, table') = table.addClient client now ∨
        allocator.Fails ∧ (-1 : Int) = -1 ∧ table' = table) * tableAt address table') part :=
    fun hfails part hpart => any_intro table (fact_mul_apply.mpr
      ⟨Or.inr ⟨hfails, rfl, rfl⟩, hpart⟩)
  refine Triple.of_any fun head => ?_
  apply loadManager_bind
  dsimp only [managerFields]
  by_cases hfull : config.maxSessions ≤ table.subscribers.length
  · rw [if_pos hfull]
    exact Triple.pure fun part hpart => hrefused (Or.inr hfull) part (tableAt_intro head hpart)
  · rw [if_neg hfull]
    refine Triple.consequence (show Triple (tableAt address table) _ _ from
      findSession_bind hfuel (fun hnot => ?_)
        fun cut session fields link head' => Triple.pure fun part hpart => ?_)
      (fun part hpart => tableAt_intro head hpart) fun _ _ => id
    · refine Triple.of_any fun head => ?_
      refine (Triple.allocate allocator _).call (one_mul _).symm fun result => ?_
      cases result with
      | none =>
          exact Triple.of_fact_mul fun hfail => Triple.pure fun part hpart =>
            hfails hfail part (tableAt_intro head hpart)
      | some session =>
          refine (Triple.allocate allocator _).call (one_mul _).symm fun result => ?_
          cases result with
          | none =>
              refine Triple.of_fact_mul fun hfail => Triple.free_bind rfl ?_
              exact Triple.pure fun part hpart => hfails hfail part (tableAt_intro head hpart)
          | some symbols =>
              dsimp only
              refine Triple.reorder (points address (.manager (managerFields table head)) *
                (points session (.session ⟨client, none, 0, now⟩ none) * (points symbols
                  (.symbols (List.replicate maxSubscriptions none)) *
                    clientSession.segment holdsSubscriber head table.subscribers none)))
                (by ac_rfl) ?_
              apply loadManager_bind
              refine Triple.store_bind (mul_left_comm _ _ _) ?_
              refine Triple.store_bind (mul_left_comm _ _ _) (Triple.pure fun part hpart => ?_)
              have hadded : table.addClient client now = (0, (table.addClient client now).2) := by
                rw [SessionTable.addClient, dif_neg (not_or.mpr ⟨hnot, hfull⟩)]
              refine any_intro (table.addClient client now).2
                (fact_mul_apply.mpr ⟨Or.inl hadded.symm, ?_⟩)
              have hsubscribers : (table.addClient client now).2.subscribers =
                  ⟨client, [], now⟩ :: table.subscribers := by
                rw [SessionTable.addClient, dif_neg (not_or.mpr ⟨hnot, hfull⟩)]
              refine tableAt_intro (some session) (rearrange (mul_comm _ _) ?_)
              -- the new session has its array, and no symbols in it
              have hsession : (holdsSubscriber ⟨client, some symbols, 0, now⟩ ⟨client, [], now⟩ *
                  (points session (clientSession.node ⟨client, some symbols, 0, now⟩ head) *
                    (clientSession.segment holdsSubscriber head table.subscribers none *
                      points address (.manager ⟨some session, table.subscribers.length + 1,
                        config.maxSessions, config.sessionTimeoutMs⟩))) :
                          Assertion (SessionCell Client)) part := by
                have hempty : Subscriber.symbols ⟨client, [], now⟩ =
                    ([] : List (Nat × CString)).map Prod.snd := rfl
                refine holdsSubscriber_intro [] (List.replicate maxSubscriptions none)
                  hempty (by simp) ?_
                rw [textsAt, List.map_nil, List.prod_nil, one_mul]
                exact rearrange (by ac_rfl) hpart
              rw [managerFields, hsubscribers, List.length_cons, Nat.cast_succ]
              exact NodeLayout.segment_cons ⟨client, some symbols, 0, now⟩ head
                (rearrange (mul_left_comm _ _ _) hsession)
    · exact hrefused (Or.inl (cut_mem cut)) part (tableAt_update cut cut.eq hpart)

/-- Removing a client frees its session, its array and its symbols. -/
theorem sessionManagerRemoveClient_spec {fuel : Nat}
    (hfuel : table.subscribers.length ≤ fuel) (client : Client) :
    Triple (tableAt address table)
      (sessionManagerRemoveClient fuel (some address) (some client)) fun code =>
        fact (code = (table.removeClient client).1) *
          tableAt address (table.removeClient client).2 := by
  refine Triple.of_any fun head => ?_
  rw [sessionManagerRemoveClient]
  apply loadManager_bind
  rw [← mul_one (clientSession.segment holdsSubscriber head table.subscribers none)]
  refine NodeLayout.unlinkFirst_bind (setSessions_spec _ _ _) (client_agrees client) hfuel
    (fun hmissing => ?_) fun cut session fields next head' => ?_
  · have hnot := client_not_mem hmissing
    refine Triple.pure fun part hpart => fact_mul_apply.mpr ⟨?_, ?_⟩
    · rw [SessionTable.removeClient, if_neg hnot]
    · rw [mul_one] at hpart
      refine tableAt_congr ?_ (tableAt_intro head hpart)
      refine List.filter_eq_self.mpr fun subscriber hmem => ?_
      simpa using hmissing subscriber hmem
  · dsimp only
    rw [← bind_assoc]
    refine Triple.reorder ((points session (clientSession.node fields next) *
      (holdsSubscriber fields cut.value * points address
        (.manager (managerFields table head')))) *
      clientSession.segment holdsSubscriber head' (cut.before ++ cut.behind) none)
      (by rw [mul_one]; ac_rfl) ?_
    refine (releaseCounted_spec _ _ _ head' session fields next cut.value).call rfl fun _ =>
      Triple.pure fun part hpart => fact_mul_apply.mpr ⟨?_, tableAt_intro head' ?_⟩
    · rw [SessionTable.removeClient, if_pos (cut_mem cut)]
    · have hlength := congrArg List.length cut.eq
      rw [List.length_append, List.length_cons] at hlength
      have hcount : ((cut.before ++ cut.behind).length : Int) = table.subscribers.length - 1 := by
        rw [List.length_append]
        omega
      rw [SessionTable.removeClient]
      dsimp only
      rw [managerFields, cut_keep cut, hcount]
      exact hpart

omit [DecidableEq Client] in
/-- A subscription that changes nothing. -/
theorem subscribe_kept {symbol : CString} {subscriber : Subscriber Client}
    (hkept : symbol ∈ subscriber.symbols ∨ maxSubscriptions ≤ subscriber.symbols.length) :
    subscriber.subscribe symbol = subscriber := by
  rw [Subscriber.subscribe, if_pos hkept]

/-- Subscribing copies the symbol into the array of the session, unless it is there, the
array is full or there is no memory for the copy. -/
theorem sessionManagerSubscribeSymbol_spec (allocator : Allocator (SessionCell Client))
    {fuel : Nat} (hfuel : table.subscribers.length ≤ fuel) (client : Client) (symbol : CString) :
    Triple (tableAt address table) (sessionManagerSubscribeSymbol allocator fuel (some address)
      (some client) (some symbol)) fun code => any fun table' =>
        fact ((code, table') = table.subscribeSymbol client symbol ∨
          allocator.Fails ∧ code = -1 ∧ table' = table) * tableAt address table' := by
  rw [sessionManagerSubscribeSymbol]
  refine findSession_bind hfuel (fun hnot => Triple.pure fun part hpart => ?_)
    fun cut session fields link head => ?_
  · refine any_intro (table.subscribeSymbol client symbol).2 (fact_mul_apply.mpr ⟨Or.inl ?_, ?_⟩)
    · rw [SessionTable.subscribeSymbol, subscriptions_of_not_mem hnot]
    · exact tableAt_congr (updated_of_not_mem hnot _) hpart
  · have hcode : (table.subscribeSymbol client symbol).1 =
        if maxSubscriptions ≤ cut.value.symbols.length then -1 else 0 := by
      rw [SessionTable.subscribeSymbol, cut_subscriptions cut]
    have hupdated := cut_updated cut (Subscriber.subscribe symbol)
    refine loadSession_bind cut fun symbols texts spare hsymbols hspare => ?_
    have hlength : cut.value.symbols.length = texts.length := by
      rw [hsymbols, List.length_map]
    dsimp only
    by_cases hfull : maxSubscriptions ≤ texts.length
    · rw [if_pos hfull]
      rw [← hlength] at hfull
      refine Triple.pure fun part hpart => any_intro (table.subscribeSymbol client symbol).2
        (fact_mul_apply.mpr ⟨Or.inl (Prod.ext (hcode.trans (if_pos hfull)).symm rfl), ?_⟩)
      refine openedAt_close (hupdated.trans ?_) hsymbols hspare hpart
      rw [subscribe_kept (Or.inr hfull)]
    · rw [if_neg hfull]
      have hroom : (table.subscribeSymbol client symbol).1 = 0 := by
        rw [hcode, hlength, if_neg hfull]
      apply findSymbol_bind
      cases hfound : (texts.map Prod.snd).findIdx? (· = symbol) with
      | some i =>
          obtain ⟨done, text, rest, rfl, _, rfl, _⟩ := split_of_findIdx? hfound
          have hmem : text.2 ∈ cut.value.symbols := by
            rw [hsymbols]
            simp
          refine Triple.pure fun part hpart => any_intro (table.subscribeSymbol client text.2).2
            (fact_mul_apply.mpr ⟨Or.inl (Prod.ext hroom.symm rfl), ?_⟩)
          refine openedAt_close (hupdated.trans ?_) hsymbols hspare hpart
          rw [subscribe_kept (Or.inl hmem)]
      | none =>
          have hnew : symbol ∉ cut.value.symbols := hsymbols ▸ not_mem_of_findIdx? hfound
          refine (Triple.allocate allocator _).call (one_mul _).symm fun result => ?_
          cases result with
          | none =>
              refine Triple.of_fact_mul fun hfails => Triple.pure fun part hpart =>
                any_intro table (fact_mul_apply.mpr ⟨Or.inr ⟨hfails, rfl, rfl⟩, ?_⟩)
              exact openedAt_close cut.eq hsymbols hspare hpart
          | some symbolCopy =>
              obtain ⟨free, spare, rfl⟩ : ∃ free spare', spare = free :: spare' := by
                apply List.exists_cons_of_ne_nil
                rintro rfl
                rw [List.length_nil] at hspare
                omega
              have hi : texts.length < (slotsOf texts (free :: spare)).length := by
                simp [slotsOf]
              have hset : (slotsOf texts (free :: spare)).set texts.length (some symbolCopy) =
                  slotsOf (texts ++ [(symbolCopy, symbol)]) spare := by
                simp [slotsOf]
              rw [mul_left_comm]
              apply storeSlot_bind hi
              rw [hset]
              refine Triple.store_bind (show _ = points session (clientSession.node
                ⟨cut.value.client, some symbols, texts.length, cut.value.lastPing⟩ link) *
                  (points symbols (.symbols (slotsOf (texts ++ [(symbolCopy, symbol)]) spare)) *
                    (points symbolCopy (.text symbol) * (textsAt texts *
                      (clientSession.segment holdsSubscriber head cut.before (some session) *
                        (clientSession.segment holdsSubscriber link cut.behind none *
                          points address (.manager (managerFields table head)))))))
                by ac_rfl) (Triple.pure fun part hpart => ?_)
              refine any_intro (table.subscribeSymbol client symbol).2
                (fact_mul_apply.mpr ⟨Or.inl (Prod.ext hroom.symm rfl), ?_⟩)
              have happended : (openedAt address cut (cut.value.subscribe symbol) symbols
                  (texts ++ [(symbolCopy, symbol)]) spare session link head :
                    Assertion (SessionCell Client)) part := by
                rw [openedAt, Subscriber.subscribe, if_neg (not_or.mpr ⟨hnew, hlength ▸ hfull⟩),
                  textsAt_middle, List.append_nil, List.length_append, List.length_singleton]
                exact rearrange (by ac_rfl) hpart
              refine openedAt_close hupdated ?_ ?_ happended
              · rw [Subscriber.subscribe, if_neg (not_or.mpr ⟨hnew, hlength ▸ hfull⟩)]
                simp [hsymbols]
              · simp only [List.length_append, List.length_cons, List.length_nil] at hspare ⊢
                omega

/-- Unsubscribing frees the copy of the symbol and closes the gap in the array. -/
theorem sessionManagerUnsubscribeSymbol_spec {fuel : Nat}
    (hfuel : table.subscribers.length ≤ fuel) (client : Client) (symbol : CString) :
    Triple (tableAt address table) (sessionManagerUnsubscribeSymbol fuel (some address)
      (some client) (some symbol)) fun code =>
        fact (code = (table.unsubscribeSymbol client symbol).1) *
          tableAt address (table.unsubscribeSymbol client symbol).2 := by
  rw [sessionManagerUnsubscribeSymbol]
  refine findSession_bind hfuel (fun hnot => Triple.pure fun part hpart => ?_)
    fun cut session fields link head => ?_
  · refine fact_mul_apply.mpr ⟨?_, tableAt_congr (updated_of_not_mem hnot _) hpart⟩
    rw [SessionTable.unsubscribeSymbol, subscriptions_of_not_mem hnot]
  · have hcode : (table.unsubscribeSymbol client symbol).1 =
        if symbol ∈ cut.value.symbols then 0 else -1 := by
      rw [SessionTable.unsubscribeSymbol, cut_subscriptions cut]
    have hupdated := cut_updated cut (Subscriber.unsubscribe symbol)
    refine loadSession_bind cut fun symbols texts spare hsymbols hspare => ?_
    dsimp only
    apply findSymbol_bind
    cases hfound : (texts.map Prod.snd).findIdx? (· = symbol) with
    | none =>
        have hnot : symbol ∉ cut.value.symbols := hsymbols ▸ not_mem_of_findIdx? hfound
        refine Triple.pure fun part hpart => fact_mul_apply.mpr ⟨?_, ?_⟩
        · rw [hcode, if_neg hnot]
        · refine openedAt_close (hupdated.trans ?_) hsymbols hspare hpart
          rw [Subscriber.unsubscribe, List.erase_of_not_mem hnot]
    | some i =>
        obtain ⟨done, text, rest, rfl, rfl, rfl, hfirst⟩ := split_of_findIdx? hfound
        have hmem : text.2 ∈ cut.value.symbols := by
          rw [hsymbols]
          simp
        have hread : (slotsOf (done ++ text :: rest) spare)[done.length]? = some (some text.1) :=
          getElem?_slotsOf_middle
        dsimp only
        apply loadSlot_bind hread
        have hremaining : (done ++ text :: rest).length - 1 - done.length =
            (rest.map fun text => some text.1).length := by
          simp only [List.length_append, List.length_cons, List.length_map]
          omega
        have hfront : done.length = (done.map fun text => some text.1).length := by
          rw [List.length_map]
        have hslots : slotsOf (done ++ text :: rest) spare = (done.map fun text => some text.1) ++
            some text.1 :: (rest.map fun text => some text.1) ++ spare := by
          simp [slotsOf]
        rw [hremaining, hfront, hslots, textsAt_middle, release]
        refine Triple.free_bind (show _ = points text.1 (.text text.2) *
          (points symbols (.symbols ((done.map fun text => some text.1) ++
            some text.1 :: (rest.map fun text => some text.1) ++ spare)) *
              (textsAt (done ++ rest) * (points session (clientSession.node
                ⟨cut.value.client, some symbols, (done ++ text :: rest).length,
                  cut.value.lastPing⟩ link) *
                (clientSession.segment holdsSubscriber head cut.before (some session) *
                  (clientSession.segment holdsSubscriber link cut.behind none *
                    points address (.manager (managerFields table head))))))) by ac_rfl) ?_
        refine (moveSymbols_spec (some text.1) _ _ spare).call rfl fun _ => ?_
        refine Triple.of_any_mul fun left => ?_
        rw [mul_assoc]
        refine Triple.of_fact_mul fun hleft => ?_
        refine Triple.store_bind (show _ = points session (clientSession.node
          ⟨cut.value.client, some symbols, (done ++ text :: rest).length, cut.value.lastPing⟩
            link) * (points symbols (.symbols ((done.map fun text => some text.1) ++
              (rest.map fun text => some text.1) ++ left)) * (textsAt (done ++ rest) *
                (clientSession.segment holdsSubscriber head cut.before (some session) *
                  (clientSession.segment holdsSubscriber link cut.behind none *
                    points address (.manager (managerFields table head))))))
          by ac_rfl) (Triple.pure fun part hpart => fact_mul_apply.mpr ⟨?_, ?_⟩)
        · rw [hcode, if_pos hmem]
        · have herased : (cut.value.unsubscribe text.2).symbols =
              (done ++ rest).map Prod.snd := by
            rw [Subscriber.unsubscribe]
            dsimp only
            rw [hsymbols, List.map_append, List.erase_append_right _ hfirst, List.map_cons,
              List.erase_cons_head, List.map_append]
          have hcount : (done ++ text :: rest).length - 1 = (done ++ rest).length := by
            simp only [List.length_append, List.length_cons]
            omega
          have hclosed : (openedAt address cut (cut.value.unsubscribe text.2) symbols
              (done ++ rest) left session link head : Assertion (SessionCell Client)) part := by
            rw [openedAt, Subscriber.unsubscribe, slotsOf, List.map_append, ← hcount]
            exact rearrange (by ac_rfl) hpart
          refine openedAt_close hupdated herased ?_ hclosed
          simp only [List.length_append, List.length_cons] at hspare ⊢
          omega

theorem sessionManagerIsSubscribed_spec {fuel : Nat} (hfuel : table.subscribers.length ≤ fuel)
    (client : Client) (symbol : CString) :
    Triple (tableAt address table) (sessionManagerIsSubscribed fuel (some address)
      (some client) (some symbol)) fun subscribed =>
        fact (subscribed = (table.subscriptions client).any (·.any (· = symbol))) *
          tableAt address table := by
  rw [sessionManagerIsSubscribed]
  refine findSession_bind hfuel (fun hnot => Triple.pure fun part hpart => ?_)
    fun cut session fields link head => ?_
  · refine fact_mul_apply.mpr ⟨?_, hpart⟩
    simp [subscriptions_of_not_mem hnot]
  · refine loadSession_bind cut fun symbols texts spare hsymbols hspare => ?_
    dsimp only
    apply findSymbol_bind
    refine Triple.pure fun part hpart => fact_mul_apply.mpr
      ⟨?_, openedAt_close cut.eq hsymbols hspare hpart⟩
    rw [cut_subscriptions cut, Option.any_some, hsymbols, List.findIdx?_isSome]

omit [DecidableEq Client] in
/-- A round of the loop over the sessions writes the client of a session that is
subscribed. -/
theorem writeSubscriber_spec (symbol : CString) (clients : List Client)
    (fields : SessionFields Client) (subscriber : Subscriber Client) :
    Triple (holdsSubscriber fields subscriber) (writeSubscriber symbol clients fields)
      fun clients' => fact (clients' =
        if symbol ∈ subscriber.symbols then clients ++ [subscriber.client] else clients) *
          holdsSubscriber fields subscriber := by
  refine Triple.of_any fun ⟨symbols, texts, spare⟩ => Triple.of_fact_mul ?_
  rintro ⟨rfl, hsymbols, hspare⟩
  dsimp only at hsymbols hspare ⊢
  rw [writeSubscriber, ← mul_one (textsAt texts)]
  apply findSymbol_bind
  refine Triple.pure fun part hpart => fact_mul_apply.mpr ⟨?_, ?_⟩
  · cases hfound : (texts.map Prod.snd).findIdx? (· = symbol) with
    | none =>
        have hnot : symbol ∉ subscriber.symbols := by
          rw [hsymbols]
          exact not_mem_of_findIdx? hfound
        simp [hnot]
    | some i =>
        obtain ⟨done, text, rest, rfl, _, rfl, _⟩ := split_of_findIdx? hfound
        simp [hsymbols]
  · have hholds := holdsSubscriber_intro texts spare hsymbols hspare hpart
    rwa [mul_one] at hholds

omit [DecidableEq Client] in
/-- The loop over the sessions writes the clients that are subscribed, as far as there is
room. -/
theorem walked_subscribers (symbol : CString) (limit : Int) (subscribers : List (Subscriber Client))
    (clients : List Client) :
    NodeLayout.walked (fun clients : List Client => (clients.length : Int) < limit)
      (fun clients subscriber =>
        if symbol ∈ subscriber.symbols then clients ++ [subscriber.client] else clients)
      subscribers clients =
        clients ++ ((subscribers.filter fun subscriber => symbol ∈ subscriber.symbols).map
          Subscriber.client).take (limit - clients.length).toNat := by
  induction subscribers generalizing clients with
  | nil => simp [NodeLayout.walked]
  | cons subscriber rest ih =>
      rw [NodeLayout.walked]
      by_cases hroom : (clients.length : Int) < limit
      · rw [if_pos (decide_eq_true hroom), ih]
        by_cases hmem : symbol ∈ subscriber.symbols
        · have hmore : (limit - clients.length).toNat =
              (limit - (clients.length + 1 : Int)).toNat + 1 := by
            omega
          rw [if_pos hmem, List.filter_cons, if_pos (by simpa using hmem), List.map_cons, hmore,
            List.take_succ_cons, List.length_append, List.length_singleton, Nat.cast_add,
            Nat.cast_one, List.append_assoc]
          rfl
        · rw [if_neg hmem, List.filter_cons, if_neg (by simpa using hmem)]
      · have hnone : (limit - clients.length).toNat = 0 := by
          omega
        rw [if_neg (by simpa using hroom), hnone, List.take_zero, List.append_nil]

omit [DecidableEq Client] in
theorem sessionManagerGetSubscribers_spec {fuel : Nat}
    (hfuel : table.subscribers.length ≤ fuel) (symbol : CString) (maxClients : Int) :
    Triple (tableAt address table) (sessionManagerGetSubscribers fuel (some address)
      (some symbol) maxClients) fun reply =>
        fact (reply = if maxClients ≤ 0 then (-1, [])
          else (↑(table.subscribed symbol maxClients.toNat).length,
            table.subscribed symbol maxClients.toNat)) * tableAt address table := by
  rw [sessionManagerGetSubscribers]
  by_cases hnone : maxClients ≤ 0
  · rw [if_pos hnone, if_pos hnone]
    exact Triple.pure fun part hpart => fact_mul_apply.mpr ⟨rfl, hpart⟩
  · rw [if_neg hnone, if_neg hnone]
    refine Triple.of_any fun head => ?_
    apply loadManager_bind
    rw [mul_comm]
    refine (NodeLayout.walk_spec (writeSubscriber_spec symbol) hfuel []).call rfl fun clients => ?_
    rw [mul_assoc]
    refine Triple.of_fact_mul fun hclients => Triple.pure fun part hpart => ?_
    refine fact_mul_apply.mpr ⟨?_, tableAt_intro head (rearrange (mul_comm _ _) hpart)⟩
    rw [hclients, walked_subscribers, List.length_nil, Nat.cast_zero, Int.sub_zero,
      List.nil_append]
    rfl

omit [DecidableEq Client] in
/-- The test of `session_manager_cleanup_sessions` does not overflow. -/
theorem expired_agrees (timeout : Int) (now : ClockTime) (fields : SessionFields Client)
    (subscriber : Subscriber Client) (part : Heap (SessionCell Client))
    (hpart : holdsSubscriber fields subscriber part) :
    decide (timeout < int64 (int64 (now.seconds - fields.lastPingTime.seconds) * 1000)) =
      decide (timeout < (now.seconds - subscriber.lastPing.seconds) * 1000) := by
  obtain ⟨_, hpart⟩ := hpart
  rw [(fact_mul_apply.mp hpart).1.1]
  dsimp only
  have hnow := now.lower
  have hnow' := now.upper
  have hlast := subscriber.lastPing.lower
  have hlast' := subscriber.lastPing.upper
  have hsmall : int64 (now.seconds - subscriber.lastPing.seconds) =
      now.seconds - subscriber.lastPing.seconds := by
    apply Int.bmod_eq_of_le <;> omega
  have hproduct : int64 ((now.seconds - subscriber.lastPing.seconds) * 1000) =
      (now.seconds - subscriber.lastPing.seconds) * 1000 := by
    apply Int.bmod_eq_of_le <;> omega
  rw [hsmall, hproduct]

theorem iterate_countDown (count : Int) (rounds : Nat) :
    (fun count : Int => count - 1)^[rounds] count = count - rounds := by
  induction rounds generalizing count with
  | zero => simp
  | succ rounds ih =>
      rw [Function.iterate_succ_apply, ih]
      omega

omit [DecidableEq Client] in
/-- Every session that timed out is freed and counted off. -/
theorem sessionManagerCleanupSessions_spec {fuel : Nat}
    (hfuel : table.subscribers.length ≤ fuel) (now : ClockTime) :
    Triple (tableAt address table) (sessionManagerCleanupSessions fuel (some address) now)
      fun _ => tableAt address (table.cleanupSessions now) := by
  refine Triple.of_any fun head => ?_
  rw [sessionManagerCleanupSessions]
  apply loadManager_bind
  refine (NodeLayout.unlinkAll_spec
    (fun count => setSessions_spec count config.maxSessions config.sessionTimeoutMs)
    (fun count => releaseCounted_spec config.maxSessions config.sessionTimeoutMs count)
    (expired_agrees config.sessionTimeoutMs now) hfuel
    (table.subscribers.length : Int)).weaken fun _ part hpart => ?_
  obtain ⟨head', hpart⟩ := hpart
  refine tableAt_intro head' ?_
  have hkept : (table.cleanupSessions now).subscribers = table.subscribers.filter
      fun subscriber => !decide (config.sessionTimeoutMs <
        (now.seconds - subscriber.lastPing.seconds) * 1000) := by
    refine List.filter_congr fun subscriber _ => ?_
    simp only [← not_le, decide_not, Bool.not_not]
  have hcount : ((table.cleanupSessions now).subscribers.length : Int) =
      table.subscribers.length - table.subscribers.countP fun subscriber =>
        decide (config.sessionTimeoutMs <
          (now.seconds - subscriber.lastPing.seconds) * 1000) := by
    have hlength := List.length_eq_length_filter_add (fun subscriber : Subscriber Client =>
      decide (config.sessionTimeoutMs < (now.seconds - subscriber.lastPing.seconds) * 1000))
        (l := table.subscribers)
    rw [hkept, List.countP_eq_length_filter]
    omega
  rw [managerFields, hcount, hkept]
  rw [iterate_countDown] at hpart
  exact hpart

/-! ## Whole lives -/

/-- A call that needs memory. -/
def Allocates : SessionCall Client → Prop
  | .addClient _ _ => True
  | .subscribeSymbol _ _ => True
  | _ => False

/-- What a request may reply and make of a table: an addition or a subscription may be
refused memory. -/
def Next (refused : Prop) : SessionRequest Client →
    SessionTable Client config → Int × List Client → SessionTable Client config → Prop
  | .change call, table, reply, table' =>
      reply.2 = [] ∧ ((reply.1, table') = table.step call ∨
        Allocates call ∧ refused ∧ reply.1 = -1 ∧ table' = table)
  | .isSubscribed client symbol, table, reply, table' => table' = table ∧
      reply = (if (table.subscriptions client).any (·.any (· = symbol)) then 1 else 0, [])
  | .getSubscribers symbol maxClients, table, reply, table' => table' = table ∧
      reply = if maxClients ≤ 0 then (-1, [])
        else (↑(table.subscribed symbol maxClients.toNat).length,
          table.subscribed symbol maxClients.toNat)

theorem length_step_le (table : SessionTable Client config) (call : SessionCall Client) :
    (table.step call).2.subscribers.length ≤ table.subscribers.length + 1 := by
  cases call with
  | addClient client now =>
      rw [SessionTable.step, SessionTable.addClient]
      split_ifs
      · exact Nat.le_succ _
      · exact le_rfl
  | removeClient client => exact (List.length_filter_le ..).trans (Nat.le_succ _)
  | subscribeSymbol client symbol => exact (List.length_map ..).le.trans (Nat.le_succ _)
  | unsubscribeSymbol client symbol => exact (List.length_map ..).le.trans (Nat.le_succ _)
  | pingClients clock => exact List.length_mapIdx.le.trans (Nat.le_succ _)
  | cleanupSessions now => exact (List.length_filter_le ..).trans (Nat.le_succ _)

/-- A change of the sessions, whether or not it needs memory. -/
theorem change_spec (allocator : Allocator (SessionCell Client)) {fuel : Nat}
    (hfuel : table.subscribers.length ≤ fuel) (call : SessionCall Client) :
    Triple (tableAt address table)
      ((component allocator fuel config).call address (.change call)) fun reply =>
        any fun table' => fact (Next allocator.Fails (.change call) table reply table') *
          tableAt address table' := by
  have hdone : ∀ code, code = (table.step call).1 → ∀ part,
      tableAt address (table.step call).2 part → (any fun table' =>
        fact (Next allocator.Fails (.change call) table (code, []) table') * tableAt address table')
          part :=
    fun code hcode part hpart => any_intro (table.step call).2 (fact_mul_apply.mpr
      ⟨⟨rfl, Or.inl (Prod.ext hcode rfl)⟩, hpart⟩)
  cases call with
  | addClient client now =>
      refine (sessionManagerAddClient_spec allocator hfuel client now).bind fun code => ?_
      refine Triple.of_any fun table' => Triple.of_fact_mul fun hadded => Triple.pure fun part
        hpart => any_intro table' (fact_mul_apply.mpr ⟨⟨rfl, hadded.imp_right ?_⟩, hpart⟩)
      exact fun hrefused => ⟨trivial, hrefused⟩
  | removeClient client =>
      exact (sessionManagerRemoveClient_spec hfuel client).bind fun code =>
        Triple.of_fact_mul fun hcode => Triple.pure (hdone code hcode)
  | subscribeSymbol client symbol =>
      refine (sessionManagerSubscribeSymbol_spec allocator hfuel client symbol).bind
        fun code => ?_
      refine Triple.of_any fun table' => Triple.of_fact_mul fun hadded => Triple.pure fun part
        hpart => any_intro table' (fact_mul_apply.mpr ⟨⟨rfl, hadded.imp_right ?_⟩, hpart⟩)
      exact fun hrefused => ⟨trivial, hrefused⟩
  | unsubscribeSymbol client symbol =>
      exact (sessionManagerUnsubscribeSymbol_spec hfuel client symbol).bind fun code =>
        Triple.of_fact_mul fun hcode => Triple.pure (hdone code hcode)
  | pingClients clock =>
      exact (sessionManagerPingClients_spec hfuel clock).bind fun _ =>
        Triple.pure (hdone 0 rfl)
  | cleanupSessions now =>
      exact (sessionManagerCleanupSessions_spec hfuel now).bind fun _ =>
        Triple.pure (hdone 0 rfl)

/-- The functions of a session manager keep to its table. -/
def represents (fuel : Nat) (hmax : 0 ≤ config.maxSessions) :
    Component.Represents (fun allocator : Allocator (SessionCell Client) =>
      component allocator fuel config) (SessionTable Client config) where
  holds := tableAt
  start := SessionTable.empty hmax
  next := Next
  ready := fun table rest => table.subscribers.length + rest.length ≤ fuel
  create_spec := fun allocator => sessionManagerCreate_spec allocator hmax
  call_spec := by
    intro allocator address table request rest hfuel
    rw [List.length_cons] at hfuel
    cases request with
    | change call =>
        refine (change_spec allocator (by omega) call).weaken fun reply part hpart => ?_
        obtain ⟨table', hpart⟩ := hpart
        obtain ⟨hnext, hpart⟩ := fact_mul_apply.mp hpart
        refine any_intro table' (fact_mul_apply.mpr ⟨⟨hnext, ?_⟩, hpart⟩)
        rcases hnext with ⟨_, hstep | ⟨_, _, _, rfl⟩⟩
        · have hle := length_step_le table call
          rw [← hstep] at hle
          dsimp only at hle
          omega
        · omega
    | isSubscribed client symbol =>
        refine (sessionManagerIsSubscribed_spec (by omega) client symbol).bind fun subscribed => ?_
        refine Triple.of_fact_mul fun hsubscribed => Triple.pure fun part hpart =>
          any_intro table (fact_mul_apply.mpr ⟨⟨⟨rfl, ?_⟩, by omega⟩, hpart⟩)
        rw [hsubscribed]
    | getSubscribers symbol maxClients =>
        refine (sessionManagerGetSubscribers_spec (by omega) symbol maxClients).weaken
          fun reply part hpart => ?_
        obtain ⟨hreply, hpart⟩ := fact_mul_apply.mp hpart
        exact any_intro table (fact_mul_apply.mpr ⟨⟨⟨rfl, hreply⟩, by omega⟩, hpart⟩)
  destroy_none := fun _ => rfl
  destroy_spec := fun _ address table hfuel => sessionManagerDestroy_spec (by simpa using hfuel)

/-- The reply to a request, and the table after it, when there is memory. -/
def answer (table : SessionTable Client config) :
    SessionRequest Client → (Int × List Client) × SessionTable Client config
  | .change call => (((table.step call).1, []), (table.step call).2)
  | .isSubscribed client symbol =>
      ((if (table.subscriptions client).any (·.any (· = symbol)) then 1 else 0, []), table)
  | .getSubscribers symbol maxClients =>
      (if maxClients ≤ 0 then (-1, []) else (↑(table.subscribed symbol maxClients.toNat).length,
        table.subscribed symbol maxClients.toNat), table)

/-- The replies to some requests, when there is memory. -/
def answers : SessionTable Client config → List (SessionRequest Client) →
    List (Int × List Client)
  | _, [] => []
  | table, request :: rest => (answer table request).1 :: answers (answer table request).2 rest

theorem Next.eq_answer {refused : Prop} (hgranted : ¬ refused) {request : SessionRequest Client}
    {reply : Int × List Client} (hnext : Next refused request table reply table') :
    (reply, table') = answer table request := by
  cases request with
  | change call =>
      obtain ⟨hnone, hstep⟩ := hnext
      have hstep := hstep.resolve_right fun hrefused => hgranted hrefused.2.1
      rw [answer, ← hstep, ← hnone]
  | isSubscribed client symbol =>
      obtain ⟨rfl, rfl⟩ := hnext
      rfl
  | getSubscribers symbol maxClients =>
      obtain ⟨rfl, rfl⟩ := hnext
      rfl

/-- With an allocator that never gives up, every request is answered as the table does. -/
theorem answers_of_path {allocator : Allocator (SessionCell Client)} (hnever : ¬ allocator.Fails)
    {fuel : Nat} {hmax : 0 ≤ config.maxSessions} {requests : List (SessionRequest Client)}
    {start last : Moment (SessionCell Client) (List (Int × List Client))
      (SessionTable Client config)}
    (hpath : Path ((represents fuel hmax).Answered allocator address) requests start last) :
    last.collected = start.collected ++ answers start.state requests := by
  induction hpath with
  | nil moment => exact (List.append_nil moment.collected).symm
  | @cons request rest before middle last hstep _ ih =>
      obtain ⟨reply, -, hmiddle, hnext⟩ := hstep
      have hanswer := Next.eq_answer (fun hrefused => hnever hrefused.fails) hnext
      rw [ih, hmiddle, answers, ← hanswer, List.append_assoc]
      rfl

/-- From `session_manager_create` to `session_manager_destroy`, whatever is asked of it and
whenever an allocation fails: no call reads, writes or frees what is not allocated, and the
heap at the end is the one before, with every session, array and symbol freed once. Every
request is answered as by the table of subscribers, but for an addition or a subscription
that is refused memory on the heap that it finds, which returns -1 and changes nothing. When
no memory is refused the replies are those of the table. -/
theorem sessions_restore_heap (allocator : Allocator (SessionCell Client))
    (config : SessionConfig) (hmax : 0 ≤ config.maxSessions)
    (requests : List (SessionRequest Client)) (fuel : Nat) (hfuel : requests.length ≤ fuel)
    (heap : Heap (SessionCell Client)) :
    ∃ result, (component allocator fuel config).live requests heap = some (result, heap) ∧
      (represents fuel hmax).Outcome allocator requests heap result ∧
      (¬ allocator.Refuses (fun allocator => (component allocator fuel config).live requests)
          heap →
        result = some (answers (SessionTable.empty hmax) requests)) := by
  have hready : (represents fuel hmax).ready
      (represents fuel hmax : Component.Represents (fun allocator =>
        component allocator fuel config) (SessionTable Client config)).start requests := by
    simpa [represents, SessionTable.empty] using hfuel
  exact (represents fuel hmax).live_replies allocator hready heap
    fun _ hnever _ _ _ hpath => answers_of_path hnever hpath

theorem sessions_restore_heap_two :
    ∃ result, (component Allocator.highest 3 ⟨2, 30000⟩).live
        [.change (.addClient 7 ⟨100, by decide, by decide⟩),
          .change (.subscribeSymbol 7 "AAPL".toList), .getSubscribers "AAPL".toList 5] ∅ =
            some (result, ∅) ∧
      (represents 3 (by decide) : Component.Represents (fun allocator =>
        component allocator 3 ⟨2, 30000⟩) (SessionTable Nat _)).Outcome Allocator.highest
        [.change (.addClient 7 ⟨100, by decide, by decide⟩),
          .change (.subscribeSymbol 7 "AAPL".toList), .getSubscribers "AAPL".toList 5] ∅ result ∧
      (¬ (Allocator.highest : Allocator (SessionCell Nat)).Refuses (fun allocator =>
          (component allocator 3 ⟨2, 30000⟩).live
            [.change (.addClient 7 ⟨100, by decide, by decide⟩),
              .change (.subscribeSymbol 7 "AAPL".toList), .getSubscribers "AAPL".toList 5]) ∅ →
        result = some (answers (SessionTable.empty (by decide) : SessionTable Nat ⟨2, 30000⟩)
          [.change (.addClient 7 ⟨100, by decide, by decide⟩),
            .change (.subscribeSymbol 7 "AAPL".toList), .getSubscribers "AAPL".toList 5])) :=
  sessions_restore_heap Allocator.highest ⟨2, 30000⟩ (by decide) _ 3 (by decide) ∅

end SessionMemory

end QuantTrading
