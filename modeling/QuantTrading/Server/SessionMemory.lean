import QuantTrading.Server.SessionPrograms

/-! # Sessions in memory

A session owns its array and the copies of its symbols, a manager owns its sessions. The
loops over an array are specified first, then the calls on a manager, against the table
of subscribers that the manager represents.
-/

namespace QuantTrading

open Separation Separation.Program Separation.Assertion

namespace SessionMemory

variable {Client α : Type}

/-! ## Arrays of symbols -/

/-- Copies of symbols at their addresses. -/
def textsAt (texts : List (Nat × CString)) : Assertion (SessionCell Client) :=
  (texts.map fun text => points text.1 (.text text.2)).prod

/-- An array that starts with pointers to texts. -/
def slotsOf (texts : List (Nat × CString)) (spare : List (Option Nat)) : List (Option Nat) :=
  texts.map (fun text => some text.1) ++ spare

/-- A session with its array and its symbols. -/
def holdsSubscriber (fields : SessionFields Client) (subscriber : Subscriber Client) :
    Assertion (SessionCell Client) :=
  any fun place : Nat × List (Nat × CString) × List (Option Nat) =>
    fact (fields = ⟨subscriber.client, some place.1, place.2.1.length, subscriber.lastPing⟩ ∧
      subscriber.symbols = place.2.1.map Prod.snd ∧
      place.2.1.length + place.2.2.length = maxSubscriptions) *
    (points place.1 (.symbols (slotsOf place.2.1 place.2.2)) * textsAt place.2.1)

section Arrays

variable {symbols : Nat} {slots : List (Option Nat)} {other : Assertion (SessionCell Client)}
  {post : α → Assertion (SessionCell Client)} {done rest : List (Nat × CString)}
  {text : Nat × CString} {spare : List (Option Nat)}

theorem textsAt_middle : (textsAt (done ++ text :: rest) : Assertion (SessionCell Client)) =
    points text.1 (.text text.2) * textsAt (done ++ rest) := by
  simp only [textsAt, List.map_append, List.map_cons, List.prod_append, List.prod_cons]
  ac_rfl

theorem getElem?_slotsOf_middle :
    (slotsOf (done ++ text :: rest) spare)[done.length]? = some (some text.1) := by
  simp [slotsOf]

theorem loadSlot_bind {i : Nat} {slot : Option Nat} (hslot : slots[i]? = some slot)
    {next : Option Nat → Program (SessionCell Client) α}
    (hnext : Triple (points symbols (.symbols slots) * other) (next slot) post) :
    Triple (points symbols (.symbols slots) * other) (loadSlot (some symbols) i >>= next)
      post := by
  rw [loadSlot, bind_assoc]
  refine Triple.load_bind rfl ?_
  dsimp only
  rw [hslot]
  exact hnext

theorem storeSlot_bind {i : Nat} (hi : i < slots.length) (slot : Option Nat)
    {next : Unit → Program (SessionCell Client) α}
    (hnext : Triple (points symbols (.symbols (slots.set i slot)) * other) (next ()) post) :
    Triple (points symbols (.symbols slots) * other) (storeSlot (some symbols) i slot >>= next)
      post := by
  rw [storeSlot, bind_assoc]
  refine Triple.load_bind rfl ?_
  dsimp only
  rw [if_pos hi]
  exact Triple.store_bind rfl hnext

theorem loadText_bind {address : Nat} {symbol : CString}
    {next : CString → Program (SessionCell Client) α}
    (hnext : Triple (points address (.text symbol) * other) (next symbol) post) :
    Triple (points address (.text symbol) * other) (loadText (some address) >>= next) post := by
  rw [loadText, bind_assoc]
  exact Triple.load_bind rfl hnext

/-- The loop ends at the first index from `done` on that has the symbol. -/
theorem findSymbol_spec (symbol : CString) :
    Triple (points symbols (.symbols (slotsOf (done ++ rest) spare)) * textsAt (done ++ rest))
      (findSymbol (some symbols) symbol rest.length done.length) fun found =>
        fact (found = ((rest.map Prod.snd).findIdx? (· = symbol)).map (done.length + ·)) *
          (points symbols (.symbols (slotsOf (done ++ rest) spare)) *
            textsAt (done ++ rest) : Assertion (SessionCell Client)) := by
  induction rest generalizing done with
  | nil =>
      exact Triple.pure fun part hpart => fact_mul_apply.mpr ⟨rfl, hpart⟩
  | cons text rest ih =>
      rw [List.length_cons, findSymbol]
      apply loadSlot_bind getElem?_slotsOf_middle
      rw [textsAt_middle, mul_left_comm]
      apply loadText_bind
      rw [mul_left_comm, ← textsAt_middle, List.map_cons, List.findIdx?_cons]
      by_cases hsame : text.2 = symbol
      · rw [if_pos hsame, if_pos (decide_eq_true hsame)]
        exact Triple.pure fun part hpart => fact_mul_apply.mpr ⟨rfl, hpart⟩
      · rw [if_neg hsame, if_neg (by simpa using hsame)]
        have hnext := @ih (done ++ [text])
        rw [List.append_assoc, List.singleton_append, List.length_append,
          List.length_singleton] at hnext
        refine hnext.weaken fun found part hpart => ?_
        obtain ⟨hfound, hpart⟩ := fact_mul_apply.mp hpart
        refine fact_mul_apply.mpr ⟨hfound.trans ?_, hpart⟩
        rw [Option.map_map]
        congr 1
        funext i
        simp [Nat.add_assoc, Nat.add_comm 1]

/-- Looking for a symbol in the array of a session. -/
theorem findSymbol_bind {texts : List (Nat × CString)} (symbol : CString)
    {next : Option Nat → Program (SessionCell Client) α}
    (hnext : Triple (points symbols (.symbols (slotsOf texts spare)) * (textsAt texts * other))
      (next ((texts.map Prod.snd).findIdx? (· = symbol))) post) :
    Triple (points symbols (.symbols (slotsOf texts spare)) * (textsAt texts * other))
      (findSymbol (some symbols) symbol texts.length 0 >>= next) post := by
  refine (@findSymbol_spec Client symbols [] texts spare symbol).call (mul_assoc _ _ other).symm
    fun found => ?_
  rw [mul_assoc]
  refine Triple.of_fact_mul fun hfound => ?_
  rw [List.length_nil, Option.map_congr (fun i _ => Nat.zero_add i), Option.map_id'] at hfound
  rw [hfound, mul_assoc]
  exact hnext

/-- The text at the index that the loop ends at. -/
theorem split_of_findIdx? {texts : List (Nat × CString)} {symbol : CString} {i : Nat}
    (hfound : (texts.map Prod.snd).findIdx? (· = symbol) = some i) :
    ∃ done text rest, texts = done ++ text :: rest ∧ done.length = i ∧ text.2 = symbol ∧
      symbol ∉ done.map Prod.snd := by
  induction texts generalizing i with
  | nil => cases hfound
  | cons first texts ih =>
      rw [List.map_cons, List.findIdx?_cons] at hfound
      by_cases hsame : first.2 = symbol
      · rw [if_pos (decide_eq_true hsame)] at hfound
        exact ⟨[], first, texts, rfl, Option.some.inj hfound, hsame, List.not_mem_nil⟩
      · rw [if_neg (by simpa using hsame)] at hfound
        obtain ⟨j, hj, rfl⟩ := Option.map_eq_some_iff.mp hfound
        obtain ⟨done, text, rest, rfl, rfl, htext, hnot⟩ := ih hj
        refine ⟨first :: done, text, rest, rfl, rfl, htext, ?_⟩
        exact List.not_mem_cons_of_ne_of_not_mem (Ne.symm hsame) hnot

theorem not_mem_of_findIdx? {texts : List (Nat × CString)} {symbol : CString}
    (hfound : (texts.map Prod.snd).findIdx? (· = symbol) = none) :
    symbol ∉ texts.map Prod.snd := by
  intro hmem
  simpa using List.findIdx?_eq_none_iff.mp hfound symbol hmem

/-- Freeing the symbols of an array. -/
theorem freeSymbols_spec :
    Triple (points symbols (.symbols (slotsOf (done ++ rest) spare)) * textsAt rest)
      (freeSymbols (some symbols) rest.length done.length) fun _ =>
        (points symbols (.symbols (slotsOf (done ++ rest) spare)) :
          Assertion (SessionCell Client)) := by
  induction rest generalizing done with
  | nil =>
      refine Triple.pure fun part hpart => ?_
      rwa [textsAt, List.map_nil, List.prod_nil, mul_one] at hpart
  | cons text rest ih =>
      rw [List.length_cons, freeSymbols]
      apply loadSlot_bind getElem?_slotsOf_middle
      rw [release]
      refine Triple.free_bind (show _ = points text.1 (.text text.2) *
        (points symbols (.symbols (slotsOf (done ++ text :: rest) spare)) * textsAt rest)
          by rw [textsAt, List.map_cons, List.prod_cons, textsAt]; ac_rfl) ?_
      have hnext := @ih (done ++ [text])
      rwa [List.append_assoc, List.singleton_append, List.length_append,
        List.length_singleton] at hnext

/-- Moving symbols down closes the gap at an index and leaves one pointer more behind. -/
theorem moveSymbols_spec (entry : Option Nat) (front back spare : List (Option Nat)) :
    Triple (points symbols (.symbols (front ++ entry :: back ++ spare)))
      (moveSymbols (some symbols) back.length front.length) fun _ =>
        (any fun left : List (Option Nat) => fact (left.length = spare.length + 1) *
          points symbols (.symbols (front ++ back ++ left)) : Assertion (SessionCell Client)) := by
  induction back generalizing entry front with
  | nil =>
      refine Triple.pure fun part hpart => any_intro (entry :: spare) ?_
      refine fact_mul_apply.mpr ⟨rfl, ?_⟩
      simpa using hpart
  | cons next back ih =>
      rw [List.length_cons, moveSymbols,
        ← mul_one (points symbols (SessionCell.symbols
          (front ++ entry :: (next :: back) ++ spare)))]
      have hread : (front ++ entry :: (next :: back) ++ spare)[front.length + 1]? = some next := by
        simp
      apply loadSlot_bind hread
      refine storeSlot_bind (by simp) next ?_
      have hwrite : (front ++ entry :: (next :: back) ++ spare).set front.length next =
          front ++ [next] ++ next :: back ++ spare := by
        simp
      have hnext := ih next (front ++ [next])
      rw [List.length_append, List.length_singleton] at hnext
      rw [hwrite, mul_one]
      refine hnext.weaken fun _ part hpart => ?_
      obtain ⟨left, hpart⟩ := hpart
      refine any_intro left ?_
      rwa [List.append_assoc front, List.singleton_append] at hpart

end Arrays

/-! ## Sessions -/

variable {config : SessionConfig}

/-- The record of a manager whose sessions represent a table. -/
def managerFields (table : SessionTable Client config) (head : Option Nat) : ManagerFields where
  sessions := head
  sessionCount := table.subscribers.length
  maxSessions := config.maxSessions
  sessionTimeoutMs := config.sessionTimeoutMs

/-- A manager in memory. -/
def tableAt (address : Nat) (table : SessionTable Client config) :
    Assertion (SessionCell Client) :=
  any fun head => points address (.manager (managerFields table head)) *
    clientSession.segment holdsSubscriber head table.subscribers none

section Manager

variable {address : Nat} {table table' : SessionTable Client config} {head : Option Nat}
  {fields : SessionFields Client} {manager : ManagerFields} {subscriber : Subscriber Client}
  {other : Assertion (SessionCell Client)} {post : α → Assertion (SessionCell Client)}

theorem loadManager_bind {next : ManagerFields → Program (SessionCell Client) α}
    (hnext : Triple (points address (.manager manager) * other) (next manager) post) :
    Triple (points address (.manager manager) * other) (loadManager address >>= next) post := by
  rw [loadManager, bind_assoc]
  exact Triple.load_bind rfl hnext

/-- A session that represents a subscriber, opened. -/
theorem open_subscriber {program : Program (SessionCell Client) α}
    {p : SessionFields Client → Assertion (SessionCell Client)}
    (h : ∀ (symbols : Nat) (texts : List (Nat × CString)) (spare : List (Option Nat)),
      subscriber.symbols = texts.map Prod.snd →
      texts.length + spare.length = maxSubscriptions →
      Triple (p ⟨subscriber.client, some symbols, texts.length, subscriber.lastPing⟩ *
        (points symbols (.symbols (slotsOf texts spare)) * (textsAt texts * other)))
        program post) :
    Triple (p fields * (holdsSubscriber fields subscriber * other)) program post := by
  rw [mul_left_comm]
  refine Triple.of_any_mul fun ⟨symbols, texts, spare⟩ => ?_
  rw [mul_assoc]
  refine Triple.of_fact_mul ?_
  rintro ⟨rfl, hsymbols, hspare⟩
  exact Triple.reorder _ (by ac_rfl) (h symbols texts spare hsymbols hspare)

/-- A session from its parts. -/
theorem holdsSubscriber_intro {symbols : Nat} (texts : List (Nat × CString))
    (spare : List (Option Nat)) (hsymbols : subscriber.symbols = texts.map Prod.snd)
    (hspare : texts.length + spare.length = maxSubscriptions) {part : Heap (SessionCell Client)}
    (hpart : (points symbols (.symbols (slotsOf texts spare)) * (textsAt texts * other) :
      Assertion (SessionCell Client)) part) :
    (holdsSubscriber ⟨subscriber.client, some symbols, texts.length, subscriber.lastPing⟩
      subscriber * other) part := by
  rw [holdsSubscriber, any_mul]
  refine any_intro (symbols, texts, spare) ?_
  rw [fact_of_true ⟨rfl, hsymbols, hspare⟩, one_mul, mul_assoc]
  exact hpart

theorem freeSession_spec (address : Nat) (fields : SessionFields Client) (next : Option Nat)
    (subscriber : Subscriber Client) :
    Triple (points address (clientSession.node fields next) * holdsSubscriber fields subscriber)
      (freeSession address) fun _ => 1 := by
  rw [← mul_one (holdsSubscriber fields subscriber)]
  refine open_subscriber (p := fun fields => points address (clientSession.node fields next))
    fun symbols texts spare _ _ => ?_
  rw [freeSession]
  apply NodeLayout.load_bind
  rw [mul_one]
  have hfree : Triple (points symbols (.symbols (slotsOf texts spare)) * textsAt texts)
      (freeSymbols (some symbols) texts.length 0) fun _ =>
        (points symbols (.symbols (slotsOf texts spare)) : Assertion (SessionCell Client)) :=
    @freeSymbols_spec Client symbols [] texts spare
  refine hfree.call (mul_comm _ _) fun _ => ?_
  exact Triple.free_bind rfl Triple.free

/-- A table from its sessions. -/
theorem tableAt_intro (head : Option Nat) {part : Heap (SessionCell Client)}
    (hpart : (points address (.manager (managerFields table head)) *
      clientSession.segment holdsSubscriber head table.subscribers none :
        Assertion (SessionCell Client)) part) : tableAt address table part :=
  any_intro head hpart

/-- A manager whose session at the cut represents another subscriber now. -/
theorem tableAt_update {test : Subscriber Client → Bool} (cut : Cut test table.subscribers)
    {session : Nat} {next : Option Nat} {subscriber' : Subscriber Client}
    (hsubscribers : table'.subscribers = cut.before ++ subscriber' :: cut.behind)
    {part : Heap (SessionCell Client)}
    (hpart : (points session (clientSession.node fields next) *
      (holdsSubscriber fields subscriber' *
        (clientSession.segment holdsSubscriber head cut.before (some session) *
          (clientSession.segment holdsSubscriber next cut.behind none *
            points address (.manager (managerFields table head))))) :
              Assertion (SessionCell Client)) part) :
    tableAt address table' part := by
  have hlength : table'.subscribers.length = table.subscribers.length := by
    rw [hsubscribers, congrArg List.length cut.eq]
    simp
  refine tableAt_intro head (rearrange (mul_comm _ _) ?_)
  rw [managerFields, hlength, hsubscribers]
  apply NodeLayout.segment_append
  have hsession : (clientSession.segment holdsSubscriber (some session)
      (subscriber' :: cut.behind) none *
        (clientSession.segment holdsSubscriber head cut.before (some session) *
          points address (.manager (managerFields table head))) :
            Assertion (SessionCell Client)) part :=
    NodeLayout.segment_cons fields next (rearrange (by ac_rfl) hpart)
  exact rearrange (by rw [managerFields]; ac_rfl) hsession

theorem sessionManagerCreate_spec (allocator : Allocator (SessionCell Client))
    (hmax : 0 ≤ config.maxSessions) :
    Triple 1 (sessionManagerCreate allocator config) fun result =>
      match result with
      | none => fact allocator.Fails
      | some address =>
          tableAt address (SessionTable.empty hmax : SessionTable Client config) := by
  refine (Triple.allocate allocator _).weaken fun result part hpart => ?_
  cases result with
  | none => exact hpart
  | some address =>
      refine tableAt_intro none ?_
      rw [SessionTable.empty, NodeLayout.segment_nil, mul_one]
      exact hpart

theorem sessionManagerDestroy_spec {fuel : Nat} (hfuel : table.subscribers.length ≤ fuel) :
    Triple (tableAt address table) (sessionManagerDestroy fuel (some address)) fun _ => 1 := by
  refine Triple.of_any fun head => ?_
  rw [sessionManagerDestroy]
  apply loadManager_bind
  rw [mul_comm]
  refine (NodeLayout.releaseAll_spec freeSession_spec hfuel).call rfl fun _ => ?_
  rw [one_mul]
  exact Triple.free

theorem sessionManagerPingClients_spec {fuel : Nat} (hfuel : table.subscribers.length ≤ fuel)
    (clock : Nat → ClockTime) :
    Triple (tableAt address table) (sessionManagerPingClients fuel (some address) clock)
      fun _ => tableAt address (table.pingClients clock) := by
  refine Triple.of_any fun head => ?_
  rw [sessionManagerPingClients]
  apply loadManager_bind
  rw [mul_comm]
  have hchange : ∀ (index : Nat) (fields : SessionFields Client) (subscriber : Subscriber Client)
      (part : Heap (SessionCell Client)), holdsSubscriber fields subscriber part →
        holdsSubscriber { fields with lastPingTime := clock index }
          { subscriber with lastPing := clock index } part := by
    rintro index fields subscriber part ⟨⟨symbols, texts, spare⟩, hpart⟩
    obtain ⟨⟨hfields, hsymbols, hspare⟩, hcells⟩ := fact_mul_apply.mp hpart
    refine any_intro (symbols, texts, spare) (fact_mul_apply.mpr ⟨⟨?_, hsymbols, hspare⟩, hcells⟩)
    rw [hfields]
  refine (NodeLayout.updateAll_spec hchange hfuel 0).last rfl fun _ part hpart => ?_
  refine tableAt_intro head (rearrange (mul_comm _ _) ?_)
  rw [managerFields, SessionTable.pingClients_subscribers, List.length_mapIdx]
  simp only [Nat.zero_add] at hpart
  exact hpart

theorem setSessions_spec (count capacity timeout : Int) (old new : Option Nat) :
    Triple (points address (.manager ⟨old, count, capacity, timeout⟩))
      (clientSession.redirect (setSessions address) none new) fun _ =>
        (points address (.manager ⟨new, count, capacity, timeout⟩) :
          Assertion (SessionCell Client)) := by
  rw [NodeLayout.redirect, setSessions,
    ← mul_one (points address (SessionCell.manager ⟨old, count, capacity, timeout⟩))]
  apply loadManager_bind
  exact (Triple.store _).last rfl fun _ part hpart => by rwa [mul_one] at hpart

/-- Releasing a session that is unlinked, and counting it off. -/
theorem releaseCounted_spec (capacity timeout count : Int) (pointer : Option Nat)
    (session : Nat) (fields : SessionFields Client) (next : Option Nat)
    (subscriber : Subscriber Client) :
    Triple (points session (clientSession.node fields next) * (holdsSubscriber fields subscriber *
        points address (.manager ⟨pointer, count, capacity, timeout⟩)))
      (do freeSession session; countDown address) fun _ =>
        points address (.manager ⟨pointer, count - 1, capacity, timeout⟩) := by
  rw [← mul_assoc]
  refine (freeSession_spec session fields next subscriber).call rfl fun _ => ?_
  rw [mul_comm, countDown]
  apply loadManager_bind
  exact (Triple.store _).last rfl fun _ part hpart => by rwa [mul_one] at hpart

variable [DecidableEq Client]

/-- The loops tell the session of a client by its pointer. -/
theorem client_agrees (client : Client) (fields : SessionFields Client)
    (subscriber : Subscriber Client) (part : Heap (SessionCell Client))
    (hpart : holdsSubscriber fields subscriber part) :
    decide (fields.client = client) = decide (subscriber.client = client) := by
  obtain ⟨_, hpart⟩ := hpart
  rw [(fact_mul_apply.mp hpart).1.1]

/-- The table cut at a client. -/
abbrev ClientCut (table : SessionTable Client config) (client : Client) :=
  Cut (fun subscriber : Subscriber Client => subscriber.client = client) table.subscribers

theorem client_not_mem {client : Client} (hnone : ∀ subscriber ∈ table.subscribers,
    decide (subscriber.client = client) = false) : client ∉ table.clients := by
  intro hmem
  obtain ⟨subscriber, hsubscriber, heq⟩ := List.mem_map.mp hmem
  exact of_decide_eq_false (hnone subscriber hsubscriber) heq

section Cuts

variable {client : Client} (cut : ClientCut table client)

theorem cut_client : cut.value.client = client :=
  of_decide_eq_true cut.passed

include cut in
theorem cut_mem : client ∈ table.clients :=
  List.mem_map.mpr ⟨cut.value, cut.mem, cut_client cut⟩

theorem cut_subscriptions : table.subscriptions client = some cut.value.symbols := by
  rw [SessionTable.subscriptions, cut.find?_eq]
  rfl

/-- Behind the session of a client there is no other one of it. -/
theorem cut_behind : ∀ other ∈ cut.behind, other.client ≠ client := by
  intro other hother heq
  have hnodup := table.clients_nodup
  rw [congrArg (List.map Subscriber.client) cut.eq, List.map_append, List.map_cons] at hnodup
  have hcons := (List.nodup_append.mp hnodup).2.1
  refine (List.nodup_cons.mp hcons).1 (List.mem_map.mpr ⟨other, hother, ?_⟩)
  rw [heq, cut_client cut]

theorem cut_updated (update : Subscriber Client → Subscriber Client) :
    table.updated client update = cut.before ++ update cut.value :: cut.behind := by
  have hother : ∀ others : List (Subscriber Client), (∀ other ∈ others, other.client ≠ client) →
      (others.map fun subscriber =>
        if subscriber.client = client then update subscriber else subscriber) = others := by
    intro others hothers
    conv_rhs => rw [← List.map_id others]
    exact List.map_congr_left fun other hmem => if_neg (hothers other hmem)
  rw [SessionTable.updated, congrArg (List.map _) cut.eq, List.map_append, List.map_cons,
    if_pos (cut_client cut), hother cut.before, hother cut.behind (cut_behind cut)]
  exact fun other hmem => of_decide_eq_false (cut.skipped other hmem)

include cut in
theorem cut_keep :
    (table.keep fun subscriber => subscriber.client ≠ client).subscribers =
      cut.before ++ cut.behind := by
  rw [SessionTable.keep]
  dsimp only
  rw [congrArg (List.filter _) cut.eq, List.filter_append, List.filter_cons_of_neg
    (by simp [cut_client cut]), List.filter_eq_self.mpr, List.filter_eq_self.mpr]
  · exact fun other hmem => by simpa using cut_behind cut other hmem
  · exact fun other hmem => by simpa using cut.skipped other hmem

end Cuts

theorem updated_of_not_mem {client : Client} (hnot : client ∉ table.clients)
    (update : Subscriber Client → Subscriber Client) :
    table.updated client update = table.subscribers := by
  rw [SessionTable.updated]
  conv_rhs => rw [← List.map_id table.subscribers]
  refine List.map_congr_left fun subscriber hmem => if_neg fun heq => hnot ?_
  exact List.mem_map.mpr ⟨subscriber, hmem, heq⟩

theorem subscriptions_of_not_mem {client : Client} (hnot : client ∉ table.clients) :
    table.subscriptions client = none := by
  rw [SessionTable.subscriptions, Option.map_eq_none_iff, List.find?_eq_none]
  intro subscriber hmem heq
  exact hnot (List.mem_map.mpr ⟨subscriber, hmem, of_decide_eq_true heq⟩)

/-- Looking for the session of a client. -/
theorem findSession_bind {fuel : Nat} (hfuel : table.subscribers.length ≤ fuel) {client : Client}
    {next : Option Nat → Program (SessionCell Client) α}
    (hnone : client ∉ table.clients → Triple (tableAt address table) (next none) post)
    (hsome : ∀ (cut : ClientCut table client) session fields link head,
      Triple (points session (clientSession.node fields link) *
        (holdsSubscriber fields cut.value *
          (clientSession.segment holdsSubscriber head cut.before (some session) *
            (clientSession.segment holdsSubscriber link cut.behind none *
              points address (.manager (managerFields table head)))))) (next (some session)) post) :
    Triple (tableAt address table) (findSession fuel address client >>= next) post := by
  refine Triple.of_any fun head => ?_
  rw [findSession, bind_assoc]
  apply loadManager_bind
  rw [mul_comm]
  refine NodeLayout.search_bind (client_agrees client) hfuel (fun hmissing => ?_)
    fun cut session fields link => hsome cut session fields link head
  refine (hnone (client_not_mem hmissing)).consequence (fun part hpart => ?_) fun _ _ => id
  exact tableAt_intro head (rearrange (mul_comm _ _) hpart)

end Manager

end SessionMemory

end QuantTrading
