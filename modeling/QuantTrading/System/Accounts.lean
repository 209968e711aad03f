import Mathlib.Data.Multiset.Filter
import QuantTrading.System.TradingSystem

/-! # Confirmations are accounted for

Every order that the server keeps is confirmed to the client that typed it, once: what a
client has printed and what is under way to it are the orders with its trader id. A trader
id is made of a process id, so the process ids of the clients have to differ.
-/

namespace QuantTrading

open RequestReply

section Ledger

variable {α : Type}

/-- The orders in memory with a trader id, in the order of their addresses. -/
def ServerHandlers.ordersOf (handlers : ServerHandlers α) (traderId : CString) :
    List (OrderMessage α) :=
  ((List.range handlers.nextAddress).map fun address =>
    (handlers.orders address).message).filter fun order => order.traderId = traderId

/-- A notice of a confirmed order. -/
def Notice.isPlaced : Notice α → Bool
  | .orderPlaced _ _ _ _ _ => true
  | _ => false

/-- The confirmations that a client has printed. -/
def ClientProcess.confirmed (process : ClientProcess α) : Multiset (Notice α) :=
  (process.app.notices.filter Notice.isPlaced : Multiset (Notice α))

variable (ofNumeral : CString → α) (printer : ResponsePrinter α)

/-- What a response adds to the confirmations. -/
def Response.confirms : Response α → Multiset (Notice α)
  | .orderAccepted order _ => {confirmationNotice ofNumeral printer order}
  | _ => 0

/-- The confirmations that the orders of a trader call for. -/
def ServerHandlers.confirmationsDue (handlers : ServerHandlers α) (traderId : CString) :
    Multiset (Notice α) :=
  ((handlers.ordersOf traderId).map (confirmationNotice ofNumeral printer) :
    Multiset (Notice α))

variable {ofNumeral printer}

/-- A client prints what a response confirms. -/
theorem confirmed_told (process : ClientProcess α) (response : Response α) :
    ClientProcess.confirmed
        { process with app := process.app.told ofNumeral printer response } =
      process.confirmed + response.confirms ofNumeral printer := by
  unfold ClientProcess.confirmed
  cases response with
  | orderAccepted order timestamp =>
      change ((process.app.notices ++ [confirmationNotice ofNumeral printer order]).filter
        Notice.isPlaced : Multiset (Notice α)) = _
      rw [List.filter_append, ← Multiset.coe_add]
      rfl
  | bookSnapshot sent =>
      unfold ClientApp.told
      split_ifs
      · change ((process.app.notices ++ [_]).filter Notice.isPlaced : Multiset (Notice α)) = _
        rw [List.filter_append, ← Multiset.coe_add]
        rfl
      · exact (add_zero _).symm
  | orderCanceled orderId symbol timestamp => exact (add_zero _).symm
  | error reason => exact (add_zero _).symm

/-- The orders of a trader are those before and the one that is placed. -/
theorem ServerHandlers.ordersOf_placed {before after : ServerHandlers α} {order : OrderMessage α}
    (haddress : after.nextAddress = before.nextAddress + 1)
    (hnew : (after.orders before.nextAddress).message = order)
    (hold : ∀ address, address ≠ before.nextAddress →
      (after.orders address).message = (before.orders address).message) (traderId : CString) :
    after.ordersOf traderId =
      before.ordersOf traderId ++ if order.traderId = traderId then [order] else [] := by
  have hmap : (List.range before.nextAddress).map (fun address => (after.orders address).message) =
      (List.range before.nextAddress).map fun address => (before.orders address).message :=
    List.map_congr_left fun address haddress => hold address (List.mem_range.mp haddress).ne
  unfold ordersOf
  rw [haddress, List.range_succ, List.map_append, hmap, List.filter_append, List.map_singleton,
    hnew, List.filter_singleton]
  by_cases hsame : order.traderId = traderId <;> simp [hsame]

end Ledger

/-! ## One call -/

section Handle

variable {α : Type} [LinearOrder α] {limits : PriceLimits α} {ofNumeral : CString → α}
  {printer : ResponsePrinter α} {handlers : ServerHandlers α}

/-- A place message confirms the order that it keeps, and no other. -/
theorem handlePlaceOrder_confirms (hstored : handlers.Stored fun _ _ => True)
    (created confirmed : Int) (order : OrderMessage α) (traderId : CString) :
    let result := handlers.handlePlaceOrder created confirmed (some order)
    result.1.confirmationsDue ofNumeral printer traderId =
      handlers.confirmationsDue ofNumeral printer traderId +
        if order.traderId = traderId then
          (result.2.map (Response.confirms ofNumeral printer)).sum
        else 0 := by
  intro result
  rcases handlers.handlePlaceOrder_cases created confirmed (some order) with
    ⟨reason, hresult⟩ | ⟨message, found, opened, hmessage, hfind, hcases⟩
  · have heq : result = (handlers, [.error reason]) := hresult
    rw [heq]
    simp [Response.confirms]
  cases hmessage
  have hopened : opened.nextAddress = handlers.nextAddress ∧ opened.orders = handlers.orders := by
    rcases (ServerHandlers.findOrCreateBook_spec hfind).1 with rfl | rfl <;> exact ⟨rfl, rfl⟩
  have hdue : opened.confirmationsDue ofNumeral printer traderId =
      handlers.confirmationsDue ofNumeral printer traderId := by
    unfold ServerHandlers.confirmationsDue ServerHandlers.ordersOf
    rw [hopened.1, hopened.2]
  rcases hcases with ⟨reason, hresult⟩ | ⟨index, registered, newOrder, rfl, hcreate, hresult⟩
  · have heq : result = (opened, [.error reason]) := hresult
    rw [heq, ← hdue]
    simp [Response.confirms]
  · have hregistered := List.mem_of_getElem?
      ((ServerHandlers.findOrCreateBook_spec hfind).2 index registered rfl).1
    obtain ⟨-, hnew, hothers, -⟩ :=
      (hstored.findOrCreateBook hfind).addAndMatch_after hregistered newOrder
    have hmessage : ∀ {first second : Order α}, first.terms = second.terms →
        first.message = second.message := fun hterms => by
      rw [← Order.terms_message, hterms, Order.terms_message]
    have horders : result.1.ordersOf traderId =
        opened.ordersOf traderId ++ if order.traderId = traderId then [order] else [] := by
      apply ServerHandlers.ordersOf_placed
      · exact congrArg (fun current => current.1.nextAddress) hresult
      · refine Eq.trans ?_ (Order.create_message hcreate)
        exact (congrArg (fun current => (current.1.orders opened.nextAddress).message)
          hresult).trans (hmessage hnew)
      · intro address hne
        exact (congrArg (fun current => (current.1.orders address).message) hresult).trans
          (hmessage (hothers address hne))
    have hresponses : result.2 = _ := congrArg Prod.snd hresult
    unfold ServerHandlers.confirmationsDue at hdue ⊢
    rw [horders, List.map_append, ← Multiset.coe_add, hdue, hresponses]
    split_ifs
    · simp [Response.confirms]
    · simp

/-- A typed request confirms the order that it places, to its client. -/
theorem handle_confirms {Client : Type} {pid : Client → Int}
    (hinjective : Function.Injective fun client => traderIdOf (pid client)) [DecidableEq Client]
    (hstored : handlers.Stored fun _ _ => True) {client : Client} {request : ClientRequest α}
    (htyped : request.Typed limits pid client) (frame : WorkerFrame α) (other : Client) :
    let result := handlers.handle (request.call frame)
    result.1.confirmationsDue ofNumeral printer (traderIdOf (pid other)) =
      handlers.confirmationsDue ofNumeral printer (traderIdOf (pid other)) +
        if client = other then (result.2.map (Response.confirms ofNumeral printer)).sum
        else 0 := by
  intro result
  have hresult : result = handlers.handle (request.call frame) := rfl
  unfold ClientRequest.call at hresult
  split_ifs at hresult with hview
  · rw [ServerHandlers.handle] at hresult
    have hnothing : (result.2.map (Response.confirms ofNumeral printer)).sum = 0 := by
      rw [hresult]
      rcases handlers.handleBookRequest_responses (some request.cmd.symbol) with
        ⟨reason, hsent⟩ | ⟨sent, hsent⟩ <;> rw [hsent] <;> simp [Response.confirms]
    rw [hnothing, hresult, ServerHandlers.handleBookRequest_handlers, ite_self, add_zero]
  · rw [ServerHandlers.handle] at hresult
    have hsame : (request.cmd.orderMessage request.traderId).traderId = traderIdOf (pid other) ↔
        client = other := by
      change request.traderId = _ ↔ _
      rw [htyped.traderId]
      exact hinjective.eq_iff
    rw [hresult, handlePlaceOrder_confirms hstored]
    simp only [hsame]

end Handle

theorem twoPids_injective : Function.Injective twoPids := by
  intro first second hid
  cases first <;> cases second
  · rfl
  · cases hid
  · cases hid
  · rfl

/-! ## Runs -/

section Runs

variable {α : Type} [LinearOrder α] [Zero α] {Client Thread : Type} [DecidableEq Client]
  [DecidableEq Thread] [Fintype Thread] {cjson : CJson α} {ofNumeral : CString → α}
  {readers : NumeralReaders α} {limits : PriceLimits α} {printer : ResponsePrinter α}
  {pid : Client → Int} {queueSize : Nat}

omit [DecidableEq Thread] [Fintype Thread] in
/-- The server has the orders in memory that it confirms, and a client prints what it is
told. -/
theorem tradingService_settles
    (hinjective : Function.Injective fun client => traderIdOf (pid client)) :
    (tradingService cjson ofNumeral readers limits printer pid queueSize).Settles
      (tradingContract cjson readers limits printer pid) (Response.confirms ofNumeral printer)
      ClientProcess.confirmed fun client handlers =>
        handlers.confirmationsDue ofNumeral printer (traderIdOf (pid client)) where
  enter := by
    intro client process typed
    have hnotices := process.inputThread_notices cjson readers limits typed.line typed.now
      (traderIdOf (pid client))
    exact congrArg (fun notices => (notices.filter Notice.isPlaced : Multiset (Notice α)))
      hnotices
  handle := fun hserver htyped world other =>
    handle_confirms hinjective hserver.stored htyped world.frame other
  receive := confirmed_told

/-- In every run of the trading system whose lines and texts are as its contract says, with
clients that run in processes of different, nonnegative ids: a client prints only
confirmations of orders with its trader id that the server has in memory, each at most once;
and once no worker is busy and nothing is under way to it, it has printed them all. -/
theorem confirmations_are_accounted_for (hreads : cjson.ReadsJson ofNumeral)
    (hcarries : cjson.Carries limits) (hprinter : printer.PrintsPrices limits)
    (hpositive : ∀ client, 0 ≤ pid client) (hpid : ∀ client, IsInt (pid client))
    (hinjective : Function.Injective pid) (hsize : 1 ≤ queueSize) (orders : Nat → Order α)
    (broadcaster : Option TradeBroadcaster) (apps : Client → ClientProcess α)
    (hnotices : ∀ client, (apps client).app.notices = [])
    {actions : List (Action Client Thread TypedLine (StepWorld α))}
    (hallowed : ∀ action ∈ actions,
      (tradingContract cjson readers limits printer pid).Allows action) :
    ∃ after, (tradingPrograms cjson readers limits printer pid).run
        (.start (ServerHandlers.create orders broadcaster) apps (MessageQueue.create queueSize))
        actions = .ok after ∧
      ∀ client,
        (after.apps client).confirmed ≤
          after.server.confirmationsDue ofNumeral printer (traderIdOf (pid client)) ∧
        ((∀ thread, after.workers thread = .idle) → after.inbox client = [] →
          (after.apps client).confirmed =
            after.server.confirmationsDue ofNumeral printer (traderIdOf (pid client))) := by
  have hkeeps : (tradingService cjson ofNumeral readers limits printer pid queueSize).Keeps
      (tradingContract cjson readers limits printer pid) :=
    tradingService_keeps hcarries hprinter hpositive hpid
  have hsettles : (tradingService cjson ofNumeral readers limits printer pid queueSize).Settles
      (tradingContract cjson readers limits printer pid) (Response.confirms ofNumeral printer)
      ClientProcess.confirmed fun client handlers =>
        handlers.confirmationsDue ofNumeral printer (traderIdOf (pid client)) :=
    tradingService_settles (traderIdOf_injective hpid hinjective)
  let start : State Client Thread (ClientRequest α) (Response α)
      (Requests Client (ClientRequest α)) (ServerHandlers α) (ClientProcess α) :=
    .start (ServerHandlers.create orders broadcaster) apps []
  have hstart : (tradingContract cjson readers limits printer pid).Holds start :=
    .start (ServerHandlers.MadeOf.create orders broadcaster) fun _ => trivial
  have hsettled : start.Settled (Response.confirms ofNumeral printer) ClientProcess.confirmed
      fun client handlers =>
        handlers.confirmationsDue ofNumeral printer (traderIdOf (pid client)) := by
    intro client
    have howed : start.owed (Response.confirms ofNumeral printer) client = 0 :=
      State.owed_of_idle (fun _ => rfl) rfl
    have hprinted : (start.apps client).confirmed = 0 := by
      unfold ClientProcess.confirmed
      change ((apps client).app.notices.filter Notice.isPlaced : Multiset (Notice α)) = 0
      rw [hnotices client]
      rfl
    rw [howed, hprinted]
    rfl
  obtain ⟨after, hrun, hrepresents⟩ :=
    (tradingPrograms_implements hreads hcarries hpositive hpid).run hkeeps
      (.start (tradingRepresentation_create hsize) _ apps) hstart hallowed
  have hend := hsettles.run hkeeps hstart hsettled hallowed
  refine ⟨after, hrun, fun client => ?_⟩
  have hclient : (after.apps client).confirmed +
      State.owed (Response.confirms ofNumeral printer)
        ((tradingService cjson ofNumeral readers limits printer pid queueSize).run start actions)
        client =
      after.server.confirmationsDue ofNumeral printer (traderIdOf (pid client)) := by
    rw [hrepresents.apps, hrepresents.server]
    exact hend client
  rw [← hclient]
  refine ⟨Multiset.le_add_right _ _, fun hidle hinbox => ?_⟩
  have hnone := (hrepresents.inbox client).symm.trans hinbox
  have hwaiting := fun thread => Worker.eq_idle_of_map ((hrepresents.workers thread).symm.trans
    (hidle thread))
  rw [State.owed_of_idle hwaiting (List.map_eq_nil_iff.mp hnone), add_zero]

end Runs

/-- One order, from the line to the notice. -/
theorem confirmations_are_accounted_for_buy :
    ∃ after, (tradingPrograms printedJson wholeReaders wholeLimits wholePrinter twoPids).run
        (.start wholeStart (fun _ => connectedClient) (MessageQueue.create 2)) buyRun =
        .ok after ∧
      ∀ client,
        (after.apps client).confirmed ≤ after.server.confirmationsDue CNumerals.readInteger
          wholePrinter (traderIdOf (twoPids client)) ∧
        ((∀ thread, after.workers thread = .idle) → after.inbox client = [] →
          (after.apps client).confirmed = after.server.confirmationsDue CNumerals.readInteger
            wholePrinter (traderIdOf (twoPids client))) :=
  confirmations_are_accounted_for printedJson_readsJson (printedJson_carries wholeLimits)
    wholePrinter_printsPrices twoPids_nonneg isInt_twoPids twoPids_injective (by decide) _ _ _
    (fun _ => rfl) buyRun_allowed

end QuantTrading
