import QuantTrading.Client.RoundTrips
import QuantTrading.Foundation.RequestPrograms
import QuantTrading.Server.ServerApp

/-! # The trading system

Clients at which lines are typed, the server with its queue and its workers, and the texts
on their way between them. The steps of all parties interleave in any order; a worker
handles a text in one step. The programs of the parties implement a service that exchanges
commands and responses instead of texts.

This rests on the transport: every text is handed over whole, in the order in which the
texts were sent, and with a NUL behind it. The library that carries the texts promises no
NUL, and hands over a text longer than `rx_buffer_size` in pieces.
-/

namespace QuantTrading

open RequestReply

/-! ## Commands and responses -/

/-- A line and the clock while it is parsed. -/
structure TypedLine where
  line : CString
  now : TimeT

/-- A command with the trader it is sent for. -/
structure ClientRequest (α : Type) where
  cmd : Command α
  traderId : CString

/-- What a step reads besides the state: the frame of a worker, or the memory of a receiver,
behind the bytes of the text and on its stack. -/
structure StepWorld (α : Type) where
  frame : WorkerFrame α
  behind : List Char
  len : Nat
  stack : TradeBuffer α

section System

variable {α : Type} [LinearOrder α] [Zero α] {Client : Type}

/-- The call that a request stands for. -/
def ClientRequest.call (request : ClientRequest α) (frame : WorkerFrame α) : ClientMessage α :=
  if request.cmd.type = .view then .requestBook (some request.cmd.symbol)
  else .placeOrder frame.created frame.confirmed
    (some (request.cmd.orderMessage request.traderId))

/-- The text that a client sends for a request. -/
def ClientRequest.text (cjson : CJson α) (request : ClientRequest α) : CString :=
  if request.cmd.type = .view then cjson.print (viewRoot cjson request.cmd)
  else cjson.print (placeRoot cjson request.cmd request.traderId)

variable (cjson : CJson α) (ofNumeral : CString → α) (readers : NumeralReaders α)
  (limits : PriceLimits α) (printer : ResponsePrinter α) (pid : Client → Int) (queueSize : Nat)

/-- What a receiver needs of the transport: a text ends where its bytes end. -/
def StepWorld.Terminated (world : StepWorld α) : Prop :=
  world.behind.head? = some nul

/-- The programs of the parties, on texts. A text is received in one piece, in front of
whatever bytes are behind it in memory. -/
def tradingPrograms :
    Programs Client TypedLine (StepWorld α) CString CString (MessageQueue Client)
      (ServerHandlers α) (ClientProcess α) Fault where
  enter client process typed :=
    process.inputThread cjson readers limits typed.line typed.now (traderIdOf (pid client))
  enqueue client text world queue :=
    messageHandlerWrapper client (text ++ world.behind) world.len queue
  dequeue queue :=
    match queue.dequeueMessage with
    | some ((some message, some client), rest) => some ((client, message), rest)
    | _ => none
  handle handlers text world :=
    (handlers.work cjson { message := text, frame := world.frame }).map fun result =>
      (result.1, result.2.map (responseText cjson printer))
  receive process text world :=
    (process.app.handleMessage cjson (text ++ world.behind) world.len world.stack).map
      fun app => { process with app := app }

/-- What the programs are for, on commands and responses. -/
def tradingService :
    Service Client TypedLine (StepWorld α) (ClientRequest α) (Response α) (ServerHandlers α)
      (ClientProcess α) where
  capacity := queueSize - 1
  enter client process typed :=
    let outcome :=
      process.inputThread cjson readers limits typed.line typed.now (traderIdOf (pid client))
    (outcome.1, outcome.2.map fun _ =>
      { cmd := parseCommand readers limits typed.now typed.line
        traderId := traderIdOf (pid client) })
  handle handlers request world := handlers.handle (request.call world.frame)
  receive process response :=
    { process with app := process.app.told ofNumeral printer response }

/-- How commands, responses and the queue are represented. -/
def tradingRepresentation :
    Representation Client (ClientRequest α) (Response α) CString CString
      (MessageQueue Client) where
  request := ClientRequest.text cjson
  reply := responseText cjson printer
  queue queue requests := queue.Bounded ∧ queue.queueSize = queueSize ∧
    queue.waiting = requests.map fun entry => (some (entry.2.text cjson), some entry.1)

/-- A request that a client can send. -/
structure ClientRequest.Typed (client : Client) (request : ClientRequest α) : Prop where
  traderId : request.traderId = traderIdOf (pid client)
  parsed : ∃ now, request.cmd.Parsed limits now
  type : request.cmd.type = .view ∨
    (request.cmd.type = .buy ∨ request.cmd.type = .sell) ∧
      validateSymbol request.cmd.symbol = true

/-- Lines that are C strings and name traded symbols where they place orders; texts that are
handed over with a NUL behind them; a server of valid orders; responses that can be read. -/
def tradingContract :
    Contract Client TypedLine (StepWorld α) (ClientRequest α) (Response α) (ServerHandlers α)
      (ClientProcess α) where
  input _ typed := nul ∉ typed.line ∧
    ((parseCommand readers limits typed.now typed.line).type = .buy ∨
      (parseCommand readers limits typed.now typed.line).type = .sell →
      validateSymbol (parseCommand readers limits typed.now typed.line).symbol = true)
  world world := world.Terminated
  app _ _ := True
  request client request := request.Typed limits pid client
  server handlers := handlers.MadeOf (Accepted limits)
  reply response := response.Readable cjson printer

end System

/-! ## The service keeps its contract -/

section Keeps

variable {α : Type} [LinearOrder α] [Zero α] {Client : Type} {cjson : CJson α}
  {ofNumeral : CString → α} {readers : NumeralReaders α} {limits : PriceLimits α}
  {printer : ResponsePrinter α} {pid : Client → Int} {queueSize : Nat}

omit [LinearOrder α] [Zero α] in
/-- The text of a command that is sent. -/
theorem formatCommandAsJson_eq_some {cmd : Command α} {traderId text : CString}
    (hformat : formatCommandAsJson cjson cmd traderId = some text) :
    (cmd.type = .view ∨ cmd.type = .buy ∨ cmd.type = .sell) ∧
      text = ClientRequest.text cjson { cmd := cmd, traderId := traderId } := by
  unfold formatCommandAsJson commandRoot at hformat
  unfold ClientRequest.text
  cases htype : cmd.type <;> rw [htype] at hformat <;> simp_all

omit [Zero α] in
theorem ClientRequest.Typed.placesWith (hpositive : ∀ client, 0 ≤ pid client)
    (hpid : ∀ client, IsInt (pid client)) {client : Client} {request : ClientRequest α}
    (htyped : request.Typed limits pid client) (frame : WorkerFrame α) :
    ServerHandlers.PlacesWith (Accepted limits) (request.call frame) := by
  intro created confirmed order hcall
  unfold ClientRequest.call at hcall
  split_ifs at hcall with hview
  · obtain ⟨now, hparsed⟩ := htyped.parsed
    obtain ⟨htype, hsymbol⟩ := htyped.type.resolve_left hview
    cases hcall
    rw [htyped.traderId]
    exact hparsed.accepted htype hsymbol
      (validateTraderId_traderIdOf (hpositive client) (hpid client))

/-- Every party of the service does its part. -/
theorem tradingService_keeps (hcarries : cjson.Carries limits)
    (hprinter : printer.PrintsPrices limits) (hpositive : ∀ client, 0 ≤ pid client)
    (hpid : ∀ client, IsInt (pid client)) :
    (tradingService cjson ofNumeral readers limits printer pid queueSize).Keeps
      (tradingContract cjson readers limits printer pid) where
  enter := by
    intro client process typed _ hinput
    refine ⟨trivial, fun request hrequest => ?_⟩
    obtain ⟨message, hmessage, rfl⟩ := Option.map_eq_some_iff.mp hrequest
    have hsent := ClientProcess.inputThread_sends (Prod.ext rfl hmessage)
    obtain ⟨htype, -⟩ := formatCommandAsJson_eq_some hsent.1
    exact ⟨rfl, ⟨typed.now, parseCommand_parsed hinput.1⟩,
      htype.imp_right fun horder => ⟨horder, hinput.2 horder⟩⟩
  handle := by
    intro handlers client request hmade htyped world
    have hplaces := htyped.placesWith hpositive hpid world.frame
    exact ⟨hmade.handle hplaces, hmade.handle_readable hcarries hprinter hplaces⟩
  receive := fun _ _ => trivial

end Keeps

/-! ## The programs implement the service -/

section Implements

variable {α : Type} [LinearOrder α] [Zero α] {Client : Type} {cjson : CJson α}
  {ofNumeral : CString → α} {readers : NumeralReaders α} {limits : PriceLimits α}
  {printer : ResponsePrinter α} {pid : Client → Int} {queueSize : Nat}

omit [Zero α] in
/-- The text of a typed request is a C string that is decoded to its call. -/
theorem ClientRequest.Typed.decode (hcarries : cjson.Carries limits)
    (hpositive : ∀ client, 0 ≤ pid client) (hpid : ∀ client, IsInt (pid client))
    {client : Client} {request : ClientRequest α} (htyped : request.Typed limits pid client)
    (frame : WorkerFrame α) :
    nul ∉ request.text cjson ∧
      decodeMessage cjson (request.text cjson) frame = .ok (.ok (request.call frame)) := by
  obtain ⟨now, hparsed⟩ := htyped.parsed
  unfold ClientRequest.text ClientRequest.call
  split_ifs with hview
  · have htransmits := hcarries.request hparsed.symbol_plain
    exact ⟨htransmits.plain, decodeMessage_viewRoot htransmits.parses frame⟩
  · obtain ⟨htype, hsymbol⟩ := htyped.type.resolve_left hview
    rw [htyped.traderId]
    exact hparsed.decode hcarries htype hsymbol
      (validateTraderId_traderIdOf (hpositive client) (hpid client))
      (traderIdOf_eq (hpid client)).2 frame

theorem tradingPrograms_implements (hreads : cjson.ReadsJson ofNumeral)
    (hcarries : cjson.Carries limits) (hpositive : ∀ client, 0 ≤ pid client)
    (hpid : ∀ client, IsInt (pid client)) :
    (tradingPrograms cjson readers limits printer pid).Implements
      (tradingService cjson ofNumeral readers limits printer pid queueSize)
      (tradingContract cjson readers limits printer pid)
      (tradingRepresentation cjson printer queueSize) where
  enter := by
    intro client process typed _ _
    refine Prod.ext rfl ?_
    change (process.inputThread cjson readers limits typed.line typed.now
      (traderIdOf (pid client))).2 = Option.map (ClientRequest.text cjson) (Option.map _
        (process.inputThread cjson readers limits typed.line typed.now
          (traderIdOf (pid client))).2)
    cases hmessage : (process.inputThread cjson readers limits typed.line typed.now
      (traderIdOf (pid client))).2 with
    | none => rfl
    | some message =>
        have hsent := ClientProcess.inputThread_sends (Prod.ext rfl hmessage)
        exact congrArg some (formatCommandAsJson_eq_some hsent.1).2
  enqueue := by
    intro client request world queue requests htyped hworld hqueue
    obtain ⟨hbounded, hsize, hwaiting⟩ := hqueue
    have hread : readText (request.text cjson ++ world.behind) = .ok (request.text cjson) := by
      obtain ⟨rest, hbehind⟩ := List.head?_eq_some_iff.mp hworld
      rw [hbehind]
      exact readText_append_nul (htyped.decode hcarries hpositive hpid world.frame).1
    have hlength : queue.waiting.length = requests.length := by
      rw [hwaiting, List.length_map]
    change ∃ after, messageHandlerWrapper client (request.text cjson ++ world.behind)
      world.len queue = .ok after ∧ _
    unfold messageHandlerWrapper Service.offer
    by_cases hroom : requests.length < queueSize - 1
    · have hnotFull : queue.waiting.length ≠ queue.queueSize - 1 := by omega
      obtain ⟨hcall, hnext, hpushed⟩ :=
        hbounded.processMessage_room hnotFull client hread world.len
      rw [hcall]
      refine ⟨_, rfl, hnext, hsize, ?_⟩
      rw [hpushed, hwaiting]
      have hadmitted : (if requests.length < queueSize - 1 then requests ++ [(client, request)]
          else requests) = requests ++ [(client, request)] := if_pos hroom
      change _ = List.map _ (if requests.length < queueSize - 1 then _ else _)
      rw [hadmitted, List.map_append]
      rfl
    · have hfull : queue.waiting.length = queue.queueSize - 1 := by
        have hlt := hbounded.waiting_length_lt
        omega
      rw [hbounded.processMessage_full hfull]
      refine ⟨_, rfl, hbounded, hsize, ?_⟩
      change _ = List.map _ (if requests.length < queueSize - 1 then _ else _)
      rw [if_neg hroom, hwaiting]
  dequeue_nil := by
    rintro queue ⟨hbounded, -, hwaiting⟩
    change (match queue.dequeueMessage with
      | some ((some message, some client), rest) => some ((client, message), rest)
      | _ => none) = none
    rw [hbounded.dequeueMessage_empty hwaiting]
  dequeue_cons := by
    rintro queue client request rest ⟨hbounded, hsize, hwaiting⟩
    obtain ⟨hdequeue, hnext, hrest⟩ := hbounded.dequeueMessage_cons hwaiting
    refine ⟨queue.pop, ?_, hnext, hsize, hrest⟩
    change (match queue.dequeueMessage with
      | some ((some message, some client), rest) => some ((client, message), rest)
      | _ => none) = _
    rw [hdequeue]
    rfl
  handle := by
    intro handlers client request _ htyped world
    have hdecode := (htyped.decode hcarries hpositive hpid world.frame).2
    change (handlers.work cjson { message := request.text cjson, frame := world.frame }).map _ = _
    rw [ServerHandlers.work, hdecode]
    rfl
  receive := by
    intro client process response world _ hreadable hworld
    obtain ⟨rest, hbehind⟩ := List.head?_eq_some_iff.mp hworld
    have hreceived := handleMessage_responseText hreads hreadable process.app rest world.len
      world.stack
    rw [← hbehind] at hreceived
    exact congrArg (Except.map fun app => { process with app := app }) hreceived

omit [LinearOrder α] [Zero α] in
/-- A new queue represents no requests. -/
theorem tradingRepresentation_create (hsize : 1 ≤ queueSize) :
    (tradingRepresentation cjson printer queueSize).queue
      (MessageQueue.create queueSize : MessageQueue Client) [] :=
  ⟨MessageQueue.create_bounded hsize, rfl, MessageQueue.create_waiting hsize⟩

end Implements

/-! ## Over whole prices -/

/-- The processes of two clients. -/
def twoPids : Bool → Int
  | false => 1
  | true => 2

theorem twoPids_nonneg (client : Bool) : 0 ≤ twoPids client := by
  cases client <;> decide

theorem isInt_twoPids (client : Bool) : IsInt (twoPids client) := by
  cases client <;> decide

/-- A NUL behind a text, and cleared memory on the stacks. -/
def clearedWorld : StepWorld Int where
  frame := (wholeItem []).frame
  behind := [nul]
  len := 0
  stack := .zero 0

/-- A BUY order is typed, sent, queued, taken by the only worker and handled. The client
receives the confirmation. -/
def buyRun : List (Action Bool Unit TypedLine (StepWorld Int)) :=
  [.enter false { line := "BUY AAPL 10 7".toList, now := firstSecond },
    .arrive false clearedWorld, .dequeue (), .handle () clearedWorld, .reply (),
    .receive false clearedWorld]

theorem buyRun_allowed : ∀ action ∈ buyRun,
    (tradingContract printedJson wholeReaders wholeLimits wholePrinter twoPids).Allows action := by
  have hline : nul ∉ "BUY AAPL 10 7".toList ∧ (typedBuy.type = .buy ∨ typedBuy.type = .sell →
      validateSymbol typedBuy.symbol = true) := by decide +kernel
  unfold buyRun
  simp only [List.forall_mem_cons]
  exact ⟨hline, rfl, trivial, trivial, trivial, rfl,
    fun _ hmem => absurd hmem List.not_mem_nil⟩

/-! ## Runs -/

section Runs

variable {α : Type} [LinearOrder α] [Zero α] {Client Thread : Type} [DecidableEq Client]
  [DecidableEq Thread] {cjson : CJson α} {ofNumeral : CString → α} {readers : NumeralReaders α}
  {limits : PriceLimits α} {printer : ResponsePrinter α} {pid : Client → Int} {queueSize : Nat}

end Runs

end QuantTrading
