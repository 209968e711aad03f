import QuantTrading.Client.TradeNotification
import QuantTrading.Server.ServerApp

/-! # Received bytes

libwebsockets hands a received message over as a pointer and a length, without a
terminating NUL. The callback of the client makes a terminated copy and passes on
the original pointer; the server makes no copy before it reads the message as a C
string. So both read behind the message unless a NUL happens to follow it.
-/

namespace QuantTrading

/-- The reasons the callback of the client distinguishes. -/
inductive ClientReason where
  | clientEstablished
  | clientClosed
  | clientReceive
  | clientConnectionError
deriving DecidableEq, Repr

/-- The fields of `struct WSClient` that its callback uses. -/
structure WSClient (UserData : Type) where
  connected : Bool
  connectCb : Option (UserData → UserData)
  disconnectCb : Option (UserData → UserData)
  messageCb : Option (List Char → Nat → UserData → Except Fault UserData)
  userData : UserData

variable {UserData : Type}

namespace WSClient

/-- Call a callback that is set. -/
def call (client : WSClient UserData) (callback : Option (UserData → UserData)) :
    WSClient UserData :=
  match callback with
  | some callback => { client with userData := callback client.userData }
  | none => client

/-- `callback_trading`, with the received memory `data` and its length. -/
def callbackTrading (client : WSClient UserData) (reason : ClientReason) (data : List Char)
    (len : Nat) : Except Fault (WSClient UserData) :=
  match reason with
  | .clientEstablished => .ok (({ client with connected := true }).call client.connectCb)
  | .clientClosed => .ok (({ client with connected := false }).call client.disconnectCb)
  | .clientReceive =>
      if data.length < len then .error .outOfBounds
      else
        -- the terminated copy is freed again without having been read
        let _msg := data.take len ++ [nul]
        match client.messageCb with
        | some callback =>
            (callback data len client.userData).map fun userData =>
              { client with userData := userData }
        | none => .ok client
  | .clientConnectionError => .ok { client with connected := false }

end WSClient

variable {α Client : Type}

/-- The client of `main`: its connect and disconnect callbacks only log. -/
def mainClient (cjson : CJson α) (stack : TradeBuffer α) (app : ClientApp α) :
    WSClient (ClientApp α) where
  connected := true
  connectCb := some id
  disconnectCb := some id
  messageCb := some fun message len app => app.handleMessage cjson message len stack
  userData := app

/-- The server queues the same message for both buffers, namely the received bytes,
and the client does the same with both. -/
structure InterpretsReceived (cjson : CJson α) (stack : TradeBuffer α) (app : ClientApp α)
    (queue : MessageQueue Client) (client : Client) (first second : List Char) (len : Nat) :
    Prop where
  queued : ∃ after, (mainServer queue).callbackTrading client .receive first len = .ok after ∧
    after.userData.waiting = queue.waiting ++ [(some (first.take len), some client)]
  server_eq : (mainServer queue).callbackTrading client .receive first len =
    (mainServer queue).callbackTrading client .receive second len
  client_eq : (mainClient cjson stack app).callbackTrading .clientReceive first len =
    (mainClient cjson stack app).callbackTrading .clientReceive second len

/-- What the server does with received memory, when its queue has room. -/
theorem mainServer_receive {queue : MessageQueue Client} (hqueue : queue.Bounded)
    (hroom : queue.waiting.length ≠ queue.queueSize - 1) (client : Client) (data : List Char)
    (len : Nat) :
    (mainServer queue).callbackTrading client .receive data len =
      (readText data).map fun copy =>
        { mainServer queue with userData := queue.push client copy } := by
  cases hread : readText data with
  | error fault =>
      have hnotFull := fun hfull => hroom (hqueue.full_iff.mp hfull)
      change (((queue.processMessage client data len).map Prod.snd).map _) = _
      rw [MessageQueue.processMessage, if_neg hnotFull, hread]
      rfl
  | ok copy =>
      change (((queue.processMessage client data len).map Prod.snd).map _) = _
      rw [(hqueue.processMessage_room hroom client hread len).1]
      rfl

/-- The server queues exactly the received bytes when they are a C string. -/
theorem queued_iff {queue : MessageQueue Client} (hqueue : queue.Bounded)
    (hroom : queue.waiting.length ≠ queue.queueSize - 1) (client : Client) (data : List Char)
    (len : Nat) :
    (∃ after, (mainServer queue).callbackTrading client .receive data len = .ok after ∧
      after.userData.waiting = queue.waiting ++ [(some (data.take len), some client)]) ↔
      nul ∉ data.take len ∧ data[len]? = some nul := by
  rw [← readText_eq_take_iff, mainServer_receive hqueue hroom]
  cases hread : readText data with
  | error fault => simp [Except.map]
  | ok copy =>
      have hwaiting := (hqueue.processMessage_room hroom client hread len).2.2
      constructor
      · rintro ⟨after, hafter, hqueued⟩
        obtain rfl := Except.ok.inj hafter
        rw [hwaiting] at hqueued
        simpa using hqueued
      · intro hcopy
        obtain rfl := Except.ok.inj hcopy
        exact ⟨_, rfl, hwaiting⟩

/-- What the client does depends on the string at the pointer. -/
theorem mainClient_receive (cjson : CJson α) (stack : TradeBuffer α) (app : ClientApp α)
    {data : List Char} {len : Nat} (hlen : len ≤ data.length) {text : CString}
    (hread : readText data = .ok text) :
    (mainClient cjson stack app).callbackTrading .clientReceive data len =
      (app.handleText cjson text stack).map fun app => mainClient cjson stack app := by
  have hhandle : app.handleMessage cjson data len stack = app.handleText cjson text stack := by
    rw [ClientApp.handleMessage, hread]
  unfold WSClient.callbackTrading
  dsimp only
  rw [if_neg (Nat.not_lt.mpr hlen), ← hhandle]
  rfl

/-- For two buffers that agree on the received bytes, and a queue with room, the
server and the client interpret exactly these bytes if and only if they hold no
NUL and both buffers have one behind them. -/
theorem interpretsReceived_iff (cjson : CJson α) (stack : TradeBuffer α) (app : ClientApp α)
    {queue : MessageQueue Client} (hqueue : queue.Bounded)
    (hroom : queue.waiting.length ≠ queue.queueSize - 1) (client : Client)
    {first second : List Char} {len : Nat} (hfirst : len ≤ first.length)
    (hsecond : len ≤ second.length) (hagree : first.take len = second.take len) :
    InterpretsReceived cjson stack app queue client first second len ↔
      nul ∉ first.take len ∧ first[len]? = some nul ∧ second[len]? = some nul := by
  constructor
  · intro hreceived
    obtain ⟨hfree, hfirstNul⟩ := (queued_iff hqueue hroom client first len).mp hreceived.queued
    refine ⟨hfree, hfirstNul, ?_⟩
    obtain ⟨after, hafter, hwaiting⟩ := hreceived.queued
    rw [hreceived.server_eq] at hafter
    rw [hagree] at hwaiting
    exact ((queued_iff hqueue hroom client second len).mp ⟨after, hafter, hwaiting⟩).2
  · rintro ⟨hfree, hfirstNul, hsecondNul⟩
    have hreadFirst := readText_eq_take_iff.mpr ⟨hfree, hfirstNul⟩
    have hreadSecond : readText second = .ok (first.take len) := by
      rw [hagree] at hfree ⊢
      exact readText_eq_take_iff.mpr ⟨hfree, hsecondNul⟩
    refine ⟨(queued_iff hqueue hroom client first len).mpr ⟨hfree, hfirstNul⟩, ?_, ?_⟩
    · rw [mainServer_receive hqueue hroom, mainServer_receive hqueue hroom, hreadFirst, hreadSecond]
    · rw [mainClient_receive cjson stack app hfirst hreadFirst,
        mainClient_receive cjson stack app hsecond hreadSecond]

/-- A new queue, for concrete messages. -/
theorem create_room {queueSize : Nat} (hsize : 2 ≤ queueSize) :
    (MessageQueue.create queueSize : MessageQueue Nat).waiting.length ≠
      (MessageQueue.create queueSize : MessageQueue Nat).queueSize - 1 := by
  rw [MessageQueue.create_waiting (Nat.le_of_succ_le hsize), List.length_nil]
  change 0 ≠ queueSize - 1
  omega

/-- Buffers that both have a NUL right behind the message. -/
theorem interpretsReceived_iff_terminated :
    InterpretsReceived (.table [] []) zeroTrade freshClient (MessageQueue.create 4) 7
      ['a', nul] ['a', nul, 'x'] 1 := by
  refine (interpretsReceived_iff _ _ _ ?_ ?_ 7 ?_ ?_ ?_).mpr ?_
  · exact MessageQueue.create_bounded (by decide)
  · exact create_room (by decide)
  · decide
  · decide
  · decide
  · decide

/-- A byte behind a message of one byte is queued with it. -/
theorem byte_behind_message_queued :
    ¬ InterpretsReceived (.table [] []) zeroTrade freshClient (MessageQueue.create 4) 7
      ['a', nul] ['a', 'b', nul] 1 := by
  intro hreceived
  have hslot := congrArg
    (fun result => result.toOption.map fun server => server.userData.messageQueue 0)
    hreceived.server_eq
  exact absurd hslot (by decide)

end QuantTrading
