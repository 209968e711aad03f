import QuantTrading.Client.WsClient

/-! # The service thread of the client

`service_thread` serves the connection and reconnects when it finds it lost, waiting longer
every time. It counts the attempts but never starts to count again: after three attempts in all
the next loss shuts the client down, however often the connection was established in between.
-/

namespace QuantTrading

/-- The events of libwebsockets that change the connection. -/
inductive ConnectionEvent where
  | established
  | closed
  | connectionError
deriving DecidableEq, Repr

/-- The reason that the callback is called with. -/
def ConnectionEvent.reason : ConnectionEvent → ClientReason
  | .established => .clientEstablished
  | .closed => .clientClosed
  | .connectionError => .clientConnectionError

/-- What happens in the thread: an event is delivered, it waits and reconnects, or it gives up. -/
inductive ServiceEvent where
  | delivered (event : ConnectionEvent)
  | reconnect (delayMs : Nat)
  | forceShutdown
deriving DecidableEq, Repr

/-- The variables of `service_thread` and the client it serves, with what happened so far. -/
structure ServiceThread (UserData : Type) where
  client : WSClient UserData
  commandCallback : Option (UserData → UserData)
  running : Bool
  retryCount : Nat
  trace : List ServiceEvent

variable {UserData : Type}

namespace ServiceThread

/-- `max_retries`. -/
def maxRetries : Nat := 3

/-- `backoff_ms`. -/
def backoffMs : List Nat := [1000, 2000, 4000]

/-- The thread when it starts: the client comes from `calloc`, without a connection. -/
def start (client : WSClient UserData) (commandCallback : Option (UserData → UserData)) :
    ServiceThread UserData where
  client := { client with connected := false }
  commandCallback := commandCallback
  running := true
  retryCount := 0
  trace := []

/-- An event is handed to `callback_trading`. -/
def deliver (thread : ServiceThread UserData) (event : ConnectionEvent) :
    Except Fault (ServiceThread UserData) :=
  (thread.client.callbackTrading event.reason [] 0).map fun client =>
    { thread with client := client, trace := thread.trace ++ [.delivered event] }

/-- Wait as long as the table says and connect again. -/
def reconnect (thread : ServiceThread UserData) : Except Fault (ServiceThread UserData) :=
  match backoffMs[thread.retryCount]? with
  | none => .error .outOfBounds
  | some delay =>
      .ok { thread with
        retryCount := thread.retryCount + 1
        trace := thread.trace ++ [.reconnect delay] }

/-- The branch that shuts the client down. -/
def giveUp (thread : ServiceThread UserData) : ServiceThread UserData :=
  { thread with
    client := (thread.client.call thread.client.disconnectCb).call thread.commandCallback
    running := false
    trace := thread.trace ++ [.forceShutdown] }

/-- One iteration of the loop of `service_thread`, in which `lws_service` delivers some events.
Events that arrive while the thread connects are those of the next iteration. -/
def iterate (thread : ServiceThread UserData) (events : List ConnectionEvent) :
    Except Fault (ServiceThread UserData) :=
  if thread.running then do
    let served ← events.foldlM deliver thread
    if !served.client.connected && served.running then
      if served.retryCount < maxRetries then served.reconnect else .ok served.giveUp
    else
      .ok served
  else
    .ok thread

/-- The thread after some iterations. -/
def run (thread : ServiceThread UserData) (rounds : List (List ConnectionEvent)) :
    Except Fault (ServiceThread UserData) :=
  rounds.foldlM iterate thread

end ServiceThread

/-- The reconnect attempts since the connection was last established. -/
def attemptsSinceEstablished (trace : List ServiceEvent) : Nat :=
  trace.foldl
    (fun count event =>
      match event with
      | .delivered .established => 0
      | .reconnect _ => count + 1
      | _ => count) 0

/-- The thread gives up only after `max_retries` attempts since the connection was last
established. -/
def GivesUpLate (trace : List ServiceEvent) : Prop :=
  ∀ front back, trace = front ++ .forceShutdown :: back →
    ServiceThread.maxRetries ≤ attemptsSinceEstablished front

/-! ## Losses of the connection -/

/-- Whether an iteration ends without a connection: the last event so far did not establish
one. -/
def isDown (rounds : List (List ConnectionEvent)) (index : Nat) : Bool :=
  (rounds.take (index + 1)).flatten.getLast? ≠ some .established

/-- The iterations that end without a connection. -/
def downRounds (rounds : List (List ConnectionEvent)) : List Nat :=
  (List.range rounds.length).filter (isDown rounds)

/-- No event establishes the connection behind the first iteration that ends without one and up
to the fourth. -/
def NoRecovery (rounds : List (List ConnectionEvent)) : Prop :=
  ∀ first fourth, (downRounds rounds)[0]? = some first → (downRounds rounds)[3]? = some fourth →
    .established ∉ ((rounds.take (fourth + 1)).drop (first + 1)).flatten

section Losses

variable {rounds : List (List ConnectionEvent)} {events : List ConnectionEvent}

/-- A last iteration is down or not, and the earlier ones stay what they were. -/
theorem downRounds_concat (rounds : List (List ConnectionEvent)) (events : List ConnectionEvent) :
    downRounds (rounds ++ [events]) = downRounds rounds ++
      if (rounds ++ [events]).flatten.getLast? = some .established then []
      else [rounds.length] := by
  have hearlier : (List.range rounds.length).filter (isDown (rounds ++ [events])) =
      downRounds rounds := by
    apply List.filter_congr
    intro index hindex
    have hlt := List.mem_range.mp hindex
    rw [isDown, isDown, List.take_append_of_le_length (by omega)]
  have hlast : isDown (rounds ++ [events]) rounds.length =
      decide ((rounds ++ [events]).flatten.getLast? ≠ some .established) := by
    rw [isDown, List.take_of_length_le (by simp)]
  rw [downRounds, List.length_append, List.length_singleton, List.range_succ, List.filter_append,
    hearlier, List.filter_singleton, hlast]
  by_cases hup : (rounds ++ [events]).flatten.getLast? = some .established
  · rw [if_pos hup, decide_eq_false (not_not.mpr hup)]
    rfl
  · rw [if_neg hup, decide_eq_true hup]
    rfl

theorem lt_of_mem_downRounds {index : Nat} (hmem : index ∈ downRounds rounds) :
    index < rounds.length :=
  List.mem_range.mp (List.mem_of_mem_filter hmem)

/-- Once the fourth loss has come, later iterations do not matter. -/
theorem noRecovery_concat_iff (hfour : 4 ≤ (downRounds rounds).length)
    (events : List ConnectionEvent) : NoRecovery (rounds ++ [events]) ↔ NoRecovery rounds := by
  have hsame : ∀ position, position < 4 →
      (downRounds (rounds ++ [events]))[position]? = (downRounds rounds)[position]? := by
    intro position hposition
    rw [downRounds_concat, List.getElem?_append_left (by omega)]
  unfold NoRecovery
  rw [hsame 0 (by decide), hsame 3 (by decide)]
  apply forall_congr'
  intro first
  apply forall_congr'
  intro fourth
  apply imp_congr_right
  intro _
  apply imp_congr_right
  intro hfourth
  have hlt := lt_of_mem_downRounds (List.mem_of_getElem? hfourth)
  rw [List.take_append_of_le_length (by omega)]

/-- At the fourth loss the condition is about everything behind the first. -/
theorem noRecovery_iff_of_fourth {first : Nat} (hfirst : (downRounds rounds)[0]? = some first)
    (hfourth : (downRounds rounds)[3]? = some (rounds.length - 1)) (hsome : rounds ≠ []) :
    NoRecovery rounds ↔ .established ∉ (rounds.drop (first + 1)).flatten := by
  have hlength := List.length_pos_iff.mpr hsome
  have hall : rounds.take (rounds.length - 1 + 1) = rounds :=
    List.take_of_length_le (by omega)
  unfold NoRecovery
  rw [hfirst, hfourth]
  constructor
  · intro hnone
    have hbehind := hnone first _ rfl rfl
    rwa [hall] at hbehind
  · rintro hnone _ _ ⟨⟩ ⟨⟩
    rwa [hall]

end Losses

/-! ## What the thread does -/

section Attempts

theorem attemptsSinceEstablished_reconnect (trace : List ServiceEvent) (delayMs : Nat) :
    attemptsSinceEstablished (trace ++ [.reconnect delayMs]) =
      attemptsSinceEstablished trace + 1 := by
  rw [attemptsSinceEstablished, List.foldl_append]
  rfl

/-- Events leave the count alone, or start it again. -/
theorem attemptsSinceEstablished_delivered (trace : List ServiceEvent)
    (events : List ConnectionEvent) :
    attemptsSinceEstablished (trace ++ events.map .delivered) =
      if .established ∈ events then 0 else attemptsSinceEstablished trace := by
  induction events using List.reverseRecOn with
  | nil => simp
  | append_singleton events event ih =>
      rw [List.map_append, ← List.append_assoc, attemptsSinceEstablished, List.foldl_append,
        ← attemptsSinceEstablished, ih]
      cases event with
      | established => simp
      | closed => simp
      | connectionError => simp

end Attempts

namespace ServiceThread

variable {thread : ServiceThread UserData}

/-- What an event does to the thread. -/
theorem deliver_eq (thread : ServiceThread UserData) (event : ConnectionEvent) :
    ∃ after, thread.deliver event = .ok after ∧
      after.client.connected = decide (event = .established) ∧
      after.running = thread.running ∧ after.retryCount = thread.retryCount ∧
      after.trace = thread.trace ++ [.delivered event] := by
  have hconnected : ∀ (client : WSClient UserData) (callback : Option (UserData → UserData)),
      (client.call callback).connected = client.connected := by
    intro client callback
    cases callback with
    | none => rfl
    | some callback => rfl
  cases event with
  | established => exact ⟨_, rfl, hconnected _ _, rfl, rfl, rfl⟩
  | closed => exact ⟨_, rfl, hconnected _ _, rfl, rfl, rfl⟩
  | connectionError => exact ⟨_, rfl, rfl, rfl, rfl, rfl⟩

/-- What the events of an iteration do. -/
theorem deliverAll_eq (thread : ServiceThread UserData) (events : List ConnectionEvent) :
    ∃ after, events.foldlM deliver thread = .ok after ∧
      after.client.connected =
        ((events.getLast?.map fun event => decide (event = .established)).getD
          thread.client.connected) ∧
      after.running = thread.running ∧ after.retryCount = thread.retryCount ∧
      after.trace = thread.trace ++ events.map .delivered := by
  induction events using List.reverseRecOn with
  | nil => exact ⟨thread, rfl, rfl, rfl, rfl, (List.append_nil _).symm⟩
  | append_singleton events event ih =>
      obtain ⟨served, hserved, _, hrunning, hretry, htrace⟩ := ih
      obtain ⟨after, hafter, hconnected, hrunning', hretry', htrace'⟩ := served.deliver_eq event
      refine ⟨after, ?_, ?_, hrunning'.trans hrunning, hretry'.trans hretry, ?_⟩
      · rw [List.foldlM_append, hserved]
        change [event].foldlM deliver served = _
        rw [List.foldlM_cons, hafter]
        rfl
      · rw [hconnected, List.getLast?_concat]
        rfl
      · rw [htrace', htrace, List.map_append, List.append_assoc]
        rfl

/-- The thread while it has lost the connection at most three times. -/
structure Serving (rounds : List (List ConnectionEvent)) (thread : ServiceThread UserData) :
    Prop where
  running : thread.running = true
  connected : thread.client.connected =
    decide (rounds.flatten.getLast? = some .established)
  retryCount : thread.retryCount = (downRounds rounds).length
  noShutdown : .forceShutdown ∉ thread.trace
  attempts : attemptsSinceEstablished thread.trace = ((downRounds rounds).filter fun index =>
    .established ∉ (rounds.drop (index + 1)).flatten).length

/-- The thread after the fourth loss. -/
structure GivenUp (rounds : List (List ConnectionEvent)) (thread : ServiceThread UserData) :
    Prop where
  running : thread.running = false
  shutdown : ∃ front, thread.trace = front ++ [.forceShutdown] ∧ .forceShutdown ∉ front ∧
    (maxRetries ≤ attemptsSinceEstablished front ↔ NoRecovery rounds)

/-- The thread follows what it is told about the connection. -/
def Follows (rounds : List (List ConnectionEvent)) (thread : ServiceThread UserData) : Prop :=
  if (downRounds rounds).length ≤ maxRetries then Serving rounds thread
  else GivenUp rounds thread

theorem drop_concat {rounds : List (List ConnectionEvent)} {index : Nat}
    (hlt : index < rounds.length) (events : List ConnectionEvent) :
    ((rounds ++ [events]).drop (index + 1)).flatten =
      (rounds.drop (index + 1)).flatten ++ events := by
  rw [List.drop_append_of_le_length (by omega), List.flatten_append, List.flatten_singleton]

/-- Events change the attempts that count as they change the count of the trace. -/
theorem Serving.attempts_delivered {rounds : List (List ConnectionEvent)}
    (hserving : Serving rounds thread) (events : List ConnectionEvent) :
    attemptsSinceEstablished (thread.trace ++ events.map .delivered) =
      ((downRounds rounds).filter fun index =>
        .established ∉ ((rounds ++ [events]).drop (index + 1)).flatten).length := by
  rw [attemptsSinceEstablished_delivered, hserving.attempts]
  split_ifs with hestablished
  · rw [List.filter_eq_nil_iff.mpr, List.length_nil]
    intro index hindex
    rw [drop_concat (lt_of_mem_downRounds hindex)]
    simp [hestablished]
  · congr 1
    apply List.filter_congr
    intro index hindex
    rw [drop_concat (lt_of_mem_downRounds hindex)]
    simp [hestablished]

/-- All attempts count when the one after the first loss does. -/
theorem filter_length_eq_iff {rounds behind : List (List ConnectionEvent)} {first : Nat}
    {rest : List Nat} (hdowns : downRounds rounds = first :: rest) :
    (first :: rest).length ≤ ((first :: rest).filter fun index =>
        .established ∉ (behind.drop (index + 1)).flatten).length ↔
      .established ∉ (behind.drop (first + 1)).flatten := by
  have hsorted : (downRounds rounds).Pairwise (· < ·) := List.pairwise_lt_range.filter _
  rw [hdowns, List.pairwise_cons] at hsorted
  constructor
  · intro hall
    have hself := List.filter_eq_self.mp
      (List.filter_sublist.eq_of_length_le hall) first List.mem_cons_self
    exact of_decide_eq_true hself
  · intro hnone
    rw [List.filter_eq_self.mpr]
    intro index hindex
    have hle : first ≤ index := by
      rcases List.mem_cons.mp hindex with rfl | hrest
      · exact le_rfl
      · exact (hsorted.1 index hrest).le
    apply decide_eq_true
    intro hestablished
    apply hnone
    have hsublist : (behind.drop (index + 1)).Sublist (behind.drop (first + 1)) :=
      List.drop_sublist_drop_left behind (by omega)
    exact hsublist.flatten.subset hestablished

/-- The thread after the events of an iteration, before it looks at the connection. -/
structure Delivered (rounds : List (List ConnectionEvent)) (events : List ConnectionEvent)
    (served : ServiceThread UserData) : Prop where
  running : served.running = true
  connected : served.client.connected =
    decide ((rounds ++ [events]).flatten.getLast? = some .established)
  retryCount : served.retryCount = (downRounds rounds).length
  noShutdown : .forceShutdown ∉ served.trace
  attempts : attemptsSinceEstablished served.trace = ((downRounds rounds).filter fun index =>
    .established ∉ ((rounds ++ [events]).drop (index + 1)).flatten).length

theorem Serving.delivered {rounds : List (List ConnectionEvent)}
    (hserving : Serving rounds thread) (events : List ConnectionEvent) :
    ∃ served, events.foldlM deliver thread = .ok served ∧ Delivered rounds events served := by
  obtain ⟨served, hserved, hconnected, hrunning, hretry, htrace⟩ := thread.deliverAll_eq events
  have hattempts := hserving.attempts_delivered events
  refine ⟨served, hserved, hrunning.trans hserving.running, ?_,
    hretry.trans hserving.retryCount, ?_, htrace ▸ hattempts⟩
  · rw [hconnected, hserving.connected, List.flatten_append, List.flatten_singleton,
      List.getLast?_append]
    cases events.getLast? with
    | none => rfl
    | some event => simp
  · rw [htrace, List.mem_append, List.mem_map]
    rintro (hold | ⟨event, _, hevent⟩)
    · exact hserving.noShutdown hold
    · cases hevent

namespace Delivered

variable {rounds : List (List ConnectionEvent)} {events : List ConnectionEvent}
  {served : ServiceThread UserData}

/-- A thread with a connection goes on. -/
theorem serving (hdelivered : Delivered rounds events served)
    (hup : (rounds ++ [events]).flatten.getLast? = some .established) :
    Serving (rounds ++ [events]) served := by
  have hdowns := downRounds_concat rounds events
  rw [if_pos hup, List.append_nil] at hdowns
  refine ⟨hdelivered.running, hdelivered.connected, ?_, hdelivered.noShutdown, ?_⟩
  · rw [hdowns]
    exact hdelivered.retryCount
  · rw [hdowns]
    exact hdelivered.attempts

/-- A thread without a connection that has attempts left finds a delay in the table. -/
theorem reconnect (hdelivered : Delivered rounds events served)
    (hdown : (rounds ++ [events]).flatten.getLast? ≠ some .established)
    (hless : (downRounds rounds).length < maxRetries) :
    ∃ after, served.reconnect = .ok after ∧ Serving (rounds ++ [events]) after := by
  have hdowns := downRounds_concat rounds events
  rw [if_neg hdown] at hdowns
  obtain ⟨delay, hdelay⟩ : ∃ delay, backoffMs[(downRounds rounds).length]? = some delay :=
    ⟨_, List.getElem?_eq_getElem hless⟩
  have hnew : (rounds ++ [events]).drop (rounds.length + 1) = [] :=
    List.drop_of_length_le (by simp)
  refine ⟨{ served with
    retryCount := served.retryCount + 1
    trace := served.trace ++ [.reconnect delay] }, ?_, hdelivered.running, hdelivered.connected,
    ?_, ?_, ?_⟩
  · rw [ServiceThread.reconnect, hdelivered.retryCount, hdelay]
  · rw [hdowns, List.length_append, List.length_singleton, ← hdelivered.retryCount]
  · rw [List.mem_append, List.mem_singleton]
    rintro (hold | heq)
    · exact hdelivered.noShutdown hold
    · cases heq
  · rw [attemptsSinceEstablished_reconnect, hdelivered.attempts, hdowns, List.filter_append,
      List.length_append, List.filter_singleton, hnew]
    rfl

/-- A thread without a connection and without attempts left gives up. -/
theorem giveUp (hdelivered : Delivered rounds events served)
    (hdown : (rounds ++ [events]).flatten.getLast? ≠ some .established)
    (hthree : (downRounds rounds).length = 3) : GivenUp (rounds ++ [events]) served.giveUp := by
  have hdowns := downRounds_concat rounds events
  rw [if_neg hdown] at hdowns
  obtain ⟨first, rest, hfirst⟩ : ∃ first rest, downRounds rounds = first :: rest := by
    cases hcases : downRounds rounds with
    | nil =>
        rw [hcases] at hthree
        cases hthree
    | cons first rest => exact ⟨first, rest, rfl⟩
  have hzero : (downRounds (rounds ++ [events]))[0]? = some first := by
    rw [hdowns, hfirst]
    rfl
  have hfourth : (downRounds (rounds ++ [events]))[3]? =
      some ((rounds ++ [events]).length - 1) := by
    rw [hdowns, List.getElem?_append_right hthree.le, hthree, List.length_append,
      List.length_singleton, Nat.add_sub_cancel]
    rfl
  refine ⟨rfl, served.trace, rfl, hdelivered.noShutdown, ?_⟩
  rw [noRecovery_iff_of_fourth hzero hfourth (by simp), hdelivered.attempts,
    ← filter_length_eq_iff hfirst, ← hfirst, hthree]
  rfl

end Delivered

/-- An iteration of a thread that serves, by what its last event was and how many attempts were
made. -/
theorem Serving.iterate {rounds : List (List ConnectionEvent)} (hserving : Serving rounds thread)
    (hcount : (downRounds rounds).length ≤ maxRetries) (events : List ConnectionEvent) :
    ∃ after, thread.iterate events = .ok after ∧ Follows (rounds ++ [events]) after := by
  obtain ⟨served, hserved, hdelivered⟩ := hserving.delivered events
  have hiterate : thread.iterate events =
      if !served.client.connected && served.running then
        if served.retryCount < maxRetries then served.reconnect else .ok served.giveUp
      else .ok served := by
    rw [ServiceThread.iterate, if_pos hserving.running, hserved]
    rfl
  have hdowns := congrArg List.length (downRounds_concat rounds events)
  rw [List.length_append] at hdowns
  rw [hiterate, hdelivered.running, Bool.and_true, hdelivered.connected, hdelivered.retryCount]
  by_cases hup : (rounds ++ [events]).flatten.getLast? = some .established
  · rw [if_pos hup, List.length_nil, Nat.add_zero] at hdowns
    rw [decide_eq_true hup]
    refine ⟨served, rfl, ?_⟩
    rw [Follows, if_pos (hdowns.trans_le hcount)]
    exact hdelivered.serving hup
  · rw [if_neg hup, List.length_singleton] at hdowns
    rw [decide_eq_false hup]
    rcases Nat.lt_or_ge (downRounds rounds).length maxRetries with hless | hmost
    · obtain ⟨after, hafter, hserving'⟩ := hdelivered.reconnect hup hless
      refine ⟨after, (if_pos hless).trans hafter, ?_⟩
      rw [Follows, if_pos (hdowns.trans_le hless)]
      exact hserving'
    · have hthree : (downRounds rounds).length = 3 := Nat.le_antisymm hcount hmost
      refine ⟨served.giveUp, if_neg (Nat.not_lt.mpr hmost), ?_⟩
      rw [Follows, if_neg]
      · exact hdelivered.giveUp hup hthree
      · rw [hdowns, hthree]
        decide

/-- An iteration follows what it is told. -/
theorem Follows.iterate {rounds : List (List ConnectionEvent)} (hfollows : Follows rounds thread)
    (events : List ConnectionEvent) :
    ∃ after, thread.iterate events = .ok after ∧ Follows (rounds ++ [events]) after := by
  unfold Follows at hfollows
  split_ifs at hfollows with hcount
  · exact hfollows.iterate hcount events
  · refine ⟨thread, ?_, ?_⟩
    · rw [ServiceThread.iterate, if_neg (by rw [hfollows.running]; decide)]
    · have hfour : 4 ≤ (downRounds rounds).length := not_le.mp hcount
      have hlonger : ¬ (downRounds (rounds ++ [events])).length ≤ maxRetries := by
        rw [downRounds_concat, List.length_append]
        change ¬ _ ≤ 3
        omega
      obtain ⟨front, htrace, hfront, hlate⟩ := hfollows.shutdown
      rw [Follows, if_neg hlonger]
      exact ⟨hfollows.running, front, htrace, hfront,
        hlate.trans (noRecovery_concat_iff hfour events).symm⟩

theorem run_follows (client : WSClient UserData) (commandCallback : Option (UserData → UserData))
    (rounds : List (List ConnectionEvent)) :
    ∃ thread, (start client commandCallback).run rounds = .ok thread ∧ Follows rounds thread := by
  induction rounds using List.reverseRecOn with
  | nil => exact ⟨start client commandCallback, rfl, rfl, rfl, rfl, List.not_mem_nil, rfl⟩
  | append_singleton rounds events ih =>
      obtain ⟨thread, hthread, hfollows⟩ := ih
      obtain ⟨after, hafter, hfollows'⟩ := hfollows.iterate events
      refine ⟨after, ?_, hfollows'⟩
      rw [run, List.foldlM_append, ← run, hthread]
      change [events].foldlM ServiceThread.iterate thread = _
      rw [List.foldlM_cons, hafter]
      rfl

theorem Follows.givesUpLate_iff {rounds : List (List ConnectionEvent)}
    (hfollows : Follows rounds thread) : GivesUpLate thread.trace ↔ NoRecovery rounds := by
  unfold Follows at hfollows
  split_ifs at hfollows with hcount
  · refine iff_of_true (fun front back htrace => ?_) fun first fourth _ hfourth => ?_
    · exact absurd (htrace ▸ List.mem_append_right _ List.mem_cons_self) hfollows.noShutdown
    · obtain ⟨hlt, _⟩ := List.getElem?_eq_some_iff.mp hfourth
      have hthree : (downRounds rounds).length ≤ 3 := hcount
      omega
  · obtain ⟨front, htrace, hfront, hlate⟩ := hfollows.shutdown
    rw [← hlate]
    constructor
    · exact fun hall => hall front [] htrace
    · intro henough front' back hsplit
      rw [htrace] at hsplit
      -- the shutdown is the last thing that happens
      have hsame : front = front' := by
        rcases List.append_eq_append_iff.mp hsplit with
          ⟨middle, hfront', hmiddle⟩ | ⟨middle, hfront', hmiddle⟩
        · cases middle with
          | nil => simpa using hfront'.symm
          | cons event middle => simp at hmiddle
        · cases middle with
          | nil => simpa using hfront'
          | cons event middle =>
              rw [List.cons_append, List.cons.injEq] at hmiddle
              refine absurd ?_ hfront
              rw [hfront', ← hmiddle.1]
              exact List.mem_append_right _ List.mem_cons_self
      exact hsame ▸ henough

/-- The service thread runs on whatever it is told about the connection, with a delay for every
attempt, and gives up late if and only if the connection is not established again between its
first loss and its fourth. -/
theorem givesUpLate_iff_noRecovery (client : WSClient UserData)
    (commandCallback : Option (UserData → UserData)) (rounds : List (List ConnectionEvent)) :
    ∃ thread, (start client commandCallback).run rounds = .ok thread ∧
      (GivesUpLate thread.trace ↔ NoRecovery rounds) := by
  obtain ⟨thread, hthread, hfollows⟩ := run_follows client commandCallback rounds
  exact ⟨thread, hthread, hfollows.givesUpLate_iff⟩

/-- A client that keeps nothing. -/
def idleClient : WSClient Unit where
  connected := false
  connectCb := none
  disconnectCb := none
  messageCb := none
  userData := ()

/-- A client that recovers from every loss shuts down at the fourth, without an attempt. -/
theorem shutdown_after_recoveries :
    let rounds : List (List ConnectionEvent) :=
      [[], [.established], [.closed], [.established], [.closed], [.established], [.closed]]
    let front : List ServiceEvent :=
      [.reconnect 1000, .delivered .established, .delivered .closed, .reconnect 2000,
        .delivered .established, .delivered .closed, .reconnect 4000, .delivered .established,
        .delivered .closed]
    ((start idleClient none).run rounds).map ServiceThread.trace =
        .ok (front ++ [.forceShutdown]) ∧
      attemptsSinceEstablished front = 0 ∧ ¬ GivesUpLate (front ++ [.forceShutdown]) := by
  intro rounds front
  have hattempts : attemptsSinceEstablished front = 0 := rfl
  refine ⟨rfl, hattempts, fun hlate => ?_⟩
  have henough := hlate front [] rfl
  rw [hattempts] at henough
  exact absurd henough (by decide)

end ServiceThread

end QuantTrading
