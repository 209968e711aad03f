import QuantTrading.Foundation.Transition
import Mathlib.Algebra.BigOperators.Group.Finset.Basic
import Mathlib.Data.Fintype.Basic

/-! # Requests and replies

Clients turn inputs into requests. A request travels to the server, where it waits in a
bounded queue or is dropped; a thread takes it from the queue, handles it on the state
of the server and sends the replies, one at a time; a reply travels back to the client.
The steps of all parties interleave in any order.

A service is the design of such a system, with requests and replies as values. Programs
are its implementation, which exchanges something that stands for them and can fail.
-/

namespace RequestReply

/-! ## States -/

/-- A thread of the server waits, holds the request of a client, or has replies to send. -/
inductive Worker (Client Request Reply : Type*) where
  | idle : Worker Client Request Reply
  | holds (client : Client) (request : Request) : Worker Client Request Reply
  | replies (client : Client) (replies : List Reply) : Worker Client Request Reply

/-- The states of the parties, and what is under way between them. -/
structure State (Client Thread Request Reply Queue Server App : Type*) where
  server : Server
  apps : Client → App
  sent : Client → List Request
  queue : Queue
  workers : Thread → Worker Client Request Reply
  inbox : Client → List Reply

/-- A step of one party. What a step reads besides the state is its world. -/
inductive Action (Client Thread Input World : Type*) where
  | enter (client : Client) (input : Input) : Action Client Thread Input World
  | arrive (client : Client) (world : World) : Action Client Thread Input World
  | dequeue (thread : Thread) : Action Client Thread Input World
  | handle (thread : Thread) (world : World) : Action Client Thread Input World
  | reply (thread : Thread) : Action Client Thread Input World
  | receive (client : Client) (world : World) : Action Client Thread Input World

section States

variable {Client Thread Input World Request Reply Queue Server App : Type*}
  [DecidableEq Client] [DecidableEq Thread]

namespace State

/-- The state in which nothing is under way. -/
def start (server : Server) (apps : Client → App) (queue : Queue) :
    State Client Thread Request Reply Queue Server App where
  server := server
  apps := apps
  sent := fun _ => []
  queue := queue
  workers := fun _ => .idle
  inbox := fun _ => []

/-- A client has changed its state and may have sent a request. -/
def entered (state : State Client Thread Request Reply Queue Server App) (client : Client)
    (app : App) (request : Option Request) :
    State Client Thread Request Reply Queue Server App :=
  { state with
    apps := Function.update state.apps client app
    sent := Function.update state.sent client (state.sent client ++ request.toList) }

/-- The first request of a client has reached the server. -/
def arrived (state : State Client Thread Request Reply Queue Server App) (client : Client)
    (rest : List Request) (queue : Queue) : State Client Thread Request Reply Queue Server App :=
  { state with
    sent := Function.update state.sent client rest
    queue := queue }

/-- A thread has taken a request from the queue. -/
def taken (state : State Client Thread Request Reply Queue Server App) (thread : Thread)
    (client : Client) (request : Request) (queue : Queue) :
    State Client Thread Request Reply Queue Server App :=
  { state with
    queue := queue
    workers := Function.update state.workers thread (.holds client request) }

/-- A thread has handled its request. -/
def handled (state : State Client Thread Request Reply Queue Server App) (thread : Thread)
    (client : Client) (server : Server) (replies : List Reply) :
    State Client Thread Request Reply Queue Server App :=
  { state with
    server := server
    workers := Function.update state.workers thread (.replies client replies) }

/-- A thread that has replies to send sends the first, and waits after the last. -/
def replied (state : State Client Thread Request Reply Queue Server App) (thread : Thread) :
    State Client Thread Request Reply Queue Server App :=
  match state.workers thread with
  | .replies client (reply :: rest) =>
      { state with
        workers := Function.update state.workers thread (.replies client rest)
        inbox := Function.update state.inbox client (state.inbox client ++ [reply]) }
  | .replies _ [] => { state with workers := Function.update state.workers thread .idle }
  | _ => state

/-- A client has taken its first reply. -/
def received (state : State Client Thread Request Reply Queue Server App) (client : Client)
    (app : App) (rest : List Reply) : State Client Thread Request Reply Queue Server App :=
  { state with
    apps := Function.update state.apps client app
    inbox := Function.update state.inbox client rest }

end State

end States

/-! ## Services -/

/-- A queue of requests with their clients. -/
abbrev Requests (Client Request : Type*) := List (Client × Request)

/-- What the parties do. A queue of full length takes no more requests. -/
structure Service (Client Input World Request Reply Server App : Type*) where
  capacity : Nat
  enter : Client → App → Input → App × Option Request
  handle : Server → Request → World → Server × List Reply
  receive : App → Reply → App

namespace Service

variable {Client Thread Input World Request Reply Server App : Type*}
  [DecidableEq Client] [DecidableEq Thread]
  (service : Service Client Input World Request Reply Server App)

/-- The queue after a request has reached it. -/
def offer (queue : Requests Client Request) (client : Client) (request : Request) :
    Requests Client Request :=
  if queue.length < service.capacity then queue ++ [(client, request)] else queue

/-- A step that a party cannot take changes nothing. -/
def step (state : State Client Thread Request Reply (Requests Client Request) Server App) :
    Action Client Thread Input World →
      State Client Thread Request Reply (Requests Client Request) Server App
  | .enter client input =>
      let outcome := service.enter client (state.apps client) input
      state.entered client outcome.1 outcome.2
  | .arrive client _ =>
      match state.sent client with
      | [] => state
      | request :: rest =>
          state.arrived client rest (service.offer state.queue client request)
  | .dequeue thread =>
      match state.workers thread, state.queue with
      | .idle, (client, request) :: rest => state.taken thread client request rest
      | _, _ => state
  | .handle thread world =>
      match state.workers thread with
      | .holds client request =>
          let outcome := service.handle state.server request world
          state.handled thread client outcome.1 outcome.2
      | _ => state
  | .reply thread => state.replied thread
  | .receive client _ =>
      match state.inbox client with
      | [] => state
      | reply :: rest => state.received client (service.receive (state.apps client) reply) rest

/-- The state after a list of actions. -/
def run (state : State Client Thread Request Reply (Requests Client Request) Server App)
    (actions : List (Action Client Thread Input World)) :
    State Client Thread Request Reply (Requests Client Request) Server App :=
  Transition.run service.step state actions

/-- What holds of the next state when it holds after everything a step can do. -/
theorem step_elim {state : State Client Thread Request Reply (Requests Client Request) Server App}
    {action : Action Client Thread Input World}
    {motive : State Client Thread Request Reply (Requests Client Request) Server App → Prop}
    (hsame : motive state)
    (henter : ∀ client input, action = .enter client input →
      motive (state.entered client (service.enter client (state.apps client) input).1
        (service.enter client (state.apps client) input).2))
    (harrive : ∀ client request rest, state.sent client = request :: rest →
      motive (state.arrived client rest (service.offer state.queue client request)))
    (hdequeue : ∀ thread client request rest, state.workers thread = .idle →
      state.queue = (client, request) :: rest → motive (state.taken thread client request rest))
    (hhandle : ∀ thread client request world, action = .handle thread world →
      state.workers thread = .holds client request →
      motive (state.handled thread client (service.handle state.server request world).1
        (service.handle state.server request world).2))
    (hreply : ∀ thread client reply rest, state.workers thread = .replies client (reply :: rest) →
      motive
        { state with
          workers := Function.update state.workers thread (.replies client rest)
          inbox := Function.update state.inbox client (state.inbox client ++ [reply]) })
    (hfinish : ∀ thread client, state.workers thread = .replies client [] →
      motive { state with workers := Function.update state.workers thread .idle })
    (hreceive : ∀ client reply rest, state.inbox client = reply :: rest →
      motive (state.received client (service.receive (state.apps client) reply) rest)) :
    motive (service.step state action) := by
  cases action with
  | enter client input => exact henter client input rfl
  | arrive client world =>
      unfold step
      dsimp only
      split
      next => exact hsame
      next request rest hsent => exact harrive client request rest hsent
  | dequeue thread =>
      unfold step
      dsimp only
      split
      next client request rest hidle hqueue =>
        exact hdequeue thread client request rest hidle hqueue
      next => exact hsame
  | handle thread world =>
      unfold step
      dsimp only
      split
      next client request hholds => exact hhandle thread client request world rfl hholds
      next => exact hsame
  | reply thread =>
      change motive (state.replied thread)
      unfold State.replied
      split
      next client reply rest hreplies => exact hreply thread client reply rest hreplies
      next client hreplies => exact hfinish thread client hreplies
      next => exact hsame
  | receive client world =>
      unfold step
      dsimp only
      split
      next => exact hsame
      next reply rest hinbox => exact hreceive client reply rest hinbox

end Service

/-! ## What is kept -/

section Contracts

variable {Client Thread Input World Request Reply Server App : Type*}

/-- What holds of the parties and of everything that is under way. -/
structure Contract (Client Input World Request Reply Server App : Type*) where
  input : Client → Input → Prop
  /-- What the world of a receiver has to be. -/
  world : World → Prop
  app : Client → App → Prop
  request : Client → Request → Prop
  server : Server → Prop
  reply : Reply → Prop

namespace Contract

variable (contract : Contract Client Input World Request Reply Server App)

/-- An action whose input is as the contract says, or the world of its receiver. -/
def Allows : Action Client Thread Input World → Prop
  | .enter client input => contract.input client input
  | .arrive _ world => contract.world world
  | .receive _ world => contract.world world
  | .dequeue _ => True
  | .handle _ _ => True
  | .reply _ => True

def OfWorker : Worker Client Request Reply → Prop
  | .idle => True
  | .holds client request => contract.request client request
  | .replies _ replies => ∀ reply ∈ replies, contract.reply reply

/-- A state in which the contract is kept. -/
structure Holds
    (state : State Client Thread Request Reply (Requests Client Request) Server App) : Prop where
  server : contract.server state.server
  apps : ∀ client, contract.app client (state.apps client)
  sent : ∀ client, ∀ request ∈ state.sent client, contract.request client request
  queue : ∀ entry ∈ state.queue, contract.request entry.1 entry.2
  workers : ∀ thread, contract.OfWorker (state.workers thread)
  inbox : ∀ client, ∀ reply ∈ state.inbox client, contract.reply reply

end Contract

/-- Nothing is under way at the start. -/
theorem Contract.Holds.start {contract : Contract Client Input World Request Reply Server App}
    {server : Server} (hserver : contract.server server) {apps : Client → App}
    (happs : ∀ client, contract.app client (apps client)) :
    contract.Holds (.start server apps [] : State Client Thread Request Reply _ Server App) where
  server := hserver
  apps := happs
  sent := fun _ _ hmem => absurd hmem List.not_mem_nil
  queue := fun _ hmem => absurd hmem List.not_mem_nil
  workers := fun _ => trivial
  inbox := fun _ _ hmem => absurd hmem List.not_mem_nil

/-- What each party has to do for the contract to be kept. -/
structure Service.Keeps (service : Service Client Input World Request Reply Server App)
    (contract : Contract Client Input World Request Reply Server App) : Prop where
  enter : ∀ {client app input}, contract.app client app → contract.input client input →
    contract.app client (service.enter client app input).1 ∧
      ∀ request, (service.enter client app input).2 = some request →
        contract.request client request
  handle : ∀ {server client request}, contract.server server →
    contract.request client request → ∀ world,
    contract.server (service.handle server request world).1 ∧
      ∀ reply ∈ (service.handle server request world).2, contract.reply reply
  receive : ∀ {client app reply}, contract.app client app → contract.reply reply →
    contract.app client (service.receive app reply)

/-- What holds everywhere and of a new value holds after an update. -/
theorem forall_update {ι : Type*} [DecidableEq ι] {β : Type*} (property : ι → β → Prop)
    {values : ι → β} (hall : ∀ index, property index (values index)) {index : ι} {value : β}
    (hvalue : property index value) (other : ι) :
    property other (Function.update values index value other) := by
  by_cases hother : other = index
  · subst hother
    rwa [Function.update_self]
  · rw [Function.update_of_ne hother]
    exact hall other

variable [DecidableEq Client] [DecidableEq Thread]
  {service : Service Client Input World Request Reply Server App}
  {contract : Contract Client Input World Request Reply Server App}

/-- One step keeps the contract. -/
theorem Service.Keeps.step (hkeeps : service.Keeps contract)
    {state : State Client Thread Request Reply (Requests Client Request) Server App}
    (hstate : contract.Holds state) {action : Action Client Thread Input World}
    (hallowed : contract.Allows action) : contract.Holds (service.step state action) := by
  let sent (client : Client) (requests : List Request) : Prop :=
    ∀ request ∈ requests, contract.request client request
  let worker (_ : Thread) := contract.OfWorker
  let inbox (_ : Client) (replies : List Reply) : Prop := ∀ reply ∈ replies, contract.reply reply
  apply service.step_elim hstate
  · rintro client input rfl
    obtain ⟨happ, hrequest⟩ := hkeeps.enter (hstate.apps client) hallowed
    refine { hstate with apps := forall_update contract.app hstate.apps happ, sent := ?_ }
    refine forall_update sent hstate.sent fun request hmem => ?_
    rcases List.mem_append.mp hmem with hold | hnew
    · exact hstate.sent client request hold
    · exact hrequest request (Option.mem_toList.mp hnew)
  · intro client request rest hsent
    have hall : ∀ other ∈ request :: rest, contract.request client other :=
      hsent ▸ hstate.sent client
    refine { hstate with sent := ?_, queue := ?_ }
    · exact forall_update sent hstate.sent (List.forall_mem_cons.mp hall).2
    · intro entry hentry
      change entry ∈ service.offer state.queue client request at hentry
      unfold Service.offer at hentry
      split_ifs at hentry
      · rcases List.mem_append.mp hentry with hold | hnew
        · exact hstate.queue entry hold
        · rw [List.mem_singleton.mp hnew]
          exact (List.forall_mem_cons.mp hall).1
      · exact hstate.queue entry hentry
  · intro thread client request rest _ hqueue
    have hall : ∀ entry ∈ (client, request) :: rest, contract.request entry.1 entry.2 :=
      hqueue ▸ hstate.queue
    obtain ⟨hfirst, hrest⟩ := List.forall_mem_cons.mp hall
    exact
      { hstate with
        queue := hrest
        workers := forall_update worker hstate.workers hfirst }
  · rintro thread client request world rfl hholds
    have hworker := hstate.workers thread
    rw [hholds] at hworker
    obtain ⟨hserver, hreplies⟩ := hkeeps.handle hstate.server hworker world
    exact
      { hstate with
        server := hserver
        workers := forall_update worker hstate.workers hreplies }
  · intro thread client reply rest hpending
    have hworker := hstate.workers thread
    rw [hpending] at hworker
    obtain ⟨hfirst, hrest⟩ := List.forall_mem_cons.mp hworker
    refine { hstate with workers := ?_, inbox := ?_ }
    · exact forall_update worker hstate.workers hrest
    · refine forall_update inbox hstate.inbox fun other hmem => ?_
      rcases List.mem_append.mp hmem with hold | hnew
      · exact hstate.inbox client other hold
      · rwa [List.mem_singleton.mp hnew]
  · intro thread client _
    exact
      { hstate with
        workers := forall_update worker hstate.workers trivial }
  · intro client reply rest hinbox
    have hall : ∀ other ∈ reply :: rest, contract.reply other := hinbox ▸ hstate.inbox client
    obtain ⟨hfirst, hrest⟩ := List.forall_mem_cons.mp hall
    exact
      { hstate with
        apps := forall_update contract.app hstate.apps (hkeeps.receive (hstate.apps client) hfirst)
        inbox := forall_update inbox hstate.inbox hrest }

/-- A run of allowed actions keeps the contract. -/
theorem Service.Keeps.run (hkeeps : service.Keeps contract)
    {state : State Client Thread Request Reply (Requests Client Request) Server App}
    (hstate : contract.Holds state) {actions : List (Action Client Thread Input World)}
    (hallowed : ∀ action ∈ actions, contract.Allows action) :
    contract.Holds (service.run state actions) :=
  Transition.run_invariant_of_mem service.step contract.Holds
    (fun _ action haction hcurrent => hkeeps.step hcurrent (hallowed action haction)) hstate

end Contracts

/-! ## What is accounted for -/

/-- An update by a value of the same weight. -/
theorem apply_update {ι : Type*} [DecidableEq ι] {β γ : Type*} (weight : β → γ) (values : ι → β)
    {index : ι} {value : β} (hvalue : weight value = weight (values index)) (other : ι) :
    weight (Function.update values index value other) = weight (values other) := by
  by_cases hother : other = index
  · rw [hother, Function.update_self, hvalue]
  · rw [Function.update_of_ne hother]

section Accounts

variable {Client Thread Input World Request Reply Server App M : Type*} [AddCommMonoid M]
  [DecidableEq Client] [DecidableEq Thread] [Fintype Thread]

/-- A sum over the threads, of which one has changed. -/
theorem sum_update {β : Type*} (weight : β → M) (workers : Thread → β) (thread : Thread) :
    ∃ others, ∑ index, weight (workers index) = weight (workers thread) + others ∧
      ∀ worker, ∑ index, weight (Function.update workers thread worker index) =
        weight worker + others := by
  refine ⟨∑ index ∈ Finset.univ.erase thread, weight (workers index), ?_, fun worker => ?_⟩
  · exact (Finset.add_sum_erase _ _ (Finset.mem_univ thread)).symm
  · rw [← Finset.add_sum_erase _ _ (Finset.mem_univ thread), Function.update_self]
    congr 1
    apply Finset.sum_congr rfl
    intro index hindex
    rw [Function.update_of_ne (Finset.ne_of_mem_erase hindex)]

/-- The weight of the replies that a thread still has to send to a client. -/
def Worker.owed (weight : Reply → M) (client : Client) : Worker Client Request Reply → M
  | .replies owner pending => if owner = client then (pending.map weight).sum else 0
  | _ => 0

/-- The weight of the replies on their way to a client. -/
def State.owed (weight : Reply → M)
    (state : State Client Thread Request Reply (Requests Client Request) Server App)
    (client : Client) : M :=
  ((state.inbox client).map weight).sum + ∑ thread, (state.workers thread).owed weight client

omit [DecidableEq Thread] in
/-- Nothing is owed while the threads wait and nothing is under way. -/
theorem State.owed_of_idle {weight : Reply → M}
    {state : State Client Thread Request Reply (Requests Client Request) Server App}
    (hidle : ∀ thread, state.workers thread = .idle) {client : Client}
    (hinbox : state.inbox client = []) : state.owed weight client = 0 := by
  unfold State.owed
  rw [hinbox, Finset.sum_eq_zero]
  · exact add_zero 0
  · intro thread _
    rw [hidle thread]
    rfl

/-- The server enters in its ledger the weight of what it replies to a client, and a
client tallies the weight of what it receives. -/
structure Service.Settles (service : Service Client Input World Request Reply Server App)
    (contract : Contract Client Input World Request Reply Server App) (weight : Reply → M)
    (tally : App → M) (ledger : Client → Server → M) : Prop where
  enter : ∀ client app input, tally (service.enter client app input).1 = tally app
  handle : ∀ {server client request}, contract.server server →
    contract.request client request → ∀ world other,
      ledger other (service.handle server request world).1 = ledger other server +
        if client = other then ((service.handle server request world).2.map weight).sum else 0
  receive : ∀ app reply, tally (service.receive app reply) = tally app + weight reply

/-- No reply is lost or counted twice: what a client has received and what is on its way
is what stands in the ledger. -/
def State.Settled (weight : Reply → M) (tally : App → M) (ledger : Client → Server → M)
    (state : State Client Thread Request Reply (Requests Client Request) Server App) : Prop :=
  ∀ client, tally (state.apps client) + state.owed weight client = ledger client state.server

variable {service : Service Client Input World Request Reply Server App}
  {contract : Contract Client Input World Request Reply Server App} {weight : Reply → M}
  {tally : App → M} {ledger : Client → Server → M}

theorem Service.Settles.step (hsettles : service.Settles contract weight tally ledger)
    {state : State Client Thread Request Reply (Requests Client Request) Server App}
    (hstate : contract.Holds state) (hsettled : state.Settled weight tally ledger)
    (action : Action Client Thread Input World) :
    (service.step state action).Settled weight tally ledger := by
  -- a thread whose replies to a client have the weight they had
  have hworker : ∀ (client : Client) (thread : Thread) (worker : Worker Client Request Reply),
      worker.owed weight client = (state.workers thread).owed weight client →
      ∑ index, (Function.update state.workers thread worker index).owed weight client =
        ∑ index, (state.workers index).owed weight client :=
    fun client thread worker howed => Finset.sum_congr rfl fun index _ =>
      apply_update (Worker.owed weight client) state.workers howed index
  apply service.step_elim hsettled
  · intro client input _ other
    have htally := apply_update tally state.apps (hsettles.enter client (state.apps client) input)
      other
    exact (congrArg (· + state.owed weight other) htally).trans (hsettled other)
  · exact fun client request rest _ other => hsettled other
  · intro thread client request rest hidle _ other
    refine Eq.trans ?_ (hsettled other)
    unfold State.owed
    congr 2
    apply hworker
    rw [hidle]
    rfl
  · intro thread client request world _ hholds other
    have hrequest := hstate.workers thread
    rw [hholds] at hrequest
    have hother := hsettled other
    obtain ⟨others, hbefore, hafter⟩ := sum_update (Worker.owed weight other) state.workers thread
    unfold State.owed at hother ⊢
    change _ + (_ + ∑ index, (Function.update state.workers thread _ index).owed weight other) =
      ledger other (service.handle state.server request world).1
    rw [hsettles.handle hstate.server hrequest world other, ← hother, hbefore, hafter, hholds]
    simp only [State.handled, Worker.owed, zero_add]
    ac_rfl
  · intro thread client reply rest hreplies other
    have hother := hsettled other
    obtain ⟨others, hbefore, hafter⟩ := sum_update (Worker.owed weight other) state.workers thread
    refine Eq.trans ?_ hother
    unfold State.owed
    dsimp only
    rw [hbefore, hafter, hreplies]
    by_cases hsame : other = client
    · subst hsame
      simp only [Worker.owed, Function.update_self, List.map_append, List.sum_append,
        List.map_cons, List.map_nil, List.sum_cons, List.sum_nil, if_pos, add_zero]
      ac_rfl
    · simp only [Worker.owed, Function.update_of_ne hsame, if_neg (Ne.symm hsame)]
  · intro thread client hreplies other
    refine Eq.trans ?_ (hsettled other)
    unfold State.owed
    congr 2
    apply hworker
    rw [hreplies]
    simp [Worker.owed]
  · intro client reply rest hinbox other
    refine Eq.trans ?_ (hsettled other)
    unfold State.owed
    by_cases hsame : other = client
    · subst hsame
      simp only [State.received, Function.update_self, hsettles.receive, hinbox, List.map_cons,
        List.sum_cons]
      ac_rfl
    · simp only [State.received, Function.update_of_ne hsame]

/-- No run loses a reply or delivers one twice. -/
theorem Service.Settles.run (hsettles : service.Settles contract weight tally ledger)
    (hkeeps : service.Keeps contract)
    {state : State Client Thread Request Reply (Requests Client Request) Server App}
    (hstate : contract.Holds state) (hsettled : state.Settled weight tally ledger)
    {actions : List (Action Client Thread Input World)}
    (hallowed : ∀ action ∈ actions, contract.Allows action) :
    (service.run state actions).Settled weight tally ledger :=
  (Transition.run_invariant_of_mem service.step
    (fun current => contract.Holds current ∧ current.Settled weight tally ledger)
    (fun _ action haction hcurrent =>
      ⟨hkeeps.step hcurrent.1 (hallowed action haction),
        hsettles.step hcurrent.1 hcurrent.2 action⟩)
    ⟨hstate, hsettled⟩).2

end Accounts

end RequestReply
