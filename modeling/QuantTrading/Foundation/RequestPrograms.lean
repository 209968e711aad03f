import QuantTrading.Foundation.RequestReply

/-! # Programs that implement a service

Programs exchange representations of requests and replies, keep the queue in a form of
their own, and can fail. They implement a service when each of them computes what the
service says on everything that the contract of the service allows. Then every run of
the programs succeeds, in a state that represents the one of the service.
-/

namespace RequestReply

/-- The programs of the parties. -/
structure Programs (Client Input World Request Reply Queue Server App Fault : Type) where
  enter : Client → App → Input → App × Option Request
  enqueue : Client → Request → World → Queue → Except Fault Queue
  dequeue : Queue → Option ((Client × Request) × Queue)
  handle : Server → Request → World → Except Fault (Server × List Reply)
  receive : App → Reply → World → Except Fault App

namespace Programs

variable {Client Thread Input World Request Reply Queue Server App Fault : Type}
  [DecidableEq Client] [DecidableEq Thread]
  (programs : Programs Client Input World Request Reply Queue Server App Fault)

/-- A step of one party. -/
def step (state : State Client Thread Request Reply Queue Server App) :
    Action Client Thread Input World →
      Except Fault (State Client Thread Request Reply Queue Server App)
  | .enter client input =>
      let outcome := programs.enter client (state.apps client) input
      .ok (state.entered client outcome.1 outcome.2)
  | .arrive client world =>
      match state.sent client with
      | [] => .ok state
      | request :: rest =>
          (programs.enqueue client request world state.queue).map (state.arrived client rest)
  | .dequeue thread =>
      match state.workers thread, programs.dequeue state.queue with
      | .idle, some ((client, request), queue) => .ok (state.taken thread client request queue)
      | _, _ => .ok state
  | .handle thread world =>
      match state.workers thread with
      | .holds client request =>
          (programs.handle state.server request world).map fun outcome =>
            state.handled thread client outcome.1 outcome.2
      | _ => .ok state
  | .reply thread => .ok (state.replied thread)
  | .receive client world =>
      match state.inbox client with
      | [] => .ok state
      | reply :: rest =>
          (programs.receive (state.apps client) reply world).map fun app =>
            state.received client app rest

/-- The state after a list of actions, unless one of them fails. -/
def run (state : State Client Thread Request Reply Queue Server App)
    (actions : List (Action Client Thread Input World)) :
    Except Fault (State Client Thread Request Reply Queue Server App) :=
  actions.foldlM programs.step state

end Programs

/-! ## Representations -/

/-- What stands for a request and for a reply, and for a queue of requests. -/
structure Representation (Client Request Reply Request' Reply' Queue : Type) where
  request : Request → Request'
  reply : Reply → Reply'
  queue : Queue → Requests Client Request → Prop

section Representations

variable {Client Thread Input World Request Reply Request' Reply' Queue Server App Fault : Type}

def Worker.map (request : Request → Request') (reply : Reply → Reply') :
    Worker Client Request Reply → Worker Client Request' Reply'
  | .idle => .idle
  | .holds client held => .holds client (request held)
  | .replies client pending => .replies client (pending.map reply)

/-- A thread that waits represents one that waits. -/
theorem Worker.eq_idle_of_map {request : Request → Request'} {reply : Reply → Reply'}
    {worker : Worker Client Request Reply} (hidle : worker.map request reply = .idle) :
    worker = .idle := by
  cases worker with
  | idle => rfl
  | holds client held => cases hidle
  | replies client pending => cases hidle

/-- A state of the programs that represents one of the service. -/
structure Representation.Represents
    (representation : Representation Client Request Reply Request' Reply' Queue)
    (concrete : State Client Thread Request' Reply' Queue Server App)
    (state : State Client Thread Request Reply (Requests Client Request) Server App) : Prop where
  server : concrete.server = state.server
  apps : concrete.apps = state.apps
  sent : ∀ client, concrete.sent client = (state.sent client).map representation.request
  queue : representation.queue concrete.queue state.queue
  workers : ∀ thread, concrete.workers thread =
    (state.workers thread).map representation.request representation.reply
  inbox : ∀ client, concrete.inbox client = (state.inbox client).map representation.reply

/-- Nothing is under way at the start of both sides. -/
theorem Representation.Represents.start
    {representation : Representation Client Request Reply Request' Reply' Queue}
    {queue : Queue} (hqueue : representation.queue queue []) (server : Server)
    (apps : Client → App) :
    representation.Represents
      (.start server apps queue : State Client Thread Request' Reply' Queue Server App)
      (.start server apps []) where
  server := rfl
  apps := rfl
  sent := fun _ => rfl
  queue := hqueue
  workers := fun _ => rfl
  inbox := fun _ => rfl

/-- Each program does what the service says, wherever the contract is kept. -/
structure Programs.Implements
    (programs : Programs Client Input World Request' Reply' Queue Server App Fault)
    (service : Service Client Input World Request Reply Server App)
    (contract : Contract Client Input World Request Reply Server App)
    (representation : Representation Client Request Reply Request' Reply' Queue) : Prop where
  enter : ∀ {client app input}, contract.app client app → contract.input client input →
    programs.enter client app input =
      ((service.enter client app input).1,
        (service.enter client app input).2.map representation.request)
  enqueue : ∀ {client request world concrete queue}, contract.request client request →
    contract.world world → representation.queue concrete queue →
    ∃ after, programs.enqueue client (representation.request request) world concrete = .ok after ∧
      representation.queue after (service.offer queue client request)
  dequeue_nil : ∀ {concrete}, representation.queue concrete [] → programs.dequeue concrete = none
  dequeue_cons : ∀ {concrete client request rest},
    representation.queue concrete ((client, request) :: rest) →
    ∃ after, programs.dequeue concrete =
      some ((client, representation.request request), after) ∧ representation.queue after rest
  handle : ∀ {server client request}, contract.server server →
    contract.request client request → ∀ world,
    programs.handle server (representation.request request) world =
      .ok ((service.handle server request world).1,
        (service.handle server request world).2.map representation.reply)
  receive : ∀ {client app reply world}, contract.app client app → contract.reply reply →
    contract.world world →
    programs.receive app (representation.reply reply) world = .ok (service.receive app reply)

/-- Both sides update the same index, one with what represents the value of the other. -/
theorem update_represents {ι β γ : Type*} [DecidableEq ι] (represent : β → γ) {concrete : ι → γ}
    {values : ι → β} (hall : ∀ index, concrete index = represent (values index)) (index : ι)
    (value : β) (other : ι) :
    Function.update concrete index (represent value) other =
      represent (Function.update values index value other) := by
  by_cases hother : other = index
  · rw [hother, Function.update_self, Function.update_self]
  · rw [Function.update_of_ne hother, Function.update_of_ne hother, hall]

variable [DecidableEq Client] [DecidableEq Thread]
  {programs : Programs Client Input World Request' Reply' Queue Server App Fault}
  {service : Service Client Input World Request Reply Server App}
  {contract : Contract Client Input World Request Reply Server App}
  {representation : Representation Client Request Reply Request' Reply' Queue}

/-- Both sides send replies alike. -/
theorem Representation.Represents.replied
    {concrete : State Client Thread Request' Reply' Queue Server App}
    {state : State Client Thread Request Reply (Requests Client Request) Server App}
    (hrepresents : representation.Represents concrete state) (thread : Thread) :
    representation.Represents (concrete.replied thread) (state.replied thread) := by
  have hthread := hrepresents.workers thread
  have hworkers := update_represents (Worker.map representation.request representation.reply)
    hrepresents.workers thread
  unfold State.replied
  cases hworker : state.workers thread with
  | idle =>
      rw [hworker] at hthread
      rw [hthread]
      exact hrepresents
  | holds client request =>
      rw [hworker] at hthread
      rw [hthread]
      exact hrepresents
  | replies client pending =>
      rw [hworker] at hthread
      rw [hthread]
      cases pending with
      | nil => exact { hrepresents with workers := hworkers .idle }
      | cons reply rest =>
          refine { hrepresents with workers := hworkers (.replies client rest), inbox := ?_ }
          have hinbox := update_represents (List.map representation.reply) hrepresents.inbox client
            (state.inbox client ++ [reply])
          rwa [List.map_append, ← hrepresents.inbox] at hinbox

section Steps

variable {concrete : State Client Thread Request' Reply' Queue Server App}
  {state : State Client Thread Request Reply (Requests Client Request) Server App}

/-- The programs take a step as the service does. -/
def Programs.Follows (programs : Programs Client Input World Request' Reply' Queue Server App Fault)
    (service : Service Client Input World Request Reply Server App)
    (representation : Representation Client Request Reply Request' Reply' Queue)
    (concrete : State Client Thread Request' Reply' Queue Server App)
    (state : State Client Thread Request Reply (Requests Client Request) Server App)
    (action : Action Client Thread Input World) : Prop :=
  ∃ after, programs.step concrete action = .ok after ∧
    representation.Represents after (service.step state action)

/-- Neither side can take the step. -/
theorem Representation.Represents.stuck (hrepresents : representation.Represents concrete state)
    {action : Action Client Thread Input World}
    (hconcrete : programs.step concrete action = .ok concrete)
    (hservice : service.step state action = state) :
    programs.Follows service representation concrete state action := by
  rw [Programs.Follows, hservice]
  exact ⟨concrete, hconcrete, hrepresents⟩

variable (himplements : programs.Implements service contract representation)
  (hrepresents : representation.Represents concrete state) (hstate : contract.Holds state)
include himplements hrepresents hstate

theorem Programs.Implements.enterStep {client : Client} {input : Input}
    (hinput : contract.input client input) :
    programs.Follows service representation concrete state (.enter client input) := by
  have henter := himplements.enter (hstate.apps client) hinput
  refine ⟨_, rfl, ?_⟩
  rw [hrepresents.apps, henter]
  refine { hrepresents with apps := ?_, sent := ?_ }
  · simp only [State.entered, hrepresents.apps]
    rfl
  · have hclient := update_represents (List.map representation.request) hrepresents.sent client
      (state.sent client ++ (service.enter client (state.apps client) input).2.toList)
    rw [List.map_append, ← hrepresents.sent, ← Option.toList_map] at hclient
    exact hclient

theorem Programs.Implements.arriveStep {client : Client} {world : World}
    (hworld : contract.world world) :
    programs.Follows service representation concrete state (.arrive client world) := by
  have hclient := hrepresents.sent client
  cases hfirst : state.sent client with
  | nil =>
      rw [hfirst] at hclient
      apply hrepresents.stuck
      · rw [Programs.step, hclient]
        rfl
      · rw [Service.step, hfirst]
  | cons request rest =>
      rw [hfirst] at hclient
      have hrequest : contract.request client request :=
        hstate.sent client request (hfirst ▸ List.mem_cons_self)
      obtain ⟨queue, hqueue, hadmitted⟩ :=
        himplements.enqueue hrequest hworld hrepresents.queue
      refine ⟨concrete.arrived client (rest.map representation.request) queue, ?_, ?_⟩
      · rw [Programs.step, hclient]
        exact congrArg (Except.map _) hqueue
      · rw [Service.step, hfirst]
        exact { hrepresents with
          sent := update_represents (List.map representation.request) hrepresents.sent client rest
          queue := hadmitted }

omit hstate in
theorem Programs.Implements.dequeueStep (thread : Thread) :
    programs.Follows service representation concrete state (.dequeue thread) := by
  have hthread := hrepresents.workers thread
  cases hworker : state.workers thread with
  | idle =>
      rw [hworker] at hthread
      have hqueue := hrepresents.queue
      cases hfirst : state.queue with
      | nil =>
          rw [hfirst] at hqueue
          apply hrepresents.stuck
          · rw [Programs.step, himplements.dequeue_nil hqueue, hthread]
            rfl
          · rw [Service.step, hworker, hfirst]
      | cons entry rest =>
          obtain ⟨client, request⟩ := entry
          rw [hfirst] at hqueue
          obtain ⟨queue, hdequeue, hrest⟩ := himplements.dequeue_cons hqueue
          refine ⟨concrete.taken thread client (representation.request request) queue, ?_, ?_⟩
          · rw [Programs.step, hdequeue, hthread]
            rfl
          · rw [Service.step, hworker, hfirst]
            exact { hrepresents with
              queue := hrest
              workers := update_represents
                (Worker.map representation.request representation.reply) hrepresents.workers thread
                (.holds client request) }
  | holds client request =>
      rw [hworker] at hthread
      apply hrepresents.stuck
      · rw [Programs.step, hthread]
        rfl
      · rw [Service.step, hworker]
  | replies client pending =>
      rw [hworker] at hthread
      apply hrepresents.stuck
      · rw [Programs.step, hthread]
        rfl
      · rw [Service.step, hworker]

theorem Programs.Implements.handleStep (thread : Thread) (world : World) :
    programs.Follows service representation concrete state (.handle thread world) := by
  have hthread := hrepresents.workers thread
  cases hworker : state.workers thread with
  | idle =>
      rw [hworker] at hthread
      apply hrepresents.stuck
      · rw [Programs.step, hthread]
        rfl
      · rw [Service.step, hworker]
  | holds client request =>
      rw [hworker] at hthread
      have hrequest := hstate.workers thread
      rw [hworker] at hrequest
      have hhandle := himplements.handle hstate.server hrequest world
      refine ⟨concrete.handled thread client (service.handle state.server request world).1
        ((service.handle state.server request world).2.map representation.reply), ?_, ?_⟩
      · rw [Programs.step, hthread, hrepresents.server]
        exact congrArg (Except.map _) hhandle
      · rw [Service.step, hworker]
        exact { hrepresents with
          server := rfl
          workers := update_represents (Worker.map representation.request representation.reply)
            hrepresents.workers thread
            (.replies client (service.handle state.server request world).2) }
  | replies client pending =>
      rw [hworker] at hthread
      apply hrepresents.stuck
      · rw [Programs.step, hthread]
        rfl
      · rw [Service.step, hworker]

theorem Programs.Implements.receiveStep {client : Client} {world : World}
    (hworld : contract.world world) :
    programs.Follows service representation concrete state (.receive client world) := by
  have hclient := hrepresents.inbox client
  cases hfirst : state.inbox client with
  | nil =>
      rw [hfirst] at hclient
      apply hrepresents.stuck
      · rw [Programs.step, hclient]
        rfl
      · rw [Service.step, hfirst]
  | cons reply rest =>
      rw [hfirst] at hclient
      have hreply : contract.reply reply :=
        hstate.inbox client reply (hfirst ▸ List.mem_cons_self)
      have hreceive := himplements.receive (hstate.apps client) hreply hworld
      refine ⟨concrete.received client (service.receive (state.apps client) reply)
        (rest.map representation.reply), ?_, ?_⟩
      · rw [Programs.step, hclient, hrepresents.apps]
        exact congrArg (Except.map _) hreceive
      · rw [Service.step, hfirst]
        refine { hrepresents with apps := ?_, inbox := ?_ }
        · simp only [State.received, hrepresents.apps]
        · exact update_represents (List.map representation.reply) hrepresents.inbox client rest

/-- One step of the programs succeeds and does what the service does. -/
theorem Programs.Implements.step {action : Action Client Thread Input World}
    (hallowed : contract.Allows action) :
    programs.Follows service representation concrete state action := by
  cases action with
  | enter client input => exact himplements.enterStep hrepresents hstate hallowed
  | arrive client world => exact himplements.arriveStep hrepresents hstate hallowed
  | dequeue thread => exact himplements.dequeueStep hrepresents thread
  | handle thread world => exact himplements.handleStep hrepresents hstate thread world
  | reply thread => exact ⟨_, rfl, hrepresents.replied thread⟩
  | receive client world => exact himplements.receiveStep hrepresents hstate hallowed

end Steps

/-- Every run of allowed actions succeeds, in a state that represents that of the service. -/
theorem Programs.Implements.run
    (himplements : programs.Implements service contract representation)
    (hkeeps : service.Keeps contract)
    {concrete : State Client Thread Request' Reply' Queue Server App}
    {state : State Client Thread Request Reply (Requests Client Request) Server App}
    (hrepresents : representation.Represents concrete state) (hstate : contract.Holds state)
    {actions : List (Action Client Thread Input World)}
    (hallowed : ∀ action ∈ actions, contract.Allows action) :
    ∃ after, programs.run concrete actions = .ok after ∧
      representation.Represents after (service.run state actions) := by
  induction actions generalizing concrete state with
  | nil => exact ⟨concrete, rfl, hrepresents⟩
  | cons action rest ih =>
      obtain ⟨hfirst, hrest⟩ := List.forall_mem_cons.mp hallowed
      obtain ⟨next, hstep, hnext⟩ := himplements.step hrepresents hstate hfirst
      obtain ⟨after, hrun, hafter⟩ := ih hnext (hkeeps.step hstate hfirst) hrest
      refine ⟨after, ?_, hafter⟩
      rw [Programs.run, List.foldlM_cons, hstep]
      exact hrun

end Representations

end RequestReply
