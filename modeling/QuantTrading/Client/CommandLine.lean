import QuantTrading.Client.ClientApp
import QuantTrading.Client.ClientCommands

/-! # The command line

The loop of `command_line.c` that reads lines, and `handle_command` of `client_app.c`,
which sends them on. What a client shows for `HELP` is not modelled.
-/

namespace QuantTrading

/-- A client: whether `exit` was not called, whether it is connected, and the variables
that `handle_message` uses. -/
structure ClientProcess (α : Type) where
  running : Bool
  connected : Bool
  app : ClientApp α

/-- The `trader_id` of a client, made from its process id. -/
def traderIdOf (pid : Int) : CString :=
  OrderLoader.copyField 32 ("TRADER".toList ++ printLong pid)

variable {α : Type}

namespace ClientProcess

/-- A book is to be shown when the next snapshot comes. -/
def requestView (process : ClientProcess α) : ClientProcess α :=
  { process with app := { process.app with isViewRequested := true } }

/-- `handle_command`: the process afterwards, and what it sends. A VIEW command is noted
before the connection is looked at. -/
def handleCommand (cjson : CJson α) (process : ClientProcess α) (cmd : Command α)
    (traderId : CString) : ClientProcess α × Option CString :=
  if cmd.type = .quit then ({ process with running := false }, none)
  else
    let process := if cmd.type = .view then process.requestView else process
    if !process.connected then (process, none)
    else (process, formatCommandAsJson cjson cmd traderId)

/-- The body of the loop of `input_thread`, for a line. -/
def inputThread [LT α] [DecidableLT α] [Zero α] (cjson : CJson α) (readers : NumeralReaders α)
    (limits : PriceLimits α) (process : ClientProcess α) (line : CString) (now : TimeT)
    (traderId : CString) : ClientProcess α × Option CString :=
  if line = [] then (process, none)
  else
    let cmd := parseCommand readers limits now line
    if cmd.type = .quit then process.handleCommand cjson cmd traderId
    else if cmd.type = .help then (process, none)
    else if cmd.type ≠ .invalid then process.handleCommand cjson cmd traderId
    else (process, none)

/-- What is sent for a line is the text of its command, and only a VIEW command changes
the client. -/
theorem inputThread_sends [LT α] [DecidableLT α] [Zero α] {cjson : CJson α}
    {readers : NumeralReaders α} {limits : PriceLimits α} {process sender : ClientProcess α}
    {line message traderId : CString} {now : TimeT}
    (hsent : process.inputThread cjson readers limits line now traderId =
      (sender, some message)) :
    let cmd := parseCommand readers limits now line
    formatCommandAsJson cjson cmd traderId = some message ∧
      sender = if cmd.type = .view then process.requestView else process := by
  intro cmd
  unfold inputThread at hsent
  dsimp only at hsent
  have hcommand : process.handleCommand cjson cmd traderId = (sender, some message) := by
    have hnothing : (process, none) ≠ (sender, some message) :=
      fun heq => Option.some_ne_none message (Prod.mk.inj heq).2.symm
    split_ifs at hsent
    · exact absurd hsent hnothing
    · exact hsent
    · exact absurd hsent hnothing
    · exact hsent
    · exact absurd hsent hnothing
  unfold handleCommand at hcommand
  dsimp only at hcommand
  generalize (if cmd.type = .view then process.requestView else process) = current at hcommand ⊢
  split_ifs at hcommand
  · exact absurd (Prod.mk.inj hcommand).2 (Option.some_ne_none message).symm
  · exact absurd (Prod.mk.inj hcommand).2 (Option.some_ne_none message).symm
  · exact ⟨(Prod.mk.inj hcommand).2, (Prod.mk.inj hcommand).1.symm⟩

/-- Nothing is printed while a line is handled. -/
theorem inputThread_notices [LT α] [DecidableLT α] [Zero α] (cjson : CJson α)
    (readers : NumeralReaders α) (limits : PriceLimits α) (process : ClientProcess α)
    (line : CString) (now : TimeT) (traderId : CString) :
    (process.inputThread cjson readers limits line now traderId).1.app.notices =
      process.app.notices := by
  have hcommand : ∀ cmd : Command α,
      (process.handleCommand cjson cmd traderId).1.app.notices = process.app.notices := by
    intro cmd
    unfold handleCommand
    dsimp only
    split_ifs <;> rfl
  unfold inputThread
  dsimp only
  split_ifs
  · rfl
  · exact hcommand _
  · rfl
  · exact hcommand _
  · rfl

end ClientProcess

/-! ## Trader ids -/

/-- The id of a process fits its field. -/
theorem traderIdOf_eq {pid : Int} (hpid : IsInt pid) :
    traderIdOf pid = "TRADER".toList ++ printLong pid ∧ (traderIdOf pid).length < 31 := by
  have hlength : ("TRADER".toList ++ printLong pid).length < 31 := by
    have hdigits : (printLong pid).length ≤ 20 := by
      obtain ⟨hmin, hmax⟩ := hpid
      unfold intMin at hmin
      unfold intMax at hmax
      exact length_printLong_le ⟨pid, by omega, by omega⟩
    rw [List.length_append]
    change 6 + _ < 31
    omega
  have heq : traderIdOf pid = "TRADER".toList ++ printLong pid :=
    List.take_of_length_le hlength.le
  exact ⟨heq, heq ▸ hlength⟩

/-- Clients of different processes have different ids. -/
theorem traderIdOf_injective {Client : Type} {pid : Client → Int}
    (hpid : ∀ client, IsInt (pid client)) (hinjective : Function.Injective pid) :
    Function.Injective fun client => traderIdOf (pid client) := by
  intro first second hid
  dsimp only at hid
  rw [(traderIdOf_eq (hpid first)).1, (traderIdOf_eq (hpid second)).1] at hid
  exact hinjective (printLong_injective (List.append_cancel_left hid))

end QuantTrading
