import QuantTrading.Client.CommandDelivery
import QuantTrading.Server.Admission
import QuantTrading.Server.OrderAddressing

/-! # Order ids

An order id is made by the client from the clock in whole seconds, and the server does
not compare it with the ids in its books. Two orders of one book have different ids as
long as no two of the commands for its symbol were typed in the same second.
-/

namespace QuantTrading

namespace ServerHandlers

/-- No two orders stored in one book have the same id. -/
def UniqueIds {α : Type*} (handlers : ServerHandlers α) : Prop :=
  ∀ registered ∈ handlers.books, ∀ first ∈ registered.storedOrders,
    ∀ second ∈ registered.storedOrders,
      (handlers.orders first).orderId = (handlers.orders second).orderId → first = second

instance {α : Type*} (handlers : ServerHandlers α) : Decidable handlers.UniqueIds :=
  inferInstanceAs (Decidable (∀ registered ∈ handlers.books, ∀ first ∈ registered.storedOrders,
    ∀ second ∈ registered.storedOrders,
      (handlers.orders first).orderId = (handlers.orders second).orderId → first = second))

section Unique

variable {α : Type*} {keeps : CString → Order α → Prop} {handlers : ServerHandlers α}

theorem UniqueIds.findOrCreateBook (hunique : handlers.UniqueIds) {symbol : CString}
    {found : Option (Nat × RegisteredBook α)} {after : ServerHandlers α}
    (hfind : handlers.findOrCreateBook symbol = (found, after)) : after.UniqueIds := by
  rcases (findOrCreateBook_spec hfind).1 with rfl | rfl
  · exact hunique
  · intro registered hregistered first hfirst
    rcases List.mem_append.mp hregistered with hold | hnew
    · exact hunique registered hold first hfirst
    · rw [List.mem_singleton.mp hnew] at hfirst
      exact absurd hfirst List.not_mem_nil

variable [LT α] [DecidableLT α] [BEq α]

end Unique

end ServerHandlers

/-- A line typed by a client, the second at which it is parsed, and the frame of the
worker that handles its message. -/
structure IssuedCommand (α : Type) where
  line : CString
  line_plain : nul ∉ line
  traderId : CString
  trader_plain : nul ∉ traderId
  now : TimeT
  frame : WorkerFrame α

namespace IssuedCommand

variable {α : Type} [LT α] [DecidableLT α] [Zero α]
variable (cjson : CJson α) (readers : NumeralReaders α) (limits : PriceLimits α)

/-- The command on the line. -/
def command (issued : IssuedCommand α) : Command α :=
  parseCommand readers limits issued.now issued.line

/-- The line is a BUY or a SELL command. -/
def Places (issued : IssuedCommand α) : Prop :=
  (issued.command readers limits).type = .buy ∨ (issued.command readers limits).type = .sell

/-- Two orders for one symbol are typed in different seconds. -/
def Apart (first second : IssuedCommand α) : Prop :=
  first.Places readers limits → second.Places readers limits →
    (first.command readers limits).symbol = (second.command readers limits).symbol →
    first.now ≠ second.now

/-- The id and the symbol of an order are those of one of the commands. -/
def IssuedBy (commands : List (IssuedCommand α)) (symbol : CString) (order : Order α) : Prop :=
  ∃ issued ∈ commands, issued.Places readers limits ∧
    (issued.command readers limits).symbol = symbol ∧
    order.orderId = generateOrderId issued.now 32

variable {cjson : CJson α} {readers : NumeralReaders α} {limits : PriceLimits α}

variable [BEq α] {handlers : ServerHandlers α} {commands : List (IssuedCommand α)}
  {issued : IssuedCommand α}

omit [BEq α] in
theorem IssuedBy.append {symbol : CString} {order : Order α}
    (hissued : IssuedBy readers limits commands symbol order) (more : List (IssuedCommand α)) :
    IssuedBy readers limits (commands ++ more) symbol order := by
  obtain ⟨earlier, hearlier, hsource⟩ := hissued
  exact ⟨earlier, List.mem_append_left _ hearlier, hsource⟩

end IssuedCommand

end QuantTrading
