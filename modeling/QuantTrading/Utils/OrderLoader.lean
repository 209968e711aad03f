import QuantTrading.Engine.OrderBook
import Mathlib.Data.List.DropRight

/-! # Loading orders from a file

The functions of `order_loader.c`, from the file contents to the calls on the
book. A file is the list of its characters. The two numeral readers of the C
library are parameters: `atof` because prices are generic, `atoi` with it.
-/

namespace QuantTrading

/-- `MAX_LINE_LENGTH` of `order_loader.c`. -/
def maxLineLength : Nat := 1024

/-- `FileType`. -/
inductive FileType where
  | csv
  | txt
  | unknown
deriving DecidableEq, Repr

/-- The C library's `atof` and `atoi`. -/
structure NumeralReaders (α : Type) where
  atof : CString → α
  atoi : CString → Int

namespace OrderLoader

/-! ## The C library functions used -/

/-- `isspace` in the C locale. -/
def isSpace (c : Char) : Bool :=
  c = ' ' || (9 ≤ c.toNat && c.toNat ≤ 13)

/-- Equality under `strcasecmp`. -/
def equalIgnoringCase (first second : CString) : Bool :=
  first.map Char.toLower = second.map Char.toLower

/-- At most `count` characters of a line, its newline included, and the rest. -/
def readLine : Nat → CString → CString × CString
  | 0, rest => ([], rest)
  | _ + 1, [] => ([], [])
  | count + 1, c :: rest =>
      if c = '\n' then ([c], rest)
      else
        let (line, rest') := readLine count rest
        (c :: line, rest')

/-- `fgets(line, sizeof(line), file)`: `none` at the end of the file. -/
def fgets (file : CString) : Option (CString × CString) :=
  match file with
  | [] => none
  | c :: rest => some (readLine (maxLineLength - 1) (c :: rest))

/-- What successive calls of `fgets` read; each reads at least one character. -/
def fgetsAll : Nat → CString → List CString
  | 0, _ => []
  | fuel + 1, file =>
      match fgets file with
      | none => []
      | some (line, rest) => line :: fgetsAll fuel rest

/-- `strtok`: the next token and what follows the delimiter that ended it. -/
def strtok (isDelimiter : Char → Bool) (text : CString) : Option (CString × CString) :=
  match text.dropWhile isDelimiter with
  | [] => none
  | c :: rest =>
      some ((c :: rest).takeWhile (fun d => !isDelimiter d),
        ((c :: rest).dropWhile (fun d => !isDelimiter d)).drop 1)

/-- `strncpy` into a field of `size` characters, then terminated. -/
def copyField (size : Nat) (text : CString) : CString :=
  text.take (size - 1)

/-! ## The functions of the loader -/

/-- `determine_file_type`. -/
def determineFileType (filename : CString) : FileType :=
  if '.' ∈ filename then
    let fileExtension := (filename.reverse.takeWhile (· ≠ '.')).reverse
    if equalIgnoringCase fileExtension "csv".toList then .csv
    else if equalIgnoringCase fileExtension "txt".toList then .txt
    else .unknown
  else .unknown

/-- `trim_whitespace`: the string it returns. -/
def trimWhitespace (text : CString) : CString :=
  (text.dropWhile isSpace).rdropWhile isSpace

/-- The buffer after `trim_whitespace`, which cuts the end in place and returns a
pointer past the leading blanks. -/
def trimmedBuffer (text : CString) : CString :=
  text.takeWhile isSpace ++ trimWhitespace text

/-- The delimiters of a file type. -/
def isDelimiter : FileType → Char → Bool
  | .csv, c => c = ','
  | _, c => c = ' ' || c = '\t'

/-- The C string in a line buffer, without its newline. -/
def lineText (buffer : CString) : CString :=
  (buffer.takeWhile (· ≠ '\x00')).takeWhile (· ≠ '\n')

variable {α : Type}

/-- `parse_order_line`, with `now` the time at which the order is created. -/
def parseOrderLine [LE α] [DecidableLE α] [Zero α] (readers : NumeralReaders α)
    (fileType : FileType) (now : Int) (line : CString) : Option (Order α) := do
  let (orderId, rest) ← strtok (isDelimiter fileType) line
  let (traderId, rest) ← strtok (isDelimiter fileType) rest
  let (symbol, rest) ← strtok (isDelimiter fileType) rest
  let (side, rest) ← strtok (isDelimiter fileType) rest
  let (priceText, rest) ← strtok (isDelimiter fileType) rest
  let price := readers.atof (trimWhitespace priceText)
  if price ≤ 0 then none
  let (quantityText, _) ← strtok (isDelimiter fileType) rest
  let quantity := readers.atoi (trimWhitespace quantityText)
  if quantity ≤ 0 then none
  let isBuy := equalIgnoringCase (copyField 10 (trimWhitespace side)) "BUY".toList
  Order.create (copyField maxIdLength (trimWhitespace orderId))
    (copyField maxIdLength (trimWhitespace traderId))
    (copyField maxSymbolLength (trimWhitespace symbol)) price quantity isBuy now

/-- The order of one line of the loop, if the line is not skipped. `clock` gives
the time while each line is read. -/
def lineOrder [LE α] [DecidableLE α] [Zero α] (readers : NumeralReaders α)
    (clock : Nat → Int) (fileType : FileType) (lineNumber : Nat) (buffer : CString) :
    Option (Order α) :=
  let line := lineText buffer
  match trimWhitespace line with
  | [] => none
  | c :: _ =>
      if c = '#' then none
      else parseOrderLine readers fileType (clock lineNumber) (trimmedBuffer line)

/-- A book being loaded: `malloc` returns the addresses in ascending order. -/
structure Loading (α : Type) where
  engine : Engine α Nat
  nextAddress : Nat
  ordersLoaded : Int

section Load

variable [LT α] [DecidableLT α] [BEq α]

/-- Store a created order and add it to the book. -/
def Loading.add (loading : Loading α) (order : Order α) : Loading α :=
  let engine : Engine α Nat := { loading.engine with
    orders := Function.update loading.engine.orders loading.nextAddress order }
  let result := engine.addOrder loading.nextAddress
  { engine := result.2
    nextAddress := loading.nextAddress + 1
    ordersLoaded := if result.1 = 0 then loading.ordersLoaded + 1 else loading.ordersLoaded }

variable [LE α] [DecidableLE α] [Zero α]

/-- The loop over the lines of the file, starting at a line number. -/
def loadLines (readers : NumeralReaders α) (clock : Nat → Int) (fileType : FileType) :
    Nat → List CString → Loading α → Loading α
  | _, [], loading => loading
  | lineNumber, buffer :: rest, loading =>
      loadLines readers clock fileType (lineNumber + 1) rest
        (match lineOrder readers clock fileType lineNumber buffer with
        | none => loading
        | some order => loading.add order)

/-- The orders that the lines of the file stand for. -/
def fileOrders (readers : NumeralReaders α) (clock : Nat → Int) (fileType : FileType) :
    Nat → List CString → List (Order α)
  | _, [] => []
  | lineNumber, buffer :: rest =>
      (lineOrder readers clock fileType lineNumber buffer).toList ++
        fileOrders readers clock fileType (lineNumber + 1) rest

/-- The lines `load_orders_from_file` processes, with the number of the first, or
`none` when it returns `-1`. `contents` is `none` when the file cannot be opened. -/
def processedLines (fileType : FileType) (contents : Option CString) :
    Option (Nat × List CString) :=
  match fileType, contents with
  | .unknown, _ => none
  | _, none => none
  | .csv, some file =>
      -- the header of a CSV file is read and dropped
      match fgets file with
      | none => none
      | some (_, rest) => some (2, fgetsAll rest.length rest)
  | .txt, some file => some (1, fgetsAll file.length file)

/-- `load_orders_from_file`: the return value, and the engine afterwards. -/
def loadOrdersFromFile (readers : NumeralReaders α) (clock : Nat → Int) (filename : CString)
    (contents : Option CString) (engine : Engine α Nat) (nextAddress : Nat) :
    Int × Engine α Nat :=
  let fileType := determineFileType filename
  match processedLines fileType contents with
  | none => (-1, engine)
  | some (lineNumber, lines) =>
      let loading := loadLines readers clock fileType lineNumber lines
        { engine := engine, nextAddress := nextAddress, ordersLoaded := 0 }
      (loading.ordersLoaded, loading.engine)

end Load

end OrderLoader

end QuantTrading
