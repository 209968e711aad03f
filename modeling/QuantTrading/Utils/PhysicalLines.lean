import QuantTrading.Foundation.TextLines
import QuantTrading.Utils.Tokens

/-! # The lines of an order file and its reads

`load_orders_from_file` treats what one `fgets` reads as a record. A line that does not
fit in the buffer is read in pieces, and each piece is tested for blanks and comments and
handed to `parse_order_line` as if it were a line. The strings handed on are compared with
the lines of the file.
-/

namespace QuantTrading

namespace OrderLoader

open TextLines

/-- The end of a line. -/
def isNewline (c : Char) : Bool :=
  c = '\n'

/-- The most characters that one `fgets` reads. -/
def readSize : Nat := maxLineLength - 1

/-! ## The strings handed to `parse_order_line` -/

/-- The test of the loop: blank, or a comment. -/
def isSkipped (text : CString) : Bool :=
  match trimWhitespace text with
  | [] => true
  | c :: _ => c = '#'

/-- The string that the loop hands to `parse_order_line` after a read. -/
def handed (buffer : CString) : Option CString :=
  if isSkipped (lineText buffer) then none else some (trimmedBuffer (lineText buffer))

/-- The strings that `load_orders_from_file` hands to `parse_order_line`. -/
def handedStrings (fileType : FileType) (contents : CString) : List CString :=
  match processedLines fileType (some contents) with
  | none => []
  | some (_, buffers) => buffers.filterMap handed

theorem lineOrder_eq {α : Type} [LE α] [DecidableLE α] [Zero α] (readers : NumeralReaders α)
    (clock : Nat → Int) (fileType : FileType) (lineNumber : Nat) (buffer : CString) :
    lineOrder readers clock fileType lineNumber buffer =
      (handed buffer).bind (parseOrderLine readers fileType (clock lineNumber)) := by
  unfold lineOrder handed isSkipped
  dsimp only
  cases trimWhitespace (lineText buffer) with
  | nil => rfl
  | cons c rest =>
      by_cases hc : c = '#'
      · simp [hc]
      · simp [hc]

/-- The orders of a file are those of the strings that are handed on. -/
theorem fileOrders_eq {α : Type} [LE α] [DecidableLE α] [Zero α] (readers : NumeralReaders α)
    (clock : Nat → Int) (fileType : FileType) (lineNumber : Nat) (buffers : List CString) :
    fileOrders readers clock fileType lineNumber buffers =
      (buffers.zipIdx lineNumber).filterMap fun entry =>
        (handed entry.1).bind (parseOrderLine readers fileType (clock entry.2)) := by
  induction buffers generalizing lineNumber with
  | nil => rfl
  | cons buffer buffers ih =>
      rw [fileOrders, lineOrder_eq, ih, List.zipIdx_cons, List.filterMap_cons]
      cases (handed buffer).bind (parseOrderLine readers fileType (clock lineNumber)) <;> rfl

/-! ## Reads -/

/-- Everything that `fgets` reads of a file. -/
def reads (file : CString) : List CString :=
  fgetsAll file.length file

/-- A read goes up to the end of the line or of the buffer. -/
theorem readLine_append {line rest : CString} (hline : IsFirstLine isNewline line rest)
    (count : Nat) :
    readLine count (line ++ rest) = (line.take count, line.drop count ++ rest) := by
  induction count generalizing line with
  | zero => rfl
  | succ count ih =>
      cases line with
      | nil =>
          rcases hline.ended with rfl | ⟨c, hc, _⟩
          · rfl
          · cases hc
      | cons c line =>
          rw [List.cons_append, readLine]
          by_cases hc : c = '\n'
          · rw [if_pos hc, hline.eq_nil_of_cons (decide_eq_true hc)]
            cases count <;> rfl
          · rw [if_neg hc, ih (hline.of_cons (decide_eq_false hc))]
            rfl

theorem length_readLine_add (count : Nat) (file : CString) :
    (readLine count file).1.length + (readLine count file).2.length = file.length := by
  induction count generalizing file with
  | zero => simp [readLine]
  | succ count ih =>
      cases file with
      | nil => rfl
      | cons c file =>
          rw [readLine]
          split_ifs
          · simp [Nat.add_comm]
          · have hrest := ih file
            simp only [List.length_cons]
            omega

theorem length_readLine_lt {file : CString} (hne : file ≠ []) :
    (readLine readSize file).2.length < file.length := by
  obtain ⟨c, file, rfl⟩ := List.exists_cons_of_ne_nil hne
  have hlength := length_readLine_add (maxLineLength - 2) file
  change (readLine (maxLineLength - 2 + 1) (c :: file)).2.length < _
  rw [readLine]
  split_ifs
  · simp
  · simp only [List.length_cons]
    omega

/-- There are no more reads than characters. -/
theorem fgetsAll_congr {file : CString} {fuel fuel' : Nat} (hfuel : file.length ≤ fuel)
    (hfuel' : file.length ≤ fuel') : fgetsAll fuel file = fgetsAll fuel' file := by
  induction fuel generalizing file fuel' with
  | zero =>
      obtain rfl := List.length_eq_zero_iff.mp (Nat.le_zero.mp hfuel)
      cases fuel' <;> rfl
  | succ fuel ih =>
      cases file with
      | nil => cases fuel' <;> rfl
      | cons c file =>
          cases fuel' with
          | zero => cases hfuel'
          | succ fuel' =>
              have hshorter := length_readLine_lt (List.cons_ne_nil c file)
              have hleft : (readLine readSize (c :: file)).2.length ≤ fuel := by omega
              have hleft' : (readLine readSize (c :: file)).2.length ≤ fuel' := by omega
              exact congrArg _ (ih hleft hleft')

theorem reads_of_ne_nil {file : CString} (hne : file ≠ []) :
    reads file = (readLine readSize file).1 :: reads (readLine readSize file).2 := by
  have hshorter := length_readLine_lt hne
  obtain ⟨c, file, rfl⟩ := List.exists_cons_of_ne_nil hne
  exact congrArg _ (fgetsAll_congr (Nat.lt_succ_iff.mp hshorter) le_rfl)

theorem readSize_pos : 0 < readSize := by decide

/-- The pieces of the first line are read before the rest of the file. -/
theorem reads_append {line rest : CString} (hline : IsFirstLine isNewline line rest)
    (hne : line ≠ []) : reads (line ++ rest) = pieces readSize line ++ reads rest := by
  have hread := readLine_append hline readSize
  have hlength := List.length_pos_of_ne_nil hne
  have hshorter : (line.drop readSize).length < line.length := by
    rw [List.length_drop]
    exact Nat.sub_lt hlength readSize_pos
  rw [reads_of_ne_nil (List.append_ne_nil_of_left_ne_nil hne rest), hread,
    pieces_of_ne_nil readSize_pos hne, List.cons_append]
  congr 1
  by_cases hdrop : line.drop readSize = []
  · rw [hdrop, pieces_nil]
    rfl
  · exact reads_append (hline.drop hdrop) hdrop
termination_by line.length
decreasing_by exact hshorter

/-- The reads of a file are the pieces of its lines. -/
theorem reads_eq_flatMap (file : CString) :
    reads file = (lines isNewline file).flatMap (pieces readSize) := by
  by_cases hne : file = []
  · rw [hne]
    rfl
  obtain ⟨line, rest, hfile, hlineNe, hline⟩ := exists_isFirstLine isNewline hne
  have hshorter : rest.length < file.length := by
    have hlength := List.length_pos_of_ne_nil hlineNe
    rw [hfile, List.length_append]
    omega
  rw [hfile, reads_append hline hlineNe, lines_append hlineNe hline, List.flatMap_cons,
    reads_eq_flatMap rest]
termination_by file.length
decreasing_by exact hshorter

/-! ## The records of a file -/

/-- The lines that may be records: in a CSV file all but the header. -/
def bodyLines : FileType → CString → List CString
  | .csv, contents => (lines isNewline contents).tail
  | .txt, contents => lines isNewline contents
  | .unknown, _ => []

/-- The lines that are records: neither blank nor comments. -/
def recordLines (fileType : FileType) (contents : CString) : List CString :=
  (bodyLines fileType contents).filter fun line => !isSkipped line

/-- What the first read leaves of the header of a CSV file. -/
def headerRest : FileType → CString → List CString
  | .csv, contents => ((lines isNewline contents).head?.toList.flatMap (pieces readSize)).tail
  | _, _ => []

/-- The strings handed on correspond to the records one to one and in order. -/
def LineByLine (fileType : FileType) (contents : CString) : Prop :=
  List.Forall₂ (fun string line => trimWhitespace string = trimWhitespace line)
    (handedStrings fileType contents) (recordLines fileType contents)

/-- The strings that the pieces of a line lead to. -/
def lineStrings (line : CString) : List CString :=
  (pieces readSize line).filterMap handed

theorem filterMap_reads (file : CString) :
    (reads file).filterMap handed = (lines isNewline file).flatMap lineStrings := by
  rw [reads_eq_flatMap, List.filterMap_flatMap]
  rfl

/-- The strings of a file, line by line. -/
theorem handedStrings_eq (fileType : FileType) (contents : CString) :
    handedStrings fileType contents = (headerRest fileType contents).filterMap handed ++
      (bodyLines fileType contents).flatMap lineStrings := by
  cases fileType with
  | csv =>
      cases contents with
      | nil => rfl
      | cons c file =>
          have htail : handedStrings .csv (c :: file) =
              (reads (c :: file)).tail.filterMap handed := by
            rw [reads_of_ne_nil (List.cons_ne_nil c file)]
            rfl
          obtain ⟨line, rest, hfile, hlineNe, hline⟩ :=
            exists_isFirstLine isNewline (List.cons_ne_nil c file)
          have hpieces : pieces readSize line ≠ [] := by
            rw [pieces_of_ne_nil readSize_pos hlineNe]
            exact List.cons_ne_nil _ _
          rw [htail, hfile, reads_append hline hlineNe, List.tail_append_of_ne_nil hpieces,
            List.filterMap_append, filterMap_reads, bodyLines, headerRest,
            lines_append hlineNe hline]
          simp
  | txt => exact filterMap_reads contents
  | unknown => rfl

/-! ## What is skipped -/

theorem isSkipped_congr {first second : CString}
    (htrim : trimWhitespace first = trimWhitespace second) :
    isSkipped first = isSkipped second := by
  rw [isSkipped, isSkipped, htrim]

theorem isSkipped_of_blank {text : CString} (hblank : Blank text) : isSkipped text = true := by
  rw [isSkipped, trimWhitespace_eq_nil_iff.mpr hblank]

/-- The first character that is not blank decides. -/
theorem isSkipped_append_cons {blank : CString} (hblank : Blank blank) {c : Char}
    (hc : isSpace c = false) (rest : CString) :
    isSkipped (blank ++ c :: rest) = decide (c = '#') := by
  have hdrop : (c :: rest).dropWhile isSpace = c :: rest :=
    List.dropWhile_cons_of_neg (by simp [hc])
  rw [isSkipped, trimWhitespace_of_blank_append hblank, trimWhitespace, hdrop]
  have hstart := List.rdropWhile_prefix isSpace (l := c :: rest)
  cases htrim : (c :: rest).rdropWhile isSpace with
  | nil =>
      have hspace := List.rdropWhile_eq_nil_iff.mp htrim c List.mem_cons_self
      rw [hc] at hspace
      cases hspace
  | cons d others =>
      rw [htrim] at hstart
      rw [(List.cons_prefix_cons.mp hstart).1]

theorem exists_append_cons_of_not_blank {text : CString} (hblank : ¬ Blank text) :
    ∃ before c rest, text = before ++ c :: rest ∧ Blank before ∧ isSpace c = false := by
  induction text with
  | nil => exact absurd Blank.nil hblank
  | cons c text ih =>
      cases hc : isSpace c with
      | false => exact ⟨[], c, text, rfl, Blank.nil, hc⟩
      | true =>
          have hrest : ¬ Blank text := fun hrest =>
            hblank (List.forall_mem_cons.mpr ⟨hc, hrest⟩)
          obtain ⟨before, d, rest, rfl, hbefore, hd⟩ := ih hrest
          exact ⟨c :: before, d, rest, rfl, List.forall_mem_cons.mpr ⟨hc, hbefore⟩, hd⟩

/-- What follows a text that is not blank does not matter. -/
theorem isSkipped_append {text : CString} (hblank : ¬ Blank text) (more : CString) :
    isSkipped (text ++ more) = isSkipped text := by
  obtain ⟨before, c, rest, rfl, hbefore, hc⟩ := exists_append_cons_of_not_blank hblank
  rw [List.append_assoc, List.cons_append, isSkipped_append_cons hbefore hc,
    isSkipped_append_cons hbefore hc]

/-! ## The strings of a line -/

/-- What a piece is as a C string. -/
def beforeNul (piece : CString) : CString :=
  piece.takeWhile (· ≠ '\x00')

theorem beforeNul_of_notMem {piece : CString} (hpiece : '\x00' ∉ piece) :
    beforeNul piece = piece := by
  rw [beforeNul, List.takeWhile_eq_self_iff]
  intro c hc
  exact decide_eq_true (ne_of_mem_of_not_mem hc hpiece)

/-- The newline that is cut off is one of the trailing blanks. -/
theorem trimWhitespace_lineText {piece : CString}
    (hplain : ∀ c ∈ piece.dropLast, isNewline c = false) :
    trimWhitespace (lineText piece) = trimWhitespace (beforeNul piece) := by
  obtain ⟨more, hmore⟩ := List.takeWhile_prefix (· ≠ '\x00') (l := piece)
  have hcut := List.takeWhile_append_dropWhile (p := (· ≠ '\n')) (l := beforeNul piece)
  have hblank : Blank ((beforeNul piece).dropWhile (· ≠ '\n')) := by
    cases hdrop : (beforeNul piece).dropWhile (· ≠ '\n') with
    | nil => exact Blank.nil
    | cons c rest =>
        have hc : c = '\n' := by
          have hhead := List.head?_dropWhile_not (· ≠ '\n') (beforeNul piece)
          rw [hdrop] at hhead
          simpa using hhead
        -- nothing follows the newline
        have hpiece : piece =
            (beforeNul piece).takeWhile (· ≠ '\n') ++ c :: (rest ++ more) := by
          rw [← List.cons_append, ← hdrop, ← List.append_assoc, hcut]
          exact hmore.symm
        rw [hpiece] at hplain
        have hrest := eq_nil_of_plain hplain (decide_eq_true hc)
        rw [hc, (List.append_eq_nil_iff.mp hrest).1]
        decide
  rw [lineText, ← trimWhitespace_append_blank _ hblank]
  exact congrArg trimWhitespace hcut

theorem handed_eq_none_iff {piece : CString}
    (hplain : ∀ c ∈ piece.dropLast, isNewline c = false) :
    handed piece = none ↔ isSkipped (beforeNul piece) = true := by
  rw [handed, isSkipped_congr (trimWhitespace_lineText hplain)]
  split_ifs with hskipped <;> simp [hskipped]

theorem trimWhitespace_of_handed {piece string : CString}
    (hplain : ∀ c ∈ piece.dropLast, isNewline c = false) (hhanded : handed piece = some string) :
    trimWhitespace string = trimWhitespace (beforeNul piece) := by
  rw [handed] at hhanded
  split_ifs at hhanded
  obtain rfl := Option.some.inj hhanded
  rw [trimWhitespace_trimmedBuffer, trimWhitespace_lineText hplain]

theorem nul_notMem_beforeNul (piece : CString) : '\x00' ∉ beforeNul piece := by
  intro hmem
  have hkept := List.mem_takeWhile_imp hmem
  simp at hkept

/-- The number of characters that are not blank. -/
def inkCount (text : CString) : Nat :=
  text.countP fun c => !isSpace c

theorem inkCount_eq_zero_iff {text : CString} : inkCount text = 0 ↔ Blank text := by
  rw [inkCount, List.countP_eq_zero]
  simp [Blank]

theorem inkCount_append (first second : CString) :
    inkCount (first ++ second) = inkCount first + inkCount second :=
  List.countP_append

theorem inkCount_trimWhitespace (text : CString) :
    inkCount (trimWhitespace text) = inkCount text := by
  obtain ⟨before, after, hbefore, hafter, htext⟩ := exists_eq_trimWhitespace text
  have hcount := congrArg inkCount htext
  rw [inkCount_append, inkCount_append, inkCount_eq_zero_iff.mpr hbefore,
    inkCount_eq_zero_iff.mpr hafter] at hcount
  omega

/-- Only blanks stand around a part that has the text of the whole. -/
theorem blank_of_trimWhitespace_eq {before text after : CString}
    (htrim : trimWhitespace text = trimWhitespace (before ++ (text ++ after))) :
    Blank before ∧ Blank after := by
  have hcount : inkCount text = inkCount (before ++ (text ++ after)) := by
    rw [← inkCount_trimWhitespace, htrim, inkCount_trimWhitespace]
  rw [inkCount_append, inkCount_append] at hcount
  constructor
  · exact inkCount_eq_zero_iff.mp (by omega)
  · exact inkCount_eq_zero_iff.mp (by omega)

/-- A character that is not blank stays. -/
theorem mem_trimWhitespace {text : CString} {c : Char} (hc : isSpace c = false) (hmem : c ∈ text) :
    c ∈ trimWhitespace text := by
  obtain ⟨before, after, hbefore, hafter, htext⟩ := exists_eq_trimWhitespace text
  rw [htext, List.mem_append, List.mem_append] at hmem
  rcases hmem with hmem | hmem | hmem
  · exact absurd ((hbefore c hmem).symm.trans hc) (by decide)
  · exact hmem
  · exact absurd ((hafter c hmem).symm.trans hc) (by decide)

/-- Some character is not blank. -/
def hasInk (text : CString) : Bool :=
  text.any fun c => !isSpace c

theorem hasInk_eq_false_iff {text : CString} : hasInk text = false ↔ Blank text := by
  simp [hasInk, Blank]

/-- The number of pieces of a line that are not blank. -/
def inkPieces (line : CString) : Nat :=
  (pieces readSize line).countP hasInk

theorem blank_flatten {texts : List CString} :
    Blank texts.flatten ↔ ∀ text ∈ texts, Blank text := by
  simp only [Blank, List.mem_flatten]
  constructor
  · intro hall text htext c hc
    exact hall c ⟨text, htext, hc⟩
  · rintro hall c ⟨text, htext, hc⟩
    exact hall text htext c hc

theorem countP_hasInk_eq_zero_iff {texts : List CString} :
    texts.countP hasInk = 0 ↔ Blank texts.flatten := by
  rw [blank_flatten, List.countP_eq_zero]
  apply forall₂_congr
  intro text _
  rw [Bool.not_eq_true, hasInk_eq_false_iff]

/-- The first piece that is not blank. -/
theorem exists_first_ink {texts : List CString} (hblank : ¬ Blank texts.flatten) :
    ∃ front piece back, texts = front ++ piece :: back ∧ Blank front.flatten ∧
      ¬ Blank piece := by
  induction texts with
  | nil => exact absurd Blank.nil hblank
  | cons text texts ih =>
      by_cases htext : Blank text
      · rw [List.flatten_cons, blank_append] at hblank
        obtain ⟨front, piece, back, rfl, hfront, hpiece⟩ :=
          ih fun hrest => hblank ⟨htext, hrest⟩
        refine ⟨text :: front, piece, back, rfl, ?_, hpiece⟩
        rw [List.flatten_cons, blank_append]
        exact ⟨htext, hfront⟩
      · exact ⟨[], text, texts, rfl, Blank.nil, htext⟩

section Line

variable {line : CString} (hplain : ∀ c ∈ line.dropLast, isNewline c = false)

include hplain

/-- A line leads to no string when all of its pieces are skipped. -/
theorem lineStrings_eq_nil_iff :
    lineStrings line = [] ↔ ∀ piece ∈ pieces readSize line, isSkipped (beforeNul piece) = true := by
  rw [lineStrings, List.filterMap_eq_nil_iff]
  apply forall₂_congr
  intro piece hpiece
  exact handed_eq_none_iff (plain_of_mem_pieces readSize_pos hplain hpiece)

/-- A record without a NUL leads to a string at its first piece that is not blank. -/
theorem exists_handed (hrecord : isSkipped line = false) (hnul : '\x00' ∉ line) :
    ∃ front piece back string, pieces readSize line = front ++ piece :: back ∧
      Blank front.flatten ∧ ¬ Blank piece ∧
      line = front.flatten ++ (piece ++ back.flatten) ∧ handed piece = some string ∧
      trimWhitespace string = trimWhitespace piece := by
  have hflatten := flatten_pieces readSize_pos line
  have hblank : ¬ Blank (pieces readSize line).flatten := by
    intro hblank
    rw [hflatten] at hblank
    rw [isSkipped_of_blank hblank] at hrecord
    cases hrecord
  obtain ⟨front, piece, back, hsplit, hfront, hpiece⟩ := exists_first_ink hblank
  have hline : line = front.flatten ++ (piece ++ back.flatten) := by
    rw [← hflatten, hsplit, List.flatten_append, List.flatten_cons]
  have hmem : piece ∈ pieces readSize line := by
    rw [hsplit]
    simp
  have hpiecePlain := plain_of_mem_pieces readSize_pos hplain hmem
  have hpieceNul : '\x00' ∉ piece := by
    intro hmem
    apply hnul
    rw [hline]
    simp [hmem]
  -- the line and the piece start with the same character
  have hsame : isSkipped piece = isSkipped line := by
    rw [hline, isSkipped_congr (trimWhitespace_of_blank_append hfront _),
      isSkipped_append hpiece]
  cases hhanded : handed piece with
  | none =>
      have hskipped := (handed_eq_none_iff hpiecePlain).mp hhanded
      rw [beforeNul_of_notMem hpieceNul, hsame, hrecord] at hskipped
      cases hskipped
  | some string =>
      have htrim := trimWhitespace_of_handed hpiecePlain hhanded
      rw [beforeNul_of_notMem hpieceNul] at htrim
      exact ⟨front, piece, back, string, hsplit, hfront, hpiece, hline, hhanded, htrim⟩

theorem lineStrings_ne_nil (hrecord : isSkipped line = false) (hnul : '\x00' ∉ line) :
    lineStrings line ≠ [] := by
  obtain ⟨front, piece, back, string, hsplit, -, -, -, hhanded, -⟩ :=
    exists_handed hplain hrecord hnul
  apply List.ne_nil_of_mem (a := string)
  rw [lineStrings, hsplit]
  exact List.mem_filterMap.mpr ⟨piece, by simp, hhanded⟩

/-- Blank pieces lead to no string. -/
theorem filterMap_handed_of_blank {texts : List CString} (hblank : Blank texts.flatten)
    (htexts : texts ⊆ pieces readSize line) : texts.filterMap handed = [] := by
  rw [List.filterMap_eq_nil_iff]
  intro text htext
  have hnone := blank_flatten.mp hblank text htext
  rw [handed_eq_none_iff (plain_of_mem_pieces readSize_pos hplain (htexts htext)),
    beforeNul_of_notMem hnone.nul_notMem]
  exact isSkipped_of_blank hnone

/-- Where one string stands for a record, the record has no NUL and one piece has its text. -/
theorem inkPieces_le_one {string : CString} (hstring : string ∈ lineStrings line)
    (htrim : trimWhitespace string = trimWhitespace line) :
    '\x00' ∉ line ∧ inkPieces line ≤ 1 := by
  obtain ⟨piece, hpiece, hhanded⟩ := List.mem_filterMap.mp hstring
  rw [trimWhitespace_of_handed (plain_of_mem_pieces readSize_pos hplain hpiece) hhanded] at htrim
  have hnul : '\x00' ∉ line := by
    intro hnul
    have hkept := mem_trimWhitespace (by decide) hnul
    rw [← htrim] at hkept
    exact nul_notMem_beforeNul piece (trimWhitespace_mem hkept)
  obtain ⟨front, back, hsplit, hline⟩ := exists_split_pieces readSize_pos hpiece
  have hpieceNul : '\x00' ∉ piece := by
    intro hmem
    apply hnul
    rw [hline]
    simp [hmem]
  rw [beforeNul_of_notMem hpieceNul, hline] at htrim
  obtain ⟨hfront, hback⟩ := blank_of_trimWhitespace_eq htrim
  refine ⟨hnul, ?_⟩
  rw [inkPieces, hsplit, List.countP_append, List.countP_cons,
    countP_hasInk_eq_zero_iff.mpr hfront, countP_hasInk_eq_zero_iff.mpr hback]
  split_ifs <;> simp

/-- A record without a NUL that has its text in one piece leads to one string. -/
theorem exists_lineStrings_eq (hrecord : isSkipped line = false) (hnul : '\x00' ∉ line)
    (hink : inkPieces line ≤ 1) :
    ∃ string, lineStrings line = [string] ∧ trimWhitespace string = trimWhitespace line := by
  obtain ⟨front, piece, back, string, hsplit, hfront, hpiece, hline, hhanded, htrim⟩ :=
    exists_handed hplain hrecord hnul
  have hback : Blank back.flatten := by
    have hpieceInk : hasInk piece = true := by
      rw [← Bool.not_eq_false, hasInk_eq_false_iff]
      exact hpiece
    rw [inkPieces, hsplit, List.countP_append, List.countP_cons_of_pos hpieceInk] at hink
    exact countP_hasInk_eq_zero_iff.mp (by omega)
  refine ⟨string, ?_, ?_⟩
  · rw [lineStrings, hsplit, List.filterMap_append, List.filterMap_cons, hhanded,
      filterMap_handed_of_blank hplain hfront fun text htext => by simp [hsplit, htext],
      filterMap_handed_of_blank hplain hback fun text htext => by simp [hsplit, htext]]
    rfl
  · rw [htrim, hline, trimWhitespace_of_blank_append hfront, trimWhitespace_append_blank _ hback]

/-- A record leads to one string, which stands for all of it, when it has no NUL and all
but one of its pieces are blank. -/
theorem forall₂_lineStrings_iff (hrecord : isSkipped line = false) :
    List.Forall₂ (fun string line => trimWhitespace string = trimWhitespace line)
        (lineStrings line) [line] ↔ '\x00' ∉ line ∧ inkPieces line ≤ 1 := by
  constructor
  · intro hforall
    obtain ⟨string, hstring, htrim⟩ := exists_mem_of_forall₂ hforall (List.mem_singleton_self line)
    exact inkPieces_le_one hplain hstring htrim
  · rintro ⟨hnul, hink⟩
    obtain ⟨string, hstrings, htrim⟩ := exists_lineStrings_eq hplain hrecord hnul hink
    rw [hstrings, List.forall₂_cons]
    exact ⟨htrim, .nil⟩

end Line

/-! ## When reads are lines -/

/-- The lines of a file that are read as they stand. No NUL hides a record or a part of
one, and a line of more than `readSize` characters has the text of a record in one of its
pieces, and nothing but blanks and comments in any piece if it is none. -/
structure KeepsLines (fileType : FileType) (contents : CString) : Prop where
  header : ∀ piece ∈ headerRest fileType contents, isSkipped (beforeNul piece) = true
  records : ∀ line ∈ recordLines fileType contents, '\x00' ∉ line ∧ inkPieces line ≤ 1
  skipped : ∀ line ∈ bodyLines fileType contents, isSkipped line = true →
    ∀ piece ∈ pieces readSize line, isSkipped (beforeNul piece) = true

theorem mem_lines_of_mem_bodyLines {fileType : FileType} {contents line : CString}
    (hline : line ∈ bodyLines fileType contents) : line ∈ lines isNewline contents := by
  cases fileType with
  | csv => exact List.mem_of_mem_tail hline
  | txt => exact hline
  | unknown => cases hline

/-- The rest of the header is made of the later pieces of a line. -/
theorem exists_line_of_mem_headerRest {fileType : FileType} {contents piece : CString}
    (hpiece : piece ∈ headerRest fileType contents) :
    ∃ line ∈ lines isNewline contents, piece ∈ (pieces readSize line).tail := by
  cases fileType with
  | csv =>
      rw [headerRest] at hpiece
      cases hhead : (lines isNewline contents).head? with
      | none =>
          rw [hhead] at hpiece
          cases hpiece
      | some line =>
          rw [hhead, Option.toList_some, List.flatMap_singleton] at hpiece
          exact ⟨line, List.mem_of_mem_head? hhead, hpiece⟩
  | txt => cases hpiece
  | unknown => cases hpiece

theorem plain_of_mem_bodyLines {fileType : FileType} {contents line : CString}
    (hline : line ∈ bodyLines fileType contents) : ∀ c ∈ line.dropLast, isNewline c = false :=
  (plain_of_mem_lines (mem_lines_of_mem_bodyLines hline)).2

/-- A NUL is never handed on. -/
theorem nul_notMem_of_mem_handedStrings {fileType : FileType} {contents string : CString}
    (hstring : string ∈ handedStrings fileType contents) : '\x00' ∉ trimWhitespace string := by
  obtain ⟨buffer, hhanded⟩ : ∃ buffer, handed buffer = some string := by
    unfold handedStrings at hstring
    split at hstring
    · cases hstring
    · obtain ⟨buffer, -, hhanded⟩ := List.mem_filterMap.mp hstring
      exact ⟨buffer, hhanded⟩
  rw [handed] at hhanded
  split_ifs at hhanded
  obtain rfl := Option.some.inj hhanded
  rw [trimWhitespace_trimmedBuffer]
  intro hmem
  apply nul_notMem_beforeNul buffer
  exact (List.takeWhile_subset _) (trimWhitespace_mem hmem)

/-- Every line that corresponds to a string has none. -/
theorem nul_notMem_of_lineByLine {fileType : FileType} {contents line : CString}
    (hlines : LineByLine fileType contents) (hline : line ∈ recordLines fileType contents) :
    '\x00' ∉ line := by
  obtain ⟨string, hstring, htrim⟩ := exists_mem_of_forall₂ hlines hline
  intro hmem
  have hkept := mem_trimWhitespace (by decide) hmem
  rw [← htrim] at hkept
  exact nul_notMem_of_mem_handedStrings hstring hkept

/-- The strings of the file correspond to its records when those of each line do. -/
theorem lineByLine_iff_forall {fileType : FileType} {contents : CString}
    (hnul : ∀ line ∈ recordLines fileType contents, '\x00' ∉ line) :
    LineByLine fileType contents ↔ (headerRest fileType contents).filterMap handed = [] ∧
      ∀ line ∈ bodyLines fileType contents,
        List.Forall₂ (fun string line => trimWhitespace string = trimWhitespace line)
          (lineStrings line) (if !isSkipped line then [line] else []) := by
  have hmin : ∀ line ∈ bodyLines fileType contents, (!isSkipped line) = true →
      lineStrings line ≠ [] := by
    intro line hline hrecord
    exact lineStrings_ne_nil (plain_of_mem_bodyLines hline) (by simpa using hrecord)
      (hnul line (List.mem_filter.mpr ⟨hline, hrecord⟩))
  rw [← forall₂_flatMap_filter_iff hmin, LineByLine, handedStrings_eq, recordLines]
  constructor
  · intro hall
    have hlength := hall.length_eq
    have hcount := length_filter_le_length_flatMap hmin
    rw [List.length_append] at hlength
    have hnil : (headerRest fileType contents).filterMap handed = [] :=
      List.length_eq_zero_iff.mp (by omega)
    rw [hnil] at hall
    exact ⟨hnil, hall⟩
  · rintro ⟨hnil, hall⟩
    rwa [hnil]

theorem plain_of_mem_headerRest {fileType : FileType} {contents piece : CString}
    (hpiece : piece ∈ headerRest fileType contents) :
    ∀ c ∈ piece.dropLast, isNewline c = false := by
  obtain ⟨line, hline, hmem⟩ := exists_line_of_mem_headerRest hpiece
  exact plain_of_mem_pieces readSize_pos (plain_of_mem_lines hline).2 (List.mem_of_mem_tail hmem)

/-- The loader treats each line as one record in exactly the files whose lines are read as
they stand. -/
theorem lineByLine_iff_keepsLines (fileType : FileType) (contents : CString) :
    LineByLine fileType contents ↔ KeepsLines fileType contents := by
  have hheader : (headerRest fileType contents).filterMap handed = [] ↔
      ∀ piece ∈ headerRest fileType contents, isSkipped (beforeNul piece) = true := by
    rw [List.filterMap_eq_nil_iff]
    apply forall₂_congr
    intro piece hpiece
    exact handed_eq_none_iff (plain_of_mem_headerRest hpiece)
  constructor
  · intro hlines
    have hnul : ∀ line ∈ recordLines fileType contents, '\x00' ∉ line := fun line hline =>
      nul_notMem_of_lineByLine hlines hline
    obtain ⟨hnil, hall⟩ := (lineByLine_iff_forall hnul).mp hlines
    refine ⟨hheader.mp hnil, ?_, ?_⟩
    · intro line hline
      obtain ⟨hbody, hrecord⟩ := List.mem_filter.mp hline
      have hforall := hall line hbody
      rw [if_pos hrecord] at hforall
      exact (forall₂_lineStrings_iff (plain_of_mem_bodyLines hbody)
        (by simpa using hrecord)).mp hforall
    · intro line hbody hskipped
      have hforall := hall line hbody
      rw [hskipped] at hforall
      exact (lineStrings_eq_nil_iff (plain_of_mem_bodyLines hbody)).mp
        (List.forall₂_nil_right_iff.mp hforall)
  · rintro ⟨hpieces, hrecords, hskippedLines⟩
    rw [lineByLine_iff_forall fun line hline => (hrecords line hline).1]
    refine ⟨hheader.mpr hpieces, ?_⟩
    intro line hbody
    have hplain := plain_of_mem_bodyLines hbody
    cases hskipped : isSkipped line with
    | true =>
        rw [(lineStrings_eq_nil_iff hplain).mpr (hskippedLines line hbody hskipped)]
        exact .nil
    | false =>
        have hrecord : line ∈ recordLines fileType contents :=
          List.mem_filter.mpr ⟨hbody, by rw [hskipped]; rfl⟩
        exact (forall₂_lineStrings_iff hplain hskipped).mpr (hrecords line hrecord)

/-- Where the lines fit in the buffer and have no NUL, each is one record. -/
theorem lineByLine_of_short {fileType : FileType} {contents : CString}
    (hshort : ∀ line ∈ lines isNewline contents,
      line.length < maxLineLength ∧ '\x00' ∉ line) : LineByLine fileType contents := by
  have hone : ∀ line ∈ lines isNewline contents, pieces readSize line = [line] := by
    intro line hline
    exact pieces_of_length_le (plain_of_mem_lines hline).1 (Nat.le_pred_of_lt (hshort line hline).1)
  apply (lineByLine_iff_keepsLines fileType contents).mpr
  refine ⟨?_, ?_, ?_⟩
  · intro piece hpiece
    obtain ⟨line, hline, hmem⟩ := exists_line_of_mem_headerRest hpiece
    rw [hone line hline] at hmem
    cases hmem
  · intro line hline
    have hmem := mem_lines_of_mem_bodyLines (List.mem_filter.mp hline).1
    refine ⟨(hshort line hmem).2, ?_⟩
    rw [inkPieces, hone line hmem]
    exact List.countP_le_length
  · intro line hline hskipped piece hpiece
    have hmem := mem_lines_of_mem_bodyLines hline
    rw [hone line hmem, List.mem_singleton] at hpiece
    rw [hpiece, beforeNul_of_notMem (hshort line hmem).2]
    exact hskipped

/-- The end of a comment of 1023 characters and more is taken for an order. -/
theorem long_comment_is_an_order :
    ¬ LineByLine .txt ('#' :: List.replicate 1022 ' ' ++ "A T AAPL BUY 10 5\n".toList) := by
  intro hlines
  have hlength := hlines.length_eq
  revert hlength
  decide +kernel

end OrderLoader

end QuantTrading
