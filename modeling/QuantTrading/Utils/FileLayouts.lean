import QuantTrading.Utils.OrderLines
import QuantTrading.Utils.PhysicalLines

/-! # The layouts of an order file

The same records can be written in a CSV and in a TXT file, with blanks around the fields,
blank lines, comments and either line end. However they are laid out, both files lead to
the same calls of `order_create`.
-/

namespace QuantTrading

namespace OrderLoader

open TextLines

/-! ## Layouts -/

/-- The blanks of a layout. -/
def isPadding (c : Char) : Bool :=
  c = ' ' || c = '\t'

def Padding (text : CString) : Prop :=
  ∀ c ∈ text, isPadding c = true

instance (text : CString) : Decidable (Padding text) :=
  decidable_of_iff (text.all isPadding = true) List.all_eq_true

/-- A field that either kind of file can hold. -/
structure IsField (field : CString) : Prop where
  ne_nil : field ≠ []
  plain : ∀ c ∈ field, isSpace c = false ∧ c ≠ ',' ∧ c ≠ '\x00'

/-- A record that either kind of file can hold, and that is no comment. -/
structure FileRecord extends LineRecord where
  isField : ∀ field ∈ toLineRecord.fields, IsField field
  noComment : ∀ c ∈ orderId.head?, c ≠ '#'

/-- What may stand between two fields. -/
def IsSeparator : FileType → CString → Prop
  | .csv, separator => ∃ before after, Padding before ∧ Padding after ∧
      separator = before ++ ',' :: after
  | _, separator => separator ≠ [] ∧ Padding separator

/-- Fields with separators between them. -/
inductive Joined (fileType : FileType) : List CString → CString → Prop
  | last (field : CString) : Joined fileType [field] field
  | cons (field : CString) {separator rest : CString} {fields : List CString}
      (hseparator : IsSeparator fileType separator) (hrest : Joined fileType fields rest) :
      Joined fileType (field :: fields) (field ++ (separator ++ rest))

/-- The text of a line: a record, blanks or a comment. -/
inductive LineLayout (fileType : FileType) : Option FileRecord → CString → Prop
  | record (record : FileRecord) {before core after : CString} (hbefore : Padding before)
      (hcore : Joined fileType record.fields core) (hafter : Padding after) :
      LineLayout fileType (some record) (before ++ (core ++ after))
  | blank {text : CString} (htext : Padding text) : LineLayout fileType none text
  | comment {before rest : CString} (hbefore : Padding before) (hrest : '\n' ∉ rest) :
      LineLayout fileType none (before ++ '#' :: rest)

/-- What may stand at the end of a line. Only the last line needs no end. -/
def IsEnding (ending rest : CString) : Prop :=
  ending = ['\n'] ∨ ending = ['\r', '\n'] ∨ ending = [] ∧ rest = []

/-- The lines of some records, each short enough for the buffer. -/
inductive Renders (fileType : FileType) : List FileRecord → CString → Prop
  | nil : Renders fileType [] []
  | line {entry : Option FileRecord} {text ending rest : CString} {records : List FileRecord}
      (htext : LineLayout fileType entry text) (hlength : text.length < maxLineLength)
      (hending : IsEnding ending rest) (hrest : Renders fileType records rest) :
      Renders fileType (entry.toList ++ records) (text ++ (ending ++ rest))

/-- A file of some records. A CSV file starts with a header, whatever it is. -/
def RendersFile : FileType → List FileRecord → CString → Prop
  | .csv, records, contents => ∃ header ending body, '\n' ∉ header ∧
      header.length < maxLineLength ∧ IsEnding ending body ∧ Renders .csv records body ∧
      contents = header ++ (ending ++ body)
  | fileType, records, contents => Renders fileType records contents

/-- The calls of `order_create` for the strings that are handed on, `none` where a string
is refused before the call. -/
def createCalls {α : Type} [LE α] [DecidableLE α] [Zero α] (readers : NumeralReaders α)
    (fileType : FileType) (contents : CString) : List (Option (CreateArguments α)) :=
  (handedStrings fileType contents).map (createArguments readers fileType)

/-! ## The words of a record -/

theorem Padding.eq_or_eq {text : CString} (htext : Padding text) {c : Char} (hc : c ∈ text) :
    c = ' ' ∨ c = '\t' := by
  simpa [isPadding] using htext c hc

theorem Padding.blank {text : CString} (htext : Padding text) : Blank text := by
  intro c hc
  rcases htext.eq_or_eq hc with rfl | rfl <;> rfl

theorem IsField.trim_padded {field before after : CString} (hfield : IsField field)
    (hbefore : Padding before) (hafter : Padding after) :
    trimWhitespace (before ++ (field ++ after)) = field := by
  rw [trimWhitespace_of_blank_append hbefore.blank, trimWhitespace_append_blank _ hafter.blank,
    trimWhitespace_of_plain fun c hc => (hfield.plain c hc).1]

theorem Padding.notComma {text : CString} (htext : Padding text) :
    ∀ c ∈ text, isDelimiter .csv c = false := by
  intro c hc
  rcases htext.eq_or_eq hc with rfl | rfl <;> rfl

theorem Padding.delimiter {text : CString} (htext : Padding text) :
    ∀ c ∈ text, isDelimiter .txt c = true :=
  htext

theorem IsField.notDelimiter {field : CString} (hfield : IsField field) (fileType : FileType) :
    ∀ c ∈ field, isDelimiter fileType c = false := by
  intro c hc
  obtain ⟨hspace, hcomma, -⟩ := hfield.plain c hc
  have hblank : c ≠ ' ' ∧ c ≠ '\t' := by
    constructor
    · rintro rfl
      cases hspace
    · rintro rfl
      cases hspace
  cases fileType <;> simp [isDelimiter, hcomma, hblank]

/-- The parts between the commas are the padded fields. -/
theorem map_trim_words_csv {fields : List CString} {core : CString}
    (hcore : Joined .csv fields core) (hfields : ∀ field ∈ fields, IsField field)
    {before : CString} (hbefore : Padding before) :
    (Words.words (isDelimiter .csv) (before ++ core)).map trimWhitespace = fields := by
  induction hcore generalizing before with
  | last field =>
      have hfield := hfields field List.mem_cons_self
      have hplain : ∀ c ∈ before ++ field, isDelimiter .csv c = false :=
        List.forall_mem_append.mpr ⟨hbefore.notComma, hfield.notDelimiter .csv⟩
      have hnothing : Padding [] := by simp [Padding]
      have htrim := hfield.trim_padded hbefore hnothing
      rw [List.append_nil] at htrim
      rw [Words.words_of_plain (List.append_ne_nil_of_right_ne_nil before hfield.ne_nil) hplain,
        List.map_singleton, htrim]
  | @cons field separator rest fields hseparator hrest ih =>
      obtain ⟨hfield, hothers⟩ := List.forall_mem_cons.mp hfields
      obtain ⟨left, right, hleft, hright, rfl⟩ := hseparator
      have hplain : ∀ c ∈ before ++ (field ++ left), isDelimiter .csv c = false := by
        simp only [List.forall_mem_append]
        exact ⟨hbefore.notComma, hfield.notDelimiter .csv, hleft.notComma⟩
      have hne : before ++ (field ++ left) ≠ [] := by simp [hfield.ne_nil]
      have htext : before ++ (field ++ (left ++ ',' :: right ++ rest)) =
          before ++ (field ++ left) ++ ',' :: (right ++ rest) := by simp
      rw [htext, Words.words_append_cons hne hplain rfl, List.map_cons,
        hfield.trim_padded hbefore hleft, ih hothers hright]

/-- The words of a line are the fields. -/
theorem words_txt {fields : List CString} {core : CString} (hcore : Joined .txt fields core)
    (hfields : ∀ field ∈ fields, IsField field) {before : CString} (hbefore : Padding before) :
    Words.words (isDelimiter .txt) (before ++ core) = fields := by
  rw [Words.words_delimiters_append hbefore.delimiter]
  induction hcore with
  | last field =>
      have hfield := hfields field List.mem_cons_self
      exact Words.words_of_plain hfield.ne_nil (hfield.notDelimiter .txt)
  | @cons field separator rest fields hseparator hrest ih =>
      obtain ⟨hfield, hothers⟩ := List.forall_mem_cons.mp hfields
      obtain ⟨hne, hpadding⟩ := hseparator
      obtain ⟨c, gap, rfl⟩ := List.exists_cons_of_ne_nil hne
      obtain ⟨hc, hgap⟩ := List.forall_mem_cons.mp hpadding
      rw [List.cons_append, Words.words_append_cons hfield.ne_nil (hfield.notDelimiter .txt) hc,
        Words.words_delimiters_append (Padding.delimiter hgap), ih hothers]

/-- The tokens of a record are its fields. -/
theorem createArguments_of_joined {α : Type} [LE α] [DecidableLE α] [Zero α]
    (readers : NumeralReaders α) {fileType : FileType} (hloaded : fileType ≠ .unknown)
    (record : FileRecord) {before core : CString} (hbefore : Padding before)
    (hcore : Joined fileType record.fields core) :
    createArguments readers fileType (before ++ core) = record.arguments readers := by
  have hwords : (Words.words (isDelimiter fileType) (before ++ core)).map trimWhitespace =
      record.fields := by
    cases fileType with
    | csv => exact map_trim_words_csv hcore record.isField hbefore
    | txt =>
        rw [words_txt hcore record.isField hbefore]
        have htrim : ∀ field ∈ record.fields, trimWhitespace field = id field :=
          fun field hfield => trimWhitespace_of_plain fun c hc =>
            ((record.isField field hfield).plain c hc).1
        rw [List.map_congr_left htrim, List.map_id]
    | unknown => exact absurd rfl hloaded
  rw [createArguments, tokenRecord, hwords]
  rfl

/-! ## The string of a line -/

/-- Characters that do not end a line or a string. -/
def Inside (text : CString) : Prop :=
  ∀ c ∈ text, c ≠ '\x00' ∧ c ≠ '\n'

theorem inside_append {first second : CString} :
    Inside (first ++ second) ↔ Inside first ∧ Inside second :=
  List.forall_mem_append

theorem Padding.inside {text : CString} (htext : Padding text) : Inside text := by
  intro c hc
  rcases htext.eq_or_eq hc with rfl | rfl <;> decide

theorem IsField.inside {field : CString} (hfield : IsField field) : Inside field := by
  intro c hc
  obtain ⟨hspace, -, hnul⟩ := hfield.plain c hc
  refine ⟨hnul, ?_⟩
  rintro rfl
  cases hspace

theorem IsSeparator.inside {fileType : FileType} {separator : CString}
    (hseparator : IsSeparator fileType separator) : Inside separator := by
  cases fileType with
  | csv =>
      obtain ⟨before, after, hbefore, hafter, rfl⟩ := hseparator
      refine inside_append.mpr ⟨hbefore.inside, ?_⟩
      exact List.forall_mem_cons.mpr ⟨by decide, hafter.inside⟩
  | txt => exact Padding.inside hseparator.2
  | unknown => exact Padding.inside hseparator.2

namespace Joined

variable {fileType : FileType} {fields : List CString} {core : CString}

theorem inside (hcore : Joined fileType fields core)
    (hfields : ∀ field ∈ fields, IsField field) : Inside core := by
  induction hcore with
  | last field => exact (hfields field List.mem_cons_self).inside
  | cons field hseparator hrest ih =>
      obtain ⟨hfield, hothers⟩ := List.forall_mem_cons.mp hfields
      exact inside_append.mpr
        ⟨hfield.inside, inside_append.mpr ⟨hseparator.inside, ih hothers⟩⟩

/-- The last field ends with a character that is not blank. -/
theorem exists_last (hcore : Joined fileType fields core)
    (hfields : ∀ field ∈ fields, IsField field) :
    ∃ init c, core = init ++ [c] ∧ isSpace c = false := by
  induction hcore with
  | last field =>
      have hfield := hfields field List.mem_cons_self
      exact ⟨field.dropLast, field.getLast hfield.ne_nil,
        (List.dropLast_append_getLast hfield.ne_nil).symm,
        (hfield.plain _ (List.getLast_mem hfield.ne_nil)).1⟩
  | @cons field separator rest fields hseparator hrest ih =>
      obtain ⟨init, c, rfl, hc⟩ := ih (List.forall_mem_cons.mp hfields).2
      exact ⟨field ++ (separator ++ init), c, by simp, hc⟩

/-- The text starts with the first field. -/
theorem exists_append {field : CString} (hcore : Joined fileType (field :: fields) core) :
    ∃ rest, core = field ++ rest := by
  cases hcore with
  | last => exact ⟨[], (List.append_nil _).symm⟩
  | cons _ _ _ => exact ⟨_, rfl⟩

end Joined

theorem lineText_append {first : CString} (hfirst : Inside first) (second : CString) :
    lineText (first ++ second) = first ++ lineText second := by
  rw [lineText, List.takeWhile_append_of_pos fun c hc => by simpa using (hfirst c hc).1,
    List.takeWhile_append_of_pos fun c hc => by simpa using (hfirst c hc).2]
  rfl

theorem Blank.lineText {text : CString} (htext : Blank text) : Blank (lineText text) := by
  intro c hc
  exact htext c (List.takeWhile_subset _ (List.takeWhile_subset _ hc))

/-- A record is handed on without the blanks after it. -/
theorem handed_record (record : FileRecord) {fileType : FileType} {before core after : CString}
    (hbefore : Padding before) (hcore : Joined fileType record.fields core)
    (hafter : Padding after) {suffix : CString} (hsuffix : Blank suffix) :
    handed (before ++ (core ++ after) ++ suffix) = some (before ++ core) := by
  have hinside : Inside (before ++ (core ++ after)) :=
    inside_append.mpr ⟨hbefore.inside,
      inside_append.mpr ⟨hcore.inside record.isField, hafter.inside⟩⟩
  have hblank : Blank (after ++ lineText suffix) :=
    blank_append.mpr ⟨hafter.blank, hsuffix.lineText⟩
  obtain ⟨c, field, horderId⟩ :=
    List.exists_cons_of_ne_nil (record.isField record.orderId List.mem_cons_self).ne_nil
  obtain ⟨rest, hhead⟩ := hcore.exists_append
  rw [horderId, List.cons_append] at hhead
  have hc : isSpace c = false := by
    have hfield := record.isField record.orderId List.mem_cons_self
    exact (hfield.plain c (by rw [horderId]; exact List.mem_cons_self)).1
  have hnoComment : c ≠ '#' := record.noComment c (by rw [horderId]; rfl)
  have htext : lineText (before ++ (core ++ after) ++ suffix) =
      before ++ (core ++ (after ++ lineText suffix)) := by
    rw [lineText_append hinside]
    simp
  have hskipped : isSkipped (before ++ (core ++ (after ++ lineText suffix))) = false := by
    rw [hhead, List.cons_append, isSkipped_append_cons hbefore.blank hc]
    exact decide_eq_false hnoComment
  have htrim : trimWhitespace core = core := by
    obtain ⟨init, d, hlast, hd⟩ := hcore.exists_last record.isField
    apply trimWhitespace_of_ends
    · rw [hhead]
      intro e he
      cases he
      exact hc
    · rw [hlast, List.getLast?_concat]
      intro e he
      cases he
      exact hd
  have hlead : (before ++ (core ++ (after ++ lineText suffix))).takeWhile isSpace = before := by
    rw [List.takeWhile_append_of_pos hbefore.blank, hhead, List.cons_append,
      List.takeWhile_cons_of_neg (by simp [hc]), List.append_nil]
  rw [handed, htext, hskipped, if_neg Bool.false_ne_true, trimmedBuffer, hlead,
    trimWhitespace_of_blank_append hbefore.blank, trimWhitespace_append_blank _ hblank, htrim]

/-- What a line leads to, whatever blanks end it. -/
theorem LineLayout.exists_handed {α : Type} [LE α] [DecidableLE α] [Zero α]
    (readers : NumeralReaders α) {fileType : FileType} (hloaded : fileType ≠ .unknown)
    {entry : Option FileRecord} {text : CString} (htext : LineLayout fileType entry text) :
    ∃ result : Option CString, (∀ suffix, Blank suffix → handed (text ++ suffix) = result) ∧
      result.map (createArguments readers fileType) =
        entry.map fun record => record.arguments readers := by
  cases htext with
  | @record record before core after hbefore hcore hafter =>
      refine ⟨some (before ++ core), ?_, ?_⟩
      · intro suffix hsuffix
        exact handed_record record hbefore hcore hafter hsuffix
      · exact congrArg some (createArguments_of_joined readers hloaded record hbefore hcore)
  | blank hpadding =>
      refine ⟨none, ?_, rfl⟩
      intro suffix hsuffix
      have hblank := blank_append.mpr ⟨hpadding.blank, hsuffix⟩
      rw [handed, isSkipped_of_blank hblank.lineText, if_pos rfl]
  | @comment before rest hbefore hrest =>
      refine ⟨none, ?_, rfl⟩
      intro suffix _
      have hmark : Inside ['#'] := by simp [Inside]
      rw [handed, List.append_assoc, lineText_append hbefore.inside, List.cons_append,
        ← List.singleton_append, lineText_append hmark, List.singleton_append,
        isSkipped_append_cons hbefore.blank (by decide), if_pos (decide_eq_true rfl)]

theorem LineLayout.newline_notMem {fileType : FileType} {entry : Option FileRecord}
    {text : CString} (htext : LineLayout fileType entry text) : '\n' ∉ text := by
  have hpadding : ∀ {text : CString}, Padding text → '\n' ∉ text :=
    fun hpadding hmem => (hpadding.inside _ hmem).2 rfl
  cases htext with
  | @record record _ core _ hbefore hcore hafter =>
      have hinside := hcore.inside record.isField
      simp only [List.mem_append, not_or]
      exact ⟨hpadding hbefore, fun hmem => (hinside _ hmem).2 rfl, hpadding hafter⟩
  | blank hblank => exact hpadding hblank
  | comment hbefore hrest =>
      simp only [List.mem_append, List.mem_cons, not_or]
      exact ⟨hpadding hbefore, by decide, hrest⟩

/-! ## The strings of a file -/

theorem IsEnding.blank {ending rest : CString} (hending : IsEnding ending rest) :
    Blank ending := by
  rcases hending with rfl | rfl | ⟨rfl, -⟩ <;> decide

theorem IsEnding.isFirstLine {ending rest : CString} (hending : IsEnding ending rest)
    {text : CString} (htext : '\n' ∉ text) : IsFirstLine isNewline (text ++ ending) rest := by
  have hplain : ∀ c ∈ text, isNewline c = false := fun c hc =>
    decide_eq_false (ne_of_mem_of_not_mem hc htext)
  rcases hending with rfl | rfl | ⟨rfl, rfl⟩
  · refine ⟨?_, .inr ⟨'\n', by simp, rfl⟩⟩
    rwa [List.dropLast_concat]
  · refine ⟨?_, .inr ⟨'\n', by simp, rfl⟩⟩
    rw [List.dropLast_append_cons]
    exact List.forall_mem_append.mpr ⟨hplain, by simp [isNewline]⟩
  · refine ⟨?_, .inl rfl⟩
    intro c hc
    rw [List.append_nil] at hc
    exact hplain c (List.dropLast_subset _ hc)

/-- The first read of a line has all of its text. -/
theorem IsEnding.exists_pieces {ending rest : CString} (hending : IsEnding ending rest)
    {text : CString} (hlength : text.length < maxLineLength) (hne : text ++ ending ≠ []) :
    ∃ suffix more, pieces readSize (text ++ ending) = (text ++ suffix) :: more ∧
      Blank suffix ∧ Blank more.flatten := by
  have hfits : text.length ≤ readSize := Nat.le_pred_of_lt hlength
  refine ⟨ending.take (readSize - text.length), pieces readSize ((text ++ ending).drop readSize),
    ?_, ?_, ?_⟩
  · rw [pieces_of_ne_nil readSize_pos hne, List.take_append, List.take_of_length_le hfits]
  · intro c hc
    exact hending.blank c (List.mem_of_mem_take hc)
  · rw [flatten_pieces readSize_pos, List.drop_append, List.drop_of_length_le hfits]
    intro c hc
    exact hending.blank c (List.mem_of_mem_drop hc)

/-- A line that fits leads to what its text leads to, in one read or two. -/
theorem lineStrings_of_ending {text ending rest : CString} {result : Option CString}
    (htext : '\n' ∉ text) (hlength : text.length < maxLineLength)
    (hending : IsEnding ending rest)
    (hresult : ∀ suffix, Blank suffix → handed (text ++ suffix) = result) :
    lineStrings (text ++ ending) = result.toList := by
  by_cases hne : text ++ ending = []
  · have hhanded := hresult [] Blank.nil
    obtain ⟨rfl, rfl⟩ := List.append_eq_nil_iff.mp hne
    obtain rfl : none = result := hhanded
    rw [lineStrings, List.append_nil, pieces_nil]
    rfl
  obtain ⟨suffix, more, hpieces, hsuffix, hmore⟩ := hending.exists_pieces hlength hne
  have hplain := (hending.isFirstLine htext).plain
  have hnone := filterMap_handed_of_blank hplain hmore fun piece hpiece => by
    rw [hpieces]
    exact List.mem_cons_of_mem _ hpiece
  rw [lineStrings, hpieces, List.filterMap_cons, hresult suffix hsuffix, hnone]
  cases result <;> rfl

/-- The strings of the first line, and those of the others. -/
theorem flatMap_lineStrings_append {line rest : CString}
    (hline : IsFirstLine isNewline line rest) :
    (lines isNewline (line ++ rest)).flatMap lineStrings =
      lineStrings line ++ (lines isNewline rest).flatMap lineStrings := by
  by_cases hne : line = []
  · rw [hne, lineStrings, pieces_nil]
    rfl
  · rw [lines_append hne hline, List.flatMap_cons]

/-- A record with a price of 10 and a quantity of 5. -/
def FileRecord.sample : FileRecord where
  orderId := ['A']
  traderId := ['T']
  symbol := ['S']
  side := ['B', 'U', 'Y']
  price := ['1', '0']
  quantity := ['5']
  isField := by
    have hfield : ∀ field : CString, field ≠ [] ∧
        (field.all fun c => !isSpace c && c != ',' && c != '\x00') = true → IsField field := by
      rintro field ⟨hne, hall⟩
      refine ⟨hne, ?_⟩
      intro c hc
      simpa [and_assoc] using List.all_eq_true.mp hall c hc
    intro field hmem
    simp only [LineRecord.fields, List.mem_cons, List.not_mem_nil, or_false] at hmem
    rcases hmem with rfl | rfl | rfl | rfl | rfl | rfl
    all_goals exact hfield _ (by decide)
  noComment := by
    intro c hc
    cases hc
    decide

section Calls

variable {α : Type} [LE α] [DecidableLE α] [Zero α] (readers : NumeralReaders α)

/-- The orders of a file are those of its calls, in order. -/
theorem map_fileOrders (clock : Nat → Int) {fileType : FileType} {contents : CString}
    {lineNumber : Nat} {buffers : List CString}
    (hlines : processedLines fileType (some contents) = some (lineNumber, buffers)) :
    (fileOrders readers clock fileType lineNumber buffers).map CreateArguments.ofOrder =
      (createCalls readers fileType contents).reduceOption := by
  have hstrings : handedStrings fileType contents = buffers.filterMap handed := by
    rw [handedStrings, hlines]
  rw [createCalls, hstrings]
  clear hlines hstrings
  induction buffers generalizing lineNumber with
  | nil => rfl
  | cons buffer buffers ih =>
      rw [fileOrders, lineOrder_eq, List.map_append, ih, List.filterMap_cons]
      cases handed buffer with
      | none => rfl
      | some string =>
          have hcall := map_parseOrderLine readers fileType (clock lineNumber) string
          rw [Option.bind_some, List.map_cons, ← hcall]
          cases parseOrderLine readers fileType (clock lineNumber) string <;> rfl

/-- The lines of some records lead to a call for each of them. -/
theorem Renders.calls_eq {fileType : FileType} (hloaded : fileType ≠ .unknown)
    {records : List FileRecord} {contents : CString}
    (hrenders : Renders fileType records contents) :
    ((lines isNewline contents).flatMap lineStrings).map (createArguments readers fileType) =
      records.map fun record => record.arguments readers := by
  induction hrenders with
  | nil => rfl
  | @line entry text ending rest records htext hlength hending hrest ih =>
      obtain ⟨result, hresult, hcall⟩ := htext.exists_handed readers hloaded
      have hnewline := htext.newline_notMem
      rw [← List.append_assoc, flatMap_lineStrings_append (hending.isFirstLine hnewline),
        lineStrings_of_ending hnewline hlength hending hresult, List.map_append, ih,
        List.map_append]
      congr 1
      cases entry with
      | none =>
          rw [Option.map_eq_none_iff.mp hcall]
          rfl
      | some record =>
          obtain ⟨string, rfl, hstring⟩ := Option.map_eq_some_iff.mp hcall
          exact congrArg (fun call => [call]) hstring

/-- What is left of a header that fits is blank. -/
theorem handedStrings_csv {header ending body : CString} (hheader : '\n' ∉ header)
    (hlength : header.length < maxLineLength) (hending : IsEnding ending body) :
    handedStrings .csv (header ++ (ending ++ body)) =
      (lines isNewline body).flatMap lineStrings := by
  rw [← List.append_assoc]
  have hline := hending.isFirstLine hheader
  by_cases hne : header ++ ending = []
  · obtain ⟨rfl, rfl⟩ := List.append_eq_nil_iff.mp hne
    have hbody : body = [] := by
      rcases hending with hlf | hcrlf | ⟨-, hbody⟩
      · cases hlf
      · cases hcrlf
      · exact hbody
    rw [hbody]
    rfl
  obtain ⟨suffix, more, hpieces, -, hmore⟩ := hending.exists_pieces hlength hne
  have hnone := filterMap_handed_of_blank hline.plain hmore fun piece hpiece => by
    rw [hpieces]
    exact List.mem_cons_of_mem _ hpiece
  rw [handedStrings_eq, headerRest, bodyLines, lines_append hne hline, List.head?_cons,
    Option.toList_some, List.flatMap_singleton, hpieces, List.tail_cons, List.tail_cons, hnone,
    List.nil_append]

theorem RendersFile.createCalls_eq {fileType : FileType} (hloaded : fileType ≠ .unknown)
    {records : List FileRecord} {contents : CString}
    (hfile : RendersFile fileType records contents) :
    createCalls readers fileType contents =
      records.map fun record => record.arguments readers := by
  cases fileType with
  | csv =>
      obtain ⟨header, ending, body, hheader, hlength, hending, hbody, rfl⟩ := hfile
      rw [createCalls, handedStrings_csv hheader hlength hending]
      exact hbody.calls_eq readers hloaded
  | txt =>
      rw [createCalls, handedStrings_eq]
      exact Renders.calls_eq readers hloaded hfile
  | unknown => exact absurd rfl hloaded

end Calls

/-- The CSV and the TXT files of the same records lead to the same calls of `order_create`:
to one for each record, in order, with the arguments its fields have, except for the
records that neither file passes on. -/
theorem csv_calls_eq_txt_calls {α : Type} [LE α] [DecidableLE α] [Zero α]
    (readers : NumeralReaders α) {records : List FileRecord} {csv txt : CString}
    (hcsv : RendersFile .csv records csv) (htxt : RendersFile .txt records txt) :
    createCalls readers .csv csv = createCalls readers .txt txt ∧
      createCalls readers .csv csv = records.map fun record => record.arguments readers := by
  have hcalls := hcsv.createCalls_eq readers (by decide)
  have hcalls' := htxt.createCalls_eq readers (by decide)
  exact ⟨hcalls.trans hcalls'.symm, hcalls⟩

/-- A CSV file with a header and a TXT file with a comment, of the same record. -/
theorem csv_calls_eq_txt_calls_sample :
    createCalls (CNumeralLibrary.readers
        ⟨fun value => ((value : WithTop ℚ) : OrderedDouble), fun _ => 0⟩) .csv
        "h\nA, T,S,BUY,10,5\r\n".toList =
      createCalls (CNumeralLibrary.readers
        ⟨fun value => ((value : WithTop ℚ) : OrderedDouble), fun _ => 0⟩) .txt
        "#\nA\tT S BUY 10 5 ".toList := by
  have hcomma : IsSeparator .csv [','] := ⟨[], [], by decide, by decide, rfl⟩
  have hcommaBlank : IsSeparator .csv [',', ' '] := ⟨[], [' '], by decide, by decide, rfl⟩
  have hblank : IsSeparator .txt [' '] := ⟨by decide, by decide⟩
  have htab : IsSeparator .txt ['\t'] := ⟨by decide, by decide⟩
  have hcsvLine : LineLayout .csv (some FileRecord.sample) "A, T,S,BUY,10,5".toList :=
    .record FileRecord.sample (show Padding [] by decide)
      (.cons _ hcommaBlank (.cons _ hcomma (.cons _ hcomma (.cons _ hcomma (.cons _ hcomma
        (.last _)))))) (show Padding [] by decide)
  have htxtLine : LineLayout .txt (some FileRecord.sample) "A\tT S BUY 10 5 ".toList :=
    .record FileRecord.sample (show Padding [] by decide)
      (.cons _ htab (.cons _ hblank (.cons _ hblank (.cons _ hblank (.cons _ hblank
        (.last _)))))) (show Padding [' '] by decide)
  have hcsv : RendersFile .csv [FileRecord.sample] "h\nA, T,S,BUY,10,5\r\n".toList :=
    ⟨['h'], ['\n'], _, by decide, by decide, .inl rfl,
      .line hcsvLine (by decide) (.inr (.inl rfl)) .nil, rfl⟩
  have hcomment : LineLayout .txt none ['#'] :=
    .comment (show Padding [] by decide) (by decide)
  have htxt : RendersFile .txt [FileRecord.sample] "#\nA\tT S BUY 10 5 ".toList :=
    .line hcomment (by decide) (.inl rfl)
      (.line htxtLine (by decide) (.inr (.inr ⟨rfl, rfl⟩)) .nil)
  exact (csv_calls_eq_txt_calls _ hcsv htxt).1

end OrderLoader

end QuantTrading
