import BuildPipeline.Yaml.Scanner
import Mathlib.Data.List.Basic

/-! How words that stand one on a line behind dashes are cut into lexemes. Every line
takes the scanner the same three steps, whatever the words are. -/

namespace BuildPipeline

theorem notMem_of_isAlphanumeric {unit : CodeUnit} {marks : Text} (letter : isAlphanumeric unit = true)
    (solid : marks.all (fun mark => !isAlphanumeric mark) = true) : unit ∉ marks := by
  intro listed
  simpa [letter] using List.all_eq_true.1 solid unit listed

theorem ne_of_isAlphanumeric {unit : CodeUnit} (letter : isAlphanumeric unit = true) (mark : CodeUnit)
    (solid : isAlphanumeric mark = false) : unit ≠ mark := by
  rintro rfl
  exact Bool.noConfusion (letter.symm.trans solid)

namespace Yaml

/-- Letters and digits, at least one of them. -/
structure IsWord (word : Text) : Prop where
  nonempty : word ≠ []
  units : ∀ unit ∈ word, isAlphanumeric unit = true

/-- A word behind a dash. -/
def itemLine (indent : Nat) (word : Text) : Text :=
  List.replicate indent CodeUnit.space ++ CodeUnit.ofChar '-' :: CodeUnit.space :: word

/-- Lines with a line break in front of each. -/
def itemLines (indent : Nat) (words : List Text) : Text :=
  words.flatMap fun word => CodeUnit.newline :: itemLine indent word

/-- The line break at the end of a file, which may be missing. -/
def ending (isClosed : Bool) : Text :=
  if isClosed then [CodeUnit.newline] else []

/-- The indentation of a line, if it has one. -/
def indentLexemes (indent : Nat) : List Lexeme :=
  if indent = 0 then [] else [⟨.blanks, List.replicate indent CodeUnit.space⟩]

theorem reverse_indentLexemes (indent : Nat) : (indentLexemes indent).reverse = indentLexemes indent := by
  unfold indentLexemes
  split <;> rfl

def itemLexemes (indent : Nat) (word : Text) : List Lexeme :=
  indentLexemes indent ++
    [⟨.itemMark, [CodeUnit.ofChar '-']⟩, ⟨.blanks, [CodeUnit.space]⟩, ⟨.scalar, word⟩]

def newlineLexeme : Lexeme := ⟨.newline, [CodeUnit.newline]⟩

def lineLexemes (indent : Nat) (word : Text) : List Lexeme :=
  newlineLexeme :: itemLexemes indent word

def endingLexemes (isClosed : Bool) : List Lexeme :=
  if isClosed then [newlineLexeme] else []

section Units

variable {unit : CodeUnit} {text : Text}

theorem isSpaceOrTab_letter (letter : isAlphanumeric unit = true) : isSpaceOrTab unit = false := by
  have space := ne_of_isAlphanumeric letter (CodeUnit.ofChar ' ') (by decide)
  have tab := ne_of_isAlphanumeric letter (CodeUnit.ofChar '\t') (by decide)
  simp [isSpaceOrTab, space, tab]

theorem endsWord_letter (letter : isAlphanumeric unit = true) : endsWord (some unit) = false := by
  have newline := ne_of_isAlphanumeric letter .newline (by decide)
  have back := ne_of_isAlphanumeric letter (CodeUnit.ofChar '\r') (by decide)
  simp [endsWord, isSpaceOrTab_letter letter, newline, back]

theorem startsLineBreak_letter (letter : isAlphanumeric unit = true) : startsLineBreak (unit :: text) = false := by
  have newline := ne_of_isAlphanumeric letter .newline (by decide)
  have back := ne_of_isAlphanumeric letter (CodeUnit.ofChar '\r') (by decide)
  simp [startsLineBreak, newline, back]

theorem blanksLength_letter (letter : isAlphanumeric unit = true) : blanksLength (unit :: text) = 0 := by
  simp [blanksLength, isSpaceOrTab_letter letter]

/-- A plain scalar goes on as long as there are letters. -/
theorem plainLength_letters {word : Text} (units : ∀ unit ∈ word, isAlphanumeric unit = true) (indentation read : Nat)
    (text : Text) : plainLength false indentation read read (word ++ text) =
      plainLength false indentation (read + word.length) (read + word.length) text := by
  induction word generalizing read with
  | nil => rfl
  | cons unit word ih =>
    have letter := units unit List.mem_cons_self
    have colon := ne_of_isAlphanumeric letter (CodeUnit.ofChar ':') (by decide)
    have back := ne_of_isAlphanumeric letter (CodeUnit.ofChar '\r') (by decide)
    rw [List.cons_append, plainLength]
    simp only [colon, back, endsWord_letter letter, decide_false, Bool.false_and, if_false, Bool.false_eq_true]
    rw [ih fun other later => units other (List.mem_cons_of_mem _ later), List.length_cons]
    congr 1 <;> omega

/-- What stops a plain scalar: the end of the text, or a line that it does not go on with. -/
def StopsScalar (indentation : Nat) (text : Text) : Prop :=
  text = [] ∨ ∃ line, text = CodeUnit.newline :: line ∧ continuesScalar indentation line = false

theorem StopsScalar.plainLength {indentation : Nat} (stops : StopsScalar indentation text) (read : Nat) :
    plainLength false indentation read read text = read := by
  rcases stops with rfl | ⟨line, rfl, other⟩
  · rfl
  · have colon : CodeUnit.newline ≠ CodeUnit.ofChar ':' := by decide
    have back : CodeUnit.newline ≠ CodeUnit.ofChar '\r' := by decide
    rw [Yaml.plainLength]
    simp [colon, back, endsWord, other]

theorem spacesLength_itemLine (indent : Nat) (text : Text) : spacesLength (itemLine indent text) = indent := by
  have dash : (CodeUnit.ofChar '-' = CodeUnit.space) = False := by decide
  simp [spacesLength, itemLine, dash]

theorem continuesScalar_itemLine (indent : Nat) (text : Text) :
    continuesScalar (indent + 1) (itemLine indent text) = false := by
  have behind : (itemLine indent text).drop indent = CodeUnit.ofChar '-' :: CodeUnit.space :: text :=
    List.drop_left' (List.length_replicate)
  have solid : startsLineBreak (CodeUnit.ofChar '-' :: CodeUnit.space :: text) = false := rfl
  rw [continuesScalar, if_pos (Nat.succ_pos _)]
  simp [spacesLength_itemLine, behind, solid]

theorem stopsScalar_lines (indent : Nat) (words : List Text) (isClosed : Bool) :
    StopsScalar (indent + 1) (itemLines indent words ++ ending isClosed) := by
  cases words with
  | nil =>
    cases isClosed with
    | false => exact .inl rfl
    | true => exact .inr ⟨[], rfl, by simp [continuesScalar, spacesLength, startsLineBreak]⟩
  | cons word words =>
    refine .inr ⟨itemLine indent (word ++ (itemLines indent words ++ ending isClosed)), ?_,
      continuesScalar_itemLine _ _⟩
    simp [itemLines, itemLine]

/-- Either nothing follows, or the next line. -/
def EndsLine (text : Text) : Prop :=
  text = [] ∨ ∃ line, text = CodeUnit.newline :: line

theorem endsLine_lines (indent : Nat) (words : List Text) (isClosed : Bool) :
    EndsLine (itemLines indent words ++ ending isClosed) := by
  cases words with
  | nil =>
    cases isClosed with
    | false => exact .inl rfl
    | true => exact .inr ⟨[], rfl⟩
  | cons word words => exact .inr ⟨_, rfl⟩

theorem plainLength_colon (ends : EndsLine text) (indentation read last : Nat) :
    plainLength false indentation read last (CodeUnit.ofChar ':' :: text) = last := by
  have key : endsKey false text.head? = true := by
    rcases ends with rfl | ⟨line, rfl⟩ <;> rfl
  rw [plainLength]
  simp [key]

end Units

namespace Scanner

variable {scanner : Scanner} {unit : CodeUnit} {text : Text}

/-- Units that begin a tag, an anchor or a mark of a block. -/
def indicatorUnits : List CodeUnit :=
  [CodeUnit.ofChar '!', CodeUnit.ofChar '&', CodeUnit.ofChar '-', CodeUnit.ofChar '?', CodeUnit.ofChar ':']

theorem indicators_eq_self (starts : scanner.rest = unit :: text) (plain : unit ∉ indicatorUnits) :
    scanner.indicators = scanner := by
  simp only [indicatorUnits, List.mem_cons, List.not_mem_nil, or_false, not_or] at plain
  obtain ⟨tag, anchor, item, key, value⟩ := plain
  have none : scanner.markAhead? (endsKey scanner.inFlow) = none := by
    simp [markAhead?, starts, blockMark?, item, key, value]
  simp [indicators, starts, takeIndicators, tag, anchor, none]

theorem takeBlanks_eq_self (solid : blanksLength scanner.rest = 0) : scanner.takeBlanks = scanner := by
  rw [takeBlanks, take, if_pos solid]

/-- Behind a block mark a word begins. -/
theorem startBlock_letter (starts : scanner.rest = unit :: text) (letter : isAlphanumeric unit = true) :
    scanner.startBlock = { scanner with mode := .content } := by
  have item := ne_of_isAlphanumeric letter (CodeUnit.ofChar '-') (by decide)
  have key := ne_of_isAlphanumeric letter (CodeUnit.ofChar '?') (by decide)
  have value := ne_of_isAlphanumeric letter (CodeUnit.ofChar ':') (by decide)
  have none : scanner.markAhead? endsWord = none := by
    simp [markAhead?, starts, blockMark?, item, key, value]
  rw [startBlock, none]

theorem isAhead_letter (starts : scanner.rest = unit :: text) (letter : isAlphanumeric unit = true) (mark : Char)
    (solid : isAlphanumeric (CodeUnit.ofChar mark) = false) : scanner.isAhead mark = false := by
  simp [isAhead, ahead?, starts, startsLineBreak_letter letter, ne_of_isAlphanumeric letter _ solid]

theorem takeNode?_letter (starts : scanner.rest = unit :: text) (letter : isAlphanumeric unit = true) :
    scanner.takeNode? = none := by
  have ahead := isAhead_letter starts letter
  rw [takeNode?]
  simp [ahead '\x7b' (by decide), ahead '[' (by decide), ahead '\x7d' (by decide),
    ahead ']' (by decide), ahead '*' (by decide), ahead '"' (by decide),
    ahead '\'' (by decide)]

/-- A word is cut off whole where something stops it. -/
theorem stepContent_word {word : Text} (valid : IsWord word) (starts : scanner.rest = word ++ text)
    (outside : scanner.flowLevel = 0)
    (whole : plainLength false scanner.indentNext 0 0 (word ++ text) = word.length) :
    scanner.stepContent =
      { scanner with rest := text, mode := .content, done := ⟨.scalar, word⟩ :: scanner.done } := by
  obtain ⟨unit, more, rfl⟩ := List.exists_cons_of_ne_nil valid.nonempty
  have letter := valid.units unit List.mem_cons_self
  have starts' : scanner.rest = unit :: (more ++ text) := starts
  have marked : scanner.takeBlanks.indicators = scanner := by
    rw [takeBlanks_eq_self (by rw [starts', blanksLength_letter letter])]
    refine indicators_eq_self starts' fun listed => ?_
    exact absurd listed (notMem_of_isAlphanumeric letter (by decide))
  have ahead := isAhead_letter starts' letter
  have present : scanner.ahead?.isNone = false := by
    simp [ahead?, starts', startsLineBreak_letter letter]
  have block : scanner.inFlow = false := by simp [inFlow, outside]
  simp only [stepContent, marked, present, ahead '#' (by decide), takeNode?_letter starts' letter,
    ahead '|' (by decide), ahead '>' (by decide), Bool.or_self, Bool.false_eq_true, if_false]
  rw [takePlain, block, starts, whole]
  simp [cut, resume, starts, inFlow, outside]

/-- No line of a list is a document marker: those have three units of one kind. -/
theorem documentMarker?_itemLine (indent : Nat) (text : Text) : documentMarker? (itemLine indent text) = none := by
  have dashes : ("---" : Text) = [CodeUnit.ofChar '-', CodeUnit.ofChar '-', CodeUnit.ofChar '-'] := by decide +kernel
  have dots : ("..." : Text) = [CodeUnit.ofChar '.', CodeUnit.ofChar '.', CodeUnit.ofChar '.'] := by decide +kernel
  have dashNotSpace : CodeUnit.space ≠ CodeUnit.ofChar '-' := by decide
  have dotNotSpace : CodeUnit.space ≠ CodeUnit.ofChar '.' := by decide
  have dotNotDash : CodeUnit.ofChar '-' ≠ CodeUnit.ofChar '.' := by decide
  have notStart : (itemLine indent text).take 3 ≠ "---" := by
    cases indent <;> simp [itemLine, List.replicate_succ, dashes, dashNotSpace]
  have notEnd : (itemLine indent text).take 3 ≠ "..." := by
    cases indent <;> simp [itemLine, List.replicate_succ, dots, dotNotSpace, dotNotDash]
  rw [documentMarker?, if_neg notStart, if_neg notEnd]
  split <;> rfl

theorem take_indent {indent : Nat} (starts : scanner.rest = itemLine indent text) :
    scanner.take .blanks indent = { scanner with
      rest := CodeUnit.ofChar '-' :: CodeUnit.space :: text, done := indentLexemes indent ++ scanner.done } := by
  cases indent with
  | zero =>
    have here : scanner.rest = CodeUnit.ofChar '-' :: CodeUnit.space :: text := starts
    rw [take, if_pos rfl, indentLexemes, if_pos rfl, ← here]
    rfl
  | succ indent =>
    have front : scanner.rest.take (indent + 1) = List.replicate (indent + 1) CodeUnit.space := by
      rw [starts, itemLine, List.take_left' (List.length_replicate)]
    have behind : scanner.rest.drop (indent + 1) = CodeUnit.ofChar '-' :: CodeUnit.space :: text := by
      rw [starts, itemLine, List.drop_left' (List.length_replicate)]
    simp [take, cut, front, behind, indentLexemes]

theorem startBlock_item (starts : scanner.rest = CodeUnit.ofChar '-' :: CodeUnit.space :: unit :: text)
    (letter : isAlphanumeric unit = true) :
    scanner.startBlock = { scanner with
      rest := unit :: text, mode := .blockStart, indent := scanner.indent + 2, indentNext := scanner.indent + 1
      done := ⟨.blanks, [CodeUnit.space]⟩ :: ⟨.itemMark, [CodeUnit.ofChar '-']⟩ :: scanner.done } := by
  have mark : scanner.markAhead? endsWord = some .itemMark := by
    rw [markAhead?, starts]
    rfl
  have blank : blanksLength (CodeUnit.space :: unit :: text) = 1 := by
    have behind : blanksLength (unit :: text) = 0 := blanksLength_letter letter
    rw [blanksLength] at behind ⊢
    rw [List.takeWhile_cons_of_pos (by decide), List.length_cons, behind]
  simp [startBlock, mark, take, cut, takeBlanks, starts, blank]

/-- The scanner at the start of the next line. -/
def behindNewline (scanner : Scanner) (text : Text) : Scanner :=
  { scanner with rest := text, done := newlineLexeme :: scanner.done }

/-- A line break is passed, and the next line begins. -/
theorem stepContent_newline (starts : scanner.rest = CodeUnit.newline :: text) :
    scanner.stepContent = (scanner.behindNewline text).startLine := by
  have marked : scanner.takeBlanks.indicators = scanner := by
    rw [takeBlanks_eq_self (by rw [starts]; rfl)]
    exact indicators_eq_self starts (by decide)
  have breaks : startsLineBreak (CodeUnit.newline :: text) = true := rfl
  have absent : scanner.ahead?.isNone = true := by simp [ahead?, starts, breaks]
  have line : lineLength (CodeUnit.newline :: text) = 0 := by simp [lineLength, breaks]
  simp only [stepContent, marked, absent, Bool.true_or, if_true]
  simp [takeComment, takeNewline, take, cut, starts, line, breaks, behindNewline, newlineLexeme]

/-- The scanner behind the dash of an item. -/
def behindDash (scanner : Scanner) (indent : Nat) (text : Text) : Scanner :=
  { scanner with
    rest := text, mode := .blockStart, indent := indent + 2, indentNext := indent + 1
    done := ⟨.blanks, [CodeUnit.space]⟩ :: ⟨.itemMark, [CodeUnit.ofChar '-']⟩ ::
      (indentLexemes indent ++ scanner.done) }

/-- The scanner behind the word of an item. -/
def behindItem (scanner : Scanner) (indent : Nat) (word text : Text) : Scanner :=
  { scanner with
    rest := text, mode := .content, indent := indent + 2, indentNext := indent + 1
    done := (itemLexemes indent word).reverse ++ scanner.done }

theorem startLine_itemLine {indent : Nat} (starts : scanner.rest = itemLine indent (unit :: text))
    (letter : isAlphanumeric unit = true) : scanner.startLine = scanner.behindDash indent (unit :: text) := by
  have indentNext : (decide (indent < scanner.indentNext) &&
      !endsWord (CodeUnit.ofChar '-' :: CodeUnit.space :: unit :: text)[1]?) = false := by
    have ends : endsWord (some CodeUnit.space) = true := rfl
    simp [ends]
  rw [startLine, starts, documentMarker?_itemLine, startIndented, starts, spacesLength_itemLine, take_indent starts,
    indentNext, if_neg Bool.false_ne_true]
  exact startBlock_item rfl letter

theorem startLine_nil (starts : scanner.rest = []) :
    scanner.startLine = { scanner with mode := .content, indent := 0 } := by
  have none : documentMarker? [] = none := by decide +kernel
  rw [startLine, starts, none, startIndented, starts]
  simp [startBlock, starts, spacesLength, take, endsWord, markAhead?]

theorem documentMarker?_letter (letter : isAlphanumeric unit = true) : documentMarker? (unit :: text) = none := by
  have dashes : ("---" : Text) = [CodeUnit.ofChar '-', CodeUnit.ofChar '-', CodeUnit.ofChar '-'] := by decide +kernel
  have dots : ("..." : Text) = [CodeUnit.ofChar '.', CodeUnit.ofChar '.', CodeUnit.ofChar '.'] := by decide +kernel
  have dash := ne_of_isAlphanumeric letter (CodeUnit.ofChar '-') (by decide)
  have dot := ne_of_isAlphanumeric letter (CodeUnit.ofChar '.') (by decide)
  have notStart : (unit :: text).take 3 ≠ "---" := by simp [dashes, dash]
  have notEnd : (unit :: text).take 3 ≠ "..." := by simp [dots, dot]
  rw [documentMarker?, if_neg notStart, if_neg notEnd]
  split <;> rfl

theorem run_succ (scanner : Scanner) (some : scanner.rest ≠ []) (fuel : Nat) :
    scanner.run (fuel + 1) = scanner.step.run fuel := by
  rw [run, if_neg (by simpa using some)]

theorem run_nil (none : scanner.rest = []) (fuel : Nat) : scanner.run fuel = scanner := by
  cases fuel with
  | zero => rfl
  | succ fuel => rw [run, if_pos (by simp [none])]

variable {word : Text} {indent : Nat}

theorem append_ne_nil (valid : IsWord word) : word ++ text ≠ [] := by
  simp [valid.nonempty]

theorem plainLength_word (valid : IsWord word) {indentation : Nat} (stops : StopsScalar indentation text) :
    plainLength false indentation 0 0 (word ++ text) = word.length := by
  rw [plainLength_letters valid.units, stops.plainLength, Nat.zero_add]

theorem run_behindDash (scanner : Scanner) (valid : IsWord word) (outside : scanner.flowLevel = 0)
    (stops : StopsScalar (indent + 1) text) (fuel : Nat) :
    (scanner.behindDash indent (word ++ text)).run (fuel + 2) = run fuel (scanner.behindItem indent word text) := by
  have some : word ++ text ≠ [] := append_ne_nil valid
  obtain ⟨unit, more, rfl⟩ := List.exists_cons_of_ne_nil valid.nonempty
  let begun : Scanner := { scanner.behindDash indent (unit :: more ++ text) with mode := .content }
  have starts : begun.rest = unit :: more ++ text := rfl
  have block : begun.flowLevel = 0 := outside
  have stops : StopsScalar begun.indentNext text := stops
  have first : (scanner.behindDash indent (unit :: more ++ text)).step = begun :=
    startBlock_letter rfl (valid.units unit List.mem_cons_self)
  have second : begun.step = scanner.behindItem indent (unit :: more) text := by
    refine (stepContent_word valid starts block (plainLength_word valid stops)).trans ?_
    simp [begun, behindDash, behindItem, itemLexemes, reverse_indentLexemes]
  rw [run_succ _ some, first, run_succ _ some, second]

/-- One line of a list takes three steps. -/
theorem run_line (valid : IsWord word) (starts : scanner.rest = CodeUnit.newline :: itemLine indent word ++ text)
    (inside : scanner.mode = .content) (outside : scanner.flowLevel = 0) (stops : StopsScalar (indent + 1) text)
    (fuel : Nat) :
    scanner.run (fuel + 3) =
      run fuel ((scanner.behindNewline (itemLine indent word ++ text)).behindItem indent word text) := by
  let next := scanner.behindNewline (itemLine indent word ++ text)
  have block : next.flowLevel = 0 := outside
  have stepped : scanner.step = next.behindDash indent (word ++ text) := by
    simp only [step, inside, stepContent_newline starts]
    obtain ⟨unit, more, rfl⟩ := List.exists_cons_of_ne_nil valid.nonempty
    exact startLine_itemLine (by simp [behindNewline, itemLine]) (valid.units unit List.mem_cons_self)
  rw [run_succ _ (starts ▸ List.cons_ne_nil _ _), stepped]
  exact run_behindDash next valid block stops fuel

/-- All lines of a list, and the line break at its end. -/
theorem run_lines {words : List Text} (valid : ∀ word ∈ words, IsWord word) (isClosed : Bool)
    (starts : scanner.rest = itemLines indent words ++ ending isClosed)
    (inside : scanner.mode = .content) (outside : scanner.flowLevel = 0) (fuel : Nat) :
    (scanner.run (fuel + 1 + 3 * words.length)).done =
      (words.flatMap (lineLexemes indent) ++ endingLexemes isClosed).reverse ++ scanner.done := by
  induction words generalizing scanner with
  | nil =>
    cases isClosed with
    | false =>
      rw [run_nil starts]
      rfl
    | true =>
      have stepped : scanner.step = { scanner with
          rest := [], mode := .content, indent := 0, done := newlineLexeme :: scanner.done } := by
        simp only [step, inside, stepContent_newline starts]
        exact startLine_nil rfl
      rw [List.length_nil, Nat.mul_zero, Nat.add_zero, run_succ _ (starts ▸ List.cons_ne_nil _ _), stepped, run_nil rfl]
      rfl
  | cons word words ih =>
    have first : scanner.rest =
        CodeUnit.newline :: itemLine indent word ++ (itemLines indent words ++ ending isClosed) := by
      rw [starts, itemLines, List.flatMap_cons, ← itemLines, List.append_assoc]
    have count : fuel + 1 + 3 * (word :: words).length = fuel + 1 + 3 * words.length + 3 := by
      rw [List.length_cons]
      omega
    have rest : ∀ other ∈ words, IsWord other := fun other later => valid other (List.mem_cons_of_mem _ later)
    let next := (scanner.behindNewline (itemLine indent word ++ (itemLines indent words ++ ending isClosed))).behindItem
      indent word (itemLines indent words ++ ending isClosed)
    have block : next.flowLevel = 0 := outside
    have content : next.mode = .content := rfl
    rw [count, run_line (valid word List.mem_cons_self) first inside outside (stopsScalar_lines indent words isClosed),
      ih rest rfl content block]
    simp [next, behindItem, behindNewline, lineLexemes]

/-- A document begins with whatever is no comment, directive, blank or line break. -/
theorem stepStream_eq (starts : scanner.rest = unit :: text)
    (plain : unit ∉ ([0xFEFF, CodeUnit.ofChar '%', CodeUnit.ofChar '#'] : List CodeUnit))
    (solid : isSpaceOrTab unit = false) (line : startsLineBreak (unit :: text) = false) :
    scanner.stepStream = { scanner with done := ⟨.content, []⟩ :: scanner.done }.startLine := by
  simp only [List.mem_cons, List.not_mem_nil, or_false, not_or] at plain
  obtain ⟨mark, directive, comment⟩ := plain
  have noMark : (scanner.rest.head? = some 0xFEFF) = False := by simp [starts, mark]
  have noDirective : scanner.isAhead '%' = false := by
    simpa [isAhead, ahead?, starts, line] using directive
  simp only [stepStream, noMark, if_false]
  simp [noDirective, starts, solid, line, comment, cut]

theorem startLine_letter (starts : scanner.rest = unit :: text) (letter : isAlphanumeric unit = true)
    (outermost : scanner.indentNext = 0) :
    scanner.startLine = { scanner with mode := .content, indent := 0 } := by
  have space := ne_of_isAlphanumeric letter CodeUnit.space (by decide)
  have spaces : spacesLength (unit :: text) = 0 := by simp [spacesLength, space]
  let indented : Scanner := { scanner with indent := 0 }
  have begun : indented.startBlock = { indented with mode := .content } := startBlock_letter starts letter
  have reached : scanner.startLine = indented.startBlock := by
    rw [startLine, starts, documentMarker?_letter letter, startIndented, starts, spaces]
    simp [take, outermost, indented]
  exact reached.trans begun

/-- The scanner behind the colon of a key. -/
def behindColon (scanner : Scanner) (text : Text) : Scanner :=
  { scanner with
    rest := text, indentNext := scanner.indent + 1, done := ⟨.valueMark, [CodeUnit.ofChar ':']⟩ :: scanner.done }

theorem takeBlanks_of_endsLine (ends : EndsLine scanner.rest) : scanner.takeBlanks = scanner := by
  apply takeBlanks_eq_self
  rcases ends with none | ⟨line, starts⟩
  · rw [none]
    rfl
  · rw [starts]
    rfl

theorem indicators_of_endsLine (ends : EndsLine scanner.rest) : scanner.indicators = scanner := by
  rcases ends with none | ⟨line, starts⟩
  · simp [indicators, none, takeIndicators]
  · exact indicators_eq_self starts (by decide)

theorem stepContent_nil (none : scanner.rest = []) :
    scanner.stepContent = { scanner with mode := .content, indent := 0 } := by
  have marked : scanner.takeBlanks.indicators = scanner := by
    rw [takeBlanks_of_endsLine (.inl none), indicators_of_endsLine (.inl none)]
  have absent : scanner.ahead?.isNone = true := by simp [ahead?, none, startsLineBreak]
  have passed : scanner.takeComment.takeNewline = scanner := by
    simp [takeComment, takeNewline, take, none, lineLength, startsLineBreak]
  simp only [stepContent, marked, absent, Bool.true_or, if_true, passed, startLine_nil none]

/-- The colon behind a key is taken together with what follows it. -/
theorem stepContent_colon (starts : scanner.rest = CodeUnit.ofChar ':' :: text) (outside : scanner.flowLevel = 0)
    (ends : EndsLine text) : scanner.stepContent = (scanner.behindColon text).stepContent := by
  let colon := scanner.behindColon text
  have behind : EndsLine colon.rest := ends
  have tag : scanner.rest.head? ≠ some (CodeUnit.ofChar '!') := by
    rw [starts, List.head?_cons]
    decide
  have anchor : scanner.rest.head? ≠ some (CodeUnit.ofChar '&') := by
    rw [starts, List.head?_cons]
    decide
  have mark : scanner.markAhead? (endsKey scanner.inFlow) = some .valueMark := by
    rcases ends with rfl | ⟨line, rfl⟩ <;> simp [markAhead?, starts, endsKey, endsWord, blockMark?] <;> decide
  have cut : scanner.noteMark.take .valueMark 1 = colon := by
    simp [noteMark, inFlow, outside, take, Scanner.cut, starts, colon, behindColon]
  have marked : scanner.takeBlanks.indicators = colon := by
    rw [takeBlanks_eq_self (by rw [starts]; rfl), indicators, starts, List.length_cons, takeIndicators, if_neg tag,
      if_neg anchor, mark]
    simp only [cut, takeBlanks_of_endsLine behind]
    exact indicators_of_endsLine behind
  change scanner.stepContent = colon.stepContent
  rw [stepContent, stepContent, marked, takeBlanks_of_endsLine behind, indicators_of_endsLine behind]

/-- The colon of a key and all lines of the list behind it. -/
theorem run_colon {words : List Text} (valid : ∀ word ∈ words, IsWord word) (isClosed : Bool)
    (starts : scanner.rest = CodeUnit.ofChar ':' :: (itemLines indent words ++ ending isClosed))
    (inside : scanner.mode = .content) (outside : scanner.flowLevel = 0) (fuel : Nat) :
    (scanner.run (fuel + 1 + 3 * words.length)).done =
      (words.flatMap (lineLexemes indent) ++ endingLexemes isClosed).reverse ++
        ⟨.valueMark, [CodeUnit.ofChar ':']⟩ :: scanner.done := by
  let colon := scanner.behindColon (itemLines indent words ++ ending isClosed)
  have follows : colon.rest = itemLines indent words ++ ending isClosed := rfl
  have content : colon.mode = .content := inside
  have block : colon.flowLevel = 0 := outside
  have listed := run_lines valid isClosed follows content block fuel
  have same : scanner.step = colon.step := by
    rw [step, step, inside, content]
    exact stepContent_colon starts outside (endsLine_lines indent words isClosed)
  rw [show fuel + 1 + 3 * words.length = fuel + 3 * words.length + 1 by omega] at listed ⊢
  rw [run_succ _ (starts ▸ List.cons_ne_nil _ _), same]
  rcases endsLine_lines indent words isClosed with none | ⟨line, starts'⟩
  · have ended : ({ colon with mode := .content, indent := 0 } : Scanner).rest = [] := follows.trans none
    rw [run_nil (follows.trans none)] at listed
    rw [step, content]
    simp only [stepContent_nil (follows.trans none)]
    rw [run_nil ended]
    exact listed
  · rw [← run_succ _ (follows.trans starts' ▸ List.cons_ne_nil _ _)]
    exact listed

theorem length_itemLines (indent : Nat) (words : List Text) : words.length ≤ (itemLines indent words).length := by
  induction words with
  | nil => exact Nat.le_refl _
  | cons word words ih =>
    rw [itemLines, List.flatMap_cons, ← itemLines]
    simp only [List.length_append, List.length_cons]
    omega

end Scanner

open Scanner

variable {word : Text} {words : List Text}

theorem lexemes_list (first : IsWord word) (valid : ∀ word ∈ words, IsWord word) (isClosed : Bool) :
    lexemes (itemLine 0 word ++ (itemLines 0 words ++ ending isClosed)) =
      ⟨.content, []⟩ :: (itemLexemes 0 word ++ (words.flatMap (lineLexemes 0) ++ endingLexemes isClosed)) := by
  let rest : Text := itemLines 0 words ++ ending isClosed
  have length : words.length ≤ rest.length := by
    simpa [rest] using Nat.le_add_right_of_le (length_itemLines 0 words)
  obtain ⟨fuel, enough⟩ : ∃ fuel, 4 * ((itemLine 0 word ++ rest).length + 1) = fuel + 1 + 3 * words.length + 3 := by
    refine ⟨4 * ((itemLine 0 word ++ rest).length + 1) - (1 + 3 * words.length + 3), ?_⟩
    simp only [List.length_append]
    omega
  let opened : Scanner := { rest := itemLine 0 (word ++ rest), done := [⟨.content, []⟩] }
  have begun : Scanner.step { rest := itemLine 0 word ++ rest } = opened.behindDash 0 (word ++ rest) := by
    obtain ⟨unit, more, rfl⟩ := List.exists_cons_of_ne_nil first.nonempty
    have starts : ({ rest := itemLine 0 (unit :: more) ++ rest } : Scanner).rest =
        CodeUnit.ofChar '-' :: CodeUnit.space :: (unit :: more ++ rest) := rfl
    refine (stepStream_eq starts (by decide) (by decide) rfl).trans ?_
    exact startLine_itemLine (by rfl) (first.units unit List.mem_cons_self)
  let item := opened.behindItem 0 word rest
  have starts : item.rest = itemLines 0 words ++ ending isClosed := rfl
  have content : item.mode = .content := rfl
  rw [lexemes, enough, run_succ _ (List.cons_ne_nil _ _), begun,
    run_behindDash opened first rfl (stopsScalar_lines 0 words isClosed), run_lines valid isClosed starts content rfl]
  simp [item, opened, behindItem]

/-- A list under a key, with any indentation. -/
theorem lexemes_keyed {key : Text} (named : IsWord key) (indent : Nat) (valid : ∀ word ∈ words, IsWord word)
    (isClosed : Bool) :
    lexemes (key ++ CodeUnit.ofChar ':' :: (itemLines indent words ++ ending isClosed)) =
      ⟨.content, []⟩ :: ⟨.scalar, key⟩ :: ⟨.valueMark, [CodeUnit.ofChar ':']⟩ ::
        (words.flatMap (lineLexemes indent) ++ endingLexemes isClosed) := by
  let rest : Text := CodeUnit.ofChar ':' :: (itemLines indent words ++ ending isClosed)
  have length : words.length ≤ rest.length := by
    have lines := length_itemLines indent words
    simp only [rest, List.length_cons, List.length_append]
    omega
  obtain ⟨fuel, enough⟩ : ∃ fuel, 4 * ((key ++ rest).length + 1) = fuel + 1 + 3 * words.length + 2 := by
    refine ⟨4 * ((key ++ rest).length + 1) - (1 + 3 * words.length + 2), ?_⟩
    simp only [List.length_append]
    omega
  let opened : Scanner := { rest := key ++ rest, mode := .content, done := [⟨.content, []⟩] }
  have begun : Scanner.step { rest := key ++ rest } = opened := by
    obtain ⟨unit, more, rfl⟩ := List.exists_cons_of_ne_nil named.nonempty
    have letter := named.units unit List.mem_cons_self
    have starts : ({ rest := unit :: more ++ rest } : Scanner).rest = unit :: (more ++ rest) := rfl
    refine (stepStream_eq starts (notMem_of_isAlphanumeric letter (by decide)) (isSpaceOrTab_letter letter)
      (startsLineBreak_letter letter)).trans ?_
    exact startLine_letter rfl letter rfl
  let keyed : Scanner := { rest := rest, mode := .content, done := [⟨.scalar, key⟩, ⟨.content, []⟩] }
  have whole : plainLength false opened.indentNext 0 0 (key ++ rest) = key.length := by
    rw [plainLength_letters named.units, plainLength_colon (endsLine_lines indent words isClosed), Nat.zero_add]
  have taken : opened.step = keyed := stepContent_word named rfl rfl whole
  have starts : keyed.rest = rest := rfl
  have content : keyed.mode = .content := rfl
  rw [lexemes, enough, run_succ _ (append_ne_nil named), begun, run_succ _ (append_ne_nil named), taken,
    run_colon valid isClosed starts content rfl]
  simp [keyed]

end Yaml

end BuildPipeline
