import BuildPipeline.Proofs.FirstFailure
import BuildPipeline.Proofs.WordLexemes
import BuildPipeline.Yaml.Building
import Mathlib.Data.List.Forall2

/-! The outline of words behind dashes. Each line closes the item before it and opens
one of its own, so the list grows by an entry a line. -/

namespace BuildPipeline.Yaml

/-- Blanks that no tab is among. -/
structure IsGap (mark : Mark) : Prop where
  kind : mark.kind = .blanks
  untabbed : mark.text.contains (CodeUnit.ofChar '\t') = false

/-- Line breaks and such blanks. -/
def IsPadding (marks : List Mark) : Prop :=
  ∀ mark ∈ marks, mark.kind = .newline ∨ IsGap mark

/-- One mark that announces a node, with padding around it. -/
def Announces (kind : Kind) (marks : List Mark) : Prop :=
  ∃ before mark behind, marks = before ++ mark :: behind ∧ IsPadding before ∧ mark.kind = kind ∧ IsPadding behind

theorem isPadding_nil : IsPadding [] := fun _ listed => nomatch listed

theorem isPadding_singleton {mark : Mark} (isGap : IsGap mark) : IsPadding [mark] := by
  intro other listed
  rw [List.mem_singleton.1 listed]
  exact .inr isGap

/-- An item of a list that is a word, with at most line breaks behind it. -/
structure IsItem (word : Text) (entry : Entry Outline) : Prop where
  lead : Announces .itemMark entry.lead
  value : ∃ mark trailing, entry.value = some (.leaf mark trailing) ∧ mark.kind = .scalar ∧ mark.text = word ∧
    ∀ behind ∈ trailing.getD [], behind.kind = .newline

/-- A list of the words. -/
def IsWordList (indent : Nat) (words : List Text) (outline : Outline) : Prop :=
  ∃ offset entries, outline = .list offset indent entries ∧ List.Forall₂ IsItem words entries

/-- The entry of a mapping whose value has not begun. -/
def keyEntry (key : Text) (marks : List Mark) : Entry Outline :=
  { key := some (.leaf ⟨.scalar, key, 0, 0⟩ none), between := some marks }

def colonMark (key : Text) : Mark :=
  ⟨.valueMark, [CodeUnit.ofChar ':'], key.length, 0⟩

namespace Builder

variable {builder : Builder} {mark : Mark} {trailing : Option (List Mark)} {offset indent : Nat}
  {last : Entry Outline} {entries : List (Entry Outline)} {rest : List Frame}

theorem pop_leaf (stack : builder.stack = .leaf mark trailing :: .list offset indent (last :: entries) :: rest)
    (waits : last.value = none) : builder.pop = .ok { builder with
      stack := .list offset indent ({ last with value := some (.leaf mark trailing) } :: entries) :: rest } := by
  simp [pop, stack, settle, closeLoose, Frame.splitLoose, Frame.close?, waits]

theorem add_of_taken {after : Builder} {lexeme : Lexeme} (regular : lexeme.kind ∉ [.stray, .scalar, .documentEnd])
    (taken : builder.react (builder.mark lexeme) = .taken after) : builder.add lexeme = .ok (after.advance lexeme) := by
  simp only [List.mem_cons, List.not_mem_nil, or_false, not_or] at regular
  obtain ⟨stray, scalar, ended⟩ := regular
  have kind : (builder.mark lexeme).kind = lexeme.kind := rfl
  have offered : builder.addMark (builder.mark lexeme) = .ok after := by
    simp [addMark, kind, ended, offer, taken]
  simp only [add, stray, scalar, if_false, offered]
  rfl

/-- A scalar ends the indentation of its line before it is looked at. -/
theorem add_scalar_of_taken {after : Builder} {word : Text}
    (taken : react { builder with atLineStart := false } (builder.mark ⟨.scalar, word⟩) = .taken after) :
    builder.add ⟨.scalar, word⟩ = .ok (after.advance ⟨.scalar, word⟩) := by
  have offered : addMark { builder with atLineStart := false } (builder.mark ⟨.scalar, word⟩) = .ok after := by
    have kind : (builder.mark ⟨.scalar, word⟩).kind = .scalar := rfl
    simp [addMark, kind, offer, taken]
  simp only [add]
  change Except.map _ (addMark { builder with atLineStart := false } (builder.mark ⟨.scalar, word⟩)) = _
  rw [offered]
  rfl

/-- A line break closes the word before it. -/
theorem react_newline_leaf (stack : builder.stack = .leaf mark none :: .list offset indent (last :: entries) :: rest)
    (waits : last.value = none) {newline : Mark} (kind : newline.kind = .newline) :
    builder.react newline = .taken { builder with
      stack := .list offset indent ({ last with value := some (.leaf mark (some [newline])) } :: entries) :: rest
      onKeyLine := false } := by
  simp [react, stack, stepLeaf, stepLine, isPassedOnAtEnd, kind, setTop, pop, settle, closeLoose, Frame.splitLoose,
    Frame.close?, waits]

/-- Blanks behind a finished item begin another entry. -/
theorem react_gap_list (stack : builder.stack = .list offset indent (last :: entries) :: rest)
    (done : last.value.isSome = true) {gap : Mark} (kind : gap.kind = .blanks) :
    builder.react gap = .taken { builder with
      stack := .list offset indent ({ lead := [gap] } :: last :: entries) :: rest } := by
  simp [react, stack, stepList, kind, Mark.isFiller, addFiller, done, setTop]

theorem react_gap_open (stack : builder.stack = .list offset indent (last :: entries) :: rest)
    (waits : last.value = none) (keyless : last.between = none) {gap : Mark} (kind : gap.kind = .blanks) :
    builder.react gap = .taken { builder with
      stack := .list offset indent ({ last with lead := last.lead ++ [gap] } :: entries) :: rest } := by
  simp [react, stack, stepList, kind, Mark.isFiller, addFiller, waits, keyless, isDeepComment, setTop]

/-- A dash where the list is indented begins an item. -/
theorem react_dash_list (stack : builder.stack = .list offset indent (last :: entries) :: rest)
    (done : last.value.isSome = true) (level : builder.indent = indent) {dash : Mark} (kind : dash.kind = .itemMark) :
    builder.react dash = .taken { builder with
      stack := .list offset indent ({ lead := [dash] } :: last :: entries) :: rest } := by
  simp [react, stack, stepList, kind, Mark.isFiller, addToList?, Kind.isProperty, level, done, setTop]

theorem react_dash_open (stack : builder.stack = .list offset indent (last :: entries) :: rest)
    (waits : last.value = none) (unmarked : hasKind .itemMark last.lead = false) (level : builder.indent = indent)
    {dash : Mark} (kind : dash.kind = .itemMark) : builder.react dash = .taken { builder with
      stack := .list offset indent ({ last with lead := last.lead ++ [dash] } :: entries) :: rest } := by
  simp [react, stack, stepList, kind, Mark.isFiller, addToList?, Kind.isProperty, level, waits, unmarked, setTop]

/-- A word further to the right goes inside the list. -/
theorem react_word_list (stack : builder.stack = .list offset indent (last :: entries) :: rest)
    (inside : indent < builder.indent) {word : Mark} (kind : word.kind = .scalar) :
    builder.react word = .taken { builder with
      stack := .leaf word none :: .list offset indent (last :: entries) :: rest } := by
  simp [react, stack, stepList, kind, Mark.isFiller, addToList?, Kind.isProperty, Kind.isLeaf, inside, pushInside?,
    open?, setTop, push]

/-- Builders with the word of an item open, behind items that are finished. -/
structure InItem (builder : Builder) (indent : Nat) (rest : List Frame) (words : List Text) (word : Text) : Prop where
  noParts : builder.parts = []
  frames : ∃ mark offset last entries,
    builder.stack = .leaf mark none :: .list offset indent (last :: entries) :: rest ∧
    mark.kind = .scalar ∧ mark.text = word ∧ last.value = none ∧ Announces .itemMark last.lead ∧
    List.Forall₂ IsItem words entries.reverse

/-- Builders with a list of finished items open. -/
structure HasItems (builder : Builder) (indent : Nat) (rest : List Frame) (words : List Text) : Prop where
  noParts : builder.parts = []
  frames : ∃ offset last entries, builder.stack = .list offset indent (last :: entries) :: rest ∧
    last.value.isSome = true ∧ List.Forall₂ IsItem words (last :: entries).reverse

/-- Such builders at the start of a line. -/
structure BehindItems (builder : Builder) (indent : Nat) (rest : List Frame) (words : List Text) : Prop
    extends HasItems builder indent rest words where
  lineStart : builder.atLineStart = true
  unindented : builder.indent = 0

theorem isItem_of_leaf {word : Text} (scalar : mark.kind = .scalar) (text : mark.text = word)
    (dash : Announces .itemMark last.lead) (behind : ∀ behind ∈ trailing.getD [], behind.kind = .newline) :
    IsItem word { last with value := some (.leaf mark trailing) } :=
  ⟨dash, mark, trailing, rfl, scalar, text, behind⟩

theorem forall₂_append_singleton {words : List Text} {word : Text} {done : List (Entry Outline)} {next : Entry Outline}
    (before : List.Forall₂ IsItem words done) (item : IsItem word next) :
    List.Forall₂ IsItem (words ++ [word]) (done ++ [next]) :=
  List.rel_append before (.cons item .nil)

theorem InItem.add_newline {words : List Text} {word : Text} (inItem : InItem builder indent rest words word) :
    ∃ after, builder.add newlineLexeme = .ok after ∧ BehindItems after indent rest (words ++ [word]) := by
  obtain ⟨mark, offset, last, entries, stack, scalar, text, waits, dash, before⟩ := inItem.frames
  refine ⟨_, add_of_taken (by decide) (react_newline_leaf stack waits rfl),
    ⟨inItem.noParts, _, _, _, rfl, rfl, ?_⟩, rfl, rfl⟩
  rw [List.reverse_cons]
  refine forall₂_append_singleton before (isItem_of_leaf scalar text dash fun behind listed => ?_)
  rw [List.mem_singleton.1 listed]
  rfl

/-- The blank and the word behind a dash. -/
theorem foldlM_add_behindDash {words : List Text} (word : Text) (noParts : builder.parts = [])
    (stack : builder.stack = .list offset indent (last :: entries) :: rest) {before : List Mark} {dash : Mark}
    (lead : last.lead = before ++ [dash]) (padding : IsPadding before) (kind : dash.kind = .itemMark)
    (waits : last.value = none) (keyless : last.between = none) (done : List.Forall₂ IsItem words entries.reverse)
    (lineStart : builder.atLineStart = true) (inside : builder.indent = indent + 1) :
    ∃ after, [⟨.blanks, [CodeUnit.space]⟩, ⟨.scalar, word⟩].foldlM add builder = .ok after ∧
      InItem after indent rest words word := by
  let gap := builder.mark ⟨.blanks, [CodeUnit.space]⟩
  have isGap : IsGap gap := ⟨rfl, rfl⟩
  let spaced : Builder := { builder with
    stack := .list offset indent ({ last with lead := last.lead ++ [gap] } :: entries) :: rest
    offset := builder.offset + 1, indent := builder.indent + 1 }
  have first : builder.add ⟨.blanks, [CodeUnit.space]⟩ = .ok spaced := by
    refine (add_of_taken (by decide) (react_gap_open stack waits keyless (show gap.kind = .blanks from rfl))).trans ?_
    simp [advance, lineStart, spaced, gap]
  have inner : indent < spaced.indent := by
    change indent < builder.indent + 1
    omega
  have opened := react_word_list (show ({ spaced with atLineStart := false } : Builder).stack = _ from rfl) inner
    (show (spaced.mark ⟨.scalar, word⟩).kind = .scalar from rfl)
  have dashed : Announces .itemMark (last.lead ++ [gap]) :=
    ⟨before, dash, [gap], by simp [lead], padding, kind, isPadding_singleton isGap⟩
  refine ⟨_, (foldlM_cons_of_ok first).trans ((foldlM_cons_of_ok (add_scalar_of_taken opened)).trans rfl), noParts, ?_⟩
  exact ⟨_, _, _, _, rfl, rfl, rfl, waits, dashed, done⟩

/-- A dash that begins a list, or an item of one, and the word behind it. -/
theorem foldlM_add_dash {words : List Text} (word : Text) (noParts : builder.parts = [])
    (taken : builder.react (builder.mark ⟨.itemMark, [CodeUnit.ofChar '-']⟩) = .taken { builder with
      stack := .list offset indent (last :: entries) :: rest })
    (before : List Mark) (lead : last.lead = before ++ [builder.mark ⟨.itemMark, [CodeUnit.ofChar '-']⟩])
    (padding : IsPadding before) (waits : last.value = none) (keyless : last.between = none)
    (done : List.Forall₂ IsItem words entries.reverse) (lineStart : builder.atLineStart = true)
    (level : builder.indent = indent) :
    ∃ after, [⟨.itemMark, [CodeUnit.ofChar '-']⟩, ⟨.blanks, [CodeUnit.space]⟩, ⟨.scalar, word⟩].foldlM add builder =
      .ok after ∧ InItem after indent rest words word := by
  let dashed : Builder := { builder with
    stack := .list offset indent (last :: entries) :: rest, offset := builder.offset + 1, indent := builder.indent + 1 }
  have first : builder.add ⟨.itemMark, [CodeUnit.ofChar '-']⟩ = .ok dashed := by
    refine (add_of_taken (by decide) taken).trans ?_
    simp [advance, lineStart, dashed]
  rw [foldlM_cons_of_ok first]
  exact foldlM_add_behindDash word noParts rfl lead padding rfl waits keyless done lineStart (congrArg (· + 1) level)

theorem isGap_spaces (builder : Builder) (count : Nat) :
    IsGap (builder.mark ⟨.blanks, List.replicate count CodeUnit.space⟩) := by
  have apart : CodeUnit.ofChar '\t' ≠ CodeUnit.space := by decide
  exact ⟨rfl, by simp [Builder.mark, apart]⟩

/-- One more item on the next line. -/
theorem BehindItems.add_item {words : List Text} (behind : BehindItems builder indent rest words) (word : Text) :
    ∃ after, (itemLexemes indent word).foldlM add builder = .ok after ∧ InItem after indent rest words word := by
  obtain ⟨offset, last, entries, stack, valued, done⟩ := behind.frames
  by_cases outermost : indent = 0
  · subst outermost
    have taken := react_dash_list stack valued behind.unindented
      (show (builder.mark ⟨.itemMark, [CodeUnit.ofChar '-']⟩).kind = .itemMark from rfl)
    rw [itemLexemes, indentLexemes, if_pos rfl, List.nil_append]
    exact foldlM_add_dash word behind.noParts taken [] rfl isPadding_nil rfl rfl done behind.lineStart
      behind.unindented
  · let gap := builder.mark ⟨.blanks, List.replicate indent CodeUnit.space⟩
    have isGap : IsGap gap := isGap_spaces builder indent
    let indented : Builder := { builder with
      stack := .list offset indent ({ lead := [gap] } :: last :: entries) :: rest
      offset := builder.offset + indent, indent := indent }
    have first : builder.add ⟨.blanks, List.replicate indent CodeUnit.space⟩ = .ok indented := by
      have taken := react_gap_list stack valued (show gap.kind = .blanks from rfl)
      refine (add_of_taken (show Kind.blanks ∉ _ by decide) taken).trans ?_
      simp [advance, behind.lineStart, behind.unindented, List.head?_replicate, outermost, indented, gap]
    have taken := react_dash_open (show indented.stack = _ from rfl) rfl rfl rfl
      (show (indented.mark ⟨.itemMark, [CodeUnit.ofChar '-']⟩).kind = .itemMark from rfl)
    rw [itemLexemes, indentLexemes, if_neg outermost, List.singleton_append, foldlM_cons_of_ok first]
    exact foldlM_add_dash word behind.noParts taken [gap] rfl (isPadding_singleton isGap) rfl rfl done
      behind.lineStart rfl

/-- The lines of the further items. -/
theorem InItem.add_lines {before : List Text} {word : Text} (inItem : InItem builder indent rest before word)
    (words : List Text) : ∃ after behind last, (words.flatMap (lineLexemes indent)).foldlM add builder = .ok after ∧
      InItem after indent rest behind last ∧ behind ++ [last] = before ++ word :: words := by
  induction words generalizing builder before word with
  | nil => exact ⟨builder, before, word, rfl, inItem, rfl⟩
  | cons next words ih =>
    obtain ⟨closed, newline, behind⟩ := inItem.add_newline
    obtain ⟨opened, item, inNext⟩ := behind.add_item next
    obtain ⟨after, front, last, lines, inLast, same⟩ := ih inNext
    refine ⟨after, front, last, ?_, inLast, by simp [same]⟩
    rw [List.flatMap_cons, lineLexemes, List.cons_append, foldlM_cons_of_ok newline, List.foldlM_append, item]
    exact lines

theorem finish_eq_of_pop {next : Builder} (popped : builder.pop = .ok next)
    (shorter : builder.stack.length = next.stack.length + 1) : builder.finish = next.finish := by
  have some : builder.stack.isEmpty = false := by
    cases stack : builder.stack <;> simp_all
  rw [finish, shorter, popAll, some]
  simp only [Bool.false_eq_true, if_false, popped]
  rfl

theorem pop_document {start : Nat} {lead : List Mark} {value : Option Outline} {behind : Option (List Mark)}
    (stack : builder.stack = [.document start lead value behind]) : builder.pop = .ok { builder with
      stack := [], parts := .document start lead value (behind.getD []) :: builder.parts } := by
  simp [pop, stack, addPart]

theorem isLoose_eq_false (valued : last.value.isSome = true) : Frame.isLoose indent last = false := by
  simp [Frame.isLoose, Option.isSome_iff_ne_none.1 valued]

theorem pop_list_document (stack : builder.stack = [.list offset indent (last :: entries), .document 0 [] none none])
    (valued : last.value.isSome = true) : builder.pop = .ok { builder with
      stack := [.document 0 [] (some (.list offset indent (last :: entries).reverse)) none] } := by
  simp [pop, stack, settle, Frame.splitLoose, isLoose_eq_false valued, Frame.close?]

/-- What is finished is one document with nothing around it. -/
def FinishesAs (builder : Builder) (outline : Outline) : Prop :=
  builder.finish.map parts = .ok [.document 0 [] (some outline) []]

theorem finishesAs_of_document {outline : Outline} (stack : builder.stack = [.document 0 [] (some outline) none])
    (noParts : builder.parts = []) : builder.FinishesAs outline := by
  rw [FinishesAs, finish_eq_of_pop (pop_document stack) (by rw [stack]; rfl)]
  exact congrArg (fun parts => Except.ok (_ :: parts)) noParts

theorem InItem.exists_pop {words : List Text} {word : Text} (inItem : InItem builder indent rest words word) :
    ∃ next, builder.finish = next.finish ∧ HasItems next indent rest (words ++ [word]) := by
  obtain ⟨mark, offset, last, entries, stack, scalar, text, waits, dash, before⟩ := inItem.frames
  refine ⟨_, finish_eq_of_pop (pop_leaf stack waits) (by simp [stack]), inItem.noParts, _, _, _, rfl, rfl, ?_⟩
  rw [List.reverse_cons]
  exact forall₂_append_singleton before (isItem_of_leaf scalar text dash (by simp))

/-- The list is all there is in the document. -/
theorem HasItems.finishesAs {words : List Text} (has : HasItems builder indent [.document 0 [] none none] words) :
    ∃ outline, builder.FinishesAs outline ∧ IsWordList indent words outline := by
  obtain ⟨offset, last, entries, stack, valued, done⟩ := has.frames
  refine ⟨_, ?_, offset, _, rfl, done⟩
  rw [FinishesAs, finish_eq_of_pop (pop_list_document stack valued) (by simp [stack])]
  exact finishesAs_of_document rfl has.noParts

/-- A last line break makes no difference. -/
theorem InItem.add_ending {words : List Text} {word : Text} (inItem : InItem builder indent rest words word)
    (isClosed : Bool) : ∃ after next, (endingLexemes isClosed).foldlM add builder = .ok after ∧
      after.finish = next.finish ∧ HasItems next indent rest (words ++ [word]) := by
  cases isClosed with
  | false =>
    obtain ⟨next, same, has⟩ := inItem.exists_pop
    exact ⟨builder, next, rfl, same, has⟩
  | true =>
    obtain ⟨after, added, behind⟩ := inItem.add_newline
    exact ⟨after, after, (foldlM_cons_of_ok added).trans rfl, rfl, behind.toHasItems⟩

/-- A builder behind the start of a document. -/
def opened : Builder := { stack := [.document 0 [] none none] }

theorem add_content : add {} ⟨.content, []⟩ = .ok opened := rfl

theorem opened_add_item (word : Text) : ∃ after, (itemLexemes 0 word).foldlM add opened = .ok after ∧
    InItem after 0 [.document 0 [] none none] [] word :=
  foldlM_add_dash word rfl rfl [] rfl isPadding_nil rfl rfl .nil rfl rfl

def keyFrames (key : Text) (marks : List Mark) : List Frame :=
  [.mapping 0 0 [keyEntry key marks], .document 0 [] none none]

/-- A builder behind a key and its colon. -/
def behindKey (key : Text) : Builder where
  stack := keyFrames key [colonMark key]
  atLineStart := false
  offset := key.length + 1
  onKeyLine := true

theorem opened_add_key (key : Text) (lexemes : List Lexeme) :
    (⟨.scalar, key⟩ :: ⟨.valueMark, [CodeUnit.ofChar ':']⟩ :: lexemes).foldlM add opened =
      lexemes.foldlM add (behindKey key) := by
  let named : Builder :=
    { stack := [.leaf ⟨.scalar, key, 0, 0⟩ none, .document 0 [] none none], atLineStart := false, offset := key.length }
  have first : add opened ⟨.scalar, key⟩ = .ok named := by
    simp [add, addMark, opened, Builder.mark, offer, react, stepDocument, Kind.isProperty, Mark.isFiller, pushInside?,
      open?, Kind.isLeaf, setTop, push, advance, named]
  have second : named.add ⟨.valueMark, [CodeUnit.ofChar ':']⟩ = .ok (behindKey key) := rfl
  rw [foldlM_cons_of_ok first, foldlM_cons_of_ok second]

/-- The line break behind a key and its colon. -/
def keyNewline (key : Text) : Mark :=
  ⟨.newline, [CodeUnit.newline], key.length + 1, 0⟩

theorem isPadding_keyNewline (key : Text) : IsPadding [keyNewline key] :=
  List.forall_mem_cons.2 ⟨.inl rfl, isPadding_nil⟩

/-- A line break behind a key belongs to the entry. -/
def behindKeyLine (key : Text) : Builder where
  stack := keyFrames key [colonMark key, keyNewline key]
  offset := key.length + 2

theorem behindKey_add_newline (key : Text) : (behindKey key).add newlineLexeme = .ok (behindKeyLine key) := rfl

/-- A dash on a line of its own begins the value of a key. -/
theorem react_dash_key {key : Text} {marks : List Mark} (stack : builder.stack = keyFrames key marks)
    (line : hasKind .newline marks = true) {dash : Mark} (kind : dash.kind = .itemMark) :
    builder.react dash = .taken { builder with
      stack := .list dash.offset dash.indent [{ lead := [dash] }] :: keyFrames key marks } := by
  simp [react, stack, keyFrames, keyEntry, stepMapping, kind, Mark.isFiller, OpenMapping.of, OpenMapping.add,
    OpenMapping.addOther, OpenMapping.frame, Kind.isProperty, Kind.isLeaf, line, pushInside?, open?, setTop, push]

/-- The first item of a list under a key. -/
theorem behindKeyLine_add_item (key : Text) (indent : Nat) (word : Text) :
    ∃ after marks, (itemLexemes indent word).foldlM add (behindKeyLine key) = .ok after ∧ IsPadding marks ∧
      InItem after indent (keyFrames key (colonMark key :: marks)) [] word := by
  by_cases outermost : indent = 0
  · subst outermost
    have begun := react_dash_key (show (behindKeyLine key).stack = _ from rfl) rfl
      (show ((behindKeyLine key).mark ⟨.itemMark, [CodeUnit.ofChar '-']⟩).kind = .itemMark from rfl)
    obtain ⟨after, added, inItem⟩ := foldlM_add_dash word rfl begun [] rfl isPadding_nil rfl rfl .nil rfl rfl
    exact ⟨after, [keyNewline key], added, isPadding_keyNewline key, inItem⟩
  · let gap := (behindKeyLine key).mark ⟨.blanks, List.replicate indent CodeUnit.space⟩
    have isGap : IsGap gap := isGap_spaces (behindKeyLine key) indent
    let indented : Builder := { behindKeyLine key with
      stack := keyFrames key [colonMark key, keyNewline key, gap]
      offset := key.length + 2 + indent, indent := indent }
    have taken : (behindKeyLine key).react gap = .taken { behindKeyLine key with stack := indented.stack } := rfl
    have first : (behindKeyLine key).add ⟨.blanks, List.replicate indent CodeUnit.space⟩ = .ok indented := by
      refine (add_of_taken (show Kind.blanks ∉ _ by decide) taken).trans ?_
      simp [advance, behindKeyLine, List.head?_replicate, outermost, indented]
    have begun := react_dash_key (show indented.stack = _ from rfl) rfl
      (show (indented.mark ⟨.itemMark, [CodeUnit.ofChar '-']⟩).kind = .itemMark from rfl)
    obtain ⟨after, added, inItem⟩ := foldlM_add_dash word rfl begun [] rfl isPadding_nil rfl rfl .nil rfl rfl
    rw [itemLexemes, indentLexemes, if_neg outermost, List.singleton_append, foldlM_cons_of_ok first]
    exact ⟨after, [keyNewline key, gap], added, List.forall_mem_cons.2 ⟨.inl rfl, isPadding_singleton isGap⟩, inItem⟩

theorem pop_mapping_document {entry : Entry Outline}
    (stack : builder.stack = [.mapping offset indent [entry], .document 0 [] none none])
    (marked : entry.between.isSome = true) : builder.pop = .ok { builder with
      stack := [.document 0 [] (some (.mapping offset indent [entry])) none] } := by
  have solid : Frame.isLoose indent entry = false := by
    simp [Frame.isLoose, Option.isSome_iff_ne_none.1 marked]
  simp [pop, stack, settle, Frame.splitLoose, solid, Frame.close?]

/-- A mapping without the value of its key. -/
theorem finishesAs_key {key : Text} {marks : List Mark} (stack : builder.stack = keyFrames key marks)
    (noParts : builder.parts = []) : builder.FinishesAs (.mapping 0 0 [keyEntry key marks]) := by
  rw [FinishesAs, finish_eq_of_pop (pop_mapping_document stack rfl) (by rw [stack]; rfl)]
  exact finishesAs_of_document rfl noParts

theorem pop_list_key {key : Text} {marks : List Mark}
    (stack : builder.stack = .list offset indent (last :: entries) :: keyFrames key marks)
    (valued : last.value.isSome = true) : builder.pop = .ok { builder with stack :=
      [.mapping 0 0 [{ keyEntry key marks with value := some (.list offset indent (last :: entries).reverse) }],
        .document 0 [] none none] } := by
  simp [pop, stack, keyFrames, keyEntry, settle, closeLoose, Frame.splitLoose, isLoose_eq_false valued, Frame.close?]

/-- The list is the value of the key. -/
theorem HasItems.finishesAs_key {key : Text} {marks : List Mark} {words : List Text}
    (has : HasItems builder indent (keyFrames key marks) words) :
    ∃ value, builder.FinishesAs (.mapping 0 0 [{ keyEntry key marks with value := some value }]) ∧
      IsWordList indent words value := by
  obtain ⟨offset, last, entries, stack, valued, done⟩ := has.frames
  refine ⟨_, ?_, offset, _, rfl, done⟩
  rw [FinishesAs, finish_eq_of_pop (pop_list_key stack valued) (by simp [stack, keyFrames]),
    finish_eq_of_pop (pop_mapping_document rfl rfl) rfl]
  exact finishesAs_of_document rfl has.noParts

end Builder

open Builder

variable {builder : Builder} {words : List Text}

theorem partsOf_eq {lexemes : List Lexeme} {outline : Outline} (built : lexemes.foldlM Builder.add {} = .ok builder)
    (finishes : builder.FinishesAs outline) : partsOf lexemes = .ok [.document 0 [] (some outline) []] := by
  rw [partsOf, built]
  rw [FinishesAs] at finishes
  obtain ⟨closed, ended, parts⟩ := map_eq_ok_iff.1 finishes
  simp [bind, Except.bind, ended, parts, pure, Except.pure]

/-- Lines with a dash make a document of one list. -/
theorem partsOf_list (word : Text) (words : List Text) (isClosed : Bool) :
    ∃ outline, partsOf (⟨.content, []⟩ ::
        (itemLexemes 0 word ++ (words.flatMap (lineLexemes 0) ++ endingLexemes isClosed))) =
      .ok [.document 0 [] (some outline) []] ∧ IsWordList 0 (word :: words) outline := by
  obtain ⟨first, item, inFirst⟩ := opened_add_item word
  obtain ⟨last, before, final, lines, inLast, same⟩ := inFirst.add_lines words
  obtain ⟨after, next, ended, finish, has⟩ := inLast.add_ending isClosed
  obtain ⟨outline, finishes, listed⟩ := has.finishesAs
  rw [same, List.nil_append] at listed
  refine ⟨outline, partsOf_eq ?_ (show after.FinishesAs outline by rwa [FinishesAs, finish]), listed⟩
  rw [foldlM_cons_of_ok add_content, List.foldlM_append, item]
  change List.foldlM add first _ = _
  rw [List.foldlM_append, lines]
  exact ended

/-- Such lines behind a key make a document of one mapping. -/
theorem partsOf_keyed (key : Text) (indent : Nat) (word : Text) (words : List Text) (isClosed : Bool) :
    ∃ marks value, partsOf (⟨.content, []⟩ :: ⟨.scalar, key⟩ :: ⟨.valueMark, [CodeUnit.ofChar ':']⟩ ::
        ((word :: words).flatMap (lineLexemes indent) ++ endingLexemes isClosed)) =
      .ok [.document 0 [] (some (.mapping 0 0
        [{ keyEntry key (colonMark key :: marks) with value := some value }])) []] ∧
      IsPadding marks ∧ IsWordList indent (word :: words) value := by
  obtain ⟨first, marks, item, breaks, inFirst⟩ := behindKeyLine_add_item key indent word
  obtain ⟨last, before, final, lines, inLast, same⟩ := inFirst.add_lines words
  obtain ⟨after, next, ended, finish, has⟩ := inLast.add_ending isClosed
  obtain ⟨value, finishes, listed⟩ := has.finishesAs_key
  rw [same, List.nil_append] at listed
  refine ⟨marks, value, partsOf_eq ?_ (show after.FinishesAs _ by rwa [FinishesAs, finish]), breaks, listed⟩
  rw [foldlM_cons_of_ok add_content, opened_add_key, List.flatMap_cons, lineLexemes, List.cons_append, List.cons_append,
    foldlM_cons_of_ok (behindKey_add_newline key), List.append_assoc, List.foldlM_append, item]
  change List.foldlM add first _ = _
  rw [List.foldlM_append, lines]
  exact ended

/-- A key with nothing behind it has no value. -/
theorem partsOf_key (key : Text) (isClosed : Bool) : ∃ marks,
    partsOf (⟨.content, []⟩ :: ⟨.scalar, key⟩ :: ⟨.valueMark, [CodeUnit.ofChar ':']⟩ :: endingLexemes isClosed) =
      .ok [.document 0 [] (some (.mapping 0 0 [keyEntry key (colonMark key :: marks)])) []] ∧
      IsPadding marks := by
  cases isClosed with
  | false =>
    refine ⟨[], partsOf_eq ?_ (finishesAs_key (show (behindKey key).stack = _ from rfl) rfl), isPadding_nil⟩
    rw [foldlM_cons_of_ok add_content, opened_add_key]
    rfl
  | true =>
    refine ⟨[keyNewline key],
      partsOf_eq ?_ (finishesAs_key (show (behindKeyLine key).stack = _ from rfl) rfl), isPadding_keyNewline key⟩
    rw [foldlM_cons_of_ok add_content, opened_add_key]
    exact foldlM_cons_of_ok (behindKey_add_newline key)

end BuildPipeline.Yaml
