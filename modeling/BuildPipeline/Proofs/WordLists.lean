import BuildPipeline.Proofs.WordOutline
import BuildPipeline.Yaml.Reading

/-! Reading words behind dashes. The document is the list of what each word stands for
by itself, or a mapping that has this list under a key. -/

namespace BuildPipeline.Yaml

section Preamble

variable {place : PreamblePlace} {marks : List Mark} {mark : Mark}

theorem readPreamble_nil (place : PreamblePlace) : readPreamble place [] = .ok { stop := place.offset } := rfl

namespace PreambleProgress

variable {progress : PreambleProgress} {indicator : Option Mark}

/-- Besides padding nothing but the indicator has been read. -/
structure ReadsOnly (progress : PreambleProgress) (indicator : Option Mark) : Prop where
  preamble : ∃ hasNewline stop, progress.preamble = { indicator, hasNewline, stop }
  spaced : progress.needsSpace = false
  untabbed : progress.tab = none

/-- Where padding or the indicator is next, only taking it in can fail. -/
theorem ReadsOnly.add_eq (only : progress.ReadsOnly indicator) (mark : Mark) :
    progress.add place mark = progress.take place mark := by
  have space : progress.checkSpace mark = .ok () := by simp [checkSpace, only.spaced]
  have tab : progress.checkTab mark = .ok () := by simp [checkTab, only.untabbed]
  rw [add, space, tab]
  rfl

theorem ReadsOnly.add_padding (only : progress.ReadsOnly indicator) (padding : mark.kind = .newline ∨ IsGap mark) :
    ∃ next, progress.add place mark = .ok next ∧ next.ReadsOnly indicator := by
  obtain ⟨hasNewline, stop, read⟩ := only.preamble
  rw [only.add_eq]
  rcases padding with newline | isGap
  · let next : PreambleProgress :=
      { preamble := { indicator, hasNewline := true, stop }, atLineStart := true, isSpaced := true }
    refine ⟨next, ?_, ⟨true, stop, rfl⟩, rfl, rfl⟩
    simp [take, newline, read, Preamble.hasProperty, next]
  · let next : PreambleProgress :=
      { preamble := progress.preamble, atLineStart := progress.atLineStart, isSpaced := true }
    refine ⟨next, ?_, ⟨hasNewline, stop, read⟩, rfl, rfl⟩
    simp [take, isGap.kind, (by simpa using isGap.untabbed : CodeUnit.ofChar '\t' ∉ mark.text), next]

theorem ReadsOnly.foldlM_padding (only : progress.ReadsOnly indicator) (place : PreamblePlace)
    (padding : IsPadding marks) :
    ∃ next, marks.foldlM (add place) progress = .ok next ∧ next.ReadsOnly indicator := by
  induction marks generalizing progress with
  | nil => exact ⟨progress, rfl, only⟩
  | cons mark marks ih =>
    obtain ⟨first, others⟩ := List.forall_mem_cons.1 padding
    obtain ⟨behind, added, still⟩ := only.add_padding first
    obtain ⟨next, all, last⟩ := ih still others
    exact ⟨next, (foldlM_cons_of_ok added).trans all, last⟩

/-- The mark that announces a node is taken once. -/
theorem ReadsOnly.add_indicator (only : progress.ReadsOnly none) (kind : mark.kind = place.indicator)
    (block : place.indicator = .itemMark ∨ place.indicator = .valueMark) :
    ∃ next, progress.add place mark = .ok next ∧ next.ReadsOnly (some mark) := by
  obtain ⟨hasNewline, stop, read⟩ := only.preamble
  rw [only.add_eq]
  let next : PreambleProgress :=
    { preamble := { indicator := some mark, hasNewline, stop }
      atLineStart := mark.kind = .itemMark || mark.kind = .keyMark, isSpaced := false }
  refine ⟨next, ?_, ⟨hasNewline, stop, rfl⟩, rfl, rfl⟩
  rcases block with item | value
  · simp [take, kind, item, read, Preamble.hasProperty, next]
  · simp [take, kind, value, read, Preamble.hasProperty, next]

theorem ReadsOnly.finish_eq (only : progress.ReadsOnly indicator) (place : PreamblePlace) :
    progress.finish place = .ok progress.preamble := by
  simp [finish, only.spaced, only.untabbed]

end PreambleProgress

/-- A node is announced by one mark with padding around it. -/
theorem readPreamble_announced {before behind : List Mark} (front : IsPadding before)
    (kind : mark.kind = place.indicator) (block : place.indicator = .itemMark ∨ place.indicator = .valueMark)
    (back : IsPadding behind) :
    ∃ hasNewline stop, readPreamble place (before ++ mark :: behind) =
      .ok { indicator := some mark, hasNewline, stop } := by
  let first : PreambleProgress :=
    { preamble := { stop := ((before ++ mark :: behind).getLast?.map Mark.stop).getD place.offset }
      atLineStart := place.atLineStart, isSpaced := place.atLineStart }
  have fresh : first.ReadsOnly none := ⟨⟨false, _, rfl⟩, rfl, rfl⟩
  obtain ⟨second, padded, waits⟩ := fresh.foldlM_padding place front
  obtain ⟨third, taken, found⟩ := waits.add_indicator kind block
  obtain ⟨last, ended, only⟩ := found.foldlM_padding place back
  obtain ⟨hasNewline, stop, read⟩ := only.preamble
  refine ⟨hasNewline, stop, ?_⟩
  have all : (before ++ mark :: behind).foldlM (PreambleProgress.add place) first = .ok last := by
    rw [List.foldlM_append, padded]
    exact (foldlM_cons_of_ok taken).trans ended
  rw [← read, ← only.finish_eq place]
  simp only [readPreamble]
  rw [all]
  rfl

end Preamble

/-- A word as a node: what it stands for goes by its spelling. -/
def wordNode (word : Text) : Node :=
  .scalar {} { style := .plain, text := word, atom := resolvePlain word }

section Composition

variable {key word : Text} {words : List Text} {place : Place} {mark : Mark} {preamble : Preamble}
  (fuel indent : Nat)

theorem bareLines_word (letters : ∀ unit ∈ word, isAlphanumeric unit = true) : bareLines word = [word] := by
  induction word with
  | nil => rfl
  | cons unit word ih =>
    obtain ⟨letter, others⟩ := List.forall_mem_cons.1 letters
    have newline := ne_of_isAlphanumeric letter .newline (by decide)
    have back := ne_of_isAlphanumeric letter (CodeUnit.ofChar '\r') (by decide)
    simp [bareLines, newline, back, ih others]

theorem plainText_word (isWord : IsWord word) : plainText word = .ok word := by
  have lines : foldLines word = word := by
    rw [foldLines, bareLines_word isWord.units]
  obtain ⟨unit, more, rfl⟩ := List.exists_cons_of_ne_nil isWord.nonempty
  have letter := isWord.units unit List.mem_cons_self
  have begins : isBadStart unit = false := by
    rw [isBadStart, List.contains_eq_mem, decide_eq_false (notMem_of_isAlphanumeric letter (by decide +kernel))]
  simp [plainText, begins, lines]

theorem anchor_tag_eq_none (unmarked : preamble.hasProperty = false) :
    preamble.anchor = none ∧ preamble.tag = none := by
  simpa only [Preamble.hasProperty, Bool.or_eq_false_iff, Option.isSome_eq_false_iff, Option.isNone_iff_eq_none]
    using unmarked

theorem properties_eq (unmarked : preamble.hasProperty = false) : preamble.properties {} = .ok {} := by
  simp only [Preamble.properties, Preamble.anchorName, Preamble.tagName, anchor_tag_eq_none unmarked]
  rfl

theorem scalarNode_word (unmarked : preamble.hasProperty = false) : scalarNode {} place .plain word false preamble =
    .ok (wordNode word) := by
  rw [scalarNode, properties_eq unmarked]
  rfl

/-- A word is one node, and line breaks may stand behind it. -/
theorem compose_word (place : Place) (isWord : IsWord word) (kind : mark.kind = .scalar) (text : mark.text = word)
    {trailing : Option (List Mark)} (breaks : ∀ behind ∈ trailing.getD [], behind.kind = .newline)
    (unmarked : preamble.hasProperty = false) :
    ∃ stop, compose {} (fuel + 1) place (.leaf mark trailing) preamble = .ok ⟨wordNode word, stop⟩ := by
  have uncommented : hasKind .comment (trailing.getD []) = false :=
    List.any_eq_false.2 fun behind listed => by simp [breaks behind listed]
  have fillers : (trailing.getD []).all Mark.isFiller = true :=
    List.all_eq_true.2 fun behind listed => by simp [Mark.isFiller, breaks behind listed]
  have allowed : checkTrailing (trailing.getD []) = .ok () := by
    have solid : (trailing.getD []).head?.any (·.kind = .comment) = false := by
      cases marks : trailing.getD [] with
      | nil => rfl
      | cons first others => simp [breaks first (by rw [marks]; exact List.mem_cons_self)]
    simp [checkTrailing, fillers, solid]
  refine ⟨mark.stop + marksLength (trailing.getD []), ?_⟩
  simp only [compose, leafNode, kind, text, uncommented, plainText_word isWord, allowed]
  change (scalarNode {} place .plain word false preamble >>= _) = _
  rw [scalarNode_word unmarked]
  rfl

/-- A finished item adds its word to the list. -/
theorem composeItem_word {entry : Entry Outline} (isWord : IsWord word) (item : IsItem word entry)
    (progress : Progress Node) :
    ∃ stop, composeItem (compose {} (fuel + 1)) {} indent progress entry =
      .ok { progress with found := progress.found ++ [wordNode word], stop } := by
  obtain ⟨before, dash, behind, lead, front, kind, back⟩ := item.lead
  obtain ⟨mark, trailing, value, scalar, text, breaks⟩ := item.value
  obtain ⟨hasNewline, start, announced⟩ := readPreamble_announced front
    (show dash.kind = PreamblePlace.indicator
      { indicator := .itemMark, isFlow := false, following := .of entry.value none
        offset := progress.stop, indent, atLineStart := true } from kind) (.inl rfl) back
  obtain ⟨stop, composed⟩ := compose_word fuel {} isWord scalar text breaks
    (show Preamble.hasProperty { indicator := some dash, hasNewline, stop := start } = false from rfl)
  refine ⟨stop, ?_⟩
  rw [composeItem, lead, announced]
  simp only [bind, Except.bind, value, Composer.orEmpty, Option.isNone_some, Bool.false_eq_true, if_false, composed]
  rfl

/-- Where a node is missing, null stands. -/
theorem compose_nothing (before : List Mark) (unmarked : preamble.hasProperty = false)
    (bare : preamble.hasComment = false) :
    (compose {} fuel).orEmpty {} place none before preamble = .ok ⟨wordNode [], emptyStop preamble.stop before⟩ := by
  simp only [Composer.orEmpty, emptyNode, bare, scalarNode_word unmarked]
  rfl

theorem foldlM_composeItem_words {entries : List (Entry Outline)} (areWords : ∀ word ∈ words, IsWord word)
    (items : List.Forall₂ IsItem words entries) (progress : Progress Node) :
    ∃ stop, entries.foldlM (composeItem (compose {} (fuel + 1)) {} indent) progress =
      .ok { progress with found := progress.found ++ words.map wordNode, stop } := by
  induction items generalizing progress with
  | nil => exact ⟨progress.stop, by simp [pure, Except.pure]⟩
  | cons item _ ih =>
    obtain ⟨isWord, others⟩ := List.forall_mem_cons.1 areWords
    obtain ⟨next, added⟩ := composeItem_word fuel indent isWord item progress
    obtain ⟨stop, all⟩ := ih others { progress with found := progress.found ++ [wordNode _], stop := next }
    refine ⟨stop, (foldlM_cons_of_ok added).trans (all.trans ?_)⟩
    simp

/-- A list of words is a list of their nodes. -/
theorem compose_wordList {outline : Outline} (areWords : ∀ word ∈ words, IsWord word)
    (listed : IsWordList indent words outline) (unmarked : preamble.hasProperty = false) :
    ∃ stop, compose {} (fuel + 2) place outline preamble = .ok ⟨.list {} (words.map wordNode), stop⟩ := by
  obtain ⟨offset, entries, rfl, items⟩ := listed
  obtain ⟨stop, composed⟩ := foldlM_composeItem_words fuel indent areWords items { stop := offset }
  have allowed : checkListPreamble preamble = .ok () := by
    simp only [checkListPreamble, anchor_tag_eq_none unmarked]
    rfl
  refine ⟨stop, ?_⟩
  simp only [compose, properties_eq unmarked, allowed, composed, bind, Except.bind]
  rfl

theorem spansLines_word (isWord : IsWord word) :
    (Outline.leaf ⟨.scalar, word, 0, 0⟩ none).spansLines fuel = false := by
  have unbroken : CodeUnit.newline ∉ word := fun listed => by
    simpa using (isWord.units _ listed).symm.trans (show isAlphanumeric CodeUnit.newline = false by decide)
  simp [Outline.spansLines, hasKind, unbroken]

/-- What the colon behind a key leads to is its value. -/
theorem composeValue_key {marks : List Mark} {lead : Preamble} {value : Option Outline} {node : Node}
    (short : key.length ≤ lead.start + longestKey) (padding : IsPadding marks)
    (simple : holds Outline.isMapping value = false) (composedKey : Composed)
    (composed : ∀ hasNewline start, ∃ stop,
      (compose {} (fuel + 1)).orEmpty {} {} value (colonMark key :: marks)
        { indicator := some (colonMark key), hasNewline, stop := start } = .ok ⟨node, stop⟩) :
    ∃ stop, composeValue (compose {} (fuel + 1)) {} indent true lead composedKey
      { keyEntry key (colonMark key :: marks) with value := value } = .ok (some node, stop) := by
  obtain ⟨hasNewline, start, announced⟩ := readPreamble_announced isPadding_nil
    (show (colonMark key).kind = PreamblePlace.indicator
      { indicator := .valueMark, isFlow := false, following := .of value none
        offset := composedKey.stop, indent, atLineStart := false } from rfl) (.inr rfl) padding
  obtain ⟨stop, valued⟩ := composed hasNewline start
  have allowed : checkBlockValue lead { indicator := some (colonMark key), hasNewline, stop := start }
      (colonMark key) value = .ok () := by
    rw [checkBlockValue, simple, Bool.false_and, if_neg Bool.false_ne_true]
    exact if_neg (Nat.not_lt.2 short)
  refine ⟨stop, ?_⟩
  rw [composeValue]
  change (readPreamble
    { indicator := .valueMark, isFlow := false, following := .of value none
      offset := composedKey.stop, indent, atLineStart := false } ([] ++ colonMark key :: marks) >>= _) = _
  rw [announced]
  change (checkBlockValue _ _ _ value >>= fun _ => _) = _
  rw [allowed]
  change (Composer.orEmpty _ _ _ value (colonMark key :: marks) _ >>= _) = _
  rw [valued]
  rfl

/-- A short word is a key, whatever its value turns out to be. -/
theorem composeMember_key {marks : List Mark} {value : Option Outline} {node : Node}
    (named : IsWord key) (short : key.length ≤ longestKey) (padding : IsPadding marks)
    (simple : holds Outline.isMapping value = false)
    (composed : ∀ hasNewline start, ∃ stop,
      (compose {} (fuel + 1)).orEmpty {} {} value (colonMark key :: marks)
        { indicator := some (colonMark key), hasNewline, stop := start } = .ok ⟨node, stop⟩) :
    ∃ stop, composeMember (compose {} (fuel + 1)) (fuel + 1) {} 0 { stop := 0 }
        { keyEntry key (colonMark key :: marks) with value := value } =
      .ok { found := [(wordNode key, some node)], stop } := by
  obtain ⟨behindKey, asKey⟩ := compose_word fuel { isKey := true } named
    (show (Mark.mk .scalar key 0 0).kind = .scalar from rfl) rfl
    (show ∀ behind ∈ (none : Option (List Mark)).getD [], behind.kind = .newline from fun _ listed => nomatch listed)
    (show Preamble.hasProperty { stop := 0 } = false from rfl)
  obtain ⟨stop, valued⟩ := composeValue_key fuel 0 (show key.length ≤ Preamble.start { stop := 0 } + longestKey by
    simpa [Preamble.start] using short) padding simple ⟨wordNode key, behindKey⟩ composed
  have starts : checkKeyIndent 0 (keyEntry key (colonMark key :: marks)).key = .ok () := rfl
  have flat : checkBlockKey (fuel + 1) 0 { stop := 0 } (keyEntry key (colonMark key :: marks)).key = .ok () := by
    simp [checkBlockKey, holds, keyEntry, spansLines_word _ named]
  refine ⟨stop, ?_⟩
  rw [composeMember]
  change (checkKeyIndent 0 (keyEntry key (colonMark key :: marks)).key >>= fun _ => _) = _
  rw [starts]
  change (checkBlockKey (fuel + 1) 0 { stop := 0 } (keyEntry key (colonMark key :: marks)).key >>= fun _ => _) = _
  rw [flat]
  change (compose {} (fuel + 1) { isKey := true } (.leaf ⟨.scalar, key, 0, 0⟩ none) { stop := 0 } >>= _) = _
  rw [asKey]
  change (composeValue (compose {} (fuel + 1)) {} 0 true { stop := 0 } ⟨wordNode key, behindKey⟩
    { keyEntry key (colonMark key :: marks) with value := value } >>= _) = _
  rw [valued]
  rfl

theorem compose_keyed {marks : List Mark} {value : Option Outline} {node : Node}
    (named : IsWord key) (short : key.length ≤ longestKey) (padding : IsPadding marks)
    (simple : holds Outline.isMapping value = false)
    (composed : ∀ hasNewline start, ∃ stop,
      (compose {} (fuel + 1)).orEmpty {} {} value (colonMark key :: marks)
        { indicator := some (colonMark key), hasNewline, stop := start } = .ok ⟨node, stop⟩) :
    ∃ stop, compose {} (fuel + 2) place (.mapping 0 0 [{ keyEntry key (colonMark key :: marks) with value := value }])
      { stop := 0 } = .ok ⟨.record {} .mapping [(wordNode key, some node)], stop⟩ := by
  obtain ⟨stop, member⟩ := composeMember_key fuel named short padding simple composed
  refine ⟨stop, ?_⟩
  rw [compose, properties_eq (show Preamble.hasProperty { stop := 0 } = false from rfl)]
  change (List.foldlM (composeMember (compose {} (fuel + 1)) (fuel + 1) {} 0) _ _ >>= _) = _
  rw [foldlM_cons_of_ok member]
  rfl

end Composition

section Evaluation

variable (scope : Scope) (fuel : Nat)

theorem evaluate_word (word : Text) : evaluate scope (fuel + 1) (wordNode word) = pure (resolvePlain word).value := by
  rw [wordNode, evaluate]
  rfl

theorem evaluate_wordList (words : List Text) : evaluate scope (fuel + 2) (.list {} (words.map wordNode)) =
    pure (.list (words.map fun word => (resolvePlain word).value)) := by
  rw [evaluate]
  simp only [List.mapM_map, Function.comp_def, evaluate_word]
  simp [Option.forM]

theorem evaluate_keyed {key : Text} (named : IsWord key) (spelled : resolvePlain key = .text key) {node : Node}
    {value : Value} (evaluated : evaluate scope (fuel + 1) node = pure value) :
    evaluate scope (fuel + 4) (.record {} .mapping [(wordNode key, some node)]) = pure (.mapping [(key, value)]) := by
  have unmerged : scope.dialect.isMergeKey (wordNode key) = false := by
    have other : key ≠ mergeText := by
      rintro rfl
      exact Bool.noConfusion (named.units (CodeUnit.ofChar '<') (by decide +kernel))
    simp [Dialect.isMergeKey, wordNode, Node.scalar?, spelled, other]
  have assigned : assignments scope (fuel + 2) (wordNode key, some node) =
      pure [{ node := wordNode key, key := .text key, value }] := by
    simp [assignments, unmerged, evaluate_word, evaluated, spelled, Atom.value]
  have recorded : recordValue scope (fuel + 3) .mapping [(wordNode key, some node)] =
      pure (.mapping [(key, value)]) := by
    simp only [recordValue, List.flatMapM, List.flatMapM.loop, assigned, pure_bind, List.reverse_singleton]
    rfl
  rw [evaluate, recorded]
  rfl

theorem value_of_evaluate {root : Node} {value : Value}
    (evaluated : ∀ scope, evaluate scope evaluationFuel root = pure value) : Reading.value ⟨{}, root⟩ = .ok value := by
  simp only [Reading.value, evaluated]
  rfl

end Evaluation

section Reading

variable {text key word : Text} {words : List Text}

/-- A text that makes one document has the value of that document. -/
theorem readYaml_of_document {outline : Outline} {root : Node} {value : Value}
    (built : partsOf (lexemes text) = .ok [.document 0 [] (some outline) []])
    (composed : ∃ stop, compose {} deepestNesting { isRoot := true } outline { stop := 0 } = .ok ⟨root, stop⟩)
    (evaluated : ∀ scope, evaluate scope evaluationFuel root = pure value) : readYaml text = .ok value := by
  obtain ⟨stop, composed⟩ := composed
  have read : readDocument {} false 0 [] (some outline) [] = .ok ⟨{}, root⟩ := by
    simp only [readDocument, readPreamble_nil, Composer.orEmpty]
    change (compose {} deepestNesting { isRoot := true } outline { stop := 0 } >>= _) = _
    rw [composed]
    rfl
  have added : StreamProgress.add {} (.document 0 [] (some outline) []) = .ok { document := some ⟨{}, root⟩ } := by
    change (readDocument {} false 0 [] (some outline) [] >>= _) = _
    rw [read]
    rfl
  have streamed : readStream [.document 0 [] (some outline) []] = .ok (some ⟨{}, root⟩) := by
    rw [readStream, foldlM_cons_of_ok added]
    rfl
  rw [readYaml, built]
  change (readStream [.document 0 [] (some outline) []] >>= _) = _
  rw [streamed]
  exact value_of_evaluate evaluated

/-- A file without lines has no document. -/
theorem readYaml_ending (isClosed : Bool) : readYaml (ending isClosed) = .ok .null := by
  have nothing : partsOf (lexemes (ending isClosed)) = .ok [] := by cases isClosed <;> rfl
  rw [readYaml, nothing]
  rfl

/-- Words behind dashes are a list of what each of them stands for. -/
theorem readYaml_list (first : IsWord word) (others : ∀ word ∈ words, IsWord word) (isClosed : Bool) :
    readYaml (itemLine 0 word ++ (itemLines 0 words ++ ending isClosed)) =
      .ok (.list ((word :: words).map fun word => (resolvePlain word).value)) := by
  obtain ⟨outline, built, listed⟩ := partsOf_list word words isClosed
  rw [← lexemes_list first others isClosed] at built
  exact readYaml_of_document built (compose_wordList 1248 0 (List.forall_mem_cons.2 ⟨first, others⟩) listed rfl)
    fun scope => evaluate_wordList scope 3748 _

/-- The same list under a key. -/
theorem readYaml_keyed (named : IsWord key) (short : key.length ≤ longestKey) (spelled : resolvePlain key = .text key)
    (indent : Nat) (first : IsWord word) (others : ∀ word ∈ words, IsWord word) (isClosed : Bool) :
    readYaml (key ++ CodeUnit.ofChar ':' :: (itemLines indent (word :: words) ++ ending isClosed)) =
      .ok (.mapping [(key, .list ((word :: words).map fun word => (resolvePlain word).value))]) := by
  have areWords := List.forall_mem_cons.2 ⟨first, others⟩
  obtain ⟨marks, value, built, padding, listed⟩ := partsOf_keyed key indent word words isClosed
  rw [← lexemes_keyed named indent areWords isClosed] at built
  have list : holds Outline.isMapping (some value) = false := by
    obtain ⟨_, _, rfl, _⟩ := listed
    rfl
  exact readYaml_of_document built
    (compose_keyed 1248 named short padding list fun _ _ => compose_wordList 1247 indent areWords listed rfl)
    fun scope => evaluate_keyed scope 3746 named spelled (evaluate_wordList scope 3745 _)

/-- A key with nothing behind it stands for null. -/
theorem readYaml_key (named : IsWord key) (short : key.length ≤ longestKey) (spelled : resolvePlain key = .text key)
    (isClosed : Bool) : readYaml (key ++ CodeUnit.ofChar ':' :: ending isClosed) = .ok (.mapping [(key, .null)]) := by
  obtain ⟨marks, built, padding⟩ := partsOf_key key isClosed
  have cut : lexemes (key ++ CodeUnit.ofChar ':' :: ending isClosed) =
      ⟨.content, []⟩ :: ⟨.scalar, key⟩ :: ⟨.valueMark, [CodeUnit.ofChar ':']⟩ :: endingLexemes isClosed :=
    lexemes_keyed named 0 (List.forall_mem_nil _) isClosed
  rw [← cut] at built
  exact readYaml_of_document built
    (compose_keyed 1248 named short padding rfl fun _ _ => ⟨_, compose_nothing _ _ rfl rfl⟩)
    fun scope => evaluate_keyed scope 3746 named spelled (evaluate_word scope 3746 [])

end Reading

end BuildPipeline.Yaml
