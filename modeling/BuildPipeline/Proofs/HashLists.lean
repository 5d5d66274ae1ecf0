import BuildPipeline.Proofs.Fingerprints
import BuildPipeline.Proofs.WordLists
import BuildPipeline.Files.Disk
import BuildPipeline.Pruning
import BuildPipeline.Signals.HashList
import Mathlib.Data.List.TakeWhile

/-! Files that list fingerprints on a line each. A fingerprint without letters is also the
spelling of a number, and so is one with a single `e` among its digits; a file with such
a fingerprint is refused. -/

namespace BuildPipeline

open Yaml

/-- Texts of digits in lower case. -/
def AreHashDigits (text : Text) : Prop :=
  ∀ unit ∈ text, isHashDigit unit = true

/-- The letter that stands before an exponent. -/
def exponentMark : CodeUnit := CodeUnit.ofChar 'e'

/-- Digits only, or digits on both sides of an exponent mark. -/
def SpellsNumber (text : Text) : Prop :=
  areDigits isDigit text = true ∨ ∃ whole exponent, text = whole ++ exponentMark :: exponent ∧
    areDigits isDigit whole = true ∧ areDigits isDigit exponent = true

theorem AreHashDigits.of_append {front back : Text} {unit : CodeUnit} (digits : AreHashDigits (front ++ unit :: back)) :
    AreHashDigits front ∧ AreHashDigits back :=
  ⟨fun _ listed => digits _ (List.mem_append_left _ listed),
    fun _ listed => digits _ (List.mem_append_right _ (.tail _ listed))⟩

namespace Yaml

variable {text whole exponent : Text}

theorem splitSign_digits (digits : AreHashDigits text) : splitSign text = (false, text) := by
  cases text with
  | nil => rfl
  | cons first rest =>
    have minus := ne_of_isHashDigit (digits first List.mem_cons_self) (CodeUnit.ofChar '-') (by decide)
    have plus := ne_of_isHashDigit (digits first List.mem_cons_self) (CodeUnit.ofChar '+') (by decide)
    simp [splitSign, minus, plus]

theorem isSome_exponent? (digits : AreHashDigits exponent) :
    (exponent? exponent).isSome = areDigits isDigit exponent := by
  simp only [exponent?, splitSign_digits digits]
  cases areDigits isDigit exponent <;> rfl

theorem isSome_decimalParts? (digits : AreHashDigits whole) :
    (decimalParts? whole).isSome = areDigits isDigit whole := by
  by_cases decimal : ∀ unit ∈ whole, isDigit unit = true
  · have all : whole.takeWhile isDigit = whole := List.takeWhile_eq_self_iff.2 decimal
    have none : whole.dropWhile isDigit = [] := List.dropWhile_eq_nil_iff.2 decimal
    have allDigits : whole.all isDigit = true := List.all_eq_true.2 decimal
    simp only [decimalParts?, none, all, areDigits, allDigits, Bool.and_true]
    cases whole.isEmpty <;> rfl
  · have letters : whole.all isDigit = false := by simpa [List.all_eq_false] using decimal
    obtain ⟨point, fraction, behind⟩ := List.exists_cons_of_ne_nil fun none : whole.dropWhile isDigit = [] =>
      decimal (List.dropWhile_eq_nil_iff.1 none)
    have left : point ∈ whole.dropWhile isDigit := by
      rw [behind]
      exact List.mem_cons_self
    have digit := digits point ((List.dropWhile_suffix isDigit).subset left)
    have noPoint := ne_of_isHashDigit digit (CodeUnit.ofChar '.') (by decide)
    simp [decimalParts?, behind, noPoint, areDigits, letters]

theorem isExponentMark_eq_false {unit : CodeUnit} (digit : isHashDigit unit = true) (other : unit ≠ exponentMark) :
    isExponentMark unit = false := by
  have upper := ne_of_isHashDigit digit (CodeUnit.ofChar 'E') (by decide)
  rw [isExponentMark, decide_eq_false upper, Bool.or_false]
  exact decide_eq_false other

/-- Without an exponent mark every unit is before it. -/
theorem forall_not_isExponentMark (digits : AreHashDigits text) (unmarked : exponentMark ∉ text) :
    ∀ unit ∈ text, (!isExponentMark unit) = true := fun unit listed => by
  rw [isExponentMark_eq_false (digits unit listed) fun same => unmarked (same ▸ listed), Bool.not_false]

/-- The exponent mark splits a numeral. -/
theorem isSome_decimal?_exponent (front : AreHashDigits whole) (unmarked : exponentMark ∉ whole)
    (back : AreHashDigits exponent) : (decimal? (whole ++ exponentMark :: exponent)).isSome =
      (areDigits isDigit whole && areDigits isDigit exponent) := by
  have plain := forall_not_isExponentMark front unmarked
  have before : (whole ++ exponentMark :: exponent).takeWhile (!isExponentMark ·) = whole := by
    rw [List.takeWhile_append_of_pos plain, List.takeWhile_cons_of_neg (by decide), List.append_nil]
  have behind : (whole ++ exponentMark :: exponent).dropWhile (!isExponentMark ·) = exponentMark :: exponent := by
    rw [List.dropWhile_append_of_pos plain, List.dropWhile_cons_of_neg (by decide)]
  simp only [decimal?, before, behind]
  rw [← isSome_decimalParts? front, ← isSome_exponent? back]
  cases decimalParts? whole <;> cases exponent? exponent <;> rfl

theorem decimal?_eq_none (digits : AreHashDigits text) (unmarked : exponentMark ∉ text) : decimal? text = none := by
  have plain := forall_not_isExponentMark digits unmarked
  have noPoint : CodeUnit.ofChar '.' ∉ text := fun listed => Bool.noConfusion (digits _ listed)
  simp [decimal?, List.takeWhile_eq_self_iff.2 plain, List.dropWhile_eq_nil_iff.2 plain, noPoint]

theorem isSome_decimal? (digits : AreHashDigits text) : (decimal? text).isSome = true ↔
    ∃ whole exponent, text = whole ++ exponentMark :: exponent ∧
      areDigits isDigit whole = true ∧ areDigits isDigit exponent = true := by
  constructor
  case mp =>
    intro decimal
    by_cases marked : exponentMark ∈ text
    · obtain ⟨whole, exponent, rfl, unmarked⟩ := List.eq_append_cons_of_mem marked
      obtain ⟨front, back⟩ := digits.of_append
      rw [isSome_decimal?_exponent front unmarked back, Bool.and_eq_true] at decimal
      exact ⟨whole, exponent, rfl, decimal⟩
    · rw [decimal?_eq_none digits marked] at decimal
      cases decimal
  case mpr =>
    rintro ⟨whole, exponent, rfl, wholeDigits, exponentDigits⟩
    obtain ⟨front, back⟩ := digits.of_append
    have unmarked : exponentMark ∉ whole := fun listed =>
      Bool.noConfusion (List.all_eq_true.1 (Bool.and_eq_true_iff.1 wholeDigits).2 _ listed)
    rw [isSome_decimal?_exponent front unmarked back, wholeDigits, exponentDigits]
    rfl

/-- No digit stands for a base, so only decimal digits make an integer. -/
theorem isSome_integer? (digits : AreHashDigits text) : (integer? text).isSome = areDigits isDigit text := by
  have based (lead : Text) (base : Nat) (test : CodeUnit → Bool) {unit : CodeUnit} (listed : unit ∈ lead)
      (other : isHashDigit unit = false) : basedDigits? lead base test text = none := by
    have apart : lead.isPrefixOf text = false := by
      refine Bool.eq_false_iff.2 fun leads => ?_
      exact Bool.noConfusion (other.symm.trans (digits unit ((List.isPrefixOf_iff_prefix.1 leads).subset listed)))
    simp [basedDigits?, apart]
  have octal := based "0o" 8 isOctalDigit (show CodeUnit.ofChar 'o' ∈ _ by decide +kernel) rfl
  have hexadecimal := based "0x" 16 isHexDigit (show CodeUnit.ofChar 'x' ∈ _ by decide +kernel) rfl
  simp only [integer?, octal, hexadecimal, signedDigits?, splitSign_digits digits, Option.none_or, Option.or_none]
  cases areDigits isDigit text <;> rfl

/-- Every spelling of null, a boolean or a special number is short. -/
theorem notMem_of_longer {texts : List Text} (short : texts.all (·.length ≤ 5) = true) (long : 5 < text.length) :
    text ∉ texts := fun listed =>
  Nat.not_le_of_lt long (of_decide_eq_true (List.all_eq_true.1 short text listed))

theorem isSome_float? (digits : AreHashDigits text) (long : 5 < text.length) :
    (float? text).isSome = (decimal? text).isSome := by
  have finite : text ∉ infinityTexts := notMem_of_longer (by decide +kernel) long
  have real : text ∉ nanTexts := notMem_of_longer (by decide +kernel) long
  simp [float?, special?, splitSign_digits digits, finite, real]

theorem resolvePlain_of_longer (long : 5 < text.length) :
    resolvePlain text = Dialect.numberOrText ((integer? text).or (float? text)) text := by
  have nulls : text ∉ nullTexts := notMem_of_longer (by decide +kernel) long
  have trues : text ∉ trueTexts := notMem_of_longer (by decide +kernel) long
  have falses : text ∉ falseTexts := notMem_of_longer (by decide +kernel) long
  rw [resolvePlain, if_neg nulls, if_neg trues, if_neg falses]
  cases (integer? text).or (float? text) <;> rfl

end Yaml

namespace IsFingerprint

variable {hash : Text} (whole : IsFingerprint hash)

include whole

theorem long : 5 < hash.length := by
  rw [whole.length]
  decide

theorem isSome_number_iff : ((integer? hash).or (float? hash)).isSome = true ↔ SpellsNumber hash := by
  rw [Option.isSome_or, Bool.or_eq_true, isSome_integer? whole.digits, isSome_float? whole.digits whole.long,
    isSome_decimal? whole.digits, SpellsNumber]

theorem resolvePlain_numeral (numeral : SpellsNumber hash) : ∃ value, resolvePlain hash = .number value := by
  obtain ⟨value, spelled⟩ := Option.isSome_iff_exists.1 (whole.isSome_number_iff.2 numeral)
  refine ⟨value, ?_⟩
  rw [resolvePlain_of_longer whole.long, spelled]
  rfl

theorem resolvePlain_eq_text (other : ¬ SpellsNumber hash) : resolvePlain hash = .text hash := by
  have none : (integer? hash).or (float? hash) = none :=
    Option.not_isSome_iff_eq_none.1 fun spelled => other (whole.isSome_number_iff.1 spelled)
  rw [resolvePlain_of_longer whole.long, none]
  rfl

theorem isWord : IsWord hash where
  nonempty := by
    rintro rfl
    exact absurd whole.long (by decide)
  units unit listed := isAlphanumeric_of_isHashDigit (whole.digits unit listed)

theorem trim_eq : hash.trim = hash :=
  Text.trim_of_solid fun unit listed => isBlank_of_isHashDigit (whole.digits unit listed)

end IsFingerprint

/-- Fingerprints leave nothing to clean but repeats. -/
theorem cleanList_fingerprints {hashes : List Text} (whole : ∀ hash ∈ hashes, IsFingerprint hash) :
    cleanList hashes = distinct hashes := by
  have trimmed : hashes.map Text.trim = hashes := by
    conv_rhs => rw [← List.map_id hashes]
    exact List.map_congr_left fun hash listed => (whole hash listed).trim_eq
  have filled : hashes.filter (· ≠ ("" : Text)) = hashes :=
    List.filter_eq_self.2 fun hash listed => decide_eq_true (whole hash listed).isWord.nonempty
  rw [cleanList, trimmed, filled]

/-- A file that lists fingerprints, one on a line. -/
structure HashFile where
  hashes : List Text
  whole : ∀ hash ∈ hashes, IsFingerprint hash
  /-- The list stands under a key, with its lines indented so far. -/
  underKey : Option Nat
  /-- A line break ends the file. -/
  isClosed : Bool

namespace HashFile

variable (file : HashFile)

def lines : List Text :=
  match file.underKey with
  | none => file.hashes.map (itemLine 0)
  | some indent => "hashes:" :: file.hashes.map (itemLine indent)

def text : Text :=
  Text.join "\n" file.lines ++ ending file.isClosed

/-- No fingerprint is spelled as a number, and there is a list under the key. -/
def IsReadable : Prop :=
  (∀ hash ∈ file.hashes, ¬ SpellsNumber hash) ∧ (file.hashes = [] → file.underKey = none)

/-- The list as YAML reads it; without lines there is none. -/
def items : Value :=
  if file.hashes = [] then .null else .list (file.hashes.map fun hash => (resolvePlain hash).value)

def value : Value :=
  match file.underKey with
  | none => file.items
  | some _ => .mapping [("hashes", file.items)]

theorem join_lines (line : Text) (indent : Nat) (words : List Text) :
    Text.join "\n" (line :: words.map (itemLine indent)) = line ++ itemLines indent words := by
  rw [Text.join_cons, itemLines, List.flatMap_map]
  rfl

theorem readYaml_text : readYaml file.text = .ok file.value := by
  obtain ⟨hashes, whole, underKey, isClosed⟩ := file
  have words : ∀ hash ∈ hashes, IsWord hash := fun hash listed => (whole hash listed).isWord
  have key : IsWord "hashes" := ⟨by decide +kernel, List.all_eq_true.1 (by decide +kernel)⟩
  have short : ("hashes" : Text).length ≤ longestKey := by decide +kernel
  have spelled : resolvePlain "hashes" = .text "hashes" := by decide +kernel
  cases underKey with
  | none =>
    cases hashes with
    | nil => exact readYaml_ending isClosed
    | cons hash hashes =>
      obtain ⟨first, others⟩ := List.forall_mem_cons.1 words
      have read := readYaml_list first others isClosed
      rw [← List.append_assoc, ← join_lines] at read
      exact read
  | some indent =>
    have lines : text ⟨hashes, whole, some indent, isClosed⟩ =
        "hashes" ++ CodeUnit.ofChar ':' :: (itemLines indent hashes ++ ending isClosed) := by
      have named : ("hashes:" : Text) = "hashes" ++ [CodeUnit.ofChar ':'] := by decide +kernel
      rw [text, HashFile.lines, join_lines, named]
      simp only [List.append_assoc, List.cons_append, List.nil_append]
    rw [lines]
    cases hashes with
    | nil => exact readYaml_key key short spelled isClosed
    | cons hash hashes =>
      obtain ⟨first, others⟩ := List.forall_mem_cons.1 words
      exact readYaml_keyed key short spelled indent first others isClosed

theorem texts?_items_of_numeral {hash : Text} (listed : hash ∈ file.hashes) (numeral : SpellsNumber hash) :
    file.items.texts? = none := by
  obtain ⟨number, spelled⟩ := (file.whole hash listed).resolvePlain_numeral numeral
  rw [items, if_neg (List.ne_nil_of_mem listed), Value.texts?]
  refine mapM_eq_none_of_mem (List.mem_map_of_mem listed) ?_
  rw [spelled]
  rfl

theorem texts?_items (filled : file.hashes ≠ []) (others : ∀ hash ∈ file.hashes, ¬ SpellsNumber hash) :
    file.items.texts? = some file.hashes := by
  have texts : (file.hashes.map fun hash => (resolvePlain hash).value) = file.hashes.map Value.text :=
    List.map_congr_left fun hash listed => by
      rw [(file.whole hash listed).resolvePlain_eq_text (others hash listed)]
      rfl
  have each (hash : Text) : (Value.text hash).text? = some (id hash) := rfl
  rw [items, if_neg filled, texts, Value.texts?, mapM_map_eq_some id each, List.map_id]

/-- Under a key only a list will do. -/
theorem hashList?_underKey {indent : Nat} (keyed : file.underKey = some indent) :
    hashList? file.value = file.items.texts?.map cleanList := by
  simp [value, keyed, hashList?, Value.member?, Value.members]

theorem hashList?_filled (filled : file.hashes ≠ []) : hashList? file.value = file.items.texts?.map cleanList := by
  cases keyed : file.underKey with
  | none => simp only [value, keyed, items, if_neg filled, hashList?]
  | some indent => exact file.hashList?_underKey keyed

variable {file}

theorem hashList?_value (readable : file.IsReadable) : hashList? file.value = some (distinct file.hashes) := by
  obtain ⟨others, bare⟩ := readable
  by_cases filled : file.hashes = []
  · simp only [value, bare filled, items, filled, if_true, hashList?]
    rfl
  · rw [file.hashList?_filled filled, file.texts?_items filled others, Option.map_some,
      cleanList_fingerprints file.whole]

theorem hashList?_value_eq_none (unreadable : ¬ file.IsReadable) : hashList? file.value = none := by
  by_cases filled : file.hashes = []
  · obtain ⟨indent, keyed⟩ : ∃ indent, file.underKey = some indent := by
      refine Option.ne_none_iff_exists'.1 fun bare => unreadable ⟨?_, fun _ => bare⟩
      simp [filled]
    rw [file.hashList?_underKey keyed, items, if_pos filled]
    rfl
  · obtain ⟨hash, listed, numeral⟩ : ∃ hash ∈ file.hashes, SpellsNumber hash := by
      by_contra none
      exact unreadable ⟨by simpa using none, fun missing => absurd missing filled⟩
    rw [file.hashList?_filled filled, file.texts?_items_of_numeral listed numeral]
    rfl

variable {disk : Disk} {path : Path}

theorem parseHashList_text (name : Text) (readable : file.IsReadable) :
    parseHashList name file.text = .ok (distinct file.hashes) := by
  simp only [parseHashList, readYaml_text, hashList?_value readable]

theorem parseHashList_text_eq_error (name : Text) (unreadable : ¬ file.IsReadable) :
    parseHashList name file.text = .error (.malformed name) := by
  simp only [parseHashList, readYaml_text, hashList?_value_eq_none unreadable]

/-- What reading the file comes to depends on its text alone. -/
theorem readHashList_eq {text : Text} (read : ((FileSystem.readText path : StateM Disk _) disk).1 = .ok text) :
    ((readHashList path : StateM Disk _) disk).1 = parseHashList path.text text := by
  rcases request : (FileSystem.readText path : StateM Disk _) disk with ⟨outcome, after⟩
  rw [request] at read
  obtain rfl : outcome = .ok text := read
  simp only [readHashList, bind, StateT.bind, request]
  rfl

/-- A file gives exactly the fingerprints it lists, so pruning finds those builds and no
others, unless a fingerprint is spelled as a number or nothing stands under the key:
such a file is refused as a whole. -/
theorem listed_unless_numeral (read : ((FileSystem.readText path : StateM Disk _) disk).1 = .ok file.text) :
    (file.IsReadable → ∃ listed, ((readHashList path : StateM Disk _) disk).1 = .ok listed ∧
      listed.Nodup ∧ (∀ hash, hash ∈ listed ↔ hash ∈ file.hashes) ∧
      ∀ (graph : PipelineGraph) (signals : PruneSignals) (options : PruneOptions) (node : SpecNode),
        (PruningPolicy.broken.applies graph { signals with broken := some listed } options node = true ↔
          node.hash ∈ file.hashes) ∧
        (PruningPolicy.available.applies graph { signals with available := some listed } options node = true ↔
          node.hash ∈ file.hashes)) ∧
    (¬ file.IsReadable →
      ((readHashList path : StateM Disk _) disk).1 = .error (.malformed path.text)) := by
  rw [readHashList_eq read]
  constructor
  case left =>
    intro readable
    refine ⟨distinct file.hashes, parseHashList_text _ readable, nodup_distinct _, fun hash => mem_distinct, ?_⟩
    intro graph signals options node
    simp [PruningPolicy.broken, PruningPolicy.available]
  case right => exact parseHashList_text_eq_error _

/-- A fingerprint with letters, and one of digits only. -/
def mixed : HashFile where
  hashes := ["0123456789abcdef0123456789abcdef", "00000000000000000000000000000012"]
  whole := List.forall_mem_cons.2 ⟨.of_all (by decide +kernel) (by decide +kernel),
    List.forall_mem_singleton.2 (.of_all (by decide +kernel) (by decide +kernel))⟩
  underKey := some 2
  isClosed := true

/-- The first of them by itself. -/
def lettered : HashFile where
  hashes := ["0123456789abcdef0123456789abcdef"]
  whole := List.forall_mem_singleton.2 (.of_all (by decide +kernel) (by decide +kernel))
  underKey := none
  isClosed := false

/-- A disk with nothing on it but such a file. -/
def stored (file : HashFile) : Disk where
  store := ⟨[(⟨["hashes"]⟩, .file file.text)]⟩

theorem readText_stored (file : HashFile) :
    ((FileSystem.readText ⟨["hashes"]⟩ : StateM Disk _) file.stored).1 = .ok file.text := rfl

theorem isReadable_lettered : lettered.IsReadable := by
  refine ⟨fun hash listed numeral => ?_, fun _ => rfl⟩
  have whole := lettered.whole hash listed
  obtain rfl := List.mem_singleton.1 listed
  exact absurd (whole.isSome_number_iff.2 numeral) (by decide +kernel)

theorem listed_unless_numeral_mixed :
    (∃ listed, ((readHashList ⟨["hashes"]⟩ : StateM Disk _) lettered.stored).1 = .ok listed ∧
      ∀ hash, hash ∈ listed ↔ hash ∈ lettered.hashes) ∧
    ((readHashList ⟨["hashes"]⟩ : StateM Disk _) mixed.stored).1 = .error (.malformed "/hashes") := by
  have unreadable : ¬ mixed.IsReadable := fun readable =>
    readable.1 "00000000000000000000000000000012" (.tail _ (.head _)) (.inl (by decide +kernel))
  obtain ⟨listed, read, _, exact, _⟩ := (listed_unless_numeral lettered.readText_stored).1 isReadable_lettered
  have path : Path.text ⟨["hashes"]⟩ = "/hashes" := by decide +kernel
  rw [← path]
  exact ⟨⟨listed, read, exact⟩, (listed_unless_numeral mixed.readText_stored).2 unreadable⟩

end HashFile

end BuildPipeline
