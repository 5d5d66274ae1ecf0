import BuildPipeline.Proofs.QuotedText
import BuildPipeline.Spec.Payload

/-! What a payload says. Each value in it ends where its own units say, so the
text gives back every field of a build and every fingerprint listed in it. -/

namespace BuildPipeline

theorem Delimited.injective {α : Type _} {encode : α → Text} (delimited : Delimited encode) {left right : α}
    (same : encode left = encode right) : left = right :=
  (delimited left right [] [] (by rw [same])).1

namespace Json

section Joined

variable {α : Type _} {encode : α → Text} {close : CodeUnit}

/-- Every encoded value has a first unit, and it is not the given one. -/
def Avoids (unit : CodeUnit) (encode : α → Text) : Prop :=
  ∀ value, ∃ first rest, encode value = first :: rest ∧ first ≠ unit

theorem delimited_rest (delimited : Delimited encode) (apart : close ≠ 0x2C) :
    Delimited fun items : List α => (items.map encode).flatMap (("," : Text) ++ ·) ++ [close] := by
  intro left
  induction left with
  | nil =>
    intro right after other same
    cases right with
    | nil => exact ⟨rfl, (List.cons.inj same).2⟩
    | cons item rest => exact absurd (List.cons.inj same).1 apart
  | cons item rest ih =>
    intro right after other same
    cases right with
    | nil => exact absurd (List.cons.inj same).1.symm apart
    | cons item' rest' =>
      simp only [List.map_cons, List.flatMap_cons, List.append_assoc] at same
      obtain ⟨rfl, tails⟩ := delimited item item' _ _ (List.append_cancel_left same)
      obtain ⟨rfl, last⟩ := ih rest' after other (by simpa using tails)
      exact ⟨rfl, last⟩

theorem delimited_joined (delimited : Delimited encode) (apart : close ≠ 0x2C) (avoids : Avoids close encode) :
    Delimited fun items : List α => Text.join "," (items.map encode) ++ [close] := by
  intro left right after other same
  cases left with
  | nil =>
    cases right with
    | nil => exact ⟨rfl, (List.cons.inj same).2⟩
    | cons item rest =>
      obtain ⟨first, others, shape, differs⟩ := avoids item
      simp only [List.map_cons, Text.join_cons, shape, List.cons_append, List.append_assoc] at same
      exact absurd (List.cons.inj same).1.symm differs
  | cons item rest =>
    cases right with
    | nil =>
      obtain ⟨first, others, shape, differs⟩ := avoids item
      simp only [List.map_cons, Text.join_cons, shape, List.cons_append, List.append_assoc] at same
      exact absurd (List.cons.inj same).1 differs
    | cons item' rest' =>
      simp only [List.map_cons, Text.join_cons, List.append_assoc] at same
      obtain ⟨rfl, tails⟩ := delimited item item' _ _ same
      obtain ⟨rfl, rest⟩ := delimited_rest delimited apart rest rest' after other (by simpa using tails)
      exact ⟨rfl, rest⟩

theorem delimited_bracketed (opening : Text) (delimited : Delimited encode) (apart : close ≠ 0x2C)
    (avoids : Avoids close encode) :
    Delimited fun items : List α => opening ++ Text.join "," (items.map encode) ++ [close] := by
  intro left right after other same
  simp only [List.append_assoc] at same
  exact delimited_joined delimited apart avoids left right after other
    (by simpa using List.append_cancel_left same)

end Joined

theorem avoids_quote {unit : CodeUnit} (apart : (0x22 : CodeUnit) ≠ unit) : Avoids unit quote :=
  fun _ => ⟨0x22, _, rfl, apart⟩

theorem delimited_texts : Delimited fun texts : List Text => list (texts.map quote) :=
  delimited_bracketed "[" delimited_quote (by decide) (avoids_quote (by decide))

theorem delimited_boolean : Delimited boolean := by
  intro left right after other same
  cases left <;> cases right
  · exact ⟨rfl, List.append_cancel_left same⟩
  · cases same
  · cases same
  · exact ⟨rfl, List.append_cancel_left same⟩

/-- A member gives away its key, and then leaves its value. -/
theorem member_append_inj {key other value content after last : Text}
    (same : member key value ++ after = member other content ++ last) :
    key = other ∧ value ++ after = content ++ last := by
  simp only [member, List.append_assoc] at same
  obtain ⟨keys, rest⟩ := delimited_quote key other _ _ same
  exact ⟨keys, List.append_cancel_left rest⟩

theorem delimited_member {α : Type _} {encode : α → Text} (delimited : Delimited encode) :
    Delimited fun entry : Text × α => member entry.1 (encode entry.2) := by
  rintro ⟨key, value⟩ ⟨other, content⟩ after last same
  obtain ⟨rfl, values⟩ := member_append_inj same
  obtain ⟨rfl, rest⟩ := delimited value content after last values
  exact ⟨rfl, rest⟩

theorem avoids_member {α : Type _} {encode : α → Text} {unit : CodeUnit} (apart : (0x22 : CodeUnit) ≠ unit) :
    Avoids unit fun entry : Text × α => member entry.1 (encode entry.2) :=
  fun _ => ⟨0x22, _, rfl, apart⟩

theorem delimited_object {α : Type _} {encode : α → Text} (delimited : Delimited encode) :
    Delimited fun entries : List (Text × α) => object (entries.map fun entry => (entry.1, encode entry.2)) := by
  intro left right after other same
  simp only [object, List.map_map, Function.comp_def] at same
  exact delimited_bracketed "\x7b" (delimited_member delimited) (by decide) (avoids_member (by decide))
    left right after other same

end Json

namespace SpecContent
open Json

theorem delimited_variantJson : Delimited variantJson := by
  intro left right after other same
  cases left with
  | text value =>
    cases right with
    | text content =>
      obtain ⟨rfl, rest⟩ := delimited_quote value content after other same
      exact ⟨rfl, rest⟩
    | switch content => cases content <;> cases same
    | choices contents => cases same
  | switch value =>
    cases right with
    | text content => cases value <;> cases same
    | switch content =>
      obtain ⟨rfl, rest⟩ := delimited_boolean value content after other same
      exact ⟨rfl, rest⟩
    | choices contents => cases value <;> cases same
  | choices values =>
    cases right with
    | text content => cases same
    | switch content => cases content <;> cases same
    | choices contents =>
      obtain ⟨rfl, rest⟩ := delimited_texts values contents after other same
      exact ⟨rfl, rest⟩

theorem delimited_compilerJson : Delimited compilerJson := by
  rintro ⟨name, version⟩ ⟨name', version'⟩ after other same
  simp only [compilerJson, object, List.map_cons, List.map_nil, Text.join, List.append_assoc] at same
  obtain ⟨_, names⟩ := member_append_inj (List.append_cancel_left same)
  obtain ⟨rfl, rest⟩ := delimited_quote name name' _ _ names
  obtain ⟨_, versions⟩ := member_append_inj (List.append_cancel_left rest)
  obtain ⟨rfl, closing⟩ := delimited_quote version version' _ _ versions
  exact ⟨rfl, List.append_cancel_left closing⟩

inductive Field
  | arch (value : Text)
  | compiler (value : Compiler)
  | dependencies (hashes : List Text)
  | external (value : Bool)
  | name (value : Text)
  | variants (entries : List (Text × VariantValue))
  | version (value : Text)

namespace Field

def key : Field → Text
  | .arch _ => "arch"
  | .compiler _ => "compiler"
  | .dependencies _ => "dependencies"
  | .external _ => "external"
  | .name _ => "name"
  | .variants _ => "variants"
  | .version _ => "version"

def json : Field → Text
  | .arch value | .name value | .version value => quote value
  | .compiler value => compilerJson value
  | .dependencies hashes => list (hashes.map quote)
  | .external value => boolean value
  | .variants entries => object (entries.map fun entry => (entry.1, variantJson entry.2))

/-- The key tells which field it is, and each field's value is delimited. -/
theorem delimited : Delimited fun field : Field => member field.key field.json := by
  intro left right after other same
  obtain ⟨keys, values⟩ := member_append_inj same
  cases left <;> cases right <;> simp only [key] at keys <;> first | exact absurd keys (by decide) | clear same
  case arch.arch value content =>
    obtain ⟨rfl, rest⟩ := delimited_quote value content after other values
    exact ⟨rfl, rest⟩
  case compiler.compiler value content =>
    obtain ⟨rfl, rest⟩ := delimited_compilerJson value content after other values
    exact ⟨rfl, rest⟩
  case dependencies.dependencies value content =>
    obtain ⟨rfl, rest⟩ := delimited_texts value content after other values
    exact ⟨rfl, rest⟩
  case external.external value content =>
    obtain ⟨rfl, rest⟩ := delimited_boolean value content after other values
    exact ⟨rfl, rest⟩
  case name.name value content =>
    obtain ⟨rfl, rest⟩ := delimited_quote value content after other values
    exact ⟨rfl, rest⟩
  case variants.variants value content =>
    obtain ⟨rfl, rest⟩ := delimited_object delimited_variantJson value content after other values
    exact ⟨rfl, rest⟩
  case version.version value content =>
    obtain ⟨rfl, rest⟩ := delimited_quote value content after other values
    exact ⟨rfl, rest⟩

end Field

/-- The members of a payload in key order. -/
def fields (content : SpecContent) (dependencies : List Text) : List Field :=
  content.arch.toList.map .arch ++ content.compiler.toList.map .compiler ++
    [.dependencies (dependencySet dependencies), .external content.isExternal, .name content.name,
      .variants content.normalizedVariants.sortedEntries, .version content.version]

theorem payload_eq (content : SpecContent) (dependencies : List Text) :
    content.payload dependencies = "\x7b" ++
      Text.join "," ((content.fields dependencies).map fun field => member field.key field.json) ++ "\x7d" := by
  obtain ⟨name, version, variants, compiler, arch, external⟩ := content
  cases arch <;> cases compiler <;> rfl

theorem fields_eq_of_payload_eq {left right : SpecContent} {dependencies others : List Text}
    (same : left.payload dependencies = right.payload others) :
    left.fields dependencies = right.fields others := by
  rw [payload_eq, payload_eq] at same
  have avoids : Avoids 0x7D fun field : Field => member field.key field.json :=
    fun _ => ⟨0x22, _, rfl, by decide⟩
  exact (delimited_bracketed "\x7b" Field.delimited (by decide) avoids).injective same

/-- All that a payload tells about a build and its dependencies. -/
structure SamePayload (left right : SpecContent) : Prop where
  arch : left.arch = right.arch
  compiler : left.compiler = right.compiler
  isExternal : left.isExternal = right.isExternal
  name : left.name = right.name
  variants : left.normalizedVariants.sortedEntries = right.normalizedVariants.sortedEntries
  version : left.version = right.version

/-- Fields that may be absent come first, each told apart by its constructor. -/
theorem samePayload_of_fields_eq {left right : SpecContent} {dependencies others : List Text}
    (same : left.fields dependencies = right.fields others) :
    left.SamePayload right ∧ dependencySet dependencies = dependencySet others := by
  simp only [fields] at same
  cases first : left.arch <;> cases second : right.arch <;> cases third : left.compiler <;>
    cases fourth : right.compiler <;> simp [first, second, third, fourth] at same
  case none.none.none.none =>
    obtain ⟨set, external, name, variants, version⟩ := same
    exact ⟨⟨by rw [first, second], by rw [third, fourth], external, name, variants, version⟩, set⟩
  case none.none.some.some =>
    obtain ⟨rfl, set, external, name, variants, version⟩ := same
    exact ⟨⟨by rw [first, second], by rw [third, fourth], external, name, variants, version⟩, set⟩
  case some.some.none.none =>
    obtain ⟨rfl, set, external, name, variants, version⟩ := same
    exact ⟨⟨by rw [first, second], by rw [third, fourth], external, name, variants, version⟩, set⟩
  case some.some.some.some =>
    obtain ⟨rfl, rfl, set, external, name, variants, version⟩ := same
    exact ⟨⟨by rw [first, second], by rw [third, fourth], external, name, variants, version⟩, set⟩

theorem payload_eq_iff {left right : SpecContent} {dependencies others : List Text} :
    left.payload dependencies = right.payload others ↔
      left.SamePayload right ∧ dependencySet dependencies = dependencySet others := by
  constructor
  · exact fun same => samePayload_of_fields_eq (fields_eq_of_payload_eq same)
  · rintro ⟨same, set⟩
    rw [payload_eq, payload_eq, fields, fields, same.arch, same.compiler, same.isExternal, same.name,
      same.variants, same.version, set]

end SpecContent

end BuildPipeline
