import BuildPipeline.Manifest.Source
import BuildPipeline.Proofs.Shapes

/-! Well-formed manifests. A value is accepted just when it is one, and what is reported
about any other value points at a part of it. -/

namespace BuildPipeline

/-- A letter or digit, then letters, digits and any of `._+-`. -/
def IsLegalName (name : Text) : Prop :=
  ∃ first rest, name = first :: rest ∧ isAlphanumeric first = true ∧
    ∀ unit ∈ rest, isAlphanumeric unit = true ∨ unit ∈ Text.ofString "._+-"

namespace Value

def IsPackageName (value : Value) : Prop :=
  ∃ name, value = .text name ∧ IsLegalName name

def IsTextList : Value → Prop := IsListOf IsText

def IsTextMap : Value → Prop := IsMapOf IsText

def IsVariant (value : Value) : Prop :=
  value.IsText ∨ value.IsBoolean ∨ value.IsTextList

def IsVariants : Value → Prop := IsMapOf IsVariant

@[mk_iff] structure IsCompiler (value : Value) : Prop where
  closed : value.HasOnly ["name", "version"]
  name : value.Has "name" IsFilledText
  version : value.Has "version" IsFilledText

@[mk_iff] structure IsSpecEntry (value : Value) : Prop where
  closed : value.HasOnly ["name", "version", "variants", "compiler", "arch", "external", "dependencies"]
  name : value.Has "name" IsPackageName
  version : value.Has "version" IsFilledText
  variants : value.MayHave "variants" IsVariants
  compiler : value.MayHave "compiler" IsCompiler
  arch : value.MayHave "arch" IsFilledText
  external : value.MayHave "external" IsBoolean
  dependencies : value.MayHave "dependencies" IsTextList

/-- What defaults and rules set on a job. -/
@[mk_iff] structure HasAttributes (value : Value) : Prop where
  tags : value.MayHave "tags" IsTextList
  vars : value.MayHave "variables" IsTextMap
  orderHint : value.MayHave "orderHint" IsWholeNumber
  allowFailure : value.MayHave "allowFailure" IsBoolean

@[mk_iff] structure IsDefaults (value : Value) : Prop where
  closed : value.HasOnly ["tags", "variables", "orderHint", "allowFailure"]
  attributes : value.HasAttributes

@[mk_iff] structure IsRuleMatch (value : Value) : Prop where
  closed : value.HasOnly ["package", "version", "compiler", "arch", "variants"]
  package : value.MayHave "package" IsFilledText
  version : value.MayHave "version" IsFilledText
  compiler : value.MayHave "compiler" IsFilledText
  arch : value.MayHave "arch" IsFilledText
  variants : value.MayHave "variants" IsVariants

@[mk_iff] structure IsRule (value : Value) : Prop where
  closed : value.HasOnly ["match", "tags", "variables", "orderHint", "allowFailure"]
  predicate : value.MayHave "match" IsRuleMatch
  attributes : value.HasAttributes

@[mk_iff] structure IsCiConfig (value : Value) : Prop where
  closed : value.HasOnly
    ["target", "defaults", "rules", "script", "beforeScript", "image", "rebuildIndex", "indexScript", "variables",
     "artifactsRoot", "pruneUpToDate", "pruneBroken", "pruneExternal", "affectedOnly"]
  target : value.MayHave "target" IsFilledText
  defaults : value.MayHave "defaults" IsDefaults
  rules : value.MayHave "rules" (IsListOf IsRule)
  script : value.MayHave "script" IsTextList
  beforeScript : value.MayHave "beforeScript" IsTextList
  image : value.MayHave "image" IsText
  rebuildIndex : value.MayHave "rebuildIndex" IsBoolean
  indexScript : value.MayHave "indexScript" IsTextList
  vars : value.MayHave "variables" IsTextMap
  artifactsRoot : value.MayHave "artifactsRoot" IsFilledText
  pruneUpToDate : value.MayHave "pruneUpToDate" IsBoolean
  pruneBroken : value.MayHave "pruneBroken" IsBoolean
  pruneExternal : value.MayHave "pruneExternal" IsBoolean
  affectedOnly : value.MayHave "affectedOnly" IsBoolean

@[mk_iff] structure IsManifest (value : Value) : Prop where
  closed : value.HasOnly ["name", "roots", "specs", "ci"]
  name : value.Has "name" IsFilledText
  roots : value.Has "roots" fun roots => roots.IsTextList ∧ roots ≠ .list []
  specs : value.Has "specs" (IsMapOf IsSpecEntry)
  ci : value.MayHave "ci" IsCiConfig

end Value

namespace Check

theorem Decides.of_iff {check : Check} {shape other : Value → Prop} (decides : check.Decides shape)
    (same : ∀ value, shape value ↔ other value) : check.Decides other where
  accepts location value := (decides.accepts location value).trans (same value)
  inside := decides.inside

theorem isPackageName_iff {name : Text} : isPackageName name = true ↔ IsLegalName name := by
  cases name with
  | nil => simp [isPackageName, IsLegalName]
  | cons first rest =>
    have marks : Text.ofString "._+-" =
        [CodeUnit.ofChar '.', CodeUnit.ofChar '_', CodeUnit.ofChar '+', CodeUnit.ofChar '-'] := rfl
    simp [isPackageName, IsLegalName, isNameRest, marks, or_assoc]

theorem packageName_decides : packageName.Decides Value.IsPackageName where
  accepts location value := by
    cases value with
    | text name =>
      simp only [packageName, Value.IsPackageName, Value.text.injEq, exists_eq_left', ← isPackageName_iff]
      split <;> simp_all [fail]
    | _ => simp [packageName, fail, Value.IsPackageName]
  inside location value fault listed := by
    cases value with
    | text name =>
      simp only [packageName] at listed
      split at listed
      · cases listed
      · exact .here (location_of_mem_fail listed) _
    | _ => exact .here (location_of_mem_fail listed) _

theorem textList_decides : textList.Decides Value.IsTextList :=
  list_decides anyText_decides

theorem textMap_decides : textMap.Decides Value.IsTextMap :=
  mapOf_decides anyText_decides

theorem variantValue_cases {location : Location} {value : Value} {fault : Fault}
    (listed : fault ∈ variantValue location value) :
    fault.location = location ∨ fault ∈ textList location value := by
  cases value with
  | text => cases listed
  | boolean => cases listed
  | _ =>
    simp only [variantValue] at listed
    split at listed
    · cases listed
    · simp only [List.mem_append] at listed
      rcases listed with ((own | own) | other) | own
      · exact .inl (location_of_mem_fail own)
      · exact .inl (location_of_mem_fail own)
      · exact .inr other
      · exact .inl (location_of_mem_fail own)

theorem variantValue_decides : variantValue.Decides Value.IsVariant where
  accepts location value := by
    have texts := textList_decides.accepts location value
    cases value with
    | text => simp [variantValue, Value.IsVariant, Value.IsText]
    | boolean => simp [variantValue, Value.IsVariant, Value.IsBoolean]
    | _ =>
      simp only [Value.IsVariant, ← texts, Value.IsText, Value.IsBoolean, reduceCtorEq, exists_false, false_or]
      simp only [variantValue, textList]
      split <;> simp_all [fail]
  inside location value fault listed := by
    rcases variantValue_cases listed with own | texts
    · exact .here own value
    · exact textList_decides.inside location value fault texts

theorem variants_decides : variants.Decides Value.IsVariants :=
  mapOf_decides variantValue_decides

theorem compiler_decides : compiler.Decides Value.IsCompiler := by
  have record : compiler.Decides _ :=
    record_decides (.cons filledText_decides (.cons filledText_decides .nil))
  refine record.of_iff fun value => ?_
  simp [Value.isRecord_iff, Value.isCompiler_iff, Value.has_iff, and_assoc, and_left_comm]

theorem specEntry_decides : specEntry.Decides Value.IsSpecEntry := by
  have record : specEntry.Decides _ :=
    record_decides (.cons packageName_decides (.cons filledText_decides (.cons variants_decides
      (.cons compiler_decides (.cons filledText_decides (.cons boolean_decides (.cons textList_decides .nil)))))))
  refine record.of_iff fun value => ?_
  simp [Value.isRecord_iff, Value.isSpecEntry_iff, Value.has_iff, and_assoc, and_left_comm]

theorem ruleMatch_decides : ruleMatch.Decides Value.IsRuleMatch := by
  have record : ruleMatch.Decides _ :=
    record_decides (.cons filledText_decides (.cons filledText_decides (.cons filledText_decides
      (.cons filledText_decides (.cons variants_decides .nil)))))
  refine record.of_iff fun value => ?_
  simp [Value.isRecord_iff, Value.isRuleMatch_iff]

theorem attributeFields_decide :
    FieldsDecide attributeFields
      [("tags", Value.IsTextList), ("variables", Value.IsTextMap), ("orderHint", Value.IsWholeNumber),
       ("allowFailure", Value.IsBoolean)] :=
  .cons textList_decides (.cons textMap_decides (.cons integer_decides (.cons boolean_decides .nil)))

theorem defaults_decides : (record [] attributeFields).Decides Value.IsDefaults := by
  refine (record_decides attributeFields_decide).of_iff fun value => ?_
  simp [Value.isRecord_iff, Value.isDefaults_iff, Value.hasAttributes_iff]

theorem rule_decides : rule.Decides Value.IsRule := by
  have record : rule.Decides _ := record_decides (.cons ruleMatch_decides attributeFields_decide)
  refine record.of_iff fun value => ?_
  simp [Value.isRecord_iff, Value.isRule_iff, Value.hasAttributes_iff]

theorem ciConfig_decides : ciConfig.Decides Value.IsCiConfig := by
  have record : ciConfig.Decides _ :=
    record_decides (.cons filledText_decides (.cons defaults_decides (.cons (list_decides rule_decides)
      (.cons textList_decides (.cons textList_decides (.cons anyText_decides (.cons boolean_decides
      (.cons textList_decides (.cons textMap_decides (.cons filledText_decides (.cons boolean_decides
      (.cons boolean_decides (.cons boolean_decides (.cons boolean_decides .nil))))))))))))))
  refine record.of_iff fun value => ?_
  simp [Value.isRecord_iff, Value.isCiConfig_iff]

theorem manifestFields_decide :
    FieldsDecide
      [("name", filledText), ("roots", filledList anyText), ("specs", mapOf specEntry), ("ci", ciConfig)]
      [("name", Value.IsFilledText), ("roots", fun roots => roots.IsTextList ∧ roots ≠ .list []),
       ("specs", Value.IsMapOf Value.IsSpecEntry), ("ci", Value.IsCiConfig)] :=
  .cons filledText_decides (.cons (filledList_decides anyText_decides)
    (.cons (mapOf_decides specEntry_decides) (.cons ciConfig_decides .nil)))

theorem manifest_decides : manifest.Decides Value.IsManifest := by
  refine (record_decides manifestFields_decide).of_iff fun value => ?_
  simp [Value.isRecord_iff, Value.isManifest_iff, Value.has_iff, and_assoc, and_left_comm]

/-- No fault of a manifest stands at a member without a name, whose pointer would be the root's. -/
theorem location_of_mem_manifest {value : Value} {fault : Fault} (listed : fault ∈ manifest [] value) :
    fault.location ≠ [.key []] := by
  rcases manifestFields_decide.mem_record_cases listed with own | ⟨field, known, item, _, steps, _, place, _⟩
  · rw [own]
    nofun
  · have named : ∀ name ∈ [Text.ofString "name", "roots", "specs", "ci"], name ≠ [] := by decide
    rw [place]
    intro same
    exact named field.1 (List.mem_map_of_mem known) (Step.key.inj (List.cons.inj same).1)

end Check

namespace Value

theorem checkManifest_cases (value : Value) :
    (value.IsManifest ∧ value.checkManifest = .ok value.manifest) ∨
      ¬ value.IsManifest ∧ manifestFaults value ≠ [] ∧ value.checkManifest = .error (manifestFaults value) := by
  have decided : manifestFaults value = [] ↔ value.IsManifest := Check.manifest_decides.accepts [] value
  unfold checkManifest
  rw [← decided]
  cases manifestFaults value with
  | nil => exact .inl ⟨rfl, rfl⟩
  | cons fault faults => exact .inr ⟨nofun, nofun, rfl⟩

/-- Well-formed manifests are accepted and nothing else is; what is rejected has faults,
each with the pointer of a value that is there. -/
theorem checkManifest_accepts_iff (value : Value) :
    ((∃ manifest, value.checkManifest = .ok manifest) ↔ value.IsManifest) ∧
    ∀ faults, value.checkManifest = .error faults →
      faults ≠ [] ∧ ∀ fault ∈ faults, ∃ inner, value.Leads (pointerNames fault.path) inner := by
  rcases value.checkManifest_cases with ⟨shaped, accepted⟩ | ⟨misshapen, some, rejected⟩
  · refine ⟨⟨fun _ => shaped, fun _ => ⟨_, accepted⟩⟩, fun faults rejected => ?_⟩
    exact nomatch accepted.symm.trans rejected
  · refine ⟨⟨fun ⟨_, accepted⟩ => ?_, fun shaped => absurd shaped misshapen⟩, fun faults also => ?_⟩
    · exact nomatch rejected.symm.trans accepted
    · obtain rfl : manifestFaults value = faults := Except.error.inj (rejected.symm.trans also)
      refine ⟨some, fun fault listed => ?_⟩
      obtain ⟨steps, inner, place, leads⟩ := Check.manifest_decides.inside [] value fault listed
      have place : fault.location = steps := place
      refine ⟨inner, ?_⟩
      rw [Fault.path, pointerNames_pointer (Check.location_of_mem_manifest listed), place]
      exact leads

end Value

namespace SlashedKey

/-- An entry lacks its version, and a member is not known. -/
def value : Value :=
  .mapping
    [("name", .text "demo"), ("roots", .list [.text "a/b~"]),
     ("specs", .mapping [("a/b~", .mapping [("name", .text "a")])]), ("extra", .null)]

def faults : List Fault :=
  [⟨[], .unknownMember⟩, ⟨[.key "specs", .key "a/b~"], .missingMember "version"⟩]

theorem rejected : value.checkManifest = .error faults :=
  rfl

end SlashedKey

open SlashedKey in
theorem Value.checkManifest_accepts_iff_slashedKey :
    value.checkManifest = .error faults ∧ faults.map Fault.path = ["/", "/specs/a~1b~0"] ∧ ¬ value.IsManifest ∧
      ∃ inner, value.Leads ["specs", "a/b~"] inner := by
  obtain ⟨accepts, reports⟩ := Value.checkManifest_accepts_iff value
  refine ⟨rejected, by decide, fun shaped => ?_, ?_⟩
  · obtain ⟨_, accepted⟩ := accepts.2 shaped
    exact nomatch rejected.symm.trans accepted
  · exact (reports faults rejected).2 ⟨[.key "specs", .key "a/b~"], .missingMember "version"⟩ (by decide)

end BuildPipeline
