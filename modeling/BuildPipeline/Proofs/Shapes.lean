import BuildPipeline.Manifest.Check
import BuildPipeline.Proofs.Pointers
import BuildPipeline.Proofs.Tables

/-! Shapes of values, and the checks that decide them. A check that decides a shape
also reports its faults at places inside the value. -/

namespace BuildPipeline

namespace Value

def IsText (value : Value) : Prop :=
  ∃ text, value = .text text

def IsFilledText (value : Value) : Prop :=
  ∃ text, value = .text text ∧ text ≠ []

def IsBoolean (value : Value) : Prop :=
  ∃ switch, value = .boolean switch

/-- Neither a fraction nor one of the values that are no number. -/
def IsWholeNumber (value : Value) : Prop :=
  ∃ whole : Int, value = .number (.finite whole)

def IsListOf (shape : Value → Prop) (value : Value) : Prop :=
  ∃ items, value = .list items ∧ ∀ item ∈ items, shape item

def IsMapOf (shape : Value → Prop) (value : Value) : Prop :=
  ∃ members, value = .mapping members ∧ ∀ key item, (key, item) ∈ members → shape item

/-- A mapping without other keys than these. -/
def HasOnly (value : Value) (keys : List Text) : Prop :=
  ∃ members, value = .mapping members ∧ ∀ key item, (key, item) ∈ members → key ∈ keys

def Has (value : Value) (key : Text) (shape : Value → Prop) : Prop :=
  ∃ item, value.member? key = some item ∧ shape item

def MayHave (value : Value) (key : Text) (shape : Value → Prop) : Prop :=
  ∀ item, value.member? key = some item → shape item

theorem has_iff {value : Value} {key : Text} {shape : Value → Prop} :
    value.Has key shape ↔ (∃ item, value.member? key = some item) ∧ value.MayHave key shape := by
  constructor
  · rintro ⟨item, found, shaped⟩
    exact ⟨⟨item, found⟩, fun other also => Option.some.inj (found.symm.trans also) ▸ shaped⟩
  · rintro ⟨⟨item, found⟩, shaped⟩
    exact ⟨item, found, shaped item found⟩

/-- A mapping of the listed fields, with those that are required. -/
@[mk_iff] structure IsRecord (required : List Text) (shapes : List (Text × (Value → Prop))) (value : Value) : Prop where
  closed : value.HasOnly (shapes.map Prod.fst)
  complete : ∀ key ∈ required, ∃ item, value.member? key = some item
  fitting : ∀ field ∈ shapes, value.MayHave field.1 field.2

end Value

/-- A fault at a place that steps lead to, from a value at a location. -/
def Fault.Inside (fault : Fault) (location : Location) (value : Value) : Prop :=
  ∃ steps inner, fault.location = location ++ steps ∧ value.Leads (steps.map Step.name) inner

namespace Fault.Inside

variable {fault : Fault} {location : Location}

theorem here (same : fault.location = location) (value : Value) : fault.Inside location value :=
  ⟨[], value, by rw [same, List.append_nil], .here value⟩

theorem key {members : List (Text × Value)} {key : Text} {item : Value} (listed : (key, item) ∈ members)
    (inside : fault.Inside (location ++ [.key key]) item) : fault.Inside location (.mapping members) := by
  obtain ⟨steps, inner, place, leads⟩ := inside
  exact ⟨.key key :: steps, inner, by simp [place], .key listed leads⟩

theorem item {items : List Value} {index : Nat} {item : Value} (listed : items[index]? = some item)
    (inside : fault.Inside (location ++ [.item index]) item) : fault.Inside location (.list items) := by
  obtain ⟨steps, inner, place, leads⟩ := inside
  exact ⟨.item index :: steps, inner, by simp [place], .item listed leads⟩

end Fault.Inside

namespace Check

structure Decides (check : Check) (shape : Value → Prop) : Prop where
  accepts : ∀ location value, check location value = [] ↔ shape value
  inside : ∀ location value, ∀ fault ∈ check location value, fault.Inside location value

variable {check : Check} {shape : Value → Prop} {location : Location} {fault : Fault}

theorem location_of_mem_fail {problem : Problem} (listed : fault ∈ fail location problem) :
    fault.location = location := by
  rw [List.mem_singleton.1 listed]

theorem anyText_decides : anyText.Decides Value.IsText where
  accepts location value := by
    cases value <;> simp [anyText, fail, Value.IsText]
  inside location value fault listed := by
    cases value with
    | text => cases listed
    | _ => exact .here (location_of_mem_fail listed) _

theorem filledText_decides : filledText.Decides Value.IsFilledText where
  accepts location value := by
    cases value with
    | text text =>
      have empty : (Text.ofString "") = [] := rfl
      simp [filledText, fail, Value.IsFilledText, empty]
    | _ => simp [filledText, fail, Value.IsFilledText]
  inside location value fault listed := by
    cases value with
    | text text =>
      simp only [filledText] at listed
      split at listed
      · exact .here (location_of_mem_fail listed) _
      · cases listed
    | _ => exact .here (location_of_mem_fail listed) _

theorem boolean_decides : boolean.Decides Value.IsBoolean where
  accepts location value := by
    cases value <;> simp [boolean, fail, Value.IsBoolean]
  inside location value fault listed := by
    cases value with
    | boolean => cases listed
    | _ => exact .here (location_of_mem_fail listed) _

theorem isInteger_iff {number : Number} : number.isInteger = true ↔ ∃ whole : Int, number = .finite whole := by
  cases number with
  | finite value =>
    simp only [Number.isInteger, beq_iff_eq, Number.finite.injEq]
    constructor
    · exact fun whole => ⟨value.num, (Rat.den_eq_one_iff value).1 whole |>.symm⟩
    · rintro ⟨whole, rfl⟩
      exact Rat.den_intCast whole
  | _ => simp [Number.isInteger]

theorem integer_decides : integer.Decides Value.IsWholeNumber where
  accepts location value := by
    cases value with
    | number number =>
      simp only [integer, Value.IsWholeNumber, Value.number.injEq, ← isInteger_iff]
      split <;> simp_all [fail]
    | _ => simp [integer, fail, Value.IsWholeNumber]
  inside location value fault listed := by
    cases value with
    | number number =>
      simp only [integer] at listed
      split at listed
      · cases listed
      · exact .here (location_of_mem_fail listed) _
    | _ => exact .here (location_of_mem_fail listed) _

theorem eachItem_accepts (decides : check.Decides shape) (location : Location) (items : List Value) :
    eachItem check location items = [] ↔ ∀ item ∈ items, shape item := by
  simp only [eachItem, List.flatMap_eq_nil_iff, Prod.forall, decides.accepts]
  constructor
  · intro every item listed
    obtain ⟨index, found⟩ := List.mem_iff_getElem?.1 listed
    exact every item index (List.mem_zipIdx_iff_getElem?.2 found)
  · exact fun every item index listed => every item (List.mem_of_getElem? (List.mem_zipIdx_iff_getElem?.1 listed))

theorem eachItem_inside (decides : check.Decides shape) {items : List Value}
    (listed : fault ∈ eachItem check location items) : fault.Inside location (.list items) := by
  obtain ⟨⟨item, index⟩, found, faulty⟩ := List.mem_flatMap.1 listed
  exact .item (List.mem_zipIdx_iff_getElem?.1 found) (decides.inside _ item fault faulty)

theorem list_decides (decides : check.Decides shape) : (list check).Decides (Value.IsListOf shape) where
  accepts location value := by
    cases value with
    | list items => simp [list, Value.IsListOf, eachItem_accepts decides]
    | _ => simp [list, fail, Value.IsListOf]
  inside location value fault listed := by
    cases value with
    | list items => exact eachItem_inside decides listed
    | _ => exact .here (location_of_mem_fail listed) _

theorem filledList_decides (decides : check.Decides shape) :
    (filledList check).Decides fun value => value.IsListOf shape ∧ value ≠ .list [] where
  accepts location value := by
    cases value with
    | list items =>
      simp only [filledList, List.append_eq_nil_iff, eachItem_accepts decides]
      cases items <;> simp [fail, Value.IsListOf]
    | _ => simp [filledList, fail, Value.IsListOf]
  inside location value fault listed := by
    cases value with
    | list items =>
      rcases List.mem_append.1 listed with empty | faulty
      · split at empty
        · exact .here (location_of_mem_fail empty) _
        · cases empty
      · exact eachItem_inside decides faulty
    | _ => exact .here (location_of_mem_fail listed) _

theorem mapOf_decides (decides : check.Decides shape) : (mapOf check).Decides (Value.IsMapOf shape) where
  accepts location value := by
    cases value with
    | mapping members => simp [mapOf, Value.IsMapOf, decides.accepts]
    | _ => simp [mapOf, fail, Value.IsMapOf]
  inside location value fault listed := by
    cases value with
    | mapping members =>
      obtain ⟨⟨key, item⟩, found, faulty⟩ := List.mem_flatMap.1 listed
      exact .key found (decides.inside _ item fault faulty)
    | _ => exact .here (location_of_mem_fail listed) _

theorem forall_mem_iff_of_forall₂ {α β : Type _} {related : α → β → Prop} {first : α → Prop} {second : β → Prop}
    {lefts : List α} {rights : List β} (each : List.Forall₂ related lefts rights)
    (agree : ∀ left right, related left right → (first left ↔ second right)) :
    (∀ left ∈ lefts, first left) ↔ ∀ right ∈ rights, second right := by
  induction each with
  | nil => simp
  | cons head _ ih => rw [List.forall_mem_cons, List.forall_mem_cons, agree _ _ head, ih]

theorem record_eq_nil_iff {required : List Text} {fields : List (Text × Check)} {members : List (Text × Value)} :
    record required fields location (.mapping members) = [] ↔
      (∀ key ∈ required, key ∈ members.map Prod.fst) ∧ (∀ key ∈ members.map Prod.fst, key ∈ fields.map Prod.fst) ∧
      ∀ field ∈ fields, ∀ item, members.lookup field.1 = some item →
        field.2 (location ++ [.key field.1]) item = [] := by
  simp only [record, List.append_eq_nil_iff, List.flatMap_eq_nil_iff, fail, List.cons_ne_nil, and_assoc,
    List.mem_filter, decide_eq_true_eq, imp_false, not_and, not_not]
  refine and_congr_right fun _ => and_congr_right fun _ => forall_congr' fun field => imp_congr_right fun _ => ?_
  cases members.lookup field.1 <;> simp

/-- Each field's check decides the shape that is listed under the same key. -/
def FieldsDecide (fields : List (Text × Check)) (shapes : List (Text × (Value → Prop))) : Prop :=
  List.Forall₂ (fun field shape => field.1 = shape.1 ∧ field.2.Decides shape.2) fields shapes

namespace FieldsDecide

variable {fields : List (Text × Check)} {shapes : List (Text × (Value → Prop))}

theorem nil : FieldsDecide [] [] :=
  List.Forall₂.nil

theorem cons {key : Text} (decides : check.Decides shape) (rest : FieldsDecide fields shapes) :
    FieldsDecide ((key, check) :: fields) ((key, shape) :: shapes) :=
  List.Forall₂.cons ⟨rfl, decides⟩ rest

theorem names (each : FieldsDecide fields shapes) : fields.map Prod.fst = shapes.map Prod.fst :=
  List.forall₂_eq_eq_eq ▸ List.forall₂_map_left_iff.2 (List.forall₂_map_right_iff.2 (each.imp fun _ _ fits => fits.1))

theorem exists_decides (each : FieldsDecide fields shapes) : ∀ field ∈ fields, ∃ shape, field.2.Decides shape :=
  (forall_mem_iff_of_forall₂ each fun _ shape fits => iff_true_intro ⟨shape.2, fits.2⟩).2 fun _ _ => trivial

/-- A fault of a record is its own or inside one of its fields. -/
theorem mem_record_cases {required : List Text} {value : Value} (each : FieldsDecide fields shapes)
    (listed : fault ∈ record required fields location value) :
    fault.location = location ∨ ∃ field ∈ fields, ∃ item, value.member? field.1 = some item ∧
      fault.Inside (location ++ [.key field.1]) item := by
  cases value with
  | mapping members =>
    simp only [record, List.mem_append, List.mem_flatMap] at listed
    rcases listed with (⟨_, _, own⟩ | ⟨_, _, own⟩) | ⟨field, known, own⟩
    · exact .inl (location_of_mem_fail own)
    · exact .inl (location_of_mem_fail own)
    · split at own
      next item found =>
        obtain ⟨shape, decides⟩ := each.exists_decides field known
        exact .inr ⟨field, known, item, found, decides.inside _ item fault own⟩
      · cases own
  | _ => exact .inl (location_of_mem_fail listed)

end FieldsDecide

theorem record_decides {required : List Text} {fields : List (Text × Check)} {shapes : List (Text × (Value → Prop))}
    (each : FieldsDecide fields shapes) : (record required fields).Decides (Value.IsRecord required shapes) where
  accepts location value := by
    cases value with
    | mapping members =>
      have fitting : (∀ field ∈ fields, ∀ item, members.lookup field.1 = some item →
          field.2 (location ++ [.key field.1]) item = []) ↔
            ∀ shape ∈ shapes, (Value.mapping members).MayHave shape.1 shape.2 := by
        refine forall_mem_iff_of_forall₂ each fun field shape ⟨name, decides⟩ => ?_
        rw [name]
        exact forall_congr' fun item => imp_congr_right fun _ => decides.accepts _ item
      rw [record_eq_nil_iff, each.names, fitting]
      constructor
      · rintro ⟨complete, closed, fitting⟩
        exact ⟨⟨members, rfl, fun key item listed => closed key (List.mem_map_of_mem listed)⟩,
          fun key listed => exists_lookup_of_mem (complete key listed), fitting⟩
      · rintro ⟨⟨_, same, closed⟩, complete, fitting⟩
        obtain rfl := Value.mapping.inj same
        refine ⟨fun key listed => ?_, fun key listed => ?_, fitting⟩
        · obtain ⟨item, found⟩ := complete key listed
          exact List.mem_map_of_mem (mem_of_lookup found)
        · obtain ⟨⟨_, item⟩, there, rfl⟩ := List.mem_map.1 listed
          exact closed _ item there
    | _ => exact ⟨nofun, fun shaped => nomatch shaped.closed⟩
  inside location value fault listed := by
    rcases each.mem_record_cases listed with own | ⟨field, _, item, found, inside⟩
    · exact .here own value
    · cases value with
      | mapping members => exact .key (mem_of_lookup found) inside
      | _ => cases found

end Check

end BuildPipeline
