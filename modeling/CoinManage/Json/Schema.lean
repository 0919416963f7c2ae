import CoinManage.Json.Value
import CoinManage.Ledger.Contracts

/-!
# Schemas over JSON values

A schema complains about a value under a path, and gives back what it accepts: a strict object lists
its fields in the schema's order.

* `Schema.Respects`   a schema does not look at the order of keys;
* `Schema.Keeps`      what it gives back is the value it was given, up to the order of keys;
* `strict_respects`, `strict_keeps` and their siblings   every schema built here does both.
-/

set_option linter.unusedSectionVars false

namespace Json
open Fields

/-- a schema; `none` is a missing field -/
structure Schema where
  issues : (path : String) → Option Json → List ZodIssue
  output : Json → Json

/-- a string, for schemas that want one -/
def string? : Option Json → Option String
  | some (.string s) => some s
  | _ => none

def number? : Option Json → Option JsNumber
  | some (.number n) => some n
  | _ => none

def items? : Option Json → Option (List Json)
  | some (.array items) => some items
  | _ => none

def fields? : Option Json → Option (List (String × Json))
  | some (.object fields) => some fields
  | _ => none

def join (path key : String) : String := if path = "" then key else path ++ "." ++ key

namespace Schema

/-- `z.string()` and its checks -/
def string (check : String → String → List ZodIssue) : Schema where
  issues path v := match string? v with
    | some s => check path s
    | none => [⟨path, "invalid_type"⟩]
  output v := v

/-- `z.literal(..)` of a string -/
def literal (expected : String) : Schema where
  issues path v := if string? v = some expected then [] else [⟨path, "invalid_literal"⟩]
  output v := v

/-- `z.enum([..])` -/
def enum (values : List String) : Schema where
  issues path v := match string? v with
    | some s => if s ∈ values then [] else [⟨path, "invalid_enum_value"⟩]
    | none => [⟨path, "invalid_type"⟩]
  output v := v

/-- `z.number()` and its checks -/
def number (check : String → JsNumber → List ZodIssue) : Schema where
  issues path v := match number? v with
    | some n => if n = .nan then [⟨path, "invalid_type"⟩] else check path n
    | none => [⟨path, "invalid_type"⟩]
  output v := v

/-- `.optional()` -/
def optional (s : Schema) : Schema where
  issues path v := if v.isNone then [] else s.issues path v
  output := s.output

def itemIssues (s : Schema) (path : String) : Nat → List Json → List ZodIssue
  | _, [] => []
  | i, item :: items => s.issues (join path (toString i)) (some item) ++ itemIssues s path (i + 1) items

/-- `z.array(s).min(least)` -/
def array (s : Schema) (least : Nat) : Schema where
  issues path v := match items? v with
    | some items => (if items.length < least then [⟨path, "too_small"⟩] else []) ++
        itemIssues s path 0 items
    | none => [⟨path, "invalid_type"⟩]
  output
    | .array items => .array (items.map s.output)
    | v => v

def fieldIssues (shape : List (String × Schema)) (path : String) (fields : List (String × Json)) :
    List ZodIssue :=
  shape.flatMap fun field => field.2.issues (join path field.1) (fields.lookup field.1)

def outputFields (shape : List (String × Schema)) (fields : List (String × Json)) :
    List (String × Json) :=
  shape.filterMap fun field => (fields.lookup field.1).map fun v => (field.1, field.2.output v)

/-- `z.object(shape).strict()` -/
def strict (shape : List (String × Schema)) : Schema where
  issues path v := match fields? v with
    | some fields => fieldIssues shape path fields ++
        (if fields.all fun field => decide (field.1 ∈ names shape) then []
          else [⟨path, "unrecognized_keys"⟩])
    | none => [⟨path, "invalid_type"⟩]
  output
    | .object fields => .object (outputFields shape fields)
    | v => v

/-- `schema.parse(value)` -/
def parse (s : Schema) (v : Json) : Except LedgerError Json :=
  if s.issues "" (some v) = [] then .ok (s.output v) else .error (.zod (s.issues "" (some v)))

/-! ## the order of keys -/

/-- the issues depend on the value only -/
def Respects (s : Schema) : Prop :=
  ∀ path a b, a.map value = b.map value → s.issues path a = s.issues path b

/-- what is accepted is given back -/
def Keeps (s : Schema) : Prop := ∀ path v, s.issues path (some v) = [] →
  value (s.output v) = value v ∧ (Valid v → Valid (s.output v))

/-- a value and another with the same fields in some order -/
inductive Alike : Option Json → Option Json → Prop
  | none : Alike none none
  | scalar (v : Json) (scalar : v.isScalar) : Alike (some v) (some v)
  | array (items items' : List Json) (same : items.map value = items'.map value) :
      Alike (some (.array items)) (some (.array items'))
  | object (fields fields' : List (String × Json))
      (same : ∀ key, (fields.lookup key).map value = (fields'.lookup key).map value) :
      Alike (some (.object fields)) (some (.object fields'))

theorem alike_of_value {a b : Option Json} (h : a.map value = b.map value) : Alike a b := by
  cases a with
  | none => rw [Option.map_eq_none_iff.mp h.symm]; exact .none
  | some v =>
    obtain ⟨w, rfl, hw⟩ := Option.map_eq_some_iff.mp h.symm
    cases v with
    | array items =>
      cases w with
      | array items' =>
        rw [value_array, value_array] at hw
        exact .array _ _ (Value.array.inj hw).symm
      | _ => cases hw
    | object fields =>
      cases w with
      | object fields' => exact .object _ _ fun key => (value_object_inj.mp hw key).symm
      | _ => cases hw
    | _ =>
      cases w with
      | array items => cases hw
      | object fields => cases hw
      | _ =>
        rw [value_scalar_inj rfl rfl hw]
        exact .scalar _ rfl

theorem string?_congr {a b : Option Json} (h : a.map value = b.map value) : string? a = string? b := by
  cases alike_of_value h <;> rfl

theorem number?_congr {a b : Option Json} (h : a.map value = b.map value) : number? a = number? b := by
  cases alike_of_value h <;> rfl

theorem string_respects (check : String → String → List ZodIssue) : (string check).Respects := by
  intro path a b h
  simp only [string, string?_congr h]

theorem literal_respects (expected : String) : (literal expected).Respects := by
  intro path a b h
  simp only [literal, string?_congr h]

theorem enum_respects (values : List String) : (enum values).Respects := by
  intro path a b h
  simp only [enum, string?_congr h]

theorem number_respects (check : String → JsNumber → List ZodIssue) : (number check).Respects := by
  intro path a b h
  simp only [number, number?_congr h]

theorem optional_respects {s : Schema} (hs : s.Respects) : s.optional.Respects := by
  intro path a b h
  have hnone : a.isNone = b.isNone := by
    cases alike_of_value h <;> rfl
  simp only [optional, hs path a b h, hnone]

theorem itemIssues_congr {s : Schema} (hs : s.Respects) (path : String) (i : Nat)
    {items items' : List Json} (h : items.map value = items'.map value) :
    itemIssues s path i items = itemIssues s path i items' := by
  induction items generalizing i items' with
  | nil =>
    cases items' with
    | nil => rfl
    | cons item' items' => cases h
  | cons item items ih =>
    cases items' with
    | nil => cases h
    | cons item' items' =>
      obtain ⟨hitem, hitems⟩ := List.cons.inj h
      rw [itemIssues, itemIssues, ih (i + 1) hitems,
        hs _ (some item) (some item') (congrArg some hitem)]

theorem array_respects {s : Schema} (hs : s.Respects) (least : Nat) : (s.array least).Respects := by
  intro path a b h
  cases alike_of_value h with
  | none => rfl
  | scalar => rfl
  | array items items' same =>
    have hlength : items.length = items'.length := by
      rw [← List.length_map (f := value), same, List.length_map]
    show (if items.length < least then _ else _) ++ itemIssues s path 0 items =
      (if items'.length < least then _ else _) ++ itemIssues s path 0 items'
    rw [hlength, itemIssues_congr hs path 0 same]
  | object => rfl

theorem mem_names_congr {fields fields' : List (String × Json)}
    (h : ∀ key, (fields.lookup key).map value = (fields'.lookup key).map value) (key : String) :
    key ∈ names fields ↔ key ∈ names fields' := by
  rw [← lookup_isSome, ← lookup_isSome, ← Option.isSome_map (f := value), h, Option.isSome_map]

theorem all_names {fields : List (String × Json)} {p : String → Bool} :
    (fields.all fun field => p field.1) = true ↔ ∀ key ∈ names fields, p key = true := by
  rw [List.all_eq_true]
  constructor
  · intro h key hkey
    obtain ⟨field, hfield, rfl⟩ := List.mem_map.mp hkey
    exact h field hfield
  · intro h field hfield
    exact h field.1 (List.mem_map_of_mem hfield)

theorem strict_respects {shape : List (String × Schema)} (hshape : ∀ field ∈ shape, field.2.Respects) :
    (strict shape).Respects := by
  intro path a b h
  cases alike_of_value h with
  | none => rfl
  | scalar => rfl
  | array => rfl
  | object fields fields' same =>
    have hfields : fieldIssues shape path fields = fieldIssues shape path fields' := by
      apply List.flatMap_congr
      intro field hfield
      exact hshape field hfield _ _ _ (same field.1)
    have hknown : (fields.all fun field => decide (field.1 ∈ names shape)) =
        fields'.all fun field => decide (field.1 ∈ names shape) := by
      rw [Bool.eq_iff_iff, all_names (p := fun key => decide (key ∈ names shape)),
        all_names (p := fun key => decide (key ∈ names shape))]
      simp only [mem_names_congr same]
    show fieldIssues shape path fields ++ _ = fieldIssues shape path fields' ++ _
    rw [hfields, hknown]

/-! ## what is given back -/

theorem string_keeps (check : String → String → List ZodIssue) : (string check).Keeps :=
  fun _ _ _ => ⟨rfl, id⟩

theorem literal_keeps (expected : String) : (literal expected).Keeps := fun _ _ _ => ⟨rfl, id⟩

theorem enum_keeps (values : List String) : (enum values).Keeps := fun _ _ _ => ⟨rfl, id⟩

theorem number_keeps (check : String → JsNumber → List ZodIssue) : (number check).Keeps :=
  fun _ _ _ => ⟨rfl, id⟩

theorem optional_keeps {s : Schema} (hs : s.Keeps) : s.optional.Keeps := fun path v h => hs path v h

theorem itemIssues_nil {s : Schema} {path : String} {i : Nat} {items : List Json}
    (h : itemIssues s path i items = []) : ∀ v ∈ items, ∃ path, s.issues path (some v) = [] := by
  induction items generalizing i with
  | nil => exact nofun
  | cons item items ih =>
    obtain ⟨hitem, hitems⟩ := List.append_eq_nil_iff.mp h
    intro v hv
    rcases List.mem_cons.mp hv with rfl | hv
    · exact ⟨_, hitem⟩
    · exact ih hitems v hv

theorem array_keeps {s : Schema} (hs : s.Keeps) (least : Nat) : (s.array least).Keeps := by
  intro path v h
  cases v with
  | array items =>
    have hitems : ∀ v ∈ items, value (s.output v) = value v ∧ (Valid v → Valid (s.output v)) := by
      intro v hv
      obtain ⟨path', hok⟩ := itemIssues_nil (List.append_eq_nil_iff.mp h).2 v hv
      exact hs path' v hok
    constructor
    · show value (.array (items.map s.output)) = value (.array items)
      rw [value_array, value_array, List.map_map]
      congr 1
      apply List.map_congr_left
      intro v hv
      exact (hitems v hv).1
    · intro hvalid
      show Valid (.array (items.map s.output))
      rw [valid_array]
      intro w hw
      obtain ⟨v, hv, rfl⟩ := List.mem_map.mp hw
      exact (hitems v hv).2 (valid_array.mp hvalid v hv)
  | _ => exact ⟨rfl, id⟩

theorem lookup_outputFields {shape : List (String × Schema)} (hnd : (names shape).Nodup)
    (fields : List (String × Json)) (key : String) :
    (outputFields shape fields).lookup key =
      (shape.lookup key).bind fun s => (fields.lookup key).map s.output := by
  induction shape with
  | nil => rfl
  | cons field shape ih =>
    obtain ⟨name, s⟩ := field
    obtain ⟨hname, hrest⟩ := List.nodup_cons.mp hnd
    rw [outputFields, List.filterMap_cons, lookup_cons_eq]
    have hmore : List.lookup key (shape.filterMap fun field => (fields.lookup field.1).map fun v =>
        (field.1, field.2.output v)) = _ := ih hrest
    by_cases hkey : key = name
    · subst hkey
      rw [if_pos rfl]
      cases hv : fields.lookup key with
      | none =>
        show List.lookup key (shape.filterMap _) = none
        rw [hmore, lookup_eq_none.mpr hname]
        rfl
      | some v =>
        show ((key, s.output v) :: shape.filterMap _).lookup key = some (s.output v)
        rw [lookup_cons_eq, if_pos rfl]
    · rw [if_neg hkey]
      cases hv : fields.lookup name with
      | none => exact hmore
      | some v =>
        show ((name, s.output v) :: shape.filterMap _).lookup key = _
        rw [lookup_cons_eq, if_neg hkey]
        exact hmore

theorem names_outputFields_sublist (shape : List (String × Schema)) (fields : List (String × Json)) :
    (names (outputFields shape fields)).Sublist (names shape) := by
  induction shape with
  | nil => exact List.Sublist.refl _
  | cons field shape ih =>
    rw [outputFields, List.filterMap_cons]
    cases fields.lookup field.1 with
    | none => exact ih.cons _
    | some v => exact ih.cons_cons _

theorem strict_keeps {shape : List (String × Schema)} (hnd : (names shape).Nodup)
    (hshape : ∀ field ∈ shape, field.2.Keeps) : (strict shape).Keeps := by
  intro path v h
  cases v with
  | object fields =>
    obtain ⟨hissues, hknown⟩ := List.append_eq_nil_iff.mp h
    have hall : (fields.all fun field => decide (field.1 ∈ names shape)) = true := by
      by_contra hno
      rw [if_neg hno] at hknown
      cases hknown
    have hmem := (all_names (p := fun key => decide (key ∈ names shape))).mp hall
    have hfield : ∀ key s v, shape.lookup key = some s → fields.lookup key = some v →
        value (s.output v) = value v ∧ (Valid v → Valid (s.output v)) := by
      intro key s v hs hv
      have hnone : s.issues (join path key) (fields.lookup key) = [] :=
        List.flatMap_eq_nil_iff.mp hissues (key, s) (mem_of_lookup hs)
      rw [hv] at hnone
      exact hshape (key, s) (mem_of_lookup hs) _ v hnone
    constructor
    · show value (.object (outputFields shape fields)) = value (.object fields)
      rw [value_object_inj]
      intro key
      rw [lookup_outputFields hnd]
      cases hv : fields.lookup key with
      | none => cases shape.lookup key <;> rfl
      | some v =>
        have hkey : key ∈ names fields := lookup_isSome.mp (by rw [hv]; rfl)
        have hin := of_decide_eq_true (hmem key hkey)
        obtain ⟨s, hs⟩ := Option.isSome_iff_exists.mp (lookup_isSome.mpr hin)
        rw [hs]
        exact congrArg some (hfield key s v hs hv).1
    · intro hvalid
      have hvalues := (valid_object.mp hvalid).2
      have hnames := (names_outputFields_sublist shape fields).nodup hnd
      show Valid (.object (outputFields shape fields))
      refine valid_object.mpr ⟨hnames, ?_⟩
      rintro ⟨key, w⟩ hw
      have hlookup := lookup_of_mem hnames hw
      rw [lookup_outputFields hnd] at hlookup
      obtain ⟨s, hs, hmap⟩ := Option.bind_eq_some_iff.mp hlookup
      obtain ⟨v, hv, rfl⟩ := Option.map_eq_some_iff.mp hmap
      exact (hfield key s v hs hv).2 (hvalues _ (mem_of_lookup hv))
  | _ => exact ⟨rfl, id⟩

theorem parse_ok {s : Schema} {v w : Json} :
    parse s v = .ok w ↔ s.issues "" (some v) = [] ∧ s.output v = w := by
  unfold parse
  split
  · next h => simp [h]
  · next h => simp [h]

end Schema

end Json
