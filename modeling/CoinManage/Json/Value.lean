import CoinManage.Json.Text
import CoinManage.Lib.Fields

/-!
# JSON values up to the order of keys

Two JSON values are equal as values when their `value`s are: an object is the map from its keys to
the values of its fields.  `JSON.stringify(payload, keys)` prints, of every object at every level,
the fields whose names are among `keys`, in the order of `keys` (`pick`).

* `Json.nested`      induction over a value and everything in it;
* `value_pick`       what is printed is the value without the fields that are no `keys`;
* `pick_eq`          and it depends on nothing else.
-/

set_option linter.unusedSectionVars false

namespace Json
open Fields

/-! ## induction -/

@[elab_as_elim]
theorem nested {motive : Json → Prop} (null : motive .null) (bool : ∀ b, motive (.bool b))
    (number : ∀ n, motive (.number n)) (string : ∀ s, motive (.string s))
    (array : ∀ items, (∀ v ∈ items, motive v) → motive (.array items))
    (object : ∀ fields, (∀ field ∈ fields, motive field.2) → motive (.object fields)) :
    ∀ v, motive v
  | .null => null
  | .bool b => bool b
  | .number n => number n
  | .string s => string s
  | .array items => array items fun v _ =>
      nested null bool number string array object v
  | .object fields => object fields fun field _ =>
      nested null bool number string array object field.2
termination_by v => sizeOf v
decreasing_by
  · have := List.sizeOf_lt_of_mem ‹v ∈ items›
    simp only [Json.array.sizeOf_spec]
    omega
  · have := List.sizeOf_lt_of_mem ‹field ∈ fields›
    obtain ⟨key, v⟩ := field
    simp only [Json.object.sizeOf_spec, Prod.mk.sizeOf_spec] at this ⊢
    omega

theorem validItems_iff (items : List Json) : ValidItems items ↔ ∀ v ∈ items, Valid v := by
  induction items with
  | nil => simp [ValidItems]
  | cons v items ih => simp [ValidItems, ih]

theorem validFields_iff (fields : List (String × Json)) :
    ValidFields fields ↔ ∀ field ∈ fields, Valid field.2 := by
  induction fields with
  | nil => simp [ValidFields]
  | cons field fields ih => simp [ValidFields, ih]

theorem valid_array {items : List Json} : Valid (.array items) ↔ ∀ v ∈ items, Valid v :=
  validItems_iff items

theorem valid_object {fields : List (String × Json)} :
    Valid (.object fields) ↔ (names fields).Nodup ∧ ∀ field ∈ fields, Valid field.2 := by
  show _ ∧ ValidFields fields ↔ _
  rw [validFields_iff]
  rfl

/-! ## values -/

/-- a JSON value, an object as the map of its fields -/
inductive Value where
  | null
  | bool (b : Bool)
  | number (n : JsNumber)
  | string (s : String)
  | array (items : List Value)
  | object (field : String → Option Value)

mutual

def value : Json → Value
  | .null => .null
  | .bool b => .bool b
  | .number n => .number n
  | .string s => .string s
  | .array items => .array (valueItems items)
  | .object fields => .object fun key => (valueFields fields).lookup key

def valueItems : List Json → List Value
  | [] => []
  | item :: items => value item :: valueItems items

def valueFields : List (String × Json) → List (String × Value)
  | [] => []
  | (key, v) :: fields => (key, value v) :: valueFields fields

end

theorem valueItems_eq (items : List Json) : valueItems items = items.map value := by
  induction items with
  | nil => rfl
  | cons v items ih => rw [valueItems, ih, List.map_cons]

theorem valueFields_eq (fields : List (String × Json)) : valueFields fields = mapValues value fields := by
  induction fields with
  | nil => rfl
  | cons field fields ih =>
    obtain ⟨key, v⟩ := field
    rw [valueFields, ih]
    rfl

theorem value_array (items : List Json) : value (.array items) = .array (items.map value) := by
  rw [value, valueItems_eq]

theorem value_object (fields : List (String × Json)) :
    value (.object fields) = .object fun key => (fields.lookup key).map value := by
  rw [value, valueFields_eq]
  congr 1
  funext key
  exact lookup_mapValues _ _ _

theorem value_object_inj {fields fields' : List (String × Json)} :
    value (.object fields) = value (.object fields') ↔
      ∀ key, (fields.lookup key).map value = (fields'.lookup key).map value := by
  rw [value_object, value_object]
  constructor
  · intro h
    exact congrFun (Value.object.inj h)
  · intro h
    rw [funext h]

/-! ## the property list of `JSON.stringify` -/

/-- What an object inherits and prints: under `__proto__` it reads `Object.prototype`; everything else
there is a method, and methods are not printed. -/
def inherited (key : String) : Option Json :=
  if key = "__proto__" then some (.object [("__proto__", .null)]) else none

section
variable (keys : List String)

mutual

/-- what `JSON.stringify(value, keys)` prints -/
def pick : Json → Json
  | .array items => .array (pickItems items)
  | .object fields => .object (listed keys fun key => ((pickFields fields).lookup key).or (inherited key))
  | v => v

def pickItems : List Json → List Json
  | [] => []
  | item :: items => pick item :: pickItems items

def pickFields : List (String × Json) → List (String × Json)
  | [] => []
  | (key, v) :: fields => (key, pick v) :: pickFields fields

end

/-- the inherited field of an object that has none of its own by that name -/
def inheritedFields (fields : List (String × Json)) : List (String × Json) :=
  if "__proto__" ∈ keys ∧ "__proto__" ∉ names fields then
    [("__proto__", .object [("__proto__", .null)])] else []

mutual

/-- the value without the fields that are not among `keys`, at every level -/
def keep : Json → Json
  | .array items => .array (keepItems items)
  | .object fields =>
    .object ((keepFields fields).filter (fun field => field.1 ∈ keys) ++ inheritedFields keys fields)
  | v => v

def keepItems : List Json → List Json
  | [] => []
  | item :: items => keep item :: keepItems items

def keepFields : List (String × Json) → List (String × Json)
  | [] => []
  | (key, v) :: fields => (key, keep v) :: keepFields fields

end

theorem pickItems_eq (items : List Json) : pickItems keys items = items.map (pick keys) := by
  induction items with
  | nil => rfl
  | cons v items ih => rw [pickItems, ih, List.map_cons]

theorem pickFields_eq (fields : List (String × Json)) :
    pickFields keys fields = mapValues (pick keys) fields := by
  induction fields with
  | nil => rfl
  | cons field fields ih =>
    obtain ⟨key, v⟩ := field
    rw [pickFields, ih]
    rfl

theorem keepItems_eq (items : List Json) : keepItems keys items = items.map (keep keys) := by
  induction items with
  | nil => rfl
  | cons v items ih => rw [keepItems, ih, List.map_cons]

theorem keepFields_eq (fields : List (String × Json)) :
    keepFields keys fields = mapValues (keep keys) fields := by
  induction fields with
  | nil => rfl
  | cons field fields ih =>
    obtain ⟨key, v⟩ := field
    rw [keepFields, ih]
    rfl

theorem pick_array (items : List Json) : pick keys (.array items) = .array (items.map (pick keys)) := by
  rw [pick, pickItems_eq]

theorem pick_object (fields : List (String × Json)) : pick keys (.object fields) =
    .object (listed keys fun key => ((fields.lookup key).map (pick keys)).or (inherited key)) := by
  rw [pick, pickFields_eq]
  congr 1
  apply listed_congr
  intro key _
  rw [lookup_mapValues]

theorem keep_array (items : List Json) : keep keys (.array items) = .array (items.map (keep keys)) := by
  rw [keep, keepItems_eq]

theorem inherited_lookup {fields : List (String × Json)} {key : String} (h : key ∉ names fields) :
    (inheritedFields keys fields).lookup key = if key ∈ keys then inherited key else none := by
  unfold inheritedFields inherited
  by_cases hkey : key = "__proto__"
  · subst hkey
    by_cases hmem : "__proto__" ∈ keys
    · rw [if_pos ⟨hmem, h⟩, if_pos hmem, if_pos rfl, lookup_cons_eq, if_pos rfl]
    · rw [if_neg (fun hboth => hmem hboth.1), if_neg hmem]
      rfl
  · rw [if_neg hkey]
    split
    · rw [lookup_cons_eq, if_neg hkey]
      split <;> rfl
    · split <;> rfl

/-- the fields of an object that are kept -/
theorem keep_lookup (fields : List (String × Json)) (key : String) :
    ((keepFields keys fields).filter (fun field => field.1 ∈ keys) ++
      inheritedFields keys fields).lookup key =
      if key ∈ keys then ((fields.lookup key).map (keep keys)).or (inherited key) else none := by
  have hown : ((keepFields keys fields).filter (fun field => field.1 ∈ keys)).lookup key =
      if key ∈ keys then (fields.lookup key).map (keep keys) else none := by
    rw [keepFields_eq, lookup_filter (fun key => decide (key ∈ keys)), lookup_mapValues]
    simp only [decide_eq_true_eq]
  rw [List.lookup_append, hown]
  by_cases hmem : key ∈ names fields
  · obtain ⟨v, hv⟩ := Option.isSome_iff_exists.mp (lookup_isSome.mpr hmem)
    rw [hv]
    by_cases hkey : key ∈ keys
    · rw [if_pos hkey, if_pos hkey]
      rfl
    · rw [if_neg hkey, if_neg hkey]
      unfold inheritedFields
      split
      · next h =>
        have hne : key ≠ "__proto__" := by
          rintro rfl
          exact hkey h.1
        rw [lookup_cons_eq, if_neg hne]
        rfl
      · rfl
  · rw [inherited_lookup keys hmem, lookup_eq_none.mpr hmem]
    by_cases hkey : key ∈ keys
    · rw [if_pos hkey, if_pos hkey, if_pos hkey]
    · rw [if_neg hkey, if_neg hkey, if_neg hkey]
      rfl

theorem value_keep_object (fields : List (String × Json)) : value (keep keys (.object fields)) =
    .object fun key => if key ∈ keys then
      (((fields.lookup key).map (keep keys)).or (inherited key)).map value else none := by
  rw [keep, value_object]
  congr 1
  funext key
  rw [keep_lookup]
  split <;> rfl

/-- the printed value, up to the order of keys -/
theorem value_pick (v : Json) : value (pick keys v) = value (keep keys v) := by
  induction v using nested with
  | null => rfl
  | bool b => rfl
  | number n => rfl
  | string s => rfl
  | array items ih =>
    rw [pick_array, keep_array, value_array, value_array, List.map_map, List.map_map]
    congr 1
    exact List.map_congr_left ih
  | object fields ih =>
    rw [pick_object, value_object, value_keep_object]
    congr 1
    funext key
    rw [lookup_listed]
    split
    · cases hv : fields.lookup key with
      | none => rfl
      | some v => exact congrArg some (ih (key, v) (mem_of_lookup hv))
    · rfl

/-- the only field that is inherited, as a value of its own -/
def prototype : Json := .object [("__proto__", .null)]

theorem listed_prototype (hnd : keys.Nodup) (hmem : "__proto__" ∈ keys) :
    listed keys (fun key => if key = "__proto__" then some Json.null else none) =
      [("__proto__", Json.null)] := by
  apply List.perm_singleton.mp
  apply perm_of_lookup
  · exact (names_listed_sublist _ _).nodup hnd
  · exact List.nodup_singleton _
  · intro key
    rw [lookup_listed, lookup_cons_eq]
    by_cases hkey : key = "__proto__"
    · subst hkey
      rw [if_pos hmem, if_pos rfl, if_pos rfl]
    · rw [if_neg hkey, if_neg hkey, ite_self]
      rfl

/-- neither an array nor an object -/
def isScalar : Json → Bool
  | .array _ => false
  | .object _ => false
  | _ => true

theorem keep_scalar {v : Json} (h : v.isScalar) : keep keys v = v := by
  cases v with
  | array items => cases h
  | object fields => cases h
  | _ => rfl

theorem pick_scalar {v : Json} (h : v.isScalar) : pick keys v = v := by
  cases v with
  | array items => cases h
  | object fields => cases h
  | _ => rfl

theorem value_scalar_inj {v w : Json} (hv : v.isScalar) (hw : w.isScalar) (h : value v = value w) :
    v = w := by
  cases v <;> cases w <;> cases hv <;> cases hw <;> cases h <;> rfl

/-- only a scalar is kept as a scalar -/
theorem scalar_of_keep {v w : Json} (hv : v.isScalar) (h : value v = value (keep keys w)) : v = w := by
  cases w with
  | array items =>
    rw [keep_array, value_array] at h
    cases v <;> cases hv <;> cases h
  | object fields =>
    rw [value_keep_object] at h
    cases v <;> cases hv <;> cases h
  | _ => exact value_scalar_inj hv rfl h

theorem pick_prototype (hnd : keys.Nodup) (hmem : "__proto__" ∈ keys) {v : Json}
    (h : value (keep keys v) = value prototype) : pick keys v = prototype := by
  cases v with
  | object fields =>
    rw [value_keep_object, prototype, value_object] at h
    have hfield := congrFun (Value.object.inj h)
    rw [pick_object, prototype, ← listed_prototype keys hnd hmem]
    congr 1
    apply listed_congr
    intro key hkey
    have hvalue := hfield key
    rw [if_pos hkey, lookup_cons_eq] at hvalue
    by_cases hproto : key = "__proto__"
    · rw [if_pos hproto] at hvalue ⊢
      cases hv : fields.lookup key with
      | none =>
        rw [hv, inherited, if_pos hproto] at hvalue
        cases hvalue
      | some v =>
        rw [hv] at hvalue
        have hnull : value (keep keys v) = .null := Option.some.inj hvalue
        rw [← @scalar_of_keep keys .null v rfl hnull.symm]
        rfl
    · rw [if_neg hproto] at hvalue ⊢
      cases hv : fields.lookup key with
      | none =>
        rw [inherited, if_neg hproto]
        rfl
      | some v =>
        rw [hv] at hvalue
        cases hvalue
  | array items =>
    rw [keep_array, value_array] at h
    cases h
  | _ => cases h

theorem map_eq_of_map_eq {α β γ : Type} {f : α → β} {g : α → γ} {as bs : List α}
    (hfg : ∀ a ∈ as, ∀ b ∈ bs, f a = f b → g a = g b) (h : as.map f = bs.map f) : as.map g = bs.map g := by
  induction as generalizing bs with
  | nil =>
    cases bs with
    | nil => rfl
    | cons b bs => cases h
  | cons a as ih =>
    cases bs with
    | nil => cases h
    | cons b bs =>
      obtain ⟨hhead, htail⟩ := List.cons.inj h
      have hrest : as.map g = bs.map g := ih (fun a ha b hb =>
        hfg a (List.mem_cons_of_mem _ ha) b (List.mem_cons_of_mem _ hb)) htail
      rw [List.map_cons, List.map_cons, hfg a List.mem_cons_self b List.mem_cons_self hhead, hrest]

/-- equal values are printed the same -/
theorem pick_eq (hnd : keys.Nodup) {v w : Json} (h : value (keep keys v) = value (keep keys w)) :
    pick keys v = pick keys w := by
  induction v using nested generalizing w with
  | array items ih =>
    cases w with
    | array items' =>
      rw [keep_array, keep_array, value_array, value_array, List.map_map, List.map_map] at h
      rw [pick_array, pick_array]
      congr 1
      exact map_eq_of_map_eq (fun v hv w _ hvw => ih v hv hvw) (Value.array.inj h)
    | object fields =>
      rw [keep_array, value_array, value_keep_object] at h
      cases h
    | _ =>
      rw [keep_array, value_array] at h
      cases h
  | object fields ih =>
    cases w with
    | object fields' =>
      rw [value_keep_object, value_keep_object] at h
      have hfield := congrFun (Value.object.inj h)
      rw [pick_object, pick_object]
      congr 1
      apply listed_congr
      intro key hkey
      have hvalue := hfield key
      simp only [if_pos hkey] at hvalue
      cases hv : fields.lookup key with
      | none =>
        cases hw : fields'.lookup key with
        | none => rfl
        | some w =>
          rw [hv, hw] at hvalue
          show inherited key = some (pick keys w)
          by_cases hproto : key = "__proto__"
          · subst hproto
            have hproto : value prototype = value (keep keys w) := Option.some.inj hvalue
            rw [pick_prototype keys hnd hkey hproto.symm]
            rfl
          · have hnone : inherited key = none := if_neg hproto
            rw [hnone] at hvalue
            cases hvalue
      | some v =>
        have hih := @ih (key, v) (mem_of_lookup hv)
        cases hw : fields'.lookup key with
        | none =>
          rw [hv, hw] at hvalue
          show some (pick keys v) = inherited key
          by_cases hproto : key = "__proto__"
          · subst hproto
            have hproto : value (keep keys v) = value prototype := Option.some.inj hvalue
            rw [pick_prototype keys hnd hkey hproto]
            rfl
          · have hnone : inherited key = none := if_neg hproto
            rw [hnone] at hvalue
            cases hvalue
        | some w =>
          rw [hv, hw] at hvalue
          exact congrArg some (hih (Option.some.inj hvalue))
    | array items =>
      rw [value_keep_object, keep_array, value_array] at h
      cases h
    | _ =>
      rw [value_keep_object] at h
      cases h
  | _ =>
    obtain rfl := scalar_of_keep keys (by rfl) h
    rfl

/-- what is kept of a value depends on the value only -/
theorem keep_congr {v w : Json} (h : value v = value w) :
    value (keep keys v) = value (keep keys w) := by
  induction v using nested generalizing w with
  | array items ih =>
    cases w with
    | array items' =>
      rw [value_array, value_array] at h
      rw [keep_array, keep_array, value_array, value_array, List.map_map, List.map_map]
      congr 1
      exact map_eq_of_map_eq (fun v hv w _ hvw => ih v hv hvw) (Value.array.inj h)
    | _ => cases h
  | object fields ih =>
    cases w with
    | object fields' =>
      have hfield := value_object_inj.mp h
      rw [value_keep_object, value_keep_object]
      congr 1
      funext key
      have hvalue := hfield key
      split
      · cases hv : fields.lookup key with
        | none =>
          rw [hv] at hvalue
          rw [Option.map_eq_none_iff.mp hvalue.symm]
        | some v =>
          rw [hv] at hvalue
          obtain ⟨w, hw, hvw⟩ := Option.map_eq_some_iff.mp hvalue.symm
          rw [hw]
          exact congrArg some (ih (key, v) (mem_of_lookup hv) hvw.symm)
      · rfl
    | _ => cases h
  | _ =>
    cases w with
    | array items => cases h
    | object fields => cases h
    | _ => rw [value_scalar_inj rfl rfl h]

/-- only the set of names matters -/
theorem keep_of_mem_iff {keys' : List String} (h : ∀ key, key ∈ keys ↔ key ∈ keys') (v : Json) :
    keep keys v = keep keys' v := by
  induction v using nested with
  | array items ih =>
    rw [keep_array, keep_array]
    congr 1
    exact List.map_congr_left ih
  | object fields ih =>
    have hfields : keepFields keys fields = keepFields keys' fields := by
      rw [keepFields_eq, keepFields_eq]
      apply List.map_congr_left
      intro field hfield
      rw [ih field hfield]
    have hown : inheritedFields keys fields = inheritedFields keys' fields := by
      unfold inheritedFields
      simp only [h]
    rw [keep, keep, hfields, hown]
    simp only [h]
  | _ => rfl

theorem valid_pick (hnd : keys.Nodup) {v : Json} (h : Valid v) : Valid (pick keys v) := by
  induction v using nested with
  | array items ih =>
    have hitems := valid_array.mp h
    rw [pick_array, valid_array]
    intro w hw
    obtain ⟨v, hv, rfl⟩ := List.mem_map.mp hw
    exact ih v hv (hitems v hv)
  | object fields ih =>
    obtain ⟨-, hfields⟩ := valid_object.mp h
    rw [pick_object, valid_object]
    refine ⟨(names_listed_sublist _ _).nodup hnd, ?_⟩
    rintro ⟨key, v⟩ hmem
    have hfind := mem_listed hmem
    cases hv : fields.lookup key with
    | none =>
      rw [hv] at hfind
      have hinherited : inherited key = some v := hfind
      unfold inherited at hinherited
      split at hinherited
      · cases hinherited
        exact valid_object.mpr ⟨by decide, by simp [Valid]⟩
      · cases hinherited
    | some w =>
      rw [hv] at hfind
      cases hfind
      exact ih (key, w) (mem_of_lookup hv) (hfields _ (mem_of_lookup hv))
  | _ => exact h

end

end Json
