import CoinManage.Json.Value

/-!
# JavaScript values and their canonical text

A JavaScript value of plain data may hold `undefined`, which `JSON.stringify` drops from objects and
prints as `null` in arrays.  `sortValue` sorts the keys of every object; a fresh object lists the
keys that are array indices first, in ascending order.

* `json_sortValue_congr`     values that are the same JSON up to key order sort to the same JSON;
* `value_json_sortValue`     sorting changes the order of keys only;
* `stringify_sortValue_iff`  the sorted texts are equal exactly when the values are equal as JSON.
-/

set_option linter.unusedSectionVars false

inductive Js where
  | undefined
  | null
  | bool (b : Bool)
  | number (n : JsNumber)
  | string (s : String)
  | array (items : List Js)
  | object (fields : List (String × Js))

namespace Js
open Fields Json

@[elab_as_elim]
theorem nested {motive : Js → Prop} (undefined : motive .undefined) (null : motive .null)
    (bool : ∀ b, motive (.bool b)) (number : ∀ n, motive (.number n))
    (string : ∀ s, motive (.string s))
    (array : ∀ items, (∀ v ∈ items, motive v) → motive (.array items))
    (object : ∀ fields, (∀ field ∈ fields, motive field.2) → motive (.object fields)) :
    ∀ v, motive v
  | .undefined => undefined
  | .null => null
  | .bool b => bool b
  | .number n => number n
  | .string s => string s
  | .array items => array items fun v _ =>
      nested undefined null bool number string array object v
  | .object fields => object fields fun field _ =>
      nested undefined null bool number string array object field.2
termination_by v => sizeOf v
decreasing_by
  · have := List.sizeOf_lt_of_mem ‹v ∈ items›
    simp only [Js.array.sizeOf_spec]
    omega
  · have := List.sizeOf_lt_of_mem ‹field ∈ fields›
    obtain ⟨key, v⟩ := field
    simp only [Js.object.sizeOf_spec, Prod.mk.sizeOf_spec] at this ⊢
    omega

/-! ## what is serialised -/

mutual

/-- the JSON value `JSON.stringify` prints; `undefined` has none -/
def toJson : Js → Option Json
  | .undefined => none
  | .null => some .null
  | .bool b => some (.bool b)
  | .number (.finite x) => some (.number (.finite x))
  | .number _ => some .null
  | .string s => some (.string s)
  | .array items => some (.array (jsonItems items))
  | .object fields => some (.object (jsonFields fields))

def jsonItems : List Js → List Json
  | [] => []
  | item :: items => (toJson item).getD .null :: jsonItems items

def jsonFields : List (String × Js) → List (String × Json)
  | [] => []
  | (key, v) :: fields =>
    match toJson v with
    | some j => (key, j) :: jsonFields fields
    | none => jsonFields fields

end

/-- `JSON.stringify(v)` -/
def stringify (v : Js) : Option (List Char) := v.toJson.map text

mutual

/-- all numbers are numbers of JavaScript, and no object has a key twice -/
def Valid : Js → Prop
  | .number (.finite x) => Binary64.Representable x
  | .array items => ValidItems items
  | .object fields => (names fields).Nodup ∧ ValidFields fields
  | _ => True

def ValidItems : List Js → Prop
  | [] => True
  | item :: items => Valid item ∧ ValidItems items

def ValidFields : List (String × Js) → Prop
  | [] => True
  | (_, v) :: fields => Valid v ∧ ValidFields fields

end

mutual

/-- a value that was parsed -/
def ofJson : Json → Js
  | .null => .null
  | .bool b => .bool b
  | .number n => .number n
  | .string s => .string s
  | .array items => .array (ofJsonItems items)
  | .object fields => .object (ofJsonFields fields)

def ofJsonItems : List Json → List Js
  | [] => []
  | item :: items => ofJson item :: ofJsonItems items

def ofJsonFields : List (String × Json) → List (String × Js)
  | [] => []
  | (key, v) :: fields => (key, ofJson v) :: ofJsonFields fields

end

/-- an optional field -/
def ofOption : Option String → Js
  | none => .undefined
  | some s => .string s

/-! ## sorted keys -/

/-- a key that is an array index: the decimal text of a number below `2 ^ 32 - 1` -/
def arrayIndex (key : String) : Option Nat :=
  let n := Nat.ofDigitChars 10 key.toList 0
  if Nat.toDigits 10 n = key.toList ∧ n < 4294967295 then some n else none

/-- the order in which an object lists the keys it was given -/
def enumerate {α : Type} (fields : List (String × α)) : List (String × α) :=
  (fields.filter fun field => (arrayIndex field.1).isSome).mergeSort
      (fun p q => decide ((arrayIndex p.1).getD 0 ≤ (arrayIndex q.1).getD 0)) ++
    fields.filter fun field => (arrayIndex field.1).isNone

section
variable (localeLe : String → String → Bool)

mutual

/-- `sortValue`; sorting looks at the keys only, so the values may be sorted first -/
def sortValue : Js → Js
  | .array items => .array (sortItems items)
  | .object fields =>
    .object (enumerate ((sortFields fields).mergeSort fun p q => localeLe p.1 q.1))
  | v => v

def sortItems : List Js → List Js
  | [] => []
  | item :: items => sortValue item :: sortItems items

def sortFields : List (String × Js) → List (String × Js)
  | [] => []
  | (key, v) :: fields => (key, sortValue v) :: sortFields fields

end

end

/-! ## the recursions as maps -/

theorem jsonItems_eq (items : List Js) : jsonItems items = items.map fun v => (toJson v).getD .null := by
  induction items with
  | nil => rfl
  | cons v items ih => rw [jsonItems, ih, List.map_cons]

theorem jsonFields_eq (fields : List (String × Js)) :
    jsonFields fields = fields.filterMap fun field => (toJson field.2).map fun j => (field.1, j) := by
  induction fields with
  | nil => rfl
  | cons field fields ih =>
    obtain ⟨key, v⟩ := field
    rw [jsonFields, List.filterMap_cons, ih]
    cases toJson v <;> rfl

theorem validItems_iff (items : List Js) : ValidItems items ↔ ∀ v ∈ items, Valid v := by
  induction items with
  | nil => simp [ValidItems]
  | cons v items ih => simp [ValidItems, ih]

theorem validFields_iff (fields : List (String × Js)) :
    ValidFields fields ↔ ∀ field ∈ fields, Valid field.2 := by
  induction fields with
  | nil => simp [ValidFields]
  | cons field fields ih => simp [ValidFields, ih]

theorem valid_array {items : List Js} : Valid (.array items) ↔ ∀ v ∈ items, Valid v :=
  validItems_iff items

theorem valid_object {fields : List (String × Js)} :
    Valid (.object fields) ↔ (names fields).Nodup ∧ ∀ field ∈ fields, Valid field.2 := by
  show _ ∧ ValidFields fields ↔ _
  rw [validFields_iff]

theorem ofJsonItems_eq (items : List Json) : ofJsonItems items = items.map ofJson := by
  induction items with
  | nil => rfl
  | cons v items ih => rw [ofJsonItems, ih, List.map_cons]

theorem ofJsonFields_eq (fields : List (String × Json)) :
    ofJsonFields fields = mapValues ofJson fields := by
  induction fields with
  | nil => rfl
  | cons field fields ih =>
    obtain ⟨key, v⟩ := field
    rw [ofJsonFields, ih]
    rfl

section
variable (localeLe : String → String → Bool)

theorem sortItems_eq (items : List Js) : sortItems localeLe items = items.map (sortValue localeLe) := by
  induction items with
  | nil => rfl
  | cons v items ih => rw [sortItems, ih, List.map_cons]

theorem sortFields_eq (fields : List (String × Js)) :
    sortFields localeLe fields = mapValues (sortValue localeLe) fields := by
  induction fields with
  | nil => rfl
  | cons field fields ih =>
    obtain ⟨key, v⟩ := field
    rw [sortFields, ih]
    rfl

end

/-! ## the order of the keys -/

theorem toDigits_arrayIndex {key : String} {n : Nat} (h : arrayIndex key = some n) :
    Nat.toDigits 10 n = key.toList := by
  unfold arrayIndex at h
  dsimp only at h
  split at h
  · next hindex =>
    obtain rfl := Option.some.inj h
    exact hindex.1
  · cases h

theorem arrayIndex_inj {key key' : String} {n : Nat} (h : arrayIndex key = some n)
    (h' : arrayIndex key' = some n) : key = key' := by
  apply String.toList_inj.mp
  rw [← toDigits_arrayIndex h, ← toDigits_arrayIndex h']

/-- indices first, by value; the others as they were sorted -/
def keyLe (localeLe : String → String → Bool) (a b : String) : Bool :=
  match arrayIndex a, arrayIndex b with
  | some n, some m => decide (n ≤ m)
  | some _, none => true
  | none, some _ => false
  | none, none => localeLe a b

section
variable {localeLe : String → String → Bool} (hlocale : Total localeLe)
include hlocale

theorem keyLe_total : Total (keyLe localeLe) where
  trans a b c := by
    unfold keyLe
    cases arrayIndex a <;> cases arrayIndex b <;> cases arrayIndex c <;>
      simp only [decide_eq_true_eq] <;>
      first | exact hlocale.trans a b c | omega | simp
  total a b := by
    unfold keyLe
    cases arrayIndex a <;> cases arrayIndex b <;>
      first | exact hlocale.total a b | (simp; omega) | rfl
  antisymm a b := by
    unfold keyLe
    cases ha : arrayIndex a <;> cases hb : arrayIndex b <;> dsimp only
    · exact hlocale.antisymm a b
    · intro h
      cases h
    · intro _ h
      cases h
    · intro hab hba
      have heq := Nat.le_antisymm (of_decide_eq_true hab) (of_decide_eq_true hba)
      rw [← heq] at hb
      exact arrayIndex_inj ha hb

end

theorem enumerate_perm {α : Type} (fields : List (String × α)) : (enumerate fields).Perm fields := by
  have hsplit := List.filter_append_perm (fun field => (arrayIndex field.1).isSome) fields
  have hsorted := List.mergeSort_perm (fields.filter fun field => (arrayIndex field.1).isSome)
    (fun p q => decide ((arrayIndex p.1).getD 0 ≤ (arrayIndex q.1).getD 0))
  refine (hsorted.append_right _).trans ?_
  refine Eq.mp ?_ hsplit
  congr 3
  funext field
  cases arrayIndex field.1 <;> rfl

/-- the fields of a sorted object -/
def arranged (localeLe : String → String → Bool) (fields : List (String × Js)) : List (String × Js) :=
  enumerate ((mapValues (sortValue localeLe) fields).mergeSort fun p q => localeLe p.1 q.1)

theorem sortValue_object (localeLe : String → String → Bool) (fields : List (String × Js)) :
    sortValue localeLe (.object fields) = .object (arranged localeLe fields) := by
  rw [sortValue, sortFields_eq]
  rfl

theorem arranged_perm (localeLe : String → String → Bool) (fields : List (String × Js)) :
    (arranged localeLe fields).Perm (mapValues (sortValue localeLe) fields) :=
  (enumerate_perm _).trans (List.mergeSort_perm _ _)

/-- a sorted list of fields is enumerated in the order of `keyLe` -/
theorem enumerate_sorted {localeLe : String → String → Bool} {α : Type} {fields : List (String × α)}
    (h : fields.Pairwise fun p q => localeLe p.1 q.1) :
    (enumerate fields).Pairwise fun p q => keyLe localeLe p.1 q.1 := by
  rw [enumerate, List.pairwise_append]
  refine ⟨?_, ?_, ?_⟩
  · have hsorted := @List.pairwise_mergeSort _
      (fun p q : String × α => decide ((arrayIndex p.1).getD 0 ≤ (arrayIndex q.1).getD 0))
      (by simp only [decide_eq_true_eq]; omega) (by simp only [Bool.or_eq_true, decide_eq_true_eq]; omega)
      (fields.filter fun field => (arrayIndex field.1).isSome)
    refine hsorted.imp_of_mem fun {p q} hp hq hle => ?_
    obtain ⟨n, hn⟩ := Option.isSome_iff_exists.mp (List.mem_filter.mp (List.mem_mergeSort.mp hp)).2
    obtain ⟨m, hm⟩ := Option.isSome_iff_exists.mp (List.mem_filter.mp (List.mem_mergeSort.mp hq)).2
    rw [hn, hm] at hle
    rw [keyLe, hn, hm]
    exact hle
  · refine (h.filter _).imp_of_mem fun {p q} hp hq hle => ?_
    have hn := Option.isNone_iff_eq_none.mp (List.mem_filter.mp hp).2
    have hm := Option.isNone_iff_eq_none.mp (List.mem_filter.mp hq).2
    rw [keyLe, hn, hm]
    exact hle
  · intro p hp q hq
    obtain ⟨n, hn⟩ := Option.isSome_iff_exists.mp (List.mem_filter.mp (List.mem_mergeSort.mp hp)).2
    have hm := Option.isNone_iff_eq_none.mp (List.mem_filter.mp hq).2
    rw [keyLe, hn, hm]

theorem arranged_sorted {localeLe : String → String → Bool} (hlocale : Total localeLe)
    (fields : List (String × Js)) :
    (arranged localeLe fields).Pairwise fun p q => keyLe localeLe p.1 q.1 :=
  enumerate_sorted (List.pairwise_mergeSort (fun p q r => hlocale.trans p.1 q.1 r.1)
    (fun p q => hlocale.total p.1 q.1) _)

/-! ## sorting keeps the value -/

section
variable {fields : List (String × Js)}

theorem names_jsonFields_sublist (fields : List (String × Js)) :
    (names (jsonFields fields)).Sublist (names fields) := by
  induction fields with
  | nil => exact List.Sublist.refl _
  | cons field fields ih =>
    obtain ⟨key, v⟩ := field
    rw [jsonFields]
    cases toJson v with
    | none => exact ih.cons key
    | some j => exact ih.cons_cons key

theorem lookup_jsonFields (hnd : (names fields).Nodup) (key : String) :
    (jsonFields fields).lookup key = (fields.lookup key).bind toJson := by
  induction fields with
  | nil => rfl
  | cons field fields ih =>
    obtain ⟨k, v⟩ := field
    obtain ⟨hk, hrest⟩ := List.nodup_cons.mp hnd
    rw [jsonFields, lookup_cons_eq]
    by_cases hkey : key = k
    · subst hkey
      rw [if_pos rfl]
      cases hv : toJson v with
      | some j =>
        rw [lookup_cons_eq, if_pos rfl]
        exact hv.symm
      | none =>
        have hnone : (jsonFields fields).lookup key = none :=
          lookup_eq_none.mpr fun hmem => hk ((names_jsonFields_sublist fields).mem hmem)
        rw [hnone]
        exact hv.symm
    · rw [if_neg hkey]
      cases toJson v with
      | some j =>
        rw [lookup_cons_eq, if_neg hkey]
        exact ih hrest
      | none => exact ih hrest

theorem value_toJson_object (hnd : (names fields).Nodup) :
    (toJson (.object fields)).map value =
      some (.object fun key => ((fields.lookup key).bind toJson).map value) := by
  rw [toJson, Option.map_some, value_object]
  congr 2
  funext key
  rw [lookup_jsonFields hnd]

theorem value_toJson_array (items : List Js) : (toJson (.array items)).map value =
    some (.array (items.map fun v => value ((toJson v).getD .null))) := by
  rw [toJson, Option.map_some, value_array, jsonItems_eq, List.map_map]
  rfl

end

section
variable {localeLe : String → String → Bool} {fields : List (String × Js)}

theorem names_arranged (hnd : (names fields).Nodup) : (names (arranged localeLe fields)).Nodup := by
  have hperm := names_perm (arranged_perm localeLe fields)
  rw [names_mapValues] at hperm
  exact hperm.nodup_iff.mpr hnd

theorem lookup_arranged (hnd : (names fields).Nodup) (key : String) :
    (arranged localeLe fields).lookup key = (fields.lookup key).map (sortValue localeLe) := by
  rw [lookup_of_perm (names_arranged hnd) (arranged_perm localeLe fields), lookup_mapValues]

theorem valid_sortValue {v : Js} (h : Valid v) : Valid (sortValue localeLe v) := by
  induction v using nested with
  | array items ih =>
    have hitems := valid_array.mp h
    rw [sortValue, sortItems_eq, valid_array]
    intro w hw
    obtain ⟨v, hv, rfl⟩ := List.mem_map.mp hw
    exact ih v hv (hitems v hv)
  | object fields ih =>
    obtain ⟨hnd, hfields⟩ := valid_object.mp h
    rw [sortValue_object, valid_object]
    refine ⟨names_arranged hnd, fun field hfield => ?_⟩
    obtain ⟨field, hmem, rfl⟩ := List.mem_map.mp ((arranged_perm localeLe fields).mem_iff.mp hfield)
    exact ih field hmem (hfields field hmem)
  | _ => exact h

theorem valid_toJson {v : Js} (h : Valid v) : Json.Valid ((toJson v).getD .null) := by
  induction v using nested with
  | number n =>
    cases n with
    | finite x => exact ⟨x, rfl, h⟩
    | _ => trivial
  | array items ih =>
    have hitems := valid_array.mp h
    show Json.Valid (.array (jsonItems items))
    rw [jsonItems_eq, Json.valid_array]
    intro j hj
    obtain ⟨v, hv, rfl⟩ := List.mem_map.mp hj
    exact ih v hv (hitems v hv)
  | object fields ih =>
    obtain ⟨hnd, hfields⟩ := valid_object.mp h
    show Json.Valid (.object (jsonFields fields))
    rw [Json.valid_object]
    refine ⟨(names_jsonFields_sublist fields).nodup hnd, fun field hfield => ?_⟩
    rw [jsonFields_eq] at hfield
    obtain ⟨source, hmem, hsource⟩ := List.mem_filterMap.mp hfield
    obtain ⟨j, hj, rfl⟩ := Option.map_eq_some_iff.mp hsource
    have hvalid := ih source hmem (hfields source hmem)
    rw [hj] at hvalid
    exact hvalid
  | _ => trivial

theorem value_getD {a b : Option Json} (h : a.map value = b.map value) :
    value (a.getD .null) = value (b.getD .null) := by
  cases a with
  | none => rw [Option.map_eq_none_iff.mp h.symm]
  | some j =>
    obtain ⟨k, rfl, hk⟩ := Option.map_eq_some_iff.mp h.symm
    exact hk.symm

/-- sorting changes the order of keys only -/
theorem value_sortValue {v : Js} (h : Valid v) :
    (toJson (sortValue localeLe v)).map value = (toJson v).map value := by
  induction v using nested with
  | array items ih =>
    have hitems := valid_array.mp h
    rw [sortValue, value_toJson_array, value_toJson_array, sortItems_eq, List.map_map]
    congr 2
    apply List.map_congr_left
    intro v hv
    exact value_getD (ih v hv (hitems v hv))
  | object fields ih =>
    obtain ⟨hnd, hfields⟩ := valid_object.mp h
    rw [sortValue_object, value_toJson_object hnd, value_toJson_object (names_arranged hnd)]
    congr 2
    funext key
    rw [lookup_arranged hnd]
    cases hv : fields.lookup key with
    | none => rfl
    | some v => exact ih (key, v) (mem_of_lookup hv) (hfields _ (mem_of_lookup hv))
  | _ => rfl

/-! ## parsed values -/

theorem toJson_ofJson {j : Json} (h : Json.Valid j) : toJson (ofJson j) = some j := by
  induction j using Json.nested with
  | number n =>
    obtain ⟨x, rfl, -⟩ := h
    rfl
  | array items ih =>
    have hitems := Json.valid_array.mp h
    rw [ofJson, ofJsonItems_eq, toJson, jsonItems_eq, List.map_map]
    congr 2
    rw [List.map_congr_left (g := id), List.map_id]
    intro v hv
    show (toJson (ofJson v)).getD .null = v
    rw [ih v hv (hitems v hv)]
    rfl
  | object fields ih =>
    obtain ⟨-, hfields⟩ := Json.valid_object.mp h
    rw [ofJson, ofJsonFields_eq, toJson, jsonFields_eq, mapValues, List.filterMap_map]
    congr 2
    rw [List.filterMap_congr (g := some), List.filterMap_some]
    intro field hfield
    show (toJson (ofJson field.2)).map _ = some field
    rw [ih field hfield (hfields field hfield)]
    rfl
  | _ => rfl

theorem valid_ofJson {j : Json} (h : Json.Valid j) : Valid (ofJson j) := by
  induction j using Json.nested with
  | number n =>
    obtain ⟨x, rfl, hx⟩ := h
    exact hx
  | array items ih =>
    have hitems := Json.valid_array.mp h
    rw [ofJson, ofJsonItems_eq, valid_array]
    intro w hw
    obtain ⟨v, hv, rfl⟩ := List.mem_map.mp hw
    exact ih v hv (hitems v hv)
  | object fields ih =>
    obtain ⟨hnd, hfields⟩ := Json.valid_object.mp h
    rw [ofJson, ofJsonFields_eq, valid_object]
    refine ⟨by rw [names_mapValues]; exact hnd, fun field hfield => ?_⟩
    obtain ⟨source, hmem, rfl⟩ := List.mem_map.mp hfield
    exact ih source hmem (hfields source hmem)
  | _ => trivial

/-! ## one text for one value -/

/-- neither an array nor an object -/
def isScalar : Js → Bool
  | .array _ => false
  | .object _ => false
  | _ => true

theorem sortValue_scalar {v : Js} (h : v.isScalar) : sortValue localeLe v = v := by
  cases v with
  | array items => cases h
  | object fields => cases h
  | _ => rfl

theorem scalar_toJson {v : Js} (h : v.isScalar) : ((toJson v).getD .null).isScalar := by
  cases v with
  | array items => cases h
  | object fields => cases h
  | number n => cases n <;> rfl
  | _ => rfl

/-- only a scalar prints as a scalar -/
theorem isScalar_of_value {j : Json} {w : Js} (hj : j.isScalar)
    (h : value j = value ((toJson w).getD .null)) : w.isScalar ∧ (toJson w).getD .null = j := by
  cases w with
  | array items =>
    have harray : value j = .array _ := h.trans (value_array _)
    cases j <;> cases hj <;> cases harray
  | object fields =>
    have hobject : value j = .object _ := h.trans (value_object _)
    cases j <;> cases hj <;> cases hobject
  | _ => exact ⟨rfl, (value_scalar_inj hj (scalar_toJson rfl) h).symm⟩

theorem isSome_toJson_sortValue (v : Js) :
    (toJson (sortValue localeLe v)).isSome = (toJson v).isSome := by
  cases v <;> rfl

theorem toJson_sortValue_none {v : Js} (h : toJson v = none) : toJson (sortValue localeLe v) = none := by
  rw [← Option.not_isSome_iff_eq_none, isSome_toJson_sortValue, h]
  exact nofun

theorem option_eq {a b : Option Json} (hsome : a.isSome = b.isSome) (h : a.getD .null = b.getD .null) :
    a = b := by
  cases a <;> cases b
  · rfl
  · cases hsome
  · cases hsome
  · exact congrArg some h

variable (hlocale : Total localeLe)
include hlocale

/-- sorted fields that print the same values stand in the same order -/
theorem jsonFields_arranged_eq {fields' : List (String × Js)} (hnd : (names fields).Nodup)
    (hnd' : (names fields').Nodup)
    (h : ∀ key, ((fields.lookup key).map (sortValue localeLe)).bind toJson =
      ((fields'.lookup key).map (sortValue localeLe)).bind toJson) :
    jsonFields (arranged localeLe fields) = jsonFields (arranged localeLe fields') := by
  have hnames := (names_jsonFields_sublist (arranged localeLe fields)).nodup (names_arranged hnd)
  have hnames' := (names_jsonFields_sublist (arranged localeLe fields')).nodup (names_arranged hnd')
  have hperm : (jsonFields (arranged localeLe fields)).Perm (jsonFields (arranged localeLe fields')) := by
    apply perm_of_lookup hnames hnames'
    intro key
    rw [lookup_jsonFields (names_arranged hnd), lookup_jsonFields (names_arranged hnd'),
      lookup_arranged hnd, lookup_arranged hnd', h]
  have hsorted : ∀ fs : List (String × Js), (jsonFields (arranged localeLe fs)).Pairwise
      fun p q => keyLe localeLe p.1 q.1 := by
    intro fs
    have hkeys : (names (arranged localeLe fs)).Pairwise fun a b => keyLe localeLe a b :=
      List.pairwise_map.mpr (arranged_sorted hlocale fs)
    exact List.pairwise_map.mp (hkeys.sublist (names_jsonFields_sublist _))
  exact sorted_eq (keyLe_total hlocale) hnames hperm (hsorted _) (hsorted _)

/-- values that are the same up to key order sort to the same -/
theorem toJson_sortValue_congr {v w : Js} (hv : Valid v) (hw : Valid w)
    (h : value ((toJson v).getD .null) = value ((toJson w).getD .null)) :
    (toJson (sortValue localeLe v)).getD .null = (toJson (sortValue localeLe w)).getD .null := by
  induction v using nested generalizing w with
  | array items ih =>
    cases w with
    | array items' =>
      have hvalue : value (.array (jsonItems items)) = value (.array (jsonItems items')) := h
      rw [value_array, value_array, jsonItems_eq, jsonItems_eq, List.map_map, List.map_map] at hvalue
      have hitems := valid_array.mp hv
      have hitems' := valid_array.mp hw
      show Json.array (jsonItems (sortItems localeLe items)) =
        Json.array (jsonItems (sortItems localeLe items'))
      rw [sortItems_eq, sortItems_eq, jsonItems_eq, jsonItems_eq, List.map_map, List.map_map]
      congr 1
      exact map_eq_of_map_eq (fun v hv w hw hvw => ih v hv (hitems v hv) (hitems' w hw) hvw)
        (Value.array.inj hvalue)
    | object fields' =>
      have hvalue : value (.array (jsonItems items)) = value (.object (jsonFields fields')) := h
      rw [value_array, value_object] at hvalue
      cases hvalue
    | _ =>
      obtain ⟨hscalar, -⟩ := isScalar_of_value (scalar_toJson (by rfl)) h.symm
      cases hscalar
  | object fields ih =>
    cases w with
    | object fields' =>
      obtain ⟨hnd, hfields⟩ := valid_object.mp hv
      obtain ⟨hnd', hfields'⟩ := valid_object.mp hw
      have hvalue : value (.object (jsonFields fields)) = value (.object (jsonFields fields')) := h
      have hlookup := value_object_inj.mp hvalue
      rw [sortValue_object, sortValue_object]
      show Json.object (jsonFields _) = Json.object (jsonFields _)
      congr 1
      apply jsonFields_arranged_eq hlocale hnd hnd'
      intro key
      have hkey := hlookup key
      rw [lookup_jsonFields hnd, lookup_jsonFields hnd'] at hkey
      cases hl : fields.lookup key with
      | none =>
        cases hr : fields'.lookup key with
        | none => rfl
        | some w =>
          rw [hl, hr] at hkey
          have hnone : toJson w = none := Option.map_eq_none_iff.mp hkey.symm
          exact (toJson_sortValue_none hnone).symm
      | some v =>
        rw [hl] at hkey
        cases hr : fields'.lookup key with
        | none =>
          rw [hr] at hkey
          have hnone : toJson v = none := Option.map_eq_none_iff.mp hkey
          exact toJson_sortValue_none hnone
        | some w =>
          rw [hr] at hkey
          have hkey' : (toJson v).map value = (toJson w).map value := hkey
          have hsome : (toJson v).isSome = (toJson w).isSome := by
            rw [← Option.isSome_map (f := value), hkey', Option.isSome_map]
          refine option_eq ?_ ?_
          · show (toJson (sortValue localeLe v)).isSome = (toJson (sortValue localeLe w)).isSome
            rw [isSome_toJson_sortValue, isSome_toJson_sortValue, hsome]
          · exact ih (key, v) (mem_of_lookup hl) (hfields _ (mem_of_lookup hl))
              (hfields' _ (mem_of_lookup hr)) (value_getD hkey')
    | array items =>
      have hvalue : value (.object (jsonFields fields)) = value (.array (jsonItems items)) := h
      rw [value_array, value_object] at hvalue
      cases hvalue
    | _ =>
      obtain ⟨hscalar, -⟩ := isScalar_of_value (scalar_toJson (by rfl)) h.symm
      cases hscalar
  | _ =>
    obtain ⟨hscalar, heq⟩ := isScalar_of_value (scalar_toJson (by rfl)) h
    rw [sortValue_scalar hscalar, heq]
    rfl

/-- The sorted texts of two values are equal exactly when the values are equal as JSON
values up to key order. -/
theorem stringify_sortValue_iff {v w : Js} (hv : Valid v) (hw : Valid w) :
    stringify (sortValue localeLe v) = stringify (sortValue localeLe w) ↔
      (toJson v).map value = (toJson w).map value := by
  constructor
  · intro h
    rw [← @value_sortValue localeLe v hv, ← @value_sortValue localeLe w hw]
    have hvalid := valid_toJson (@valid_sortValue localeLe v hv)
    have hvalid' := valid_toJson (@valid_sortValue localeLe w hw)
    unfold stringify at h
    cases hl : toJson (sortValue localeLe v) with
    | none =>
      rw [hl] at h
      rw [Option.map_eq_none_iff.mp h.symm]
    | some j =>
      rw [hl] at h hvalid
      obtain ⟨k, hk, htext⟩ := Option.map_eq_some_iff.mp h.symm
      rw [hk] at hvalid' ⊢
      have heq : k = j := text_inj hvalid' hvalid htext
      rw [heq]
  · intro h
    unfold stringify
    congr 1
    refine option_eq ?_ (toJson_sortValue_congr hlocale hv hw (value_getD h))
    rw [isSome_toJson_sortValue, isSome_toJson_sortValue, ← Option.isSome_map (f := value), h,
      Option.isSome_map]

end

end Js
