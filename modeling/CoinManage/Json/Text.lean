import CoinManage.Core
import CoinManage.Lib.Decimal

/-!
# JSON text

`Json.text` is what `JSON.stringify` prints for a JSON value, without a replacer.  A value whose
numbers are doubles can be read off its text:

* `numberText_inj`   doubles print differently;
* `quote_append_inj` a quoted string ends where its text says;
* `text_inj`         the text of a value determines it.
-/

set_option linter.unusedSectionVars false

namespace Json

/-! ## characters -/

def quoteMark : Char := Char.ofNat 0x22
def backslash : Char := Char.ofNat 0x5c
def openBrace : Char := Char.ofNat 0x7b
def closeBrace : Char := Char.ofNat 0x7d

/-- a hexadecimal digit, in lower case -/
def hexDigit (n : Nat) : Char := if n < 10 then Char.ofNat (0x30 + n) else Char.ofNat (0x57 + n)

def hexValue (c : Char) : Nat := if c.isDigit then c.toNat - 0x30 else c.toNat - 0x57

/-- a character in a quoted string -/
def escape (c : Char) : List Char :=
  if c = quoteMark ∨ c = backslash then [backslash, c]
  else if c.toNat = 8 then [backslash, 'b']
  else if c.toNat = 9 then [backslash, 't']
  else if c.toNat = 10 then [backslash, 'n']
  else if c.toNat = 12 then [backslash, 'f']
  else if c.toNat = 13 then [backslash, 'r']
  else if c.toNat < 0x20 then
    [backslash, 'u', '0', '0', hexDigit (c.toNat / 16), hexDigit (c.toNat % 16)]
  else [c]

def quote (s : String) : List Char := quoteMark :: (s.toList.flatMap escape ++ [quoteMark])

/-- the character after a backslash -/
def named (c : Char) : Char :=
  if c = 'b' then Char.ofNat 8 else if c = 't' then Char.ofNat 9 else if c = 'n' then Char.ofNat 10
  else if c = 'f' then Char.ofNat 12 else if c = 'r' then Char.ofNat 13 else c

/-- reads one character of a quoted string -/
def unescape : List Char → Option (Char × List Char)
  | [] => none
  | c :: cs =>
    if c = backslash then
      match cs with
      | 'u' :: _ :: _ :: high :: low :: rest => some (Char.ofNat (16 * hexValue high + hexValue low), rest)
      | c :: rest => some (named c, rest)
      | [] => none
    else some (c, cs)

theorem unescape_control : ∀ n < 0x20, ∀ r : List Char,
    unescape (escape (Char.ofNat n) ++ r) = some (Char.ofNat n, r) := by
  intro n hn r
  interval_cases n <;> rfl

theorem unescape_escape (c : Char) (r : List Char) : unescape (escape c ++ r) = some (c, r) := by
  by_cases hquote : c = quoteMark
  · subst hquote
    rfl
  · by_cases hback : c = backslash
    · subst hback
      rfl
    · by_cases hcontrol : c.toNat < 0x20
      · have h := unescape_control c.toNat hcontrol r
        rw [Char.ofNat_toNat] at h
        exact h
      · have hplain : escape c = [c] := by
          unfold escape
          rw [if_neg (by tauto), if_neg (by omega), if_neg (by omega), if_neg (by omega), if_neg (by omega),
            if_neg (by omega), if_neg hcontrol]
        rw [hplain]
        show (if c = backslash then _ else some (c, r)) = _
        rw [if_neg hback]

theorem escape_append_inj {c c' : Char} {r r' : List Char} (h : escape c ++ r = escape c' ++ r') :
    c = c' ∧ r = r' := by
  have hread := congrArg unescape h
  rw [unescape_escape, unescape_escape] at hread
  exact Prod.mk.inj (Option.some.inj hread)

/-- no character is printed as a quotation mark alone -/
theorem escape_ne_quoteMark (c : Char) (r r' : List Char) : escape c ++ r ≠ quoteMark :: r' := by
  intro h
  have hread := congrArg unescape h
  rw [unescape_escape] at hread
  have hmark : unescape (quoteMark :: r') = some (quoteMark, r') := rfl
  rw [hmark] at hread
  obtain ⟨rfl, -⟩ := Prod.mk.inj (Option.some.inj hread)
  have hhead := congrArg List.head? h
  cases hhead

theorem escapes_append_inj {cs cs' r r' : List Char}
    (h : cs.flatMap escape ++ quoteMark :: r = cs'.flatMap escape ++ quoteMark :: r') :
    cs = cs' ∧ r = r' := by
  induction cs generalizing cs' with
  | nil =>
    cases cs' with
    | nil => exact ⟨rfl, (List.cons.inj h).2⟩
    | cons c' cs' =>
      rw [List.flatMap_cons, List.append_assoc] at h
      exact absurd h.symm (escape_ne_quoteMark c' _ _)
  | cons c cs ih =>
    rw [List.flatMap_cons, List.append_assoc] at h
    cases cs' with
    | nil => exact absurd h (escape_ne_quoteMark c _ _)
    | cons c' cs' =>
      rw [List.flatMap_cons, List.append_assoc] at h
      obtain ⟨rfl, hrest⟩ := escape_append_inj h
      obtain ⟨rfl, rfl⟩ := ih hrest
      exact ⟨rfl, rfl⟩

theorem quote_append_inj {s s' : String} {r r' : List Char} (h : quote s ++ r = quote s' ++ r') :
    s = s' ∧ r = r' := by
  simp only [quote, List.cons_append, List.append_assoc, List.nil_append] at h
  obtain ⟨hs, rfl⟩ := escapes_append_inj (List.cons.inj h).2
  exact ⟨String.toList_inj.mp hs, rfl⟩

/-! ## numbers -/

/-- `String(number)` of a finite number; the others have no JSON text -/
def numberText : JsNumber → List Char
  | .finite x =>
    if x = 0 then ['0']
    else if x < 0 then '-' :: (Decimal.shortest (-x)).text
    else (Decimal.shortest x).text
  | _ => "null".toList

/-- the number is a double -/
def IsDouble (n : JsNumber) : Prop := ∃ x, n = .finite x ∧ Binary64.Representable x

/-- the double a text of a number means -/
def readNumber : List Char → ℚ
  | [] => 0
  | c :: cs =>
    if c = '-' then -Binary64.round (Decimal.readDecimal cs)
    else Binary64.round (Decimal.readDecimal (c :: cs))

theorem readNumber_positive {x : ℚ} (h : Binary64.Representable x) (hx : 0 < x) :
    readNumber (Decimal.shortest x).text = x := by
  obtain ⟨hreads, hnormal⟩ := Decimal.shortest_spec h hx
  obtain ⟨c, cs, htext, hdigit⟩ := Decimal.head_text (Decimal.shortest x)
  have hne : c ≠ '-' := Decimal.ne_of_isDigit hdigit rfl
  have hvalue := Decimal.readDecimal_text hnormal
  rw [htext] at hvalue ⊢
  rw [readNumber, if_neg hne, hvalue, hreads]

theorem readNumber_numberText {x : ℚ} (h : Binary64.Representable x) :
    readNumber (numberText (.finite x)) = x := by
  rcases lt_trichotomy x 0 with hx | rfl | hx
  · have hneg : Binary64.Representable (-x) := by
      obtain ⟨m, k, rfl, hm, hk⟩ := h
      exact ⟨-m, k, by push_cast; ring, by rwa [abs_neg], hk⟩
    have hpos : 0 < -x := by linarith
    obtain ⟨hreads, hnormal⟩ := Decimal.shortest_spec hneg hpos
    rw [numberText, if_neg hx.ne, if_pos hx, readNumber, if_pos rfl, Decimal.readDecimal_text hnormal,
      hreads, neg_neg]
  · decide +kernel
  · rw [numberText, if_neg hx.ne', if_neg (by linarith)]
    exact readNumber_positive h hx

theorem numberText_inj {n n' : JsNumber} (h : IsDouble n) (h' : IsDouble n')
    (heq : numberText n = numberText n') : n = n' := by
  obtain ⟨x, rfl, hx⟩ := h
  obtain ⟨y, rfl, hy⟩ := h'
  have hread := congrArg readNumber heq
  rw [readNumber_numberText hx, readNumber_numberText hy] at hread
  rw [hread]

theorem numberText_chars {n : JsNumber} (h : IsDouble n) :
    ∀ c ∈ numberText n, Decimal.isDecimalChar c = true := by
  obtain ⟨x, rfl, -⟩ := h
  intro c hc
  unfold numberText at hc
  dsimp only at hc
  split at hc
  · rw [List.mem_singleton.mp hc]
    rfl
  · split at hc
    · rcases List.mem_cons.mp hc with rfl | hc
      · rfl
      · exact Decimal.isDecimalChar_text _ c hc
    · exact Decimal.isDecimalChar_text _ c hc

theorem numberText_head {n : JsNumber} (h : IsDouble n) :
    ∃ c cs, numberText n = c :: cs ∧ (c.isDigit = true ∨ c = '-') := by
  obtain ⟨x, rfl, -⟩ := h
  unfold numberText
  dsimp only
  split
  · exact ⟨'0', [], rfl, Or.inl rfl⟩
  · split
    · exact ⟨'-', _, rfl, Or.inr rfl⟩
    · obtain ⟨c, cs, htext, hdigit⟩ := Decimal.head_text (Decimal.shortest x)
      exact ⟨c, cs, htext, Or.inl hdigit⟩

/-! ## values -/

mutual

def text : Json → List Char
  | .null => "null".toList
  | .bool true => "true".toList
  | .bool false => "false".toList
  | .number n => numberText n
  | .string s => quote s
  | .array [] => ['[', ']']
  | .array (item :: items) => '[' :: (text item ++ moreItems items)
  | .object [] => [openBrace, closeBrace]
  | .object ((key, value) :: fields) =>
    openBrace :: (quote key ++ ':' :: (text value ++ moreFields fields))

/-- the rest of an array -/
def moreItems : List Json → List Char
  | [] => [']']
  | item :: items => ',' :: (text item ++ moreItems items)

/-- the rest of an object -/
def moreFields : List (String × Json) → List Char
  | [] => [closeBrace]
  | (key, value) :: fields => ',' :: (quote key ++ ':' :: (text value ++ moreFields fields))

end

mutual

/-- all numbers are doubles, and no object has a key twice -/
def Valid : Json → Prop
  | .number n => IsDouble n
  | .array items => ValidItems items
  | .object fields => (fields.map Prod.fst).Nodup ∧ ValidFields fields
  | _ => True

def ValidItems : List Json → Prop
  | [] => True
  | item :: items => Valid item ∧ ValidItems items

def ValidFields : List (String × Json) → Prop
  | [] => True
  | (_, value) :: fields => Valid value ∧ ValidFields fields

end

/-! ## reading a value off its text -/

/-- what may follow a value -/
def Ends (r : List Char) : Prop := ∀ c ∈ r.head?, c = ',' ∨ c = ']' ∨ c = closeBrace

theorem ends_nil : Ends [] := by
  intro c hc
  cases hc

theorem ends_moreItems (items : List Json) (r : List Char) : Ends (moreItems items ++ r) := by
  intro c hc
  cases items with
  | nil =>
    cases hc
    exact Or.inr (Or.inl rfl)
  | cons item items =>
    cases hc
    exact Or.inl rfl

theorem ends_moreFields (fields : List (String × Json)) (r : List Char) :
    Ends (moreFields fields ++ r) := by
  intro c hc
  cases fields with
  | nil =>
    cases hc
    exact Or.inr (Or.inr rfl)
  | cons field fields =>
    cases hc
    exact Or.inl rfl

/-- the kind of value a first character announces -/
def kindOf (c : Char) : Char := if c.isDigit ∨ c = '-' then '0' else c

def kind : Json → Char
  | .null => 'n'
  | .bool true => 't'
  | .bool false => 'f'
  | .number _ => '0'
  | .string _ => quoteMark
  | .array _ => '['
  | .object _ => openBrace

theorem text_kind {v : Json} (h : Valid v) : ∃ c cs, text v = c :: cs ∧ kindOf c = kind v := by
  cases v with
  | null => exact ⟨'n', "ull".toList, rfl, rfl⟩
  | bool b =>
    cases b with
    | true => exact ⟨'t', "rue".toList, rfl, rfl⟩
    | false => exact ⟨'f', "alse".toList, rfl, rfl⟩
  | number n =>
    obtain ⟨c, cs, htext, hc⟩ := numberText_head h
    exact ⟨c, cs, htext, if_pos hc⟩
  | string s => exact ⟨quoteMark, _, rfl, rfl⟩
  | array items =>
    cases items with
    | nil => exact ⟨'[', [']'], rfl, rfl⟩
    | cons item items => exact ⟨'[', _, rfl, rfl⟩
  | object fields =>
    cases fields with
    | nil => exact ⟨openBrace, [closeBrace], rfl, rfl⟩
    | cons field fields => exact ⟨openBrace, _, rfl, rfl⟩

theorem kind_eq {v w : Json} {r r' : List Char} (hv : Valid v) (hw : Valid w)
    (h : text v ++ r = text w ++ r') : kind v = kind w := by
  obtain ⟨c, cs, hc, hkind⟩ := text_kind hv
  obtain ⟨c', cs', hc', hkind'⟩ := text_kind hw
  rw [hc, hc'] at h
  rw [← hkind, ← hkind', (List.cons.inj h).1]

/-- a text does not begin with what follows a value -/
theorem not_ends_text {v : Json} (h : Valid v) (r : List Char) : ¬Ends (text v ++ r) := by
  intro hends
  obtain ⟨c, cs, hc, hkind⟩ := text_kind h
  rw [hc] at hends
  have hno : kindOf c ≠ ',' ∧ kindOf c ≠ ']' ∧ kindOf c ≠ closeBrace := by
    rw [hkind]
    cases v with
    | bool b => cases b <;> decide
    | _ =>
      simp only [kind]
      decide
  rcases hends c rfl with rfl | rfl | rfl
  · exact hno.1 rfl
  · exact hno.2.1 rfl
  · exact hno.2.2 rfl

theorem takeWhile_number {n : JsNumber} {r : List Char} (h : IsDouble n) (hr : Ends r) :
    (numberText n ++ r).takeWhile Decimal.isDecimalChar = numberText n := by
  rw [List.takeWhile_append_of_pos (numberText_chars h)]
  have hstop : r.takeWhile Decimal.isDecimalChar = [] := by
    cases r with
    | nil => rfl
    | cons c r =>
      have hc : Decimal.isDecimalChar c = false := by
        rcases hr c rfl with rfl | rfl | rfl <;> rfl
      rw [List.takeWhile_cons, hc]
      rfl
  rw [hstop, List.append_nil]

theorem numberText_append_inj {n n' : JsNumber} {r r' : List Char} (hn : IsDouble n)
    (hn' : IsDouble n') (hr : Ends r) (hr' : Ends r') (h : numberText n ++ r = numberText n' ++ r') :
    n = n' ∧ r = r' := by
  have htexts := congrArg (List.takeWhile Decimal.isDecimalChar) h
  rw [takeWhile_number hn hr, takeWhile_number hn' hr'] at htexts
  rw [htexts] at h
  exact ⟨numberText_inj hn hn' htexts, List.append_cancel_left h⟩

theorem field_inj {key key' : String} {r r' : List Char}
    (h : quote key ++ ':' :: r = quote key' ++ ':' :: r') : key = key' ∧ r = r' := by
  obtain ⟨hkey, hrest⟩ := quote_append_inj h
  exact ⟨hkey, (List.cons.inj hrest).2⟩

mutual

theorem text_append_inj : ∀ (v w : Json) (r r' : List Char), Valid v → Valid w → Ends r → Ends r' →
    text v ++ r = text w ++ r' → v = w ∧ r = r'
  | .null, w, r, r', hv, hw, _, _, h => by
    have hkind := kind_eq hv hw h
    cases w with
    | null => exact ⟨rfl, List.append_cancel_left h⟩
    | bool b => cases b <;> cases hkind
    | _ => cases hkind
  | .bool b, w, r, r', hv, hw, _, _, h => by
    have hkind := kind_eq hv hw h
    cases w with
    | bool b' =>
      cases b <;> cases b' <;> first | exact ⟨rfl, List.append_cancel_left h⟩ | cases hkind
    | _ => cases b <;> cases hkind
  | .number n, w, r, r', hv, hw, hr, hr', h => by
    have hkind := kind_eq hv hw h
    cases w with
    | number n' =>
      obtain ⟨rfl, rfl⟩ := numberText_append_inj hv hw hr hr' h
      exact ⟨rfl, rfl⟩
    | bool b => cases b <;> cases hkind
    | _ => cases hkind
  | .string s, w, r, r', hv, hw, _, _, h => by
    have hkind := kind_eq hv hw h
    cases w with
    | string s' =>
      obtain ⟨rfl, rfl⟩ := quote_append_inj h
      exact ⟨rfl, rfl⟩
    | bool b => cases b <;> cases hkind
    | _ => cases hkind
  | .array items, w, r, r', hv, hw, _, _, h => by
    have hkind := kind_eq hv hw h
    cases w with
    | array items' =>
      have hitems := array_append_inj items items' r r' hv hw h
      exact ⟨by rw [hitems.1], hitems.2⟩
    | bool b => cases b <;> cases hkind
    | _ => cases hkind
  | .object fields, w, r, r', hv, hw, _, _, h => by
    have hkind := kind_eq hv hw h
    cases w with
    | object fields' =>
      have hfields := object_append_inj fields fields' r r' hv.2 hw.2 h
      exact ⟨by rw [hfields.1], hfields.2⟩
    | bool b => cases b <;> cases hkind
    | _ => cases hkind

theorem array_append_inj : ∀ (items items' : List Json) (r r' : List Char), ValidItems items →
    ValidItems items' → text (.array items) ++ r = text (.array items') ++ r' → items = items' ∧ r = r'
  | [], [], r, r', _, _, h => ⟨rfl, List.append_cancel_left h⟩
  | [], item :: items, r, r', _, hw, h => by
    have hrest : ']' :: r = (text item ++ moreItems items) ++ r' := (List.cons.inj h).2
    rw [List.append_assoc] at hrest
    have hends : Ends (']' :: r) := by
      intro c hc
      cases hc
      exact Or.inr (Or.inl rfl)
    rw [hrest] at hends
    exact absurd hends (not_ends_text hw.1 _)
  | item :: items, [], r, r', hv, _, h => by
    have hrest : (text item ++ moreItems items) ++ r = ']' :: r' := (List.cons.inj h).2
    rw [List.append_assoc] at hrest
    have hends : Ends (']' :: r') := by
      intro c hc
      cases hc
      exact Or.inr (Or.inl rfl)
    rw [← hrest] at hends
    exact absurd hends (not_ends_text hv.1 _)
  | item :: items, item' :: items', r, r', hv, hw, h => by
    have hrest : (text item ++ moreItems items) ++ r = (text item' ++ moreItems items') ++ r' :=
      (List.cons.inj h).2
    rw [List.append_assoc, List.append_assoc] at hrest
    obtain ⟨rfl, hmore⟩ := text_append_inj item item' _ _ hv.1 hw.1 (ends_moreItems _ _)
      (ends_moreItems _ _) hrest
    obtain ⟨rfl, rfl⟩ := moreItems_append_inj items items' r r' hv.2 hw.2 hmore
    exact ⟨rfl, rfl⟩

theorem object_append_inj : ∀ (fields fields' : List (String × Json)) (r r' : List Char),
    ValidFields fields → ValidFields fields' →
    text (.object fields) ++ r = text (.object fields') ++ r' → fields = fields' ∧ r = r'
  | [], [], r, r', _, _, h => ⟨rfl, List.append_cancel_left h⟩
  | [], (key, value) :: fields, r, r', _, _, h => by
    have hrest := (List.cons.inj h).2
    cases (List.cons.inj hrest).1
  | (key, value) :: fields, [], r, r', _, _, h => by
    have hrest := (List.cons.inj h).2
    cases (List.cons.inj hrest).1
  | (key, value) :: fields, (key', value') :: fields', r, r', hv, hw, h => by
    have hrest : (quote key ++ ':' :: (text value ++ moreFields fields)) ++ r =
        (quote key' ++ ':' :: (text value' ++ moreFields fields')) ++ r' := (List.cons.inj h).2
    simp only [List.append_assoc, List.cons_append] at hrest
    obtain ⟨rfl, hvalue⟩ := field_inj hrest
    obtain ⟨rfl, hmore⟩ := text_append_inj value value' _ _ hv.1 hw.1 (ends_moreFields _ _)
      (ends_moreFields _ _) hvalue
    obtain ⟨rfl, rfl⟩ := moreFields_append_inj fields fields' r r' hv.2 hw.2 hmore
    exact ⟨rfl, rfl⟩

theorem moreItems_append_inj : ∀ (items items' : List Json) (r r' : List Char), ValidItems items →
    ValidItems items' → moreItems items ++ r = moreItems items' ++ r' → items = items' ∧ r = r'
  | [], [], r, r', _, _, h => ⟨rfl, List.append_cancel_left h⟩
  | [], item :: items, r, r', _, _, h => by cases (List.cons.inj h).1
  | item :: items, [], r, r', _, _, h => by cases (List.cons.inj h).1
  | item :: items, item' :: items', r, r', hv, hw, h => by
    have hrest : (text item ++ moreItems items) ++ r = (text item' ++ moreItems items') ++ r' :=
      (List.cons.inj h).2
    rw [List.append_assoc, List.append_assoc] at hrest
    obtain ⟨rfl, hmore⟩ := text_append_inj item item' _ _ hv.1 hw.1 (ends_moreItems _ _)
      (ends_moreItems _ _) hrest
    obtain ⟨rfl, rfl⟩ := moreItems_append_inj items items' r r' hv.2 hw.2 hmore
    exact ⟨rfl, rfl⟩

theorem moreFields_append_inj : ∀ (fields fields' : List (String × Json)) (r r' : List Char),
    ValidFields fields → ValidFields fields' →
    moreFields fields ++ r = moreFields fields' ++ r' → fields = fields' ∧ r = r'
  | [], [], r, r', _, _, h => ⟨rfl, List.append_cancel_left h⟩
  | [], (key, value) :: fields, r, r', _, _, h => by cases (List.cons.inj h).1
  | (key, value) :: fields, [], r, r', _, _, h => by cases (List.cons.inj h).1
  | (key, value) :: fields, (key', value') :: fields', r, r', hv, hw, h => by
    have hrest : (quote key ++ ':' :: (text value ++ moreFields fields)) ++ r =
        (quote key' ++ ':' :: (text value' ++ moreFields fields')) ++ r' := (List.cons.inj h).2
    simp only [List.append_assoc, List.cons_append] at hrest
    obtain ⟨rfl, hvalue⟩ := field_inj hrest
    obtain ⟨rfl, hmore⟩ := text_append_inj value value' _ _ hv.1 hw.1 (ends_moreFields _ _)
      (ends_moreFields _ _) hvalue
    obtain ⟨rfl, rfl⟩ := moreFields_append_inj fields fields' r r' hv.2 hw.2 hmore
    exact ⟨rfl, rfl⟩

end

theorem text_inj {v w : Json} (hv : Valid v) (hw : Valid w) (h : text v = text w) : v = w := by
  have happend : text v ++ [] = text w ++ [] := by rw [h]
  exact (text_append_inj v w [] [] hv hw ends_nil ends_nil happend).1

example : text (.object [("a", .array [.number 1, .null]), ("b", .string "x\ny")]) =
    (String.ofList [openBrace, quoteMark] ++ "a" ++ String.ofList [quoteMark, ':'] ++ "[1,null]," ++
      String.ofList [quoteMark] ++ "b" ++ String.ofList [quoteMark, ':', quoteMark] ++ "x" ++
      String.ofList [backslash] ++ "ny" ++ String.ofList [quoteMark, closeBrace]).toList := by
  decide +kernel

end Json
