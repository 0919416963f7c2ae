import CoinManage.Ledger.Contracts

/-!
# Columns of the database

What PostgreSQL does to a value on its way into a column, and the server functions the queries
use.  A refused value throws with its SQLSTATE; the callers run in transactions.

* `varchar_ok`   a `VARCHAR(n)` holds its text cut to `n` characters, where only blanks are cut;
* `ofText_format` a `NUMERIC(36, 6)` written from the formatter's text holds the amount;
* `parse_sumText` reading back the text of a `sum(..)` gives the sum.
-/

/-- the process together with its database server: what a `uuid` and a `timestamptz` literal are
(as the driver prints them), the order of timestamps, and whether two fall on one day -/
structure PgServer extends Runtime where
  uuidLiteral : String → Option String
  timestamptz : String → Option String
  timestampLe : String → String → Bool
  sameDay : String → String → Bool

namespace Postgres

/-! ## texts -/

/-- `TEXT`: no null character -/
def text (s : String) : Except LedgerError String :=
  if Char.ofNat 0 ∈ s.toList then .error (.database "22021") else .ok s

/-- the first `n` characters -/
def cut (n : Nat) (s : String) : String := String.ofList (s.toList.take n)

/-- `VARCHAR(n)`: what is too long is refused, unless it only is by blanks at the end -/
def varchar (n : Nat) (s : String) : Except LedgerError String := do
  let s ← text s
  if s.length ≤ n then return s
  else if (s.toList.drop n).all (· = ' ') then return cut n s
  else throw (.database "22001")

/-- a column without `NOT NULL` -/
def nullable {α β : Type} (column : α → Except LedgerError β) :
    Option α → Except LedgerError (Option β)
  | none => return none
  | some a => do return some (← column a)

theorem cut_of_length_le {n : Nat} {s : String} (h : s.length ≤ n) : cut n s = s := by
  rw [cut, List.take_of_length_le (by rwa [String.length_toList]), String.ofList_toList]

theorem length_cut_le (n : Nat) (s : String) : (cut n s).length ≤ n := by
  rw [cut, String.length_ofList]
  exact List.length_take_le n s.toList

theorem text_ok {s t : String} (h : text s = .ok t) : s = t := by
  rw [text] at h
  split at h
  · cases h
  · exact Except.ok.inj h

theorem varchar_ok {n : Nat} {s t : String} (h : varchar n s = .ok t) : t = cut n s := by
  rw [varchar] at h
  cases hs : text s with
  | error e =>
    rw [hs] at h
    cases h
  | ok s' =>
    obtain rfl := text_ok hs
    rw [hs] at h
    replace h : (if s.length ≤ n then .ok s else if (s.toList.drop n).all (· = ' ') then
      .ok (cut n s) else .error (.database "22001") : Except LedgerError String) = .ok t := h
    split at h
    · next hle =>
      rw [cut_of_length_le hle]
      exact (Except.ok.inj h).symm
    · split at h
      · exact (Except.ok.inj h).symm
      · cases h

/-! ## identifiers, times and integers -/

section
variable (pg : PgServer)

/-- `UUID` -/
def uuid (s : String) : Except LedgerError String :=
  match pg.uuidLiteral s with
  | some u => .ok u
  | none => .error (.database "22P02")

/-- `TIMESTAMPTZ` -/
def timestamp (s : String) : Except LedgerError String :=
  match pg.timestamptz s with
  | some t => .ok t
  | none => .error (.database "22007")

end

/-- `INTEGER` and `BIGINT`, sent as the text JavaScript prints for the number -/
def integer (bits : Nat) : JsNumber → Except LedgerError ℤ
  | .finite q =>
    if q.den = 1 ∧ q.num.natAbs < 10 ^ 21 then
      if -2 ^ (bits - 1) ≤ q.num ∧ q.num < 2 ^ (bits - 1) then .ok q.num
      else .error (.database "22003")
    else .error (.database "22P02")
  | _ => .error (.database "22P02")

/-! ## amounts -/

/-- a value of `NUMERIC(36, 6)`, in units of 10^-6 -/
structure Numeric where
  units : ℤ
  inRange : units.natAbs < 10 ^ 36
  deriving DecidableEq

def Numeric.zero : Numeric := ⟨0, by decide⟩

/-- a decimal text with at most six decimals, as every amount is sent, is read exactly -/
def Numeric.ofText (s : String) : Except LedgerError Numeric :=
  match parseStoredKoriAmount s with
  | .error _ => .error (.database "22P02")
  | .ok units => if h : units.natAbs < 10 ^ 36 then .ok ⟨units, h⟩ else .error (.database "22003")

/-- a `NUMERIC(36, 6)` is printed with all its six decimals -/
def Numeric.text (n : Numeric) : String := formatKoriAmount n.units

theorem ofText_format {units : ℤ} {n : Numeric} (h : Numeric.ofText (formatKoriAmount units) = .ok n) :
    n.units = units := by
  rw [Numeric.ofText, parse_format] at h
  simp only at h
  split at h
  · rw [← Except.ok.inj h]
  · cases h

theorem parse_text (n : Numeric) : parseStoredKoriAmount n.text = .ok n.units := parse_format n.units

/-- `coalesce(sum(..)::text, '0')` over a column of amounts -/
def sumText (units : List ℤ) : String := if units = [] then "0" else formatKoriAmount units.sum

theorem parse_sumText (units : List ℤ) : parseStoredKoriAmount (sumText units) = .ok units.sum := by
  rw [sumText]
  split
  · next h =>
    subst h
    decide
  · exact parse_format units.sum

end Postgres

/-! ## a server for concrete runs -/

/-- a server whose process numbers its identifiers and whose times are compared as texts -/
def PgServer.numbered : PgServer where
  toRuntime := .numbered
  uuidLiteral s := if s.length = 36 then some s else none
  timestamptz s := if s.length = 24 then some s else none
  timestampLe a b := decide (a ≤ b)
  sameDay a b := decide (a.toList.take 10 = b.toList.take 10)
