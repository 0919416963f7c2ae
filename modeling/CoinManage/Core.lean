import Mathlib.Tactic

/-!
# Errors, numbers and the process around the ledger

What every module of the model shares: the errors the code throws, JavaScript's `number`, the
length of a JavaScript string, and the outside of the process (`Runtime`): the UUID generator,
the signing key and the date check of the validation library.
-/

/-! ## errors -/

/-- one complaint of a schema: the field it is about and what is wrong with it -/
structure ZodIssue where
  path : String
  code : String
  deriving DecidableEq, Repr

inductive LedgerError where
  /-- `new DomainError(statusCode, code, message)` -/
  | domain (statusCode : Nat) (code message : String)
  /-- a schema's `parse` refused its input -/
  | zod (issues : List ZodIssue)
  /-- the database refused a statement, with its SQLSTATE -/
  | database (sqlState : String)
  /-- `new Error(message)` -/
  | plain (message : String)
  deriving DecidableEq, Repr

/-- the `code` an API client sees, for errors that carry one -/
def LedgerError.code? : LedgerError → Option String
  | .domain _ code _ => some code
  | .database sqlState => some sqlState
  | .zod _ => none
  | .plain _ => none

/-! ## numbers -/

/-- JavaScript's `number`; a finite one is taken with its exact value -/
inductive JsNumber where
  | nan
  | infinity (negative : Bool)
  | finite (value : ℚ)
  deriving DecidableEq

namespace JsNumber

instance (n : Nat) : OfNat JsNumber n := ⟨.finite n⟩

def ofInt (n : ℤ) : JsNumber := .finite n

/-- `Number.isInteger` -/
def isInteger : JsNumber → Bool
  | .finite q => q.den == 1
  | _ => false

/-- `n >= x` -/
def natGe (n : Nat) : JsNumber → Bool
  | .nan => false
  | .infinity negative => negative
  | .finite q => decide (q ≤ n)

/-- `x >= 0` -/
def isNonnegative : JsNumber → Bool
  | .nan => false
  | .infinity negative => !negative
  | .finite q => decide (0 ≤ q)

/-- `x > 0` -/
def isPositive : JsNumber → Bool
  | .nan => false
  | .infinity negative => !negative
  | .finite q => decide (0 < q)

end JsNumber

/-! ## strings -/

/-- `s.length`: UTF-16 code units -/
def jsLength (s : String) : Nat :=
  (s.toList.map fun c => if c.toNat < 0x10000 then 1 else 2).sum

/-- `value ?? fallback` -/
def orElse {α : Type} (value : Option α) (fallback : α) : α := value.getD fallback

def isJsWhitespace (c : Char) : Bool :=
  let n := c.toNat
  (9 ≤ n && n ≤ 13) || n == 0x20 || n == 0xa0 || n == 0x1680 || (0x2000 ≤ n && n ≤ 0x200a) ||
    n == 0x2028 || n == 0x2029 || n == 0x202f || n == 0x205f || n == 0x3000 || n == 0xfeff

/-- `s.trim()` -/
def jsTrim (s : String) : String :=
  String.ofList ((s.toList.dropWhile isJsWhitespace).reverse.dropWhile isJsWhitespace).reverse

theorem dropWhile_all_false {α : Type} {p : α → Bool} {l : List α} (h : ∀ a ∈ l, p a = false) :
    l.dropWhile p = l := by
  cases l with
  | nil => rfl
  | cons a l => rw [List.dropWhile_cons_of_neg (by simp [h a])]

/-- a text without whitespace is its own trim -/
theorem jsTrim_eq_self {s : String} (h : ∀ c ∈ s.toList, isJsWhitespace c = false) :
    jsTrim s = s := by
  have hr : ∀ c ∈ s.toList.reverse, isJsWhitespace c = false := fun c hc =>
    h c (List.mem_reverse.mp hc)
  rw [jsTrim, dropWhile_all_false h, dropWhile_all_false hr, List.reverse_reverse,
    String.ofList_toList]

/-! ## JSON values -/

inductive Json where
  | null
  | bool (b : Bool)
  | number (n : JsNumber)
  | string (s : String)
  | array (items : List Json)
  | object (fields : List (String × Json))

/-! ## the process -/

/-- What the ledger code gets from outside the repository: `randomUUID` (the `n`-th value drawn
by the process), the identity that signs event contracts, zod's `datetime()` check, and the two
string functions whose tables are Unicode's: `toUpperCase` and `localeCompare(..) <= 0`. -/
structure Runtime where
  uuid : Nat → String
  systemId : String
  sign : Json → String
  isDatetime : String → Bool
  toUpperCase : String → String
  localeLe : String → String → Bool
