import Mathlib.Tactic

/-!
# Comma-separated text

Rows of cells as text: records end with a line feed, which the last one may lack, cells are
separated by commas, and a cell in quotation marks may hold any character, a mark in it written
twice.  `File rows text` is the grammar and `decode` reads a text character by character.

* `file_iff`     a text is a cell and what follows it;
* `read_iff`     what the reader gives from the middle of a cell on;
* `decode_iff`   the reader gives the rows the grammar gives, and no others.
-/

set_option linter.unusedSectionVars false

namespace Csv

def quoteMark : Char := Char.ofNat 0x22
def comma : Char := ','
def lineFeed : Char := Char.ofNat 0x0a
def carriageReturn : Char := Char.ofNat 0x0d

/-- a character that only stands in a quoted cell -/
def Special (c : Char) : Prop := c = quoteMark ∨ c = comma ∨ c = lineFeed ∨ c = carriageReturn

instance (c : Char) : Decidable (Special c) := by
  unfold Special
  infer_instance

/-! ## the grammar -/

/-- the characters of a quoted cell, its marks written twice -/
def escape (cell : List Char) : List Char :=
  cell.flatMap fun c => if c = quoteMark then [quoteMark, quoteMark] else [c]

def quote (cell : List Char) : List Char := quoteMark :: (escape cell ++ [quoteMark])

inductive Field : List Char → List Char → Prop
  | plain {cell : List Char} (h : ∀ c ∈ cell, ¬ Special c) : Field cell cell
  | quoted (cell : List Char) : Field cell (quote cell)

inductive Record : List (List Char) → List Char → Prop
  | last {cell text : List Char} (h : Field cell text) : Record [cell] text
  | cons {cell text rest : List Char} {cells : List (List Char)} (h : Field cell text)
      (hs : Record cells rest) : Record (cell :: cells) (text ++ comma :: rest)

/-- a record of one empty cell has no text, and needs its line feed -/
inductive File : List (List (List Char)) → List Char → Prop
  | nil : File [] []
  | last {cells : List (List Char)} {text : List Char} (h : Record cells text) (hne : text ≠ []) :
      File [cells] text
  | cons {cells : List (List Char)} {text rest : List Char} {rows : List (List (List Char))}
      (h : Record cells text) (hs : File rows rest) : File (cells :: rows) (text ++ lineFeed :: rest)

/-! ## the reader -/

/-- where the reader stands in a cell -/
inductive State where
  | start
  | plain
  | quoted
  /-- after a mark in a quoted cell: it ends the cell, or another one follows -/
  | mark
  deriving DecidableEq, Repr

/-- what is still to be read: the rest of a cell, of its record, and the rows after it -/
structure Rest where
  cell : List Char
  cells : List (List Char)
  rows : List (List (List Char))
  deriving DecidableEq, Repr

namespace Rest

def none : Rest := ⟨[], [], []⟩

def push (c : Char) (r : Rest) : Rest := { r with cell := c :: r.cell }

/-- the record from here on -/
def record (r : Rest) : List (List Char) := r.cell :: r.cells

/-- a cell ends here, and `r` is another one of its record -/
def nextCell (r : Rest) : Rest := ⟨[], r.record, r.rows⟩

/-- a record ends here, and `r` begins another one -/
def nextRecord (r : Rest) : Rest := ⟨[], [], r.record :: r.rows⟩

end Rest

def read : State → List Char → Option Rest
  | .quoted, [] => Option.none
  | _, [] => some Rest.none
  | .quoted, c :: text =>
    if c = quoteMark then read .mark text else (read .quoted text).map (Rest.push c)
  | state, c :: text =>
    if c = comma then (read .start text).map Rest.nextCell
    else if c = lineFeed then
      if text = [] then some Rest.none else (read .start text).map Rest.nextRecord
    else if c = quoteMark then
      match state with
      | .start => read .quoted text
      | .mark => (read .quoted text).map (Rest.push quoteMark)
      | _ => Option.none
    else if c = carriageReturn ∨ state = .mark then Option.none
    else (read .plain text).map (Rest.push c)

def decode (text : List Char) : Option (List (List (List Char))) :=
  if text = [] then some [] else (read .start text).map fun r => r.record :: r.rows

/-! ## what the grammar says from a cell on -/

/-- after a cell: the end, the next record, or the next cell of the record -/
inductive Tail : List (List Char) → List (List (List Char)) → List Char → Prop
  | finish : Tail [] [] []
  | record {rows : List (List (List Char))} {rest : List Char} (h : File rows rest) :
      Tail [] rows (lineFeed :: rest)
  | cell {cell text rest : List Char} {cells : List (List Char)} {rows : List (List (List Char))}
      (h : Field cell text) (hs : Tail cells rows rest) :
      Tail (cell :: cells) rows (comma :: (text ++ rest))

theorem Tail.split {cells : List (List Char)} {rows : List (List (List Char))} {rest : List Char}
    (h : Tail cells rows rest) : ∀ {cell text : List Char}, Field cell text →
      ∃ record tail : List Char, Record (cell :: cells) record ∧ text ++ rest = record ++ tail ∧
        (tail = [] ∧ rows = [] ∨ ∃ next, tail = lineFeed :: next ∧ File rows next) := by
  induction h with
  | finish =>
    intro cell text hfield
    exact ⟨text, [], .last hfield, rfl, .inl ⟨rfl, rfl⟩⟩
  | record hfile =>
    intro cell text hfield
    exact ⟨text, _, .last hfield, rfl, .inr ⟨_, rfl, hfile⟩⟩
  | cell hnext _ ih =>
    intro cell text hfield
    obtain ⟨record, tail, hrecord, htext, htail⟩ := ih hnext
    refine ⟨text ++ comma :: record, tail, .cons hfield hrecord, ?_, htail⟩
    rw [htext, List.append_assoc, List.cons_append]

theorem Record.tail {cells : List (List Char)} {text : List Char} (h : Record cells text) :
    ∀ {rows : List (List (List Char))} {rest : List Char}, Tail [] rows rest →
      ∃ cell others start after, cells = cell :: others ∧ Field cell start ∧ Tail others rows after ∧
        text ++ rest = start ++ after := by
  induction h with
  | last hfield =>
    intro rows rest htail
    exact ⟨_, [], _, _, rfl, hfield, htail, rfl⟩
  | @cons cell text rest cells hfield hs ih =>
    intro rows after htail
    obtain ⟨next, others, start, remaining, hcells, hstart, hremaining, htext⟩ := ih htail
    refine ⟨cell, cells, text, comma :: (start ++ remaining), rfl, hfield, ?_, ?_⟩
    · rw [hcells]
      exact .cell hstart hremaining
    · rw [List.append_assoc, List.cons_append, htext]

/-- a text that is not empty is a cell and what follows it -/
theorem file_iff {rows : List (List (List Char))} {text : List Char} (hne : text ≠ []) :
    File rows text ↔ ∃ cell cells others start rest, rows = (cell :: cells) :: others ∧
      text = start ++ rest ∧ Field cell start ∧ Tail cells others rest := by
  constructor
  · intro h
    cases h with
    | nil => exact absurd rfl hne
    | last hrecord =>
      obtain ⟨cell, others, start, after, rfl, hstart, hafter, htext⟩ := hrecord.tail .finish
      rw [List.append_nil] at htext
      exact ⟨cell, others, [], start, after, rfl, htext, hstart, hafter⟩
    | cons hrecord hs =>
      obtain ⟨cell, others, start, after, rfl, hstart, hafter, htext⟩ := hrecord.tail (.record hs)
      exact ⟨cell, others, _, start, after, rfl, htext, hstart, hafter⟩
  · rintro ⟨cell, cells, others, start, rest, rfl, rfl, hfield, htail⟩
    obtain ⟨record, tail, hrecord, htext, ⟨rfl, rfl⟩ | ⟨next, rfl, hfile⟩⟩ := htail.split hfield
    · rw [List.append_nil] at htext
      rw [htext] at hne ⊢
      exact .last hrecord hne
    · rw [htext]
      exact .cons hrecord hfile

theorem file_nil {rows : List (List (List Char))} : File rows [] ↔ rows = [] := by
  constructor
  · intro h
    generalize htext : ([] : List Char) = text at h
    cases h with
    | nil => rfl
    | last _ hne => exact absurd htext.symm hne
    | cons => simp at htext
  · rintro rfl
    exact .nil

/-! ## what is read from a state on -/

def Reads : State → List Char → Rest → Prop
  | .start, text, r => ∃ start rest, text = start ++ rest ∧ Field r.cell start ∧ Tail r.cells r.rows rest
  | .plain, text, r =>
    ∃ rest, text = r.cell ++ rest ∧ (∀ c ∈ r.cell, ¬ Special c) ∧ Tail r.cells r.rows rest
  | .quoted, text, r =>
    ∃ rest, text = escape r.cell ++ quoteMark :: rest ∧ Tail r.cells r.rows rest
  | .mark, text, r =>
    (r.cell = [] ∧ Tail r.cells r.rows text) ∨
      ∃ cell rest, r.cell = quoteMark :: cell ∧ text = quoteMark :: (escape cell ++ quoteMark :: rest) ∧
        Tail r.cells r.rows rest

theorem escape_nil : escape [] = [] := rfl

theorem escape_mark (cell : List Char) :
    escape (quoteMark :: cell) = quoteMark :: quoteMark :: escape cell := by
  simp [escape]

theorem escape_other {c : Char} (h : c ≠ quoteMark) (cell : List Char) :
    escape (c :: cell) = c :: escape cell := by
  simp [escape, h]

theorem field_cases {cell text : List Char} (h : Field cell text) :
    (text = cell ∧ ∀ c ∈ cell, ¬ Special c) ∨ text = quote cell := by
  cases h with
  | plain hplain => exact .inl ⟨rfl, hplain⟩
  | quoted => exact .inr rfl

theorem field_nil {cell : List Char} : Field cell [] ↔ cell = [] := by
  constructor
  · intro h
    cases h
    rfl
  · rintro rfl
    exact .plain (by simp)

theorem tail_nil {cells : List (List Char)} {rows : List (List (List Char))} :
    Tail cells rows [] ↔ cells = [] ∧ rows = [] := by
  constructor
  · intro h
    cases h
    exact ⟨rfl, rfl⟩
  · rintro ⟨rfl, rfl⟩
    exact .finish

theorem tail_comma {cells : List (List Char)} {rows : List (List (List Char))} {text : List Char} :
    Tail cells rows (comma :: text) ↔
      ∃ r : Rest, cells = r.record ∧ rows = r.rows ∧ Reads .start text r := by
  constructor
  · intro h
    generalize hwhole : comma :: text = whole at h
    cases h with
    | finish => simp at hwhole
    | record => exact absurd (List.cons.inj hwhole).1 (by decide)
    | @cell cell start rest cells _ hfield hs =>
      exact ⟨⟨cell, cells, rows⟩, rfl, rfl, start, rest, (List.cons.inj hwhole).2, hfield, hs⟩
  · rintro ⟨r, rfl, rfl, start, rest, rfl, hfield, hs⟩
    exact .cell hfield hs

theorem tail_lineFeed {cells : List (List Char)} {rows : List (List (List Char))} {text : List Char} :
    Tail cells rows (lineFeed :: text) ↔ cells = [] ∧ File rows text := by
  constructor
  · intro h
    generalize hwhole : lineFeed :: text = whole at h
    cases h with
    | finish => simp at hwhole
    | record hfile =>
      rw [(List.cons.inj hwhole).2]
      exact ⟨rfl, hfile⟩
    | cell => exact absurd (List.cons.inj hwhole).1 (by decide)
  · rintro ⟨rfl, hfile⟩
    exact .record hfile

theorem tail_separator {cells : List (List Char)} {rows : List (List (List Char))} {c : Char}
    {text : List Char} (h : Tail cells rows (c :: text)) : c = comma ∨ c = lineFeed := by
  cases h with
  | record => exact .inr rfl
  | cell => exact .inl rfl

theorem special_separator {c : Char} (h : c = comma ∨ c = lineFeed) : Special c ∧ c ≠ quoteMark := by
  rcases h with rfl | rfl
  · exact ⟨.inr (.inl rfl), by decide⟩
  · exact ⟨.inr (.inr (.inl rfl)), by decide⟩

/-- a separator ends the cell that is read -/
theorem reads_separator {state : State} (hstate : state ≠ .quoted) {c : Char}
    (h : c = comma ∨ c = lineFeed) {text : List Char} {r : Rest} :
    Reads state (c :: text) r ↔ r.cell = [] ∧ Tail r.cells r.rows (c :: text) := by
  obtain ⟨hspecial, hmark⟩ := special_separator h
  cases state with
  | quoted => exact absurd rfl hstate
  | start =>
    constructor
    · rintro ⟨start, rest, htext, hfield, htail⟩
      cases start with
      | nil =>
        rw [htext]
        exact ⟨field_nil.mp hfield, htail⟩
      | cons d start =>
        rw [List.cons_append] at htext
        have hd : c = d := (List.cons.inj htext).1
        rcases field_cases hfield with ⟨hstart, hplain⟩ | hstart
        · rw [← hstart] at hplain
          exact absurd (hd ▸ hspecial) (hplain d List.mem_cons_self)
        · rw [quote] at hstart
          exact absurd (hd.trans (List.cons.inj hstart).1) hmark
    · rintro ⟨hcell, htail⟩
      exact ⟨[], c :: text, rfl, field_nil.mpr hcell, htail⟩
  | plain =>
    constructor
    · rintro ⟨rest, htext, hplain, htail⟩
      cases hcell : r.cell with
      | nil =>
        rw [htext, hcell]
        exact ⟨rfl, htail⟩
      | cons d cell =>
        rw [hcell] at htext hplain
        have hd : c = d := (List.cons.inj htext).1
        exact absurd (hd ▸ hspecial) (hplain d List.mem_cons_self)
    · rintro ⟨hcell, htail⟩
      refine ⟨c :: text, ?_, ?_, htail⟩
      · rw [hcell]
        rfl
      · rw [hcell]
        simp
  | mark =>
    constructor
    · rintro (h | ⟨cell, rest, _, htext, _⟩)
      · exact h
      · exact absurd (List.cons.inj htext).1 hmark
    · intro h
      exact .inl h

theorem Rest.push_iff {c : Char} {r r' : Rest} :
    r'.push c = r ↔ r.cell = c :: r'.cell ∧ r.cells = r'.cells ∧ r.rows = r'.rows := by
  obtain ⟨cell, cells, rows⟩ := r
  simp only [Rest.push, Rest.mk.injEq]
  constructor
  · rintro ⟨rfl, rfl, rfl⟩
    exact ⟨rfl, rfl, rfl⟩
  · rintro ⟨rfl, rfl, rfl⟩
    exact ⟨rfl, rfl, rfl⟩

/-- a mark in a quoted cell -/
theorem reads_quoted_mark {text : List Char} {r : Rest} :
    Reads .quoted (quoteMark :: text) r ↔ Reads .mark text r := by
  constructor
  · rintro ⟨rest, htext, htail⟩
    cases hcell : r.cell with
    | nil =>
      rw [hcell, escape_nil, List.nil_append] at htext
      rw [(List.cons.inj htext).2]
      exact .inl ⟨hcell, htail⟩
    | cons c cell =>
      rw [hcell] at htext
      by_cases hc : c = quoteMark
      · subst hc
        rw [escape_mark] at htext
        exact .inr ⟨cell, rest, hcell, (List.cons.inj htext).2, htail⟩
      · rw [escape_other hc] at htext
        exact absurd (List.cons.inj htext).1.symm hc
  · rintro (⟨hcell, htail⟩ | ⟨cell, rest, hcell, rfl, htail⟩)
    · refine ⟨text, ?_, htail⟩
      rw [hcell]
      rfl
    · refine ⟨rest, ?_, htail⟩
      rw [hcell, escape_mark]
      rfl

/-- another character of a quoted cell -/
theorem reads_quoted_other {c : Char} (hc : c ≠ quoteMark) {text : List Char} {r : Rest} :
    Reads .quoted (c :: text) r ↔ ∃ r' : Rest, Reads .quoted text r' ∧ r'.push c = r := by
  constructor
  · rintro ⟨rest, htext, htail⟩
    cases hcell : r.cell with
    | nil =>
      rw [hcell, escape_nil, List.nil_append] at htext
      exact absurd (List.cons.inj htext).1 hc
    | cons d cell =>
      rw [hcell] at htext
      by_cases hd : d = quoteMark
      · subst hd
        rw [escape_mark] at htext
        exact absurd (List.cons.inj htext).1 hc
      · rw [escape_other hd, List.cons_append] at htext
        obtain ⟨rfl, htext'⟩ := List.cons.inj htext
        exact ⟨⟨cell, r.cells, r.rows⟩, ⟨rest, htext', htail⟩, Rest.push_iff.mpr ⟨hcell, rfl, rfl⟩⟩
  · rintro ⟨r', ⟨rest, rfl, htail⟩, hpush⟩
    obtain ⟨hcell, hcells, hrows⟩ := Rest.push_iff.mp hpush
    refine ⟨rest, ?_, ?_⟩
    · rw [hcell, escape_other hc]
      rfl
    · rw [hcells, hrows]
      exact htail

/-- a quoted cell begins -/
theorem reads_start_mark {text : List Char} {r : Rest} :
    Reads .start (quoteMark :: text) r ↔ Reads .quoted text r := by
  constructor
  · rintro ⟨start, rest, htext, hfield, htail⟩
    rcases field_cases hfield with ⟨rfl, hplain⟩ | rfl
    · cases hcell : r.cell with
      | nil =>
        rw [hcell, List.nil_append] at htext
        rw [← htext] at htail
        exact absurd (tail_separator htail) (by decide)
      | cons d cell =>
        rw [hcell] at htext hplain
        have hd : quoteMark = d := (List.cons.inj htext).1
        exact absurd (.inl hd.symm) (hplain d List.mem_cons_self)
    · rw [quote, List.cons_append, List.append_assoc] at htext
      exact ⟨rest, (List.cons.inj htext).2, htail⟩
  · rintro ⟨rest, rfl, htail⟩
    refine ⟨quote r.cell, rest, ?_, .quoted _, htail⟩
    rw [quote, List.cons_append, List.append_assoc]
    rfl

theorem reads_mark_mark {text : List Char} {r : Rest} :
    Reads .mark (quoteMark :: text) r ↔ ∃ r' : Rest, Reads .quoted text r' ∧ r'.push quoteMark = r := by
  constructor
  · rintro (⟨_, htail⟩ | ⟨cell, rest, hcell, htext, htail⟩)
    · exact absurd (tail_separator htail) (by decide)
    · exact ⟨⟨cell, r.cells, r.rows⟩, ⟨rest, (List.cons.inj htext).2, htail⟩,
        Rest.push_iff.mpr ⟨hcell, rfl, rfl⟩⟩
  · rintro ⟨r', ⟨rest, rfl, htail⟩, hpush⟩
    obtain ⟨hcell, hcells, hrows⟩ := Rest.push_iff.mp hpush
    refine .inr ⟨r'.cell, rest, hcell, rfl, ?_⟩
    rw [hcells, hrows]
    exact htail

/-- outside quotation marks a character that needs them is not read -/
theorem not_reads_special {state : State} (hstate : state = .plain ∨ state = .start) {c : Char}
    (hspecial : Special c) (hc : ¬ (c = comma ∨ c = lineFeed)) (hmark : state = .start → c ≠ quoteMark)
    {text : List Char} {r : Rest} : ¬ Reads state (c :: text) r := by
  rcases hstate with rfl | rfl
  · rintro ⟨rest, htext, hplain, htail⟩
    cases hcell : r.cell with
    | nil =>
      rw [hcell, List.nil_append] at htext
      rw [← htext] at htail
      exact hc (tail_separator htail)
    | cons d cell =>
      rw [hcell] at htext hplain
      have hd : c = d := (List.cons.inj htext).1
      exact hplain d List.mem_cons_self (hd ▸ hspecial)
  · rintro ⟨start, rest, htext, hfield, htail⟩
    rcases field_cases hfield with ⟨rfl, hplain⟩ | rfl
    · cases hcell : r.cell with
      | nil =>
        rw [hcell, List.nil_append] at htext
        rw [← htext] at htail
        exact hc (tail_separator htail)
      | cons d cell =>
        rw [hcell] at htext hplain
        have hd : c = d := (List.cons.inj htext).1
        exact hplain d List.mem_cons_self (hd ▸ hspecial)
    · rw [quote] at htext
      exact hmark rfl (List.cons.inj htext).1

/-- a character of a cell without quotation marks -/
theorem reads_plain {state : State} (hstate : state = .plain ∨ state = .start) {c : Char}
    (hplain : ¬ Special c) {text : List Char} {r : Rest} :
    Reads state (c :: text) r ↔ ∃ r' : Rest, Reads .plain text r' ∧ r'.push c = r := by
  have hseparator : ¬ (c = comma ∨ c = lineFeed) := fun h => hplain (special_separator h).1
  have hread : ∀ rest, c :: text = r.cell ++ rest → (∀ d ∈ r.cell, ¬ Special d) →
      Tail r.cells r.rows rest → ∃ r' : Rest, Reads .plain text r' ∧ r'.push c = r := by
    intro rest htext hall htail
    cases hcell : r.cell with
    | nil =>
      rw [hcell, List.nil_append] at htext
      rw [← htext] at htail
      exact absurd (tail_separator htail) hseparator
    | cons d cell =>
      rw [hcell, List.cons_append] at htext
      rw [hcell] at hall
      obtain ⟨rfl, htext'⟩ := List.cons.inj htext
      exact ⟨⟨cell, r.cells, r.rows⟩, ⟨rest, htext', fun d hd => hall d (List.mem_cons_of_mem _ hd), htail⟩,
        Rest.push_iff.mpr ⟨hcell, rfl, rfl⟩⟩
  have hback : (∃ r' : Rest, Reads .plain text r' ∧ r'.push c = r) →
      ∃ rest, c :: text = r.cell ++ rest ∧ (∀ d ∈ r.cell, ¬ Special d) ∧ Tail r.cells r.rows rest := by
    rintro ⟨r', ⟨rest, rfl, hall, htail⟩, hpush⟩
    obtain ⟨hcell, hcells, hrows⟩ := Rest.push_iff.mp hpush
    refine ⟨rest, ?_, ?_, ?_⟩
    · rw [hcell]
      rfl
    · rw [hcell]
      intro d hd
      rcases List.mem_cons.mp hd with rfl | hd
      · exact hplain
      · exact hall d hd
    · rw [hcells, hrows]
      exact htail
  rcases hstate with rfl | rfl
  · constructor
    · rintro ⟨rest, htext, hall, htail⟩
      exact hread rest htext hall htail
    · exact hback
  · constructor
    · rintro ⟨start, rest, htext, hfield, htail⟩
      rcases field_cases hfield with ⟨rfl, hall⟩ | rfl
      · exact hread rest htext hall htail
      · rw [quote] at htext
        exact absurd (.inl (List.cons.inj htext).1) hplain
    · intro h
      obtain ⟨rest, htext, hall, htail⟩ := hback h
      exact ⟨r.cell, rest, htext, .plain hall, htail⟩

theorem not_reads_after_mark {c : Char} (hseparator : ¬ (c = comma ∨ c = lineFeed)) (hc : c ≠ quoteMark)
    {text : List Char} {r : Rest} : ¬ Reads .mark (c :: text) r := by
  rintro (⟨_, htail⟩ | ⟨cell, rest, _, htext, _⟩)
  · exact hseparator (tail_separator htail)
  · exact hc (List.cons.inj htext).1

/-! ## the reader reads the grammar -/

theorem reads_nil {state : State} (hstate : state ≠ .quoted) {r : Rest} :
    Reads state [] r ↔ r = Rest.none := by
  obtain ⟨cell, cells, rows⟩ := r
  cases state with
  | quoted => exact absurd rfl hstate
  | start =>
    constructor
    · rintro ⟨start, rest, htext, hfield, htail⟩
      obtain ⟨rfl, rfl⟩ := List.append_eq_nil_iff.mp htext.symm
      obtain ⟨rfl, rfl⟩ := tail_nil.mp htail
      obtain rfl := field_nil.mp hfield
      rfl
    · intro h
      cases h
      exact ⟨[], [], rfl, field_nil.mpr rfl, .finish⟩
  | plain =>
    constructor
    · rintro ⟨rest, htext, _, htail⟩
      obtain ⟨rfl, rfl⟩ := List.append_eq_nil_iff.mp htext.symm
      obtain ⟨rfl, rfl⟩ := tail_nil.mp htail
      rfl
    · intro h
      cases h
      exact ⟨[], rfl, by simp, .finish⟩
  | mark =>
    constructor
    · rintro (⟨rfl, htail⟩ | ⟨_, _, _, htext, _⟩)
      · obtain ⟨rfl, rfl⟩ := tail_nil.mp htail
        rfl
      · simp at htext
    · intro h
      cases h
      exact .inl ⟨rfl, .finish⟩

/-- what `decode` makes of a text, once the cells of the text are read as they should be -/
theorem decode_reads {text : List Char}
    (hread : ∀ r, read .start text = some r ↔ Reads .start text r) {rows : List (List (List Char))} :
    decode text = some rows ↔ File rows text := by
  unfold decode
  by_cases hne : text = []
  · rw [if_pos hne, hne, file_nil, Option.some.injEq]
    exact eq_comm
  · rw [if_neg hne, file_iff hne, Option.map_eq_some_iff]
    constructor
    · rintro ⟨r, hr, rfl⟩
      obtain ⟨start, rest, htext, hfield, htail⟩ := (hread r).mp hr
      exact ⟨_, _, _, start, rest, rfl, htext, hfield, htail⟩
    · rintro ⟨cell, cells, others, start, rest, rfl, htext, hfield, htail⟩
      exact ⟨⟨cell, cells, others⟩, (hread _).mpr ⟨start, rest, htext, hfield, htail⟩, rfl⟩

theorem read_separator {state : State} (hstate : state ≠ .quoted) {c : Char}
    (h : c = comma ∨ c = lineFeed) {text : List Char} (ih : ∀ r, read .start text = some r ↔ Reads .start text r)
    {r : Rest} : read state (c :: text) = some r ↔ Reads state (c :: text) r := by
  obtain ⟨cell, cells, rows⟩ := r
  rw [reads_separator hstate h]
  rcases h with rfl | rfl
  · have hread : read state (comma :: text) = (read .start text).map Rest.nextCell := by
      cases state with
      | quoted => exact absurd rfl hstate
      | _ => rfl
    rw [hread, Option.map_eq_some_iff, tail_comma]
    constructor
    · rintro ⟨r, hr, heq⟩
      obtain ⟨rfl, rfl, rfl⟩ := Rest.mk.inj heq
      exact ⟨rfl, r, rfl, rfl, (ih r).mp hr⟩
    · rintro ⟨rfl, r, rfl, rfl, hr⟩
      exact ⟨r, (ih r).mpr hr, rfl⟩
  · have hread : read state (lineFeed :: text) =
        if text = [] then some Rest.none else (read .start text).map Rest.nextRecord := by
      cases state with
      | quoted => exact absurd rfl hstate
      | _ => rfl
    have hdecode : read state (lineFeed :: text) = (decode text).map fun rows => ⟨[], [], rows⟩ := by
      rw [hread, decode]
      by_cases hne : text = []
      · rw [if_pos hne, if_pos hne]
        rfl
      · rw [if_neg hne, if_neg hne, Option.map_map]
        rfl
    rw [hdecode, Option.map_eq_some_iff, tail_lineFeed, ← decode_reads ih]
    constructor
    · rintro ⟨rows, hrows, heq⟩
      obtain ⟨rfl, rfl, rfl⟩ := Rest.mk.inj heq
      exact ⟨rfl, rfl, hrows⟩
    · rintro ⟨rfl, rfl, hrows⟩
      exact ⟨rows, hrows, rfl⟩

theorem read_iff (text : List Char) :
    ∀ (state : State) (r : Rest), read state text = some r ↔ Reads state text r := by
  induction text with
  | nil =>
    intro state r
    by_cases hstate : state = .quoted
    · subst hstate
      constructor
      · intro h
        cases h
      · rintro ⟨rest, htext, _⟩
        simp at htext
    · have hread : read state [] = some Rest.none := by
        cases state with
        | quoted => exact absurd rfl hstate
        | _ => rfl
      rw [hread, reads_nil hstate, Option.some.injEq]
      exact eq_comm
  | cons c text ih =>
    intro state r
    by_cases hstate : state = .quoted
    · subst hstate
      by_cases hc : c = quoteMark
      · rw [hc, reads_quoted_mark]
        exact ih .mark r
      · have hread : read .quoted (c :: text) = (read .quoted text).map (Rest.push c) := by
          simp only [read, if_neg hc]
        rw [hread, Option.map_eq_some_iff, reads_quoted_other hc]
        exact exists_congr fun r' => and_congr_left' (ih .quoted r')
    · by_cases hseparator : c = comma ∨ c = lineFeed
      · exact read_separator hstate hseparator (ih .start)
      · have hcomma : c ≠ comma := fun h => hseparator (.inl h)
        have hlineFeed : c ≠ lineFeed := fun h => hseparator (.inr h)
        by_cases hc : c = quoteMark
        · subst hc
          cases state with
          | quoted => exact absurd rfl hstate
          | start =>
            rw [reads_start_mark]
            exact ih .quoted r
          | plain =>
            have hread : read .plain (quoteMark :: text) = Option.none := rfl
            rw [hread]
            exact iff_of_false (by simp)
              (not_reads_special (.inl rfl) (.inl rfl) hseparator (by simp))
          | mark =>
            have hread : read .mark (quoteMark :: text) = (read .quoted text).map (Rest.push quoteMark) := rfl
            rw [hread, Option.map_eq_some_iff, reads_mark_mark]
            exact exists_congr fun r' => and_congr_left' (ih .quoted r')
        · by_cases hmark : state = .mark
          · subst hmark
            have hread : read .mark (c :: text) = Option.none := by
              simp [read, hcomma, hlineFeed, hc]
            rw [hread]
            exact iff_of_false (by simp) (not_reads_after_mark hseparator hc)
          · have hplace : state = .plain ∨ state = .start := by
              cases state with
              | quoted => exact absurd rfl hstate
              | mark => exact absurd rfl hmark
              | start => exact .inr rfl
              | plain => exact .inl rfl
            by_cases hreturn : c = carriageReturn
            · have hread : read state (c :: text) = Option.none := by
                rw [hreturn]
                rcases hplace with rfl | rfl <;> rfl
              rw [hread]
              exact iff_of_false (by simp)
                (not_reads_special hplace (.inr (.inr (.inr hreturn))) hseparator fun _ => hc)
            · have hread : read state (c :: text) = (read .plain text).map (Rest.push c) := by
                rcases hplace with rfl | rfl <;> simp [read, hcomma, hlineFeed, hc, hreturn]
              have hspecial : ¬ Special c := by
                rintro (h | h | h | h)
                · exact hc h
                · exact hcomma h
                · exact hlineFeed h
                · exact hreturn h
              rw [hread, Option.map_eq_some_iff, reads_plain hplace hspecial]
              exact exists_congr fun r' => and_congr_left' (ih .plain r')

/-- a text decodes to the rows it has in the grammar -/
theorem decode_iff {text : List Char} {rows : List (List (List Char))} :
    decode text = some rows ↔ File rows text :=
  decode_reads (read_iff text .start)

end Csv
