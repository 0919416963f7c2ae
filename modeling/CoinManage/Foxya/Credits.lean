import CoinManage.Foxya.Watches
import CoinManage.Postgres.Runs

/-!
# What becomes of a credit

The cursor of a source is the only thing a cycle goes by, so what becomes of a row depends on where the cursor
stands and on the rows around it.

* `credit_accounted`           a row the cursor has passed is credited, with its amount, and no row is credited twice;
* `overtaken_never_credited`   a row that comes up in a millisecond the cursor has left is never credited;
* `stuck_behind_rejected`      nothing behind a row that rounds to nothing is ever credited;
* `crowded_never_passed`       nothing behind a millisecond with too many rows in it is ever credited.

All four are about any run: cycles of both services interleaved at will, each call of which may fail or lose its
answer, and a ledger in use.
-/

namespace Foxya
open Program

section
variable {S : Setting} {sourceName : FoxyaBalanceCreditSourceName} {row : FoxyaBalanceCreditRow} {w w' : World}

/-! ## every credit once -/

/-- no other row of the source has the id of this one -/
def Alone (f : FoxyaServer) (sourceName : FoxyaBalanceCreditSourceName) (row : FoxyaBalanceCreditRow)
    (db : FoxyaDb) : Prop :=
  ∀ other ∈ creditRows f db sourceName "KORI", other.foxyaId = row.foxyaId → other = row

/-- foxya lists the row, and no other of the source under its id -/
structure Listed (f : FoxyaServer) (sourceName : FoxyaBalanceCreditSourceName) (row : FoxyaBalanceCreditRow)
    (db : FoxyaDb) : Prop where
  listed : row ∈ creditRows f db sourceName "KORI"
  alone : Alone f sourceName row db

/-- the journal of a row: its rounded amount, from the clearing account to the available balance of its user -/
def creditEntry (sourceName : FoxyaBalanceCreditSourceName) (row : FoxyaBalanceCreditRow) : Postgres.Entry where
  referenceType := (referenceOf sourceName row.foxyaId).1
  referenceId := (referenceOf sourceName row.foxyaId).2
  currencyCode := "KORI"
  legs := DoubleEntry.mapAccounts Postgres.LedgerAccount.code
    (DoubleEntry.move Postgres.LedgerAccount.balanceCreditSync (.user (toString row.userId) .available)
      (roundedUnits row.amount))

/-- The row is credited at most once, and it is once the cursor of its source is at or past it. -/
structure Accounted (S : Setting) (sourceName : FoxyaBalanceCreditSourceName) (row : FoxyaBalanceCreditRow)
    (w : World) : Prop where
  once : w.ledger.under (referenceOf sourceName row.foxyaId) = [] ∨
    w.ledger.under (referenceOf sourceName row.foxyaId) = [creditEntry sourceName row]
  passed : ∀ p, w.creditStart S.f (S.options.cursorKey sourceName "KORI") = .ok (some p) → row.position ≤ p →
    w.ledger.under (referenceOf sourceName row.foxyaId) = [creditEntry sourceName row]

def creditWatch (f : FoxyaServer) (sourceName : FoxyaBalanceCreditSourceName) (row : FoxyaBalanceCreditRow) : Watch where
  sourceName := sourceName
  id := row.foxyaId
  books l := l = [] ∨ l = [creditEntry sourceName row]
  may start l := (∃ p ∈ start, row.position ≤ p) → l = [creditEntry sourceName row]
  done c l := c.foxyaId = row.foxyaId → l = [creditEntry sourceName row]
  stays := Listed f sourceName row

theorem creditEntry_of {c : FoxyaBalanceCreditLedgerSyncCandidate} {amount : ℤ}
    (hc : row.toCandidate S.f sourceName = .ok c) (hamount : parseStoredKoriAmount c.amount = .ok amount) :
    Postgres.externalCreditEntry (creditInput c "KORI" amount) = creditEntry sourceName row := by
  rw [creditCandidate_ok hc] at hamount ⊢
  have hunits : roundedUnits row.amount = amount := Except.ok.inj ((parse_format _).symm.trans hamount)
  subst hunits
  rfl

/-- the candidate of the row itself -/
theorem answers_own {c : FoxyaBalanceCreditLedgerSyncCandidate} {amount : ℤ} {cursorKey : String}
    (hc : row.toCandidate S.f sourceName = .ok c) (hamount : parseStoredKoriAmount c.amount = .ok amount) :
    ((creditWatch S.f sourceName row).rely S.pg S.f cursorKey).Answers
      (.applyExternalCredit (creditInput c "KORI" amount)) w
      (Unless fun w => w.ledger.under (referenceOf sourceName row.foxyaId) = [creditEntry sourceName row]) := by
  refine answers_write Watch.rely_handles rfl ?_ fun _ _ => trivial
  intro w₁ hinv _
  have hinv' : (creditWatch S.f sourceName row).Holds S.f cursorKey w₁ := hinv
  have hreference := Watch.credit_reference hc amount
  have hfits := reference_fits sourceName row.foxyaId
  rw [← hreference] at hfits
  obtain ⟨hsound, -, hown, hpaid⟩ := Postgres.applyExternalCredit_under S.pg hinv'.sound hfits.1 hfits.2
  rw [hreference, creditEntry_of hc hamount] at hown
  rw [hreference] at hpaid
  show ((creditWatch S.f sourceName row).Holds S.f cursorKey
      { w₁ with ledger := (Postgres.applyExternalCredit S.pg (creditInput c "KORI" amount) w₁.ledger).2 }) ∧
    (creditWatch S.f sourceName row).Grows w₁
      { w₁ with ledger := (Postgres.applyExternalCredit S.pg (creditInput c "KORI" amount) w₁.ledger).2 } ∧
    Unless _ (Postgres.applyExternalCredit S.pg (creditInput c "KORI" amount) w₁.ledger).1
      { w₁ with ledger := (Postgres.applyExternalCredit S.pg (creditInput c "KORI" amount) w₁.ledger).2 }
  rcases hown with hsame | ⟨-, hnew⟩
  · obtain ⟨hholds, hgrows⟩ := hinv'.quiet hsound hsame
    refine ⟨hholds, hgrows, ?_⟩
    cases hr : (Postgres.applyExternalCredit S.pg (creditInput c "KORI" amount) w₁.ledger).1 with
    | error e => trivial
    | ok r => exact hholds.books.resolve_left (hpaid r hr).2
  · have hgrows : (creditWatch S.f sourceName row).Grows w₁
        { w₁ with ledger := (Postgres.applyExternalCredit S.pg (creditInput c "KORI" amount) w₁.ledger).2 } :=
      ⟨fun _ _ _ => hnew, fun _ _ _ => hnew⟩
    refine ⟨hinv'.write hsound (Or.inr hnew) hgrows, hgrows, ?_⟩
    cases (Postgres.applyExternalCredit S.pg (creditInput c "KORI" amount) w₁.ledger).1 with
    | error e => trivial
    | ok r => exact hnew

theorem creditWatch_pages (hclock : OneClock S.pg S.f)
    (hcode : Postgres.normalizeCode S.pg row.currencyCode = "KORI") (limit : Nat) :
    Watch.PagesOk (creditWatch S.f sourceName row) S limit := by
  intro w start cs hinv hmay hrows
  have halone : ∀ {c : FoxyaBalanceCreditLedgerSyncCandidate} {x : FoxyaBalanceCreditRow},
      x ∈ creditRows S.f w.foxya sourceName "KORI" → x.toCandidate S.f sourceName = .ok c →
      c.foxyaId = row.foxyaId → x = row := by
    intro c x hx hc hid
    rw [creditCandidate_ok hc] at hid
    exact hinv.stays.alone x hx hid
  constructor
  · intro done c rest w₁ hcs _ _
    have hmem : c ∈ cs := by
      rw [hcs]
      exact List.mem_append_right done List.mem_cons_self
    obtain ⟨x, hx, hxc⟩ := Watch.forall₂_right hrows hmem
    have hlisted := (Keyset.mem_page hx).1
    by_cases hid : c.foxyaId = row.foxyaId
    · obtain rfl := halone hlisted hxc hid
      apply syncCredit_relies
      · intro hskip
        rw [creditCandidate_ok hxc] at hskip
        exact absurd hcode hskip
      · intro amount _ hamount
        apply (answers_own hxc hamount).mono
        exact fun _ _ => Unless.imp fun _ h _ => h
    · have hother : referenceOf sourceName row.foxyaId ≠ referenceOf sourceName x.foxyaId := by
        intro h
        rw [creditCandidate_ok hxc] at hid
        exact hid (reference_injective h).2.symm
      apply syncCredit_relies
      · exact fun _ h => absurd h hid
      · intro amount _ _
        apply (Watch.answers_other (W := creditWatch S.f sourceName row) hxc hother amount).mono
        exact fun _ _ => Unless.imp fun _ _ h => absurd h hid
  · intro done y rest w₁ now hcs hgrows hfacts
    obtain ⟨x, hx, hxy, hreaches⟩ := Watch.page_reaches hrows hcs
    apply Watch.answers_place hclock hxy
    intro w₂ hgrows₂ hpassed
    obtain ⟨p, hp, hle⟩ := hpassed
    obtain rfl := Option.some.inj hp
    have hxle : row.position ≤ x.position := hle.trans (toLex_le (Nat.div_mul_le_self _ _))
    have hfact : ∀ d ∈ done ++ [y], d.foxyaId = row.foxyaId →
        (creditWatch S.f sourceName row).journals w₂ = [creditEntry sourceName row] :=
      fun d hd => hgrows₂.done d (hfacts d hd)
    have hid : ∀ {d : FoxyaBalanceCreditLedgerSyncCandidate}, row.toCandidate S.f sourceName = .ok d →
        d.foxyaId = row.foxyaId := by
      intro d hd
      rw [creditCandidate_ok hd]
    rcases eq_or_lt_of_le hxle with heq | hlt
    · -- the row of the place that is saved
      have hsame : x.foxyaId = row.foxyaId := congrArg Prod.snd (toLex.injective heq.symm)
      obtain rfl := hinv.stays.alone x hx hsame
      exact hfact y (List.mem_append_right done List.mem_cons_self) (hid hxy)
    · rcases hreaches row hinv.stays.listed hlt with ⟨q, hq, hle'⟩ | ⟨d, hd, hrow⟩
      · exact hgrows₂.may start (hgrows.may start hmay) ⟨q, hq, hle'⟩
      · exact hfact d hd (hid hrow)

/-- **every credit once, and none is skipped** -/
theorem credit_accounted (hclock : OneClock S.pg S.f) (hcode : Postgres.normalizeCode S.pg row.currencyCode = "KORI")
    (hsound : w.ledger.JournalsSound) (hlisted : Listed S.f sourceName row w.foxya)
    (hw : Accounted S sourceName row w)
    (hrun : Reached S anyLimit (LeavesSource sourceName) (Listed S.f sourceName row) w w') :
    Accounted S sourceName row w' := by
  have hholds : (creditWatch S.f sourceName row).Holds S.f (S.options.cursorKey sourceName "KORI") w := by
    refine ⟨hsound, hlisted, hw.once, ?_⟩
    intro start hstart hpassed
    obtain ⟨p, rfl, hle⟩ := hpassed
    exact hw.passed p hstart hle
  have hafter := Watch.reached (W := creditWatch S.f sourceName row)
    (fun limit _ => creditWatch_pages hclock hcode limit) (fun _ h => h) hholds hrun
  refine ⟨hafter.books, ?_⟩
  intro p hstart hle
  exact hafter.cursor (some p) hstart ⟨p, rfl, hle⟩

def exampleSetting : Setting where
  pg := examplePg
  f := exampleFoxya
  limits := ⟨10000000, 10000000⟩
  options := ⟨"KORI", none⟩
  depositOptions := ⟨"KORI", none⟩

def mined (id : FoxyaId) (amount : ℚ) (createdAt : Nat) : MiningHistoryRow where
  id := id
  userId := some 7
  amount := amount
  status := "COMPLETED"
  createdAt := createdAt
  deletedAt := none

/-- foxya has credited these, and the ledger nothing -/
def exampleWorld (rows : List MiningHistoryRow) (cursors : List FoxyaBalanceCreditLedgerSyncCursor) : World where
  foxya := ⟨[], rows, [], [], [], [], []⟩
  ledger := Postgres.Db.empty
  creditCursors := cursors
  depositCursors := []

/-- one cycle of the mining history -/
def exampleCycle (limit : Nat) (w : World) : World :=
  ((runCreditCycle exampleSetting.pg exampleSetting.options .miningHistory limit).run
    (carryOut exampleSetting.pg exampleSetting.f) w).2

def exampleRow : FoxyaBalanceCreditRow := ⟨1, 7, "KORI", 3 / 2, 1767225600000250⟩

theorem credit_accounted_example :
    (exampleCycle 10 (exampleWorld [mined 1 (3 / 2) 1767225600000250] [])).ledger.under
      (referenceOf .miningHistory 1) = [creditEntry .miningHistory exampleRow] := by
  have hlisted : Listed exampleFoxya .miningHistory exampleRow
      (exampleWorld [mined 1 (3 / 2) 1767225600000250] []).foxya := by
    constructor
    · decide +kernel
    · unfold Alone
      decide +kernel
  have hw : Accounted exampleSetting .miningHistory exampleRow
      (exampleWorld [mined 1 (3 / 2) 1767225600000250] []) := ⟨Or.inl rfl, fun p hp => by cases Except.ok.inj hp⟩
  have hcredited : ((exampleCycle 10 (exampleWorld [mined 1 (3 / 2) 1767225600000250] [])).ledger.under
      (referenceOf .miningHistory 1)).isEmpty = false := by decide +kernel
  have hafter := credit_accounted (S := exampleSetting) example_oneClock (by decide) Postgres.journalsSound_empty
    hlisted hw (Reached.credits _ .miningHistory 10 trivial)
  exact hafter.once.resolve_left (List.isEmpty_eq_false_iff.mp hcredited)

/-! ## what holds a source up -/

/-- a row that is not credited, with the starts a page may have and the places it may reach -/
def withheldWatch (f : FoxyaServer) (sourceName : FoxyaBalanceCreditSourceName) (id : FoxyaId)
    (may : Option Position → Prop) (reach : Position → Prop) (stays : FoxyaDb → Prop) : Watch where
  sourceName := sourceName
  id := id
  books l := l = []
  may start _ := may start
  done c _ := ∀ p, c.place.position f = .ok p → reach p
  stays := stays

/-- a row that cannot be credited: its amount rounds to nothing -/
def Rejected (pg : PgServer) (row : FoxyaBalanceCreditRow) : Prop :=
  roundedUnits row.amount ≤ 0 ∧ Postgres.normalizeCode pg row.currencyCode = "KORI"

theorem forall₂_split {ρ γ : Type} {Q : ρ → γ → Prop} {rows : List ρ} {done rest : List γ} {c : γ}
    (h : List.Forall₂ Q rows (done ++ c :: rest)) :
    ∃ done' x rest', rows = done' ++ x :: rest' ∧ List.Forall₂ Q done' done ∧ Q x c := by
  induction done generalizing rows with
  | nil =>
    obtain ⟨x, rest', hx, -, rfl⟩ := List.forall₂_cons_right_iff.mp h
    exact ⟨[], x, rest', rfl, .nil, hx⟩
  | cons d done ih =>
    obtain ⟨y, rows', hy, hrows, rfl⟩ := List.forall₂_cons_right_iff.mp h
    obtain ⟨done', x, rest', rfl, hdone, hx⟩ := ih hrows
    exact ⟨y :: done', x, rest', rfl, .cons hy hdone, hx⟩

/-- Nothing is credited to a row as long as no page has it, when every row of a page is within reach of the page or
cannot be credited. -/
theorem withheld (hclock : OneClock S.pg S.f) {id : FoxyaId} (may : Option Position → Prop) (reach : Position → Prop)
    {stays : FoxyaDb → Prop} {allowed : FoxyaBalanceCreditSourceName → Nat → Prop}
    (hsaved : ∀ t i, reach (toLex (t, i)) → may (some (toLex (t / 1000 * 1000, i))))
    (hstep : ∀ limit db start done x rest, allowed sourceName limit → stays db → may start →
      Keyset.page (·.position) start limit (creditRows S.f db sourceName "KORI") = done ++ x :: rest →
      (∀ d ∈ done, reach d.position) → x.foxyaId ≠ id ∧ (reach x.position ∨ Rejected S.pg x))
    (hsound : w.ledger.JournalsSound) (hstays : stays w.foxya)
    (hfree : w.ledger.under (referenceOf sourceName id) = [])
    (hmay : ∀ start, w.creditStart S.f (S.options.cursorKey sourceName "KORI") = .ok start → may start)
    (hrun : Reached S allowed (LeavesSource sourceName) stays w w') :
    w'.ledger.under (referenceOf sourceName id) = [] ∧
      ∀ start, w'.creditStart S.f (S.options.cursorKey sourceName "KORI") = .ok start → may start := by
  have hpages : ∀ limit, allowed sourceName limit →
      Watch.PagesOk (withheldWatch S.f sourceName id may reach stays) S limit := by
    intro limit hallowed w start cs hinv hstart hrows
    have hplaces : ∀ {x : FoxyaBalanceCreditRow} {c : FoxyaBalanceCreditLedgerSyncCandidate},
        x.toCandidate S.f sourceName = .ok c →
        ((∀ p, c.place.position S.f = .ok p → reach p) ↔ reach x.position) := by
      intro x c hc
      rw [Watch.candidate_position hclock hc]
      exact ⟨fun h => h _ rfl, fun h p hp => Except.ok.inj hp ▸ h⟩
    constructor
    · intro done c rest w₁ hcs _ hfacts
      subst hcs
      obtain ⟨done', x, rest', hpage, hdone, hxc⟩ := forall₂_split hrows
      obtain ⟨hother, hx⟩ := hstep limit _ start done' x rest' hallowed hinv.stays hstart hpage (by
        intro d hd
        obtain ⟨e, he, hde⟩ := Watch.forall₂_left hdone hd
        exact (hplaces hde).mp (hfacts e he))
      have hreference : referenceOf sourceName id ≠ referenceOf sourceName x.foxyaId :=
        fun h => hother (reference_injective h).2.symm
      apply syncCredit_relies
      · intro hskip
        rw [creditCandidate_ok hxc] at hskip
        exact (hplaces hxc).mpr (hx.resolve_right fun h => hskip h.2)
      · intro amount _ hamount
        apply (Watch.answers_other (W := withheldWatch S.f sourceName id may reach stays) hxc hreference amount).mono
        refine fun _ _ => Unless.imp fun _ hpositive => (hplaces hxc).mpr (hx.resolve_right fun h => ?_)
        rw [creditCandidate_ok hxc] at hamount
        have hunits : roundedUnits x.amount = amount := Except.ok.inj ((parse_format _).symm.trans hamount)
        have hzero := h.1
        omega
    · intro done y rest w₁ now hcs _ hfacts
      have hmem : y ∈ cs := by
        rw [hcs]
        exact List.mem_append_left rest (List.mem_append_right done List.mem_cons_self)
      obtain ⟨x, -, hxy⟩ := Watch.forall₂_right hrows hmem
      apply Watch.answers_place hclock hxy
      intro _ _
      exact hsaved _ _ ((hplaces hxy).mp (hfacts y (List.mem_append_right done List.mem_cons_self)))
  have hafter := Watch.reached (W := withheldWatch S.f sourceName id may reach stays) hpages (fun _ h => h)
    ⟨hsound, hstays, hfree, hmay⟩ hrun
  exact ⟨hafter.books, hafter.cursor⟩

variable (row) in
/-- **Nothing behind a row that cannot be credited is credited**, and the cursor never gets past that row. -/
theorem stuck_behind_rejected (hclock : OneClock S.pg S.f) (hsound : w.ledger.JournalsSound) (stone : FoxyaBalanceCreditRow)
    (hstone : Rejected S.pg stone) (hbehind : stone.position < row.position)
    (hlisted : Listed S.f sourceName stone w.foxya) (halone : Alone S.f sourceName row w.foxya)
    (hfree : w.ledger.under (referenceOf sourceName row.foxyaId) = [])
    (hcursor : ∀ p, w.creditStart S.f (S.options.cursorKey sourceName "KORI") = .ok (some p) → p < stone.position)
    (hrun : Reached S anyLimit (LeavesSource sourceName)
      (fun db => Listed S.f sourceName stone db ∧ Alone S.f sourceName row db) w w') :
    w'.ledger.under (referenceOf sourceName row.foxyaId) = [] ∧
      ∀ p, w'.creditStart S.f (S.options.cursorKey sourceName "KORI") = .ok (some p) → p < stone.position := by
  have hrest := withheld hclock (fun start => ∀ p ∈ start, p < stone.position)
    (fun p => p < stone.position) ?_ ?_ hsound ⟨hlisted, halone⟩ hfree ?_ hrun
  · exact ⟨hrest.1, fun p hp => hrest.2 _ hp p rfl⟩
  · intro t i h p hp
    obtain rfl := Option.some.inj hp
    exact lt_of_le_of_lt (toLex_le (Nat.div_mul_le_self t 1000)) h
  · intro limit db start done x rest _ hdb hstart hpage hdone
    obtain ⟨hlisted, halone⟩ := hdb
    have hx : x ∈ Keyset.page (·.position) start limit (creditRows S.f db sourceName "KORI") := by
      rw [hpage]
      exact List.mem_append_right done List.mem_cons_self
    have hxListed := (Keyset.mem_page hx).1
    -- the row in the way would have come before `x`
    have hle : x.position ≤ stone.position := by
      by_contra hlt
      have hsplit : Keyset.page (·.position) start limit (creditRows S.f db sourceName "KORI") =
          (done ++ [x]) ++ rest := by
        rw [hpage, List.append_assoc]
        rfl
      have hmem : stone ∈ done ++ [x] := Keyset.mem_done hsplit (List.mem_append_right done List.mem_cons_self)
        hlisted.listed (fun p hp => hstart p hp) (not_le.mp hlt)
      rcases List.mem_append.mp hmem with h | h
      · exact lt_irrefl _ (hdone stone h)
      · rw [List.mem_singleton.mp h] at hlt
        exact hlt le_rfl
    refine ⟨fun hid => ?_, ?_⟩
    · rw [halone x hxListed hid] at hle
      exact absurd hbehind (not_lt.mpr hle)
    · rcases lt_or_eq_of_le hle with hlt | heq
      · exact Or.inl hlt
      · rw [hlisted.alone x hxListed (congrArg Prod.snd (toLex.injective heq))]
        exact Or.inr hstone
  · intro start hstart p hp
    cases start with
    | none => cases hp
    | some q =>
      obtain rfl := Option.some.inj hp
      exact hcursor q hstart

/-- the first of two rows rounds to nothing -/
def stuckWorld : World :=
  exampleWorld [mined 1 (1 / 10000000) 1767225600000250, mined 2 (3 / 2) 1767225600001500] []

theorem stuck_behind_rejected_example :
    (exampleCycle 10 stuckWorld).ledger.under (referenceOf .miningHistory 2) = [] := by
  have hlisted : Listed exampleFoxya .miningHistory ⟨1, 7, "KORI", 1 / 10000000, 1767225600000250⟩
      stuckWorld.foxya := by
    constructor
    · decide +kernel
    · unfold Alone
      decide +kernel
  have halone : Alone exampleFoxya .miningHistory ⟨2, 7, "KORI", 3 / 2, 1767225600001500⟩ stuckWorld.foxya := by
    unfold Alone
    decide +kernel
  have hrejected : Rejected examplePg ⟨1, 7, "KORI", 1 / 10000000, 1767225600000250⟩ :=
    ⟨by decide +kernel, by decide⟩
  exact (stuck_behind_rejected (S := exampleSetting) _ example_oneClock Postgres.journalsSound_empty _ hrejected (by decide) hlisted halone
    rfl (fun p hp => by cases Except.ok.inj hp) (Reached.credits stuckWorld .miningHistory 10 trivial)).1

/-- a row within a millisecond, and not at its start -/
def inside (m : Nat) (row : FoxyaBalanceCreditRow) : Bool :=
  row.occurredAt / 1000 = m ∧ row.occurredAt % 1000 ≠ 0

variable (row) in
/-- **Nothing behind a millisecond that holds a page of rows is credited**, when none of them is at its start: the
cursor is saved in whole milliseconds, and never gets past this one. -/
theorem crowded_never_passed (hclock : OneClock S.pg S.f) (hsound : w.ledger.JournalsSound) (limit m : Nat)
    (hbehind : m < row.occurredAt / 1000)
    (hcrowd : limit ≤ (creditRows S.f w.foxya sourceName "KORI").countP (inside m))
    (halone : Alone S.f sourceName row w.foxya)
    (hfree : w.ledger.under (referenceOf sourceName row.foxyaId) = [])
    (hcursor : ∀ p, w.creditStart S.f (S.options.cursorKey sourceName "KORI") = .ok (some p) →
      (ofLex p).1 ≤ m * 1000)
    (hrun : Reached S (fun name n => name = sourceName → n ≤ limit) (LeavesSource sourceName)
      (fun db => limit ≤ (creditRows S.f db sourceName "KORI").countP (inside m) ∧ Alone S.f sourceName row db) w w') :
    w'.ledger.under (referenceOf sourceName row.foxyaId) = [] ∧
      ∀ p, w'.creditStart S.f (S.options.cursorKey sourceName "KORI") = .ok (some p) → (ofLex p).1 ≤ m * 1000 := by
  have hrest := withheld hclock (fun start => ∀ p ∈ start, (ofLex p).1 ≤ m * 1000)
    (fun p => (ofLex p).1 / 1000 ≤ m) ?_ ?_ hsound ⟨hcrowd, halone⟩ hfree ?_ hrun
  · exact ⟨hrest.1, fun p hp => hrest.2 _ hp p rfl⟩
  · intro t i h p hp
    obtain rfl := Option.some.inj hp
    exact Nat.mul_le_mul_right 1000 h
  · intro n db start done x rest hallowed hdb hstart hpage _
    obtain ⟨hcrowd, halone⟩ := hdb
    have hx : x ∈ Keyset.page (·.position) start n (creditRows S.f db sourceName "KORI") := by
      rw [hpage]
      exact List.mem_append_right done List.mem_cons_self
    have hreach : decide ((ofLex x.position).1 / 1000 ≤ m) = true := by
      refine Keyset.below_of_crowd (p := fun k : Position => decide ((ofLex k).1 / 1000 ≤ m)) ?_ ?_ hx
      · intro a b hab hb
        have hle : (ofLex a).1 ≤ (ofLex b).1 := Prod.Lex.monotone_fst _ _ hab
        exact decide_eq_true ((Nat.div_le_div_right hle).trans (of_decide_eq_true hb))
      · have hpending : (creditRows S.f db sourceName "KORI").countP (inside m) ≤
            (Keyset.pending (·.position) start (creditRows S.f db sourceName "KORI")).countP
              fun x => decide ((ofLex x.position).1 / 1000 ≤ m) := by
          unfold Keyset.pending
          rw [List.countP_filter]
          apply List.countP_mono_left
          intro y _ hy
          obtain ⟨hsame, hrest⟩ : y.occurredAt / 1000 = m ∧ y.occurredAt % 1000 ≠ 0 := of_decide_eq_true hy
          rw [Bool.and_eq_true]
          refine ⟨decide_eq_true hsame.le, decide_eq_true fun p hp => ?_⟩
          have hle := hstart p hp
          have hlt : (ofLex p).1 < y.occurredAt := by omega
          exact Prod.Lex.lt_iff.mpr (Or.inl hlt)
        exact (hallowed rfl).trans (hcrowd.trans hpending)
    have hle : x.occurredAt / 1000 ≤ m := of_decide_eq_true hreach
    refine ⟨fun hid => ?_, Or.inl hle⟩
    rw [halone x (Keyset.mem_page hx).1 hid] at hle
    exact absurd hbehind (not_lt.mpr hle)
  · intro start hstart p hp
    cases start with
    | none => cases hp
    | some q =>
      obtain rfl := Option.some.inj hp
      exact hcursor q hstart

/-- a page of one row, and a row in the next millisecond -/
def crowdedWorld : World :=
  exampleWorld [mined 1 (3 / 2) 1767225600000250, mined 2 (3 / 2) 1767225600001500] []

theorem crowded_never_passed_example :
    (exampleCycle 1 crowdedWorld).ledger.under (referenceOf .miningHistory 2) = [] := by
  have halone : Alone exampleFoxya .miningHistory ⟨2, 7, "KORI", 3 / 2, 1767225600001500⟩ crowdedWorld.foxya := by
    unfold Alone
    decide +kernel
  exact (crowded_never_passed (S := exampleSetting) _ example_oneClock Postgres.journalsSound_empty 1 1767225600000 (by decide)
    (by decide +kernel) halone rfl (fun p hp => by cases Except.ok.inj hp)
    (Reached.credits crowdedWorld .miningHistory 1 fun _ => le_refl 1)).1

end

end Foxya
