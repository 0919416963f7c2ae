import CoinManage.Foxya.Cycles

/-!
# Watching one source

A `Watch` looks at one source of balance credits: at the journals under one of its references, and at where its
cursor stands.  All the rest of the system goes on at will: cycles of this source and of the others, the token
deposits, the other calls of the ledger, and foxya as far as `stays` allows.

* `Reached`             the states such a run reaches;
* `Watch.reached`       what is watched holds in all of them, when the pages of the source keep it;
* `page_reaches`        what a page has passed, it or an earlier one has done.
-/

namespace Foxya
open Program

/-! ## runs -/

/-- a cycle of either service; `allowed` bounds the limits of the sources -/
inductive IsCycle (pg : PgServer) (options : FoxyaBalanceCreditLedgerSyncOptions)
    (depositOptions : FoxyaTokenDepositLedgerSyncOptions) (allowed : FoxyaBalanceCreditSourceName → Nat → Prop) :
    Async Unit → Prop
  | credits (sourceName : FoxyaBalanceCreditSourceName) (limit : Nat) (h : allowed sourceName limit) :
    IsCycle pg options depositOptions allowed (runCreditCycle pg options sourceName limit >>= fun _ => pure ())
  | deposits (limit : Nat) :
    IsCycle pg options depositOptions allowed (runDepositCycle pg depositOptions limit >>= fun _ => pure ())

/-- what goes on outside of the services: calls of the ledger of some kind, and foxya -/
inductive Elsewhere (pg : PgServer) (limits : WithdrawalLimitConfig) (others : Postgres.Call → Prop)
    (stays : FoxyaDb → Prop) (w : World) : World → Prop
  | ledger (c : Postgres.Call) (h : others c) :
    Elsewhere pg limits others stays w { w with ledger := c.step pg limits w.ledger }
  | foxya (db : FoxyaDb) (h : stays db) : Elsewhere pg limits others stays w { w with foxya := db }

/-- everything there is besides the state a run starts from -/
structure Setting where
  pg : PgServer
  f : FoxyaServer
  limits : WithdrawalLimitConfig
  options : FoxyaBalanceCreditLedgerSyncOptions
  depositOptions : FoxyaTokenDepositLedgerSyncOptions

/-- Cycles of both services, in any number and any interleaving, each call of which may fail or lose its answer and
any of which may stop for good, lead from one state to the other, while the ledger and foxya are used elsewhere. -/
def Reached (S : Setting) (allowed : FoxyaBalanceCreditSourceName → Nat → Prop) (others : Postgres.Call → Prop)
    (stays : FoxyaDb → Prop) (w w' : World) : Prop :=
  ∃ σ, Interleaving.Reachable (IsCycle S.pg S.options S.depositOptions allowed)
    (fun _ {_} call => Handles S.pg S.f call) (Elsewhere S.pg S.limits others stays) Interleaving.always
    (Interleaving.System.initial Effect LedgerError w) σ ∧ σ.world = w'

/-- one cycle of a source, alone -/
theorem Reached.credits {S : Setting} {allowed : FoxyaBalanceCreditSourceName → Nat → Prop}
    {others : Postgres.Call → Prop} {stays : FoxyaDb → Prop} (w : World) (sourceName : FoxyaBalanceCreditSourceName)
    (limit : Nat) (h : allowed sourceName limit) : Reached S allowed others stays w
      ((runCreditCycle S.pg S.options sourceName limit).run (carryOut S.pg S.f) w).2 := by
  have halone : ∃ σ, Interleaving.Reachable (IsCycle S.pg S.options S.depositOptions allowed)
      (fun _ {_} call => Handles S.pg S.f call) (Elsewhere S.pg S.limits others stays) Interleaving.always
      (Interleaving.System.initial Effect LedgerError w) σ ∧
      σ.world = ((runCreditCycle S.pg S.options sourceName limit >>= fun _ => pure ()).run (carryOut S.pg S.f) w).2 :=
    Interleaving.Reachable.one (fun _ _ call w => Handles.done call w) (.credits sourceName limit h) w
  obtain ⟨σ, hrun, hworld⟩ := halone
  refine ⟨σ, hrun, ?_⟩
  rw [hworld, Program.run_bind, Method.bind_apply]
  cases (runCreditCycle S.pg S.options sourceName limit).run (carryOut S.pg S.f) w with
  | mk r w' => cases r <;> rfl

/-- any limit -/
def anyLimit (_ : FoxyaBalanceCreditSourceName) (_ : Nat) : Prop := True

/-- a call that credits nothing under the references of a source -/
def LeavesSource (sourceName : FoxyaBalanceCreditSourceName) (c : Postgres.Call) : Prop :=
  (sourceDefinitions sourceName).referenceType ∉ c.referenceTypes

/-! ## what is watched -/

structure Watch where
  sourceName : FoxyaBalanceCreditSourceName
  id : FoxyaId
  /-- what is known of the journals under the reference -/
  books : List Postgres.Entry → Prop
  /-- where a page may start, given these journals -/
  may : Option Position → List Postgres.Entry → Prop
  /-- what it is for a candidate to be done, given these journals -/
  done : FoxyaBalanceCreditLedgerSyncCandidate → List Postgres.Entry → Prop
  /-- what foxya keeps -/
  stays : FoxyaDb → Prop

namespace Watch

section
variable (W : Watch)

/-- the journals under the reference -/
def journals (w : World) : List Postgres.Entry := w.ledger.under (referenceOf W.sourceName W.id)

structure Holds (f : FoxyaServer) (cursorKey : String) (w : World) : Prop where
  sound : w.ledger.JournalsSound
  stays : W.stays w.foxya
  books : W.books (W.journals w)
  cursor : MayStand f (fun start w => W.may start (W.journals w))
    ((w.creditCursors.find? (·.cursorKey = cursorKey)).map (·.place)) w

/-- what was allowed or done stays so -/
structure Grows (w w' : World) : Prop where
  may : ∀ p, W.may p (W.journals w) → W.may p (W.journals w')
  done : ∀ c, W.done c (W.journals w) → W.done c (W.journals w')

theorem Grows.refl (w : World) : W.Grows w w := ⟨fun _ h => h, fun _ h => h⟩

theorem grows_of_eq {w w' : World} (h : W.journals w' = W.journals w) : W.Grows w w' := by
  constructor
  · intro p hp
    rwa [h]
  · intro c hc
    rwa [h]

def rely (pg : PgServer) (f : FoxyaServer) (cursorKey : String) : Rely Effect LedgerError World where
  inv := W.Holds f cursorKey
  grows := W.Grows
  handles := Handles pg f
  refl := Grows.refl W
  trans h h' := ⟨fun p hp => h'.may p (h.may p hp), fun c hc => h'.done c (h.done c hc)⟩

end

section
variable {W : Watch} {pg : PgServer} {f : FoxyaServer} {cursorKey : String} {w : World}

theorem rely_handles : (W.rely pg f cursorKey).handles = Handles pg f := rfl

/-- the ledger after a write that is known by the journals it left -/
theorem Holds.write (h : W.Holds f cursorKey w) {s : Postgres.Db} (hs : s.JournalsSound)
    (hbooks : W.books (s.under (referenceOf W.sourceName W.id)))
    (hgrows : W.Grows w { w with ledger := s }) : W.Holds f cursorKey { w with ledger := s } where
  sound := hs
  stays := h.stays
  books := hbooks
  cursor start hstart := hgrows.may start (h.cursor start hstart)

/-- a write that leaves the journals as they are -/
theorem Holds.quiet (h : W.Holds f cursorKey w) {s : Postgres.Db} (hs : s.JournalsSound)
    (hsame : s.under (referenceOf W.sourceName W.id) = W.journals w) :
    W.Holds f cursorKey { w with ledger := s } ∧ W.Grows w { w with ledger := s } := by
  have hgrows : W.Grows w { w with ledger := s } := W.grows_of_eq hsame
  refine ⟨h.write hs ?_ hgrows, hgrows⟩
  rw [hsame]
  exact h.books

theorem Holds.call (h : W.Holds f cursorKey w) (limits : WithdrawalLimitConfig) {c : Postgres.Call}
    (hc : LeavesSource W.sourceName c) :
    W.Holds f cursorKey { w with ledger := c.step pg limits w.ledger } ∧
      W.Grows w { w with ledger := c.step pg limits w.ledger } := by
  obtain ⟨hs, hsame⟩ : (c.step pg limits w.ledger).JournalsSound ∧
      (c.step pg limits w.ledger).under (referenceOf W.sourceName W.id) = W.journals w :=
    Postgres.Call.step_books_under pg limits h.sound hc
  exact h.quiet hs hsame

theorem Holds.foxya (h : W.Holds f cursorKey w) {db : FoxyaDb} (hdb : W.stays db) :
    W.Holds f cursorKey { w with foxya := db } ∧ W.Grows w { w with foxya := db } :=
  ⟨⟨h.sound, hdb, h.books, h.cursor⟩, W.grows_of_eq rfl⟩

theorem Holds.saved (h : W.Holds f cursorKey w) {row : FoxyaBalanceCreditLedgerSyncCursor}
    (hrow : row.cursorKey = cursorKey → MayStand f (fun start w => W.may start (W.journals w)) row.place w) :
    W.Holds f cursorKey { w with creditCursors := upsert (·.cursorKey) row w.creditCursors } ∧
      W.Grows w { w with creditCursors := upsert (·.cursorKey) row w.creditCursors } := by
  refine ⟨⟨h.sound, h.stays, h.books, ?_⟩, W.grows_of_eq rfl⟩
  simp only [find?_upsert]
  split
  · next hkey => exact hrow hkey
  · exact h.cursor

theorem Holds.savedDeposit (h : W.Holds f cursorKey w) (rows : List FoxyaTokenDepositLedgerSyncCursor) :
    W.Holds f cursorKey { w with depositCursors := rows } ∧ W.Grows w { w with depositCursors := rows } :=
  ⟨⟨h.sound, h.stays, h.books, h.cursor⟩, W.grows_of_eq rfl⟩

/-- saving a cursor, when it may stand where it is saved -/
theorem answers_saved {cursor : FoxyaBalanceCreditLedgerSyncCursor}
    (hrow : ∀ w₁ row, W.Grows w w₁ → creditCursorRow pg cursor = .ok row → row.cursorKey = cursorKey →
      MayStand f (fun start w => W.may start (W.journals w)) row.place w₁) :
    (W.rely pg f cursorKey).Answers (.saveCreditCursor cursor) w (fun _ _ => True) := by
  refine answers_write rely_handles rfl ?_ fun _ _ => trivial
  intro w₁ hinv hgrows
  have hinv' : W.Holds f cursorKey w₁ := hinv
  cases hcursor : creditCursorRow pg cursor with
  | error e =>
    have hstate : (carryOut pg f (.saveCreditCursor cursor) w₁).2 = w₁ := by
      unfold carryOut
      simp only [hcursor]
    rw [hstate]
    exact ⟨hinv', Grows.refl W w₁, trivial⟩
  | ok row =>
    have hstate : (carryOut pg f (.saveCreditCursor cursor) w₁).2 =
        { w₁ with creditCursors := upsert (·.cursorKey) row w₁.creditCursors } := by
      unfold carryOut
      simp only [hcursor]
    rw [hstate]
    obtain ⟨hholds, hgrows'⟩ := hinv'.saved (hrow w₁ row hgrows hcursor)
    exact ⟨hholds, hgrows', trivial⟩

/-! ## the candidates of a page -/

/-- a candidate of a page, with the row it is of -/
theorem forall₂_right {ρ γ : Type} {Q : ρ → γ → Prop} {rows : List ρ} {cs : List γ} (h : List.Forall₂ Q rows cs)
    {c : γ} (hc : c ∈ cs) : ∃ row ∈ rows, Q row c := by
  induction h with
  | nil => cases hc
  | cons hq _ ih =>
    rcases List.mem_cons.mp hc with rfl | hc
    · exact ⟨_, List.mem_cons_self, hq⟩
    · obtain ⟨row, hrow, hq'⟩ := ih hc
      exact ⟨row, List.mem_cons_of_mem _ hrow, hq'⟩

theorem forall₂_left {ρ γ : Type} {Q : ρ → γ → Prop} {rows : List ρ} {cs : List γ} (h : List.Forall₂ Q rows cs)
    {row : ρ} (hrow : row ∈ rows) : ∃ c ∈ cs, Q row c := by
  obtain ⟨c, hc, hq⟩ := forall₂_right h.flip hrow
  exact ⟨c, hc, hq⟩

/-- What a page has passed was done on it, or lies before its start. -/
theorem page_reaches {ρ γ : Type} {key : ρ → Position} {Q : ρ → γ → Prop} {start : Option Position} {limit : Nat}
    {table : List ρ} {cs done rest : List γ} {y : γ} (hrows : List.Forall₂ Q (Keyset.page key start limit table) cs)
    (hcs : cs = done ++ [y] ++ rest) :
    ∃ x ∈ table, Q x y ∧ ∀ row ∈ table, key row < key x →
      (∃ p ∈ start, key row ≤ p) ∨ ∃ d ∈ done ++ [y], Q row d := by
  subst hcs
  have hsplit := (List.take_append_drop (done ++ [y]).length (Keyset.page key start limit table)).symm
  have hfirst := List.forall₂_take_append _ _ _ hrows
  obtain ⟨x, hx, hxy⟩ := forall₂_right hfirst (List.mem_append_right done List.mem_cons_self)
  -- `x` need not be the last of these rows, but it stands for `y`
  refine ⟨x, (Keyset.mem_page (List.mem_of_mem_take hx)).1, hxy, fun row hrow hlt => ?_⟩
  by_cases hafter : Keyset.After start (key row)
  · obtain ⟨d, hd, hq⟩ := forall₂_left hfirst (Keyset.mem_done hsplit hx hrow hafter hlt)
    exact Or.inr ⟨d, hd, hq⟩
  · unfold Keyset.After at hafter
    push Not at hafter
    exact Or.inl hafter

end

/-! ## the rest of the system -/

section
variable {W : Watch} {S : Setting} {allowed : FoxyaBalanceCreditSourceName → Nat → Prop}
  {others : Postgres.Call → Prop} {w w' : World}

/-- what the pages of the source are for a watch -/
def PagesOk (W : Watch) (S : Setting) (limit : Nat) : Prop :=
  ∀ w start cs, W.Holds S.f (S.options.cursorKey W.sourceName "KORI") w →
    W.may start (W.journals w) →
    List.Forall₂ (fun row c => FoxyaBalanceCreditRow.toCandidate S.f W.sourceName row = .ok c)
      (Keyset.page (·.position) start limit (creditRows S.f w.foxya W.sourceName "KORI")) cs →
    PageOk (W.rely S.pg S.f (S.options.cursorKey W.sourceName "KORI")) (syncCredit S.pg "KORI")
      FoxyaBalanceCreditLedgerSyncCandidate.place
      (fun last now => .saveCreditCursor
        (creditCursorAt (S.options.cursorKey W.sourceName "KORI") W.sourceName "KORI" last now))
      (fun c w => W.done c (W.journals w)) cs w

/-- an external credit is known by the reference of its row -/
theorem credit_reference {c : FoxyaBalanceCreditLedgerSyncCandidate} {row : FoxyaBalanceCreditRow}
    {sourceName : FoxyaBalanceCreditSourceName} (hc : row.toCandidate S.f sourceName = .ok c) (amount : ℤ) :
    ((creditInput c "KORI" amount).referenceType, (creditInput c "KORI" amount).referenceId) =
      referenceOf sourceName row.foxyaId := by
  rw [creditCandidate_ok hc]
  rfl

/-- a candidate of another row: what is watched stays, and nothing is credited that is not positive -/
theorem answers_other {row : FoxyaBalanceCreditRow} {c : FoxyaBalanceCreditLedgerSyncCandidate} {cursorKey : String}
    {sourceName : FoxyaBalanceCreditSourceName} (hc : row.toCandidate S.f sourceName = .ok c)
    (hne : referenceOf W.sourceName W.id ≠ referenceOf sourceName row.foxyaId) (amount : ℤ) :
    (W.rely S.pg S.f cursorKey).Answers (.applyExternalCredit (creditInput c "KORI" amount)) w
      (Unless fun _ => 0 < amount) := by
  refine answers_write rely_handles rfl ?_ fun _ _ => trivial
  intro w₁ hinv _
  have hinv' : W.Holds S.f cursorKey w₁ := hinv
  have hreference := credit_reference hc amount
  have hfits := reference_fits sourceName row.foxyaId
  rw [← hreference] at hfits
  obtain ⟨hsound, hothers, -, hpaid⟩ := Postgres.applyExternalCredit_under S.pg hinv'.sound hfits.1 hfits.2
  have hsame := hothers (referenceOf W.sourceName W.id) fun h => hne (h.trans hreference)
  obtain ⟨hholds, hgrows⟩ := hinv'.quiet hsound hsame
  refine ⟨hholds, hgrows, ?_⟩
  show Unless _ (Postgres.applyExternalCredit S.pg (creditInput c "KORI" amount) w₁.ledger).1 _
  cases hr : (Postgres.applyExternalCredit S.pg (creditInput c "KORI" amount) w₁.ledger).1 with
  | error e => trivial
  | ok r => exact (hpaid r hr).1

/-- a candidate of another source -/
theorem other_candidate {cursorKey : String} {sourceName : FoxyaBalanceCreditSourceName}
    {c : FoxyaBalanceCreditLedgerSyncCandidate} {row : FoxyaBalanceCreditRow} (hne : sourceName ≠ W.sourceName)
    (hc : row.toCandidate S.f sourceName = .ok c) (w : World) :
    (syncCredit S.pg "KORI" c).Relies (W.rely S.pg S.f cursorKey) (Unless fun _ => True) w := by
  apply syncCredit_relies (fun _ => trivial)
  intro amount _ _
  apply (answers_other hc (fun h => hne (reference_injective h).1.symm) amount).mono
  exact fun _ _ => Unless.imp fun _ _ => trivial

theorem other_source {sourceName : FoxyaBalanceCreditSourceName} (hne : sourceName ≠ W.sourceName) (limit : Nat) :
    CreditSource S.pg S.f (W.rely S.pg S.f (S.options.cursorKey W.sourceName "KORI")) sourceName
      (fun _ _ => True) (fun _ _ => True) (S.options.cursorKey sourceName "KORI") limit where
  facts _ _ _ _ _ := trivial
  places _ _ _ _ _ := trivial
  cursor _ _ _ _ := trivial
  page w start cs hinv _ hrows := by
    constructor
    · intro done c rest w' hcs _ _
      have hmem : c ∈ cs := by
        rw [hcs]
        exact List.mem_append_right done List.mem_cons_self
      obtain ⟨row, -, hrow⟩ := forall₂_right hrows hmem
      exact other_candidate hne hrow w'
    · intro done y rest w' now _ _ _
      apply answers_saved
      intro w₁ row _ hrow hkey
      obtain ⟨hstored, -, -⟩ := creditCursorRow_ok hrow
      have hexact := Postgres.varchar_exact hstored (cursorKey_last S.options sourceName)
      exact absurd (cursorKey_injective S.options (hexact.symm.trans hkey)) hne

/-- the place of a candidate is that of its row -/
theorem candidate_position (hclock : OneClock S.pg S.f) {sourceName : FoxyaBalanceCreditSourceName}
    {row : FoxyaBalanceCreditRow} {c : FoxyaBalanceCreditLedgerSyncCandidate}
    (hc : row.toCandidate S.f sourceName = .ok c) : c.place.position S.f = .ok row.position := by
  rw [creditCandidate_ok hc]
  unfold SyncCursor.position FoxyaBalanceCreditLedgerSyncCandidate.place
  simp only [hclock.timestamp_toChar]
  rfl

/-- saving the place of a candidate: it is read back in whole milliseconds -/
theorem answers_place (hclock : OneClock S.pg S.f) {x : FoxyaBalanceCreditRow}
    {y : FoxyaBalanceCreditLedgerSyncCandidate} {cursorKey now : String} (hxy : x.toCandidate S.f W.sourceName = .ok y)
    (hmay : ∀ w₁ : World, W.Grows w w₁ →
      W.may (some (toLex (x.occurredAt / 1000 * 1000, x.foxyaId))) (W.journals w₁)) :
    (W.rely S.pg S.f cursorKey).Answers (.saveCreditCursor (creditCursorAt cursorKey W.sourceName "KORI" y.place now))
      w (fun _ _ => True) := by
  apply answers_saved
  intro w₁ row hgrows hrow _ start hstart
  obtain ⟨-, hat, hid⟩ := creditCursorRow_ok hrow
  have hsaved : S.pg.timestamptz (S.f.toChar x.occurredAt) = some row.lastOccurredAt := by
    rw [← hat, creditCandidate_ok hxy]
    rfl
  have hplace : row.place = ⟨row.lastOccurredAt, x.foxyaId⟩ := by
    show (⟨row.lastOccurredAt, row.lastFoxyaId⟩ : SyncCursor) = _
    rw [hid, creditCandidate_ok hxy]
    rfl
  rw [hplace, startOf] at hstart
  cases hposition : SyncCursor.position S.f ⟨row.lastOccurredAt, x.foxyaId⟩ with
  | error e =>
    rw [hposition] at hstart
    cases hstart
  | ok p =>
    rw [hposition] at hstart
    obtain rfl := Except.ok.inj hstart
    obtain ⟨rfl, -⟩ := position_of_saved hclock hsaved hposition
    exact hmay w₁ hgrows

/-- the token deposits -/
theorem deposit_source (limit : Nat) :
    DepositSource S.pg S.f (W.rely S.pg S.f (S.options.cursorKey W.sourceName "KORI"))
      (fun _ _ => True) (fun _ _ => True) (S.depositOptions.cursorKeyFor "KORI") limit where
  facts _ _ _ _ _ := trivial
  places _ _ _ _ _ := trivial
  cursor _ _ _ _ := trivial
  page w start cs _ _ _ := by
    have hcall : ∀ {β : Type} {call : Effect β} {c : Postgres.Call} {post : Except LedgerError β → World → Prop}
        (w : World), call.isClock = false → LeavesSource W.sourceName c →
        (∀ w, (carryOut S.pg S.f call w).2 = { w with ledger := c.step S.pg S.limits w.ledger }) →
        (∀ r w, post r w) →
        (W.rely S.pg S.f (S.options.cursorKey W.sourceName "KORI")).Answers call w post := by
      intro β call c post w hclock hleaves hstate hpost
      refine answers_write rely_handles hclock ?_ fun e w => hpost _ w
      intro w₁ hinv _
      rw [hstate w₁]
      obtain ⟨hholds, hgrows⟩ := Holds.call hinv S.limits hleaves
      exact ⟨hholds, hgrows, hpost _ _⟩
    constructor
    · intro done c rest w' _ _ _
      apply syncDeposit_relies (f := S.f) rfl (fun _ _ => True) (fun _ => trivial)
      · intro amount now w₁ _ _ _
        refine hcall (c := .applyDeposit (depositInput c amount now)) w₁ rfl ?_ (fun _ => rfl) ?_
        · show (sourceDefinitions W.sourceName).referenceType ∉ ["deposit"]
          cases W.sourceName <;> decide
        · intro r w
          cases r <;> trivial
      · intro _ _ _ _
        trivial
      · intro r w₁ _
        refine hcall (c := .completeDeposit r.deposit.depositId) w₁ rfl List.not_mem_nil (fun _ => rfl) ?_
        intro r w
        cases r <;> trivial
    · intro done y rest w' now _ _ _
      refine answers_write rely_handles rfl ?_ fun _ _ => trivial
      intro w₁ hinv _
      have hinv' : W.Holds S.f (S.options.cursorKey W.sourceName "KORI") w₁ := hinv
      have hstate : ∃ rows, (carryOut S.pg S.f (.saveDepositCursor (depositCursorAt
          (S.depositOptions.cursorKeyFor "KORI") (FoxyaTokenDepositLedgerSyncCandidate.place y) now)) w₁).2 =
          { w₁ with depositCursors := rows } := by
        unfold carryOut
        simp only
        split
        · exact ⟨_, rfl⟩
        · exact ⟨w₁.depositCursors, rfl⟩
      obtain ⟨rows, hrows⟩ := hstate
      rw [hrows]
      obtain ⟨hholds, hgrows⟩ := hinv'.savedDeposit rows
      exact ⟨hholds, hgrows, trivial⟩

/-- **what is watched holds in every state reached**, when the pages of the source keep it -/
theorem reached (hpages : ∀ limit, allowed W.sourceName limit → PagesOk W S limit)
    (hothers : ∀ c, others c → LeavesSource W.sourceName c)
    (hw : W.Holds S.f (S.options.cursorKey W.sourceName "KORI") w) (hrun : Reached S allowed others W.stays w w') :
    W.Holds S.f (S.options.cursorKey W.sourceName "KORI") w' := by
  obtain ⟨σ, hrun, rfl⟩ := hrun
  refine (Interleaving.Reachable.relies (R := W.rely S.pg S.f (S.options.cursorKey W.sourceName "KORI"))
    ?_ ?_ hw hrun).1
  · intro p hp w₁ _
    have hdiscard : ∀ {q : Async SyncResult}, q.Relies (W.rely S.pg S.f (S.options.cursorKey W.sourceName "KORI"))
        (fun _ _ => True) w₁ → (q >>= fun _ => (pure () : Async Unit)).Relies
        (W.rely S.pg S.f (S.options.cursorKey W.sourceName "KORI")) (fun _ _ => True) w₁ := by
      intro q hq
      apply Relies.bind
      apply hq.mono
      intro o w₂ _
      cases o with
      | ok r => exact Relies.pure trivial
      | error e => trivial
    cases hp with
    | credits sourceName limit hallowed =>
      apply hdiscard
      by_cases hsource : sourceName = W.sourceName
      · subst hsource
        have hsource : CreditSource S.pg S.f (W.rely S.pg S.f (S.options.cursorKey W.sourceName "KORI")) W.sourceName
            (fun start w => W.may start (W.journals w)) (fun c w => W.done c (W.journals w))
            (S.options.cursorKey W.sourceName "KORI") limit :=
          { facts := fun c w w' hgrows h => hgrows.done c h
            places := fun start w w' hgrows h => hgrows.may start h
            cursor := fun w hinv => hinv.cursor
            page := hpages limit hallowed }
        exact creditCycle_relies (f := S.f) rfl hsource w₁
      · exact creditCycle_relies (f := S.f) rfl (other_source hsource limit) w₁
    | deposits limit =>
      apply hdiscard
      exact depositCycle_relies (f := S.f) rfl (deposit_source limit) w₁
  · intro w₁ w₂ hinv hmoved
    cases hmoved with
    | ledger c hc => exact Holds.call hinv S.limits (hothers c hc)
    | foxya db hdb => exact Holds.foxya hinv hdb

end

end Watch

end Foxya
