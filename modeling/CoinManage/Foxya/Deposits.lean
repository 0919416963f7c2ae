import CoinManage.Foxya.Credits

/-!
# Working off the token deposits

The cursor of the token deposits keeps a time as foxya prints it, with its microseconds; the cursor of a source of
balance credits keeps milliseconds.  So a page that was worked through lies behind this cursor whole, and one cycle
after the other gets to the end of the table.

* `syncAll_ran`             a loop that has not failed has come to the last candidate;
* `applyPage_ran`           what such a page leaves behind;
* `depositCycle_advances`   a cycle takes its page off the rows still to be read;
* `deposits_worked_off`     and so one cycle after the other.
-/

namespace Foxya
open Program

section
variable {pg : PgServer} {f : FoxyaServer} {w w' : World}

/-! ## what a cycle leaves alone -/

/-- what may come of a call, while the ledger and the cursors of the other service are in use -/
def HandlesAmid (pg : PgServer) (f : FoxyaServer) ⦃β : Type⦄ (call : Effect β) (w : World) (r : Except LedgerError β)
    (w' : World) : Prop :=
  ∃ ledger creditCursors, Handles pg f call { w with ledger := ledger, creditCursors := creditCursors } r w'

theorem carryOut_foxya {β : Type} (call : Effect β) (w : World) : (carryOut pg f call w).2.foxya = w.foxya := by
  cases call with
  | saveCreditCursor cursor =>
    unfold carryOut
    simp only
    split <;> rfl
  | saveDepositCursor cursor =>
    unfold carryOut
    simp only
    split <;> rfl
  | _ => rfl

theorem HandlesAmid.foxya {β : Type} {call : Effect β} {r : Except LedgerError β}
    (h : HandlesAmid pg f call w r w') : w'.foxya = w.foxya := by
  obtain ⟨ledger, creditCursors, h⟩ := h
  cases h with
  | done => exact carryOut_foxya call _
  | refused => rfl
  | lost => exact carryOut_foxya call _
  | clock => rfl

theorem runs_foxya {α : Type} {p : Async α} {trace : List (Answered Effect LedgerError)} {o : Except LedgerError α}
    (h : Runs (HandlesAmid pg f) p w trace o w') : w'.foxya = w.foxya := by
  apply h.always (R := fun w w' => w'.foxya = w.foxya) fun _ => rfl
  · intro a b c hab hbc
    exact hbc.trans hab
  · intro γ call r w w₁ handled
    exact handled.foxya

/-- a call that reads answers from what it leaves -/
theorem HandlesAmid.read {β : Type} {call : Effect β} {b : β} (h : HandlesAmid pg f call w (.ok b) w')
    (hcall : call.isClock = false) (hquiet : ∀ w, (carryOut pg f call w).2 = w) :
    (carryOut pg f call w').1 = .ok b ∧ w'.foxya = w.foxya ∧ w'.depositCursors = w.depositCursors := by
  obtain ⟨ledger, creditCursors, h⟩ := h
  obtain rfl := h.quiet (hquiet _)
  exact ⟨h.answer hcall, rfl, rfl⟩

/-! ## a page that has not failed -/

section
variable {γ : Type} {one : γ → Async Verdict} {placeOf : γ → SyncCursor} {save : SyncCursor → String → Effect Unit}
  {cs : List γ} {trace : List (Answered Effect LedgerError)}

/-- a loop that has not failed has come to the last candidate -/
theorem syncAll_ran {t t' : Tally} (hrun : Runs (HandlesAmid pg f) (syncAll one placeOf cs t) w trace (.ok t') w')
    (hfailed : t'.failedCount = 0) : t'.lastProcessed = (cs.getLast?.map placeOf).or t.lastProcessed := by
  induction cs generalizing t w trace with
  | nil =>
    unfold syncAll at hrun
    obtain ⟨-, ht, -⟩ := runs_pure.mp hrun
    rw [Except.ok.inj ht]
    rfl
  | cons c cs ih =>
    unfold syncAll at hrun
    rcases runs_bind.mp hrun with ⟨e, -, he⟩ | ⟨o, w₁, t₁, t₂, -, hrest, -⟩
    · cases he
    · cases o with
      | error e =>
        -- the candidate was counted as one that failed
        obtain ⟨-, ht, -⟩ := runs_pure.mp hrest
        rw [Except.ok.inj ht] at hfailed
        exact absurd hfailed (Nat.succ_ne_zero _)
      | ok verdict =>
        rw [ih hrest, Tally.count_lastProcessed, List.getLast?_cons]
        cases cs.getLast? <;> rfl

/-- what it leaves behind: the place of its last candidate -/
theorem applyPage_ran {r : SyncResult}
    (hrun : Runs (HandlesAmid pg f) (applyPage one placeOf save cs) w trace (.ok r) w')
    (hfailed : r.tally.failedCount = 0) : cs = [] ∧ w' = w ∨
      ∃ y now w₁, cs.getLast? = some y ∧ HandlesAmid pg f (save (placeOf y) now) w₁ (.ok ()) w' := by
  unfold applyPage at hrun
  rcases runs_bind.mp hrun with ⟨e, -, he⟩ | ⟨t, w₁, t₁, t₂, hall, hrest, -⟩
  · cases he
  cases hlast : t.lastProcessed with
  | none =>
    simp only [hlast] at hrest
    obtain ⟨-, hr, rfl⟩ := runs_pure.mp hrest
    obtain rfl := Except.ok.inj hr
    have hplace := syncAll_ran hall hfailed
    rw [hlast, Option.or_none] at hplace
    obtain rfl : cs = [] := List.getLast?_eq_none_iff.mp (Option.map_eq_none_iff.mp hplace.symm)
    obtain ⟨-, -, hw⟩ := runs_pure.mp hall
    exact Or.inl ⟨rfl, hw⟩
  | some last =>
    simp only [hlast] at hrest
    rcases runs_perform_bind.mp hrest with ⟨e, -, -, he⟩ | ⟨now, w₂, t₃, -, hrest, -⟩
    · cases he
    rcases runs_perform_bind.mp hrest with ⟨e, -, -, he⟩ | ⟨u, w₃, t₄, hsave, hend, -⟩
    · cases he
    obtain ⟨-, hr, rfl⟩ := runs_pure.mp hend
    obtain rfl := Except.ok.inj hr
    have hplace := syncAll_ran hall hfailed
    rw [hlast, Option.or_none] at hplace
    obtain ⟨y, hy, rfl⟩ := Option.map_eq_some_iff.mp hplace.symm
    exact Or.inr ⟨y, now, w₂, hy, hsave⟩

end

/-! ## a cycle of token deposits -/

/-- what foxya prints of a time, it reads back; and the text ends in a digit -/
structure Printed (f : FoxyaServer) : Prop where
  timestamp_toChar : ∀ t, f.timestamp (f.toChar t) = some t
  last : ∀ t, (f.toChar t).toList.getLast? ≠ some ' '

/-- a saved place is that of its row -/
theorem depositStart_saved (hprinted : Printed f) {cursorKey now : String}
    (hkey : cursorKey.toList.getLast? ≠ some ' ') {x : FoxyaTokenDepositRow}
    {y : FoxyaTokenDepositLedgerSyncCandidate} (hxy : x.toCandidate f = .ok y)
    (hsave : HandlesAmid pg f (.saveDepositCursor (depositCursorAt cursorKey y.place now)) w (.ok ()) w') :
    w'.depositStart f cursorKey = .ok (some x.position) := by
  obtain rfl := depositCandidate_ok hxy
  obtain ⟨ledger, creditCursors, handled⟩ := hsave
  rcases handled.outcome rfl with hsave | ⟨⟨e, he⟩, -⟩
  · unfold carryOut at hsave
    simp only at hsave
    split at hsave
    · next row hrow =>
      obtain rfl := congrArg Prod.snd hsave
      obtain ⟨hstored, hat, hid⟩ := depositCursorRow_ok hrow
      have hrowKey : row.cursorKey = cursorKey := Postgres.varchar_exact hstored hkey
      have htext : row.lastConfirmedAt = f.toChar x.confirmedAt := Postgres.varchar_exact hat (hprinted.last _)
      have hplace : row.place = ⟨f.toChar x.confirmedAt, x.foxyaId⟩ := by
        show (⟨row.lastConfirmedAt, row.lastFoxyaId⟩ : SyncCursor) = _
        rw [htext, hid]
        rfl
      unfold World.depositStart
      simp only [find?_upsert]
      rw [if_pos hrowKey]
      show (SyncCursor.position f row.place).map some = _
      rw [hplace, SyncCursor.position, hprinted.timestamp_toChar]
      rfl
    · cases congrArg Prod.fst hsave
  · cases he

theorem forall₂_last {ρ γ : Type} {Q : ρ → γ → Prop} {rows : List ρ} {cs : List γ} (h : List.Forall₂ Q rows cs)
    {y : γ} (hy : cs.getLast? = some y) : ∃ x, rows.getLast? = some x ∧ Q x y := by
  induction h with
  | nil => cases hy
  | @cons x c rows cs hq hrest ih =>
    cases hrest with
    | nil =>
      obtain rfl := Option.some.inj hy
      exact ⟨x, rfl, hq⟩
    | cons hq' hrest' =>
      rw [List.getLast?_cons_cons] at hy ⊢
      exact ih hy

/-- a cycle that has not failed takes its page off the rows still to be read -/
theorem depositCycle_advances (hprinted : Printed f) {options : FoxyaTokenDepositLedgerSyncOptions}
    (hkey : (options.cursorKeyFor "KORI").toList.getLast? ≠ some ' ')
    (hids : ((tokenDepositRows f w.foxya "KORI").map (·.foxyaId)).Nodup) {limit : Nat} {r : SyncResult}
    {trace : List (Answered Effect LedgerError)} {start : Option Position}
    (hstart : w.depositStart f (options.cursorKeyFor "KORI") = .ok start)
    (hrun : Runs (HandlesAmid pg f) (runDepositCycle pg options limit) w trace (.ok r) w')
    (hfailed : r.tally.failedCount = 0) :
    ∃ start', w'.depositStart f (options.cursorKeyFor "KORI") = .ok start' ∧
      (Keyset.pending (·.position) start' (tokenDepositRows f w.foxya "KORI")).length =
        (Keyset.pending (·.position) start (tokenDepositRows f w.foxya "KORI")).length - limit := by
  unfold runDepositCycle at hrun
  simp only at hrun
  split at hrun
  · obtain ⟨-, he, -⟩ := runs_throws.mp hrun
    cases he
  next hcode =>
  rw [not_not.mp hcode] at hrun
  rcases runs_perform_bind.mp hrun with ⟨e, -, -, he⟩ | ⟨cursor, w₁, t₁, hcursor, hrest, -⟩
  · cases he
  rcases runs_perform_bind.mp hrest with ⟨e, -, -, he⟩ | ⟨cs, w₂, t₂, hlist, hpage, -⟩
  · cases he
  obtain ⟨hfound, hfoxya₁, hcursors₁⟩ := hcursor.read rfl fun _ => rfl
  obtain ⟨hlisted, hfoxya₂, hcursors₂⟩ := hlist.read rfl fun _ => rfl
  obtain rfl : w₁.depositCursors.find? (·.cursorKey = options.cursorKeyFor "KORI") = cursor := Except.ok.inj hfound
  obtain ⟨start', hstart', hrows⟩ := listCompletedTokenDeposits_ok hlisted
  rw [hfoxya₂, hfoxya₁] at hrows
  rw [hcursors₁] at hstart'
  obtain rfl : start = start' := Except.ok.inj (hstart.symm.trans hstart')
  rcases applyPage_ran hpage hfailed with ⟨rfl, rfl⟩ | ⟨y, now, w₃, hy, hsave⟩
  · have hlength := Keyset.length_page (·.position) start limit (tokenDepositRows f w.foxya "KORI")
    rw [hrows.length_eq, List.length_nil] at hlength
    refine ⟨start, ?_, by omega⟩
    rw [World.depositStart, hcursors₂, hcursors₁]
    exact hstart
  · obtain ⟨x, hx, hxy⟩ := forall₂_last hrows hy
    have hdistinct : ((tokenDepositRows f w.foxya "KORI").map (·.position)).Nodup := by
      apply List.Nodup.of_map fun p : Position => (ofLex p).2
      rw [List.map_map]
      exact hids
    exact ⟨some x.position, depositStart_saved hprinted hkey hxy hsave, Keyset.pending_after hdistinct hx⟩

end

/-! ## one cycle after the other -/

/-- `n` cycles of the token deposits, one after the other, each of which works through its page -/
inductive Cycles (S : Setting) (limit : Nat) (w : World) : Nat → World → Prop
  | start : Cycles S limit w 0 w
  | next {n : Nat} {w₁ w₂ : World} {trace : List (Answered Effect LedgerError)} {r : SyncResult}
      (before : Cycles S limit w n w₁)
      (ran : Runs (HandlesAmid S.pg S.f) (runDepositCycle S.pg S.depositOptions limit) w₁ trace (.ok r) w₂)
      (complete : r.tally.failedCount = 0) : Cycles S limit w (n + 1) w₂

section
variable {S : Setting} {limit n : Nat} {w w' : World}

theorem Cycles.foxya (h : Cycles S limit w n w') : w'.foxya = w.foxya := by
  induction h with
  | start => rfl
  | next _ ran _ ih => exact (runs_foxya ran).trans ih

/-- **Every cycle that works through its page takes `limit` deposits off those still to be read**, whatever times
they share, and whatever becomes of the ledger and the other cursors meanwhile. -/
theorem deposits_worked_off (hprinted : Printed S.f)
    (hkey : (S.depositOptions.cursorKeyFor "KORI").toList.getLast? ≠ some ' ')
    (hids : ((tokenDepositRows S.f w.foxya "KORI").map (·.foxyaId)).Nodup) {start : Option Position}
    (hstart : w.depositStart S.f (S.depositOptions.cursorKeyFor "KORI") = .ok start) (h : Cycles S limit w n w') :
    ∃ start', w'.depositStart S.f (S.depositOptions.cursorKeyFor "KORI") = .ok start' ∧
      (Keyset.pending (·.position) start' (tokenDepositRows S.f w'.foxya "KORI")).length =
        (Keyset.pending (·.position) start (tokenDepositRows S.f w.foxya "KORI")).length - n * limit := by
  rw [h.foxya]
  induction h with
  | start => exact ⟨start, hstart, by omega⟩
  | next before ran complete ih =>
    obtain ⟨start₁, hstart₁, hbefore⟩ := ih
    have hids₁ := hids
    rw [← before.foxya] at hids₁
    obtain ⟨start₂, hstart₂, hafter⟩ := depositCycle_advances hprinted hkey hids₁ hstart₁ ran complete
    rw [before.foxya] at hafter
    refine ⟨start₂, hstart₂, ?_⟩
    rw [hafter, hbefore, Nat.succ_mul]
    omega

/-- a cycle that runs undisturbed -/
theorem Cycles.alone {w₁ : World} (before : Cycles S limit w n w₁)
    (complete : ((runDepositCycle S.pg S.depositOptions limit).run (carryOut S.pg S.f) w₁).1.toOption.map
      (·.tally.failedCount) = some 0) :
    Cycles S limit w (n + 1) ((runDepositCycle S.pg S.depositOptions limit).run (carryOut S.pg S.f) w₁).2 := by
  obtain ⟨t, ht⟩ : ∃ t, Runs (HandlesAmid S.pg S.f) (runDepositCycle S.pg S.depositOptions limit) w₁ t
      ((runDepositCycle S.pg S.depositOptions limit).run (carryOut S.pg S.f) w₁).1
      ((runDepositCycle S.pg S.depositOptions limit).run (carryOut S.pg S.f) w₁).2 :=
    Program.run_runs (fun call w => ⟨w.ledger, w.creditCursors, .done call w⟩) _ w₁
  cases hran : ((runDepositCycle S.pg S.depositOptions limit).run (carryOut S.pg S.f) w₁).1 with
  | error e =>
    rw [hran] at complete
    cases complete
  | ok r =>
    rw [hran] at complete ht
    exact .next before ht (Option.some.inj complete)

theorem example_printed : Printed exampleFoxya := by
  refine ⟨example_oneClock.timestamp_toChar, fun t h => ?_⟩
  rcases example_toChar t with ⟨e, he, -, htext⟩ | htext
  · have hlisted : ∀ e ∈ exampleTimes, e.2.1.toList.getLast? ≠ some ' ' := by decide
    rw [htext] at h
    exact hlisted e he h
  · rw [htext] at h
    have hdigit := digits_of_toString (List.mem_of_getLast? h)
    revert hdigit
    decide

def deposited (id : FoxyaId) (txHash : String) (confirmedAt : Nat) : TokenDepositTableRow where
  id := id
  depositId := txHash
  userId := some 7
  currencyId := 1
  amount := 3 / 2
  txHash := some txHash
  toAddress := some "TFoxya"
  blockNumber := none
  status := "COMPLETED"
  confirmedAt := some confirmedAt
  createdAt := none
  deletedAt := none

/-- two deposits of one millisecond, with the cursor at the first of them -/
def depositedWorld (first second : FoxyaId) : World where
  foxya := ⟨[⟨1, "KORI"⟩], [], [], [], [], [],
    [deposited first "first-deposit" 1767225600000000, deposited second "second-deposit" 1767225600000250]⟩
  ledger := Postgres.Db.empty
  creditCursors := []
  depositCursors := [⟨"foxya_token_deposits:KORI", "2026-01-01 00:00:00.000000", first, "2026-03-01T00:00:00.000Z"⟩]

/-- one cycle of the token deposits -/
def exampleDepositCycle (w : World) : World :=
  ((runDepositCycle exampleSetting.pg exampleSetting.depositOptions 1).run
    (carryOut exampleSetting.pg exampleSetting.f) w).2

theorem deposits_worked_off_example :
    ∃ start, (exampleDepositCycle (depositedWorld 1 2)).depositStart exampleFoxya "foxya_token_deposits:KORI" =
        .ok start ∧
      (Keyset.pending (·.position) start
        (tokenDepositRows exampleFoxya (exampleDepositCycle (depositedWorld 1 2)).foxya "KORI")).length = 0 := by
  have hcycle : Cycles exampleSetting 1 (depositedWorld 1 2) 1 (exampleDepositCycle (depositedWorld 1 2)) :=
    Cycles.start.alone (by decide +kernel)
  have hone : (Keyset.pending (·.position) (some (toLex (1767225600000000, 1)))
      (tokenDepositRows exampleFoxya (depositedWorld 1 2).foxya "KORI")).length = 1 := by decide +kernel
  have hfirst : (depositedWorld 1 2).depositStart exampleFoxya (exampleSetting.depositOptions.cursorKeyFor "KORI") =
      .ok (some (toLex (1767225600000000, 1))) := rfl
  obtain ⟨start, hstart, hlength⟩ := deposits_worked_off (S := exampleSetting) example_printed (by decide)
    (by decide +kernel) hfirst hcycle
  refine ⟨start, hstart, hlength.trans ?_⟩
  show (Keyset.pending _ _ (tokenDepositRows exampleFoxya (depositedWorld 1 2).foxya "KORI")).length - 1 * 1 = 0
  rw [hone]

end

end Foxya
