import CoinManage.Foxya.Service

/-!
# What a cycle of the ledger syncs relies on

A cycle starts at a saved cursor, so whatever holds of saved cursors holds of its start; it saves the place of
the last candidate it has done.  Between its calls other cycles, other calls of the ledger and foxya itself go on.

* `answers_quiet`, `answers_write`   the calls of a cycle, by whether they write;
* `syncAll_relies`                   how far the loop has come when it ends;
* `applyPage_relies`                 a page, from what each candidate and each saved place needs;
* `cycle_relies`                     a whole cycle, of balance credits or of token deposits.

Where a cursor may stand (`may`) and what it is for a candidate to be done (`Fact`) is left open.
-/

namespace Foxya
open Program

section
variable {pg : PgServer} {f : FoxyaServer} {R : Rely Effect LedgerError World}

/-! ## calls -/

/-- a call that reads, the clock among them -/
theorem Handles.quiet {β : Type} {call : Effect β} {w w' : World} {r : Except LedgerError β}
    (h : Handles pg f call w r w') (hquiet : (carryOut pg f call w).2 = w) : w' = w := by
  cases h with
  | done => exact hquiet
  | refused => rfl
  | lost => exact hquiet
  | clock => rfl

def Effect.isClock {β : Type} : Effect β → Bool
  | .now => true
  | _ => false

/-- what came of a call other than the clock -/
theorem Handles.outcome {β : Type} {call : Effect β} {w w' : World} {r : Except LedgerError β}
    (h : Handles pg f call w r w') (hcall : call.isClock = false) :
    carryOut pg f call w = (r, w') ∨ (∃ e, r = .error e) ∧ (w' = w ∨ w' = (carryOut pg f call w).2) := by
  cases h with
  | done => exact Or.inl rfl
  | refused _ e => exact Or.inr ⟨⟨e, rfl⟩, Or.inl rfl⟩
  | lost _ e => exact Or.inr ⟨⟨e, rfl⟩, Or.inr rfl⟩
  | clock => cases hcall

/-- what a call answered that was not refused -/
theorem Handles.answer {β : Type} {call : Effect β} {w w' : World} {b : β} (h : Handles pg f call w (.ok b) w')
    (hcall : call.isClock = false) : (carryOut pg f call w).1 = .ok b := by
  rcases h.outcome hcall with hdone | ⟨⟨e, he⟩, -⟩
  · rw [hdone]
  · cases he

theorem answers_quiet (hR : R.handles = Handles pg f) {β : Type} {call : Effect β} {w : World}
    {post : Except LedgerError β → World → Prop} (hquiet : ∀ w, (carryOut pg f call w).2 = w)
    (hpost : ∀ w₁ r, R.inv w₁ → R.grows w w₁ → Handles pg f call w₁ r w₁ → post r w₁) : R.Answers call w post := by
  intro w₁ r w₂ hinv hgrows handled
  rw [hR] at handled
  obtain rfl := handled.quiet (hquiet w₁)
  exact ⟨hinv, R.refl _, hpost _ r hinv hgrows handled⟩

/-- a call that writes, whatever its answer -/
theorem answers_write (hR : R.handles = Handles pg f) {β : Type} {call : Effect β} {w : World}
    {post : Except LedgerError β → World → Prop} (hcall : call.isClock = false)
    (hstep : ∀ w₁, R.inv w₁ → R.grows w w₁ → R.inv (carryOut pg f call w₁).2 ∧
      R.grows w₁ (carryOut pg f call w₁).2 ∧ post (carryOut pg f call w₁).1 (carryOut pg f call w₁).2)
    (herror : ∀ e w, post (.error e) w) : R.Answers call w post := by
  intro w₁ r w₂ hinv hgrows handled
  rw [hR] at handled
  obtain ⟨hinv', hgrows', hpost⟩ := hstep w₁ hinv hgrows
  rcases handled.outcome hcall with hdone | ⟨⟨e, rfl⟩, rfl | rfl⟩
  · rw [hdone] at hinv' hgrows' hpost
    exact ⟨hinv', hgrows', hpost⟩
  · exact ⟨hinv, R.refl _, herror e _⟩
  · exact ⟨hinv', hgrows', herror e _⟩

/-! ## pages -/

/-- done, if it did not fail -/
def Unless {α : Type} (P : World → Prop) : Except LedgerError α → World → Prop
  | .ok _, w => P w
  | .error _, _ => True

theorem Unless.imp {α : Type} {P P' : World → Prop} (h : ∀ w, P w → P' w) {r : Except LedgerError α} {w : World}
    (hr : Unless P r w) : Unless P' r w := by
  cases r with
  | ok a => exact h w hr
  | error e => trivial

theorem Tally.count_lastProcessed (t : Tally) (place : SyncCursor) (verdict : Verdict) :
    (t.count place verdict).lastProcessed = some place := by cases verdict <;> rfl

/-- a candidate that was done, and all before it -/
structure Done {γ : Type} (R : Rely Effect LedgerError World) (Fact : γ → World → Prop) (placeOf : γ → SyncCursor)
    (cs : List γ) (w₀ : World) (last : Option SyncCursor) (w : World) : Prop where
  grows : R.grows w₀ w
  reached : ∃ done rest, cs = done ++ rest ∧ last = done.getLast?.map placeOf ∧ ∀ d ∈ done, Fact d w

section
variable {γ : Type} {one : γ → Async Verdict} {placeOf : γ → SyncCursor} {save : SyncCursor → String → Effect Unit}
  {Fact : γ → World → Prop} {cs : List γ} {w₀ : World}

theorem Done.stable (hfact : ∀ c, R.Stable (Fact c)) {last : Option SyncCursor} :
    R.Stable (Done R Fact placeOf cs w₀ last) := by
  intro w w' hgrows h
  obtain ⟨done, rest, hcs, hlast, hdone⟩ := h.reached
  exact ⟨R.trans h.grows hgrows, done, rest, hcs, hlast, fun d hd => hfact d w w' hgrows (hdone d hd)⟩

/-- what is needed of a page: each candidate can be worked on when those before it are done, and the place of the
last one that was done can be saved -/
structure PageOk (R : Rely Effect LedgerError World) (one : γ → Async Verdict) (placeOf : γ → SyncCursor)
    (save : SyncCursor → String → Effect Unit) (Fact : γ → World → Prop) (cs : List γ) (w₀ : World) : Prop where
  each : ∀ done c rest w, cs = done ++ c :: rest → R.grows w₀ w → (∀ d ∈ done, Fact d w) →
    (one c).Relies R (Unless (Fact c)) w
  saved : ∀ done y rest w now, cs = done ++ [y] ++ rest → R.grows w₀ w → (∀ d ∈ done ++ [y], Fact d w) →
    R.Answers (save (placeOf y) now) w (fun _ _ => True)

/-- the loop has done the candidates up to the place it remembers -/
theorem syncAll_relies (hfact : ∀ c, R.Stable (Fact c)) (hpage : PageOk R one placeOf save Fact cs w₀)
    (done rest : List γ) (hcs : cs = done ++ rest) (t : Tally) (hlast : t.lastProcessed = done.getLast?.map placeOf)
    {w : World} (hgrows : R.grows w₀ w) (hdone : ∀ d ∈ done, Fact d w) :
    (syncAll one placeOf rest t).Relies R (fun o w => match o with
      | .ok t => Done R Fact placeOf cs w₀ t.lastProcessed w
      | .error _ => True) w := by
  induction rest generalizing done t w with
  | nil => exact ⟨hgrows, done, [], hcs, hlast, hdone⟩
  | cons c rest ih =>
    unfold syncAll
    apply Relies.bind
    apply Relies.attempt
    -- what was done before stays done while the candidate is worked on
    have hbefore : R.Stable fun w => R.grows w₀ w ∧ ∀ d ∈ done, Fact d w := fun w₁ w₂ hg h =>
      ⟨R.trans h.1 hg, fun d hd => hfact d w₁ w₂ hg (h.2 d hd)⟩
    apply ((hpage.each done c rest w hcs hgrows hdone).also hbefore ⟨hgrows, hdone⟩).mono
    intro o w' ho
    obtain ⟨hc, hgrows', hdone'⟩ := ho
    cases o with
    | error e => exact ⟨hgrows', done, c :: rest, hcs, hlast, hdone'⟩
    | ok verdict =>
      refine ih (done ++ [c]) (by rw [hcs, List.append_assoc]; rfl) _ ?_ hgrows' ?_
      · rw [Tally.count_lastProcessed, List.getLast?_append, List.getLast?_singleton]
        rfl
      · intro d hd
        rcases List.mem_append.mp hd with hd | hd
        · exact hdone' d hd
        · rw [List.mem_singleton.mp hd]
          exact hc

theorem applyPage_relies (hR : R.handles = Handles pg f) (hfact : ∀ c, R.Stable (Fact c))
    (hpage : PageOk R one placeOf save Fact cs w₀) :
    (applyPage one placeOf save cs).Relies R (fun _ _ => True) w₀ := by
  unfold applyPage
  apply Relies.bind
  apply (syncAll_relies hfact hpage [] cs rfl {} rfl (R.refl w₀) (fun _ h => by cases h)).mono
  intro o w ho
  cases o with
  | error e => trivial
  | ok t =>
    have hdone : Done R Fact placeOf cs w₀ t.lastProcessed w := ho
    simp only
    cases hlast : t.lastProcessed with
    | none => exact Relies.pure trivial
    | some last =>
      rw [hlast] at hdone
      apply Relies.bind
      refine Relies.perform (answers_quiet hR (fun _ => rfl) ?_)
      intro w₁ now _ hgrows _
      cases now with
      | error e => trivial
      | ok now =>
        obtain ⟨hgrows₁, done, rest, hcs, hplace, hfacts⟩ := Done.stable hfact w w₁ hgrows hdone
        obtain ⟨y, hy, rfl⟩ := Option.map_eq_some_iff.mp hplace.symm
        obtain ⟨front, rfl⟩ := List.getLast?_eq_some_iff.mp hy
        apply Relies.bind
        apply (Relies.perform (hpage.saved front y rest w₁ now hcs hgrows₁ hfacts)).mono
        intro o w' _
        cases o with
        | error e => trivial
        | ok _ => exact Relies.pure trivial

end

/-! ## from the cursor on -/

section
variable {may : Option Position → World → Prop}

/-- a start a page may have, if its cursor can be read at all -/
def MayStand (f : FoxyaServer) (may : Option Position → World → Prop) (place : Option SyncCursor) (w : World) : Prop :=
  ∀ start, startOf f place = .ok start → may start w

theorem MayStand.stable (hmay : ∀ start, R.Stable (may start)) (place : Option SyncCursor) :
    R.Stable (MayStand f may place) := fun w w' hgrows h start hstart => hmay start w w' hgrows (h start hstart)

/-- a cycle, from what its cursor and its pages are -/
theorem cycle_relies (hR : R.handles = Handles pg f) {κ γ : Type} (find : Effect (Option κ)) (place : κ → SyncCursor)
    (list : Option SyncCursor → Effect (List γ)) (work : List γ → Async SyncResult)
    (hplaces : ∀ start, R.Stable (may start)) (hfind : ∀ w, (carryOut pg f find w).2 = w)
    (hlist : ∀ c w, (carryOut pg f (list c) w).2 = w)
    (hcursor : ∀ w cursor, R.inv w → Handles pg f find w (.ok cursor) w → MayStand f may (cursor.map place) w)
    (hwork : ∀ w c cs, R.inv w → MayStand f may c w → Handles pg f (list c) w (.ok cs) w →
      (work cs).Relies R (fun _ _ => True) w) (w : World) :
    (perform find >>= fun cursor => perform (list (cursor.map place)) >>= work).Relies R (fun _ _ => True) w := by
  apply Relies.bind
  refine Relies.perform (answers_quiet hR hfind ?_)
  intro w₁ o hinv₁ _ handled₁
  cases o with
  | error e => trivial
  | ok cursor =>
    -- the cursor that was read stands where it may, now and later
    have hread := hcursor w₁ cursor hinv₁ handled₁
    apply Relies.bind
    refine Relies.perform (answers_quiet hR (hlist _) ?_)
    intro w₂ o hinv₂ hgrows₂ handled₂
    cases o with
    | error e => trivial
    | ok cs => exact hwork w₂ _ cs hinv₂ (MayStand.stable hplaces _ w₁ w₂ hgrows₂ hread) handled₂

end

/-! ## a cycle of balance credits -/

section
variable {options : FoxyaBalanceCreditLedgerSyncOptions} {sourceName : FoxyaBalanceCreditSourceName}
  {may : Option Position → World → Prop} {Fact : FoxyaBalanceCreditLedgerSyncCandidate → World → Prop}

theorem syncCredit_relies {c : FoxyaBalanceCreditLedgerSyncCandidate} {w : World} {P : World → Prop}
    (hskip : Postgres.normalizeCode pg c.currencyCode ≠ "KORI" → P w)
    (happly : ∀ amount, Postgres.normalizeCode pg c.currencyCode = "KORI" →
      parseStoredKoriAmount c.amount = .ok amount →
      R.Answers (.applyExternalCredit (creditInput c "KORI" amount)) w (Unless P)) :
    (syncCredit pg "KORI" c).Relies R (Unless P) w := by
  unfold syncCredit
  split
  · next hcode => exact Relies.pure (hskip hcode)
  · next hcode =>
    cases hamount : parseStoredKoriAmount c.amount with
    | error e => exact Relies.throw trivial
    | ok amount =>
      apply Relies.bind
      apply (Relies.perform (happly amount (not_not.mp hcode) hamount)).mono
      intro o w' ho
      cases o with
      | ok applied => exact ho
      | error e => trivial

variable (pg f R may Fact sourceName) in
/-- the cursor of the source stands where it may, and from there a page can be worked through -/
structure CreditSource (cursorKey : String) (limit : Nat) : Prop where
  facts : ∀ c, R.Stable (Fact c)
  places : ∀ start, R.Stable (may start)
  cursor : ∀ w, R.inv w → MayStand f may ((w.creditCursors.find? (·.cursorKey = cursorKey)).map (·.place)) w
  page : ∀ w start cs, R.inv w → may start w →
    List.Forall₂ (fun row c => FoxyaBalanceCreditRow.toCandidate f sourceName row = .ok c)
      (Keyset.page (·.position) start limit (creditRows f w.foxya sourceName "KORI")) cs →
    PageOk R (syncCredit pg "KORI") FoxyaBalanceCreditLedgerSyncCandidate.place
      (fun last now => .saveCreditCursor (creditCursorAt cursorKey sourceName "KORI" last now)) Fact cs w

theorem creditCycle_relies (hR : R.handles = Handles pg f) {limit : Nat}
    (hsource : CreditSource pg f R sourceName may Fact (options.cursorKey sourceName "KORI") limit) (w : World) :
    (runCreditCycle pg options sourceName limit).Relies R (fun _ _ => True) w := by
  unfold runCreditCycle
  simp only
  split
  · exact Relies.throw trivial
  next hcode =>
  rw [not_not.mp hcode]
  refine cycle_relies hR _ FoxyaBalanceCreditLedgerSyncCursor.place
    (fun c => .listCompletedCredits sourceName "KORI" c limit) _ hsource.places (fun _ => rfl) (fun _ _ => rfl) ?_ ?_ w
  · intro w₁ cursor hinv handled
    have hfind : w₁.creditCursors.find? (·.cursorKey = options.cursorKey sourceName "KORI") = cursor :=
      Except.ok.inj (handled.answer rfl)
    rw [← hfind]
    exact hsource.cursor w₁ hinv
  · intro w₁ c cs hinv hread handled
    obtain ⟨start, hstart, hrows⟩ := listCompletedCredits_ok (handled.answer rfl)
    exact applyPage_relies hR hsource.facts (hsource.page w₁ start cs hinv (hread start hstart) hrows)

end

/-! ## a cycle of token deposits -/

section
variable {options : FoxyaTokenDepositLedgerSyncOptions} {may : Option Position → World → Prop}
  {Fact : FoxyaTokenDepositLedgerSyncCandidate → World → Prop}

variable (pg f R may Fact) in
structure DepositSource (cursorKey : String) (limit : Nat) : Prop where
  facts : ∀ c, R.Stable (Fact c)
  places : ∀ start, R.Stable (may start)
  cursor : ∀ w, R.inv w → MayStand f may ((w.depositCursors.find? (·.cursorKey = cursorKey)).map (·.place)) w
  page : ∀ w start cs, R.inv w → may start w →
    List.Forall₂ (fun row c => FoxyaTokenDepositRow.toCandidate f row = .ok c)
      (Keyset.page (·.position) start limit (tokenDepositRows f w.foxya "KORI")) cs →
    PageOk R (syncDeposit pg "KORI") FoxyaTokenDepositLedgerSyncCandidate.place
      (fun last now => .saveDepositCursor (depositCursorAt cursorKey last now)) Fact cs w

theorem depositCycle_relies (hR : R.handles = Handles pg f) {limit : Nat}
    (hsource : DepositSource pg f R may Fact (options.cursorKeyFor "KORI") limit) (w : World) :
    (runDepositCycle pg options limit).Relies R (fun _ _ => True) w := by
  unfold runDepositCycle
  simp only
  split
  · exact Relies.throw trivial
  next hcode =>
  rw [not_not.mp hcode]
  refine cycle_relies hR _ FoxyaTokenDepositLedgerSyncCursor.place
    (fun c => .listCompletedTokenDeposits "KORI" c limit) _ hsource.places (fun _ => rfl) (fun _ _ => rfl) ?_ ?_ w
  · intro w₁ cursor hinv handled
    have hfind : w₁.depositCursors.find? (·.cursorKey = options.cursorKeyFor "KORI") = cursor :=
      Except.ok.inj (handled.answer rfl)
    rw [← hfind]
    exact hsource.cursor w₁ hinv
  · intro w₁ c cs hinv hread handled
    obtain ⟨start, hstart, hrows⟩ := listCompletedTokenDeposits_ok (handled.answer rfl)
    exact applyPage_relies hR hsource.facts (hsource.page w₁ start cs hinv (hread start hstart) hrows)

theorem syncDeposit_relies (hR : R.handles = Handles pg f) (Applied : DepositApplyResult → World → Prop)
    {c : FoxyaTokenDepositLedgerSyncCandidate} {w : World} {P : World → Prop}
    (hskip : Postgres.normalizeCode pg c.currencyCode ≠ "KORI" → P w)
    (happly : ∀ amount now w', Postgres.normalizeCode pg c.currencyCode = "KORI" →
      parseStoredKoriAmount c.amount = .ok amount → R.grows w w' →
      R.Answers (.applyDeposit (depositInput c amount now)) w' (fun o w => match o with
        | .ok r => Applied r w
        | .error _ => True))
    (hdone : ∀ r w', Applied r w' → r.deposit.status = .completed → P w')
    (hcomplete : ∀ r w', Applied r w' → R.Answers (.completeDeposit r.deposit.depositId) w' (Unless P)) :
    (syncDeposit pg "KORI" c).Relies R (Unless P) w := by
  unfold syncDeposit
  split
  · next hcode => exact Relies.pure (hskip hcode)
  · next hcode =>
    cases hamount : parseStoredKoriAmount c.amount with
    | error e => exact Relies.throw trivial
    | ok amount =>
      apply Relies.bind
      refine Relies.perform (answers_quiet hR (fun _ => rfl) ?_)
      intro w₁ now _ hgrows₁ _
      cases now with
      | error e => trivial
      | ok now =>
        apply Relies.bind
        apply (Relies.perform (happly amount now w₁ (not_not.mp hcode) hamount hgrows₁)).mono
        intro o w₂ ho
        cases o with
        | error e => trivial
        | ok applied =>
          simp only
          split
          · apply Relies.bind
            apply (Relies.perform (hcomplete applied w₂ ho)).mono
            intro o w₃ ho
            cases o with
            | error e => trivial
            | ok d => exact Relies.pure ho
          · next hstatus => exact Relies.pure (hdone applied w₂ ho (not_not.mp hstatus))

end

end

end Foxya
