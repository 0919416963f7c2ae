import CoinManage.Lib.Traces

/-!
# What an execution may rely on

An execution is looked at by itself: between two of its calls the others may do anything, as long as
the invariant holds and the world has only grown.  What it learns is used after every such gap.

* `Program.Relies`        every call of the program keeps the invariant, and it ends in the postcondition;
* `Relies.later`          what was learned stays good while the world grows;
* `Relies.bind`, `Relies.perform`, `Relies.attempt`   the rules by the construction of a program;
* `Reachable.relies`      programs that rely on what all of them keep may run side by side.
-/

set_option linter.unusedSectionVars false

section
variable {E : Type → Type} {ε α β W : Type}

/-- what holds of the world, how it may grow, and what may come of a call -/
structure Rely (E : Type → Type) (ε W : Type) where
  inv : W → Prop
  grows : W → W → Prop
  handles : ∀ ⦃β : Type⦄, E β → W → Except ε β → W → Prop
  refl : ∀ w, grows w w
  trans : ∀ {a b c}, grows a b → grows b c → grows a c

/-- what growing does not make false -/
def Rely.Stable (R : Rely E ε W) (P : W → Prop) : Prop := ∀ w w', R.grows w w' → P w → P w'

/-- what a call comes to, when it is made any time after `w` -/
def Rely.Answers (R : Rely E ε W) (call : E β) (w : W) (post : Except ε β → W → Prop) : Prop :=
  ∀ w₁ r w₂, R.inv w₁ → R.grows w w₁ → R.handles call w₁ r w₂ → R.inv w₂ ∧ R.grows w₁ w₂ ∧ post r w₂

theorem Rely.Answers.mono {R : Rely E ε W} {call : E β} {w : W} {post post' : Except ε β → W → Prop}
    (h : R.Answers call w post) (hpost : ∀ r w, post r w → post' r w) : R.Answers call w post' := by
  intro w₁ r w₂ hinv hgrows handled
  obtain ⟨hinv', hgrows', hr⟩ := h w₁ r w₂ hinv hgrows handled
  exact ⟨hinv', hgrows', hpost r w₂ hr⟩

namespace Program

/-- the program, started any time after `w`, keeps the invariant and ends in the postcondition -/
def Relies (R : Rely E ε W) (post : Except ε α → W → Prop) : Program E ε α → W → Prop
  | .returns a, w => post (.ok a) w
  | .throws e, w => post (.error e) w
  | .calls call next, w => ∀ w₁ r w₂, R.inv w₁ → R.grows w w₁ → R.handles call w₁ r w₂ →
      R.inv w₂ ∧ R.grows w₁ w₂ ∧ (next r).Relies R post w₂

variable {R : Rely E ε W} {post post' : Except ε α → W → Prop} {w w' : W}

theorem Relies.pure {a : α} (h : post (.ok a) w) : (pure a : Program E ε α).Relies R post w := h

theorem Relies.throw {e : ε} (h : post (.error e) w) : (Program.throw e : Program E ε α).Relies R post w := h

theorem Relies.mono {p : Program E ε α} (h : p.Relies R post w) (hpost : ∀ o w, post o w → post' o w) :
    p.Relies R post' w := by
  induction p generalizing w with
  | returns a => exact hpost _ _ h
  | throws e => exact hpost _ _ h
  | calls call next ih =>
    intro w₁ r w₂ hinv hgrows handled
    obtain ⟨hinv', hgrows', hnext⟩ := h w₁ r w₂ hinv hgrows handled
    exact ⟨hinv', hgrows', ih r hnext⟩

/-- what was learned stays good while the world grows -/
theorem Relies.later {p : Program E ε α} (h : p.Relies R post w) (hpost : ∀ o, R.Stable (post o))
    (hw : R.grows w w') : p.Relies R post w' := by
  cases p with
  | returns a => exact hpost _ _ _ hw h
  | throws e => exact hpost _ _ _ hw h
  | calls call next =>
    intro w₁ r w₂ hinv hgrows handled
    exact h w₁ r w₂ hinv (R.trans hw hgrows) handled

/-- what held before and is stable holds at the end as well -/
theorem Relies.also {p : Program E ε α} {P : W → Prop} (h : p.Relies R post w) (hP : R.Stable P) (hw : P w) :
    p.Relies R (fun o w => post o w ∧ P w) w := by
  induction p generalizing w with
  | returns a => exact ⟨h, hw⟩
  | throws e => exact ⟨h, hw⟩
  | calls call next ih =>
    intro w₁ r w₂ hinv hgrows handled
    obtain ⟨hinv', hgrows', hnext⟩ := h w₁ r w₂ hinv hgrows handled
    exact ⟨hinv', hgrows', ih r hnext (hP _ _ (R.trans hgrows hgrows') hw)⟩

theorem Relies.perform {call : E α} (h : R.Answers call w post) : (Program.perform call).Relies R post w := by
  intro w₁ r w₂ hinv hgrows handled
  obtain ⟨hinv', hgrows', hpost⟩ := h w₁ r w₂ hinv hgrows handled
  refine ⟨hinv', hgrows', ?_⟩
  cases r with
  | ok a => exact hpost
  | error e => exact hpost

/-- an error of the first part is the error of the whole -/
theorem Relies.bind {p : Program E ε β} {f : β → Program E ε α}
    (h : p.Relies R (fun o w => match o with
      | .ok b => (f b).Relies R post w
      | .error e => post (.error e) w) w) : (p >>= f).Relies R post w := by
  induction p generalizing w with
  | returns b => exact h
  | throws e => exact h
  | calls call next ih =>
    rw [calls_bind]
    intro w₁ r w₂ hinv hgrows handled
    obtain ⟨hinv', hgrows', hnext⟩ := h w₁ r w₂ hinv hgrows handled
    exact ⟨hinv', hgrows', ih r hnext⟩

theorem Relies.tryCatch {p : Program E ε α} {g : ε → Program E ε α}
    (h : p.Relies R (fun o w => match o with
      | .ok a => post (.ok a) w
      | .error e => (g e).Relies R post w) w) : (p.tryCatch g).Relies R post w := by
  induction p generalizing w with
  | returns a => exact h
  | throws e => exact h
  | calls call next ih =>
    intro w₁ r w₂ hinv hgrows handled
    obtain ⟨hinv', hgrows', hnext⟩ := h w₁ r w₂ hinv hgrows handled
    exact ⟨hinv', hgrows', ih r hnext⟩

/-- the outcome of a program as a value -/
theorem Relies.attempt {p : Program E ε β} {post : Except ε (Except ε β) → W → Prop}
    (h : p.Relies R (fun o w => post (.ok o) w) w) : p.attempt.Relies R post w := by
  apply Relies.tryCatch
  apply Relies.bind
  apply h.mono
  intro o w' ho
  cases o with
  | ok b => exact ho
  | error e => exact ho

end Program

namespace Interleaving
open Program

variable {R : Rely E ε W} {entry : Program E ε Unit → Prop} {moves : W → W → Prop}
  {admits : Nat → ∀ {β : Type}, E β → W → Prop} {σ σ' : System E ε W}

/-- one of the executions may go on alone, to its end -/
theorem Reachable.alone {handles : Nat → ∀ {β : Type}, E β → W → Except ε β → W → Prop}
    {op : ∀ {β : Type}, E β → Method W ε β}
    (hop : ∀ i {β : Type} (call : E β) w, handles i call w (op call w).1 (op call w).2)
    {i : Nat} {p : Program E ε Unit} (hp : σ.running i = some p) :
    ∃ σ', Reachable entry handles moves always σ σ' ∧ σ'.world = (p.run op σ.world).2 := by
  induction p generalizing σ with
  | returns a => exact ⟨σ, .refl, rfl⟩
  | throws e => exact ⟨σ, .refl, rfl⟩
  | calls call next ih =>
    have hnext : Function.update σ.running i (some (next (op call σ.world).1)) i =
        some (next (op call σ.world).1) := Function.update_self i _ σ.running
    obtain ⟨σ', hrest, hworld⟩ := ih (op call σ.world).1
      (σ := ⟨(op call σ.world).2, Function.update σ.running i (some (next (op call σ.world).1)), σ.started⟩) hnext
    exact ⟨σ', .head (Step.perform hp trivial (hop i call σ.world)) hrest, hworld⟩

/-- a program that is started and goes on alone -/
theorem Reachable.one {handles : Nat → ∀ {β : Type}, E β → W → Except ε β → W → Prop}
    {op : ∀ {β : Type}, E β → Method W ε β}
    (hop : ∀ i {β : Type} (call : E β) w, handles i call w (op call w).1 (op call w).2)
    {p : Program E ε Unit} (hp : entry p) (w : W) :
    ∃ σ', Reachable entry handles moves always (System.initial E ε w) σ' ∧ σ'.world = (p.run op w).2 := by
  have hrunning : (⟨w, Function.update (fun _ => none) 0 (some p), 1⟩ : System E ε W).running 0 = some p := by
    show Function.update (fun _ => none) 0 (some p) 0 = some p
    rw [Function.update_self]
  obtain ⟨σ', hrest, hworld⟩ := Reachable.alone hop hrunning
  exact ⟨σ', .head (Step.start p hp) hrest, hworld⟩

/-- the programs under way rely on what holds now -/
def UnderWay (R : Rely E ε W) (σ : System E ε W) : Prop :=
  ∀ i p, σ.running i = some p → p.Relies R (fun _ _ => True) σ.world

theorem Step.relies (hentry : ∀ p, entry p → ∀ w, R.inv w → p.Relies R (fun _ _ => True) w)
    (hmoves : ∀ w w', R.inv w → moves w w' → R.inv w' ∧ R.grows w w')
    (h : Step entry (fun _ {_} call => R.handles call) moves admits σ σ') (hinv : R.inv σ.world)
    (hunder : UnderWay R σ) : R.inv σ'.world ∧ R.grows σ.world σ'.world ∧ UnderWay R σ' := by
  have hstays : ∀ {w' : W} {p : Program E ε Unit}, R.grows σ.world w' →
      p.Relies R (fun _ _ => True) σ.world → p.Relies R (fun _ _ => True) w' :=
    fun hgrows hp => hp.later (fun _ _ _ _ _ => trivial) hgrows
  cases h with
  | start p ready =>
    refine ⟨hinv, R.refl _, fun i q hq => ?_⟩
    rcases running_update hq with ⟨-, hp⟩ | ⟨-, hq⟩
    · obtain rfl := Option.some.inj hp
      exact hentry _ ready _ hinv
    · exact hunder i q hq
  | @perform i β call next r w₂ running admitted handled =>
    obtain ⟨hinv', hgrows, hnext⟩ := hunder i _ running _ r w₂ hinv (R.refl _) handled
    refine ⟨hinv', hgrows, fun j q hq => ?_⟩
    rcases running_update hq with ⟨-, hp⟩ | ⟨-, hq⟩
    · obtain rfl := Option.some.inj hp
      exact hnext
    · exact hstays hgrows (hunder j q hq)
  | stop i =>
    refine ⟨hinv, R.refl _, fun j q hq => ?_⟩
    rcases running_update hq with ⟨-, hp⟩ | ⟨-, hq⟩
    · cases hp
    · exact hunder j q hq
  | environment moved =>
    obtain ⟨hinv', hgrows⟩ := hmoves _ _ hinv moved
    exact ⟨hinv', hgrows, fun j q hq => hstays hgrows (hunder j q hq)⟩

/-- Programs each of which keeps the invariant, relying on the others to do so, keep it together. -/
theorem Reachable.relies (hentry : ∀ p, entry p → ∀ w, R.inv w → p.Relies R (fun _ _ => True) w)
    (hmoves : ∀ w w', R.inv w → moves w w' → R.inv w' ∧ R.grows w w') {w : W} (hw : R.inv w)
    (h : Reachable entry (fun _ {_} call => R.handles call) moves admits (System.initial E ε w) σ) :
    R.inv σ.world ∧ R.grows w σ.world := by
  have hall : R.inv σ.world ∧ R.grows w σ.world ∧ UnderWay R σ := by
    refine h.invariant (I := fun σ => R.inv σ.world ∧ R.grows w σ.world ∧ UnderWay R σ) ?_
      ⟨hw, R.refl w, fun i p hp => by cases hp⟩
    intro σ₁ σ₂ hσ hstep
    obtain ⟨hinv, hgrows, hunder⟩ := hσ
    obtain ⟨hinv', hgrows', hunder'⟩ := hstep.relies hentry hmoves hinv hunder
    exact ⟨hinv', R.trans hgrows hgrows', hunder'⟩
  exact ⟨hall.1, hall.2.1⟩

end Interleaving

end
