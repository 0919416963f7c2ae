import CoinManage.Lib.Interleaving

/-!
# Programs that run to their end, with the calls they make

`Runs handles p w t o w'` says that the program `p`, started in the world `w`, makes the calls of the
trace `t`, each with the answer it got, and ends with the outcome `o` in the world `w'`.  What may
come of a call is the relation `handles`: it leaves open whether a call fails, and what else moves
the world before it is carried out.

* `runs_bind`, `runs_tryCatch`, `runs_perform`   the runs of a program by its construction;
* `Program.run_runs`, `Program.passes_runs`   a program that runs alone;
* `Program.attempt`  a program whose error is a value, for what goes on after it;
* `Program.Only`     programs all of whose calls are of one kind;
* `Session`          programs that run one after the other over one world;
* `Session.invariant`   what every run of a session keeps.
-/

set_option linter.unusedSectionVars false

/-- a call and what it was answered -/
structure Answered (E : Type → Type) (ε : Type) : Type 1 where
  {β : Type}
  call : E β
  answer : Except ε β

inductive Runs {E : Type → Type} {ε α W : Type}
    (handles : ∀ ⦃β : Type⦄, E β → W → Except ε β → W → Prop) :
    Program E ε α → W → List (Answered E ε) → Except ε α → W → Prop
  | returns (a : α) (w : W) : Runs handles (.returns a) w [] (.ok a) w
  | throws (e : ε) (w : W) : Runs handles (.throws e) w [] (.error e) w
  | calls {β : Type} {call : E β} {next : Except ε β → Program E ε α} {r : Except ε β}
      {w w₁ w₂ : W} {t : List (Answered E ε)} {o : Except ε α} (handled : handles call w r w₁)
      (rest : Runs handles (next r) w₁ t o w₂) :
      Runs handles (.calls call next) w (⟨call, r⟩ :: t) o w₂

section
variable {E : Type → Type} {ε α β W : Type}
  {handles : ∀ ⦃β : Type⦄, E β → W → Except ε β → W → Prop}
  {w w' : W} {t : List (Answered E ε)}

theorem runs_returns {a : α} {o : Except ε α} :
    Runs handles (.returns a) w t o w' ↔ t = [] ∧ o = .ok a ∧ w' = w := by
  constructor
  · intro h
    cases h
    exact ⟨rfl, rfl, rfl⟩
  · rintro ⟨rfl, rfl, rfl⟩
    exact .returns a w'

theorem runs_pure {a : α} {o : Except ε α} :
    Runs handles (pure a) w t o w' ↔ t = [] ∧ o = .ok a ∧ w' = w := runs_returns

theorem runs_throws {e : ε} {o : Except ε α} :
    Runs handles (.throws e) w t o w' ↔ t = [] ∧ o = .error e ∧ w' = w := by
  constructor
  · intro h
    cases h
    exact ⟨rfl, rfl, rfl⟩
  · rintro ⟨rfl, rfl, rfl⟩
    exact .throws e w'

theorem runs_calls {call : E β} {next : Except ε β → Program E ε α} {o : Except ε α} :
    Runs handles (.calls call next) w t o w' ↔ ∃ r w₁ t', handles call w r w₁ ∧
      Runs handles (next r) w₁ t' o w' ∧ t = ⟨call, r⟩ :: t' := by
  constructor
  · intro h
    cases h with
    | calls handled rest => exact ⟨_, _, _, handled, rest, rfl⟩
  · rintro ⟨r, w₁, t', handled, rest, rfl⟩
    exact .calls handled rest

theorem runs_perform {call : E β} {o : Except ε β} :
    Runs handles (Program.perform call) w t o w' ↔ t = [⟨call, o⟩] ∧ handles call w o w' := by
  constructor
  · intro h
    obtain ⟨r, w₁, t', handled, rest, rfl⟩ := runs_calls.mp h
    cases r with
    | ok b =>
      obtain ⟨rfl, rfl, rfl⟩ := runs_returns.mp rest
      exact ⟨rfl, handled⟩
    | error e =>
      obtain ⟨rfl, rfl, rfl⟩ := runs_throws.mp rest
      exact ⟨rfl, handled⟩
  · rintro ⟨rfl, handled⟩
    cases o with
    | ok b => exact .calls handled (.returns b w')
    | error e => exact .calls handled (.throws e w')

/-- a sequence ends early, or its first part returns and its second part goes on -/
theorem runs_bind {p : Program E ε α} {f : α → Program E ε β} {o : Except ε β} :
    Runs handles (p >>= f) w t o w' ↔
      (∃ e, Runs handles p w t (.error e) w' ∧ o = .error e) ∨
      ∃ a w₁ t₁ t₂, Runs handles p w t₁ (.ok a) w₁ ∧ Runs handles (f a) w₁ t₂ o w' ∧
        t = t₁ ++ t₂ := by
  induction p generalizing w t with
  | returns a =>
    constructor
    · intro h
      exact Or.inr ⟨a, w, [], t, .returns a w, h, rfl⟩
    · rintro (⟨e, h, rfl⟩ | ⟨a', w₁, t₁, t₂, h, hf, rfl⟩)
      · cases h
      · obtain ⟨rfl, ha, rfl⟩ := runs_returns.mp h
        cases ha
        exact hf
  | throws e =>
    constructor
    · intro h
      obtain ⟨rfl, rfl, rfl⟩ := runs_throws.mp h
      exact Or.inl ⟨e, .throws e w', rfl⟩
    · rintro (⟨e', h, rfl⟩ | ⟨a', w₁, t₁, t₂, h, hf, rfl⟩)
      · obtain ⟨rfl, he, rfl⟩ := runs_throws.mp h
        cases he
        exact .throws e w'
      · cases h
  | calls call next ih =>
    rw [Program.calls_bind, runs_calls]
    constructor
    · rintro ⟨r, w₁, t', handled, rest, rfl⟩
      rcases (ih r).mp rest with ⟨e, h, rfl⟩ | ⟨a, w₂, t₁, t₂, h, hf, rfl⟩
      · exact Or.inl ⟨e, .calls handled h, rfl⟩
      · exact Or.inr ⟨a, w₂, ⟨call, r⟩ :: t₁, t₂, .calls handled h, hf, rfl⟩
    · rintro (⟨e, h, rfl⟩ | ⟨a, w₂, t₁, t₂, h, hf, rfl⟩)
      · obtain ⟨r, w₁, t', handled, rest, rfl⟩ := runs_calls.mp h
        exact ⟨r, w₁, t', handled, (ih r).mpr (Or.inl ⟨e, rest, rfl⟩), rfl⟩
      · obtain ⟨r, w₁, t', handled, rest, rfl⟩ := runs_calls.mp h
        exact ⟨r, w₁, t' ++ t₂, handled, (ih r).mpr (Or.inr ⟨a, w₂, t', t₂, rest, hf, rfl⟩), rfl⟩

/-- one call, then the rest -/
theorem runs_perform_bind {call : E α} {f : α → Program E ε β} {o : Except ε β} :
    Runs handles (Program.perform call >>= f) w t o w' ↔
      (∃ e, t = [⟨call, .error e⟩] ∧ handles call w (.error e) w' ∧ o = .error e) ∨
      ∃ a w₁ t', handles call w (.ok a) w₁ ∧ Runs handles (f a) w₁ t' o w' ∧
        t = ⟨call, .ok a⟩ :: t' := by
  rw [runs_bind]
  constructor
  · rintro (⟨e, h, rfl⟩ | ⟨a, w₁, t₁, t₂, h, hf, rfl⟩)
    · obtain ⟨rfl, handled⟩ := runs_perform.mp h
      exact Or.inl ⟨e, rfl, handled, rfl⟩
    · obtain ⟨rfl, handled⟩ := runs_perform.mp h
      exact Or.inr ⟨a, w₁, t₂, handled, hf, rfl⟩
  · rintro (⟨e, rfl, handled, rfl⟩ | ⟨a, w₁, t', handled, hf, rfl⟩)
    · exact Or.inl ⟨e, runs_perform.mpr ⟨rfl, handled⟩, rfl⟩
    · exact Or.inr ⟨a, w₁, [_], t', runs_perform.mpr ⟨rfl, handled⟩, hf, rfl⟩

/-- the handler goes on where the body throws -/
theorem runs_tryCatch {p : Program E ε α} {g : ε → Program E ε α} {o : Except ε α} :
    Runs handles (p.tryCatch g) w t o w' ↔
      (∃ a, Runs handles p w t (.ok a) w' ∧ o = .ok a) ∨
      ∃ e w₁ t₁ t₂, Runs handles p w t₁ (.error e) w₁ ∧ Runs handles (g e) w₁ t₂ o w' ∧
        t = t₁ ++ t₂ := by
  induction p generalizing w t with
  | returns a =>
    constructor
    · intro h
      obtain ⟨rfl, rfl, rfl⟩ := runs_returns.mp h
      exact Or.inl ⟨a, .returns a w', rfl⟩
    · rintro (⟨a', h, rfl⟩ | ⟨e, w₁, t₁, t₂, h, hg, rfl⟩)
      · obtain ⟨rfl, ha, rfl⟩ := runs_returns.mp h
        cases ha
        exact .returns a w'
      · cases h
  | throws e =>
    constructor
    · intro h
      exact Or.inr ⟨e, w, [], t, .throws e w, h, rfl⟩
    · rintro (⟨a', h, rfl⟩ | ⟨e', w₁, t₁, t₂, h, hg, rfl⟩)
      · cases h
      · obtain ⟨rfl, he, rfl⟩ := runs_throws.mp h
        cases he
        exact hg
  | calls call next ih =>
    show Runs handles (.calls call fun r => (next r).tryCatch g) w t o w' ↔ _
    rw [runs_calls]
    constructor
    · rintro ⟨r, w₁, t', handled, rest, rfl⟩
      rcases (ih r).mp rest with ⟨a, h, rfl⟩ | ⟨e, w₂, t₁, t₂, h, hg, rfl⟩
      · exact Or.inl ⟨a, .calls handled h, rfl⟩
      · exact Or.inr ⟨e, w₂, ⟨call, r⟩ :: t₁, t₂, .calls handled h, hg, rfl⟩
    · rintro (⟨a, h, rfl⟩ | ⟨e, w₂, t₁, t₂, h, hg, rfl⟩)
      · obtain ⟨r, w₁, t', handled, rest, rfl⟩ := runs_calls.mp h
        exact ⟨r, w₁, t', handled, (ih r).mpr (Or.inl ⟨a, rest, rfl⟩), rfl⟩
      · obtain ⟨r, w₁, t', handled, rest, rfl⟩ := runs_calls.mp h
        exact ⟨r, w₁, t' ++ t₂, handled, (ih r).mpr (Or.inr ⟨e, w₂, t', t₂, rest, hg, rfl⟩), rfl⟩

/-- the outcome as a value -/
def Program.attempt (p : Program E ε α) : Program E ε (Except ε α) :=
  (p >>= fun a => pure (.ok a)).tryCatch fun e => pure (.error e)

theorem runs_attempt {p : Program E ε α} {o : Except ε (Except ε α)} :
    Runs handles p.attempt w t o w' ↔ ∃ r, o = .ok r ∧ Runs handles p w t r w' := by
  constructor
  · intro h
    unfold Program.attempt at h
    rcases runs_tryCatch.mp h with ⟨r, hp, rfl⟩ | ⟨e, w₁, t₁, t₂, hp, hg, rfl⟩
    · rcases runs_bind.mp hp with ⟨e, -, he⟩ | ⟨a, w₁, t₁, t₂, ha, hr, rfl⟩
      · cases he
      · obtain ⟨rfl, he, rfl⟩ := runs_pure.mp hr
        rw [List.append_nil]
        exact ⟨r, rfl, Except.ok.inj he ▸ ha⟩
    · obtain ⟨rfl, rfl, rfl⟩ := runs_pure.mp hg
      rw [List.append_nil]
      rcases runs_bind.mp hp with ⟨e', he', he⟩ | ⟨a, w₂, t₂, t₃, -, hr, -⟩
      · obtain rfl := Except.error.inj he
        exact ⟨.error e, rfl, he'⟩
      · obtain ⟨-, he, -⟩ := runs_pure.mp hr
        cases he
  · rintro ⟨r, rfl, h⟩
    apply runs_tryCatch.mpr
    cases r with
    | ok a =>
      refine Or.inl ⟨.ok a, runs_bind.mpr (Or.inr ⟨a, w', t, [], h, .returns _ _, ?_⟩), rfl⟩
      exact (List.append_nil t).symm
    | error e =>
      refine Or.inr ⟨e, w', t, [], runs_bind.mpr (Or.inl ⟨e, h, rfl⟩), .returns _ _, ?_⟩
      exact (List.append_nil t).symm

/-- the program alone, when each call may do what its method does -/
theorem Program.run_runs {op : ∀ {β : Type}, E β → Method W ε β}
    (hop : ∀ {β : Type} (call : E β) (w : W), handles call w (op call w).1 (op call w).2)
    (p : Program E ε α) (w : W) : ∃ t, Runs handles p w t (p.run op w).1 (p.run op w).2 := by
  induction p generalizing w with
  | returns a => exact ⟨[], .returns a w⟩
  | throws e => exact ⟨[], .throws e w⟩
  | calls call next ih =>
    obtain ⟨t, ht⟩ := ih (op call w).1 (op call w).2
    exact ⟨⟨call, (op call w).1⟩ :: t, .calls (hop call w) ht⟩

/-- every call of the program alone passes this test -/
def Program.passes (op : ∀ {β : Type}, E β → Method W ε β) (test : ∀ {β : Type}, E β → W → Bool) :
    Program E ε α → W → Bool
  | .returns _, _ => true
  | .throws _, _ => true
  | .calls call next, w => test call w && (next (op call w).1).passes op test (op call w).2

/-- the program alone, when each call that passes the test may do what its method does -/
theorem Program.passes_runs {op : ∀ {β : Type}, E β → Method W ε β} {test : ∀ {β : Type}, E β → W → Bool}
    (hop : ∀ {β : Type} (call : E β) (w : W), test call w = true → handles call w (op call w).1 (op call w).2)
    (p : Program E ε α) (w : W) (hp : p.passes op test w = true) :
    ∃ t, Runs handles p w t (p.run op w).1 (p.run op w).2 := by
  induction p generalizing w with
  | returns a => exact ⟨[], .returns a w⟩
  | throws e => exact ⟨[], .throws e w⟩
  | calls call next ih =>
    obtain ⟨htest, hrest⟩ := (Bool.and_eq_true _ _).mp hp
    obtain ⟨t, ht⟩ := ih (op call w).1 (op call w).2 hrest
    exact ⟨⟨call, (op call w).1⟩ :: t, .calls (hop call w htest) ht⟩

/-! ## calls of one kind -/

/-- every call the program can make is of this kind -/
def Program.Only (P : ∀ ⦃β : Type⦄, E β → Prop) : Program E ε α → Prop
  | .returns _ => True
  | .throws _ => True
  | .calls call next => P call ∧ ∀ r, (next r).Only P

variable {P : ∀ ⦃β : Type⦄, E β → Prop}

theorem Program.Only.pure (a : α) : (pure a : Program E ε α).Only P := trivial

theorem Program.Only.throw (e : ε) : (Program.throw e : Program E ε α).Only P := trivial

theorem Program.Only.perform {call : E β} (h : P call) : (Program.perform call : Program E ε β).Only P := by
  refine ⟨h, fun r => ?_⟩
  cases r <;> trivial

theorem Program.Only.bind {p : Program E ε α} {f : α → Program E ε β} (hp : p.Only P)
    (hf : ∀ a, (f a).Only P) : (p >>= f).Only P := by
  induction p with
  | returns a => exact hf a
  | throws e => trivial
  | calls call next ih => exact ⟨hp.1, fun r => ih r (hp.2 r)⟩

theorem Program.Only.tryCatch {p : Program E ε α} {g : ε → Program E ε α} (hp : p.Only P)
    (hg : ∀ e, (g e).Only P) : (p.tryCatch g).Only P := by
  induction p with
  | returns a => trivial
  | throws e => exact hg e
  | calls call next ih => exact ⟨hp.1, fun r => ih r (hp.2 r)⟩

theorem Program.Only.attempt {p : Program E ε α} (hp : p.Only P) : p.attempt.Only P :=
  (hp.bind fun _ => .pure _).tryCatch fun _ => .pure _

/-- the same program over a world that has more calls -/
def Program.lift {F : Type → Type} (f : ∀ {β : Type}, E β → F β) : Program E ε α → Program F ε α
  | .returns a => .returns a
  | .throws e => .throws e
  | .calls call next => .calls (f call) fun r => (next r).lift f

theorem Program.Only.lift {F : Type → Type} {f : ∀ {β : Type}, E β → F β} {Q : ∀ ⦃β : Type⦄, F β → Prop}
    (h : ∀ {β : Type} (call : E β), Q (f call)) (p : Program E ε α) : (p.lift f).Only Q := by
  induction p with
  | returns | throws => trivial
  | calls call next ih => exact ⟨h call, ih⟩

theorem Program.Only.first {call : E β} {f : β → Program E ε α}
    (h : (Program.perform call >>= f).Only P) : P call := by
  rw [Program.perform_bind] at h
  exact h.1

/-- of a program that makes only such calls, what comes after an answer makes only such calls -/
theorem Program.Only.after {call : E β} {f : β → Program E ε α}
    (h : (Program.perform call >>= f).Only P) (b : β) : (f b).Only P := by
  rw [Program.perform_bind] at h
  exact h.2 (.ok b)

/-- the calls of a run are of the kind its program makes -/
theorem Runs.only {p : Program E ε α} {o : Except ε α} (h : Runs handles p w t o w') (hp : p.Only P) :
    ∀ c ∈ t, P c.call := by
  induction h with
  | returns | throws => exact fun _ h => (by cases h)
  | calls handled rest ih =>
    intro c hc
    rcases List.mem_cons.mp hc with rfl | hc
    · exact hp.1
    · exact ih (hp.2 _) c hc

/-- what every call of a kind keeps is kept by a run of such calls -/
theorem Runs.keeps {p : Program E ε α} {o : Except ε α} {R : W → W → Prop} (h : Runs handles p w t o w')
    (hp : p.Only P) (hr : ∀ w, R w w) (ht : ∀ {a b c}, R a b → R b c → R a c)
    (hstep : ∀ {γ : Type} {call : E γ} {r : Except ε γ} {w w₁ : W}, P call → handles call w r w₁ → R w w₁) :
    R w w' := by
  induction h with
  | returns | throws => exact hr _
  | calls handled rest ih => exact ht (hstep hp.1 handled) (ih (hp.2 _))

/-- what every call keeps is kept by a run -/
theorem Runs.always {p : Program E ε α} {o : Except ε α} {R : W → W → Prop} (h : Runs handles p w t o w')
    (hr : ∀ w, R w w) (ht : ∀ {a b c}, R a b → R b c → R a c)
    (hstep : ∀ {γ : Type} {call : E γ} {r : Except ε γ} {w w₁ : W}, handles call w r w₁ → R w w₁) : R w w' := by
  induction h with
  | returns | throws => exact hr _
  | calls handled rest ih => exact ht (hstep handled) ih

-- a program is looked at through the lemmas above only, never evaluated to its first call
attribute [irreducible] Program.Only

end

/-! ## one run after the other -/

/-- a run that is over: its calls and its outcome -/
structure Finished (E : Type → Type) (ε α : Type) : Type 1 where
  calls : List (Answered E ε)
  outcome : Except ε α

/-- the runs of some programs, one after the other -/
inductive Session {E : Type → Type} {ε α W : Type}
    (handles : ∀ ⦃β : Type⦄, E β → W → Except ε β → W → Prop) :
    List (Program E ε α) → W → List (Finished E ε α) → W → Prop
  | nil (w : W) : Session handles [] w [] w
  | cons {p : Program E ε α} {ps : List (Program E ε α)} {w w₁ w₂ : W} {f : Finished E ε α}
      {fs : List (Finished E ε α)} (first : Runs handles p w f.calls f.outcome w₁)
      (rest : Session handles ps w₁ fs w₂) : Session handles (p :: ps) w (f :: fs) w₂

section
variable {E : Type → Type} {ε α W : Type}
  {handles : ∀ ⦃β : Type⦄, E β → W → Except ε β → W → Prop}
  {w w' : W} {fs : List (Finished E ε α)}

/-- all calls of a session -/
def callsOf (fs : List (Finished E ε α)) : List (Answered E ε) := fs.flatMap Finished.calls

/-- a session without a run -/
theorem Session.empty {ps : List (Program E ε α)} (h : Session handles ps w [] w') :
    ps = [] ∧ w' = w := by
  cases h
  exact ⟨rfl, rfl⟩

/-- what every run keeps, of the calls so far and the world, holds after the session -/
theorem Session.invariant {ps : List (Program E ε α)} {I : List (Answered E ε) → W → Prop}
    (hrun : ∀ p ∈ ps, ∀ before w t o w₁, I before w → Runs handles p w t o w₁ → I (before ++ t) w₁)
    (h : Session handles ps w fs w') {before : List (Answered E ε)} (hi : I before w) :
    I (before ++ callsOf fs) w' := by
  induction h generalizing before with
  | nil w =>
    show I (before ++ []) w
    rwa [List.append_nil]
  | @cons p ps w w₁ w₂ f fs first rest ih =>
    have hone : I (before ++ f.calls) w₁ := hrun p List.mem_cons_self _ _ _ _ _ hi first
    have hall := ih (fun q hq => hrun q (List.mem_cons_of_mem _ hq)) hone
    rw [List.append_assoc] at hall
    exact hall

end
