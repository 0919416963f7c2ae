import Mathlib.Tactic

/-!
# Methods: code that writes a store and may throw

`Method σ ε α` is the body of a method of an object with mutable fields `σ`: it returns an `α`
or throws an `ε`, and in both cases hands back the store as it stands THEN.  What was written
before a throw stays written; a caller that wants the old store back has to restore it.

* `returns_bind`, `throws_bind`   the two ways a sequence ends;
* `atomically_returns`, `atomically_throws`   a transaction returns as its body does, and a throw
                   undoes the body's writes;
* `Throws P`       everything the method throws is of a kind; closed under sequencing (`Throws.bind`);
* `Keeps R`        the store only moves along the relation `R`, whatever the outcome; closed
                   under sequencing for a preorder `R` (`Keeps.bind`);
* `run_invariant`, `run_invariant_along`  an invariant kept by every call of a list, or by every
                   call that meets a condition on the store it finds, holds after the whole list.
-/

set_option linter.unusedSectionVars false

def Method (σ ε α : Type) : Type := σ → Except ε α × σ

namespace Method

section
variable {σ ε α β : Type}

protected def pure (a : α) : Method σ ε α := fun s => (.ok a, s)

protected def bind (m : Method σ ε α) (f : α → Method σ ε β) : Method σ ε β := fun s =>
  match m s with
  | (.ok a, s') => f a s'
  | (.error e, s') => (.error e, s')

protected def tryCatch (m : Method σ ε α) (h : ε → Method σ ε α) : Method σ ε α := fun s =>
  match m s with
  | (.ok a, s') => (.ok a, s')
  | (.error e, s') => h e s'

instance : Monad (Method σ ε) where
  pure := Method.pure
  bind := Method.bind

instance : MonadStateOf σ (Method σ ε) where
  get := fun s => (.ok s, s)
  set s' := fun _ => (.ok (), s')
  modifyGet f := fun s => (.ok (f s).1, (f s).2)

instance : MonadExceptOf ε (Method σ ε) where
  throw e := fun s => (.error e, s)
  tryCatch := Method.tryCatch

/-- a computed outcome as a method that leaves the store alone -/
def ofExcept (r : Except ε α) : Method σ ε α := fun s => (r, s)

/-- `if (c) throw e` -/
def throwWhen (c : Prop) [Decidable c] (e : ε) : Method σ ε PUnit := if c then throw e else pure ⟨⟩

/-- All or nothing: when `m` throws, `undo old new` replaces the store it has left. -/
def atomically (undo : σ → σ → σ) (m : Method σ ε α) : Method σ ε α := fun s =>
  match m s with
  | (.ok a, s') => (.ok a, s')
  | (.error e, s') => (.error e, undo s s')

/-! ## what each construct does to a store -/

@[simp] theorem pure_apply (a : α) (s : σ) : (pure a : Method σ ε α) s = (.ok a, s) := rfl

theorem bind_apply (m : Method σ ε α) (f : α → Method σ ε β) (s : σ) :
    (m >>= f) s = match m s with
      | (.ok a, s') => f a s'
      | (.error e, s') => (.error e, s') := rfl

@[simp] theorem get_apply (s : σ) : (get : Method σ ε σ) s = (.ok s, s) := rfl

@[simp] theorem set_apply (s s' : σ) : (set s' : Method σ ε PUnit) s = (.ok ⟨⟩, s') := rfl

@[simp] theorem modify_apply (f : σ → σ) (s : σ) :
    (modify f : Method σ ε PUnit) s = (.ok ⟨⟩, f s) := rfl

@[simp] theorem throw_apply (e : ε) (s : σ) : (throw e : Method σ ε α) s = (.error e, s) := rfl

@[simp] theorem ofExcept_apply (r : Except ε α) (s : σ) :
    (ofExcept r : Method σ ε α) s = (r, s) := rfl

theorem bind_ok {m : Method σ ε α} {s s' : σ} {a : α} (f : α → Method σ ε β)
    (h : m s = (.ok a, s')) : (m >>= f) s = f a s' := by rw [bind_apply, h]

theorem bind_error {m : Method σ ε α} {s s' : σ} {e : ε} (f : α → Method σ ε β)
    (h : m s = (.error e, s')) : (m >>= f) s = (.error e, s') := by rw [bind_apply, h]

@[simp] theorem pure_bind (a : α) (f : α → Method σ ε β) (s : σ) : (pure a >>= f) s = f a s := rfl

@[simp] theorem get_bind (f : σ → Method σ ε β) (s : σ) : (get >>= f) s = f s s := rfl

@[simp] theorem set_bind (s' : σ) (f : PUnit → Method σ ε β) (s : σ) :
    ((set s' : Method σ ε PUnit) >>= f) s = f ⟨⟩ s' := rfl

@[simp] theorem modify_bind (g : σ → σ) (f : PUnit → Method σ ε β) (s : σ) :
    ((modify g : Method σ ε PUnit) >>= f) s = f ⟨⟩ (g s) := rfl

@[simp] theorem throw_bind (e : ε) (f : α → Method σ ε β) (s : σ) :
    ((throw e : Method σ ε α) >>= f) s = (.error e, s) := rfl

theorem ofExcept_bind (r : Except ε α) (f : α → Method σ ε β) (s : σ) :
    (ofExcept r >>= f) s = match r with
      | .ok a => f a s
      | .error e => (.error e, s) := by cases r <;> rfl

/-- answering adds nothing to what was written -/
theorem bind_pure_store (m : Method σ ε α) (f : α → β) (s : σ) :
    ((m >>= fun a => pure (f a) : Method σ ε β) s).2 = (m s).2 := by
  rw [bind_apply]
  rcases m s with ⟨e | a, s'⟩ <;> rfl

theorem bind_assoc {γ : Type} (m : Method σ ε α) (f : α → Method σ ε β) (g : β → Method σ ε γ) :
    m >>= f >>= g = m >>= fun a => f a >>= g := by
  funext s
  simp only [bind_apply]
  rcases m s with ⟨_ | a, s'⟩ <;> rfl

/-! ## the ways a sequence ends -/

theorem returns_bind {m : Method σ ε α} {f : α → Method σ ε β} {s s' : σ} {b : β} :
    (m >>= f) s = (.ok b, s') ↔ ∃ a s₁, m s = (.ok a, s₁) ∧ f a s₁ = (.ok b, s') := by
  rw [bind_apply]
  rcases m s with ⟨e | a, s₁⟩
  · simp
  · exact ⟨fun h => ⟨a, s₁, rfl, h⟩, by rintro ⟨a', s₁', h, h'⟩; cases h; exact h'⟩

theorem throws_bind {m : Method σ ε α} {f : α → Method σ ε β} {s s' : σ} {e : ε} :
    (m >>= f) s = (.error e, s') ↔
      m s = (.error e, s') ∨ ∃ a s₁, m s = (.ok a, s₁) ∧ f a s₁ = (.error e, s') := by
  rw [bind_apply]
  rcases m s with ⟨e' | a, s₁⟩
  · simp
  · constructor
    · exact fun h => Or.inr ⟨a, s₁, rfl, h⟩
    · rintro (h | ⟨a', s₁', h, h'⟩)
      · cases h
      · cases h; exact h'

theorem pure_returns {a b : α} {s s' : σ} :
    (pure a : Method σ ε α) s = (.ok b, s') ↔ a = b ∧ s = s' := by simp

theorem get_returns {s s' a : σ} : (get : Method σ ε σ) s = (.ok a, s') ↔ s = a ∧ s = s' := by simp

theorem modify_returns {f : σ → σ} {u : PUnit} {s s' : σ} :
    (modify f : Method σ ε PUnit) s = (.ok u, s') ↔ f s = s' := by simp

theorem ofExcept_returns {r : Except ε α} {a : α} {s s' : σ} :
    (ofExcept r : Method σ ε α) s = (.ok a, s') ↔ r = .ok a ∧ s = s' := by simp

theorem throw_returns {e : ε} {a : α} {s s' : σ} :
    (throw e : Method σ ε α) s = (.ok a, s') ↔ False := by simp

theorem throwWhen_returns {c : Prop} [Decidable c] {e : ε} {u : PUnit} {s s' : σ} :
    (throwWhen c e : Method σ ε PUnit) s = (.ok u, s') ↔ ¬ c ∧ s = s' := by
  rw [throwWhen]
  split
  · next h => simp [h]
  · next h => simp [h]

/-- what an atomic method returns is what its body returns -/
theorem atomically_returns {undo : σ → σ → σ} {m : Method σ ε α} {a : α} {s s' : σ} :
    atomically undo m s = (.ok a, s') ↔ m s = (.ok a, s') := by
  rw [atomically]
  rcases m s with ⟨e | b, s₁⟩
  · simp
  · simp

theorem atomically_throws {undo : σ → σ → σ} {m : Method σ ε α} {e : ε} {s s' : σ} :
    atomically undo m s = (.error e, s') ↔ ∃ s₁, m s = (.error e, s₁) ∧ undo s s₁ = s' := by
  rw [atomically]
  rcases m s with ⟨e' | b, s₁⟩
  · constructor
    · intro h
      obtain ⟨rfl, rfl⟩ : e' = e ∧ undo s s₁ = s' := by simpa using h
      exact ⟨s₁, rfl, rfl⟩
    · rintro ⟨s₂, h, rfl⟩
      obtain ⟨rfl, rfl⟩ : e' = e ∧ s₁ = s₂ := by simpa using h
      rfl
  · simp

theorem ite_apply (c : Prop) [Decidable c] (m n : Method σ ε α) (s : σ) :
    (if c then m else n) s = if c then m s else n s := by split <;> rfl

end

/-! ## relations every outcome keeps -/

section
variable {σ ε α β : Type} {R : σ → σ → Prop}

/-- whatever the outcome, the store has moved along `R` -/
def Keeps (R : σ → σ → Prop) (m : Method σ ε α) : Prop := ∀ s, R s (m s).2

theorem Keeps.pure (hr : ∀ s, R s s) (a : α) : Keeps R (pure a : Method σ ε α) := fun s => hr s

theorem Keeps.throw (hr : ∀ s, R s s) (e : ε) : Keeps R (throw e : Method σ ε α) := fun s => hr s

theorem Keeps.get (hr : ∀ s, R s s) : Keeps R (get : Method σ ε σ) := fun s => hr s

theorem Keeps.modify {f : σ → σ} (h : ∀ s, R s (f s)) :
    Keeps R (modify f : Method σ ε PUnit) := fun s => h s

theorem Keeps.bind (ht : ∀ {a b c}, R a b → R b c → R a c) {m : Method σ ε α}
    {f : α → Method σ ε β} (hm : Keeps R m) (hf : ∀ a, Keeps R (f a)) : Keeps R (m >>= f) := by
  intro s
  have h := hm s
  rw [bind_apply]
  rcases hms : m s with ⟨e | a, s₁⟩
  · rw [hms] at h; exact h
  · rw [hms] at h; exact ht h (hf a s₁)

theorem Keeps.ite {c : Prop} [Decidable c] {m n : Method σ ε α} (hm : Keeps R m)
    (hn : Keeps R n) : Keeps R (if c then m else n) := by
  split
  · exact hm
  · exact hn

end

/-! ## what a method may throw -/

section
variable {σ ε α β : Type} {P : ε → Prop}

/-- everything the method throws is of this kind -/
def Throws (P : ε → Prop) (m : Method σ ε α) : Prop := ∀ ⦃s s' e⦄, m s = (.error e, s') → P e

theorem Throws.pure (a : α) : Throws P (pure a : Method σ ε α) := by
  intro s s' e h
  cases (Prod.mk.inj h).1

theorem Throws.get : Throws P (get : Method σ ε σ) := by
  intro s s' e h
  cases (Prod.mk.inj h).1

theorem Throws.modify (f : σ → σ) : Throws P (modify f : Method σ ε PUnit) := by
  intro s s' e h
  cases (Prod.mk.inj h).1

theorem Throws.throw {e : ε} (he : P e) : Throws P (throw e : Method σ ε α) := by
  intro s s' e' h
  rw [← Except.error.inj (Prod.mk.inj h).1]
  exact he

theorem Throws.ofExcept {r : Except ε α} (hr : ∀ e, r = .error e → P e) :
    Throws P (ofExcept r : Method σ ε α) := fun _ _ _ h => hr _ (Prod.mk.inj h).1

theorem Throws.bind {m : Method σ ε α} {f : α → Method σ ε β} (hm : Throws P m)
    (hf : ∀ a, Throws P (f a)) : Throws P (m >>= f) := by
  intro s s' e h
  rcases throws_bind.mp h with h | ⟨a, s₁, -, h⟩
  · exact hm h
  · exact hf a h

theorem Throws.throwWhen {c : Prop} [Decidable c] {e : ε} (he : P e) :
    Throws P (throwWhen c e : Method σ ε PUnit) := by
  rw [Method.throwWhen]
  split
  · exact Throws.throw he
  · exact Throws.pure _

theorem Throws.atomically {undo : σ → σ → σ} {m : Method σ ε α} (hm : Throws P m) :
    Throws P (atomically undo m) := by
  intro s s' e h
  obtain ⟨s₁, h, -⟩ := atomically_throws.mp h
  exact hm h

end

end Method

/-! ## runs of calls -/

section
variable {σ κ : Type}

/-- the store after the calls of a list, one after the other -/
def runCalls (step : κ → σ → σ) (calls : List κ) (s : σ) : σ :=
  calls.foldl (fun s c => step c s) s

theorem runCalls_nil (step : κ → σ → σ) (s : σ) : runCalls step [] s = s := rfl

theorem runCalls_cons (step : κ → σ → σ) (c : κ) (calls : List κ) (s : σ) :
    runCalls step (c :: calls) s = runCalls step calls (step c s) := rfl

theorem runCalls_append (step : κ → σ → σ) (xs ys : List κ) (s : σ) :
    runCalls step (xs ++ ys) s = runCalls step ys (runCalls step xs s) :=
  List.foldl_append ..

/-- an invariant kept by every admitted call holds after every run of admitted calls -/
theorem run_invariant {step : κ → σ → σ} {ok : κ → Prop} {I : σ → Prop}
    (hstep : ∀ c s, ok c → I s → I (step c s)) {calls : List κ} (hok : ∀ c ∈ calls, ok c)
    {s : σ} (hs : I s) : I (runCalls step calls s) := by
  induction calls generalizing s with
  | nil => exact hs
  | cons c calls ih =>
    rw [runCalls_cons]
    exact ih (fun c' h => hok c' (List.mem_cons_of_mem _ h))
      (hstep c s (hok c List.mem_cons_self) hs)

/-- every call of the list meets a condition on the store it finds -/
def Along (step : κ → σ → σ) (ok : κ → σ → Prop) : List κ → σ → Prop
  | [], _ => True
  | c :: calls, s => ok c s ∧ Along step ok calls (step c s)

/-- what holds along the calls holds where each of them starts -/
theorem Along.holds {step : κ → σ → σ} {ok : κ → σ → Prop} {before : List κ} {c : κ} {after : List κ} :
    ∀ {s : σ}, Along step ok (before ++ c :: after) s → ok c (runCalls step before s) := by
  induction before with
  | nil => exact fun h => h.1
  | cons c' before ih => exact fun h => ih h.2

/-- the calls up to some point meet the condition, too -/
theorem Along.left {step : κ → σ → σ} {ok : κ → σ → Prop} {before after : List κ} :
    ∀ {s : σ}, Along step ok (before ++ after) s → Along step ok before s := by
  induction before with
  | nil => exact fun _ => trivial
  | cons c before ih => exact fun h => ⟨h.1, ih h.2⟩

theorem Along.of_forall {step : κ → σ → σ} {ok : κ → σ → Prop} {calls : List κ}
    (h : ∀ c ∈ calls, ∀ s, ok c s) (s : σ) : Along step ok calls s := by
  induction calls generalizing s with
  | nil => trivial
  | cons c calls ih =>
    exact ⟨h c List.mem_cons_self s, ih (fun c' hc' => h c' (List.mem_cons_of_mem _ hc')) _⟩

theorem Along.mono {step : κ → σ → σ} {ok ok' : κ → σ → Prop} {calls : List κ} {s : σ}
    (h : Along step ok calls s) (himp : ∀ c ∈ calls, ∀ s, ok c s → ok' c s) :
    Along step ok' calls s := by
  induction calls generalizing s with
  | nil => trivial
  | cons c calls ih =>
    refine ⟨himp c List.mem_cons_self s h.1, ih h.2 fun c' hc' => ?_⟩
    exact himp c' (List.mem_cons_of_mem _ hc')

/-- an invariant kept by calls that meet their condition holds after a run along which all do -/
theorem run_invariant_along {step : κ → σ → σ} {ok : κ → σ → Prop} {I : σ → Prop}
    (hstep : ∀ c s, ok c s → I s → I (step c s)) {calls : List κ} {s : σ}
    (hok : Along step ok calls s) (hs : I s) : I (runCalls step calls s) := by
  induction calls generalizing s with
  | nil => exact hs
  | cons c calls ih =>
    rw [runCalls_cons]
    exact ih hok.2 (hstep c s hok.1 hs)

end
