import CoinManage.Lib.Method

/-!
# How methods end: loops, calls that fail, methods on a part of the store

`Ends m s Q E`: from the store `s` the method either returns a value and a store in `Q`, or
throws an error and leaves a store in `E`.  It is the weakest precondition of the pair, so
sequencing is an equivalence (`ends_bind`).

* `ends_tryCatch`  a handler goes on where the body throws;
* `ends_forEach`   the loop rule: an invariant indexed by the items already done;
* `Throughout`     a condition on every turn of a loop, and the loop rule with it;
* `Outcome.of`     a call to another party that works, is refused, or works while its answer is lost;
* `ends_outcome`   what a caller may assume of each;
* `zoom`           a method of a part of the store, as a method of the whole (`ends_zoom`).
-/

namespace Method

section
variable {σ τ ε α β : Type}

/-- the method returns into `Q` or throws into `E` -/
def Ends (m : Method σ ε α) (s : σ) (Q : α → σ → Prop) (E : ε → σ → Prop) : Prop :=
  match m s with
  | (.ok a, s') => Q a s'
  | (.error e, s') => E e s'

variable {m : Method σ ε α} {s : σ} {Q Q' : α → σ → Prop} {E E' : ε → σ → Prop}

theorem Ends.returns (h : Ends m s Q E) {a : α} {s' : σ} (hm : m s = (.ok a, s')) : Q a s' := by
  rw [Ends, hm] at h
  exact h

theorem Ends.throws (h : Ends m s Q E) {e : ε} {s' : σ} (hm : m s = (.error e, s')) : E e s' := by
  rw [Ends, hm] at h
  exact h

theorem ends_of (hq : ∀ a s', m s = (.ok a, s') → Q a s')
    (he : ∀ e s', m s = (.error e, s') → E e s') : Ends m s Q E := by
  rw [Ends]
  rcases hm : m s with ⟨e | a, s'⟩
  · exact he e s' hm
  · exact hq a s' hm

/-- what holds however the method ends -/
theorem Ends.state {P : σ → Prop} (h : Ends m s (fun _ s' => P s') (fun _ s' => P s')) : P (m s).2 := by
  rw [Ends] at h
  rcases hm : m s with ⟨e | a, s'⟩
  · rw [hm] at h
    exact h
  · rw [hm] at h
    exact h

theorem Ends.imp (h : Ends m s Q E) (hq : ∀ a s', Q a s' → Q' a s')
    (he : ∀ e s', E e s' → E' e s') : Ends m s Q' E' :=
  ends_of (fun _ _ hm => hq _ _ (h.returns hm)) (fun _ _ hm => he _ _ (h.throws hm))

theorem Ends.and (h : Ends m s Q E) (h' : Ends m s Q' E') :
    Ends m s (fun a s' => Q a s' ∧ Q' a s') (fun e s' => E e s' ∧ E' e s') :=
  ends_of (fun _ _ hm => ⟨h.returns hm, h'.returns hm⟩) (fun _ _ hm => ⟨h.throws hm, h'.throws hm⟩)

theorem ends_pure {a : α} : Ends (pure a : Method σ ε α) s Q E ↔ Q a s := Iff.rfl

theorem ends_throw {e : ε} : Ends (throw e : Method σ ε α) s Q E ↔ E e s := Iff.rfl

theorem ends_ofExcept {r : Except ε α} :
    Ends (ofExcept r : Method σ ε α) s Q E ↔ (∀ a, r = .ok a → Q a s) ∧ (∀ e, r = .error e → E e s) := by
  rw [Ends, ofExcept_apply]
  cases r with
  | ok a => simp
  | error e => simp

theorem ends_bind {f : α → Method σ ε β} {R : β → σ → Prop} :
    Ends (m >>= f) s R E ↔ Ends m s (fun a s' => Ends (f a) s' R E) E := by
  simp only [Ends, bind_apply]
  rcases m s with ⟨e | a, s'⟩ <;> exact Iff.rfl

theorem ends_get {Q : σ → σ → Prop} : Ends (get : Method σ ε σ) s Q E ↔ Q s s := Iff.rfl

theorem ends_modify {f : σ → σ} {Q : PUnit → σ → Prop} :
    Ends (modify f : Method σ ε PUnit) s Q E ↔ Q ⟨⟩ (f s) := Iff.rfl

theorem ends_ite {c : Prop} [Decidable c] {n : Method σ ε α} :
    Ends (if c then m else n) s Q E ↔ (c → Ends m s Q E) ∧ (¬ c → Ends n s Q E) := by
  split
  · next h => exact ⟨fun hm => ⟨fun _ => hm, fun hn => absurd h hn⟩, fun hm => hm.1 h⟩
  · next h => exact ⟨fun hn => ⟨fun hc => absurd hc h, fun _ => hn⟩, fun hn => hn.2 h⟩

/-- a transaction that throws leaves what its `undo` makes of the store -/
theorem ends_atomically {undo : σ → σ → σ} :
    Ends (atomically undo m) s Q E ↔ Ends m s Q fun e s' => E e (undo s s') := by
  simp only [Ends, atomically]
  rcases m s with ⟨e | a, s'⟩ <;> exact Iff.rfl

/-- a relation the method keeps holds however it ends -/
theorem Keeps.ends {R : σ → σ → Prop} (h : Keeps R m) (s : σ) :
    Ends m s (fun _ s' => R s s') (fun _ s' => R s s') :=
  ends_of (fun a s' hm => by have hs := h s; rwa [hm] at hs)
    (fun e s' hm => by have hs := h s; rwa [hm] at hs)

/-! ## loops -/

/-- `for (const x of xs) body(x)` -/
def forEach (body : α → Method σ ε Unit) : List α → Method σ ε Unit
  | [] => pure ()
  | x :: xs => do
    body x
    forEach body xs

theorem ends_forEach_from {body : α → Method σ ε Unit} {I : List α → σ → Prop} {E : ε → σ → Prop}
    (todo : List α) : ∀ (before : List α) (s : σ),
      (∀ before' x rest s, before ++ todo = before' ++ x :: rest → I before' s →
        Ends (body x) s (fun _ s' => I (before' ++ [x]) s') E) →
      I before s → Ends (forEach body todo) s (fun _ s' => I (before ++ todo) s') E := by
  induction todo with
  | nil =>
    intro before s _ hs
    rw [List.append_nil]
    exact hs
  | cons x rest ih =>
    intro before s hbody hs
    rw [forEach, ends_bind]
    refine (hbody before x rest s rfl hs).imp (fun _ s' hs' => ?_) (fun _ _ he => he)
    have hrest := ih (before ++ [x]) s' (fun before' y rest' s₁ heq hI =>
      hbody before' y rest' s₁ (by rw [← heq, List.append_assoc]; rfl) hI) hs'
    rw [List.append_assoc] at hrest
    exact hrest

/-- the loop rule: one turn carries the invariant from the items done to one more -/
theorem ends_forEach {body : α → Method σ ε Unit} {I : List α → σ → Prop} {E : ε → σ → Prop}
    {xs : List α} {s : σ}
    (hbody : ∀ before x rest s, xs = before ++ x :: rest → I before s →
      Ends (body x) s (fun _ s' => I (before ++ [x]) s') E)
    (hs : I [] s) : Ends (forEach body xs) s (fun _ s' => I xs s') E :=
  ends_forEach_from xs [] s hbody hs

/-- `for (const x of xs) results.push(body(x))` -/
def each (body : α → Method σ ε β) : List α → Method σ ε (List β)
  | [] => pure []
  | x :: xs => do
    let b ← body x
    let bs ← each body xs
    return b :: bs

/-- The loop rule for a loop that goes on: only the last turn may throw. -/
theorem ends_each {body : α → Method σ ε β} {I : List α → σ → Prop} {E : ε → σ → Prop} {xs : List α} :
    ∀ {s : σ}, (∀ x rest s, (x :: rest) <:+ xs → I (x :: rest) s →
      Ends (body x) s (fun _ s' => I rest s') E) →
      I xs s → Ends (each body xs) s (fun _ s' => I [] s') E := by
  induction xs with
  | nil => exact fun _ hs => hs
  | cons x xs ih =>
    intro s hbody hs
    rw [each, ends_bind]
    refine (hbody x xs s (List.suffix_refl _) hs).imp (fun b s' hs' => ?_) (fun _ _ he => he)
    rw [ends_bind]
    refine (ih (fun y rest s₁ hsuffix hI => ?_) hs').imp (fun _ _ h => h) (fun _ _ he => he)
    exact hbody y rest s₁ (hsuffix.trans (List.suffix_cons x xs)) hI

/-- every turn that is reached meets a condition on the store it finds -/
def Throughout (body : α → Method σ ε β) (ok : α → σ → Prop) : List α → σ → Prop
  | [], _ => True
  | x :: xs, s => ok x s ∧ ∀ b s', body x s = (.ok b, s') → Throughout body ok xs s'

/-- the rule for a loop whose turns meet a condition -/
theorem ends_each_throughout {body : α → Method σ ε β} {ok : α → σ → Prop} {I : List α → σ → Prop}
    {E : ε → σ → Prop} {xs : List α} {s : σ}
    (hbody : ∀ x rest s, (x :: rest) <:+ xs → ok x s → I (x :: rest) s → Ends (body x) s (fun _ s' => I rest s') E)
    (hok : Throughout body ok xs s) (hs : I xs s) : Ends (each body xs) s (fun _ s' => I [] s') E := by
  refine (ends_each (I := fun todo s => I todo s ∧ Throughout body ok todo s) ?_ ⟨hs, hok⟩).imp
    (fun _ _ h => h.1) (fun _ _ h => h)
  rintro x rest s₁ hsuffix ⟨hI, hx, hrest⟩
  have hturn := hbody x rest s₁ hsuffix hx hI
  exact ends_of (fun b s' hm => ⟨hturn.returns hm, hrest b s' hm⟩) (fun _ _ hm => hturn.throws hm)

theorem Throughout.of_forall {body : α → Method σ ε β} {ok : α → σ → Prop} {xs : List α}
    (h : ∀ x ∈ xs, ∀ s, ok x s) (s : σ) : Throughout body ok xs s := by
  induction xs generalizing s with
  | nil => trivial
  | cons x xs ih =>
    exact ⟨h x List.mem_cons_self s, fun _ s' _ => ih (fun y hy => h y (List.mem_cons_of_mem _ hy)) s'⟩

theorem Keeps.forEach {R : σ → σ → Prop} (hr : ∀ s, R s s) (ht : ∀ {a b c}, R a b → R b c → R a c)
    {body : α → Method σ ε Unit} (h : ∀ x, Keeps R (body x)) (xs : List α) :
    Keeps R (forEach body xs) := by
  induction xs with
  | nil => exact Keeps.pure hr ()
  | cons x xs ih => exact Keeps.bind (R := R) ht (h x) fun _ => ih

end

/-! ## calls that may fail -/

/-- how a call to another party ends, as its caller sees it -/
inductive Outcome where
  | answered
  | refused
  /-- the work was done, the answer did not arrive -/
  | lost
  deriving DecidableEq, Repr

section
variable {σ τ ε α : Type} {m : Method σ ε α} {s : σ} {Q : α → σ → Prop} {E : ε → σ → Prop}

def Outcome.of (o : Outcome) (e : ε) (m : Method σ ε α) : Method σ ε α :=
  match o with
  | .answered => m
  | .refused => throw e
  | .lost => do
    let _ ← m
    throw e

theorem ends_outcome {o : Outcome} {e : ε} (hm : Ends m s (fun a s' => (o = .answered → Q a s') ∧
      (o = .lost → E e s')) E) (hr : o = .refused → E e s) : Ends (o.of e m) s Q E := by
  cases o with
  | answered => exact hm.imp (fun _ _ h => h.1 rfl) (fun _ _ h => h)
  | refused => exact hr rfl
  | lost =>
    rw [Outcome.of, ends_bind]
    exact hm.imp (fun _ _ h => h.2 rfl) (fun _ _ h => h)

theorem Keeps.outcome {R : σ → σ → Prop} (hr : ∀ s, R s s) (ht : ∀ {a b c}, R a b → R b c → R a c)
    (hm : Keeps R m) (o : Outcome) (e : ε) : Keeps R (o.of e m) := by
  cases o with
  | answered => exact hm
  | refused => exact Keeps.throw hr e
  | lost => exact Keeps.bind (R := R) ht hm fun _ => Keeps.throw hr e

/-! ## methods of a part of the store -/

def zoom (part : τ → σ) (put : σ → τ → τ) (m : Method σ ε α) : Method τ ε α := fun t =>
  ((m (part t)).1, put (m (part t)).2 t)

theorem ends_zoom {part : τ → σ} {put : σ → τ → τ} {t : τ} {Q : α → τ → Prop} {E : ε → τ → Prop} :
    Ends (zoom part put m) t Q E ↔
      Ends m (part t) (fun a s => Q a (put s t)) (fun e s => E e (put s t)) := by
  simp only [Ends, zoom]
  rcases m (part t) with ⟨e | a, s'⟩ <;> exact Iff.rfl

end

end Method
