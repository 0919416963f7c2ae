import CoinManage.Postgres.References
import CoinManage.Postgres.Runs

/-!
# What is booked once

A lock, a release, a settlement, the credit of its receiver, a compensation and an external credit look for a
journal under their reference before they book.  So there never is a second one, whoever sends the request again
and whatever else it says.

* `Call.keys`            the references a call looks for;
* `Call.step_once`       a call leaves the journals under such a reference, or books the first one;
* `run_books_once`       over a whole run, a reference is booked at most once and for good.
-/

namespace Postgres

open DoubleEntry

/-- the references under which a call books only what it does not find -/
def Call.keys : Call → List (String × String)
  | .applyExternalCredit input => [(input.referenceType, input.referenceId)]
  | .lockOfflinePayCollateral input => [("offline_pay_lock", input.referenceId)]
  | .releaseOfflinePayCollateral input => [("offline_pay_release", input.referenceId)]
  | .finalizeOfflinePaySettlement input =>
    [("offline_pay_settlement", input.settlementId), ("offline_pay_receiver_settlement", input.settlementId)]
  | .compensateOfflinePaySettlement input => [("offline_pay_settlement_compensation", input.settlementId)]
  | _ => []

/-- the columns keep these references as they are: a `VARCHAR(64)` drops blanks beyond its length -/
def Call.Uncut (c : Call) : Prop := ∀ key ∈ c.keys, cut 64 key.1 = key.1 ∧ cut 64 key.2 = key.2

/-- the types of the other journals -/
def repeatedTypes : List String :=
  ["deposit", "transfer", "withdrawal", "sweep", "offline_pay_reconciliation", "offline_pay_pending_reconciliation"]

/-- nothing was booked under the reference, or just the first journal -/
def BooksOnce (reference : String × String) (s s' : Db) : Prop :=
  s'.JournalsSound ∧ (s'.under reference = s.under reference ∨ s.under reference = [] ∧ ∃ e, s'.under reference = [e])

/-- where keys are distinct, a key picks one element -/
theorem filter_key {α κ : Type} [DecidableEq κ] {f : α → κ} {l : List α} (h : (l.map f).Nodup) {a : α} (ha : a ∈ l) :
    l.filter (fun x => f x = f a) = [a] := by
  induction l with
  | nil => cases ha
  | cons x l ih =>
    obtain ⟨hx, hl⟩ := List.nodup_cons.mp h
    have hother : ∀ y ∈ l, f y ≠ f x := fun y hy heq => hx (List.mem_map.mpr ⟨y, hy, heq⟩)
    rcases List.mem_cons.mp ha with rfl | ha
    · have hrest : l.filter (fun y => f y = f a) = [] :=
        List.filter_eq_nil_iff.mpr fun y hy heq => hother y hy (of_decide_eq_true heq)
      rw [List.filter_cons_of_pos (by simp), hrest]
    · rw [List.filter_cons_of_neg (by simpa using (hother a ha).symm), ih hl ha]

section
variable {pg : PgServer} {limits : WithdrawalLimitConfig} {s s' : Db} {reference : String × String}

theorem BooksOnce.refl (hs : s.JournalsSound) : BooksOnce reference s s := ⟨hs, Or.inl rfl⟩

/-- journals under references that were free -/
theorem Posted.booksOnce {es : List Entry} (h : Posted s s' es) (hs : s.JournalsSound)
    (hfree : ∀ e ∈ es, e.key ∉ s.journalKeys) (hdistinct : (es.map Entry.key).Nodup) :
    BooksOnce reference s s' := by
  refine ⟨h.sound hs, ?_⟩
  rw [h.under hs]
  by_cases hmem : reference ∈ es.map Entry.key
  · obtain ⟨e, he, rfl⟩ := List.mem_map.mp hmem
    have hnone : s.under e.key = [] := not_not.mp fun hne => hfree e he (mem_journalKeys_iff.mpr hne)
    refine Or.inr ⟨hnone, e, ?_⟩
    rw [hnone, List.nil_append]
    exact filter_key hdistinct he
  · left
    rw [List.filter_eq_nil_iff.mpr, List.append_nil]
    intro e he hkey
    exact hmem (List.mem_map.mpr ⟨e, he, of_decide_eq_true hkey⟩)

/-- one journal under a reference that was free -/
theorem Wrote.booksOnce_one {e : Entry} {key : String × String} (h : Wrote s s' [e]) (hs : s.JournalsSound)
    (hkey : e.key = key) (hfree : key ∉ s.journalKeys) : BooksOnce reference s s' := by
  refine h.posted.booksOnce hs ?_ (List.nodup_singleton _)
  intro e' he'
  rw [List.mem_singleton.mp he', hkey]
  exact hfree

/-- a transaction that throws has booked nothing -/
theorem booksOnce_of_returns {α : Type} {m : Op α} (hm : RollsBack m) (hs : s.JournalsSound)
    (hreturns : ∀ a s', m s = (.ok a, s') → BooksOnce reference s s') : BooksOnce reference s (m s).2 := by
  rcases hrun : m s with ⟨e | a, s'⟩
  · obtain ⟨n, rfl⟩ := hm hrun
    exact ⟨⟨hs.distinct, hs.owned⟩, Or.inl rfl⟩
  · exact hreturns a s' hrun

theorem receiverEntry_key {input : FinalizeInput} (hid : cut 64 input.settlementId = input.settlementId)
    (receiver : String) :
    (receiverEntry pg input receiver).key = ("offline_pay_receiver_settlement", input.settlementId) := by
  show (cut 64 "offline_pay_receiver_settlement", cut 64 input.settlementId) = _
  rw [hid, cut_of_length_le (by decide)]

/-- the credit of a receiver is booked under a reference that is free -/
theorem receiverEntries_free {input : FinalizeInput} (hid : cut 64 input.settlementId = input.settlementId)
    (receiver : Option String) : ∀ e ∈ receiverEntries pg s input receiver,
      e.key = ("offline_pay_receiver_settlement", input.settlementId) ∧ e.key ∉ s.journalKeys := by
  intro e he
  unfold receiverEntries creditedReceiver at he
  split at he
  · next hfree =>
    obtain ⟨v, -, rfl⟩ := List.mem_map.mp he
    rw [receiverEntry_key hid]
    exact ⟨rfl, hfree.2.2⟩
  · cases he

theorem receiverEntries_nodup (pg : PgServer) (s : Db) (input : FinalizeInput) (receiver : Option String) :
    ((receiverEntries pg s input receiver).map Entry.key).Nodup := by
  unfold receiverEntries
  cases creditedReceiver s input receiver with
  | none => exact List.nodup_nil
  | some v => exact List.nodup_singleton _

theorem Call.types_of_no_keys {c : Call} (h : c.keys = []) : ∀ t ∈ c.referenceTypes, t ∈ repeatedTypes := by
  cases c with
  | applyExternalCredit | lockOfflinePayCollateral | releaseOfflinePayCollateral | finalizeOfflinePaySettlement
  | compensateOfflinePaySettlement => cases h
  | _ => simp [Call.referenceTypes, repeatedTypes]

/-- **a call leaves the journals under such a reference, or books the first one** -/
theorem Call.step_once (pg : PgServer) (limits : WithdrawalLimitConfig) {c : Call} (hcut : c.Uncut)
    (hs : s.JournalsSound) (htype : reference.1 ∉ repeatedTypes) : BooksOnce reference s (c.step pg limits s) := by
  -- a call of another type changes nothing under the reference
  have hother : c.keys = [] → BooksOnce reference s (c.step pg limits s) := by
    intro hkeys
    have htypes : reference.1 ∉ c.referenceTypes := fun hmem => htype (types_of_no_keys hkeys _ hmem)
    obtain ⟨hsound, hsame⟩ := step_books_under pg limits hs htypes
    exact ⟨hsound, Or.inl hsame⟩
  cases c with
  | applyExternalCredit input =>
    obtain ⟨hct, hci⟩ := hcut _ List.mem_cons_self
    refine booksOnce_of_returns (rollsBack_after_check (rollsBack_after_check (withTransaction_rollsBack _))) hs ?_
    intro r s' h
    obtain ⟨-, -, ⟨-, -, rfl⟩ | ⟨hfree, h⟩⟩ := applyExternalCredit_ok h
    · exact BooksOnce.refl hs
    · obtain ⟨-, -, -, hwrote⟩ := applyNewExternalCredit_ok h
      exact hwrote.booksOnce_one hs (Prod.ext hct hci) hfree
  | lockOfflinePayCollateral input =>
    obtain ⟨hct, hci⟩ := hcut _ List.mem_cons_self
    refine booksOnce_of_returns (withTransaction_rollsBack _) hs fun _ _ h => ?_
    rcases lockOfflinePayCollateral_ok h with ⟨-, -, rfl⟩ | ⟨hfree, h⟩
    · exact BooksOnce.refl hs
    · obtain ⟨-, -, -, hwrote, -⟩ := lockNewCollateral_ok h
      exact hwrote.booksOnce_one hs (Prod.ext hct hci) hfree
  | releaseOfflinePayCollateral input =>
    obtain ⟨hct, hci⟩ := hcut _ List.mem_cons_self
    refine booksOnce_of_returns (withTransaction_rollsBack _) hs fun _ _ h => ?_
    rcases releaseOfflinePayCollateral_ok h with ⟨-, -, rfl⟩ | ⟨hfree, h⟩
    · exact BooksOnce.refl hs
    · obtain ⟨-, -, -, hwrote, -⟩ := releaseNewCollateral_ok h
      exact hwrote.booksOnce_one hs (Prod.ext hct hci) hfree
  | finalizeOfflinePaySettlement input =>
    obtain ⟨hct, hci⟩ := hcut _ List.mem_cons_self
    refine booksOnce_of_returns (withTransaction_rollsBack _) hs fun _ _ h => ?_
    obtain ⟨-, -, receiver, -, ⟨-, -, hwrote⟩ | ⟨hfree, -, -, hwrote⟩⟩ := finalizeOfflinePaySettlement_ok h
    · exact hwrote.posted.booksOnce hs (fun e he => (receiverEntries_free hci receiver e he).2)
        (receiverEntries_nodup pg s input receiver)
    · have hkey : ((settlementJournal pg input).entry (settlementLegs pg input)).key =
          ("offline_pay_settlement", input.settlementId) := Prod.ext hct hci
      apply hwrote.posted.booksOnce hs
      · intro e he
        rcases List.mem_cons.mp he with rfl | he
        · rw [hkey]
          exact hfree
        · exact (receiverEntries_free hci receiver e he).2
      · rw [List.map_cons, List.nodup_cons]
        refine ⟨fun hmem => ?_, receiverEntries_nodup pg s input receiver⟩
        obtain ⟨e, he, heq⟩ := List.mem_map.mp hmem
        rw [hkey, (receiverEntries_free hci receiver e he).1] at heq
        have htypes : "offline_pay_receiver_settlement" = "offline_pay_settlement" := congrArg Prod.fst heq
        exact absurd htypes (by decide)
  | compensateOfflinePaySettlement input =>
    obtain ⟨hct, hci⟩ := hcut _ List.mem_cons_self
    refine booksOnce_of_returns (withTransaction_rollsBack _) hs fun _ _ h => ?_
    rcases compensateOfflinePaySettlement_ok h with ⟨-, -, rfl⟩ | ⟨hfree, h⟩
    · exact BooksOnce.refl hs
    · obtain ⟨-, -, -, hwrote⟩ := compensateNew_ok h
      exact hwrote.booksOnce_one hs (Prod.ext hct hci) hfree
  | _ => exact hother rfl

/-! ## whole runs -/

/-- what was booked under a reference stays, and nothing is booked beside it -/
theorem run_keeps_booked (pg : PgServer) (limits : WithdrawalLimitConfig) {calls : List Call}
    (hcut : ∀ c ∈ calls, c.Uncut) (htype : reference.1 ∉ repeatedTypes) (hs : s.JournalsSound) {e : Entry}
    (he : s.under reference = [e]) : (runCalls (Call.step pg limits) calls s).under reference = [e] := by
  induction calls generalizing s with
  | nil => exact he
  | cons c calls ih =>
    obtain ⟨hsound, hbooks⟩ := c.step_once pg limits (hcut c List.mem_cons_self) hs htype
    refine ih (fun d hd => hcut d (List.mem_cons_of_mem _ hd)) hsound ?_
    rcases hbooks with hsame | ⟨hnone, -⟩
    · rw [hsame, he]
    · rw [he] at hnone
      cases hnone

/-- **a reference is booked at most once, and for good** -/
theorem run_books_once (pg : PgServer) (limits : WithdrawalLimitConfig) (calls more : List Call)
    (hcut : ∀ c ∈ calls ++ more, c.Uncut) (htype : reference.1 ∉ repeatedTypes) :
    (runCalls (Call.step pg limits) calls Db.empty).under reference = [] ∨
    ∃ e, (runCalls (Call.step pg limits) calls Db.empty).under reference = [e] ∧
      (runCalls (Call.step pg limits) (calls ++ more) Db.empty).under reference = [e] := by
  have hstep : ∀ (c : Call) (s : Db), c.Uncut →
      s.JournalsSound ∧ (s.under reference = [] ∨ ∃ e, s.under reference = [e]) →
      (c.step pg limits s).JournalsSound ∧
        ((c.step pg limits s).under reference = [] ∨ ∃ e, (c.step pg limits s).under reference = [e]) := by
    intro c s hc h
    obtain ⟨hsound, hbooks⟩ := c.step_once pg limits hc h.1 htype
    refine ⟨hsound, ?_⟩
    rcases hbooks with hsame | ⟨-, hnew⟩
    · rw [hsame]
      exact h.2
    · exact Or.inr hnew
  have hs := run_invariant hstep (fun c hc => hcut c (List.mem_append_left more hc)) ⟨journalsSound_empty, Or.inl rfl⟩
  refine hs.2.imp_right fun hbooked => ?_
  obtain ⟨e, he⟩ := hbooked
  refine ⟨e, he, ?_⟩
  rw [runCalls_append]
  exact run_keeps_booked pg limits (fun c hc => hcut c (List.mem_append_right calls hc)) htype hs.1 he

/-- a credit of alice under a reference, and one of bob under the same -/
def exampleCredits : List Call :=
  ["alice", "bob"].map fun userId => .applyExternalCredit
    { userId := userId, amount := 1500000, currencyCode := "KORI", journalType := "foxya_mining_credited"
      referenceType := "foxya_mining_history", referenceId := "foxya_mining_history:1"
      description := none, nowIso := "2026-01-01T00:00:00.000Z" }

theorem run_books_once_example :
    ∃ e, (runCalls (Call.step .numbered ⟨10000000, 10000000⟩) (exampleCredits.take 1) Db.empty).under
        ("foxya_mining_history", "foxya_mining_history:1") = [e] ∧
      (runCalls (Call.step .numbered ⟨10000000, 10000000⟩) exampleCredits Db.empty).under
        ("foxya_mining_history", "foxya_mining_history:1") = [e] := by
  have hcut : ∀ c ∈ exampleCredits, c.Uncut := by
    intro c hc key hkey
    rcases List.mem_cons.mp hc with rfl | hc
    · rw [List.mem_singleton.mp hkey]
      decide
    · rw [List.mem_singleton.mp hc] at hkey
      rw [List.mem_singleton.mp hkey]
      decide
  have hbooked : ((runCalls (Call.step .numbered ⟨10000000, 10000000⟩) (exampleCredits.take 1) Db.empty).under
      ("foxya_mining_history", "foxya_mining_history:1")).isEmpty = false := by decide +kernel
  exact (run_books_once .numbered ⟨10000000, 10000000⟩ (exampleCredits.take 1) (exampleCredits.drop 1) hcut
    (by decide)).resolve_left (List.isEmpty_eq_false_iff.mp hbooked)

end

end Postgres
