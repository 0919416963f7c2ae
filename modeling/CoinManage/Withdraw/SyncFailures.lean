import CoinManage.Lib.Distinct
import CoinManage.InMemory.Runs
import CoinManage.Sweeps.InMemory

/-!
# The list of external-sync failures

`OperationsService.listWithdrawalExternalSyncFailures` shows the withdrawals whose state could not be sent
on.  It reads a window of the withdrawal audit logs, newest first, and the failed jobs of the queue, and
fills a list in two loops: the most recent failure log of each withdrawal, then the jobs of withdrawals
that are not in the list yet.

* `Right`            what the list should be, given the window, the jobs and the limit;
* `failing`          the withdrawals of the window with a failure log, the most recent failure first;
* `failures_right_iff`   the list is right exactly when the logs leave room, or no job is left over.
-/

inductive WithdrawJobName where
  | dispatch
  | reconcile
  | externalSync
  deriving DecidableEq, Repr

structure FailedJob where
  id : String
  name : WithdrawJobName
  withdrawalId : Option String
  failedReason : Option String
  attemptsMade : Nat
  deriving DecidableEq, Repr

structure ExternalSyncFailureItem where
  withdrawalId : String
  createdAt : String
  status : String
  error : String
  occurredAt : String
  txHash : String
  /-- `attemptsMade` and `failedReason` of the failed job -/
  failedJob : Option (Nat × String)
  deriving DecidableEq, Repr

structure ExternalSyncFailures where
  items : List ExternalSyncFailureItem
  failedJobCount : Nat
  deriving DecidableEq, Repr

namespace OperationsService
open InMemoryLedger Distinct

/-! ## the two loops -/

/-- `queue.getJobs(['failed'], 0, Math.max(0, limit - 1))`: both ends are included -/
def listFailed (failedJobs : List FailedJob) (limit : Nat) : List FailedJob :=
  failedJobs.take (limit - 1 + 1)

/-- `log.metadata[name] ?? ''` -/
def metadataText (log : AuditLog) (name : String) : String :=
  ((log.metadata.find? fun entry => entry.1 = name).map (·.2)).getD ""

/-- the withdrawal of a failure log -/
def failureOf (log : AuditLog) : Option String :=
  if log.action = "withdraw.external_sync.failed" then some log.entityId else none

/-- the withdrawal of a job, when it carries one -/
def jobOf (job : FailedJob) : Option String := truthy job.withdrawalId

/-- `new Map(..)`: of several jobs of a withdrawal the last one stays -/
def failedJobByWithdrawalId (jobs : List FailedJob) (withdrawalId : String) : Option FailedJob :=
  jobs.reverse.find? fun job => jobOf job = some withdrawalId

def ofLog (jobs : List FailedJob) (log : AuditLog) : ExternalSyncFailureItem where
  withdrawalId := log.entityId
  createdAt := log.createdAt
  status := metadataText log "status"
  error := metadataText log "error"
  occurredAt := metadataText log "occurredAt"
  txHash := metadataText log "txHash"
  failedJob := (failedJobByWithdrawalId jobs log.entityId).map fun job =>
    (job.attemptsMade, orElse job.failedReason "")

def ofJob (job : FailedJob) : ExternalSyncFailureItem where
  withdrawalId := orElse job.withdrawalId ""
  createdAt := ""
  status := ""
  error := orElse job.failedReason ""
  occurredAt := ""
  txHash := ""
  failedJob := some (job.attemptsMade, orElse job.failedReason "")

/-- `listAuditLogs({ entityType: 'withdrawal', limit: Math.max(limit * 4, 100) })` -/
def window (auditLogs : List AuditLog) (limit : Nat) : List AuditLog :=
  auditLogs.take (max (limit * 4) 100)

def syncFailedJobs (failedJobs : List FailedJob) (limit : Nat) : List FailedJob :=
  (listFailed failedJobs limit).filter fun job => job.name = .externalSync

def listWithdrawalExternalSyncFailures (auditLogs : List AuditLog) (failedJobs : List FailedJob)
    (limit : Nat) : ExternalSyncFailures :=
  let logs := window auditLogs limit
  let jobs := syncFailedJobs failedJobs limit
  let byLogs := pushUnseen failureOf (ofLog jobs) limit logs [] []
  let byJobs := pushUnseen jobOf ofJob limit jobs byLogs.1 byLogs.2
  { items := byJobs.1, failedJobCount := jobs.length }

/-! ## what the list should be -/

/-- `items` shows the failures of a window of logs, newest first, and of the failed sync jobs: at most
`limit` of them and each withdrawal once; for the logs, the most recent failure of each withdrawal, in
the order of the window and with none left out but where newer ones fill the list; and jobs only of
withdrawals without a failure log in the window. -/
def Right (logs : List AuditLog) (jobs : List FailedJob) (limit : Nat)
    (items : List ExternalSyncFailureItem) : Prop :=
  items.length ≤ limit ∧ (items.map (·.withdrawalId)).Nodup ∧
  ∃ (chosen : List AuditLog) (extra : List FailedJob),
    items = chosen.map (ofLog jobs) ++ extra.map ofJob ∧
    chosen.Sublist logs ∧
    (∀ log ∈ chosen, ∃ w before after, failureOf log = some w ∧ logs = before ++ log :: after ∧
      ∀ l ∈ before, failureOf l ≠ some w) ∧
    (∀ w before log after, failureOf log = some w → logs = before ++ log :: after →
      (∀ l ∈ before, failureOf l ≠ some w) →
      log ∈ chosen ∨ (chosen.length = limit ∧ ∀ c ∈ chosen, c ∈ before)) ∧
    (∀ job ∈ extra, job ∈ jobs ∧ ∃ w, jobOf job = some w ∧ ∀ l ∈ logs, failureOf l ≠ some w)

/-- the withdrawals with a failure log, each once, the most recent failure first -/
def failing (logs : List AuditLog) : List String := (logs.filterMap failureOf).eraseDups

section
variable {logs : List AuditLog} {jobs : List FailedJob} {limit : Nat}

theorem name_of_failure {log : AuditLog} {w : String} (h : failureOf log = some w) : log.entityId = w := by
  rw [failureOf] at h
  split at h
  · exact Option.some.inj h
  · cases h

theorem name_of_job {job : FailedJob} {w : String} (h : jobOf job = some w) :
    orElse job.withdrawalId "" = w := by
  rw [truthy_eq_some h]
  rfl

/-- the first elements of their keys, named by their keys -/
theorem filterMap_take_fresh {α : Type} (key : α → Option String) (name : α → String)
    (hname : ∀ a k, key a = some k → name a = k) (seen : List String) (as : List α) (n : Nat) :
    ((fresh key seen as).take n).filterMap key = ((fresh key seen as).take n).map name := by
  have hkey : ∀ a ∈ (fresh key seen as).take n, key a = some (name a) := by
    intro a ha
    obtain ⟨k, -, -, hk, -⟩ := mem_fresh (List.mem_of_mem_take ha)
    rw [hk, hname a k hk]
  rw [List.filterMap_congr hkey, List.filterMap_eq_map']

theorem names_nodup {α : Type} (key : α → Option String) (name : α → String)
    (hname : ∀ a k, key a = some k → name a = k) (seen : List String) (as : List α) (n : Nat) :
    (((fresh key seen as).take n).map name).Nodup := by
  rw [← filterMap_take_fresh key name hname]
  exact (nodup_keys_fresh seen as).sublist ((List.take_sublist n _).filterMap key)

/-! ## what the loops collect -/

/-- the logs the first loop collects -/
def chosenLogs (logs : List AuditLog) (limit : Nat) : List AuditLog :=
  (fresh failureOf [] logs).take limit

theorem chosenLogs_names (logs : List AuditLog) (limit : Nat) :
    (chosenLogs logs limit).map (·.entityId) = (failing logs).take limit := by
  have hall := filterMap_take_fresh failureOf (·.entityId) (fun _ _ h => name_of_failure h) [] logs
    (fresh failureOf [] logs).length
  rw [List.take_length, keys_fresh] at hall
  have hfailing : failing logs = (fresh failureOf [] logs).map (·.entityId) := by
    rw [← hall, failing]
    simp
  rw [chosenLogs, hfailing, List.map_take]

theorem chosenLogs_length (logs : List AuditLog) (limit : Nat) :
    (chosenLogs logs limit).length = min limit (failing logs).length := by
  rw [← List.length_take, ← chosenLogs_names, List.length_map]

variable (auditLogs : List AuditLog) (failedJobs : List FailedJob)

/-- the withdrawals the second loop finds in the list -/
def seenByLogs (auditLogs : List AuditLog) (jobs : List FailedJob) (limit : Nat) : List String :=
  (pushUnseen failureOf (ofLog jobs) limit (window auditLogs limit) [] []).2

theorem mem_seenByLogs (hlimit : 1 ≤ limit) (w : String) :
    w ∈ seenByLogs auditLogs jobs limit ↔ w ∈ (failing (window auditLogs limit)).take limit := by
  have hroom : max 1 (limit - ([] : List ExternalSyncFailureItem).length) = limit := by
    rw [List.length_nil]
    omega
  rw [seenByLogs, mem_pushUnseen_seen, hroom, ← chosenLogs_names, List.mem_map]
  constructor
  · rintro (h | ⟨log, hlog, hw⟩)
    · cases h
    · exact ⟨log, hlog, name_of_failure hw⟩
  · rintro ⟨log, hlog, rfl⟩
    obtain ⟨k, -, -, hk, -⟩ := mem_fresh (List.mem_of_mem_take hlog)
    exact Or.inr ⟨log, hlog, by rw [hk, name_of_failure hk]⟩

/-- the jobs the second loop collects: one even when the list is full -/
def extraJobs (auditLogs : List AuditLog) (jobs : List FailedJob) (limit : Nat) : List FailedJob :=
  (fresh jobOf (seenByLogs auditLogs jobs limit) jobs).take
    (max 1 (limit - (chosenLogs (window auditLogs limit) limit).length))

theorem items_eq (hlimit : 1 ≤ limit) :
    (listWithdrawalExternalSyncFailures auditLogs failedJobs limit).items =
      (chosenLogs (window auditLogs limit) limit).map (ofLog (syncFailedJobs failedJobs limit)) ++
        (extraJobs auditLogs (syncFailedJobs failedJobs limit) limit).map ofJob := by
  have hroom : max 1 (limit - ([] : List ExternalSyncFailureItem).length) = limit := by
    rw [List.length_nil]
    omega
  rw [listWithdrawalExternalSyncFailures, pushUnseen_items, pushUnseen_items, hroom, List.nil_append,
    List.length_map]
  rfl

/-- nothing is left for the second loop -/
theorem extraJobs_nil (hlimit : 1 ≤ limit)
    (h : ∀ job ∈ jobs, ∀ w, jobOf job = some w → w ∈ (failing (window auditLogs limit)).take limit) :
    extraJobs auditLogs jobs limit = [] := by
  have hnil : fresh jobOf (seenByLogs auditLogs jobs limit) jobs = [] := by
    rw [fresh_eq_nil]
    intro job hjob w hw
    rw [mem_seenByLogs auditLogs hlimit]
    exact h job hjob w hw
  rw [extraJobs, hnil, List.take_nil]

/-- a job the second loop collects is of a withdrawal that is not in the list -/
theorem of_mem_extraJobs (hlimit : 1 ≤ limit) {job : FailedJob}
    (hjob : job ∈ extraJobs auditLogs jobs limit) :
    job ∈ jobs ∧ ∃ w, jobOf job = some w ∧ w ∉ (failing (window auditLogs limit)).take limit := by
  have hfresh := List.mem_of_mem_take hjob
  obtain ⟨w, -, -, hw, hseen, -⟩ := mem_fresh hfresh
  refine ⟨(fresh_sublist _ _).mem hfresh, w, hw, ?_⟩
  rwa [mem_seenByLogs auditLogs hlimit] at hseen

theorem items_once (hlimit : 1 ≤ limit) :
    (((chosenLogs (window auditLogs limit) limit).map (ofLog jobs) ++
      (extraJobs auditLogs jobs limit).map ofJob).map (·.withdrawalId)).Nodup := by
  rw [List.map_append, List.map_map, List.map_map]
  refine List.Nodup.append ?_ ?_ ?_
  · exact names_nodup failureOf (·.entityId) (fun _ _ h => name_of_failure h) [] (window auditLogs limit) limit
  · exact names_nodup jobOf (fun job => orElse job.withdrawalId "") (fun _ _ h => name_of_job h) (seenByLogs auditLogs jobs limit) jobs _
  · intro w hlog hjob
    have hw : w ∈ (failing (window auditLogs limit)).take limit := by
      rw [← chosenLogs_names]
      exact hlog
    obtain ⟨job, hmem, rfl⟩ := List.mem_map.mp hjob
    obtain ⟨-, k, hk, hnot⟩ := of_mem_extraJobs auditLogs hlimit hmem
    have hname : (ofJob job).withdrawalId = k := name_of_job hk
    apply hnot
    rw [← hname]
    exact hw

/-- the logs that are chosen, one for each withdrawal and none left out but for newer ones -/
theorem chosenLogs_complete {w : String} {before after : List AuditLog} {log : AuditLog}
    (hlog : failureOf log = some w) (hsplit : logs = before ++ log :: after)
    (hfirst : ∀ l ∈ before, failureOf l ≠ some w) :
    log ∈ chosenLogs logs limit ∨
      ((chosenLogs logs limit).length = limit ∧ ∀ c ∈ chosenLogs logs limit, c ∈ before) := by
  subst hsplit
  have hfresh : ∃ l r, fresh failureOf [] (before ++ log :: after) = l ++ log :: r ∧ ∀ b ∈ l, b ∈ before :=
    fresh_split hlog List.not_mem_nil hfirst
  obtain ⟨l, r, hl, hmem⟩ := hfresh
  rw [chosenLogs, hl]
  by_cases hroom : l.length < limit
  · left
    rw [List.take_append, List.mem_append]
    right
    obtain ⟨n, hn⟩ : ∃ n, limit - l.length = n + 1 := ⟨limit - l.length - 1, by omega⟩
    rw [hn, List.take_succ_cons]
    exact List.mem_cons_self
  · right
    rw [List.take_append_of_le_length (by omega), List.length_take, min_eq_left (by omega)]
    exact ⟨rfl, fun c hc => hmem c (List.mem_of_mem_take hc)⟩

/-- the two loops give the right list when the list has room for every job that is left over -/
theorem right_of_bounded (hlimit : 1 ≤ limit)
    (h : (failing (window auditLogs limit)).length < limit ∨
      ∀ job ∈ jobs, ∀ w, jobOf job = some w → w ∈ (failing (window auditLogs limit)).take limit) :
    Right (window auditLogs limit) jobs limit
      ((chosenLogs (window auditLogs limit) limit).map (ofLog jobs) ++
        (extraJobs auditLogs jobs limit).map ofJob) := by
  have hlength := chosenLogs_length (window auditLogs limit) limit
  refine ⟨?_, items_once auditLogs hlimit, chosenLogs (window auditLogs limit) limit,
    extraJobs auditLogs jobs limit, rfl, ?_, ?_, ?_, ?_⟩
  · rw [List.length_append, List.length_map, List.length_map]
    rcases h with hroom | hnone
    · have hextra : (extraJobs auditLogs jobs limit).length ≤
          max 1 (limit - (chosenLogs (window auditLogs limit) limit).length) := List.length_take_le _ _
      omega
    · rw [extraJobs_nil auditLogs hlimit hnone, List.length_nil]
      omega
  · exact (List.take_sublist _ _).trans (fresh_sublist [] _)
  · intro log hlog
    obtain ⟨w, before, after, hw, -, hsplit, hfirst⟩ := mem_fresh (List.mem_of_mem_take hlog)
    exact ⟨w, before, after, hw, hsplit, hfirst⟩
  · intro w before log after hlog hsplit hfirst
    exact chosenLogs_complete hlog hsplit hfirst
  · intro job hjob
    obtain ⟨hmem, w, hw, hnot⟩ := of_mem_extraJobs auditLogs hlimit hjob
    refine ⟨hmem, w, hw, fun l hl hfailure => hnot ?_⟩
    rcases h with hroom | hnone
    · rw [List.take_of_length_le (le_of_lt hroom), failing, List.mem_eraseDups]
      exact List.mem_filterMap.mpr ⟨l, hl, hfailure⟩
    · exact hnone job hmem w hw

end

/-- The list is right exactly when fewer than `limit` withdrawals have a failure log in the window, or
every failed sync job that carries a withdrawal is of one of the first `limit` of them: the second loop
looks at the limit only after it has added a job. -/
theorem failures_right_iff (auditLogs : List AuditLog) (failedJobs : List FailedJob) (limit : Nat)
    (hlimit : 1 ≤ limit) :
    Right (window auditLogs limit) (syncFailedJobs failedJobs limit) limit
        (listWithdrawalExternalSyncFailures auditLogs failedJobs limit).items ↔
      (failing (window auditLogs limit)).length < limit ∨
        ∀ job ∈ syncFailedJobs failedJobs limit, ∀ w, jobOf job = some w →
          w ∈ (failing (window auditLogs limit)).take limit := by
  rw [items_eq auditLogs failedJobs hlimit]
  constructor
  · rintro ⟨hbound, -⟩
    by_contra hnot
    obtain ⟨hfull, job, hjob, w, hw, hleft⟩ : limit ≤ (failing (window auditLogs limit)).length ∧
        ∃ job ∈ syncFailedJobs failedJobs limit, ∃ w, jobOf job = some w ∧
          w ∉ (failing (window auditLogs limit)).take limit := by
      push Not at hnot
      exact hnot
    have hlength := chosenLogs_length (window auditLogs limit) limit
    -- the first loop has filled the list, and the second one adds a job
    have hsome : fresh jobOf (seenByLogs auditLogs (syncFailedJobs failedJobs limit) limit)
        (syncFailedJobs failedJobs limit) ≠ [] := by
      intro hnil
      apply hleft
      rw [← mem_seenByLogs auditLogs hlimit]
      exact fresh_eq_nil.mp hnil job hjob w hw
    have hone : 1 ≤ (extraJobs auditLogs (syncFailedJobs failedJobs limit) limit).length := by
      rw [extraJobs, List.length_take]
      have hpos := List.length_pos_of_ne_nil hsome
      omega
    rw [List.length_append, List.length_map, List.length_map] at hbound
    omega
  · exact right_of_bounded auditLogs hlimit

/-- a failure log of one withdrawal -/
def exampleLog : AuditLog where
  auditId := "a-1"
  entityType := "withdrawal"
  entityId := "w-1"
  action := "withdraw.external_sync.failed"
  actorType := "system"
  actorId := "foxya-withdrawal-sync"
  metadata := [("status", "COMPLETED"), ("error", "callback timeout")]
  createdAt := "2026-03-18T13:00:00.000Z"

/-- a failed job of another withdrawal -/
def exampleJob : FailedJob where
  id := "external_sync:w-2"
  name := .externalSync
  withdrawalId := some "w-2"
  failedReason := some "401 unauthorized"
  attemptsMade := 5

theorem failures_right_example :
    Right (window [exampleLog] 2) (syncFailedJobs [exampleJob] 2) 2
      (listWithdrawalExternalSyncFailures [exampleLog] [exampleJob] 2).items :=
  (failures_right_iff [exampleLog] [exampleJob] 2 (by decide)).mpr (Or.inl (by decide))

/-- with a limit of one, one failure log and one job of another withdrawal make two items -/
theorem failures_beyond_limit :
    (listWithdrawalExternalSyncFailures [exampleLog] [exampleJob] 1).items.length = 2 ∧
      ¬ Right (window [exampleLog] 1) (syncFailedJobs [exampleJob] 1) 1
        (listWithdrawalExternalSyncFailures [exampleLog] [exampleJob] 1).items := by
  have htwo : (listWithdrawalExternalSyncFailures [exampleLog] [exampleJob] 1).items.length = 2 := by decide
  refine ⟨htwo, fun h => ?_⟩
  have hbound := h.1
  omega

end OperationsService
