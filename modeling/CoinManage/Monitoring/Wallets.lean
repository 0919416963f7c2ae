import CoinManage.Core
import CoinManage.Lib.OrderedMap

/-!
# The balances of the system wallets

A collector reads the wallets one after the other and stores a snapshot of each.  The snapshot of a read
that failed is completed from the one stored before, if that one is of a read that succeeded.

* `Reading`          what the reader can come back with;
* `collectWallets`   a run of the collector;
* `remembered`       what is stored of a wallet, as a function of the readings of it;
* `known`            the last value that was read, field by field;
* `remembered_known` the two agree unless the last two readings both failed.
-/

namespace SystemMonitoringService

/-! ## snapshots -/

inductive SystemWalletCode where
  | treasury
  | cold
  | liquidity
  | reward
  | marketing
  | hot
  deriving DecidableEq, Repr

def SystemWalletCode.text : SystemWalletCode → String
  | .treasury => "treasury"
  | .cold => "cold"
  | .liquidity => "liquidity"
  | .reward => "reward"
  | .marketing => "marketing"
  | .hot => "hot"

structure SystemWalletDescriptor where
  code : SystemWalletCode
  address : String
  deriving DecidableEq

inductive SnapshotStatus where
  | ok
  | error
  deriving DecidableEq, Repr

structure WalletMonitoringSnapshot where
  address : String
  tokenSymbol : String
  tokenContractAddress : Option String
  tokenBalance : Option String
  tokenRawBalance : Option String
  tokenDecimals : Option JsNumber
  trxBalance : Option String
  trxRawBalance : Option String
  fetchedAt : String
  status : SnapshotStatus
  error : Option String
  deriving DecidableEq

/-- the return values of `TronWalletReader.getWalletMonitoringSnapshot` -/
inductive Reading where
  | read (tokenSymbol tokenContractAddress tokenBalance tokenRawBalance : String) (tokenDecimals : JsNumber)
      (trxBalance trxRawBalance : String)
  | tokenNotConfigured (trxBalance trxRawBalance : String)
  | failed (tokenContractAddress : Option String) (message : String)

def Reading.snapshot (address fetchedAt : String) : Reading → WalletMonitoringSnapshot
  | .read tokenSymbol tokenContractAddress tokenBalance tokenRawBalance tokenDecimals trxBalance trxRawBalance =>
    { address := address
      tokenSymbol := tokenSymbol
      tokenContractAddress := some tokenContractAddress
      tokenBalance := some tokenBalance
      tokenRawBalance := some tokenRawBalance
      tokenDecimals := some tokenDecimals
      trxBalance := some trxBalance
      trxRawBalance := some trxRawBalance
      fetchedAt := fetchedAt
      status := .ok
      error := none }
  | .tokenNotConfigured trxBalance trxRawBalance =>
    { address := address
      tokenSymbol := "KORI"
      tokenContractAddress := none
      tokenBalance := none
      tokenRawBalance := none
      tokenDecimals := none
      trxBalance := some trxBalance
      trxRawBalance := some trxRawBalance
      fetchedAt := fetchedAt
      status := .error
      error := some "KORI token contract address is not configured" }
  | .failed tokenContractAddress message =>
    { address := address
      tokenSymbol := "KORI"
      tokenContractAddress := tokenContractAddress
      tokenBalance := none
      tokenRawBalance := none
      tokenDecimals := none
      trxBalance := none
      trxRawBalance := none
      fetchedAt := fetchedAt
      status := .error
      error := some message }

structure StoredWalletMonitoringSnapshot extends WalletMonitoringSnapshot where
  walletCode : SystemWalletCode
  deriving DecidableEq

/-! ## the repository -/

inductive CollectorRunStatus where
  | success
  | degraded
  | failed
  deriving DecidableEq, Repr

structure CollectorRunRecord where
  collectorName : String
  status : CollectorRunStatus
  successCount : Nat
  errorCount : Nat
  totalCount : Nat
  startedAt : String
  finishedAt : String
  errorMessage : Option String
  deriving DecidableEq

structure WalletMonitoringHistoryPoint extends StoredWalletMonitoringSnapshot where
  snapshotId : String
  collectorName : String
  createdAt : String

/-- `InMemoryMonitoringRepository`; a snapshot is kept under its own code -/
structure InMemoryMonitoringRepository where
  walletSnapshots : OrderedMap SystemWalletCode StoredWalletMonitoringSnapshot
  collectorRuns : OrderedMap String CollectorRunRecord
  walletHistory : List WalletMonitoringHistoryPoint
  keyed : ∀ code snapshot, walletSnapshots.get? code = some snapshot → snapshot.walletCode = code

namespace InMemoryMonitoringRepository

def empty : InMemoryMonitoringRepository where
  walletSnapshots := .empty
  collectorRuns := .empty
  walletHistory := []
  keyed := fun _ _ h => (by cases h)

def getWalletSnapshots (s : InMemoryMonitoringRepository) (codes : List SystemWalletCode) :
    List StoredWalletMonitoringSnapshot := codes.filterMap s.walletSnapshots.get?

/-- one round of the loop of `saveWalletSnapshots` -/
def saveSnapshot (collectorName finishedAt : String) (s : InMemoryMonitoringRepository)
    (snapshot : StoredWalletMonitoringSnapshot) : InMemoryMonitoringRepository where
  walletSnapshots := s.walletSnapshots.set snapshot.walletCode snapshot
  collectorRuns := s.collectorRuns
  walletHistory := s.walletHistory ++ [{ snapshot with
    snapshotId := collectorName ++ ":" ++ snapshot.walletCode.text ++ ":" ++ finishedAt
    collectorName := collectorName
    createdAt := finishedAt }]
  keyed := fun code other h => by
    rw [OrderedMap.get?_set] at h
    split at h
    · next hcode =>
      rw [← Option.some.inj h]
      exact hcode
    · exact s.keyed code other h

def saveWalletSnapshots (s : InMemoryMonitoringRepository) (run : CollectorRunRecord)
    (snapshots : List StoredWalletMonitoringSnapshot) : InMemoryMonitoringRepository :=
  let s := snapshots.foldl (saveSnapshot run.collectorName run.finishedAt) s
  { s with
    collectorRuns := s.collectorRuns.set run.collectorName
      { run with
        successCount := snapshots.countP fun snapshot => snapshot.status = .ok
        errorCount := snapshots.countP fun snapshot => snapshot.status ≠ .ok
        totalCount := snapshots.length } }

end InMemoryMonitoringRepository

/-! ## a run -/

def collectorName : String := "wallet_balances"

/-- the hot wallet first -/
def prioritize (wallets : List SystemWalletDescriptor) : List SystemWalletDescriptor :=
  match wallets.find? fun wallet => wallet.code = .hot with
  | some hot => hot :: wallets.filter fun wallet => wallet.code ≠ .hot
  | none => wallets

def resolveRunStatus (totalCount errorCount : Nat) : CollectorRunStatus :=
  if errorCount = 0 then .success else if totalCount ≤ errorCount then .failed else .degraded

def mergeWithLastKnownSnapshot (snapshot : WalletMonitoringSnapshot)
    (previous : Option StoredWalletMonitoringSnapshot) : WalletMonitoringSnapshot :=
  match previous with
  | none => snapshot
  | some previous =>
    if previous.status ≠ .ok then snapshot
    else
      { snapshot with
        tokenSymbol := previous.tokenSymbol
        tokenContractAddress := previous.tokenContractAddress <|> snapshot.tokenContractAddress
        tokenBalance := snapshot.tokenBalance <|> previous.tokenBalance
        tokenRawBalance := snapshot.tokenRawBalance <|> previous.tokenRawBalance
        tokenDecimals := snapshot.tokenDecimals <|> previous.tokenDecimals
        trxBalance := snapshot.trxBalance <|> previous.trxBalance
        trxRawBalance := snapshot.trxRawBalance <|> previous.trxRawBalance }

/-- a run: its wallets, what the reader comes back with for each, and the clock -/
structure CollectorRun where
  wallets : List SystemWalletDescriptor
  distinct : (wallets.map (·.code)).Nodup
  reader : SystemWalletDescriptor → Reading
  fetchedAt : SystemWalletDescriptor → String
  startedAt : String
  finishedAt : String

def collectWallet (run : CollectorRun) (previousSnapshots : List StoredWalletMonitoringSnapshot)
    (wallet : SystemWalletDescriptor) : StoredWalletMonitoringSnapshot :=
  let snapshot := (run.reader wallet).snapshot wallet.address (run.fetchedAt wallet)
  -- of two entries with one key a map made from a list keeps the later
  let previous := previousSnapshots.reverse.find? fun previous => previous.walletCode = wallet.code
  let merged := match snapshot.status with
    | .error => mergeWithLastKnownSnapshot snapshot previous
    | .ok => snapshot
  { merged with walletCode := wallet.code }

def collectWallets (run : CollectorRun) (s : InMemoryMonitoringRepository) : InMemoryMonitoringRepository :=
  let prioritizedWallets := prioritize run.wallets
  let previousSnapshots := s.getWalletSnapshots (prioritizedWallets.map (·.code))
  let snapshots := prioritizedWallets.map (collectWallet run previousSnapshots)
  let errorCount := snapshots.countP fun snapshot => snapshot.status ≠ .ok
  s.saveWalletSnapshots
    { collectorName := collectorName
      status := resolveRunStatus snapshots.length errorCount
      successCount := snapshots.length - errorCount
      errorCount := errorCount
      totalCount := snapshots.length
      startedAt := run.startedAt
      finishedAt := run.finishedAt
      errorMessage := if 0 < errorCount then some (toString errorCount ++ " wallet monitoring reads failed")
        else none }
    snapshots

def collectAll (runs : List CollectorRun) (s : InMemoryMonitoringRepository) : InMemoryMonitoringRepository :=
  runs.foldl (fun s run => collectWallets run s) s

/-! ## what is known of a wallet -/

/-- the balance fields of a snapshot -/
structure Balances where
  tokenBalance : Option String
  tokenRawBalance : Option String
  tokenDecimals : Option JsNumber
  trxBalance : Option String
  trxRawBalance : Option String
  deriving DecidableEq

namespace Balances

def nothing : Balances := ⟨none, none, none, none, none⟩

/-- the fields of `b`, and those of `old` where `b` has none -/
def completedFrom (b old : Balances) : Balances where
  tokenBalance := b.tokenBalance <|> old.tokenBalance
  tokenRawBalance := b.tokenRawBalance <|> old.tokenRawBalance
  tokenDecimals := b.tokenDecimals <|> old.tokenDecimals
  trxBalance := b.trxBalance <|> old.trxBalance
  trxRawBalance := b.trxRawBalance <|> old.trxRawBalance

end Balances

def WalletMonitoringSnapshot.balances (snapshot : WalletMonitoringSnapshot) : Balances where
  tokenBalance := snapshot.tokenBalance
  tokenRawBalance := snapshot.tokenRawBalance
  tokenDecimals := snapshot.tokenDecimals
  trxBalance := snapshot.trxBalance
  trxRawBalance := snapshot.trxRawBalance

namespace Reading

def balances : Reading → Balances
  | .read _ _ tokenBalance tokenRawBalance tokenDecimals trxBalance trxRawBalance =>
    ⟨some tokenBalance, some tokenRawBalance, some tokenDecimals, some trxBalance, some trxRawBalance⟩
  | .tokenNotConfigured trxBalance trxRawBalance => ⟨none, none, none, some trxBalance, some trxRawBalance⟩
  | .failed _ _ => .nothing

def succeeded : Reading → Bool
  | .read .. => true
  | _ => false

theorem snapshot_balances (address fetchedAt : String) (r : Reading) :
    (r.snapshot address fetchedAt).balances = r.balances := by
  cases r <;> rfl

theorem snapshot_status (address fetchedAt : String) (r : Reading) :
    (r.snapshot address fetchedAt).status = if r.succeeded then .ok else .error := by
  cases r <;> rfl

/-- a reading that succeeded leaves nothing to complete -/
theorem completedFrom_of_succeeded {r : Reading} (h : r.succeeded = true) (old : Balances) :
    r.balances.completedFrom old = r.balances := by
  cases r with
  | read => rfl
  | _ => cases h

/-- one that failed has no token balance -/
theorem tokenBalance_of_failed {r : Reading} (h : r.succeeded = false) : r.balances.tokenBalance = none := by
  cases r with
  | read => cases h
  | _ => rfl

end Reading

/-- field by field, the last value among some readings -/
def known (rs : List Reading) : Balances := rs.foldl (fun old r => r.balances.completedFrom old) .nothing

/-- what is stored after a reading: whether it succeeded, and the balances -/
def remember (old : Option (Bool × Balances)) (r : Reading) : Option (Bool × Balances) :=
  match r.succeeded, old with
  | false, some (true, balances) => some (false, r.balances.completedFrom balances)
  | ok, _ => some (ok, r.balances)

def remembered (rs : List Reading) : Option (Bool × Balances) := rs.foldl remember none

theorem known_snoc (rs : List Reading) (r : Reading) : known (rs ++ [r]) = r.balances.completedFrom (known rs) := by
  simp [known]

theorem remembered_snoc (rs : List Reading) (r : Reading) :
    remembered (rs ++ [r]) = remember (remembered rs) r := by
  simp [remembered]

/-- some reading succeeded, so there is a token balance to know -/
theorem known_tokenBalance {rs : List Reading} (h : ∃ r ∈ rs, r.succeeded = true) :
    (known rs).tokenBalance.isSome = true := by
  induction rs using List.reverseRecOn with
  | nil =>
    obtain ⟨r, hr, -⟩ := h
    cases hr
  | append_singleton rs r ih =>
    rw [known_snoc]
    show (r.balances.tokenBalance <|> (known rs).tokenBalance).isSome = true
    cases hr : r.succeeded with
    | true =>
      cases r with
      | read => rfl
      | _ => cases hr
    | false =>
      rw [Reading.tokenBalance_of_failed hr]
      apply ih
      obtain ⟨q, hq, hok⟩ := h
      rcases List.mem_append.mp hq with hq | hq
      · exact ⟨q, hq, hok⟩
      · rw [List.mem_singleton.mp hq, hr] at hok
        cases hok

/-- the last two readings both failed -/
def FailedTwice (rs : List Reading) : Prop :=
  ∃ earlier r₁ r₂, rs = earlier ++ [r₁, r₂] ∧ r₁.succeeded = false ∧ r₂.succeeded = false

theorem remembered_of_succeeded (rs : List Reading) {r : Reading} (h : r.succeeded = true) :
    remembered (rs ++ [r]) = some (true, known (rs ++ [r])) := by
  rw [remembered_snoc, known_snoc, Reading.completedFrom_of_succeeded h]
  simp [remember, h]

theorem remembered_of_failed (rs : List Reading) {q r : Reading} (hq : q.succeeded = false)
    (hr : r.succeeded = false) : remembered (rs ++ [q] ++ [r]) = some (false, r.balances) := by
  have hbefore : ∃ balances, remembered (rs ++ [q]) = some (false, balances) := by
    rw [remembered_snoc]
    unfold remember
    rw [hq]
    split <;> exact ⟨_, rfl⟩
  obtain ⟨balances, hbefore⟩ := hbefore
  rw [remembered_snoc, hbefore]
  simp [remember, hr]

theorem failedTwice_snoc {rs : List Reading} {q r : Reading} :
    FailedTwice (rs ++ [q] ++ [r]) ↔ q.succeeded = false ∧ r.succeeded = false := by
  constructor
  · rintro ⟨earlier, r₁, r₂, heq, h₁, h₂⟩
    have hlast : (rs ++ [q]) ++ [r] = (earlier ++ [r₁]) ++ [r₂] := by
      rw [heq, List.append_assoc]
      rfl
    obtain ⟨hinit, hr⟩ := List.append_inj' hlast rfl
    obtain ⟨-, hq⟩ := List.append_inj' hinit rfl
    rw [List.singleton_inj.mp hq, List.singleton_inj.mp hr]
    exact ⟨h₁, h₂⟩
  · rintro ⟨hq, hr⟩
    exact ⟨rs, q, r, by simp, hq, hr⟩

/-- What is stored is what is known, but for two failures in a row. -/
theorem remembered_known {rs : List Reading} (h : ∃ r ∈ rs, r.succeeded = true) :
    (remembered rs).map Prod.snd = some (known rs) ↔ ¬FailedTwice rs := by
  rcases List.eq_nil_or_concat' rs with rfl | ⟨rs, r, rfl⟩
  · obtain ⟨r, hr, -⟩ := h
    cases hr
  rcases List.eq_nil_or_concat' rs with rfl | ⟨rs, q, rfl⟩
  · obtain ⟨q, hq, hok⟩ := h
    obtain rfl : q = r := List.mem_singleton.mp hq
    have hnot : ¬FailedTwice ([] ++ [q]) := by
      rintro ⟨earlier, r₁, r₂, heq, -⟩
      have hlength := congrArg List.length heq
      simp at hlength
    rw [remembered_of_succeeded [] hok]
    exact ⟨fun _ => hnot, fun _ => rfl⟩
  rw [failedTwice_snoc]
  -- the last two readings decide
  cases hr : r.succeeded with
  | true =>
    rw [remembered_of_succeeded _ hr]
    simp
  | false =>
    cases hq : q.succeeded with
    | true =>
      rw [remembered_snoc, remembered_of_succeeded rs hq, known_snoc (rs ++ [q])]
      simp [remember, hr]
    | false =>
      rw [remembered_of_failed rs hq hr]
      have hsome := known_tokenBalance h
      constructor
      · intro heq
        rw [← Option.some.inj heq, Reading.tokenBalance_of_failed hr] at hsome
        cases hsome
      · intro hnot
        exact absurd ⟨rfl, rfl⟩ hnot

/-! ## what a run stores -/

theorem prioritize_find (wallets : List SystemWalletDescriptor) (code : SystemWalletCode) :
    (prioritize wallets).find? (fun wallet => wallet.code = code) =
      wallets.find? fun wallet => wallet.code = code := by
  unfold prioritize
  split
  · next hot hfound =>
    have hhot : hot.code = .hot := by simpa using List.find?_some hfound
    by_cases hcode : code = .hot
    · subst hcode
      rw [hfound, List.find?_cons_of_pos (by simpa using hhot)]
    · have hskip : hot.code ≠ code := by
        rw [hhot]
        exact Ne.symm hcode
      rw [List.find?_cons_of_neg (by simpa using hskip), List.find?_filter]
      congr 1
      funext wallet
      by_cases hw : wallet.code = code
      · simp [hw, hcode]
      · simp [hw]
  · rfl

theorem prioritize_nodup {wallets : List SystemWalletDescriptor} (h : (wallets.map (·.code)).Nodup) :
    ((prioritize wallets).map (·.code)).Nodup := by
  unfold prioritize
  split
  · next hot hfound =>
    have hhot : hot.code = .hot := by simpa using List.find?_some hfound
    rw [List.map_cons, List.nodup_cons]
    constructor
    · intro hmem
      obtain ⟨wallet, hwallet, hcode⟩ := List.mem_map.mp hmem
      have hne := (List.mem_filter.mp hwallet).2
      rw [hhot] at hcode
      simp [hcode] at hne
    · exact h.sublist (List.filter_sublist.map _)
  · exact h

/-- the entry a run finds for a wallet is the one that is stored -/
theorem previous_eq (s : InMemoryMonitoringRepository) {codes : List SystemWalletCode} {code : SystemWalletCode}
    (h : code ∈ codes) : (s.getWalletSnapshots codes).reverse.find? (fun previous => previous.walletCode = code) =
      s.walletSnapshots.get? code := by
  have hown : ∀ previous ∈ (s.getWalletSnapshots codes).reverse, previous.walletCode = code →
      s.walletSnapshots.get? code = some previous := by
    intro previous hprevious hcode
    obtain ⟨other, -, hother⟩ := List.mem_filterMap.mp (List.mem_reverse.mp hprevious)
    have hsame := s.keyed other previous hother
    rw [hcode] at hsame
    rw [hsame]
    exact hother
  cases hfound : (s.getWalletSnapshots codes).reverse.find? (fun previous => previous.walletCode = code) with
  | some previous =>
    have hcode : previous.walletCode = code := by simpa using List.find?_some hfound
    exact (hown previous (List.mem_of_find?_eq_some hfound) hcode).symm
  | none =>
    cases hstored : s.walletSnapshots.get? code with
    | none => rfl
    | some snapshot =>
      have hmem : snapshot ∈ (s.getWalletSnapshots codes).reverse :=
        List.mem_reverse.mpr (List.mem_filterMap.mpr ⟨code, h, hstored⟩)
      have hnone := List.find?_eq_none.mp hfound snapshot hmem
      simp [s.keyed code snapshot hstored] at hnone

theorem saved_get? {collectorName finishedAt : String} {snapshots : List StoredWalletMonitoringSnapshot}
    (hnd : (snapshots.map (·.walletCode)).Nodup) (s : InMemoryMonitoringRepository) (code : SystemWalletCode) :
    (snapshots.foldl (InMemoryMonitoringRepository.saveSnapshot collectorName finishedAt) s).walletSnapshots.get?
      code = ((snapshots.find? fun snapshot => snapshot.walletCode = code) <|> s.walletSnapshots.get? code) := by
  induction snapshots generalizing s with
  | nil => simp
  | cons snapshot snapshots ih =>
    rw [List.map_cons, List.nodup_cons] at hnd
    rw [List.foldl_cons, ih hnd.2]
    rw [InMemoryMonitoringRepository.saveSnapshot, OrderedMap.get?_set]
    by_cases hcode : snapshot.walletCode = code
    · have hnone : snapshots.find? (fun snapshot => snapshot.walletCode = code) = none := by
        rw [List.find?_eq_none]
        intro other hother
        have hne : other.walletCode ≠ code := fun he =>
          hnd.1 (hcode ▸ he ▸ List.mem_map_of_mem hother)
        simpa using hne
      rw [hnone, if_pos hcode, List.find?_cons_of_pos (by simpa using hcode)]
      rfl
    · rw [if_neg hcode, List.find?_cons_of_neg (by simpa using hcode)]

theorem merge_balances (snapshot : WalletMonitoringSnapshot) (previous : Option StoredWalletMonitoringSnapshot) :
    (mergeWithLastKnownSnapshot snapshot previous).balances = match previous with
      | some previous => if previous.status = .ok then snapshot.balances.completedFrom previous.balances
          else snapshot.balances
      | none => snapshot.balances := by
  unfold mergeWithLastKnownSnapshot
  cases previous with
  | none => rfl
  | some previous =>
    by_cases hok : previous.status = .ok
    · simp only [hok, ne_eq, not_true_eq_false, if_false, if_true]
      rfl
    · simp only [hok, ne_eq, not_false_eq_true, if_true, if_false]

theorem merge_status (snapshot : WalletMonitoringSnapshot) (previous : Option StoredWalletMonitoringSnapshot) :
    (mergeWithLastKnownSnapshot snapshot previous).status = snapshot.status := by
  unfold mergeWithLastKnownSnapshot
  split
  · rfl
  · split <;> rfl

/-- what a snapshot tells: whether it is of a reading that succeeded, and the balances -/
def outcome (snapshot : StoredWalletMonitoringSnapshot) : Bool × Balances :=
  (decide (snapshot.status = .ok), snapshot.balances)

def stored (s : InMemoryMonitoringRepository) (code : SystemWalletCode) : Option (Bool × Balances) :=
  (s.walletSnapshots.get? code).map outcome

/-- the reading of a wallet in a run -/
def CollectorRun.reading (run : CollectorRun) (code : SystemWalletCode) : Option Reading :=
  (run.wallets.find? fun wallet => wallet.code = code).map run.reader

theorem collectWallet_outcome (run : CollectorRun) (previousSnapshots : List StoredWalletMonitoringSnapshot)
    (wallet : SystemWalletDescriptor) : some (outcome (collectWallet run previousSnapshots wallet)) =
      remember ((previousSnapshots.reverse.find? fun previous => previous.walletCode = wallet.code).map outcome)
        (run.reader wallet) := by
  unfold collectWallet
  generalize previousSnapshots.reverse.find? (fun previous => previous.walletCode = wallet.code) = previous
  have hmerge := merge_balances ((run.reader wallet).snapshot wallet.address (run.fetchedAt wallet)) previous
  have hstatus := merge_status ((run.reader wallet).snapshot wallet.address (run.fetchedAt wallet)) previous
  rw [Reading.snapshot_balances] at hmerge
  rw [Reading.snapshot_status] at hstatus
  cases hr : (run.reader wallet).succeeded with
  | true =>
    have hbalances := Reading.snapshot_balances wallet.address (run.fetchedAt wallet) (run.reader wallet)
    have hok := Reading.snapshot_status wallet.address (run.fetchedAt wallet) (run.reader wallet)
    rw [hr, if_pos rfl] at hok
    simp only [hok, outcome, remember, hr]
    simp [hbalances]
  | false =>
    have herror := Reading.snapshot_status wallet.address (run.fetchedAt wallet) (run.reader wallet)
    rw [hr, if_neg (by simp)] at herror
    rw [hr, if_neg (by simp)] at hstatus
    simp only [herror, outcome, hstatus, hmerge, remember, hr]
    cases previous with
    | none => rfl
    | some previous =>
      by_cases hok : previous.status = .ok
      · simp [outcome, hok]
      · simp [outcome, hok]

theorem collectWallets_stored (run : CollectorRun) (s : InMemoryMonitoringRepository) (code : SystemWalletCode) :
    stored (collectWallets run s) code = match run.reading code with
      | some r => remember (stored s code) r
      | none => stored s code := by
  let previousSnapshots := s.getWalletSnapshots ((prioritize run.wallets).map (·.code))
  have hnd : (((prioritize run.wallets).map (collectWallet run previousSnapshots)).map (·.walletCode)).Nodup := by
    rw [List.map_map]
    exact prioritize_nodup run.distinct
  have hget : (collectWallets run s).walletSnapshots.get? code =
      ((((prioritize run.wallets).map (collectWallet run previousSnapshots)).find? fun snapshot =>
        snapshot.walletCode = code) <|> s.walletSnapshots.get? code) := saved_get? hnd s code
  have hfind : (prioritize run.wallets).find? ((fun snapshot : StoredWalletMonitoringSnapshot =>
      decide (snapshot.walletCode = code)) ∘ collectWallet run previousSnapshots) =
        run.wallets.find? fun wallet => wallet.code = code := prioritize_find run.wallets code
  rw [List.find?_map, hfind] at hget
  rw [stored, hget, CollectorRun.reading]
  cases hwallet : run.wallets.find? fun wallet => wallet.code = code with
  | none => rfl
  | some wallet =>
    have hcode : wallet.code = code := by simpa using List.find?_some hwallet
    have hmem : wallet.code ∈ (prioritize run.wallets).map (·.code) := by
      have hfound := prioritize_find run.wallets code
      rw [hwallet] at hfound
      exact List.mem_map_of_mem (List.mem_of_find?_eq_some hfound)
    have houtcome := collectWallet_outcome run previousSnapshots wallet
    rw [previous_eq s hmem, hcode] at houtcome
    exact houtcome

/-! ## sequences of runs -/

/-- the readings of a wallet, in their order -/
def readings (code : SystemWalletCode) (runs : List CollectorRun) : List Reading :=
  runs.filterMap (·.reading code)

theorem collectAll_stored (runs : List CollectorRun) (code : SystemWalletCode) :
    stored (collectAll runs .empty) code = remembered (readings code runs) := by
  induction runs using List.reverseRecOn with
  | nil => rfl
  | append_singleton runs run ih =>
    have hstep : collectAll (runs ++ [run]) .empty = collectWallets run (collectAll runs .empty) := by
      simp [collectAll]
    have hreadings : readings code (runs ++ [run]) = readings code runs ++ (run.reading code).toList := by
      unfold readings
      rw [List.filterMap_append]
      cases hr : run.reading code with
      | none => simp [hr]
      | some r => simp [hr]
    rw [hstep, collectWallets_stored, ih, hreadings]
    cases run.reading code with
    | none => simp
    | some r => exact (remembered_snoc _ r).symm

/-- the stored snapshot has, field by field, the last value that was read -/
def CarriesLastKnown (s : InMemoryMonitoringRepository) (code : SystemWalletCode) (rs : List Reading) : Prop :=
  ∃ snapshot, s.walletSnapshots.get? code = some snapshot ∧ snapshot.balances = known rs

/-- **The last known balance.**  It survives one failed reading, and no second one in a row. -/
theorem last_known_balance (runs : List CollectorRun) (code : SystemWalletCode)
    (h : ∃ r ∈ readings code runs, r.succeeded = true) :
    CarriesLastKnown (collectAll runs .empty) code (readings code runs) ↔ ¬FailedTwice (readings code runs) := by
  rw [← remembered_known h, ← collectAll_stored, stored, Option.map_map]
  unfold CarriesLastKnown
  rw [Option.map_eq_some_iff]
  rfl

/-! ## a wallet that fails twice -/

def cold : SystemWalletDescriptor := ⟨.cold, "TWbuSkkRid1st9gSMy1NhpK1KwJMebHNwh"⟩

/-- a run over the cold wallet -/
def coldRun (r : Reading) : CollectorRun where
  wallets := [cold]
  distinct := List.nodup_singleton _
  reader := fun _ => r
  fetchedAt := fun _ => "2026-03-01T00:00:00.000Z"
  startedAt := "2026-03-01T00:00:00.000Z"
  finishedAt := "2026-03-01T00:00:01.000Z"

def coldBalance : Reading :=
  .read "KORI" "TBJZD8RwQ1JcQvEP9BTbPbgBCGxUjxSXnn" "150" "150000000" 6 "2" "2000000"

def rateLimited : Reading := .failed (some "TBJZD8RwQ1JcQvEP9BTbPbgBCGxUjxSXnn") "Request failed with status code 429"

theorem last_known_balance_example :
    CarriesLastKnown (collectAll [coldRun coldBalance, coldRun rateLimited] .empty) .cold
      [coldBalance, rateLimited] := by
  have hread : ∃ r ∈ readings .cold [coldRun coldBalance, coldRun rateLimited], r.succeeded = true :=
    ⟨coldBalance, List.mem_cons_self, rfl⟩
  refine (last_known_balance _ .cold hread).mpr ?_
  rintro ⟨earlier, r₁, r₂, heq, hfailed, -⟩
  have hlast : [coldBalance] ++ [rateLimited] = (earlier ++ [r₁]) ++ [r₂] := by
    rw [List.append_assoc]
    exact heq
  obtain ⟨hinit, -⟩ := List.append_inj' hlast rfl
  obtain ⟨-, hsame⟩ := List.append_inj' (show [] ++ [coldBalance] = earlier ++ [r₁] from hinit) rfl
  rw [← List.singleton_inj.mp hsame] at hfailed
  cases hfailed

/-- **A balance lost.**  The cold wallet was read once; two refreshes failed, and nothing is left of it. -/
theorem balance_lost :
    (∃ r ∈ readings .cold [coldRun coldBalance, coldRun rateLimited, coldRun rateLimited], r.succeeded = true) ∧
    ¬CarriesLastKnown (collectAll [coldRun coldBalance, coldRun rateLimited, coldRun rateLimited] .empty) .cold
      (readings .cold [coldRun coldBalance, coldRun rateLimited, coldRun rateLimited]) := by
  refine ⟨⟨coldBalance, List.mem_cons_self, rfl⟩, ?_⟩
  rintro ⟨snapshot, hsnapshot, hbalances⟩
  have hlost : ((collectAll [coldRun coldBalance, coldRun rateLimited, coldRun rateLimited]
      .empty).walletSnapshots.get? .cold).map (·.tokenBalance) = some none := by decide +kernel
  rw [hsnapshot] at hlost
  have htoken : snapshot.balances.tokenBalance = none := Option.some.inj hlost
  rw [hbalances] at htoken
  cases htoken

end SystemMonitoringService
