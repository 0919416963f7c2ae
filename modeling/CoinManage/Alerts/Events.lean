import CoinManage.Alerts.Service
import CoinManage.Ledger.Contracts
import CoinManage.Lib.FilteredPages

/-!
# Alerts about rows of Foxya

Every cycle reads the next page of each table behind a cursor, sends an alert for every row it gets and moves the
cursor to the last of them.  The page of `internal_transfers` is cut by the query and filtered afterwards.

* `listInternalTransfers`   the query and the filter;
* `processFoxyaEvents`      a cycle without failures;
* `cycle_internal`          a cycle shows a page of what lies behind the cursor, and leaves the rest;
* `alert_cursor`            the cursor never stops before a row to report exactly when fewer than a page of
                            excluded rows stand in a row before one that is not.
-/

namespace ExternalAlertMonitorService
open FilteredPages

/-! ## the source -/

inductive FoxyaAlertTable where
  | internalTransfers
  | externalTransfers
  | tokenDeposits
  | paymentDeposits
  | swaps
  | exchanges
  deriving DecidableEq, Repr

def FoxyaAlertTable.text : FoxyaAlertTable → String
  | .internalTransfers => "internal_transfers"
  | .externalTransfers => "external_transfers"
  | .tokenDeposits => "token_deposits"
  | .paymentDeposits => "payment_deposits"
  | .swaps => "swaps"
  | .exchanges => "exchanges"

structure FoxyaAlertEvent where
  table : FoxyaAlertTable
  id : Nat
  eventId : String
  occurredAt : String
  title : String
  lines : List String
  deriving DecidableEq

/-- a party of a transfer, as the query joins it -/
structure TransferParty where
  id : Option String := none
  loginId : Option String := none
  nickname : Option String := none
  name : Option String := none
  address : Option String := none
  deriving DecidableEq

/-- A row of `internal_transfers` with the columns the query joins to it, their values as JavaScript prints
them.  The ids are below 2^53: `Number` keeps them. -/
structure InternalTransferRow where
  id : Nat
  transferId : String
  sender : TransferParty := {}
  receiver : TransferParty := {}
  currencyCode : Option String := none
  currencyName : Option String := none
  currencyChain : Option String := none
  amount : Option String := none
  fee : Option String := none
  status : Option String := none
  transferType : Option String := none
  transactionType : Option String := none
  memo : Option String := none
  requestIp : Option String := none
  orderNumber : Option String := none
  createdAt : String
  deletedAt : Option String := none
  deriving DecidableEq

/-- the table, in the order of its ids -/
structure InternalTransfers where
  rows : List InternalTransferRow
  increasing : rows.Pairwise fun row row' => row.id < row'.id

section
variable (rt : Runtime)

/-- `normalize` of the filters -/
def normalize (value : String) : String := rt.toUpperCase (jsTrim value)

def internalTransferExcludedTypes : List String := ["REFERRAL_REWARD"]

def shouldExcludeFoxyaInternalTransferAlert (transferType transactionType : Option String) : Bool :=
  let candidates := ([transferType, transactionType].filterMap id).filter fun value => 0 < jsLength (jsTrim value)
  (candidates.map (normalize rt)).any fun value => value ∈ internalTransferExcludedTypes.map (normalize rt)

def formatUser (party : TransferParty) : String :=
  let parts := ([party.loginId, party.nickname, party.name].filterMap id).filter fun item => 0 < jsLength (jsTrim item)
  (if parts = [] then "unknown" else " / ".intercalate parts) ++ " [" ++ orElse party.id "-" ++ "]"

/-- `pushLine`: no line for an absent or empty value -/
def line (label : String) (value : Option String) : Option String :=
  match value with
  | none => none
  | some value => if value = "" then none else some (label ++ "=" ++ value)

def internalTransferEvent (row : InternalTransferRow) : FoxyaAlertEvent where
  table := .internalTransfers
  id := row.id
  eventId := row.transferId
  occurredAt := row.createdAt
  title := jsTrim ("[FOXYA] Internal Transfer " ++ orElse row.status "")
  lines :=
    [line "transferId" (some row.transferId), line "status" row.status, line "transferType" row.transferType,
      line "transactionType" row.transactionType,
      line "currency" (some (" / ".intercalate
        (([row.currencyCode, row.currencyName, row.currencyChain].filterMap id).filter (· ≠ "")))),
      line "amount" row.amount, line "fee" row.fee, line "sender" (some (formatUser row.sender)),
      line "senderWallet" row.sender.address, line "receiver" (some (formatUser row.receiver)),
      line "receiverWallet" row.receiver.address, line "orderNumber" row.orderNumber, line "memo" row.memo,
      line "requestIp" row.requestIp, line "createdAt" (some row.createdAt)].filterMap id

/-- a row that the filter does not drop -/
def reported (row : InternalTransferRow) : Bool :=
  !shouldExcludeFoxyaInternalTransferAlert rt row.transferType row.transactionType

/-- `where deleted_at is null and id > afterId order by id` -/
def InternalTransfers.after (table : InternalTransfers) (afterId : Nat) : List InternalTransferRow :=
  table.rows.filter fun row => row.deletedAt = none ∧ afterId < row.id

def listInternalTransfers (table : InternalTransfers) (afterId limit : Nat) : List FoxyaAlertEvent :=
  (((table.after afterId).take limit).filter (reported rt)).map internalTransferEvent

/-! ## a cycle -/

structure AlertCursorState where
  monitorKey : FoxyaAlertTable
  lastSeenId : Nat
  updatedAt : String
  deriving DecidableEq

/-- the cursors of the state repository, and the alert service -/
structure EventMonitor where
  cursors : OrderedMap FoxyaAlertTable AlertCursorState
  alerts : AlertService

/-- the clock of a cycle, and what the queries of the other tables come back with -/
structure EventCycle where
  now : String
  nowMs : ℤ
  maxId : FoxyaAlertTable → Nat
  others : FoxyaAlertTable → Nat → Nat → List FoxyaAlertEvent
  tagged : ∀ table afterId limit, ∀ event ∈ others table afterId limit, event.table = table

def listNewEvents (internalTransfers : InternalTransfers) (cycle : EventCycle) (table : FoxyaAlertTable)
    (afterId limit : Nat) : List FoxyaAlertEvent :=
  match table with
  | .internalTransfers => listInternalTransfers rt internalTransfers afterId limit
  | table => cycle.others table afterId limit

def FoxyaAlertEvent.input (event : FoxyaAlertEvent) : SendInput :=
  AlertService.externalEvent event.title event.lines (event.table.text ++ ":" ++ event.eventId)

def sendFoxyaEventAlert (nowMs : ℤ) (a : AlertService) (event : FoxyaAlertEvent) : AlertService :=
  AlertService.notifyExternalEvent nowMs event.title event.lines (event.table.text ++ ":" ++ event.eventId) a

/-- what a cycle counts -/
structure EventCount where
  initialized : Nat
  alertedEvents : Nat
  deriving DecidableEq

def processTable (internalTransfers : InternalTransfers) (eventLimit : Nat) (cycle : EventCycle)
    (acc : EventCount × EventMonitor) (table : FoxyaAlertTable) : EventCount × EventMonitor :=
  match acc.2.cursors.get? table with
  | none =>
    ({ acc.1 with initialized := acc.1.initialized + 1 },
      { acc.2 with cursors := acc.2.cursors.set table ⟨table, cycle.maxId table, cycle.now⟩ })
  | some cursor =>
    let events := listNewEvents rt internalTransfers cycle table cursor.lastSeenId eventLimit
    match events.getLast? with
    | none => acc
    | some last =>
      ({ acc.1 with alertedEvents := acc.1.alertedEvents + events.length },
        { cursors := acc.2.cursors.set table ⟨table, last.id, cycle.now⟩
          alerts := events.foldl (sendFoxyaEventAlert cycle.nowMs) acc.2.alerts })

def processFoxyaEvents (tables : List FoxyaAlertTable) (internalTransfers : InternalTransfers) (eventLimit : Nat)
    (cycle : EventCycle) (m : EventMonitor) : EventCount × EventMonitor :=
  tables.foldl (processTable rt internalTransfers eventLimit cycle) (⟨0, 0⟩, m)

def runCycles (tables : List FoxyaAlertTable) (internalTransfers : InternalTransfers) (eventLimit : Nat)
    (cycles : List EventCycle) (m : EventMonitor) : EventMonitor :=
  cycles.foldl (fun m cycle => (processFoxyaEvents rt tables internalTransfers eventLimit cycle m).2) m

end

/-! ## keys -/

/-- the key under which the alert service remembers an event -/
def eventKey (table : FoxyaAlertTable) (eventId : String) : String :=
  "external-event:" ++ (table.text ++ ":" ++ eventId)

theorem text_colon (table : FoxyaAlertTable) : ∀ c ∈ table.text.toList, decide (c ≠ ':') = true := by
  apply List.all_eq_true.mp
  cases table <;> decide +kernel

theorem tableText_injective {table table' : FoxyaAlertTable} (h : table.text = table'.text) : table = table' := by
  cases table <;> cases table' <;> first | rfl | exact absurd h (by decide +kernel)

theorem eventKey_injective {table table' : FoxyaAlertTable} {eventId eventId' : String}
    (h : eventKey table eventId = eventKey table' eventId') : table = table' ∧ eventId = eventId' := by
  have hlist := congrArg String.toList h
  unfold eventKey at hlist
  simp only [String.toList_append, List.append_cancel_left_eq] at hlist
  have hcolon : ":".toList = [':'] := by decide +kernel
  rw [hcolon, List.append_assoc, List.append_assoc, List.singleton_append, List.singleton_append] at hlist
  have hstop : ∀ (t : FoxyaAlertTable) (rest : List Char),
      (t.text.toList ++ ':' :: rest).takeWhile (· ≠ ':') = t.text.toList := by
    intro t rest
    rw [List.takeWhile_append_of_pos (text_colon t)]
    simp
  have htable : table = table' := by
    apply tableText_injective
    apply String.toList_injective
    rw [← hstop table eventId.toList, hlist, hstop]
  subst htable
  have hrest := List.append_cancel_left hlist
  exact ⟨rfl, String.toList_injective (List.cons.inj hrest).2⟩

theorem event_key (event : FoxyaAlertEvent) : event.input.dedupeKey = some (eventKey event.table event.eventId) := by
  unfold eventKey
  rfl

theorem event_cooldown (event : FoxyaAlertEvent) : event.input.cooldownSec = none := rfl

def FoxyaAlertEvent.message (event : FoxyaAlertEvent) : AlertMessage := event.input.toAlertMessage

/-- the text the alert service compares -/
def FoxyaAlertEvent.text (event : FoxyaAlertEvent) : String := AlertService.signature event.message

/-! ## alerts one after the other -/

/-- the text of the last of some events with an id -/
def lastText (sent : List FoxyaAlertEvent) (eventId : String) : Option String :=
  (sent.reverse.find? fun event => event.eventId = eventId).map (·.text)

/-- what is delivered of some events after others were sent -/
def deliveries (sent : List FoxyaAlertEvent) : List FoxyaAlertEvent → List AlertMessage
  | [] => []
  | event :: events =>
    (if lastText sent event.eventId = some event.text then [] else [event.message]) ++
      deliveries (sent ++ [event]) events

/-- no event has the text of the last one before it with its id -/
def NoRepeats (sent events : List FoxyaAlertEvent) : Prop :=
  ∀ before event after, events = before ++ event :: after → lastText (sent ++ before) event.eventId ≠ some event.text

theorem lastText_append (sent : List FoxyaAlertEvent) (event : FoxyaAlertEvent) (eventId : String) :
    lastText (sent ++ [event]) eventId = if event.eventId = eventId then some event.text else lastText sent eventId := by
  unfold lastText
  rw [List.reverse_append, List.reverse_singleton, List.singleton_append]
  by_cases h : event.eventId = eventId
  · rw [List.find?_cons_of_pos (by simpa using h), if_pos h]
    rfl
  · rw [List.find?_cons_of_neg (by simpa using h), if_neg h]

theorem deliveries_append (sent events events' : List FoxyaAlertEvent) :
    deliveries sent (events ++ events') = deliveries sent events ++ deliveries (sent ++ events) events' := by
  induction events generalizing sent with
  | nil => simp [deliveries]
  | cons event events ih =>
    rw [List.cons_append, deliveries, deliveries, ih, List.append_assoc, List.append_assoc]
    rfl

theorem deliveries_length (sent events : List FoxyaAlertEvent) : (deliveries sent events).length ≤ events.length := by
  induction events generalizing sent with
  | nil => exact le_refl _
  | cons event events ih =>
    have hrest := ih (sent ++ [event])
    rw [deliveries, List.length_append, List.length_cons]
    split
    · rw [List.length_nil]
      omega
    · rw [List.length_singleton]
      omega

theorem noRepeats_cons (sent events : List FoxyaAlertEvent) (event : FoxyaAlertEvent) :
    NoRepeats sent (event :: events) ↔
      lastText sent event.eventId ≠ some event.text ∧ NoRepeats (sent ++ [event]) events := by
  constructor
  · intro h
    constructor
    · have hfirst := h [] event events rfl
      rwa [List.append_nil] at hfirst
    · intro before other after heq
      have hother := h (event :: before) other after (by rw [heq, List.cons_append])
      rwa [show sent ++ event :: before = sent ++ [event] ++ before by simp] at hother
  · rintro ⟨hfirst, hrest⟩ before other after heq
    cases before with
    | nil =>
      obtain ⟨rfl, rfl⟩ := List.cons.inj heq
      rw [List.append_nil]
      exact hfirst
    | cons b before =>
      obtain ⟨rfl, rfl⟩ := List.cons.inj heq
      have hother := hrest before other after rfl
      rwa [show sent ++ event :: before = sent ++ [event] ++ before by simp]

/-- every event is delivered exactly when none repeats another -/
theorem deliveries_eq_iff (sent events : List FoxyaAlertEvent) :
    deliveries sent events = events.map (·.message) ↔ NoRepeats sent events := by
  induction events generalizing sent with
  | nil => exact ⟨fun _ before event after h => by simp at h, fun _ => rfl⟩
  | cons event events ih =>
    rw [noRepeats_cons, ← ih, deliveries, List.map_cons]
    by_cases hsame : lastText sent event.eventId = some event.text
    · rw [if_pos hsame, List.nil_append]
      constructor
      · intro heq
        have hlength := deliveries_length (sent ++ [event]) events
        rw [heq, List.length_cons, List.length_map] at hlength
        omega
      · rintro ⟨hnot, -⟩
        exact absurd hsame hnot
    · rw [if_neg hsame, List.singleton_append, List.cons.injEq]
      simp only [true_and, hsame, ne_eq, not_false_eq_true]

/-- the alert service remembers these events of the table, and no others -/
def Remembers (a : AlertService) (sent : List FoxyaAlertEvent) : Prop :=
  ∀ eventId, a.lastText (eventKey .internalTransfers eventId) = lastText sent eventId

theorem Remembers.send {a : AlertService} {sent : List FoxyaAlertEvent} (h : Remembers a sent) (nowMs : ℤ)
    {event : FoxyaAlertEvent} (htable : event.table = .internalTransfers) :
    Remembers (sendFoxyaEventAlert nowMs a event) (sent ++ [event]) ∧
    (sendFoxyaEventAlert nowMs a event).delivered =
      a.delivered ++ if lastText sent event.eventId = some event.text then [] else [event.message] := by
  have hkey := event_key event
  rw [htable] at hkey
  have hsend : sendFoxyaEventAlert nowMs a event = AlertService.send nowMs event.input a := rfl
  rw [hsend]
  constructor
  · intro eventId
    rw [lastText_append]
    by_cases hid : event.eventId = eventId
    · subst hid
      rw [if_pos rfl]
      exact AlertService.send_memory a hkey (event_cooldown event)
    · rw [if_neg hid, AlertService.send_other a hkey fun he => hid (eventKey_injective he).2]
      exact h eventId
  · rw [AlertService.send_delivered a hkey (event_cooldown event), h event.eventId]
    rfl

theorem Remembers.sendAll {a : AlertService} {sent : List FoxyaAlertEvent} (h : Remembers a sent) (nowMs : ℤ)
    {events : List FoxyaAlertEvent} (htable : ∀ event ∈ events, event.table = .internalTransfers) :
    Remembers (events.foldl (sendFoxyaEventAlert nowMs) a) (sent ++ events) ∧
    (events.foldl (sendFoxyaEventAlert nowMs) a).delivered = a.delivered ++ deliveries sent events := by
  induction events generalizing a sent with
  | nil => simpa [deliveries] using h
  | cons event events ih =>
    obtain ⟨hone, hdelivered⟩ := h.send nowMs (htable event List.mem_cons_self)
    obtain ⟨hrest, hall⟩ := ih hone fun e he => htable e (List.mem_cons_of_mem _ he)
    rw [List.foldl_cons]
    constructor
    · rwa [List.append_assoc, List.singleton_append] at hrest
    · rw [hall, hdelivered, deliveries, List.append_assoc]

/-! ## what a cycle does to the table's cursor -/

section
variable (rt : Runtime) (table : InternalTransfers) (limit : Nat)

def EventMonitor.cursor (m : EventMonitor) : Option Nat :=
  (m.cursors.get? .internalTransfers).map (·.lastSeenId)

/-- the alerts about rows of the table -/
def InternalTransfers.messages (messages : List AlertMessage) : List AlertMessage :=
  messages.filter fun message =>
    table.rows.any fun row => message.dedupeKey = some (eventKey .internalTransfers row.transferId)

def InternalTransferRow.message (row : InternalTransferRow) : AlertMessage := (internalTransferEvent row).message

/-- the monitor stands before these rows, and remembers these events of the table -/
structure Follows (m : EventMonitor) (c : Nat) (items : List InternalTransferRow) (sent : List FoxyaAlertEvent) :
    Prop where
  cursor : m.cursor = some c
  rows : table.after c = items
  memory : Remembers m.alerts sent

/-- `n` pages of the table take the monitor from one state to the other -/
def Advances (n : Nat) (m m' : EventMonitor) : Prop :=
  ∀ ⦃c items sent⦄, Follows table m c items sent →
    ∃ c', Follows table m' c' ((leftover (reported rt) limit)^[n] items)
        (sent ++ (shownBy (reported rt) limit n items).map internalTransferEvent) ∧
      c ≤ c' ∧ (c' = c ↔ shownBy (reported rt) limit n items = []) ∧
      table.messages m'.alerts.delivered = table.messages m.alerts.delivered ++
        deliveries sent ((shownBy (reported rt) limit n items).map internalTransferEvent)

variable {rt table limit}

theorem messages_append (l l' : List AlertMessage) : table.messages (l ++ l') = table.messages l ++ table.messages l' :=
  List.filter_append _ _

theorem Advances.refl (m : EventMonitor) : Advances rt table limit 0 m m := by
  intro c items sent hfollows
  refine ⟨c, ?_, le_refl c, by simp [shownBy], ?_⟩
  · simpa [shownBy] using hfollows
  · simp [shownBy, deliveries]

theorem Advances.trans {n k : Nat} {m m' m'' : EventMonitor} (h : Advances rt table limit n m m')
    (h' : Advances rt table limit k m' m'') : Advances rt table limit (n + k) m m'' := by
  intro c items sent hfollows
  obtain ⟨c', hfollows', hle, hsame, hmessages⟩ := h hfollows
  obtain ⟨c'', hfollows'', hle', hsame', hmessages'⟩ := h' hfollows'
  refine ⟨c'', ?_, by omega, ?_, ?_⟩
  · rwa [shownBy_add, List.map_append, ← List.append_assoc, Nat.add_comm n k, Function.iterate_add_apply]
  · rw [shownBy_add, List.append_eq_nil_iff, ← hsame, ← hsame']
    omega
  · rw [hmessages', hmessages, List.append_assoc, shownBy_add, List.map_append, deliveries_append]

/-- what an event of the table says is an alert about one of its rows -/
theorem deliveries_messages {rows : List InternalTransferRow} (hrows : ∀ row ∈ rows, row ∈ table.rows)
    (sent : List FoxyaAlertEvent) :
    table.messages (deliveries sent (rows.map internalTransferEvent)) =
      deliveries sent (rows.map internalTransferEvent) := by
  induction rows generalizing sent with
  | nil => rfl
  | cons row rows ih =>
    have hown : table.messages [(internalTransferEvent row).message] = [(internalTransferEvent row).message] := by
      apply List.filter_eq_self.mpr
      intro message hmessage
      rw [List.mem_singleton.mp hmessage, List.any_eq_true]
      refine ⟨row, hrows row List.mem_cons_self, ?_⟩
      have hkey := event_key (internalTransferEvent row)
      exact decide_eq_true hkey
    have hrest := ih (fun r hr => hrows r (List.mem_cons_of_mem _ hr)) (sent ++ [internalTransferEvent row])
    rw [List.map_cons, deliveries, messages_append, hrest]
    congr 1
    split
    · rfl
    · exact hown

/-- the rows behind the last one that a page shows are what the page leaves -/
theorem after_last (c : Nat) {row : InternalTransferRow}
    (hlast : (shown (reported rt) limit (table.after c)).getLast? = some row) :
    table.after row.id = leftover (reported rt) limit (table.after c) ∧ c < row.id := by
  have hmem : row ∈ table.after c :=
    List.mem_of_mem_take (List.mem_filter.mp (List.mem_of_getLast? hlast)).1
  have hbehind : c < row.id := by
    have hrow := (List.mem_filter.mp hmem).2
    exact (of_decide_eq_true hrow).2
  refine ⟨?_, hbehind⟩
  unfold shown at hlast
  rcases @reach_cases _ (reported rt) ((table.after c).take limit) with
    ⟨hnone, -⟩ | ⟨before, a, rest, hpage, ha, hrest, hreach⟩
  · rw [hnone] at hlast
    cases hlast
  · have hsame : a = row := by
      have hnone : rest.filter (reported rt) = [] := List.filter_eq_nil_iff.mpr (by simpa using hrest)
      rw [hpage, List.filter_append, List.filter_cons_of_pos ha, hnone, List.getLast?_append,
        List.getLast?_singleton, Option.some_or] at hlast
      exact Option.some.inj hlast
    subst hsame
    have hitems : table.after c = before ++ [a] ++ (rest ++ (table.after c).drop limit) := by
      conv_lhs => rw [← List.take_append_drop limit (table.after c), hpage]
      simp
    have hdrop : leftover (reported rt) limit (table.after c) = rest ++ (table.after c).drop limit := by
      rw [leftover, hreach]
      conv_lhs => rw [hitems]
      rw [List.drop_left' (by simp)]
    have hsorted : (table.after c).Pairwise fun row row' => row.id < row'.id :=
      table.increasing.sublist List.filter_sublist
    have hsplit : table.after a.id = (table.after c).filter fun row => a.id < row.id := by
      unfold InternalTransfers.after
      rw [List.filter_filter]
      apply List.filter_congr
      intro r _
      rw [← Bool.decide_and, decide_eq_decide]
      constructor
      · rintro ⟨hlive, hlarger⟩
        exact ⟨hlarger, hlive, by omega⟩
      · rintro ⟨hlarger, hlive, -⟩
        exact ⟨hlive, hlarger⟩
    rw [hdrop, hsplit]
    rw [hitems, List.pairwise_append, List.pairwise_append] at hsorted
    obtain ⟨⟨-, -, hbefore⟩, -, hafter⟩ := hsorted
    conv_lhs => rw [hitems]
    rw [List.filter_append, List.filter_append, List.filter_eq_nil_iff.mpr, List.filter_eq_nil_iff.mpr,
      List.filter_eq_self.mpr]
    · rfl
    · intro r hr
      exact decide_eq_true (hafter a (by simp) r hr)
    · intro r hr
      rw [List.mem_singleton.mp hr]
      simp
    · intro r hr
      have hless := hbefore r hr a (by simp)
      have hnot : ¬ a.id < r.id := by omega
      simpa using hnot

/-- a table without events changes nothing -/
theorem processTable_empty {cycle : EventCycle} {acc : EventCount × EventMonitor} {t : FoxyaAlertTable}
    {cursor : AlertCursorState} (hcursor : acc.2.cursors.get? t = some cursor)
    (hevents : listNewEvents rt table cycle t cursor.lastSeenId limit = []) :
    processTable rt table limit cycle acc t = acc := by
  unfold processTable
  rw [hcursor]
  simp only [hevents, List.getLast?_nil]

/-- a table with events: they are sent, and the cursor moves to the last one -/
theorem processTable_events {cycle : EventCycle} {acc : EventCount × EventMonitor} {t : FoxyaAlertTable}
    {cursor : AlertCursorState} {events : List FoxyaAlertEvent} {last : FoxyaAlertEvent}
    (hcursor : acc.2.cursors.get? t = some cursor)
    (hevents : listNewEvents rt table cycle t cursor.lastSeenId limit = events)
    (hlast : events.getLast? = some last) :
    (processTable rt table limit cycle acc t).2 =
      { cursors := acc.2.cursors.set t ⟨t, last.id, cycle.now⟩
        alerts := events.foldl (sendFoxyaEventAlert cycle.nowMs) acc.2.alerts } := by
  unfold processTable
  rw [hcursor]
  simp only [hevents, hlast]

/-- the table itself: a page is shown -/
theorem table_internal (cycle : EventCycle) (acc : EventCount × EventMonitor) :
    Advances rt table limit 1 acc.2 (processTable rt table limit cycle acc .internalTransfers).2 := by
  intro c items sent hfollows
  obtain ⟨cursor, hcursor, hc⟩ := Option.map_eq_some_iff.mp hfollows.cursor
  have hitems := hfollows.rows
  subst hc hitems
  have hevents : listNewEvents rt table cycle .internalTransfers cursor.lastSeenId limit =
      (shown (reported rt) limit (table.after cursor.lastSeenId)).map internalTransferEvent := rfl
  have hpage : shownBy (reported rt) limit 1 (table.after cursor.lastSeenId) =
      shown (reported rt) limit (table.after cursor.lastSeenId) := by simp [shownBy]
  have hleft : (leftover (reported rt) limit)^[1] (table.after cursor.lastSeenId) =
      leftover (reported rt) limit (table.after cursor.lastSeenId) := rfl
  rw [hpage, hleft]
  cases hlast : (shown (reported rt) limit (table.after cursor.lastSeenId)).getLast? with
  | none =>
    have hnone := List.getLast?_eq_none_iff.mp hlast
    rw [hnone] at hevents ⊢
    rw [processTable_empty hcursor hevents, leftover_of_shown_nil hnone]
    refine ⟨cursor.lastSeenId, ?_, le_refl _, by simp, ?_⟩
    · simpa using hfollows
    · simp [deliveries]
  | some row =>
    obtain ⟨hafter, hless⟩ := after_last cursor.lastSeenId hlast
    have hlastEvent : ((shown (reported rt) limit (table.after cursor.lastSeenId)).map internalTransferEvent).getLast? =
        some (internalTransferEvent row) := by rw [List.getLast?_map, hlast]; rfl
    have htables : ∀ event ∈ (shown (reported rt) limit (table.after cursor.lastSeenId)).map internalTransferEvent,
        event.table = .internalTransfers := by
      intro event he
      obtain ⟨r, -, rfl⟩ := List.mem_map.mp he
      rfl
    obtain ⟨hmemory, hdelivered⟩ := hfollows.memory.sendAll cycle.nowMs htables
    rw [processTable_events hcursor hevents hlastEvent]
    refine ⟨row.id, ⟨?_, hafter, hmemory⟩, by omega, ?_, ?_⟩
    · unfold EventMonitor.cursor
      rw [OrderedMap.get?_set_self]
      rfl
    · constructor
      · intro heq
        omega
      · intro hnone
        rw [hnone] at hlast
        cases hlast
    · dsimp only
      rw [hdelivered, messages_append, deliveries_messages]
      intro r hr
      have hmem : r ∈ table.after cursor.lastSeenId := List.mem_of_mem_take (List.mem_filter.mp hr).1
      exact (List.mem_filter.mp hmem).1

/-- the alerts of another table touch neither the memory of this one nor its alerts -/
theorem others_send {t : FoxyaAlertTable} (ht : t ≠ .internalTransfers) (nowMs : ℤ) {events : List FoxyaAlertEvent}
    (hevents : ∀ event ∈ events, event.table = t) (a : AlertService) :
    (∀ eventId, (events.foldl (sendFoxyaEventAlert nowMs) a).lastText (eventKey .internalTransfers eventId) =
        a.lastText (eventKey .internalTransfers eventId)) ∧
      table.messages (events.foldl (sendFoxyaEventAlert nowMs) a).delivered = table.messages a.delivered := by
  induction events generalizing a with
  | nil => exact ⟨fun _ => rfl, rfl⟩
  | cons event events ih =>
    obtain ⟨hmemory, hmessages⟩ := ih (fun e he => hevents e (List.mem_cons_of_mem _ he))
      (sendFoxyaEventAlert nowMs a event)
    have hown : event.table = t := hevents event List.mem_cons_self
    have hkey := event_key event
    have hother : ∀ eventId, eventKey event.table event.eventId ≠ eventKey .internalTransfers eventId := by
      intro eventId he
      rw [hown] at he
      exact ht (eventKey_injective he).1
    have hsend : sendFoxyaEventAlert nowMs a event = AlertService.send nowMs event.input a := rfl
    rw [List.foldl_cons]
    constructor
    · intro eventId
      rw [hmemory, hsend, AlertService.send_other a hkey (hother eventId)]
    · rw [hmessages, hsend, AlertService.send_delivered a hkey (event_cooldown event), messages_append]
      have hnone : table.messages [event.message] = [] := by
        apply List.filter_eq_nil_iff.mpr
        intro message hmessage hany
        rw [List.mem_singleton.mp hmessage, List.any_eq_true] at hany
        obtain ⟨row, -, hrow⟩ := hany
        have hsame : some (eventKey event.table event.eventId) = some (eventKey .internalTransfers row.transferId) := by
          rw [← hkey]
          exact of_decide_eq_true hrow
        exact hother row.transferId (Option.some.inj hsame)
      split
      · simp [InternalTransfers.messages]
      · show _ ++ table.messages [event.message] = _
        rw [hnone, List.append_nil]

/-- another table: nothing of this one changes -/
theorem table_other (cycle : EventCycle) (acc : EventCount × EventMonitor) {t : FoxyaAlertTable}
    (ht : t ≠ .internalTransfers) :
    Advances rt table limit 0 acc.2 (processTable rt table limit cycle acc t).2 := by
  -- the cursor of the table and the alerts about it stay
  have hkept : ∀ {m : EventMonitor}, m.cursor = acc.2.cursor →
      (∀ eventId, m.alerts.lastText (eventKey .internalTransfers eventId) =
        acc.2.alerts.lastText (eventKey .internalTransfers eventId)) →
      table.messages m.alerts.delivered = table.messages acc.2.alerts.delivered →
      Advances rt table limit 0 acc.2 m := by
    intro m hcursor hmemory hmessages c items sent hfollows
    refine ⟨c, ⟨?_, hfollows.rows, ?_⟩, le_refl c, by simp [shownBy], ?_⟩
    · rw [hcursor, hfollows.cursor]
    · intro eventId
      rw [hmemory, hfollows.memory]
      simp [shownBy]
    · rw [hmessages]
      simp [shownBy, deliveries]
  have hset : ∀ s : AlertCursorState,
      ((acc.2.cursors.set t s).get? .internalTransfers).map (·.lastSeenId) = acc.2.cursor := by
    intro s
    rw [OrderedMap.get?_set_of_ne _ ht]
    rfl
  cases hcursor : acc.2.cursors.get? t with
  | none =>
    have hstep : (processTable rt table limit cycle acc t).2 =
        { acc.2 with cursors := acc.2.cursors.set t ⟨t, cycle.maxId t, cycle.now⟩ } := by
      unfold processTable
      rw [hcursor]
    rw [hstep]
    exact hkept (hset _) (fun _ => rfl) rfl
  | some cursor =>
    cases hlast : (listNewEvents rt table cycle t cursor.lastSeenId limit).getLast? with
    | none =>
      rw [processTable_empty hcursor (List.getLast?_eq_none_iff.mp hlast)]
      exact Advances.refl _
    | some last =>
      have htagged : ∀ event ∈ listNewEvents rt table cycle t cursor.lastSeenId limit, event.table = t := by
        cases t with
        | internalTransfers => exact absurd rfl ht
        | externalTransfers => exact cycle.tagged _ _ _
        | tokenDeposits => exact cycle.tagged _ _ _
        | paymentDeposits => exact cycle.tagged _ _ _
        | swaps => exact cycle.tagged _ _ _
        | exchanges => exact cycle.tagged _ _ _
      obtain ⟨hmemory, hmessages⟩ := @others_send table _ ht cycle.nowMs _ htagged acc.2.alerts
      rw [processTable_events hcursor rfl hlast]
      exact hkept (hset _) hmemory hmessages

/-- a cycle shows a page for every time it meets the table -/
theorem cycle_advances (tables : List FoxyaAlertTable) (cycle : EventCycle) (m : EventMonitor) :
    Advances rt table limit (tables.count .internalTransfers) m
      (processFoxyaEvents rt tables table limit cycle m).2 := by
  unfold processFoxyaEvents
  generalize (⟨0, 0⟩ : EventCount) = count
  suffices h : ∀ acc : EventCount × EventMonitor, Advances rt table limit (tables.count .internalTransfers) acc.2
      (tables.foldl (processTable rt table limit cycle) acc).2 from h (count, m)
  intro acc
  induction tables generalizing acc with
  | nil => exact Advances.refl _
  | cons t tables ih =>
    have hrest := ih (processTable rt table limit cycle acc t)
    rw [List.foldl_cons]
    by_cases ht : t = .internalTransfers
    · subst ht
      rw [List.count_cons_self, Nat.add_comm]
      exact (table_internal cycle acc).trans hrest
    · rw [List.count_cons_of_ne ht, ← Nat.zero_add (List.count _ _)]
      exact (table_other cycle acc ht).trans hrest

theorem runCycles_advances (tables : List FoxyaAlertTable) (cycles : List EventCycle) (m : EventMonitor) :
    Advances rt table limit (cycles.length * tables.count .internalTransfers) m
      (runCycles rt tables table limit cycles m) := by
  induction cycles generalizing m with
  | nil =>
    rw [List.length_nil, Nat.zero_mul]
    exact Advances.refl m
  | cons cycle cycles ih =>
    rw [List.length_cons, Nat.add_mul, Nat.one_mul, Nat.add_comm]
    exact (cycle_advances tables cycle m).trans (ih _)

end

/-! ## every row once -/

/-- what the monitor promises about the rows behind its cursor -/
structure AlertsEveryRow (rt : Runtime) (tables : List FoxyaAlertTable) (table : InternalTransfers) (limit : Nat)
    (m : EventMonitor) (c₀ : Nat) : Prop where
  /-- a row to report makes the next cycle move the cursor -/
  moves : ∀ cycles cycle c, (runCycles rt tables table limit cycles m).cursor = some c →
    (∃ row ∈ table.after c, reported rt row = true) →
    (runCycles rt tables table limit (cycles ++ [cycle]) m).cursor ≠ some c
  /-- the rows to report are reported once, in their order -/
  alerts : ∃ N, ∀ cycles : List EventCycle, N ≤ cycles.length →
    table.messages (runCycles rt tables table limit cycles m).alerts.delivered =
      table.messages m.alerts.delivered ++ ((table.after c₀).filter (reported rt)).map (·.message)
  /-- a page without a row to report is not read for ever -/
  rereads : ∀ cycles c, (runCycles rt tables table limit cycles m).cursor = some c →
    (table.after c).take limit ≠ [] → (∀ row ∈ (table.after c).take limit, reported rt row = false) →
    ∃ more c', (runCycles rt tables table limit (cycles ++ more) m).cursor = some c' ∧
      (table.after c').take limit ≠ (table.after c).take limit

section
variable {rt : Runtime} {tables : List FoxyaAlertTable} {table : InternalTransfers} {limit : Nat} {m : EventMonitor}
  {c₀ : Nat}

/-- the state after some cycles, from a monitor that remembers nothing of the table -/
theorem runCycles_follows (hcursor : m.cursor = some c₀) (hmemory : Remembers m.alerts []) (cycles : List EventCycle) :
    ∃ c, Follows table (runCycles rt tables table limit cycles m) c
        ((leftover (reported rt) limit)^[cycles.length * tables.count .internalTransfers] (table.after c₀))
        ((shownBy (reported rt) limit (cycles.length * tables.count .internalTransfers)
          (table.after c₀)).map internalTransferEvent) ∧
      table.messages (runCycles rt tables table limit cycles m).alerts.delivered =
        table.messages m.alerts.delivered ++ deliveries [] ((shownBy (reported rt) limit
          (cycles.length * tables.count .internalTransfers) (table.after c₀)).map internalTransferEvent) := by
  have hrun : Advances rt table limit _ m (runCycles rt tables table limit cycles m) :=
    runCycles_advances tables cycles m
  obtain ⟨c, hfollows, -, -, hmessages⟩ := hrun ⟨hcursor, rfl, hmemory⟩
  exact ⟨c, hfollows, hmessages⟩

/-- one more cycle leaves the cursor exactly when its page shows nothing -/
theorem cursor_stays_iff (hcount : 1 ≤ tables.count .internalTransfers) (cycles : List EventCycle) (cycle : EventCycle)
    {c : Nat} {items : List InternalTransferRow} {sent : List FoxyaAlertEvent}
    (hfollows : Follows table (runCycles rt tables table limit cycles m) c items sent) :
    (runCycles rt tables table limit (cycles ++ [cycle]) m).cursor = some c ↔
      shown (reported rt) limit items = [] := by
  have hone : runCycles rt tables table limit (cycles ++ [cycle]) m =
      (processFoxyaEvents rt tables table limit cycle (runCycles rt tables table limit cycles m)).2 := by
    unfold runCycles
    rw [List.foldl_append, List.foldl_cons, List.foldl_nil]
  obtain ⟨c', hfollows', -, hsame, -⟩ := cycle_advances tables cycle _ hfollows
  rw [hone, hfollows'.cursor, Option.some.injEq, hsame, shownBy_eq_nil_iff hcount]

theorem after_unique {c : Nat} {items : List InternalTransferRow} {sent : List FoxyaAlertEvent} {m : EventMonitor}
    (hfollows : Follows table m c items sent) {c' : Nat} (hcursor : m.cursor = some c') :
    c' = c ∧ table.after c' = items := by
  rw [hfollows.cursor] at hcursor
  obtain rfl := Option.some.inj hcursor
  exact ⟨rfl, hfollows.rows⟩

theorem reported_iff (items : List InternalTransferRow) :
    (∃ row ∈ items, reported rt row = true) ↔ items.filter (reported rt) ≠ [] := by
  rw [ne_eq, List.filter_eq_nil_iff]
  simp only [Bool.not_eq_true, not_forall, Bool.not_eq_false, exists_prop]

/-- a cycle in which the other tables have nothing new -/
def quietCycle : EventCycle := ⟨"", 0, fun _ => 0, fun _ _ _ => [], fun _ _ _ _ h => absurd h List.not_mem_nil⟩

theorem moves_iff (hcursor : m.cursor = some c₀) (hmemory : Remembers m.alerts [])
    (hcount : 1 ≤ tables.count .internalTransfers) :
    (∀ cycles cycle c, (runCycles rt tables table limit cycles m).cursor = some c →
      (∃ row ∈ table.after c, reported rt row = true) →
      (runCycles rt tables table limit (cycles ++ [cycle]) m).cursor ≠ some c) ↔
    Progress (reported rt) limit (table.after c₀) := by
  rw [progress_iff_every hcount]
  constructor
  · intro hmoves k hkept hstuck
    obtain ⟨c, hfollows, -⟩ := @runCycles_follows rt tables table limit m c₀ hcursor hmemory (List.replicate k quietCycle)
    rw [List.length_replicate] at hfollows
    have hrow : ∃ row ∈ table.after c, reported rt row = true := by
      rw [reported_iff, hfollows.rows]
      exact hkept
    have hstays := (cursor_stays_iff hcount _ quietCycle hfollows).mpr hstuck
    exact hmoves _ quietCycle c hfollows.cursor hrow hstays
  · intro hprogress cycles cycle c hc hrow hstays
    obtain ⟨c', hfollows, -⟩ := @runCycles_follows rt tables table limit m c₀ hcursor hmemory cycles
    obtain ⟨rfl, hrows⟩ := after_unique hfollows hc
    rw [reported_iff, hrows] at hrow
    exact hprogress cycles.length hrow ((cursor_stays_iff hcount cycles cycle hfollows).mp hstays)

/-- with progress, the rows are reported once exactly when none repeats another -/
theorem alerts_iff (hcursor : m.cursor = some c₀) (hmemory : Remembers m.alerts [])
    (hcount : 1 ≤ tables.count .internalTransfers) (hprogress : Progress (reported rt) limit (table.after c₀)) :
    (∃ N, ∀ cycles : List EventCycle, N ≤ cycles.length →
      table.messages (runCycles rt tables table limit cycles m).alerts.delivered =
        table.messages m.alerts.delivered ++ ((table.after c₀).filter (reported rt)).map (·.message)) ↔
    NoRepeats [] (((table.after c₀).filter (reported rt)).map internalTransferEvent) := by
  have hmessages : ∀ cycles : List EventCycle, ((table.after c₀).filter (reported rt)).length ≤ cycles.length →
      table.messages (runCycles rt tables table limit cycles m).alerts.delivered =
        table.messages m.alerts.delivered ++
          deliveries [] (((table.after c₀).filter (reported rt)).map internalTransferEvent) := by
    intro cycles hlength
    obtain ⟨c, -, hdelivered⟩ := @runCycles_follows rt tables table limit m c₀ hcursor hmemory cycles
    have hle : cycles.length ≤ cycles.length * tables.count .internalTransfers :=
      Nat.le_mul_of_pos_right _ (by omega)
    rw [hdelivered, hprogress.shows (le_trans hlength hle)]
  have hmap : ((table.after c₀).filter (reported rt)).map (·.message) =
      (((table.after c₀).filter (reported rt)).map internalTransferEvent).map (·.message) := by
    rw [List.map_map]
    rfl
  rw [hmap, ← deliveries_eq_iff]
  constructor
  · rintro ⟨N, hall⟩
    have hone := hall (List.replicate (max N ((table.after c₀).filter (reported rt)).length) quietCycle) (by simp)
    rw [hmessages _ (by simp)] at hone
    exact List.append_cancel_left hone
  · intro heq
    refine ⟨((table.after c₀).filter (reported rt)).length, fun cycles hlength => ?_⟩
    rw [hmessages cycles hlength, heq]

/-- with progress, no page is read for ever exactly when no excluded row stands at the end -/
theorem rereads_iff (hlimit : 1 ≤ limit) (hcursor : m.cursor = some c₀) (hmemory : Remembers m.alerts [])
    (hcount : 1 ≤ tables.count .internalTransfers) (hprogress : Progress (reported rt) limit (table.after c₀)) :
    (∀ cycles c, (runCycles rt tables table limit cycles m).cursor = some c →
      (table.after c).take limit ≠ [] → (∀ row ∈ (table.after c).take limit, reported rt row = false) →
      ∃ more c', (runCycles rt tables table limit (cycles ++ more) m).cursor = some c' ∧
        (table.after c').take limit ≠ (table.after c).take limit) ↔
    ∀ row, (table.after c₀).getLast? = some row → reported rt row = true := by
  have hnone : ∀ items : List InternalTransferRow, (∀ row ∈ items.take limit, reported rt row = false) ↔
      shown (reported rt) limit items = [] := by
    intro items
    rw [shown, List.filter_eq_nil_iff]
    simp only [Bool.not_eq_true]
  constructor
  · intro hrereads
    set k := ((table.after c₀).filter (reported rt)).length with hk
    have hle : k ≤ k * tables.count .internalTransfers := Nat.le_mul_of_pos_right _ (by omega)
    have hkept := hprogress.nothing_left (le_trans (le_of_eq hk.symm) hle)
    rw [← leftover_nil_iff hkept]
    obtain ⟨c, hfollows, -⟩ := @runCycles_follows rt tables table limit m c₀ hcursor hmemory (List.replicate k quietCycle)
    rw [List.length_replicate] at hfollows
    have hshown : shown (reported rt) limit
        ((leftover (reported rt) limit)^[k * tables.count .internalTransfers] (table.after c₀)) = [] :=
      List.filter_eq_nil_iff.mpr fun row hrow => List.filter_eq_nil_iff.mp hkept row (List.mem_of_mem_take hrow)
    by_contra hrest
    rw [← hfollows.rows] at hrest hshown
    have hpage : (table.after c).take limit ≠ [] := by
      intro hempty
      rcases List.take_eq_nil_iff.mp hempty with hzero | hempty
      · omega
      · exact hrest hempty
    obtain ⟨more, c', hc', hdiffers⟩ := hrereads _ c hfollows.cursor hpage ((hnone _).mpr hshown)
    -- the cursor is where it was
    have hmore : Advances rt table limit _ _ (runCycles rt tables table limit more
      (runCycles rt tables table limit (List.replicate k quietCycle) m)) := runCycles_advances tables more _
    obtain ⟨c'', hfollows'', -⟩ := hmore ⟨hfollows.cursor, rfl, hfollows.memory⟩
    rw [(shownBy_of_shown_nil hshown _).1] at hfollows''
    have hrun : runCycles rt tables table limit (List.replicate k quietCycle ++ more) m =
        runCycles rt tables table limit more (runCycles rt tables table limit (List.replicate k quietCycle) m) := by
      unfold runCycles
      rw [List.foldl_append]
    rw [hrun] at hc'
    obtain ⟨-, hsame⟩ := after_unique hfollows'' hc'
    exact hdiffers (by rw [hsame])
  · intro hlast cycles c hc hpage hexcluded
    exfalso
    obtain ⟨c', hfollows, -⟩ := @runCycles_follows rt tables table limit m c₀ hcursor hmemory cycles
    obtain ⟨rfl, hrows⟩ := after_unique hfollows hc
    have hshown := (hnone _).mp hexcluded
    rw [hrows] at hshown hpage
    have hkept : ((leftover (reported rt) limit)^[cycles.length * tables.count .internalTransfers]
        (table.after c₀)).filter (reported rt) = [] := by
      by_contra hsome
      exact hprogress _ hsome hshown
    rw [(leftover_nil_iff hkept).mpr hlast, List.take_nil] at hpage
    exact hpage rfl

end

/-- The monitor reports every row behind its cursor once, and never stands still before one, exactly when fewer than
a page of excluded rows stand in a row before one that is not, none stands at the end, and no row says what the last
one before it with its transfer id said. -/
theorem alert_cursor (rt : Runtime) (tables : List FoxyaAlertTable) (table : InternalTransfers) (limit : Nat)
    (m : EventMonitor) (c₀ : Nat) (hlimit : 1 ≤ limit) (htable : .internalTransfers ∈ tables)
    (hcursor : m.cursor = some c₀) (hmemory : Remembers m.alerts []) :
    AlertsEveryRow rt tables table limit m c₀ ↔
      ShortGaps (reported rt) limit (table.after c₀) ∧
      (∀ row, (table.after c₀).getLast? = some row → reported rt row = true) ∧
      NoRepeats [] (((table.after c₀).filter (reported rt)).map internalTransferEvent) := by
  have hcount : 1 ≤ tables.count .internalTransfers := List.count_pos_iff.mpr htable
  rw [← progress_iff]
  constructor
  · intro h
    have hprogress := (moves_iff hcursor hmemory hcount).mp h.moves
    exact ⟨hprogress, (rereads_iff hlimit hcursor hmemory hcount hprogress).mp h.rereads,
      (alerts_iff hcursor hmemory hcount hprogress).mp h.alerts⟩
  · rintro ⟨hprogress, hlast, hrepeats⟩
    exact ⟨(moves_iff hcursor hmemory hcount).mpr hprogress,
      (alerts_iff hcursor hmemory hcount hprogress).mpr hrepeats,
      (rereads_iff hlimit hcursor hmemory hcount hprogress).mpr hlast⟩

/-- a referral reward, and a transfer behind it -/
def rewardThenTransfer : InternalTransfers where
  rows := [{ id := 1, transferId := "reward-1", transferType := some "REFERRAL_REWARD", createdAt := "2026-03-01" },
    { id := 2, transferId := "transfer-1", createdAt := "2026-03-01" }]
  increasing := by decide

/-- a monitor that has a cursor and has sent nothing -/
def freshMonitor (lastSeenId : Nat) : EventMonitor where
  cursors := OrderedMap.empty.set .internalTransfers ⟨.internalTransfers, lastSeenId, ""⟩
  alerts := AlertService.new

theorem freshMonitor_cursor (lastSeenId : Nat) : (freshMonitor lastSeenId).cursor = some lastSeenId := by
  unfold freshMonitor EventMonitor.cursor
  rw [OrderedMap.get?_set_self]
  rfl

theorem freshMonitor_memory (lastSeenId : Nat) : Remembers (freshMonitor lastSeenId).alerts [] := fun _ => rfl

theorem alert_cursor_example :
    AlertsEveryRow Runtime.numbered [.internalTransfers] rewardThenTransfer 2 (freshMonitor 0) 0 ↔
      ShortGaps (reported Runtime.numbered) 2 (rewardThenTransfer.after 0) ∧
      (∀ row, (rewardThenTransfer.after 0).getLast? = some row → reported Runtime.numbered row = true) ∧
      NoRepeats [] (((rewardThenTransfer.after 0).filter (reported Runtime.numbered)).map internalTransferEvent) :=
  alert_cursor Runtime.numbered [.internalTransfers] rewardThenTransfer 2 (freshMonitor 0) 0 (by omega) (by simp)
    (freshMonitor_cursor 0) (freshMonitor_memory 0)

/-- With pages of one row the cursor stays before the reward, and the transfer is never reported. -/
theorem stuck_cursor :
    ¬ AlertsEveryRow Runtime.numbered [.internalTransfers] rewardThenTransfer 1 (freshMonitor 0) 0 := by
  intro h
  have hmoved := h.moves [] quietCycle 0 (freshMonitor_cursor 0)
    ⟨{ id := 2, transferId := "transfer-1", createdAt := "2026-03-01" }, by decide +kernel, by decide +kernel⟩
  exact hmoved (by decide +kernel)

end ExternalAlertMonitorService
