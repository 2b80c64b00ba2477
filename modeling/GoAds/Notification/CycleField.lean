import GoAds.Client.Honest
import GoAds.Notification.Indexed

/-!
# `Notification.CycleField` — the mode and the cycle field of a notification on the wire

The cycle field of a notification request has two meanings.  In the InContext modes the PLC reads it as the
number of a task context, in the others as a cycle time in ticks of 100 ns.  `notificationCycleField` knows
that; `downgradeTransMode`, which the fallback of the sum command applies to its requests, does not.

* `readOff` — the pairs of mode and field in what was sent, each beside the config it was sent for.
* `System`, `step` — the subscribe paths over a connection, with the configs on file and a history of the
  wire: single, batch, re-subscribe.
* `sound_run` — every pair of a run is the one of its config, or that one with the mode downgraded.
* `together_iff` — for which modes, contexts and cycle times the pair belongs together on every path.
-/

namespace GoAds.Notification.CycleField

open Client Indexed LittleEndian List

variable {Name : Type}

/-! ## Modes -/

/-- The mode of a number.  A mode is a number in the source, and eight of them have names. -/
def transModeOf (code : UInt32) : TransMode :=
  if code = 0 then .noTransmission
  else if code = 1 then .clientCycle
  else if code = 2 then .clientOnChange
  else if code = 3 then .serverCycle
  else if code = 4 then .serverOnChange
  else if code = 5 then .serverCycle2
  else if code = 6 then .serverOnChange2
  else if code = 10 then .client1Request
  else .unknown code

theorem transModeCode_transModeOf (code : UInt32) : transModeCode (transModeOf code) = code := by
  unfold transModeOf
  repeat' split
  all_goals
    first
    | next h => exact h.symm
    | rfl

/-- ServerCycle2 and ServerOnChange2. -/
def InContext (code : UInt32) : Prop := code = 5 ∨ code = 6

instance (code : UInt32) : Decidable (InContext code) := inferInstanceAs (Decidable (_ ∨ _))

/-! ## The wire -/

/-- One notification request on the wire: what the caller asked for, the context of the symbol, and the two
    words that were sent. -/
structure WireItem (Name : Type) where
  config : NotificationConfig Name
  contextMask : UInt8
  mode : UInt32
  field : UInt32

/-- **The mode and the field belong together.** -/
def WireItem.Together (item : WireItem Name) : Prop :=
  (InContext item.mode ∧ item.field.toNat = item.contextMask.toNat) ∨
    (¬ InContext item.mode ∧ 0 ≤ item.config.cycleTime ∧
      item.field.toNat = item.config.cycleTime.toNat / 100)

/-- What the caller asked for, and the context of the symbol. -/
abbrev Asked (Name : Type) := NotificationConfig Name × UInt8

/-- The payload of a sum command that adds notifications. -/
def sumPayload (x : Exchange) : Option Bytes :=
  match x.request with
  | .writeRead group _ _ send => if group = groupSumupAddDeviceNotification then some send else none
  | _ => none

/-- The mode and the field of a single Add. -/
def addPair (x : Exchange) : Option (UInt32 × UInt32) :=
  match x.request with
  | .addDeviceNotification _ _ _ mode _ cycleTime => some (transModeCode mode, cycleTime)
  | _ => none

/-- The mode and the field of the item at a position in the payload: forty bytes an item. -/
def payloadPair (send : Bytes) (i : Nat) : UInt32 × UInt32 :=
  (uint32 (send.drop (i * 40 + 12)), uint32 (send.drop (i * 40 + 20)))

def Asked.item (asked : Asked Name) (pair : UInt32 × UInt32) : WireItem Name :=
  { config := asked.1, contextMask := asked.2, mode := pair.1, field := pair.2 }

/-- The requests in what a call has exchanged, beside what they were sent for: the items of a payload and
    the single Adds are in the order of the requests. -/
def readOff (asked : List (Asked Name)) (xs : List Exchange) : List (WireItem Name) :=
  (xs.filterMap sumPayload).flatMap (fun send => asked.mapIdx fun i a => a.item (payloadPair send i)) ++
    asked.zipWith Asked.item (xs.filterMap addPair)

/-! ## The subscribe paths -/

/-- The Add of `AddSymbolNotification`. -/
def addCommand (config : NotificationConfig Name) (symbol : SymbolRef) : Command UInt32 :=
  let field := notificationCycleField config.transmissionMode symbol.contextMask config.cycleTime
  addDeviceNotification groupSymbolValueByHandle symbol.handle symbol.length field.1 config.maxDelay field.2

/-- A config on file for the next re-subscribe.  `asked` is history: the config the caller passed. -/
structure Filed (Name : Type) where
  config : NotificationConfig Name
  asked : NotificationConfig Name

structure System (Name : Type) where
  conn : Conn := {}
  pending : List (Filed Name) := []
  /-- History. -/
  wire : List (WireItem Name) := []

/-- One call.  `net` is the other end while it runs, and `kept` says of the requests which configs are on
    file after it. -/
inductive Op (Name : Type)
  /-- `AddSymbolNotification`. -/
  | add (net : Net) (config : NotificationConfig Name) (symbol : SymbolRef) (kept : Bool)
  /-- `AddSymbolNotifications`, with the configs that resolve. -/
  | addAll (net : Net) (infos : List (NotificationConfig Name × SymbolRef)) (kept : Nat → Bool)
  /-- `resubscribeNotificationsLocked`: those configs on file that still resolve. -/
  | resubscribe (net : Net) (picks : List (Nat × SymbolRef)) (kept : Nat → Bool)
  /-- The configs of deleted subscriptions go. -/
  | drop (kept : Nat → Bool)
  /-- A new client, which knows nothing of the PLC. -/
  | reconnect

def requests (infos : List (Filed Name × SymbolRef)) : List SumNotificationRequest :=
  infos.map fun p => (SymbolInfo.mk 0 p.1.config p.2).request

def askedOf (infos : List (Filed Name × SymbolRef)) : List (Asked Name) :=
  infos.map fun p => (p.1.asked, p.2.contextMask)

/-- The entries at the positions that are kept. -/
def keep {α : Type} (kept : Nat → Bool) (xs : List α) : List α :=
  (xs.zipIdx.filter fun p => kept p.2).map Prod.fst

def System.batch (s : System Name) (net : Net) (infos : List (Filed Name × SymbolRef))
    (pending : List (Filed Name)) : System Name :=
  let c := (sumAddDeviceNotification net s.conn (requests infos)).2
  { conn := c, pending := pending, wire := s.wire ++ readOff (askedOf infos) (exchangesSince s.conn c) }

def step (s : System Name) : Op Name → System Name
  | .add net config symbol kept =>
    let c := (s.conn.send net (addCommand config symbol)).2
    { conn := c
      pending := if kept then s.pending ++ [⟨config, config⟩] else s.pending
      wire := s.wire ++ readOff [(config, symbol.contextMask)] (exchangesSince s.conn c) }
  | .addAll net infos kept =>
    let filed := infos.map fun p => ((⟨p.1, p.1⟩ : Filed Name), p.2)
    s.batch net filed (s.pending ++ keep kept (filed.map Prod.fst))
  | .resubscribe net picks kept =>
    let filed := picks.filterMap fun p => s.pending[p.1]?.map fun f => (f, p.2)
    -- what `commitNotification` files again, and what is put back for the next round
    s.batch net filed (keep kept (filed.map Prod.fst))
  | .drop kept => { s with pending := keep kept s.pending }
  | .reconnect => { s with conn := {} }

def run (ops : List (Op Name)) : System Name := ops.foldl step {}

/-! ## What a call sends -/

section Requests

variable {d : Duration} {name : String} {ticks : UInt32} {q : SumNotificationRequest}
  {qs : List SumNotificationRequest} {data : Bytes} {i k : Nat}

theorem durationToADSTicks_ok (h : durationToADSTicks d name = .ok ticks) :
    0 ≤ d ∧ ticks.toNat = d.toNat / 100 := by
  unfold durationToADSTicks at h
  split at h
  · cases h
  next hneg =>
  dsimp only at h
  split at h
  · cases h
  next hsmall =>
  cases h
  refine ⟨Int.not_lt.1 hneg, ?_⟩
  apply UInt32.toNat_ofNat_of_lt'
  show d.toNat / 100 < 4294967296
  omega

/-- The mode, and the cycle time in ticks. -/
def HasPair (mode : TransMode) (cycleTime : Duration) (pair : UInt32 × UInt32) : Prop :=
  pair.1 = transModeCode mode ∧ 0 ≤ cycleTime ∧ pair.2.toNat = cycleTime.toNat / 100

theorem addDeviceNotification_request {group offset length mode maxDelay cycleTime request}
    (h : (addDeviceNotification group offset length mode maxDelay cycleTime).request = .ok request) :
    ∃ maxDelayTicks cycleTimeTicks,
      request = .addDeviceNotification group offset length mode maxDelayTicks cycleTimeTicks ∧
        HasPair mode cycleTime (transModeCode mode, cycleTimeTicks) := by
  unfold addDeviceNotification at h
  cases hmax : durationToADSTicks maxDelay "maxDelay" with
  | error =>
    rw [hmax] at h
    cases h
  | ok maxDelayTicks =>
    cases hcycle : durationToADSTicks cycleTime "cycleTime" with
    | error =>
      rw [hmax, hcycle] at h
      cases h
    | ok cycleTimeTicks =>
      rw [hmax, hcycle] at h
      exact ⟨maxDelayTicks, cycleTimeTicks, (Except.ok.inj h).symm, rfl, durationToADSTicks_ok hcycle⟩

theorem bytes_eq_ok {b} (h : q.bytes = .ok b) :
    b.length = 40 ∧ ∀ rest, HasPair q.transmissionMode q.cycleTime (payloadPair (b ++ rest) 0) := by
  unfold SumNotificationRequest.bytes at h
  cases hmax : durationToADSTicks q.maxDelay "MaxDelay" with
  | error =>
    rw [hmax] at h
    cases h
  | ok maxDelayTicks =>
    cases hcycle : durationToADSTicks q.cycleTime "CycleTime" with
    | error =>
      rw [hmax, hcycle] at h
      cases h
    | ok cycleTimeTicks =>
      rw [hmax, hcycle] at h
      cases h
      refine ⟨by simp, fun rest => ?_⟩
      -- the mode stands behind three words, the cycle time behind five
      have hwords : ∀ n xs, (putUint32 n ++ xs : Bytes).drop 4 = xs := drop_putUint32_append
      have hmode : payloadPair (putUint32 q.group ++ putUint32 q.offset ++ putUint32 q.length ++
          putUint32 (transModeCode q.transmissionMode) ++ putUint32 maxDelayTicks ++
          putUint32 cycleTimeTicks ++ replicate 16 0 ++ rest) 0 =
          (transModeCode q.transmissionMode, cycleTimeTicks) := by
        simp only [payloadPair, append_assoc, Nat.zero_mul, Nat.zero_add]
        rw [show (12 : Nat) = 4 + (4 + 4) from rfl, show (20 : Nat) = 4 + (4 + (4 + (4 + 4))) from rfl]
        simp only [← drop_drop, hwords, uint32_putUint32_append]
      rw [hmode]
      exact ⟨rfl, durationToADSTicks_ok hcycle⟩

theorem payloadPair_append {b rest} (h : b.length = 40) (k : Nat) :
    payloadPair (b ++ rest) (k + 1) = payloadPair rest k := by
  have hdrop : ∀ n, (b ++ rest).drop ((k + 1) * 40 + n) = rest.drop (k * 40 + n) := by
    intro n
    have hlen : (k + 1) * 40 + n = b.length + (k * 40 + n) := by
      rw [h]
      omega
    rw [hlen, ← drop_drop, drop_left]
  rw [payloadPair, hdrop, hdrop]
  rfl

theorem payloadPair_of_encode (h : encodeItems SumNotificationRequest.bytes i qs = .ok data)
    (hq : qs[k]? = some q) : HasPair q.transmissionMode q.cycleTime (payloadPair data k) := by
  induction qs generalizing i k data with
  | nil => cases hq
  | cons r qs ih =>
    rw [encodeItems] at h
    cases hb : r.bytes with
    | error =>
      rw [hb] at h
      cases h
    | ok =>
      rw [hb] at h
      obtain ⟨hlen, hpair⟩ := bytes_eq_ok hb
      cases hrest : encodeItems SumNotificationRequest.bytes (i + 1) qs with
      | error =>
        simp only [hrest] at h
        cases h
      | ok rest =>
        simp only [hrest] at h
        cases h
        cases k with
        | zero =>
          cases hq
          exact hpair rest
        | succ =>
          rw [payloadPair_append hlen]
          exact ih hrest hq

/-- What the exchanges of a batch are: payloads with the requests, and Adds for the first of them, each with
    the mode downgraded. -/
structure Carries (qs : List SumNotificationRequest) (xs : List Exchange) : Prop where
  sums : ∀ send ∈ xs.filterMap sumPayload, ∀ (k : Nat) (q : SumNotificationRequest), qs[k]? = some q →
    HasPair q.transmissionMode q.cycleTime (payloadPair send k)
  adds : ∀ (k : Nat) pair, (xs.filterMap addPair)[k]? = some pair →
    ∃ q : SumNotificationRequest, qs[k]? = some q ∧
    HasPair (downgradeTransMode q.transmissionMode) q.cycleTime pair

theorem carries_nil (qs : List SumNotificationRequest) : Carries qs [] := by
  refine ⟨?_, ?_⟩
  · intro send hsend
    cases hsend
  · intro k pair hpair
    cases hpair

/-- The loop of the fallback sends the Adds in the order of the requests. -/
theorem fallback_carries (net : Net) (i : Nat) (c : Conn) (qs : List SumNotificationRequest) :
    ∃ xs, (untilFailure net SumNotificationRequest.command notificationResult abandonedNotifications
        (fun _ e => e) i c qs).2.exchanges = c.exchanges ++ xs ∧
      xs.filterMap sumPayload = [] ∧ Carries qs xs := by
  induction qs generalizing i c with
  | nil => exact ⟨[], (append_nil _).symm, rfl, carries_nil _⟩
  | cons q qs ih =>
    rw [untilFailure]
    dsimp only
    rcases q.command_single with ⟨e, hreq, hnone⟩ | ⟨r, hreq, -, -⟩
    · rw [Conn.send_of_error hreq]
      dsimp only
      rw [hnone]
      exact ⟨[], (append_nil _).symm, rfl, carries_nil _⟩
    rw [Conn.send_of_request hreq]
    generalize hx : (⟨r, net c.exchanges r⟩ : Exchange) = x
    obtain ⟨maxDelayTicks, cycleTimeTicks, rfl, hpair⟩ := addDeviceNotification_request hreq
    -- the exchange of this item, and those of the items behind it
    have hcons : ∀ xs : List Exchange, xs.filterMap sumPayload = [] → Carries qs xs →
        Carries (q :: qs) (x :: xs) := by
      intro xs hsums hxs
      subst hx
      refine ⟨?_, ?_⟩
      · intro send hsend
        have hnil : send ∈ xs.filterMap sumPayload := hsend
        rw [hsums] at hnil
        cases hnil
      intro k pair hk
      cases k with
      | zero =>
        cases hk
        exact ⟨q, rfl, hpair⟩
      | succ k => exact hxs.adds k pair hk
    have hsum : ∀ xs : List Exchange, xs.filterMap sumPayload = [] → (x :: xs).filterMap sumPayload = [] := by
      intro xs hsums
      subst hx
      exact hsums
    cases hbody : (net c.exchanges _).payload.bind q.command.decode with
    | ok =>
      obtain ⟨xs, hxs, hsums, hsent⟩ := ih (i + 1) _
      refine ⟨x :: xs, ?_, ?_, hcons xs hsums hsent⟩
      · dsimp only
        rw [hxs, append_assoc]
        rfl
      · exact hsum xs hsums
    | error e =>
      dsimp only
      cases hcode : e.asReturnCode with
      | some =>
        obtain ⟨xs, hxs, hsums, hsent⟩ := ih (i + 1) _
        refine ⟨x :: xs, ?_, ?_, hcons xs hsums hsent⟩
        · dsimp only
          rw [hxs, append_assoc]
          rfl
        · exact hsum xs hsums
      | none => exact ⟨[x], rfl, hsum [] rfl, hcons [] rfl (carries_nil qs)⟩

/-- An exchange of the sum command, before whatever the fallback sends. -/
theorem Carries.cons_sum {xs n readLength reply}
    (hdata : encodeItems SumNotificationRequest.bytes 0 qs = .ok data) (hxs : Carries qs xs) :
    Carries qs (⟨.writeRead groupSumupAddDeviceNotification n readLength data, reply⟩ :: xs) := by
  refine ⟨?_, hxs.adds⟩
  intro send hsend k q hq
  have hmem : send ∈ data :: xs.filterMap sumPayload := hsend
  rcases mem_cons.1 hmem with rfl | hmem
  · exact payloadPair_of_encode hdata hq
  · exact hxs.sums send hmem k q hq

theorem sumAdd_carries (net : Net) (c : Conn) (qs : List SumNotificationRequest) :
    Carries qs (exchangesSince c (sumAddDeviceNotification net c qs).2) := by
  -- it is enough to say what was appended
  suffices h : ∃ xs, (sumAddDeviceNotification net c qs).2.exchanges = c.exchanges ++ xs ∧ Carries qs xs by
    obtain ⟨xs, hxs, hsent⟩ := h
    rw [exchangesSince, hxs, drop_left]
    exact hsent
  have hnone : ∃ xs, c.exchanges = c.exchanges ++ xs ∧ Carries qs xs :=
    ⟨[], (append_nil _).symm, carries_nil qs⟩
  unfold sumAddDeviceNotification executeSumCommand
  dsimp only
  split
  · exact hnone
  split
  · obtain ⟨xs, hxs, -, hsent⟩ := fallback_carries net 0 c qs
    exact ⟨xs, hxs, hsent⟩
  split
  · exact hnone
  split
  · exact hnone
  rw [SumCmdSpec.command]
  cases hdata : encodeItems (sumAddSpec net).encode 0 qs with
  | error => exact hnone
  | ok data =>
    dsimp only [Except.map]
    -- whatever the answer, this exchange was appended
    have hone : ∀ r c', c.send net (writeRead groupSumupAddDeviceNotification (UInt32.ofNat qs.length)
        (UInt32.ofNat (qs.length * (sumAddSpec net).itemReadSize)) data) = (r, c') →
        ∃ n readLength reply, c'.exchanges =
          c.exchanges ++ [⟨.writeRead groupSumupAddDeviceNotification n readLength data, reply⟩] := by
      intro r c' hsend
      exact ⟨_, _, _, congrArg (fun p => p.2.exchanges) hsend.symm⟩
    split
    · next e c' heq =>
      obtain ⟨n, readLength, reply, hc'⟩ := hone _ _ heq
      split
      · obtain ⟨xs, hxs, -, hsent⟩ := fallback_carries net 0 ((sumAddSpec net).cas 2 c') qs
        refine ⟨⟨.writeRead groupSumupAddDeviceNotification n readLength data, reply⟩ :: xs, ?_,
          hsent.cons_sum hdata⟩
        refine Eq.trans hxs ?_
        show c'.exchanges ++ xs = _
        rw [hc', append_assoc]
        rfl
      · exact ⟨_, hc', (carries_nil qs).cons_sum hdata⟩
    · next resp c' heq =>
      obtain ⟨n, readLength, reply, hc'⟩ := hone _ _ heq
      split
      · exact ⟨_, hc', (carries_nil qs).cons_sum hdata⟩
      · exact ⟨_, hc', (carries_nil qs).cons_sum hdata⟩

end Requests

/-! ## Runs -/

/-- What `notificationCycleField` made of what was asked. -/
def WireItem.computed (item : WireItem Name) : TransMode × Duration :=
  notificationCycleField item.config.transmissionMode item.contextMask item.config.cycleTime

/-- The words on the wire are those of the config. -/
def WireItem.Direct (item : WireItem Name) : Prop :=
  HasPair item.computed.1 item.computed.2 (item.mode, item.field)

/-- The words on the wire are those of the config, with the mode downgraded. -/
def WireItem.Downgraded (item : WireItem Name) : Prop :=
  HasPair (downgradeTransMode item.computed.1) item.computed.2 (item.mode, item.field)

section Runs

variable {infos : List (Filed Name × SymbolRef)} {xs : List Exchange} {s : System Name}

theorem readOff_batch (hfiled : ∀ p ∈ infos, p.1.config = p.1.asked) (h : Carries (requests infos) xs) :
    ∀ item ∈ readOff (askedOf infos) xs, item.Direct ∨ item.Downgraded := by
  intro item hitem
  -- the request at a position, with what was asked for there
  have hrequest : ∀ (i : Nat) (a : Asked Name), (askedOf infos)[i]? = some a →
      ∃ q, (requests infos)[i]? = some q ∧
      ∀ pair, (a.item pair).computed = (q.transmissionMode, q.cycleTime) := by
    intro i a ha
    rw [askedOf, getElem?_map, Option.map_eq_some_iff] at ha
    obtain ⟨p, hp, rfl⟩ := ha
    refine ⟨(SymbolInfo.mk 0 p.1.config p.2).request, ?_, ?_⟩
    · rw [requests, getElem?_map, hp]
      rfl
    intro pair
    show notificationCycleField p.1.asked.transmissionMode _ p.1.asked.cycleTime = _
    rw [← hfiled p (mem_of_getElem? hp)]
    rfl
  rcases mem_append.1 hitem with hitem | hitem
  · obtain ⟨send, hsend, hitem⟩ := mem_flatMap.1 hitem
    obtain ⟨i, hi⟩ := mem_iff_getElem?.1 hitem
    rw [getElem?_mapIdx, Option.map_eq_some_iff] at hi
    obtain ⟨a, ha, rfl⟩ := hi
    obtain ⟨q, hq, hpair⟩ := hrequest i a ha
    left
    rw [WireItem.Direct, hpair]
    exact h.sums send hsend i q hq
  obtain ⟨i, hi⟩ := mem_iff_getElem?.1 hitem
  rw [getElem?_zipWith_eq_some] at hi
  obtain ⟨a, pair, ha, hadd, rfl⟩ := hi
  obtain ⟨q, hq, hpair⟩ := hrequest i a ha
  obtain ⟨q', hq', hhas⟩ := h.adds i pair hadd
  cases hq.symm.trans hq'
  right
  rw [WireItem.Downgraded, hpair]
  exact hhas

theorem readOff_add (net : Net) (c : Conn) (config : NotificationConfig Name) (symbol : SymbolRef) :
    ∀ item ∈ readOff [(config, symbol.contextMask)]
      (exchangesSince c (c.send net (addCommand config symbol)).2), item.Direct := by
  intro item hitem
  cases hreq : (addCommand config symbol).request with
  | error =>
    have hsince : exchangesSince c (c.send net (addCommand config symbol)).2 = [] := by
      rw [Conn.send_of_error hreq, exchangesSince, drop_length]
    rw [hsince] at hitem
    cases hitem
  | ok r =>
    have hsince : exchangesSince c (c.send net (addCommand config symbol)).2 = [⟨r, net c.exchanges r⟩] := by
      rw [Conn.send_of_request hreq, exchangesSince, drop_left]
    obtain ⟨maxDelayTicks, cycleTimeTicks, rfl, hpair⟩ := addDeviceNotification_request hreq
    rw [hsince] at hitem
    have heq : item = Asked.item (config, symbol.contextMask) (_, cycleTimeTicks) := mem_singleton.1 hitem
    rw [heq]
    exact hpair

/-- What a run keeps: the configs on file are as the caller passed them, and every item on the wire has the
    words of its config, or those with the mode downgraded. -/
structure System.Sound (s : System Name) : Prop where
  filed : ∀ f ∈ s.pending, f.config = f.asked
  wire : ∀ item ∈ s.wire, item.Direct ∨ item.Downgraded

theorem mem_of_mem_keep {α : Type} {kept : Nat → Bool} {l : List α} {a : α} (h : a ∈ keep kept l) : a ∈ l := by
  obtain ⟨p, hp, rfl⟩ := mem_map.1 h
  exact fst_mem_of_mem_zipIdx (mem_of_mem_filter hp)

theorem System.Sound.batch (hs : s.Sound) (net : Net) {pending}
    (hfiled : ∀ p ∈ infos, p.1.config = p.1.asked) (hpending : ∀ f ∈ pending, f.config = f.asked) :
    (s.batch net infos pending).Sound := by
  refine ⟨hpending, ?_⟩
  intro item hitem
  rcases mem_append.1 hitem with hitem | hitem
  · exact hs.wire item hitem
  · exact readOff_batch hfiled (sumAdd_carries net s.conn (requests infos)) item hitem

theorem System.Sound.step (hs : s.Sound) (op : Op Name) : (step s op).Sound := by
  cases op with
  | add net config symbol kept =>
    refine ⟨?_, ?_⟩
    · intro f hf
      dsimp only [CycleField.step] at hf
      split at hf
      · rcases mem_append.1 hf with hf | hf
        · exact hs.filed f hf
        · rw [mem_singleton.1 hf]
      · exact hs.filed f hf
    intro item hitem
    rcases mem_append.1 hitem with hitem | hitem
    · exact hs.wire item hitem
    · exact .inl (readOff_add net s.conn config symbol item hitem)
  | addAll net infos =>
    have hnew : ∀ p ∈ infos.map fun p => ((⟨p.1, p.1⟩ : Filed Name), p.2), p.1.config = p.1.asked := by
      intro p hp
      obtain ⟨q, -, rfl⟩ := mem_map.1 hp
      rfl
    apply hs.batch net hnew
    intro f hf
    rcases mem_append.1 hf with hf | hf
    · exact hs.filed f hf
    · obtain ⟨p, hp, rfl⟩ := mem_map.1 (mem_of_mem_keep hf)
      exact hnew p hp
  | resubscribe net picks =>
    have hold : ∀ p ∈ picks.filterMap fun p => s.pending[p.1]?.map fun f => (f, p.2),
        p.1.config = p.1.asked := by
      intro p hp
      obtain ⟨q, -, hq⟩ := mem_filterMap.1 hp
      obtain ⟨f, hf, rfl⟩ := Option.map_eq_some_iff.1 hq
      exact hs.filed f (mem_of_getElem? hf)
    apply hs.batch net hold
    intro f hf
    obtain ⟨p, hp, rfl⟩ := mem_map.1 (mem_of_mem_keep hf)
    exact hold p hp
  | drop => exact ⟨fun f hf => hs.filed f (mem_of_mem_keep hf), hs.wire⟩
  | reconnect => exact ⟨hs.filed, hs.wire⟩

/-- **Every item of a run has the words of its config, or those with the mode downgraded.** -/
theorem sound_run (ops : List (Op Name)) : (run ops).Sound := by
  have hfrom : ∀ s : System Name, s.Sound → (ops.foldl step s).Sound := by
    induction ops with
    | nil => exact fun s hs => hs
    | cons op ops ih => exact fun s hs => ih (CycleField.step s op) (hs.step op)
  apply hfrom
  refine ⟨?_, ?_⟩
  · intro f hf
    cases hf
  · intro item hitem
    cases hitem

end Runs

/-! ## The pair on every path -/

/-- **The mode and the field belong together on every path**, for a mode, a context and a cycle time: in
    every run, whatever the PLC answers. -/
def BelongTogether (Name : Type) (code : UInt32) (contextMask : UInt8) (cycleTime : Duration) : Prop :=
  ∀ ops : List (Op Name), ∀ item ∈ (run ops).wire, item.config.transmissionMode = transModeOf code →
    item.contextMask = contextMask → item.config.cycleTime = cycleTime → item.Together

/-- An InContext mode is asked for, the symbol has a context, and its number is not the cycle time in
    ticks by chance. -/
def ContextAsCycle (code : UInt32) (contextMask : UInt8) (cycleTime : Duration) : Prop :=
  InContext code ∧ contextMask ≠ 0 ∧ ¬ (0 ≤ cycleTime ∧ contextMask.toNat = cycleTime.toNat / 100)

section Law

variable {code : UInt32} {contextMask : UInt8} {cycleTime : Duration} {item : WireItem Name}

theorem plain_of_not_inContext (h : ¬ InContext code) (contextMask : UInt8) (cycleTime : Duration) :
    notificationCycleField (transModeOf code) contextMask cycleTime = (transModeOf code, cycleTime) ∧
      downgradeTransMode (transModeOf code) = transModeOf code := by
  have hcode := transModeCode_transModeOf code
  cases hmode : transModeOf code with
  | serverCycle2 =>
    rw [hmode] at hcode
    exact absurd (.inl hcode.symm) h
  | serverOnChange2 =>
    rw [hmode] at hcode
    exact absurd (.inr hcode.symm) h
  | _ => exact ⟨rfl, rfl⟩

section

variable (hmode : item.config.transmissionMode = transModeOf code)

include hmode

theorem computed_of_context (hcode : InContext code)
    (hmask : item.contextMask ≠ 0) :
    item.computed = (transModeOf code, (item.contextMask.toNat : Int) * 100) := by
  rw [WireItem.computed, hmode]
  rcases hcode with rfl | rfl
  · exact if_neg hmask
  · exact if_neg hmask

/-- Otherwise the mode is a plain one, which the downgrade leaves alone, and the field is the cycle time. -/
theorem computed_of_plain (hplain : ¬ (InContext code ∧ item.contextMask ≠ 0)) :
    item.computed.2 = item.config.cycleTime ∧ ¬ InContext (transModeCode item.computed.1) ∧
      downgradeTransMode item.computed.1 = item.computed.1 := by
  rw [WireItem.computed, hmode]
  by_cases hcode : InContext code
  · have hmask : item.contextMask = 0 := by
      by_contra hne
      exact hplain ⟨hcode, hne⟩
    rw [hmask]
    rcases hcode with rfl | rfl
    · refine ⟨rfl, ?_, rfl⟩
      show ¬ InContext 3
      decide
    refine ⟨rfl, ?_, rfl⟩
    show ¬ InContext 4
    decide
  · obtain ⟨hfield, hsame⟩ := plain_of_not_inContext hcode item.contextMask item.config.cycleTime
    rw [hfield]
    refine ⟨rfl, ?_, hsame⟩
    show ¬ InContext (transModeCode (transModeOf code))
    rw [transModeCode_transModeOf]
    exact hcode

theorem together_of_plain
    (hplain : ¬ (InContext code ∧ item.contextMask ≠ 0)) (h : item.Direct) : item.Together := by
  obtain ⟨hfield, hcontext, -⟩ := computed_of_plain hmode hplain
  obtain ⟨hmode', hpos, hticks⟩ := h
  rw [hfield] at hpos hticks
  right
  refine ⟨fun hmem => hcontext ?_, hpos, hticks⟩
  rw [← hmode']
  exact hmem

theorem together_of_sound
    (hok : ¬ ContextAsCycle code item.contextMask item.config.cycleTime) (h : item.Direct ∨ item.Downgraded) :
    item.Together := by
  by_cases hcontext : InContext code ∧ item.contextMask ≠ 0
  · have hcomputed := computed_of_context hmode hcontext.1 hcontext.2
    rcases h with h | h
    · -- the number of the context, in a mode that takes it for one
      rw [WireItem.Direct, hcomputed] at h
      have hcode : item.mode = transModeCode (transModeOf code) := h.1
      have hticks : item.field.toNat = ((item.contextMask.toNat : Int) * 100).toNat / 100 := h.2.2
      left
      refine ⟨?_, ?_⟩
      · rw [hcode, transModeCode_transModeOf]
        exact hcontext.1
      · rw [hticks]
        omega
    · -- the number of the context, in a mode that takes it for a cycle time: it is one by chance
      rw [WireItem.Downgraded, hcomputed] at h
      have hcode : item.mode = transModeCode (downgradeTransMode (transModeOf code)) := h.1
      have hticks : item.field.toNat = ((item.contextMask.toNat : Int) * 100).toNat / 100 := h.2.2
      have hchance : 0 ≤ item.config.cycleTime ∧
          item.contextMask.toNat = item.config.cycleTime.toNat / 100 := by
        by_contra hno
        exact hok ⟨hcontext.1, hcontext.2, hno⟩
      right
      refine ⟨?_, hchance.1, ?_⟩
      · rw [hcode]
        rcases hcontext.1 with rfl | rfl
        · decide
        · decide
      · rw [hticks, ← hchance.2]
        omega
  · rcases h with h | h
    · exact together_of_plain hmode hcontext h
    obtain ⟨-, -, hsame⟩ := computed_of_plain hmode hcontext
    rw [WireItem.Downgraded, hsame] at h
    exact together_of_plain hmode hcontext h

end

/-! ### A PLC without the sum command -/

def notSupported : Reply := .reply 0 (putUint32 ReturnCode.deviceServiceNotSupported ++ putUint32 0)

/-- It answers every request with `DeviceServiceNotSupported`. -/
def oldPlc : Net := fun _ _ => notSupported

theorem ticks_of_context (contextMask : UInt8) (name : String) :
    durationToADSTicks ((contextMask.toNat : Int) * 100) name = .ok (UInt32.ofNat contextMask.toNat) := by
  have hlt := contextMask.toNat_lt
  have hticks : ((contextMask.toNat : Int) * 100).toNat / 100 = contextMask.toNat := by omega
  have hneg : ¬ (contextMask.toNat : Int) * 100 < 0 := by omega
  have hbig : ¬ contextMask.toNat > 4294967295 := by omega
  rw [durationToADSTicks, if_neg hneg]
  simp only [hticks, if_neg hbig]

/-- It refuses the sum command, and then the Add that the fallback sends. -/
theorem oldPlc_exchanges {q b r} (hbytes : q.bytes = .ok b)
    (hreq : q.command.request = .ok r) : exchangesSince {} (sumAddDeviceNotification oldPlc {} [q]).2 =
      [⟨.writeRead groupSumupAddDeviceNotification 1 8 (b ++ []), notSupported⟩, ⟨r, notSupported⟩] := by
  have hencode : encodeItems (sumAddSpec oldPlc).encode 0 [q] = .ok (b ++ []) := by
    show encodeItems SumNotificationRequest.bytes 0 [q] = _
    rw [encodeItems, hbytes]
    rfl
  have hfallback : ∀ c : Conn, ((sumAddSpec oldPlc).fallback c [q]).2.exchanges =
      c.exchanges ++ [⟨r, notSupported⟩] := by
    intro c
    show (untilFailure oldPlc SumNotificationRequest.command notificationResult abandonedNotifications
      (fun _ e => e) 0 c [q]).2.exchanges = _
    rw [untilFailure, Conn.send_of_request hreq]
    rfl
  show (executeSumCommand oldPlc (sumAddSpec oldPlc) {} [q]).2.exchanges = _
  have hexecute : executeSumCommand oldPlc (sumAddSpec oldPlc) {} [q] =
      (sumAddSpec oldPlc).fallback ((sumAddSpec oldPlc).cas 2
        { exchanges := [⟨.writeRead groupSumupAddDeviceNotification 1 8 (b ++ []), notSupported⟩] }) [q] := by
    unfold executeSumCommand
    rw [SumCmdSpec.command, hencode]
    rfl
  rw [hexecute, hfallback]
  rfl

/-- A batch of one config, sent to such a PLC. -/
def oldPlcRun (config : NotificationConfig Name) (symbol : SymbolRef) : List (Op Name) :=
  [.addAll oldPlc [(config, symbol)] fun _ => true]

/-- The Add goes out with the mode downgraded and the number of the context in the cycle field. -/
theorem oldPlc_wire (name : Name) (hcode : InContext code) (hmask : contextMask ≠ 0) (cycleTime : Duration) :
    (⟨⟨name, 0, cycleTime, transModeOf code⟩, contextMask,
      transModeCode (downgradeTransMode (transModeOf code)), UInt32.ofNat contextMask.toNat⟩ : WireItem Name) ∈
      (run (oldPlcRun ⟨name, 0, cycleTime, transModeOf code⟩ ⟨0, 4, contextMask⟩)).wire := by
  have hfield : notificationCycleField (transModeOf code) contextMask cycleTime =
      (transModeOf code, (contextMask.toNat : Int) * 100) := by
    rcases hcode with rfl | rfl
    · exact if_neg hmask
    · exact if_neg hmask
  have hrequest : (SymbolInfo.mk 0 (⟨name, 0, cycleTime, transModeOf code⟩ : NotificationConfig Name)
      ⟨0, 4, contextMask⟩).request = ⟨groupSymbolValueByHandle, 0, 4, transModeOf code, 0,
        (contextMask.toNat : Int) * 100⟩ := by
    simp only [SymbolInfo.request, hfield]
  have hbytes : ∃ b, (⟨groupSymbolValueByHandle, 0, 4, transModeOf code, 0,
      (contextMask.toNat : Int) * 100⟩ : SumNotificationRequest).bytes = .ok b := by
    unfold SumNotificationRequest.bytes
    simp only [ticks_of_context]
    exact ⟨_, rfl⟩
  obtain ⟨b, hbytes⟩ := hbytes
  have hreq : (⟨groupSymbolValueByHandle, 0, 4, transModeOf code, 0,
      (contextMask.toNat : Int) * 100⟩ : SumNotificationRequest).command.request =
      .ok (.addDeviceNotification groupSymbolValueByHandle 0 4 (downgradeTransMode (transModeOf code)) 0
        (UInt32.ofNat contextMask.toNat)) := by
    unfold SumNotificationRequest.command addDeviceNotification
    simp only [ticks_of_context]
    rfl
  have hsince := oldPlc_exchanges hbytes hreq
  rw [← hrequest] at hsince
  apply mem_append.2 (.inr ?_)
  apply mem_append.2 (.inr ?_)
  show _ ∈ zipWith Asked.item _
    ((exchangesSince {} (sumAddDeviceNotification oldPlc {} [_]).2).filterMap addPair)
  rw [hsince]
  exact mem_singleton.2 rfl

/-- **The mode and the field belong together on every path unless the number of a context can be sent as
    a cycle time.** -/
theorem together_iff (name : Name) (code : UInt32) (contextMask : UInt8) (cycleTime : Duration) :
    BelongTogether Name code contextMask cycleTime ↔ ¬ ContextAsCycle code contextMask cycleTime := by
  constructor
  · rintro htogether ⟨hcode, hmask, hchance⟩
    have hitem := htogether _ _ (oldPlc_wire name hcode hmask cycleTime) rfl rfl rfl
    rcases hitem with ⟨hcontext, -⟩ | ⟨-, hpos, hticks⟩
    · rcases hcode with rfl | rfl
      · have hthree : InContext 3 := hcontext
        exact absurd hthree (by decide)
      · have hfour : InContext 4 := hcontext
        exact absurd hfour (by decide)
    apply hchance
    refine ⟨hpos, ?_⟩
    have hlt := contextMask.toNat_lt
    rw [← hticks]
    exact (UInt32.toNat_ofNat_of_lt' (by show contextMask.toNat < 4294967296; omega)).symm
  · intro hok ops item hitem hmode hmask hcycle
    subst hmask hcycle
    exact together_of_sound hmode hok ((sound_run ops).wire item hitem)

/-- OnChangeInContext with a cycle time of 50 ms, for a symbol of task context 3, on a PLC without the sum
    command: the Add asks for plain on-change with a cycle of 3 ticks, 300 ns. -/
theorem context_sent_as_cycle :
    ∃ item ∈ (run (oldPlcRun (⟨(), 0, 50000000, .serverOnChange2⟩ : NotificationConfig Unit) ⟨0, 4, 3⟩)).wire,
      item.mode = transModeCode .serverOnChange ∧ item.field = 3 ∧ ¬ item.Together := by
  refine ⟨_, oldPlc_wire () (.inr rfl) (by decide) 50000000, rfl, rfl, ?_⟩
  rintro (⟨hcontext, -⟩ | ⟨-, -, hticks⟩)
  · exact absurd hcontext (by decide)
  · exact absurd hticks (by decide)

end Law

end GoAds.Notification.CycleField
