import GoAds.Client.Rpc

/-!
# `Client.Sum` — the batched commands and their fallbacks

`SumRead`, `SumWrite`, `SumAddDeviceNotification` and `SumDeleteDeviceNotification`: one `WriteRead` with
every item in its payload, or one command per item where the PLC does not know the sum command.  Two
of the four fallbacks stop at the first failure that is no verdict of the PLC; the other two do not.
-/

namespace GoAds.Client

open LittleEndian Notification

def groupSumupWrite : UInt32 := 0xF081
def groupSumupReadEx : UInt32 := 0xF083
def groupSumupReadEx2 : UInt32 := 0xF084
def groupSumupAddDeviceNotification : UInt32 := 0xF085
def groupSumupDeleteDeviceNotification : UInt32 := 0xF086

/-- `math.MaxUint32`. -/
def maxUint32 : Nat := 4294967295

/-- `%X`. -/
def hex (x : UInt32) : String := (String.ofList (Nat.toDigits 16 x.toNat)).toUpper

/-- What a sum command returns: the results and the call's error. -/
structure Outcome (Res : Type) where
  results : List Res
  err : Option Err
  deriving DecidableEq, Repr

variable {Req Res α : Type} (net : Net)

/-! ## One command per item -/

/-- The loop of `sumReadFallback` and `sumWriteFallback`: every request is sent, whatever became of
    those before it. -/
def individually (cmd : Req → Command α) (result : Except Err α → Res) : Conn → List Req → List Res × Conn
  | c, [] => ([], c)
  | c, q :: qs =>
    let r := c.send net (cmd q)
    let rest := individually cmd result r.2 qs
    (result r.1 :: rest.1, rest.2)

/-- The loop of `sumAddNotificationFallback` and `sumDeleteNotificationFallback`: the first failure that
    is no verdict of the PLC ends it. -/
def untilFailure (cmd : Req → Command α) (result : Except ReturnCode α → Res)
    (abandoned : List Req → List Res) (error : Nat → Err → Err) : Nat → Conn → List Req → Outcome Res × Conn
  | _, c, [] => (⟨[], none⟩, c)
  | i, c, q :: qs =>
    let r := c.send net (cmd q)
    match r.1 with
    | .ok a =>
      let rest := untilFailure cmd result abandoned error (i + 1) r.2 qs
      (⟨result (.ok a) :: rest.1.results, rest.1.err⟩, rest.2)
    | .error e =>
      match e.asReturnCode with
      | some rc =>
        let rest := untilFailure cmd result abandoned error (i + 1) r.2 qs
        (⟨result (.error rc) :: rest.1.results, rest.1.err⟩, rest.2)
      -- the link, not the PLC: nothing is known of this item and those behind it
      | none => (⟨abandoned (q :: qs), some (error i e)⟩, r.2)

/-! ## `SumRead` -/

structure SumReadRequest where
  group : UInt32
  offset : UInt32
  length : UInt32

structure SumReadResult where
  error : ReturnCode := ReturnCode.noErrors
  data : Bytes := []
  deriving DecidableEq, Repr

/-- What `sumReadFallback` makes of one `Read`. -/
def SumReadResult.ofRead : Except Err Bytes → SumReadResult
  | .ok data => { data := data }
  | .error e => { error := e.asReturnCode.getD ReturnCode.deviceError }

variable (c : Conn)

def sumReadFallback (requests : List SumReadRequest) : Outcome SumReadResult × Conn :=
  let r := individually net (fun q => read q.group q.offset q.length) SumReadResult.ofRead c requests
  (⟨r.1, none⟩, r.2)

/-- An item of a response that no longer lines up. -/
def SumReadResult.lostItem : SumReadResult := { error := ReturnCode.deviceInvalidSize }

/-- The second loop of `parseSumReadResponse`, from item `i` on, whose data starts at `dataOffset`. -/
def sumReadItems (resp : Bytes) : Nat → Nat → List SumReadRequest → List SumReadResult
  | _, _, [] => []
  | i, dataOffset, q :: qs =>
    let error := uint32 (resp.drop (i * 8))
    let length := uint32 (resp.drop (i * 8 + 4))
    let remaining := UInt32.ofNat (resp.length - dataOffset)
    if error ≠ ReturnCode.noErrors then
      -- a failed item may still declare bytes, which are skipped
      if length > remaining then (q :: qs).map fun _ => .lostItem
      else { error := error } :: sumReadItems resp (i + 1) (dataOffset + length.toNat) qs
    -- short or long, the items behind can no longer be located
    else if length < q.length then (q :: qs).map fun _ => .lostItem
    else if length > q.length then (q :: qs).map fun _ => .lostItem
    else if length > remaining then (q :: qs).map fun _ => .lostItem
    else
      { data := (resp.drop dataOffset).take length.toNat } ::
        sumReadItems resp (i + 1) (dataOffset + length.toNat) qs

def parseSumReadResponse (resp : Bytes) (requests : List SumReadRequest) : Outcome SumReadResult :=
  let n := requests.length
  if resp.length < n * 8 then
    ⟨[], some (.text ("SumRead response too short: got " ++ toString resp.length ++
      " bytes, expected at least " ++ toString (n * 8)))⟩
  else ⟨sumReadItems resp 0 (n * 8) requests, none⟩

/-- The twelve bytes of a request in the payload. -/
def SumReadRequest.bytes (q : SumReadRequest) : Bytes :=
  putUint32 q.group ++ putUint32 q.offset ++ putUint32 q.length

def sumReadCommand (group : UInt32) (readLen : UInt32) (requests : List SumReadRequest) : Command Bytes :=
  writeRead group (UInt32.ofNat requests.length) readLen (requests.flatMap SumReadRequest.bytes)

def Conn.storeSumReadCmd (cmd : UInt32) : Conn :=
  { c with capabilities := { c.capabilities with sumReadCmd := cmd } }

def sumReadExec (group readLen : UInt32) (requests : List SumReadRequest) : Outcome SumReadResult × Conn :=
  match c.send net (sumReadCommand group readLen requests) with
  | (.error e, c') => (⟨[], some (.wrap "SumRead failed" e)⟩, c')
  | (.ok resp, c') => (parseSumReadResponse resp requests, c')

def sumReadProbe (readLen : UInt32) (requests : List SumReadRequest) : Outcome SumReadResult × Conn :=
  match c.send net (sumReadCommand groupSumupReadEx2 readLen requests) with
  | (.ok resp, c₁) => (parseSumReadResponse resp requests, c₁.storeSumReadCmd groupSumupReadEx2)
  | (.error e, c₁) =>
    if !isSumCommandUnsupportedError e then (⟨[], some (.wrap "SumRead failed" e)⟩, c₁)
    else
      match c₁.send net (sumReadCommand groupSumupReadEx readLen requests) with
      | (.ok resp, c₂) => (parseSumReadResponse resp requests, c₂.storeSumReadCmd groupSumupReadEx)
      | (.error e, c₂) =>
        if !isSumCommandUnsupportedError e then (⟨[], some (.wrap "SumRead failed" e)⟩, c₂)
        -- 1 stands for no sum read at all
        else sumReadFallback net (c₂.storeSumReadCmd 1) requests

/-- The size of a response in which every item has the length it was asked for. -/
def sumReadTotal (requests : List SumReadRequest) : Nat :=
  requests.length * 8 + (requests.map (·.length.toNat)).sum

def sumRead (requests : List SumReadRequest) : Outcome SumReadResult × Conn :=
  let cmd := c.capabilities.sumReadCmd
  let total := sumReadTotal requests
  if requests.isEmpty then (⟨[], none⟩, c)
  -- the fallback sends no sum request, so the guard on the total comes after it
  else if cmd = 1 then sumReadFallback net c requests
  else if total > maxUint32 then
    (⟨[], some (.text ("SumRead total response size " ++ toString total ++
      " exceeds uint32 max"))⟩, c)
  else if cmd ≠ 0 then sumReadExec net c cmd (UInt32.ofNat total) requests
  else sumReadProbe net c (UInt32.ofNat total) requests

/-! ## `SumWrite` -/

structure SumWriteRequest where
  group : UInt32
  offset : UInt32
  data : Bytes

structure SumWriteResult where
  error : ReturnCode := ReturnCode.noErrors

/-- What `sumWriteFallback` makes of one `Write`. -/
def SumWriteResult.ofWrite : Except Err Unit → SumWriteResult
  | .ok _ => {}
  | .error e => { error := e.asReturnCode.getD ReturnCode.deviceError }

variable (requests : List SumWriteRequest)

def sumWriteFallback : Outcome SumWriteResult × Conn :=
  let r := individually net (fun q => write q.group q.offset q.data) SumWriteResult.ofWrite c requests
  (⟨r.1, none⟩, r.2)

def SumWriteRequest.header (q : SumWriteRequest) : Bytes :=
  putUint32 q.group ++ putUint32 q.offset ++ putUint32 (UInt32.ofNat q.data.length)

/-- The `WriteRead` of a sum write: the headers, then the data. -/
def sumWriteCommand : Command Bytes :=
  writeRead groupSumupWrite (UInt32.ofNat requests.length) (UInt32.ofNat (requests.length * 4))
    (requests.flatMap SumWriteRequest.header ++ requests.flatMap (·.data))

/-- `CompareAndSwap(0, new)` on a state. -/
def casState (new state : UInt32) : UInt32 := if state = 0 then new else state

def Conn.casSumWrite (new : UInt32) : Conn :=
  { c with
    capabilities :=
      { c.capabilities with sumWriteState := casState new c.capabilities.sumWriteState } }

/-- The word at position `i` of a response of `size`-byte items. -/
def itemWord (size : Nat) (resp : Bytes) (i : Nat) : UInt32 := uint32 (resp.drop (i * size))

def sumWrite : Outcome SumWriteResult × Conn :=
  let n := requests.length
  if requests.isEmpty then (⟨[], none⟩, c)
  else if c.capabilities.sumWriteState = 2 then sumWriteFallback net c requests
  else
    match c.send net (sumWriteCommand requests) with
    | (.error e, c') =>
      -- only a refusal of the command itself is remembered
      if isSumCommandUnsupportedError e then sumWriteFallback net (c'.casSumWrite 2) requests
      else (⟨[], some (.wrap "SumWrite failed" e)⟩, c')
    | (.ok resp, c') =>
      if resp.length < n * 4 then
        (⟨[], some (.text ("SumWrite response too short: got " ++ toString resp.length ++
          " bytes, expected " ++ toString (n * 4)))⟩, c'.casSumWrite 1)
      else (⟨(List.range n).map fun i => ⟨itemWord 4 resp i⟩, none⟩, c'.casSumWrite 1)

/-! ## `executeSumCommand` -/

/-- `sumCmdSpec`: what one of the two notification commands is made of.  `cas` is the
    `CompareAndSwap(0, _)` of its state. -/
structure SumCmdSpec (Req Res : Type) where
  state : Capabilities → UInt32
  cas : UInt32 → Conn → Conn
  group : UInt32
  itemWriteSize : Nat
  itemReadSize : Nat
  encode : Req → Except Err Bytes
  decode : Bytes → Nat → List Res
  fallback : Conn → List Req → Outcome Res × Conn

/-- The encode loop, from item `i` on. -/
def encodeItems (encode : Req → Except Err Bytes) : Nat → List Req → Except Err Bytes
  | _, [] => .ok []
  | i, q :: qs =>
    match encode q with
    | .error e => .error (.wrap ("encode item " ++ toString i) e)
    | .ok bytes => (encodeItems encode (i + 1) qs).map (bytes ++ ·)

variable (spec : SumCmdSpec Req Res)

/-- The `WriteRead` of a sum command, unless an item has no encoding. -/
def SumCmdSpec.command (requests : List Req) : Except Err (Command Bytes) :=
  let n := requests.length
  (encodeItems spec.encode 0 requests).map fun writeData =>
    writeRead spec.group (UInt32.ofNat n) (UInt32.ofNat (n * spec.itemReadSize)) writeData

/-- The error of `executeSumCommand` for sizes that do not fit. -/
def SumCmdSpec.overflow (kind : String) (n size : Nat) : Err :=
  .text ("sum command (group 0x" ++ hex spec.group ++ ") " ++ kind ++ " size overflow: " ++
    toString n ++ " items × " ++ toString size ++ " bytes")

def executeSumCommand (c : Conn) (requests : List Req) : Outcome Res × Conn :=
  let n := requests.length
  if requests.isEmpty then (⟨[], none⟩, c)
  else if spec.state c.capabilities = 2 then spec.fallback c requests
  else if n * spec.itemReadSize > maxUint32 then
    (⟨[], some (spec.overflow "response" n spec.itemReadSize)⟩, c)
  else if n * spec.itemWriteSize > maxUint32 then
    (⟨[], some (spec.overflow "request" n spec.itemWriteSize)⟩, c)
  else
    match spec.command requests with
    -- an item without an encoding fails the call before anything is sent
    | .error e => (⟨[], some e⟩, c)
    | .ok command =>
      match c.send net command with
      | (.error e, c') =>
        if isSumCommandUnsupportedError e then spec.fallback (spec.cas 2 c') requests
        else (⟨[], some (.wrap ("sum command (group 0x" ++ hex spec.group ++ ") failed") e)⟩, c')
      | (.ok resp, c') =>
        if resp.length < n * spec.itemReadSize then
          (⟨[], some (.text ("sum command (group 0x" ++ hex spec.group ++
            ") response too short: got " ++ toString resp.length ++ ", expected at least " ++
            toString (n * spec.itemReadSize)))⟩, spec.cas 1 c')
        else (⟨spec.decode resp n, none⟩, spec.cas 1 c')

/-! ## `SumAddDeviceNotification` -/

structure SumNotificationRequest where
  group : UInt32
  offset : UInt32
  length : UInt32
  transmissionMode : TransMode
  maxDelay : Duration
  cycleTime : Duration

/-- The number of a mode on the wire. -/
def transModeCode : TransMode → UInt32
  | .noTransmission => 0
  | .clientCycle => 1
  | .clientOnChange => 2
  | .serverCycle => 3
  | .serverOnChange => 4
  | .serverCycle2 => 5
  | .serverOnChange2 => 6
  | .client1Request => 10
  | .unknown code => code

def downgradeTransMode : TransMode → TransMode
  | .serverOnChange2 => .serverOnChange
  | .serverCycle2 => .serverCycle
  | mode => mode

/-- The forty bytes of a request in the payload; the last sixteen are reserved. -/
def SumNotificationRequest.bytes (q : SumNotificationRequest) : Except Err Bytes := do
  let maxDelayTicks ← durationToADSTicks q.maxDelay "MaxDelay"
  let cycleTimeTicks ← durationToADSTicks q.cycleTime "CycleTime"
  return putUint32 q.group ++ putUint32 q.offset ++ putUint32 q.length ++
    putUint32 (transModeCode q.transmissionMode) ++ putUint32 maxDelayTicks ++
    putUint32 cycleTimeTicks ++ List.replicate 16 0

/-- The individual Add of the fallback, in a mode older PLCs know. -/
def SumNotificationRequest.command (q : SumNotificationRequest) : Command UInt32 :=
  addDeviceNotification q.group q.offset q.length (downgradeTransMode q.transmissionMode) q.maxDelay
    q.cycleTime

/-- What `sumAddNotificationFallback` makes of one answered Add. -/
def notificationResult : Except ReturnCode UInt32 → SumNotificationResult
  | .ok handle => { handle := handle.toNat }
  | .error rc => { error := rc }

/-- The item the transport failed at, and those behind it. -/
def abandonedNotifications (rest : List SumNotificationRequest) : List SumNotificationResult :=
  rest.map fun _ => { skipped := some .transportFailure }

def sumAddNotificationFallback (requests : List SumNotificationRequest) :
    Outcome SumNotificationResult × Conn :=
  untilFailure net SumNotificationRequest.command notificationResult abandonedNotifications
    (fun _ e => e) 0 c requests

def sumAddSpec : SumCmdSpec SumNotificationRequest SumNotificationResult :=
  { state := fun caps => caps.sumAddNotifState
    cas := fun new c =>
      { c with
        capabilities :=
          { c.capabilities with sumAddNotifState := casState new c.capabilities.sumAddNotifState } }
    group := groupSumupAddDeviceNotification
    itemWriteSize := 40
    itemReadSize := 8
    encode := SumNotificationRequest.bytes
    decode := fun resp n => (List.range n).map fun i =>
      { error := itemWord 8 resp i, handle := (uint32 (resp.drop (i * 8 + 4))).toNat }
    fallback := sumAddNotificationFallback net }

def sumAddDeviceNotification (requests : List SumNotificationRequest) :
    Outcome SumNotificationResult × Conn :=
  executeSumCommand net (sumAddSpec net) c requests

/-! ## `SumDeleteDeviceNotification` -/

/-- What `sumDeleteNotificationFallback` makes of one answered Delete. -/
def deleteCode : Except ReturnCode Unit → ReturnCode
  | .ok _ => ReturnCode.noErrors
  | .error rc => rc

def sumDeleteNotificationFallback (handles : List UInt32) : Outcome ReturnCode × Conn :=
  untilFailure net deleteDeviceNotification deleteCode (fun _ => [])
    (fun i e => .wrap ("sumDeleteNotificationFallback aborted at handle index " ++ toString i) e)
    0 c handles

def sumDeleteSpec : SumCmdSpec UInt32 ReturnCode :=
  { state := fun caps => caps.sumDeleteNotifState
    cas := fun new c =>
      { c with
        capabilities :=
          { c.capabilities with
            sumDeleteNotifState := casState new c.capabilities.sumDeleteNotifState } }
    group := groupSumupDeleteDeviceNotification
    itemWriteSize := 4
    itemReadSize := 4
    encode := fun h => .ok (putUint32 h)
    decode := fun resp n => (List.range n).map (itemWord 4 resp)
    fallback := sumDeleteNotificationFallback net }

def sumDeleteDeviceNotification (handles : List UInt32) : Outcome ReturnCode × Conn :=
  executeSumCommand net (sumDeleteSpec net) c handles

end GoAds.Client
