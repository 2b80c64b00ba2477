import GoAds.Lib.LittleEndian
import GoAds.Notification.Manager
import GoAds.Wire.Frames

/-!
# `Client.Rpc` — single ADS commands

A command is a request and a decoder of the answer's body.  Sending one is a single exchange with
whatever is at the other end of the connection: the network is a function of everything exchanged so far,
which leaves it free to answer, to answer with nonsense, to refuse at the AMS router, or not to answer
at all, at any point.

Errors keep the chain `fmt.Errorf` builds with `%w`, because the callers ask `errors.As` for a
`ReturnCode` to tell a verdict of the PLC from everything else.
-/

namespace GoAds

namespace ReturnCode

def globalUnknownCommandID : ReturnCode := 0x08
def globalUnknownAdsCommand : ReturnCode := 0x0B
def deviceError : ReturnCode := 0x700
def deviceServiceNotSupported : ReturnCode := 0x701
def deviceInvalidSize : ReturnCode := 0x705

end ReturnCode

namespace Client

open LittleEndian Notification

abbrev Bytes := List UInt8

/-! ## Errors -/

/-- Why `sendRequest` has no reply: `ErrTransportClosed`, the two values of `ctx.Err()`, or a packet that
    could not be encoded. -/
inductive Failure
  | transportClosed | canceled | deadlineExceeded | encode
  deriving DecidableEq, Repr

/-- An error and what it wraps. -/
inductive Err
  | returnCode (rc : ReturnCode)
  /-- `AMSError`: deliberately without `Unwrap`. -/
  | ams (code : ReturnCode)
  | failure (f : Failure)
  /-- `binary.Read` ran out of bytes. -/
  | eof
  | text (msg : String)
  | wrap (msg : String) (err : Err)
  deriving DecidableEq, Repr

/-- `errors.As(err, &rc)` for a `ReturnCode`. -/
def Err.asReturnCode : Err → Option ReturnCode
  | .returnCode rc => some rc
  | .wrap _ err => err.asReturnCode
  | _ => none

def isSumCommandUnsupportedError (err : Err) : Bool :=
  match err.asReturnCode with
  | none => false
  | some rc =>
    rc == ReturnCode.deviceServiceNotSupported || rc == ReturnCode.globalUnknownCommandID ||
      rc == ReturnCode.globalUnknownAdsCommand

/-! ## Exchanges -/

/-- What goes on the wire, as far as the answer depends on it. -/
inductive Request
  | read (group offset length : UInt32)
  | write (group offset : UInt32) (data : Bytes)
  | writeRead (group offset readLength : UInt32) (send : Bytes)
  | addDeviceNotification (group offset length : UInt32) (mode : TransMode)
      (maxDelay cycleTime : UInt32)
  | deleteDeviceNotification (handle : UInt32)
  deriving DecidableEq, Repr

/-- What comes back: an `amsReply`, or nothing. -/
inductive Reply
  | lost (f : Failure)
  | reply (amsErr : ReturnCode) (data : Bytes)
  deriving DecidableEq, Repr

/-- `amsReply.payload`, after the failures of `sendRequest` itself. -/
def Reply.payload : Reply → Except Err Bytes
  | .lost f => .error (.failure f)
  | .reply amsErr data => if amsErr ≠ 0 then .error (.ams amsErr) else .ok data

structure Exchange where
  request : Request
  reply : Reply
  deriving DecidableEq, Repr

/-- The other end: what it answers after what has been exchanged. -/
abbrev Net := List Exchange → Request → Reply

/-- A reply as `readFrames` passes it on: a frame above `maxAMSPacket` takes the transport down. -/
def Reply.framed : Reply → Reply
  | .lost f => .lost f
  | .reply amsErr data =>
    if Wire.amsHeaderSize + data.length > Wire.maxAMSPacket then .lost .transportClosed
    else .reply amsErr data

/-- Every reply has come through `readFrames`. -/
def Net.Framed (net : Net) : Prop := ∀ exchanges request, (net exchanges request).framed = net exchanges request

/-- The data of an answer, behind its code and length, is short enough for a frame. -/
def FitsFrame (data : Bytes) : Prop := Wire.amsHeaderSize + (8 + data.length) ≤ Wire.maxAMSPacket

instance (data : Bytes) : Decidable (FitsFrame data) := inferInstanceAs (Decidable (_ ≤ _))

/-- `capabilities`: `sumReadCmd` is 0 unchecked, 1 for none, or the group in use; the states are
    0 unchecked, 1 supported, 2 unsupported. -/
structure Capabilities where
  sumReadCmd : UInt32 := 0
  sumWriteState : UInt32 := 0
  sumAddNotifState : UInt32 := 0
  sumDeleteNotifState : UInt32 := 0

/-- A connection: what was found out about it, and what was exchanged over it. -/
structure Conn where
  capabilities : Capabilities := {}
  exchanges : List Exchange := []

/-- An ADS command: its request, unless its arguments have no encoding, and how the body of the answer
    is read. -/
structure Command (α : Type) where
  request : Except Err Request
  decode : Bytes → Except Err α

/-- Sends a command and reads the answer. -/
def Conn.send {α : Type} (net : Net) (c : Conn) (cmd : Command α) : Except Err α × Conn :=
  match cmd.request with
  | .error e => (.error e, c)
  | .ok request =>
    let reply := net c.exchanges request
    (reply.payload.bind cmd.decode, { c with exchanges := c.exchanges ++ [⟨request, reply⟩] })

/-! ## The commands -/

/-- The answer to a command that returns data: code, length, data. -/
def decodeData (op : String) (resp : Bytes) : Except Err Bytes :=
  if resp.length < 8 then .error (.wrap ("failed to parse " ++ op ++ " response") .eof)
  else
    let error := uint32 resp
    let length := uint32 (resp.drop 4)
    let body := resp.drop 8
    if error > 0 then .error (.wrap ("ADS error in " ++ op) (.returnCode error))
    else if body.length < length.toNat then
      .error (.text (op ++ ": declared length " ++ toString length ++ ", body has " ++
        toString body.length ++ " bytes"))
    else .ok (body.take length.toNat)

/-- The answer to a command that returns its code only. -/
def decodeCode (op : String) (resp : Bytes) : Except Err Unit :=
  if resp.length < 4 then .error (.wrap ("failed to parse " ++ op ++ " response") .eof)
  else if uint32 resp > 0 then .error (.wrap ("ADS error in " ++ op) (.returnCode (uint32 resp)))
  else .ok ()

/-- The answer to `AddDeviceNotification`: code, handle. -/
def decodeHandle (resp : Bytes) : Except Err UInt32 :=
  if resp.length < 8 then .error .eof
  else if uint32 resp ≠ 0 then
    .error (.wrap "unable to create notification" (.returnCode (uint32 resp)))
  else .ok (uint32 (resp.drop 4))

def read (group offset length : UInt32) : Command Bytes :=
  { request := .ok (.read group offset length), decode := decodeData "Read" }

def write (group offset : UInt32) (data : Bytes) : Command Unit :=
  { request := .ok (.write group offset data), decode := decodeCode "Write" }

def writeRead (group offset readLength : UInt32) (send : Bytes) : Command Bytes :=
  { request := .ok (.writeRead group offset readLength send), decode := decodeData "WriteRead" }

/-- `durationToADSTicks`: 100 ns ticks in 32 bits. -/
def durationToADSTicks (d : Duration) (name : String) : Except Err UInt32 :=
  if d < 0 then
    .error (.text (name ++ " must be non-negative, got " ++ toString d))
  else
    let ticks := d.toNat / 100
    if ticks > 4294967295 then
      .error (.text (name ++ " exceeds ADS 32-bit 100ns limit (~429.5s), got " ++ toString d))
    else .ok (UInt32.ofNat ticks)

def addDeviceNotification (group offset length : UInt32) (mode : TransMode)
    (maxDelay cycleTime : Duration) : Command UInt32 :=
  { request := do
      let maxDelayTicks ← durationToADSTicks maxDelay "maxDelay"
      let cycleTimeTicks ← durationToADSTicks cycleTime "cycleTime"
      return .addDeviceNotification group offset length mode maxDelayTicks cycleTimeTicks
    decode := decodeHandle }

def deleteDeviceNotification (handle : UInt32) : Command Unit :=
  { request := .ok (.deleteDeviceNotification handle)
    decode := decodeCode "DeleteDeviceNotification" }

end Client
end GoAds
