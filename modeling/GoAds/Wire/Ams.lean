import GoAds.Lib.FixedSize

/-!
# `Wire.Ams` — AMS headers

A packet is a 6-byte AMS/TCP header, a 32-byte AMS header and the data (`ams.go`).  `encoding/binary`
writes and reads a struct field by field, so a header is given by the layout of its fields, and the
layouts carry the laws of `FixedSize`.
-/

namespace GoAds

abbrev CommandID := UInt16

namespace CommandID

def deviceNotification : CommandID := 8

end CommandID

namespace Wire

abbrev Bytes := List UInt8

/-- Why `io.ReadFull` has no more bytes. -/
inductive ReadErr
  | eof | unexpectedEOF

def ReadErr.text : ReadErr → String
  | .eof => "EOF"
  | .unexpectedEOF => "unexpected EOF"

/-- `binary.Read` from a buffer. -/
def binaryRead {α : Type} (layout : FixedSize α) (data : Bytes) : Except ReadErr (α × Bytes) :=
  match layout.read data with
  | some r => .ok r
  | none => .error (if data = [] then .eof else .unexpectedEOF)

/-! ## Headers -/

structure AMSAddress where
  netID : Vector UInt8 6
  port : UInt16

structure AMSTCPHeader where
  unknown1 : UInt8
  system : UInt8
  length : UInt32

structure AMSHeader where
  target : AMSAddress
  source : AMSAddress
  command : CommandID
  state : UInt16
  length : UInt32
  errorCode : UInt32
  invokeID : UInt32

namespace AMSAddress

def layout : FixedSize AMSAddress :=
  ((FixedSize.bytes 6).pair .uint16).record (fun p => ⟨p.1, p.2⟩) (fun a => (a.netID, a.port))
    (fun _ => rfl) fun _ => rfl

end AMSAddress

namespace AMSTCPHeader

def layout : FixedSize AMSTCPHeader :=
  (FixedSize.uint8.pair (.pair .uint8 .uint32)).record (fun p => ⟨p.1, p.2.1, p.2.2⟩)
    (fun h => (h.unknown1, h.system, h.length)) (fun _ => rfl) fun _ => rfl

end AMSTCPHeader

namespace AMSHeader

def layout : FixedSize AMSHeader :=
  (AMSAddress.layout.pair (AMSAddress.layout.pair (.pair .uint16 (.pair .uint16 (.pair .uint32
    (.pair .uint32 .uint32)))))).record
    (fun p => ⟨p.1, p.2.1, p.2.2.1, p.2.2.2.1, p.2.2.2.2.1, p.2.2.2.2.2.1, p.2.2.2.2.2.2⟩)
    (fun h => (h.target, h.source, h.command, h.state, h.length, h.errorCode, h.invokeID))
    (fun _ => rfl) fun _ => rfl

theorem put_eq (h : AMSHeader) :
    layout.put h = AMSAddress.layout.put h.target ++ (AMSAddress.layout.put h.source ++
      (FixedSize.uint16.put h.command ++ (FixedSize.uint16.put h.state ++
        (FixedSize.uint32.put h.length ++ (FixedSize.uint32.put h.errorCode ++
          FixedSize.uint32.put h.invokeID))))) := rfl

theorem command_at (h : AMSHeader) (rest : Bytes) :
    FixedSize.uint16.get (((layout.put h ++ rest).drop 16).take 2) = h.command := by
  have htarget : (AMSAddress.layout.put h.target).length = 8 := FixedSize.length_put ..
  have hsource : (AMSAddress.layout.put h.source).length = 8 := FixedSize.length_put ..
  have hcommand : (FixedSize.uint16.put h.command).length = 2 := FixedSize.length_put ..
  have hget := FixedSize.uint16.get_put h.command []
  rw [List.append_nil] at hget
  rw [put_eq, List.append_assoc, show 16 = 8 + 8 from rfl, ← List.drop_drop]
  rw [List.drop_left' htarget, List.append_assoc, List.drop_left' hsource, List.append_assoc,
    List.take_left' hcommand]
  exact hget

end AMSHeader

def amsHeaderSize : Nat := 32

def maxAMSPayloadSize : Nat := 32 * 1024 * 1024

theorem size_tcpHeader : AMSTCPHeader.layout.size = 6 := rfl

theorem size_header : AMSHeader.layout.size = amsHeaderSize := rfl

/-! ## `ParseAMSHeader`, `EncodeAMSHeader` and `encodeTo` -/

def parseAMSHeader (b : Bytes) : Except String AMSHeader :=
  if b.length < amsHeaderSize then
    .error ("ams: header too short: " ++ toString b.length ++ " bytes, need " ++
      toString amsHeaderSize)
  else
    match binaryRead AMSHeader.layout (b.take amsHeaderSize) with
    | .error e => .error ("ams: parse header: " ++ e.text)
    | .ok (h, _) =>
      if h.length.toNat > maxAMSPayloadSize then
        .error ("ams: declared payload length " ++ toString h.length ++
          " exceeds MaxAMSPayloadSize " ++ toString maxAMSPayloadSize ++
          " (corrupt or hostile frame)")
      else .ok h

def encodeAMSHeader (h : AMSHeader) : Bytes := AMSHeader.layout.put h

/-- The AMS header of a request. -/
def requestHeader (source target : AMSAddress) (command : CommandID) (data : Bytes)
    (invokeID : UInt32) : AMSHeader where
  target := target
  source := source
  command := command
  state := 4
  length := UInt32.ofNat data.length
  errorCode := 0
  invokeID := invokeID

/-- `encodeTo`, for the source address it reads under the lock. -/
def encodeTo (source target : AMSAddress) (command : CommandID) (data : Bytes) (invokeID : UInt32) :
    Bytes :=
  AMSTCPHeader.layout.put ⟨0, 0, UInt32.ofNat (amsHeaderSize + data.length)⟩ ++
    AMSHeader.layout.put (requestHeader source target command data invokeID) ++ data

/-- A header is parsed back from the front of a packet, if its length is one that is accepted. -/
theorem parseAMSHeader_encode (h : AMSHeader) (rest : Bytes) (hlen : h.length.toNat ≤ maxAMSPayloadSize) :
    parseAMSHeader (encodeAMSHeader h ++ rest) = .ok h := by
  have hput : (encodeAMSHeader h).length = amsHeaderSize := AMSHeader.layout.length_put h
  have hshort : ¬ (encodeAMSHeader h ++ rest).length < amsHeaderSize := by
    rw [List.length_append, hput]
    omega
  have hread : AMSHeader.layout.read (encodeAMSHeader h) = some (h, []) := by
    have := AMSHeader.layout.read_put_append h []
    rwa [List.append_nil] at this
  rw [parseAMSHeader, if_neg hshort, List.take_left' hput, binaryRead, hread]
  exact if_neg (by omega)

end Wire

end GoAds
