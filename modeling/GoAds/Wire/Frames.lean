import GoAds.Lib.BufferedReader
import GoAds.Wire.Ams
import Mathlib.Logic.Function.Basic

/-!
# `Wire.Frames` — `readFrames`

The loop that turns the bytes of a connection into frames: a 6-byte header, a body of the length it
declares, and a queue for the body.  The bytes come through a `bufio.Reader`, in whatever pieces TCP
delivers them; the workers take frames from the queues at their own pace; the client's context may end at
any of the loop's `select`s.  All of this is the environment, a `Turn` for each round of the loop.
-/

namespace GoAds.Wire

open List BufferedReader

/-! ## Queues -/

def maxAMSPacket : Nat := 4 * 1024 * 1024

/-- The buffer size of `bufio.NewReader`. -/
def bufioSize : Nat := 4096

/-- Where a frame goes: `systemResponse`, `notifQueue` or `recvQueue`. -/
inductive Queue
  | system | notif | recv
  deriving DecidableEq, Repr

/-- `notifQueueSize`, `recvQueueSize`, and the capacity `systemResponse` is made with. -/
def Queue.capacity : Queue → Nat
  | .system => 1
  | .notif => 1024
  | .recv => 256

/-- The frames in each queue. -/
abbrev Queues := Queue → List Bytes

def isNotificationFrame (data : Bytes) : Bool :=
  decide (data.length ≥ 32) &&
    FixedSize.uint16.get ((data.drop 16).take 2) == CommandID.deviceNotification

/-- The queue of a frame.  `notifQueue` is never nil: both constructors and the reset make it. -/
def queueOf (header : AMSTCPHeader) (data : Bytes) : Queue :=
  if header.system > 0 then .system else if isNotificationFrame data then .notif else .recv

/-- The places where the loop looks at `c.ctx.Done()`. -/
inductive Select
  | top | headerError | beforeBody | bodyError | send

/-- What the environment does in one round of the loop. -/
structure Turn where
  /-- The context has ended, and the `select` takes this branch. -/
  done : Select → Bool
  /-- How many frames the workers take before the frame of this round is queued. -/
  taken : Queue → Nat

/-- The `switch` at the end of a round, with the queues after it; nothing when the loop returns here. -/
def route (turn : Turn) (queues : Queues) (header : AMSTCPHeader) (data : Bytes) : Option Queues :=
  let queues := fun k => (queues k).drop (turn.taken k)
  let k := queueOf header data
  if turn.done .send then none
  else if (queues k).length < k.capacity then some (Function.update queues k (queues k ++ [data]))
  else
    match k with
    -- this send has no default: it waits until the context ends
    | .system => none
    | .notif | .recv => some queues

/-! ## The loop -/

/-- Why the loop has returned. -/
inductive Stop
  | cancelled
  | headerRead
  | headerDecode
  | tooLong (length : UInt32)
  | bodyRead
  deriving DecidableEq

/-- `callOnDrop` is called on the way out. -/
def Stop.callsOnDrop (primary : Bool) (s : Stop) : Bool := primary && s != .cancelled

/-- The state the loop has left, and why. -/
structure Listened where
  queues : Queues
  reader : BufferedReader UInt8
  stop : Stop

/-- The source has ended and everything in the buffer was read. -/
def exhausted : BufferedReader UInt8 := ⟨[], []⟩

theorem readFull_some {r r' : BufferedReader UInt8} {n : Nat} {data : Bytes}
    (h : r.readFull bufioSize n = some (data, r')) :
    data.length = n ∧ r'.content.length + n = r.content.length := by
  by_cases hle : n ≤ r.content.length
  · obtain ⟨r'', hread, hcontent⟩ := readFull_of_le bufioSize hle
    rw [hread] at h
    cases h
    rw [hcontent, length_drop, length_take_of_le hle]
    omega
  · rw [readFull_of_lt bufioSize (not_le.1 hle)] at h
    cases h

/-- `readFrames`, from its `i`-th round on. -/
def readFrames (turns : Nat → Turn) (i : Nat) (queues : Queues) (reader : BufferedReader UInt8) :
    Listened :=
  if (turns i).done .top then ⟨queues, reader, .cancelled⟩
  else
    match _hhdr : reader.readFull bufioSize AMSTCPHeader.layout.size with
    | none =>
      ⟨queues, exhausted, if (turns i).done .headerError then .cancelled else .headerRead⟩
    | some (hdrBytes, reader₁) =>
      match binaryRead AMSTCPHeader.layout hdrBytes with
      | .error _ => ⟨queues, reader₁, .headerDecode⟩
      | .ok (tcpHeader, _) =>
        if tcpHeader.length.toNat > maxAMSPacket then
          ⟨queues, reader₁, .tooLong tcpHeader.length⟩
        else if (turns i).done .beforeBody then ⟨queues, reader₁, .cancelled⟩
        else
          match _hbody : reader₁.readFull bufioSize tcpHeader.length.toNat with
          | none =>
            ⟨queues, exhausted, if (turns i).done .bodyError then .cancelled else .bodyRead⟩
          | some (data, reader₂) =>
            match route (turns i) queues tcpHeader data with
            | none => ⟨queues, reader₂, .cancelled⟩
            | some queues => readFrames turns (i + 1) queues reader₂
termination_by reader.content.length
decreasing_by
  have hhdr := (readFull_some _hhdr).2
  have hbody := (readFull_some _hbody).2
  have : AMSTCPHeader.layout.size = 6 := size_tcpHeader
  omega

/-! ## Packets -/

/-- What `encodeTo` is given, with no more data than the reader accepts. -/
structure Packet where
  source : AMSAddress
  target : AMSAddress
  command : CommandID
  data : Bytes
  invokeID : UInt32
  fits : amsHeaderSize + data.length ≤ maxAMSPacket

namespace Packet

variable (p : Packet)

def header : AMSHeader := requestHeader p.source p.target p.command p.data p.invokeID

/-- The packet on the wire. -/
def encode : Bytes := encodeTo p.source p.target p.command p.data p.invokeID

/-- The packet without its AMS/TCP header. -/
def body : Bytes := AMSHeader.layout.put p.header ++ p.data

def tcpHeader : AMSTCPHeader := ⟨0, 0, UInt32.ofNat p.body.length⟩

theorem length_body : p.body.length = amsHeaderSize + p.data.length := by
  rw [body, length_append, FixedSize.length_put, size_header]

theorem length_body_le : p.body.length ≤ maxAMSPacket := by
  rw [length_body]
  exact p.fits

theorem toNat_length : p.tcpHeader.length.toNat = p.body.length := by
  apply UInt32.toNat_ofNat_of_lt'
  exact p.length_body_le.trans_lt (by decide)

theorem encode_eq : p.encode = AMSTCPHeader.layout.put p.tcpHeader ++ p.body := by
  rw [encode, encodeTo, tcpHeader, length_body, append_assoc]
  rfl

theorem isNotificationFrame_body :
    isNotificationFrame p.body = decide (p.command = CommandID.deviceNotification) := by
  have hlen : 32 ≤ p.body.length := by
    rw [length_body]
    exact Nat.le_add_right ..
  rw [isNotificationFrame, decide_eq_true hlen, Bool.true_and, body, AMSHeader.command_at]
  rfl

/-- The queue that the packet is for. -/
def queue : Queue := if p.command = CommandID.deviceNotification then .notif else .recv

theorem queueOf_body : queueOf p.tcpHeader p.body = p.queue := by
  have hsystem : ¬ p.tcpHeader.system > 0 := by
    show ¬ (0 : UInt8) > 0
    decide
  rw [queueOf, if_neg hsystem, isNotificationFrame_body, queue]
  simp only [decide_eq_true_eq]

theorem parseAMSHeader_body : parseAMSHeader p.body = .ok p.header := by
  apply parseAMSHeader_encode
  have hdata : p.data.length ≤ maxAMSPayloadSize := by
    have := p.fits
    unfold maxAMSPacket at this
    unfold maxAMSPayloadSize
    omega
  show (UInt32.ofNat p.data.length).toNat ≤ _
  rw [UInt32.toNat_ofNat']
  exact (Nat.mod_le _ _).trans hdata

end Packet

/-! ## What becomes of a queue -/

/-- A packet finds room in a queue that it is for, after the workers have taken what they take. -/
def Packet.Enters (turn : Turn) (k : Queue) (q : List Bytes) (p : Packet) : Prop :=
  p.queue = k ∧ (q.drop (turn.taken k)).length < k.capacity

instance (turn : Turn) (k : Queue) (q : List Bytes) (p : Packet) : Decidable (p.Enters turn k q) :=
  inferInstanceAs (Decidable (_ ∧ _))

/-- A queue after a round: the workers take from the front, and a body that has room goes to the back. -/
def enqueue (turn : Turn) (k : Queue) (q : List Bytes) (p : Packet) : List Bytes :=
  if p.Enters turn k q then q.drop (turn.taken k) ++ [p.body] else q.drop (turn.taken k)

/-- What has become of a queue: what the workers took from its front, the packets whose bodies were put at
    its back, and what is in it. -/
structure Passage where
  taken : List Bytes
  kept : List Packet
  left : List Bytes

/-- A queue over some packets, from the `i`-th round on. -/
def passage (turns : Nat → Turn) (k : Queue) : Nat → List Bytes → List Packet → Passage
  | _, q, [] => ⟨[], [], q⟩
  | i, q, p :: packets =>
    let rest := passage turns k (i + 1) (enqueue (turns i) k q p) packets
    { taken := q.take ((turns i).taken k) ++ rest.taken
      kept := if p.Enters (turns i) k q then p :: rest.kept else rest.kept
      left := rest.left }

/-- A queue has passed on exactly the bodies of its packets: it holds what the workers have not taken of
    those that had room when they came, in order, and of all of them if all had. -/
structure Recovers (turns : Nat → Turn) (k : Queue) (q : List Bytes) (packets : List Packet)
    (q' : List Bytes) : Prop where
  left : q' = (passage turns k 0 q packets).left
  inOrder : (passage turns k 0 q packets).taken ++ q' =
    q ++ (passage turns k 0 q packets).kept.map Packet.body
  kept : (passage turns k 0 q packets).kept <+ packets.filter fun p => p.queue = k
  whole : (∀ (j : Nat) (p : Packet), packets[j]? = some p → p.queue = k →
      p.Enters (turns j) k (passage turns k 0 q (packets.take j)).left) →
    (passage turns k 0 q packets).kept = packets.filter fun p => p.queue = k

section Passage

variable {turns : Nat → Turn} {k : Queue}

/-- What was in a queue and what came into it has been taken or is left. -/
theorem passage_inOrder (packets : List Packet) : ∀ i q, (passage turns k i q packets).taken ++
      (passage turns k i q packets).left = q ++ (passage turns k i q packets).kept.map Packet.body := by
  induction packets with
  | nil =>
    intro i q
    exact (append_nil q).symm
  | cons p packets ih =>
    intro i q
    simp only [passage]
    rw [append_assoc, ih, enqueue]
    split
    · rw [map_cons, append_assoc, singleton_append, ← append_assoc, take_append_drop]
    · rw [← append_assoc, take_append_drop]

theorem passage_kept (packets : List Packet) :
    ∀ i q, (passage turns k i q packets).kept <+ packets.filter fun p => p.queue = k := by
  induction packets with
  | nil =>
    intro i q
    exact nil_sublist _
  | cons p packets ih =>
    intro i q
    simp only [passage]
    split
    · next h =>
      rw [filter_cons_of_pos (by simpa using h.1)]
      exact (ih ..).cons_cons p
    · exact (ih ..).trans ((sublist_cons_self p packets).filter _)

theorem passage_whole (packets : List Packet) : ∀ i q,
    (∀ (j : Nat) (p : Packet), packets[j]? = some p → p.queue = k →
      p.Enters (turns (i + j)) k (passage turns k i q (packets.take j)).left) →
    (passage turns k i q packets).kept = packets.filter fun p => p.queue = k := by
  induction packets with
  | nil =>
    intro i q _
    rfl
  | cons p packets ih =>
    intro i q hroom
    have hrest := ih (i + 1) (enqueue (turns i) k q p) fun j p' hp' hk => by
      have h := hroom (j + 1) p' hp' hk
      rwa [take_succ_cons, passage, show i + (j + 1) = i + 1 + j by omega] at h
    simp only [passage]
    rw [hrest]
    by_cases hk : p.queue = k
    · have hp : p.Enters (turns i) k q := hroom 0 p rfl hk
      rw [if_pos hp, filter_cons_of_pos (by simpa using hk)]
    · rw [if_neg fun hp => hk hp.1, filter_cons_of_neg (by simpa using hk)]

theorem recovers {q q' : List Bytes} {packets : List Packet} (h : q' = (passage turns k 0 q packets).left) :
    Recovers turns k q packets q' where
  left := h
  inOrder := h ▸ passage_inOrder packets 0 q
  kept := passage_kept packets 0 q
  whole hroom := passage_whole packets 0 q fun j p hp hk => by
    rw [Nat.zero_add]
    exact hroom j p hp hk

end Passage

/-! ## Frames from a stream of packets -/

section Loop

variable {turns : Nat → Turn} {i : Nat} {queues : Queues} {r : BufferedReader UInt8} {p : Packet}
  {tail : Bytes}

/-- The frame of a packet is put into its queue, or dropped because this queue is full. -/
theorem route_packet (queues : Queues) {turn} (hlive : turn.done .send = false) (p : Packet) :
    route turn queues p.tcpHeader p.body = some fun k => enqueue turn k (queues k) p := by
  have hsystem : p.queue ≠ .system := by
    rw [Packet.queue]
    split <;> simp
  simp only [route, hlive, Bool.false_eq_true, if_false, p.queueOf_body]
  split
  · next hroom =>
    congr 1
    funext k
    by_cases hk : p.queue = k
    · subst hk
      rw [Function.update_self, enqueue, if_pos ⟨rfl, hroom⟩]
    · rw [Function.update_of_ne (Ne.symm hk), enqueue, if_neg fun h => hk h.1]
  next hfull =>
  have hsame : (fun k => enqueue turn k (queues k) p) = fun k => (queues k).drop (turn.taken k) := by
    funext k
    rw [enqueue, if_neg]
    rintro ⟨rfl, hroom⟩
    exact hfull hroom
  rw [hsame]
  split
  · next hk => exact absurd hk hsystem
  · rfl
  · rfl

theorem readFull_header {header rest}
    (hr : r.content = AMSTCPHeader.layout.put header ++ rest) :
    ∃ r', r.readFull bufioSize AMSTCPHeader.layout.size =
      some (AMSTCPHeader.layout.put header, r') ∧ r'.content = rest := by
  have hput := AMSTCPHeader.layout.length_put header
  have hle : AMSTCPHeader.layout.size ≤ r.content.length := by
    rw [hr, length_append, hput]
    exact Nat.le_add_right ..
  obtain ⟨r', hread, hcontent⟩ := readFull_of_le bufioSize hle
  rw [hr, take_left' hput] at hread
  rw [hr, drop_left' hput] at hcontent
  exact ⟨r', hread, hcontent⟩

theorem binaryRead_header (header : AMSTCPHeader) :
    binaryRead AMSTCPHeader.layout (AMSTCPHeader.layout.put header) = .ok (header, []) := by
  have hread := AMSTCPHeader.layout.read_put_append header []
  rw [append_nil] at hread
  rw [binaryRead, hread]

/-- **One round of the loop** over a packet, when the context does not end. -/
theorem readFrames_packet (hlive : ∀ s, (turns i).done s = false) (hr : r.content = p.encode ++ tail) :
    ∃ r', readFrames turns i queues r =
        readFrames turns (i + 1) (fun k => enqueue (turns i) k (queues k) p) r' ∧ r'.content = tail := by
  rw [p.encode_eq, append_assoc] at hr
  obtain ⟨r₁, hhdr, hr₁⟩ := readFull_header hr
  have hbodyle : p.tcpHeader.length.toNat ≤ r₁.content.length := by
    rw [hr₁, p.toNat_length, length_append]
    exact Nat.le_add_right ..
  obtain ⟨r₂, hbody, hr₂⟩ := readFull_of_le bufioSize hbodyle
  rw [hr₁, p.toNat_length, take_left] at hbody
  rw [hr₁, p.toNat_length, drop_left] at hr₂
  have hlen : ¬ p.tcpHeader.length.toNat > maxAMSPacket := by
    rw [p.toNat_length]
    exact not_lt.2 p.length_body_le
  refine ⟨r₂, ?_, hr₂⟩
  rw [← p.toNat_length] at hbody
  rw [readFrames, if_neg (by rw [hlive]; exact Bool.false_ne_true)]
  split
  · next h => rw [hhdr] at h; cases h
  next hdrBytes reader₁ h =>
  rw [hhdr] at h
  cases h
  simp only [binaryRead_header, if_neg hlen, hlive, Bool.false_eq_true, if_false]
  split
  · next h => rw [hbody] at h; cases h
  next data reader₂ h =>
  rw [hbody] at h
  cases h
  rw [route_packet queues (hlive .send) p]

variable (queues) in
/-- **The loop over a stream of packets**, up to whatever follows them. -/
theorem readFrames_packets (hlive : ∀ i s, (turns i).done s = false) (packets : List Packet)
    (hr : r.content = packets.flatMap Packet.encode ++ tail) :
    ∃ r', readFrames turns i queues r = readFrames turns (i + packets.length)
        (fun k => (passage turns k i (queues k) packets).left) r' ∧ r'.content = tail := by
  induction packets generalizing i queues r with
  | nil => exact ⟨r, rfl, hr⟩
  | cons p packets ih =>
    rw [flatMap_cons, append_assoc] at hr
    obtain ⟨r₁, hround, hr₁⟩ := readFrames_packet (hlive i) hr
    obtain ⟨r₂, hrest, hr₂⟩ := ih _ hr₁
    have hi : i + 1 + packets.length = i + (p :: packets).length := by
      rw [length_cons]
      omega
    rw [hi] at hrest
    exact ⟨r₂, hround.trans hrest, hr₂⟩

theorem readFrames_end (hlive : ∀ s, (turns i).done s = false) (hr : r.content = []) :
    readFrames turns i queues r = ⟨queues, exhausted, .headerRead⟩ := by
  have hnone : r.readFull bufioSize AMSTCPHeader.layout.size = none := by
    apply readFull_of_lt
    rw [hr]
    decide
  rw [readFrames, if_neg (by rw [hlive]; exact Bool.false_ne_true)]
  split
  · rw [hlive]
    rfl
  · next h => rw [hnone] at h; cases h

theorem readFrames_tooLong {header rest}
    (hlive : ∀ s, (turns i).done s = false) (hlong : header.length.toNat > maxAMSPacket)
    (hr : r.content = AMSTCPHeader.layout.put header ++ rest) :
    ∃ r', readFrames turns i queues r = ⟨queues, r', .tooLong header.length⟩ ∧ r'.content = rest := by
  obtain ⟨r', hhdr, hr'⟩ := readFull_header hr
  refine ⟨r', ?_, hr'⟩
  rw [readFrames, if_neg (by rw [hlive]; exact Bool.false_ne_true)]
  split
  · next h => rw [hhdr] at h; cases h
  next hdrBytes reader₁ h =>
  rw [hhdr] at h
  cases h
  simp only [binaryRead_header, if_pos hlong]

theorem mem_route {turn header data queues'} (h : route turn queues header data = some queues') {k d}
    (hd : d ∈ queues' k) : d ∈ queues k ∨ d = data := by
  simp only [route] at h
  split at h
  · cases h
  split at h
  · cases h
    by_cases hk : k = queueOf header data
    · subst hk
      rw [Function.update_self, mem_append, mem_singleton] at hd
      exact hd.imp_left mem_of_mem_drop
    · rw [Function.update_of_ne hk] at hd
      exact .inl (mem_of_mem_drop hd)
  split at h
  · cases h
  all_goals
    cases h
    exact .inl (mem_of_mem_drop hd)

theorem readFrames_length_le (hq : ∀ k, ∀ data ∈ queues k, data.length ≤ maxAMSPacket) :
    ∀ k, ∀ data ∈ (readFrames turns i queues r).queues k, data.length ≤ maxAMSPacket := by
  fun_induction readFrames turns i queues r with
  | case8 i queues r _ hdrBytes r₁ _ header _ _ hle _ data r₂ hbody queues' hroute ih =>
    apply ih
    intro k d hd
    rcases mem_route hroute hd with hold | rfl
    · exact hq k d hold
    · rw [(readFull_some hbody).1]
      exact not_lt.1 hle
  | _ => exact hq

end Loop

/-- **Framing is lossless.**  However the bytes of a list of packets are split into reads, each queue gets
    the bodies of the packets of its commands in order, but for those that find it full; their headers are
    parsed back; and a header that declares more than 4 MiB ends the loop without another read. -/
theorem framing_lossless (turns : Nat → Turn) (queues : Queues) (r : BufferedReader UInt8)
    (packets : List Packet) (hlive : ∀ i s, (turns i).done s = false) :
    (r.content = packets.flatMap Packet.encode →
      (∀ k, Recovers turns k (queues k) packets ((readFrames turns 0 queues r).queues k)) ∧
      (readFrames turns 0 queues r).stop = .headerRead) ∧
    (∀ (header : AMSTCPHeader) (rest : Bytes), header.length.toNat > maxAMSPacket →
      r.content = packets.flatMap Packet.encode ++ (AMSTCPHeader.layout.put header ++ rest) →
      (∀ k, Recovers turns k (queues k) packets ((readFrames turns 0 queues r).queues k)) ∧
      (readFrames turns 0 queues r).stop = .tooLong header.length ∧
      (readFrames turns 0 queues r).reader.content = rest) ∧
    ∀ p ∈ packets, ∃ h, parseAMSHeader p.body = .ok h ∧ h.target = p.target ∧ h.source = p.source ∧
      h.command = p.command ∧ h.length.toNat = p.data.length ∧ h.invokeID = p.invokeID := by
  refine ⟨fun hr => ?_, fun header rest hlong hr => ?_, fun p _ => ?_⟩
  · rw [← append_nil (packets.flatMap Packet.encode)] at hr
    obtain ⟨r', hrun, hr'⟩ := readFrames_packets (i := 0) queues hlive packets hr
    rw [readFrames_end (hlive _) hr'] at hrun
    rw [hrun]
    exact ⟨fun k => recovers rfl, rfl⟩
  · obtain ⟨r', hrun, hr'⟩ := readFrames_packets (i := 0) queues hlive packets hr
    obtain ⟨r'', hstop, hr''⟩ := readFrames_tooLong (hlive _) hlong hr'
    rw [hstop] at hrun
    rw [hrun]
    exact ⟨fun k => recovers rfl, rfl, hr''⟩
  refine ⟨p.header, p.parseAMSHeader_body, rfl, rfl, rfl, ?_, rfl⟩
  have hlt : p.data.length < 2 ^ 32 := by
    have := p.fits
    unfold maxAMSPacket at this
    omega
  exact UInt32.toNat_ofNat_of_lt' hlt

/-- A packet between two ports of one device. -/
def smallPacket (command : CommandID) (invokeID : UInt32) : Packet :=
  ⟨⟨.replicate 6 1, 800⟩, ⟨.replicate 6 1, 851⟩, command, [9, 9], invokeID, by decide⟩

/-- Nobody takes a frame, but for a notification before the third round. -/
def thirdTakes (i : Nat) : Turn := ⟨fun _ => false, fun k => if i = 2 ∧ k = .notif then 1 else 0⟩

/-- A notification, a reply and a notification, which arrive in pieces of 5, 40 and the other bytes, and
    after an empty read: when the worker has taken the first, the others are in their queues. -/
theorem framing_lossless_three :
    let first := smallPacket CommandID.deviceNotification 0
    let reply := smallPacket 2 7
    let second := smallPacket CommandID.deviceNotification 1
    let bytes := [first, reply, second].flatMap Packet.encode
    let r := BufferedReader.mk [] [bytes.take 5, [], (bytes.drop 5).take 40, bytes.drop 45]
    (readFrames thirdTakes 0 (fun _ => []) r).queues .notif = [second.body] ∧
      (readFrames thirdTakes 0 (fun _ => []) r).queues .recv = [reply.body] := by
  intro first reply second bytes r
  have hrun := ((framing_lossless thirdTakes (fun _ => []) r [first, reply, second] fun _ _ => rfl).1
    (by decide +kernel)).1
  exact ⟨(hrun .notif).left.trans (by decide +kernel), (hrun .recv).left.trans (by decide +kernel)⟩

end GoAds.Wire
