import GoAds.Wire.Frames

/-!
# `Wire.Samples` — `decodeNotification`

A DeviceNotification payload is a header with a number of stamps, each of which is a header with a number
of samples, each of which is a header with a number of bytes.  `decodeNotification` walks it with two nested
counted loops over one buffer and passes each sample on as it comes to its end.

The format is stated apart from the decoder, as a step relation: a `Place` in a payload is what is
awaited there and what is left of the bytes, and `Step` goes over one header or one whole sample.  The place
of a payload where no step is possible is unique, so "the samples before the first malformed position" is
well defined, and `decodeNotification` finds exactly these.  The remaining length is compared as a 32-bit
number, which is exact for whatever `readFrames` lets through.
-/

namespace GoAds.Wire

open List FixedSize

/-! ## The decoder -/

structure NotificationStream where
  length : UInt32
  stamps : UInt32

structure StampHeader where
  timestamp : UInt64
  samples : UInt32

structure NotificationSample where
  handle : UInt32
  size : UInt32

def NotificationStream.layout : FixedSize NotificationStream :=
  (FixedSize.uint32.pair .uint32).record (fun p => ⟨p.1, p.2⟩) (fun s => (s.length, s.stamps))
    (fun _ => rfl) fun _ => rfl

def StampHeader.layout : FixedSize StampHeader :=
  (FixedSize.uint64.pair .uint32).record (fun p => ⟨p.1, p.2⟩) (fun h => (h.timestamp, h.samples))
    (fun _ => rfl) fun _ => rfl

def NotificationSample.layout : FixedSize NotificationSample :=
  (FixedSize.uint32.pair .uint32).record (fun p => ⟨p.1, p.2⟩) (fun s => (s.handle, s.size))
    (fun _ => rfl) fun _ => rfl

structure NotifSample where
  handle : UInt32
  timestamp : UInt64
  content : Bytes
  deriving DecidableEq, Repr

/-- The errors of `decodeNotification`. -/
inductive DecodeErr
  | stream (err : ReadErr)
  | stampHeader (err : ReadErr)
  | sample (err : ReadErr)
  | size (size : UInt32) (remaining : Nat)
  | content (err : ReadErr)
  | shortRead (n : Nat) (size : UInt32)

def DecodeErr.text : DecodeErr → String
  | .stream err => "unable to read notification: " ++ err.text
  | .stampHeader err => "error reading stamp header: " ++ err.text
  | .sample err => "error reading notification sample: " ++ err.text
  | .size declared remaining =>
    "notification sample size " ++ toString declared ++ " exceeds remaining data " ++
      toString remaining
  | .content err => "error reading notification content: " ++ err.text
  | .shortRead n declared =>
    "short read on notification content: got " ++ toString n ++ " of " ++ toString declared ++
      " bytes"

/-- `bytes.Buffer.Read` into a slice of `n` bytes: it fails only on an empty buffer, and then only if
    there is something to fill. -/
def bufferRead (n : Nat) (data : Bytes) : Except ReadErr (Bytes × Bytes) :=
  if data = [] then if n = 0 then .ok ([], []) else .error .eof
  else .ok (data.take n, data.drop n)

/-- The inner loop: the samples that were emitted, and the buffer behind them or the error. -/
def decodeSamples (timestamp : UInt64) : Nat → Bytes → List NotifSample × Except DecodeErr Bytes
  | 0, data => ([], .ok data)
  | n + 1, data =>
    match binaryRead NotificationSample.layout data with
    | .error err => ([], .error (.sample err))
    | .ok (sample, data) =>
      -- `uint32(data.Len())`
      if sample.size > UInt32.ofNat data.length then ([], .error (.size sample.size data.length))
      else
        match bufferRead sample.size.toNat data with
        | .error err => ([], .error (.content err))
        | .ok (content, data) =>
          if content.length ≠ sample.size.toNat then
            ([], .error (.shortRead content.length sample.size))
          else
            let r := decodeSamples timestamp n data
            (⟨sample.handle, timestamp, content⟩ :: r.1, r.2)

/-- The outer loop. -/
def decodeStamps : Nat → Bytes → List NotifSample × Option DecodeErr
  | 0, _ => ([], none)
  | n + 1, data =>
    match binaryRead StampHeader.layout data with
    | .error err => ([], some (.stampHeader err))
    | .ok (header, data) =>
      match decodeSamples header.timestamp header.samples.toNat data with
      | (emitted, .error err) => (emitted, some err)
      | (emitted, .ok data) =>
        let r := decodeStamps n data
        (emitted ++ r.1, r.2)

/-- `decodeNotification`: the samples passed to `emit`, in this order, and the error it returns. -/
def decodeNotification (input : Bytes) : List NotifSample × Option DecodeErr :=
  match binaryRead NotificationStream.layout input with
  | .error err => ([], some (.stream err))
  | .ok (stream, data) => decodeStamps stream.stamps.toNat data

/-! ## The format -/

/-- What stands next at a place in a payload. -/
inductive Awaited
  | stream
  /-- A stamp, if there is one left. -/
  | stamps (n : Nat)
  /-- A sample of the stamp at `timestamp`, if there is one left; `n` stamps follow it. -/
  | samples (timestamp : UInt64) (m n : Nat)
  deriving DecidableEq

/-- A place in a payload. -/
structure Place where
  awaited : Awaited
  rest : Bytes

namespace Place

/-- The place before a whole payload. -/
def start (input : Bytes) : Place := ⟨.stream, input⟩

/-- Everything that was announced has come. -/
def Finished (p : Place) : Prop := p.awaited = .stamps 0

instance (p : Place) : Decidable p.Finished := inferInstanceAs (Decidable (_ = _))

end Place

/-- A sample on the wire. -/
def encodeSample (handle : UInt32) (content : Bytes) : Bytes :=
  NotificationSample.layout.put ⟨handle, UInt32.ofNat content.length⟩ ++ content

/-- One step over a payload, with the sample it goes over. -/
inductive Step : Place → Option NotifSample → Place → Prop
  | stream (s : NotificationStream) (rest : Bytes) :
      Step ⟨.stream, NotificationStream.layout.put s ++ rest⟩ none ⟨.stamps s.stamps.toNat, rest⟩
  | stamp (n : Nat) (h : StampHeader) (rest : Bytes) :
      Step ⟨.stamps (n + 1), StampHeader.layout.put h ++ rest⟩ none
        ⟨.samples h.timestamp h.samples.toNat n, rest⟩
  | sample (timestamp : UInt64) (m n : Nat) (handle : UInt32) (content rest : Bytes)
      (hsize : content.length < 2 ^ 32) :
      Step ⟨.samples timestamp (m + 1) n, encodeSample handle content ++ rest⟩
        (some ⟨handle, timestamp, content⟩) ⟨.samples timestamp m n, rest⟩
  | close (timestamp : UInt64) (n : Nat) (rest : Bytes) :
      Step ⟨.samples timestamp 0 n, rest⟩ none ⟨.stamps n, rest⟩

/-- Steps from place to place, and the samples they go over. -/
inductive Scan : Place → List NotifSample → Place → Prop
  | refl (p : Place) : Scan p [] p
  | step {p q r : Place} {o : Option NotifSample} {out : List NotifSample} (head : Step p o q)
      (tail : Scan q out r) : Scan p (o.toList ++ out) r

/-- There is no way on: the payload is at its end, or it is malformed here. -/
def Place.Stuck (p : Place) : Prop := ∀ o q, ¬ Step p o q

/-! ## What a step can be -/

section Steps

variable {p q r : Place} {o : Option NotifSample} {out : List NotifSample} {bs : Bytes}

theorem step_stream :
    Step ⟨.stream, bs⟩ o q ↔ ∃ s rest, NotificationStream.layout.read bs = some (s, rest) ∧
      o = none ∧ q = ⟨.stamps s.stamps.toNat, rest⟩ := by
  constructor
  · intro h
    cases h with
    | stream s rest => exact ⟨s, rest, read_put_append _ s rest, rfl, rfl⟩
  rintro ⟨s, rest, hread, rfl, rfl⟩
  rw [read_eq_some.1 hread]
  exact .stream s rest

theorem step_stamps {n} :
    Step ⟨.stamps n, bs⟩ o q ↔ ∃ k h rest, n = k + 1 ∧ StampHeader.layout.read bs = some (h, rest) ∧
      o = none ∧ q = ⟨.samples h.timestamp h.samples.toNat k, rest⟩ := by
  constructor
  · intro h
    cases h with
    | stamp k h rest => exact ⟨k, h, rest, rfl, read_put_append _ h rest, rfl, rfl⟩
  rintro ⟨k, h, rest, rfl, hread, rfl, rfl⟩
  rw [read_eq_some.1 hread]
  exact .stamp k h rest

/-- A sample stands at the front of the bytes. -/
theorem eq_encodeSample_append {hd data}
    (hread : NotificationSample.layout.read bs = some (hd, data)) (hsize : hd.size.toNat ≤ data.length) :
    bs = encodeSample hd.handle (data.take hd.size.toNat) ++ data.drop hd.size.toNat := by
  have hlen : (data.take hd.size.toNat).length = hd.size.toNat := length_take_of_le hsize
  rw [encodeSample, hlen, UInt32.ofNat_toNat, append_assoc, take_append_drop]
  exact read_eq_some.1 hread

theorem step_samples {timestamp : UInt64} {m n : Nat} : Step ⟨.samples timestamp (m + 1) n, bs⟩ o q ↔
      ∃ hd data, NotificationSample.layout.read bs = some (hd, data) ∧ hd.size.toNat ≤ data.length ∧
        o = some ⟨hd.handle, timestamp, data.take hd.size.toNat⟩ ∧
        q = ⟨.samples timestamp m n, data.drop hd.size.toNat⟩ := by
  constructor
  · intro h
    cases h with
    | sample _ _ _ handle content rest hsize =>
      have hlen := UInt32.toNat_ofNat_of_lt' hsize
      refine ⟨⟨handle, UInt32.ofNat content.length⟩, content ++ rest, ?_, ?_, ?_, ?_⟩
      · rw [encodeSample, append_assoc]
        exact read_put_append _ _ _
      · rw [hlen, length_append]
        omega
      · rw [hlen, take_left]
      · rw [hlen, drop_left]
  · rintro ⟨hd, data, hread, hsize, rfl, rfl⟩
    rw [eq_encodeSample_append hread hsize]
    apply Step.sample
    rw [length_take_of_le hsize]
    exact hd.size.toNat_lt

theorem step_close {timestamp n} :
    Step ⟨.samples timestamp 0 n, bs⟩ o q ↔ o = none ∧ q = ⟨.stamps n, bs⟩ := by
  constructor
  · intro h
    cases h with
    | close => exact ⟨rfl, rfl⟩
  · rintro ⟨rfl, rfl⟩
    exact .close timestamp n bs

theorem Scan.trans {out'} (h : Scan p out q) (h' : Scan q out' r) :
    Scan p (out ++ out') r := by
  induction h with
  | refl => exact h'
  | step head tail ih =>
    rw [append_assoc]
    exact .step head (ih h')

theorem Scan.single (h : Step p o q) : Scan p o.toList q := by
  have := Scan.step h (.refl q)
  rwa [append_nil] at this

/-- A step takes nothing from the bytes but what it goes over. -/
theorem Step.suffix (h : Step p o q) : q.rest <:+ p.rest := by
  cases h with
  | stream | stamp | sample => exact suffix_append ..
  | close => exact suffix_refl _

theorem Step.shrinks (h : Step p o q) : q.rest.length < p.rest.length ∨
      q.rest = p.rest ∧ ∃ timestamp n, p.awaited = .samples timestamp 0 n ∧ q.awaited = .stamps n := by
  cases h with
  | stream | stamp =>
    left
    rw [length_append, length_put]
    exact Nat.lt_add_of_pos_left (by decide)
  | sample timestamp m n handle content rest hsize =>
    left
    show rest.length < (encodeSample handle content ++ rest).length
    have hpos : 0 < NotificationSample.layout.size := by decide
    rw [encodeSample, length_append, length_append, length_put]
    omega
  | close timestamp n => exact .inr ⟨rfl, timestamp, n, rfl, rfl⟩

/-- The stamps that have been begun. -/
def Awaited.begun : Awaited → Nat
  | .samples _ _ _ => 1
  | _ => 0

theorem Awaited.begun_le (a : Awaited) : a.begun ≤ 1 := by
  cases a <;> simp [Awaited.begun]

/-- Every payload has a place where there is no way on. -/
theorem exists_scan_stuck (p : Place) : ∃ out q, Scan p out q ∧ q.Stuck := by
  -- a step makes the bytes shorter, but for closing a stamp, after which a stamp is awaited
  induction hk : 2 * p.rest.length + p.awaited.begun using Nat.strongRecOn generalizing p with
  | _ k ih =>
    by_cases hs : p.Stuck
    · exact ⟨[], p, .refl p, hs⟩
    simp only [Place.Stuck, not_forall, not_not] at hs
    obtain ⟨o, q, hstep⟩ := hs
    have hless : 2 * q.rest.length + q.awaited.begun < k := by
      have hbegun := q.awaited.begun_le
      rcases hstep.shrinks with hlt | ⟨hrest, timestamp, n, hp, hq⟩
      · omega
      rw [hp] at hk
      rw [hq, hrest]
      simp only [Awaited.begun] at hk ⊢
      omega
    obtain ⟨out, r, hscan, hr⟩ := ih _ hless q rfl
    exact ⟨o.toList ++ out, r, .step hstep hscan, hr⟩

end Steps

/-! ## The decoder at a place -/

/-- What `decodeNotification` still does when it has come to a place. -/
def decodeAt (p : Place) : List NotifSample × Option DecodeErr :=
  match p.awaited with
  | .stream => decodeNotification p.rest
  | .stamps n => decodeStamps n p.rest
  | .samples timestamp m n =>
    match decodeSamples timestamp m p.rest with
    | (emitted, .error err) => (emitted, some err)
    | (emitted, .ok data) =>
      let r := decodeStamps n data
      (emitted ++ r.1, r.2)

section Decoder

variable {p q : Place} {o : Option NotifSample} {out : List NotifSample} {bs : Bytes}

/-- A payload that arrives: with its AMS header it is a frame that `readFrames` accepts. -/
def Receivable (input : Bytes) : Prop := amsHeaderSize + input.length ≤ maxAMSPacket

theorem Receivable.length_lt {input} (h : Receivable input) : input.length < 2 ^ 32 := by
  unfold Receivable maxAMSPacket at h
  omega

theorem binaryRead_some {α : Type} {layout : FixedSize α} {r : α × Bytes}
    (h : layout.read bs = some r) : binaryRead layout bs = .ok r := by
  rw [binaryRead, h]

theorem binaryRead_none {α : Type} {layout : FixedSize α} (h : layout.read bs = none) :
    ∃ err, binaryRead layout bs = .error err := by
  rw [binaryRead, h]
  exact ⟨_, rfl⟩

theorem bufferRead_of_le {n} (h : n ≤ bs.length) : bufferRead n bs = .ok (bs.take n, bs.drop n) := by
  by_cases hbs : bs = []
  · subst hbs
    have hn : n = 0 := Nat.le_zero.1 h
    subst hn
    rfl
  · rw [bufferRead, if_neg hbs]

theorem size_gt_iff {size n} : size > UInt32.ofNat n ↔ n % 2 ^ 32 < size.toNat := by
  rw [gt_iff_lt, UInt32.lt_iff_toNat_lt, UInt32.toNat_ofNat']

variable {timestamp : UInt64}

theorem decodeSamples_succ {n : Nat} {hd : NotificationSample} {data : Bytes}
    (hread : NotificationSample.layout.read bs = some (hd, data)) (hlt : data.length < 2 ^ 32)
    (hle : hd.size.toNat ≤ data.length) : decodeSamples timestamp (n + 1) bs =
      (⟨hd.handle, timestamp, data.take hd.size.toNat⟩ ::
          (decodeSamples timestamp n (data.drop hd.size.toNat)).1,
        (decodeSamples timestamp n (data.drop hd.size.toNat)).2) := by
  have hcheck : ¬ hd.size > UInt32.ofNat data.length := by
    rw [size_gt_iff, Nat.mod_eq_of_lt hlt]
    omega
  have hfull : ¬ (data.take hd.size.toNat).length ≠ hd.size.toNat := by
    rw [length_take_of_le hle]
    simp
  simp only [decodeSamples, binaryRead_some hread, if_neg hcheck, bufferRead_of_le hle, if_neg hfull]

/-- The inner loop gives up when there is no header, or when the check of the size fails. -/
theorem decodeSamples_error {n : Nat} (h : ∀ hd data, NotificationSample.layout.read bs = some (hd, data) →
      data.length % 2 ^ 32 < hd.size.toNat) :
    ∃ err, decodeSamples timestamp (n + 1) bs = ([], .error err) := by
  cases hread : NotificationSample.layout.read bs with
  | none =>
    obtain ⟨err, herr⟩ := binaryRead_none hread
    simp only [decodeSamples, herr]
    exact ⟨_, rfl⟩
  | some r =>
    obtain ⟨hd, data⟩ := r
    have hcheck : hd.size > UInt32.ofNat data.length := size_gt_iff.2 (h hd data hread)
    simp only [decodeSamples, binaryRead_some hread, if_pos hcheck]
    exact ⟨_, rfl⟩

theorem decodeAt_step (h : Step p o q) (hp : p.rest.length < 2 ^ 32) :
    decodeAt p = (o.toList ++ (decodeAt q).1, (decodeAt q).2) := by
  obtain ⟨awaited, bs⟩ := p
  match awaited with
  | .stream =>
    obtain ⟨s, rest, hread, rfl, rfl⟩ := step_stream.1 h
    simp only [decodeAt, decodeNotification, binaryRead_some hread]
    rfl
  | .stamps n =>
    obtain ⟨k, hd, rest, rfl, hread, rfl, rfl⟩ := step_stamps.1 h
    simp only [decodeAt, decodeStamps, binaryRead_some hread]
    rfl
  | .samples timestamp 0 n =>
    obtain ⟨rfl, rfl⟩ := step_close.1 h
    rfl
  | .samples timestamp (m + 1) n =>
    obtain ⟨hd, data, hread, hsize, rfl, rfl⟩ := step_samples.1 h
    have hlt : data.length < 2 ^ 32 := by
      have hbs : (NotificationSample.layout.put hd ++ data).length < 2 ^ 32 := read_eq_some.1 hread ▸ hp
      rw [length_append] at hbs
      omega
    simp only [decodeAt, decodeSamples_succ hread hlt hsize]
    cases hr : decodeSamples timestamp m (data.drop hd.size.toNat) with
    | mk emitted result =>
      cases result with
      | error | ok => rfl

/-- Where there is no way on, it returns: with no error at the end of the payload only. -/
theorem decodeAt_stuck (h : p.Stuck) : (decodeAt p).1 = [] ∧ ((decodeAt p).2 = none ↔ p.Finished) := by
  obtain ⟨awaited, bs⟩ := p
  match awaited with
  | .stream =>
    have hnone : NotificationStream.layout.read bs = none := by
      by_contra hsome
      obtain ⟨r, hr⟩ := Option.ne_none_iff_exists'.1 hsome
      exact h _ _ (step_stream.2 ⟨r.1, r.2, hr, rfl, rfl⟩)
    obtain ⟨err, herr⟩ := binaryRead_none hnone
    simp [decodeAt, decodeNotification, herr, Place.Finished]
  | .stamps 0 => exact ⟨rfl, fun _ => rfl, fun _ => rfl⟩
  | .stamps (n + 1) =>
    have hnone : StampHeader.layout.read bs = none := by
      by_contra hsome
      obtain ⟨r, hr⟩ := Option.ne_none_iff_exists'.1 hsome
      exact h _ _ (step_stamps.2 ⟨n, r.1, r.2, rfl, hr, rfl, rfl⟩)
    obtain ⟨err, herr⟩ := binaryRead_none hnone
    simp [decodeAt, decodeStamps, herr, Place.Finished]
  | .samples timestamp 0 n => exact absurd (step_close.2 ⟨rfl, rfl⟩) (h _ _)
  | .samples timestamp (m + 1) n =>
    obtain ⟨err, herr⟩ : ∃ err, decodeSamples timestamp (m + 1) bs = ([], .error err) := by
      apply decodeSamples_error
      intro hd data hread
      -- the sample is cut off, so its size is more than any part of the length
      have hcut : data.length < hd.size.toNat := by
        by_contra hle
        exact h _ _ (step_samples.2 ⟨hd, data, hread, not_lt.1 hle, rfl, rfl⟩)
      exact (Nat.mod_le _ _).trans_lt hcut
    simp [decodeAt, herr, Place.Finished]

/-- Along a payload, the decoder emits what it goes over. -/
theorem decodeAt_scan (h : Scan p out q) (hp : p.rest.length < 2 ^ 32) :
    decodeAt p = (out ++ (decodeAt q).1, (decodeAt q).2) := by
  induction h with
  | refl => rfl
  | step head tail ih =>
    have hq := head.suffix.length_le.trans_lt hp
    rw [decodeAt_step head hp, ih hq, append_assoc]

/-- The decoder is right about an input: it emits the samples before the first place where there is no way
    on, and returns no error just when this is the end of the payload. -/
def DecodesTo (input : Bytes) (result : List NotifSample × Option DecodeErr) : Prop :=
  ∃ p, Scan (.start input) result.1 p ∧ p.Stuck ∧ (result.2 = none ↔ p.Finished)

theorem decodesTo_of_lt {input} (h : input.length < 2 ^ 32) : DecodesTo input (decodeNotification input) := by
  obtain ⟨out, p, hscan, hp⟩ := exists_scan_stuck (.start input)
  obtain ⟨hnil, hnone⟩ := decodeAt_stuck hp
  have hdec : decodeNotification input = (out, (decodeAt p).2) := by
    have := decodeAt_scan hscan h
    rwa [hnil, append_nil] at this
  rw [hdec]
  exact ⟨p, hscan, hp, hnone⟩

end Decoder

/-! ## Encoding -/

/-- The samples of one time, as many and as long as the fields of the format can say. -/
structure Stamp where
  timestamp : UInt64
  samples : List (UInt32 × Bytes)
  count_lt : samples.length < 2 ^ 32
  size_lt : ∀ x ∈ samples, x.2.length < 2 ^ 32

namespace Stamp

/-- The samples a stamp stands for. -/
def notifSamples (s : Stamp) : List NotifSample :=
  s.samples.map fun x => ⟨x.1, s.timestamp, x.2⟩

/-- A stamp on the wire. -/
def encode (s : Stamp) : Bytes :=
  StampHeader.layout.put ⟨s.timestamp, UInt32.ofNat s.samples.length⟩ ++
    s.samples.flatMap fun x => encodeSample x.1 x.2

end Stamp

variable (length : UInt32)

/-- A payload on the wire, with whatever its header says of its length. -/
def encodeNotification (stamps : List Stamp) : Bytes :=
  NotificationStream.layout.put ⟨length, UInt32.ofNat stamps.length⟩ ++ stamps.flatMap Stamp.encode

theorem scan_samples (timestamp : UInt64) (n : Nat) (rest : Bytes) (ss : List (UInt32 × Bytes))
    (hsize : ∀ x ∈ ss, x.2.length < 2 ^ 32) :
    Scan ⟨.samples timestamp ss.length n, (ss.flatMap fun x => encodeSample x.1 x.2) ++ rest⟩
      (ss.map fun x => ⟨x.1, timestamp, x.2⟩) ⟨.stamps n, rest⟩ := by
  induction ss with
  | nil => exact .single (.close timestamp n rest)
  | cons x ss ih =>
    have hx := hsize x mem_cons_self
    rw [flatMap_cons, append_assoc, length_cons, map_cons]
    exact .step (.sample timestamp ss.length n x.1 x.2 _ hx) (ih fun y hy => hsize y (mem_cons_of_mem x hy))

theorem scan_stamps (stamps : List Stamp) : Scan ⟨.stamps stamps.length, stamps.flatMap Stamp.encode⟩
      (stamps.flatMap Stamp.notifSamples) ⟨.stamps 0, []⟩ := by
  induction stamps with
  | nil => exact .refl _
  | cons s stamps ih =>
    have hcount : (UInt32.ofNat s.samples.length).toNat = s.samples.length :=
      UInt32.toNat_ofNat_of_lt' s.count_lt
    have hstep := Step.stamp stamps.length ⟨s.timestamp, UInt32.ofNat s.samples.length⟩
      ((s.samples.flatMap fun x => encodeSample x.1 x.2) ++ stamps.flatMap Stamp.encode)
    rw [hcount, ← append_assoc] at hstep
    have hscan := scan_samples s.timestamp stamps.length (stamps.flatMap Stamp.encode) s.samples s.size_lt
    rw [flatMap_cons, flatMap_cons, length_cons]
    exact .step hstep (hscan.trans ih)

theorem scan_notification {stamps} (hcount : stamps.length < 2 ^ 32) :
    Scan (.start (encodeNotification length stamps)) (stamps.flatMap Stamp.notifSamples)
      ⟨.stamps 0, []⟩ := by
  have hstep := Step.stream ⟨length, UInt32.ofNat stamps.length⟩ (stamps.flatMap Stamp.encode)
  rw [UInt32.toNat_ofNat_of_lt' hcount] at hstep
  exact .step hstep (scan_stamps stamps)

/-- There are no more stamps than bytes. -/
theorem length_le_encodeNotification (stamps : List Stamp) :
    stamps.length ≤ (encodeNotification length stamps).length := by
  have hstamps : stamps.length ≤ (stamps.flatMap Stamp.encode).length := by
    induction stamps with
    | nil => exact Nat.le_refl 0
    | cons s stamps ih =>
      have hpos : 0 < StampHeader.layout.size := by decide
      rw [flatMap_cons, length_cons, length_append, Stamp.encode, length_append, length_put]
      omega
  rw [encodeNotification, length_append]
  omega

theorem decode_encode {stamps : List Stamp} (h : Receivable (encodeNotification length stamps)) :
    decodeNotification (encodeNotification length stamps) = (stamps.flatMap Stamp.notifSamples, none) := by
  have hcount := (length_le_encodeNotification length stamps).trans_lt h.length_lt
  have hend : decodeAt ⟨.stamps 0, []⟩ = ([], none) := rfl
  have hdec : decodeNotification (encodeNotification length stamps) = _ :=
    decodeAt_scan (scan_notification length hcount) h.length_lt
  rw [hdec, hend, append_nil]

/-- **`decodeNotification` inverts the encoding and stops at the first malformed position**, for every
    payload that arrives; and what `readFrames` leaves in `notifQueue` are such payloads. -/
theorem decodeNotification_decodes (length : UInt32) (stamps : List Stamp) (input : Bytes) :
    (Receivable (encodeNotification length stamps) →
      decodeNotification (encodeNotification length stamps) =
        (stamps.flatMap Stamp.notifSamples, none)) ∧
    (Receivable input → DecodesTo input (decodeNotification input)) ∧
    ∀ (turns : Nat → Turn) (r : BufferedReader UInt8),
      ∀ data ∈ (readFrames turns 0 (fun _ => []) r).queues .notif, Receivable (data.drop amsHeaderSize) := by
  refine ⟨decode_encode length, fun h => decodesTo_of_lt h.length_lt, fun turns r data hdata => ?_⟩
  have hle := readFrames_length_le (fun _ _ h => absurd h not_mem_nil) .notif data hdata
  unfold Receivable amsHeaderSize
  rw [length_drop]
  unfold maxAMSPacket at *
  omega

/-- Two samples at one time, the second of them empty. -/
def twoSamples : Stamp := ⟨5, [(1, [7, 8]), (2, [])], by decide, by decide⟩

/-- The samples of a payload; and of one that is cut off in the header of its second sample, the first. -/
theorem decodeNotification_decodes_two :
    let payload := encodeNotification 0 [twoSamples]
    decodeNotification payload = ([⟨1, 5, [7, 8]⟩, ⟨2, 5, []⟩], none) ∧
      DecodesTo (payload.take 35) (decodeNotification (payload.take 35)) ∧
      (decodeNotification (payload.take 35)).1 = [⟨1, 5, [7, 8]⟩] := by
  intro payload
  have hfits : amsHeaderSize + payload.length ≤ maxAMSPacket := by decide
  have hcut : amsHeaderSize + (payload.take 35).length ≤ maxAMSPacket := by decide
  have h := decodeNotification_decodes 0 [twoSamples] (payload.take 35)
  exact ⟨h.1 hfits, h.2.1 hcut, by decide⟩

end GoAds.Wire
