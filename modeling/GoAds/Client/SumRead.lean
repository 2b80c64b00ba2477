import GoAds.Client.Sum

/-!
# `Client.SumRead` — batched and individual reads of one PLC

A PLC answers a read with a code or with bytes, and serves `SumReadEx2`, only `SumReadEx`, or neither.
Whatever it serves, `SumRead` reports the same for the items whose answers have the length they were
asked for, up to the first that does not: a sum response is read by position, so from there on nothing in
it is trusted.
-/

namespace GoAds.Client

open LittleEndian List
open ReturnCode (deviceInvalidSize noErrors)

/-! ## The PLC -/

/-- Which sum read the PLC knows. -/
inductive Support
  | ex2 | ex | none
  deriving DecidableEq, Repr

/-- The PLC serves the sum read of this group. -/
def Support.serves : Support → UInt32 → Bool
  | .ex2, group => group == groupSumupReadEx2 || group == groupSumupReadEx
  | .ex, group => group == groupSumupReadEx
  | .none, _ => false

/-- What the client may have found out about the PLC: nothing, or what is so. -/
def Support.Known : Support → UInt32 → Prop
  | .ex2, cmd => cmd = 0 ∨ cmd = groupSumupReadEx2
  | .ex, cmd => cmd = 0 ∨ cmd = groupSumupReadEx
  | .none, cmd => cmd = 0 ∨ cmd = 1

/-- How a PLC answers a single read: a return code, or bytes of any number. -/
abbrev Answers := SumReadRequest → Except ReturnCode Bytes

variable (answer : Answers)

def Answers.code (q : SumReadRequest) : ReturnCode :=
  match answer q with
  | .error rc => rc
  | .ok _ => noErrors

def Answers.data (q : SumReadRequest) : Bytes :=
  match answer q with
  | .error _ => []
  | .ok data => data

def Answers.result (q : SumReadRequest) : SumReadResult :=
  { error := answer.code q, data := answer.data q }

/-- The answer is a failure, or has the length that was asked for. -/
def Answers.Exact (q : SumReadRequest) : Prop :=
  answer.code q ≠ noErrors ∨ (answer.data q).length = q.length.toNat

instance (q : SumReadRequest) : Decidable (answer.Exact q) :=
  inferInstanceAs (Decidable (_ ∨ _))

variable (code : ReturnCode) (body : Bytes)

/-- A response with its code and the length of its body. -/
def dataResponse : Bytes :=
  putUint32 code ++ (putUint32 (UInt32.ofNat body.length) ++ body)

/-- The code and length of one item of a sum response. -/
def Answers.header (q : SumReadRequest) : Bytes :=
  putUint32 (answer.code q) ++
    putUint32 (UInt32.ofNat (answer.data q).length)

/-- A sum response: the codes and lengths, then the data. -/
def Answers.sumResponse (requests : List SumReadRequest) : Bytes :=
  requests.flatMap answer.header ++ requests.flatMap answer.data

/-- The requests in the payload of a sum read. -/
def requestsOf : Nat → Bytes → List SumReadRequest
  | 0, _ => []
  | n + 1, bs =>
    ⟨uint32 bs, uint32 (bs.drop 4), uint32 (bs.drop 8)⟩ :: requestsOf n (bs.drop 12)

/-- What the PLC answers; `refusal` is its answer to commands it does not know. -/
def respond (support : Support) (refusal : ReturnCode) : Request → Bytes
  | .read group offset length =>
    dataResponse (answer.code ⟨group, offset, length⟩) (answer.data ⟨group, offset, length⟩)
  | .writeRead group count _ send =>
    if support.serves group then dataResponse noErrors (answer.sumResponse (requestsOf count.toNat send))
    else dataResponse refusal []
  | _ => dataResponse refusal []

/-- The PLC at the other end of a transport.  A frame that is too long takes the transport down, and then
    nothing comes back any more. -/
def serve (support : Support) (refusal : ReturnCode) : Net := fun exchanges request =>
  if exchanges.any fun x => x.reply == .lost .transportClosed then .lost .transportClosed
  else (Reply.reply 0 (respond answer support refusal request)).framed

/-- The transport has not gone down. -/
def Conn.Up (c : Conn) : Prop := ∀ x ∈ c.exchanges, x.reply ≠ .lost .transportClosed

instance (c : Conn) : Decidable c.Up := inferInstanceAs (Decidable (∀ _ ∈ _, _))

/-! ## What the client reads of the PLC's responses -/

theorem drop_dataResponse : (dataResponse code body).drop 8 = body := by
  rw [dataResponse, ← drop_drop (i := 4) (j := 4), drop_putUint32_append, drop_putUint32_append]

theorem length_dataResponse : (dataResponse code body).length = 8 + body.length := by
  rw [dataResponse, length_append, length_append, length_putUint32, length_putUint32]
  omega

/-- An answer that fits its frame comes back, and the transport stays up. -/
theorem send_serve (support : Support) (refusal : ReturnCode) {c : Conn} (hup : c.Up) {α : Type}
    (cmd : Command α) {request : Request} (hreq : cmd.request = .ok request)
    (hfits : Wire.amsHeaderSize + (respond answer support refusal request).length ≤ Wire.maxAMSPacket) :
    ∃ c' : Conn, c'.Up ∧
      c.send (serve answer support refusal) cmd =
        (cmd.decode (respond answer support refusal request), c') := by
  have hserve : serve answer support refusal c.exchanges request =
      .reply 0 (respond answer support refusal request) := by
    have hdown : ¬ (c.exchanges.any fun x => x.reply == .lost .transportClosed) = true := by
      rw [any_eq_true]
      rintro ⟨x, hx, hlost⟩
      exact hup x hx (by simpa using hlost)
    rw [serve, if_neg hdown, Reply.framed, if_neg (Nat.not_lt.2 hfits)]
  refine ⟨{ c with exchanges := c.exchanges ++
    [⟨request, .reply 0 (respond answer support refusal request)⟩] }, ?_, ?_⟩
  · intro x hx
    rcases mem_append.1 hx with hx | hx
    · exact hup x hx
    · rw [mem_singleton.1 hx]
      exact fun h => nomatch h
  · unfold Conn.send
    rw [hreq]
    dsimp only
    rw [hserve]
    rfl

theorem decodeData_failed (op : String) {code} (body : Bytes)
    (hcode : code ≠ noErrors) : decodeData op (dataResponse code body) =
      .error (.wrap ("ADS error in " ++ op) (.returnCode code)) := by
  have hlen := length_dataResponse code body
  have hpos : code > 0 := UInt32.pos_iff_ne_zero.2 hcode
  unfold decodeData
  rw [if_neg (by omega)]
  dsimp only
  rw [dataResponse, uint32_putUint32_append, if_pos hpos]

theorem decodeData_ok (op : String) {body} (hbody : body.length < 2 ^ 32) :
    decodeData op (dataResponse noErrors body) = .ok body := by
  have hlen := length_dataResponse noErrors body
  have hfield : uint32 ((dataResponse noErrors body).drop 4) = UInt32.ofNat body.length := by
    rw [dataResponse, drop_putUint32_append, uint32_putUint32_append]
  have hnat : (UInt32.ofNat body.length).toNat = body.length := by
    exact UInt32.toNat_ofNat_of_lt' hbody
  have hcode : ¬ uint32 (dataResponse noErrors body) > 0 := by
    rw [dataResponse, uint32_putUint32_append]
    decide
  unfold decodeData
  rw [if_neg (by omega)]
  dsimp only
  rw [if_neg hcode, hfield, hnat, drop_dataResponse, if_neg (Nat.lt_irrefl _), take_length]

theorem requestsOf_bytes (requests : List SumReadRequest) :
    requestsOf requests.length (requests.flatMap SumReadRequest.bytes) = requests := by
  induction requests with
  | nil => rfl
  | cons q qs ih =>
    have hassoc : (q :: qs).flatMap SumReadRequest.bytes = putUint32 q.group ++ (putUint32 q.offset ++
        (putUint32 q.length ++ qs.flatMap SumReadRequest.bytes)) := by
      rw [flatMap_cons, SumReadRequest.bytes, append_assoc, append_assoc]
    have h4 : ((q :: qs).flatMap SumReadRequest.bytes).drop 4 = putUint32 q.offset ++
        (putUint32 q.length ++ qs.flatMap SumReadRequest.bytes) := by
      rw [hassoc, drop_putUint32_append]
    have h8 : ((q :: qs).flatMap SumReadRequest.bytes).drop 8 =
        putUint32 q.length ++ qs.flatMap SumReadRequest.bytes := by
      rw [← drop_drop (i := 4) (j := 4), h4, drop_putUint32_append]
    have h12 : ((q :: qs).flatMap SumReadRequest.bytes).drop 12 = qs.flatMap SumReadRequest.bytes := by
      rw [← drop_drop (i := 4) (j := 8), h8, drop_putUint32_append]
    rw [length_cons, requestsOf, h12, h8, h4, ih, hassoc]
    simp only [uint32_putUint32_append]

/-! ## The sum paths -/

/-- What is reported of a sum response: the answers, up to the first that is not exact. -/
def Answers.sumResults : List SumReadRequest → List SumReadResult
  | [] => []
  | q :: qs =>
    if answer.Exact q then answer.result q :: sumResults qs
    else (q :: qs).map fun _ => .lostItem

variable {answer}

variable {resp : Bytes} {i : Nat} {q : SumReadRequest}

theorem Answers.data_of_failed (h : answer.code q ≠ noErrors) : answer.data q = [] := by
  unfold Answers.code at h
  unfold Answers.data
  split
  · rfl
  next heq =>
  rw [heq] at h
  exact absurd rfl h

theorem header_words {behind qs}
    (h : resp.drop (i * 8) = (q :: qs).flatMap answer.header ++ behind) :
    uint32 (resp.drop (i * 8)) = answer.code q ∧
      uint32 (resp.drop (i * 8 + 4)) = UInt32.ofNat (answer.data q).length ∧
      resp.drop ((i + 1) * 8) = qs.flatMap answer.header ++ behind := by
  have hhead : resp.drop (i * 8) = putUint32 (answer.code q) ++
      (putUint32 (UInt32.ofNat (answer.data q).length) ++ (qs.flatMap answer.header ++ behind)) := by
    rw [h, flatMap_cons, Answers.header, append_assoc, append_assoc]
  have hword : resp.drop (i * 8 + 4) =
      putUint32 (UInt32.ofNat (answer.data q).length) ++ (qs.flatMap answer.header ++ behind) := by
    rw [← drop_drop, hhead, drop_putUint32_append]
  refine ⟨?_, ?_, ?_⟩
  · rw [hhead, uint32_putUint32_append]
  · rw [hword, uint32_putUint32_append]
  · have hi : (i + 1) * 8 = i * 8 + 4 + 4 := by omega
    rw [hi, ← drop_drop (i := 4), hword, drop_putUint32_append]

/-- The loop of `parseSumReadResponse` on the PLC's response, from any item on: `resp` has the headers
    of the remaining items at `i`, and their data at `dataOffset`. -/
theorem sumReadItems_response (hresp : resp.length < 2 ^ 32)
    (requests : List SumReadRequest) : ∀ (i dataOffset : Nat) (behind : Bytes),
    resp.drop (i * 8) = requests.flatMap answer.header ++ behind →
    resp.drop dataOffset = requests.flatMap answer.data →
    sumReadItems resp i dataOffset requests = answer.sumResults requests := by
  induction requests with
  | nil =>
    intro i dataOffset behind _ _
    rfl
  | cons q qs ih =>
    intro i dataOffset behind hhead hdata
    obtain ⟨herror, hword, hnext⟩ := header_words hhead
    rw [flatMap_cons] at hdata
    have hsize : resp.length - dataOffset = (answer.data q).length + (qs.flatMap answer.data).length := by
      rw [← length_drop, hdata, length_append]
    -- neither word of the comparison with `remaining` wraps
    have hlen : (UInt32.ofNat (answer.data q).length).toNat = (answer.data q).length :=
      UInt32.toNat_ofNat_of_lt' (show _ < 2 ^ 32 by omega)
    have hremaining : (UInt32.ofNat (resp.length - dataOffset)).toNat = resp.length - dataOffset :=
      UInt32.toNat_ofNat_of_lt' (show _ < 2 ^ 32 by omega)
    have hdata' : resp.drop (dataOffset + (answer.data q).length) = qs.flatMap answer.data := by
      rw [← drop_drop, hdata, drop_left]
    have hrest := ih (i + 1) (dataOffset + (answer.data q).length) behind hnext hdata'
    rw [sumReadItems, herror, hword, hlen, Answers.sumResults]
    simp only [UInt32.lt_iff_toNat_lt, gt_iff_lt, hlen, hremaining]
    -- an error has no data and is exact; data is exact in the length asked for, else the rest is lost
    by_cases hcode : answer.code q ≠ noErrors
    · have hexact : answer.Exact q := Or.inl hcode
      rw [if_pos hcode, if_neg (by omega), if_pos hexact, hrest, Answers.result, Answers.data_of_failed hcode]
    rw [if_neg hcode]
    by_cases hsame : (answer.data q).length = q.length.toNat
    · have hexact : answer.Exact q := Or.inr hsame
      have htake : (resp.drop dataOffset).take (answer.data q).length = answer.data q := by
        rw [hdata, take_left]
      rw [if_neg (by omega), if_neg (by omega), if_neg (by omega), if_pos hexact, hrest, htake,
        Answers.result, not_not.1 hcode]
    have hinexact : ¬ answer.Exact q := fun h => h.elim hcode hsame
    rw [if_neg hinexact]
    by_cases hshort : (answer.data q).length < q.length.toNat
    · rw [if_pos hshort]
    · rw [if_neg hshort, if_pos (by omega)]

theorem length_headers (answer : Answers) (requests : List SumReadRequest) :
    (requests.flatMap answer.header).length = requests.length * 8 := by
  induction requests with
  | nil => rfl
  | cons q qs ih =>
    rw [flatMap_cons, length_append, ih, Answers.header, length_append,
      length_putUint32, length_putUint32, length_cons]
    omega

theorem parseSumReadResponse_response {requests}
    (hfits : (answer.sumResponse requests).length < 2 ^ 32) :
    parseSumReadResponse (answer.sumResponse requests) requests =
      ⟨answer.sumResults requests, none⟩ := by
  have hheaders := length_headers answer requests
  have hlen : (answer.sumResponse requests).length =
      requests.length * 8 + (requests.flatMap answer.data).length := by
    rw [Answers.sumResponse, length_append, hheaders]
  have hitems : sumReadItems (answer.sumResponse requests) 0 (requests.length * 8) requests =
      answer.sumResults requests := by
    apply sumReadItems_response hfits requests 0 (requests.length * 8) (requests.flatMap answer.data)
    · rw [Nat.zero_mul, drop_zero, Answers.sumResponse]
    · rw [Answers.sumResponse, ← hheaders, drop_left]
  unfold parseSumReadResponse
  dsimp only
  rw [if_neg (by omega), hitems]

variable {support : Support} {refusal : ReturnCode} {requests : List SumReadRequest}

section

variable (href : isSumCommandUnsupportedError (.returnCode refusal) = true)

include href

theorem refusal_ne : refusal ≠ noErrors := by
  rintro rfl
  exact absurd href (by decide)

/-- The refusal is found through the wrapping, so the next command is tried. -/
theorem retry_refused : ¬ (!isSumCommandUnsupportedError
        (.wrap "ADS error in WriteRead" (.returnCode refusal))) = true := by
  rw [Bool.not_eq_true', Bool.not_eq_false]
  exact href

end

theorem length_lt_of_total (hsize : sumReadTotal requests ≤ maxUint32) : requests.length < 2 ^ 32 := by
  unfold sumReadTotal maxUint32 at hsize
  omega

theorem FitsFrame.length_lt {data} (h : FitsFrame data) : data.length < 2 ^ 32 := by
  unfold FitsFrame Wire.maxAMSPacket at h
  omega

section

variable {c : Conn} (hup : c.Up)

include hup

theorem send_served (support : Support) (refusal : ReturnCode) (group : UInt32)
    (hs : support.serves group = true) (hn : requests.length < 2 ^ 32)
    (hfits : FitsFrame (answer.sumResponse requests)) :
    ∃ c', c.send (serve answer support refusal)
      (sumReadCommand group (UInt32.ofNat (sumReadTotal requests)) requests) =
      (.ok (answer.sumResponse requests), c') := by
  have hcount : (UInt32.ofNat requests.length).toNat = requests.length :=
    UInt32.toNat_ofNat_of_lt' hn
  have hrespond : ∀ readLen, respond answer support refusal (.writeRead group (UInt32.ofNat requests.length)
      readLen (requests.flatMap SumReadRequest.bytes)) =
        dataResponse noErrors (answer.sumResponse requests) := by
    intro readLen
    rw [respond, if_pos hs, hcount, requestsOf_bytes]
  obtain ⟨c', -, hsend⟩ := send_serve answer support refusal hup
    (sumReadCommand group (UInt32.ofNat (sumReadTotal requests)) requests) rfl
    (by rw [hrespond, length_dataResponse]; exact hfits)
  rw [hrespond] at hsend
  exact ⟨c', hsend.trans (congrArg (·, c') (decodeData_ok "WriteRead" hfits.length_lt))⟩

theorem send_refused (answer : Answers) (support : Support) (requests : List SumReadRequest)
    (group : UInt32) (hs : support.serves group = false)
    (href : isSumCommandUnsupportedError (.returnCode refusal) = true) :
    ∃ c' : Conn, c'.Up ∧ c.send (serve answer support refusal)
      (sumReadCommand group (UInt32.ofNat (sumReadTotal requests)) requests) =
      (.error (.wrap "ADS error in WriteRead" (.returnCode refusal)), c') := by
  have hrespond : ∀ count readLen send, respond answer support refusal (.writeRead group count readLen send) =
      dataResponse refusal [] := by
    intro count readLen send
    rw [respond, if_neg (by rw [hs]; exact Bool.false_ne_true)]
  obtain ⟨c', hup', hsend⟩ := send_serve answer support refusal hup
    (sumReadCommand group (UInt32.ofNat (sumReadTotal requests)) requests)
    rfl (by rw [hrespond, length_dataResponse]; decide)
  rw [hrespond] at hsend
  exact ⟨c', hup', hsend.trans (congrArg (·, c') (decodeData_failed "WriteRead" [] (refusal_ne href)))⟩

/-- **The sum paths.**  Whether the command is found out by this call or known from an earlier one. -/
theorem sumRead_served (hsupport : support ≠ .none) (hcmd : support.Known c.capabilities.sumReadCmd)
    (href : isSumCommandUnsupportedError (.returnCode refusal) = true)
    (hsize : sumReadTotal requests ≤ maxUint32) (hfits : FitsFrame (answer.sumResponse requests)) :
    (sumRead (serve answer support refusal) c requests).1 = ⟨answer.sumResults requests, none⟩ := by
  have hn := length_lt_of_total hsize
  have hparse := parseSumReadResponse_response hfits.length_lt
  unfold sumRead
  dsimp only
  by_cases hempty : requests.isEmpty = true
  · rw [if_pos hempty, List.isEmpty_iff.1 hempty, Answers.sumResults]
  rw [if_neg hempty, if_neg (c := _ > maxUint32) (Nat.not_lt.2 hsize)]
  cases support with
  | none => exact absurd rfl hsupport
  | ex2 =>
    obtain ⟨c', hsend⟩ := send_served hup .ex2 refusal groupSumupReadEx2 rfl hn hfits
    -- the command is not known yet, or it is this one
    rcases hcmd with hcmd | hcmd
    · rw [hcmd, if_neg (by decide), if_neg (by decide), sumReadProbe, hsend]
      exact hparse
    · rw [hcmd, if_neg (by decide), if_pos (by decide), sumReadExec, hsend]
      exact hparse
  | ex =>
    rcases hcmd with hcmd | hcmd
    · -- the probe is refused once
      obtain ⟨c₁, hup₁, hrefused⟩ := send_refused hup answer .ex requests groupSumupReadEx2 rfl href
      obtain ⟨c₂, hsend⟩ := send_served hup₁ .ex refusal groupSumupReadEx rfl hn hfits
      rw [hcmd, if_neg (by decide), if_neg (by decide), sumReadProbe, hrefused]
      dsimp only
      rw [if_neg (retry_refused href), hsend]
      exact hparse
    · obtain ⟨c', hsend⟩ := send_served hup .ex refusal groupSumupReadEx rfl hn hfits
      rw [hcmd, if_neg (by decide), if_pos (by decide), sumReadExec, hsend]
      exact hparse

end

/-! ## The individual path -/

/-- What the fallback reports of one read. -/
def Answers.single (answer : Answers) (q : SumReadRequest) : SumReadResult :=
  .ofRead (decodeData "Read" (dataResponse (answer.code q) (answer.data q)))

theorem Answers.single_of_exact (h : answer.Exact q) : answer.single q = answer.result q := by
  unfold Answers.single Answers.result
  by_cases hcode : answer.code q = noErrors
  · have hlen : (answer.data q).length = q.length.toNat := h.resolve_left fun hne => hne hcode
    have hbody : (answer.data q).length < 2 ^ 32 := by
      rw [hlen]
      exact q.length.toNat_lt
    rw [hcode, decodeData_ok "Read" hbody]
    rfl
  · rw [decodeData_failed "Read" _ hcode, Answers.data_of_failed hcode]
    rfl

theorem FitsFrame.item (h : FitsFrame (answer.sumResponse requests)) :
    ∀ q ∈ requests, FitsFrame (answer.data q) := by
  intro q hq
  obtain ⟨as, bs, rfl⟩ := append_of_mem hq
  unfold FitsFrame Answers.sumResponse at *
  simp only [flatMap_append, flatMap_cons, length_append] at h
  omega

theorem individually_serve {c : Conn} (hup : c.Up) (hfits : ∀ q ∈ requests, FitsFrame (answer.data q)) :
    (individually (serve answer support refusal) (fun q => read q.group q.offset q.length)
      SumReadResult.ofRead c requests).1 = requests.map answer.single := by
  induction requests generalizing c with
  | nil => rfl
  | cons q qs ih =>
    obtain ⟨c', hup', hsend⟩ := send_serve answer support refusal hup (read q.group q.offset q.length) rfl (by
      rw [respond, length_dataResponse]
      exact hfits q (mem_cons_self ..))
    rw [individually, map_cons, hsend]
    dsimp only
    rw [ih hup' fun q' hq' => hfits q' (mem_cons_of_mem q hq')]
    rfl

theorem sumRead_individually {c : Conn} (hup : c.Up) (hcmd : Support.none.Known c.capabilities.sumReadCmd)
    (href : isSumCommandUnsupportedError (.returnCode refusal) = true)
    (hsize : sumReadTotal requests ≤ maxUint32) (hfits : FitsFrame (answer.sumResponse requests)) :
    (sumRead (serve answer .none refusal) c requests).1 = ⟨requests.map answer.single, none⟩ := by
  have hfallback : ∀ c : Conn, c.Up → (sumReadFallback (serve answer .none refusal) c requests).1 =
      ⟨requests.map answer.single, none⟩ := by
    intro c hup
    unfold sumReadFallback
    dsimp only
    rw [individually_serve hup hfits.item]
  unfold sumRead
  dsimp only
  by_cases hempty : requests.isEmpty = true
  · rw [if_pos hempty, List.isEmpty_iff.1 hempty, map_nil]
  rw [if_neg hempty, if_neg (c := _ > maxUint32) (Nat.not_lt.2 hsize)]
  rcases hcmd with hcmd | hcmd
  · -- the probe is refused twice
    obtain ⟨c₁, hup₁, hex2⟩ := send_refused hup answer .none requests groupSumupReadEx2 rfl href
    obtain ⟨c₂, hup₂, hex⟩ := send_refused hup₁ answer .none requests groupSumupReadEx rfl href
    rw [hcmd, if_neg (by decide), if_neg (by decide), sumReadProbe, hex2]
    dsimp only
    rw [if_neg (retry_refused href), hex]
    dsimp only
    rw [if_neg (retry_refused href)]
    exact hfallback _ hup₂
  · rw [hcmd, if_pos rfl]
    exact hfallback c hup

/-! ## The paths agree -/

theorem Answers.length_sumResults (answer : Answers) (requests : List SumReadRequest) :
    (answer.sumResults requests).length = requests.length := by
  induction requests with
  | nil => rfl
  | cons q qs ih =>
    rw [Answers.sumResults]
    split
    · rw [length_cons, ih, length_cons]
    · rw [length_map]

/-- Up to item `i` every answer is exact. -/
def Answers.ExactTo (answer : Answers) (requests : List SumReadRequest) (i : Nat) : Prop :=
  ∀ q ∈ requests.take (i + 1), answer.Exact q

instance (answer : Answers) (requests : List SumReadRequest) (i : Nat) :
    Decidable (answer.ExactTo requests i) :=
  inferInstanceAs (Decidable (∀ q ∈ requests.take (i + 1), answer.Exact q))

theorem Answers.sumResults_exact (hq : requests[i]? = some q)
    (h : answer.ExactTo requests i) : (answer.sumResults requests)[i]? = some (answer.result q) := by
  induction requests generalizing i with
  | nil => cases hq
  | cons q₀ qs ih =>
    have h₀ : answer.Exact q₀ := h q₀ (mem_cons_self ..)
    rw [Answers.sumResults, if_pos h₀]
    cases i with
    | zero =>
      obtain rfl : q₀ = q := by simpa using hq
      rfl
    | succ => exact ih hq fun q' hq' => h q' (mem_cons_of_mem _ hq')

theorem Answers.sumResults_inexact (hq : requests[i]? = some q)
    (h : ¬ answer.ExactTo requests i) : (answer.sumResults requests)[i]? = some .lostItem := by
  induction requests generalizing i with
  | nil => cases hq
  | cons q₀ qs ih =>
    rw [Answers.sumResults]
    by_cases h₀ : answer.Exact q₀
    · rw [if_pos h₀]
      cases i with
      | zero =>
        refine absurd (fun q' hq' => ?_) h
        obtain rfl : q' = q₀ := by simpa using hq'
        exact h₀
      | succ =>
        refine ih hq fun hqs => h fun q' hq' => ?_
        rcases mem_cons.1 hq' with rfl | hq'
        · exact h₀
        · exact hqs q' hq'
    · rw [if_neg h₀, getElem?_map, hq]
      rfl

/-- **Batched and individual reads agree**, for every list of requests that passes the size guard and
    every PLC whose answers to them fit one frame: whatever it serves, and whether or not the client
    knows it yet, `SumRead` succeeds with one result per request.  As long as the answers are exact, each
    result is the PLC's answer to that request; from the first answer that is not, the sum paths report
    `DeviceInvalidSize` without data, and the individual path still reports every exact answer. -/
theorem sumRead_agrees (answer : Answers) (support : Support) (refusal : ReturnCode) (c : Conn)
    (requests : List SumReadRequest) (hup : c.Up) (hcmd : support.Known c.capabilities.sumReadCmd)
    (href : isSumCommandUnsupportedError (.returnCode refusal) = true)
    (hsize : sumReadTotal requests ≤ maxUint32) (hfits : FitsFrame (answer.sumResponse requests)) :
    (sumRead (serve answer support refusal) c requests).1.err = none ∧
      (sumRead (serve answer support refusal) c requests).1.results.length = requests.length ∧
      ∀ (i : Nat) (q : SumReadRequest), requests[i]? = some q →
        (answer.ExactTo requests i →
          (sumRead (serve answer support refusal) c requests).1.results[i]? =
            some { error := answer.code q, data := answer.data q }) ∧
        (support ≠ .none → ¬ answer.ExactTo requests i →
          (sumRead (serve answer support refusal) c requests).1.results[i]? =
            some { error := deviceInvalidSize, data := [] }) ∧
        (support = .none → answer.Exact q →
          (sumRead (serve answer support refusal) c requests).1.results[i]? =
            some { error := answer.code q, data := answer.data q }) := by
  by_cases hsupport : support = .none
  · subst hsupport
    have hsingle : ∀ (i : Nat) (q : SumReadRequest), requests[i]? = some q → answer.Exact q →
        (requests.map answer.single)[i]? = some (answer.result q) := by
      intro i q hq hexact
      rw [getElem?_map, hq, Option.map_some, Answers.single_of_exact hexact]
    rw [sumRead_individually hup hcmd href hsize hfits]
    refine ⟨rfl, length_map .., fun i q hq => ⟨fun h => ?_, fun h => absurd rfl h, ?_⟩⟩
    · apply hsingle i q hq
      apply h
      exact mem_of_getElem? (i := i) (by rw [getElem?_take_of_succ, hq])
    · exact fun _ => hsingle i q hq
  · rw [sumRead_served hup hsupport hcmd href hsize hfits]
    refine ⟨rfl, answer.length_sumResults requests, fun i q hq => ⟨?_, fun _ => ?_, ?_⟩⟩
    · exact Answers.sumResults_exact hq
    · exact Answers.sumResults_inexact hq
    · exact fun h => absurd h hsupport

namespace Example

/-- Two bytes at offset 0, no such symbol at offset 1, and one byte elsewhere. -/
def memory : Answers := fun q =>
  if q.offset = 0 then .ok [1, 2] else if q.offset = 1 then .error 0x710 else .ok [3]

/-- Four reads, the third of which comes back short. -/
def reads : List SumReadRequest :=
  [⟨0xF005, 0, 2⟩, ⟨0xF005, 1, 4⟩, ⟨0xF005, 2, 2⟩, ⟨0xF005, 0, 2⟩]

end Example

open Example in
/-- The second item is the PLC's code, and the fourth is lost on the sum paths only. -/
theorem sumRead_agrees_reads :
    (sumRead (serve memory .ex 0x701) {} reads).1.results[1]? = some { error := 0x710, data := [] } ∧
      (sumRead (serve memory .ex 0x701) {} reads).1.results[3]? =
        some { error := deviceInvalidSize, data := [] } ∧
      (sumRead (serve memory .none 0x701) {} reads).1.results[3]? =
        some { error := noErrors, data := [1, 2] } := by
  have hex := sumRead_agrees memory .ex 0x701 {} reads (by decide) (Or.inl rfl) (by decide) (by decide)
    (by decide)
  have hnone := sumRead_agrees memory .none 0x701 {} reads (by decide) (Or.inl rfl) (by decide) (by decide)
    (by decide)
  refine ⟨?_, ?_, ?_⟩
  · exact (hex.2.2 1 ⟨0xF005, 1, 4⟩ rfl).1 (by decide)
  · exact (hex.2.2 3 ⟨0xF005, 0, 2⟩ rfl).2.1 (by decide) (by decide)
  · exact (hnone.2.2 3 ⟨0xF005, 0, 2⟩ rfl).2.2 rfl (by decide)

open Example in
/-- A read that comes back short, and the one behind it, are reported differently. -/
theorem sumRead_disagrees : ¬ ∀ (answer : Answers) (requests : List SumReadRequest),
      (sumRead (serve answer .ex2 0x701) {} requests).1 =
        (sumRead (serve answer .none 0x701) {} requests).1 := by
  intro hall
  exact absurd (hall memory reads) (by decide +kernel)

end GoAds.Client
