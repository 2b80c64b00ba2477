import GoAds.Client.Sum

/-!
# `Client.Verdicts` — whose codes the results of a sum command are

A code in a result should be what the PLC said about that item.  Two of the fallbacks keep to it: they
stop where the transport fails and report it.  `sumReadFallback` and `sumWriteFallback` go on, and
report `DeviceError` for an item the PLC never answered.
-/

namespace GoAds.Client

open LittleEndian Notification List
open ReturnCode (deviceInvalidSize noErrors)

/-! ## The item a loop has come to -/

section Items

variable {α : Type} {items rest : List α} {x : α} {i : Nat}

theorem getElem?_of_drop (h : items.drop i = x :: rest) : items[i]? = some x := by
  have h0 : (items.drop i)[0]? = some x := by rw [h]; rfl
  rwa [getElem?_drop, Nat.add_zero] at h0

theorem drop_succ_of_drop (h : items.drop i = x :: rest) : items.drop (i + 1) = rest := by
  rw [← drop_drop (i := 1), h]
  rfl

end Items

/-! ## What was said -/

/-- The code an answer stands for; none where it is no answer of the PLC. -/
def verdictOf {α : Type} : Except Err α → Option ReturnCode
  | .ok _ => some noErrors
  | .error e => e.asReturnCode

/-- The code in the body of an answer to the request. -/
def Request.verdict (body : Bytes) : Request → Option ReturnCode
  | .read .. => verdictOf (decodeData "Read" body)
  | .write .. => verdictOf (decodeCode "Write" body)
  | .writeRead .. => verdictOf (decodeData "WriteRead" body)
  | .addDeviceNotification .. => verdictOf (decodeHandle body)
  | .deleteDeviceNotification .. => verdictOf (decodeCode "DeleteDeviceNotification" body)

/-- What the PLC said in an exchange. -/
def Exchange.verdict (x : Exchange) : Option ReturnCode :=
  match x.reply.payload with
  | .error _ => none
  | .ok body => x.request.verdict body

/-- A `WriteRead`, which carries a sum command. -/
def Exchange.isSum (x : Exchange) : Bool :=
  match x.request with
  | .writeRead .. => true
  | _ => false

/-- The response of a `WriteRead` that succeeded. -/
def Exchange.response (x : Exchange) : Option Bytes :=
  (x.reply.payload.bind (decodeData "WriteRead")).toOption

/-! ## Calls -/

/-- The four sum commands. -/
inductive SumCall
  | read (requests : List SumReadRequest)
  | write (requests : List SumWriteRequest)
  | add (requests : List SumNotificationRequest)
  | delete (handles : List UInt32)

/-- What the four kinds of results have in common. -/
structure Item where
  code : ReturnCode
  skipped : Bool := false

def Outcome.items {Res : Type} (f : Res → Item) (o : Outcome Res) : Outcome Item :=
  ⟨o.results.map f, o.err⟩

/-- The call, and its results as items. -/
def SumCall.run (net : Net) (c : Conn) : SumCall → Outcome Item × Conn
  | .read requests => (sumRead net c requests).map (.items fun r => { code := r.error }) id
  | .write requests => (sumWrite net c requests).map (.items fun r => { code := r.error }) id
  | .add requests =>
    (sumAddDeviceNotification net c requests).map
      (.items fun r => { code := r.error, skipped := r.skipped.isSome }) id
  | .delete handles =>
    (sumDeleteDeviceNotification net c handles).map (.items fun code => { code := code }) id

/-- What was exchanged between two states of a connection. -/
def exchangesSince (c c' : Conn) : List Exchange := c'.exchanges.drop c.exchanges.length

/-! ## Malformed responses of a sum read -/

/-- The length a sum read's response declares for item `j`. -/
def declaredLength (resp : Bytes) (j : Nat) : UInt32 := uint32 (resp.drop (j * 8 + 4))

/-- Where the data of item `j` of `n` starts. -/
def declaredOffset (resp : Bytes) (n : Nat) : Nat → Nat
  | 0 => n * 8
  | j + 1 => declaredOffset resp n j + (declaredLength resp j).toNat

/-- Item `j` does not fit the response: it succeeded with another length than was asked for, or its data
    is not there. -/
def MalformedAt (resp : Bytes) (requests : List SumReadRequest) (j : Nat) : Prop :=
  ∃ q, requests[j]? = some q ∧
    ((itemWord 8 resp j = noErrors ∧ declaredLength resp j ≠ q.length) ∨
      resp.length < declaredOffset resp requests.length j + (declaredLength resp j).toNat)

/-- The response declares the code for item `i`; that of a sum read stands for `DeviceInvalidSize` from
    the first malformed item on. -/
def SumCall.Declares (resp : Bytes) (i : Nat) (code : ReturnCode) : SumCall → Prop
  | .read requests =>
    itemWord 8 resp i = code ∨
      (code = deviceInvalidSize ∧ ∃ j ≤ i, MalformedAt resp requests j)
  | .write _ => itemWord 4 resp i = code
  | .add _ => itemWord 8 resp i = code
  | .delete _ => itemWord 4 resp i = code

/-! ## The contract -/

/-- The request of item `i` alone, if its arguments have an encoding. -/
def SumCall.single (call : SumCall) (i : Nat) : Option Request :=
  match call with
  | .read requests => requests[i]?.bind fun q => (Client.read q.group q.offset q.length).request.toOption
  | .write requests => requests[i]?.bind fun q => (Client.write q.group q.offset q.data).request.toOption
  | .add requests => requests[i]?.bind fun q => q.command.request.toOption
  | .delete handles => handles[i]?.bind fun h => (deleteDeviceNotification h).request.toOption

/-- The PLC answered item `i` with the code: in the item's own command, or in the response of a sum
    command. -/
def SumCall.Verdict (call : SumCall) (exchanges : List Exchange) (i : Nat) (code : ReturnCode) : Prop :=
  (∃ x, (exchanges.filter fun x => !x.isSum)[i]? = some x ∧ call.single i = some x.request ∧
      x.verdict = some code) ∨
    ∃ x ∈ exchanges, x.isSum = true ∧ ∃ resp, x.response = some resp ∧ call.Declares resp i code

/-- What a call promises: a code is a verdict on its item, and an exchange without an answer of the PLC
    shows in the call's error or in a skipped item. -/
structure SumCall.Honest (call : SumCall) (exchanges : List Exchange) (o : Outcome Item) : Prop where
  verdicts : ∀ (i : Nat) (item : Item), o.results[i]? = some item → item.code ≠ noErrors →
    call.Verdict exchanges i item.code
  reported : (∃ x ∈ exchanges, x.verdict = none) →
    o.err ≠ none ∨ ∃ item ∈ o.results, item.skipped = true

/-- The PLC answers every individual read and write of a fallback. -/
def SumCall.FallbackAnswered (exchanges : List Exchange) : SumCall → Prop
  | .read _ | .write _ => ∀ x ∈ exchanges, x.isSum = false → x.verdict ≠ none
  | .add _ | .delete _ => True

/-! ## One command -/

variable {net : Net} {c : Conn} {α Req Res : Type}

variable {decode : Bytes → Except Err α} {cmd : Command α} {e : Err} {call : SumCall}

theorem Conn.send_of_request {r} (h : cmd.request = .ok r) :
    c.send net cmd = ((net c.exchanges r).payload.bind cmd.decode,
      { c with exchanges := c.exchanges ++ [⟨r, net c.exchanges r⟩] }) := by
  unfold Conn.send
  rw [h]

theorem Conn.send_of_error (h : cmd.request = .error e) : c.send net cmd = (.error e, c) := by
  unfold Conn.send
  rw [h]

/-- What keeps `sendRequest` from returning a body is never a verdict of the PLC. -/
theorem Reply.asReturnCode_payload {reply : Reply} (h : reply.payload = .error e) :
    e.asReturnCode = none := by
  cases reply with
  | lost f =>
    obtain rfl : Err.failure f = e := Except.error.inj h
    rfl
  | reply amsErr data =>
    rw [Reply.payload] at h
    split at h
    · obtain rfl : Err.ams amsErr = e := Except.error.inj h
      rfl
    · cases h

variable {x : Exchange} {xs : List Exchange} {o : Outcome Item}

theorem Exchange.verdict_eq (h : ∀ body, verdictOf (decode body) = x.request.verdict body) :
    x.verdict = verdictOf (x.reply.payload.bind decode) := by
  unfold Exchange.verdict
  cases hp : x.reply.payload with
  | error => exact (Reply.asReturnCode_payload hp).symm
  | ok body => exact (h body).symm

/-! ## The fallbacks -/

/-- The loop that never stops: one exchange per request, and each result is made of its own. -/
theorem individually_exchanges {cmd : Req → Command α} {request : Req → Request}
    (hcmd : ∀ q, cmd q = ⟨.ok (request q), decode⟩) (result : Except Err α → Res) (c : Conn) (qs : List Req) :
    ∃ xs : List Exchange,
      (individually net cmd result c qs).2.exchanges = c.exchanges ++ xs ∧
        xs.map (·.request) = qs.map request ∧
        (individually net cmd result c qs).1 =
          xs.map fun x => result (x.reply.payload.bind decode) := by
  induction qs generalizing c with
  | nil => exact ⟨[], (append_nil _).symm, rfl, rfl⟩
  | cons q qs ih =>
    have hsend : c.send net (cmd q) = ((net c.exchanges (request q)).payload.bind decode,
        { c with exchanges := c.exchanges ++ [⟨request q, net c.exchanges (request q)⟩] }) := by
      rw [hcmd q]
      exact Conn.send_of_request rfl
    obtain ⟨xs, hxs, hreq, hres⟩ := ih
      { c with exchanges := c.exchanges ++ [⟨request q, net c.exchanges (request q)⟩] }
    refine ⟨⟨request q, net c.exchanges (request q)⟩ :: xs, ?_, ?_, ?_⟩
    · rw [individually, hsend]
      dsimp only
      rw [hxs, append_assoc]
      rfl
    · rw [map_cons, map_cons, hreq]
    rw [individually, hsend]
    dsimp only
    rw [hres, map_cons]

/-- What a fallback that stops at a failure keeps to. -/
structure Kept (xs : List Exchange) (o : Outcome Item) : Prop where
  verdicts : ∀ (i : Nat) (item : Item), o.results[i]? = some item → item.code ≠ noErrors →
    ∃ x, xs[i]? = some x ∧ x.verdict = some item.code
  reported : (∃ x ∈ xs, x.verdict = none) → o.err ≠ none

theorem Kept.cons (h : Kept xs o) {item}
    (hx : x.verdict = some item.code) : Kept (x :: xs) ⟨item :: o.results, o.err⟩ := by
  refine ⟨?_, ?_⟩
  · intro i item' hi hne
    cases i with
    | zero =>
      obtain rfl : item = item' := by simpa using hi
      exact ⟨x, rfl, hx⟩
    | succ i => exact h.verdicts i item' hi hne
  rintro ⟨y, hy, hnone⟩
  rcases mem_cons.1 hy with rfl | hy
  · rw [hx] at hnone
    cases hnone
  · exact h.reported ⟨y, hy, hnone⟩

/-- A command of a fallback: it is a request whose answers are read as they are meant, or its arguments
    have no encoding. -/
def Command.Single (cmd : Command α) : Prop :=
  (∃ e, cmd.request = .error e ∧ e.asReturnCode = none) ∨
    ∃ r, cmd.request = .ok r ∧ (∀ reply, Exchange.isSum ⟨r, reply⟩ = false) ∧
      ∀ body, verdictOf (cmd.decode body) = r.verdict body

/-- Each exchange is of the request at its position. -/
def Owns (single : Nat → Option Request) (xs : List Exchange) : Prop :=
  ∀ (i : Nat) (x : Exchange), xs[i]? = some x → single i = some x.request

theorem Owns.nil {single} : Owns single [] := fun i x hx => by cases hx

theorem Owns.cons {single} (hx : single 0 = some x.request) (h : Owns (fun i => single (i + 1)) xs) :
    Owns single (x :: xs) := by
  intro i y hy
  cases i with
  | zero =>
    cases hy
    exact hx
  | succ i => exact h i y hy

/-- The loop that stops at the first failure that is no verdict. -/
theorem untilFailure_kept {cmd : Req → Command α} {result : Except ReturnCode α → Res}
    {abandoned : List Req → List Res} {error : Nat → Err → Err} {item : Res → Item}
    (hcmd : ∀ q, (cmd q).Single) (hok : ∀ a, (item (result (.ok a))).code = noErrors)
    (herr : ∀ rc, (item (result (.error rc))).code = rc)
    (habandoned : ∀ qs, ∀ r ∈ abandoned qs, (item r).code = noErrors)
    (i : Nat) (c : Conn) (qs : List Req) : ∃ xs : List Exchange,
      (untilFailure net cmd result abandoned error i c qs).2.exchanges = c.exchanges ++ xs ∧
        (∀ x ∈ xs, x.isSum = false) ∧ Owns (fun j => qs[j]?.bind fun q => (cmd q).request.toOption) xs ∧
        Kept xs ((untilFailure net cmd result abandoned error i c qs).1.items item) := by
  -- what is abandoned carries no code
  have hstop : ∀ (xs : List Exchange) (rest : List Req) (e : Err),
      Kept xs (Outcome.items item ⟨abandoned rest, some e⟩) := by
    intro xs rest e
    refine ⟨?_, fun _ => Option.some_ne_none e⟩
    intro j it hj hne
    rw [Outcome.items, getElem?_map, Option.map_eq_some_iff] at hj
    obtain ⟨r, hr, rfl⟩ := hj
    exact absurd (habandoned rest r (mem_of_getElem? hr)) hne
  induction qs generalizing i c with
  | nil =>
    refine ⟨[], (append_nil _).symm, fun x hx => absurd hx not_mem_nil, .nil, ?_, ?_⟩
    · intro j it hj
      cases hj
    · rintro ⟨x, hx, -⟩
      cases hx
  | cons q qs ih =>
    rw [untilFailure]
    dsimp only
    -- without an encoding nothing is sent; otherwise one exchange is, and its verdict is the item's
    rcases hcmd q with ⟨e, hreq, hnone⟩ | ⟨r, hreq, hsum, hdecode⟩
    · rw [Conn.send_of_error hreq]
      dsimp only
      rw [hnone]
      exact ⟨[], (append_nil _).symm, fun x hx => absurd hx not_mem_nil, .nil, hstop _ _ _⟩
    rw [Conn.send_of_request hreq]
    have hx := Exchange.verdict_eq (x := ⟨r, net c.exchanges r⟩) hdecode
    have hown : (cmd q).request.toOption = some r := by
      rw [hreq]
      rfl
    obtain ⟨xs, hxs, hsums, howns, hkept⟩ := ih (i + 1)
      { c with exchanges := c.exchanges ++ [⟨r, net c.exchanges r⟩] }
    have hcons : ∀ x ∈ (⟨r, net c.exchanges r⟩ : Exchange) :: xs, x.isSum = false := by
      intro x hmem
      rcases mem_cons.1 hmem with rfl | hmem
      · exact hsum _
      · exact hsums x hmem
    -- answered with success, answered with a code, or not answered
    cases hbody : (net c.exchanges r).payload.bind (cmd q).decode with
    | ok =>
      rw [hbody] at hx
      refine ⟨_ :: xs, ?_, hcons, .cons hown howns, hkept.cons ?_⟩
      · dsimp only
        rw [hxs, append_assoc]
        rfl
      · rw [hx, hok]
        rfl
    | error e =>
      rw [hbody] at hx
      dsimp only
      cases hcode : e.asReturnCode with
      | some =>
        refine ⟨_ :: xs, ?_, hcons, .cons hown howns, hkept.cons ?_⟩
        · dsimp only
          rw [hxs, append_assoc]
          rfl
        · rw [hx, herr]
          exact hcode
      | none =>
        refine ⟨[⟨r, net c.exchanges r⟩], rfl, ?_, .cons hown .nil, hstop _ _ _⟩
        intro x hmem
        rw [mem_singleton.1 hmem]
        exact hsum _

/-- What a fallback that does not stop reports: the verdicts, and `DeviceError` where there is none. -/
def Mapped (xs : List Exchange) (o : Outcome Item) : Prop :=
  o = ⟨xs.map fun x => { code := x.verdict.getD ReturnCode.deviceError }, none⟩

theorem Mapped.kept (h : Mapped xs o) (hall : ∀ x ∈ xs, x.verdict ≠ none) : Kept xs o := by
  subst h
  refine ⟨?_, ?_⟩
  · intro i item hi _
    rw [getElem?_map, Option.map_eq_some_iff] at hi
    obtain ⟨x, hx, rfl⟩ := hi
    obtain ⟨code, hcode⟩ := Option.ne_none_iff_exists'.1 (hall x (mem_of_getElem? hx))
    refine ⟨x, hx, ?_⟩
    rw [hcode]
    rfl
  · rintro ⟨x, hx, hnone⟩
    exact absurd hnone (hall x hx)

/-! ## Any call -/

/-- A sum command the PLC refused: it has a verdict and no response. -/
structure Refused (x : Exchange) : Prop where
  isSum : x.isSum = true
  answered : x.verdict ≠ none
  noResponse : x.response = none

/-- How a call can go, by what it exchanged.  `Fallback` relates the exchanges of the
    fallback to what it reports. -/
inductive Sent (call : SumCall) (Fallback : List Exchange → Outcome Item → Prop) :
    List Exchange → Outcome Item → Prop
  /-- Nothing was sent, or a sum command failed: there are no results. -/
  | stopped {xs : List Exchange} {o : Outcome Item} (hsum : ∀ x ∈ xs, x.isSum = true)
      (hres : o.results = []) (herr : (∃ x ∈ xs, x.verdict = none) → o.err ≠ none) :
      Sent call Fallback xs o
  /-- A sum command succeeded, after those the PLC does not know. -/
  | summed {probes : List Exchange} {x : Exchange} {resp : Bytes} {o : Outcome Item}
      (hprobes : ∀ y ∈ probes, Refused y) (hsum : x.isSum = true) (hresp : x.response = some resp)
      (hdeclares : ∀ (i : Nat) (item : Item), o.results[i]? = some item →
        item.code ≠ noErrors → call.Declares resp i item.code) :
      Sent call Fallback (probes ++ [x]) o
  /-- The PLC knows none of them. -/
  | fellBack {probes xs : List Exchange} {o : Outcome Item} (hprobes : ∀ y ∈ probes, Refused y)
      (hsingle : ∀ x ∈ xs, x.isSum = false) (hown : Owns call.single xs) (h : Fallback xs o) :
      Sent call Fallback (probes ++ xs) o

theorem filter_of_sums (h : ∀ x ∈ xs, x.isSum = true) : xs.filter (fun x => !x.isSum) = [] := by
  rw [filter_eq_nil_iff]
  intro x hx
  rw [h x hx]
  exact Bool.false_ne_true

theorem filter_of_singles (h : ∀ x ∈ xs, x.isSum = false) : xs.filter (fun x => !x.isSum) = xs := by
  rw [filter_eq_self]
  intro x hx
  rw [h x hx]
  rfl

theorem Exchange.verdict_of_response {resp} (hsum : x.isSum = true)
    (h : x.response = some resp) : x.verdict ≠ none := by
  have hdecode : ∀ body, verdictOf (decodeData "WriteRead" body) = x.request.verdict body := by
    intro body
    unfold Exchange.isSum at hsum
    split at hsum
    · next heq => rw [heq, Request.verdict]
    · cases hsum
  rw [Exchange.verdict_eq hdecode]
  unfold Exchange.response at h
  cases hb : x.reply.payload.bind (decodeData "WriteRead") with
  | ok => exact Option.some_ne_none _
  | error =>
    rw [hb] at h
    cases h

/-- **A call is honest** whose fallback keeps to the verdicts. -/
theorem Sent.honest {Fallback : List Exchange → Outcome Item → Prop} (h : Sent call Fallback xs o)
    (hkept : ∀ ys ⊆ xs, (∀ y ∈ ys, y.isSum = false) → Fallback ys o → Kept ys o) : call.Honest xs o := by
  cases h with
  | stopped hsum hres herr =>
    refine ⟨?_, fun hx => Or.inl (herr hx)⟩
    intro i item hi
    rw [hres] at hi
    cases hi
  | @summed probes x resp _ hprobes hsum hresp hdeclares =>
    have hx := Exchange.verdict_of_response hsum hresp
    refine ⟨?_, ?_⟩
    · intro i item hi hne
      exact Or.inr ⟨x, mem_append_right _ (mem_singleton_self x), hsum, resp, hresp, hdeclares i item hi hne⟩
    rintro ⟨y, hy, hnone⟩
    rcases mem_append.1 hy with hy | hy
    · exact absurd hnone (hprobes y hy).answered
    · rw [mem_singleton.1 hy] at hnone
      exact absurd hnone hx
  | @fellBack probes ys _ hprobes hsingle hown hf =>
    -- the probes are all sum commands, so item `i` is exchange `i` of the fallback
    have hk := hkept ys (subset_append_right _ _) hsingle hf
    refine ⟨?_, ?_⟩
    · intro i item hi hne
      refine Or.inl ?_
      rw [filter_append, filter_of_sums fun y hy => (hprobes y hy).isSum,
        filter_of_singles hsingle, nil_append]
      obtain ⟨x, hx, hv⟩ := hk.verdicts i item hi hne
      exact ⟨x, hx, hown i x hx, hv⟩
    rintro ⟨y, hy, hnone⟩
    rcases mem_append.1 hy with hy | hy
    · exact absurd hnone (hprobes y hy).answered
    · exact Or.inl (hk.reported ⟨y, hy, hnone⟩)

/-- **An unanswered item of a fallback that does not stop is reported with a code nobody said.** -/
theorem Sent.answered (h : Sent call Mapped xs o) (hhonest : call.Honest xs o) :
    ∀ x ∈ xs, x.isSum = false → x.verdict ≠ none := by
  intro x hx hsingle hnone
  cases h with
  | stopped hsum =>
    rw [hsum x hx] at hsingle
    cases hsingle
  | @summed probes y resp _ hprobes hsum _ _ =>
    rcases mem_append.1 hx with hx | hx
    · rw [(hprobes x hx).isSum] at hsingle
      cases hsingle
    · rw [mem_singleton.1 hx, hsum] at hsingle
      cases hsingle
  | @fellBack probes ys _ hprobes hsingles _ hf =>
    have hys : x ∈ ys := by
      rcases mem_append.1 hx with hx | hx
      · rw [(hprobes x hx).isSum] at hsingle
        cases hsingle
      · exact hx
    -- its item carries `DeviceError`, and honesty would have to find who said so
    obtain ⟨i, hi⟩ := mem_iff_getElem?.1 hys
    have hitem : o.results[i]? = some { code := ReturnCode.deviceError } := by
      rw [hf, getElem?_map, hi, Option.map_some, hnone]
      rfl
    rcases hhonest.verdicts i _ hitem (by decide) with ⟨y, hy, -, hcode⟩ | ⟨y, hy, hsum, resp, hresp, -⟩
    · rw [filter_append, filter_of_sums fun y hy => (hprobes y hy).isSum,
        filter_of_singles hsingles, nil_append, hi] at hy
      obtain rfl : x = y := Option.some.inj hy
      rw [hnone] at hcode
      cases hcode
    rcases mem_append.1 hy with hy | hy
    · rw [(hprobes y hy).noResponse] at hresp
      cases hresp
    · rw [hsingles y hy] at hsum
      cases hsum

end GoAds.Client
