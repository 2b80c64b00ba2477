import GoAds.Lib.Slices
import GoAds.Client.Verdicts

/-!
# `Client.SumLayout` — what a sum read makes of an arbitrary response

The data section of a sum read's response is located by the lengths that its headers declare, and the
headers may say anything.  Here `parseSumReadResponse` is also written with its slice expressions, to see
that none is out of range.  What is left of the response is computed as a `uint32`, which is exact for the
responses that fit a frame.
-/

namespace GoAds.Client

open LittleEndian Notification Slices List
open ReturnCode (deviceInvalidSize noErrors)

/-! ## With its slices -/

/-- The two words of an item's header. -/
structure SumReadHeader where
  error : ReturnCode
  length : UInt32

/-- The first loop, for item `i`. -/
def sumReadHeader (resp : Bytes) (i : Nat) : Option SumReadHeader := do
  let error ← uint32At resp (i * 8)
  let length ← uint32At resp (i * 8 + 4)
  some ⟨error, length⟩

/-- The second loop, from item `i` on; nothing when a slice or an index is out of range. -/
def sumReadLoop (resp : Bytes) (requests : List SumReadRequest) :
    Nat → Nat → List SumReadHeader → Option (List SumReadResult)
  | _, _, [] => some []
  | i, dataOffset, h :: hs =>
    let remaining := UInt32.ofNat (resp.length - dataOffset)
    let cascade := some ((h :: hs).map fun _ => SumReadResult.lostItem)
    if h.error ≠ noErrors then
      if h.length > remaining then cascade
      else (sumReadLoop resp requests (i + 1) (dataOffset + h.length.toNat) hs).map ({ error := h.error } :: ·)
    else
      requests[i]?.bind fun q =>
        if h.length < q.length then cascade
        else if h.length > q.length then cascade
        else if h.length > remaining then cascade
        else
          (slice resp dataOffset (dataOffset + h.length.toNat)).bind fun data =>
            (sumReadLoop resp requests (i + 1) (dataOffset + h.length.toNat) hs).map ({ data := data } :: ·)

/-- `parseSumReadResponse` with its slices, for `n` items. -/
def sumReadChecked (resp : Bytes) (n : Nat) (requests : List SumReadRequest) :
    Option (Outcome SumReadResult) :=
  if resp.length < n * 8 then
    some ⟨[], some (.text ("SumRead response too short: got " ++ toString resp.length ++
      " bytes, expected at least " ++ toString (n * 8)))⟩
  else
    ((range n).mapM (sumReadHeader resp)).bind fun headers =>
      (sumReadLoop resp requests 0 (n * 8) headers).map fun results => ⟨results, none⟩

/-! ## The contract -/

/-- The results belong to the items they are given for. -/
structure Attributes (resp : Bytes) (requests : List SumReadRequest) (results : List SumReadResult) : Prop where
  length : results.length = requests.length
  /-- A success has the bytes that its own length and those before it locate, as many as asked for. -/
  data : ∀ i r, results[i]? = some r → r.error = noErrors →
    declaredOffset resp requests.length i + (declaredLength resp i).toNat ≤ resp.length ∧
      r.data = (resp.drop (declaredOffset resp requests.length i)).take (declaredLength resp i).toNat ∧
      ∃ q, requests[i]? = some q ∧ declaredLength resp i = q.length
  /-- A declared error before the first malformed item stays. -/
  codes : ∀ i r, results[i]? = some r → itemWord 8 resp i ≠ noErrors →
    (∀ j ≤ i, ¬MalformedAt resp requests j) → r.error = itemWord 8 resp i
  /-- From the first malformed item on nothing is attributed. -/
  lost : ∀ i j r, MalformedAt resp requests i → i ≤ j → results[j]? = some r → r = .lostItem

/-- **No data is misattributed**, and no slice is out of range. -/
def NeverMisattributes (resp : Bytes) (requests : List SumReadRequest) : Prop :=
  ∃ out, sumReadChecked resp requests.length requests = some out ∧
    if resp.length < requests.length * 8 then out.results = [] ∧ out.err.isSome = true
    else out.err = none ∧ Attributes resp requests out.results

/-- What is left of the response at item `j`, as the parser computes it. -/
def remaining (resp : Bytes) (n j : Nat) : UInt32 := UInt32.ofNat (resp.length - declaredOffset resp n j)

variable {resp : Bytes} {requests qs : List SumReadRequest} {q : SumReadRequest} {i j : Nat}

theorem toNat_remaining_le : (remaining resp requests.length j).toNat ≤
    resp.length - declaredOffset resp requests.length j := by
  rw [remaining, UInt32.toNat_ofNat']
  exact Nat.mod_le _ _

/-! ## The second loop, item by item -/

/-- The loop ends at item `j`. -/
def StopsAt (resp : Bytes) (requests : List SumReadRequest) (j : Nat) : Prop :=
  ∃ q, requests[j]? = some q ∧
    ((itemWord 8 resp j = noErrors ∧ declaredLength resp j ≠ q.length) ∨
      remaining resp requests.length j < declaredLength resp j)

/-- The result of an item that the loop passes. -/
def passedItem (resp : Bytes) (n j : Nat) : SumReadResult :=
  if itemWord 8 resp j ≠ noErrors then { error := itemWord 8 resp j }
  else { data := (resp.drop (declaredOffset resp n j)).take (declaredLength resp j).toNat }

theorem sumReadItems_cons : sumReadItems resp i (declaredOffset resp requests.length i) (q :: qs) =
      if itemWord 8 resp i ≠ noErrors then
        if remaining resp requests.length i < declaredLength resp i then (q :: qs).map fun _ => .lostItem
        else { error := itemWord 8 resp i } ::
          sumReadItems resp (i + 1) (declaredOffset resp requests.length (i + 1)) qs
      else if declaredLength resp i < q.length then (q :: qs).map fun _ => .lostItem
      else if q.length < declaredLength resp i then (q :: qs).map fun _ => .lostItem
      else if remaining resp requests.length i < declaredLength resp i then (q :: qs).map fun _ => .lostItem
      else { data := (resp.drop (declaredOffset resp requests.length i)).take (declaredLength resp i).toNat } ::
        sumReadItems resp (i + 1) (declaredOffset resp requests.length (i + 1)) qs :=
  rfl

section

variable (hq : requests[i]? = some q)

include hq

open Classical in
/-- The tests that the body makes of an item: whether it stops the loop, and whether it has a code. -/
theorem tests_eq {α : Type} {lost failed read : α} : (if itemWord 8 resp i ≠ noErrors then
        if remaining resp requests.length i < declaredLength resp i then lost else failed
      else if declaredLength resp i < q.length then lost else if q.length < declaredLength resp i then lost
      else if remaining resp requests.length i < declaredLength resp i then lost else read) =
    if StopsAt resp requests i then lost
    else if itemWord 8 resp i ≠ noErrors then failed else read := by
  have hstops : StopsAt resp requests i ↔
      (itemWord 8 resp i = noErrors ∧ declaredLength resp i ≠ q.length) ∨
        remaining resp requests.length i < declaredLength resp i := by
    simp [StopsAt, hq]
  by_cases hrem : remaining resp requests.length i < declaredLength resp i
  · simp [if_pos (hstops.2 (.inr hrem)), hrem]
  by_cases herr : itemWord 8 resp i = noErrors
  · by_cases heq : declaredLength resp i = q.length
    · simp [hstops, herr, heq]
    rw [if_pos (hstops.2 (.inl ⟨herr, heq⟩)), if_neg (not_not.2 herr)]
    by_cases hlt : declaredLength resp i < q.length
    · rw [if_pos hlt]
    · rw [if_neg hlt, if_pos (UInt32.lt_of_le_of_ne (UInt32.not_lt.1 hlt) (Ne.symm heq))]
  · simp [hstops, hrem, herr]

theorem sumReadItems_of_stops (h : StopsAt resp requests i) :
    sumReadItems resp i (declaredOffset resp requests.length i) (q :: qs) =
      (q :: qs).map fun _ => .lostItem := by
  rw [sumReadItems_cons, tests_eq hq, if_pos h]

theorem sumReadItems_of_passes (h : ¬StopsAt resp requests i) :
    sumReadItems resp i (declaredOffset resp requests.length i) (q :: qs) =
      passedItem resp requests.length i ::
        sumReadItems resp (i + 1) (declaredOffset resp requests.length (i + 1)) qs := by
  rw [sumReadItems_cons, tests_eq hq, if_neg h, passedItem]
  split <;> rfl

end

/-- **The results by position**: lost from the first item on that stops the loop. -/
theorem sumReadItems_spec (qs : List SumReadRequest) : ∀ i, requests.drop i = qs → ∀ k r,
    (sumReadItems resp i (declaredOffset resp requests.length i) qs)[k]? = some r →
      (∃ j, i ≤ j ∧ j ≤ i + k ∧ StopsAt resp requests j) ∧ r = .lostItem ∨
        (∀ j, i ≤ j → j ≤ i + k → ¬StopsAt resp requests j) ∧ r = passedItem resp requests.length (i + k) := by
  induction qs with
  | nil =>
    intro i _ k r hr
    cases hr
  | cons q qs ih =>
    intro i hdrop k r hr
    have hq := getElem?_of_drop hdrop
    by_cases hstop : StopsAt resp requests i
    · rw [sumReadItems_of_stops hq hstop, getElem?_map, Option.map_eq_some_iff] at hr
      obtain ⟨_, -, rfl⟩ := hr
      exact .inl ⟨⟨i, Nat.le_refl i, Nat.le_add_right i k, hstop⟩, rfl⟩
    rw [sumReadItems_of_passes hq hstop] at hr
    cases k with
    | zero =>
      cases hr
      refine .inr ⟨fun j hj hj' => ?_, rfl⟩
      obtain rfl : j = i := by omega
      exact hstop
    | succ k =>
      have hk : i + 1 + k = i + (k + 1) := by omega
      rcases ih (i + 1) (drop_succ_of_drop hdrop) k r hr with ⟨⟨j, hij, hjk, hj⟩, rfl⟩ | ⟨hall, rfl⟩
      · exact .inl ⟨⟨j, by omega, by omega, hj⟩, rfl⟩
      rw [hk]
      refine .inr ⟨fun j hj hj' => ?_, rfl⟩
      by_cases hji : j = i
      · rw [hji]
        exact hstop
      · exact hall j (by omega) (by omega)

theorem length_sumReadItems (qs : List SumReadRequest) :
    ∀ i off, (sumReadItems resp i off qs).length = qs.length := by
  induction qs with
  | nil => intro i off; rfl
  | cons q qs ih =>
    intro i off
    unfold sumReadItems
    dsimp only
    split_ifs <;> simp [ih]

/-! ## The slices are in range -/

theorem declared_fits (hi : i < requests.length) (hoff : declaredOffset resp requests.length i ≤ resp.length)
    (hpass : ¬StopsAt resp requests i) :
    declaredOffset resp requests.length i + (declaredLength resp i).toNat ≤ resp.length := by
  have hq : requests[i]? = some requests[i] := getElem?_eq_getElem hi
  have hrem : declaredLength resp i ≤ remaining resp requests.length i :=
    UInt32.not_lt.1 fun hlt => hpass ⟨_, hq, .inr hlt⟩
  have hle := Nat.le_trans (UInt32.le_iff_toNat_le.1 hrem) toNat_remaining_le
  omega

/-- While the loop goes on, its offset stays within the response. -/
theorem declaredOffset_le (hresp : requests.length * 8 ≤ resp.length) (hi : i ≤ requests.length)
    (hpass : ∀ j < i, ¬StopsAt resp requests j) : declaredOffset resp requests.length i ≤ resp.length := by
  induction i with
  | zero => exact hresp
  | succ i ih =>
    have hoff := ih (by omega) fun j hj => hpass j (by omega)
    exact declared_fits (by omega) hoff (hpass i (Nat.lt_succ_self i))

/-- The header that the response declares for item `j`. -/
def declaredHeader (resp : Bytes) (j : Nat) : SumReadHeader := ⟨itemWord 8 resp j, declaredLength resp j⟩

theorem sumReadHeader_eq (h : i * 8 + 8 ≤ resp.length) :
    sumReadHeader resp i = some (declaredHeader resp i) := by
  rw [sumReadHeader, uint32At_of_le (by omega), uint32At_of_le (by omega)]
  rfl

theorem mapM_sumReadHeader (is : List Nat) (h : ∀ i ∈ is, i * 8 + 8 ≤ resp.length) :
    is.mapM (sumReadHeader resp) = some (is.map (declaredHeader resp)) := by
  induction is with
  | nil => rfl
  | cons i is ih =>
    rw [mapM_cons, sumReadHeader_eq (h i (mem_cons_self ..)), ih fun j hj => h j (mem_cons_of_mem _ hj)]
    rfl

theorem sumReadLoop_cons {hs} (hq : requests[i]? = some q) :
    sumReadLoop resp requests i (declaredOffset resp requests.length i) (declaredHeader resp i :: hs) =
      if itemWord 8 resp i ≠ noErrors then
        if remaining resp requests.length i < declaredLength resp i then
          some ((declaredHeader resp i :: hs).map fun _ => .lostItem)
        else (sumReadLoop resp requests (i + 1) (declaredOffset resp requests.length (i + 1)) hs).map
          ({ error := itemWord 8 resp i } :: ·)
      else if declaredLength resp i < q.length then
        some ((declaredHeader resp i :: hs).map fun _ => .lostItem)
      else if q.length < declaredLength resp i then
        some ((declaredHeader resp i :: hs).map fun _ => .lostItem)
      else if remaining resp requests.length i < declaredLength resp i then
        some ((declaredHeader resp i :: hs).map fun _ => .lostItem)
      else
        (slice resp (declaredOffset resp requests.length i)
            (declaredOffset resp requests.length i + (declaredLength resp i).toNat)).bind fun data =>
          (sumReadLoop resp requests (i + 1) (declaredOffset resp requests.length (i + 1)) hs).map
            ({ data := data } :: ·) := by
  rw [sumReadLoop, hq]
  rfl

theorem sumReadLoop_eq (hresp : requests.length * 8 ≤ resp.length) (qs : List SumReadRequest) :
    ∀ i, requests.drop i = qs → (∀ j < i, ¬StopsAt resp requests j) →
      sumReadLoop resp requests i (declaredOffset resp requests.length i)
          ((range' i qs.length).map (declaredHeader resp)) =
        some (sumReadItems resp i (declaredOffset resp requests.length i) qs) := by
  induction qs with
  | nil => intro i _ _; rfl
  | cons q qs ih =>
    intro i hdrop hpass
    have hq := getElem?_of_drop hdrop
    have hi : i < requests.length := (List.getElem?_eq_some_iff.1 hq).1
    have hcascade : ((range' i (q :: qs).length).map (declaredHeader resp)).map
        (fun _ => SumReadResult.lostItem) = (q :: qs).map fun _ => .lostItem := by
      rw [map_const', map_const', length_map, length_range']
    -- an item that does not stop the loop leads to the rest of it
    have hrest : ¬StopsAt resp requests i →
        sumReadLoop resp requests (i + 1) (declaredOffset resp requests.length (i + 1))
            ((range' (i + 1) qs.length).map (declaredHeader resp)) =
          some (sumReadItems resp (i + 1) (declaredOffset resp requests.length (i + 1)) qs) := by
      intro hstop
      apply ih (i + 1) (drop_succ_of_drop hdrop)
      intro j hj
      by_cases hji : j = i
      · rw [hji]
        exact hstop
      · exact hpass j (by omega)
    rw [length_cons, range'_succ, map_cons] at hcascade ⊢
    rw [sumReadLoop_cons hq, tests_eq hq, hcascade]
    by_cases hstop : StopsAt resp requests i
    · rw [if_pos hstop, sumReadItems_of_stops hq hstop]
    have hoff := declaredOffset_le hresp (Nat.le_of_lt hi) hpass
    rw [if_neg hstop, sumReadItems_of_passes hq hstop, passedItem, hrest hstop,
      slice_of_le (Nat.le_add_right _ _) (declared_fits hi hoff hstop), Nat.add_sub_cancel_left]
    split <;> rfl

/-- **No slice is out of range**, whatever the response. -/
theorem sumReadChecked_eq :
    sumReadChecked resp requests.length requests = some (parseSumReadResponse resp requests) := by
  unfold sumReadChecked parseSumReadResponse
  by_cases hshort : resp.length < requests.length * 8
  · rw [if_pos hshort]
    exact congrArg some (if_pos hshort).symm
  have hheaders : ∀ i ∈ range requests.length, i * 8 + 8 ≤ resp.length := by
    intro i hi
    have := mem_range.1 hi
    omega
  have hresp : requests.length * 8 ≤ resp.length := Nat.not_lt.1 hshort
  have hloop := sumReadLoop_eq hresp requests 0 drop_zero fun j hj => absurd hj (Nat.not_lt_zero j)
  rw [if_neg hshort, mapM_sumReadHeader _ hheaders, Option.bind_some, range_eq_range']
  refine (congrArg (Option.map _) hloop).trans ?_
  exact congrArg some (if_neg hshort).symm

/-! ## What the results are -/

theorem MalformedAt.stops (hresp : requests.length * 8 ≤ resp.length) (h : MalformedAt resp requests i) :
    ∃ j ≤ i, StopsAt resp requests j := by
  by_contra hnone
  have hpass : ∀ j ≤ i, ¬StopsAt resp requests j := fun j hj hs => hnone ⟨j, hj, hs⟩
  obtain ⟨q, hq, h⟩ := h
  have hi : i < requests.length := (List.getElem?_eq_some_iff.1 hq).1
  have hoff := declaredOffset_le hresp (Nat.le_of_lt hi) fun j hj => hpass j (Nat.le_of_lt hj)
  rcases h with h | h
  · exact hpass i (Nat.le_refl i) ⟨q, hq, .inl h⟩
  · exact absurd (declared_fits hi hoff (hpass i (Nat.le_refl i))) (Nat.not_le.2 h)

/-- In a response that fits a frame, only a malformed item stops the loop. -/
theorem StopsAt.malformed (hfits : FitsFrame resp) (h : StopsAt resp requests i) :
    MalformedAt resp requests i := by
  obtain ⟨q, hq, h | h⟩ := h
  · exact ⟨q, hq, .inl h⟩
  have hlt : resp.length < 2 ^ 32 := by
    unfold FitsFrame Wire.maxAMSPacket at hfits
    omega
  have hrem : (remaining resp requests.length i).toNat = resp.length - declaredOffset resp requests.length i :=
    UInt32.toNat_ofNat_of_lt' (show _ < 2 ^ 32 by omega)
  rw [UInt32.lt_iff_toNat_lt, hrem] at h
  exact ⟨q, hq, .inr (by omega)⟩

theorem result_spec {r} (hr : (sumReadItems resp 0 (requests.length * 8) requests)[i]? = some r) :
    (∃ j ≤ i, StopsAt resp requests j) ∧ r = .lostItem ∨
      (∀ j ≤ i, ¬StopsAt resp requests j) ∧ r = passedItem resp requests.length i := by
  rcases sumReadItems_spec requests 0 drop_zero i r hr with ⟨⟨j, -, hj, hs⟩, hlost⟩ | ⟨hall, hpassed⟩
  · exact .inl ⟨⟨j, by omega, hs⟩, hlost⟩
  · rw [Nat.zero_add] at hpassed
    exact .inr ⟨fun j hj => hall j (Nat.zero_le j) (by omega), hpassed⟩

theorem attributes (hfits : FitsFrame resp) (hresp : requests.length * 8 ≤ resp.length) :
    Attributes resp requests (sumReadItems resp 0 (requests.length * 8) requests) := by
  refine ⟨length_sumReadItems requests _ _, ?_, ?_, ?_⟩
  · intro i r hr hok
    have hi : i < requests.length := by
      rw [← length_sumReadItems requests]
      exact (List.getElem?_eq_some_iff.1 hr).1
    rcases result_spec hr with ⟨-, rfl⟩ | ⟨hpass, rfl⟩
    · exact absurd hok (by decide)
    have herr : itemWord 8 resp i = noErrors := by
      by_contra herr
      rw [passedItem, if_pos herr] at hok
      exact herr hok
    have hoff := declaredOffset_le hresp (Nat.le_of_lt hi) fun j hj => hpass j (Nat.le_of_lt hj)
    refine ⟨declared_fits hi hoff (hpass i (Nat.le_refl i)), ?_, _, getElem?_eq_getElem hi, ?_⟩
    · rw [passedItem, if_neg (not_not.2 herr)]
    · by_contra hne
      exact hpass i (Nat.le_refl i) ⟨_, getElem?_eq_getElem hi, .inl ⟨herr, hne⟩⟩
  · intro i r hr herr hwell
    rcases result_spec hr with ⟨⟨j, hj, hstop⟩, -⟩ | ⟨-, rfl⟩
    · exact absurd (hstop.malformed hfits) (hwell j hj)
    · rw [passedItem, if_pos herr]
  · intro i j r hmal hij hr
    obtain ⟨k, hk, hstop⟩ := hmal.stops hresp
    rcases result_spec hr with ⟨-, rfl⟩ | ⟨hpass, -⟩
    · rfl
    · exact absurd hstop (hpass k (by omega))

theorem length_decodeData {op body data} (h : decodeData op body = .ok data) :
    8 + data.length ≤ body.length := by
  unfold decodeData at h
  split at h
  · cases h
  next hlen =>
  dsimp only at h
  split at h
  · cases h
  split at h
  · cases h
  cases h
  rw [length_take, length_drop]
  omega

theorem fitsFrame_of_send {net : Net} {c c' : Conn} {group readLen : UInt32} (hnet : net.Framed)
    (h : c.send net (sumReadCommand group readLen requests) = (.ok resp, c')) : FitsFrame resp := by
  have hdata : (net c.exchanges _).payload.bind (decodeData "WriteRead") = .ok resp := congrArg Prod.fst h
  have hframed := hnet c.exchanges (.writeRead group (UInt32.ofNat requests.length) readLen
    (requests.flatMap SumReadRequest.bytes))
  cases hreply : net c.exchanges (.writeRead group (UInt32.ofNat requests.length) readLen
      (requests.flatMap SumReadRequest.bytes)) with
  | lost =>
    rw [hreply] at hdata
    cases hdata
  | reply amsErr body =>
    rw [hreply] at hdata hframed
    have hle : ¬ Wire.amsHeaderSize + body.length > Wire.maxAMSPacket := by
      intro hlong
      rw [Reply.framed, if_pos hlong] at hframed
      cases hframed
    rw [Reply.payload] at hdata
    split at hdata
    · cases hdata
    · have hlen := length_decodeData hdata
      unfold FitsFrame
      omega

/-- **A sum read never misattributes data**: for every response that fits a frame, and every response that a
    `WriteRead` returns does. -/
theorem never_misattributes (requests : List SumReadRequest) :
    (∀ resp, FitsFrame resp → NeverMisattributes resp requests) ∧
      ∀ (net : Net) (c c' : Conn) (group readLen : UInt32) (resp : Bytes), net.Framed →
        c.send net (sumReadCommand group readLen requests) = (.ok resp, c') → FitsFrame resp := by
  refine ⟨fun resp hfits => ⟨_, sumReadChecked_eq, ?_⟩, fun _ _ _ _ _ _ => fitsFrame_of_send⟩
  by_cases hshort : resp.length < requests.length * 8
  · have hparse : parseSumReadResponse resp requests = ⟨[], some (.text
        ("SumRead response too short: got " ++ toString resp.length ++ " bytes, expected at least " ++
          toString (requests.length * 8)))⟩ := if_pos hshort
    rw [if_pos hshort, hparse]
    exact ⟨rfl, rfl⟩
  · have hparse : parseSumReadResponse resp requests =
        ⟨sumReadItems resp 0 (requests.length * 8) requests, none⟩ := if_neg hshort
    rw [if_neg hshort, hparse]
    exact ⟨rfl, attributes hfits (Nat.not_lt.1 hshort)⟩

/-- A refused item, a byte, and an item that comes back short. -/
theorem never_misattributes_short : NeverMisattributes
      (putUint32 0x701 ++ putUint32 0 ++ (putUint32 0 ++ putUint32 1) ++ (putUint32 0 ++ putUint32 1) ++ [7, 8])
      [⟨0xF005, 0, 1⟩, ⟨0xF005, 1, 1⟩, ⟨0xF005, 2, 2⟩] :=
  (never_misattributes _).1 _ (by decide)

end GoAds.Client
