import GoAds.Client.Verdicts

/-!
# `Client.Honest` — every way a sum command can go

Each of the four commands is one of the paths of `Sent`: nothing came of it, a sum response was read, or
it fell back.  What a sum response is read as is checked against what it declares.
-/

namespace GoAds.Client

open LittleEndian Notification List

variable {net : Net} {c : Conn} {Req Res : Type}

/-! ## The response of a sum read -/

variable {resp : Bytes} {x : Exchange} {r : Outcome Item × Conn} {call : SumCall}

/-- The loop of `parseSumReadResponse`, from item `i` on: a code is declared, or some item up to its own
    does not fit. -/
theorem sumReadItems_declares (hresp : resp.length < 2 ^ 32)
    {requests} (qs : List SumReadRequest) : ∀ i, requests.drop i = qs →
    ∀ (k : Nat) (r : SumReadResult),
      (sumReadItems resp i (declaredOffset resp requests.length i) qs)[k]? = some r →
      r.error ≠ ReturnCode.noErrors → (SumCall.read requests).Declares resp (i + k) r.error := by
  induction qs with
  | nil =>
    intro i _ k r hr
    cases hr
  | cons q qs ih =>
    intro i hdrop k r hr hne
    have hq : requests[i]? = some q := getElem?_of_drop hdrop
    have hnext : requests.drop (i + 1) = qs := drop_succ_of_drop hdrop
    have hremaining : (UInt32.ofNat (resp.length - declaredOffset resp requests.length i)).toNat =
        resp.length - declaredOffset resp requests.length i :=
      UInt32.toNat_ofNat_of_lt' (show _ < 2 ^ 32 by omega)
    -- an item that does not fit takes the ones behind it along
    have hlost : MalformedAt resp requests i → ((q :: qs).map fun _ => SumReadResult.lostItem)[k]? = some r →
        (SumCall.read requests).Declares resp (i + k) r.error := by
      intro hmal hk
      rw [getElem?_map, Option.map_eq_some_iff] at hk
      obtain ⟨_, -, rfl⟩ := hk
      exact Or.inr ⟨rfl, i, Nat.le_add_right i k, hmal⟩
    -- an item that fits is followed by the rest
    have hfits : ∀ r₀ : SumReadResult, (r₀.error ≠ ReturnCode.noErrors → itemWord 8 resp i = r₀.error) →
        (r₀ :: sumReadItems resp (i + 1) (declaredOffset resp requests.length (i + 1)) qs)[k]? =
          some r →
        (SumCall.read requests).Declares resp (i + k) r.error := by
      intro r₀ hr₀ hk
      cases k with
      | zero =>
        obtain rfl : r₀ = r := by simpa using hk
        exact Or.inl (hr₀ hne)
      | succ k =>
        have h := ih (i + 1) hnext k r hk hne
        rwa [Nat.add_right_comm, Nat.add_assoc] at h
    rw [sumReadItems] at hr
    split at hr
    · split at hr
      · next hbig =>
        refine hlost ⟨q, hq, Or.inr ?_⟩ hr
        rw [gt_iff_lt, UInt32.lt_iff_toNat_lt, hremaining] at hbig
        unfold declaredLength
        omega
      · exact hfits _ (fun _ => rfl) hr
    next hok =>
    rw [not_not] at hok
    split at hr
    · next hshort => exact hlost ⟨q, hq, Or.inl ⟨hok, UInt32.ne_of_lt hshort⟩⟩ hr
    split at hr
    · next hlong => exact hlost ⟨q, hq, Or.inl ⟨hok, (UInt32.ne_of_lt hlong).symm⟩⟩ hr
    split at hr
    · next hbig =>
      refine hlost ⟨q, hq, Or.inr ?_⟩ hr
      rw [gt_iff_lt, UInt32.lt_iff_toNat_lt, hremaining] at hbig
      unfold declaredLength
      omega
    · exact hfits _ (fun h => absurd rfl h) hr

theorem Exchange.response_lt (h : x.response = some resp) : resp.length < 2 ^ 32 := by
  unfold Exchange.response at h
  cases hp : x.reply.payload with
  | error =>
    rw [hp] at h
    cases h
  | ok body =>
    rw [hp] at h
    have hdata : (decodeData "WriteRead" body).toOption = some resp := h
    unfold decodeData at hdata
    split at hdata
    · cases hdata
    dsimp only at hdata
    split at hdata
    · cases hdata
    split at hdata
    · cases hdata
    obtain rfl : _ = resp := Option.some.inj hdata
    have hlen := (uint32 (body.drop 4)).toNat_lt
    rw [length_take]
    omega

theorem parse_declares (hresp : resp.length < 2 ^ 32) (requests : List SumReadRequest) (i : Nat) (item : Item)
    (hi : ((parseSumReadResponse resp requests).items fun r => { code := r.error }).results[i]? = some item)
    (hne : item.code ≠ ReturnCode.noErrors) : (SumCall.read requests).Declares resp i item.code := by
  rw [Outcome.items, getElem?_map, Option.map_eq_some_iff] at hi
  obtain ⟨r, hr, rfl⟩ := hi
  unfold parseSumReadResponse at hr
  dsimp only at hr
  split at hr
  · cases hr
  · have h := sumReadItems_declares hresp requests 0 (drop_zero ..) i r hr hne
    rwa [Nat.zero_add] at h

/-! ## Paths -/

/-- What became of a `WriteRead`. -/
structure SumExchange (c : Conn) (r : Except Err Bytes × Conn) (x : Exchange) : Prop where
  exchanges : r.2.exchanges = c.exchanges ++ [x]
  isSum : x.isSum = true
  response : x.response = r.1.toOption
  verdict : x.verdict = verdictOf r.1

theorem send_writeRead (net : Net) (c : Conn) (group offset readLength : UInt32) (send : Bytes) :
    ∃ x, SumExchange c (c.send net (writeRead group offset readLength send)) x :=
  ⟨⟨_, _⟩, rfl, rfl, rfl, Exchange.verdict_eq fun _ => rfl⟩

theorem SumExchange.refused {c' e} (h : SumExchange c (.error e, c') x)
    (he : isSumCommandUnsupportedError e = true) : Refused x := by
  refine ⟨h.isSum, ?_, h.response⟩
  rw [h.verdict]
  intro hnone
  have hcode : e.asReturnCode = none := hnone
  unfold isSumCommandUnsupportedError at he
  rw [hcode] at he
  cases he

/-- The call went one of the ways of `Sent`. -/
def Ran (call : SumCall) (Fallback : List Exchange → Outcome Item → Prop) (c : Conn)
    (r : Outcome Item × Conn) : Prop :=
  ∃ xs, r.2.exchanges = c.exchanges ++ xs ∧ Sent call Fallback xs r.1

/-- A fallback: individual commands, and what is reported of them. -/
def FellBack (call : SumCall) (Fallback : List Exchange → Outcome Item → Prop) (c : Conn)
    (r : Outcome Item × Conn) : Prop :=
  ∃ xs, r.2.exchanges = c.exchanges ++ xs ∧ (∀ x ∈ xs, x.isSum = false) ∧ Owns call.single xs ∧
    Fallback xs r.1

/-- From `c` to `c₁` there were only sum commands that the PLC refused. -/
def Probed (c c₁ : Conn) : Prop := ∃ probes, c₁.exchanges = c.exchanges ++ probes ∧ ∀ y ∈ probes, Refused y

section Ways

variable {Fallback : List Exchange → Outcome Item → Prop} {c₁ c₂ c' : Conn}

theorem Probed.refl : Probed c c := ⟨[], (append_nil _).symm, fun _ hy => absurd hy not_mem_nil⟩

theorem Probed.snoc {e} (h : Probed c c₁) (hx : SumExchange c₁ (.error e, c₂) x)
    (he : isSumCommandUnsupportedError e = true) (hc' : c'.exchanges = c₂.exchanges) : Probed c c' := by
  obtain ⟨probes, hc, hprobes⟩ := h
  refine ⟨probes ++ [x], ?_, forall_mem_append.2 ⟨hprobes, ?_⟩⟩
  · rw [hc', hx.exchanges, hc, append_assoc]
  · exact forall_mem_singleton.2 (hx.refused he)

theorem Ran.nothing (o : Outcome Item) (hres : o.results = []) : Ran call Fallback c (o, c) := by
  refine ⟨[], (append_nil _).symm, .stopped (fun x hx => absurd hx not_mem_nil) hres ?_⟩
  rintro ⟨x, hx, -⟩
  cases hx

/-- After the sum commands the PLC refused, the individual ones. -/
theorem Ran.fellBack {r} (hp : Probed c c₁) (h : FellBack call Fallback c₁ r) :
    Ran call Fallback c r := by
  obtain ⟨probes, hc, hprobes⟩ := hp
  obtain ⟨xs, hxs, hsingle, hown, hf⟩ := h
  refine ⟨probes ++ xs, ?_, .fellBack hprobes hsingle hown hf⟩
  rw [hxs, hc, append_assoc]

theorem Ran.failed {r} (hp : Probed c c₁) (hx : SumExchange c₁ (r, c₂) x) (e : Err)
    (hc' : c'.exchanges = c₂.exchanges) : Ran call Fallback c (⟨[], some e⟩, c') := by
  obtain ⟨probes, hc, hprobes⟩ := hp
  refine ⟨probes ++ [x], ?_, .stopped ?_ rfl fun _ => Option.some_ne_none e⟩
  · rw [hc', hx.exchanges, hc, append_assoc]
  intro y hy
  rcases mem_append.1 hy with hy | hy
  · exact (hprobes y hy).isSum
  · rw [mem_singleton.1 hy]
    exact hx.isSum

theorem Ran.summed {resp o} (hp : Probed c c₁)
    (hx : SumExchange c₁ (.ok resp, c₂) x) (hc' : c'.exchanges = c₂.exchanges)
    (h : ∀ (i : Nat) (item : Item), o.results[i]? = some item →
      item.code ≠ ReturnCode.noErrors → call.Declares resp i item.code) : Ran call Fallback c (o, c') := by
  obtain ⟨probes, hc, hprobes⟩ := hp
  refine ⟨probes ++ [x], ?_, .summed hprobes hx.isSum hx.response h⟩
  rw [hc', hx.exchanges, hc, append_assoc]

end Ways

/-! ## `SumRead` and `SumWrite` -/

/-- The fallback of either: each item is the verdict of its own command, or `DeviceError`. -/
theorem individually_fellBack {α : Type} {cmd : Req → Command α} {request : Req → Request}
    {decode : Bytes → Except Err α} {result : Except Err α → Res} {item : Res → Item}
    (hcmd : ∀ q, cmd q = ⟨.ok (request q), decode⟩)
    (hsingle : ∀ q reply, Exchange.isSum ⟨request q, reply⟩ = false)
    (hdecode : ∀ q body, verdictOf (decode body) = (request q).verdict body)
    (hitem : ∀ r, item (result r) = { code := (verdictOf r).getD ReturnCode.deviceError })
    (net : Net) (c : Conn) {qs : List Req} (hcall : ∀ i, call.single i = qs[i]?.map request) :
    FellBack call Mapped c (Outcome.items item ⟨(individually net cmd result c qs).1, none⟩,
      (individually net cmd result c qs).2) := by
  obtain ⟨xs, hxs, hreq, hres⟩ := individually_exchanges hcmd result c qs
  have hmem : ∀ x ∈ xs, ∃ q, x.request = request q := by
    intro x hx
    have h : x.request ∈ qs.map request := by
      rw [← hreq]
      exact mem_map_of_mem hx
    obtain ⟨q, -, hq⟩ := mem_map.1 h
    exact ⟨q, hq.symm⟩
  refine ⟨xs, hxs, ?_, fun i x hx => ?_, ?_⟩
  · intro x hx
    obtain ⟨q, hq⟩ := hmem x hx
    have h := hsingle q x.reply
    rwa [← hq] at h
  · rw [hcall, ← getElem?_map, ← hreq, getElem?_map, hx]
    rfl
  unfold Mapped Outcome.items
  dsimp only
  rw [hres, map_map, Outcome.mk.injEq]
  refine ⟨map_congr_left ?_, rfl⟩
  intro x hx
  obtain ⟨q, hq⟩ := hmem x hx
  have hv : x.verdict = verdictOf (x.reply.payload.bind decode) :=
    Exchange.verdict_eq fun body => by rw [hq]; exact hdecode q body
  rw [Function.comp_apply, hitem, hv]

theorem sumReadFallback_fellBack (net : Net) (c : Conn) (requests : List SumReadRequest) :
    FellBack (.read requests) Mapped c
      ((sumReadFallback net c requests).map (.items fun r => { code := r.error }) id) := by
  refine individually_fellBack (fun _ => rfl) (fun _ _ => rfl) (fun _ _ => rfl) ?_ net c
    fun _ => Option.map_eq_bind.symm
  intro r
  cases r <;> rfl

theorem sumWriteFallback_fellBack (net : Net) (c : Conn) (requests : List SumWriteRequest) :
    FellBack (.write requests) Mapped c
      ((sumWriteFallback net c requests).map (.items fun r => { code := r.error }) id) := by
  refine individually_fellBack (fun _ => rfl) (fun _ _ => rfl) (fun _ _ => rfl) ?_ net c
    fun _ => Option.map_eq_bind.symm
  intro r
  cases r <;> rfl

theorem parse_ran {requests c₀ c₁ c₂ c'} (hp : Probed c₀ c₁)
    (hx : SumExchange c₁ (.ok resp, c₂) x) (hc' : c'.exchanges = c₂.exchanges) :
    Ran (.read requests) Mapped c₀
      ((parseSumReadResponse resp requests).items fun r => { code := r.error }, c') :=
  Ran.summed hp hx hc' (parse_declares (Exchange.response_lt hx.response) requests)

theorem sumReadProbe_ran (net : Net) (c : Conn) (readLen : UInt32) (requests : List SumReadRequest) :
    Ran (.read requests) Mapped c
      ((sumReadProbe net c readLen requests).map (.items fun r => { code := r.error }) id) := by
  obtain ⟨x, hx⟩ := send_writeRead net c groupSumupReadEx2 (UInt32.ofNat requests.length) readLen
    (requests.flatMap SumReadRequest.bytes)
  unfold sumReadProbe
  split
  · next resp c₁ heq =>
    have hx : SumExchange c (.ok resp, c₁) x := heq ▸ hx
    exact parse_ran .refl hx rfl
  next e c₁ heq =>
  have hx : SumExchange c (.error e, c₁) x := heq ▸ hx
  split
  · exact Ran.failed .refl hx _ rfl
  next hunsupported =>
  rw [Bool.not_eq_true', Bool.not_eq_false] at hunsupported
  have hp : Probed c c₁ := Probed.refl.snoc hx hunsupported rfl
  obtain ⟨x', hx'⟩ := send_writeRead net c₁ groupSumupReadEx (UInt32.ofNat requests.length)
    readLen (requests.flatMap SumReadRequest.bytes)
  split
  · next resp c₂ heq' =>
    have hx' : SumExchange c₁ (.ok resp, c₂) x' := heq' ▸ hx'
    exact parse_ran hp hx' rfl
  next e' c₂ heq' =>
  have hx' : SumExchange c₁ (.error e', c₂) x' := heq' ▸ hx'
  split
  · exact Ran.failed hp hx' _ rfl
  next hunsupported' =>
  rw [Bool.not_eq_true', Bool.not_eq_false] at hunsupported'
  exact Ran.fellBack (hp.snoc hx' hunsupported' rfl) (sumReadFallback_fellBack net _ requests)

theorem sumRead_ran (net : Net) (c : Conn) (requests : List SumReadRequest) :
    Ran (.read requests) Mapped c ((SumCall.read requests).run net c) := by
  unfold SumCall.run sumRead
  dsimp only
  split
  · exact Ran.nothing _ rfl
  split
  · exact Ran.fellBack .refl (sumReadFallback_fellBack net c requests)
  split
  · exact Ran.nothing _ rfl
  split
  · obtain ⟨x, hx⟩ := send_writeRead net c c.capabilities.sumReadCmd
      (UInt32.ofNat requests.length) (UInt32.ofNat (sumReadTotal requests))
      (requests.flatMap SumReadRequest.bytes)
    unfold sumReadExec
    split
    · next e c' heq => exact Ran.failed (r := .error e) .refl (heq ▸ hx) _ rfl
    · next resp c' heq => exact parse_ran .refl (heq ▸ hx) rfl
  · exact sumReadProbe_ran net c _ requests

theorem range_declares (size : Nat) (call : SumCall) {n} {item : Nat → Item}
    (hitem : ∀ i, (item i).code = itemWord size resp i)
    (hcall : ∀ i, call.Declares resp i (itemWord size resp i)) (i : Nat) (it : Item)
    (hi : ((range n).map item)[i]? = some it) : call.Declares resp i it.code := by
  rw [getElem?_map, Option.map_eq_some_iff] at hi
  obtain ⟨k, hk, rfl⟩ := hi
  obtain ⟨-, rfl⟩ := List.getElem?_eq_some_iff.1 hk
  rw [hitem, getElem_range]
  exact hcall i

theorem sumWrite_ran (net : Net) (c : Conn) (requests : List SumWriteRequest) :
    Ran (.write requests) Mapped c ((SumCall.write requests).run net c) := by
  obtain ⟨x, hx⟩ := send_writeRead net c groupSumupWrite (UInt32.ofNat requests.length)
    (UInt32.ofNat (requests.length * 4))
    (requests.flatMap SumWriteRequest.header ++ requests.flatMap (·.data))
  unfold SumCall.run sumWrite
  dsimp only
  split
  · exact Ran.nothing _ rfl
  split
  · exact Ran.fellBack .refl (sumWriteFallback_fellBack net c requests)
  split
  · next e c' heq =>
    have hx : SumExchange c (.error e, c') x := heq ▸ hx
    split
    · next hunsupported =>
      exact Ran.fellBack (Probed.refl.snoc hx hunsupported rfl) (sumWriteFallback_fellBack net _ requests)
    · exact Ran.failed .refl hx _ rfl
  next resp c' heq =>
  have hx : SumExchange c (.ok resp, c') x := heq ▸ hx
  split
  · exact Ran.failed .refl hx _ rfl
  refine Ran.summed .refl hx rfl ?_
  intro i it hi _
  rw [Outcome.items, map_map] at hi
  exact range_declares 4 (.write requests) (fun _ => rfl) (fun _ => rfl) i it hi

/-! ## The notification commands -/

/-- `executeSumCommand`, for any of its specs: what it decodes must be declared, and its fallback must
    keep to the verdicts. -/
theorem executeSumCommand_ran (spec : SumCmdSpec Req Res) (item : Res → Item) (call : SumCall)
    (hcas : ∀ new c, (spec.cas new c).exchanges = c.exchanges)
    {requests : List Req}
    (hfallback : ∀ c, FellBack call Kept c ((spec.fallback c requests).map (.items item) id))
    (hdecode : ∀ (resp : Bytes) (n i : Nat) (it : Item),
      ((spec.decode resp n).map item)[i]? = some it → call.Declares resp i it.code)
    (net : Net) (c : Conn) :
    Ran call Kept c ((executeSumCommand net spec c requests).map (.items item) id) := by
  unfold executeSumCommand
  dsimp only
  split
  · exact Ran.nothing _ rfl
  split
  · exact Ran.fellBack .refl (hfallback c)
  split
  · exact Ran.nothing _ rfl
  split
  · exact Ran.nothing _ rfl
  rw [SumCmdSpec.command]
  cases hbytes : encodeItems spec.encode 0 requests with
  | error => exact Ran.nothing _ rfl
  | ok writeData =>
    obtain ⟨x, hx⟩ := send_writeRead net c spec.group (UInt32.ofNat requests.length)
      (UInt32.ofNat (requests.length * spec.itemReadSize)) writeData
    dsimp only [Except.map]
    split
    · next e c' heq =>
      have hx : SumExchange c (.error e, c') x := heq ▸ hx
      split
      · next hunsupported =>
        exact Ran.fellBack (Probed.refl.snoc hx hunsupported (hcas 2 c')) (hfallback _)
      · exact Ran.failed .refl hx _ rfl
    next resp c' heq =>
    have hx : SumExchange c (.ok resp, c') x := heq ▸ hx
    split
    · exact Ran.failed .refl hx _ (hcas 1 c')
    refine Ran.summed .refl hx (hcas 1 c') ?_
    intro i it hi _
    exact hdecode resp _ i it hi

/-- A duration without an encoding is no verdict of the PLC. -/
theorem asReturnCode_durationToADSTicks {d name e}
    (h : durationToADSTicks d name = .error e) : e.asReturnCode = none := by
  unfold durationToADSTicks at h
  split at h
  · cases h
    rfl
  dsimp only at h
  split at h
  · cases h
    rfl
  · cases h

theorem SumNotificationRequest.command_single (q : SumNotificationRequest) : q.command.Single := by
  unfold SumNotificationRequest.command addDeviceNotification
  cases hmax : durationToADSTicks q.maxDelay "maxDelay" with
  | error e => exact Or.inl ⟨e, rfl, asReturnCode_durationToADSTicks hmax⟩
  | ok =>
    cases hcycle : durationToADSTicks q.cycleTime "cycleTime" with
    | error e => exact Or.inl ⟨e, rfl, asReturnCode_durationToADSTicks hcycle⟩
    | ok => exact Or.inr ⟨_, rfl, fun _ => rfl, fun _ => rfl⟩

theorem sumAdd_ran (net : Net) (c : Conn) (requests : List SumNotificationRequest) :
    Ran (.add requests) Kept c ((SumCall.add requests).run net c) := by
  refine executeSumCommand_ran (sumAddSpec net) _ (.add requests) (fun _ _ => rfl) ?_ ?_ net c
  · intro c
    refine untilFailure_kept SumNotificationRequest.command_single (fun _ => rfl) (fun _ => rfl) ?_ 0 c requests
    intro rest r hr
    obtain ⟨_, -, rfl⟩ := mem_map.1 hr
    rfl
  intro resp n i it hi
  rw [sumAddSpec, map_map] at hi
  exact range_declares 8 (.add requests) (fun _ => rfl) (fun _ => rfl) i it hi

theorem sumDelete_ran (net : Net) (c : Conn) (handles : List UInt32) :
    Ran (.delete handles) Kept c ((SumCall.delete handles).run net c) := by
  refine executeSumCommand_ran (sumDeleteSpec net) _ (.delete handles) (fun _ _ => rfl) ?_ ?_ net c
  · intro c
    refine untilFailure_kept ?_ (fun _ => rfl) (fun _ => rfl) ?_ 0 c handles
    · exact fun h => Or.inr ⟨_, rfl, fun _ => rfl, fun _ => rfl⟩
    · intro rest r hr
      cases hr
  intro resp n i it hi
  rw [sumDeleteSpec, map_map] at hi
  exact range_declares 4 (.delete handles) (fun _ => rfl) (fun _ => rfl) i it hi

/-! ## Honest calls -/

theorem Ran.exchangesSince {Fallback : List Exchange → Outcome Item → Prop} (h : Ran call Fallback c r) :
    Sent call Fallback (exchangesSince c r.2) r.1 := by
  obtain ⟨xs, hxs, hsent⟩ := h
  have heq : Client.exchangesSince c r.2 = xs := by
    unfold Client.exchangesSince
    rw [hxs, drop_left]
  rwa [heq]

/-- A fallback that stops keeps to the verdicts by itself. -/
theorem Ran.honest_of_kept (h : Ran call Kept c r) : call.Honest (Client.exchangesSince c r.2) r.1 :=
  h.exchangesSince.honest fun _ _ _ hk => hk

/-- One that does not needs an answer to each of its commands. -/
theorem Ran.honest_iff_of_mapped (h : Ran call Mapped c r) : call.Honest (Client.exchangesSince c r.2) r.1 ↔
      ∀ x ∈ Client.exchangesSince c r.2, x.isSum = false → x.verdict ≠ none := by
  constructor
  · exact h.exchangesSince.answered
  intro hall
  refine h.exchangesSince.honest ?_
  intro ys hsub hsingle hm
  exact hm.kept fun y hy => hall y (hsub hy) (hsingle y hy)

/-- **A call is honest exactly if the PLC answers every individual read and write of its fallback.** -/
theorem SumCall.honest_iff (call : SumCall) (net : Net) (c : Conn) :
    call.Honest (exchangesSince c (call.run net c).2) (call.run net c).1 ↔
      call.FallbackAnswered (exchangesSince c (call.run net c).2) := by
  cases call with
  | read requests => exact (sumRead_ran net c requests).honest_iff_of_mapped
  | write requests => exact (sumWrite_ran net c requests).honest_iff_of_mapped
  | add requests => exact iff_of_true (sumAdd_ran net c requests).honest_of_kept trivial
  | delete handles => exact iff_of_true (sumDelete_ran net c handles).honest_of_kept trivial

end GoAds.Client
