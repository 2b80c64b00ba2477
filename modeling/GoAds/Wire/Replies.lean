import GoAds.Wire.Requests

/-!
# `Wire.Replies` — replies reach their own request

Two invariants carry the result.  `Calls` says what `activeRequests` is: as long as fewer than 2³²
requests are issued while a call is outstanding, the ids of the outstanding calls differ, so a registration
overwrites nothing and a deferred delete removes only its own entry.  `Frames` follows every frame through
queue, worker, channel and call: it is in one place at a time, and a reply stands only with the call
whose id its frame carries.
-/

namespace GoAds.Wire.Requests

open Interleaving List Function Conf
open Function (update update_eq_self)

/-- The invoke id in a frame. -/
def invokeIDOf (data : Bytes) : UInt32 := (AMSHeader.layout.get data).invokeID

/-! ## Calls -/

namespace Call

/-- The id of a call is its number, and stands in its request frame. -/
structure Tagged (k : Call) : Prop where
  id : k.id = UInt32.ofNat k.number
  pack : invokeIDOf (k.pack.drop AMSTCPHeader.layout.size) = k.id

/-- Fewer than 2³² requests were issued since. -/
structure Recent (k : Call) (issued : Nat) : Prop where
  le : k.number ≤ issued
  lt : issued < k.number + 2 ^ 32

end Call

theorem number_eq_of_id {k k' : Call} {issued : Nat} (ht : k.Tagged) (ht' : k'.Tagged)
    (hr : k.Recent issued) (hr' : k'.Recent issued) (hid : k.id = k'.id) : k.number = k'.number := by
  have hmod : k.number % 2 ^ 32 = k'.number % 2 ^ 32 := by
    have := congrArg UInt32.toNat hid
    rwa [ht.id, ht'.id, UInt32.toNat_ofNat', UInt32.toNat_ofNat'] at this
  have h1 := hr.le
  have h2 := hr.lt
  have h3 := hr'.le
  have h4 := hr'.lt
  omega

theorem invokeIDOf_pack (source target : AMSAddress) (command : CommandID) (data : Bytes) (id : UInt32) :
    invokeIDOf ((encodeTo source target command data id).drop AMSTCPHeader.layout.size) = id := by
  rw [encodeTo, append_assoc, drop_left' (FixedSize.length_put ..), invokeIDOf, FixedSize.get_put]
  rfl

/-- **What `activeRequests` holds.** -/
structure Calls (c : State) : Prop where
  counter : c.shared.currentRequest = UInt32.ofNat c.shared.issued
  tagged : ∀ k ∈ c.shared.outstanding, k.Tagged
  recent : ∀ k ∈ c.shared.outstanding, k.Recent c.shared.issued
  mapped : ∀ k ∈ c.shared.outstanding, k.map ≤ c.shared.maps
  unique : ∀ k ∈ c.shared.outstanding, ∀ k' ∈ c.shared.outstanding, k.number = k'.number → k = k'
  owned : ∀ t k, (c.loc t).call = some k ↔ k ∈ c.shared.outstanding ∧ k.caller = t
  entries : ∀ id n, c.shared.activeRequests id = some n →
    ∃ k ∈ c.shared.outstanding, k.number = n ∧ k.id = id
  listed : ∀ k ∈ c.shared.outstanding, k.map = c.shared.maps →
    c.shared.activeRequests k.id = some k.number
  past : ∀ x ∈ c.shared.returned, x.1.Tagged ∧ x.1.number ≤ c.shared.issued ∧
    ∀ k ∈ c.shared.outstanding, k.number ≠ x.1.number

/-- An id is drawn. -/
def Act.issues : Act → Bool
  | .sendRequestTo _ _ _ _ | .handshake => true
  | .next | .ctxDone | .dropped | .graceOver | .recvWorker | .arrive _ | .tearDownAndReset
  | .disconnect _ => false

/-- Fewer than 2³² requests are issued while any one is outstanding. -/
def Bounded (c : State) (x : Nat × Act) : Prop :=
  x.2.issues = true → ∀ k ∈ c.shared.outstanding, c.shared.issued + 1 < k.number + 2 ^ 32

instance (c : State) (x : Nat × Act) : Decidable (Bounded c x) :=
  inferInstanceAs (Decidable (_ → _))

theorem Calls.init : Calls init where
  counter := rfl
  tagged k hk := absurd hk not_mem_nil
  recent k hk := absurd hk not_mem_nil
  mapped k hk := absurd hk not_mem_nil
  unique k hk := absurd hk not_mem_nil
  owned t k := by simp [Requests.init, Shared.init, Pc.call]
  entries id n h := by cases h
  listed k hk := absurd hk not_mem_nil
  past x hx := absurd hx not_mem_nil

section CallSteps

variable {c : State} {sh' : Shared} {t : Nat} {pc' : Pc}

/-- A step that leaves counter, map and calls alone. -/
theorem Calls.of_same (h : Calls c) (hcounter : sh'.currentRequest = c.shared.currentRequest)
    (hissued : sh'.issued = c.shared.issued) (hmaps : sh'.maps = c.shared.maps)
    (hactive : sh'.activeRequests = c.shared.activeRequests)
    (hout : sh'.outstanding = c.shared.outstanding) (hret : sh'.returned = c.shared.returned)
    (hcall : pc'.call = (c.loc t).call) : Calls ⟨sh', update c.loc t pc'⟩ where
  counter := by rw [hcounter, hissued]; exact h.counter
  tagged := by rw [hout]; exact h.tagged
  recent := by rw [hout, hissued]; exact h.recent
  mapped := by rw [hout, hmaps]; exact h.mapped
  unique := by rw [hout]; exact h.unique
  owned u k := by
    rw [hout, ← h.owned u k]
    by_cases hu : u = t
    · subst hu
      rw [loc_self, hcall]
    · rw [loc_of_ne hu]
  entries := by rw [hout, hactive]; exact h.entries
  listed := by rw [hout, hactive, hmaps]; exact h.listed
  past := by rw [hret, hout, hissued]; exact h.past

theorem Calls.recent_succ (h : Calls c)
    (hb : ∀ k ∈ c.shared.outstanding, c.shared.issued + 1 < k.number + 2 ^ 32) :
    ∀ k ∈ c.shared.outstanding, k.Recent (c.shared.issued + 1) :=
  fun k hk => ⟨(h.recent k hk).le.trans (Nat.le_succ _), hb k hk⟩

theorem Calls.bump (h : Calls c) (hidle : c.loc t = .idle)
    (hb : ∀ k ∈ c.shared.outstanding, c.shared.issued + 1 < k.number + 2 ^ 32) :
    Calls ⟨c.shared.bump, update c.loc t .idle⟩ where
  counter := by
    show c.shared.currentRequest + 1 = UInt32.ofNat (c.shared.issued + 1)
    rw [h.counter, UInt32.ofNat_add]
    rfl
  tagged := h.tagged
  recent := h.recent_succ hb
  mapped := h.mapped
  unique := h.unique
  owned u k := by
    rw [← hidle, update_eq_self]
    exact h.owned u k
  entries := h.entries
  listed := h.listed
  past x hx :=
    let ⟨htag, hle, hne⟩ := h.past x hx
    ⟨htag, hle.trans (Nat.le_succ _), hne⟩

theorem Calls.tagged_next (h : Calls c) (source target : AMSAddress) (command : CommandID)
    (data : Bytes) : (c.shared.nextCall t source target command data).Tagged where
  id := by
    show c.shared.currentRequest + 1 = UInt32.ofNat (c.shared.issued + 1)
    rw [h.counter, UInt32.ofNat_add]
    rfl
  pack := invokeIDOf_pack ..

variable {k : Call}

theorem Calls.register (h : Calls c) (hidle : c.loc t = .idle)
    (hb : ∀ k ∈ c.shared.outstanding, c.shared.issued + 1 < k.number + 2 ^ 32)
    (hk : k.Tagged) (hnumber : k.number = c.shared.issued + 1) (hmap : k.map = c.shared.maps)
    (hcaller : k.caller = t) : Calls ⟨c.shared.register k, update c.loc t (.send k)⟩ := by
  have hbump := h.bump hidle hb
  have hnew : k.Recent (c.shared.issued + 1) := ⟨hnumber.le, by omega⟩
  have hold : ∀ k' ∈ c.shared.outstanding, k'.number ≠ k.number := by
    intro k' hk' heq
    have := (h.recent k' hk').le
    omega
  -- no outstanding call has the id that was drawn
  have hid : ∀ k' ∈ c.shared.outstanding, k'.id ≠ k.id := fun k' hk' heq =>
    hold k' hk' (number_eq_of_id (h.tagged k' hk') hk (hbump.recent k' hk') hnew heq)
  constructor
  · exact hbump.counter
  · exact forall_mem_cons.2 ⟨hk, h.tagged⟩
  · exact forall_mem_cons.2 ⟨hnew, hbump.recent⟩
  · exact forall_mem_cons.2 ⟨hmap.le, h.mapped⟩
  · intro k₁ h₁ k₂ h₂ heq
    rcases mem_cons.1 h₁ with he₁ | hm₁ <;> rcases mem_cons.1 h₂ with he₂ | hm₂
    · rw [he₁, he₂]
    · exact absurd (heq.symm.trans (congrArg Call.number he₁)) (hold k₂ hm₂)
    · exact absurd (heq.trans (congrArg Call.number he₂)) (hold k₁ hm₁)
    · exact h.unique k₁ hm₁ k₂ hm₂ heq
  · intro u k'
    by_cases hu : u = t
    · subst hu
      rw [loc_self]
      constructor
      · intro heq
        obtain rfl : k = k' := Option.some.inj heq
        exact ⟨mem_cons_self, hcaller⟩
      rintro ⟨hmem, hown⟩
      rcases mem_cons.1 hmem with rfl | hmem
      · rfl
      have := (h.owned u k').2 ⟨hmem, hown⟩
      rw [hidle] at this
      cases this
    · rw [loc_of_ne hu, h.owned u k']
      constructor
      · exact fun ⟨hmem, hown⟩ => ⟨mem_cons_of_mem k hmem, hown⟩
      rintro ⟨hmem, hown⟩
      rcases mem_cons.1 hmem with rfl | hmem
      · exact absurd (hown.symm.trans hcaller) hu
      · exact ⟨hmem, hown⟩
  · intro id n hentry
    rcases update_eq_some.1 hentry with ⟨rfl, heq⟩ | ⟨-, hentry⟩
    · exact ⟨k, mem_cons_self, Option.some.inj heq, rfl⟩
    obtain ⟨k', hk', hn, hid'⟩ := h.entries id n hentry
    exact ⟨k', mem_cons_of_mem k hk', hn, hid'⟩
  · intro k' hk' hmap'
    rcases mem_cons.1 hk' with rfl | hk'
    · exact update_self ..
    show update c.shared.activeRequests k.id (some k.number) k'.id = some k'.number
    rw [update_of_ne (hid k' hk')]
    exact h.listed k' hk' hmap'
  intro x hx
  obtain ⟨htag, hle, hne⟩ := hbump.past x hx
  refine ⟨htag, hle, forall_mem_cons.2 ⟨?_, hne⟩⟩
  have := (h.past x hx).2.1
  omega

theorem Calls.leave (h : Calls c) {reply : Option Reply} (hpc : c.loc t = .leave k reply) :
    Calls ⟨c.shared.leave k reply, update c.loc t .idle⟩ := by
  obtain ⟨hk, hcaller⟩ := (h.owned t k).1 (by rw [hpc]; rfl)
  have hmem : ∀ k', k' ∈ (c.shared.leave k reply).outstanding ↔ k' ∈ c.shared.outstanding ∧ k' ≠ k := by
    intro k'
    simp [Shared.leave]
  -- the ids of the other calls are different, so their entries stay
  have hid : ∀ k' ∈ c.shared.outstanding, k' ≠ k → k'.id ≠ k.id := fun k' hk' hne heq =>
    hne (h.unique k' hk' k hk
      (number_eq_of_id (h.tagged k' hk') (h.tagged k hk) (h.recent k' hk') (h.recent k hk) heq))
  constructor
  · exact h.counter
  · exact fun k' hk' => h.tagged k' ((hmem k').1 hk').1
  · exact fun k' hk' => h.recent k' ((hmem k').1 hk').1
  · exact fun k' hk' => h.mapped k' ((hmem k').1 hk').1
  · exact fun k₁ h₁ k₂ h₂ => h.unique k₁ ((hmem k₁).1 h₁).1 k₂ ((hmem k₂).1 h₂).1
  · intro u k'
    rw [hmem]
    by_cases hu : u = t
    · subst hu
      rw [loc_self]
      constructor
      · intro heq
        cases heq
      rintro ⟨⟨hk', hne⟩, hown⟩
      have := (h.owned u k').2 ⟨hk', hown⟩
      rw [hpc] at this
      exact absurd (Option.some.inj this).symm hne
    · rw [loc_of_ne hu, h.owned u k']
      constructor
      · rintro ⟨hk', hown⟩
        refine ⟨⟨hk', ?_⟩, hown⟩
        rintro rfl
        exact hu (hown.symm.trans hcaller)
      · exact fun ⟨⟨hk', _⟩, hown⟩ => ⟨hk', hown⟩
  · intro id n hentry
    rcases update_eq_some.1 hentry with ⟨-, ⟨⟩⟩ | ⟨hne, hentry⟩
    obtain ⟨k', hk', hn, hid'⟩ := h.entries id n hentry
    refine ⟨k', (hmem k').2 ⟨hk', ?_⟩, hn, hid'⟩
    rintro rfl
    exact hne hid'.symm
  · intro k' hk' hmap
    obtain ⟨hk', hne⟩ := (hmem k').1 hk'
    show update c.shared.activeRequests k.id none k'.id = some k'.number
    rw [update_of_ne (hid k' hk' hne)]
    exact h.listed k' hk' hmap
  intro x hx
  rcases mem_cons.1 hx with rfl | hx
  · refine ⟨h.tagged k hk, (h.recent k hk).le, fun k' hk' heq => ?_⟩
    obtain ⟨hk', hne⟩ := (hmem k').1 hk'
    exact hne (h.unique k' hk' k hk heq)
  · obtain ⟨htag, hle, hne⟩ := h.past x hx
    exact ⟨htag, hle, fun k' hk' => hne k' ((hmem k').1 hk').1⟩

theorem Calls.reset (h : Calls c) (hidle : c.loc t = .idle) :
    Calls ⟨c.shared.reset, update c.loc t .idle⟩ where
  counter := h.counter
  tagged := h.tagged
  recent := h.recent
  mapped k hk := (h.mapped k hk).trans (Nat.le_succ _)
  unique := h.unique
  owned u k := by
    rw [← hidle, update_eq_self]
    exact h.owned u k
  entries id n hentry := by cases hentry
  listed k hk hmap := absurd (h.mapped k hk) (by rw [hmap]; exact Nat.not_succ_le_self _)
  past := h.past

theorem Calls.step {c c' x} (h : Calls c) (hb : Bounded c x)
    (hs : step c x = some c') : Calls c' := by
  obtain ⟨t, a⟩ := x
  obtain ⟨pc', sh', hact, rfl⟩ := exec_eq_some.1 hs
  generalize hpc : c.loc t = pc at hact
  cases act_moves hact with
  | quiet | arrive => exact h.of_same rfl rfl rfl rfl rfl rfl (by rw [hpc])
  | register =>
    exact h.register hpc (hb rfl) (h.tagged_next ..) rfl rfl rfl
  | goOn _ k hcall hcall' => exact h.of_same rfl rfl rfl rfl rfl rfl (by rw [hpc, hcall, hcall'])
  | receive _ k r hcall | giveUp _ hcall => exact h.of_same rfl rfl rfl rfl rfl rfl (by rw [hpc, hcall]; rfl)
  | leave => exact h.leave hpc
  | take | lookup | deliver => exact h.of_same rfl rfl rfl rfl rfl rfl (by rw [hpc]; rfl)
  | handshake => exact h.bump hpc (hb rfl)
  | reset => exact h.reset hpc

end CallSteps

/-! ## Frames -/

/-- A reply for call `n`: the body of a received frame that carries the id of this call. -/
structure Reply.For (r : Reply) (received : List Bytes) (n : Nat) : Prop where
  frame : received[r.frame.serial]? = some r.frame.data
  data : r.data = r.frame.data.drop 32
  id : invokeIDOf r.frame.data = UInt32.ofNat n

/-- **Frames are what was received**, and every reply stands with its call. -/
structure Genuine (c : State) : Prop where
  queued : ∀ f ∈ c.shared.recvQueue, c.shared.received[f.serial]? = some f.data
  held : ∀ t f, (c.loc t).frame = some f → c.shared.received[f.serial]? = some f.data
  replies : ∀ t n r, (c.loc t).reply = some (n, r) → r.For c.shared.received n
  channels : ∀ n r, c.shared.channels n = some r → r.For c.shared.received n
  returned : ∀ x ∈ c.shared.returned, ∀ r, x.2 = some r → r.For c.shared.received x.1.number

theorem Pc.frame_of_reply {pc : Pc} {n : Nat} {r : Reply} (h : pc.reply = some (n, r)) :
    pc.frame = some r.frame := by
  cases pc with
  | deliver =>
    cases h
    rfl
  | leave k reply =>
    cases reply with
    | none => cases h
    | some =>
      cases h
      rfl
  | idle | send | wait | grace | take => cases h

theorem Genuine.init : Genuine init where
  queued f hf := absurd hf not_mem_nil
  held t f h := by cases h
  replies t n r h := by cases h
  channels n r h := by cases h
  returned x hx := absurd hx not_mem_nil

section GenuineSteps

variable {c : State} {sh' : Shared} {t : Nat} {pc' : Pc}

section Same

variable (h : Genuine c) (hrec : sh'.received = c.shared.received) (hq : sh'.recvQueue ⊆ c.shared.recvQueue)
  (hch : ∀ n r, sh'.channels n = some r → r.For c.shared.received n)
  (hret : ∀ x ∈ sh'.returned, ∀ r, x.2 = some r → r.For c.shared.received x.1.number)

include h hrec hq hch hret

/-- A step after which queue, channels and returns hold nothing new, and the goroutine holds what it may. -/
theorem Genuine.of_loc
    (hheld : ∀ f, pc'.frame = some f → c.shared.received[f.serial]? = some f.data)
    (hreply : ∀ n r, pc'.reply = some (n, r) → r.For c.shared.received n) :
    Genuine ⟨sh', update c.loc t pc'⟩ := by
  constructor
  · rw [hrec]
    exact fun f hf => h.queued f (hq hf)
  · rw [hrec]
    exact forall_loc (P := fun _ (pc : Pc) => ∀ f, pc.frame = some f →
      c.shared.received[f.serial]? = some f.data) hheld fun u _ => h.held u
  · rw [hrec]
    exact forall_loc (P := fun _ (pc : Pc) => ∀ n r, pc.reply = some (n, r) →
      r.For c.shared.received n) hreply fun u _ => h.replies u
  · rw [hrec]
    exact hch
  · rw [hrec]
    exact hret

theorem Genuine.of_empty (hframe : pc'.frame = none) : Genuine ⟨sh', update c.loc t pc'⟩ := by
  apply h.of_loc hrec hq hch hret
  · intro f hf
    rw [hframe] at hf
    cases hf
  intro n r hr
  rw [Pc.frame_of_reply hr] at hframe
  cases hframe

end Same

variable {data : Bytes} {received : List Bytes}

theorem getElem?_append_of_some {more : List Bytes} {i : Nat}
    (h : received[i]? = some data) : (received ++ more)[i]? = some data := by
  obtain ⟨hlt, -⟩ := List.getElem?_eq_some_iff.1 h
  rw [getElem?_append_left hlt]
  exact h

theorem Reply.For.append {r : Reply} {n : Nat} (h : r.For received n)
    (more : List Bytes) : r.For (received ++ more) n :=
  ⟨getElem?_append_of_some h.frame, h.data, h.id⟩

theorem Genuine.arrive (h : Genuine c) (hidle : c.loc t = .idle) (data : Bytes) :
    Genuine ⟨c.shared.arrive data, update c.loc t .idle⟩ := by
  rw [← hidle, update_eq_self]
  constructor
  · intro f hf
    have hmem : f ∈ c.shared.recvQueue ++ [⟨c.shared.received.length, data⟩] := by
      simp only [Shared.arrive] at hf
      split at hf
      · exact hf
      · exact mem_append_left _ hf
    rcases mem_append.1 hmem with hf | hf
    · exact getElem?_append_of_some (h.queued f hf)
    · rw [mem_singleton.1 hf]
      exact getElem?_concat_length
  · exact fun u f hf => getElem?_append_of_some (h.held u f hf)
  · exact fun u n r hr => (h.replies u n r hr).append [data]
  · exact fun n r hr => (h.channels n r hr).append [data]
  · exact fun x hx r hr => (h.returned x hx r hr).append [data]

/-- The id that `handleReceive` looks up stands in the frame. -/
theorem invokeID_of_receivedHeader {header}
    (h : receivedHeader data = some header) : invokeIDOf data = header.invokeID := by
  unfold receivedHeader at h
  split at h
  · cases h
  next hlen =>
  have hread : AMSHeader.layout.read data = some (AMSHeader.layout.get data, data.drop 32) :=
    if_neg hlen
  rw [binaryRead, hread] at h
  simp only at h
  split at h
  · cases h
  · rw [← Option.some.inj h]
    rfl

theorem Genuine.step {c c' x} (h : Genuine c)
    (hids : ∀ id n, c.shared.activeRequests id = some n → id = UInt32.ofNat n) (hs : step c x = some c') :
    Genuine c' := by
  obtain ⟨t, a⟩ := x
  obtain ⟨pc', sh', hact, rfl⟩ := exec_eq_some.1 hs
  generalize hpc : c.loc t = pc at hact
  cases act_moves hact with
  | quiet | giveUp _ | handshake => exact h.of_empty rfl (Subset.refl _) h.channels h.returned rfl
  | register =>
    exact h.of_empty rfl (Subset.refl _) h.channels h.returned rfl
  | goOn _ k _ _ _ hframe' => exact h.of_empty rfl (Subset.refl _) h.channels h.returned hframe'
  | receive _ k r hcall hframe hr =>
    have hfor := h.channels k.number r hr
    refine h.of_loc rfl (Subset.refl _) (fun n r' hr' => ?_) h.returned (fun f hf => ?_)
      fun n r' hr' => ?_
    · rcases update_eq_some.1 hr' with ⟨-, ⟨⟩⟩ | ⟨-, hr'⟩
      exact h.channels n r' hr'
    · cases hf
      exact hfor.frame
    · cases hr'
      exact hfor
  | leave k =>
    refine h.of_empty rfl (Subset.refl _) h.channels (fun x hx r hr => ?_) rfl
    rcases mem_cons.1 hx with rfl | hx
    · apply h.replies t k.number r
      rw [hpc]
      cases hr
      rfl
    · exact h.returned x hx r hr
  | take f q hq =>
    have hf : f ∈ c.shared.recvQueue := hq ▸ mem_cons_self
    refine h.of_loc rfl (fun g hg => hq ▸ mem_cons_of_mem f hg) h.channels h.returned
      (fun g hg => ?_) fun n r hr => ?_
    · cases hg
      exact h.queued f hf
    · cases hr
  | lookup f header n hheader hn =>
    have hreal : c.shared.received[f.serial]? = some f.data := h.held t f (by rw [hpc]; rfl)
    refine h.of_loc rfl (Subset.refl _) h.channels h.returned (fun g hg => ?_) fun m r hr => ?_
    · cases hg
      exact hreal
    · cases hr
      exact ⟨hreal, rfl, (invokeID_of_receivedHeader hheader).trans (hids _ _ hn)⟩
  | deliver n r =>
    have hfor : r.For c.shared.received n := h.replies t n r (by rw [hpc]; rfl)
    refine h.of_empty rfl (Subset.refl _) (fun m r' hr' => ?_) h.returned rfl
    rcases update_eq_some.1 hr' with ⟨rfl, heq⟩ | ⟨-, hr'⟩
    · cases heq
      exact hfor
    · exact h.channels m r' hr'
  | arrive data => exact h.arrive hpc data
  | reset => exact h.of_empty rfl (nil_subset _) h.channels h.returned rfl

end GenuineSteps

/-! ## No frame is in two places -/

/-- Where a frame can be. -/
inductive Spot
  | ahead
  | queue
  | party (t : Nat)
  | channel (n : Nat)
  | returned

/-- The frame a call has returned. -/
def serialOf (x : Call × Option Reply) : Option Nat := x.2.map fun r => r.frame.serial

/-- Frame number `s` is at `p`. -/
def At (c : State) (p : Spot) (s : Nat) : Prop :=
  match p with
  | .ahead => c.shared.received.length ≤ s
  | .queue => s ∈ c.shared.recvQueue.map Frame.serial
  | .party t => (c.loc t).frame.map Frame.serial = some s
  | .channel n => (c.shared.channels n).map (fun r => r.frame.serial) = some s
  | .returned => s ∈ c.shared.returned.filterMap serialOf

/-- Every frame is at the spot that is noted for it, and just once. -/
structure Located (spot : Nat → Spot) (c : State) : Prop where
  spot : ∀ p s, At c p s → spot s = p
  queued : (c.shared.recvQueue.map Frame.serial).Nodup
  returned : (c.shared.returned.filterMap serialOf).Nodup

section Spots

variable {c c' : State} {spot : Nat → Spot}

theorem Located.stay (h : Located spot c) (hat : ∀ p s, At c' p s → At c p s)
    (hq : (c'.shared.recvQueue.map Frame.serial).Nodup)
    (hr : (c'.shared.returned.filterMap serialOf).Nodup) : Located spot c' :=
  ⟨fun p s hs => h.spot p s (hat p s hs), hq, hr⟩

variable {k : Call} {s t : Nat} {pc' : Pc} {r : Reply}

theorem Located.move (h : Located spot c) {p q} (hs : At c p s)
    (hat : ∀ p' s', At c' p' s' → p' = q ∧ s' = s ∨ At c p' s' ∧ (p' = p → s' ≠ s))
    (hq : (c'.shared.recvQueue.map Frame.serial).Nodup) (hr : (c'.shared.returned.filterMap serialOf).Nodup) :
    Located (update spot s q) c' := by
  refine ⟨fun p' s' hs' => ?_, hq, hr⟩
  rcases hat p' s' hs' with ⟨rfl, rfl⟩ | ⟨hold, hne⟩
  · exact update_self ..
  rw [update_of_ne]
  · exact h.spot p' s' hold
  · rintro rfl
    exact hne ((h.spot p' s' hold).symm.trans (h.spot p s' hs)) rfl

theorem Located.init : Located (fun _ => .ahead) init := by
  refine ⟨fun p s hs => ?_, nodup_nil, nodup_nil⟩
  cases p with
  | ahead => rfl
  | queue | returned => exact absurd hs not_mem_nil
  | party | channel => cases hs

theorem at_loc {pc f} (hpc : c.loc t = pc) (hf : pc.frame = some f) : At c (.party t) f.serial := by
  subst hpc
  exact congrArg (Option.map _) hf

theorem at_party {sh u} (h : At ⟨sh, update c.loc t pc'⟩ (.party u) s) :
    u = t ∧ pc'.frame.map Frame.serial = some s ∨ u ≠ t ∧ At c (.party u) s := by
  by_cases hu : u = t
  · subst hu
    left
    have hframe : (update c.loc u pc' u).frame.map Frame.serial = some s := h
    rw [update_self] at hframe
    exact ⟨rfl, hframe⟩
  right
  have hframe : (update c.loc t pc' u).frame.map Frame.serial = some s := h
  rw [update_of_ne hu] at hframe
  exact ⟨hu, hframe⟩

section

variable (h : Located spot c)

include h

/-- A step after which the goroutine has no frame or the one it had, and the rest holds nothing new. -/
theorem Located.of_same {sh'}
    (hrec : sh'.received = c.shared.received) (hq : sh'.recvQueue.Sublist c.shared.recvQueue)
    (hch : sh'.channels = c.shared.channels)
    (hret : sh'.returned.filterMap serialOf = c.shared.returned.filterMap serialOf)
    (hframe : ∀ f, pc'.frame = some f → (c.loc t).frame = some f) :
    Located spot ⟨sh', update c.loc t pc'⟩ := by
  refine h.stay (fun p s hs => ?_) (h.queued.sublist (hq.map _)) (hret ▸ h.returned)
  cases p with
  | ahead => exact (congrArg List.length hrec.symm).trans_le hs
  | queue => exact (hq.map Frame.serial).subset hs
  | party u =>
    rcases at_party hs with ⟨rfl, hpc⟩ | ⟨-, hold⟩
    · obtain ⟨f, hf, rfl⟩ := Option.map_eq_some_iff.1 hpc
      show (c.loc u).frame.map Frame.serial = _
      rw [hframe f hf]
      rfl
    · exact hold
  | channel n =>
    have hch' : (sh'.channels n).map (fun r => r.frame.serial) = some s := hs
    rw [hch] at hch'
    exact hch'
  | returned =>
    have hret' : s ∈ sh'.returned.filterMap serialOf := hs
    rw [hret] at hret'
    exact hret'

theorem Located.receive (hr : c.shared.channels k.number = some r) :
    Located (update spot r.frame.serial (.party t))
      ⟨c.shared.receive k.number, update c.loc t (.leave k (some r))⟩ := by
  have hat : At c (.channel k.number) r.frame.serial := congrArg (Option.map _) hr
  refine h.move hat (fun p s hs => ?_) h.queued h.returned
  cases p with
  | ahead | queue | returned => exact .inr ⟨hs, by simp⟩
  | party =>
    rcases at_party hs with ⟨rfl, hpc⟩ | ⟨-, hold⟩
    · exact .inl ⟨rfl, (Option.some.inj hpc).symm⟩
    · exact .inr ⟨hold, by simp⟩
  | channel n =>
    obtain ⟨r', hr', rfl⟩ := Option.map_eq_some_iff.1 hs
    rcases update_eq_some.1 hr' with ⟨-, ⟨⟩⟩ | ⟨hn, hr'⟩
    exact .inr ⟨congrArg (Option.map _) hr', fun heq => absurd (Spot.channel.inj heq) hn⟩

theorem Located.leave (hpc : c.loc t = .leave k (some r)) :
    Located (update spot r.frame.serial .returned)
      ⟨c.shared.leave k (some r), update c.loc t .idle⟩ := by
  have hat : At c (.party t) r.frame.serial := at_loc hpc rfl
  have hnew : r.frame.serial ∉ c.shared.returned.filterMap serialOf := by
    intro hmem
    have := (h.spot (.party t) _ hat).symm.trans (h.spot .returned _ hmem)
    cases this
  refine h.move hat (fun p s hs => ?_) h.queued (nodup_cons.2 ⟨hnew, h.returned⟩)
  cases p with
  | ahead | queue | channel => exact .inr ⟨hs, by simp⟩
  | party =>
    rcases at_party hs with ⟨rfl, hidle⟩ | ⟨hu, hold⟩
    · cases hidle
    · exact .inr ⟨hold, fun heq => absurd (Spot.party.inj heq) hu⟩
  | returned =>
    rcases mem_cons.1 hs with rfl | hold
    · exact .inl ⟨rfl, rfl⟩
    · exact .inr ⟨hold, by simp⟩

theorem Located.take {f q} (hq : c.shared.recvQueue = f :: q) :
    Located (update spot f.serial (.party t))
      ⟨{ c.shared with recvQueue := q }, update c.loc t (.take f)⟩ := by
  have hnodup := h.queued
  rw [hq, map_cons, nodup_cons] at hnodup
  have hat : At c .queue f.serial := by
    show f.serial ∈ c.shared.recvQueue.map Frame.serial
    rw [hq]
    exact mem_cons_self
  refine h.move hat (fun p s hs => ?_) hnodup.2 h.returned
  cases p with
  | ahead | channel | returned => exact .inr ⟨hs, by simp⟩
  | queue =>
    have hmem : s ∈ q.map Frame.serial := hs
    refine .inr ⟨?_, fun _ heq => hnodup.1 (heq ▸ hmem)⟩
    show s ∈ c.shared.recvQueue.map Frame.serial
    rw [hq]
    exact mem_cons_of_mem _ hmem
  | party =>
    rcases at_party hs with ⟨rfl, hpc⟩ | ⟨-, hold⟩
    · exact .inl ⟨rfl, (Option.some.inj hpc).symm⟩
    · exact .inr ⟨hold, by simp⟩

theorem Located.deliver {n} (hpc : c.loc t = .deliver n r) :
    Located (update spot r.frame.serial (.channel n))
      ⟨{ c.shared with channels := update c.shared.channels n (some r) },
        update c.loc t .idle⟩ := by
  have hat : At c (.party t) r.frame.serial := at_loc hpc rfl
  refine h.move hat (fun p s hs => ?_) h.queued h.returned
  cases p with
  | ahead | queue | returned => exact .inr ⟨hs, by simp⟩
  | party =>
    rcases at_party hs with ⟨rfl, hidle⟩ | ⟨hu, hold⟩
    · cases hidle
    · exact .inr ⟨hold, fun heq => absurd (Spot.party.inj heq) hu⟩
  | channel m =>
    obtain ⟨r', hr', rfl⟩ := Option.map_eq_some_iff.1 hs
    rcases update_eq_some.1 hr' with ⟨rfl, heq⟩ | ⟨-, hr'⟩
    · cases heq
      exact .inl ⟨rfl, rfl⟩
    · exact .inr ⟨congrArg (Option.map _) hr', by simp⟩

/-- A new frame comes into the queue, or is lost because the queue is full. -/
theorem Located.arrive (hidle : c.loc t = .idle) (data : Bytes) :
    Located (update spot c.shared.received.length .queue)
      ⟨c.shared.arrive data, update c.loc t .idle⟩ := by
  rw [← hidle, update_eq_self]
  have hat : At c .ahead c.shared.received.length := Nat.le_refl _
  have hnew : c.shared.received.length ∉ c.shared.recvQueue.map Frame.serial := by
    intro hmem
    have := (h.spot .ahead _ hat).symm.trans (h.spot .queue _ hmem)
    cases this
  have hqueue : (c.shared.arrive data).recvQueue.Sublist
      (c.shared.recvQueue ++ [⟨c.shared.received.length, data⟩]) := by
    simp only [Shared.arrive]
    split
    · exact Sublist.refl _
    · exact sublist_append_left ..
  have hnodup : ((c.shared.recvQueue ++ [Frame.mk c.shared.received.length data]).map
      Frame.serial).Nodup := by
    rw [map_append]
    refine nodup_append.2 ⟨h.queued, nodup_cons.2 ⟨not_mem_nil, nodup_nil⟩, ?_⟩
    rintro s hs s' hs' rfl
    obtain rfl : s = c.shared.received.length := mem_singleton.1 hs'
    exact hnew hs
  refine h.move hat (fun p s hs => ?_) (hnodup.sublist (hqueue.map _)) h.returned
  cases p with
  | ahead =>
    have hlen : (c.shared.received ++ [data]).length ≤ s := hs
    rw [length_append, length_singleton] at hlen
    exact .inr ⟨Nat.le_of_succ_le hlen, fun _ => by omega⟩
  | queue =>
    have hmem := (hqueue.map Frame.serial).subset hs
    rw [map_append, mem_append] at hmem
    rcases hmem with hold | hmem
    · exact .inr ⟨hold, by simp⟩
    · exact .inl ⟨rfl, mem_singleton.1 hmem⟩
  | party | channel | returned => exact .inr ⟨hs, by simp⟩

theorem Located.step {x} (hs : step c x = some c') : ∃ spot', Located spot' c' := by
  obtain ⟨t, a⟩ := x
  obtain ⟨pc', sh', hact, rfl⟩ := exec_eq_some.1 hs
  generalize hpc : c.loc t = pc at hact
  -- a goroutine that ends up with no frame
  have hnone : ∀ {pc' : Pc}, pc'.frame = none → ∀ f, pc'.frame = some f → (c.loc t).frame = some f :=
    fun hn f hf => by
      rw [hn] at hf
      cases hf
  cases act_moves hact with
  | quiet | giveUp _ | handshake => exact ⟨spot, h.of_same rfl (.refl _) rfl rfl (hnone rfl)⟩
  | register =>
    exact ⟨spot, h.of_same rfl (.refl _) rfl rfl (hnone rfl)⟩
  | goOn _ k _ _ _ hframe' => exact ⟨spot, h.of_same rfl (.refl _) rfl rfl (hnone hframe')⟩
  | receive _ k r hcall hframe hr => exact ⟨_, h.receive hr⟩
  | leave k reply =>
    cases reply with
    | none => exact ⟨spot, h.of_same rfl (.refl _) rfl rfl (hnone rfl)⟩
    | some => exact ⟨_, h.leave hpc⟩
  | take f q hq => exact ⟨_, h.take hq⟩
  | lookup =>
    refine ⟨spot, h.of_same rfl (.refl _) rfl rfl fun g hg => ?_⟩
    rw [hpc]
    exact hg
  | deliver => exact ⟨_, h.deliver hpc⟩
  | arrive data => exact ⟨_, h.arrive hpc data⟩
  | reset => exact ⟨spot, h.of_same rfl (nil_sublist _) rfl rfl (hnone rfl)⟩

end

end Spots

/-! ## Replies reach their own request -/

/-- The invariants, together. -/
structure Inv (c : State) : Prop where
  calls : Calls c
  genuine : Genuine c
  located : ∃ spot, Located spot c

theorem inv_of_run {c} (h : Run step Bounded init c) : Inv c := by
  refine h.invariant (P := Inv) ⟨.init, .init, _, .init⟩ ?_
  rintro c x c' ⟨hcalls, hgenuine, spot, hspot⟩ hb hs
  refine ⟨hcalls.step hb hs, hgenuine.step (fun id n hn => ?_) hs, hspot.step hs⟩
  -- the entry belongs to an outstanding call
  obtain ⟨k, hk, rfl, rfl⟩ := hcalls.entries id n hn
  exact (hcalls.tagged k hk).id

/-- **Replies reach exactly their own request.**  What a call returns is the body of a received frame with
    the invoke id of its own request frame; no frame is returned twice; a call that has returned has no
    entry, and those that have not still have theirs. -/
theorem replies_reach_own_request {c : State} (h : Run step Bounded init c) :
    (∀ x ∈ c.shared.returned, ∀ r body, x.2 = some r → r.payload = .ok body →
      ∃ data, c.shared.received[r.frame.serial]? = some data ∧ body = data.drop amsHeaderSize ∧
        invokeIDOf data = invokeIDOf (x.1.pack.drop AMSTCPHeader.layout.size)) ∧
    (c.shared.returned.filterMap serialOf).Nodup ∧
    (∀ x ∈ c.shared.returned, ∀ id, c.shared.activeRequests id ≠ some x.1.number) ∧
    ∀ k ∈ c.shared.outstanding, k.map = c.shared.maps →
      c.shared.activeRequests k.id = some k.number := by
  obtain ⟨hcalls, hgenuine, spot, hspot⟩ := inv_of_run h
  refine ⟨fun x hx r body hr hbody => ?_, hspot.returned, fun x hx id hentry => ?_, hcalls.listed⟩
  · obtain ⟨hframe, hdata, hid⟩ := hgenuine.returned x hx r hr
    obtain ⟨htag, -, -⟩ := hcalls.past x hx
    refine ⟨r.frame.data, hframe, ?_, ?_⟩
    · unfold Reply.payload at hbody
      split at hbody
      · cases hbody
      · cases hbody
        exact hdata
    · rw [hid, htag.pack, htag.id]
  · obtain ⟨k, hk, hn, -⟩ := hcalls.entries id _ hentry
    exact (hcalls.past x hx).2.2 k hk hn

/-- The frame of an empty reply. -/
def emptyReply (id : UInt32) : Bytes :=
  let address : AMSAddress := ⟨.replicate 6 1, 851⟩
  (encodeTo address address 2 [] id).drop AMSTCPHeader.layout.size

/-- Two calls are answered in the other order, the first of them twice. -/
theorem replies_reach_own_request_crossed : ∃ c, Run step Bounded init c ∧
      c.shared.returned.map (fun x => (x.1.id, serialOf x)) = [(2, some 0), (1, some 1)] ∧
      (c.shared.returned.filterMap serialOf).Nodup ∧
      ∀ x ∈ c.shared.returned, ∀ id, c.shared.activeRequests id ≠ some x.1.number := by
  let address : AMSAddress := ⟨.replicate 6 1, 851⟩
  let ask : Act := .sendRequestTo address address 2 []
  obtain ⟨c, hrun, hp⟩ := exists_run step Bounded init
    (fun c => c.shared.returned.map (fun x => (x.1.id, serialOf x)) = [(2, some 0), (1, some 1)])
    ([(0, ask), (1, ask), (0, .next), (1, .next), (2, .arrive (emptyReply 2)),
      (2, .arrive (emptyReply 1)), (2, .arrive (emptyReply 1)), (3, .recvWorker), (4, .recvWorker),
      (4, .next), (4, .next), (5, .recvWorker), (5, .next), (3, .next), (3, .next), (0, .next),
      (0, .next), (5, .next), (1, .dropped), (1, .next), (1, .next)] : List (Nat × Act))
    (by decide +kernel)
  have hresult := replies_reach_own_request hrun
  exact ⟨c, hrun, hp, hresult.2.1, hresult.2.2.1⟩

end GoAds.Wire.Requests
