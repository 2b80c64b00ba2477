import GoAds.Wire.Replies

/-!
# `Wire.Stalls` — what the receive side can wait for

A frame for `notifQueue` or `recvQueue` is dropped when the queue is full; one for `systemResponse` is not,
and the channel holds one.  With no handshake to take it, the second system frame stops `readFrames` until
the context ends.  A worker waits when the channel of the call it has looked up is full, which holds one reply
too: two frames of one invoke id that are looked up before the call gives up leave the second worker behind.
-/

open List

namespace GoAds.Wire

/-! ## The hand-offs of `readFrames` -/

/-- The connection is up, and no handshake takes a system frame. -/
def Turn.Up (turn : Turn) : Prop := turn.done .send = false ∧ turn.taken .system = 0

/-- A round in which nobody takes anything. -/
def Turn.still : Turn := ⟨fun _ => false, fun _ => 0⟩

/-- A frame is handed on; nothing when `readFrames` waits. -/
def handOff (queues : Queues) (x : Turn × AMSTCPHeader × Bytes) : Option Queues :=
  route x.1 queues x.2.1 x.2.2

def toSystem (x : Turn × AMSTCPHeader × Bytes) : Bool := decide (x.2.1.system > 0)

variable {queues : Queues} {x : Turn × AMSTCPHeader × Bytes}

theorem handOff_system (hup : x.1.Up) (hs : toSystem x = true) :
    handOff queues x = if (queues .system).length < Queue.system.capacity then
      some (Function.update (fun k => (queues k).drop (x.1.taken k)) .system (queues .system ++ [x.2.2]))
      else none := by
  have hq : queueOf x.2.1 x.2.2 = .system := if_pos (of_decide_eq_true hs)
  unfold handOff route
  simp only [hq, hup.1, hup.2, drop_zero, Bool.false_eq_true, if_false]

/-- Any other frame is put into its queue or dropped. -/
theorem handOff_other (hup : x.1.Up) (hs : toSystem x = false) :
    ∃ queues', handOff queues x = some queues' ∧ queues' .system = queues .system := by
  have hq : queueOf x.2.1 x.2.2 ≠ .system := by
    rw [queueOf, if_neg (of_decide_eq_false hs)]
    split <;> decide
  unfold handOff route
  simp only [hup.1, Bool.false_eq_true, if_false]
  generalize queueOf x.2.1 x.2.2 = k at hq
  split
  · refine ⟨_, rfl, ?_⟩
    rw [Function.update_of_ne hq.symm, hup.2, drop_zero]
  cases k with
  | system => exact absurd rfl hq
  | notif | recv => exact ⟨_, rfl, by rw [hup.2, drop_zero]⟩

/-- Frames are handed on as long as `systemResponse` has room for those that are for it. -/
theorem handOffs_isSome (rs : List (Turn × AMSTCPHeader × Bytes)) (hup : ∀ x ∈ rs, x.1.Up)
    (hlen : (queues .system).length ≤ Queue.system.capacity) : (rs.foldlM handOff queues).isSome = true ↔
      (queues .system).length + rs.countP toSystem ≤ Queue.system.capacity := by
  induction rs generalizing queues with
  | nil => simpa using hlen
  | cons x rs ih =>
    have hx := hup x (mem_cons_self ..)
    have hrest := fun y hy => hup y (mem_cons_of_mem x hy)
    rw [foldlM_cons, countP_cons]
    cases hs : toSystem x with
    | true =>
      rw [handOff_system hx hs]
      split
      · next hroom =>
        have hsys : ∀ qs : Queues, Function.update qs .system (queues .system ++ [x.2.2]) .system =
            queues .system ++ [x.2.2] := fun qs => Function.update_self ..
        refine (ih hrest ?_).trans ?_
        · rw [hsys, length_append]
          exact hroom
        · rw [hsys, length_append, length_singleton, if_pos rfl]
          omega
      next hfull =>
      refine iff_of_false (fun h => nomatch h) ?_
      rw [if_pos rfl]
      omega
    | false =>
      obtain ⟨queues', hok, hsame⟩ := handOff_other hx hs
      rw [hok]
      refine (ih hrest (hsame ▸ hlen)).trans ?_
      rw [hsame]
      simp

end GoAds.Wire

namespace GoAds.Wire.Requests

open Interleaving

/-! ## The send of a worker -/

/-- No frame arrives with the invoke id of an earlier one. -/
def Single (c : State) : Nat × Act → Prop
  | (_, .arrive data) => invokeIDOf data ∉ c.shared.received.map invokeIDOf
  | _ => True

instance (c : State) (x : Nat × Act) : Decidable (Single c x) := by
  unfold Single
  split <;> infer_instance

/-- What holds of ids however many requests are issued, and of frames that are all of their own id. -/
structure SingleInv (c : State) : Prop where
  counter : c.shared.currentRequest = UInt32.ofNat c.shared.issued
  entries : ∀ id n, c.shared.activeRequests id = some n → id = UInt32.ofNat n
  genuine : Genuine c
  located : ∃ spot, Located spot c
  distinct : (c.shared.received.map invokeIDOf).Nodup

variable {c c' : State}

theorem counter_succ (h : c.shared.currentRequest = UInt32.ofNat c.shared.issued) :
    c.shared.currentRequest + 1 = UInt32.ofNat (c.shared.issued + 1) := by
  rw [h, UInt32.ofNat_add]
  rfl

theorem SingleInv.step {x} (h : SingleInv c) (hok : Single c x) (hs : step c x = some c') :
    SingleInv c' := by
  obtain ⟨spot, hspot⟩ := h.located
  have hgenuine := h.genuine.step h.entries hs
  have hlocated := hspot.step hs
  obtain ⟨t, a⟩ := x
  obtain ⟨pc', sh', hact, rfl⟩ := Conf.exec_eq_some.1 hs
  generalize c.loc t = pc at hact
  cases act_moves hact with
  | register source target command data =>
    refine ⟨counter_succ h.counter, fun id n hn => ?_, hgenuine, hlocated, h.distinct⟩
    rcases update_eq_some.1 hn with ⟨rfl, heq⟩ | ⟨-, hn⟩
    · rw [← Option.some.inj heq]
      exact counter_succ h.counter
    · exact h.entries id n hn
  | leave k reply =>
    refine ⟨h.counter, fun id n hn => ?_, hgenuine, hlocated, h.distinct⟩
    rcases update_eq_some.1 hn with ⟨-, ⟨⟩⟩ | ⟨-, hn⟩
    exact h.entries id n hn
  | handshake => exact ⟨counter_succ h.counter, h.entries, hgenuine, hlocated, h.distinct⟩
  | reset => exact ⟨h.counter, nofun, hgenuine, hlocated, h.distinct⟩
  | arrive data =>
    refine ⟨h.counter, h.entries, hgenuine, hlocated, ?_⟩
    show ((c.shared.received ++ [data]).map invokeIDOf).Nodup
    rw [map_append, nodup_append]
    refine ⟨h.distinct, nodup_cons.2 ⟨nofun, nodup_nil⟩, fun id hid id' hid' heq => hok ?_⟩
    rwa [← mem_singleton.1 hid', ← heq]
  | _ => exact ⟨h.counter, h.entries, hgenuine, hlocated, h.distinct⟩

/-- The channel of the call that a worker has looked up is empty. -/
theorem SingleInv.empty (h : SingleInv c) {t n r} (hpc : c.loc t = .deliver n r) :
    c.shared.channels n = none := by
  rw [Option.eq_none_iff_forall_ne_some]
  intro r' hr'
  obtain ⟨hframe, -, hid⟩ := h.genuine.replies t n r (by rw [hpc]; rfl)
  obtain ⟨hframe', -, hid'⟩ := h.genuine.channels n r' hr'
  -- both frames carry the id of the call, so they are one frame, in two places
  have hget : (c.shared.received.map invokeIDOf)[r.frame.serial]? =
      (c.shared.received.map invokeIDOf)[r'.frame.serial]? := by
    rw [getElem?_map, getElem?_map, hframe, hframe', Option.map_some, Option.map_some, hid, hid']
  have hlt : r.frame.serial < (c.shared.received.map invokeIDOf).length := by
    rw [length_map]
    exact (List.getElem?_eq_some_iff.1 hframe).1
  have hserial : r.frame.serial = r'.frame.serial := (getElem?_inj hlt h.distinct).1 hget
  obtain ⟨spot, hspot⟩ := h.located
  have hparty : At c (.party t) r.frame.serial := by
    show (c.loc t).frame.map Frame.serial = _
    rw [hpc]
    rfl
  have hchannel : At c (.channel n) r'.frame.serial := by
    show (c.shared.channels n).map (fun r => r.frame.serial) = _
    rw [hr']
    rfl
  cases (hspot.spot _ _ hparty).symm.trans (hserial ▸ hspot.spot _ _ hchannel)

/-- **The receive side does not stall**, as long as the peer sends one system frame at most and no invoke id
    twice: exactly then every frame is handed on, however the queues fill; and no worker waits at its
    send. -/
theorem receive_side_free (rs : List (Turn × AMSTCPHeader × Bytes)) (hup : ∀ x ∈ rs, x.1.Up)
    (hrun : Run step Single init c) :
    ((rs.foldlM handOff fun _ => []).isSome = true ↔ rs.countP toSystem ≤ 1) ∧
      ∀ t n r, c.loc t = .deliver n r → ∃ c', step c (t, .next) = some c' := by
  constructor
  · have h := @handOffs_isSome (fun _ => []) rs hup (Nat.zero_le _)
    rwa [length_nil, Nat.zero_add] at h
  intro t n r hpc
  have hinv : SingleInv c := hrun.invariant (P := SingleInv)
    ⟨rfl, nofun, .init, ⟨_, .init⟩, nodup_nil⟩ fun _ _ _ hi hok hs => hi.step hok hs
  have hact : ∃ y, act t (c.loc t) c.shared .next = some y := by
    rw [hpc]
    simp [act, hinv.empty hpc]
  obtain ⟨y, hy⟩ := hact
  exact ⟨_, Conf.exec_eq_some.2 ⟨y.1, y.2, hy, rfl⟩⟩

/-- A request with no data, to the address that `emptyReply` answers from. -/
def emptyRequest : Act :=
  let address : AMSAddress := ⟨.replicate 6 1, 851⟩
  .sendRequestTo address address 2 []

/-- A system frame and a reply are handed on, and the worker at its send goes on. -/
theorem receive_side_free_reply :
    ∃ c, Run step Single init c ∧ c.loc 2 = .deliver 1 ⟨⟨0, emptyReply 1⟩, [], 0⟩ ∧
      (([(Turn.still, ⟨0, 1, 0⟩, []), (Turn.still, ⟨0, 0, 32⟩, emptyReply 1)].foldlM handOff
        fun _ => []).isSome = true) ∧ ∃ c', step c (2, .next) = some c' := by
  obtain ⟨c, hrun, hpc⟩ := exists_run step Single init
    (fun c => c.loc 2 = .deliver 1 ⟨⟨0, emptyReply 1⟩, [], 0⟩)
    ([(0, emptyRequest), (0, .next), (1, .arrive (emptyReply 1)), (2, .recvWorker), (2, .next)] :
      List (Nat × Act))
    (by decide +kernel)
  have hfree := receive_side_free [(Turn.still, ⟨0, 1, 0⟩, []), (Turn.still, ⟨0, 0, 32⟩, emptyReply 1)]
    (by simp [Turn.Up, Turn.still]) hrun
  exact ⟨c, hrun, hpc, hfree.1.2 (by decide), hfree.2 2 1 _ hpc⟩

/-- Two system frames stop `readFrames`; and of two replies to one request that are looked up before it times
    out, the worker of the second still waits when the call has returned. -/
theorem receive_side_stalls :
    ([(Turn.still, ⟨0, 1, 0⟩, []), (Turn.still, ⟨0, 1, 0⟩, [])].foldlM handOff fun _ => []) = none ∧
    ∃ c, Run step anyStep init c ∧ c.loc 3 = .deliver 1 ⟨⟨1, emptyReply 1⟩, [], 0⟩ ∧
      c.shared.returned.map (fun x => x.1.number) = [1] ∧ step c (3, .next) = none := by
  refine ⟨rfl, ?_⟩
  obtain ⟨c, hrun, hpc, hreturned, hwaits⟩ := exists_run step anyStep init
    (fun c => c.loc 3 = .deliver 1 ⟨⟨1, emptyReply 1⟩, [], 0⟩ ∧
      c.shared.returned.map (fun x => x.1.number) = [1] ∧ (step c (3, .next)).isNone)
    ([(0, emptyRequest), (0, .next), (1, .arrive (emptyReply 1)), (1, .arrive (emptyReply 1)),
      (2, .recvWorker), (3, .recvWorker), (2, .next), (3, .next), (2, .next), (0, .ctxDone), (0, .next)] :
      List (Nat × Act))
    (by decide +kernel)
  exact ⟨c, hrun, hpc, hreturned, Option.isNone_iff_eq_none.1 hwaits⟩

end GoAds.Wire.Requests
